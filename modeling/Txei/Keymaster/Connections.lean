import Txei.Mei.Connections
import Txei.Keymaster.Capabilities

/-!
# Connections of the keymaster

A call makes up to two exchanges, and each has a connection of its own. `connections_tidy` says
that no call of a history leaves a descriptor open, whatever it returns, and that the second
connection is not opened before the first is closed.
-/

namespace Txei.Keymaster

open Machine Machine.Prog Mei

/-! ## Parts that make no calls -/

theorem access_swapByteOrder (b : Block) (o bufLen : Nat) :
    Within Event.IsAccess (swapByteOrder b o bufLen) := by
  unfold swapByteOrder
  generalize bufLen / 2 = n
  induction n with
  | zero => exact within_pure _
  | succ n ih =>
      refine .bind ih fun _ m e he => ?_
      simp [swapStep] at he
      rcases he with rfl | rfl | rfl | rfl | rfl | rfl | rfl | rfl | rfl <;> simp

theorem Command.access_cmdBuf (c : Command) : Within Event.IsAccess c.cmdBuf := by
  cases c with
  | generateKeypair =>
      show Within _ generateKeypairCmdBuf
      unfold generateKeypairCmdBuf
      refine .bind (by simp) fun _ => .bind (within_exitIf _ _) fun _ => ?_
      refine .bind (by simp) fun _ => .bind (within_exitIf _ _) fun _ => ?_
      refine .bind (by simp) fun _ => .bind (by simp) fun _ => .bind (by simp) fun _ => ?_
      exact .bind (access_swapByteOrder _ _ _) fun _ => by simp
  | importKeypair =>
      show Within _ importKeypairCmdBuf
      unfold importKeypairCmdBuf
      repeat' refine .bind ?_ fun _ => ?_
      all_goals simp
  | getKeypairPublic =>
      show Within _ getPublicKeypairCmdBuf
      unfold getPublicKeypairCmdBuf
      repeat' refine .bind ?_ fun _ => ?_
      all_goals simp
  | signData =>
      show Within _ signDataCmdBuf
      unfold signDataCmdBuf
      repeat' refine .bind ?_ fun _ => ?_
      all_goals simp
  | verifyData =>
      show Within _ verifyDataCmdBuf
      unfold verifyDataCmdBuf
      repeat' refine .bind ?_ fun _ => ?_
      all_goals simp

theorem access_translateCmd (mallocRequest : Bool) :
    Within Event.IsAccess (translateCmd mallocRequest) := by
  unfold translateCmd generateCmdBuf
  refine .bind (by simp) fun _ => .bind (.bind (by simp) fun cmdId => ?_) fun _ => ?_
  · cases Command.ofHalId cmdId with
    | none => exact within_exit _
    | some c =>
        refine .bind (by simp) fun _ => .bind (within_exitIf _ _) fun _ => ?_
        refine .bind (by simp) fun _ => .bind (by simp) fun _ => .bind (by simp) fun _ => ?_
        exact .bind c.access_cmdBuf fun _ => within_pure _
  · exact .bind (within_exitIf _ _) fun _ => within_pure _

theorem access_capsRounds (n : Nat) : Within Event.IsAccess (capsRounds n) := by
  induction n with
  | zero => exact within_pure _
  | succ n ih =>
      refine .bind (.bind (by simp) fun _ => .onlyIf (.bind (by simp) fun _ => by simp)) ?_
      exact fun _ => ih

theorem access_setPayload {n sizeField fixed : Nat} {copy : Nat → Proc Unit}
    (hcopy : ∀ size, Within Event.IsAccess (copy size)) :
    Within Event.IsAccess (setPayload n sizeField fixed copy) := by
  refine .bind (by simp) fun _ => .bind ?_ fun _ => hcopy _
  refine .bind (by simp) fun _ => .bind (by simp) fun _ => .bind (by simp) fun _ => ?_
  exact .bind (by simp) fun _ => within_exitIf _ _

theorem access_setData (n : Nat) (c : Option Command) :
    Within Event.IsAccess (setData n c) := by
  have hblob : ∀ size, Within Event.IsAccess (copyKeyBlob size) :=
    fun size => .bind (by simp) fun _ => .bind (by simp) fun _ => by simp
  match c with
  | some .generateKeypair => exact access_setPayload hblob
  | some .importKeypair => exact access_setPayload hblob
  | some .getKeypairPublic =>
      refine access_setPayload fun size => ?_
      refine .bind (by simp) fun _ => .bind (by simp) fun _ => .bind (by simp) fun _ => ?_
      exact .bind (by simp) fun _ => by simp
  | some .signData => exact access_setPayload fun size => .bind (by simp) fun _ => by simp
  | some .verifyData =>
      exact .bind (by simp) fun _ => .bind (by simp) fun _ => .bind (by simp) fun _ => by simp
  | none => exact within_pure _

theorem access_decodeReply : Within Event.IsAccess decodeReply := by
  unfold decodeReply setResponseCmdId setResponseStatusAndData
  refine .bind (by simp) fun _ => .bind (by simp) fun _ => .bind (by simp) fun n => ?_
  refine .bind (by simp) fun _ => .ite (.bind (by simp) fun _ => .bind (by simp) fun id => ?_) ?_
  · exact access_setData n _
  · exact .bind (by simp) fun _ => .bind (by simp) fun _ => by simp

/-! ## One call -/

/-- The connection is closed before the status of the exchange is tested. -/
theorem tidy_sendReqToFw (x : Exchange) (req : Block) (reqLen : Nat) (resp : Block)
    (respLen : Nat) : Tidy descriptor (sendReqToFw x req reqLen resp respLen) := by
  refine tidy_meiConnect_bind (within_exit _) (Releasing.bind ?_ ?_ fun status => ?_)
  · exact access_meiSndRcv x x.connect.openFd req resp reqLen respLen
  · intro m
    obtain ⟨status, hstatus, -⟩ := run_meiSndRcv (ε := Failure) x req resp reqLen respLen m
    exact ⟨status, hstatus⟩
  · exact releasing_meiDisconnect_bind (within_exitIf _ _)

theorem tidy_getCaps (mallocCaps : Bool) (x : Exchange) :
    Tidy descriptor (getCaps mallocCaps x) := by
  have hquiet {α : Type} {y : Proc α} (h : Within Event.IsAccess y) : Tidy descriptor y :=
    tidy_of_access h
  unfold getCaps
  refine .bind (hquiet (within_exitIf _ _)) fun _ => .bind (hquiet (by simp)) fun _ => ?_
  refine .bind (hquiet (by simp)) fun _ => .bind (hquiet (by simp)) fun _ => ?_
  refine .bind (hquiet (by simp)) fun _ => .bind (tidy_sendReqToFw _ _ _ _ _) fun _ => ?_
  refine .bind (hquiet (by simp)) fun _ => .bind (hquiet (within_exitIf _ _)) fun _ => ?_
  exact .bind (hquiet (by simp)) fun _ => hquiet (access_capsRounds _)

theorem tidy_prologue (args : Args) (env : Env) : Tidy descriptor (prologue args env) := by
  unfold prologue
  refine .bind (tidy_of_access (within_exitIf _ _)) fun _ => ?_
  refine .bind (tidy_of_access (within_exitIf _ _)) fun _ => ?_
  refine .bind (tidy_of_access (by simp)) fun _ => ?_
  refine .bind (tidy_of_access (within_exitIf _ _)) fun _ => ?_
  refine .bind (tidy_of_access (by simp)) fun _ => .onlyIf ?_
  exact .bind (tidy_getCaps _ _) fun _ => tidy_of_access (by simp)

theorem tidy_exchangeReply (env : Env) (fwRequestLen : Nat) :
    Tidy descriptor (exchangeReply env fwRequestLen) := by
  unfold exchangeReply
  refine .bind (tidy_of_access (by simp)) fun _ => ?_
  refine .bind (tidy_of_access (within_exitIf _ _)) fun _ => ?_
  exact .bind (tidy_of_access (by simp)) fun _ => tidy_sendReqToFw _ _ _ _ _

/-- A call closes what it opens before it opens anything else. -/
theorem tidy_sepKeymasterSendCmd (args : Args) (env : Env) :
    Tidy descriptor (sepKeymasterSendCmd args env) := by
  unfold sepKeymasterSendCmd
  refine .bind (tidy_prologue args env) fun _ => ?_
  refine .bind (tidy_of_access (access_translateCmd _)) fun n => ?_
  exact .bind (tidy_exchangeReply env n) fun _ => tidy_of_access access_decodeReply

/-! ## Every run -/

/-- The descriptors that a call opens and closes. -/
def Call.descriptors (call : Call) (statics : Mem Block) : List (Entry Int) :=
  ledger descriptor (call.run statics).log

/-- The descriptors of a history of calls. -/
def descriptorsOf (h : List Call) : List (Entry Int) :=
  Machine.entriesOf Call.step (fun statics call => call.descriptors statics) (fun _ _ => 0) h

/-- In every run the calls leave open what was open before them, and at most one descriptor more
is open at any moment. -/
theorem connections_tidy (h : List Call) : TidyLedger (descriptorsOf h) := by
  refine tidyLedger_entriesOf (fun statics call => ?_) _ h
  exact tidy_sepKeymasterSendCmd call.args call.env (call.start statics)

end Txei.Keymaster

import Txei.Machine.Flow
import Txei.Ipt.ShortReply

/-!
# One call, run twice

Two runs of one call, from memories that agree on the arguments of the call and may differ in what
earlier calls left in the request structure and the reply structure. Both front ends clear both
structures before they fill in a request, so the runs agree from there on on every byte that is
read, and `Request.prog_same` concludes that they are the same run.
-/

namespace Txei.Ipt

open Machine Machine.Prog Mei Tee

/-! ## The calls -/

/-- A call of the library with its arguments, except for what lies behind the pointers. `tvSec` is
the time of day. -/
inductive Request where
  | iptSendMessage (tvSec : Nat) (a : Args)
  | mvsepfwInitialize
  | mvsepfwDeinitialize
  | mvsepfwConnect
  | mvsepfwDisconnect
  | mvsepfwSendmessage (a : MvfwArgs)
  deriving DecidableEq, Repr

namespace Request

/-- The function that is called. -/
def prog (x : Exchange) : Request → Proc Nat
  | iptSendMessage tvSec a => Ipt.iptSendMessage x tvSec a
  | mvsepfwInitialize => Ipt.mvsepfwInitialize x
  | mvsepfwDeinitialize => Ipt.mvsepfwDeinitialize x
  | mvsepfwConnect => Ipt.mvsepfwConnect x
  | mvsepfwDisconnect => Ipt.mvsepfwDisconnect x
  | mvsepfwSendmessage a => Ipt.mvsepfwSendmessage x a

/-- The bytes behind the pointers that are arguments: the message and the capacity. -/
def Argument : Request → Region Block
  | iptSendMessage _ a => fun b i =>
      b = .inData ∧ i < a.inDataLength.toNat ∨ b = .outDataLength ∧ i < 2
  | mvsepfwSendmessage a => fun b i =>
      b = .inData ∧ i < a.inDataLength.toNat ∨ b = .outDataLength ∧ i < 4
  | _ => fun _ _ => False

/-- `*out_data_length`. -/
def lengthIn (m : Mem Block) : Request → Nat
  | iptSendMessage _ _ => m.half .outDataLength 0
  | mvsepfwSendmessage _ => m.word .outDataLength 0
  | _ => 0

/-- The `out_data_length` that a reply of which `got` was received leaves in the reply structure,
if the call copies that much. -/
def copied (m : Mem Block) (got : List UInt8) : Request → Nat
  | iptSendMessage _ _ => outLengthOf got
  | mvsepfwSendmessage _ => mvfwLengthOf (m.word .outDataLength 0) got
  | _ => 0

end Request

/-! ## The exchange, side by side -/

/-- The region `S` and the two structures up to their ends. -/
def Cleared (S : Region Block) : Region Block := fun b i =>
  S b i ∨ b = .gReqParam ∧ i < IptSendMsgCmdFromHost.size ∨
    b = .gRespParam ∧ i < IptSendMsgCmdToHost.size

section Exchange

variable {x : Exchange} {S : Region Block} {m m' : Mem Block}

/-- The exchange reads the request structure up to its end. -/
theorem transfer_same (hagree : Mem.Agree S m m')
    (hreq : ∀ i < IptSendMsgCmdFromHost.size, S .gReqParam i) :
    ((transfer x).run m).Same ((transfer x).run m') := by
  have hw : Within (Event.ReadsIn S) (transfer x) := by
    refine .bind (within_processCmd x _ _ _ _ _ _ ?_ ?_) fun _ => within_exitIf _ _
    · simpa only [Event.readsIn_read, Nat.zero_add] using hreq
    · exact fun j _ => Event.readsIn_write S _ _ _
  exact hw.same_of_agree hagree

/-- What follows a successful exchange works on the reply laid over the reply structure. -/
theorem transfer_ok {u : Unit} (h : ((transfer x).run m).result = .ok u) :
    ∃ got, x.received IptSendMsgCmdToHost.size = some got ∧
      ((transfer x).run m).mem = m.fill .gRespParam got := by
  cases hgot : x.received IptSendMsgCmdToHost.size with
  | none => exact nomatch h.symm.trans ((transfer_spec x m).1 hgot)
  | some got => exact ⟨got, rfl, ((transfer_spec x m).2 got hgot).2⟩

theorem within_copyMessage :
    Within (Event.In [.gRespParam] [.outDataLength, .outData]) copyMessage := by
  unfold copyMessage
  refine .bind (by simp) fun _ => .bind (within_exitIf _ _) fun _ => .bind (by simp) fun _ => ?_
  exact .bind (by simp) fun _ => .onlyIf (by simp)

theorem within_copyMvfw :
    Within (Event.In [.gRespParam] [.outDataLength, .outData]) copyMvfw := by
  unfold copyMvfw
  refine .bind (by simp) fun _ => .bind (within_exitIf _ _) fun _ => .bind (by simp) fun _ => ?_
  exact .bind (by simp) fun _ => .bind (.onlyIf (by simp)) fun _ => within_pure _

/-- A program that reads the reply structure only, and there only bytes in `S`. -/
theorem same_of_reply_reads {α : Type} {copy : Proc α} {W : List Block} {n : Nat}
    (hagree : Mem.Agree S m m') (hw : Within (Event.In [.gRespParam] W) copy)
    (hbelow : Log.ReadsBelow .gRespParam n (copy.run m).log) (hS : ∀ i < n, S .gRespParam i) :
    (copy.run m).Same (copy.run m') := by
  refine same_of_reads hagree fun e he b i hr => ?_
  by_cases hb : b ∈ [Block.gRespParam]
  · rw [List.mem_singleton] at hb
    subst hb
    exact hS i (hbelow e he i hr)
  · exact absurd hr ((hw m e he).not_reads hb i)

theorem copyMessage_same (hagree : Mem.Agree S m m')
    (hS : ∀ i < 12 + wrap16 (repliedLength m), S .gRespParam i) :
    (copyMessage.run m).Same (copyMessage.run m') := by
  refine same_of_reply_reads hagree within_copyMessage ?_ hS
  by_cases hs : repliedStatus m = iptSuccess
  · obtain ⟨-, -, -, -, hreads⟩ := copyMessage_accepted m hs
    exact (hreads _ (Nat.le_add_right _ _)).mpr (Nat.le_refl _)
  · rw [copyMessage_refused m hs]
    intro e he i hr
    rw [List.mem_singleton.mp he] at hr
    exact Nat.lt_of_lt_of_le hr.2.2 (Nat.le_add_right_of_le (by decide))

theorem copyMvfw_same (hagree : Mem.Agree S m m')
    (hS : ∀ i < 12 + repliedLength m, S .gRespParam i) :
    (copyMvfw.run m).Same (copyMvfw.run m') := by
  refine same_of_reply_reads hagree within_copyMvfw ?_ hS
  by_cases hs : repliedStatus m = mvfwSuccess
  · obtain ⟨-, -, -, -, hreads⟩ := copyMvfw_accepted m hs
    exact (hreads _ (Nat.le_add_right _ _)).mpr (Nat.le_refl _)
  · rw [copyMvfw_refused m hs]
    intro e he i hr
    rw [List.mem_singleton.mp he] at hr
    exact Nat.lt_of_lt_of_le hr.2.2 (Nat.le_add_right_of_le (by decide))

/-- The exchange of a message depends on what lies in `Cleared S`, when the reply fits or `S` has
all of the reply buffer. -/
theorem exchangeMessage_same (hagree : Mem.Agree (Cleared S) m m')
    (hzero : ∀ i < IptSendMsgCmdToHost.size, m .gRespParam i = 0)
    (hfit : (∀ got, x.received IptSendMsgCmdToHost.size = some got →
      outLengthOf got ≤ maxMsgToHostLengthInBytes) ∨ ∀ i, Cleared S .gRespParam i) :
    ((exchangeMessage x (some x.connect.openFd)).run m).Same
      ((exchangeMessage x (some x.connect.openFd)).run m') := by
  rw [exchangeMessage_run, exchangeMessage_run]
  refine same_bind (f := fun _ => copyMessage) hagree
    (transfer_same hagree fun i hi => .inr (.inl ⟨rfl, hi⟩)) fun _ hok hagree => ?_
  refine copyMessage_same hagree fun i hi => ?_
  rcases hfit with hfit | hall
  · obtain ⟨got, hgot, hmem⟩ := transfer_ok hok
    have hlength : repliedLength (m.fill .gRespParam got) = outLengthOf got :=
      Mem.word_fill_of_zero _ _ got hzero (by decide)
    have hwrap : wrap16 (outLengthOf got) ≤ outLengthOf got := Nat.mod_le _ _
    have hle := hfit got hgot
    rw [hmem, hlength] at hi
    refine .inr (.inr ⟨rfl, Nat.lt_of_lt_of_le hi ?_⟩)
    exact Nat.add_le_add_left (Nat.le_trans hwrap hle) 12
  · exact hall i

/-- The other commands return the status of the reply. -/
theorem exchangeMvfw_run_other {cmdId : Nat} (hid : cmdId ≠ mvfwSendMsgCmdId) (m : Mem Block) :
    (exchangeMvfw x (some x.connect.openFd) cmdId).run m =
      ((transfer x).run m).andThen fun _ =>
        (load .gRespParam IptHeader.status : Proc Nat).run := by
  unfold exchangeMvfw transfer
  simp only [if_neg hid]
  rw [run_bind, run_bind, Run.andThen_assoc]
  rfl

theorem exchangeMvfw_same {cmdId : Nat} (hagree : Mem.Agree (Cleared S) m m')
    (hfit : cmdId = mvfwSendMsgCmdId →
      (∀ got, x.received IptSendMsgCmdToHost.size = some got →
        repliedLength (m.fill .gRespParam got) ≤ maxMsgToHostLengthInBytes) ∨
      ∀ i, Cleared S .gRespParam i) :
    ((exchangeMvfw x (some x.connect.openFd) cmdId).run m).Same
      ((exchangeMvfw x (some x.connect.openFd) cmdId).run m') := by
  have htransfer : ((transfer x).run m).Same ((transfer x).run m') :=
    transfer_same hagree fun i hi => .inr (.inl ⟨rfl, hi⟩)
  by_cases hid : cmdId = mvfwSendMsgCmdId
  · subst hid
    rw [exchangeMvfw_run, exchangeMvfw_run]
    refine same_bind (f := fun _ => copyMvfw) hagree htransfer fun _ hok hagree => ?_
    refine copyMvfw_same hagree fun i hi => ?_
    rcases hfit rfl with hfit | hall
    · obtain ⟨got, hgot, hmem⟩ := transfer_ok hok
      rw [hmem] at hi
      refine .inr (.inr ⟨rfl, Nat.lt_of_lt_of_le hi ?_⟩)
      exact Nat.add_le_add_left (hfit got hgot) 12
    · exact hall i
  · rw [exchangeMvfw_run_other hid, exchangeMvfw_run_other hid]
    refine same_bind (f := fun _ => (load .gRespParam IptHeader.status : Proc Nat)) hagree
      htransfer fun _ _ hagree => same_of_reads hagree fun e he b i hr => ?_
    rw [List.mem_singleton.mp he] at hr
    obtain ⟨rfl, -, hi⟩ := hr
    exact .inr (.inr ⟨rfl, Nat.lt_of_lt_of_le hi (by decide)⟩)

end Exchange

/-! ## The calls, side by side -/

section Calls

variable {x : Exchange} {S : Region Block} {m m' : Mem Block}

/-- Two runs of a program that writes both structures from the start to the end agree on them. -/
theorem agree_cleared {p : Proc Unit} (hsame : (p.run m).Same (p.run m'))
    (hagree : Mem.Agree S m m')
    (hreq : .write .gReqParam 0 IptSendMsgCmdFromHost.size ∈ (p.run m).log)
    (hresp : .write .gRespParam 0 IptSendMsgCmdToHost.size ∈ (p.run m).log) :
    Mem.Agree (Cleared S) (p.run m).mem (p.run m').mem := by
  intro b i hb
  rcases hb with hb | ⟨rfl, hi⟩ | ⟨rfl, hi⟩
  · exact mem_eq_of_same hsame (.inl (hagree b i hb))
  · exact mem_eq_of_same hsame (.inr ⟨_, hreq, rfl, Nat.zero_le i, by omega⟩)
  · exact mem_eq_of_same hsame (.inr ⟨_, hresp, rfl, Nat.zero_le i, by omega⟩)

/-- Filling in a message reads the arguments alone. -/
theorem setReqParam_same {tvSec : Nat} {a : Args}
    (hS : ∀ b i, (Request.iptSendMessage tvSec a).Argument b i → S b i)
    (hagree : Mem.Agree S m m') :
    ((setReqParam tvSec a).run m).Same ((setReqParam tvSec a).run m') := by
  have hcapacity : ∀ i < 2, S .outDataLength i := fun i hi => hS _ _ (.inr ⟨rfl, hi⟩)
  have hdata : ∀ i < a.inDataLength.toNat, S .inData i := fun i hi => hS _ _ (.inl ⟨rfl, hi⟩)
  have hw : Within (Event.ReadsIn S) (setReqParam tvSec a) := by
    unfold setReqParam
    repeat' refine .bind ?_ fun _ => ?_
    all_goals simp only [within_load16, within_memset, within_store, within_memcpy,
      Event.readsIn_read, Event.readsIn_write, Nat.zero_add, and_true]
    all_goals assumption
  exact hw.same_of_agree hagree

theorem setMvfwParams_same {cmdId : Nat} {a : MvfwArgs}
    (hS : cmdId = mvfwSendMsgCmdId → ∀ b i, (Request.mvsepfwSendmessage a).Argument b i → S b i)
    (hagree : Mem.Agree S m m') :
    ((setMvfwParams cmdId a).run m).Same ((setMvfwParams cmdId a).run m') := by
  have hw : Within (Event.ReadsIn S) (setMvfwParams cmdId a) := by
    unfold setMvfwParams
    iterate 6 refine .bind (by simp) fun _ => ?_
    by_cases hid : cmdId = mvfwSendMsgCmdId
    · have hcapacity : ∀ i < 4, S .outDataLength i := fun i hi => hS hid _ _ (.inr ⟨rfl, hi⟩)
      have hdata : ∀ i < a.inDataLength.toNat, S .inData i :=
        fun i hi => hS hid _ _ (.inl ⟨rfl, hi⟩)
      refine .onlyIf ?_
      repeat' refine .bind ?_ fun _ => ?_
      all_goals simp only [within_load, within_store, within_memcpy, Event.readsIn_read,
        Event.readsIn_write, Nat.zero_add, and_true]
      all_goals assumption
    · rw [onlyIf, if_neg hid]
      exact within_pure _
  exact hw.same_of_agree hagree

/-- The calls that open and close the interface read nothing. -/
theorem teeInit_same (c : Connect) :
    ((teeInit c : Proc (Nat × Option Int)).run m).Same ((teeInit c).run m') :=
  (within_teeInit c fun d => Event.in_call [] [] d).same (by simp)

theorem exitIf_same {c : Prop} [Decidable c] {e : Nat} :
    ((exitIf c e : Proc Unit).run m).Same ((exitIf c e).run m') :=
  (within_exitIf (P := Event.In [] []) c e).same (by simp)

theorem within_teeDeinit (ptrHandle : Option Int) :
    Within (Event.In [] []) (iptTeeIntfDeinit ptrHandle) := by
  cases ptrHandle with
  | none => exact within_pure _
  | some fd =>
      refine .bind ?_ fun _ => within_pure _
      exact (within_call _).mpr (Event.in_call _ _ _)

theorem within_disconnectMei (ptrHandle : Option Int) (ret : Nat) :
    Within (Event.In [] []) (disconnectMei ptrHandle ret) :=
  .ite (within_teeDeinit ptrHandle) (within_pure _)

theorem within_disconnectMvfw (ptrHandle : Option Int) :
    Within (Event.In [] []) (disconnectMvfw ptrHandle) :=
  .onlyIf (.bind (within_teeDeinit ptrHandle) fun _ => within_pure _)

/-- What the interface is opened with. -/
theorem teeInit_ok {c : Connect} {r : Nat × Option Int}
    (h : ((teeInit c : Proc (Nat × Option Int)).run m).result = .ok r) :
    r = if c.Succeeds then (teeSuccessful, some c.openFd) else (teeFailure, none) :=
  Except.ok.inj (h.symm.trans (run_teeInit c m).1)

/-- `ipt_send_message` depends on its arguments, the exchange and a reply that fits. -/
theorem iptSendMessage_same {tvSec : Nat} {a : Args}
    (hS : ∀ b i, (Request.iptSendMessage tvSec a).Argument b i → S b i)
    (hfit : (∀ got, x.received IptSendMsgCmdToHost.size = some got →
      outLengthOf got ≤ maxMsgToHostLengthInBytes) ∨ ∀ i, Cleared S .gRespParam i)
    (hagree : Mem.Agree S m m') :
    ((iptSendMessage x tvSec a).run m).Same ((iptSendMessage x tvSec a).run m') := by
  have hchecks : Within (Event.In [] []) (checkArgs a) :=
    .bind (within_exitIf _ _) fun _ => within_exitIf _ _
  unfold iptSendMessage iptTeeIntfInit
  refine same_bind hagree (hchecks.same (by simp)) fun _ _ hagree => ?_
  refine same_bind hagree (teeInit_same _) fun r hr hagree => ?_
  rw [teeInit_ok hr]
  by_cases hc : x.connect.Succeeds
  · simp only [if_pos hc]
    refine same_bind hagree exitIf_same fun _ _ hagree => ?_
    have hset := setReqParam_same hS hagree
    have hcleared := agree_cleared hset hagree (by simp [setReqParam]) (by simp [setReqParam])
    refine same_bind hagree hset fun _ _ _ => ?_
    have hexchange := exchangeMessage_same hcleared (setReqParam_spec tvSec _).2 hfit
    refine same_bind hcleared (same_attempt hexchange) fun _ _ _ => ?_
    exact (within_disconnectMei _ _).same (by simp)
  · simp only [if_neg hc]
    refine same_bind hagree exitIf_same fun _ hok _ => ?_
    rw [run_exitIf, if_pos (.inr trivial)] at hok
    cases hok

/-- `mvfw_cmd` depends on its arguments, the exchange and, for a message, a reply that fits. -/
theorem mvfwCmd_same {cmdId : Nat} {a : MvfwArgs}
    (hS : cmdId = mvfwSendMsgCmdId → ∀ b i, (Request.mvsepfwSendmessage a).Argument b i → S b i)
    (hfit : cmdId = mvfwSendMsgCmdId →
      (∀ got, x.received IptSendMsgCmdToHost.size = some got →
        mvfwLengthOf (m.word .outDataLength 0) got ≤ maxMsgToHostLengthInBytes) ∨
      ∀ i, Cleared S .gRespParam i)
    (hagree : Mem.Agree S m m') :
    ((mvfwCmd x cmdId a).run m).Same ((mvfwCmd x cmdId a).run m') := by
  unfold mvfwCmd iptTeeIntfInit
  refine same_bind hagree exitIf_same fun _ _ hagree => ?_
  refine same_bind hagree (teeInit_same _) fun r hr hagree => ?_
  rw [teeInit_ok hr]
  by_cases hc : x.connect.Succeeds
  · simp only [if_pos hc]
    refine same_bind hagree exitIf_same fun _ _ hagree => ?_
    have hset := setMvfwParams_same hS hagree
    have hcleared := agree_cleared hset hagree (by simp [setMvfwParams]) (by simp [setMvfwParams])
    refine same_bind hagree hset fun _ _ _ => ?_
    refine same_bind hcleared (same_returned (exchangeMvfw_same hcleared fun hid => ?_))
      fun _ _ hagree => ?_
    · subst hid
      refine (hfit rfl).imp_left fun hfit got hgot => ?_
      -- up to here the capacity is the one the call started with
      refine Nat.le_trans (Nat.le_of_eq ((setMvfwParams_fill _ got).2.trans
        (congrArg (mvfwLengthOf · got) ?_))) (hfit got hgot)
      rw [(within_exitIf (P := Event.In [] []) _ _).word_eq (by simp),
        (within_teeInit x.connect fun d => Event.in_call [] [] d).word_eq (by simp),
        (within_exitIf (P := Event.In [] []) _ _).word_eq (by simp)]
    · refine same_bind hagree ((within_disconnectMvfw _).same (by simp)) fun _ _ _ => ?_
      exact (within_pure (P := Event.In [] []) _).same (by simp)
  · simp only [if_neg hc]
    refine same_bind hagree exitIf_same fun _ hok _ => ?_
    rw [run_exitIf, if_pos (.inr trivial)] at hok
    cases hok

theorem mvsepfwSendmessage_same {a : MvfwArgs}
    (hS : ∀ b i, (Request.mvsepfwSendmessage a).Argument b i → S b i)
    (hfit : (∀ got, x.received IptSendMsgCmdToHost.size = some got →
      mvfwLengthOf (m.word .outDataLength 0) got ≤ maxMsgToHostLengthInBytes) ∨
      ∀ i, Cleared S .gRespParam i)
    (hagree : Mem.Agree S m m') :
    ((mvsepfwSendmessage x a).run m).Same ((mvsepfwSendmessage x a).run m') := by
  have hcapacity : ∀ i < 4, S .outDataLength i := fun i hi => hS _ _ (.inr ⟨rfl, hi⟩)
  have hload : Within (Event.ReadsIn S) (load .outDataLength 0 : Proc Nat) := by
    simpa using hcapacity
  have hclear : ∀ n, Within (Event.ReadsIn S) (memset .outData 0 0 n : Proc Unit) := by simp
  unfold mvsepfwSendmessage
  refine same_bind hagree exitIf_same fun _ _ hagree => ?_
  refine same_bind hagree (hload.same_of_agree hagree) fun n _ hagree => ?_
  refine same_bind hagree ((hclear n).same_of_agree hagree) fun _ _ hagree => ?_
  refine same_bind hagree (same_returned (mvfwCmd_same (fun _ => hS) (fun _ => ?_) hagree))
    fun _ _ hagree => ?_
  · simp only [run_memset, run_load]
    rw [Mem.word_write_other _ _ _ _ _ (by decide),
      (within_exitIf (P := Event.In [] []) _ _).word_eq (by simp)]
    exact hfit
  · refine same_bind hagree exitIf_same fun _ _ _ => ?_
    exact (within_pure (P := Event.In [] []) _).same (by simp)

/-- Every call depends on its arguments, the exchange and a reply that fits. -/
theorem Request.prog_same {request : Request}
    (hS : ∀ b i, request.Argument b i → S b i)
    (hfit : (∀ got, x.received IptSendMsgCmdToHost.size = some got →
      request.copied m got ≤ maxMsgToHostLengthInBytes) ∨ ∀ i, Cleared S .gRespParam i)
    (hagree : Mem.Agree S m m') :
    ((request.prog x).run m).Same ((request.prog x).run m') := by
  cases request with
  | iptSendMessage tvSec a => exact iptSendMessage_same hS hfit hagree
  | mvsepfwSendmessage a => exact mvsepfwSendmessage_same hS hfit hagree
  | mvsepfwInitialize => exact mvfwCmd_same (fun hid => nomatch hid) (fun hid => nomatch hid) hagree
  | mvsepfwDeinitialize =>
      exact mvfwCmd_same (fun hid => nomatch hid) (fun hid => nomatch hid) hagree
  | mvsepfwConnect => exact mvfwCmd_same (fun hid => nomatch hid) (fun hid => nomatch hid) hagree
  | mvsepfwDisconnect =>
      exact mvfwCmd_same (fun hid => nomatch hid) (fun hid => nomatch hid) hagree

end Calls

end Txei.Ipt

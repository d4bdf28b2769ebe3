import Txei.Mei.Connections
import Txei.Ipt.Independence

/-!
# Connections of the IPT library

Both functions of the library open the interface, and close it at the label `disconnect_mei`, to
which every path behind the opened interface leads. `interfaces_tidy` says this of every history of
calls: none leaves a descriptor open, whatever it returns.
-/

namespace Txei.Ipt

open Machine Machine.Prog Mei Tee

/-! ## The interface -/

/-- What goes on with an interface that is opened, and closes it. -/
theorem tidy_iptTeeIntfInit_bind {α : Type} {c : Connect} {k : Nat × Option Int → Proc α}
    (hnone : Within Event.IsAccess (k (teeFailure, none)))
    (hsome : Releasing descriptor c.openFd (k (teeSuccessful, some c.openFd))) :
    Tidy descriptor (iptTeeIntfInit c >>= k) := by
  refine Tidy.of_assoc (tidy_meiConnect_bind ?_ ?_)
  · intro m
    exact hnone m
  · exact releasing_pure_bind hsome

theorem releasing_iptTeeIntfDeinit_bind {α : Type} {fd : Int} {k : Nat → Proc α}
    (hk : ∀ ret, Within Event.IsAccess (k ret)) :
    Releasing descriptor fd (iptTeeIntfDeinit (some fd) >>= k) := by
  intro m
  have hquiet : ledger descriptor ((k teeSuccessful).run m).log = [] :=
    Within.ledger_eq_nil descriptor (hk teeSuccessful) m
  have hrun : ((iptTeeIntfDeinit (some fd) >>= k).run m).log =
      .call (.closed fd) :: ((k teeSuccessful).run m).log := by
    simp [iptTeeIntfDeinit, teeDeinit, meiDisconnect]
  rw [hrun, ledger_call, hquiet]
  rfl

theorem access_processCmd (x : Exchange) (ptrHandle : Option Int)
    (bufPtrIn bufPtrOut : Option (DataBuffer Block)) (numParams : Nat) :
    Within Event.IsAccess (processCmd x ptrHandle bufPtrIn bufPtrOut numParams : Proc Nat) := by
  have hsend : Within Event.IsAccess (sendCmd x ptrHandle bufPtrIn : Proc Nat) := by
    match ptrHandle, bufPtrIn with
    | _, none => exact within_pure _
    | _, some ⟨none, _⟩ => exact within_pure _
    | none, some ⟨some buffer, size⟩ =>
        exact .bind (within_pure _) fun _ => .ite (within_pure _) (within_pure _)
    | some fd, some ⟨some buffer, size⟩ =>
        refine .bind (within_meiSndmsg x fd buffer size (by simp)) fun _ => ?_
        exact .ite (within_pure _) (within_pure _)
  have hrecv : Within Event.IsAccess (recvCmd x ptrHandle bufPtrOut : Proc Nat) := by
    match ptrHandle, bufPtrOut with
    | _, none => exact within_pure _
    | _, some ⟨none, _⟩ => exact within_pure _
    | none, some ⟨some buffer, size⟩ =>
        exact .bind (within_pure _) fun _ => .ite (within_pure _) (within_pure _)
    | some fd, some ⟨some buffer, size⟩ =>
        refine .bind (within_meiRcvmsg x fd buffer size (by simp)) fun _ => ?_
        exact .ite (within_pure _) (within_pure _)
  unfold processCmd
  refine .ite (within_pure _) (.ite (within_pure _) ?_)
  exact .bind hsend fun _ => .bind hrecv fun _ => within_pure _

/-! ## The two functions -/

theorem access_setReqParam (tvSec : Nat) (a : Args) :
    Within Event.IsAccess (setReqParam tvSec a) := by
  unfold setReqParam
  repeat' refine .bind ?_ fun _ => ?_
  all_goals simp

theorem proceeds_setReqParam (tvSec : Nat) (a : Args) : Proceeds (setReqParam tvSec a) := by
  intro m
  simp [setReqParam]

theorem access_exchangeMessage (x : Exchange) (ptrHandle : Option Int) :
    Within Event.IsAccess (exchangeMessage x ptrHandle) := by
  unfold exchangeMessage
  refine .bind (access_processCmd _ _ _ _ _) fun _ => .bind (within_exitIf _ _) fun _ => ?_
  refine .bind (by simp) fun _ => .bind (within_exitIf _ _) fun _ => .bind (by simp) fun _ => ?_
  exact .bind (by simp) fun _ => .onlyIf (by simp)

/-- The interface is closed whatever status reaches the label. -/
theorem tidy_iptSendMessage (x : Exchange) (tvSec : Nat) (a : Args) :
    Tidy descriptor (iptSendMessage x tvSec a) := by
  unfold iptSendMessage checkArgs
  refine .bind (.bind (tidy_of_access (within_exitIf _ _)) fun _ =>
    tidy_of_access (within_exitIf _ _)) fun _ => tidy_iptTeeIntfInit_bind ?_ ?_
  · -- without a handle the call is left with the status
    intro m
    simp
  · refine .bind (within_exitIf _ _) (fun m => ⟨(), by simp⟩) fun _ => ?_
    refine .bind (access_setReqParam _ _) (proceeds_setReqParam _ _) fun _ => ?_
    refine .bind (.attempt (access_exchangeMessage _ _)) (proceeds_attempt _) fun outcome => ?_
    unfold disconnectMei
    rw [if_pos (by simp)]
    exact releasing_iptTeeIntfDeinit_bind fun _ => within_pure _

theorem access_setMvfwParams (cmdId : Nat) (a : MvfwArgs) :
    Within Event.IsAccess (setMvfwParams cmdId a) := by
  unfold setMvfwParams
  refine .bind (by simp) fun _ => .bind (by simp) fun _ => .bind (by simp) fun _ => ?_
  refine .bind (by simp) fun _ => .bind (by simp) fun _ => .bind (by simp) fun _ => .onlyIf ?_
  repeat' refine .bind ?_ fun _ => ?_
  all_goals simp

theorem proceeds_setMvfwParams (cmdId : Nat) (a : MvfwArgs) :
    Proceeds (setMvfwParams cmdId a) := by
  intro m
  by_cases hcmd : cmdId = mvfwSendMsgCmdId
  · simp [setMvfwParams, hcmd]
  · simp [setMvfwParams, hcmd]

theorem access_exchangeMvfw (x : Exchange) (ptrHandle : Option Int) (cmdId : Nat) :
    Within Event.IsAccess (exchangeMvfw x ptrHandle cmdId) := by
  unfold exchangeMvfw
  refine .bind (access_processCmd _ _ _ _ _) fun _ => .bind (within_exitIf _ _) fun _ => ?_
  refine .bind (by simp) fun _ => .ite ?_ (within_pure _)
  refine .bind (within_exitIf _ _) fun _ => .bind (by simp) fun _ => .bind (by simp) fun _ => ?_
  exact .bind (.onlyIf (by simp)) fun _ => within_pure _

theorem releasing_disconnectMvfw_bind {fd : Int} {k : Unit → Proc Nat}
    (hk : Within Event.IsAccess (k ())) :
    Releasing descriptor fd (disconnectMvfw (some fd) >>= k) := by
  intro m
  have hquiet : ledger descriptor ((k ()).run m).log = [] := Within.ledger_eq_nil descriptor hk m
  have hrun : ((disconnectMvfw (some fd) >>= k).run m).log =
      .call (.closed fd) :: ((k ()).run m).log := by
    simp [disconnectMvfw, iptTeeIntfDeinit, teeDeinit, meiDisconnect]
  rw [hrun, ledger_call, hquiet]
  rfl

theorem tidy_mvfwCmd (x : Exchange) (cmdId : Nat) (a : MvfwArgs) :
    Tidy descriptor (mvfwCmd x cmdId a) := by
  unfold mvfwCmd
  refine .bind (tidy_of_access (within_exitIf _ _)) fun _ => tidy_iptTeeIntfInit_bind ?_ ?_
  · intro m
    simp
  · refine .bind (within_exitIf _ _) (fun m => ⟨(), by simp⟩) fun _ => ?_
    refine .bind (access_setMvfwParams _ _) (proceeds_setMvfwParams _ _) fun _ => ?_
    refine .bind (.returned (access_exchangeMvfw _ _ _)) (proceeds_returned _) fun ret => ?_
    exact releasing_disconnectMvfw_bind (within_pure _)

theorem tidy_mvsepfwSendmessage (x : Exchange) (a : MvfwArgs) :
    Tidy descriptor (mvsepfwSendmessage x a) := by
  unfold mvsepfwSendmessage
  refine .bind (tidy_of_access (within_exitIf _ _)) fun _ => ?_
  refine .bind (tidy_of_access (by simp)) fun _ => .bind (tidy_of_access (by simp)) fun _ => ?_
  refine .bind (.returned (tidy_mvfwCmd x _ a)) fun _ => ?_
  exact .bind (tidy_of_access (within_exitIf _ _)) fun _ => tidy_of_access (within_pure _)

/-! ## Every run -/

theorem Request.tidy_prog (x : Exchange) (request : Request) :
    Tidy descriptor (request.prog x) := by
  cases request with
  | iptSendMessage tvSec a => exact tidy_iptSendMessage x tvSec a
  | mvsepfwInitialize => exact tidy_mvfwCmd x mvfwInitCmdId .none
  | mvsepfwDeinitialize => exact tidy_mvfwCmd x mvfwDeinitCmdId .none
  | mvsepfwConnect => exact tidy_mvfwCmd x mvfwConnectCmdId .none
  | mvsepfwDisconnect => exact tidy_mvfwCmd x mvfwDisconnectCmdId .none
  | mvsepfwSendmessage a => exact tidy_mvsepfwSendmessage x a

/-- The descriptors of a history of calls. -/
def descriptorsOf (globals : Mem Block) (h : List Call) : List (Entry Int) :=
  entriesOf (fun globals c => (c.run globals).mem)
    (fun globals c => ledger descriptor (c.run globals).log) globals h

/-- In every run the calls leave open what was open before them, and at most one descriptor more
is open at any moment. -/
theorem interfaces_tidy (globals : Mem Block) (h : List Call) :
    TidyLedger (descriptorsOf globals h) := by
  refine tidyLedger_entriesOf (fun globals c => ?_) _ h
  exact c.request.tidy_prog c.x (c.start globals)

end Txei.Ipt

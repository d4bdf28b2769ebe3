import Txei.Ipt.SendMessage

/-!
# The status of a sent message

The status that reaches the label `disconnect_mei` is that of a failed exchange or of the firmware.
The value of `ipt_send_message` is neither (`value_iptSendMessage_opened`): once the interface is
open, it is the status of closing it.
-/

namespace Txei.Ipt

open Machine Machine.Prog Mei Tee

variable (x : Exchange) (tvSec : Nat) {a : Args} (m : Mem Block)

/-! ## The parts of a call -/

/-- The arguments pass the checks. -/
structure Args.Admissible (a : Args) : Prop where
  pointers : a.inData = true ∧ a.outDataLength = true ∧ a.outData = true
  length : 0 < a.inDataLength.toNat ∧ a.inDataLength.toNat ≤ dwordAlignedSizeOfUnionMsgReq

theorem Args.Admissible.run_checkArgs (h : a.Admissible) :
    (checkArgs a).run m = ⟨.ok (), m, []⟩ := by
  obtain ⟨⟨hin, hlen, hout⟩, hpos, hle⟩ := h
  unfold checkArgs
  rw [run_exitIf_bind, if_neg (by simp [hin, hlen, hout]), run_exitIf, if_neg (by omega)]

/-- Other arguments are refused with a code that is not `IPT_SUCCESS`. -/
theorem checkArgs_refuses (h : ¬ a.Admissible) :
    ∃ code, code ≠ iptSuccess ∧ (checkArgs a).run m = ⟨.error code, m, []⟩ := by
  unfold checkArgs
  rw [run_exitIf_bind, run_exitIf]
  by_cases hnull : a.inData = false ∨ a.outDataLength = false ∨ a.outData = false
  · exact ⟨iptFailNullParam, by decide, if_pos hnull⟩
  · by_cases hlen : a.inDataLength.toNat = 0 ∨
        dwordAlignedSizeOfUnionMsgReq < a.inDataLength.toNat
    · exact ⟨iptFailInvalidParam, by decide, by rw [if_neg hnull, if_pos hlen]⟩
    · refine absurd ⟨?_, Nat.pos_of_ne_zero fun h0 => hlen (.inl h0), by omega⟩ h
      simpa [not_or] using hnull

/-- Filling in the request succeeds and leaves the reply structure cleared. -/
theorem setReqParam_spec :
    ((setReqParam tvSec a).run m).result = .ok () ∧
      ∀ i < IptSendMsgCmdToHost.size, ((setReqParam tvSec a).run m).mem .gRespParam i = 0 := by
  constructor
  · simp [setReqParam]
  · intro i hi
    simp only [setReqParam, run_bind, run_load16, run_memset, run_store, run_memcpy,
      Run.andThen_ok, Run.prepend_mem]
    -- every store behind the clearing of the reply goes to the request
    iterate 6 rw [Mem.write_other _ _ _ _ (by decide)]
    exact Mem.write_inside _ Block.gRespParam 0 _ _ i (by omega)

/-- The status of the firmware in a reply of which `got` was received. -/
def statusOf (got : List UInt8) : Nat := Mem.wordOf got IptHeader.status

/-- The status of `process_cmd` on the open interface. -/
def transportCode (x : Exchange) : Nat :=
  if x.received IptSendMsgCmdToHost.size = none then teeFailure else teeSuccessful

/-- The status of the firmware, 0 if nothing is received. -/
def firmwareStatus (x : Exchange) : Nat :=
  statusOf ((x.received IptSendMsgCmdToHost.size).getD [])

/-- Closing the interface succeeds, whatever status it is reached with. -/
theorem run_disconnectMei (fd : Int) (ret : Nat) :
    (disconnectMei (some fd) ret).run m = ⟨.ok iptSuccess, m, [.call (.closed fd)]⟩ := by
  simp [disconnectMei, iptTeeIntfDeinit, teeDeinit, meiDisconnect, Run.prepend]

/-! ## The whole call -/

theorem value_iptSendMessage_refused (h : ¬ a.Admissible) :
    ((iptSendMessage x tvSec a).run m).value ≠ iptSuccess := by
  obtain ⟨code, hcode, hrun⟩ := checkArgs_refuses m h
  unfold iptSendMessage
  rw [run_bind, hrun, Run.andThen_error, Run.value_error]
  exact hcode

theorem value_iptSendMessage_unopened (h : a.Admissible) (hc : ¬ x.connect.Succeeds) :
    ((iptSendMessage x tvSec a).run m).value = teeFailure := by
  obtain ⟨hinit, -⟩ := run_teeInit (β := Block) (ε := Nat) x.connect m
  rw [if_neg hc] at hinit
  unfold iptSendMessage iptTeeIntfInit
  rw [run_bind, h.run_checkArgs, Run.andThen_ok, run_bind, Run.andThen_of_ok hinit,
    run_exitIf_bind, if_pos (.inr rfl)]
  simp only [Run.value_prepend, Run.value_error]

/-- Once the interface is open, the call returns `IPT_SUCCESS`. -/
theorem value_iptSendMessage_opened (h : a.Admissible) (hc : x.connect.Succeeds) :
    ((iptSendMessage x tvSec a).run m).value = iptSuccess := by
  obtain ⟨hinit, hmem⟩ := run_teeInit (β := Block) (ε := Nat) x.connect m
  rw [if_pos hc] at hinit
  unfold iptSendMessage iptTeeIntfInit
  rw [run_bind, h.run_checkArgs, Run.andThen_ok, run_bind, Run.andThen_of_ok hinit,
    run_exitIf_bind, if_neg (by simp), hmem, run_bind,
    Run.andThen_of_ok (setReqParam_spec tvSec m).1, run_bind, run_attempt, Run.andThen_ok,
    run_disconnectMei]
  simp only [Run.value_prepend, Run.value_ok]

/-- The message was delivered, and the firmware reported success. -/
def Delivered (a : Args) : Prop :=
  a.Admissible ∧ x.connect.Succeeds ∧ transportCode x = teeSuccessful ∧
    firmwareStatus x = iptSuccess

/-- The code of the first step that failed: the opening of the interface, the exchange, or the
firmware. -/
def failureCode : Nat :=
  if x.connect.Succeeds then
    if transportCode x = teeSuccessful then firmwareStatus x else transportCode x
  else teeFailure

/-- The call returns `IPT_SUCCESS` only for a delivered message, and the code of the step that
failed for any other message it does not refuse. A refused message never reaches the transport. -/
def ReportsFailure (a : Args) : Prop :=
  (((iptSendMessage x tvSec a).run m).value = iptSuccess → Delivered x a) ∧
    (a.Admissible → ¬ Delivered x a →
      ((iptSendMessage x tvSec a).run m).value = failureCode x ∧ failureCode x ≠ iptSuccess)

/-- `ipt_send_message` keeps to its contract exactly when every message that gets through the
checks and the opening of the interface is answered with the status `IPT_SUCCESS`: at the label
`disconnect_mei`, the status is replaced by that of closing the interface. -/
theorem iptSendMessage_reports_iff (x : Exchange) (tvSec : Nat) (a : Args) (m : Mem Block) :
    ReportsFailure x tvSec m a ↔
      (a.Admissible → x.connect.Succeeds →
        ∃ got ∈ x.received IptSendMsgCmdToHost.size, statusOf got = iptSuccess) := by
  have hanswered : (transportCode x = teeSuccessful ∧ firmwareStatus x = iptSuccess) ↔
      ∃ got ∈ x.received IptSendMsgCmdToHost.size, statusOf got = iptSuccess := by
    unfold transportCode firmwareStatus
    cases x.received IptSendMsgCmdToHost.size with
    | none => simp [teeFailure]
    | some got => simp
  unfold ReportsFailure Delivered failureCode
  rw [← hanswered]
  by_cases h : a.Admissible
  · by_cases hc : x.connect.Succeeds
    · rw [value_iptSendMessage_opened x tvSec m h hc]
      constructor
      · intro hreports _ _
        exact (hreports.1 rfl).2.2
      · intro hanswer
        have hok := hanswer h hc
        exact ⟨fun _ => ⟨h, hc, hok⟩, fun _ hno => absurd ⟨h, hc, hok⟩ hno⟩
    · rw [value_iptSendMessage_unopened x tvSec m h hc, if_neg hc]
      refine ⟨fun _ _ hyes => absurd hyes hc, fun _ => ⟨fun hzero => ?_, fun _ _ => ?_⟩⟩
      · exact absurd hzero (by decide)
      · exact ⟨rfl, by decide⟩
  · have hne := value_iptSendMessage_refused x tvSec m h
    exact ⟨fun _ hyes => absurd hyes h,
      fun _ => ⟨fun hzero => absurd hzero hne, fun hyes => absurd hyes h⟩⟩

/-- A reply with `header.status` 5, which is `IPT_FAIL_CRYPTO_AES`. -/
def cryptoFailureReply : List UInt8 := [1, 0, 0, 0x80, 5, 0, 0, 0, 0, 0, 0, 0]

/-- The firmware fails, and the call returns `IPT_SUCCESS`. -/
theorem iptSendMessage_not_reported :
    ((iptSendMessage (answering 5036 cryptoFailureReply) 0 ⟨4, true, true, true⟩).run
        (.ofLists fun _ => [])).value = iptSuccess ∧
      firmwareStatus (answering 5036 cryptoFailureReply) = 5 ∧
      ¬ ReportsFailure (answering 5036 cryptoFailureReply) 0 (.ofLists fun _ => [])
        ⟨4, true, true, true⟩ := by
  refine ⟨by decide, by decide, fun h => ?_⟩
  obtain ⟨-, -, -, hstatus⟩ := h.1 (by decide)
  exact absurd hstatus (by decide)

end Txei.Ipt

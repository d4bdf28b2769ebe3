import Txei.Mei.Driver

/-!
# The TEE interface library

`tee_if.c` puts two status conventions on top of the driver library: `send_cmd` and `recv_cmd`
turn a positive count into `TEE_SUCCESSFUL` and pass anything else on as an unsigned status, and
`process_cmd` returns the status of the receive. The status of the send is only logged.

Of a `data_buffer` array only the first element is used, so an array is that element, or `none`
when the array pointer is null. A handle is its descriptor, or `none` for a null pointer.
-/

namespace Txei.Tee

open Machine Machine.Prog Mei

/-- `TEE_SUCCESSFUL`. -/
@[simp] abbrev teeSuccessful : Nat := 0

/-- `TEE_FAILURE`. -/
def teeFailure : Nat := 0xFFFFFFFF

/-- `TEE_FAIL_INVALID_PARAM`. -/
@[simp] abbrev teeFailInvalidParam : Nat := 0x10000001

/-- `struct data_buffer`. -/
structure DataBuffer (β : Type) where
  buffer : Option β
  size : Nat
  deriving DecidableEq, Repr

variable {β ε : Type}

/-- `tee_init`: the status, and the handle it stores through its second argument. -/
def teeInit (c : Connect) : Prog DeviceCall β ε (Nat × Option Int) := do
  let ptrHandle ← meiConnect c
  match ptrHandle with
  | none => pure (teeFailure, none)
  | some fd => pure (teeSuccessful, some fd)

/-- `tee_deinit`. `mei_disconnect` returns at once on a null handle. -/
def teeDeinit : Option Int → Prog DeviceCall β ε Nat
  | none => pure teeSuccessful
  | some fd => do
      meiDisconnect fd
      pure teeSuccessful

/-- `mei_sndmsg` with its test for a null handle. -/
def sndmsg (x : Exchange) (ptrHandle : Option Int) (buf : β) (mySize : Nat) :
    Prog DeviceCall β ε Int :=
  match ptrHandle with
  | none => pure (-1)
  | some fd => meiSndmsg x fd buf mySize

/-- `send_cmd`. -/
def sendCmd (x : Exchange) (ptrHandle : Option Int) (bufPtr : Option (DataBuffer β)) :
    Prog DeviceCall β ε Nat :=
  match bufPtr with
  | some ⟨some buffer, size⟩ => do
      let ret ← sndmsg x ptrHandle buffer size
      if ret ≤ 0 then pure (uint32 ret) else pure teeSuccessful
  | _ => pure teeFailInvalidParam

/-- `validate_data_buffer_params`. -/
def validateDataBufferParams (bufPtrIn bufPtrOut : Option (DataBuffer β)) : Nat :=
  if bufPtrIn.isNone ∨ bufPtrOut.isNone then teeFailInvalidParam else teeSuccessful

variable [DecidableEq β]

/-- `mei_rcvmsg` with its test for a null handle. -/
def rcvmsg (x : Exchange) (ptrHandle : Option Int) (buf : β) (mySize : Nat) :
    Prog DeviceCall β ε Int :=
  match ptrHandle with
  | none => pure (-1)
  | some fd => meiRcvmsg x fd buf mySize

/-- `recv_cmd`. -/
def recvCmd (x : Exchange) (ptrHandle : Option Int) (bufPtr : Option (DataBuffer β)) :
    Prog DeviceCall β ε Nat :=
  match bufPtr with
  | some ⟨some buffer, size⟩ => do
      let ret ← rcvmsg x ptrHandle buffer size
      if ret ≤ 0 then pure (uint32 ret) else pure teeSuccessful
  | _ => pure teeFailInvalidParam

/-- `process_cmd`. The variable `ret` is an `int`, the functions and the result are unsigned. -/
def processCmd (x : Exchange) (ptrHandle : Option Int)
    (bufPtrIn bufPtrOut : Option (DataBuffer β)) (numParams : Nat) : Prog DeviceCall β ε Nat :=
  if bufPtrIn.isNone ∨ bufPtrOut.isNone ∨ numParams = 0 then pure teeFailInvalidParam
  else if int32 (validateDataBufferParams bufPtrIn bufPtrOut) ≠ 0 then pure teeFailInvalidParam
  else do
    -- a failed send is logged, and the receive goes ahead
    let _ ← sendCmd x ptrHandle bufPtrIn
    let ret ← recvCmd x ptrHandle bufPtrOut
    pure (uint32 (int32 ret))

/-! ## What the functions return -/

/-- The failure of the driver library becomes `TEE_FAILURE`. -/
@[simp] theorem uint32_neg_one : uint32 (-1) = teeFailure := by decide

@[simp] theorem uint32_zero : uint32 0 = teeSuccessful := by decide

/-- As an `int`, `TEE_FAILURE` is that failure again. -/
@[simp] theorem int32_teeFailure : int32 teeFailure = -1 := by decide

@[simp] theorem int32_zero : int32 0 = 0 := by decide

omit [DecidableEq β] in
/-- `tee_init` fails exactly when `mei_connect` returns no handle. -/
theorem run_teeInit (c : Connect) (m : Mem β) :
    ((teeInit c : Prog _ β ε _).run m).result =
        .ok (if c.Succeeds then (teeSuccessful, some c.openFd) else (teeFailure, none)) ∧
      ((teeInit c : Prog _ β ε _).run m).mem = m := by
  obtain ⟨hres, hmem⟩ := run_meiConnect (ε := ε) c m
  unfold teeInit
  rw [run_bind, Run.andThen_of_ok hres]
  by_cases hc : c.Succeeds
  · simp [hc, hmem]
  · simp [hc, hmem]

omit [DecidableEq β] in
/-- `send_cmd` on a buffer returns some status and leaves the memory alone. -/
theorem run_sendCmd (x : Exchange) (buffer : β) (n : Nat) (m : Mem β) :
    ∃ status log, (sendCmd x (some x.connect.openFd) (some ⟨some buffer, n⟩) :
      Prog _ β ε Nat).run m = ⟨.ok status, m, log⟩ := by
  show ∃ status log, ((meiSndmsg x x.connect.openFd buffer n).run m).andThen _ = _
  rw [run_meiSndmsg, Run.andThen_ok]
  generalize (if x.Sends n then x.writeRv n else -1 : Int) = ret
  by_cases hret : ret ≤ 0
  · exact ⟨uint32 ret, _, by simp only [if_pos hret]; rfl⟩
  · exact ⟨teeSuccessful, _, by simp only [if_neg hret]; rfl⟩

/-- `recv_cmd` on a buffer fails exactly when the driver reports nothing as received, and leaves
the received bytes at the start of the buffer otherwise. -/
theorem run_recvCmd (x : Exchange) (buffer : β) (k : Nat) (m : Mem β) :
    (x.received k = none →
        ((recvCmd x (some x.connect.openFd) (some ⟨some buffer, k⟩) :
          Prog _ β ε Nat).run m).result = .ok teeFailure) ∧
      ∀ got, x.received k = some got →
        ((recvCmd x (some x.connect.openFd) (some ⟨some buffer, k⟩) :
          Prog _ β ε Nat).run m).result = .ok teeSuccessful ∧
        ((recvCmd x (some x.connect.openFd) (some ⟨some buffer, k⟩) :
          Prog _ β ε Nat).run m).mem = m.fill buffer got := by
  unfold recvCmd rcvmsg Exchange.received
  by_cases hfd : 0 < x.connect.openFd
  · obtain ⟨hres, hmem⟩ := run_meiRcvmsg (ε := ε) x hfd buffer k m
    simp only [run_bind]
    rw [Run.andThen_of_ok hres]
    cases hread : x.read with
    | none => simp [hfd]
    | some bytes =>
        simp only [hread] at hmem
        by_cases hneg : int32 (readBytes bytes k).length < 0
        · simp [hfd, hneg]
        · by_cases hzero : int32 (readBytes bytes k).length = 0
          · -- an empty reply: the status is the count itself, which is the code of success
            simp [hfd, hzero, hmem]
          · have hpos : ¬ int32 (readBytes bytes k).length ≤ 0 := by omega
            simp [hfd, hneg, hpos, hmem]
  · have hno : x.connect.openFd ≤ 0 := by omega
    unfold meiRcvmsg
    simp [hfd, hno]

/-- `process_cmd` on two buffers returns the status of the receive, whatever became of the
request. -/
theorem run_processCmd (x : Exchange) (inp out : β) (n k : Nat) {numParams : Nat}
    (hparams : numParams ≠ 0) (m : Mem β) :
    (x.received k = none →
        ((processCmd x (some x.connect.openFd) (some ⟨some inp, n⟩) (some ⟨some out, k⟩)
          numParams : Prog _ β ε Nat).run m).result = .ok teeFailure) ∧
      ∀ got, x.received k = some got →
        ((processCmd x (some x.connect.openFd) (some ⟨some inp, n⟩) (some ⟨some out, k⟩)
          numParams : Prog _ β ε Nat).run m).result = .ok teeSuccessful ∧
        ((processCmd x (some x.connect.openFd) (some ⟨some inp, n⟩) (some ⟨some out, k⟩)
          numParams : Prog _ β ε Nat).run m).mem = m.fill out got := by
  obtain ⟨status, log, hsend⟩ := run_sendCmd (ε := ε) x inp n m
  obtain ⟨hfail, hok⟩ := run_recvCmd (ε := ε) x out k m
  have hrun : (processCmd x (some x.connect.openFd) (some ⟨some inp, n⟩) (some ⟨some out, k⟩)
      numParams : Prog _ β ε Nat).run m =
        (((recvCmd x (some x.connect.openFd) (some ⟨some out, k⟩)).run m).andThen fun ret =>
          (pure (uint32 (int32 ret)) : Prog _ β ε Nat).run).prepend log := by
    simp [processCmd, validateDataBufferParams, hparams, hsend, int32]
  rw [hrun]
  constructor
  · intro hnone
    rw [Run.andThen_of_ok (hfail hnone)]
    simp
  · intro got hgot
    obtain ⟨hres, hmem⟩ := hok got hgot
    rw [Run.andThen_of_ok hres]
    simp [hmem]

end Txei.Tee

import Txei.Tee.Interface

/-!
# When `process_cmd` reports success

`process_cmd` sends, receives, and returns the status of the receive. `processCmd_success_iff` says
for which outcomes of the driver that status is `TEE_SUCCESSFUL`, for every handle and every pair
of buffers, and `processCmd_complete_iff` compares this with a complete exchange.
-/

namespace Txei.Tee

open Machine Machine.Prog Mei

/-- The same answers, on the descriptor `fd`. -/
def answersOn (x : Exchange) (fd : Int) : Exchange :=
  { x with connect := { x.connect with openFd := fd } }

variable {β ε : Type}

/-- `send_cmd` always returns, and leaves the memory alone. -/
theorem sendCmd_returns (x : Exchange) (ptrHandle : Option Int) (bufPtr : Option (DataBuffer β))
    (m : Mem β) :
    ∃ status, ((sendCmd x ptrHandle bufPtr : Prog _ β ε Nat).run m).result = .ok status ∧
      ((sendCmd x ptrHandle bufPtr : Prog _ β ε Nat).run m).mem = m := by
  match ptrHandle, bufPtr with
  | _, none => exact ⟨_, rfl, rfl⟩
  | _, some ⟨none, _⟩ => exact ⟨_, rfl, rfl⟩
  | none, some ⟨some buffer, size⟩ =>
      simp only [sendCmd, sndmsg, run_bind, run_pure, Run.andThen_ok]
      split
      · exact ⟨_, rfl, rfl⟩
      · exact ⟨_, rfl, rfl⟩
  | some fd, some ⟨some buffer, size⟩ =>
      obtain ⟨status, log, hrun⟩ := run_sendCmd (ε := ε) (answersOn x fd) buffer size m
      have hsame : (sendCmd x (some fd) (some ⟨some buffer, size⟩) : Prog _ β ε Nat) =
          sendCmd (answersOn x fd) (some (answersOn x fd).connect.openFd)
            (some ⟨some buffer, size⟩) := rfl
      rw [hsame, hrun]
      exact ⟨status, rfl, rfl⟩

variable [DecidableEq β]

/-- The buffers of a call that gets to the driver with its receive. -/
def Receives (ptrHandle : Option Int) (bufPtrIn bufPtrOut : Option (DataBuffer β))
    (numParams : Nat) (fd : Int) (size : Nat) : Prop :=
  numParams ≠ 0 ∧ bufPtrIn ≠ none ∧ ptrHandle = some fd ∧
    ∃ buffer, bufPtrOut = some ⟨some buffer, size⟩

section Status

variable (x : Exchange) (ptrHandle : Option Int) (bufPtrIn bufPtrOut : Option (DataBuffer β))
  (numParams : Nat) (m : Mem β)

/-- Missing buffers or parameters are refused. -/
theorem processCmd_refused (h : bufPtrIn = none ∨ bufPtrOut = none ∨ numParams = 0) :
    ((processCmd x ptrHandle bufPtrIn bufPtrOut numParams : Prog _ β ε Nat).run m).result =
      .ok teeFailInvalidParam := by
  unfold processCmd
  rw [if_pos (by simpa using h)]
  rfl

/-- Otherwise the status is that of the receive, through an `int`. -/
theorem processCmd_result (hin : bufPtrIn ≠ none) (hout : bufPtrOut ≠ none)
    (hparams : numParams ≠ 0) :
    ((processCmd x ptrHandle bufPtrIn bufPtrOut numParams : Prog _ β ε Nat).run m).result =
      ((recvCmd x ptrHandle bufPtrOut : Prog _ β ε Nat).run m).result.map
        fun ret : Nat => uint32 (int32 ret) := by
  obtain ⟨status, hres, hmem⟩ := sendCmd_returns (ε := ε) x ptrHandle bufPtrIn m
  have hvalid : ¬ int32 (validateDataBufferParams bufPtrIn bufPtrOut) ≠ 0 := by
    simp [validateDataBufferParams, hin, hout]
  unfold processCmd
  rw [if_neg (by simp [hin, hout, hparams]), if_neg hvalid, run_bind, Run.andThen_of_ok hres, hmem,
    Run.prepend_result, run_bind]
  cases hrecv : ((recvCmd x ptrHandle bufPtrOut : Prog _ β ε Nat).run m).result with
  | error e =>
      rw [Run.andThen_of_error hrecv]
      rfl
  | ok ret =>
      rw [Run.andThen_of_ok hrecv]
      rfl

/-- `process_cmd` reports success exactly when its arguments let it receive and the driver reports
something as received, were it nothing: the send does not matter. -/
theorem processCmd_success_iff :
    ((processCmd x ptrHandle bufPtrIn bufPtrOut numParams : Prog _ β ε Nat).run m).result =
        .ok teeSuccessful ↔
      ∃ fd size got, Receives ptrHandle bufPtrIn bufPtrOut numParams fd size ∧
        (answersOn x fd).received size = some got := by
  unfold Receives
  by_cases hargs : bufPtrIn = none ∨ bufPtrOut = none ∨ numParams = 0
  · rw [processCmd_refused x ptrHandle bufPtrIn bufPtrOut numParams m hargs]
    refine iff_of_false (fun hok => absurd (Except.ok.inj hok) (by decide)) ?_
    intro hreceives
    obtain ⟨fd, size, got, ⟨hparams, hin, -, buffer, hout⟩, -⟩ := hreceives
    rcases hargs with hnone | hnone | hzero
    · exact hin hnone
    · cases hnone.symm.trans hout
    · exact hparams hzero
  · simp only [not_or] at hargs
    obtain ⟨hin, hout, hparams⟩ := hargs
    rw [processCmd_result x ptrHandle bufPtrIn bufPtrOut numParams m hin hout hparams]
    match ptrHandle, bufPtrOut, hout with
    | _, some ⟨none, size⟩, _ =>
        refine iff_of_false (fun hok => absurd (Except.ok.inj hok) (by decide)) ?_
        intro hreceives
        obtain ⟨fd, size', got, ⟨-, -, -, buffer, hbuffer⟩, -⟩ := hreceives
        cases hbuffer
    | none, some ⟨some buffer, size⟩, _ =>
        refine iff_of_false (fun hok => absurd (Except.ok.inj hok) (by decide)) ?_
        intro hreceives
        obtain ⟨fd, size', got, ⟨-, -, hhandle, -⟩, -⟩ := hreceives
        cases hhandle
    | some fd, some ⟨some buffer, size⟩, _ =>
        obtain ⟨hfail, hok⟩ := run_recvCmd (ε := ε) (answersOn x fd) buffer size m
        have hsame : (recvCmd x (some fd) (some ⟨some buffer, size⟩) : Prog _ β ε Nat) =
            recvCmd (answersOn x fd) (some (answersOn x fd).connect.openFd)
              (some ⟨some buffer, size⟩) := rfl
        rw [hsame]
        cases hgot : (answersOn x fd).received size with
        | none =>
            rw [hfail hgot]
            refine iff_of_false (fun hok => absurd (Except.ok.inj hok) (by decide)) ?_
            intro hreceives
            obtain ⟨fd', size', got, ⟨-, -, hhandle, buffer', hbuffer⟩, hgot'⟩ := hreceives
            cases hhandle
            cases hbuffer
            cases hgot.symm.trans hgot'
        | some got =>
            rw [(hok got hgot).1]
            refine iff_of_true (by simp [Except.map]) ?_
            exact ⟨fd, size, got, ⟨hparams, hin, rfl, buffer, rfl⟩, hgot⟩

/-- The request in `bufPtrIn` was sent whole on the descriptor `fd`: it is not empty, the driver
reports no failure, and the device took every byte. -/
def RequestSent (fd : Int) : Prop :=
  ∃ buffer size, bufPtrIn = some ⟨some buffer, size⟩ ∧ 0 < size ∧ (answersOn x fd).Sends size ∧
    (answersOn x fd).written size = size

/-- A reported success stands for a complete exchange: the request was sent whole, and a reply of
at least one byte was received. -/
def CompleteOnSuccess (ε : Type) : Prop :=
  ((processCmd x ptrHandle bufPtrIn bufPtrOut numParams : Prog _ β ε Nat).run m).result =
      .ok teeSuccessful →
    ∃ fd size got, Receives ptrHandle bufPtrIn bufPtrOut numParams fd size ∧
      RequestSent x bufPtrIn fd ∧ (answersOn x fd).received size = some got ∧ got ≠ []

/-- `process_cmd` keeps to its contract exactly when every receive that the driver does not report
as failed returns at least one byte and follows a request that was sent whole: the status of the
send is overwritten, and a count of 0 is passed on as a status, which is the code of success. -/
theorem processCmd_complete_iff (ε : Type) :
    CompleteOnSuccess x ptrHandle bufPtrIn bufPtrOut numParams m ε ↔
      ∀ fd size got, Receives ptrHandle bufPtrIn bufPtrOut numParams fd size →
        (answersOn x fd).received size = some got → got ≠ [] ∧ RequestSent x bufPtrIn fd := by
  unfold CompleteOnSuccess
  rw [processCmd_success_iff]
  constructor
  · intro hcomplete fd size got hreceives hgot
    obtain ⟨fd', size', got', ⟨-, -, hhandle', buffer', hout'⟩, hsent, hgot', hne⟩ :=
      hcomplete ⟨fd, size, got, hreceives, hgot⟩
    -- the handle and the buffer of the two receives are those of the call
    obtain ⟨-, -, hhandle, buffer, hout⟩ := hreceives
    cases hhandle.symm.trans hhandle'
    cases hout.symm.trans hout'
    cases hgot.symm.trans hgot'
    exact ⟨hne, hsent⟩
  · intro hcond hsuccess
    obtain ⟨fd, size, got, hreceives, hgot⟩ := hsuccess
    obtain ⟨hne, hsent⟩ := hcond fd size got hreceives hgot
    exact ⟨fd, size, got, hreceives, hsent, hgot, hne⟩

end Status

/-! ## Accesses -/

omit [DecidableEq β] in
theorem within_teeInit {P : Event DeviceCall β → Prop} (c : Connect) (hcall : ∀ d, P (.call d)) :
    Within P (teeInit c : Prog _ β ε (Nat × Option Int)) := by
  refine .bind (within_meiConnect c hcall) fun ptrHandle => ?_
  cases ptrHandle with
  | none => exact within_pure _
  | some fd => exact within_pure _

/-- `process_cmd` lets the device read the request and writes within the reply buffer. -/
theorem within_processCmd {P : Event DeviceCall β → Prop} (x : Exchange) (ptrHandle : Option Int)
    (inp out : β) (n k numParams : Nat) (hread : P (.read inp 0 n))
    (hwrite : ∀ j ≤ k, P (.write out 0 j)) :
    Within P (processCmd x ptrHandle (some ⟨some inp, n⟩) (some ⟨some out, k⟩) numParams :
      Prog _ β ε Nat) := by
  have hsend : Within P (sndmsg x ptrHandle inp n : Prog _ β ε Int) := by
    cases ptrHandle with
    | none => exact within_pure _
    | some fd => exact within_meiSndmsg x fd inp n hread
  have hrecv : Within P (rcvmsg x ptrHandle out k : Prog _ β ε Int) := by
    cases ptrHandle with
    | none => exact within_pure _
    | some fd => exact within_meiRcvmsg x fd out k hwrite
  refine .ite (within_pure _) (.ite (within_pure _) ?_)
  refine .bind (.bind hsend fun _ => .ite (within_pure _) (within_pure _)) fun _ => ?_
  exact .bind (.bind hrecv fun _ => .ite (within_pure _) (within_pure _)) fun _ => within_pure _

/-! ## Incomplete exchanges -/

/-- A device that refuses the request and then lets one byte be read. -/
def refusedThenRead : Exchange := { answering 4 [7] with write := none }

/-- A failed send is reported as a success, and so is an empty reply. -/
theorem processCmd_not_complete :
    ¬ CompleteOnSuccess refusedThenRead (some 3) (some ⟨some false, 4⟩) (some ⟨some true, 4⟩) 1
        (.ofLists fun _ => []) Nat ∧
      ¬ CompleteOnSuccess (answering 4 []) (some 3) (some ⟨some false, 4⟩) (some ⟨some true, 4⟩) 1
        (.ofLists fun _ => []) Nat := by
  constructor
  · intro h
    obtain ⟨fd, size, got, -, ⟨buffer, size', -, hpos, -, hwritten⟩, -⟩ := h (by decide)
    have hzero : (answersOn refusedThenRead fd).written size' = 0 := rfl
    omega
  · intro h
    obtain ⟨fd, size, got, ⟨-, -, hhandle, buffer, hout⟩, -, hgot, hne⟩ := h (by decide)
    cases hhandle
    cases hout
    cases hgot
    exact hne rfl

end Txei.Tee

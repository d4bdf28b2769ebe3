import Txei.Acd.Commands

/-!
# What the customer data commands return

The `int` that `lock_customer_data`, `wipe_customer_data` and `set_customer_data` return is
computed from the outcome of the connection and of the receive, and from the status word of the
reply. The header promises a negative value for every failure; `lockWipe_exact_iff` and
`setCustomerData_exact_iff` say for which outcomes that is so.
-/

namespace Txei.Acd

open Machine Machine.Prog Mei Tee

/-! ## The parts of a call -/

theorem run_openAcd (c : Connect) (m : Mem Block) :
    ((openAcd c).run m).result = (if c.Succeeds then .ok (some c.openFd) else .error (-1)) ∧
      ((openAcd c).run m).mem = m := by
  obtain ⟨hres, hmem⟩ := run_teeInit (ε := Int) c m
  unfold openAcd acdInit
  simp only [run_bind]
  rw [Run.andThen_of_ok hres]
  by_cases hc : c.Succeeds
  · simp [hc, hmem]
  · simp [hc, hmem]

/-- Behind an opened connection a function goes on with the descriptor. -/
theorem value_openAcd_bind {c : Connect} (hc : c.Succeeds) (f : Option Int → Proc Int)
    (m : Mem Block) :
    ((openAcd c >>= f).run m).value = ((f (some c.openFd)).run m).value := by
  obtain ⟨hopen, hmem⟩ := run_openAcd c m
  rw [if_pos hc] at hopen
  rw [run_bind, Run.andThen_of_ok hopen, hmem, Run.value_prepend]

/-- Without a connection a function returns the `int` of `TEE_FAILURE`. -/
theorem value_openAcd_refused {c : Connect} (hc : ¬ c.Succeeds) (f : Option Int → Proc Int)
    (m : Mem Block) : ((openAcd c >>= f).run m).value = -1 := by
  obtain ⟨hopen, -⟩ := run_openAcd c m
  rw [if_neg hc] at hopen
  rw [run_bind, Run.andThen_of_error hopen, Run.value_error]

/-- Closing a connection never leaves the function. -/
theorem run_closeAcd (fd : Int) (m : Mem Block) :
    (closeAcd (some fd)).run m = ⟨.ok (), m, [.call (.closed fd)]⟩ := by
  simp [closeAcd, acdDeinit, teeDeinit, meiDisconnect, Run.prepend]

section Transact

variable (x : Exchange) (paramsSize respSize : Nat) {fillParams : Proc Unit}

/-- One exchange with the firmware: it fails exactly when nothing is received, and otherwise the
reply structure holds the bytes received, with zeros behind them. -/
theorem transact_bytes (hfill : ∀ m, (fillParams.run m).result = .ok ())
    (hin : Within (Event.In [.fieldData] [.params]) fillParams) (m : Mem Block) :
    (x.received respSize = none →
        ((transact x (some x.connect.openFd) paramsSize respSize fillParams).run m).result =
          .ok teeFailure) ∧
      ∀ got, x.received respSize = some got →
        ((transact x (some x.connect.openFd) paramsSize respSize fillParams).run m).result =
          .ok teeSuccessful ∧
        ∀ i < respSize,
          ((transact x (some x.connect.openFd) paramsSize respSize fillParams).run m).mem
            .resp i = got.getD i 0 := by
  have hcommand := run_processCmd (ε := Int) x Block.params Block.resp paramsSize respSize
    (by decide : 2 ≠ 0)
  unfold transact
  generalize processCmd (ε := Int) x (some x.connect.openFd) (some ⟨some Block.params, paramsSize⟩)
    (some ⟨some Block.resp, respSize⟩) 2 = command at hcommand ⊢
  simp only [run_bind, run_memset, Run.andThen_ok]
  generalize hcleared : (m.write .params 0 paramsSize fun _ => 0).write .resp 0 respSize
    (fun _ => 0) = cleared
  rw [Run.andThen_of_ok (hfill cleared)]
  obtain ⟨hfail, hok⟩ := hcommand (fillParams.run cleared).mem
  constructor
  · intro hnone
    exact hfail hnone
  · intro got hgot
    obtain ⟨hres, hmem⟩ := hok got hgot
    refine ⟨hres, fun i hi => ?_⟩
    -- filling in the request leaves the cleared reply structure alone
    have hzero : (fillParams.run cleared).mem .resp i = 0 := by
      rw [hin.mem_eq (by simp) cleared, ← hcleared]
      exact Mem.write_inside _ Block.resp 0 respSize _ i (by omega)
    simp only [Run.prepend_mem, hmem]
    exact Mem.fill_of_zero _ Block.resp got hzero

/-- The words of the reply structure are those of the bytes received. -/
theorem transact_spec (hfill : ∀ m, (fillParams.run m).result = .ok ())
    (hin : Within (Event.In [.fieldData] [.params]) fillParams) (m : Mem Block) :
    (x.received respSize = none →
        ((transact x (some x.connect.openFd) paramsSize respSize fillParams).run m).result =
          .ok teeFailure) ∧
      ∀ got, x.received respSize = some got →
        ((transact x (some x.connect.openFd) paramsSize respSize fillParams).run m).result =
          .ok teeSuccessful ∧
        ∀ o, o + 4 ≤ respSize →
          ((transact x (some x.connect.openFd) paramsSize respSize fillParams).run m).mem.word
            .resp o = Mem.wordOf got o := by
  obtain ⟨hfail, hok⟩ := transact_bytes x paramsSize respSize hfill hin m
  refine ⟨hfail, fun got hgot => ?_⟩
  obtain ⟨hres, hbytes⟩ := hok got hgot
  exact ⟨hres, fun o ho => word_congr fun i hi => hbytes (o + i) (by omega)⟩

end Transact

theorem within_setHdrReq (op : Nat) : Within (Event.In [.fieldData] [.params]) (setHdrReq op) :=
  .bind (by simp) fun _ => by simp

theorem within_setWriteParams (a : WriteArgs) :
    Within (Event.In [.fieldData] [.params]) (setWriteParams a) := by
  refine .bind (within_setHdrReq _) fun _ => ?_
  exact .bind (by simp) fun _ => .bind (by simp) fun _ => .bind (by simp) fun _ => by simp

/-! ## Locking and wiping -/

/-- The return value depends on the transport alone. -/
theorem value_lockCommand (x : Exchange) (n op : Nat) (m : Mem Block) :
    ((lockCommand x n op).run m).value =
      if x.connect.Succeeds ∧ x.received AcdStatusToHost.size ≠ none then 0 else -1 := by
  obtain ⟨hfail, hok⟩ := transact_spec x n AcdStatusToHost.size
    (fun m => by simp [setHdrReq]) (within_setHdrReq op) m
  unfold lockCommand
  by_cases hc : x.connect.Succeeds
  · rw [value_openAcd_bind hc, run_bind]
    cases hgot : x.received AcdStatusToHost.size with
    | none =>
        rw [Run.andThen_of_ok (hfail hgot)]
        simp [teeFailure, int32]
    | some got =>
        rw [Run.andThen_of_ok (hok got hgot).1]
        by_cases hs : ((transact x (some x.connect.openFd) n AcdStatusToHost.size
            (setHdrReq op)).run m).mem.word .resp AcdStatusToHost.acdStatus = 0
        · simp [hc, hs, run_closeAcd, int32, uint32]
        · simp [hc, hs, run_closeAcd, int32, uint32]
  · rw [value_openAcd_refused hc]
    simp [hc]

/-- The status in a reply of which `got` was received. -/
def statusOf (got : List UInt8) : Nat := Mem.wordOf got AcdStatusToHost.acdStatus

theorem statusOf_lt (got : List UInt8) : statusOf got < 2 ^ 32 := by
  unfold statusOf Mem.wordOf
  exact word_lt _

/-- The exchange of a request of `n` bytes succeeded, and the firmware reported success. -/
def Accepted (x : Exchange) (n : Nat) : Prop :=
  x.connect.Succeeds ∧ x.Completes n AcdStatusToHost.size ∧
    ∃ got ∈ x.received AcdStatusToHost.size, statusOf got = acdLockSuccess

/-- The function returns 0 only for an accepted command, and a negative value otherwise. -/
def ZeroOnlyIfAccepted (x : Exchange) (n : Nat) (f : Proc Int) (m : Mem Block) : Prop :=
  ((f.run m).value = 0 → Accepted x n) ∧ ((f.run m).value ≠ 0 → (f.run m).value < 0)

/-- Once the connection is there and something is received, the whole request had been sent, and
what is received is a full reply that reports success. -/
def AcceptedIfReceived (x : Exchange) (n : Nat) : Prop :=
  ∀ got, x.connect.Succeeds → x.received AcdStatusToHost.size = some got →
    x.Sends n ∧ x.written n = n ∧ got.length = AcdStatusToHost.size ∧
      statusOf got = acdLockSuccess

theorem zeroOnlyIfAccepted_lockCommand (x : Exchange) (n op : Nat) (m : Mem Block) :
    ZeroOnlyIfAccepted x n (lockCommand x n op) m ↔ AcceptedIfReceived x n := by
  unfold ZeroOnlyIfAccepted AcceptedIfReceived Accepted Exchange.Completes
  rw [value_lockCommand]
  constructor
  · intro h got hc hgot
    obtain ⟨-, ⟨hsend, hwrite, got', hgot', hlen⟩, got'', hgot'', hs⟩ :=
      h.1 (if_pos ⟨hc, by simp [hgot]⟩)
    -- the two replies the contract speaks of are the one received
    rw [hgot, Option.mem_some_iff] at hgot' hgot''
    subst hgot' hgot''
    exact ⟨hsend, hwrite, hlen, hs⟩
  · intro h
    by_cases hcase : x.connect.Succeeds ∧ x.received AcdStatusToHost.size ≠ none
    · obtain ⟨got, hgot⟩ := Option.ne_none_iff_exists'.mp hcase.2
      obtain ⟨hsend, hwrite, hlen, hs⟩ := h got hcase.1 hgot
      rw [if_pos hcase]
      exact ⟨fun _ => ⟨hcase.1, ⟨hsend, hwrite, got, hgot, hlen⟩, got, hgot, hs⟩, by simp⟩
    · rw [if_neg hcase]
      simp

/-- `lock_customer_data` and `wipe_customer_data` keep to their contract exactly when a
connection that delivers anything delivers a full reply of success to a request sent whole:
neither the outcome of the send nor the status of the firmware reaches the return value. -/
theorem lockWipe_exact_iff (x : Exchange) (m : Mem Block) :
    (ZeroOnlyIfAccepted x acdLockCmdFromHostSize (lockCustomerData x) m ↔
        AcceptedIfReceived x acdLockCmdFromHostSize) ∧
      (ZeroOnlyIfAccepted x acdGenericCmdFromHostSize (wipeCustomerData x) m ↔
        AcceptedIfReceived x acdGenericCmdFromHostSize) :=
  ⟨zeroOnlyIfAccepted_lockCommand x _ _ m, zeroOnlyIfAccepted_lockCommand x _ _ m⟩

/-- A reply with the status `ACD_LOCK_ERROR_CUSTOMER_DATA_ALREADY_LOCKED`. -/
def alreadyLockedReply : List UInt8 := [0x94, 0x26, 4, 0, 0, 0, 0, 0, 0x15, 0, 0, 0x30]

/-- The firmware refuses, and both functions return 0. -/
theorem lockWipe_not_exact :
    ((lockCustomerData (answering 8 alreadyLockedReply)).run (.ofLists fun _ => [])).value = 0 ∧
      ((wipeCustomerData (answering 4 alreadyLockedReply)).run (.ofLists fun _ => [])).value = 0 ∧
      statusOf alreadyLockedReply = 0x30000015 ∧
      ¬ ZeroOnlyIfAccepted (answering 8 alreadyLockedReply) acdLockCmdFromHostSize
        (lockCustomerData (answering 8 alreadyLockedReply)) (.ofLists fun _ => []) ∧
      ¬ ZeroOnlyIfAccepted (answering 4 alreadyLockedReply) acdGenericCmdFromHostSize
        (wipeCustomerData (answering 4 alreadyLockedReply)) (.ofLists fun _ => []) := by
  have hstatus : statusOf alreadyLockedReply ≠ acdLockSuccess := by decide
  refine ⟨by decide, by decide, by decide, fun h => ?_, fun h => ?_⟩
  · obtain ⟨-, -, got, hgot, hs⟩ := h.1 (by decide)
    cases hgot
    exact hstatus hs
  · obtain ⟨-, -, got, hgot, hs⟩ := h.1 (by decide)
    cases hgot
    exact hstatus hs

/-! ## Setting -/

/-- The arguments are in range. -/
structure WriteArgs.InRange (a : WriteArgs) : Prop where
  index : acdMinFieldIndex ≤ a.uiFieldIndex.toNat ∧ a.uiFieldIndex.toNat ≤ acdMaxFieldIndex
  size : acdMinDataSizeInBytes < a.fieldSize.toNat ∧ a.fieldSize.toNat ≤ acdMaxDataSizeInBytes
  maxSize : acdMinDataSizeInBytes < a.fieldMaxSize.toNat ∧
    a.fieldMaxSize.toNat ≤ acdMaxDataSizeInBytes
  size_le : a.fieldSize.toNat ≤ a.fieldMaxSize.toNat
  data : a.pvAdcFieldData = true

section Set

variable (x : Exchange) {a : WriteArgs} (m : Mem Block)

/-- Arguments in range pass the checks. -/
theorem WriteArgs.InRange.run_checkWriteArgs (h : a.InRange) :
    (checkWriteArgs a).run m = ⟨.ok (), m, []⟩ := by
  obtain ⟨hindex, hsize, hmax, hle, hdata⟩ := h
  unfold checkWriteArgs
  simp only [run_exitIf_bind, run_exitIf]
  rw [if_neg (by omega), if_neg (by omega), if_neg (by omega), if_neg (by omega),
    if_neg (by simp [hdata])]

/-- Arguments out of range are refused with a positive code, which is no size. -/
theorem checkWriteArgs_refuses (h : ¬ a.InRange) :
    ∃ code, 2 ^ 16 ≤ code ∧ (checkWriteArgs a).run m = ⟨.error code, m, []⟩ := by
  have hillegal : 2 ^ 16 ≤ acdWriteErrorIllegalParameter := by decide
  have htooLarge : 2 ^ 16 ≤ acdWriteErrorDataSizeTooLarge := by decide
  unfold checkWriteArgs
  simp only [run_exitIf_bind, run_exitIf]
  split
  · exact ⟨_, hillegal, rfl⟩
  · split
    · exact ⟨_, hillegal, rfl⟩
    · split
      · exact ⟨_, hillegal, rfl⟩
      · split
        · exact ⟨_, htooLarge, rfl⟩
        · split
          · exact ⟨_, hillegal, rfl⟩
          · -- every test has passed
            rename_i hindex hsize hmax hle hdata
            have hsizePos := Nat.pos_of_ne_zero fun h0 => hsize (.inl h0)
            have hmaxPos := Nat.pos_of_ne_zero fun h0 => hmax (.inl h0)
            refine absurd ⟨by omega, ⟨hsizePos, by omega⟩, ⟨hmaxPos, by omega⟩, by omega, ?_⟩ h
            simpa using hdata

theorem value_setCustomerData_refused (h : ¬ a.InRange) :
    2 ^ 16 ≤ ((setCustomerData x a).run m).value := by
  obtain ⟨code, hcode, hrun⟩ := checkWriteArgs_refuses m h
  unfold setCustomerData
  rw [run_bind, hrun]
  exact hcode

theorem value_setCustomerData_unconnected (h : a.InRange) (hc : ¬ x.connect.Succeeds) :
    ((setCustomerData x a).run m).value = -1 := by
  unfold setCustomerData
  rw [run_bind, h.run_checkWriteArgs, Run.andThen_ok, Run.value_prepend]
  exact value_openAcd_refused hc _ m

theorem int32_neg_teeFailure : int32 (uint32 (acdWriteSuccess - teeFailure)) = 1 := by decide

/-- A failed receive is negated once too often. -/
theorem value_setCustomerData_unanswered (h : a.InRange) (hc : x.connect.Succeeds)
    (hgot : x.received AcdStatusToHost.size = none) :
    ((setCustomerData x a).run m).value = 1 := by
  obtain ⟨hfail, -⟩ := transact_spec x AcdWriteCmdFromHost.size AcdStatusToHost.size
    (fun m => by simp [setWriteParams, setHdrReq]) (within_setWriteParams a) m
  unfold setCustomerData
  rw [run_bind, h.run_checkWriteArgs, Run.andThen_ok, Run.value_prepend, value_openAcd_bind hc,
    run_bind, Run.andThen_of_ok (hfail hgot), run_exitIf_bind, if_pos (by decide)]
  simp only [Run.value_prepend, Run.value_error]
  exact int32_neg_teeFailure

/-- A reply decides by its status alone. -/
theorem value_setCustomerData_answered (h : a.InRange) (hc : x.connect.Succeeds)
    {got : List UInt8} (hgot : x.received AcdStatusToHost.size = some got) :
    ((setCustomerData x a).run m).value =
      if statusOf got = acdWriteSuccess then (a.fieldSize.toNat : Int)
      else int32 (uint32 (acdWriteSuccess - statusOf got)) := by
  obtain ⟨-, hok⟩ := transact_spec x AcdWriteCmdFromHost.size AcdStatusToHost.size
    (fun m => by simp [setWriteParams, setHdrReq]) (within_setWriteParams a) m
  obtain ⟨hres, hword⟩ := hok got hgot
  have hstatus : ((transact x (some x.connect.openFd) AcdWriteCmdFromHost.size
      AcdStatusToHost.size (setWriteParams a)).run m).mem.word .resp AcdStatusToHost.acdStatus =
        statusOf got := hword AcdStatusToHost.acdStatus (by decide)
  unfold setCustomerData
  rw [run_bind, h.run_checkWriteArgs, Run.andThen_ok, Run.value_prepend, value_openAcd_bind hc,
    run_bind, Run.andThen_of_ok hres, run_exitIf_bind, if_neg (by decide), run_bind, run_load,
    Run.andThen_ok, hstatus]
  by_cases hs : statusOf got = acdWriteSuccess
  · simp [hs, run_closeAcd]
  · simp only [run_bind, run_onlyIf, run_exitIf, if_pos (Ne.intro hs), if_neg hs, run_expose,
      Run.andThen_ok, Run.andThen_error, Run.value_prepend, Run.value_error]

/-- A status is negated into a negative `int` up to the middle of its range only. -/
theorem int32_neg_status {s : Nat} (hpos : s ≠ 0) (hlt : s < 2 ^ 32) :
    int32 (uint32 (acdWriteSuccess - s)) < 0 ↔ s ≤ 2 ^ 31 := by
  unfold int32 uint32 acdWriteSuccess
  omega

/-- `set_customer_data` returns a negative value: there is no connection, or a status whose negation
is negative. -/
def WriteFails (a : WriteArgs) : Prop :=
  a.InRange ∧ (x.connect.Succeeds →
    ∃ got ∈ x.received AcdStatusToHost.size,
      statusOf got ≠ acdWriteSuccess ∧ statusOf got ≤ 2 ^ 31)

/-- `set_customer_data` returns `FieldSize`: the firmware reports success, or a failure happens to
be reported by that number. -/
def WriteReports (a : WriteArgs) : Prop :=
  a.InRange ∧ x.connect.Succeeds ∧
    (x.received AcdStatusToHost.size = none ∧ a.fieldSize.toNat = 1 ∨
      ∃ got ∈ x.received AcdStatusToHost.size,
        statusOf got = acdWriteSuccess ∨ statusOf got + a.fieldSize.toNat = 2 ^ 32)

theorem value_setCustomerData_neg_iff :
    ((setCustomerData x a).run m).value < 0 ↔ WriteFails x a := by
  unfold WriteFails
  by_cases h : a.InRange
  · by_cases hc : x.connect.Succeeds
    · cases hgot : x.received AcdStatusToHost.size with
      | none =>
          rw [value_setCustomerData_unanswered x m h hc hgot]
          simp [hc]
      | some got =>
          rw [value_setCustomerData_answered x m h hc hgot]
          by_cases hs : statusOf got = acdWriteSuccess
          · simp [hc, hs]
          · rw [if_neg hs, int32_neg_status hs (statusOf_lt got)]
            simp [h, hc, hs]
    · rw [value_setCustomerData_unconnected x m h hc]
      simp [h, hc]
  · have hcode := value_setCustomerData_refused x m h
    exact iff_of_false (by omega) fun hyes => h hyes.1

theorem value_setCustomerData_eq_size_iff :
    ((setCustomerData x a).run m).value = a.fieldSize.toNat ↔ WriteReports x a := by
  have hlt := a.fieldSize.toNat_lt
  unfold WriteReports
  by_cases h : a.InRange
  · by_cases hc : x.connect.Succeeds
    · cases hgot : x.received AcdStatusToHost.size with
      | none =>
          have hone : (1 : Int) = a.fieldSize.toNat ↔ a.fieldSize.toNat = 1 := by omega
          rw [value_setCustomerData_unanswered x m h hc hgot, hone]
          simp [h, hc]
      | some got =>
          rw [value_setCustomerData_answered x m h hc hgot]
          by_cases hs : statusOf got = acdWriteSuccess
          · simp [h, hc, hs]
          · have hstatus := statusOf_lt got
            have hpos := h.size.1
            have hsize : int32 (uint32 (acdWriteSuccess - statusOf got)) = a.fieldSize.toNat ↔
                statusOf got + a.fieldSize.toNat = 2 ^ 32 := by
              simp only [int32, uint32, acdWriteSuccess, acdMinDataSizeInBytes] at hs hpos ⊢
              omega
            rw [if_neg hs, hsize]
            simp [h, hc, hs]
    · rw [value_setCustomerData_unconnected x m h hc]
      exact iff_of_false (by omega) fun hyes => hc hyes.2.1
  · have hcode := value_setCustomerData_refused x m h
    exact iff_of_false (by omega) fun hyes => h hyes.1

variable (a)

/-- The field was stored: the arguments are in range, the device took the whole request, and a
full reply reports success. -/
def Stored : Prop :=
  a.InRange ∧ x.connect.Succeeds ∧
    x.written AcdWriteCmdFromHost.size = AcdWriteCmdFromHost.size ∧
    ∃ got ∈ x.received AcdStatusToHost.size,
      got.length = AcdStatusToHost.size ∧ statusOf got = acdWriteSuccess

/-- The function returns `FieldSize` if the field was stored, and a negative value otherwise. -/
def SizeIffStored : Prop :=
  (0 ≤ ((setCustomerData x a).run m).value ↔ Stored x a) ∧
    (0 ≤ ((setCustomerData x a).run m).value →
      ((setCustomerData x a).run m).value = a.fieldSize.toNat)

/-- The status of a reply is a failure whose negation is a negative `int`, or it is a success in
a full reply to a request the device took whole. -/
def StatusCounts (got : List UInt8) : Prop :=
  statusOf got ≠ acdWriteSuccess ∧ statusOf got ≤ 2 ^ 31 ∨
    statusOf got = acdWriteSuccess ∧ got.length = AcdStatusToHost.size ∧
      x.written AcdWriteCmdFromHost.size = AcdWriteCmdFromHost.size

variable {a}

theorem sizeIffStored_answered (h : a.InRange) (hc : x.connect.Succeeds) {got : List UInt8}
    (hgot : x.received AcdStatusToHost.size = some got) :
    SizeIffStored x a m ↔ StatusCounts x got := by
  unfold SizeIffStored StatusCounts
  rw [value_setCustomerData_answered x m h hc hgot]
  have hstored : Stored x a ↔ x.written AcdWriteCmdFromHost.size = AcdWriteCmdFromHost.size ∧
      got.length = AcdStatusToHost.size ∧ statusOf got = acdWriteSuccess := by
    constructor
    · intro hst
      obtain ⟨-, -, hwrite, got', hgot', hlen, hs⟩ := hst
      rw [hgot, Option.mem_some_iff] at hgot'
      subst hgot'
      exact ⟨hwrite, hlen, hs⟩
    · intro hreply
      obtain ⟨hwrite, hlen, hs⟩ := hreply
      exact ⟨h, hc, hwrite, got, hgot, hlen, hs⟩
  rw [hstored]
  by_cases hs : statusOf got = acdWriteSuccess
  · rw [if_pos hs]
    constructor
    · intro hexact
      obtain ⟨hwrite, hlen, -⟩ := hexact.1.mp (Int.natCast_nonneg _)
      exact .inr ⟨hs, hlen, hwrite⟩
    · intro hcounts
      rcases hcounts with ⟨hne, -⟩ | ⟨-, hlen, hwrite⟩
      · exact absurd hs hne
      · exact ⟨⟨fun _ => ⟨hwrite, hlen, hs⟩, fun _ => Int.natCast_nonneg _⟩, fun _ => rfl⟩
  · -- a failure is reported by the sign of the negated status
    have hneg := int32_neg_status hs (statusOf_lt got)
    rw [if_neg hs]
    constructor
    · intro hexact
      refine .inl ⟨hs, hneg.mp ?_⟩
      by_contra hge
      exact hs (hexact.1.mp (by omega)).2.2
    · intro hcounts
      rcases hcounts with ⟨-, hle⟩ | ⟨heq, -⟩
      · have hlt := hneg.mpr hle
        exact ⟨⟨fun hge => absurd hge (by omega), fun hst => absurd hst.2.2 hs⟩,
          fun hge => absurd hge (by omega)⟩
      · exact absurd heq hs

/-- `set_customer_data` keeps to its contract exactly when its arguments are in range and either
there is no connection or a reply is received whose status counts: a refusal and a failed
receive are reported by a positive value, a short request or reply is not noticed, and a status
above the middle of the range is negated into a positive value. -/
theorem setCustomerData_exact_iff (x : Exchange) (a : WriteArgs) (m : Mem Block) :
    SizeIffStored x a m ↔
      a.InRange ∧ (x.connect.Succeeds →
        ∃ got ∈ x.received AcdStatusToHost.size, StatusCounts x got) := by
  by_cases h : a.InRange
  · by_cases hc : x.connect.Succeeds
    · cases hgot : x.received AcdStatusToHost.size with
      | none =>
          -- the 1 of a failed receive claims that the field was stored
          have hvalue := value_setCustomerData_unanswered x m h hc hgot
          constructor
          · intro hexact
            obtain ⟨-, -, -, got, hmem, -⟩ := hexact.1.mp (by rw [hvalue]; decide)
            rw [hgot] at hmem
            exact absurd hmem (by simp)
          · intro hcond
            obtain ⟨got, hmem, -⟩ := hcond.2 hc
            exact absurd hmem (by simp)
      | some got =>
          rw [sizeIffStored_answered x m h hc hgot]
          constructor
          · intro hcounts
            exact ⟨h, fun _ => ⟨got, rfl, hcounts⟩⟩
          · intro hcond
            obtain ⟨got', hmem, hcounts⟩ := hcond.2 hc
            rw [Option.mem_some_iff] at hmem
            exact hmem ▸ hcounts
    · have hvalue := value_setCustomerData_unconnected x m h hc
      refine ⟨fun _ => ⟨h, fun hyes => absurd hyes hc⟩, fun _ => ?_⟩
      unfold SizeIffStored
      rw [hvalue]
      exact ⟨⟨fun hge => absurd hge (by decide), fun hst => absurd hst.2.1 hc⟩,
        fun hge => absurd hge (by decide)⟩
  · have hpos := value_setCustomerData_refused x m h
    constructor
    · intro hexact
      exact absurd (hexact.1.mp (by omega)).1 h
    · intro hcond
      exact absurd hcond.1 h

/-- Field index 0 is refused, and the refusal is the positive
`ACD_WRITE_ERROR_ILLEGAL_PARAMETER`. -/
theorem setCustomerData_not_exact :
    ((setCustomerData (answering 528 []) ⟨0, 5, 5, true⟩).run (.ofLists fun _ => [])).value =
        0x30000008 ∧
      ¬ SizeIffStored (answering 528 []) ⟨0, 5, 5, true⟩ (.ofLists fun _ => []) := by
  refine ⟨by decide, fun h => ?_⟩
  obtain ⟨hin, -⟩ := h.1.mp (by decide)
  exact absurd hin.index.1 (by decide)

end Set

end Txei.Acd

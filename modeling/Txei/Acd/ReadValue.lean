import Txei.Acd.Handles

/-!
# What `get_customer_data` returns

One unsigned variable carries the errors of the connection, of the receive, of the firmware and of
`calloc`, and the number of bytes read; it becomes the `int` that the caller tests for its sign. The
header promises a negative value for every error and otherwise the number of bytes in the buffer
that is handed out; `getCustomerData_exact_iff` says for which arguments and outcomes that is so.
-/

namespace Txei.Acd

open Machine Machine.Prog Mei Tee

/-- The arguments pass the checks of `get_customer_data`. -/
structure ReadArgs.InRange (a : ReadArgs) : Prop where
  index : acdMinFieldIndex ≤ a.uiFieldIndex.toNat ∧ a.uiFieldIndex.toNat ≤ acdMaxFieldIndex
  data : a.pvAdcFieldData = true

/-- The status of a reply that `get_customer_data` accepts. -/
def Readable (got : List UInt8) : Prop :=
  readStatusOf got = acdReadSuccess ∨ readStatusOf got = acdReadSecureDataProvisionedAndWriteOnly

theorem readStatusOf_lt (got : List UInt8) : readStatusOf got < 2 ^ 32 := by
  unfold readStatusOf Mem.wordOf
  exact word_lt _

theorem bytesReadOf_lt (got : List UInt8) : bytesReadOf got < 2 ^ 16 :=
  Nat.mod_lt _ (by decide)

/-- The caller's pointer is as it was or null, and no buffer is filled. -/
def HandsNothing (m m' : Mem Block) : Prop :=
  (m' .outData = m .outData ∨ ∀ i < 8, m' .outData i = 0) ∧ m' .outBuffer = m .outBuffer

theorem HandsNothing.of_agree {m m' m'' : Mem Block} (h : HandsNothing m' m'')
    (hpointer : m' .outData = m .outData) (hbuffer : m' .outBuffer = m .outBuffer) :
    HandsNothing m m'' :=
  ⟨h.1.imp_left fun hsame => hsame.trans hpointer, h.2.trans hbuffer⟩

/-- The caller's pointer is that of the allocated buffer, and the buffer holds exactly the first
`bytes_read` bytes of the data in the reply. -/
def HandsOut (calloc : UInt64) (got : List UInt8) (m m' : Mem Block) : Prop :=
  (∀ i < 8, m' .outData i = byteAt calloc.toNat i) ∧
    (∀ i < bytesReadOf got, m' .outBuffer i = got.getD (AcdReadCmdToHost.buf + i) 0) ∧
    ∀ i, bytesReadOf got ≤ i → m' .outBuffer i = m .outBuffer i

/-! ## The reply -/

/-- The lines of `get_customer_data` that hand the data out. -/
def giveData (calloc : UInt64) (returnedSize : Nat) : Proc Int := do
  storeOutData calloc
  exitIf (calloc = 0) acdReadErrorUmipReadFailure
  copyOutData returnedSize
  pure (int32 returnedSize)

/-- The lines of `get_customer_data` behind the exchange. -/
def takeReply (calloc : UInt64) : Proc Int := do
  let ret ← load .resp AcdReadCmdToHost.acdStatus
  onlyIf (ret ≠ acdReadSuccess ∧ ret ≠ acdReadSecureDataProvisionedAndWriteOnly)
    (expose .resp AcdReadCmdToHost.size)
  exitIf (ret ≠ acdReadSuccess ∧ ret ≠ acdReadSecureDataProvisionedAndWriteOnly)
    (int32 (uint32 (acdReadSuccess - ret)))
  let returnedSize ← load16 .resp AcdReadCmdToHost.bytesRead
  giveData calloc returnedSize

section TakeReply

variable {m : Mem Block} {got : List UInt8}

/-- The reply structure holds `got`, with zeros behind it. -/
def ReplyIs (got : List UInt8) (m : Mem Block) : Prop :=
  ∀ i < AcdReadCmdToHost.size, m .resp i = got.getD i 0

theorem ReplyIs.status (h : ReplyIs got m) :
    m.word .resp AcdReadCmdToHost.acdStatus = readStatusOf got :=
  word_congr fun i hi => h (12 + i) (by simp only [AcdReadCmdToHost.size]; omega)

theorem ReplyIs.bytesRead (h : ReplyIs got m) :
    m.half .resp AcdReadCmdToHost.bytesRead = bytesReadOf got := by
  rw [Mem.half_eq_word]
  refine congrArg wrap16 (word_congr fun i hi => h (8 + i) ?_)
  simp only [AcdReadCmdToHost.size]
  omega

variable (calloc : UInt64)

/-- A status that is not accepted is negated. -/
theorem takeReply_rejected (h : ReplyIs got m) (hs : ¬ Readable got) :
    ((takeReply calloc).run m).value = int32 (uint32 (acdReadSuccess - readStatusOf got)) ∧
      ((takeReply calloc).run m).mem = m := by
  have hno : readStatusOf got ≠ acdReadSuccess ∧
      readStatusOf got ≠ acdReadSecureDataProvisionedAndWriteOnly := not_or.mp hs
  unfold takeReply
  rw [run_bind, run_load, Run.andThen_ok, h.status, run_bind, run_onlyIf, if_pos hno, run_expose,
    Run.andThen_ok, run_exitIf_bind, if_pos hno]
  simp only [Run.value_prepend, Run.value_error, Run.prepend_mem, and_self]

/-- The data of an accepted reply is handed out. -/
theorem takeReply_accepted (h : ReplyIs got m) (hs : Readable got) :
    ((takeReply calloc).run m).value = ((giveData calloc (bytesReadOf got)).run m).value ∧
      ((takeReply calloc).run m).mem = ((giveData calloc (bytesReadOf got)).run m).mem := by
  have hno : ¬ (readStatusOf got ≠ acdReadSuccess ∧
      readStatusOf got ≠ acdReadSecureDataProvisionedAndWriteOnly) :=
    fun hboth => hs.elim hboth.1 hboth.2
  unfold takeReply
  rw [run_bind, run_load, Run.andThen_ok, h.status, run_bind, run_onlyIf, if_neg hno,
    Run.andThen_ok, run_exitIf_bind, if_neg hno, run_bind, run_load16, Run.andThen_ok, h.bytesRead]
  simp only [Run.value_prepend, Run.prepend_mem, and_self]

theorem outBuffer_ne_outData : Block.outBuffer ≠ .outData := by decide

/-- The buffer holds the data of the reply structure, and nothing behind it. -/
theorem copyOutData_spec (n : Nat) (m : Mem Block) :
    ((copyOutData n).run m).result = .ok () ∧
      (∀ i < n, ((copyOutData n).run m).mem .outBuffer i = m .resp (AcdReadCmdToHost.buf + i)) ∧
      (∀ i, n ≤ i → ((copyOutData n).run m).mem .outBuffer i = m .outBuffer i) ∧
      ((copyOutData n).run m).mem .outData = m .outData := by
  have hin : Within (Event.In [.resp] [.outBuffer]) (copyOutData n) :=
    .bind (by simp) fun _ => by simp
  have hmem : ((copyOutData n).run m).mem = (m.write .outBuffer 0 n fun _ => 0).write
      .outBuffer 0 n fun i =>
        (m.write .outBuffer 0 n fun _ => 0) .resp (AcdReadCmdToHost.buf + i) := rfl
  refine ⟨rfl, fun i hi => ?_, fun i hi => ?_, hin.mem_eq (by simp) m⟩
  · rw [hmem, Mem.write_inside _ Block.outBuffer 0 n _ i (by omega), Nat.sub_zero]
    exact Mem.write_outside m .outBuffer 0 n _ .resp _ (by simp)
  · rw [hmem, Mem.write_outside _ Block.outBuffer 0 n _ .outBuffer i (by omega)]
    exact Mem.write_outside m .outBuffer 0 n _ .outBuffer i (by omega)

/-- Without a buffer the null pointer is handed out with a positive code. -/
theorem giveData_unallocated (n : Nat) (m : Mem Block) :
    ((giveData 0 n).run m).value = acdReadErrorUmipReadFailure ∧
      HandsNothing m ((giveData 0 n).run m).mem := by
  unfold giveData storeOutData
  rw [run_bind, run_put, Run.andThen_ok, run_exitIf_bind, if_pos rfl]
  refine ⟨rfl, .inr fun i hi => ?_, ?_⟩
  · refine (Mem.write_inside m Block.outData 0 8 _ i (by omega)).trans ?_
    simp [byteAt]
  · exact Mem.write_other m 0 8 (byteAt 0) outBuffer_ne_outData

/-- With a buffer the data is handed out, and its size is returned. -/
theorem giveData_allocated (hcalloc : calloc ≠ 0) {n : Nat} (hn : n < 2 ^ 16) (m : Mem Block) :
    ((giveData calloc n).run m).value = n ∧
      (∀ i < 8, ((giveData calloc n).run m).mem .outData i = byteAt calloc.toNat i) ∧
      (∀ i < n, ((giveData calloc n).run m).mem .outBuffer i =
        m .resp (AcdReadCmdToHost.buf + i)) ∧
      ∀ i, n ≤ i → ((giveData calloc n).run m).mem .outBuffer i = m .outBuffer i := by
  obtain ⟨hres, hdata, hbehind, hpointer⟩ := copyOutData_spec n
    (m.write .outData 0 8 (byteAt calloc.toNat))
  unfold giveData storeOutData
  rw [run_bind, run_put, Run.andThen_ok, run_exitIf_bind, if_neg hcalloc, run_bind,
    Run.andThen_of_ok hres]
  simp only [run_pure, Run.value_prepend, Run.value_ok, Run.prepend_mem]
  refine ⟨int32_of_nonneg_lt (by omega) (by omega), fun i hi => ?_, fun i hi => ?_,
    fun i hi => ?_⟩
  · rw [hpointer]
    exact Mem.write_inside m .outData 0 8 (byteAt calloc.toNat) i (by omega)
  · rw [hdata i hi, Mem.write_outside m .outData 0 8 _ .resp _ (by simp)]
  · rw [hbehind i hi, Mem.write_outside m .outData 0 8 _ .outBuffer i (by simp)]

end TakeReply

/-! ## The whole function -/

theorem within_acdInit (c : Connect) : Within (Event.In [] []) (acdInit c) :=
  .bind (within_teeInit c fun _ => trivial) fun _ => within_pure _

/-- The exchange reads the arguments and the request, and writes the request and the reply. -/
theorem within_transact (x : Exchange) (ptrHandle : Option Int) (paramsSize respSize : Nat)
    {fillParams : Proc Unit} (hfill : Within (Event.In [.fieldData] [.params]) fillParams) :
    Within (Event.In [.fieldData, .params] [.params, .resp])
      (transact x ptrHandle paramsSize respSize fillParams) := by
  refine .bind (by simp) fun _ => .bind (by simp) fun _ => ?_
  refine .bind (hfill.widen (by simp) (by simp)) fun _ => ?_
  exact within_processCmd x _ _ _ _ _ _ (by simp) (by simp)

section GetCustomerData

variable (x : Exchange) (calloc : UInt64) (a : ReadArgs) (m : Mem Block)

theorem within_setReadParams :
    Within (Event.In [.fieldData] [.params]) (setReadParams a) :=
  .bind (within_setHdrReq _) fun _ => by simp

/-- Without a connection the function returns the `int` of `TEE_FAILURE`. -/
theorem getCustomerData_unconnected (hc : ¬ x.connect.Succeeds) :
    ((getCustomerData x calloc a).run m).value = -1 ∧
      HandsNothing m ((getCustomerData x calloc a).run m).mem := by
  obtain ⟨hres, hmem⟩ := run_acdInit x.connect m
  rw [if_neg hc] at hres
  unfold getCustomerData
  rw [run_bind, Run.andThen_of_ok hres, hmem]
  simp [closeAcd, HandsNothing]

/-- With one it returns what is in `ret` at the label `exit`. -/
theorem getCustomerData_connected (hc : x.connect.Succeeds) :
    ((getCustomerData x calloc a).run m).value =
        ((readField x calloc a (some x.connect.openFd)).run m).value ∧
      ((getCustomerData x calloc a).run m).mem =
        ((readField x calloc a (some x.connect.openFd)).run m).mem := by
  obtain ⟨hres, hmem⟩ := run_acdInit x.connect m
  rw [if_pos hc] at hres
  unfold getCustomerData
  rw [run_bind, Run.andThen_of_ok hres, hmem]
  simp [run_closeAcd]

variable {a}

/-- Arguments out of range are refused before anything is sent. -/
theorem run_readField_refused (ptrHandle : Option Int) (h : ¬ a.InRange) :
    (readField x calloc a ptrHandle).run m =
      ⟨.error acdReadErrorIllegalInputParameter, m, []⟩ := by
  unfold readField
  rw [run_exitIf_bind]
  by_cases hindex : acdMinFieldIndex ≤ a.uiFieldIndex.toNat ∧
      a.uiFieldIndex.toNat ≤ acdMaxFieldIndex
  · have hdata : a.pvAdcFieldData = false := by
      by_contra hdata
      exact h ⟨hindex, by simpa using hdata⟩
    rw [if_neg (not_not_intro hindex), run_exitIf_bind, if_pos hdata]
  · rw [if_pos hindex]

/-- The exchange of `get_customer_data`. -/
def readExchange (x : Exchange) (a : ReadArgs) : Proc Nat :=
  transact x (some x.connect.openFd) AcdReadCmdFromHost.size AcdReadCmdToHost.size (setReadParams a)

theorem within_readExchange (x : Exchange) (a : ReadArgs) :
    Within (Event.In [.fieldData, .params] [.params, .resp]) (readExchange x a) :=
  within_transact x _ _ _ (within_setReadParams a)

/-- Without a reply the function leaves behind the exchange. -/
theorem run_readField_lost (h : a.InRange) (hgot : x.received AcdReadCmdToHost.size = none) :
    (readField x calloc a (some x.connect.openFd)).run m =
      ⟨.error 1, ((readExchange x a).run m).mem, ((readExchange x a).run m).log⟩ := by
  obtain ⟨hfail, -⟩ := transact_bytes x AcdReadCmdFromHost.size AcdReadCmdToHost.size
    (fun m => by simp [setReadParams, setHdrReq]) (within_setReadParams a) m
  have hcode : int32 (uint32 (acdReadSuccess - teeFailure)) = 1 := int32_neg_teeFailure
  unfold readField
  rw [run_exitIf_bind, if_neg (not_not_intro h.index), run_exitIf_bind,
    if_neg (by simp [h.data]), run_bind, Run.andThen_of_ok (hfail hgot), run_exitIf_bind,
    if_pos (by decide), hcode, Run.prepend_silent]
  rfl

/-- With one the lines behind the exchange decide. -/
theorem run_readField_answered (h : a.InRange) {got : List UInt8}
    (hgot : x.received AcdReadCmdToHost.size = some got) :
    ReplyIs got ((readExchange x a).run m).mem ∧
      (readField x calloc a (some x.connect.openFd)).run m =
        ((takeReply calloc).run ((readExchange x a).run m).mem).prepend
          ((readExchange x a).run m).log := by
  obtain ⟨-, hok⟩ := transact_bytes x AcdReadCmdFromHost.size AcdReadCmdToHost.size
    (fun m => by simp [setReadParams, setHdrReq]) (within_setReadParams a) m
  obtain ⟨hres, hbytes⟩ := hok got hgot
  refine ⟨hbytes, ?_⟩
  unfold readField
  rw [run_exitIf_bind, if_neg (not_not_intro h.index), run_exitIf_bind,
    if_neg (by simp [h.data]), run_bind, Run.andThen_of_ok hres, run_exitIf_bind,
    if_neg (by decide)]
  rfl

/-- Arguments out of range are refused with a positive code. -/
theorem getCustomerData_refused (hc : x.connect.Succeeds) (h : ¬ a.InRange) :
    ((getCustomerData x calloc a).run m).value = acdReadErrorIllegalInputParameter := by
  rw [(getCustomerData_connected x calloc a m hc).1, run_readField_refused x calloc m _ h,
    Run.value_error]

/-- A failed receive is negated once too often. -/
theorem getCustomerData_lost (hc : x.connect.Succeeds) (h : a.InRange)
    (hgot : x.received AcdReadCmdToHost.size = none) :
    ((getCustomerData x calloc a).run m).value = 1 ∧
      HandsNothing m ((getCustomerData x calloc a).run m).mem := by
  obtain ⟨hvalue, hmem⟩ := getCustomerData_connected x calloc a m hc
  have hin := within_readExchange x a
  rw [hvalue, hmem, run_readField_lost x calloc m h hgot]
  exact ⟨rfl, .inl (hin.mem_eq (by simp) m), hin.mem_eq (by simp) m⟩

/-- A reply decides. -/
theorem getCustomerData_answered (hc : x.connect.Succeeds) (h : a.InRange) {got : List UInt8}
    (hgot : x.received AcdReadCmdToHost.size = some got) :
    ∃ m', ReplyIs got m' ∧ m' .outData = m .outData ∧ m' .outBuffer = m .outBuffer ∧
      ((getCustomerData x calloc a).run m).value = ((takeReply calloc).run m').value ∧
      ((getCustomerData x calloc a).run m).mem = ((takeReply calloc).run m').mem := by
  obtain ⟨hvalue, hmem⟩ := getCustomerData_connected x calloc a m hc
  obtain ⟨hreply, hrun⟩ := run_readField_answered x calloc m h hgot
  have hin := within_readExchange x a
  refine ⟨_, hreply, hin.mem_eq (by simp) m, hin.mem_eq (by simp) m, ?_⟩
  rw [hvalue, hmem, hrun]
  simp only [Run.value_prepend, Run.prepend_mem, and_self]

/-- A reply makes the value negative by a status whose negation is, and not otherwise. -/
theorem value_getCustomerData_neg_iff (hc : x.connect.Succeeds) (h : a.InRange)
    {got : List UInt8} (hgot : x.received AcdReadCmdToHost.size = some got) :
    ((getCustomerData x calloc a).run m).value < 0 ↔
      ¬ Readable got ∧ readStatusOf got ≤ 2 ^ 31 := by
  obtain ⟨m', hreply, -, -, hvalue, -⟩ := getCustomerData_answered x calloc m hc h hgot
  rw [hvalue]
  by_cases hs : Readable got
  · refine iff_of_false ?_ fun hboth => hboth.1 hs
    rw [(takeReply_accepted calloc hreply hs).1]
    by_cases hcalloc : calloc = 0
    · rw [hcalloc, (giveData_unallocated _ m').1]
      decide
    · rw [(giveData_allocated calloc hcalloc (bytesReadOf_lt got) m').1]
      omega
  · rw [(takeReply_rejected calloc hreply hs).1, and_iff_right hs]
    exact int32_neg_status (fun hzero => hs (.inl hzero)) (readStatusOf_lt got)

end GetCustomerData

/-! ## The contract -/

section Contract

variable (x : Exchange) (calloc : UInt64) (a : ReadArgs) (m : Mem Block)

/-- The field was delivered: the arguments are in range, the exchange went through, the firmware
reports one of the two statuses of success, and there is a buffer. -/
def Delivered : Prop :=
  a.InRange ∧ x.connect.Succeeds ∧ x.Completes AcdReadCmdFromHost.size AcdReadCmdToHost.size ∧
    calloc ≠ 0 ∧ ∃ got ∈ x.received AcdReadCmdToHost.size, Readable got

/-- The function returns a non-negative value exactly if the field was delivered, then the number of
bytes in the buffer it hands out, and otherwise hands out nothing. -/
structure SizeIffDelivered : Prop where
  sign : 0 ≤ ((getCustomerData x calloc a).run m).value ↔ Delivered x calloc a
  data : Delivered x calloc a → ∃ got ∈ x.received AcdReadCmdToHost.size,
    ((getCustomerData x calloc a).run m).value = bytesReadOf got ∧
      HandsOut calloc got m ((getCustomerData x calloc a).run m).mem
  nothing : ¬ Delivered x calloc a → HandsNothing m ((getCustomerData x calloc a).run m).mem

/-- The status of a reply is a failure whose negation is a negative `int`, or it is a success in a
full reply to a request sent whole, and there is a buffer. -/
def ReadCounts (got : List UInt8) : Prop :=
  ¬ Readable got ∧ readStatusOf got ≤ 2 ^ 31 ∨
    Readable got ∧ calloc ≠ 0 ∧ x.Completes AcdReadCmdFromHost.size AcdReadCmdToHost.size

variable {a}

theorem delivered_iff (hc : x.connect.Succeeds) (h : a.InRange) {got : List UInt8}
    (hgot : x.received AcdReadCmdToHost.size = some got) :
    Delivered x calloc a ↔ Readable got ∧ calloc ≠ 0 ∧
      x.Completes AcdReadCmdFromHost.size AcdReadCmdToHost.size := by
  constructor
  · intro hdelivered
    obtain ⟨-, -, hcompletes, hcalloc, got', hgot', hs⟩ := hdelivered
    rw [hgot, Option.mem_some_iff] at hgot'
    subst hgot'
    exact ⟨hs, hcalloc, hcompletes⟩
  · intro hreply
    obtain ⟨hs, hcalloc, hcompletes⟩ := hreply
    exact ⟨h, hc, hcompletes, hcalloc, got, hgot, hs⟩

/-- A status that is not accepted is reported by the sign of its negation. -/
theorem sizeIffDelivered_rejected (hc : x.connect.Succeeds) (h : a.InRange) {got : List UInt8}
    (hgot : x.received AcdReadCmdToHost.size = some got) (hs : ¬ Readable got) :
    SizeIffDelivered x calloc a m ↔ readStatusOf got ≤ 2 ^ 31 := by
  obtain ⟨m', hreply, hpointer, hbuffer, -, hmem⟩ :=
    getCustomerData_answered x calloc m hc h hgot
  have hneg := (value_getCustomerData_neg_iff x calloc m hc h hgot).trans (and_iff_right hs)
  have hno : ¬ Delivered x calloc a :=
    fun hdelivered => hs ((delivered_iff x calloc hc h hgot).mp hdelivered).1
  constructor
  · intro hexact
    refine hneg.mp ?_
    by_contra hge
    exact hno (hexact.sign.mp (Int.not_lt.mp hge))
  · intro hle
    have hlt := hneg.mpr hle
    refine ⟨⟨fun hge => absurd hge (by omega), fun hyes => absurd hyes hno⟩,
      fun hyes => absurd hyes hno, fun _ => ?_⟩
    rw [hmem, (takeReply_rejected calloc hreply hs).2]
    exact ⟨.inl hpointer, hbuffer⟩

/-- An accepted reply is reported as delivered if there is a buffer, and otherwise by a positive
code. -/
theorem sizeIffDelivered_accepted (hc : x.connect.Succeeds) (h : a.InRange) {got : List UInt8}
    (hgot : x.received AcdReadCmdToHost.size = some got) (hs : Readable got)
    (hsize : bytesReadOf got ≤ acdMaxDataSizeInBytes) :
    SizeIffDelivered x calloc a m ↔
      calloc ≠ 0 ∧ x.Completes AcdReadCmdFromHost.size AcdReadCmdToHost.size := by
  obtain ⟨m', hreply, hpointer, hbuffer, hvalue, hmem⟩ :=
    getCustomerData_answered x calloc m hc h hgot
  obtain ⟨htaken, htakenMem⟩ := takeReply_accepted calloc hreply hs
  have hdelivered := delivered_iff x calloc hc h hgot
  by_cases hcalloc : calloc = 0
  · subst hcalloc
    refine iff_of_false (fun hexact => ?_) (fun hcond => hcond.1 rfl)
    have hcode := (giveData_unallocated (bytesReadOf got) m').1
    have hpos := hexact.sign.mp (by rw [hvalue, htaken, hcode]; decide)
    exact (hdelivered.mp hpos).2.1 rfl
  · obtain ⟨hcount, hpointer', hdata, hbehind⟩ :=
      giveData_allocated calloc hcalloc (bytesReadOf_lt got) m'
    rw [← htaken, ← hvalue] at hcount
    have hover : HandsOut calloc got m ((getCustomerData x calloc a).run m).mem := by
      rw [hmem, htakenMem]
      refine ⟨hpointer', fun i hi => ?_, fun i hi => ?_⟩
      · refine (hdata i hi).trans (hreply _ ?_)
        simp only [acdMaxDataSizeInBytes] at hsize
        simp only [AcdReadCmdToHost.size, AcdReadCmdToHost.buf]
        omega
      · exact (hbehind i hi).trans (congrFun hbuffer i)
    have hge : 0 ≤ ((getCustomerData x calloc a).run m).value := by
      rw [hcount]
      exact Int.natCast_nonneg _
    constructor
    · intro hexact
      exact (hdelivered.mp (hexact.sign.mp hge)).2
    · intro hcond
      have hyes : Delivered x calloc a := hdelivered.mpr ⟨hs, hcond⟩
      exact ⟨⟨fun _ => hyes, fun _ => hge⟩, fun _ => ⟨got, hgot, hcount, hover⟩,
        fun hno => absurd hyes hno⟩

theorem sizeIffDelivered_answered (hc : x.connect.Succeeds) (h : a.InRange) {got : List UInt8}
    (hgot : x.received AcdReadCmdToHost.size = some got)
    (hsize : bytesReadOf got ≤ acdMaxDataSizeInBytes) :
    SizeIffDelivered x calloc a m ↔ ReadCounts x calloc got := by
  unfold ReadCounts
  by_cases hs : Readable got
  · rw [sizeIffDelivered_accepted x calloc m hc h hgot hs hsize]
    simp [hs]
  · rw [sizeIffDelivered_rejected x calloc m hc h hgot hs]
    simp [hs]

/-- `get_customer_data` keeps to its contract exactly when there is no connection, or its arguments
are in range and a reply is received that counts: a refusal, a failed receive and a failed `calloc`
are reported by a positive value, a short request or reply is not noticed, and a status above the
middle of the range is negated into a positive value. -/
theorem getCustomerData_exact_iff (x : Exchange) (calloc : UInt64) (a : ReadArgs) (m : Mem Block)
    (hsize : ∀ got ∈ x.received AcdReadCmdToHost.size,
      bytesReadOf got ≤ acdMaxDataSizeInBytes) :
    SizeIffDelivered x calloc a m ↔
      (x.connect.Succeeds →
        a.InRange ∧ ∃ got ∈ x.received AcdReadCmdToHost.size, ReadCounts x calloc got) := by
  by_cases hc : x.connect.Succeeds
  · by_cases h : a.InRange
    · cases hgot : x.received AcdReadCmdToHost.size with
      | none =>
          obtain ⟨hvalue, -⟩ := getCustomerData_lost x calloc m hc h hgot
          constructor
          · intro hexact
            obtain ⟨-, -, -, -, got, hmem, -⟩ := hexact.sign.mp (by rw [hvalue]; decide)
            rw [hgot] at hmem
            exact absurd hmem (by simp)
          · intro hcond
            obtain ⟨-, got, hmem, -⟩ := hcond hc
            exact absurd hmem (by simp)
      | some got =>
          rw [sizeIffDelivered_answered x calloc m hc h hgot (hsize got hgot)]
          constructor
          · intro hcounts
            exact fun _ => ⟨h, got, rfl, hcounts⟩
          · intro hcond
            obtain ⟨-, got', hmem, hcounts⟩ := hcond hc
            rw [Option.mem_some_iff] at hmem
            exact hmem ▸ hcounts
    · have hvalue := getCustomerData_refused x calloc m hc h
      constructor
      · intro hexact
        exact absurd (hexact.sign.mp (by rw [hvalue]; decide)).1 h
      · intro hcond
        exact absurd (hcond hc).1 h
  · obtain ⟨hvalue, hnothing⟩ := getCustomerData_unconnected x calloc a m hc
    have hno : ¬ Delivered x calloc a := fun hdelivered => hc hdelivered.2.1
    refine iff_of_true ?_ (fun hyes => absurd hyes hc)
    refine ⟨?_, fun hyes => absurd hyes hno, fun _ => hnothing⟩
    rw [hvalue]
    exact iff_of_false (by decide) hno

/-- A full reply of success with the two bytes 7 and 9. -/
def twoByteReply : List UInt8 :=
  [0x94, 0x26, 1, 0, 0, 0, 0, 0, 2, 0, 0, 0, 0, 0, 0, 0, 7, 9] ++ List.replicate 510 0

theorem length_twoByteReply : twoByteReply.length = AcdReadCmdToHost.size := by
  rw [twoByteReply, List.length_append, List.length_replicate]
  rfl

/-- A field of two bytes is delivered. -/
theorem twoByteReply_delivered :
    SizeIffDelivered (answering 8 twoByteReply) 4096 ⟨1, true⟩ (.ofLists fun _ => []) := by
  have hgot := received_answering (by decide) length_twoByteReply.le 8
  refine (getCustomerData_exact_iff _ _ _ _ fun got hmem => ?_).mpr fun _ => ?_
  · rw [hgot, Option.mem_some_iff] at hmem
    subst hmem
    decide
  · refine ⟨⟨by decide, rfl⟩, twoByteReply, hgot, .inr ⟨.inl (by decide), by decide, ?_⟩⟩
    exact ⟨by decide, by decide, twoByteReply, hgot, length_twoByteReply⟩

/-- Field index 0 is refused, and the refusal is the positive
`ACD_READ_ERROR_ILLEGAL_INPUT_PARAMETER`. -/
theorem getCustomerData_not_exact :
    ((getCustomerData (answering 8 twoByteReply) 4096 ⟨0, true⟩).run (.ofLists fun _ => [])).value =
        0x30000001 ∧
      ¬ SizeIffDelivered (answering 8 twoByteReply) 4096 ⟨0, true⟩ (.ofLists fun _ => []) := by
  have hvalue := getCustomerData_refused (answering 8 twoByteReply) 4096 (a := ⟨0, true⟩)
    (.ofLists fun _ => []) (by decide) (fun h => absurd h.index.1 (by decide))
  refine ⟨hvalue, fun h => ?_⟩
  obtain ⟨hin, -⟩ := h.sign.mp (by rw [hvalue]; decide)
  exact absurd hin.index.1 (by decide)

end Contract

end Txei.Acd

import Txei.Acd.ProvisionValue

/-!
# Reads of the reply

The firmware says in `bytes_read` how much of the `buf` of its reply is data, and both functions
that hand the data out take that as the size of the buffer they allocate and as the number of bytes
they copy. `replyBounds_iff` says for which replies the copy stays inside `buf`, which is the last
member of the reply structure, and a reply that claims more is reported as an error.
-/

namespace Txei.Acd

open Machine Machine.Prog Mei Tee

/-! ## `get_customer_data` -/

section Read

variable (x : Exchange) (calloc : UInt64) (a : ReadArgs) (m : Mem Block)

theorem giveData_reads (n : Nat) :
    Log.ReadsBelow .resp AcdReadCmdToHost.size ((giveData calloc n).run m).log ↔
      (calloc ≠ 0 → n ≤ acdMaxDataSizeInBytes) := by
  by_cases hcalloc : calloc = 0
  · simp [giveData, storeOutData, hcalloc]
  · simp [giveData, storeOutData, copyOutData, hcalloc]
    omega

/-- The lines behind the exchange read the header of the reply, and of an accepted one as much data
as it claims. -/
theorem takeReply_reads {m : Mem Block} {got : List UInt8} (h : ReplyIs got m) :
    Log.ReadsBelow .resp AcdReadCmdToHost.size ((takeReply calloc).run m).log ↔
      (Readable got → calloc ≠ 0 → bytesReadOf got ≤ acdMaxDataSizeInBytes) := by
  have hstatus := h.status
  have hbytes := h.bytesRead
  unfold takeReply
  rw [run_bind, run_load, Run.andThen_ok, hstatus]
  by_cases hs : Readable got
  · have hno : ¬ (readStatusOf got ≠ acdReadSuccess ∧
        readStatusOf got ≠ acdReadSecureDataProvisionedAndWriteOnly) :=
      fun hboth => hs.elim hboth.1 hboth.2
    rw [run_bind, run_onlyIf, if_neg hno, Run.andThen_ok, run_exitIf_bind, if_neg hno, run_bind,
      run_load16, Run.andThen_ok, hbytes, Run.prepend_prepend, Run.prepend_prepend,
      Run.prepend_log, Log.readsBelow_append, giveData_reads]
    simp [hs]
  · have hno : readStatusOf got ≠ acdReadSuccess ∧
        readStatusOf got ≠ acdReadSecureDataProvisionedAndWriteOnly := not_or.mp hs
    rw [run_bind, run_onlyIf, if_pos hno, run_expose, Run.andThen_ok, run_exitIf_bind, if_pos hno]
    simp [hs]

theorem getCustomerData_reads_connected (hc : x.connect.Succeeds) :
    Log.ReadsBelow .resp AcdReadCmdToHost.size ((getCustomerData x calloc a).run m).log ↔
      Log.ReadsBelow .resp AcdReadCmdToHost.size
        ((readField x calloc a (some x.connect.openFd)).run m).log := by
  obtain ⟨hres, hmem⟩ := run_acdInit x.connect m
  have hopen : Log.ReadsBelow .resp AcdReadCmdToHost.size ((acdInit x.connect).run m).log :=
    (within_acdInit x.connect).readsBelow (by simp) m _
  rw [if_pos hc] at hres
  unfold getCustomerData
  rw [run_bind, Run.andThen_of_ok hres, hmem]
  simp [run_closeAcd, hopen]

theorem getCustomerData_reads_unconnected (hc : ¬ x.connect.Succeeds) :
    Log.ReadsBelow .resp AcdReadCmdToHost.size ((getCustomerData x calloc a).run m).log := by
  obtain ⟨hres, hmem⟩ := run_acdInit x.connect m
  have hopen : Log.ReadsBelow .resp AcdReadCmdToHost.size ((acdInit x.connect).run m).log :=
    (within_acdInit x.connect).readsBelow (by simp) m _
  rw [if_neg hc] at hres
  unfold getCustomerData
  rw [run_bind, Run.andThen_of_ok hres, hmem]
  simp [closeAcd, hopen]

variable {a}

/-- The exchange does not read the reply. -/
theorem readExchange_reads :
    Log.ReadsBelow .resp AcdReadCmdToHost.size ((readExchange x a).run m).log :=
  (within_readExchange x a).readsBelow (by simp) m _

/-- Where nothing is received, nothing of the reply is read. -/
theorem getCustomerData_reads_unanswered
    (h : ¬ (x.connect.Succeeds ∧ a.InRange ∧ x.received AcdReadCmdToHost.size ≠ none)) :
    Log.ReadsBelow .resp AcdReadCmdToHost.size ((getCustomerData x calloc a).run m).log := by
  by_cases hc : x.connect.Succeeds
  · rw [getCustomerData_reads_connected x calloc a m hc]
    by_cases ha : a.InRange
    · have hgot : x.received AcdReadCmdToHost.size = none := by
        by_contra hgot
        exact h ⟨hc, ha, hgot⟩
      rw [run_readField_lost x calloc m ha hgot]
      exact readExchange_reads x m
    · rw [run_readField_refused x calloc m _ ha]
      exact Log.readsBelow_nil _ _
  · exact getCustomerData_reads_unconnected x calloc a m hc

/-- A reply that is accepted is read as far as it claims. -/
theorem getCustomerData_reads_answered (hc : x.connect.Succeeds) (h : a.InRange)
    {got : List UInt8} (hgot : x.received AcdReadCmdToHost.size = some got) :
    Log.ReadsBelow .resp AcdReadCmdToHost.size ((getCustomerData x calloc a).run m).log ↔
      (Readable got → calloc ≠ 0 → bytesReadOf got ≤ acdMaxDataSizeInBytes) := by
  obtain ⟨hreply, hrun⟩ := run_readField_answered x calloc m h hgot
  rw [getCustomerData_reads_connected x calloc a m hc, hrun, Run.prepend_log,
    Log.readsBelow_append, takeReply_reads calloc hreply, and_iff_right (readExchange_reads x m)]

variable (a)

/-- `get_customer_data` stays inside the reply, and reports a reply that claims more data than its
`buf` holds by a negative value. -/
structure ReadBounded : Prop where
  inside : Log.ReadsBelow .resp AcdReadCmdToHost.size ((getCustomerData x calloc a).run m).log
  reported : x.connect.Succeeds → a.InRange → ∀ got ∈ x.received AcdReadCmdToHost.size,
    acdMaxDataSizeInBytes < bytesReadOf got → ((getCustomerData x calloc a).run m).value < 0

theorem readBounded_iff :
    ReadBounded x calloc a m ↔
      (x.connect.Succeeds → a.InRange → ∀ got ∈ x.received AcdReadCmdToHost.size,
        acdMaxDataSizeInBytes < bytesReadOf got → ¬ Readable got ∧ readStatusOf got ≤ 2 ^ 31) := by
  constructor
  · intro hbounded hc h got hgot hbig
    exact (value_getCustomerData_neg_iff x calloc m hc h hgot).mp
      (hbounded.reported hc h got hgot hbig)
  · intro hcond
    refine ⟨?_, fun hc h got hgot hbig => ?_⟩
    · by_cases hanswered : x.connect.Succeeds ∧ a.InRange ∧
          x.received AcdReadCmdToHost.size ≠ none
      · obtain ⟨hc, h, hsome⟩ := hanswered
        obtain ⟨got, hgot⟩ := Option.ne_none_iff_exists'.mp hsome
        refine (getCustomerData_reads_answered x calloc m hc h hgot).mpr fun hs _ => ?_
        by_contra hbig
        exact (hcond hc h got hgot (Nat.lt_of_not_le hbig)).1 hs
      · exact getCustomerData_reads_unanswered x calloc m hanswered
    · exact (value_getCustomerData_neg_iff x calloc m hc h hgot).mpr (hcond hc h got hgot hbig)

end Read

/-! ## `provision_customer_data` -/

section Provision

variable (x : Exchange) (calloc : UInt64) (a : ProvisionArgs) (m : Mem Block)

theorem handOver_reads :
    Log.ReadsBelow .resp AcdReadCmdToHost.size ((handOver calloc a).run m).log ↔
      (a.pOutData = true ∧ calloc ≠ 0 →
        m.half .resp AcdReadCmdToHost.bytesRead ≤ acdMaxDataSizeInBytes) := by
  by_cases hbytes : m.half .resp AcdReadCmdToHost.bytesRead = 0
  · rw [run_handOver_empty m calloc a hbytes, hbytes]
    by_cases hout : a.pOutData = true
    · simp [hout, storeOutData]
    · simp [hout]
  by_cases hout : a.pOutData = true
  · by_cases hcalloc : calloc = 0
    · rw [hcalloc, run_handOver_unallocated m a hbytes hout]
      simp
    · rw [run_handOver_copied m calloc a hbytes hout hcalloc]
      simp [hout, hcalloc, copyOutData]
      omega
  · rw [run_handOver_illegal m calloc a hbytes hout]
    simp [hout]

/-- The lines behind the exchange read the header of the reply, and of one that is handed over as
much data as it claims. -/
theorem takeProvisionReply_reads {m : Mem Block} {got : List UInt8} (h : ReplyIs got m) (fd : Int) :
    Log.ReadsBelow .resp AcdReadCmdToHost.size
        ((takeProvisionReply calloc a (some fd)).run m).log ↔
      (HandedOver calloc a got → bytesReadOf got ≤ acdMaxDataSizeInBytes) := by
  have hreads := handOver_reads calloc a m
  rw [h.bytesRead] at hreads
  obtain ⟨hgo, hleave⟩ := run_handOver m calloc a
  rw [h.bytesRead] at hgo hleave
  unfold takeProvisionReply
  rw [run_bind, run_load, Run.andThen_ok, h.status, run_exitIf_bind]
  by_cases hs : readStatusOf got = acdProvSuccess
  · rw [if_neg (not_not_intro hs)]
    by_cases hplace : bytesReadOf got = 0 ∨ a.pOutData = true ∧ calloc ≠ 0
    · have hover : HandedOver calloc a got := ⟨hs, hplace⟩
      rw [run_bind, Run.andThen_of_ok (hgo hplace), run_bind, run_closeAcd]
      simp only [Run.andThen_ok, run_pure, Run.prepend_log, Log.readsBelow_append, hreads,
        forall_prop_of_true hover]
      constructor
      · intro hreads
        rcases hplace with hzero | hboth
        · rw [hzero]
          exact Nat.zero_le _
        · exact hreads.2.1 hboth
      · intro hle
        exact ⟨by simp, fun _ => hle, by simp⟩
    · obtain ⟨code, -, hcode⟩ := hleave hplace
      rw [run_bind, Run.andThen_of_error hcode]
      simp only [Run.prepend_log, Log.readsBelow_append, hreads]
      refine iff_of_true ⟨by simp, fun hboth => absurd (.inr hboth) hplace⟩ fun hover => ?_
      exact absurd hover.2 hplace
  · rw [if_pos hs]
    simp [HandedOver, hs]

variable {a}

/-- A function that gets as far as the exchange has not read the reply by then. -/
theorem beforeReply_reads :
    Log.ReadsBelow .resp AcdReadCmdToHost.size
      (((openAcd x.connect).run m).log ++ ((provisionExchange x a).run m).log) := by
  have hopen := (within_openAcd x.connect).readsBelow (b := .resp) (by simp) m
    AcdReadCmdToHost.size
  rw [Log.readsBelow_append]
  exact ⟨hopen, (within_provisionExchange x a).readsBelow (by simp) m _⟩

theorem provisionCustomerData_reads_unanswered
    (h : ¬ (a.Admissible ∧ x.connect.Succeeds ∧ x.received AcdReadCmdToHost.size ≠ none)) :
    Log.ReadsBelow .resp AcdReadCmdToHost.size ((provisionCustomerData x calloc a).run m).log := by
  have hbefore := beforeReply_reads x m (a := a)
  by_cases ha : a.Admissible
  · by_cases hc : x.connect.Succeeds
    · have hgot : x.received AcdReadCmdToHost.size = none := by
        by_contra hgot
        exact h ⟨ha, hc, hgot⟩
      rw [run_provisionCustomerData_lost x calloc m ha hc hgot]
      exact hbefore
    · rw [run_provisionCustomerData_unconnected x calloc m ha hc]
      exact ((Log.readsBelow_append ..).mp hbefore).1
  · rw [run_provisionCustomerData_refused x calloc m ha]
    exact Log.readsBelow_nil _ _

theorem provisionCustomerData_reads_answered (ha : a.Admissible) (hc : x.connect.Succeeds)
    {got : List UInt8} (hgot : x.received AcdReadCmdToHost.size = some got) :
    Log.ReadsBelow .resp AcdReadCmdToHost.size ((provisionCustomerData x calloc a).run m).log ↔
      (HandedOver calloc a got → bytesReadOf got ≤ acdMaxDataSizeInBytes) := by
  obtain ⟨hreply, hrun⟩ := run_provisionCustomerData_answered x calloc m ha hc hgot
  rw [hrun, Run.prepend_log, Log.readsBelow_append, and_iff_right (beforeReply_reads x m),
    takeProvisionReply_reads calloc a hreply]

theorem provisioned_iff (ha : a.Admissible) (hc : x.connect.Succeeds) {got : List UInt8}
    (hgot : x.received AcdReadCmdToHost.size = some got) :
    Provisioned x calloc a ↔ HandedOver calloc a got := by
  constructor
  · intro hyes
    obtain ⟨-, -, got', hmem, hover⟩ := hyes
    rw [hgot, Option.mem_some_iff] at hmem
    exact hmem ▸ hover
  · intro hover
    exact ⟨ha, hc, got, hgot, hover⟩

variable (a)

/-- `provision_customer_data` stays inside the reply, and does not return 0 for a reply that claims
more data than its `buf` holds. -/
structure ProvisionBounded : Prop where
  inside : Log.ReadsBelow .resp AcdReadCmdToHost.size
    ((provisionCustomerData x calloc a).run m).log
  reported : a.Admissible → x.connect.Succeeds → ∀ got ∈ x.received AcdReadCmdToHost.size,
    acdMaxDataSizeInBytes < bytesReadOf got →
      ((provisionCustomerData x calloc a).run m).value ≠ acdProvSuccess

theorem provisionBounded_iff :
    ProvisionBounded x calloc a m ↔
      (a.Admissible → x.connect.Succeeds → ∀ got ∈ x.received AcdReadCmdToHost.size,
        acdMaxDataSizeInBytes < bytesReadOf got → ¬ HandedOver calloc a got) := by
  have hvalue := value_provisionCustomerData_eq_zero_iff x calloc (a := a) m
  constructor
  · intro hbounded ha hc got hgot hbig hover
    refine hbounded.reported ha hc got hgot hbig (hvalue.mpr ?_)
    exact (provisioned_iff x calloc ha hc hgot).mpr hover
  · intro hcond
    refine ⟨?_, fun ha hc got hgot hbig hzero => ?_⟩
    · by_cases hanswered : a.Admissible ∧ x.connect.Succeeds ∧
          x.received AcdReadCmdToHost.size ≠ none
      · obtain ⟨ha, hc, hsome⟩ := hanswered
        obtain ⟨got, hgot⟩ := Option.ne_none_iff_exists'.mp hsome
        refine (provisionCustomerData_reads_answered x calloc m ha hc hgot).mpr fun hover => ?_
        by_contra hbig
        exact hcond ha hc got hgot (Nat.lt_of_not_le hbig) hover
      · exact provisionCustomerData_reads_unanswered x calloc m hanswered
    · exact hcond ha hc got hgot hbig
        ((provisioned_iff x calloc ha hc hgot).mp (hvalue.mp hzero))

end Provision

/-- Both functions stay inside the reply and report one that claims too much, exactly if no such
reply has a status they accept, with a buffer and a place to put it; and `get_customer_data` only
if the negation of its status is negative. -/
theorem replyBounds_iff (x : Exchange) (calloc : UInt64) (a : ReadArgs) (b : ProvisionArgs)
    (m : Mem Block) :
    (ReadBounded x calloc a m ↔
      (x.connect.Succeeds → a.InRange → ∀ got ∈ x.received AcdReadCmdToHost.size,
        acdMaxDataSizeInBytes < bytesReadOf got →
          ¬ Readable got ∧ readStatusOf got ≤ 2 ^ 31)) ∧
      (ProvisionBounded x calloc b m ↔
        (b.Admissible → x.connect.Succeeds → ∀ got ∈ x.received AcdReadCmdToHost.size,
          acdMaxDataSizeInBytes < bytesReadOf got → ¬ HandedOver calloc b got)) :=
  ⟨readBounded_iff x calloc a m, provisionBounded_iff x calloc b m⟩

/-- A full reply of success that claims 600 bytes of data. -/
def longReply : List UInt8 :=
  [0x94, 0x26, 1, 0, 0, 0, 0, 0, 0x58, 2, 0, 0, 0, 0, 0, 0] ++ List.replicate 512 0

theorem received_longReply (n : Nat) :
    (answering n longReply).received AcdReadCmdToHost.size = some longReply := by
  have hlength : longReply.length = AcdReadCmdToHost.size := by
    rw [longReply, List.length_append, List.length_replicate]
    rfl
  exact received_answering (by decide) hlength.le n

/-- Both functions copy 600 bytes of the 512 and report success. -/
theorem longReply_not_bounded :
    bytesReadOf longReply = 600 ∧
      ¬ ReadBounded (answering 8 longReply) 4096 ⟨1, true⟩ (.ofLists fun _ => []) ∧
      ¬ ProvisionBounded (answering 528 longReply) 4096 ⟨0, 1, true, true, true⟩
        (.ofLists fun _ => []) := by
  have hsize : bytesReadOf longReply = 600 := by decide
  have hbig : acdMaxDataSizeInBytes < bytesReadOf longReply := by decide
  refine ⟨hsize, fun h => ?_, fun h => ?_⟩
  · have hcond := (readBounded_iff _ _ _ _).mp h (by decide) ⟨by decide, rfl⟩ longReply
      (received_longReply 8) hbig
    exact hcond.1 (.inl (by decide))
  · have hadmissible : ProvisionArgs.Admissible ⟨0, 1, true, true, true⟩ :=
      ⟨by decide, by decide, fun _ => rfl⟩
    exact (provisionBounded_iff _ _ _ _).mp h hadmissible (by decide) longReply
      (received_longReply 528) hbig ⟨by decide, .inr (by decide)⟩

end Txei.Acd

import Txei.Acd.ProvisionValue

/-!
# What `provision_customer_data` hands out

The caller has two objects for the data that comes back, one for its size and one for its address,
and the second may be missing. `provisionData_exact` says what they hold: behind a return of 0 the
size and the address of the data of the reply, and behind any other the address of nothing.
-/

namespace Txei.Acd

open Machine Machine.Prog Mei Tee

variable (x : Exchange) (calloc : UInt64) (a : ProvisionArgs) (m : Mem Block)

/-! ## The branches that hand the data over -/

theorem handOver_outBuffer (hout : a.pOutData = true) (hcalloc : calloc ≠ 0)
    (hbytes : m.half .resp AcdReadCmdToHost.bytesRead ≠ 0) :
    (∀ i < m.half .resp AcdReadCmdToHost.bytesRead, ((handOver calloc a).run m).mem .outBuffer i =
        m .resp (AcdReadCmdToHost.buf + i)) ∧
      ∀ i, m.half .resp AcdReadCmdToHost.bytesRead ≤ i →
        ((handOver calloc a).run m).mem .outBuffer i = m .outBuffer i := by
  rw [run_handOver_copied m calloc a hbytes hout hcalloc]
  generalize m.half .resp AcdReadCmdToHost.bytesRead = n
  obtain ⟨-, hdata, hbehind, -⟩ := copyOutData_spec n (m.write .outData 0 8 (byteAt calloc.toNat))
  have hsize : Block.outBuffer ≠ .outDataSize := by decide
  have hresp : Block.resp ≠ .outData := by decide
  simp only [Mem.write_other _ 0 4 (byteAt n) hsize]
  refine ⟨fun i hi => ?_, fun i hi => ?_⟩
  · rw [hdata i hi, Mem.write_other m 0 8 _ hresp]
  · rw [hbehind i hi, Mem.write_other m 0 8 _ outBuffer_ne_outData]

/-- Where the data has no place to go, no buffer is written and the caller is left with a null
pointer at most. -/
theorem handOver_kept (h : ¬ (m.half .resp AcdReadCmdToHost.bytesRead = 0 ∨
    a.pOutData = true ∧ calloc ≠ 0)) :
    HandsNothing m ((handOver calloc a).run m).mem ∧
      Log.WritesBelow .outBuffer 0 ((handOver calloc a).run m).log := by
  obtain ⟨hbytes, hplace⟩ := not_or.mp h
  by_cases hout : a.pOutData = true
  · have hcalloc : calloc = 0 := by
      by_contra hne
      exact hplace ⟨hout, hne⟩
    subst hcalloc
    rw [run_handOver_unallocated m a hbytes hout]
    dsimp only
    refine ⟨⟨.inr fun i hi => ?_, ?_⟩, by simp⟩
    · have hother : Block.outData ≠ .outDataSize := by decide
      rw [Mem.write_other _ 0 4 _ hother]
      refine (Mem.write_inside m Block.outData 0 8 _ i (by omega)).trans ?_
      simp [byteAt]
    · have hother : Block.outBuffer ≠ .outDataSize := by decide
      rw [Mem.write_other _ 0 4 _ hother, Mem.write_other m 0 8 _ outBuffer_ne_outData]
  · rw [run_handOver_illegal m calloc a hbytes hout]
    exact ⟨⟨.inl rfl, rfl⟩, by simp⟩

/-- The caller is handed nothing, and no buffer has been filled on the way. -/
def KeepsData (m : Mem Block) (r : Run DeviceCall Block Int Int) : Prop :=
  HandsNothing m r.mem ∧ Log.WritesBelow .outBuffer 0 r.log

/-- Events before that leave the buffer alone make no difference. -/
theorem KeepsData.prepend {m m' : Mem Block} {r : Run DeviceCall Block Int Int}
    {l : Log DeviceCall Block} (h : KeepsData m' r) (hpointer : m' .outData = m .outData)
    (hbuffer : m' .outBuffer = m .outBuffer) (hl : Log.WritesBelow .outBuffer 0 l) :
    KeepsData m (r.prepend l) := by
  obtain ⟨hnothing, hwrites⟩ := h
  exact ⟨hnothing.of_agree hpointer hbuffer, (Log.writesBelow_append ..).mpr ⟨hl, hwrites⟩⟩

variable {a}

theorem takeProvisionReply_keeps {m : Mem Block} {got : List UInt8} (h : ReplyIs got m) (fd : Int)
    (hover : ¬ HandedOver calloc a got) :
    KeepsData m ((takeProvisionReply calloc a (some fd)).run m) := by
  unfold takeProvisionReply
  rw [run_bind, run_load, Run.andThen_ok, h.status, run_exitIf_bind]
  by_cases hs : readStatusOf got = acdProvSuccess
  -- the reply has data without a place: `*pOutData` may have been cleared by then
  · have hplace : ¬ (m.half .resp AcdReadCmdToHost.bytesRead = 0 ∨
        a.pOutData = true ∧ calloc ≠ 0) := by
      rw [h.bytesRead]
      exact fun hyes => hover ⟨hs, hyes⟩
    obtain ⟨code, -, hcode⟩ := (run_handOver m calloc a).2 hplace
    obtain ⟨hnothing, hwrites⟩ := handOver_kept calloc a m hplace
    rw [if_neg (not_not_intro hs), run_bind, Run.andThen_of_error hcode]
    refine ⟨hnothing, ?_⟩
    rw [Run.prepend_log, Log.writesBelow_append]
    exact ⟨by simp, hwrites⟩
  · rw [if_pos hs]
    exact ⟨⟨.inl rfl, rfl⟩, by simp⟩

/-! ## The whole function -/

theorem beforeReply_writes :
    Log.WritesBelow .outBuffer 0
      (((openAcd x.connect).run m).log ++ ((provisionExchange x a).run m).log) := by
  have hopen := (within_openAcd x.connect).writesBelow (b := .outBuffer) (by simp) m 0
  rw [Log.writesBelow_append]
  exact ⟨hopen, (within_provisionExchange x a).writesBelow (by simp) m 0⟩

/-- A call that does not return 0 has handed nothing out. -/
theorem provisionCustomerData_keeps (h : ¬ Provisioned x calloc a) :
    KeepsData m ((provisionCustomerData x calloc a).run m) := by
  have hbefore := beforeReply_writes x m (a := a)
  have hin := within_provisionExchange x a
  have hpointer : ((provisionExchange x a).run m).mem .outData = m .outData :=
    hin.mem_eq (by simp) m
  have hbuffer : ((provisionExchange x a).run m).mem .outBuffer = m .outBuffer :=
    hin.mem_eq (by simp) m
  by_cases ha : a.Admissible
  · by_cases hc : x.connect.Succeeds
    · cases hgot : x.received AcdReadCmdToHost.size with
      | none =>
          rw [run_provisionCustomerData_lost x calloc m ha hc hgot]
          exact ⟨⟨.inl hpointer, hbuffer⟩, hbefore⟩
      | some got =>
          obtain ⟨hreply, hrun⟩ := run_provisionCustomerData_answered x calloc m ha hc hgot
          have hover : ¬ HandedOver calloc a got := fun hover => h ⟨ha, hc, got, hgot, hover⟩
          rw [hrun]
          exact (takeProvisionReply_keeps calloc hreply x.connect.openFd hover).prepend hpointer
            hbuffer hbefore
    · rw [run_provisionCustomerData_unconnected x calloc m ha hc]
      exact ⟨⟨.inl rfl, rfl⟩, ((Log.writesBelow_append ..).mp hbefore).1⟩
  · rw [run_provisionCustomerData_refused x calloc m ha]
    exact ⟨⟨.inl rfl, rfl⟩, Log.writesBelow_nil _ _⟩

/-- What `process_cmd` returned, what was received, and what the caller has of it. -/
def GivesData (x : Exchange) (calloc : UInt64) (a : ProvisionArgs) (m m' : Mem Block) : Prop :=
  ((provisionExchange x a).run m).result = .ok teeSuccessful ∧
    ∃ got ∈ x.received AcdReadCmdToHost.size, readStatusOf got = acdProvSuccess ∧
      ((bytesReadOf got = 0 ∧ m'.word .outDataSize 0 = 0 ∧
          (a.pOutData = true → ∀ i < 8, m' .outData i = 0)) ∨
        (0 < bytesReadOf got ∧ m'.word .outDataSize 0 = bytesReadOf got ∧ a.pOutData = true ∧
          calloc ≠ 0 ∧ HandsOut calloc got m m'))

theorem provisionCustomerData_gives (hsize : ∀ got ∈ x.received AcdReadCmdToHost.size,
      bytesReadOf got ≤ acdMaxDataSizeInBytes) (h : Provisioned x calloc a) :
    GivesData x calloc a m ((provisionCustomerData x calloc a).run m).mem := by
  obtain ⟨ha, hc, got, hgot, hover⟩ := h
  obtain ⟨hwords, hpointer⟩ := provisionCustomerData_handedOver x calloc m ha hc hgot hover
  obtain ⟨hreply, hrun⟩ := run_provisionCustomerData_answered x calloc m ha hc hgot
  obtain ⟨-, hgiven⟩ := takeProvisionReply_handedOver calloc x.connect.openFd hreply hover
  obtain ⟨-, hok⟩ := transact_bytes x AcdWriteCmdFromHost.size AcdReadCmdToHost.size
    (fun m => by simp [setProvisionParams, setHdrReq]) (within_setProvisionParams a) m
  refine ⟨(hok got hgot).1, got, hgot, hover.1, ?_⟩
  by_cases hzero : bytesReadOf got = 0
  · refine .inl ⟨hzero, hwords.trans hzero, fun hout i hi => ?_⟩
    rw [hpointer hout i hi, if_pos hzero]
    simp [byteAt]
  · obtain ⟨hout, hcalloc⟩ := hover.2.resolve_left hzero
    refine .inr ⟨Nat.pos_of_ne_zero hzero, hwords, hout, hcalloc, fun i hi => ?_, ?_⟩
    · rw [hpointer hout i hi, if_neg hzero]
    · have hbytes : ((provisionExchange x a).run m).mem.half .resp
          AcdReadCmdToHost.bytesRead ≠ 0 := by rwa [hreply.bytesRead]
      have hbuffer : ((provisionExchange x a).run m).mem .outBuffer = m .outBuffer :=
        (within_provisionExchange x a).mem_eq (by simp) m
      obtain ⟨hdata, hbehind⟩ := handOver_outBuffer calloc a _ hout hcalloc hbytes
      rw [hreply.bytesRead] at hdata hbehind
      rw [hrun, Run.prepend_mem, hgiven]
      refine ⟨fun i hi => (hdata i hi).trans (hreply _ ?_), fun i hi => ?_⟩
      · have hle := hsize got hgot
        simp only [acdMaxDataSizeInBytes] at hle
        simp only [AcdReadCmdToHost.size, AcdReadCmdToHost.buf]
        omega
      · rw [hbehind i hi, hbuffer]

variable (a)

/-- `provision_customer_data` returns 0 only if the exchange went through and the firmware reports
success, and the caller then has the size of the data and a buffer with it, or neither. After any
other return it has been given no buffer, and none has been filled. -/
theorem provisionData_exact (hsize : ∀ got ∈ x.received AcdReadCmdToHost.size,
      bytesReadOf got ≤ acdMaxDataSizeInBytes) :
    (((provisionCustomerData x calloc a).run m).value = acdProvSuccess →
        GivesData x calloc a m ((provisionCustomerData x calloc a).run m).mem) ∧
      (((provisionCustomerData x calloc a).run m).value ≠ acdProvSuccess →
        KeepsData m ((provisionCustomerData x calloc a).run m)) := by
  have hvalue := value_provisionCustomerData_eq_zero_iff x calloc (a := a) m
  constructor
  · intro hzero
    exact provisionCustomerData_gives x calloc m hsize (hvalue.mp hzero)
  · intro hne
    exact provisionCustomerData_keeps x calloc m fun hyes => hne (hvalue.mpr hyes)

/-- A reply with two bytes of data, asked for with one byte under schema 0. -/
theorem provisionData_exact_twoBytes :
    GivesData (answering 528 twoByteReply) 4096 ⟨0, 1, true, true, true⟩ (.ofLists fun _ => [])
      ((provisionCustomerData (answering 528 twoByteReply) 4096 ⟨0, 1, true, true, true⟩).run
        (.ofLists fun _ => [])).mem := by
  have hgot := received_answering (by decide) length_twoByteReply.le 528
  have hadmissible : ProvisionArgs.Admissible ⟨0, 1, true, true, true⟩ :=
    ⟨by decide, by decide, fun _ => rfl⟩
  refine (provisionData_exact (answering 528 twoByteReply) 4096 ⟨0, 1, true, true, true⟩
    (.ofLists fun _ => []) fun got hmem => ?_).1 ?_
  · rw [hgot, Option.mem_some_iff] at hmem
    subst hmem
    decide
  · exact (value_provisionCustomerData_eq_zero_iff _ _ _).mpr
      ⟨hadmissible, by decide, twoByteReply, hgot, by decide, .inr (by decide)⟩

end Txei.Acd

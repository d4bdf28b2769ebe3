import Txei.SecTool.Main

/-!
# What a successful exit of the security tool stands for

The tool should exit with `EXIT_SUCCESS` on a customer data command only if the library was called
and reported success and every byte of the files was moved: this is `HonestExit`. A lock keeps to
it, and a read does unless the library reports a size without a buffer or the output file does not
take the data.
-/

namespace Txei.SecTool

open Machine Machine.Prog Mei Acd

/-- The pointer to the returned data is not null. -/
def NonNull (m : Mem Block) : Prop := m.word .outData 0 ≠ 0 ∨ m.word .outData 4 ≠ 0

instance (m : Mem Block) : Decidable (NonNull m) := inferInstanceAs (Decidable (_ ∨ _))

/-- Every byte of the input file was read. -/
def InputRead (calls : List ToolCall) (inputFilename : Option InputFile) : Prop :=
  ∃ file ∈ inputFilename, ∃ stSize ∈ file.fstat, ToolCall.fileRead stSize ∈ calls

/-- The output file was given all of `n` bytes, if there are any. -/
def OutputWritten (calls : List ToolCall) (n : Nat) : Prop :=
  n = 0 ∨ ToolCall.fileWritten n ∈ calls

/-- What a command is for: the library was called and reported success, which for a read is a size
together with a buffer, for a write the size of the field and otherwise 0, and the bytes of the
files were moved. -/
def Done (calls : List ToolCall) : Command → Prop
  | .acdRead .. => ∃ a o, ToolCall.library (.getCustomerData a) o ∈ calls ∧ 0 ≤ o.value ∧
      o.outData = true ∧ OutputWritten calls o.value.toNat
  | .acdWrite _ _ _ inputFilename => ∃ a o, ToolCall.library (.setCustomerData a) o ∈ calls ∧
      o.value = a.fieldSize.toNat ∧ InputRead calls inputFilename
  | .acdProv _ inputFilename _ => ∃ a o, ToolCall.library (.provisionCustomerData a) o ∈ calls ∧
      o.value = acdProvSuccess ∧ InputRead calls inputFilename ∧
        OutputWritten calls o.outDataSize
  | .acdLock => ∃ o, ToolCall.library .lockCustomerData o ∈ calls ∧ o.value = acdLockSuccess

/-- A command that exits with `EXIT_SUCCESS` did what it is for. -/
def HonestExit (x : Exchange) (calloc : UInt64) (c : Command) (m : Mem Block) : Prop :=
  ((main x calloc c).run m).value = exitSuccess → Done ((main x calloc c).run m).log.calls c

/-- A command that fails claims nothing. -/
theorem honestExit_of_failure {x : Exchange} {calloc : UInt64} {c : Command} {m : Mem Block}
    (h : ((main x calloc c).run m).value = exitFailure) : HonestExit x calloc c m :=
  fun hexit => absurd (h.symm.trans hexit) (by decide)

/-! ## Parts of a command -/

section Parts

variable (x : Exchange) (calloc : UInt64) (op : Operation) (m : Mem Block)

theorem run_outDataNonNull : (outDataNonNull.run m).result = .ok (decide (NonNull m)) ∧
    (outDataNonNull.run m).mem = m ∧ (outDataNonNull.run m).log.calls = [] :=
  ⟨rfl, rfl, rfl⟩

/-- What the tool finds behind a run of the library. -/
def outcomeOf (r : Run DeviceCall Block Int Int) : Outcome :=
  ⟨r.value, decide (NonNull r.mem), r.mem.word .outDataSize 0⟩

/-- The tool goes on with what the library returns, in the memory it leaves. -/
theorem run_invoke_bind {α : Type} (f : Int → Tool α) :
    ∃ l : Log ToolCall Block, l.calls = [.library op (outcomeOf ((op.function x calloc).run m))] ∧
      (invoke x calloc op >>= f).run m =
        ((f ((op.function x calloc).run m).value).run ((op.function x calloc).run m).mem).prepend
          l := by
  refine ⟨((invoke x calloc op).run m).log, ?_, ?_⟩
  · obtain ⟨htest, hsame, hquiet⟩ :=
      run_outDataNonNull (((op.function x calloc).run m).mem)
    unfold invoke
    rw [run_bind, run_returned, run_hideCalls, Run.andThen_ok, run_bind,
      Run.andThen_of_ok htest, hsame]
    simp [outcomeOf, hquiet, Run.value]
  · have hres : ((invoke x calloc op).run m).result = .ok ((op.function x calloc).run m).value :=
      rfl
    rw [run_bind, Run.andThen_of_ok hres]
    rfl

/-- A pointer that holds an address is null exactly if the address is. -/
theorem nonNull_iff {address : UInt64} (h : ∀ i < 8, m .outData i = byteAt address.toNat i) :
    NonNull m ↔ address ≠ 0 := by
  have hlow : m.word .outData 0 = wrap32 address.toNat :=
    word_of_byteAt fun i hi => (congrArg (m .outData) (Nat.zero_add i)).trans (h i (by omega))
  have hhigh : m.word .outData 4 = wrap32 (address.toNat / 256 ^ 4) :=
    word_of_byteAt fun i hi => (h (4 + i) (by omega)).trans (byteAt_add _ 4 i)
  have hlt := address.toNat_lt
  have hzero : address = 0 ↔ address.toNat = 0 := UInt64.toNat_inj.symm
  unfold NonNull
  rw [hlow, hhigh]
  simp only [ne_eq, hzero, wrap32]
  omega

/-- A pointer of which nothing is handed out stays null. -/
theorem not_nonNull_of_handsNothing {m' : Mem Block}
    (h : HandsNothing (m.write .outData 0 8 fun _ => 0) m') : ¬ NonNull m' := by
  have hzero : ∀ i < 8, m' .outData i = byteAt (0 : UInt64).toNat i := by
    intro i hi
    have hclear : (m.write .outData 0 8 fun _ => 0) .outData i = 0 :=
      Mem.write_inside m .outData 0 8 _ i (by omega)
    have hbyte : byteAt (0 : UInt64).toNat i = 0 := by simp [byteAt]
    rw [hbyte]
    rcases h.1 with hsame | hnull
    · rw [hsame, hclear]
    · exact hnull i hi
  rw [nonNull_iff m' hzero]
  exact fun hno => hno rfl

end Parts

/-! ## Locking -/

/-- `lock_customer_data` returns 0 or a negative value, so that testing its sign is enough. -/
theorem honestExit_acdLock (x : Exchange) (calloc : UInt64) (m : Mem Block) :
    HonestExit x calloc .acdLock m := by
  obtain ⟨l, hcalls, hrun⟩ := run_invoke_bind x calloc .lockCustomerData m fun result => do
    exitIf (result < 0) exitFailure
    pure exitSuccess
  have hvalue : ((Operation.lockCustomerData.function x calloc).run m).value = _ :=
    value_lockCommand x acdLockCmdFromHostSize opcodeAcdLock m
  unfold HonestExit main doAcdLock
  rw [hrun, run_exitIf_bind]
  intro hexit
  by_cases hanswered : x.connect.Succeeds ∧ x.received AcdStatusToHost.size ≠ none
  · rw [if_pos hanswered] at hvalue
    refine ⟨outcomeOf ((Operation.lockCustomerData.function x calloc).run m), ?_, hvalue⟩
    rw [Run.prepend_log, Log.calls_append, hcalls]
    exact List.mem_append_left _ (List.mem_singleton_self _)
  · rw [if_neg hanswered] at hvalue
    rw [hvalue, if_pos (by decide), Run.value_prepend, Run.value_error] at hexit
    exact absurd hexit (by decide)

/-! ## Reading -/

section Read

variable (x : Exchange) (calloc : UInt64) (index : Int) (outputFilename : Option OutputFile)
  (m : Mem Block)

/-- The index in a `uint8_t` passes the range check. -/
def IndexInRange : Prop :=
  acdMinFieldIndex ≤ (UInt8.ofInt index).toNat ∧ (UInt8.ofInt index).toNat ≤ acdMaxFieldIndex

instance : Decidable (IndexInRange index) := inferInstanceAs (Decidable (_ ∧ _))

theorem IndexInRange.check {index : Int} (h : IndexInRange index) (m : Mem Block) :
    (checkIndex (UInt8.ofInt index)).run m = ⟨.ok (), m, []⟩ := by
  unfold IndexInRange at h
  unfold checkIndex
  rw [run_exitIf, if_neg (by omega)]

theorem checkIndex_refuses {index : Int} (h : ¬ IndexInRange index) (m : Mem Block) :
    (checkIndex (UInt8.ofInt index)).run m = ⟨.error exitFailure, m, []⟩ := by
  unfold IndexInRange at h
  unfold checkIndex
  rw [run_exitIf, if_pos (by omega)]

/-- What the library call of `-acd-read` does. -/
def readRun : Run DeviceCall Block Int Int :=
  ((Operation.getCustomerData ⟨UInt8.ofInt index, true⟩).function x calloc).run
    (m.write .outData 0 8 fun _ => 0)

theorem doAcdRead_refused (h : ¬ IndexInRange index) :
    (doAcdRead x calloc index outputFilename).run m = ⟨.error exitFailure, m, []⟩ := by
  unfold doAcdRead
  rw [run_bind, checkIndex_refuses h, Run.andThen_error]

/-- Only the sign of what the library returns reaches the exit status. -/
theorem doAcdRead_failed (h : IndexInRange index) (hfails : (readRun x calloc index m).value < 0) :
    ((doAcdRead x calloc index outputFilename).run m).value = exitFailure := by
  unfold readRun at hfails
  unfold doAcdRead clearOutData
  rw [run_bind, h.check, Run.andThen_ok, run_bind, run_put, Run.andThen_ok]
  obtain ⟨l, -, hrun⟩ := run_invoke_bind x calloc (.getCustomerData ⟨UInt8.ofInt index, true⟩)
    (m.write .outData 0 8 fun _ => 0) _
  rw [hrun, run_exitIf_bind, if_pos hfails]
  simp only [Run.value_prepend, Run.value_error]

/-- Otherwise the tool exits with success, and what was written is up to the file. -/
theorem doAcdRead_passed (h : IndexInRange index) (hpasses : 0 ≤ (readRun x calloc index m).value) :
    ((doAcdRead x calloc index outputFilename).run m).value = exitSuccess ∧
      ((doAcdRead x calloc index outputFilename).run m).log.calls =
        .library (.getCustomerData ⟨UInt8.ofInt index, true⟩)
            (outcomeOf (readRun x calloc index m)) ::
          ((writeDataToFile outputFilename (decide (NonNull (readRun x calloc index m).mem))
            (uint32 (readRun x calloc index m).value)).run
              (readRun x calloc index m).mem).log.calls := by
  unfold doAcdRead clearOutData
  rw [run_bind, h.check, Run.andThen_ok, run_bind, run_put, Run.andThen_ok]
  obtain ⟨l, hcalls, hrun⟩ := run_invoke_bind x calloc
    (.getCustomerData ⟨UInt8.ofInt index, true⟩) (m.write .outData 0 8 fun _ => 0) _
  rw [hrun]
  unfold readRun at hpasses ⊢
  generalize ((Operation.getCustomerData ⟨UInt8.ofInt index, true⟩).function x calloc).run
    (m.write .outData 0 8 fun _ => 0) = lib at hcalls hpasses ⊢
  obtain ⟨htest, hsame, hquiet⟩ := run_outDataNonNull lib.mem
  obtain ⟨status, hstatus⟩ : ∃ status, ((writeDataToFile outputFilename
    (decide (NonNull lib.mem)) (uint32 lib.value)).run lib.mem).result = .ok status := ⟨_, rfl⟩
  rw [run_exitIf_bind, if_neg (by omega), run_bind, Run.andThen_of_ok htest, hsame, run_bind,
    Run.andThen_of_ok hstatus, run_pure]
  simp [hcalls, hquiet]

/-- A read that returns `n` is honest exactly if it has a buffer and the file takes its bytes. -/
theorem honestExit_acdRead_of_value (h : IndexInRange index) {n : Nat} (hn : n < 2 ^ 31)
    (hvalue : (readRun x calloc index m).value = n) :
    HonestExit x calloc (.acdRead index outputFilename) m ↔
      NonNull (readRun x calloc index m).mem ∧ (n = 0 ∨ ∃ file ∈ outputFilename, file.Takes n) := by
  have hcount : uint32 n = n := by
    unfold uint32
    omega
  obtain ⟨hexit, hcalls⟩ := doAcdRead_passed x calloc index outputFilename m h (by omega)
  rw [hvalue, hcount] at hcalls
  unfold HonestExit main Done OutputWritten
  rw [hcalls]
  constructor
  · intro hhonest
    obtain ⟨a, o, hmem, -, hbuffer, hout⟩ := hhonest hexit
    -- the one call of the library is that of the read
    rcases List.mem_cons.mp hmem with heq | hlater
    · obtain ⟨-, rfl⟩ := ToolCall.library.inj heq
      have hsize : (outcomeOf (readRun x calloc index m)).value.toNat = n := by
        rw [outcomeOf, hvalue, Int.toNat_natCast]
      rw [hsize] at hout
      refine ⟨of_decide_eq_true hbuffer, or_iff_not_imp_left.mpr fun hpos => ?_⟩
      rcases List.mem_cons.mp (hout.resolve_left hpos) with hno | hwritten
      · cases hno
      · exact ((fileWritten_mem_iff hpos _).mp hwritten).2
    · exact (library_notMem_writeDataToFile _ _ _ _ _ _ hlater).elim
  · intro hcond _
    obtain ⟨hbuffer, hout⟩ := hcond
    have hsize : (outcomeOf (readRun x calloc index m)).value = n := hvalue
    refine ⟨_, _, List.mem_cons_self, by omega, decide_eq_true hbuffer, ?_⟩
    rw [hsize, Int.toNat_natCast]
    by_cases hzero : n = 0
    · exact .inl hzero
    · refine .inr (List.mem_cons_of_mem _ ((fileWritten_mem_iff hzero _).mpr ?_))
      exact ⟨decide_eq_true hbuffer, hout.resolve_left hzero⟩

/-- A reply that `-acd-read` does not take for a success it is not: its status is a failure whose
negation is negative, or its data goes into a buffer and to the file. -/
def ReadPasses (got : List UInt8) : Prop :=
  ¬ Readable got ∧ readStatusOf got ≤ 2 ^ 31 ∨
    Readable got ∧ calloc ≠ 0 ∧
      (bytesReadOf got = 0 ∨ ∃ file ∈ outputFilename, file.Takes (bytesReadOf got))

/-- A failure that comes as a positive value is taken for a success. -/
theorem not_honestExit_acdRead (h : IndexInRange index) {n : Nat} (hn : n < 2 ^ 31)
    (hvalue : (readRun x calloc index m).value = n)
    (hnothing : HandsNothing (m.write .outData 0 8 fun _ => 0) (readRun x calloc index m).mem) :
    ¬ HonestExit x calloc (.acdRead index outputFilename) m := by
  rw [honestExit_acdRead_of_value x calloc index outputFilename m h hn hvalue]
  exact fun hyes => not_nonNull_of_handsNothing m hnothing hyes.1

/-- A failure that comes as a negative value is passed on. -/
theorem honestExit_acdRead_of_neg (h : IndexInRange index)
    (hvalue : (readRun x calloc index m).value < 0) :
    HonestExit x calloc (.acdRead index outputFilename) m :=
  honestExit_of_failure (doAcdRead_failed x calloc index outputFilename m h hvalue)

theorem honestExit_acdRead_answered (h : IndexInRange index) (hc : x.connect.Succeeds)
    {got : List UInt8} (hgot : x.received AcdReadCmdToHost.size = some got) :
    HonestExit x calloc (.acdRead index outputFilename) m ↔
      ReadPasses calloc outputFilename got := by
  obtain ⟨m', hreply, hpointer, hbuffer, hvalue, hmem⟩ := getCustomerData_answered x calloc
    (a := ⟨UInt8.ofInt index, true⟩) (m.write .outData 0 8 fun _ => 0) hc ⟨h, rfl⟩ hgot
  have hlib : (readRun x calloc index m).value = ((takeReply calloc).run m').value := hvalue
  have hlibMem : (readRun x calloc index m).mem = ((takeReply calloc).run m').mem := hmem
  unfold ReadPasses
  by_cases hs : Readable got
  · obtain ⟨htaken, htakenMem⟩ := takeReply_accepted calloc hreply hs
    by_cases hcalloc : calloc = 0
    · subst hcalloc
      obtain ⟨hcode, hnothing⟩ := giveData_unallocated (bytesReadOf got) m'
      rw [← htaken, ← hlib] at hcode
      rw [← htakenMem, ← hlibMem] at hnothing
      refine iff_of_false ?_ (by simp [hs])
      exact not_honestExit_acdRead x 0 index outputFilename m h (n := 0x30000004) (by decide) hcode
        (hnothing.of_agree hpointer hbuffer)
    · obtain ⟨hcount, hpointer', -⟩ := giveData_allocated calloc hcalloc (bytesReadOf_lt got) m'
      rw [← htaken, ← hlib] at hcount
      rw [← htakenMem, ← hlibMem] at hpointer'
      have hlt := bytesReadOf_lt got
      rw [honestExit_acdRead_of_value x calloc index outputFilename m h (by omega) hcount,
        nonNull_iff _ hpointer']
      simp [hs]
  · obtain ⟨hcode, hsame⟩ := takeReply_rejected calloc hreply hs
    rw [← hlib] at hcode
    rw [← hlibMem] at hsame
    have hlt := readStatusOf_lt got
    by_cases hle : readStatusOf got ≤ 2 ^ 31
    · refine iff_of_true (honestExit_acdRead_of_neg x calloc index outputFilename m h ?_)
        (.inl ⟨hs, hle⟩)
      exact (value_getCustomerData_neg_iff x calloc (a := ⟨UInt8.ofInt index, true⟩) _ hc
        ⟨h, rfl⟩ hgot).mpr ⟨hs, hle⟩
    · refine iff_of_false ?_ fun hyes => hyes.elim (fun hno => hle hno.2) fun hyes => hs hyes.1
      have hvalue : (readRun x calloc index m).value = (2 ^ 32 - readStatusOf got : Nat) := by
        rw [hcode]
        simp only [int32, uint32, acdReadSuccess]
        omega
      refine not_honestExit_acdRead x calloc index outputFilename m h (by omega) hvalue ?_
      rw [hsame]
      exact ⟨.inl hpointer, hbuffer⟩

/-- `-acd-read` is honest exactly when there is no connection or a reply is received that passes. -/
theorem honestExit_acdRead_iff (h : IndexInRange index) :
    HonestExit x calloc (.acdRead index outputFilename) m ↔
      (x.connect.Succeeds →
        ∃ got ∈ x.received AcdReadCmdToHost.size, ReadPasses calloc outputFilename got) := by
  by_cases hc : x.connect.Succeeds
  · cases hgot : x.received AcdReadCmdToHost.size with
    | none =>
        obtain ⟨hvalue, hnothing⟩ := getCustomerData_lost x calloc
          (a := ⟨UInt8.ofInt index, true⟩) (m.write .outData 0 8 fun _ => 0) hc ⟨h, rfl⟩ hgot
        refine iff_of_false ?_ (by simp [hc])
        exact not_honestExit_acdRead x calloc index outputFilename m h (n := 1) (by decide) hvalue
          hnothing
    | some got =>
        rw [honestExit_acdRead_answered x calloc index outputFilename m h hc hgot]
        simp [hc]
  · have hvalue : (readRun x calloc index m).value = -1 :=
      (getCustomerData_unconnected x calloc _ _ hc).1
    refine iff_of_true ?_ fun hyes => absurd hyes hc
    exact honestExit_acdRead_of_neg x calloc index outputFilename m h (by rw [hvalue]; decide)

end Read

end Txei.SecTool

import Txei.SecTool.Transfers

/-!
# The numbers of a command line

`main` stores what `atoi` makes of a field index in a `uint8_t` and of a size in a `uint16_t` before
it checks the range. A number is accepted if the library is called with it, which
`mem_operations_acdRead` and `mem_operations_acdWrite` tell exactly. `numbersAsTyped_iff` says for
which numbers the checks are those of the numbers typed.
-/

namespace Txei.SecTool

open Machine Machine.Prog Mei Acd

/-- The operation of a call of the library. -/
def ToolCall.operation : ToolCall → Option Operation
  | .library op _ => some op
  | .fileRead _ => none
  | .fileWritten _ => none

/-- The operations of the library that a command calls. -/
def operations (x : Exchange) (calloc : UInt64) (c : Command) (m : Mem Block) : List Operation :=
  ((main x calloc c).run m).log.calls.filterMap ToolCall.operation

/-! ## Calls of the library -/

/-- The event is no call of the library. -/
def NotLibrary (e : Event ToolCall Block) : Prop := ∀ k, e = .call k → k.operation = none

theorem operations_notLibrary {α : Type} {p : Tool α} (h : Within NotLibrary p) (m : Mem Block) :
    (p.run m).log.calls.filterMap ToolCall.operation = [] := by
  refine List.filterMap_eq_nil_iff.mpr fun k hk => ?_
  exact h m (.call k) (Log.mem_calls.mp hk) k rfl

theorem notLibrary_readDataFromFile (pFilename : Option InputFile) :
    Within NotLibrary (readDataFromFile pFilename) := by
  have hcall : ∀ n, NotLibrary (.call (.fileRead n)) := fun n k hk => by cases hk; rfl
  have hput : ∀ n, NotLibrary (.write .fieldData 0 n) := fun n k hk => by cases hk
  refine .returned (.bind (by simp) fun file => .bind (by simp) fun _ => ?_)
  refine .bind (by simp) fun stSize => .bind (by simp) fun _ => .bind (by simp) fun _ => ?_
  refine .bind (by simp [hput]) fun _ => .bind (by simp) fun bytes => ?_
  refine .bind (by simp [hput]) fun _ => .bind (by simp [hcall]) fun _ => ?_
  exact .bind (by simp) fun _ => within_pure _

theorem notLibrary_writeDataToFile (pFilename : Option OutputFile) (pDataBuffer : Bool) (n : Nat) :
    Within NotLibrary (writeDataToFile pFilename pDataBuffer n) :=
  within_writeDataToFile pFilename pDataBuffer n (fun k hk => by cases hk)
    fun n k hk => by cases hk; rfl

theorem notLibrary_outDataNonNull : Within NotLibrary outDataNonNull := by
  have hload : ∀ o, NotLibrary (.read .outData o 4) := fun o k hk => by cases hk
  exact .bind (by simp [hload]) fun _ => .bind (by simp [hload]) fun _ => within_pure _

section Operations

variable (x : Exchange) (calloc : UInt64) {index size maxSize : Int}
  {inputFilename : Option InputFile} {outputFilename : Option OutputFile} (m : Mem Block)

/-- A call of the library before lines without one is the only call. -/
theorem operations_invoke_bind {α : Type} (op : Operation) {f : Int → Tool α}
    (hf : ∀ result, Within NotLibrary (f result)) :
    ((invoke x calloc op >>= f).run m).log.calls.filterMap ToolCall.operation = [op] := by
  obtain ⟨l, hcalls, hrun⟩ := run_invoke_bind x calloc op m f
  rw [hrun, Run.prepend_log, Log.calls_append, List.filterMap_append, hcalls,
    operations_notLibrary (hf _), List.append_nil]
  rfl

/-- `-acd-read` calls the library if the index in a `uint8_t` is in range, and then with it. -/
theorem mem_operations_acdRead {op : Operation} :
    op ∈ operations x calloc (.acdRead index outputFilename) m ↔
      IndexInRange index ∧ op = .getCustomerData ⟨UInt8.ofInt index, true⟩ := by
  unfold operations main
  by_cases h : IndexInRange index
  · unfold doAcdRead clearOutData
    rw [run_bind, h.check, Run.andThen_ok, run_bind, run_put, Run.andThen_ok, Run.prepend_log,
      Log.calls_append, Run.prepend_log, Log.calls_append, List.filterMap_append,
      List.filterMap_append, operations_invoke_bind]
    · simp [h]
    · intro result
      exact .bind (by simp) fun _ => .bind notLibrary_outDataNonNull fun _ =>
        .bind (notLibrary_writeDataToFile _ _ _) fun _ => within_pure _
  · rw [doAcdRead_refused x calloc index outputFilename m h]
    simp [h]

/-- Behind a file that fills the buffer there is one call, whatever comes of it. -/
theorem operations_writeFile {a : WriteArgs} (ha : a.pvAdcFieldData = true) {file : InputFile}
    (hfills : file.Fills a.fieldSize.toNat) :
    ((writeFile x calloc a (some file)).run m).log.calls.filterMap ToolCall.operation =
      [.setCustomerData a] := by
  obtain ⟨hres, hcalls⟩ := readDataFromFile_filled hfills m
  have hargs : { a with pvAdcFieldData := true } = a := by rw [← ha]
  unfold writeFile
  rw [run_bind, Run.andThen_of_ok hres, run_exitIf_bind, if_neg (by simp), run_exitIf_bind,
    if_neg (by simp), hargs, Run.prepend_log, Log.calls_append, List.filterMap_append, hcalls,
    operations_invoke_bind]
  · rfl
  · intro result
    exact .bind (by simp) fun _ => within_pure _

/-- `-acd-write` calls the library if the numbers in their types are in range and the file fills a
buffer of the size, and then with these numbers. -/
theorem mem_operations_acdWrite {op : Operation} :
    op ∈ operations x calloc (.acdWrite index size maxSize inputFilename) m ↔
      WriteInRange index size maxSize ∧
        (∃ file ∈ inputFilename, file.Fills (UInt16.ofInt size).toNat) ∧
        op = .setCustomerData (writeArgs index size maxSize) := by
  unfold operations main
  by_cases h : WriteInRange index size maxSize
  · rw [doAcdWrite_inRange x calloc inputFilename m h]
    by_cases hfile : ∃ file ∈ inputFilename, file.Fills (UInt16.ofInt size).toNat
    · simp only [h, hfile, true_and]
      obtain ⟨file, hmem, hfills⟩ := hfile
      rw [Option.mem_def] at hmem
      subst hmem
      rw [operations_writeFile x calloc m (a := writeArgs index size maxSize) rfl hfills,
        List.mem_singleton]
    · have hunread : ∀ file ∈ inputFilename, ¬ file.Fills (UInt16.ofInt size).toNat :=
        fun file hmem hfills => hfile ⟨file, hmem, hfills⟩
      rw [(writeFile_unread x calloc inputFilename m (a := writeArgs index size maxSize)
        hunread).2, operations_notLibrary (notLibrary_readDataFromFile inputFilename)]
      simp only [hfile, false_and, and_false, List.not_mem_nil]
  · rw [doAcdWrite_refused x calloc index size maxSize inputFilename m h]
    simp [h]

end Operations

/-! ## Ranges -/

/-- The number is the index of a field. -/
def FieldIndex (index : Int) : Prop := acdMinFieldIndex ≤ index ∧ index ≤ acdMaxFieldIndex

instance (index : Int) : Decidable (FieldIndex index) := inferInstanceAs (Decidable (_ ∧ _))

/-- The numbers are the size of a field's data and the maximum for it. -/
def FieldSizes (size maxSize : Int) : Prop :=
  0 ≤ size ∧ size ≤ maxSize ∧ maxSize ≤ acdMaxDataSizeInBytes

instance (size maxSize : Int) : Decidable (FieldSizes size maxSize) :=
  inferInstanceAs (Decidable (_ ∧ _ ∧ _))

/-- The range check sees an index modulo 2^8. -/
theorem indexInRange_iff (index : Int) : IndexInRange index ↔ FieldIndex (index % 2 ^ 8) := by
  have hindex := toNat_uint8_ofInt index
  unfold IndexInRange FieldIndex
  omega

/-- The range checks see sizes modulo 2^16, where none is negative. -/
theorem writeInRange_iff (index size maxSize : Int) :
    WriteInRange index size maxSize ↔
      FieldIndex (index % 2 ^ 8) ∧ FieldSizes (size % 2 ^ 16) (maxSize % 2 ^ 16) := by
  have hsize := toNat_uint16_ofInt size
  have hmax := toNat_uint16_ofInt maxSize
  unfold WriteInRange FieldSizes
  rw [indexInRange_iff, ← hsize, ← hmax]
  exact and_congr_right fun _ => by omega

/-! ## Acceptance -/

section Accept

variable (x : Exchange) (calloc : UInt64) (index size maxSize : Int) (m : Mem Block)

/-- The library is called. -/
def CallsLibrary (c : Command) : Prop := ∃ op, op ∈ operations x calloc c m

/-- `-acd-read` accepts the index: the library is called. -/
def ReadAccepts : Prop :=
  ∃ outputFilename, CallsLibrary x calloc m (.acdRead index outputFilename)

/-- `-acd-write` accepts the index: with some sizes and file the library is called. -/
def WriteAcceptsIndex : Prop :=
  ∃ size maxSize inputFilename,
    CallsLibrary x calloc m (.acdWrite index size maxSize inputFilename)

/-- `-acd-write` accepts the sizes: with some index and file the library is called. -/
def WriteAcceptsSizes : Prop :=
  ∃ index inputFilename, CallsLibrary x calloc m (.acdWrite index size maxSize inputFilename)

/-- The call has the index that was typed. -/
def TypedRead (op : Operation) : Prop :=
  ∃ a, op = .getCustomerData a ∧ (a.uiFieldIndex.toNat : Int) = index

/-- The call has the numbers that were typed. -/
def TypedWrite (op : Operation) : Prop :=
  ∃ a, op = .setCustomerData a ∧ (a.uiFieldIndex.toNat : Int) = index ∧
    (a.fieldSize.toNat : Int) = size ∧ (a.fieldMaxSize.toNat : Int) = maxSize

/-- The numbers are accepted exactly if they are in range, and what is accepted reaches the library
as it was typed. -/
structure NumbersAsTyped : Prop where
  readIndex : ReadAccepts x calloc index m ↔ FieldIndex index
  writeIndex : WriteAcceptsIndex x calloc index m ↔ FieldIndex index
  writeSizes : WriteAcceptsSizes x calloc size maxSize m ↔ FieldSizes size maxSize
  readCall : ReadAccepts x calloc index m → ∀ outputFilename,
    CallsLibrary x calloc m (.acdRead index outputFilename) ∧
      ∀ op ∈ operations x calloc (.acdRead index outputFilename) m, TypedRead index op
  writeCall : WriteAcceptsIndex x calloc index m → WriteAcceptsSizes x calloc size maxSize m →
    ∀ inputFilename,
      ((∃ file ∈ inputFilename, file.Fills size.toNat) →
        CallsLibrary x calloc m (.acdWrite index size maxSize inputFilename)) ∧
      ∀ op ∈ operations x calloc (.acdWrite index size maxSize inputFilename) m,
        TypedWrite index size maxSize op

variable {x calloc index size maxSize m}

theorem callsLibrary_acdRead_iff {outputFilename : Option OutputFile} :
    CallsLibrary x calloc m (.acdRead index outputFilename) ↔ FieldIndex (index % 2 ^ 8) := by
  rw [← indexInRange_iff]
  constructor
  · intro hcalls
    obtain ⟨op, hop⟩ := hcalls
    exact ((mem_operations_acdRead x calloc m).mp hop).1
  · intro hindex
    exact ⟨_, (mem_operations_acdRead x calloc m).mpr ⟨hindex, rfl⟩⟩

theorem callsLibrary_acdWrite_iff {inputFilename : Option InputFile} :
    CallsLibrary x calloc m (.acdWrite index size maxSize inputFilename) ↔
      (FieldIndex (index % 2 ^ 8) ∧ FieldSizes (size % 2 ^ 16) (maxSize % 2 ^ 16)) ∧
        ∃ file ∈ inputFilename, file.Fills (UInt16.ofInt size).toNat := by
  rw [← writeInRange_iff]
  constructor
  · intro hcalls
    obtain ⟨op, hop⟩ := hcalls
    obtain ⟨hrange, hfile, -⟩ := (mem_operations_acdWrite x calloc m).mp hop
    exact ⟨hrange, hfile⟩
  · intro hyes
    obtain ⟨hrange, hfile⟩ := hyes
    exact ⟨_, (mem_operations_acdWrite x calloc m).mpr ⟨hrange, hfile, rfl⟩⟩

/-- A file that fills a buffer of `n` bytes, even of none. -/
def fillingFile (n : Nat) : InputFile :=
  ⟨true, some (2 ^ 32 + n), true, some (List.replicate n 0)⟩

theorem fills_fillingFile {n : Nat} (hn : n < 2 ^ 32) : (fillingFile n).Fills n := by
  refine ⟨rfl, rfl, 2 ^ 32 + n, rfl, by omega, ?_, List.replicate n 0, rfl, by simp⟩
  simp only [wrap32]
  omega

theorem exists_fills (size : Int) :
    ∃ file ∈ some (fillingFile (UInt16.ofInt size).toNat),
      InputFile.Fills file (UInt16.ofInt size).toNat := by
  have hlt := (UInt16.ofInt size).toNat_lt
  exact ⟨_, rfl, fills_fillingFile (by omega)⟩

/-- `-acd-read` accepts an index modulo 2^8. -/
theorem readAccepts_iff : ReadAccepts x calloc index m ↔ FieldIndex (index % 2 ^ 8) := by
  constructor
  · intro haccepts
    obtain ⟨outputFilename, hcalls⟩ := haccepts
    exact callsLibrary_acdRead_iff.mp hcalls
  · intro hindex
    exact ⟨none, callsLibrary_acdRead_iff.mpr hindex⟩

/-- So does `-acd-write`. -/
theorem writeAcceptsIndex_iff :
    WriteAcceptsIndex x calloc index m ↔ FieldIndex (index % 2 ^ 8) := by
  constructor
  · intro haccepts
    obtain ⟨size, maxSize, inputFilename, hcalls⟩ := haccepts
    exact (callsLibrary_acdWrite_iff.mp hcalls).1.1
  · intro hindex
    exact ⟨0, 0, _, callsLibrary_acdWrite_iff.mpr ⟨⟨hindex, by decide⟩, exists_fills 0⟩⟩

/-- Sizes are accepted modulo 2^16. -/
theorem writeAcceptsSizes_iff :
    WriteAcceptsSizes x calloc size maxSize m ↔
      FieldSizes (size % 2 ^ 16) (maxSize % 2 ^ 16) := by
  constructor
  · intro haccepts
    obtain ⟨index, inputFilename, hcalls⟩ := haccepts
    exact (callsLibrary_acdWrite_iff.mp hcalls).1.2
  · intro hsizes
    exact ⟨1, _, callsLibrary_acdWrite_iff.mpr ⟨⟨by decide, hsizes⟩, exists_fills size⟩⟩

theorem FieldIndex.residue (h : FieldIndex index) : index % 2 ^ 8 = index := by
  simp only [FieldIndex, acdMinFieldIndex, acdMaxFieldIndex] at h
  omega

theorem FieldSizes.residue (h : FieldSizes size maxSize) :
    size % 2 ^ 16 = size ∧ maxSize % 2 ^ 16 = maxSize := by
  simp only [FieldSizes, acdMaxDataSizeInBytes] at h
  omega

/-- A number in range reaches the library as it was typed. -/
theorem FieldIndex.typedRead (h : FieldIndex index) {outputFilename : Option OutputFile}
    {op : Operation} (hop : op ∈ operations x calloc (.acdRead index outputFilename) m) :
    TypedRead index op := by
  obtain ⟨-, rfl⟩ := (mem_operations_acdRead x calloc m).mp hop
  exact ⟨_, rfl, (toNat_uint8_ofInt index).trans h.residue⟩

theorem FieldIndex.typedWrite (h : FieldIndex index) (hsizes : FieldSizes size maxSize)
    {inputFilename : Option InputFile} {op : Operation}
    (hop : op ∈ operations x calloc (.acdWrite index size maxSize inputFilename) m) :
    TypedWrite index size maxSize op := by
  obtain ⟨-, -, rfl⟩ := (mem_operations_acdWrite x calloc m).mp hop
  obtain ⟨hsize, hmax⟩ := hsizes.residue
  exact ⟨_, rfl, (toNat_uint8_ofInt index).trans h.residue,
    (toNat_uint16_ofInt size).trans hsize, (toNat_uint16_ofInt maxSize).trans hmax⟩

variable (x calloc index size maxSize m)

/-- The range checks are those of the numbers typed unless a number out of range is one in range
modulo 2^8 or 2^16. -/
theorem numbersAsTyped_iff :
    NumbersAsTyped x calloc index size maxSize m ↔
      (FieldIndex (index % 2 ^ 8) → FieldIndex index) ∧
        (FieldSizes (size % 2 ^ 16) (maxSize % 2 ^ 16) → FieldSizes size maxSize) := by
  constructor
  · intro htyped
    exact ⟨fun hindex => htyped.readIndex.mp (readAccepts_iff.mpr hindex),
      fun hsizes => htyped.writeSizes.mp (writeAcceptsSizes_iff.mpr hsizes)⟩
  · intro hcond
    obtain ⟨hindex, hsizes⟩ := hcond
    have hindexIff : FieldIndex (index % 2 ^ 8) ↔ FieldIndex index :=
      ⟨hindex, fun h => h.residue.symm ▸ h⟩
    have hsizesIff : FieldSizes (size % 2 ^ 16) (maxSize % 2 ^ 16) ↔ FieldSizes size maxSize := by
      refine ⟨hsizes, fun h => ?_⟩
      rw [h.residue.1, h.residue.2]
      exact h
    refine ⟨readAccepts_iff.trans hindexIff, writeAcceptsIndex_iff.trans hindexIff,
      writeAcceptsSizes_iff.trans hsizesIff, ?_, ?_⟩
    · intro haccepts outputFilename
      have hin := readAccepts_iff.mp haccepts
      exact ⟨callsLibrary_acdRead_iff.mpr hin, fun op hop => (hindex hin).typedRead hop⟩
    · intro hacceptsIndex hacceptsSizes inputFilename
      have hin := writeAcceptsIndex_iff.mp hacceptsIndex
      have hin' := writeAcceptsSizes_iff.mp hacceptsSizes
      refine ⟨fun hfile => ?_, fun op hop => (hindex hin).typedWrite (hsizes hin') hop⟩
      -- the file is compared with the size as it is narrowed, here the size typed
      have hsize : size.toNat = (UInt16.ofInt size).toNat := by
        have hsame := (toNat_uint16_ofInt size).trans (hsizes hin').residue.1
        omega
      rw [hsize] at hfile
      exact callsLibrary_acdWrite_iff.mpr ⟨⟨hin, hin'⟩, hfile⟩

end Accept

/-- A file of four bytes. -/
def fourByteFile : InputFile := ⟨true, some 4, true, some [1, 2, 3, 4]⟩

/-- The index 257 reads and writes the first field, and the size 65540 is taken for 4. -/
theorem numbers_taken_for_others :
    .getCustomerData ⟨1, true⟩ ∈ operations (answering 8 twoByteReply) 4096 (.acdRead 257 none)
        (.ofLists fun _ => []) ∧
      .setCustomerData ⟨1, 4, 4, true⟩ ∈ operations (answering 8 twoByteReply) 4096
        (.acdWrite 257 65540 65540 (some fourByteFile)) (.ofLists fun _ => []) ∧
      ¬ NumbersAsTyped (answering 8 twoByteReply) 4096 257 65540 65540 (.ofLists fun _ => []) := by
  have hfills : fourByteFile.Fills 4 := ⟨rfl, rfl, 4, rfl, by decide, rfl, _, rfl, by decide⟩
  refine ⟨?_, ?_, fun htyped => ?_⟩
  · exact (mem_operations_acdRead _ _ _).mpr ⟨by decide, rfl⟩
  · refine (mem_operations_acdWrite _ _ _).mpr ⟨?_, ⟨fourByteFile, rfl, hfills⟩, rfl⟩
    exact (writeInRange_iff 257 65540 65540).mpr (by decide)
  · have haccepts : ReadAccepts (answering 8 twoByteReply) 4096 257 (.ofLists fun _ => []) :=
      readAccepts_iff.mpr (by decide)
    exact absurd (htyped.readIndex.mp haccepts) (by decide)

end Txei.SecTool

import Txei.SecTool.ExitStatus

/-!
# Input files of the security tool

`-acd-write` and `-acd-prov` hand the data of a file to the library. Its size goes through a
`uint32_t`, and `-acd-prov` takes the status of reading it for its own when it refuses the size.
With these two commands, `honestExit_iff` says of every command for which files and answers of the
device its success is honest.
-/

namespace Txei.SecTool

open Machine Machine.Prog Mei Acd

/-! ## Writing -/

/-- The size of the file fits a `uint32_t`. -/
def InputFile.Fits (file : InputFile) : Prop := ∃ stSize ∈ file.fstat, stSize < 2 ^ 32

theorem InputFile.Fills.unique {file : InputFile} {n n' : Nat} (h : file.Fills n)
    (h' : file.Fills n') : n' = n := by
  obtain ⟨-, -, stSize, hstat, -, rfl, -⟩ := h
  obtain ⟨-, -, stSize', hstat', -, rfl, -⟩ := h'
  rw [Option.mem_unique hstat hstat']

/-- A file of which one buffer was read is read whole exactly if its size was not cut. -/
theorem inputRead_iff {file : InputFile} {n : Nat} (h : file.Fills n) {calls : List ToolCall}
    (hread : ∀ k, ToolCall.fileRead k ∈ calls ↔ k = n) :
    InputRead calls (some file) ↔ file.Fits := by
  obtain ⟨-, -, stSize, hstat, -, hsize, -⟩ := h
  rw [Option.mem_def] at hstat
  have hcut : stSize = n ↔ stSize < 2 ^ 32 := by
    rw [← hsize]
    simp only [wrap32]
    omega
  unfold InputRead InputFile.Fits
  simp [hstat, hread, hcut]

section Write

variable (x : Exchange) (calloc : UInt64) (index size maxSize : Int)
  (inputFilename : Option InputFile) (m : Mem Block)

/-- The numbers of `-acd-write` pass the range checks, in the types they are stored in. -/
def WriteInRange : Prop :=
  IndexInRange index ∧ (UInt16.ofInt size).toNat ≤ acdMaxDataSizeInBytes ∧
    (UInt16.ofInt maxSize).toNat ≤ acdMaxDataSizeInBytes ∧
    (UInt16.ofInt size).toNat ≤ (UInt16.ofInt maxSize).toNat

/-- The arguments of the library call of `-acd-write`. -/
def writeArgs : WriteArgs := ⟨UInt8.ofInt index, UInt16.ofInt size, UInt16.ofInt maxSize, true⟩

theorem doAcdWrite_refused (h : ¬ WriteInRange index size maxSize) :
    (doAcdWrite x calloc index size maxSize inputFilename).run m =
      ⟨.error exitFailure, m, []⟩ := by
  unfold doAcdWrite
  by_cases hindex : IndexInRange index
  · rw [run_bind, hindex.check, Run.andThen_ok, run_exitIf_bind]
    by_cases hsize : acdMaxDataSizeInBytes < (UInt16.ofInt size).toNat
    · rw [if_pos hsize, Run.prepend_nil]
    rw [if_neg hsize, run_exitIf_bind]
    by_cases hmax : acdMaxDataSizeInBytes < (UInt16.ofInt maxSize).toNat
    · rw [if_pos hmax, Run.prepend_nil]
    rw [if_neg hmax, run_exitIf_bind]
    by_cases hle : (UInt16.ofInt maxSize).toNat < (UInt16.ofInt size).toNat
    · rw [if_pos hle, Run.prepend_nil]
    exact absurd ⟨hindex, by omega, by omega, by omega⟩ h
  · rw [run_bind, checkIndex_refuses hindex, Run.andThen_error]

variable {index size maxSize}

/-- The lines of `-acd-write` behind its range checks. -/
def writeFile (x : Exchange) (calloc : UInt64) (a : WriteArgs) (inputFilename : Option InputFile) :
    Tool Int := do
  let input ← readDataFromFile inputFilename
  exitIf (input.result = exitFailure) exitFailure
  exitIf (input.dataSizeInBytes ≠ a.fieldSize.toNat) exitFailure
  let result ← invoke x calloc (.setCustomerData { a with pvAdcFieldData := input.dataBuffer })
  exitIf (result < 0) exitFailure
  pure exitSuccess

theorem doAcdWrite_inRange (h : WriteInRange index size maxSize) :
    (doAcdWrite x calloc index size maxSize inputFilename).run m =
      (writeFile x calloc (writeArgs index size maxSize) inputFilename).run m := by
  obtain ⟨hindex, hsize, hmax, hle⟩ := h
  unfold doAcdWrite
  rw [run_bind, hindex.check, Run.andThen_ok, run_exitIf_bind, if_neg (by omega), run_exitIf_bind,
    if_neg (by omega), run_exitIf_bind, if_neg (by omega)]
  rfl

/-- A file that does not fill a buffer of the size given is refused once it is read. -/
theorem writeFile_unread {a : WriteArgs}
    (hfile : ∀ file ∈ inputFilename, ¬ file.Fills a.fieldSize.toNat) :
    ((writeFile x calloc a inputFilename).run m).value = exitFailure ∧
      ((writeFile x calloc a inputFilename).run m).log =
        ((readDataFromFile inputFilename).run m).log := by
  unfold writeFile
  by_cases hany : ∃ file ∈ inputFilename, ∃ n, file.Fills n
  · obtain ⟨file, hmem, n, hfills⟩ := hany
    obtain ⟨hres, -⟩ := readDataFromFile_filled hfills m
    rw [Option.mem_def] at hmem
    subst hmem
    have hne : n ≠ a.fieldSize.toNat := fun heq => hfile file rfl (heq ▸ hfills)
    rw [run_bind, Run.andThen_of_ok hres, run_exitIf_bind, if_neg (by simp), run_exitIf_bind,
      if_pos hne]
    simp
  · have hunread : ∀ file ∈ inputFilename, ∀ n, ¬ file.Fills n :=
      fun file hmem n hfills => hany ⟨file, hmem, n, hfills⟩
    have hres := readDataFromFile_failed hunread m
    rw [run_bind, Run.andThen_of_ok hres, run_exitIf_bind, if_pos FileData.result_failed]
    simp

/-- A file that does is passed on to the library. -/
theorem writeFile_read {a : WriteArgs} (ha : a.pvAdcFieldData = true) {file : InputFile}
    (hfile : file.Fills a.fieldSize.toNat) :
    (WriteFails x a → ((writeFile x calloc a (some file)).run m).value = exitFailure) ∧
      (¬ WriteFails x a → ((writeFile x calloc a (some file)).run m).value = exitSuccess ∧
        ∃ o : Outcome, ((writeFile x calloc a (some file)).run m).log.calls =
            [.fileRead a.fieldSize.toNat, .library (.setCustomerData a) o] ∧
          (o.value = a.fieldSize.toNat ↔ WriteReports x a)) := by
  obtain ⟨hres, hcalls⟩ := readDataFromFile_filled hfile m
  have hargs : { a with pvAdcFieldData := true } = a := by rw [← ha]
  unfold writeFile
  rw [run_bind, Run.andThen_of_ok hres, run_exitIf_bind, if_neg (by simp), run_exitIf_bind,
    if_neg (by simp), hargs]
  generalize ((readDataFromFile (some file)).run m).mem = m'
  obtain ⟨l, hlib, hrun⟩ := run_invoke_bind x calloc (.setCustomerData a) m' _
  have hneg : (((Operation.setCustomerData a).function x calloc).run m').value < 0 ↔
      WriteFails x a := value_setCustomerData_neg_iff x m'
  have hsize : (((Operation.setCustomerData a).function x calloc).run m').value =
      a.fieldSize.toNat ↔ WriteReports x a := value_setCustomerData_eq_size_iff x m'
  rw [hrun, run_exitIf_bind]
  constructor
  · intro hfails
    rw [if_pos (hneg.mpr hfails)]
    simp only [Run.value_prepend, Run.value_error]
  · intro hpasses
    rw [if_neg fun hlt => hpasses (hneg.mp hlt)]
    exact ⟨by simp, outcomeOf (((Operation.setCustomerData a).function x calloc).run m'),
      by simp [hcalls, hlib], hsize⟩

/-- With a file that fills the buffer, `-acd-write` is honest if the library refuses the data, or
reports that it is stored and the file was not cut. -/
theorem honestExit_acdWrite_filled (h : WriteInRange index size maxSize) {file : InputFile}
    (hfills : file.Fills (UInt16.ofInt size).toNat) :
    HonestExit x calloc (.acdWrite index size maxSize (some file)) m ↔
      WriteFails x (writeArgs index size maxSize) ∨
        WriteReports x (writeArgs index size maxSize) ∧ file.Fits := by
  have hmain : (main x calloc (.acdWrite index size maxSize (some file))).run m =
      (writeFile x calloc (writeArgs index size maxSize) (some file)).run m :=
    doAcdWrite_inRange x calloc (some file) m h
  obtain ⟨hrefused, hpassed⟩ := writeFile_read x calloc m
    (a := writeArgs index size maxSize) rfl hfills
  rw [← hmain] at hrefused hpassed
  by_cases hfails : WriteFails x (writeArgs index size maxSize)
  · exact iff_of_true (honestExit_of_failure (hrefused hfails)) (.inl hfails)
  obtain ⟨hexit, o, hcalls, hsize⟩ := hpassed hfails
  have hread : InputRead ((main x calloc (.acdWrite index size maxSize (some file))).run
      m).log.calls (some file) ↔ file.Fits := by
    refine inputRead_iff hfills fun k => ?_
    rw [hcalls]
    simp [writeArgs]
  rw [← hread, ← hsize]
  unfold HonestExit Done
  constructor
  · intro hhonest
    obtain ⟨a, o', hmem, hvalue, hin⟩ := hhonest hexit
    rw [hcalls] at hmem
    simp only [List.mem_cons, List.not_mem_nil, or_false, reduceCtorEq, false_or,
      ToolCall.library.injEq, Operation.setCustomerData.injEq] at hmem
    obtain ⟨rfl, rfl⟩ := hmem
    exact .inr ⟨hvalue, hin⟩
  · intro hcond _
    obtain ⟨hvalue, hin⟩ := hcond.resolve_left hfails
    refine ⟨writeArgs index size maxSize, o, ?_, hvalue, hin⟩
    rw [hcalls]
    simp

/-- `-acd-write` is honest exactly when a file that fills the buffer either is refused by the
library, or is stored according to it and was not cut. -/
theorem honestExit_acdWrite_iff (h : WriteInRange index size maxSize) :
    HonestExit x calloc (.acdWrite index size maxSize inputFilename) m ↔
      ∀ file ∈ inputFilename, file.Fills (UInt16.ofInt size).toNat →
        WriteFails x (writeArgs index size maxSize) ∨
          WriteReports x (writeArgs index size maxSize) ∧ file.Fits := by
  by_cases hany : ∃ file ∈ inputFilename, file.Fills (UInt16.ofInt size).toNat
  · obtain ⟨file, hmem, hfills⟩ := hany
    rw [Option.mem_def] at hmem
    subst hmem
    rw [honestExit_acdWrite_filled x calloc m h hfills]
    simp [hfills]
  · refine iff_of_true (honestExit_of_failure ?_) fun file hmem hfills =>
      absurd ⟨file, hmem, hfills⟩ hany
    have hmain : (main x calloc (.acdWrite index size maxSize inputFilename)).run m =
        (writeFile x calloc (writeArgs index size maxSize) inputFilename).run m :=
      doAcdWrite_inRange x calloc inputFilename m h
    rw [hmain]
    exact (writeFile_unread x calloc inputFilename m
      fun file hmem hfills => hany ⟨file, hmem, hfills⟩).1

end Write

/-! ## Provisioning -/

section Provision

variable (x : Exchange) (calloc : UInt64) (outputFilename : Option OutputFile) (m : Mem Block)

/-- The lines of `provision_android_customer_data` behind a successful call of the library. -/
def saveReturnData : Tool Int := do
  let provReturnDataSizeInBytes ← load .outDataSize 0
  onlyIf (0 < provReturnDataSizeInBytes) do
    let pProvOutputData ← outDataNonNull
    let status ← writeDataToFile outputFilename pProvOutputData provReturnDataSizeInBytes
    exitIf (status = exitFailure) status
  pure acdProvSuccess

/-- The transfers that save `n` bytes. -/
def saved (n : Nat) : List ToolCall := if n = 0 then [] else [.fileWritten n]

theorem outputWritten_of_saved {calls : List ToolCall} {n : Nat} (h : ∀ k ∈ saved n, k ∈ calls) :
    OutputWritten calls n := by
  by_cases hzero : n = 0
  · exact .inl hzero
  · exact .inr (h _ (by simp [saved, hzero]))

theorem fileRead_notMem_saved (n k : Nat) : ToolCall.fileRead k ∉ saved n := by
  unfold saved
  split
  · simp
  · simp

/-- No data has to be saved. -/
theorem saveReturnData_empty (hsize : m.word .outDataSize 0 = 0) :
    ((saveReturnData outputFilename).run m).value = exitSuccess ∧
      ((saveReturnData outputFilename).run m).log.calls = [] := by
  simp [saveReturnData, hsize]

/-- Data is saved if the file takes it. -/
theorem saveReturnData_taken (hsize : m.word .outDataSize 0 ≠ 0) (hbuffer : NonNull m)
    {file : OutputFile} (htakes : file.Takes (m.word .outDataSize 0)) :
    ((saveReturnData (some file)).run m).value = exitSuccess ∧
      ((saveReturnData (some file)).run m).log.calls =
        [.fileWritten (m.word .outDataSize 0)] := by
  obtain ⟨htest, hsame, hquiet⟩ := run_outDataNonNull m
  obtain ⟨hres, hcalls⟩ := writeDataToFile_taken hsize htakes m
  rw [decide_eq_true hbuffer] at htest
  unfold saveReturnData
  rw [run_bind, run_load, Run.andThen_ok, run_bind, run_onlyIf, if_pos (by omega), run_bind,
    Run.andThen_of_ok htest, hsame, run_bind, Run.andThen_of_ok hres, run_exitIf,
    if_neg (by decide)]
  simp [hcalls, hquiet]

/-- Otherwise the failure is passed on. -/
theorem saveReturnData_lost (hsize : m.word .outDataSize 0 ≠ 0)
    (hno : ∀ file ∈ outputFilename, ¬ file.Takes (m.word .outDataSize 0)) :
    ((saveReturnData outputFilename).run m).value = exitFailure := by
  obtain ⟨htest, hsame, hquiet⟩ := run_outDataNonNull m
  have hnot : decide (NonNull m) = true →
      ∀ file ∈ outputFilename, ¬ file.Takes (m.word .outDataSize 0) := fun _ => hno
  obtain ⟨hres, -⟩ := writeDataToFile_failed hsize hnot m
  unfold saveReturnData
  rw [run_bind, run_load, Run.andThen_ok, run_bind, run_onlyIf, if_pos (by omega), run_bind,
    Run.andThen_of_ok htest, hsame, run_bind, Run.andThen_of_ok hres, run_exitIf,
    if_pos (by decide)]
  simp

variable (provisioningSchema : Int) (inputFilename : Option InputFile)

/-- The lines of `provision_android_customer_data` behind its checks and initialisations. -/
def provisionFile : Tool Int := do
  let input ← readDataFromFile inputFilename
  exitIf (input.result = exitFailure) input.result
  exitIf (input.dataSizeInBytes = 0 ∨ acdMaxDataSizeInBytes < input.dataSizeInBytes) input.result
  let status ← invoke x calloc (.provisionCustomerData ⟨UInt32.ofInt provisioningSchema,
    UInt32.ofNat input.dataSizeInBytes, input.dataBuffer, true, true⟩)
  exitIf (status ≠ acdProvSuccess) status
  saveReturnData outputFilename

/-- The schema passes the range check. -/
def SchemaInRange : Prop :=
  acdMinProvisionngSchema ≤ provisioningSchema ∧ provisioningSchema ≤ acdMaxProvisionngSchema

instance : Decidable (SchemaInRange provisioningSchema) := inferInstanceAs (Decidable (_ ∧ _))

theorem doAcdProv_refused
    (h : ¬ (SchemaInRange provisioningSchema ∧ inputFilename ≠ none ∧ outputFilename ≠ none)) :
    ((doAcdProv x calloc provisioningSchema inputFilename outputFilename).run m).value =
      exitFailure := by
  unfold doAcdProv
  rw [run_exitIf_bind]
  by_cases hschema : SchemaInRange provisioningSchema
  · have hcheck : ¬ (provisioningSchema < acdMinProvisionngSchema ∨
        acdMaxProvisionngSchema < provisioningSchema) := by
      unfold SchemaInRange at hschema
      omega
    rw [if_neg hcheck]
    cases inputFilename with
    | none => rfl
    | some file =>
        cases outputFilename with
        | none => rfl
        | some output => exact absurd ⟨hschema, by simp, by simp⟩ h
  · have hcheck : provisioningSchema < acdMinProvisionngSchema ∨
        acdMaxProvisionngSchema < provisioningSchema := by
      unfold SchemaInRange at hschema
      omega
    rw [if_pos hcheck, Run.value_error]

theorem doAcdProv_inRange (h : SchemaInRange provisioningSchema) (file : InputFile)
    (output : OutputFile) :
    ∃ m', let r := (provisionFile x calloc (some output) provisioningSchema (some file)).run m'
      ((doAcdProv x calloc provisioningSchema (some file) (some output)).run m).value = r.value ∧
      ((doAcdProv x calloc provisioningSchema (some file) (some output)).run m).log.calls =
        r.log.calls := by
  have hcheck : ¬ (provisioningSchema < acdMinProvisionngSchema ∨
      acdMaxProvisionngSchema < provisioningSchema) := by
    unfold SchemaInRange at h
    omega
  have hrun : (doAcdProv x calloc provisioningSchema (some file) (some output)).run m =
      (returned (do
        store .outDataSize 0 0
        clearOutData
        provisionFile x calloc (some output) provisioningSchema (some file)) : Tool Int).run m := by
    unfold doAcdProv
    rw [run_exitIf_bind, if_neg hcheck]
    unfold provisionAndroidCustomerData
    rw [run_returned, run_exitIf_bind, if_neg (by simp), run_exitIf_bind, if_neg (by simp)]
    rfl
  rw [hrun]
  refine ⟨(m.write .outDataSize 0 4 (byteAt 0)).write .outData 0 8 fun _ => 0, ?_⟩
  simp [clearOutData]

variable {inputFilename}

/-- A file that cannot be read is refused. -/
theorem provisionFile_unread (hfile : ∀ file ∈ inputFilename, ∀ n, ¬ file.Fills n) :
    ((provisionFile x calloc outputFilename provisioningSchema inputFilename).run m).value =
      exitFailure := by
  have hres := readDataFromFile_failed hfile m
  unfold provisionFile
  rw [run_bind, Run.andThen_of_ok hres, run_exitIf_bind, if_pos FileData.result_failed,
    Run.value_prepend, Run.value_error, FileData.result_failed]

variable {file : InputFile} {n : Nat}

/-- A file of an illegal size is refused with the success of reading it. -/
theorem provisionFile_illegal (hfills : file.Fills n) (hsize : n = 0 ∨ acdMaxDataSizeInBytes < n) :
    ((provisionFile x calloc outputFilename provisioningSchema (some file)).run m).value =
        exitSuccess ∧
      ((provisionFile x calloc outputFilename provisioningSchema (some file)).run m).log.calls =
        [.fileRead n] := by
  obtain ⟨hres, hcalls⟩ := readDataFromFile_filled hfills m
  unfold provisionFile
  rw [run_bind, Run.andThen_of_ok hres, run_exitIf_bind, if_neg (by simp), run_exitIf_bind,
    if_pos hsize]
  simp [hcalls]

/-- The arguments of the library call of `-acd-prov`. -/
def provisionArgs (n : Nat) : ProvisionArgs :=
  ⟨UInt32.ofInt provisioningSchema, UInt32.ofNat n, true, true, true⟩

theorem admissible_provisionArgs (hpos : n ≠ 0) (hle : n ≤ acdMaxDataSizeInBytes) :
    (provisionArgs provisioningSchema n).Admissible := by
  simp only [acdMaxDataSizeInBytes] at hle
  have hsize : (UInt32.ofNat n).toNat = n := by
    rw [UInt32.toNat_ofNat']
    omega
  refine ⟨?_, ⟨rfl, rfl⟩, fun _ => rfl⟩
  show acdMinDataSizeInBytes < (UInt32.ofNat n).toNat ∧
    (UInt32.ofNat n).toNat ≤ acdMaxDataSizeInBytes
  rw [hsize]
  simp only [acdMinDataSizeInBytes, acdMaxDataSizeInBytes]
  omega

/-- A file of a legal size goes to the library, whose failure is passed on. -/
theorem provisionFile_called (hfills : file.Fills n)
    (hsize : ¬ (n = 0 ∨ acdMaxDataSizeInBytes < n)) :
    ∃ m', let lib := ((Operation.provisionCustomerData
        (provisionArgs provisioningSchema n)).function x calloc).run m'
      let r := (provisionFile x calloc outputFilename provisioningSchema (some file)).run m
      (lib.value ≠ acdProvSuccess → r.value = lib.value) ∧
        (lib.value = acdProvSuccess →
          r.value = ((saveReturnData outputFilename).run lib.mem).value ∧
          r.log.calls = .fileRead n ::
            .library (.provisionCustomerData (provisionArgs provisioningSchema n))
              (outcomeOf lib) ::
            ((saveReturnData outputFilename).run lib.mem).log.calls) := by
  obtain ⟨hres, hcalls⟩ := readDataFromFile_filled hfills m
  obtain ⟨l, hlib, hrun⟩ := run_invoke_bind x calloc
    (.provisionCustomerData (provisionArgs provisioningSchema n))
    ((readDataFromFile (some file)).run m).mem fun status => do
      exitIf (status ≠ acdProvSuccess) status
      saveReturnData outputFilename
  have hfile : (provisionFile x calloc outputFilename provisioningSchema (some file)).run m =
      (((invoke x calloc (.provisionCustomerData (provisionArgs provisioningSchema n))) >>=
        fun status => do
          exitIf (status ≠ acdProvSuccess) status
          saveReturnData outputFilename).run ((readDataFromFile (some file)).run m).mem).prepend
            ((readDataFromFile (some file)).run m).log := by
    unfold provisionFile
    rw [run_bind, Run.andThen_of_ok hres, run_exitIf_bind, if_neg (by simp), run_exitIf_bind,
      if_neg hsize]
    rfl
  refine ⟨((readDataFromFile (some file)).run m).mem, ?_⟩
  simp only [hfile, hrun, run_exitIf_bind]
  constructor
  · intro hfails
    rw [if_pos hfails]
    simp only [Run.value_prepend, Run.value_error]
  · intro hpasses
    rw [if_neg (not_not_intro hpasses)]
    simp [hcalls, hlib]

/-- The firmware provisioned, and the data it returned went to the output file. -/
def ReturnDataSaved (n : Nat) : Prop :=
  x.connect.Succeeds ∧ ∃ got ∈ x.received AcdReadCmdToHost.size,
    HandedOver calloc (provisionArgs provisioningSchema n) got ∧
      (bytesReadOf got = 0 ∨ ∃ file ∈ outputFilename, file.Takes (bytesReadOf got))

/-- The data of a reply that was handed over is saved, or the failure is passed on. -/
theorem saveReturnData_handedOver {a : ProvisionArgs} (ha : a.Admissible) (hout : a.pOutData = true)
    (hc : x.connect.Succeeds) {got : List UInt8}
    (hgot : x.received AcdReadCmdToHost.size = some got) (hover : HandedOver calloc a got) :
    let m' := ((provisionCustomerData x calloc a).run m).mem
    let r := (saveReturnData outputFilename).run m'
    ((bytesReadOf got = 0 ∨ ∃ file ∈ outputFilename, file.Takes (bytesReadOf got)) →
        r.value = exitSuccess ∧ r.log.calls = saved (m'.word .outDataSize 0)) ∧
      (¬ (bytesReadOf got = 0 ∨ ∃ file ∈ outputFilename, file.Takes (bytesReadOf got)) →
        r.value = exitFailure) := by
  obtain ⟨hsize, hpointer⟩ := provisionCustomerData_handedOver x calloc m ha hc hgot hover
  intro m'
  by_cases hzero : bytesReadOf got = 0
  · obtain ⟨hvalue, hcalls⟩ := saveReturnData_empty outputFilename m' (hsize.trans hzero)
    refine ⟨fun _ => ⟨hvalue, ?_⟩, fun hno => absurd (.inl hzero) hno⟩
    rw [hcalls, saved, if_pos (hsize.trans hzero)]
  · have hne : m'.word .outDataSize 0 ≠ 0 := by
      rw [hsize]
      exact hzero
    have hbuffer : NonNull m' := by
      rw [nonNull_iff m' (hpointer hout), if_neg hzero]
      exact (hover.2.resolve_left hzero).2
    constructor
    · intro hsaved
      obtain ⟨file, hmem, htakes⟩ := hsaved.resolve_left hzero
      rw [Option.mem_def] at hmem
      subst hmem
      rw [← hsize] at htakes
      obtain ⟨hvalue, hcalls⟩ := saveReturnData_taken m' hne hbuffer htakes
      refine ⟨hvalue, ?_⟩
      rw [hcalls, saved, if_neg hne]
    · intro hlost
      refine saveReturnData_lost outputFilename m' hne fun file hmem htakes => ?_
      rw [hsize] at htakes
      exact hlost (.inr ⟨file, hmem, htakes⟩)

/-- Behind a file of a legal size, success means that the data was saved. -/
theorem provisionFile_exit (hfills : file.Fills n)
    (hsize : ¬ (n = 0 ∨ acdMaxDataSizeInBytes < n)) :
    let r := (provisionFile x calloc outputFilename provisioningSchema (some file)).run m
    (¬ ReturnDataSaved x calloc outputFilename provisioningSchema n → r.value ≠ exitSuccess) ∧
      (ReturnDataSaved x calloc outputFilename provisioningSchema n → r.value = exitSuccess ∧
        ∃ o : Outcome, o.value = acdProvSuccess ∧ r.log.calls = .fileRead n ::
          .library (.provisionCustomerData (provisionArgs provisioningSchema n)) o ::
            saved o.outDataSize) := by
  obtain ⟨m', hfails, hpasses⟩ :=
    provisionFile_called x calloc outputFilename m provisioningSchema hfills hsize
  have hvalue := value_provisionCustomerData_eq_zero_iff x calloc m'
    (a := provisionArgs provisioningSchema n)
  intro r
  by_cases hprov : Provisioned x calloc (provisionArgs provisioningSchema n)
  · have hzero := hvalue.mpr hprov
    obtain ⟨hexit, hcalls⟩ := hpasses hzero
    obtain ⟨ha, hc, got, hgot, hover⟩ := hprov
    rw [Option.mem_def] at hgot
    obtain ⟨hsaved, hlost⟩ :=
      saveReturnData_handedOver x calloc outputFilename m' ha rfl hc hgot hover
    have hiff : ReturnDataSaved x calloc outputFilename provisioningSchema n ↔
        (bytesReadOf got = 0 ∨ ∃ file ∈ outputFilename, file.Takes (bytesReadOf got)) := by
      unfold ReturnDataSaved
      simp [hc, hgot, hover]
    rw [hiff]
    constructor
    · intro hno hsuccess
      exact absurd ((hlost hno).symm.trans (hexit.symm.trans hsuccess)) (by decide)
    · intro hyes
      obtain ⟨hsuccess, hwritten⟩ := hsaved hyes
      refine ⟨hexit.trans hsuccess, outcomeOf _, hzero, hcalls.trans ?_⟩
      exact congrArg (fun l => _ :: _ :: l) hwritten
  · have hnone : ¬ ReturnDataSaved x calloc outputFilename provisioningSchema n := by
      intro hsaved
      obtain ⟨hc, got, hgot, hover, -⟩ := hsaved
      have hne : n ≠ 0 := fun hzero => hsize (.inl hzero)
      have hle : n ≤ acdMaxDataSizeInBytes := by omega
      exact hprov ⟨admissible_provisionArgs provisioningSchema hne hle, hc, got, hgot, hover⟩
    have hcode := mt hvalue.mp hprov
    refine ⟨fun _ hsuccess => hcode ?_, fun hsaved => absurd hsaved hnone⟩
    exact (hfails hcode).symm.trans hsuccess

/-- A file of an illegal size leaves the tool with success, and the library was not called. -/
theorem not_honestExit_acdProv (h : SchemaInRange provisioningSchema) (output : OutputFile)
    (hfills : file.Fills n) (hsize : n = 0 ∨ acdMaxDataSizeInBytes < n) :
    ¬ HonestExit x calloc (.acdProv provisioningSchema (some file) (some output)) m := by
  obtain ⟨m', hvalue, hcalls⟩ := doAcdProv_inRange x calloc m provisioningSchema h file output
  obtain ⟨hexit, hread⟩ := provisionFile_illegal x calloc (some output) m' provisioningSchema
    hfills hsize
  intro hhonest
  obtain ⟨a, o, hlib, -⟩ := hhonest (hvalue.trans hexit)
  rw [main, hcalls, hread] at hlib
  simp at hlib

/-- With a file of a legal size, `-acd-prov` is honest if the file was not cut or the rest of the
command fails. -/
theorem honestExit_acdProv_legal (h : SchemaInRange provisioningSchema) (output : OutputFile)
    (hfills : file.Fills n) (hsize : ¬ (n = 0 ∨ acdMaxDataSizeInBytes < n)) :
    HonestExit x calloc (.acdProv provisioningSchema (some file) (some output)) m ↔
      (ReturnDataSaved x calloc (some output) provisioningSchema n → file.Fits) := by
  obtain ⟨m', hvalue, hcalls⟩ := doAcdProv_inRange x calloc m provisioningSchema h file output
  obtain ⟨hfails, hpasses⟩ := provisionFile_exit x calloc (some output) m' provisioningSchema
    hfills hsize
  unfold HonestExit main
  simp only [hvalue, hcalls]
  by_cases hsaved : ReturnDataSaved x calloc (some output) provisioningSchema n
  · obtain ⟨hexit, o, hzero, hdone⟩ := hpasses hsaved
    have hread : InputRead ((provisionFile x calloc (some output) provisioningSchema
        (some file)).run m').log.calls (some file) ↔ file.Fits := by
      refine inputRead_iff hfills fun k => ?_
      rw [hdone]
      simp [fileRead_notMem_saved]
    rw [← hread]
    unfold Done
    constructor
    · intro hhonest _
      obtain ⟨a, o', -, -, hin, -⟩ := hhonest hexit
      exact hin
    · intro hfits _
      refine ⟨provisionArgs provisioningSchema n, o, ?_, hzero, hfits hsaved, ?_⟩
      · rw [hdone]
        simp
      · refine outputWritten_of_saved fun k hk => ?_
        rw [hdone]
        exact List.mem_cons_of_mem _ (List.mem_cons_of_mem _ hk)
  · refine iff_of_true (fun hexit => absurd hexit (hfails hsaved)) ?_
    exact fun hyes => absurd hyes hsaved

/-- `-acd-prov` is honest exactly when a file that can be read has a legal size, and was not cut if
the rest of the command succeeds. -/
theorem honestExit_acdProv_iff (h : SchemaInRange provisioningSchema) (output : OutputFile) :
    HonestExit x calloc (.acdProv provisioningSchema (some file) (some output)) m ↔
      ∀ n, file.Fills n → (n ≠ 0 ∧ n ≤ acdMaxDataSizeInBytes) ∧
        (ReturnDataSaved x calloc (some output) provisioningSchema n → file.Fits) := by
  by_cases hany : ∃ n, file.Fills n
  · obtain ⟨n, hfills⟩ := hany
    have hone : (∀ n, file.Fills n → (n ≠ 0 ∧ n ≤ acdMaxDataSizeInBytes) ∧
        (ReturnDataSaved x calloc (some output) provisioningSchema n → file.Fits)) ↔
        (n ≠ 0 ∧ n ≤ acdMaxDataSizeInBytes) ∧
          (ReturnDataSaved x calloc (some output) provisioningSchema n → file.Fits) := by
      refine ⟨fun hall => hall n hfills, fun hn n' hfills' => ?_⟩
      rw [hfills.unique hfills']
      exact hn
    rw [hone]
    by_cases hsize : n = 0 ∨ acdMaxDataSizeInBytes < n
    · refine iff_of_false ?_ fun hyes => by omega
      exact not_honestExit_acdProv x calloc m provisioningSchema h output hfills hsize
    · rw [honestExit_acdProv_legal x calloc m provisioningSchema h output hfills hsize]
      have hlegal : n ≠ 0 ∧ n ≤ acdMaxDataSizeInBytes := by omega
      exact (and_iff_right hlegal).symm
  · refine iff_of_true (honestExit_of_failure ?_) fun n hfills => absurd ⟨n, hfills⟩ hany
    obtain ⟨m', hvalue, -⟩ := doAcdProv_inRange x calloc m provisioningSchema h file output
    have hno : ∀ file' ∈ some file, ∀ n, ¬ file'.Fills n := by
      intro file' hmem' n hfills
      rw [Option.mem_some_iff] at hmem'
      exact hany ⟨n, hmem' ▸ hfills⟩
    exact hvalue.trans (provisionFile_unread x calloc (some output) m' provisioningSchema hno)

end Provision

/-! ## All commands -/

/-- What a successful exit of a command takes, by its arguments, its files and the answers of the
device: whatever the tool counts as a success is one of the library, and the files move whole. -/
def Command.Honest (x : Exchange) (calloc : UInt64) : Command → Prop
  | .acdRead index outputFilename => IndexInRange index → x.connect.Succeeds →
      ∃ got ∈ x.received AcdReadCmdToHost.size, ReadPasses calloc outputFilename got
  | .acdWrite index size maxSize inputFilename => WriteInRange index size maxSize →
      ∀ file ∈ inputFilename, file.Fills (UInt16.ofInt size).toNat →
        WriteFails x (writeArgs index size maxSize) ∨
          WriteReports x (writeArgs index size maxSize) ∧ file.Fits
  | .acdProv provisioningSchema inputFilename outputFilename =>
      SchemaInRange provisioningSchema → outputFilename ≠ none →
        ∀ file ∈ inputFilename, ∀ n, file.Fills n → (n ≠ 0 ∧ n ≤ acdMaxDataSizeInBytes) ∧
          (ReturnDataSaved x calloc outputFilename provisioningSchema n → file.Fits)
  | .acdLock => True

/-- The tool exits with success only for what was done exactly under these conditions: `-acd-read`
ignores whether the file was written and takes positive error codes for sizes, `-acd-write` takes
them for success too, `-acd-prov` refuses an illegal size with the status of reading the file, and a
file of 2^32 bytes or more is read in part. -/
theorem honestExit_iff (x : Exchange) (calloc : UInt64) (c : Command) (m : Mem Block) :
    HonestExit x calloc c m ↔ c.Honest x calloc := by
  cases c with
  | acdRead index outputFilename =>
      by_cases h : IndexInRange index
      · rw [honestExit_acdRead_iff x calloc index outputFilename m h]
        simp [Command.Honest, h]
      · refine iff_of_true (honestExit_of_failure ?_) fun hyes => absurd hyes h
        rw [main, doAcdRead_refused x calloc index outputFilename m h, Run.value_error]
  | acdWrite index size maxSize inputFilename =>
      by_cases h : WriteInRange index size maxSize
      · rw [honestExit_acdWrite_iff x calloc inputFilename m h]
        simp only [Command.Honest, h, forall_const]
      · refine iff_of_true (honestExit_of_failure ?_) fun hyes => absurd hyes h
        rw [main, doAcdWrite_refused x calloc index size maxSize inputFilename m h, Run.value_error]
  | acdProv provisioningSchema inputFilename outputFilename =>
      by_cases h : SchemaInRange provisioningSchema ∧ inputFilename ≠ none ∧ outputFilename ≠ none
      · obtain ⟨hschema, hin, hout⟩ := h
        obtain ⟨file, rfl⟩ := Option.ne_none_iff_exists'.mp hin
        obtain ⟨output, rfl⟩ := Option.ne_none_iff_exists'.mp hout
        rw [honestExit_acdProv_iff x calloc m provisioningSchema hschema output]
        simp [Command.Honest, hschema]
      · refine iff_of_true (honestExit_of_failure ?_) fun hschema hout file hmem => ?_
        · exact doAcdProv_refused x calloc outputFilename m provisioningSchema inputFilename h
        · rw [Option.mem_def] at hmem
          exact absurd ⟨hschema, by simp [hmem], hout⟩ h
  | acdLock => exact iff_of_true (honestExit_acdLock x calloc m) trivial

/-- A disk on which no byte can be written. -/
def fullDisk : OutputFile := ⟨true, none⟩

/-- A file of one byte more than a field holds. -/
def largeFile : InputFile := ⟨true, some 513, true, some (List.replicate 513 0)⟩

/-- A field that was read is not written, and a file that is too large is not provisioned: the tool
exits with success. -/
theorem exit_not_honest :
    ((main (answering 8 twoByteReply) 4096 (.acdRead 1 (some fullDisk))).run
        (.ofLists fun _ => [])).value = exitSuccess ∧
      ¬ HonestExit (answering 8 twoByteReply) 4096 (.acdRead 1 (some fullDisk))
        (.ofLists fun _ => []) ∧
      ((main (answering 528 twoByteReply) 4096 (.acdProv 0 (some largeFile) (some fullDisk))).run
        (.ofLists fun _ => [])).value = exitSuccess ∧
      ¬ HonestExit (answering 528 twoByteReply) 4096
        (.acdProv 0 (some largeFile) (some fullDisk)) (.ofLists fun _ => []) := by
  have hread : ¬ HonestExit (answering 8 twoByteReply) 4096 (.acdRead 1 (some fullDisk))
      (.ofLists fun _ => []) := by
    have hgot := received_answering (by decide) length_twoByteReply.le 8
    have hreadable : Readable twoByteReply := .inl (by decide)
    rw [honestExit_acdRead_answered _ _ _ _ _ (by decide) (by decide) hgot]
    intro hpasses
    obtain ⟨-, -, hout⟩ := hpasses.resolve_left fun hno => hno.1 hreadable
    rcases hout with hzero | ⟨file, hfile, -, bytesWritten, hwrite, -⟩
    · exact absurd hzero (by decide)
    · cases hfile
      cases hwrite
  have hprov : ¬ HonestExit (answering 528 twoByteReply) 4096
      (.acdProv 0 (some largeFile) (some fullDisk)) (.ofLists fun _ => []) := by
    have hfills : largeFile.Fills 513 :=
      ⟨rfl, rfl, 513, rfl, by decide, by decide, _, rfl, List.length_replicate.ge⟩
    exact not_honestExit_acdProv _ _ _ _ (by decide) fullDisk hfills (.inr (by decide))
  exact ⟨(Classical.not_imp.mp hread).1, hread, (Classical.not_imp.mp hprov).1, hprov⟩

end Txei.SecTool

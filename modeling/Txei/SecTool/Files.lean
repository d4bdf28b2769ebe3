import Txei.Acd.ProvisionValue
import Txei.Machine.Calls

/-!
# Files of the security tool

`read_data_from_file` and `write_data_to_file` of `misc_utils.c`. What the operating system answers
is data of an `InputFile` or an `OutputFile`, and a file name is that file, or `none` for a null
pointer. The pointers to the caller's objects are never null here. The tool's calls to the outside
are those of the customer data library, with what each hands back, and the transfers from and to a
file, with the number of bytes that each moved.
-/

namespace Txei.SecTool

open Machine Machine.Prog Mei Acd

/-- `EXIT_SUCCESS`. -/
@[simp] abbrev exitSuccess : Int := 0

/-- `EXIT_FAILURE`. -/
@[simp] abbrev exitFailure : Int := 1

/-- A call of the customer data library with its arguments. -/
inductive Operation where
  | getCustomerData (a : ReadArgs)
  | setCustomerData (a : WriteArgs)
  | lockCustomerData
  | provisionCustomerData (a : ProvisionArgs)
  deriving DecidableEq, Repr

/-- What the caller of the library finds behind a call: the value it returns, whether the pointer to
the returned data is non-null, and the size of that data. -/
structure Outcome where
  value : Int
  outData : Bool
  outDataSize : Nat
  deriving DecidableEq, Repr

/-- A call of the tool to the outside. -/
inductive ToolCall where
  | library (op : Operation) (outcome : Outcome)
  | fileRead (n : Nat)
  | fileWritten (n : Nat)
  deriving DecidableEq, Repr

/-- A function of the tool, over the objects of the customer data library. -/
abbrev Tool (α : Type) : Type := Prog ToolCall Block Int α

/-- What the operating system answers for an input file: the results of `open`, of `fstat` with the
size, of `calloc`, and of `read` with the bytes, which is still subject to the size asked for. -/
structure InputFile where
  opens : Bool
  fstat : Option Nat
  calloc : Bool
  read : Option (List UInt8)
  deriving DecidableEq, Repr

/-- What the operating system answers for an output file: the results of `open` and of `write`,
which is still subject to the size asked for. -/
structure OutputFile where
  opens : Bool
  write : Option Nat
  deriving DecidableEq, Repr

/-- What `read_data_from_file` hands to its caller. -/
structure FileData where
  result : Int
  dataBuffer : Bool
  dataSizeInBytes : Nat
  deriving DecidableEq, Repr

/-- Every failure frees the buffer and sets the size to zero. -/
def FileData.failed : FileData := ⟨exitFailure, false, 0⟩

@[simp] theorem FileData.result_failed : FileData.failed.result = exitFailure := rfl

/-- `read_data_from_file`. The size of the file is an `off_t`, the size of the buffer a
`uint32_t`. -/
def readDataFromFile (pFilename : Option InputFile) : Tool FileData := returned do
  let file ← valueOrExit pFilename .failed
  exitIf (file.opens = false) .failed
  let stSize ← valueOrExit file.fstat .failed
  exitIf (stSize = 0) .failed
  exitIf (file.calloc = false) .failed
  memset .fieldData 0 0 (wrap32 stSize)
  let bytes ← valueOrExit file.read .failed
  fill .fieldData (readBytes bytes (wrap32 stSize))
  call (.fileRead (readBytes bytes (wrap32 stSize)).length)
  exitIf ((readBytes bytes (wrap32 stSize)).length ≠ wrap32 stSize) .failed
  pure ⟨exitSuccess, true, wrap32 stSize⟩

/-- `write_data_to_file` from the buffer of the data that came back; `pDataBuffer` tells whether the
pointer is non-null. -/
def writeDataToFile (pFilename : Option OutputFile) (pDataBuffer : Bool) (dataSizeInBytes : Nat) :
    Tool Int := returned do
  let file ← valueOrExit pFilename exitFailure
  exitIf (pDataBuffer = false) exitFailure
  exitIf (dataSizeInBytes = 0) exitFailure
  exitIf (file.opens = false) exitFailure
  expose .outBuffer dataSizeInBytes
  let bytesWritten ← valueOrExit file.write exitFailure
  call (.fileWritten (min bytesWritten dataSizeInBytes))
  exitIf (min bytesWritten dataSizeInBytes ≠ dataSizeInBytes) exitFailure
  pure exitSuccess

/-! ## When they succeed -/

/-- The file fills a buffer of `n` bytes: its size is `n` up to what a `uint32_t` drops. -/
def InputFile.Fills (file : InputFile) (n : Nat) : Prop :=
  file.opens = true ∧ file.calloc = true ∧
    ∃ stSize ∈ file.fstat, stSize ≠ 0 ∧ wrap32 stSize = n ∧ ∃ bytes ∈ file.read, n ≤ bytes.length

/-- The file takes `n` bytes in one `write`. -/
def OutputFile.Takes (file : OutputFile) (n : Nat) : Prop :=
  file.opens = true ∧ ∃ bytesWritten ∈ file.write, n ≤ bytesWritten

/-- A file that fills the buffer is read, in one transfer of the size of the buffer. -/
theorem readDataFromFile_filled {file : InputFile} {n : Nat} (h : file.Fills n) (m : Mem Block) :
    ((readDataFromFile (some file)).run m).result = .ok ⟨exitSuccess, true, n⟩ ∧
      ((readDataFromFile (some file)).run m).log.calls = [.fileRead n] := by
  obtain ⟨hopen, hcalloc, stSize, hstat, hpos, rfl, bytes, hread, hlen⟩ := h
  have hcount : (readBytes bytes (wrap32 stSize)).length = wrap32 stSize := by
    simpa [readBytes] using hlen
  rw [Option.mem_def] at hstat hread
  simp [readDataFromFile, hopen, hcalloc, hstat, hpos, hread, hcount]

/-- Otherwise there is neither a buffer nor a size. -/
theorem readDataFromFile_failed {pFilename : Option InputFile}
    (h : ∀ file ∈ pFilename, ∀ n, ¬ file.Fills n) (m : Mem Block) :
    ((readDataFromFile pFilename).run m).result = .ok .failed := by
  cases pFilename with
  | none => rfl
  | some file =>
      by_cases hopen : file.opens = false
      · simp [readDataFromFile, hopen]
      cases hstat : file.fstat with
      | none => simp [readDataFromFile, hopen, hstat]
      | some stSize =>
          by_cases hzero : stSize = 0
          · simp [readDataFromFile, hopen, hstat, hzero]
          by_cases hcalloc : file.calloc = false
          · simp [readDataFromFile, hopen, hstat, hzero, hcalloc]
          cases hread : file.read with
          | none => simp [readDataFromFile, hopen, hstat, hzero, hcalloc, hread]
          | some bytes =>
              have hshort : (readBytes bytes (wrap32 stSize)).length ≠ wrap32 stSize := by
                intro hfull
                refine h file rfl (wrap32 stSize) ⟨by simpa using hopen, by simpa using hcalloc,
                  stSize, hstat, hzero, rfl, bytes, hread, ?_⟩
                simpa [readBytes] using hfull
              simp [readDataFromFile, hopen, hstat, hzero, hcalloc, hread, hshort]

/-- A file that takes the bytes of a buffer is written. -/
theorem writeDataToFile_taken {file : OutputFile} {n : Nat} (hn : n ≠ 0) (h : file.Takes n)
    (m : Mem Block) :
    ((writeDataToFile (some file) true n).run m).result = .ok exitSuccess ∧
      ((writeDataToFile (some file) true n).run m).log.calls = [.fileWritten n] := by
  obtain ⟨hopen, bytesWritten, hwrite, hle⟩ := h
  rw [Option.mem_def] at hwrite
  have hall : ¬ bytesWritten < n := by omega
  simp [writeDataToFile, hn, hopen, hwrite, hle, hall]

/-- Otherwise the function fails, and no `write` moves them all. -/
theorem writeDataToFile_failed {pFilename : Option OutputFile} {pDataBuffer : Bool} {n : Nat}
    (hn : n ≠ 0) (h : pDataBuffer = true → ∀ file ∈ pFilename, ¬ file.Takes n) (m : Mem Block) :
    ((writeDataToFile pFilename pDataBuffer n).run m).result = .ok exitFailure ∧
      ToolCall.fileWritten n ∉ ((writeDataToFile pFilename pDataBuffer n).run m).log.calls := by
  cases pFilename with
  | none => exact ⟨rfl, by simp [writeDataToFile]⟩
  | some file =>
      by_cases hbuffer : pDataBuffer = false
      · simp [writeDataToFile, hbuffer]
      by_cases hopen : file.opens = false
      · simp [writeDataToFile, hbuffer, hopen, hn]
      cases hwrite : file.write with
      | none => simp [writeDataToFile, hbuffer, hopen, hwrite, hn]
      | some bytesWritten =>
          have hshort : bytesWritten < n := by
            by_contra hfull
            exact h (by simpa using hbuffer) file rfl ⟨by simpa using hopen, bytesWritten,
              hwrite, by omega⟩
          simp [writeDataToFile, hbuffer, hopen, hwrite, hn, hshort]

/-- All the bytes go into one `write` exactly if there are a buffer and a file that takes them. -/
theorem fileWritten_mem_iff {pFilename : Option OutputFile} {pDataBuffer : Bool} {n : Nat}
    (hn : n ≠ 0) (m : Mem Block) :
    ToolCall.fileWritten n ∈ ((writeDataToFile pFilename pDataBuffer n).run m).log.calls ↔
      pDataBuffer = true ∧ ∃ file ∈ pFilename, file.Takes n := by
  constructor
  · intro hmem
    by_contra hno
    refine (writeDataToFile_failed hn (fun hbuffer file hfile htakes => ?_) m).2 hmem
    exact hno ⟨hbuffer, file, hfile, htakes⟩
  · intro hyes
    obtain ⟨rfl, file, hfile, htakes⟩ := hyes
    rw [Option.mem_def] at hfile
    rw [hfile, (writeDataToFile_taken hn htakes m).2]
    exact List.mem_singleton_self _

theorem within_writeDataToFile {P : Event ToolCall Block → Prop} (pFilename : Option OutputFile)
    (pDataBuffer : Bool) (n : Nat) (hread : P (.read .outBuffer 0 n))
    (hcall : ∀ k, P (.call (.fileWritten k))) :
    Within P (writeDataToFile pFilename pDataBuffer n) := by
  refine .returned (.bind (by simp) fun file => .bind (by simp) fun _ => ?_)
  refine .bind (by simp) fun _ => .bind (by simp) fun _ => .bind (by simp [hread]) fun _ => ?_
  refine .bind (by simp) fun _ => .bind (by simp [hcall]) fun _ => .bind (by simp) fun _ => ?_
  exact within_pure _

/-- `write_data_to_file` does not call the library. -/
theorem library_notMem_writeDataToFile (pFilename : Option OutputFile) (pDataBuffer : Bool)
    (n : Nat) (m : Mem Block) (op : Operation) (o : Outcome) :
    ToolCall.library op o ∉ ((writeDataToFile pFilename pDataBuffer n).run m).log.calls := by
  have hin : Within (fun e => e ≠ .call (.library op o))
      (writeDataToFile pFilename pDataBuffer n) :=
    within_writeDataToFile pFilename pDataBuffer n (by simp) (by simp)
  rw [Log.mem_calls]
  exact fun hmem => hin m _ hmem rfl

end Txei.SecTool

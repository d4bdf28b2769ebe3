import Txei.SecTool.Files

/-!
# The output parameters of `read_data_from_file`

`SecTool.readDataFromFile` says what a caller whose pointer is null sees of this function of
`misc_utils.c`. Here the two objects behind its output parameters hold whatever they held before,
and the calls that open, close, allocate and free are part of the log. The function frees what the
pointer holds whenever it fails, and a size is compared with itself after it has been cut to 32
bits; `readExact_iff` says what follows, and `value_readDataFromFile` that both models agree.
-/

namespace Txei.MiscUtils

open Machine Machine.Prog SecTool

/-- The calls that acquire and release the descriptor and the buffer. -/
inductive FileCall where
  | opened (fd : Int)
  | closed (fd : Int)
  | allocated (address : UInt64) (n : Nat)
  | freed (address : UInt64)
  deriving DecidableEq, Repr

/-- The memory that `calloc` returns. -/
inductive Block where
  | buffer
  deriving DecidableEq, Repr

/-- A file with its length, an `off_t`. -/
structure File where
  length : Nat
  contents : Nat → UInt8

/-- What the operating system answers: the results of `open`, `fstat` and `calloc`, and the number
of bytes that `read` is ready to transfer, which is still subject to the size asked for and to the
length of the file. -/
structure Answers where
  openFd : Int
  fstat : Int
  calloc : UInt64
  read : Option Nat
  deriving DecidableEq, Repr

/-- The objects that `pDataBuffer` and `pDataSizeInBytes` point to. -/
structure Outputs where
  dataBuffer : UInt64
  dataSizeInBytes : Nat
  deriving DecidableEq, Repr

/-- The parameters. The two output parameters are given by whether they are non-null. -/
structure Args where
  pFilename : Option File
  pDataBuffer : Bool
  pDataSizeInBytes : Bool

variable {ε : Type}

/-- The lines behind the label `GET_DATA_FROM_FILE_EXIT`. -/
def leave (result inputFileHandle : Int) (out : Outputs) :
    Prog FileCall Block ε (Int × Outputs) := do
  onlyIf (0 ≤ inputFileHandle) (call (.closed inputFileHandle))
  if result ≠ exitSuccess then do
    let out := { out with dataSizeInBytes := 0 }
    onlyIf (out.dataBuffer ≠ 0) (call (.freed out.dataBuffer))
    pure (result, { out with dataBuffer := 0 })
  else pure (result, out)

/-- `read_data_from_file` from the allocated buffer on. -/
def readContents (os : Answers) (file : File) (out : Outputs) :
    Prog FileCall Block ε (Int × Outputs) := do
  memset .buffer 0 0 out.dataSizeInBytes
  match os.read with
  | none => leave exitFailure os.openFd out
  | some k => do
      let bytesRead := min k (min out.dataSizeInBytes file.length)
      put .buffer 0 bytesRead file.contents
      leave (if bytesRead ≠ out.dataSizeInBytes then exitFailure else exitSuccess) os.openFd out

/-- `read_data_from_file` behind its parameter checks. -/
def readOpened (os : Answers) (file : File) (out : Outputs) :
    Prog FileCall Block ε (Int × Outputs) :=
  if os.openFd < 0 then leave exitFailure os.openFd out
  else do
    call (.opened os.openFd)
    if os.fstat < 0 then leave exitFailure os.openFd out
    else if file.length = 0 then leave exitFailure os.openFd out
    else do
      let out := { out with dataSizeInBytes := wrap32 file.length }
      let out := { out with dataBuffer := os.calloc }
      if out.dataBuffer = 0 then leave exitFailure os.openFd out
      else do
        call (.allocated out.dataBuffer out.dataSizeInBytes)
        readContents os file out

/-- `read_data_from_file`. -/
def readDataFromFile (os : Answers) (a : Args) (out : Outputs) :
    Prog FileCall Block ε (Int × Outputs) :=
  match a.pFilename with
  | none => pure (exitFailure, out)
  | some file =>
      if a.pDataBuffer = false then pure (exitFailure, out)
      else if a.pDataSizeInBytes = false then pure (exitFailure, out)
      else readOpened os file out

/-! ## The outcomes -/

section Outcomes

variable (os : Answers) (file : File)

/-- The function gives up before it has set the pointer. -/
def FailsEarly : Prop := os.openFd < 0 ∨ os.fstat < 0 ∨ file.length = 0

/-- The file is opened, and there is memory for what is left of its size. -/
structure Allocates : Prop where
  opens : 0 ≤ os.openFd
  fstat : 0 ≤ os.fstat
  length : file.length ≠ 0
  calloc : os.calloc ≠ 0

/-- `read` transfers as many bytes as it is asked for. -/
def ReadsAll : Prop := ∃ k ∈ os.read, wrap32 file.length ≤ k

/-- The log frees an address only if it has allocated it. -/
def FreesOwn (l : Log FileCall Block) : Prop :=
  ∀ address, .call (.freed address) ∈ l → ∃ n, .call (.allocated address n) ∈ l

/-- The log of a failure at the label. -/
def leaveLog (fd : Int) (out : Outputs) : Log FileCall Block :=
  (if 0 ≤ fd then [.call (.closed fd)] else []) ++
    if out.dataBuffer ≠ 0 then [.call (.freed out.dataBuffer)] else []

variable {os file} (out : Outputs) (m : Mem Block)

theorem not_failsEarly_iff :
    ¬ FailsEarly os file ↔ 0 ≤ os.openFd ∧ 0 ≤ os.fstat ∧ file.length ≠ 0 := by
  unfold FailsEarly
  omega

theorem mem_freed_leaveLog (fd : Int) (address : UInt64) :
    .call (.freed address) ∈ leaveLog fd out ↔ out.dataBuffer ≠ 0 ∧ address = out.dataBuffer := by
  by_cases hfd : 0 ≤ fd
  · by_cases hbuffer : out.dataBuffer = 0
    · simp [leaveLog, hfd, hbuffer]
    · simp [leaveLog, hfd, hbuffer]
  · by_cases hbuffer : out.dataBuffer = 0
    · simp [leaveLog, hfd, hbuffer]
    · simp [leaveLog, hfd, hbuffer]

theorem run_leave_failure (fd : Int) :
    (leave exitFailure fd out : Prog FileCall Block ε _).run m =
      ⟨.ok (exitFailure, ⟨0, 0⟩), m, leaveLog fd out⟩ := by
  by_cases hfd : 0 ≤ fd
  · by_cases hbuffer : out.dataBuffer = 0
    · simp [leave, leaveLog, hfd, hbuffer, Run.prepend]
    · simp [leave, leaveLog, hfd, hbuffer, Run.prepend]
  · by_cases hbuffer : out.dataBuffer = 0
    · simp [leave, leaveLog, hfd, hbuffer, Run.prepend]
    · simp [leave, leaveLog, hfd, hbuffer, Run.prepend]

theorem run_leave_success {fd : Int} (hfd : 0 ≤ fd) :
    (leave exitSuccess fd out : Prog FileCall Block ε _).run m =
      ⟨.ok (exitSuccess, out), m, [.call (.closed fd)]⟩ := by
  simp [leave, hfd, Run.prepend]

/-- The pointer is still the caller's at a failure before the allocation. -/
theorem run_readOpened_early (h : FailsEarly os file) :
    (readOpened os file out : Prog FileCall Block ε _).run m =
      ⟨.ok (exitFailure, ⟨0, 0⟩), m, (if 0 ≤ os.openFd then [.call (.opened os.openFd)] else []) ++
        leaveLog os.openFd out⟩ := by
  unfold readOpened
  by_cases hopen : os.openFd < 0
  · rw [if_pos hopen, if_neg (Int.not_le.mpr hopen), run_leave_failure, List.nil_append]
  · have hlate : os.fstat < 0 ∨ file.length = 0 := h.resolve_left hopen
    rw [if_neg hopen, if_pos (Int.not_lt.mp hopen), run_bind, run_call, Run.andThen_ok]
    by_cases hfstat : os.fstat < 0
    · rw [if_pos hfstat, run_leave_failure]
      rfl
    · rw [if_neg hfstat, if_pos (hlate.resolve_left hfstat), run_leave_failure]
      rfl

theorem run_readOpened_unallocated (hopen : 0 ≤ os.openFd) (hfstat : 0 ≤ os.fstat)
    (hlength : file.length ≠ 0) (hcalloc : os.calloc = 0) :
    (readOpened os file out : Prog FileCall Block ε _).run m =
      ⟨.ok (exitFailure, ⟨0, 0⟩), m,
        .call (.opened os.openFd) :: leaveLog os.openFd ⟨0, wrap32 file.length⟩⟩ := by
  unfold readOpened
  rw [if_neg (Int.not_lt.mpr hopen), run_bind, run_call, Run.andThen_ok,
    if_neg (Int.not_lt.mpr hfstat), if_neg hlength]
  simp only [hcalloc, if_true, run_leave_failure]
  rfl

theorem run_readOpened_allocated (h : Allocates os file) :
    (readOpened os file out : Prog FileCall Block ε _).run m =
      ((readContents os file ⟨os.calloc, wrap32 file.length⟩).run m).prepend
        [.call (.opened os.openFd), .call (.allocated os.calloc (wrap32 file.length))] := by
  obtain ⟨hopen, hfstat, hlength, hcalloc⟩ := h
  unfold readOpened
  rw [if_neg (Int.not_lt.mpr hopen), run_bind, run_call, Run.andThen_ok,
    if_neg (Int.not_lt.mpr hfstat), if_neg hlength]
  simp only [hcalloc, if_false, run_bind, run_call, Run.andThen_ok, Run.prepend_prepend]
  rfl

/-- A transfer that is not complete is a failure, and frees the buffer. -/
theorem run_readContents_short (hread : ¬ ReadsAll os file) :
    ∃ m' l, (readContents os file ⟨os.calloc, wrap32 file.length⟩ : Prog FileCall Block ε _).run m =
        ⟨.ok (exitFailure, ⟨0, 0⟩), m', l ++ leaveLog os.openFd ⟨os.calloc, wrap32 file.length⟩⟩ ∧
      ∀ address, .call (.freed address) ∉ l := by
  unfold readContents
  rw [run_bind, run_memset, Run.andThen_ok]
  cases hanswer : os.read with
  | none =>
      simp only [run_leave_failure]
      exact ⟨_, [.write .buffer 0 (wrap32 file.length)], rfl, by simp⟩
  | some k =>
      have hshort : min k (min (wrap32 file.length) file.length) ≠ wrap32 file.length := by
        intro hall
        exact hread ⟨k, hanswer, by omega⟩
      simp only [if_pos hshort, run_bind, run_put, Run.andThen_ok, run_leave_failure]
      exact ⟨_, [.write .buffer 0 (wrap32 file.length),
        .write .buffer 0 (min k (min (wrap32 file.length) file.length))], rfl, by simp⟩

/-- A complete one is all that the function asks for. -/
theorem run_readContents_all (hopen : 0 ≤ os.openFd) (hread : ReadsAll os file) :
    ∃ m' l, (readContents os file ⟨os.calloc, wrap32 file.length⟩ : Prog FileCall Block ε _).run m =
        ⟨.ok (exitSuccess, ⟨os.calloc, wrap32 file.length⟩), m', l⟩ ∧
      ∀ i < wrap32 file.length, m' .buffer i = file.contents i := by
  obtain ⟨k, hanswer, hk⟩ := hread
  have hall : min k (min (wrap32 file.length) file.length) = wrap32 file.length := by
    have hle : wrap32 file.length ≤ file.length := Nat.mod_le _ _
    omega
  rw [Option.mem_def] at hanswer
  unfold readContents
  simp only [hanswer, hall, ne_eq, not_true_eq_false, if_false, run_bind, run_memset, run_put,
    run_leave_success _ _ hopen, Run.andThen_ok, Run.prepend]
  refine ⟨_, _, rfl, fun i hi => ?_⟩
  exact Mem.write_inside _ Block.buffer 0 (wrap32 file.length) file.contents i (by omega)

end Outcomes

/-! ## When the outputs are right -/

theorem exitFailure_ne_exitSuccess : exitFailure ≠ exitSuccess := by decide

section Exact

variable (os : Answers) (a : Args) (out : Outputs) (m : Mem Block)

/-- The run of `read_data_from_file`. -/
def readRun : Run FileCall Block (Int × Outputs) (Int × Outputs) :=
  (readDataFromFile os a out).run m

/-- A success hands out the length of the file and a buffer that holds its contents; a failure
behind the parameter checks hands out neither, and frees nothing but what it has allocated. -/
structure ReadExact : Prop where
  success : (readRun os a out m).value.1 = exitSuccess → ∃ file ∈ a.pFilename,
    (readRun os a out m).value.2 = ⟨os.calloc, file.length⟩ ∧
      .call (.allocated os.calloc file.length) ∈ (readRun os a out m).log ∧
      ∀ i < file.length, (readRun os a out m).mem .buffer i = file.contents i
  failure : a.pFilename.isSome → a.pDataBuffer = true → a.pDataSizeInBytes = true →
    (readRun os a out m).value.1 = exitFailure →
      (readRun os a out m).value.2 = ⟨0, 0⟩ ∧ FreesOwn (readRun os a out m).log

variable {os a out m} {file : File}

/-- The three pointers are not null. -/
structure Args.Checked (a : Args) (file : File) : Prop where
  filename : a.pFilename = some file
  dataBuffer : a.pDataBuffer = true
  dataSizeInBytes : a.pDataSizeInBytes = true

theorem Args.Checked.readRun_eq (ha : a.Checked file) :
    readRun os a out m = (readOpened os file out).run m := by
  obtain ⟨hname, hbuffer, hsize⟩ := ha
  simp [readRun, readDataFromFile, hname, hbuffer, hsize]

/-- A null pointer is an error before anything is done. -/
theorem readExact_unchecked (ha : ∀ file, ¬ a.Checked file) : ReadExact os a out m := by
  have hvalue : (readRun os a out m).value = (exitFailure, out) := by
    unfold readRun readDataFromFile
    cases hname : a.pFilename with
    | none => rfl
    | some file =>
        by_cases hbuffer : a.pDataBuffer = false
        · simp [hbuffer]
        by_cases hsize : a.pDataSizeInBytes = false
        · simp [hbuffer, hsize]
        exact absurd ⟨hname, by simpa using hbuffer, by simpa using hsize⟩ (ha file)
  refine ⟨fun hzero => ?_, fun hname hbuffer hsize _ => ?_⟩
  · rw [hvalue] at hzero
    exact absurd hzero exitFailure_ne_exitSuccess
  · obtain ⟨file, hfile⟩ := Option.isSome_iff_exists.mp hname
    exact absurd ⟨hfile, hbuffer, hsize⟩ (ha file)

theorem readExact_failure (ha : a.Checked file)
    (hvalue : (readRun os a out m).value = (exitFailure, ⟨0, 0⟩)) :
    ReadExact os a out m ↔ FreesOwn (readRun os a out m).log := by
  constructor
  · intro hexact
    exact (hexact.failure (by rw [ha.filename]; rfl) ha.dataBuffer ha.dataSizeInBytes
      (congrArg Prod.fst hvalue)).2
  · intro hown
    refine ⟨fun hzero => ?_, fun _ _ _ _ => ⟨congrArg Prod.snd hvalue, hown⟩⟩
    rw [hvalue] at hzero
    exact absurd hzero exitFailure_ne_exitSuccess

/-- Every outcome but one is a failure that leaves a null pointer and no size. -/
theorem value_readRun_failure (ha : a.Checked file) (h : ¬ (Allocates os file ∧ ReadsAll os file)) :
    (readRun os a out m).value = (exitFailure, ⟨0, 0⟩) := by
  rw [ha.readRun_eq]
  by_cases hearly : FailsEarly os file
  · rw [run_readOpened_early out m hearly, Run.value_ok]
  obtain ⟨hopen, hfstat, hlength⟩ := not_failsEarly_iff.mp hearly
  by_cases hcalloc : os.calloc = 0
  · rw [run_readOpened_unallocated out m hopen hfstat hlength hcalloc, Run.value_ok]
  · have hall : Allocates os file := ⟨hopen, hfstat, hlength, hcalloc⟩
    obtain ⟨m', l, hcontents, -⟩ :=
      run_readContents_short (ε := Int × Outputs) m fun hread => h ⟨hall, hread⟩
    rw [run_readOpened_allocated out m hall, hcontents, Run.value_prepend, Run.value_ok]

theorem value_readRun_success (ha : a.Checked file) (h : Allocates os file)
    (hread : ReadsAll os file) :
    (readRun os a out m).value = (exitSuccess, ⟨os.calloc, wrap32 file.length⟩) := by
  obtain ⟨m', l, hcontents, -⟩ := run_readContents_all (ε := Int × Outputs) m h.opens hread
  rw [ha.readRun_eq, run_readOpened_allocated out m h, hcontents, Run.value_prepend, Run.value_ok]

/-- Nothing has been allocated at an early failure, so nothing may be freed. -/
theorem readExact_early (ha : a.Checked file) (h : FailsEarly os file) :
    ReadExact os a out m ↔ out.dataBuffer = 0 := by
  have hrun : readRun os a out m = _ := ha.readRun_eq.trans (run_readOpened_early out m h)
  have hfails : ¬ Allocates os file := fun hall =>
    not_failsEarly_iff.mpr ⟨hall.opens, hall.fstat, hall.length⟩ h
  rw [readExact_failure ha (value_readRun_failure ha fun hall => hfails hall.1), hrun]
  constructor
  · intro hown
    by_contra hbuffer
    obtain ⟨n, hmem⟩ := hown out.dataBuffer
      (List.mem_append_right _ ((mem_freed_leaveLog out os.openFd _).mpr ⟨hbuffer, rfl⟩))
    simp [leaveLog] at hmem
  · intro hbuffer address hmem
    rcases List.mem_append.mp hmem with hbefore | hleave
    · grind
    · exact absurd hbuffer ((mem_freed_leaveLog out os.openFd address).mp hleave).1

theorem readExact_unallocated (ha : a.Checked file) (hopen : 0 ≤ os.openFd) (hfstat : 0 ≤ os.fstat)
    (hlength : file.length ≠ 0) (hcalloc : os.calloc = 0) : ReadExact os a out m := by
  have hrun : readRun os a out m = _ :=
    ha.readRun_eq.trans (run_readOpened_unallocated out m hopen hfstat hlength hcalloc)
  rw [readExact_failure ha (value_readRun_failure ha fun hall => hall.1.calloc hcalloc), hrun]
  intro address hmem
  rcases List.mem_cons.mp hmem with hopened | hleave
  · cases hopened
  · exact absurd rfl ((mem_freed_leaveLog _ os.openFd address).mp hleave).1

theorem readExact_short (ha : a.Checked file) (h : Allocates os file) (hread : ¬ ReadsAll os file) :
    ReadExact os a out m := by
  obtain ⟨m', l, hcontents, hfreed⟩ := run_readContents_short (ε := Int × Outputs) m hread
  have hrun : readRun os a out m = _ := ha.readRun_eq.trans (run_readOpened_allocated out m h)
  rw [hcontents] at hrun
  rw [readExact_failure ha (value_readRun_failure ha fun hall => hread hall.2), hrun]
  intro address hmem
  rcases List.mem_append.mp hmem with hbefore | hmem
  · simp at hbefore
  rcases List.mem_append.mp hmem with hbefore | hleave
  · exact absurd hbefore (hfreed address)
  · rw [((mem_freed_leaveLog _ os.openFd address).mp hleave).2]
    exact ⟨wrap32 file.length, by simp⟩

/-- The size that is handed out is that of the file unless it has been cut. -/
theorem readExact_read (ha : a.Checked file) (h : Allocates os file) (hread : ReadsAll os file) :
    ReadExact os a out m ↔ file.length < 2 ^ 32 := by
  obtain ⟨m', l, hcontents, hbytes⟩ := run_readContents_all (ε := Int × Outputs) m h.opens hread
  have hrun : readRun os a out m = _ := ha.readRun_eq.trans (run_readOpened_allocated out m h)
  rw [hcontents] at hrun
  have hvalue : (readRun os a out m).value = _ := value_readRun_success ha h hread
  constructor
  · intro hexact
    obtain ⟨file', hfile, hout, -⟩ := hexact.success (congrArg Prod.fst hvalue)
    rw [ha.filename, Option.mem_some_iff] at hfile
    rw [hvalue, ← hfile] at hout
    have hsize : wrap32 file.length = file.length := congrArg Outputs.dataSizeInBytes hout
    rw [← hsize]
    exact Nat.mod_lt _ (by decide)
  · intro hlt
    rw [wrap32_of_lt hlt] at hvalue hbytes hrun
    refine ⟨fun _ => ⟨file, ha.filename, congrArg Prod.snd hvalue, ?_, ?_⟩, fun _ _ _ hfail => ?_⟩
    · rw [hrun]
      simp
    · rw [hrun]
      exact hbytes
    · rw [hvalue] at hfail
      exact absurd hfail exitFailure_ne_exitSuccess.symm

/-! ## What the caller sees -/

/-- The answers as a caller whose pointer is null sees them. -/
def Answers.inputFile (os : Answers) (file : File) : InputFile where
  opens := decide (0 ≤ os.openFd)
  fstat := if os.fstat < 0 then none else some file.length
  calloc := decide (os.calloc ≠ 0)
  read := os.read.map fun k => (List.range (min k file.length)).map file.contents

theorem fills_inputFile_iff {n : Nat} :
    (os.inputFile file).Fills n ↔
      Allocates os file ∧ ReadsAll os file ∧ wrap32 file.length = n := by
  have hle : wrap32 file.length ≤ file.length := Nat.mod_le _ _
  constructor
  · intro h
    obtain ⟨hopen, hcalloc, stSize, hstat, hlength, rfl, bytes, hread, hlong⟩ := h
    simp only [Answers.inputFile, Option.mem_def, Option.ite_none_left_eq_some,
      Option.some.injEq] at hstat
    obtain ⟨hfstat, rfl⟩ := hstat
    simp only [Answers.inputFile, Option.mem_def, Option.map_eq_some_iff] at hread
    obtain ⟨k, hk, rfl⟩ := hread
    rw [List.length_map, List.length_range] at hlong
    exact ⟨⟨of_decide_eq_true hopen, Int.not_lt.mp hfstat, hlength, of_decide_eq_true hcalloc⟩,
      ⟨k, hk, by omega⟩, rfl⟩
  · intro h
    obtain ⟨⟨hopen, hfstat, hlength, hcalloc⟩, ⟨k, hk, hall⟩, rfl⟩ := h
    refine ⟨decide_eq_true hopen, decide_eq_true hcalloc, file.length, ?_, hlength, rfl,
      (List.range (min k file.length)).map file.contents, ?_, ?_⟩
    · simp [Answers.inputFile, Int.not_lt.mpr hfstat]
    · rw [Option.mem_def] at hk
      simp [Answers.inputFile, hk]
    · rw [List.length_map, List.length_range]
      omega

/-- Behind the parameter checks, the result, whether there is a buffer and its size are those of
`SecTool.readDataFromFile`. -/
theorem value_readDataFromFile (ha : a.Checked file) (m' : Mem Acd.Block) :
    ((SecTool.readDataFromFile (some (os.inputFile file))).run m').result =
      .ok ⟨(readRun os a out m).value.1, decide ((readRun os a out m).value.2.dataBuffer ≠ 0),
        (readRun os a out m).value.2.dataSizeInBytes⟩ := by
  by_cases h : Allocates os file ∧ ReadsAll os file
  · have hfills := fills_inputFile_iff.mpr ⟨h.1, h.2, rfl⟩
    rw [(readDataFromFile_filled hfills m').1, value_readRun_success ha h.1 h.2,
      decide_eq_true h.1.calloc]
  · rw [value_readRun_failure ha h]
    refine readDataFromFile_failed (fun file' hfile' n hfills => h ?_) m'
    rw [← Option.some.inj hfile'] at hfills
    obtain ⟨hall, hread, -⟩ := fills_inputFile_iff.mp hfills
    exact ⟨hall, hread⟩

/-! ## The exact condition -/

variable (os a out m)

/-- The outputs are right exactly if the pointer is null wherever the function fails before it has
set it, and a file that is read is shorter than 2^32. -/
theorem readExact_iff :
    ReadExact os a out m ↔ ∀ file, a.Checked file →
      (FailsEarly os file → out.dataBuffer = 0) ∧
        (Allocates os file → ReadsAll os file → file.length < 2 ^ 32) := by
  by_cases hchecked : ∃ file, a.Checked file
  · obtain ⟨file, ha⟩ := hchecked
    have hsame : ∀ file', a.Checked file' → file' = file := fun file' ha' =>
      Option.some.inj (ha'.filename.symm.trans ha.filename)
    constructor
    · intro hexact file' ha'
      exact ⟨fun h => (readExact_early ha' h).mp hexact,
        fun h hread => (readExact_read ha' h hread).mp hexact⟩
    · intro hcond
      obtain ⟨hearly, hread⟩ := hcond file ha
      by_cases h : FailsEarly os file
      · exact (readExact_early ha h).mpr (hearly h)
      · obtain ⟨hopen, hfstat, hlength⟩ := not_failsEarly_iff.mp h
        by_cases hcalloc : os.calloc = 0
        · exact readExact_unallocated ha hopen hfstat hlength hcalloc
        · have hall : Allocates os file := ⟨hopen, hfstat, hlength, hcalloc⟩
          by_cases hr : ReadsAll os file
          · exact (readExact_read ha hall hr).mpr (hread hall hr)
          · exact readExact_short ha hall hr
  · exact iff_of_true (readExact_unchecked fun file ha => hchecked ⟨file, ha⟩)
      fun file ha => absurd ⟨file, ha⟩ hchecked

end Exact

/-- A file of 2^32 + 4 bytes. -/
def longFile : File := ⟨2 ^ 32 + 4, fun _ => 1⟩

/-- Everything succeeds, and `read` is ready to transfer four bytes. -/
def fourBytes : Answers := ⟨3, 0, 4096, some 4⟩

/-- The file does not exist. -/
def noFile : Answers := ⟨-1, 0, 0, none⟩

/-- Four bytes are handed out as the whole of a file that is longer, and a buffer of the caller is
freed when the file does not exist. -/
theorem read_not_exact :
    (readRun fourBytes ⟨some longFile, true, true⟩ ⟨0, 0⟩ fun _ _ => 0).value =
        (exitSuccess, ⟨4096, 4⟩) ∧
      ¬ ReadExact fourBytes ⟨some longFile, true, true⟩ ⟨0, 0⟩ (fun _ _ => 0) ∧
      .call (.freed 8192) ∈
        (readRun noFile ⟨some longFile, true, true⟩ ⟨8192, 0⟩ fun _ _ => 0).log ∧
      ¬ ReadExact noFile ⟨some longFile, true, true⟩ ⟨8192, 0⟩ (fun _ _ => 0) := by
  have hchecked : Args.Checked ⟨some longFile, true, true⟩ longFile := ⟨rfl, rfl, rfl⟩
  refine ⟨by decide, fun hexact => ?_, by decide, fun hexact => ?_⟩
  · have hlt := (readExact_read hchecked ⟨by decide, by decide, by decide, by decide⟩
      ⟨4, rfl, by decide⟩).mp hexact
    exact absurd hlt (by decide)
  · have hnull := (readExact_early hchecked (.inl (by decide))).mp hexact
    exact absurd hnull (by decide)

end Txei.MiscUtils

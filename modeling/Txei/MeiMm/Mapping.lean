import Txei.MeiMm.Resources

/-!
# The mapping of an allocated buffer

`ptr`, `size` and `fd` of a `struct meimm` keep their values when a call fails, frees the memory or
gives the structure up; only `status` says whether they count. `backed_run` says that it can be
relied on: whenever it is `MEI_MM_STATUS_ALLOCATED`, the descriptor is open and the memory that
`meimm_get_addr`, `meimm_get_size` and `meimm_memcpy` work on is mapped. `allocReported_iff` says
for which outcomes of the system calls `meimm_alloc_map_memory` returns what the status tells.
-/

namespace Txei.MeiMm

open Machine Machine.Prog

/-- The descriptor is open, and `ptr` is the address of a mapping of `size` bytes: they were opened
and mapped successfully, and nothing has been closed or unmapped since. `l` are the system calls so
far. -/
structure Mapped (mm : Meimm) (l : List (Entry Resource)) : Prop where
  descriptor : 0 ≤ mm.fd ∧ Unreleased (.descriptor mm.fd) l
  mapping : mm.ptr ≠ mapFailed ∧ Unreleased (.mapping mm.ptr mm.size) l

/-- The status tells the truth. -/
def Backed (mm : Meimm) (l : List (Entry Resource)) : Prop :=
  mm.status = meiMmStatusAllocated → Mapped mm l

section Step

variable {mm : Meimm} {l : List (Entry Resource)}

theorem backed_of_status (h : mm.status ≠ meiMmStatusAllocated) : Backed mm l :=
  fun hs => absurd hs h

/-- A call that leaves the structure as it is and makes no system call. -/
theorem Backed.idle (h : Backed mm l) {c : Call} (hstep : step mm c = mm)
    (hentries : entries mm c = []) : Backed (step mm c) (l ++ entries mm c) := by
  rw [hstep, hentries, List.append_nil]
  exact h

theorem backed_allocMapMemory (mm : Meimm) (l : List (Entry Resource)) (m : Mem Block)
    (size : UInt64) (os : AllocAnswers) :
    Backed (step mm ⟨.allocMapMemory size os, m⟩)
      (l ++ entries mm ⟨.allocMapMemory size os, m⟩) := by
  obtain ⟨ret, mm', hres, hcases⟩ := run_meimmAllocMapMemory (ε := Meimm) mm m size os
  obtain ⟨hstep, hentries⟩ := step_allocMapMemory_eq mm m hres
  rw [hstep, hentries]
  rcases hcases with ⟨-, hs, -⟩ | ⟨hfd, -, hptr, hlog⟩
  · exact backed_of_status hs
  · intro _
    have hledger : ledger resourceEntry ((meimmAllocMapMemory mm size os :
        Prog MmCall Block Meimm (Int × Meimm)).run m).log =
          [.acquire (.descriptor mm'.fd), .acquire (.mapping mm'.ptr mm'.size)] := by
      rw [hlog]
      rfl
    rw [hledger]
    exact ⟨⟨hfd, unreleased_of_mem (by simp) (by simp)⟩,
      ⟨hptr, unreleased_of_mem (by simp) (by simp)⟩⟩

/-- Every call leaves a status that tells the truth. -/
theorem backed_step (h : Backed mm l) (c : Call) :
    Backed (step mm c) (l ++ entries mm c) := by
  obtain ⟨op, m⟩ := c
  cases op with
  | init verbose => exact backed_of_status init_ne_allocated
  | allocMapMemory size os => exact backed_allocMapMemory mm l m size os
  | freeMemory os =>
      by_cases hmapped : mm.status = meiMmStatusAllocated ∧ mm.ptr ≠ 0
      · -- the status goes whether or not the memory could be unmapped
        obtain ⟨ret, mm', hres, hcases⟩ := run_meimmFreeMemory (ε := Meimm) mm m os
        rw [if_pos hmapped] at hcases
        rw [(step_freeMemory_eq mm m hres).1, hcases.1]
        exact backed_of_status init_ne_allocated
      · obtain ⟨hstep, hentries⟩ := (step_freeMemory mm m os).2 hmapped
        exact h.idle hstep hentries
  | memcpy offset len =>
      obtain ⟨hstep, hentries⟩ := step_memcpy mm m offset len
      exact h.idle hstep hentries
  | deinit =>
      have hstep : step mm ⟨.deinit, m⟩ = { mm with fd := -1, status := 0 } := by
        simp only [step, Op.prog, run_meimmDeinit, Run.value_ok]
      rw [hstep]
      exact backed_of_status zero_ne_allocated

end Step

/-- After every sequence of calls that starts with `meimm_init`, a structure whose status is
`MEI_MM_STATUS_ALLOCATED` has an open descriptor and a mapping of `size` bytes at `ptr`. -/
theorem backed_run (mm : Meimm) (verbose : Bool) (calls : List Call) :
    Backed (after step (meimmInit mm verbose) calls)
      (entriesOf step entries (meimmInit mm verbose) calls) :=
  entriesOf_invariant step entries (I := Backed) (backed_of_status init_ne_allocated)
    (fun _ _ c h => backed_step h c) calls

/-! ## What `meimm_alloc_map_memory` returns -/

/-- `open`, `ioctl` and `mmap` succeed. -/
def AllocAnswers.Succeeds (os : AllocAnswers) : Prop :=
  os.openFd ≠ none ∧ os.ioctl = 0 ∧ os.mmap ≠ mapFailed

/-- The structure has the new mapping. -/
structure NewMapping (size : UInt64) (os : AllocAnswers) (mm : Meimm) : Prop where
  status : mm.status = meiMmStatusAllocated
  fd : ∃ fd : Nat, os.openFd = some fd ∧ mm.fd = fd
  ptr : mm.ptr = os.mmap
  size : mm.size = os.dataSize size

/-- The value that is returned, and the structure as it is left. -/
def allocated (mm : Meimm) (size : UInt64) (os : AllocAnswers) (m : Mem Block) : Int × Meimm :=
  ((meimmAllocMapMemory mm size os : Prog MmCall Block (Int × Meimm) (Int × Meimm)).run m).value

/-- The value is 0 exactly if everything succeeded and the structure has the new mapping, and
otherwise an error, with a structure that holds nothing. -/
structure AllocReported (mm : Meimm) (size : UInt64) (os : AllocAnswers) (m : Mem Block) :
    Prop where
  success : (allocated mm size os m).1 = 0 ↔
    os.Succeeds ∧ NewMapping size os (allocated mm size os m).2
  failure : ¬ (os.Succeeds ∧ NewMapping size os (allocated mm size os m).2) →
    (allocated mm size os m).1 ≠ 0 ∧ (allocated mm size os m).2.fd = -1 ∧
      (allocated mm size os m).2.status = 0

/-- A failure that comes with the status 0 is not reported. -/
theorem allocReported_of_failed {mm mm' : Meimm} {size : UInt64} {os : AllocAnswers}
    {m : Mem Block} {ret : Int} (h : ¬ os.Succeeds)
    (hrun : allocated mm size os m = (ret, mm')) (hfd : mm'.fd = -1) (hstatus : mm'.status = 0) :
    AllocReported mm size os m ↔ ret ≠ 0 := by
  constructor
  · intro hreported hzero
    have hvalue : (allocated mm size os m).1 = 0 := (congrArg Prod.fst hrun).trans hzero
    exact h (hreported.success.mp hvalue).1
  · intro hne
    refine ⟨?_, fun _ => ?_⟩
    · rw [hrun]
      exact iff_of_false hne fun hno => h hno.1
    · rw [hrun]
      exact ⟨hne, hfd, hstatus⟩

/-- `meimm_alloc_map_memory` reports what it did exactly if `errno` is not 0 behind a failure of
`open` or `ioctl`, and `mmap`, whose failure goes with the 0 of the `ioctl`, does not fail. -/
theorem allocReported_iff (mm : Meimm) (size : UInt64) (os : AllocAnswers) (m : Mem Block) :
    AllocReported mm size os m ↔
      (os.openFd = none → os.openErrno ≠ 0) ∧
        (os.openFd ≠ none → os.ioctl ≠ 0 → os.ioctlErrno ≠ 0) ∧
        (os.openFd ≠ none → os.ioctl = 0 → os.mmap ≠ mapFailed) := by
  cases hopen : os.openFd with
  | none =>
      have hrun : allocated mm size os m = (os.openErrno, { mm with fd := -1, status := 0 }) :=
        congrArg Run.value (run_meimmAllocMapMemory_unopened mm m size hopen)
      rw [allocReported_of_failed (fun hno => hno.1 hopen) hrun rfl rfl]
      simp
  | some fd =>
      by_cases hioctl : os.ioctl = 0
      · by_cases hmmap : os.mmap = mapFailed
        -- `ret` is still the 0 of the `ioctl`
        · have hrun : allocated mm size os m =
              (0, { mm with fd := -1, ptr := os.mmap, status := 0 }) :=
            congrArg Run.value (run_meimmAllocMapMemory_unmapped mm m size hopen hioctl hmmap)
          rw [allocReported_of_failed (fun hno => hno.2.2 hmmap) hrun rfl rfl]
          simp [hioctl, hmmap]
        · have hrun : allocated mm size os m =
              (0, ⟨fd, os.mmap, os.dataSize size, meiMmStatusAllocated, mm.verbose⟩) :=
            congrArg Run.value (run_meimmAllocMapMemory_mapped mm m size hopen hioctl hmmap)
          have hdone : os.Succeeds ∧ NewMapping size os (allocated mm size os m).2 := by
            rw [hrun]
            exact ⟨⟨by simp [hopen], hioctl, hmmap⟩, rfl, ⟨fd, hopen, rfl⟩, rfl, rfl⟩
          refine iff_of_true ⟨iff_of_true ?_ hdone, fun hno => absurd hdone hno⟩ ?_
          · rw [hrun]
          · simp [hioctl, hmmap]
      · have hrun : allocated mm size os m =
            (os.ioctlErrno, { mm with fd := -1, status := 0 }) :=
          congrArg Run.value (run_meimmAllocMapMemory_refused mm m size hopen hioctl)
        rw [allocReported_of_failed (fun hno => hioctl hno.2.1) hrun rfl rfl]
        simp [hioctl]

/-- `mmap` runs out of memory. -/
def mmapFails : AllocAnswers := ⟨some 3, 0, 0, 0, id, mapFailed⟩

/-- Then `meimm_alloc_map_memory` returns 0 with a structure that has no mapping. -/
theorem failedMmap_not_reported :
    allocated ⟨-1, 0, 0, meiMmStatusInit, false⟩ 4096 mmapFails (.ofLists fun _ => []) =
        (0, ⟨-1, mapFailed, 0, 0, false⟩) ∧
      ¬ AllocReported ⟨-1, 0, 0, meiMmStatusInit, false⟩ 4096 mmapFails
        (.ofLists fun _ => []) := by
  refine ⟨by decide, fun hreported => ?_⟩
  exact (hreported.success.mp (by decide)).1.2.2 rfl

end Txei.MeiMm

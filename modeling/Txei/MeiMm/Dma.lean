import Txei.MeiMm.Resources

/-!
# Buffers of the driver library

`mei_alloc_dma` and `mei_clear_dma` of `txei_drv.c`, which `Lib/txei_lib.c` repeats for the tools:
a `MEI_MM_DMA` from the heap owns a descriptor of the device and a mapping of its memory.
`dmaBalanced_iff` says for which outcomes of the system calls the two functions release all that
they acquire.
-/

namespace Txei.MeiMm

open Machine Machine.Prog

/-- The calls that acquire and release the structure, the descriptor and the mapping. -/
inductive DmaCall where
  | calloc (ptr : UInt64)
  | free (ptr : UInt64)
  | device (c : MmCall)
  deriving DecidableEq, Repr

/-- `MEI_MM_DATA`. -/
structure MeiMmData where
  vaddr : UInt64
  paddr : UInt64
  size : UInt64
  deriving DecidableEq, Repr

/-- `MEI_MM_DMA`, with the address `ptr` at which it is. -/
structure MeiMmDma where
  ptr : UInt64
  data : MeiMmData
  dmabuffer : UInt64
  fd : Int
  deriving DecidableEq, Repr

/-- What the operating system answers `mei_alloc_dma`: the results of `calloc` and `open`, the
result of `ioctl` and what it leaves in `data`, and the result of `mmap`. -/
structure DmaAnswers where
  calloc : UInt64
  openFd : Int
  ioctl : Int
  data : MeiMmData → MeiMmData
  mmap : UInt64

variable {β ε : Type}

/-- `mei_alloc_dma`. The size of the mapping is a `size_t`. -/
def meiAllocDma (mySize : Int64) (os : DmaAnswers) : Prog DmaCall β ε (Option MeiMmDma) :=
  if os.calloc = 0 then pure none
  else do
    call (.calloc os.calloc)
    onlyIf (0 ≤ os.openFd) (call (.device (.opened os.openFd)))
    if os.openFd ≤ 0 then do
      call (.free os.calloc)
      pure none
    else if os.ioctl ≠ 0 then do
      call (.device (.closed os.openFd))
      call (.free os.calloc)
      pure none
    else do
      onlyIf (os.mmap ≠ mapFailed) (call (.device (.mapped os.mmap mySize.toUInt64)))
      if os.mmap = 0 then do
        call (.device (.closed os.openFd))
        pure none
      else pure (some ⟨os.calloc, os.data ⟨0, 0, mySize.toUInt64⟩, os.mmap, os.openFd⟩)

/-- `mei_clear_dma`, with the structure as it is left behind its address unless it is freed. -/
def meiClearDma (myDma : Option MeiMmDma) (ioctl : Int) : Prog DmaCall β ε (Option MeiMmDma) :=
  match myDma with
  | none => pure none
  | some dma =>
      if ioctl ≠ 0 then do
        call (.device (.closed dma.fd))
        pure (some { dma with fd := 0 })
      else do
        call (.device (.closed dma.fd))
        call (.free dma.ptr)
        pure none

/-! ## What is held -/

/-- What the calls acquire and release. -/
inductive DmaResource where
  | block (ptr : UInt64)
  | device (r : Resource)
  deriving DecidableEq, Repr

/-- What a call does to the resources. -/
def dmaEntry : DmaCall → Entry DmaResource
  | .calloc ptr => .acquire (.block ptr)
  | .free ptr => .release (.block ptr)
  | .device c =>
      match resourceEntry c with
      | .acquire r => .acquire (.device r)
      | .release r => .release (.device r)

section Dma

variable (mySize : Int64) (os : DmaAnswers) (m : Mem β)

/-- The run of `mei_alloc_dma`. -/
def allocRun : Run DmaCall β (Option MeiMmDma) (Option MeiMmDma) := (meiAllocDma mySize os).run m

/-- What is held behind `mei_alloc_dma`. -/
def heldAllocated : Multiset DmaResource := held 0 (ledger dmaEntry (allocRun mySize os m).log)

/-- What is held behind `mei_clear_dma` on what `mei_alloc_dma` returns. -/
def heldCleared (ioctl : Int) : Multiset DmaResource :=
  held (heldAllocated mySize os m)
    (ledger dmaEntry ((meiClearDma (allocRun mySize os m).value ioctl :
      Prog DmaCall β Unit (Option MeiMmDma)).run (allocRun mySize os m).mem).log)

/-- `calloc`, `open`, `ioctl` and `mmap` succeed. -/
def DmaAnswers.Succeeds : Prop :=
  os.calloc ≠ 0 ∧ 0 ≤ os.openFd ∧ os.ioctl = 0 ∧ os.mmap ≠ mapFailed

/-- A structure is returned exactly if everything succeeds, with a mapping that is held, a null
pointer leaves nothing behind, and neither does `mei_clear_dma`. -/
structure DmaBalanced : Prop where
  returns : (allocRun mySize os m).value ≠ none ↔ os.Succeeds
  mapping : ∀ dma ∈ (allocRun mySize os m).value,
    .device (.mapping dma.dmabuffer mySize.toUInt64) ∈ heldAllocated mySize os m
  failure : (allocRun mySize os m).value = none → heldAllocated mySize os m = 0
  cleared : ∀ dma ∈ (allocRun mySize os m).value, ∀ ioctl, heldCleared mySize os m ioctl = 0

@[simp] theorem mapFailed_ne_zero : mapFailed ≠ 0 := by decide

/-! `mei_alloc_dma` for each of its outcomes. -/

variable {os}

theorem allocRun_unallocated (hcalloc : os.calloc = 0) :
    allocRun mySize os m = ⟨.ok none, m, []⟩ := by
  simp [allocRun, meiAllocDma, hcalloc]

/-- The descriptor 0 is taken for a failure of `open`. -/
theorem allocRun_unopened (hcalloc : os.calloc ≠ 0) (hopen : os.openFd ≤ 0) :
    allocRun mySize os m = ⟨.ok none, m, .call (.calloc os.calloc) ::
      (if 0 ≤ os.openFd then [.call (.device (.opened os.openFd))] else []) ++
        [.call (.free os.calloc)]⟩ := by
  by_cases hzero : 0 ≤ os.openFd
  · simp [allocRun, meiAllocDma, hcalloc, hopen, hzero, Run.prepend]
  · simp [allocRun, meiAllocDma, hcalloc, hopen, hzero, Run.prepend]

theorem allocRun_refused (hcalloc : os.calloc ≠ 0) (hopen : 0 < os.openFd) (hioctl : os.ioctl ≠ 0) :
    allocRun mySize os m = ⟨.ok none, m, [.call (.calloc os.calloc),
      .call (.device (.opened os.openFd)), .call (.device (.closed os.openFd)),
      .call (.free os.calloc)]⟩ := by
  have hfd : ¬ os.openFd ≤ 0 := by omega
  simp [allocRun, meiAllocDma, hcalloc, hfd, hopen.le, hioctl, Run.prepend]

theorem allocRun_null (hcalloc : os.calloc ≠ 0) (hopen : 0 < os.openFd) (hioctl : os.ioctl = 0)
    (hmmap : os.mmap = 0) :
    allocRun mySize os m = ⟨.ok none, m, [.call (.calloc os.calloc),
      .call (.device (.opened os.openFd)), .call (.device (.mapped os.mmap mySize.toUInt64)),
      .call (.device (.closed os.openFd))]⟩ := by
  have hfd : ¬ os.openFd ≤ 0 := by omega
  simp [allocRun, meiAllocDma, hcalloc, hfd, hopen.le, hioctl, hmmap, mapFailed_ne_zero.symm,
    Run.prepend]

/-- `MAP_FAILED` is not null, and is returned as the address of the buffer. -/
theorem allocRun_returned (hcalloc : os.calloc ≠ 0) (hopen : 0 < os.openFd) (hioctl : os.ioctl = 0)
    (hmmap : os.mmap ≠ 0) :
    allocRun mySize os m =
      ⟨.ok (some ⟨os.calloc, os.data ⟨0, 0, mySize.toUInt64⟩, os.mmap, os.openFd⟩), m,
        [.call (.calloc os.calloc), .call (.device (.opened os.openFd))] ++
          if os.mmap ≠ mapFailed then [.call (.device (.mapped os.mmap mySize.toUInt64))]
          else []⟩ := by
  have hfd : ¬ os.openFd ≤ 0 := by omega
  by_cases hmapped : os.mmap = mapFailed
  · simp [allocRun, meiAllocDma, hcalloc, hfd, hopen.le, hioctl, hmapped, Run.prepend]
  · simp [allocRun, meiAllocDma, hcalloc, hfd, hopen.le, hioctl, hmmap, hmapped, Run.prepend]

/-- Where a null pointer is right, it is enough that nothing is left behind. -/
theorem dmaBalanced_of_null (hfails : ¬ os.Succeeds) (hnull : (allocRun mySize os m).value = none)
    (hheld : heldAllocated mySize os m = 0) : DmaBalanced mySize os m := by
  refine ⟨iff_of_false (fun hne => hne hnull) hfails, ?_, fun _ => hheld, ?_⟩
  · rw [hnull]
    exact fun dma hdma => nomatch hdma
  · rw [hnull]
    exact fun dma hdma => nomatch hdma

theorem dmaBalanced_unallocated (hcalloc : os.calloc = 0) : DmaBalanced mySize os m := by
  have hrun := allocRun_unallocated mySize m hcalloc
  refine dmaBalanced_of_null mySize m (fun hno => hno.1 hcalloc) ?_ ?_
  · rw [hrun, Run.value_ok]
  · rw [heldAllocated, hrun]
    rfl

theorem dmaBalanced_unopened (hcalloc : os.calloc ≠ 0) (hopen : os.openFd < 0) :
    DmaBalanced mySize os m := by
  have hrun := allocRun_unopened mySize m hcalloc hopen.le
  rw [if_neg (Int.not_le.mpr hopen)] at hrun
  refine dmaBalanced_of_null mySize m (fun hno => Int.not_le.mpr hopen hno.2.1) ?_ ?_
  · rw [hrun, Run.value_ok]
  · rw [heldAllocated, hrun]
    exact balanced_pair _ 0

theorem dmaBalanced_refused (hcalloc : os.calloc ≠ 0) (hopen : 0 < os.openFd)
    (hioctl : os.ioctl ≠ 0) : DmaBalanced mySize os m := by
  have hrun := allocRun_refused mySize m hcalloc hopen hioctl
  refine dmaBalanced_of_null mySize m (fun hno => hioctl hno.2.2.1) ?_ ?_
  · rw [hrun, Run.value_ok]
  · rw [heldAllocated, hrun]
    simp [dmaEntry, resourceEntry]

/-- A null pointer is wrong where something is left behind. -/
theorem not_dmaBalanced_of_null {r : DmaResource} (hnull : (allocRun mySize os m).value = none)
    (hacquired : .acquire r ∈ ledger dmaEntry (allocRun mySize os m).log)
    (hkept : .release r ∉ ledger dmaEntry (allocRun mySize os m).log) :
    ¬ DmaBalanced mySize os m := by
  intro hbalanced
  have hmem : r ∈ heldAllocated mySize os m := mem_held_of_acquire hacquired hkept 0
  rw [hbalanced.failure hnull] at hmem
  exact Multiset.notMem_zero r hmem

theorem not_dmaBalanced_zero (hcalloc : os.calloc ≠ 0) (hopen : os.openFd = 0) :
    ¬ DmaBalanced mySize os m := by
  have hrun := allocRun_unopened mySize m hcalloc hopen.le
  refine not_dmaBalanced_of_null mySize m (r := .device (.descriptor os.openFd)) ?_ ?_ ?_
  · rw [hrun, Run.value_ok]
  · rw [hrun]
    simp [hopen, dmaEntry, resourceEntry]
  · rw [hrun]
    simp [hopen, dmaEntry, resourceEntry]

/-- A null address of the mapping is the only one taken for a failure of `mmap`, and the structure
is not freed then. -/
theorem not_dmaBalanced_null (hcalloc : os.calloc ≠ 0) (hopen : 0 < os.openFd)
    (hioctl : os.ioctl = 0) (hmmap : os.mmap = 0) : ¬ DmaBalanced mySize os m := by
  have hrun := allocRun_null mySize m hcalloc hopen hioctl hmmap
  refine not_dmaBalanced_of_null mySize m (r := .block os.calloc) ?_ ?_ ?_
  · rw [hrun, Run.value_ok]
  · rw [hrun]
    simp [dmaEntry]
  · rw [hrun]
    simp [dmaEntry, resourceEntry]

/-- `mei_clear_dma` never unmaps the buffer. -/
theorem release_mapping_notMem_clearDma (myDma : Option MeiMmDma) (ioctl : Int)
    (ptr size : UInt64) :
    .release (.device (.mapping ptr size)) ∉ ledger dmaEntry
      ((meiClearDma myDma ioctl : Prog DmaCall β ε (Option MeiMmDma)).run m).log := by
  cases myDma with
  | none => simp [meiClearDma]
  | some dma =>
      by_cases hioctl : ioctl = 0
      · simp [meiClearDma, hioctl, dmaEntry, resourceEntry]
      · simp [meiClearDma, hioctl, dmaEntry, resourceEntry]

/-- So what is returned is not released whole. -/
theorem not_dmaBalanced_returned (hcalloc : os.calloc ≠ 0) (hopen : 0 < os.openFd)
    (hioctl : os.ioctl = 0) (hmmap : os.mmap ≠ 0) : ¬ DmaBalanced mySize os m := by
  have hvalue : (allocRun mySize os m).value =
      some ⟨os.calloc, os.data ⟨0, 0, mySize.toUInt64⟩, os.mmap, os.openFd⟩ :=
    congrArg Run.value (allocRun_returned mySize m hcalloc hopen hioctl hmmap)
  intro hbalanced
  have hkept := mem_held
    (release_mapping_notMem_clearDma (ε := Unit) (allocRun mySize os m).mem
      (allocRun mySize os m).value 0 os.mmap mySize.toUInt64) (hbalanced.mapping _ hvalue)
  rw [← heldCleared, hbalanced.cleared _ hvalue 0] at hkept
  exact Multiset.notMem_zero _ hkept

variable (os)

/-- The two functions release what they acquire exactly if `calloc` or `open` fails, or if `ioctl`
fails behind a descriptor other than 0. -/
theorem dmaBalanced_iff :
    DmaBalanced mySize os m ↔
      os.calloc = 0 ∨ os.openFd < 0 ∨ 0 < os.openFd ∧ os.ioctl ≠ 0 := by
  by_cases hcalloc : os.calloc = 0
  · exact iff_of_true (dmaBalanced_unallocated mySize m hcalloc) (.inl hcalloc)
  rcases lt_trichotomy os.openFd 0 with hneg | hzero | hpos
  · exact iff_of_true (dmaBalanced_unopened mySize m hcalloc hneg) (.inr (.inl hneg))
  · refine iff_of_false (not_dmaBalanced_zero mySize m hcalloc hzero) fun hcond => ?_
    rcases hcond with hno | hno | hno
    · exact hcalloc hno
    · omega
    · omega
  · by_cases hioctl : os.ioctl = 0
    · have hcond : ¬ (os.calloc = 0 ∨ os.openFd < 0 ∨ 0 < os.openFd ∧ os.ioctl ≠ 0) := by
        simp [hcalloc, hioctl, hpos.le]
      -- a null address leaves the block behind, and any other is returned and never unmapped
      refine iff_of_false ?_ hcond
      by_cases hmmap : os.mmap = 0
      · exact not_dmaBalanced_null mySize m hcalloc hpos hioctl hmmap
      · exact not_dmaBalanced_returned mySize m hcalloc hpos hioctl hmmap
    · exact iff_of_true (dmaBalanced_refused mySize m hcalloc hpos hioctl)
        (.inr (.inr ⟨hpos, hioctl⟩))

end Dma

/-- Everything succeeds but the result of `mmap`, which is `mmap`. -/
def dmaAnswers (mmap : UInt64) : DmaAnswers := ⟨4096, 3, 0, id, mmap⟩

/-- A mapping that fails is returned as a buffer, and one that succeeds stays mapped behind
`mei_clear_dma`. -/
theorem dma_not_balanced :
    (allocRun 8192 (dmaAnswers mapFailed) (.ofLists fun _ : Block => [])).value =
        some ⟨4096, ⟨0, 0, 8192⟩, mapFailed, 3⟩ ∧
      ¬ DmaBalanced 8192 (dmaAnswers mapFailed) (.ofLists fun _ : Block => []) ∧
      heldCleared 8192 (dmaAnswers 65536) (.ofLists fun _ : Block => []) 0 =
        {.device (.mapping 65536 8192)} ∧
      ¬ DmaBalanced 8192 (dmaAnswers 65536) (.ofLists fun _ : Block => []) := by
  refine ⟨by decide, ?_, by decide, ?_⟩
  · exact not_dmaBalanced_returned _ _ (by decide) (by decide) rfl (by decide)
  · exact not_dmaBalanced_returned _ _ (by decide) (by decide) rfl (by decide)

end Txei.MeiMm

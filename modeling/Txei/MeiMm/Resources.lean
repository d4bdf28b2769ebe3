import Txei.MeiMm.Buffer
import Txei.Machine.Ledger

/-!
# Descriptors and mappings of a buffer

What a `struct meimm` refers to, its descriptor and while it is `MEI_MM_STATUS_ALLOCATED` its
mapping, is what its functions can still release. `accounts` says which calls forget something
(`Op.lost`), and `clean_iff` that a structure's life releases all it acquires, and never holds two
descriptors or two mappings, exactly when no call of it does.
-/

namespace Txei.MeiMm

open Machine Machine.Prog

/-- What the system calls acquire and release. -/
inductive Resource where
  | descriptor (fd : Int)
  | mapping (ptr size : UInt64)
  deriving DecidableEq, Repr

inductive Kind where
  | descriptor
  | mapping
  deriving DecidableEq, Repr

def Resource.kind : Resource → Kind
  | .descriptor _ => .descriptor
  | .mapping .. => .mapping

/-- What a system call does to the resources. A mapping that `munmap` was called on is given back,
whatever `munmap` reports. -/
def resourceEntry : MmCall → Entry Resource
  | .opened fd => .acquire (.descriptor fd)
  | .closed fd => .release (.descriptor fd)
  | .mapped ptr size => .acquire (.mapping ptr size)
  | .munmap ptr size _ => .release (.mapping ptr size)

/-! ## Calls -/

/-- A call on the structure, with its arguments and what it is answered. -/
inductive Op where
  | init (verbose : Bool)
  | allocMapMemory (size : UInt64) (os : AllocAnswers)
  | freeMemory (os : FreeAnswers)
  | memcpy (offset : Int64) (len : UInt64)
  | deinit

/-- A call, with the memory it finds. -/
structure Call where
  op : Op
  mem : Mem Block

/-- The function that is called, as it changes the structure. -/
def Op.prog (mm : Meimm) : Op → Prog MmCall Block Meimm Meimm
  | .init verbose => pure (meimmInit mm verbose)
  | .allocMapMemory size os => do
      let (_, mm) ← meimmAllocMapMemory mm size os
      pure mm
  | .freeMemory os => do
      let (_, mm) ← meimmFreeMemory mm os
      pure mm
  | .memcpy offset len => do
      let _ ← meimmMemcpy mm offset len
      pure mm
  | .deinit => meimmDeinit mm

/-- The structure behind a call. -/
def step (mm : Meimm) (c : Call) : Meimm := ((c.op.prog mm).run c.mem).value

/-- The resources that a call acquires and releases. -/
def entries (mm : Meimm) (c : Call) : List (Entry Resource) :=
  ledger resourceEntry ((c.op.prog mm).run c.mem).log

/-- The descriptor that the structure refers to. -/
def ownedDescriptor (mm : Meimm) : Multiset Resource :=
  if 0 ≤ mm.fd then {.descriptor mm.fd} else 0

/-- The mapping that the structure refers to. -/
def ownedMapping (mm : Meimm) : Multiset Resource :=
  if mm.status = meiMmStatusAllocated then {.mapping mm.ptr mm.size} else 0

/-- What the structure refers to. -/
def owned (mm : Meimm) : Multiset Resource := ownedDescriptor mm + ownedMapping mm

/-- What a call forgets without releasing it: `meimm_init` and `meimm_alloc_map_memory` write over
the descriptor and the status, `meimm_free_memory` gives up on a mapping it cannot sync, and
`meimm_deinit` clears the status. -/
def Op.lost (mm : Meimm) : Op → Multiset Resource
  | .init _ | .allocMapMemory .. => owned mm
  | .freeMemory os => if mm.ptr ≠ 0 ∧ os.msync ≠ 0 then ownedMapping mm else 0
  | .memcpy .. => 0
  | .deinit => ownedMapping mm

theorem lost_freeMemory (mm : Meimm) (os : FreeAnswers) :
    Op.lost mm (.freeMemory os) =
      if mm.ptr ≠ 0 ∧ os.msync ≠ 0 then ownedMapping mm else 0 := rfl

theorem owned_of_closed {mm : Meimm} (hfd : mm.fd = -1) (hs : mm.status ≠ meiMmStatusAllocated) :
    owned mm = 0 := by
  simp [owned, ownedDescriptor, ownedMapping, hfd, hs]

/-! ## What each function does to the resources -/

section Functions

variable {ε : Type} (mm : Meimm) (m : Mem Block) (t : Multiset Resource)

/-- `meimm_deinit` closes the descriptor. -/
theorem run_meimmDeinit :
    (meimmDeinit mm : Prog MmCall Block ε Meimm).run m =
      ⟨.ok { mm with fd := -1, status := 0 }, m,
        if 0 ≤ mm.fd then [.call (.closed mm.fd)] else []⟩ := by
  unfold meimmDeinit
  by_cases hfd : 0 ≤ mm.fd
  · simp [hfd, Run.prepend]
  · simp [hfd, Run.prepend]

theorem ledger_meimmDeinit :
    ledger resourceEntry ((meimmDeinit mm : Prog MmCall Block ε Meimm).run m).log =
      if 0 ≤ mm.fd then [.release (.descriptor mm.fd)] else [] := by
  rw [run_meimmDeinit]
  split
  · rfl
  · rfl

/-- With the descriptor closed, the mapping is still held. -/
theorem held_closed :
    held (t + owned mm) (if 0 ≤ mm.fd then [.release (.descriptor mm.fd)] else []) =
      t + ownedMapping mm := by
  unfold owned ownedDescriptor
  split
  · rw [add_comm _ (ownedMapping mm), ← add_assoc, held_release]
  · rw [held_nil, zero_add]

/-! `meimm_alloc_map_memory` for each of its outcomes. -/

theorem run_meimmAllocMapMemory_unopened (size : UInt64) {os : AllocAnswers}
    (hopen : os.openFd = none) :
    (meimmAllocMapMemory mm size os : Prog MmCall Block ε (Int × Meimm)).run m =
      ⟨.ok (os.openErrno, { mm with fd := -1, status := 0 }), m, []⟩ := by
  simp [meimmAllocMapMemory, failAlloc, hopen, run_meimmDeinit, Run.prepend]

theorem run_meimmAllocMapMemory_refused (size : UInt64) {os : AllocAnswers} {fd : Nat}
    (hopen : os.openFd = some fd) (hioctl : os.ioctl ≠ 0) :
    (meimmAllocMapMemory mm size os : Prog MmCall Block ε (Int × Meimm)).run m =
      ⟨.ok (os.ioctlErrno, { mm with fd := -1, status := 0 }), m,
        [.call (.opened fd), .call (.closed fd)]⟩ := by
  simp [meimmAllocMapMemory, failAlloc, hopen, hioctl, run_meimmDeinit, Run.prepend]

theorem run_meimmAllocMapMemory_unmapped (size : UInt64) {os : AllocAnswers} {fd : Nat}
    (hopen : os.openFd = some fd) (hioctl : os.ioctl = 0) (hmmap : os.mmap = mapFailed) :
    (meimmAllocMapMemory mm size os : Prog MmCall Block ε (Int × Meimm)).run m =
      ⟨.ok (0, { mm with fd := -1, ptr := os.mmap, status := 0 }), m,
        [.call (.opened fd), .call (.closed fd)]⟩ := by
  simp [meimmAllocMapMemory, failAlloc, hopen, hioctl, hmmap, run_meimmDeinit, Run.prepend]

theorem run_meimmAllocMapMemory_mapped (size : UInt64) {os : AllocAnswers} {fd : Nat}
    (hopen : os.openFd = some fd) (hioctl : os.ioctl = 0) (hmmap : os.mmap ≠ mapFailed) :
    (meimmAllocMapMemory mm size os : Prog MmCall Block ε (Int × Meimm)).run m =
      ⟨.ok (0, ⟨fd, os.mmap, os.dataSize size, meiMmStatusAllocated, mm.verbose⟩), m,
        [.call (.opened fd), .call (.mapped os.mmap (os.dataSize size))]⟩ := by
  simp [meimmAllocMapMemory, hopen, hioctl, hmmap, Run.prepend]

/-- `meimm_alloc_map_memory` fails, and has closed the descriptor if it opened one, or it leaves a
new descriptor and a new mapping. -/
theorem run_meimmAllocMapMemory (size : UInt64) (os : AllocAnswers) :
    let r := (meimmAllocMapMemory mm size os : Prog MmCall Block ε (Int × Meimm)).run m
    ∃ ret mm', r.result = .ok (ret, mm') ∧
      (mm'.fd = -1 ∧ mm'.status ≠ meiMmStatusAllocated ∧
          (r.log = [] ∨ ∃ fd, r.log = [.call (.opened fd), .call (.closed fd)]) ∨
        0 ≤ mm'.fd ∧ mm'.status = meiMmStatusAllocated ∧ mm'.ptr ≠ mapFailed ∧
          r.log = [.call (.opened mm'.fd), .call (.mapped mm'.ptr mm'.size)]) := by
  intro r
  cases hopen : os.openFd with
  | none =>
      have hrun : r = _ := run_meimmAllocMapMemory_unopened mm m size hopen
      rw [hrun]
      exact ⟨_, _, rfl, .inl ⟨rfl, zero_ne_allocated, .inl rfl⟩⟩
  | some fd =>
      by_cases hioctl : os.ioctl = 0
      · by_cases hmmap : os.mmap = mapFailed
        · have hrun : r = _ := run_meimmAllocMapMemory_unmapped mm m size hopen hioctl hmmap
          rw [hrun]
          exact ⟨_, _, rfl, .inl ⟨rfl, zero_ne_allocated, .inr ⟨fd, rfl⟩⟩⟩
        · have hrun : r = _ := run_meimmAllocMapMemory_mapped mm m size hopen hioctl hmmap
          rw [hrun]
          exact ⟨_, _, rfl, .inr ⟨Int.natCast_nonneg fd, rfl, hmmap, rfl⟩⟩
      · have hrun : r = _ := run_meimmAllocMapMemory_refused mm m size hopen hioctl
        rw [hrun]
        exact ⟨_, _, rfl, .inl ⟨rfl, zero_ne_allocated, .inr ⟨fd, rfl⟩⟩⟩

/-- `meimm_free_memory` leaves the structure as it is, or it leaves the status of an unmapped
buffer, and then `munmap` was called unless `msync` failed. -/
theorem run_meimmFreeMemory (os : FreeAnswers) :
    let r := (meimmFreeMemory mm os : Prog MmCall Block ε (Int × Meimm)).run m
    ∃ ret mm', r.result = .ok (ret, mm') ∧
      if mm.status = meiMmStatusAllocated ∧ mm.ptr ≠ 0 then
        mm' = { mm with status := meiMmStatusInit } ∧
          r.log = if os.msync = 0 then [.call (.munmap mm.ptr mm.size os.munmap)] else []
      else mm' = mm ∧ r.log = [] := by
  unfold meimmFreeMemory
  by_cases hs : mm.status = meiMmStatusAllocated
  · by_cases hptr : mm.ptr = 0
    · exact ⟨0, mm, by simp [hs, hptr], by simp [hs, hptr]⟩
    · refine ⟨((unmapMemory mm os).run m).value, { mm with status := meiMmStatusInit }, ?_, ?_⟩
      · simp [hs, hptr]
      · rw [if_pos ⟨hs, hptr⟩]
        refine ⟨rfl, ?_⟩
        by_cases hsync : os.msync = 0
        · by_cases hmunmap : os.munmap = 0
          · simp [hs, hptr, unmapMemory, hsync, hmunmap]
          · simp [hs, hptr, unmapMemory, hsync, hmunmap]
        · simp [hs, hptr, unmapMemory, hsync]
  · exact ⟨0, mm, by simp [hs], by simp [hs]⟩

/-- `meimm_memcpy` neither acquires nor releases anything. -/
theorem access_meimmMemcpy (offset : Int64) (len : UInt64) :
    Within Event.IsAccess (meimmMemcpy mm offset len : Prog MmCall Block ε UInt64) := by
  refine .ite (within_pure _) (.ite (within_pure _) (.bind ?_ fun _ => within_pure _))
  exact (within_memcpy ..).mpr ⟨by simp, by simp⟩

end Functions

/-! ## What each call does to the resources -/

section Calls

variable (mm : Meimm) (m : Mem Block)

/-- A call of `meimm_alloc_map_memory` leaves what the function leaves. -/
theorem step_allocMapMemory_eq {size : UInt64} {os : AllocAnswers} {ret : Int} {mm' : Meimm}
    (h : ((meimmAllocMapMemory mm size os : Prog MmCall Block Meimm _).run m).result =
      .ok (ret, mm')) :
    step mm ⟨.allocMapMemory size os, m⟩ = mm' ∧
      entries mm ⟨.allocMapMemory size os, m⟩ =
        ledger resourceEntry ((meimmAllocMapMemory mm size os :
          Prog MmCall Block Meimm (Int × Meimm)).run m).log := by
  simp only [step, entries, Op.prog, run_bind, Run.andThen_of_ok h]
  exact ⟨rfl, by simp⟩

/-- A call of `meimm_free_memory` leaves what the function leaves. -/
theorem step_freeMemory_eq {os : FreeAnswers} {ret : Int} {mm' : Meimm}
    (h : ((meimmFreeMemory mm os : Prog MmCall Block Meimm _).run m).result =
      .ok (ret, mm')) :
    step mm ⟨.freeMemory os, m⟩ = mm' ∧
      entries mm ⟨.freeMemory os, m⟩ =
        ledger resourceEntry ((meimmFreeMemory mm os :
          Prog MmCall Block Meimm (Int × Meimm)).run m).log := by
  simp only [step, entries, Op.prog, run_bind, Run.andThen_of_ok h]
  exact ⟨rfl, by simp⟩

/-- `meimm_alloc_map_memory` ends with nothing, or with what it acquires. -/
theorem step_allocMapMemory (size : UInt64) (os : AllocAnswers) :
    let c : Call := ⟨.allocMapMemory size os, m⟩
    (owned (step mm c) = 0 ∧ (entries mm c = [] ∨
        ∃ fd, entries mm c = [.acquire (.descriptor fd), .release (.descriptor fd)])) ∨
      ∃ fd ptr size', owned (step mm c) = {.descriptor fd} + {.mapping ptr size'} ∧
        entries mm c = [.acquire (.descriptor fd), .acquire (.mapping ptr size')] := by
  obtain ⟨ret, mm', hres, hcases⟩ := run_meimmAllocMapMemory (ε := Meimm) mm m size os
  obtain ⟨hstep, hentries⟩ := step_allocMapMemory_eq mm m hres
  simp only [hstep, hentries]
  rcases hcases with ⟨hfd, hs, hlog⟩ | ⟨hfd, hs, -, hlog⟩
  · refine .inl ⟨owned_of_closed hfd hs, ?_⟩
    rcases hlog with hlog | ⟨fd, hlog⟩
    · exact .inl (hlog ▸ rfl)
    · exact .inr ⟨fd, hlog ▸ rfl⟩
  · refine .inr ⟨mm'.fd, mm'.ptr, mm'.size, ?_, ?_⟩
    · simp [owned, ownedDescriptor, ownedMapping, hfd, hs]
    · rw [hlog]
      rfl

theorem step_memcpy (offset : Int64) (len : UInt64) :
    step mm ⟨.memcpy offset len, m⟩ = mm ∧ entries mm ⟨.memcpy offset len, m⟩ = [] := by
  constructor
  · unfold step Op.prog meimmMemcpy
    by_cases hs : mm.status ≠ meiMmStatusAllocated ∨ mm.ptr = 0
    · simp [hs]
    · by_cases hsize : mm.size < offset.toUInt64 + len
      · simp [hs, hsize]
      · simp [hs, hsize]
  · exact Within.ledger_eq_nil resourceEntry
      (.bind (access_meimmMemcpy mm offset len) fun _ => within_pure mm) m

/-- `meimm_free_memory` releases the mapping it unmaps. -/
theorem step_freeMemory (os : FreeAnswers) :
    let c : Call := ⟨.freeMemory os, m⟩
    (mm.status = meiMmStatusAllocated ∧ mm.ptr ≠ 0 →
        owned (step mm c) = ownedDescriptor mm ∧ ownedMapping mm = {.mapping mm.ptr mm.size} ∧
          entries mm c = if os.msync = 0 then [.release (.mapping mm.ptr mm.size)] else []) ∧
      (¬ (mm.status = meiMmStatusAllocated ∧ mm.ptr ≠ 0) →
        step mm c = mm ∧ entries mm c = []) := by
  obtain ⟨ret, mm', hres, hcases⟩ := run_meimmFreeMemory (ε := Meimm) mm m os
  obtain ⟨hstep, hentries⟩ := step_freeMemory_eq mm m hres
  simp only [hstep, hentries]
  constructor
  · intro hmapped
    rw [if_pos hmapped] at hcases
    obtain ⟨rfl, hlog⟩ := hcases
    rw [hlog]
    refine ⟨?_, if_pos hmapped.1, ?_⟩
    · simp [owned, ownedDescriptor, ownedMapping]
    · split
      · rfl
      · rfl
  · intro hno
    rw [if_neg hno] at hcases
    obtain ⟨rfl, hlog⟩ := hcases
    rw [hlog]
    exact ⟨rfl, rfl⟩

/-- Behind each call, what was owned and not lost is what is owned. -/
theorem accounts : Accounts step entries owned fun mm c => c.op.lost mm := by
  intro mm c t
  obtain ⟨op, m⟩ := c
  cases op with
  | init verbose =>
      have howned : owned (meimmInit mm verbose) = 0 := owned_of_closed rfl (by simp [meimmInit])
      show t + owned mm = t + owned mm + owned (meimmInit mm verbose)
      rw [howned, add_zero]
  | allocMapMemory size os =>
      rcases step_allocMapMemory mm m size os with ⟨howned, hent⟩ | ⟨fd, ptr, size', howned, hent⟩
      · have hbal : Balanced (entries mm ⟨.allocMapMemory size os, m⟩) := by
          rcases hent with hent | ⟨fd, hent⟩
          · exact hent ▸ balanced_nil
          · exact hent ▸ balanced_pair (Resource.descriptor fd)
        rw [hbal, howned, add_zero]
        rfl
      · rw [hent, howned]
        rw [← List.singleton_append, held_append, held_acquire, held_acquire, add_assoc]
        rfl
  | freeMemory os =>
      obtain ⟨hmapped, hidle⟩ := step_freeMemory mm m os
      by_cases h : mm.status = meiMmStatusAllocated ∧ mm.ptr ≠ 0
      · obtain ⟨howned, hmapping, hent⟩ := hmapped h
        rw [howned, hent, owned, ← add_assoc]
        by_cases hsync : os.msync = 0
        · have hlost : Op.lost mm (.freeMemory os) = 0 := if_neg fun hfail => hfail.2 hsync
          show held _ _ = t + Op.lost mm (.freeMemory os) + _
          rw [if_pos hsync, hlost, hmapping, held_release, add_zero]
        · have hlost : Op.lost mm (.freeMemory os) = ownedMapping mm := if_pos ⟨h.2, hsync⟩
          show held _ _ = t + Op.lost mm (.freeMemory os) + _
          rw [if_neg hsync, hlost]
          exact add_right_comm ..
      · -- without a mapping there is nothing to lose
        obtain ⟨hstep, hent⟩ := hidle h
        have hnone : Op.lost mm (.freeMemory os) = 0 := by
          rw [lost_freeMemory]
          split
          · rename_i hfail
            exact if_neg fun hs => h ⟨hs, hfail.1⟩
          · rfl
        rw [hstep, hent]
        show t + owned mm = t + Op.lost mm (.freeMemory os) + owned mm
        rw [hnone, add_zero]
  | memcpy offset len =>
      obtain ⟨hstep, hent⟩ := step_memcpy mm m offset len
      rw [hstep, hent]
      show t + owned mm = t + 0 + owned mm
      rw [add_zero]
  | deinit =>
      have howned : owned (step mm ⟨.deinit, m⟩) = 0 := by
        simp only [step, Op.prog, run_meimmDeinit, Run.value_ok]
        exact owned_of_closed rfl zero_ne_allocated
      have hent : entries mm ⟨.deinit, m⟩ = _ := ledger_meimmDeinit (ε := Meimm) mm m
      rw [howned, add_zero, hent]
      exact held_closed mm t

/-- No two descriptors and no two mappings are held. -/
def Single (s : Multiset Resource) : Prop := (s.map Resource.kind).Nodup

instance (s : Multiset Resource) : Decidable (Single s) :=
  inferInstanceAs (Decidable (Multiset.Nodup _))

theorem single_zero : Single 0 := Multiset.nodup_zero

theorem single_singleton (r : Resource) : Single {r} := Multiset.nodup_singleton _

theorem single_pair (fd : Int) (ptr size : UInt64) :
    Single ({.descriptor fd} + {.mapping ptr size}) := by
  show Multiset.Nodup (({.descriptor} : Multiset Kind) + {.mapping})
  decide

theorem single_owned : Single (owned mm) := by
  unfold owned ownedDescriptor ownedMapping
  by_cases hfd : 0 ≤ mm.fd
  · by_cases hs : mm.status = meiMmStatusAllocated
    · rw [if_pos hfd, if_pos hs]
      exact single_pair _ _ _
    · rw [if_pos hfd, if_neg hs, add_zero]
      exact single_singleton _
  · rw [if_neg hfd, zero_add]
    split
    · exact single_singleton _
    · exact single_zero

/-- The call releases what it stops referring to, judged by the structure it finds and what it is
answered. -/
def Op.Careful (mm : Meimm) : Op → Prop
  | .init _ | .allocMapMemory .. => mm.fd < 0 ∧ mm.status ≠ meiMmStatusAllocated
  | .freeMemory os => mm.status = meiMmStatusAllocated → mm.ptr ≠ 0 → os.msync = 0
  | .memcpy .. => True
  | .deinit => mm.status ≠ meiMmStatusAllocated

theorem ownedMapping_eq_zero_iff : ownedMapping mm = 0 ↔ mm.status ≠ meiMmStatusAllocated := by
  unfold ownedMapping
  split
  · rename_i hs
    exact iff_of_false (Multiset.singleton_ne_zero _) (not_not_intro hs)
  · rename_i hs
    exact iff_of_true rfl hs

theorem owned_eq_zero_iff :
    owned mm = 0 ↔ mm.fd < 0 ∧ mm.status ≠ meiMmStatusAllocated := by
  unfold owned ownedDescriptor
  rw [add_eq_zero, ownedMapping_eq_zero_iff]
  split
  · rename_i hfd
    exact iff_of_false (fun h => Multiset.singleton_ne_zero _ h.1) (fun h => by omega)
  · rename_i hfd
    exact and_congr_left' (iff_of_true rfl (by omega))

/-- The careful calls are those that lose nothing. -/
theorem lost_eq_zero_iff (op : Op) : op.lost mm = 0 ↔ op.Careful mm := by
  cases op with
  | init verbose => exact owned_eq_zero_iff mm
  | allocMapMemory size os => exact owned_eq_zero_iff mm
  | freeMemory os =>
      rw [lost_freeMemory]
      split
      · rename_i hfail
        rw [ownedMapping_eq_zero_iff]
        exact ⟨fun hs hyes => absurd hyes hs, fun h hs => hfail.2 (h hs hfail.1)⟩
      · rename_i hok
        refine iff_of_true rfl fun _ hptr => ?_
        by_contra hsync
        exact hok ⟨hptr, hsync⟩
  | memcpy offset len => exact iff_of_true rfl trivial
  | deinit => exact ownedMapping_eq_zero_iff mm

/-- The calls other than `meimm_alloc_map_memory` make at most one entry. -/
theorem length_entries_le_one {op : Op} (hop : ∀ size os, op ≠ .allocMapMemory size os) :
    (entries mm ⟨op, m⟩).length ≤ 1 := by
  cases op with
  | init verbose => exact Nat.zero_le 1
  | allocMapMemory size os => exact absurd rfl (hop size os)
  | freeMemory os =>
      obtain ⟨hmapped, hidle⟩ := step_freeMemory mm m os
      by_cases hm : mm.status = meiMmStatusAllocated ∧ mm.ptr ≠ 0
      · rw [(hmapped hm).2.2]
        split
        · exact Nat.le_refl 1
        · exact Nat.zero_le 1
      · rw [(hidle hm).2]
        exact Nat.zero_le 1
  | memcpy offset len =>
      rw [(step_memcpy mm m offset len).2]
      exact Nat.zero_le 1
  | deinit =>
      rw [show entries mm ⟨.deinit, m⟩ = _ from ledger_meimmDeinit mm m]
      split
      · exact Nat.le_refl 1
      · exact Nat.zero_le 1

/-- A call that loses nothing holds at no moment more than one descriptor and one mapping. -/
theorem throughout_entries (c : Call) (h : c.op.lost mm = 0) :
    Throughout Single (owned mm) (entries mm c) := by
  have hheld : Single (held (owned mm) (entries mm c)) := by
    rw [accounts.held_step h]
    exact single_owned _
  obtain ⟨op, m⟩ := c
  cases op with
  | allocMapMemory size os =>
      have hzero : owned mm = 0 := h
      rw [hzero] at hheld ⊢
      rcases step_allocMapMemory mm m size os with ⟨-, hent⟩ | ⟨fd, ptr, size', -, hent⟩
      · rcases hent with hent | ⟨fd, hent⟩
        · rw [hent]
          exact (throughout_nil Single _).mpr single_zero
        · rw [hent] at hheld ⊢
          exact (throughout_cons ..).mpr ⟨single_zero,
            throughout_of_length_le_one (Nat.le_refl 1) (single_singleton _) hheld⟩
      · rw [hent] at hheld ⊢
        exact (throughout_cons ..).mpr ⟨single_zero,
          throughout_of_length_le_one (Nat.le_refl 1) (single_singleton _) hheld⟩
  | _ =>
      exact throughout_of_length_le_one (length_entries_le_one mm m (by simp)) (single_owned mm)
        hheld

end Calls

/-! ## The life of a structure -/

/-- The last call on a structure, with the memory it finds. -/
inductive Ending where
  | deinit (m : Mem Block)
  | free (m : Mem Block)

/-- The resources that the last call acquires and releases. -/
def Ending.entries (mm : Meimm) : Ending → List (Entry Resource)
  | .deinit m => ledger resourceEntry ((meimmDeinit mm : Prog MmCall Block Meimm Meimm).run m).log
  | .free m => ledger resourceEntry ((meimmFree mm : Prog MmCall Block Unit Unit).run m).log

theorem Ending.entries_eq (mm : Meimm) (ending : Ending) :
    ending.entries mm = if 0 ≤ mm.fd then [.release (.descriptor mm.fd)] else [] := by
  cases ending with
  | deinit m => exact ledger_meimmDeinit mm m
  | free m =>
      have hrun : ((meimmFree mm : Prog MmCall Block Unit Unit).run m).log =
          ((meimmDeinit mm : Prog MmCall Block Unit Meimm).run m).log := by
        unfold meimmFree
        simp [run_meimmDeinit]
      exact (congrArg (ledger resourceEntry) hrun).trans (ledger_meimmDeinit mm m)

/-- The resources acquired and released on behalf of a structure, from its `meimm_init` on. -/
def lifeEntries (mm : Meimm) (verbose : Bool) (calls : List Call) (ending : Ending) :
    List (Entry Resource) :=
  entriesOf step entries (meimmInit mm verbose) calls ++
    ending.entries (after step (meimmInit mm verbose) calls)

section Life

variable (mm : Meimm) (verbose : Bool) (calls : List Call) (ending : Ending)

theorem owned_meimmInit : owned (meimmInit mm verbose) = 0 :=
  owned_of_closed rfl (by simp [meimmInit])

/-- At the end of a life, what its calls have lost and the mapping it ends with are held. -/
theorem held_lifeEntries :
    held 0 (lifeEntries mm verbose calls ending) =
      lostIn step (fun mm c => c.op.lost mm) (meimmInit mm verbose) calls +
        ownedMapping (after step (meimmInit mm verbose) calls) := by
  have hcalls := accounts.held_entriesOf (meimmInit mm verbose) calls 0
  rw [owned_meimmInit, zero_add, zero_add] at hcalls
  rw [lifeEntries, held_append, hcalls, ending.entries_eq, held_closed]

/-- Everything acquired has been released at the end, and at no moment are two descriptors or two
mappings held. -/
structure Clean (l : List (Entry Resource)) : Prop where
  settled : held 0 l = 0
  single : Throughout Single 0 l

/-- Every call of a life releases what it makes the structure stop referring to. -/
def CarefulLife : Prop :=
  Everywhere (fun p c => c.op.Careful (after step (meimmInit mm verbose) p)) calls ∧
    (after step (meimmInit mm verbose) calls).status ≠ meiMmStatusAllocated

/-- The careful lives are those that end with nothing held. -/
theorem settled_iff : held 0 (lifeEntries mm verbose calls ending) = 0 ↔
    CarefulLife mm verbose calls := by
  rw [held_lifeEntries, add_eq_zero, lostIn_eq_zero_iff, ownedMapping_eq_zero_iff]
  exact and_congr_left' (Everywhere.congr (fun p c => lost_eq_zero_iff _ c.op) calls)

/-- At no moment of a careful life are two descriptors or two mappings held. -/
theorem single_lifeEntries (h : CarefulLife mm verbose calls) :
    Throughout Single 0 (lifeEntries mm verbose calls ending) := by
  have hlost : Everywhere (fun p c => c.op.lost (after step (meimmInit mm verbose) p) = 0) calls :=
    (Everywhere.congr (fun p c => lost_eq_zero_iff _ c.op) calls).mpr h.1
  have hcalls := accounts.throughout single_owned throughout_entries (meimmInit mm verbose) calls
    hlost
  have hheld := (accounts.held_eq_iff (meimmInit mm verbose) calls).mpr hlost
  have hend := (settled_iff mm verbose calls ending).mpr h
  rw [owned_meimmInit] at hcalls hheld
  rw [lifeEntries, held_append, hheld] at hend
  rw [lifeEntries, throughout_append, hheld]
  refine ⟨hcalls, throughout_of_length_le_one ?_ (single_owned _) (hend ▸ single_zero)⟩
  rw [ending.entries_eq]
  split
  · exact Nat.le_refl 1
  · exact Nat.zero_le 1

end Life

/-- A life is clean exactly when every call of it is careful: `meimm_init` and
`meimm_alloc_map_memory` write over a descriptor and a mapping, `meimm_free_memory` forgets a
mapping it cannot sync, and `meimm_deinit` does not unmap. -/
theorem clean_iff (mm : Meimm) (verbose : Bool) (calls : List Call) (ending : Ending) :
    Clean (lifeEntries mm verbose calls ending) ↔ CarefulLife mm verbose calls := by
  constructor
  · intro h
    exact (settled_iff mm verbose calls ending).mp h.settled
  · intro h
    exact ⟨(settled_iff mm verbose calls ending).mpr h,
      single_lifeEntries mm verbose calls ending h⟩

/-- Answers that let an allocation of any size succeed, on descriptor 3. -/
def mappedAnswers : AllocAnswers where
  openFd := some 3
  openErrno := 0
  ioctl := 0
  ioctlErrno := 0
  dataSize size := size
  mmap := 0x10000

/-- A buffer that is allocated and then freed while `msync` fails. -/
def unsyncedCalls : List Call :=
  [⟨.allocMapMemory 1024 mappedAnswers, .ofLists fun _ => []⟩,
    ⟨.freeMemory ⟨-1, 0, 0⟩, .ofLists fun _ => []⟩]

/-- The mapping outlives the structure, and `munmap` was not called. -/
theorem life_not_clean :
    held 0 (lifeEntries ⟨0, 0, 0, 0, false⟩ true unsyncedCalls (.deinit (.ofLists fun _ => []))) =
        {.mapping 0x10000 1024} ∧
      ¬ Clean (lifeEntries ⟨0, 0, 0, 0, false⟩ true unsyncedCalls
        (.deinit (.ofLists fun _ => []))) := by
  have hheld : held 0 (lifeEntries ⟨0, 0, 0, 0, false⟩ true unsyncedCalls
      (.deinit (.ofLists fun _ => []))) = {.mapping 0x10000 1024} := by decide
  refine ⟨hheld, fun h => ?_⟩
  rw [h.settled] at hheld
  exact Multiset.singleton_ne_zero _ hheld.symm

end Txei.MeiMm

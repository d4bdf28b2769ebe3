import Txei.Machine.Slice
import Txei.MeiMm.Copy
import Txei.MeiMm.Mapping

/-!
# The contents of the buffer

To its caller a `struct meimm` is a buffer that is there or not: allocating brings one, with the
bytes that the driver has in it, `meimm_memcpy` replaces a piece of it or refuses, and freeing or
giving up the structure takes it away. `contents_refine` says that a process which uses the
structure in the order it likes, with offsets that are not negative and ends that do not wrap, sees
that buffer and nothing else, and that nothing but the buffer is written on the way.
-/

namespace Txei.MeiMm

open Machine Machine.Prog

/-! ## Processes -/

/-- A call in a process: what it is, the bytes that a new mapping is found with, and the bytes of
the source of a copy. -/
structure Act where
  op : Op
  found : Nat → UInt8
  buf : Nat → UInt8

/-- The structure, and the address space that it maps the buffer into. -/
structure Process where
  mm : Meimm
  memory : Nat → UInt8

/-- The memory that a call finds. -/
def Process.mem (p : Process) (a : Act) : Mem Block
  | .memory => p.memory
  | .buf => a.buf

instance (os : AllocAnswers) : Decidable os.Succeeds := inferInstanceAs (Decidable (_ ∧ _))

/-- The address space behind a call that leaves `memory`. A mapping that succeeds brings its bytes
with it. -/
def Act.settle (memory : Nat → UInt8) : Act → Nat → UInt8
  | ⟨.allocMapMemory size os, found, _⟩ => fun i =>
      if os.Succeeds ∧ os.mmap.toNat ≤ i ∧ i < os.mmap.toNat + (os.dataSize size).toNat then
        found (i - os.mmap.toNat)
      else memory i
  | _ => memory

/-- A call changes the structure and the memory. -/
def Process.step (p : Process) (a : Act) : Process where
  mm := MeiMm.step p.mm ⟨a.op, p.mem a⟩
  memory := a.settle (((a.op.prog p.mm).run (p.mem a)).mem .memory)

/-- The buffer that the structure shows. -/
def Process.contents (p : Process) : Option (List UInt8) :=
  if p.mm.status = meiMmStatusAllocated then
    some (slice p.memory p.mm.ptr.toNat p.mm.size.toNat)
  else none

/-- What a call does to the buffer. -/
def Act.onContents (contents : Option (List UInt8)) : Act → Option (List UInt8)
  | ⟨.allocMapMemory size os, found, _⟩ =>
      if os.Succeeds then some (slice found 0 (os.dataSize size).toNat) else none
  | ⟨.memcpy offset len, _, buf⟩ => contents.map fun l =>
      if offset.toInt + len.toNat ≤ l.length then
        splice l offset.toInt.toNat (slice buf 0 len.toNat)
      else l
  | ⟨.init _, _, _⟩ | ⟨.freeMemory _, _, _⟩ | ⟨.deinit, _, _⟩ => none

/-- The promises: a mapping that succeeds lies in the lower half of the address space and not at
the null address, and the offset of a copy is not negative and its end does not wrap. -/
def Act.Fair : Act → Prop
  | ⟨.allocMapMemory size os, _, _⟩ =>
      os.Succeeds → os.mmap ≠ 0 ∧ os.mmap.toNat + (os.dataSize size).toNat < 2 ^ 63
  | ⟨.memcpy offset len, _, _⟩ => 0 ≤ offset.toInt ∧ offset.toInt + len.toNat < 2 ^ 64
  | _ => True

/-! ## One call -/

/-- A structure that shows a buffer has a mapping in the lower half of the address space. -/
structure Sound (mm : Meimm) : Prop where
  ptr : mm.status = meiMmStatusAllocated → mm.ptr ≠ 0
  size : mm.status = meiMmStatusAllocated → mm.ptr.toNat + mm.size.toNat < 2 ^ 63

theorem sound_of_status {mm : Meimm} (h : mm.status ≠ meiMmStatusAllocated) : Sound mm :=
  ⟨fun hs => absurd hs h, fun hs => absurd hs h⟩

theorem Sound.allocated {mm : Meimm} (h : Sound mm) (hs : mm.status = meiMmStatusAllocated) :
    mm.Allocated :=
  ⟨hs, h.ptr hs, Nat.lt_trans (h.size hs) (by decide)⟩

theorem contents_of_status {p : Process} (h : p.mm.status ≠ meiMmStatusAllocated) :
    p.contents = none := if_neg h

theorem contents_allocated {p : Process} (h : p.mm.status = meiMmStatusAllocated) :
    p.contents = some (slice p.memory p.mm.ptr.toNat p.mm.size.toNat) := if_pos h

/-- The buffer after a call is what the call makes of the buffer. -/
structure Shows (p : Process) (contents : Option (List UInt8)) : Prop where
  sound : Sound p.mm
  contents_eq : p.contents = contents

theorem shows_of_status {p : Process} (h : p.mm.status ≠ meiMmStatusAllocated) : Shows p none :=
  ⟨sound_of_status h, contents_of_status h⟩

section Step

variable (p : Process) (found buf : Nat → UInt8)

/-- An allocation brings the buffer that the driver has mapped, or takes the old one away. -/
theorem shows_allocMapMemory {size : UInt64} {os : AllocAnswers}
    (hfair : Act.Fair ⟨.allocMapMemory size os, found, buf⟩) (contents : Option (List UInt8)) :
    Shows (p.step ⟨.allocMapMemory size os, found, buf⟩)
      (Act.onContents contents ⟨.allocMapMemory size os, found, buf⟩) := by
  have hstep {ret : Int} {mm' : Meimm} {l : Log MmCall Block} (m : Mem Block)
      (h : (meimmAllocMapMemory p.mm size os : Prog MmCall Block Meimm _).run m =
        ⟨.ok (ret, mm'), m, l⟩) :
      MeiMm.step p.mm ⟨.allocMapMemory size os, m⟩ = mm' :=
    (step_allocMapMemory_eq p.mm m (congrArg Run.result h)).1
  have hnone (hfails : ¬ os.Succeeds)
      (hstatus : (p.step ⟨.allocMapMemory size os, found, buf⟩).mm.status ≠
        meiMmStatusAllocated) :
      Shows (p.step ⟨.allocMapMemory size os, found, buf⟩)
        (Act.onContents contents ⟨.allocMapMemory size os, found, buf⟩) := by
    rw [Act.onContents, if_neg hfails]
    exact shows_of_status hstatus
  cases hopen : os.openFd with
  | none =>
      refine hnone (fun h => h.1 hopen) ?_
      rw [Process.step, hstep _ (run_meimmAllocMapMemory_unopened p.mm _ size hopen)]
      exact zero_ne_allocated
  | some fd =>
      by_cases hioctl : os.ioctl = 0
      · by_cases hmmap : os.mmap = mapFailed
        · refine hnone (fun h => h.2.2 hmmap) ?_
          rw [Process.step, hstep _ (run_meimmAllocMapMemory_unmapped p.mm _ size hopen hioctl
            hmmap)]
          exact zero_ne_allocated
        · have hsucc : os.Succeeds := ⟨by simp [hopen], hioctl, hmmap⟩
          obtain ⟨hptr, hsize⟩ := hfair hsucc
          have hmm := hstep (p.mem ⟨.allocMapMemory size os, found, buf⟩)
            (run_meimmAllocMapMemory_mapped p.mm _ size hopen hioctl hmmap)
          refine ⟨?_, ?_⟩
          · rw [Process.step, hmm]
            exact ⟨fun _ => hptr, fun _ => hsize⟩
          · have hstatus : (p.step ⟨.allocMapMemory size os, found, buf⟩).mm.status =
                meiMmStatusAllocated := by
              rw [Process.step, hmm]
            rw [contents_allocated hstatus, Act.onContents, if_pos hsucc]
            refine congrArg some ?_
            simp only [Process.step, hmm, Act.settle]
            refine slice_congr fun i hi => ?_
            rw [if_pos ⟨hsucc, Nat.le_add_right _ _, by omega⟩, Nat.add_sub_cancel_left,
              Nat.zero_add]
      · refine hnone (fun h => hioctl h.2.1) ?_
        rw [Process.step, hstep _ (run_meimmAllocMapMemory_refused p.mm _ size hopen hioctl)]
        exact zero_ne_allocated

variable {p} {contents : Option (List UInt8)}

/-- Freeing takes the buffer away, whatever the system answers. -/
theorem shows_freeMemory (h : Shows p contents) (os : FreeAnswers) :
    Shows (p.step ⟨.freeMemory os, found, buf⟩)
      (Act.onContents contents ⟨.freeMemory os, found, buf⟩) := by
  obtain ⟨ret, mm', hres, hcases⟩ := run_meimmFreeMemory (ε := Meimm) p.mm
    (p.mem ⟨.freeMemory os, found, buf⟩) os
  have hmm : (p.step ⟨.freeMemory os, found, buf⟩).mm = mm' := (step_freeMemory_eq p.mm _ hres).1
  refine shows_of_status ?_
  rw [hmm]
  by_cases hs : p.mm.status = meiMmStatusAllocated
  · rw [if_pos ⟨hs, h.sound.ptr hs⟩] at hcases
    rw [hcases.1]
    exact init_ne_allocated
  · rw [if_neg fun hboth => hs hboth.1] at hcases
    rw [hcases.1]
    exact hs

theorem mem_memcpy (mm : Meimm) (offset : Int64) (len : UInt64) (m : Mem Block) :
    (((Op.memcpy offset len).prog mm).run m).mem = (copyRun mm offset len m).mem := by
  unfold Op.prog copyRun meimmMemcpy
  by_cases hs : mm.status ≠ meiMmStatusAllocated ∨ mm.ptr = 0
  · simp [hs]
  · by_cases hsize : mm.size < offset.toUInt64 + len
    · simp [hs, hsize]
    · simp [hs, hsize]

/-- Without a buffer nothing is copied. -/
theorem copyRun_unallocated {mm : Meimm} (h : mm.status ≠ meiMmStatusAllocated) (offset : Int64)
    (len : UInt64) (m : Mem Block) : copyRun mm offset len m = ⟨.ok 0, m, []⟩ := by
  unfold copyRun meimmMemcpy
  rw [if_pos (.inl h)]
  rfl

/-- A copy replaces a piece of the buffer, or is refused. -/
theorem shows_memcpy (h : Shows p contents) {offset : Int64} {len : UInt64}
    (hfair : Act.Fair ⟨.memcpy offset len, found, buf⟩) :
    Shows (p.step ⟨.memcpy offset len, found, buf⟩)
      (Act.onContents contents ⟨.memcpy offset len, found, buf⟩) := by
  have hmm : (p.step ⟨.memcpy offset len, found, buf⟩).mm = p.mm := (step_memcpy p.mm _ _ _).1
  have hmemory : (p.step ⟨.memcpy offset len, found, buf⟩).memory =
      (copyRun p.mm offset len (p.mem ⟨.memcpy offset len, found, buf⟩)).mem .memory :=
    congrFun (mem_memcpy p.mm offset len _) _
  refine ⟨hmm.symm ▸ h.sound, ?_⟩
  rw [← h.contents_eq, Act.onContents]
  by_cases hs : p.mm.status = meiMmStatusAllocated
  · have hallocated := h.sound.allocated hs
    have hsize := h.sound.size hs
    have hunsigned := toNat_toUInt64 offset
    have hoffset : 0 ≤ offset.toInt := hfair.1
    rw [contents_allocated hs, contents_allocated (hmm.symm ▸ hs), hmm, hmemory, Option.map_some,
      length_slice]
    refine congrArg some ?_
    by_cases hin : offset.toInt + len.toNat ≤ p.mm.size.toNat
    · have haccepted : ¬ p.mm.size < offset.toUInt64 + len :=
        (contains_iff offset len hfair.1 hfair.2).mp ⟨hfair.1, hin⟩
      have haddress : (p.mm.ptr + offset.toUInt64).toNat =
          p.mm.ptr.toNat + offset.toInt.toNat := by
        rw [UInt64.toNat_add]
        omega
      have hmem (m : Mem Block) : (copyRun p.mm offset len m).mem =
          m.write .memory (p.mm.ptr + offset.toUInt64).toNat len.toNat fun i => m .buf (0 + i) :=
        congrArg Run.mem (copyRun_accepted offset len m hallocated haccepted)
      rw [if_pos hin, hmem, haddress]
      refine slice_overwritten (by omega) (fun i hi => ?_) fun i hi => ?_
      · rw [Mem.write_inside _ _ _ _ _ _ (by omega), Nat.add_sub_cancel_left, Nat.zero_add]
        rfl
      · rw [Mem.write_outside _ _ _ _ _ _ _ (by omega)]
        rfl
    · have hrefused : p.mm.size < offset.toUInt64 + len := by
        by_contra haccepted
        exact hin ((contains_iff offset len hfair.1 hfair.2).mpr haccepted).2
      rw [if_neg hin, copyRun_refused offset len _ hrefused]
      rfl
  · rw [contents_of_status hs, contents_of_status (hmm.symm ▸ hs)]
    rfl

/-- Every call leaves the buffer that it makes of the buffer. -/
theorem shows_step (h : Shows p contents) {a : Act} (hfair : a.Fair) :
    Shows (p.step a) (a.onContents contents) := by
  obtain ⟨op, found, buf⟩ := a
  cases op with
  | init verbose => exact shows_of_status init_ne_allocated
  | allocMapMemory size os => exact shows_allocMapMemory p found buf hfair contents
  | freeMemory os => exact shows_freeMemory found buf h os
  | memcpy offset len => exact shows_memcpy found buf h hfair
  | deinit =>
      have hmm : (p.step ⟨.deinit, found, buf⟩).mm = { p.mm with fd := -1, status := 0 } := by
        simp only [Process.step, MeiMm.step, Op.prog, run_meimmDeinit, Run.value_ok]
      refine shows_of_status ?_
      rw [hmm]
      exact zero_ne_allocated

end Step

/-! ## Every run -/

/-- The process after a history of calls on a structure that `meimm_init` was called on. -/
def processAfter (mm : Meimm) (verbose : Bool) (memory : Nat → UInt8) (h : List Act) : Process :=
  after Process.step ⟨meimmInit mm verbose, memory⟩ h

/-- The buffer after the same history. -/
def contentsAfter (h : List Act) : Option (List UInt8) := after Act.onContents none h

theorem shows_processAfter (mm : Meimm) (verbose : Bool) (memory : Nat → UInt8) {h : List Act}
    (hfair : ∀ a ∈ h, a.Fair) : Shows (processAfter mm verbose memory h) (contentsAfter h) := by
  induction h using List.reverseRecOn with
  | nil => exact shows_of_status init_ne_allocated
  | append_singleton h a ih =>
      unfold processAfter contentsAfter at ih ⊢
      rw [after_snoc, after_snoc]
      refine shows_step (ih fun a ha => hfair a (List.mem_append_left _ ha)) ?_
      exact hfair a (List.mem_append_right _ (List.mem_singleton_self a))

/-- What `meimm_memcpy` returns to a caller who sees the buffer `contents`. -/
def Returned (p : Process) (contents : Option (List UInt8)) : Act → Prop
  | ⟨.memcpy offset len, found, buf⟩ =>
      (copyRun p.mm offset len (p.mem ⟨.memcpy offset len, found, buf⟩)).value ≠ 0 ↔
        ∃ l, contents = some l ∧ offset.toInt + len.toNat ≤ l.length
  | _ => True

/-- Behind the address that `meimm_get_addr` returns are the bytes of the buffer, as many as
`meimm_get_size` says; a copy is accepted if the buffer has room for it; and what the call `a`
writes is inside. -/
structure SeenAs (p : Process) (contents : Option (List UInt8)) (a : Act) : Prop where
  addr : contents = none → meimmGetAddr p.mm = 0
  bytes : ∀ l, contents = some l → slice p.memory (meimmGetAddr p.mm).toNat l.length = l
  size : (meimmGetSize p.mm).toInt = contents.elim (-1) fun l => (l.length : Int)
  returned : Returned p contents a
  writes : ∀ i, ((a.op.prog p.mm).run (p.mem a)).mem .memory i ≠ p.memory i →
    ∃ l, contents = some l ∧ (meimmGetAddr p.mm).toNat ≤ i ∧
      i < (meimmGetAddr p.mm).toNat + l.length

section Seen

variable {p : Process} {contents : Option (List UInt8)}

theorem toInt_toInt64 {n : UInt64} (h : n.toNat < 2 ^ 63) : n.toInt64.toInt = n.toNat := by
  rw [Int64.toInt, UInt64.toInt64, Int64.toBitVec, BitVec.toInt_eq_toNat_of_lt]
  · rfl
  · exact show 2 * n.toNat < 2 ^ 64 by omega

theorem quiet_meimmDeinit {ε : Type} (mm : Meimm) :
    Within (Event.In [] []) (meimmDeinit mm : Prog MmCall Block ε Meimm) :=
  .bind (.onlyIf ((within_call _).mpr (Event.in_call _ _ _))) fun _ => within_pure _

theorem quiet_meimmAllocMapMemory {ε : Type} (mm : Meimm) (size : UInt64) (os : AllocAnswers) :
    Within (Event.In [] []) (meimmAllocMapMemory mm size os : Prog MmCall Block ε _) := by
  have hfail (mm : Meimm) (ret : Int) :
      Within (Event.In [] []) (failAlloc mm ret : Prog MmCall Block ε (Int × Meimm)) :=
    .bind (quiet_meimmDeinit mm) fun _ => within_pure _
  unfold meimmAllocMapMemory
  cases os.openFd with
  | none => exact hfail _ _
  | some fd =>
      refine .bind ((within_call _).mpr (Event.in_call _ _ _)) fun _ => ?_
      refine .ite (hfail _ _) (.ite (hfail _ _) ?_)
      exact .bind ((within_call _).mpr (Event.in_call _ _ _)) fun _ => within_pure _

theorem quiet_meimmFreeMemory {ε : Type} (mm : Meimm) (os : FreeAnswers) :
    Within (Event.In [] []) (meimmFreeMemory mm os : Prog MmCall Block ε _) := by
  have hunmap : Within (Event.In [] []) (unmapMemory mm os) := by
    refine .bind (within_exitIf _ _) fun _ => ?_
    refine .bind ((within_call _).mpr (Event.in_call _ _ _)) fun _ => ?_
    exact .bind (within_exitIf _ _) fun _ => within_pure _
  refine .ite (within_pure _) (.ite (within_pure _) ?_)
  exact .bind hunmap.returned fun _ => within_pure _

/-- A call that writes into the memory copies into the buffer. -/
theorem Sound.writes (h : Sound p.mm) {a : Act} (hfair : a.Fair) {i : Nat}
    (hi : ((a.op.prog p.mm).run (p.mem a)).mem .memory i ≠ p.memory i) :
    p.mm.status = meiMmStatusAllocated ∧ p.mm.ptr.toNat ≤ i ∧
      i < p.mm.ptr.toNat + p.mm.size.toNat := by
  obtain ⟨op, found, buf⟩ := a
  have hquiet {x : Prog MmCall Block Meimm Meimm} (hx : Within (Event.In [] []) x)
      (m : Mem Block) : (x.run m).mem .memory i = m .memory i :=
    congrFun (hx.mem_eq (by simp) m) i
  cases op with
  | init verbose => exact absurd rfl hi
  | allocMapMemory size os =>
      exact absurd (hquiet (.bind (quiet_meimmAllocMapMemory _ _ _) fun _ => within_pure _) _) hi
  | freeMemory os =>
      exact absurd (hquiet (.bind (quiet_meimmFreeMemory _ _) fun _ => within_pure _) _) hi
  | deinit => exact absurd (hquiet (quiet_meimmDeinit _) _) hi
  | memcpy offset len =>
      have hmem := congrFun (congrFun (mem_memcpy p.mm offset len
        (p.mem ⟨.memcpy offset len, found, buf⟩)) .memory) i
      rw [hmem] at hi
      by_cases hs : p.mm.status = meiMmStatusAllocated
      · refine ⟨hs, ?_⟩
        by_cases hin : p.mm.Contains offset len
        · obtain ⟨haddress, -, hkept⟩ := copyRun_contained offset len
            (p.mem ⟨.memcpy offset len, found, buf⟩) (h.allocated hs) hin
          unfold Meimm.Contains at hin
          by_contra hout
          exact hi (hkept .memory i fun hinside => hout (by omega))
        · have hrefused : p.mm.size < offset.toUInt64 + len := by
            by_contra haccepted
            exact hin ((contains_iff offset len hfair.1 hfair.2).mpr haccepted)
          rw [copyRun_refused offset len _ hrefused] at hi
          exact absurd rfl hi
      · rw [copyRun_unallocated hs] at hi
        exact absurd rfl hi

/-- A copy is accepted exactly if the buffer has room for it. -/
theorem Sound.copyRun_ne_zero (h : Sound p.mm) {offset : Int64} {len : UInt64}
    (hfair : 0 ≤ offset.toInt ∧ offset.toInt + len.toNat < 2 ^ 64) (m : Mem Block) :
    (copyRun p.mm offset len m).value ≠ 0 ↔
      ∃ l, p.contents = some l ∧ offset.toInt + len.toNat ≤ l.length := by
  by_cases hs : p.mm.status = meiMmStatusAllocated
  · have hallocated := h.allocated hs
    have haccepts : (copyRun p.mm offset len m).value ≠ 0 ↔ p.mm.Contains offset len := by
      by_cases hrefused : p.mm.size < offset.toUInt64 + len
      · exact (copyBounded_refused offset len m hrefused).accepts
      · have hin := (contains_iff offset len hfair.1 hfair.2).mpr hrefused
        exact (copyBounded_contained offset len m hallocated hrefused hin).accepts
    rw [haccepts, contents_allocated hs]
    constructor
    · intro hin
      exact ⟨_, rfl, by rw [length_slice]; exact hin.2⟩
    · rintro ⟨l, hl, hle⟩
      cases hl
      exact ⟨hfair.1, by rw [length_slice] at hle; exact hle⟩
  · rw [copyRun_unallocated hs, contents_of_status hs]
    exact iff_of_false (fun hne => hne rfl) fun ⟨l, hl, _⟩ => nomatch hl

/-- A structure that shows a buffer is seen as it. -/
theorem Shows.seenAs (h : Shows p contents) {a : Act} (hfair : a.Fair) : SeenAs p contents a := by
  obtain ⟨hsound, rfl⟩ := h
  have hreturned : Returned p p.contents a := by
    obtain ⟨op, found, buf⟩ := a
    cases op with
    | memcpy offset len => exact hsound.copyRun_ne_zero hfair _
    | init verbose => trivial
    | allocMapMemory size os => trivial
    | freeMemory os => trivial
    | deinit => trivial
  by_cases hs : p.mm.status = meiMmStatusAllocated
  · have haddr : meimmGetAddr p.mm = p.mm.ptr := if_pos hs
    have hsize : meimmGetSize p.mm = p.mm.size.toInt64 := if_pos hs
    have hbound := hsound.size hs
    rw [contents_allocated hs] at hreturned ⊢
    refine ⟨(nomatch ·), ?_, ?_, hreturned, fun i hi => ?_⟩
    · rintro l ⟨⟩
      rw [haddr, length_slice]
    · rw [hsize, toInt_toInt64 (by omega)]
      simp
    · obtain ⟨-, hle, hlt⟩ := hsound.writes hfair hi
      exact ⟨_, rfl, by rw [haddr]; exact hle, by rw [haddr, length_slice]; exact hlt⟩
  · have hsize : meimmGetSize p.mm = -1 := if_neg hs
    rw [contents_of_status hs] at hreturned ⊢
    refine ⟨fun _ => if_neg hs, (nomatch ·, ·), ?_, hreturned, fun i hi => ?_⟩
    · rw [hsize]
      rfl
    · exact absurd (hsound.writes hfair hi).1 hs

end Seen

/-- In every process that starts with `meimm_init`, every call finds the buffer that the calls
before it have made. -/
theorem contents_refine (mm : Meimm) (verbose : Bool) (memory : Nat → UInt8) (h : List Act)
    (hfair : ∀ a ∈ h, a.Fair) :
    Everywhere (fun p a => SeenAs (processAfter mm verbose memory p) (contentsAfter p) a) h := by
  intro p a rest heq
  have hbefore := shows_processAfter mm verbose memory (h := p) fun a' ha' =>
    hfair a' (heq ▸ List.mem_append_left _ ha')
  exact hbefore.seenAs (hfair a (heq ▸ List.mem_append_right _ List.mem_cons_self))

/-- Eight zeros are mapped, three bytes are put behind the first five, and three more do not fit
behind the sixth. -/
def eightActs : List Act :=
  [⟨.allocMapMemory 8 ⟨some 3, 0, 0, 0, id, 65536⟩, fun _ => 0, fun _ => 0⟩,
    ⟨.memcpy 5 3, fun _ => 0, fun i => UInt8.ofNat (i + 1)⟩,
    ⟨.memcpy 6 3, fun _ => 0, fun _ => 9⟩]

theorem fair_eightActs : ∀ a ∈ eightActs, a.Fair := by
  intro a ha
  simp only [eightActs, List.mem_cons, List.not_mem_nil, or_false] at ha
  rcases ha with rfl | rfl | rfl
  · exact fun _ => by decide
  · exact (by decide : (0 : Int) ≤ 5 ∧ (5 : Int) + 3 < 2 ^ 64)
  · exact (by decide : (0 : Int) ≤ 6 ∧ (6 : Int) + 3 < 2 ^ 64)

/-- The third call finds what the first two have made. -/
theorem contents_refine_eight :
    let p := processAfter onePage false (fun _ => 7) (eightActs.take 2)
    slice p.memory (meimmGetAddr p.mm).toNat 8 = [0, 0, 0, 0, 0, 1, 2, 3] ∧
      (copyRun p.mm 6 3 (p.mem ⟨.memcpy 6 3, fun _ => 0, fun _ => 9⟩)).value = 0 := by
  have hseen := contents_refine onePage false (fun _ => 7) eightActs fair_eightActs
    (eightActs.take 2) ⟨.memcpy 6 3, fun _ => 0, fun _ => 9⟩ [] rfl
  have hcontents : contentsAfter (eightActs.take 2) = some [0, 0, 0, 0, 0, 1, 2, 3] := by decide
  refine ⟨hseen.bytes _ hcontents, ?_⟩
  by_contra hne
  obtain ⟨l, hl, hle⟩ := hseen.returned.mp hne
  cases hcontents.symm.trans hl
  exact absurd hle (by decide)

end Txei.MeiMm

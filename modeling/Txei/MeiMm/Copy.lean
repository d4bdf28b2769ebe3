import Txei.MeiMm.Buffer

/-!
# Copying into a buffer

`meimm_memcpy` compares the sum of a signed offset and an unsigned length with the size of the
mapping, in 64 bits. `copyBounded_iff` says for which of them that compares the integers, so that
what is copied stays within the mapping.
-/

namespace Txei.MeiMm

open Machine Machine.Prog

/-- The structure is `MEI_MM_STATUS_ALLOCATED`, with a mapping of `size` bytes that neither starts
at the null address nor reaches the end of the address space. -/
structure Meimm.Allocated (mm : Meimm) : Prop where
  status : mm.status = meiMmStatusAllocated
  ptr : mm.ptr ≠ 0
  size : mm.ptr.toNat + mm.size.toNat < 2 ^ 64

/-- The bytes from `offset` up to `offset + len` are in the mapping. -/
def Meimm.Contains (mm : Meimm) (offset : Int64) (len : UInt64) : Prop :=
  0 ≤ offset.toInt ∧ offset.toInt + len.toNat ≤ mm.size.toNat

/-- The source took the place of the `len` bytes from `start` on, and every other byte is still
there. -/
def Replaced (m m' : Mem Block) (start len : Nat) : Prop :=
  (∀ i < len, m' .memory (start + i) = m .buf i) ∧
    ∀ b i, ¬ (b = .memory ∧ start ≤ i ∧ i < start + len) → m' b i = m b i

theorem replaced_write (m : Mem Block) (start len : Nat) :
    Replaced m (m.write .memory start len fun i => m .buf (0 + i)) start len := by
  constructor
  · intro i hi
    rw [Mem.write_inside m .memory start len _ _ (by omega)]
    congr 1
    omega
  · intro b i hout
    exact Mem.write_outside m .memory start len _ b i hout

/-- The run of `meimm_memcpy`. -/
def copyRun (mm : Meimm) (offset : Int64) (len : UInt64) (m : Mem Block) :
    Run MmCall Block UInt64 UInt64 :=
  (meimmMemcpy mm offset len).run m

/-- `meimm_memcpy` copies exactly what belongs into the mapping. -/
structure CopyBounded (mm : Meimm) (offset : Int64) (len : UInt64) (m : Mem Block) : Prop where
  accepts : (copyRun mm offset len m).value ≠ 0 ↔ mm.Contains offset len
  copies : mm.Contains offset len →
    ((copyRun mm offset len m).value.toNat : Int) = mm.ptr.toNat + offset.toInt ∧
      Replaced m (copyRun mm offset len m).mem (copyRun mm offset len m).value.toNat len.toNat
  refuses : (copyRun mm offset len m).value = 0 →
    (copyRun mm offset len m).mem = m ∧
      ∀ e ∈ (copyRun mm offset len m).log, ∀ b i, ¬ e.Writes b i

section Copy

variable {mm : Meimm} (offset : Int64) (len : UInt64) (m : Mem Block)

/-- The check sees the sum modulo 2^64. -/
theorem size_lt_iff :
    mm.size < offset.toUInt64 + len ↔
      (mm.size.toNat : Int) < (offset.toInt + len.toNat) % 2 ^ 64 := by
  have hoffset := toNat_toUInt64 offset
  rw [UInt64.lt_iff_toNat_lt, UInt64.toNat_add]
  omega

theorem copyRun_refused (hrefused : mm.size < offset.toUInt64 + len) :
    copyRun mm offset len m = ⟨.ok 0, m, []⟩ := by
  unfold copyRun meimmMemcpy
  split
  · rfl
  · rfl

theorem copyRun_accepted (h : mm.Allocated) (haccepted : ¬ mm.size < offset.toUInt64 + len) :
    copyRun mm offset len m =
      ⟨.ok (mm.ptr + offset.toUInt64),
        m.write .memory (mm.ptr + offset.toUInt64).toNat len.toNat fun i => m .buf (0 + i),
        [.read .buf 0 len.toNat, .write .memory (mm.ptr + offset.toUInt64).toNat len.toNat]⟩ := by
  have hopen : ¬ (mm.status ≠ meiMmStatusAllocated ∨ mm.ptr = 0) := by simp [h.status, h.ptr]
  unfold copyRun meimmMemcpy
  rw [if_neg hopen, if_neg haccepted]
  rfl

/-- With the sum in 64 bits and no negative offset, the check is that of the integers. -/
theorem contains_iff (hoffset : 0 ≤ offset.toInt) (hsum : offset.toInt + len.toNat < 2 ^ 64) :
    mm.Contains offset len ↔ ¬ mm.size < offset.toUInt64 + len := by
  rw [size_lt_iff]
  unfold Meimm.Contains
  omega

/-- What is in the mapping has an address without a carry, and is copied there. -/
theorem copyRun_contained (h : mm.Allocated) (hin : mm.Contains offset len) :
    ((copyRun mm offset len m).value.toNat : Int) = mm.ptr.toNat + offset.toInt ∧
      Replaced m (copyRun mm offset len m).mem (copyRun mm offset len m).value.toNat
        len.toNat := by
  have hsize := h.size
  have hunsigned := toNat_toUInt64 offset
  have haccepted : ¬ mm.size < offset.toUInt64 + len := by
    rw [size_lt_iff]
    unfold Meimm.Contains at hin
    omega
  rw [copyRun_accepted offset len m h haccepted, Run.value_ok]
  refine ⟨?_, replaced_write m _ _⟩
  unfold Meimm.Contains at hin
  rw [UInt64.toNat_add]
  omega

/-- A structure with a mapping is not told of a null address for a copy of nothing. -/
theorem ptr_add_ne_zero (h : mm.Allocated) (hle : offset.toUInt64.toNat ≤ mm.size.toNat) :
    mm.ptr + offset.toUInt64 ≠ 0 := by
  intro hzero
  have hsize := h.size
  have hptr : mm.ptr.toNat ≠ 0 := fun hnull => h.ptr (UInt64.toNat_inj.mp hnull)
  rw [← UInt64.toNat_inj, UInt64.toNat_add, UInt64.toNat_zero] at hzero
  omega

/-- What is refused does not fit, and is left alone. -/
theorem copyBounded_refused (hrefused : mm.size < offset.toUInt64 + len) :
    CopyBounded mm offset len m := by
  have hrun := copyRun_refused offset len m hrefused
  have hout : ¬ mm.Contains offset len := by
    rw [size_lt_iff] at hrefused
    unfold Meimm.Contains
    omega
  refine ⟨?_, fun hin => absurd hin hout, fun _ => ?_⟩
  · rw [hrun]
    exact iff_of_false (fun hne => hne rfl) hout
  · rw [hrun]
    exact ⟨rfl, by simp⟩

theorem copyBounded_contained (h : mm.Allocated) (haccepted : ¬ mm.size < offset.toUInt64 + len)
    (hin : mm.Contains offset len) : CopyBounded mm offset len m := by
  have hvalue : (copyRun mm offset len m).value ≠ 0 := by
    rw [copyRun_accepted offset len m h haccepted, Run.value_ok]
    have hunsigned := toNat_toUInt64 offset
    unfold Meimm.Contains at hin
    exact ptr_add_ne_zero offset h (by omega)
  exact ⟨iff_of_true hvalue hin, fun _ => copyRun_contained offset len m h hin,
    fun hno => absurd hno hvalue⟩

/-- A copy out of the mapping that passes the check returns an address, or null for what it wrote at
the null address. -/
theorem not_copyBounded (h : mm.Allocated) (haccepted : ¬ mm.size < offset.toUInt64 + len)
    (hout : ¬ mm.Contains offset len) : ¬ CopyBounded mm offset len m := by
  intro hbounded
  have hvalue : (copyRun mm offset len m).value = 0 := by
    by_contra hne
    exact hout (hbounded.accepts.mp hne)
  have hquiet := (hbounded.refuses hvalue).2
  rw [copyRun_accepted offset len m h haccepted] at hvalue hquiet
  rw [Run.value_ok] at hvalue
  -- a copy of nothing writes nothing, and is found out by its address instead
  by_cases hlen : len.toNat = 0
  · refine ptr_add_ne_zero offset h ?_ hvalue
    rw [UInt64.lt_iff_toNat_lt, UInt64.toNat_add] at haccepted
    have hlt := offset.toUInt64.toNat_lt
    omega
  · have hwrites : (Event.write Block.memory (mm.ptr + offset.toUInt64).toNat len.toNat :
        Event MmCall Block).Writes .memory (mm.ptr + offset.toUInt64).toNat :=
      (Event.writes_write ..).mpr ⟨rfl, le_rfl, by omega⟩
    exact hquiet _ (List.mem_cons_of_mem _ List.mem_cons_self) .memory _ hwrites

variable (mm)

/-- `meimm_memcpy` copies exactly what belongs into the mapping unless the offset is negative or the
sum does not fit 64 bits, and what is left of the sum in 64 bits is no more than the size. -/
theorem copyBounded_iff (h : mm.Allocated) :
    CopyBounded mm offset len m ↔
      0 ≤ offset.toInt ∧ offset.toInt + len.toNat < 2 ^ 64 ∨
        (mm.size.toNat : Int) < (offset.toInt + len.toNat) % 2 ^ 64 := by
  rw [← size_lt_iff]
  by_cases hrefused : mm.size < offset.toUInt64 + len
  · exact iff_of_true (copyBounded_refused offset len m hrefused) (.inr hrefused)
  by_cases hin : mm.Contains offset len
  · refine iff_of_true (copyBounded_contained offset len m h hrefused hin) (.inl ?_)
    have hlt := mm.size.toNat_lt
    unfold Meimm.Contains at hin
    omega
  · refine iff_of_false (not_copyBounded offset len m h hrefused hin) fun hcond => ?_
    have hfits := hcond.resolve_right hrefused
    exact hin ((contains_iff offset len hfits.1 hfits.2).mpr hrefused)

end Copy

/-- A structure with one page mapped at address 65536. -/
def onePage : Meimm := ⟨3, 65536, 4096, meiMmStatusAllocated, false⟩

theorem allocated_onePage : onePage.Allocated := ⟨rfl, by decide, by decide⟩

/-- The second half of the page is filled. -/
theorem copyBounded_onePage :
    CopyBounded onePage 2048 2048 (.ofLists fun _ => []) :=
  (copyBounded_iff onePage 2048 2048 (.ofLists fun _ => []) allocated_onePage).mpr
    (.inl (by decide))

/-- With the offset -8, 8 of 16 bytes are written before the mapping. -/
theorem negativeOffset_not_bounded :
    (copyRun onePage (-8) 16 (.ofLists fun _ => [])).value = 65528 ∧
      .write .memory 65528 16 ∈ (copyRun onePage (-8) 16 (.ofLists fun _ => [])).log ∧
      ¬ CopyBounded onePage (-8) 16 (.ofLists fun _ => []) := by
  have haccepted : ¬ onePage.size < (-8 : Int64).toUInt64 + 16 := by decide
  have hrun := copyRun_accepted (-8) 16 (.ofLists fun _ => []) allocated_onePage haccepted
  refine ⟨?_, ?_, not_copyBounded (-8) 16 _ allocated_onePage haccepted ?_⟩
  · rw [hrun]
    decide
  · rw [hrun]
    exact List.mem_cons_of_mem _ List.mem_cons_self
  · exact fun hin => absurd hin.1 (by decide)

end Txei.MeiMm

import Txei.Machine.Text

/-!
# Slices

A field of a message is a run of bytes: `slice f o n` is the list of the `n` bytes of a sequence
from offset `o` on. A message that is a list is read through its `getD`, with zeros behind its end,
so that a layout is the same function of a memory block and of the bytes on the wire.
-/

namespace Txei.Machine

/-- The `n` bytes of a sequence from offset `o` on. -/
def slice (f : Nat → UInt8) (o n : Nat) : List UInt8 := (List.range n).map fun i => f (o + i)

/-- A list of bytes as a sequence, with zeros behind its end. -/
def onWire (bytes : List UInt8) : Nat → UInt8 := fun i => bytes.getD i 0

/-- The 32-bit little-endian value at offset `o` of a sequence. -/
def wordAt (f : Nat → UInt8) (o : Nat) : Nat := word fun i => f (o + i)

/-- The 16-bit little-endian value at offset `o` of a sequence. -/
def halfAt (f : Nat → UInt8) (o : Nat) : Nat := (f o).toNat + 256 * (f (o + 1)).toNat

variable {f g : Nat → UInt8} {o p n : Nat}

theorem wordAt_congr (h : ∀ i < 4, f (o + i) = g (p + i)) : wordAt f o = wordAt g p :=
  word_congr h

theorem halfAt_congr (h : ∀ i < 2, f (o + i) = g (o + i)) : halfAt f o = halfAt g o := by
  have hlow : f o = g o := h 0 (by decide)
  have hhigh : f (o + 1) = g (o + 1) := h 1 (by decide)
  rw [halfAt, halfAt, hlow, hhigh]

@[simp] theorem length_slice (f : Nat → UInt8) (o n : Nat) : (slice f o n).length = n := by
  simp [slice]

theorem getElem?_slice (f : Nat → UInt8) (o n i : Nat) :
    (slice f o n)[i]? = if i < n then some (f (o + i)) else none := by
  by_cases hi : i < n
  · simp [slice, hi]
  · simp [slice, hi]

theorem slice_congr (h : ∀ i < n, f (o + i) = g (p + i)) : slice f o n = slice g p n :=
  List.map_congr_left fun i hi => h i (List.mem_range.mp hi)

/-- The bytes that are put on the wire are those of the sequence. -/
theorem onWire_slice (f : Nat → UInt8) {n i : Nat} (hi : i < n) :
    onWire (slice f 0 n) i = f i := by
  rw [onWire, List.getD_eq_getElem?_getD, getElem?_slice, if_pos hi, Option.getD_some,
    Nat.zero_add]

/-- The bytes of a block that are put on the wire. -/
theorem onWire_bytes {β : Type} (m : Mem β) (b : β) {n i : Nat} (hi : i < n) :
    onWire (m.bytes b n) i = m b i := by
  have hslice : m.bytes b n = slice (m b) 0 n := by simp only [Mem.bytes, slice, Nat.zero_add]
  rw [hslice, onWire_slice _ hi]

theorem onWire_take (bytes : List UInt8) {k i : Nat} (hi : i < k) :
    onWire (bytes.take k) i = onWire bytes i := by
  rw [onWire, onWire, List.getD_eq_getElem?_getD, List.getD_eq_getElem?_getD,
    List.getElem?_take_of_lt hi]

theorem onWire_behind (bytes : List UInt8) {i : Nat} (hi : bytes.length ≤ i) :
    onWire bytes i = 0 := by
  rw [onWire, List.getD_eq_getElem?_getD, List.getElem?_eq_none hi, Option.getD_none]

/-- A buffer that holds a list from its start on, and zeros behind it. -/
theorem bytes_eq_padded {β : Type} {m : Mem β} {b : β} {data : List UInt8} {n : Nat}
    (hle : data.length ≤ n) (h : ∀ i < n, m b i = onWire data i) :
    m.bytes b n = data ++ List.replicate (n - data.length) 0 := by
  refine List.ext_getElem? fun i => ?_
  by_cases hi : i < n
  · rw [Mem.bytes, List.getElem?_map, List.getElem?_range hi, Option.map_some, h i hi]
    by_cases hdata : i < data.length
    · rw [List.getElem?_append_left hdata, onWire, List.getD_eq_getElem?_getD,
        List.getElem?_eq_getElem hdata, Option.getD_some]
    · rw [List.getElem?_append_right (by omega), List.getElem?_replicate, if_pos (by omega),
        onWire_behind data (by omega)]
  · rw [List.getElem?_eq_none (by rw [Mem.length_bytes]; omega),
      List.getElem?_eq_none (by simp; omega)]

/-- A field that lies inside a message is a piece of it. -/
theorem slice_onWire (bytes : List UInt8) {o n : Nat} (h : o + n ≤ bytes.length) :
    slice (onWire bytes) o n = (bytes.drop o).take n := by
  refine List.ext_getElem? fun i => ?_
  rw [getElem?_slice, List.getElem?_take]
  by_cases hi : i < n
  · rw [if_pos hi, if_pos hi, List.getElem?_drop, onWire, List.getD_eq_getElem?_getD,
      List.getElem?_eq_getElem (by omega), Option.getD_some]
  · rw [if_neg hi, if_neg hi]

/-! ## Pieces that are replaced -/

/-- The list `l` with `piece` in the place of as many elements from `p` on. -/
def splice {α : Type} (l : List α) (p : Nat) (piece : List α) : List α :=
  l.take p ++ piece ++ l.drop (p + piece.length)

theorem getElem?_splice {α : Type} {l piece : List α} {p : Nat} (h : p + piece.length ≤ l.length)
    (i : Nat) :
    (splice l p piece)[i]? = if p ≤ i ∧ i < p + piece.length then piece[i - p]? else l[i]? := by
  have hfront : (l.take p ++ piece).length = p + piece.length := by
    simp only [List.length_append, List.length_take]
    omega
  unfold splice
  by_cases hi : i < p + piece.length
  · rw [List.getElem?_append_left (by omega)]
    by_cases hp : p ≤ i
    · rw [if_pos ⟨hp, hi⟩, List.getElem?_append_right (by simp; omega)]
      congr 1
      simp only [List.length_take]
      omega
    · rw [if_neg fun hin => hp hin.1, List.getElem?_append_left (by simp; omega),
        List.getElem?_take_of_lt (by omega)]
  · rw [if_neg fun hin => hi hin.2, List.getElem?_append_right (by omega), hfront,
      List.getElem?_drop]
    congr 1
    omega

/-- A slice of a sequence in which `k` bytes are replaced inside the slice. -/
theorem slice_overwritten {d : Nat → UInt8} {k : Nat} (hp : p + k ≤ n)
    (hin : ∀ i < k, g (o + p + i) = d i)
    (hout : ∀ i, ¬ (o + p ≤ i ∧ i < o + p + k) → g i = f i) :
    slice g o n = splice (slice f o n) p (slice d 0 k) := by
  refine List.ext_getElem? fun i => ?_
  rw [getElem?_splice (by simpa using hp), length_slice, getElem?_slice, getElem?_slice,
    getElem?_slice]
  by_cases hi : p ≤ i ∧ i < p + k
  · have hbyte := hin (i - p) (by omega)
    rw [if_pos hi, if_pos (by omega), if_pos (by omega), Nat.zero_add, ← hbyte]
    congr 2
    omega
  · rw [if_neg hi, hout (o + i) (by omega)]

end Txei.Machine

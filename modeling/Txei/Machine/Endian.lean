import Txei.Machine.Word
import Mathlib.Algebra.Order.Ring.Nat
import Mathlib.Tactic.Ring

/-!
# Numbers of many bytes

The big-endian and the little-endian value of the first `n` bytes of a sequence. Zero bytes in
front leave a big-endian value alone, zero bytes behind it multiply it, and two sequences of one
length have the same value only when they are the same.
-/

namespace Txei.Machine

/-- The big-endian value of the bytes `f 0, …, f (n - 1)`. -/
def bigEndian (f : Nat → UInt8) : Nat → Nat
  | 0 => 0
  | n + 1 => 256 * bigEndian f n + (f n).toNat

/-- The little-endian value of the bytes `f 0, …, f (n - 1)`. -/
def littleEndian (f : Nat → UInt8) : Nat → Nat
  | 0 => 0
  | n + 1 => littleEndian f n + 256 ^ n * (f n).toNat

theorem bigEndian_congr {f g : Nat → UInt8} {n : Nat} (h : ∀ i < n, f i = g i) :
    bigEndian f n = bigEndian g n := by
  induction n with
  | zero => rfl
  | succ n ih =>
      rw [bigEndian, bigEndian, h n n.lt_succ_self, ih fun i hi => h i (Nat.lt_succ_of_lt hi)]

/-- A big-endian value splits between any two bytes. -/
theorem bigEndian_add (f : Nat → UInt8) (k n : Nat) :
    bigEndian f (k + n) = bigEndian f k * 256 ^ n + bigEndian (fun i => f (k + i)) n := by
  induction n with
  | zero => simp [bigEndian]
  | succ n ih =>
      rw [← Nat.add_assoc, bigEndian, ih, bigEndian]
      ring

theorem bigEndian_zero {f : Nat → UInt8} {n : Nat} (h : ∀ i < n, f i = 0) :
    bigEndian f n = 0 := by
  induction n with
  | zero => rfl
  | succ n ih => simp [bigEndian, h n n.lt_succ_self, ih fun i hi => h i (Nat.lt_succ_of_lt hi)]

/-- Zero bytes in front do not count. -/
theorem bigEndian_leading {f : Nat → UInt8} {k : Nat} (h : ∀ i < k, f i = 0) (n : Nat) :
    bigEndian f (k + n) = bigEndian (fun i => f (k + i)) n := by
  rw [bigEndian_add, bigEndian_zero h, Nat.zero_mul, Nat.zero_add]

/-- Zero bytes behind shift the value. -/
theorem bigEndian_trailing {f : Nat → UInt8} {k n : Nat} (h : ∀ i < n, f (k + i) = 0) :
    bigEndian f (k + n) = bigEndian f k * 256 ^ n := by
  rw [bigEndian_add, bigEndian_zero h, Nat.add_zero]

/-- A field that is filled from its start holds the number with zero bytes behind it. -/
theorem bigEndian_filled {f g : Nat → UInt8} {n width : Nat} (hn : n ≤ width)
    (h : ∀ i < width, f i = if i < n then g i else 0) :
    bigEndian f width = bigEndian g n * 256 ^ (width - n) := by
  obtain ⟨k, rfl⟩ := Nat.exists_eq_add_of_le hn
  have hzero : ∀ i < k, f (n + i) = 0 := fun i hi => by rw [h _ (by omega), if_neg (by omega)]
  have hfront : ∀ i < n, f i = g i := fun i hi => by rw [h i (by omega), if_pos hi]
  rw [bigEndian_trailing hzero, bigEndian_congr hfront, Nat.add_sub_cancel_left]

/-- A field that is filled up to its end holds the number. -/
theorem bigEndian_aligned {f g : Nat → UInt8} {n width : Nat} (hn : n ≤ width)
    (h : ∀ i < width, f i = if i < width - n then 0 else g (i - (width - n))) :
    bigEndian f width = bigEndian g n := by
  obtain ⟨k, rfl⟩ := Nat.exists_eq_add_of_le' hn
  rw [Nat.add_sub_cancel] at h
  have hzero : ∀ i < k, f i = 0 := fun i hi => by rw [h i (by omega), if_pos hi]
  rw [bigEndian_leading hzero]
  refine bigEndian_congr fun i hi => ?_
  rw [h _ (by omega), if_neg (by omega), Nat.add_sub_cancel_left]

/-- A value determines its bytes. -/
theorem bigEndian_inj {f g : Nat → UInt8} {n : Nat} :
    bigEndian f n = bigEndian g n ↔ ∀ i < n, f i = g i := by
  refine ⟨fun h => ?_, bigEndian_congr⟩
  induction n with
  | zero => exact fun i hi => absurd hi (Nat.not_lt_zero i)
  | succ n ih =>
      have hf := (f n).toNat_lt
      have hg := (g n).toNat_lt
      rw [bigEndian, bigEndian] at h
      have hlast : (f n).toNat = (g n).toNat := by omega
      intro i hi
      rcases Nat.lt_succ_iff_lt_or_eq.mp hi with hlt | rfl
      · exact ih (by omega) i hlt
      · exact UInt8.toNat_inj.mp hlast

/-- Two numbers, the second of the longer length, fill a field alike when the second is the first
with zero bytes behind it. -/
theorem filled_eq_iff {p q n k width : Nat} (hk : n + k ≤ width) :
    p * 256 ^ (width - n) = q * 256 ^ (width - (n + k)) ↔ q = p * 256 ^ k := by
  have hsplit : width - n = k + (width - (n + k)) := by omega
  rw [hsplit, pow_add, ← Nat.mul_assoc]
  exact (Nat.mul_left_inj (Nat.pow_pos (by decide)).ne').trans eq_comm

/-- The bytes in reverse order have as big-endian value what they have as little-endian value in
order. -/
theorem bigEndian_reverse (f : Nat → UInt8) (n : Nat) :
    bigEndian (fun i => f (n - 1 - i)) n = littleEndian f n := by
  induction n with
  | zero => rfl
  | succ n ih =>
      have hfront : bigEndian (fun i => f (n - i)) 1 = (f n).toNat := by simp [bigEndian]
      have hrest : bigEndian (fun i => f (n - (1 + i))) n = littleEndian f n := by
        rw [← ih]
        exact bigEndian_congr fun i _ => by rw [Nat.sub_sub]
      rw [Nat.add_sub_cancel, Nat.add_comm n 1, bigEndian_add, hfront, hrest, Nat.add_comm 1 n,
        littleEndian, Nat.add_comm, Nat.mul_comm]

theorem littleEndian_lt (f : Nat → UInt8) (n : Nat) : littleEndian f n < 256 ^ n := by
  induction n with
  | zero => exact Nat.one_pos
  | succ n ih =>
      have hlast : (f n).toNat ≤ 255 := Nat.le_of_lt_succ (f n).toNat_lt
      calc littleEndian f n + 256 ^ n * (f n).toNat
          < 256 ^ n + 256 ^ n * 255 :=
            Nat.add_lt_add_of_lt_of_le ih (Nat.mul_le_mul_left _ hlast)
        _ = 256 ^ (n + 1) := by ring

/-- A little-endian value splits between any two bytes. -/
theorem littleEndian_add (f : Nat → UInt8) (k n : Nat) :
    littleEndian f (k + n) = littleEndian f k + 256 ^ k * littleEndian (fun i => f (k + i)) n := by
  induction n with
  | zero => simp [littleEndian]
  | succ n ih =>
      rw [← Nat.add_assoc, littleEndian, ih, littleEndian]
      ring

/-- The low bytes hold the value up to the power they stop at. -/
theorem littleEndian_mod (f : Nat → UInt8) (k n : Nat) :
    littleEndian f (k + n) % 256 ^ k = littleEndian f k := by
  rw [littleEndian_add, Nat.add_mul_mod_self_left, Nat.mod_eq_of_lt (littleEndian_lt f k)]

end Txei.Machine

import Mathlib.Algebra.Ring.Int.Defs
import Mathlib.Algebra.Ring.Nat

/-!
# Machine words

Fixed-width C integers as `Nat` and `Int` with explicit reduction. `wrap16`, `wrap32` and
`uint32` are the conversions to `uint16_t` and `uint32_t`, `int32` is the conversion to a 32-bit
two's-complement `int`, and `word` with `byteAt` is the little-endian layout of a 32-bit object
in memory.
-/

namespace Txei.Machine

/-- The value left in a `uint32_t` object by assigning the unsigned value `n`. -/
def wrap32 (n : Nat) : Nat := n % 2 ^ 32

/-- The value left in a `uint16_t` object by assigning the unsigned value `n`. -/
def wrap16 (n : Nat) : Nat := n % 2 ^ 16

/-- The value left in a `uint32_t` object by assigning the signed value `i`. -/
def uint32 (i : Int) : Nat := (i % 2 ^ 32).toNat

/-- The value left in a 32-bit `int` object by assigning `i`. -/
def int32 (i : Int) : Int := (i + 2 ^ 31) % 2 ^ 32 - 2 ^ 31

theorem wrap32_of_lt {n : Nat} (h : n < 2 ^ 32) : wrap32 n = n := Nat.mod_eq_of_lt h

theorem int32_of_nonneg_lt {i : Int} (h0 : 0 ≤ i) (h : i < 2 ^ 31) : int32 i = i := by
  unfold int32
  omega

theorem int32_lt (i : Int) : int32 i < 2 ^ 31 := by
  unfold int32
  omega

/-! Conversion to an unsigned type leaves the residue. -/

theorem toNat_uint8_ofInt (n : Int) : ((UInt8.ofInt n).toNat : Int) = n % 2 ^ 8 := by
  unfold UInt8.ofInt
  rw [UInt8.toNat_ofNat']
  omega

theorem toNat_uint16_ofInt (n : Int) : ((UInt16.ofInt n).toNat : Int) = n % 2 ^ 16 := by
  unfold UInt16.ofInt
  rw [UInt16.toNat_ofNat']
  omega

theorem toNat_toUInt64 (n : Int64) : (n.toUInt64.toNat : Int) = n.toInt % 2 ^ 64 := by
  have hsigned : n.toInt = n.toBitVec.toInt := rfl
  have hunsigned : n.toUInt64.toNat = n.toBitVec.toNat := rfl
  have hlt := n.toBitVec.isLt
  rw [hsigned, hunsigned, BitVec.toInt_eq_toNat_cond]
  split
  · omega
  · omega

/-- Byte `i` of the little-endian representation of `v`. -/
def byteAt (v i : Nat) : UInt8 := UInt8.ofNat (v / 256 ^ i)

/-- The 32-bit little-endian value of the four bytes `f 0 … f 3`. -/
def word (f : Nat → UInt8) : Nat :=
  (f 0).toNat + 256 * (f 1).toNat + 65536 * (f 2).toNat + 16777216 * (f 3).toNat

theorem word_lt (f : Nat → UInt8) : word f < 2 ^ 32 := by
  have h0 := (f 0).toNat_lt
  have h1 := (f 1).toNat_lt
  have h2 := (f 2).toNat_lt
  have h3 := (f 3).toNat_lt
  unfold word
  omega

/-- The four low bytes of `v` represent `v` reduced to 32 bits. -/
theorem word_byteAt (v : Nat) : word (byteAt v) = wrap32 v := by
  simp only [word, byteAt, wrap32, UInt8.toNat_ofNat']
  omega

/-- The bytes of `v` from byte `k` on represent what is left of `v` above them. -/
theorem byteAt_add (v k i : Nat) : byteAt v (k + i) = byteAt (v / 256 ^ k) i := by
  unfold byteAt
  rw [Nat.pow_add, Nat.div_div_eq_div_mul]

/-- The `size` bytes `dst` are the `n` bytes `src` with zeros behind them. -/
def Padded (dst : Nat → UInt8) (size : Nat) (src : Nat → UInt8) (n : Nat) : Prop :=
  ∀ i < size, dst i = if i < n then src i else 0

/-- A word is determined by its four bytes. -/
theorem word_congr {f g : Nat → UInt8} (h : ∀ i < 4, f i = g i) : word f = word g := by
  simp only [word, h 0 (by decide), h 1 (by decide), h 2 (by decide), h 3 (by decide)]

/-- Bytes that represent `v` have its value, reduced to 32 bits. -/
theorem word_of_byteAt {f : Nat → UInt8} {v : Nat} (h : ∀ i < 4, f i = byteAt v i) :
    word f = wrap32 v :=
  (word_congr h).trans (word_byteAt v)

end Txei.Machine

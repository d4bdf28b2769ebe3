import Txei.Machine.Word
import Mathlib.Data.Nat.Digits.Lemmas

/-!
# Decimal numerals

`strtoul` and `atoi` of the C library in base 10, on the text that they are given, and the numeral
`decimal n` of a number. A numeral is read back whatever non-digit is behind it (`strtoul_decimal`).
-/

namespace Txei.Machine

/-- `isspace` in the C locale. -/
def isSpace (c : UInt8) : Bool := c = 32 ∨ 9 ≤ c ∧ c ≤ 13

/-- `isdigit`. -/
def isDigit (c : UInt8) : Bool := 48 ≤ c ∧ c ≤ 57

/-- The number that digits stand for. -/
def digitsValue (t : List UInt8) : Nat := t.foldl (fun n c => 10 * n + (c.toNat - 48)) 0

/-- What a C library leaves open: the range of an `unsigned long`, and whether `errno` is set when
there is nothing to convert. -/
structure CLibrary where
  ulongMax : Nat
  einval : Bool
  range : 2 ^ 32 - 1 ≤ ulongMax
  deriving DecidableEq

/-- A value together with whether `errno` was set. -/
structure Converted where
  value : Nat
  errno : Bool
  deriving DecidableEq, Repr

/-- Whether the numeral that a text starts with, behind spaces, has a minus sign, and its digits. -/
def numeral (t : List UInt8) : Bool × List UInt8 :=
  match t.dropWhile isSpace with
  | 43 :: u => (false, u.takeWhile isDigit)
  | 45 :: u => (true, u.takeWhile isDigit)
  | u => (false, u.takeWhile isDigit)

/-- `strtoul` in base 10. -/
def CLibrary.strtoul (c : CLibrary) (t : List UInt8) : Converted :=
  let (negative, digits) := numeral t
  if digits = [] then ⟨0, c.einval⟩
  else if c.ulongMax < digitsValue digits then ⟨c.ulongMax, true⟩
  else if negative then ⟨(c.ulongMax + 1 - digitsValue digits) % (c.ulongMax + 1), false⟩
  else ⟨digitsValue digits, false⟩

/-- `strtol` in base 10, which stays within the bounds of a `long`. -/
def CLibrary.strtol (c : CLibrary) (t : List UInt8) : Int :=
  let (negative, digits) := numeral t
  if negative then max (-digitsValue digits) (-(c.ulongMax / 2 : Nat) - 1)
  else min (digitsValue digits) (c.ulongMax / 2 : Nat)

/-- `atoi`, which narrows what `strtol` returns. -/
def CLibrary.atoi (c : CLibrary) (t : List UInt8) : Int := int32 (c.strtol t)

/-- The digit for `d`. -/
def digitByte (d : Nat) : UInt8 := UInt8.ofNat (48 + d)

theorem toNat_digitByte {d : Nat} (h : d < 10) : (digitByte d).toNat = 48 + d := by
  rw [digitByte, UInt8.toNat_ofNat']
  omega

theorem isDigit_digitByte {d : Nat} (h : d < 10) : isDigit (digitByte d) = true := by
  have hd := toNat_digitByte h
  have h48 : (48 : UInt8).toNat = 48 := rfl
  have h57 : (57 : UInt8).toNat = 57 := rfl
  simp only [isDigit, decide_eq_true_eq, UInt8.le_iff_toNat_le, hd]
  omega

theorem isSpace_of_isDigit {c : UInt8} (h : isDigit c = true) : isSpace c = false := by
  simp only [isDigit, decide_eq_true_eq, UInt8.le_iff_toNat_le] at h
  simp only [isSpace, decide_eq_false_iff_not, UInt8.le_iff_toNat_le, ← UInt8.toNat_inj]
  have h48 : (48 : UInt8).toNat = 48 := rfl
  have h32 : (32 : UInt8).toNat = 32 := rfl
  have h13 : (13 : UInt8).toNat = 13 := rfl
  omega

/-- The numeral of a number. -/
def decimal (n : Nat) : List UInt8 :=
  if n = 0 then [digitByte 0] else (Nat.digits 10 n).reverse.map digitByte

theorem decimal_ne_nil (n : Nat) : decimal n ≠ [] := by
  unfold decimal
  split
  · exact List.cons_ne_nil _ _
  · rename_i hn
    simpa using Nat.digits_ne_nil_iff_ne_zero.mpr hn

theorem isDigit_of_mem_decimal {n : Nat} {c : UInt8} (h : c ∈ decimal n) : isDigit c = true := by
  unfold decimal at h
  split at h
  · rw [List.mem_singleton.mp h]
    exact isDigit_digitByte (by omega)
  · obtain ⟨d, hd, rfl⟩ := List.mem_map.mp h
    exact isDigit_digitByte (Nat.digits_lt_base (by omega) (List.mem_reverse.mp hd))

theorem digitsValue_digits {l : List Nat} (h : ∀ d ∈ l, d < 10) :
    digitsValue (l.reverse.map digitByte) = Nat.ofDigits 10 l := by
  induction l with
  | nil => rfl
  | cons d l ih =>
      have hrest := ih fun e he => h e (List.mem_cons_of_mem d he)
      have hd := toNat_digitByte (h d List.mem_cons_self)
      unfold digitsValue at hrest ⊢
      rw [List.reverse_cons, List.map_append, List.foldl_append, hrest]
      show 10 * Nat.ofDigits 10 l + ((digitByte d).toNat - 48) = _
      rw [hd, Nat.ofDigits_cons]
      omega

theorem digitsValue_decimal (n : Nat) : digitsValue (decimal n) = n := by
  unfold decimal
  split
  · rename_i hn
    exact hn.symm ▸ rfl
  · rw [digitsValue_digits fun d hd => Nat.digits_lt_base (by omega) hd, Nat.ofDigits_digits]

/-- A text of digits has neither a space nor a sign before them. -/
theorem numeral_of_isDigit {c : UInt8} (hc : isDigit c = true) (t : List UInt8) :
    numeral (c :: t) = (false, (c :: t).takeWhile isDigit) := by
  have hdrop : (c :: t).dropWhile isSpace = c :: t :=
    List.dropWhile_cons_of_neg (by simp [isSpace_of_isDigit hc])
  unfold numeral
  rw [hdrop]
  split
  · rename_i heq
    obtain ⟨rfl, -⟩ := List.cons.inj heq
    exact absurd hc (by decide)
  · rename_i heq
    obtain ⟨rfl, -⟩ := List.cons.inj heq
    exact absurd hc (by decide)
  · rfl

/-- The digits of a numeral end where no digit follows. -/
theorem numeral_decimal_append (n : Nat) (rest : List UInt8)
    (hrest : rest.takeWhile isDigit = []) : numeral (decimal n ++ rest) = (false, decimal n) := by
  have htake : (decimal n ++ rest).takeWhile isDigit = decimal n := by
    rw [List.takeWhile_append_of_pos fun a ha => isDigit_of_mem_decimal ha, hrest,
      List.append_nil]
  cases hd : decimal n with
  | nil => exact absurd hd (decimal_ne_nil n)
  | cons d t =>
      rw [hd] at htake
      have hdigit : isDigit d = true := isDigit_of_mem_decimal (hd ▸ List.mem_cons_self)
      rw [List.cons_append, numeral_of_isDigit hdigit, ← List.cons_append, htake]

/-- A numeral is read back. -/
theorem strtoul_decimal (lib : CLibrary) {n : Nat} (hn : n ≤ lib.ulongMax) {c : UInt8}
    (hc : isDigit c = false) (rest : List UInt8) :
    lib.strtoul (decimal n ++ c :: rest) = ⟨n, false⟩ := by
  unfold CLibrary.strtoul
  rw [numeral_decimal_append n (c :: rest) (List.takeWhile_cons_of_neg (by simp [hc]))]
  show (if decimal n = [] then _ else _) = _
  rw [if_neg (decimal_ne_nil n), digitsValue_decimal, if_neg (by omega), if_neg (by decide)]

theorem atoi_decimal (lib : CLibrary) {n : Nat} (hn : n < 2 ^ 31) :
    lib.atoi (decimal n) = n := by
  have hnumeral := numeral_decimal_append n [] rfl
  have hrange := lib.range
  rw [List.append_nil] at hnumeral
  unfold CLibrary.atoi CLibrary.strtol
  rw [hnumeral]
  show int32 (if false = true then _ else _) = _
  rw [if_neg (by decide), digitsValue_decimal, min_eq_left (by omega)]
  exact int32_of_nonneg_lt (by omega) (by omega)

end Txei.Machine

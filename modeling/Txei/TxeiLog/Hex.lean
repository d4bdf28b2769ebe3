import Txei.TxeiLog.Message

/-!
# Hexadecimal rows

The loop of `txei_log_buf` prints two digits for each byte and a newline behind every eighth one:
`dump`. `rows` is the dump with its last row ended. A reader of such rows takes up to eight bytes
from each of them and stops behind one that is shorter; `decodeRows_rows` is the round trip, and
`length_of_decodeRows` counts the bytes of any text that decodes.
-/

namespace Txei.TxeiLog

/-! ## Digits -/

/-- The value of an upper-case hexadecimal digit. -/
def hexValue (c : UInt8) : Option Nat :=
  if 48 ≤ c.toNat ∧ c.toNat ≤ 57 then some (c.toNat - 48)
  else if 65 ≤ c.toNat ∧ c.toNat ≤ 70 then some (c.toNat - 55)
  else none

theorem toNat_hexDigit {n : Nat} (hn : n < 16) :
    (hexDigit n).toNat = if n < 10 then 48 + n else 55 + n := by
  unfold hexDigit
  rw [UInt8.toNat_ofNat']
  split <;> omega

theorem hexValue_hexDigit {n : Nat} (hn : n < 16) : hexValue (hexDigit n) = some n := by
  unfold hexValue
  rw [toNat_hexDigit hn]
  grind

theorem hexValue_newline : hexValue newline = none := by decide

theorem hexValue_zero : hexValue 0 = none := by decide

/-- A digit is no byte that `newline_terminate` cuts. -/
theorem hexDigit_ne {n : Nat} (hn : n < 16) : hexDigit n ≠ 0 ∧ hexDigit n ≠ newline := by
  have hvalue := hexValue_hexDigit hn
  constructor
  · intro hzero
    rw [hzero, hexValue_zero] at hvalue
    cases hvalue
  · intro hnewline
    rw [hnewline, hexValue_newline] at hvalue
    cases hvalue

theorem high_lt (c : UInt8) : c.toNat / 16 < 16 := by
  have hlt := c.toNat_lt
  omega

theorem low_lt (c : UInt8) : c.toNat % 16 < 16 := Nat.mod_lt _ (by decide)

/-! ## Rows -/

/-- What the loop of `txei_log_buf` prints for bytes the first of which has the index `i`. -/
def dump : Nat → List UInt8 → List UInt8
  | _, [] => []
  | i, c :: bytes => hex c ++ (if i % 8 = 7 then [newline] else []) ++ dump (i + 1) bytes

/-- The dump with its last row ended. -/
def rows (bytes : List UInt8) : List UInt8 :=
  dump 0 bytes ++ if bytes.length % 8 = 0 then [] else [newline]

theorem dump_append (i : Nat) (bytes more : List UInt8) :
    dump i (bytes ++ more) = dump i bytes ++ dump (i + bytes.length) more := by
  induction bytes generalizing i with
  | nil => rfl
  | cons c bytes ih =>
      rw [List.cons_append, dump, dump, ih, List.length_cons,
        show i + 1 + bytes.length = i + (bytes.length + 1) by omega]
      simp only [List.append_assoc]

theorem length_dump (bytes : List UInt8) :
    (dump 0 bytes).length = 2 * bytes.length + bytes.length / 8 := by
  induction bytes using List.reverseRecOn with
  | nil => rfl
  | append_singleton bytes c ih =>
      rw [dump_append, List.length_append, ih]
      simp only [dump, hex, Nat.zero_add, List.append_nil, List.length_append, List.length_cons,
        List.length_nil]
      split <;> simp <;> omega

theorem zero_notMem_dump (i : Nat) (bytes : List UInt8) : 0 ∉ dump i bytes := by
  induction bytes generalizing i with
  | nil => exact List.not_mem_nil
  | cons c bytes ih =>
      have hhigh := (hexDigit_ne (high_lt c)).1
      have hlow := (hexDigit_ne (low_lt c)).1
      simp only [dump, hex, List.mem_append, not_or]
      refine ⟨⟨?_, ?_⟩, ih (i + 1)⟩
      · simp [hhigh.symm, hlow.symm]
      · split <;> simp

/-! ## Reading rows -/

/-- Where a reader stands: in a row with some bytes read, between the digits of one, or behind a row
of less than eight. -/
inductive Scan where
  | row (bytes : List UInt8) (column : Nat)
  | digit (bytes : List UInt8) (column high : Nat)
  | ended (bytes : List UInt8)
  deriving DecidableEq, Repr

/-- Read one more character. -/
def Scan.next : Scan → UInt8 → Option Scan
  | .row bytes column, c =>
      if c = newline then
        if column = 8 then some (.row bytes 0)
        else if column = 0 then none
        else some (.ended bytes)
      else if column = 8 then none
      else (hexValue c).map (.digit bytes column)
  | .digit bytes column high, c =>
      (hexValue c).map fun low => .row (bytes ++ [UInt8.ofNat (16 * high + low)]) (column + 1)
  | .ended _, _ => none

/-- The bytes that have been read where a row has just been ended. -/
def Scan.result? : Scan → Option (List UInt8)
  | .row bytes 0 => some bytes
  | .ended bytes => some bytes
  | _ => none

/-- The bytes that rows of eight stand for. -/
def decodeRows (text : List UInt8) : Option (List UInt8) :=
  (text.foldlM Scan.next (.row [] 0)).bind Scan.result?

/-- The two digits of a byte. -/
theorem scan_hex (bytes : List UInt8) {column : Nat} (hcolumn : column < 8) (c : UInt8) :
    (hex c).foldlM Scan.next (.row bytes column) = some (.row (bytes ++ [c]) (column + 1)) := by
  have hhigh : Scan.next (.row bytes column) (hexDigit (c.toNat / 16)) =
      some (.digit bytes column (c.toNat / 16)) := by
    rw [Scan.next, if_neg (hexDigit_ne (high_lt c)).2, if_neg (Nat.ne_of_lt hcolumn),
      hexValue_hexDigit (high_lt c)]
    rfl
  have hlow : Scan.next (.digit bytes column (c.toNat / 16)) (hexDigit (c.toNat % 16)) =
      some (.row (bytes ++ [c]) (column + 1)) := by
    rw [Scan.next, hexValue_hexDigit (low_lt c), Option.map_some, Nat.div_add_mod,
      UInt8.ofNat_toNat]
  show (Scan.next _ _).bind (fun st => (Scan.next st _).bind some) = _
  rw [hhigh, Option.bind_some, hlow, Option.bind_some]

theorem scan_dump (i : Nat) (bytes done : List UInt8) :
    (dump i bytes).foldlM Scan.next (.row done (i % 8)) =
      some (.row (done ++ bytes) ((i + bytes.length) % 8)) := by
  induction bytes generalizing i done with
  | nil => simp [dump]
  | cons c bytes ih =>
      rw [dump, List.foldlM_append, List.foldlM_append, scan_hex done (Nat.mod_lt i (by decide))]
      have hrow : (if i % 8 = 7 then [newline] else []).foldlM Scan.next
          (.row (done ++ [c]) (i % 8 + 1)) = some (.row (done ++ [c]) ((i + 1) % 8)) := by
        by_cases hlast : i % 8 = 7
        · rw [if_pos hlast, hlast, show (i + 1) % 8 = 0 by omega]
          rfl
        · rw [if_neg hlast, show (i + 1) % 8 = i % 8 + 1 by omega]
          rfl
      simp only [Option.bind_eq_bind, Option.bind_some]
      rw [hrow, Option.bind_some, ih, List.length_cons, List.append_assoc, List.singleton_append,
        show i + 1 + bytes.length = i + (bytes.length + 1) by omega]

/-- The rows of any bytes are read back. -/
theorem decodeRows_rows (bytes : List UInt8) : decodeRows (rows bytes) = some bytes := by
  unfold decodeRows rows
  have hdump := scan_dump 0 bytes []
  rw [Nat.zero_mod, Nat.zero_add, List.nil_append] at hdump
  rw [List.foldlM_append, hdump]
  by_cases hwhole : bytes.length % 8 = 0
  · rw [if_pos hwhole, hwhole]
    rfl
  · rw [if_neg hwhole]
    show (Option.bind (Scan.next (.row bytes (bytes.length % 8)) newline) some).bind _ = _
    rw [Scan.next, if_pos rfl, if_neg (by omega), if_neg hwhole]
    rfl

/-- What a reader that has seen `n` characters has read. -/
def Scan.Counts (n : Nat) : Scan → Prop
  | .row bytes column => ∃ k, column ≤ 8 ∧ bytes.length = 8 * k + column ∧ n = 2 * bytes.length + k
  | .digit bytes column _ =>
      ∃ k, column < 8 ∧ bytes.length = 8 * k + column ∧ n = 2 * bytes.length + k + 1
  | .ended bytes => n = 2 * bytes.length + (bytes.length + 7) / 8

theorem Scan.Counts.next {n : Nat} {st st' : Scan} {c : UInt8} (h : st.Counts n)
    (hnext : st.next c = some st') : st'.Counts (n + 1) := by
  cases st with
  | row bytes column =>
      obtain ⟨k, hcolumn, hlength, rfl⟩ := h
      rw [Scan.next] at hnext
      by_cases hc : c = newline
      · rw [if_pos hc] at hnext
        by_cases hfull : column = 8
        · rw [if_pos hfull] at hnext
          obtain rfl := Option.some.inj hnext
          exact ⟨k + 1, by omega, by omega, by omega⟩
        · rw [if_neg hfull] at hnext
          by_cases hblank : column = 0
          · rw [if_pos hblank] at hnext
            cases hnext
          · rw [if_neg hblank] at hnext
            obtain rfl := Option.some.inj hnext
            show _ = _
            omega
      · rw [if_neg hc] at hnext
        by_cases hfull : column = 8
        · rw [if_pos hfull] at hnext
          cases hnext
        · rw [if_neg hfull] at hnext
          obtain ⟨high, -, rfl⟩ := Option.map_eq_some_iff.mp hnext
          exact ⟨k, by omega, hlength, rfl⟩
  | digit bytes column high =>
      obtain ⟨k, hcolumn, hlength, rfl⟩ := h
      obtain ⟨low, -, rfl⟩ := Option.map_eq_some_iff.mp hnext
      refine ⟨k, hcolumn, ?_, ?_⟩
      · rw [List.length_append, List.length_singleton, hlength, Nat.add_assoc]
      · rw [List.length_append, List.length_singleton]
        omega
  | ended bytes => cases hnext

theorem Scan.Counts.foldlM {n : Nat} {st st' : Scan} {text : List UInt8} (h : st.Counts n)
    (hread : text.foldlM Scan.next st = some st') : st'.Counts (n + text.length) := by
  induction text generalizing n st with
  | nil =>
      obtain rfl := Option.some.inj hread
      exact h
  | cons c text ih =>
      rw [List.foldlM_cons] at hread
      obtain ⟨mid, hmid, hrest⟩ := Option.bind_eq_some_iff.mp hread
      rw [List.length_cons, Nat.add_comm text.length, ← Nat.add_assoc]
      exact ih (h.next hmid) hrest

/-- A text that decodes has two digits for each byte and a newline for each row. -/
theorem length_of_decodeRows {text bytes : List UInt8} (h : decodeRows text = some bytes) :
    text.length = 2 * bytes.length + (bytes.length + 7) / 8 := by
  obtain ⟨st, hread, hresult⟩ := Option.bind_eq_some_iff.mp h
  have hstart : (Scan.row [] 0).Counts 0 := ⟨0, by decide, rfl, rfl⟩
  have hcounts := hstart.foldlM hread
  rw [Nat.zero_add] at hcounts
  match st, hresult with
  | .row bytes' 0, hresult =>
      obtain rfl := Option.some.inj hresult
      obtain ⟨k, -, hlength, htext⟩ := hcounts
      omega
  | .ended bytes', hresult =>
      obtain rfl := Option.some.inj hresult
      exact hcounts

end Txei.TxeiLog

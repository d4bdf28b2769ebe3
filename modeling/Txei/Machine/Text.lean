import Txei.Machine.Program
import Mathlib.Data.List.DropRight

/-!
# Text in memory

A block starts with a text when its first bytes are those of the text, whatever is behind them. A
text that is put at an offset replaces what the block held from there on, so `Starts.putBytes` cuts
the text before and appends. `cString` is what a reader of a C string finds: the bytes before the
first NUL.
-/

namespace Txei.Machine

variable {κ β ε : Type}

/-- The bytes before the first NUL. -/
def cString (t : List UInt8) : List UInt8 := t.takeWhile (· ≠ 0)

theorem cString_eq_self {t : List UInt8} (h : 0 ∉ t) : cString t = t := by
  refine List.takeWhile_eq_self_iff.mpr fun c hc => ?_
  have hne : c ≠ 0 := ne_of_mem_of_not_mem hc h
  simpa using hne

@[simp] theorem cString_append_zero (t u : List UInt8) : cString (t ++ 0 :: u) = cString t := by
  induction t with
  | nil => simp [cString]
  | cons c t ih =>
      unfold cString at ih ⊢
      rw [List.cons_append, List.takeWhile_cons, List.takeWhile_cons, ih]

/-- Nothing is read behind a NUL. -/
theorem cString_append {t : List UInt8} (h : 0 ∈ t) (u : List UInt8) :
    cString (t ++ u) = cString t := by
  induction t with
  | nil => cases h
  | cons c t ih =>
      by_cases hc : c = 0
      · simp [cString, hc]
      · have hmem : 0 ∈ t := (List.mem_cons.mp h).resolve_left fun hzero => hc hzero.symm
        have hrest := ih hmem
        unfold cString at hrest ⊢
        simpa [hc] using hrest

theorem zero_notMem_cString (t : List UInt8) : 0 ∉ cString t := by
  intro h
  simpa using List.mem_takeWhile_imp h

namespace Mem

variable {m m' : Mem β} {b : β} {t : List UInt8}

/-- The first `n` bytes of a block. -/
def bytes (m : Mem β) (b : β) (n : Nat) : List UInt8 := (List.range n).map (m b)

@[simp] theorem length_bytes (m : Mem β) (b : β) (n : Nat) : (m.bytes b n).length = n := by
  simp [bytes]

theorem bytes_succ (m : Mem β) (b : β) (n : Nat) : m.bytes b (n + 1) = m.bytes b n ++ [m b n] := by
  simp [bytes, List.range_succ]

theorem getElem?_bytes (m : Mem β) (b : β) (n i : Nat) :
    (m.bytes b n)[i]? = if i < n then some (m b i) else none := by
  by_cases hi : i < n
  · simp [bytes, hi]
  · simp [bytes, hi]

theorem bytes_congr {n : Nat} (h : ∀ i < n, m' b i = m b i) : m'.bytes b n = m.bytes b n := by
  unfold bytes
  exact List.map_congr_left fun i hi => h i (List.mem_range.mp hi)

theorem take_bytes (m : Mem β) (b : β) {k n : Nat} (h : k ≤ n) :
    (m.bytes b n).take k = m.bytes b k := by
  refine List.ext_getElem? fun i => ?_
  rw [List.getElem?_take, getElem?_bytes, getElem?_bytes]
  grind

/-- The block starts with the text `t`. -/
def Starts (m : Mem β) (b : β) (t : List UInt8) : Prop := m.bytes b t.length = t

theorem starts_nil (m : Mem β) (b : β) : m.Starts b [] := rfl

theorem Starts.bytes_eq (h : m.Starts b t) {n : Nat} (hn : n ≤ t.length) :
    m.bytes b n = t.take n := by
  rw [← take_bytes m b hn, h]

/-- Behind the text is whatever the block holds there. -/
theorem Starts.exists_append (h : m.Starts b t) {n : Nat} (hn : t.length ≤ n) :
    ∃ u, m.bytes b n = t ++ u := by
  refine ⟨(m.bytes b n).drop t.length, ?_⟩
  have htake : (m.bytes b n).take t.length = t := (take_bytes m b hn).trans h
  rw [← htake, List.length_take, length_bytes, Nat.min_eq_left hn, List.take_append_drop]

theorem Starts.take (h : m.Starts b t) (n : Nat) : m.Starts b (t.take n) := by
  unfold Starts
  rw [List.length_take, h.bytes_eq (Nat.min_le_right n t.length)]
  exact List.take_eq_take_min.symm

theorem Starts.left {u : List UInt8} (h : m.Starts b (t ++ u)) : m.Starts b t := by
  have htake := h.take t.length
  rwa [List.take_left] at htake

theorem Starts.congr (h : m.Starts b t) (heq : ∀ i < t.length, m' b i = m b i) : m'.Starts b t :=
  (bytes_congr heq).trans h

theorem Starts.mem_bytes (h : m.Starts b t) {c : UInt8} (hc : c ∈ t) {n : Nat}
    (hn : t.length ≤ n) : c ∈ m.bytes b n := by
  rw [← h, ← take_bytes m b hn] at hc
  exact List.mem_of_mem_take hc

/-- A C string is read back from any block that starts with it and its NUL. -/
theorem Starts.cString (h : m.Starts b (t ++ [0])) {n : Nat} (hn : t.length < n) :
    cString (m.bytes b n) = cString t := by
  have hstart : (m.bytes b n).take (t.length + 1) = t ++ [0] := by
    rw [take_bytes m b hn, h.bytes_eq (by simp), List.take_of_length_le (by simp)]
  rw [← List.take_append_drop (t.length + 1) (m.bytes b n), hstart, List.append_assoc,
    List.singleton_append, cString_append_zero]

variable [DecidableEq β]

/-- Put the bytes `u` at offset `o` of a block. -/
def putBytes (m : Mem β) (b : β) (o : Nat) (u : List UInt8) : Mem β :=
  m.write b o u.length fun i => u.getD i 0

/-- What a text is replaced by from an offset in it on. -/
theorem Starts.putBytes (h : m.Starts b t) {o : Nat} (ho : o ≤ t.length) (u : List UInt8) :
    (m.putBytes b o u).Starts b (t.take o ++ u) := by
  have hlength : (t.take o).length = o := List.length_take_of_le ho
  refine List.ext_getElem? fun i => ?_
  have hbytes := congrArg (fun l => l[i]?) h
  rw [getElem?_bytes, List.length_append, hlength]
  simp only [getElem?_bytes] at hbytes
  by_cases hi : i < o + u.length
  · rw [if_pos hi]
    by_cases hio : i < o
    · rw [List.getElem?_append_left (by omega), List.getElem?_take_of_lt hio, ← hbytes,
        if_pos (by omega)]
      exact congrArg some (write_outside m b o u.length _ b i (by omega))
    · rw [List.getElem?_append_right (by omega), hlength]
      refine (congrArg some (write_inside m b o u.length _ i (by omega))).trans ?_
      rw [List.getElem?_eq_getElem (by omega), List.getD_eq_getElem?_getD,
        List.getElem?_eq_getElem (by omega), Option.getD_some]
  · rw [if_neg hi, List.getElem?_eq_none]
    rw [List.length_append, hlength]
    omega

/-- What is put behind a text leaves it alone. -/
theorem Starts.putBytes_behind (h : m.Starts b t) {o : Nat} (ho : t.length ≤ o) (u : List UInt8) :
    (m.putBytes b o u).Starts b t :=
  h.congr fun i hi => write_outside m b o u.length _ b i (by omega)

end Mem

namespace Prog

/-- Read the first `n` bytes of `b`. -/
def loadBytes (b : β) (n : Nat) : Prog κ β ε (List UInt8) where
  run m := ⟨.ok (m.bytes b n), m, [.read b 0 n]⟩
  frame _ _ _ _ := rfl
  depends m m' h := by
    refine ⟨congrArg Except.ok (Mem.bytes_congr fun i hi => h b i ?_), rfl, by simp⟩
    exact ⟨_, List.mem_singleton_self _, rfl, Nat.zero_le i, by omega⟩

@[simp] theorem run_loadBytes (b : β) (n : Nat) (m : Mem β) :
    (loadBytes b n : Prog κ β ε (List UInt8)).run m = ⟨.ok (m.bytes b n), m, [.read b 0 n]⟩ := rfl

@[simp] theorem within_loadBytes {P : Event κ β → Prop} (b : β) (n : Nat) :
    Within P (loadBytes b n : Prog κ β ε (List UInt8)) ↔ P (.read b 0 n) := by
  simp [Within]

variable [DecidableEq β]

/-- Put the bytes `u` at offset `o` of `b`. -/
def putBytes (b : β) (o : Nat) (u : List UInt8) : Prog κ β ε Unit :=
  put b o u.length fun i => u.getD i 0

@[simp] theorem run_putBytes (b : β) (o : Nat) (u : List UInt8) (m : Mem β) :
    (putBytes b o u : Prog κ β ε Unit).run m =
      ⟨.ok (), m.putBytes b o u, [.write b o u.length]⟩ := rfl

@[simp] theorem within_putBytes {P : Event κ β → Prop} (b : β) (o : Nat) (u : List UInt8) :
    Within P (putBytes b o u : Prog κ β ε Unit) ↔ P (.write b o u.length) :=
  within_put ..

end Prog

end Txei.Machine

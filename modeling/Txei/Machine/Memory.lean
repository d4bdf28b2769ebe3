import Txei.Machine.Word

/-!
# Block memory

A memory is a family of byte-addressed blocks, one for each object the program names. Blocks
are unbounded: an object's size is a fact about the program that allocates it, so an access
past the end of an object has a meaning here and can be seen. `write` is the only update, and
the `word_write_*` lemmas say what a 32-bit read returns after it.
-/

namespace Txei.Machine

variable {β : Type} [DecidableEq β]

/-- A memory: the bytes of every block. -/
abbrev Mem (β : Type) : Type := β → Nat → UInt8

namespace Mem

/-- The 32-bit little-endian value at offset `o` of block `b`. -/
def word (m : Mem β) (b : β) (o : Nat) : Nat := Machine.word fun i => m b (o + i)

/-- The 16-bit little-endian value at offset `o` of block `b`. -/
def half (m : Mem β) (b : β) (o : Nat) : Nat := (m b o).toNat + 256 * (m b (o + 1)).toNat

/-- The memory in which block `b` starts with the bytes `f b` and is zero behind them. -/
def ofLists (f : β → List UInt8) : Mem β := fun b i => (f b).getD i 0

/-- The 32-bit little-endian value at offset `o` of `bytes`, with zeros behind the end. -/
def wordOf (bytes : List UInt8) (o : Nat) : Nat := Machine.word fun i => bytes.getD (o + i) 0

/-- Replace the `n` bytes of block `b` from offset `o` by `f 0, …, f (n - 1)`. -/
def write (m : Mem β) (b : β) (o n : Nat) (f : Nat → UInt8) : Mem β :=
  fun b' i => if b' = b ∧ o ≤ i ∧ i < o + n then f (i - o) else m b' i

/-- Replace the start of block `b` by `bytes`. -/
def fill (m : Mem β) (b : β) (bytes : List UInt8) : Mem β :=
  m.write b 0 bytes.length fun i => bytes.getD i 0

omit [DecidableEq β] in
theorem word_lt (m : Mem β) (b : β) (o : Nat) : m.word b o < 2 ^ 32 := Machine.word_lt _

omit [DecidableEq β] in
theorem half_lt (m : Mem β) (b : β) (o : Nat) : m.half b o < 2 ^ 16 := by
  have hlow := (m b o).toNat_lt
  have hhigh := (m b (o + 1)).toNat_lt
  unfold half
  omega

omit [DecidableEq β] in
/-- A 16-bit value is the low half of the word that starts with it. -/
theorem half_eq_word (m : Mem β) (b : β) (o : Nat) : m.half b o = wrap16 (m.word b o) := by
  have hlow := (m b o).toNat_lt
  have hhigh := (m b (o + 1)).toNat_lt
  simp only [half, word, Machine.word, wrap16, Nat.add_zero]
  omega

/-- A byte outside the written range is untouched. -/
theorem write_outside (m : Mem β) (b : β) (o n : Nat) (f : Nat → UInt8) (b' : β) (i : Nat)
    (h : ¬ (b' = b ∧ o ≤ i ∧ i < o + n)) : m.write b o n f b' i = m b' i := if_neg h

/-- A byte inside the written range reads back. -/
theorem write_inside (m : Mem β) (b : β) (o n : Nat) (f : Nat → UInt8) (i : Nat)
    (h : o ≤ i ∧ i < o + n) : m.write b o n f b i = f (i - o) := if_pos ⟨rfl, h⟩

/-- Other blocks are untouched. -/
theorem write_other (m : Mem β) {b b' : β} (o n : Nat) (f : Nat → UInt8) (h : b' ≠ b) :
    m.write b o n f b' = m b' := by
  funext i
  exact write_outside m b o n f b' i fun hc => h hc.1

/-- What a block holds after a write depends on nothing but what it held before. -/
theorem write_congr {m m' : Mem β} {b : β} (h : m' b = m b) (o n : Nat) (f : Nat → UInt8) :
    m'.write b o n f b = m.write b o n f b := by
  funext i
  simp only [write, h]

/-- Writes of the same bytes are the same. -/
theorem write_ext (m : Mem β) (b : β) (o : Nat) {n : Nat} {f g : Nat → UInt8}
    (h : ∀ i < n, f i = g i) : m.write b o n f = m.write b o n g := by
  funext b' i
  by_cases hin : b' = b ∧ o ≤ i ∧ i < o + n
  · obtain ⟨rfl, hi⟩ := hin
    rw [write_inside m b' o n f i hi, write_inside m b' o n g i hi, h (i - o) (by omega)]
  · rw [write_outside m b o n f b' i hin, write_outside m b o n g b' i hin]

/-- Two writes, the second from where the first ends, are one. -/
theorem write_write (m : Mem β) (b : β) (o k l : Nat) {f g h : Nat → UInt8}
    (hf : ∀ i < k, h i = f i) (hg : ∀ i < l, h (k + i) = g i) :
    (m.write b o k f).write b (o + k) l g = m.write b o (k + l) h := by
  funext b' i
  by_cases hb : b' = b
  · subst hb
    by_cases hsecond : o + k ≤ i ∧ i < o + k + l
    · rw [write_inside _ b' (o + k) l g i hsecond, write_inside m b' o (k + l) h i (by omega),
        ← hg (i - (o + k)) (by omega)]
      congr 1
      omega
    · rw [write_outside _ b' (o + k) l g b' i fun hin => hsecond hin.2]
      by_cases hfirst : o ≤ i ∧ i < o + k
      · rw [write_inside m b' o k f i hfirst, write_inside m b' o (k + l) h i (by omega),
          hf (i - o) (by omega)]
      · rw [write_outside m b' o k f b' i fun hin => hfirst hin.2,
          write_outside m b' o (k + l) h b' i (by omega)]
  · rw [write_other _ _ _ _ hb, write_other _ _ _ _ hb, write_other _ _ _ _ hb]

/-- A word of another block is untouched. -/
@[simp] theorem word_write_other (m : Mem β) {b b' : β} (o n o' : Nat) (f : Nat → UInt8)
    (h : b' ≠ b) : (m.write b o n f).word b' o' = m.word b' o' := by
  simp only [word, write_other m o n f h]

/-- A word of the same block that ends before the written range or starts after it is
untouched. -/
theorem word_write_apart (m : Mem β) (b : β) (o n o' : Nat) (f : Nat → UInt8)
    (h : o' + 4 ≤ o ∨ o + n ≤ o') : (m.write b o n f).word b o' = m.word b o' :=
  word_congr fun i hi => write_outside m b o n f b (o' + i) (by omega)

/-- A word that ends at or before `o` is untouched by a write that starts at or behind `o`. -/
theorem word_write_before (m : Mem β) (b : β) (o k n o' : Nat) (f : Nat → UInt8)
    (h : o' + 4 ≤ o) : (m.write b (o + k) n f).word b o' = m.word b o' :=
  word_write_apart m b (o + k) n o' f (.inl (Nat.le_add_right_of_le h))

/-- A word inside the written range is the word of the bytes written there. -/
theorem word_write_inside (m : Mem β) (b : β) (o n o' : Nat) (f : Nat → UInt8)
    (h : o ≤ o' ∧ o' + 4 ≤ o + n) :
    (m.write b o n f).word b o' = Machine.word fun i => f (o' - o + i) := by
  refine word_congr fun i hi => ?_
  rw [write_inside m b o n f (o' + i) (by omega), show o' + i - o = o' - o + i by omega]

/-- The word just written reads back, reduced to 32 bits. -/
@[simp] theorem word_write_same (m : Mem β) (b : β) (o v : Nat) :
    (m.write b o 4 (byteAt v)).word b o = wrap32 v := by
  rw [word_write_inside m b o 4 o (byteAt v) (by omega)]
  exact word_of_byteAt fun i _ => by simp

/-- The 16-bit value just written reads back, reduced to 16 bits. -/
@[simp] theorem half_write_same (m : Mem β) (b : β) (o v : Nat) :
    (m.write b o 2 (byteAt v)).half b o = wrap16 v := by
  have hlow := write_inside m b o 2 (byteAt v) o (by omega)
  have hhigh := write_inside m b o 2 (byteAt v) (o + 1) (by omega)
  rw [half, hlow, hhigh, Nat.sub_self, Nat.add_sub_cancel_left]
  simp only [byteAt, wrap16, UInt8.toNat_ofNat']
  omega

/-- A 16-bit value of another block is untouched. -/
@[simp] theorem half_write_other (m : Mem β) {b b' : β} (o n o' : Nat) (f : Nat → UInt8)
    (h : b' ≠ b) : (m.write b o n f).half b' o' = m.half b' o' := by
  simp only [half, write_other m o n f h]

/-- A 16-bit value of the same block that ends before the written range or starts after it is
untouched. -/
theorem half_write_apart (m : Mem β) (b : β) (o n o' : Nat) (f : Nat → UInt8)
    (h : o' + 2 ≤ o ∨ o + n ≤ o') : (m.write b o n f).half b o' = m.half b o' := by
  rw [half, half, write_outside m b o n f b o' (by omega),
    write_outside m b o n f b (o' + 1) (by omega)]

/-- Writing no bytes changes nothing. -/
@[simp] theorem write_zero (m : Mem β) (b : β) (o : Nat) (f : Nat → UInt8) :
    m.write b o 0 f = m := by
  funext b' i
  exact write_outside m b o 0 f b' i (by omega)

@[simp] theorem fill_nil (m : Mem β) (b : β) : m.fill b [] = m := write_zero m b 0 _

/-- Other blocks are untouched. -/
theorem fill_other (m : Mem β) {b b' : β} (bytes : List UInt8) (h : b' ≠ b) :
    m.fill b bytes b' = m b' := write_other m 0 _ _ h

/-- A word of another block is untouched. -/
@[simp] theorem word_fill_other (m : Mem β) {b b' : β} (o : Nat) (bytes : List UInt8)
    (h : b' ≠ b) : (m.fill b bytes).word b' o = m.word b' o := word_write_other m 0 _ o _ h

/-- A word of a buffer that received `bytes`: those, and behind them what the buffer held. -/
theorem word_fill (m : Mem β) (b : β) (bytes : List UInt8) (o : Nat) :
    (m.fill b bytes).word b o =
      Machine.word fun i => if o + i < bytes.length then bytes.getD (o + i) 0 else m b (o + i) := by
  refine word_congr fun i _ => ?_
  by_cases hin : o + i < bytes.length
  · rw [if_pos hin]
    exact write_inside m b 0 _ _ (o + i) (by omega)
  · rw [if_neg hin]
    exact write_outside m b 0 _ _ b (o + i) (by omega)

/-- A byte that was zero in a buffer that received `bytes`. -/
theorem fill_of_zero (m : Mem β) (b : β) (bytes : List UInt8) {i : Nat} (hzero : m b i = 0) :
    m.fill b bytes b i = bytes.getD i 0 := by
  by_cases hin : i < bytes.length
  · exact write_inside m b 0 _ _ i (by omega)
  · have hout : m.fill b bytes b i = m b i := write_outside m b 0 _ _ b i (by omega)
    rw [hout, hzero, List.getD_eq_getElem?_getD, List.getElem?_eq_none (by omega)]
    rfl

/-- A word that was zero in a buffer that received `bytes`. -/
theorem word_fill_of_word_zero (m : Mem β) (b : β) (bytes : List UInt8) {o : Nat}
    (hzero : ∀ i < 4, m b (o + i) = 0) : (m.fill b bytes).word b o = wordOf bytes o :=
  word_congr fun i hi => fill_of_zero m b bytes (hzero i hi)

/-- A word of a buffer that held zeros and received `bytes`. -/
theorem word_fill_of_zero (m : Mem β) (b : β) (bytes : List UInt8) {n o : Nat}
    (hzero : ∀ i < n, m b i = 0) (ho : o + 4 ≤ n) :
    (m.fill b bytes).word b o = wordOf bytes o :=
  word_fill_of_word_zero m b bytes fun i hi => hzero (o + i) (by omega)

/-- A word of a cleared buffer that received `bytes`. -/
theorem word_fill_cleared (m : Mem β) (b : β) (bytes : List UInt8) {n o : Nat}
    (ho : o + 4 ≤ n) :
    ((m.write b 0 n fun _ => 0).fill b bytes).word b o = wordOf bytes o :=
  word_fill_of_zero _ b bytes (fun i hi => write_inside m b 0 n _ i (by omega)) ho

end Mem

end Txei.Machine

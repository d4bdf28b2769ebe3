import Txei.Machine.Memory

/-!
# Programs over a block memory

`Prog κ β ε α` is a sequential program that reads and writes the blocks `β`, makes calls `κ`
to the outside, and either returns an `α` or leaves early with an `ε`. A run reports the
result, the memory left behind, and the log of accesses and calls in order. A program carries
the proof that its log is complete: memory changes only where the log writes (`frame`), and
nothing but the bytes the log reads can influence the run (`depends`). A bound on the log is
therefore a bound on what the program does, and the rules of this module derive such bounds
along the structure of a program.
-/

namespace Txei.Machine

variable {κ β ε ε' α γ : Type}

/-- One entry of a log: an access to `n` bytes of a block from offset `o`, or an outside
call. -/
inductive Event (κ β : Type) where
  | read (block : β) (o n : Nat)
  | write (block : β) (o n : Nat)
  | call (k : κ)
  deriving DecidableEq, Repr

/-- The event reads byte `i` of block `b`. -/
def Event.Reads (b : β) (i : Nat) : Event κ β → Prop
  | .read b' o n => b' = b ∧ o ≤ i ∧ i < o + n
  | _ => False

/-- The event writes byte `i` of block `b`. -/
def Event.Writes (b : β) (i : Nat) : Event κ β → Prop
  | .write b' o n => b' = b ∧ o ≤ i ∧ i < o + n
  | _ => False

@[simp] theorem Event.reads_read (b b' : β) (i o n : Nat) :
    (Event.read b' o n : Event κ β).Reads b i ↔ b' = b ∧ o ≤ i ∧ i < o + n := Iff.rfl

@[simp] theorem Event.not_reads_write (b b' : β) (i o n : Nat) :
    ¬ (Event.write b' o n : Event κ β).Reads b i := id

@[simp] theorem Event.not_reads_call (b : β) (i : Nat) (k : κ) :
    ¬ (Event.call k : Event κ β).Reads b i := id

@[simp] theorem Event.writes_write (b b' : β) (i o n : Nat) :
    (Event.write b' o n : Event κ β).Writes b i ↔ b' = b ∧ o ≤ i ∧ i < o + n := Iff.rfl

@[simp] theorem Event.not_writes_read (b b' : β) (i o n : Nat) :
    ¬ (Event.read b' o n : Event κ β).Writes b i := id

@[simp] theorem Event.not_writes_call (b : β) (i : Nat) (k : κ) :
    ¬ (Event.call k : Event κ β).Writes b i := id

/-- The event reads only blocks of `R` and writes only blocks of `W`. -/
def Event.In (R W : List β) : Event κ β → Prop
  | .read b _ _ => b ∈ R
  | .write b _ _ => b ∈ W
  | .call _ => True

@[simp] theorem Event.in_read (R W : List β) (b : β) (o n : Nat) :
    (Event.read b o n : Event κ β).In R W ↔ b ∈ R := Iff.rfl

@[simp] theorem Event.in_write (R W : List β) (b : β) (o n : Nat) :
    (Event.write b o n : Event κ β).In R W ↔ b ∈ W := Iff.rfl

@[simp] theorem Event.in_call (R W : List β) (k : κ) : (Event.call k : Event κ β).In R W :=
  trivial

/-- The event reads block `b` only below offset `n`. -/
def Event.ReadsBelow (b : β) (n : Nat) (e : Event κ β) : Prop := ∀ i, e.Reads b i → i < n

/-- The event writes block `b` only below offset `n`. -/
def Event.WritesBelow (b : β) (n : Nat) (e : Event κ β) : Prop := ∀ i, e.Writes b i → i < n

@[simp] theorem Event.readsBelow_read (b b' : β) (n o k : Nat) :
    (Event.read b' o k : Event κ β).ReadsBelow b n ↔ (b' = b → k = 0 ∨ o + k ≤ n) := by
  constructor
  · intro h hb
    by_cases hk : k = 0
    · exact .inl hk
    · have hlast := h (o + (k - 1)) ⟨hb, by omega, by omega⟩
      omega
  · intro h i hi
    have hend := h hi.1
    have hle := hi.2
    omega

@[simp] theorem Event.readsBelow_write (b b' : β) (n o k : Nat) :
    (Event.write b' o k : Event κ β).ReadsBelow b n := fun _ h => h.elim

@[simp] theorem Event.readsBelow_call (b : β) (n : Nat) (k : κ) :
    (Event.call k : Event κ β).ReadsBelow b n := fun _ h => h.elim

@[simp] theorem Event.writesBelow_write (b b' : β) (n o k : Nat) :
    (Event.write b' o k : Event κ β).WritesBelow b n ↔ (b' = b → k = 0 ∨ o + k ≤ n) :=
  Event.readsBelow_read (κ := κ) b b' n o k

@[simp] theorem Event.writesBelow_read (b b' : β) (n o k : Nat) :
    (Event.read b' o k : Event κ β).WritesBelow b n := fun _ h => h.elim

@[simp] theorem Event.writesBelow_call (b : β) (n : Nat) (k : κ) :
    (Event.call k : Event κ β).WritesBelow b n := fun _ h => h.elim

theorem Event.In.mono {R W R' W' : List β} {e : Event κ β} (h : e.In R W) (hR : R ⊆ R')
    (hW : W ⊆ W') : e.In R' W' := by
  cases e with
  | read c o k => exact hR h
  | write c o k => exact hW h
  | call k => trivial

theorem Event.In.not_reads {R W : List β} {b : β} {e : Event κ β} (h : e.In R W) (hb : b ∉ R)
    (i : Nat) : ¬ e.Reads b i := by
  cases e with
  | read c o k => exact fun hr => hb (hr.1 ▸ h)
  | write c o k => exact id
  | call k => exact id

theorem Event.In.not_writes {R W : List β} {b : β} {e : Event κ β} (h : e.In R W) (hb : b ∉ W)
    (i : Nat) : ¬ e.Writes b i := by
  cases e with
  | read c o k => exact id
  | write c o k => exact fun hw => hb (hw.1 ▸ h)
  | call k => exact id

theorem Event.In.writesBelow {R W : List β} {b : β} {e : Event κ β} (h : e.In R W) (hb : b ∉ W)
    (n : Nat) : e.WritesBelow b n :=
  fun i hi => absurd hi (h.not_writes hb i)

theorem Event.In.readsBelow {R W : List β} {b : β} {e : Event κ β} (h : e.In R W) (hb : b ∉ R)
    (n : Nat) : e.ReadsBelow b n :=
  fun i hi => absurd hi (h.not_reads hb i)

/-- The events of a run in order. -/
abbrev Log (κ β : Type) : Type := List (Event κ β)

/-- Every event of the log reads block `b` only below offset `n`. -/
def Log.ReadsBelow (b : β) (n : Nat) (l : Log κ β) : Prop := ∀ e ∈ l, e.ReadsBelow b n

/-- Every event of the log writes block `b` only below offset `n`. -/
def Log.WritesBelow (b : β) (n : Nat) (l : Log κ β) : Prop := ∀ e ∈ l, e.WritesBelow b n

/-- The log writes every one of the `n` bytes of block `b` from offset `o`. -/
def Log.Sets (b : β) (o n : Nat) (l : Log κ β) : Prop :=
  ∀ i, o ≤ i → i < o + n → ∃ e ∈ l, e.Writes b i

theorem Log.sets_of_mem {b : β} {o n : Nat} {l : Log κ β} (h : .write b o n ∈ l) :
    l.Sets b o n :=
  fun _ hlo hhi => ⟨_, h, rfl, hlo, hhi⟩

theorem Log.Sets.mono {b : β} {o n : Nat} {l l' : Log κ β} (h : l.Sets b o n) (hl : l ⊆ l') :
    l'.Sets b o n := by
  intro i hlo hhi
  obtain ⟨e, he, hw⟩ := h i hlo hhi
  exact ⟨e, hl he, hw⟩

@[simp] theorem Log.readsBelow_nil (b : β) (n : Nat) : Log.ReadsBelow b n ([] : Log κ β) := by
  simp [Log.ReadsBelow]

@[simp] theorem Log.readsBelow_cons (b : β) (n : Nat) (e : Event κ β) (l : Log κ β) :
    Log.ReadsBelow b n (e :: l) ↔ e.ReadsBelow b n ∧ Log.ReadsBelow b n l :=
  List.forall_mem_cons

@[simp] theorem Log.readsBelow_append (b : β) (n : Nat) (l l' : Log κ β) :
    Log.ReadsBelow b n (l ++ l') ↔ Log.ReadsBelow b n l ∧ Log.ReadsBelow b n l' :=
  List.forall_mem_append

@[simp] theorem Log.writesBelow_nil (b : β) (n : Nat) : Log.WritesBelow b n ([] : Log κ β) := by
  simp [Log.WritesBelow]

@[simp] theorem Log.writesBelow_cons (b : β) (n : Nat) (e : Event κ β) (l : Log κ β) :
    Log.WritesBelow b n (e :: l) ↔ e.WritesBelow b n ∧ Log.WritesBelow b n l :=
  List.forall_mem_cons

@[simp] theorem Log.writesBelow_append (b : β) (n : Nat) (l l' : Log κ β) :
    Log.WritesBelow b n (l ++ l') ↔ Log.WritesBelow b n l ∧ Log.WritesBelow b n l' :=
  List.forall_mem_append

/-- What one execution leaves: its result, the memory, and the log. -/
structure Run (κ β ε α : Type) where
  result : Except ε α
  mem : Mem β
  log : Log κ β

namespace Run

/-- The run `r` with the events `l` before its own. -/
def prepend (l : Log κ β) (r : Run κ β ε α) : Run κ β ε α :=
  { r with log := l ++ r.log }

@[simp] theorem prepend_result (l : Log κ β) (r : Run κ β ε α) :
    (r.prepend l).result = r.result := rfl

@[simp] theorem prepend_mem (l : Log κ β) (r : Run κ β ε α) :
    (r.prepend l).mem = r.mem := rfl

@[simp] theorem prepend_log (l : Log κ β) (r : Run κ β ε α) :
    (r.prepend l).log = l ++ r.log := rfl

theorem prepend_nil (r : Run κ β ε α) : r.prepend [] = r := rfl

/-- A run without events of its own has only the earlier ones. -/
theorem prepend_silent (r : Except ε α) (m : Mem β) (l : Log κ β) :
    (⟨r, m, []⟩ : Run κ β ε α).prepend l = ⟨r, m, l⟩ := by
  simp [prepend]

theorem prepend_prepend (l l' : Log κ β) (r : Run κ β ε α) :
    (r.prepend l').prepend l = r.prepend (l ++ l') := by
  simp only [prepend, List.append_assoc]

/-- Continue a run that returned a value; one that left early stays as it is. -/
def andThen (r : Run κ β ε α) (k : α → Mem β → Run κ β ε γ) : Run κ β ε γ :=
  match r.result with
  | .ok a => (k a r.mem).prepend r.log
  | .error e => ⟨.error e, r.mem, r.log⟩

@[simp] theorem andThen_ok (a : α) (m : Mem β) (l : Log κ β)
    (k : α → Mem β → Run κ β ε γ) :
    (⟨.ok a, m, l⟩ : Run κ β ε α).andThen k = (k a m).prepend l := rfl

@[simp] theorem andThen_error (e : ε) (m : Mem β) (l : Log κ β)
    (k : α → Mem β → Run κ β ε γ) :
    (⟨.error e, m, l⟩ : Run κ β ε α).andThen k = ⟨.error e, m, l⟩ := rfl

theorem andThen_of_ok {r : Run κ β ε α} {a : α} (h : r.result = .ok a)
    (k : α → Mem β → Run κ β ε γ) : r.andThen k = (k a r.mem).prepend r.log := by
  unfold andThen
  rw [h]

theorem andThen_of_error {r : Run κ β ε α} {e : ε} (h : r.result = .error e)
    (k : α → Mem β → Run κ β ε γ) : r.andThen k = ⟨.error e, r.mem, r.log⟩ := by
  unfold andThen
  rw [h]

@[simp] theorem andThen_prepend (r : Run κ β ε α) (l : Log κ β)
    (k : α → Mem β → Run κ β ε γ) : (r.prepend l).andThen k = (r.andThen k).prepend l := by
  obtain ⟨res, m, l'⟩ := r
  cases res with
  | error e => rfl
  | ok a => simp [prepend]

theorem andThen_assoc {δ : Type} (r : Run κ β ε α) (k : α → Mem β → Run κ β ε γ)
    (k' : γ → Mem β → Run κ β ε δ) :
    (r.andThen k).andThen k' = r.andThen fun a m => (k a m).andThen k' := by
  obtain ⟨res, m, l⟩ := r
  cases res with
  | error e => rfl
  | ok a => simp

/-- Turning the result into another one adds nothing to the log. -/
@[simp] theorem andThen_pure_log (r : Run κ β ε α) (f : α → γ) :
    (r.andThen fun a m => ⟨.ok (f a), m, []⟩).log = r.log := by
  obtain ⟨res, m, l⟩ := r
  cases res with
  | error e => rfl
  | ok a => simp

@[simp] theorem andThen_pure_mem (r : Run κ β ε α) (f : α → γ) :
    (r.andThen fun a m => ⟨.ok (f a), m, []⟩).mem = r.mem := by
  obtain ⟨res, m, l⟩ := r
  cases res with
  | error e => rfl
  | ok a => rfl

/-- The value of a run that leaves early with a value of the type it returns. -/
def value (r : Run κ β α α) : α :=
  match r.result with
  | .ok a => a
  | .error a => a

@[simp] theorem value_ok (a : α) (m : Mem β) (l : Log κ β) :
    (⟨.ok a, m, l⟩ : Run κ β α α).value = a := by
  unfold value
  rfl

@[simp] theorem value_error (a : α) (m : Mem β) (l : Log κ β) :
    (⟨.error a, m, l⟩ : Run κ β α α).value = a := by
  unfold value
  rfl

@[simp] theorem value_prepend (r : Run κ β α α) (l : Log κ β) :
    (r.prepend l).value = r.value := by
  unfold value
  rfl

/-- Two runs with the same result and log that agree on every byte the log writes. -/
def Same (r r' : Run κ β ε α) : Prop :=
  r'.result = r.result ∧ r'.log = r.log ∧
    ∀ b i, (∃ e ∈ r.log, e.Writes b i) → r'.mem b i = r.mem b i

end Run

/-- A program: how it runs from a memory, with the proof that its log is complete. -/
structure Prog (κ β ε α : Type) where
  run : Mem β → Run κ β ε α
  /-- A byte no logged write covers keeps its value. -/
  frame : ∀ m b i, (∀ e ∈ (run m).log, ¬ e.Writes b i) → (run m).mem b i = m b i
  /-- Memories that agree on every byte the log reads give the same run. -/
  depends : ∀ m m', (∀ b i, (∃ e ∈ (run m).log, e.Reads b i) → m' b i = m b i) →
    (run m).Same (run m')

namespace Prog

/-- A program that neither touches memory nor calls out. -/
def const (r : Except ε α) : Prog κ β ε α where
  run m := ⟨r, m, []⟩
  frame _ _ _ _ := rfl
  depends _ _ _ := ⟨rfl, rfl, by simp⟩

/-- Sequential composition. The second program sees a byte either as the first one wrote it or
as it was at the start, so both completeness proofs compose. -/
def seq (x : Prog κ β ε α) (f : α → Prog κ β ε γ) : Prog κ β ε γ where
  run m := (x.run m).andThen fun a => (f a).run
  frame m b i h := by
    cases hx : (x.run m).result with
    | error e =>
        rw [Run.andThen_of_error hx] at h ⊢
        exact x.frame m b i h
    | ok a =>
        rw [Run.andThen_of_ok hx] at h ⊢
        simp only [Run.prepend_log, List.mem_append] at h
        exact ((f a).frame _ b i fun e he => h e (.inr he)).trans
          (x.frame m b i fun e he => h e (.inl he))
  depends m m' h := by
    cases hx : (x.run m).result with
    | error e =>
        rw [Run.andThen_of_error hx] at h ⊢
        obtain ⟨hres, hlog, hmem⟩ := x.depends m m' h
        rw [Run.andThen_of_error (hres.trans hx)]
        exact ⟨rfl, hlog, hmem⟩
    | ok a =>
        rw [Run.andThen_of_ok hx] at h ⊢
        simp only [Run.prepend_log, List.mem_append] at h
        obtain ⟨hres, hlog, hmem⟩ :=
          x.depends m m' fun b i ⟨e, he, hr⟩ => h b i ⟨e, .inl he, hr⟩
        rw [Run.andThen_of_ok (hres.trans hx)]
        have hmid : ∀ b i, (∃ e ∈ (x.run m).log, e.Writes b i) ∨ m' b i = m b i →
            (x.run m').mem b i = (x.run m).mem b i := by
          intro b i hb
          by_cases hw : ∃ e ∈ (x.run m).log, e.Writes b i
          · exact hmem b i hw
          · have hno : ∀ e ∈ (x.run m).log, ¬ e.Writes b i := fun e he hc => hw ⟨e, he, hc⟩
            rw [x.frame m' b i (hlog ▸ hno), x.frame m b i hno]
            exact hb.resolve_left hw
        obtain ⟨hres2, hlog2, hmem2⟩ := (f a).depends (x.run m).mem (x.run m').mem
          fun b i ⟨e, he, hr⟩ => hmid b i (.inr (h b i ⟨e, .inr he, hr⟩))
        refine ⟨hres2, by simp [hlog, hlog2], ?_⟩
        intro b i hwritten
        obtain ⟨e, he, hw⟩ := hwritten
        simp only [Run.prepend_log, List.mem_append] at he
        by_cases hw2 : ∃ e ∈ ((f a).run (x.run m).mem).log, e.Writes b i
        · exact hmem2 b i hw2
        · have hno : ∀ e ∈ ((f a).run (x.run m).mem).log, ¬ e.Writes b i :=
            fun e he hc => hw2 ⟨e, he, hc⟩
          have hwx : ∃ e ∈ (x.run m).log, e.Writes b i :=
            ⟨e, he.resolve_right fun hr => hno e hr hw, hw⟩
          simp only [Run.prepend_mem]
          rw [(f a).frame _ b i (hlog2 ▸ hno), (f a).frame _ b i hno]
          exact hmid b i (.inl hwx)

instance : Monad (Prog κ β ε) where
  pure a := const (.ok a)
  bind := seq

/-- Leave the program with `e`: the `goto exit` of a C function, or its early `return`. -/
def exit (e : ε) : Prog κ β ε α := const (.error e)

/-- Leave the program with `e` when `c` holds. -/
def exitIf (c : Prop) [Decidable c] (e : ε) : Prog κ β ε Unit :=
  if c then exit e else pure ()

/-- The value of `o`, or leave the program with `e` when there is none. -/
def valueOrExit (o : Option α) (e : ε) : Prog κ β ε α :=
  match o with
  | some a => pure a
  | none => exit e

/-- Run `x` only when `c` holds. -/
def onlyIf (c : Prop) [Decidable c] (x : Prog κ β ε Unit) : Prog κ β ε Unit :=
  if c then x else pure ()

/-- Make an outside call. -/
def call (k : κ) : Prog κ β ε Unit where
  run m := ⟨.ok (), m, [.call k]⟩
  frame _ _ _ _ := rfl
  depends _ _ _ := ⟨rfl, rfl, by simp⟩

/-- Run `x` and return how it ended, so that a clean-up can follow every way out of it. -/
def attempt (x : Prog κ β ε α) : Prog κ β ε' (Except ε α) where
  run m := ⟨.ok (x.run m).result, (x.run m).mem, (x.run m).log⟩
  frame := x.frame
  depends m m' h := by
    obtain ⟨hres, hlog, hmem⟩ := x.depends m m' h
    exact ⟨congrArg Except.ok hres, hlog, hmem⟩

/-- Call a function and go on with the value it returns, early or at its end. -/
def returned (x : Prog κ β α α) : Prog κ β ε α where
  run m := ⟨.ok (x.run m).value, (x.run m).mem, (x.run m).log⟩
  frame := x.frame
  depends m m' h := by
    obtain ⟨hres, hlog, hmem⟩ := x.depends m m' h
    refine ⟨?_, hlog, hmem⟩
    simp only [Run.value, hres]

/-- Let an outside party read the first `n` bytes of `b`. -/
def expose (b : β) (n : Nat) : Prog κ β ε Unit where
  run m := ⟨.ok (), m, [.read b 0 n]⟩
  frame _ _ _ _ := rfl
  depends _ _ _ := ⟨rfl, rfl, by simp⟩

/-- Read the 32-bit word at offset `o` of `b`. -/
def load (b : β) (o : Nat) : Prog κ β ε Nat where
  run m := ⟨.ok (m.word b o), m, [.read b o 4]⟩
  frame _ _ _ _ := rfl
  depends m m' h := by
    refine ⟨congrArg Except.ok (word_congr fun i hi => h b (o + i) ?_), rfl, by simp⟩
    exact ⟨_, List.mem_singleton_self _, rfl, by omega, by omega⟩

/-- Read the 16-bit value at offset `o` of `b`. -/
def load16 (b : β) (o : Nat) : Prog κ β ε Nat where
  run m := ⟨.ok (m.half b o), m, [.read b o 2]⟩
  frame _ _ _ _ := rfl
  depends m m' h := by
    have hlow : m' b o = m b o :=
      h b o ⟨_, List.mem_singleton_self _, rfl, by omega, by omega⟩
    have hhigh : m' b (o + 1) = m b (o + 1) :=
      h b (o + 1) ⟨_, List.mem_singleton_self _, rfl, by omega, by omega⟩
    refine ⟨?_, rfl, by simp⟩
    simp only [Mem.half, hlow, hhigh]

/-- Read the byte at offset `o` of `b`. -/
def loadByte (b : β) (o : Nat) : Prog κ β ε UInt8 where
  run m := ⟨.ok (m b o), m, [.read b o 1]⟩
  frame _ _ _ _ := rfl
  depends m m' h := by
    refine ⟨congrArg Except.ok (h b o ?_), rfl, by simp⟩
    exact ⟨_, List.mem_singleton_self _, rfl, by omega, by omega⟩

variable [DecidableEq β]

/-- Overwrite `n` bytes of `b` from offset `o` by bytes that do not come from memory. -/
def put (b : β) (o n : Nat) (f : Nat → UInt8) : Prog κ β ε Unit where
  run m := ⟨.ok (), m.write b o n f, [.write b o n]⟩
  frame m b' i h := Mem.write_outside m b o n f b' i fun ⟨hb, hi⟩ =>
    h _ (List.mem_singleton_self _) ⟨hb.symm, hi⟩
  depends m m' _ := by
    refine ⟨rfl, rfl, ?_⟩
    intro b' i hwritten
    obtain ⟨e, he, hw⟩ := hwritten
    rw [List.mem_singleton.mp he] at hw
    obtain ⟨rfl, hi⟩ := hw
    exact (Mem.write_inside m' b o n f i hi).trans (Mem.write_inside m b o n f i hi).symm

/-- Store the byte `x` at offset `o` of `b`. -/
def storeByte (b : β) (o : Nat) (x : UInt8) : Prog κ β ε Unit := put b o 1 fun _ => x

/-- Store the 32-bit value `v` at offset `o` of `b`. -/
def store (b : β) (o v : Nat) : Prog κ β ε Unit := put b o 4 (byteAt v)

/-- Store the 16-bit value `v` at offset `o` of `b`. -/
def store16 (b : β) (o v : Nat) : Prog κ β ε Unit := put b o 2 (byteAt v)

/-- `memset (b + o, x, n)`. -/
def memset (b : β) (o : Nat) (x : UInt8) (n : Nat) : Prog κ β ε Unit := put b o n fun _ => x

/-- Let an outside party overwrite the start of `b` by `bytes`. -/
def fill (b : β) (bytes : List UInt8) : Prog κ β ε Unit :=
  put b 0 bytes.length fun i => bytes.getD i 0

/-- `memcpy (d + o, s + p, n)`. -/
def memcpy (d : β) (o : Nat) (s : β) (p n : Nat) : Prog κ β ε Unit where
  run m := ⟨.ok (), m.write d o n fun i => m s (p + i), [.read s p n, .write d o n]⟩
  frame m b' i h := by
    show m.write d o n (fun i => m s (p + i)) b' i = m b' i
    exact Mem.write_outside m d o n _ b' i fun ⟨hb, hi⟩ =>
      h (.write d o n) (by simp) ⟨hb.symm, hi⟩
  depends m m' h := by
    refine ⟨rfl, rfl, ?_⟩
    intro b' i hwritten
    obtain ⟨e, he, hw⟩ := hwritten
    simp only [List.mem_cons, List.not_mem_nil, or_false] at he
    rcases he with rfl | rfl
    · exact hw.elim
    · obtain ⟨rfl, hi⟩ := hw
      show m'.write d o n (fun i => m' s (p + i)) d i = m.write d o n (fun i => m s (p + i)) d i
      rw [Mem.write_inside m' d o n _ i hi, Mem.write_inside m d o n _ i hi]
      refine h s (p + (i - o)) ⟨.read s p n, by simp, rfl, by omega, ?_⟩
      omega

/-! ## Running a program -/

section Run

omit [DecidableEq β]

@[simp] theorem run_pure (a : α) (m : Mem β) :
    (pure a : Prog κ β ε α).run m = ⟨.ok a, m, []⟩ := rfl

@[simp] theorem run_bind (x : Prog κ β ε α) (f : α → Prog κ β ε γ) (m : Mem β) :
    (x >>= f).run m = (x.run m).andThen fun a => (f a).run := rfl

@[simp] theorem run_exit (e : ε) (m : Mem β) :
    (exit e : Prog κ β ε α).run m = ⟨.error e, m, []⟩ := rfl

@[simp] theorem run_ite (c : Prop) [Decidable c] (x y : Prog κ β ε α) (m : Mem β) :
    (if c then x else y).run m = if c then x.run m else y.run m := by
  split <;> rfl

@[simp] theorem run_exitIf (c : Prop) [Decidable c] (e : ε) (m : Mem β) :
    (exitIf c e : Prog κ β ε Unit).run m = if c then ⟨.error e, m, []⟩ else ⟨.ok (), m, []⟩ := by
  unfold exitIf
  split <;> rfl

@[simp] theorem run_onlyIf (c : Prop) [Decidable c] (x : Prog κ β ε Unit) (m : Mem β) :
    (onlyIf c x).run m = if c then x.run m else ⟨.ok (), m, []⟩ := by
  unfold onlyIf
  split <;> rfl

/-- A test that leaves, followed by the rest of the program. -/
theorem run_exitIf_bind (c : Prop) [Decidable c] (e : ε) (f : Unit → Prog κ β ε γ) (m : Mem β) :
    (exitIf c e >>= f).run m = if c then ⟨.error e, m, []⟩ else (f ()).run m := by
  by_cases hc : c
  · simp [hc]
  · simp [hc, Run.prepend]

@[simp] theorem run_valueOrExit_some (a : α) (e : ε) (m : Mem β) :
    (valueOrExit (some a) e : Prog κ β ε α).run m = ⟨.ok a, m, []⟩ := rfl

@[simp] theorem run_valueOrExit_none (e : ε) (m : Mem β) :
    (valueOrExit none e : Prog κ β ε α).run m = ⟨.error e, m, []⟩ := rfl

@[simp] theorem run_call (k : κ) (m : Mem β) :
    (call k : Prog κ β ε Unit).run m = ⟨.ok (), m, [.call k]⟩ := rfl

@[simp] theorem run_attempt (x : Prog κ β ε α) (m : Mem β) :
    (attempt x : Prog κ β ε' (Except ε α)).run m =
      ⟨.ok (x.run m).result, (x.run m).mem, (x.run m).log⟩ := rfl

@[simp] theorem run_returned (x : Prog κ β α α) (m : Mem β) :
    (returned x : Prog κ β ε α).run m = ⟨.ok (x.run m).value, (x.run m).mem, (x.run m).log⟩ := rfl

@[simp] theorem run_expose (b : β) (n : Nat) (m : Mem β) :
    (expose b n : Prog κ β ε Unit).run m = ⟨.ok (), m, [.read b 0 n]⟩ := rfl

@[simp] theorem run_load (b : β) (o : Nat) (m : Mem β) :
    (load b o : Prog κ β ε Nat).run m = ⟨.ok (m.word b o), m, [.read b o 4]⟩ := rfl

@[simp] theorem run_load16 (b : β) (o : Nat) (m : Mem β) :
    (load16 b o : Prog κ β ε Nat).run m = ⟨.ok (m.half b o), m, [.read b o 2]⟩ := rfl

@[simp] theorem run_loadByte (b : β) (o : Nat) (m : Mem β) :
    (loadByte b o : Prog κ β ε UInt8).run m = ⟨.ok (m b o), m, [.read b o 1]⟩ := rfl

end Run

@[simp] theorem run_put (b : β) (o n : Nat) (f : Nat → UInt8) (m : Mem β) :
    (put b o n f : Prog κ β ε Unit).run m = ⟨.ok (), m.write b o n f, [.write b o n]⟩ := rfl

@[simp] theorem run_storeByte (b : β) (o : Nat) (x : UInt8) (m : Mem β) :
    (storeByte b o x : Prog κ β ε Unit).run m =
      ⟨.ok (), m.write b o 1 fun _ => x, [.write b o 1]⟩ := rfl

@[simp] theorem run_store (b : β) (o v : Nat) (m : Mem β) :
    (store b o v : Prog κ β ε Unit).run m =
      ⟨.ok (), m.write b o 4 (byteAt v), [.write b o 4]⟩ := rfl

@[simp] theorem run_store16 (b : β) (o v : Nat) (m : Mem β) :
    (store16 b o v : Prog κ β ε Unit).run m =
      ⟨.ok (), m.write b o 2 (byteAt v), [.write b o 2]⟩ := rfl

@[simp] theorem run_memset (b : β) (o : Nat) (x : UInt8) (n : Nat) (m : Mem β) :
    (memset b o x n : Prog κ β ε Unit).run m =
      ⟨.ok (), m.write b o n fun _ => x, [.write b o n]⟩ := rfl

@[simp] theorem run_fill (b : β) (bytes : List UInt8) (m : Mem β) :
    (fill b bytes : Prog κ β ε Unit).run m =
      ⟨.ok (), m.fill b bytes, [.write b 0 bytes.length]⟩ := rfl

@[simp] theorem run_memcpy (d : β) (o : Nat) (s : β) (p n : Nat) (m : Mem β) :
    (memcpy d o s p n : Prog κ β ε Unit).run m =
      ⟨.ok (), m.write d o n fun i => m s (p + i), [.read s p n, .write d o n]⟩ := rfl

/-! ## Bounding a log

`Within P x` bounds every event of every run of `x`. The rules follow the structure of a
program, so a bound on a whole program is the conjunction of bounds on its accesses. -/

/-- Every event of every run of `x` satisfies `P`. -/
def Within (P : Event κ β → Prop) (x : Prog κ β ε α) : Prop :=
  ∀ m, ∀ e ∈ (x.run m).log, P e

section Within

omit [DecidableEq β]

variable {P : Event κ β → Prop}

theorem Within.mono {Q : Event κ β → Prop} {x : Prog κ β ε α} (hx : Within P x)
    (h : ∀ e, P e → Q e) : Within Q x :=
  fun m e he => h e (hx m e he)

theorem Within.bind {x : Prog κ β ε α} {f : α → Prog κ β ε γ} (hx : Within P x)
    (hf : ∀ a, Within P (f a)) : Within P (x >>= f) := by
  intro m e he
  rw [run_bind] at he
  cases hres : (x.run m).result with
  | error err =>
      rw [Run.andThen_of_error hres] at he
      exact hx m e he
  | ok a =>
      rw [Run.andThen_of_ok hres] at he
      rcases List.mem_append.mp he with h | h
      · exact hx m e h
      · exact hf a _ e h

omit P in
/-- What the first part of a program does, the whole program does. -/
theorem mem_log_bind {x : Prog κ β ε α} {f : α → Prog κ β ε γ} {m : Mem β} {e : Event κ β}
    (h : e ∈ (x.run m).log) : e ∈ ((x >>= f).run m).log := by
  rw [run_bind]
  cases hres : (x.run m).result with
  | error err =>
      rw [Run.andThen_of_error hres]
      exact h
  | ok a =>
      rw [Run.andThen_of_ok hres]
      exact List.mem_append_left _ h

theorem Within.ite {c : Prop} [Decidable c] {x y : Prog κ β ε α} (hx : Within P x)
    (hy : Within P y) : Within P (if c then x else y) := by
  split
  · exact hx
  · exact hy

theorem Within.attempt {x : Prog κ β ε α} (hx : Within P x) :
    Within P (attempt x : Prog κ β ε' (Except ε α)) := hx

theorem Within.returned {x : Prog κ β α α} (hx : Within P x) :
    Within P (returned x : Prog κ β ε α) := hx

@[simp] theorem within_pure (a : α) : Within P (pure a : Prog κ β ε α) := by
  intro m e he
  simp at he

@[simp] theorem within_exit (e : ε) : Within P (exit e : Prog κ β ε α) := by
  intro m e he
  simp at he

@[simp] theorem within_exitIf (c : Prop) [Decidable c] (e : ε) :
    Within P (exitIf c e : Prog κ β ε Unit) :=
  Within.ite (within_exit e) (within_pure ())

@[simp] theorem within_valueOrExit (o : Option α) (e : ε) :
    Within P (valueOrExit o e : Prog κ β ε α) := by
  cases o with
  | none => exact within_exit e
  | some a => exact within_pure a

theorem Within.onlyIf {c : Prop} [Decidable c] {x : Prog κ β ε Unit} (hx : Within P x) :
    Within P (onlyIf c x) :=
  Within.ite hx (within_pure ())

@[simp] theorem within_call (k : κ) :
    Within P (Prog.call k : Prog κ β ε Unit) ↔ P (.call k) := by
  simp [Within]

@[simp] theorem within_expose (b : β) (n : Nat) :
    Within P (expose b n : Prog κ β ε Unit) ↔ P (.read b 0 n) := by
  simp [Within]

@[simp] theorem within_load (b : β) (o : Nat) :
    Within P (load b o : Prog κ β ε Nat) ↔ P (.read b o 4) := by
  simp [Within]

@[simp] theorem within_load16 (b : β) (o : Nat) :
    Within P (load16 b o : Prog κ β ε Nat) ↔ P (.read b o 2) := by
  simp [Within]

@[simp] theorem within_loadByte (b : β) (o : Nat) :
    Within P (loadByte b o : Prog κ β ε UInt8) ↔ P (.read b o 1) := by
  simp [Within]

end Within

variable {P : Event κ β → Prop}

@[simp] theorem within_put (b : β) (o n : Nat) (f : Nat → UInt8) :
    Within P (put b o n f : Prog κ β ε Unit) ↔ P (.write b o n) := by
  simp [Within]

@[simp] theorem within_storeByte (b : β) (o : Nat) (x : UInt8) :
    Within P (storeByte b o x : Prog κ β ε Unit) ↔ P (.write b o 1) :=
  within_put ..

@[simp] theorem within_store (b : β) (o v : Nat) :
    Within P (store b o v : Prog κ β ε Unit) ↔ P (.write b o 4) :=
  within_put ..

@[simp] theorem within_store16 (b : β) (o v : Nat) :
    Within P (store16 b o v : Prog κ β ε Unit) ↔ P (.write b o 2) :=
  within_put ..

@[simp] theorem within_memset (b : β) (o : Nat) (x : UInt8) (n : Nat) :
    Within P (memset b o x n : Prog κ β ε Unit) ↔ P (.write b o n) :=
  within_put ..

@[simp] theorem within_fill (b : β) (bytes : List UInt8) :
    Within P (fill b bytes : Prog κ β ε Unit) ↔ P (.write b 0 bytes.length) :=
  within_put ..

@[simp] theorem within_memcpy (d : β) (o : Nat) (s : β) (p n : Nat) :
    Within P (memcpy d o s p n : Prog κ β ε Unit) ↔
      P (.read s p n) ∧ P (.write d o n) := by
  simp [Within]

/-! ### Footprints

A program whose events are all `In R W` leaves the blocks outside `W` alone and does not look at
the blocks outside `R`. -/

section Footprint

omit [DecidableEq β]

variable {R W : List β} {x : Prog κ β ε α} {b : β}

theorem Within.widen {R' W' : List β} (h : Within (Event.In R W) x) (hR : R ⊆ R')
    (hW : W ⊆ W') : Within (Event.In R' W') x :=
  h.mono fun _ he => he.mono hR hW

theorem Within.mem_eq (h : Within (Event.In R W) x) (hb : b ∉ W) (m : Mem β) :
    (x.run m).mem b = m b := by
  funext i
  exact x.frame m b i fun e he => (h m e he).not_writes hb i

theorem Within.word_eq (h : Within (Event.In R W) x) (hb : b ∉ W) (m : Mem β) (o : Nat) :
    (x.run m).mem.word b o = m.word b o := by
  simp only [Mem.word, h.mem_eq hb m]

theorem Within.readsBelow (h : Within (Event.In R W) x) (hb : b ∉ R) (m : Mem β) (n : Nat) :
    Log.ReadsBelow b n (x.run m).log :=
  fun e he => (h m e he).readsBelow hb n

theorem Within.writesBelow (h : Within (Event.In R W) x) (hb : b ∉ W) (m : Mem β) (n : Nat) :
    Log.WritesBelow b n (x.run m).log :=
  fun e he => (h m e he).writesBelow hb n

/-- A byte behind everything the log writes keeps its value. -/
theorem mem_eq_of_writesBelow {n i : Nat} {m : Mem β} (h : Log.WritesBelow b n (x.run m).log)
    (hi : n ≤ i) : (x.run m).mem b i = m b i :=
  x.frame m b i fun e he hw => absurd (h e he i hw) (by omega)

/-- Memories that agree on the blocks a program reads give the same run. -/
theorem Within.same (h : Within (Event.In R W) x) {m m' : Mem β} (hagree : ∀ b ∈ R, m' b = m b) :
    (x.run m).Same (x.run m') := by
  refine x.depends m m' fun b i ⟨e, he, hr⟩ => ?_
  by_cases hb : b ∈ R
  · rw [hagree b hb]
  · exact absurd hr ((h m e he).not_reads hb i)

/-- What two runs with the same log have written, or started with alike, they end with alike. -/
theorem mem_eq_of_same {m m' : Mem β} {i : Nat} (h : (x.run m).Same (x.run m'))
    (hb : m' b i = m b i ∨ ∃ e ∈ (x.run m).log, e.Writes b i) :
    (x.run m').mem b i = (x.run m).mem b i := by
  obtain ⟨-, hlog, hmem⟩ := h
  by_cases hw : ∃ e ∈ (x.run m).log, e.Writes b i
  · exact hmem b i hw
  · have hno : ∀ e ∈ (x.run m).log, ¬ e.Writes b i := fun e he hc => hw ⟨e, he, hc⟩
    rw [x.frame m' b i (hlog ▸ hno), x.frame m b i hno]
    exact hb.resolve_right hw

/-- A block on which such memories agree ends up the same. -/
theorem Within.mem_eq_of_agree (h : Within (Event.In R W) x) {m m' : Mem β}
    (hagree : ∀ b ∈ R, m' b = m b) (hb : m' b = m b) : (x.run m').mem b = (x.run m).mem b := by
  funext i
  exact mem_eq_of_same (h.same hagree) (.inl (by rw [hb]))

end Footprint

end Prog

end Txei.Machine

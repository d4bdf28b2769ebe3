import Txei.Machine.Program

/-!
# Two runs side by side

Two memories agree on a region, and a program is run from both. `Run.Same` is what the two runs
then have in common; the rules here carry it through a composition, where the region grows by what
the first part writes. That a result does not depend on some bytes is a statement about two such
runs, from memories that agree everywhere else.
-/

namespace Txei.Machine

variable {κ β ε ε' α γ : Type}

/-- A set of bytes. -/
abbrev Region (β : Type) : Type := β → Nat → Prop

/-- The two memories have the same bytes in `S`. -/
def Mem.Agree (S : Region β) (m m' : Mem β) : Prop := ∀ b i, S b i → m' b i = m b i

/-- The event reads bytes in `S` alone. -/
def Event.ReadsIn (S : Region β) (e : Event κ β) : Prop := ∀ b i, e.Reads b i → S b i

@[simp] theorem Event.readsIn_read (S : Region β) (b : β) (o n : Nat) :
    (.read b o n : Event κ β).ReadsIn S ↔ ∀ i < n, S b (o + i) := by
  constructor
  · exact fun h i hi => h b (o + i) ⟨rfl, Nat.le_add_right o i, Nat.add_lt_add_left hi o⟩
  · intro h b' i hr
    obtain ⟨rfl, hle, hlt⟩ := hr
    obtain ⟨k, rfl⟩ := Nat.exists_eq_add_of_le hle
    exact h k (Nat.lt_of_add_lt_add_left hlt)

@[simp] theorem Event.readsIn_write (S : Region β) (b : β) (o n : Nat) :
    (.write b o n : Event κ β).ReadsIn S :=
  fun _ _ hr => hr.elim

@[simp] theorem Event.readsIn_call (S : Region β) (k : κ) : (.call k : Event κ β).ReadsIn S :=
  fun _ _ hr => hr.elim

namespace Mem

variable {S : Region β} {m m' : Mem β}

theorem Agree.word_eq (h : Agree S m m') {b : β} {o : Nat} (hS : ∀ i < 4, S b (o + i)) :
    m'.word b o = m.word b o :=
  word_congr fun i hi => h b (o + i) (hS i hi)

theorem Agree.half_eq (h : Agree S m m') {b : β} {o : Nat} (hS : ∀ i < 2, S b (o + i)) :
    m'.half b o = m.half b o := by
  rw [half, half, h b (o + 1) (hS 1 (by decide)), h b o (hS 0 (by decide))]

end Mem

namespace Prog

variable {S : Region β} {m m' : Mem β} {x : Prog κ β ε α} {f : α → Prog κ β ε γ}

/-- Runs from memories that agree on what one of them reads are the same. -/
theorem same_of_reads (hagree : Mem.Agree S m m')
    (hreads : ∀ e ∈ (x.run m).log, e.ReadsIn S) :
    (x.run m).Same (x.run m') :=
  x.depends m m' fun b i ⟨e, he, hr⟩ => hagree b i (hreads e he b i hr)

theorem Within.same_of_agree (h : Within (Event.ReadsIn S) x) (hagree : Mem.Agree S m m') :
    (x.run m).Same (x.run m') :=
  same_of_reads hagree (h m)

theorem agree_of_same (h : (x.run m).Same (x.run m')) (hagree : Mem.Agree S m m') :
    Mem.Agree S (x.run m).mem (x.run m').mem :=
  fun b i hb => mem_eq_of_same h (.inl (hagree b i hb))

/-- A composition runs in the same way when its first part does, and its second part does from
where the first leaves off. -/
theorem same_bind (hagree : Mem.Agree S m m') (hx : (x.run m).Same (x.run m'))
    (hf : ∀ a, (x.run m).result = .ok a → Mem.Agree S (x.run m).mem (x.run m').mem →
      ((f a).run (x.run m).mem).Same ((f a).run (x.run m').mem)) :
    ((x >>= f).run m).Same ((x >>= f).run m') := by
  obtain ⟨hres, hlog, hmem⟩ := hx
  rw [run_bind, run_bind]
  cases hr : (x.run m).result with
  | error e =>
      rw [Run.andThen_of_error hr, Run.andThen_of_error (hres.trans hr)]
      exact ⟨rfl, hlog, hmem⟩
  | ok a =>
      have hsame := hf a hr (agree_of_same ⟨hres, hlog, hmem⟩ hagree)
      have hres2 := hsame.1
      have hlog2 := hsame.2.1
      rw [Run.andThen_of_ok hr, Run.andThen_of_ok (hres.trans hr)]
      refine ⟨hres2, by simp only [Run.prepend_log, hlog, hlog2], ?_⟩
      intro b i hwritten
      obtain ⟨e, he, hw⟩ := hwritten
      rcases List.mem_append.mp he with hfirst | hsecond
      · exact mem_eq_of_same hsame (.inl (hmem b i ⟨e, hfirst, hw⟩))
      · exact mem_eq_of_same hsame (.inr ⟨e, hsecond, hw⟩)

/-- How a program ended is the same when its run is. -/
theorem same_attempt (h : (x.run m).Same (x.run m')) :
    ((attempt x : Prog κ β ε' _).run m).Same ((attempt x : Prog κ β ε' _).run m') := by
  obtain ⟨hres, hlog, hmem⟩ := h
  exact ⟨congrArg Except.ok hres, hlog, hmem⟩

/-- The value of a function is the same when its run is. -/
theorem same_returned {x : Prog κ β α α} (h : (x.run m).Same (x.run m')) :
    ((returned x : Prog κ β ε α).run m).Same ((returned x : Prog κ β ε α).run m') := by
  obtain ⟨hres, hlog, hmem⟩ := h
  exact ⟨by simp only [run_returned, Run.value, hres], hlog, hmem⟩

end Prog

end Txei.Machine

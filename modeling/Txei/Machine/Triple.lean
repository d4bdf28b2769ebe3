import Txei.Machine.Calls

/-!
# Triples

`Within` bounds the events of a program whatever memory it starts from and whatever values it works
with. Where the bound is a matter of what has been computed so far, a triple carries it: the events
of every run from a memory with `I` satisfy `E`, what the run returns satisfies `Q` together with
the memory it leaves, and what it leaves early with satisfies `F`.
-/

namespace Txei.Machine

variable {κ β ε α γ : Type}

/-- The run has returned a value with `Q`, or has left early with a value with `F`. -/
def Run.Ends (F : ε → Mem β → Prop) (Q : α → Mem β → Prop) (r : Run κ β ε α) : Prop :=
  match r.result with
  | .ok a => Q a r.mem
  | .error e => F e r.mem

theorem Run.ends_of_ok {F : ε → Mem β → Prop} {Q : α → Mem β → Prop} {r : Run κ β ε α} {a : α}
    (h : r.result = .ok a) : r.Ends F Q ↔ Q a r.mem := by
  unfold Run.Ends
  rw [h]

theorem Run.ends_of_error {F : ε → Mem β → Prop} {Q : α → Mem β → Prop} {r : Run κ β ε α} {e : ε}
    (h : r.result = .error e) : r.Ends F Q ↔ F e r.mem := by
  unfold Run.Ends
  rw [h]

theorem Run.Ends.mono {F F' : ε → Mem β → Prop} {Q Q' : α → Mem β → Prop} {r : Run κ β ε α}
    (h : r.Ends F Q) (hF : ∀ e m, F e m → F' e m) (hQ : ∀ a m, Q a m → Q' a m) : r.Ends F' Q' := by
  cases hr : r.result with
  | ok a => exact (ends_of_ok hr).mpr (hQ a _ ((ends_of_ok hr).mp h))
  | error e => exact (ends_of_error hr).mpr (hF e _ ((ends_of_error hr).mp h))

namespace Prog

/-- From every memory with `I` the events of `x` satisfy `E`, and it ends with `F` or `Q`. -/
def Triple (E : Event κ β → Prop) (F : ε → Mem β → Prop) (I : Mem β → Prop) (x : Prog κ β ε α)
    (Q : α → Mem β → Prop) : Prop :=
  ∀ m, I m → (∀ e ∈ (x.run m).log, E e) ∧ (x.run m).Ends F Q

section Rules

variable {E : Event κ β → Prop} {F F' : ε → Mem β → Prop} {I I' : Mem β → Prop}
  {x : Prog κ β ε α} {Q Q' : α → Mem β → Prop}

theorem Triple.conseq (h : Triple E F I x Q) (hI : ∀ m, I' m → I m)
    (hF : ∀ e m, F e m → F' e m) (hQ : ∀ a m, Q a m → Q' a m) : Triple E F' I' x Q' := by
  intro m hm
  obtain ⟨hlog, hends⟩ := h m (hI m hm)
  exact ⟨hlog, hends.mono hF hQ⟩

theorem Triple.pre (h : Triple E F I x Q) (hI : ∀ m, I' m → I m) : Triple E F I' x Q :=
  h.conseq hI (fun _ _ he => he) fun _ _ ha => ha

theorem Triple.post (h : Triple E F I x Q) (hQ : ∀ a m, Q a m → Q' a m) : Triple E F I x Q' :=
  h.conseq (fun _ hm => hm) (fun _ _ he => he) hQ

theorem Triple.early (h : Triple E F I x Q) (hF : ∀ e m, F e m → F' e m) : Triple E F' I x Q :=
  h.conseq (fun _ hm => hm) hF fun _ _ ha => ha

theorem triple_exists {δ : Type} {J : δ → Mem β → Prop} (h : ∀ d, Triple E F (J d) x Q) :
    Triple E F (fun m => ∃ d, J d m) x Q := by
  intro m hm
  obtain ⟨d, hd⟩ := hm
  exact h d m hd

/-- What the precondition says about no memory is a hypothesis. -/
theorem triple_and {φ : Prop} (h : φ → Triple E F I x Q) :
    Triple E F (fun m => φ ∧ I m) x Q :=
  fun m hm => h hm.1 m hm.2

theorem triple_pure {a : α} (h : ∀ m, I m → Q a m) : Triple E F I (pure a) Q := by
  intro m hm
  exact ⟨by simp, h m hm⟩

theorem triple_exit {e : ε} (h : ∀ m, I m → F e m) : Triple E F I (exit e : Prog κ β ε α) Q := by
  intro m hm
  exact ⟨by simp, h m hm⟩

theorem Triple.bind {f : α → Prog κ β ε γ} {R : γ → Mem β → Prop} (hx : Triple E F I x Q)
    (hf : ∀ a, Triple E F (Q a) (f a) R) : Triple E F I (x >>= f) R := by
  intro m hm
  obtain ⟨hlog, hends⟩ := hx m hm
  rw [run_bind]
  cases hr : (x.run m).result with
  | error e =>
      rw [Run.andThen_of_error hr]
      exact ⟨hlog, (Run.ends_of_error hr).mp hends⟩
  | ok a =>
      rw [Run.andThen_of_ok hr]
      obtain ⟨hlog', hends'⟩ := hf a _ ((Run.ends_of_ok hr).mp hends)
      exact ⟨List.forall_mem_append.mpr ⟨hlog, hlog'⟩, hends'⟩

theorem triple_ite {c : Prop} [Decidable c] {y : Prog κ β ε α} (hx : c → Triple E F I x Q)
    (hy : ¬ c → Triple E F I y Q) : Triple E F I (if c then x else y) Q := by
  by_cases hc : c
  · rw [if_pos hc]
    exact hx hc
  · rw [if_neg hc]
    exact hy hc

theorem triple_exitIf {c : Prop} [Decidable c] {e : ε} {R : Unit → Mem β → Prop}
    (hexit : c → ∀ m, I m → F e m) (hgo : ¬ c → ∀ m, I m → R () m) :
    Triple E F I (exitIf c e : Prog κ β ε Unit) R :=
  triple_ite (fun hc => triple_exit (hexit hc)) fun hc => triple_pure (hgo hc)

/-- What a step is known to do from each memory with `I`. -/
theorem Within.triple (hx : Within E x) (h : ∀ m, I m → (x.run m).Ends F Q) : Triple E F I x Q :=
  fun m hm => ⟨hx m, h m hm⟩

end Rules

end Prog

end Txei.Machine

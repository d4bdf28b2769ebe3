import Txei.Machine.Calls

/-!
# Programs on a host

A host is a machine that answers calls, where a call carries its answer: `step s k` is the state
behind the call `k`, and `none` where a host in the state `s` does not answer so. `path step s l` is
the state that a list of calls leads to. `Prog.Leads` says where a run on a host ends: a run from
the memory `m` whose calls the host answers from the state `s` on returns with `Q`, or leaves early
with `F`, in the state that the calls lead to. The rules follow the structure of a program, one
statement at a time, and a part with a result of its own is cited by `Leads.bind`.
-/

namespace Txei.Machine

variable {κ β ε α γ σ : Type}

section Path

variable (step : σ → κ → Option σ)

/-- The state that the calls lead to, if the host answers them so. -/
def path (s : σ) (l : List κ) : Option σ := l.foldlM step s

@[simp] theorem path_nil (s : σ) : path step s [] = some s := rfl

@[simp] theorem path_cons (s : σ) (k : κ) (l : List κ) :
    path step s (k :: l) = (step s k).bind fun s' => path step s' l := List.foldlM_cons

theorem path_append (s : σ) (l l' : List κ) :
    path step s (l ++ l') = (path step s l).bind fun s' => path step s' l' :=
  List.foldlM_append

variable {step}

/-- What is called first leads to a state from which the rest is answered. -/
theorem path_append_eq_some {s s'' : σ} {l l' : List κ} (h : path step s (l ++ l') = some s'') :
    ∃ s', path step s l = some s' ∧ path step s' l' = some s'' := by
  rw [path_append] at h
  exact Option.bind_eq_some_iff.mp h

theorem path_snoc_eq_some {s s'' : σ} {l : List κ} {k : κ} (h : path step s (l ++ [k]) = some s'') :
    ∃ s', path step s l = some s' ∧ step s' k = some s'' := by
  obtain ⟨s', hfirst, hlast⟩ := path_append_eq_some h
  rw [path_cons] at hlast
  obtain ⟨s₁, hstep, hend⟩ := Option.bind_eq_some_iff.mp hlast
  exact ⟨s', hfirst, hstep.trans hend⟩

end Path

namespace Prog

/-- Where a run from the memory `m` ends if the host answers its calls from the state `s` on. -/
def Leads (step : σ → κ → Option σ) (s : σ) (m : Mem β) (x : Prog κ β ε α)
    (F : ε → σ → Mem β → Prop) (Q : α → σ → Mem β → Prop) : Prop :=
  ∀ s', path step s (x.run m).log.calls = some s' →
    match (x.run m).result with
    | .ok a => Q a s' (x.run m).mem
    | .error e => F e s' (x.run m).mem

section Rules

variable {step : σ → κ → Option σ} {s : σ} {m : Mem β} {x : Prog κ β ε α}
  {F : ε → σ → Mem β → Prop} {Q : α → σ → Mem β → Prop} {R : γ → σ → Mem β → Prop}

theorem Leads.conseq {F' : ε → σ → Mem β → Prop} {Q' : α → σ → Mem β → Prop}
    (h : Leads step s m x F Q) (hF : ∀ e s m, F e s m → F' e s m)
    (hQ : ∀ a s m, Q a s m → Q' a s m) : Leads step s m x F' Q' := by
  intro s' hpath
  have hends := h s' hpath
  cases hr : (x.run m).result with
  | ok a =>
      rw [hr] at hends
      exact hQ a s' _ hends
  | error e =>
      rw [hr] at hends
      exact hF e s' _ hends

theorem leads_pure {a : α} (h : Q a s m) : Leads step s m (pure a : Prog κ β ε α) F Q := by
  intro s' hpath
  cases Option.some.inj hpath
  exact h

/-- A part is left early, or it returns and the rest goes on from where it leads. -/
theorem Leads.bind {f : α → Prog κ β ε γ} (hx : Leads step s m x F Q)
    (hf : ∀ a s' m', Q a s' m' → Leads step s' m' (f a) F R) :
    Leads step s m (x >>= f) F R := by
  intro s'' hpath
  rw [run_bind] at hpath ⊢
  cases hr : (x.run m).result with
  | error e =>
      rw [Run.andThen_of_error hr] at hpath ⊢
      have hends := hx s'' hpath
      rw [hr] at hends
      exact hends
  | ok a =>
      rw [Run.andThen_of_ok hr, Run.prepend_log, Log.calls_append] at hpath
      obtain ⟨s', hfirst, hrest⟩ := path_append_eq_some hpath
      have hends := hx s' hfirst
      rw [hr] at hends
      rw [Run.andThen_of_ok hr]
      exact hf a s' _ hends s'' hrest

/-- A statement that makes no call only changes the memory. -/
theorem leads_quiet_bind {a : α} {f : α → Prog κ β ε γ} (hresult : (x.run m).result = .ok a)
    (hquiet : (x.run m).log.calls = []) (hf : Leads step s (x.run m).mem (f a) F R) :
    Leads step s m (x >>= f) F R := by
  intro s' hpath
  rw [run_bind, Run.andThen_of_ok hresult] at hpath ⊢
  rw [Run.prepend_log, Log.calls_append, hquiet, List.nil_append] at hpath
  exact hf s' hpath

/-- A call leads to the state in which the host answers it. -/
theorem leads_call_bind {k : κ} {f : Unit → Prog κ β ε γ}
    (h : ∀ s', step s k = some s' → Leads step s' m (f ()) F R) :
    Leads step s m (call k >>= f) F R := by
  intro s'' hpath
  rw [run_bind, run_call, Run.andThen_ok, Run.prepend_log, Log.calls_append] at hpath
  obtain ⟨s', hfirst, hrest⟩ := path_append_eq_some hpath
  obtain ⟨s₁, hstep, hend⟩ := Option.bind_eq_some_iff.mp hfirst
  exact h s' (hstep.trans hend) s'' hrest

theorem leads_exitIf_bind {c : Prop} [Decidable c] {e : ε} {f : Unit → Prog κ β ε γ}
    (hexit : c → F e s m) (hgo : ¬ c → Leads step s m (f ()) F R) :
    Leads step s m (exitIf c e >>= f) F R := by
  intro s' hpath
  rw [run_exitIf_bind] at hpath ⊢
  by_cases hc : c
  · rw [if_pos hc] at hpath ⊢
    cases Option.some.inj hpath
    exact hexit hc
  · rw [if_neg hc] at hpath ⊢
    exact hgo hc s' hpath

theorem leads_valueOrExit_bind {o : Option α} {e : ε} {f : α → Prog κ β ε γ}
    (hnone : o = none → F e s m) (hsome : ∀ a, o = some a → Leads step s m (f a) F R) :
    Leads step s m (valueOrExit o e >>= f) F R := by
  cases o with
  | none =>
      intro s' hpath
      cases Option.some.inj hpath
      exact hnone rfl
  | some a => exact leads_quiet_bind rfl rfl (hsome a rfl)

theorem leads_onlyIf_bind {c : Prop} [Decidable c] {y : Prog κ β ε Unit}
    {f : Unit → Prog κ β ε γ} (hrun : c → Leads step s m (y >>= f) F R)
    (hskip : ¬ c → Leads step s m (f ()) F R) : Leads step s m (onlyIf c y >>= f) F R := by
  unfold onlyIf
  by_cases hc : c
  · rw [if_pos hc]
    exact hrun hc
  · rw [if_neg hc]
    exact leads_quiet_bind rfl rfl (hskip hc)

/-- What a function returns, early or at its end, and the state it leads to. -/
theorem Leads.value {y : Prog κ β α α} (h : Leads step s m y Q Q) {s' : σ}
    (hpath : path step s (y.run m).log.calls = some s') :
    Q (y.run m).value s' (y.run m).mem := by
  have hends := h s' hpath
  unfold Run.value
  cases hr : (y.run m).result with
  | ok a =>
      rw [hr] at hends
      exact hends
  | error a =>
      rw [hr] at hends
      exact hends

/-- A function that is called goes on with what it returns. -/
theorem Leads.returned {y : Prog κ β α α} (h : Leads step s m y Q Q) :
    Leads step s m (returned y : Prog κ β ε α) F Q :=
  fun _ hpath => h.value hpath

end Rules

end Prog

end Txei.Machine

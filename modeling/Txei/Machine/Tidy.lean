import Txei.Machine.Ledger

/-!
# Programs that release what they acquire

A ledger is tidy if it leaves what is held as it was and has at most one resource more at every
moment in between. `Prog.Tidy` says this of every run of a program, whatever it returns and
wherever it is left. Parts that make no calls are tidy, tidy parts compose, and what acquires a
resource is tidy if what goes on with it is `Releasing`: it releases that resource and makes no
other call.
-/

namespace Txei.Machine

variable {κ β ρ ε ε' α γ : Type} [DecidableEq ρ]

/-! ## Tidy ledgers -/

/-- Whatever is held before, the same is held behind the ledger, and at most one resource more
within it. -/
def TidyLedger (l : List (Entry ρ)) : Prop :=
  Balanced l ∧ ∀ s, Throughout (fun t => t.card ≤ s.card + 1) s l

theorem tidyLedger_nil : TidyLedger ([] : List (Entry ρ)) :=
  ⟨balanced_nil, fun s => (throughout_nil _ s).mpr (Nat.le_succ _)⟩

theorem tidyLedger_pair (r : ρ) : TidyLedger [.acquire r, .release r] := by
  refine ⟨balanced_pair r, fun s => ?_⟩
  simp only [throughout_cons, throughout_nil, Entry.apply_acquire, Entry.apply_release,
    Multiset.card_cons, Multiset.erase_cons_head]
  omega

theorem TidyLedger.append {l l' : List (Entry ρ)} (h : TidyLedger l) (h' : TidyLedger l') :
    TidyLedger (l ++ l') := by
  obtain ⟨hbal, hmost⟩ := h
  obtain ⟨hbal', hmost'⟩ := h'
  refine ⟨fun s => ?_, fun s => ?_⟩
  · rw [held_append, hbal, hbal']
  · rw [throughout_append, hbal]
    exact ⟨hmost s, hmost' s⟩

/-- The ledger of a machine with tidy steps is tidy. -/
theorem tidyLedger_entriesOf {σ η : Type} {step : σ → η → σ} {entries : σ → η → List (Entry ρ)}
    (hstep : ∀ s e, TidyLedger (entries s e)) (s : σ) (h : List η) :
    TidyLedger (entriesOf step entries s h) :=
  entriesOf_invariant step entries (I := fun _ l => TidyLedger l) tidyLedger_nil
    (fun s _ e hl => hl.append (hstep s e)) h

namespace Prog

variable (f : κ → Entry ρ)

/-! ## Programs that go on -/

/-- The program is never left early. -/
def Proceeds (x : Prog κ β ε α) : Prop := ∀ m, ∃ a, (x.run m).result = .ok a

/-- An attempt catches whatever the program is left with. -/
theorem proceeds_attempt (x : Prog κ β ε' α) : Proceeds (attempt x : Prog κ β ε _) :=
  fun m => ⟨(x.run m).result, rfl⟩

theorem proceeds_returned (x : Prog κ β α α) : Proceeds (returned x : Prog κ β ε α) :=
  fun m => ⟨(x.run m).value, rfl⟩

/-! ## Tidy programs -/

/-- Every run of the program has a tidy ledger. -/
def Tidy (x : Prog κ β ε α) : Prop := ∀ m, TidyLedger (ledger f (x.run m).log)

/-- All that the program does to the ledger is to release `r`. -/
def Releasing (r : ρ) (x : Prog κ β ε α) : Prop := ∀ m, ledger f (x.run m).log = [.release r]

variable {f} {r : ρ}

theorem tidy_of_access {x : Prog κ β ε α} (hx : Within Event.IsAccess x) : Tidy f x := by
  intro m
  rw [Within.ledger_eq_nil f hx m]
  exact tidyLedger_nil

theorem Tidy.bind {x : Prog κ β ε α} {k : α → Prog κ β ε γ} (hx : Tidy f x)
    (hk : ∀ a, Tidy f (k a)) : Tidy f (x >>= k) := by
  intro m
  rw [run_bind]
  cases h : (x.run m).result with
  | error e =>
      rw [Run.andThen_of_error h]
      exact hx m
  | ok a =>
      rw [Run.andThen_of_ok h, Run.prepend_log, ledger_append]
      exact (hx m).append (hk a _)

/-- How a composition is bracketed does not matter. -/
theorem Tidy.of_assoc {x : Prog κ β ε α} {g : α → Prog κ β ε γ} {δ : Type}
    {k : γ → Prog κ β ε δ} (h : Tidy f (x >>= fun a => g a >>= k)) :
    Tidy f ((x >>= g) >>= k) := by
  intro m
  have hrun := h m
  simp only [run_bind, Run.andThen_assoc] at hrun ⊢
  exact hrun

theorem Tidy.ite {c : Prop} [Decidable c] {x y : Prog κ β ε α} (hx : Tidy f x) (hy : Tidy f y) :
    Tidy f (if c then x else y) := by
  split
  · exact hx
  · exact hy

theorem Tidy.onlyIf {c : Prop} [Decidable c] {x : Prog κ β ε Unit} (hx : Tidy f x) :
    Tidy f (onlyIf c x) :=
  hx.ite (tidy_of_access (within_pure _))

theorem Tidy.returned {x : Prog κ β α α} (hx : Tidy f x) :
    Tidy f (returned x : Prog κ β ε α) :=
  fun m => hx m

omit [DecidableEq ρ] in
/-- What makes no call may come before the release. -/
theorem Releasing.bind {x : Prog κ β ε α} {k : α → Prog κ β ε γ} (hx : Within Event.IsAccess x)
    (hgo : Proceeds x) (hk : ∀ a, Releasing f r (k a)) : Releasing f r (x >>= k) := by
  intro m
  obtain ⟨a, ha⟩ := hgo m
  rw [run_bind, Run.andThen_of_ok ha, Run.prepend_log, ledger_append,
    Within.ledger_eq_nil f hx m, hk a, List.nil_append]

omit [DecidableEq ρ] in
theorem releasing_pure_bind {a : α} {k : α → Prog κ β ε γ} (h : Releasing f r (k a)) :
    Releasing f r (pure a >>= k) := by
  intro m
  rw [run_bind, run_pure, Run.andThen_ok]
  exact h m

omit [DecidableEq ρ] in
/-- And what makes no call may follow it. -/
theorem releasing_call {d : κ} (hd : f d = .release r) {k : Unit → Prog κ β ε γ}
    (hk : Within Event.IsAccess (k ())) : Releasing f r (call d >>= k) := by
  intro m
  rw [run_bind, run_call, Run.andThen_ok, Run.prepend_log, ledger_append, ledger_call, ledger_nil,
    Within.ledger_eq_nil f hk, hd]
  rfl

/-- What acquires a resource goes on with its release. -/
theorem Releasing.tidy {x : Prog κ β ε γ} (hx : Releasing f r x) {d : κ}
    (hd : f d = .acquire r) : Tidy f (call d >>= fun _ => x) := by
  intro m
  rw [run_bind, run_call, Run.andThen_ok, Run.prepend_log, ledger_append, ledger_call, ledger_nil,
    hx m, hd]
  exact tidyLedger_pair r

end Prog

end Txei.Machine

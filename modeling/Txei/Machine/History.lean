import Mathlib.Data.List.Induction

/-!
# Histories

A history is a list of events in the order in which they take place. `Everywhere P` says that `P`
holds of every event together with the events before it, and `after step s` is the state that the
events lead to from `s`, so a statement about every history is one about every run.
-/

namespace Txei.Machine

/-! ## Every event of a history -/

/-- `P` holds of every event of the history, taken together with the events before it. -/
def Everywhere {α : Type} (P : List α → α → Prop) (h : List α) : Prop :=
  ∀ p e q, h = p ++ e :: q → P p e

theorem everywhere_nil {α : Type} (P : List α → α → Prop) : Everywhere P [] := by
  intro p e q hnil
  exact absurd hnil.symm (by simp)

/-- The last event is the one event that is not an event of the rest. -/
theorem everywhere_snoc {α : Type} {P : List α → α → Prop} {h : List α} {e : α} :
    Everywhere P (h ++ [e]) ↔ Everywhere P h ∧ P h e := by
  constructor
  · intro hall
    refine ⟨?_, hall h e [] rfl⟩
    intro p e' q heq
    subst heq
    exact hall p e' (q ++ [e]) (by simp)
  · intro hboth p e' q heq
    obtain ⟨hall, hlast⟩ := hboth
    rcases List.eq_nil_or_concat q with rfl | ⟨q', e'', rfl⟩
    · obtain ⟨rfl, hcons⟩ := List.append_inj' heq rfl
      cases hcons
      exact hlast
    · rw [List.concat_eq_append, ← List.cons_append, ← List.append_assoc] at heq
      obtain ⟨rfl, -⟩ := List.append_inj' heq rfl
      exact hall p e' q' rfl

/-- The first event is the one event with nothing before it. -/
theorem everywhere_cons {α : Type} {P : List α → α → Prop} {e : α} {h : List α} :
    Everywhere P (e :: h) ↔ P [] e ∧ Everywhere (fun p => P (e :: p)) h := by
  constructor
  · intro hall
    exact ⟨hall [] e h rfl, fun p e' q heq => hall (e :: p) e' q (heq ▸ rfl)⟩
  · intro hboth p e' q heq
    obtain ⟨hfirst, hall⟩ := hboth
    cases p with
    | nil =>
        cases heq
        exact hfirst
    | cons e'' p =>
        obtain ⟨rfl, hrest⟩ := List.cons.inj heq
        exact hall p e' q hrest

theorem Everywhere.congr {α : Type} {P Q : List α → α → Prop} (h : ∀ p e, P p e ↔ Q p e)
    (l : List α) : Everywhere P l ↔ Everywhere Q l := by
  unfold Everywhere
  simp only [h]

/-- The events of a mapped history are the mapped events. -/
theorem everywhere_map {α β : Type} {P : List β → β → Prop} (f : α → β) (l : List α) :
    Everywhere P (l.map f) ↔ Everywhere (fun p e => P (p.map f) (f e)) l := by
  induction l using List.reverseRecOn with
  | nil => exact ⟨fun _ => everywhere_nil _, fun _ => everywhere_nil _⟩
  | append_singleton l e ih =>
      rw [List.map_append, List.map_singleton, everywhere_snoc, everywhere_snoc, ih]

/-- What is said of an event alone holds of every element of the history. -/
theorem everywhere_iff_forall_mem {α : Type} {P : α → Prop} (l : List α) :
    Everywhere (fun _ e => P e) l ↔ ∀ e ∈ l, P e := by
  constructor
  · intro h e he
    obtain ⟨p, q, heq⟩ := List.append_of_mem he
    exact h p e q heq
  · intro h p e q heq
    exact h e (heq ▸ List.mem_append_right p List.mem_cons_self)

/-! ## Runs -/

section Runs

variable {σ ε : Type} (step : σ → ε → σ) (s : σ)

/-- The state after a history. -/
def after (h : List ε) : σ := h.foldl step s

@[simp] theorem after_nil : after step s [] = s := rfl

@[simp] theorem after_cons (e : ε) (h : List ε) :
    after step s (e :: h) = after step (step s e) h := rfl

theorem after_append (h h' : List ε) :
    after step s (h ++ h') = after step (after step s h) h' :=
  List.foldl_append

@[simp] theorem after_snoc (h : List ε) (e : ε) :
    after step s (h ++ [e]) = step (after step s h) e := by
  simp [after]

/-- What holds at the start and is kept by the events of a history holds after it. -/
theorem after_invariant_of_mem {I : σ → Prop} (hstart : I s) (h : List ε)
    (hstep : ∀ s, ∀ e ∈ h, I s → I (step s e)) : I (after step s h) := by
  induction h generalizing s with
  | nil => exact hstart
  | cons e h ih =>
      refine ih _ (hstep s e List.mem_cons_self hstart) fun s e' he => ?_
      exact hstep s e' (List.mem_cons_of_mem e he)

/-- What holds at the start and is kept by every step holds after every history. -/
theorem after_invariant {I : σ → Prop} (hstart : I s) (hstep : ∀ s e, I s → I (step s e))
    (h : List ε) : I (after step s h) :=
  after_invariant_of_mem step s hstart h fun s e _ => hstep s e

end Runs

/-- The events of a history, each together with the state that it meets. -/
def trace {σ ε : Type} (step : σ → ε → σ) : σ → List ε → List (σ × ε)
  | _, [] => []
  | s, e :: h => (s, e) :: trace step (step s e) h

theorem trace_snoc {σ ε : Type} (step : σ → ε → σ) (s : σ) (h : List ε) (e : ε) :
    trace step s (h ++ [e]) = trace step s h ++ [(after step s h, e)] := by
  induction h generalizing s with
  | nil => rfl
  | cons e' h ih => simp [trace, ih]

/-! ## Outputs -/

/-- What the events of a history put out, one behind the other. -/
def output {σ ε β : Type} (step : σ → ε → σ) (out : σ → ε → List β) (s : σ) (h : List ε) :
    List β :=
  (trace step s h).flatMap fun p => out p.1 p.2

/-- Machines in lockstep put out the same. -/
theorem output_eq_of_lockstep {σ τ ε β : Type} {step : σ → ε → σ} {step' : τ → ε → τ}
    {out : σ → ε → List β} {out' : τ → ε → List β} (R : σ → τ → Prop)
    (hstep : ∀ s t e, R s t → R (step s e) (step' t e))
    (hout : ∀ s t e, R s t → out s e = out' t e) {s : σ} {t : τ} (hst : R s t) (h : List ε) :
    output step out s h = output step' out' t h := by
  induction h generalizing s t with
  | nil => rfl
  | cons e h ih =>
      have hrest := ih (hstep s t e hst)
      unfold output at hrest ⊢
      rw [trace, trace, List.flatMap_cons, List.flatMap_cons, hout s t e hst, hrest]

/-! ## The last value -/

/-- The last value that `f` finds in a history, or `b` where it finds none. -/
def lastValue {α β : Type} (f : α → Option β) (b : β) (h : List α) : β :=
  (h.reverse.findSome? f).getD b

@[simp] theorem lastValue_nil {α β : Type} (f : α → Option β) (b : β) :
    lastValue f b [] = b := rfl

theorem lastValue_snoc {α β : Type} (f : α → Option β) (b : β) (h : List α) (e : α) :
    lastValue f b (h ++ [e]) = (f e).getD (lastValue f b h) := by
  unfold lastValue
  rw [List.reverse_append, List.reverse_singleton, List.singleton_append, List.findSome?_cons]
  cases f e with
  | none => rfl
  | some b' => rfl

/-- A part of the state that the events of a history set, or leave as it is, is what the last of
them set it to. -/
theorem after_eq_lastValue {σ ε α : Type} {step : σ → ε → σ} {sets : σ × ε → Option α}
    (value : σ → α) (s : σ) (h : List ε)
    (hstep : ∀ s, ∀ e ∈ h, value (step s e) = (sets (s, e)).getD (value s)) :
    value (after step s h) = lastValue sets (value s) (trace step s h) := by
  induction h using List.reverseRecOn with
  | nil => rfl
  | append_singleton h e ih =>
      have hlast := hstep (after step s h) e (List.mem_append_right h (List.mem_singleton_self e))
      rw [after_snoc, trace_snoc, lastValue_snoc, hlast,
        ih fun s e' he => hstep s e' (List.mem_append_left _ he)]

end Txei.Machine

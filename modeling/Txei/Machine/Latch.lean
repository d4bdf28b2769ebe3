import Txei.Machine.History

/-!
# A value that is set once

A system whose state holds an optional value, the latch, that no event changes once it is there.
Whatever the events are, at most one of them sets the latch (`sets_once`), and a value found in
the latch is the one that this event left there (`latch_eq_some_iff`).
-/

namespace Txei.Machine.Latch

variable {σ ε γ : Type} (step : σ → ε → σ) (latch : σ → Option γ)

/-- No event changes a value that is set. -/
def Kept : Prop := ∀ s e v, latch s = some v → latch (step s e) = some v

/-- The event sets the latch. -/
def Sets (s : σ) (e : ε) : Prop := latch s = none ∧ latch (step s e) ≠ none

variable {step latch} {s : σ}

/-- The latch is empty as long as no event has set it. -/
theorem latch_eq_none_iff (hkept : Kept step latch) (hs : latch s = none) (h : List ε) :
    latch (after step s h) = none ↔
      Everywhere (fun p e => ¬ Sets step latch (after step s p) e) h := by
  induction h using List.reverseRecOn with
  | nil => exact ⟨fun _ => everywhere_nil _, fun _ => hs⟩
  | append_singleton h e ih =>
      rw [everywhere_snoc, ← ih, after_snoc]
      constructor
      · intro hnone
        have hbefore : latch (after step s h) = none := by
          cases hv : latch (after step s h) with
          | none => rfl
          | some v => exact absurd (hkept _ e v hv) (by simp [hnone])
        exact ⟨hbefore, fun hsets => hsets.2 hnone⟩
      · intro hboth
        obtain ⟨hbefore, hno⟩ := hboth
        exact Classical.not_not.mp fun hset => hno ⟨hbefore, hset⟩

/-- At most one event of a history sets the latch. -/
theorem sets_once (hkept : Kept step latch) (hs : latch s = none) (h : List ε) :
    Everywhere (fun p e => Sets step latch (after step s p) e →
      Everywhere (fun p' e' => ¬ Sets step latch (after step s p') e') p) h :=
  fun p _ _ _ hsets => (latch_eq_none_iff hkept hs p).mp hsets.1

/-- A value in the latch is the one that the event which set it left there. -/
theorem latch_eq_some_iff (hkept : Kept step latch) (hs : latch s = none) (h : List ε) (v : γ) :
    latch (after step s h) = some v ↔
      ∃ p e q, h = p ++ e :: q ∧ Sets step latch (after step s p) e ∧
        latch (step (after step s p) e) = some v := by
  induction h using List.reverseRecOn with
  | nil => simp [hs]
  | append_singleton h e ih =>
      rw [after_snoc]
      constructor
      · intro hv
        cases hbefore : latch (after step s h) with
        | none => exact ⟨h, e, [], rfl, ⟨hbefore, by simp [hv]⟩, hv⟩
        | some w =>
            obtain rfl : w = v := Option.some.inj ((hkept _ e w hbefore).symm.trans hv)
            obtain ⟨p, e', q, heq, hsets, hleft⟩ := ih.mp hbefore
            exact ⟨p, e', q ++ [e], by simp [heq], hsets, hleft⟩
      · intro hset
        obtain ⟨p, e', q, heq, hsets, hleft⟩ := hset
        rcases List.eq_nil_or_concat q with rfl | ⟨q', e'', rfl⟩
        · obtain ⟨rfl, hcons⟩ := List.append_inj' heq rfl
          cases hcons
          exact hleft
        · rw [List.concat_eq_append, ← List.cons_append, ← List.append_assoc] at heq
          obtain ⟨rfl, -⟩ := List.append_inj' heq rfl
          exact hkept _ e v (ih.mpr ⟨p, e', q', rfl, hsets, hleft⟩)

end Txei.Machine.Latch

import Txei.Machine.Program

/-!
# The calls of a run

`Log.calls` lists the outside calls of a log in order. A program that uses another one whose calls
are no calls of its own runs it as `hideCalls`: what is left of the log are the accesses, and they
are all that the completeness of a log is about.
-/

namespace Txei.Machine

variable {κ κ' β ε α γ : Type}

/-- The call of an event, if it is one. -/
def Event.toCall : Event κ β → Option κ
  | .call k => some k
  | _ => none

/-- The event, unless it is a call. -/
def Event.toAccess : Event κ β → Option (Event κ' β)
  | .read b o n => some (.read b o n)
  | .write b o n => some (.write b o n)
  | .call _ => none

/-- The outside calls of a log in order. -/
def Log.calls (l : Log κ β) : List κ := l.filterMap Event.toCall

@[simp] theorem Log.calls_nil : Log.calls ([] : Log κ β) = [] := rfl

@[simp] theorem Log.calls_cons (e : Event κ β) (l : Log κ β) :
    Log.calls (e :: l) = e.toCall.toList ++ Log.calls l := by
  unfold Log.calls
  rw [List.filterMap_cons]
  cases e.toCall with
  | none => rfl
  | some k => rfl

@[simp] theorem Log.calls_append (l l' : Log κ β) :
    Log.calls (l ++ l') = Log.calls l ++ Log.calls l' := List.filterMap_append

@[simp] theorem Event.toCall_read (b : β) (o n : Nat) :
    (Event.read b o n : Event κ β).toCall = none := rfl

@[simp] theorem Event.toCall_write (b : β) (o n : Nat) :
    (Event.write b o n : Event κ β).toCall = none := rfl

@[simp] theorem Event.toCall_call (k : κ) : (Event.call k : Event κ β).toCall = some k := rfl

theorem Log.mem_calls {k : κ} {l : Log κ β} : k ∈ l.calls ↔ .call k ∈ l := by
  unfold Log.calls
  rw [List.mem_filterMap]
  constructor
  · intro h
    obtain ⟨e, he, hk⟩ := h
    cases e with
    | read b o n => cases hk
    | write b o n => cases hk
    | call k' =>
        cases hk
        exact he
  · intro h
    exact ⟨_, h, rfl⟩

/-- The accesses of a log. -/
def Log.accesses (l : Log κ β) : Log κ' β := l.filterMap Event.toAccess

@[simp] theorem Log.calls_accesses (l : Log κ β) : Log.calls (l.accesses : Log κ' β) = [] := by
  induction l with
  | nil => rfl
  | cons e l ih =>
      cases e with
      | read b o n => exact ih
      | write b o n => exact ih
      | call k => exact ih

theorem Log.exists_reads_accesses (l : Log κ β) (b : β) (i : Nat) :
    (∃ e ∈ (l.accesses : Log κ' β), e.Reads b i) ↔ ∃ e ∈ l, e.Reads b i := by
  induction l with
  | nil => simp [Log.accesses]
  | cons e l ih =>
      cases e with
      | read c o n => simpa [Log.accesses, Event.toAccess] using or_congr_right ih
      | write c o n => simpa [Log.accesses, Event.toAccess] using ih
      | call k => simpa [Log.accesses, Event.toAccess] using ih

theorem Log.exists_writes_accesses (l : Log κ β) (b : β) (i : Nat) :
    (∃ e ∈ (l.accesses : Log κ' β), e.Writes b i) ↔ ∃ e ∈ l, e.Writes b i := by
  induction l with
  | nil => simp [Log.accesses]
  | cons e l ih =>
      cases e with
      | read c o n => simpa [Log.accesses, Event.toAccess] using ih
      | write c o n => simpa [Log.accesses, Event.toAccess] using or_congr_right ih
      | call k => simpa [Log.accesses, Event.toAccess] using ih

namespace Prog

/-- Run `x` without listing its calls. -/
def hideCalls (x : Prog κ β ε α) : Prog κ' β ε α where
  run m := ⟨(x.run m).result, (x.run m).mem, (x.run m).log.accesses⟩
  frame m b i h := x.frame m b i fun e he hw => by
    have hwrites : ∃ e' ∈ ((x.run m).log.accesses : Log κ' β), e'.Writes b i :=
      (Log.exists_writes_accesses _ b i).mpr ⟨e, he, hw⟩
    obtain ⟨e', he', hw'⟩ := hwrites
    exact h e' he' hw'
  depends m m' h := by
    obtain ⟨hres, hlog, hmem⟩ := x.depends m m' fun b i hr =>
      h b i ((Log.exists_reads_accesses _ b i).mpr hr)
    refine ⟨hres, congrArg Log.accesses hlog, fun b i hw => ?_⟩
    exact hmem b i ((Log.exists_writes_accesses _ b i).mp hw)

@[simp] theorem run_hideCalls (x : Prog κ β ε α) (m : Mem β) :
    (hideCalls x : Prog κ' β ε α).run m =
      ⟨(x.run m).result, (x.run m).mem, (x.run m).log.accesses⟩ := rfl

end Prog

end Txei.Machine

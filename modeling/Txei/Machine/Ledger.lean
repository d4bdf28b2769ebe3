import Txei.Machine.History
import Txei.Machine.Program
import Mathlib.Data.Multiset.OrderedMonoid

/-!
# Ledgers

A ledger is a list of acquisitions and releases of resources in the order in which they take
place. `held s l` is what is held behind the ledger `l` when `s` is held before it. A balanced
ledger releases once whatever it acquires, and nothing else, so it leaves what is held as it was;
`Throughout P s l` says that what is held satisfies `P` at every moment. `ledger f` reads the
ledger of a program out of its log, where `f` says which call acquires or releases what.

The resources that the states of a machine refer to are given back by whoever holds the state; one
that a step stops referring to without releasing it is lost. `Accounts` says of a machine what its
steps lose, and a run holds what its last state owns and nothing else exactly when no step of it
loses anything (`Accounts.held_eq_iff`).
-/

namespace Txei.Machine

variable {κ β ρ : Type}

/-- One entry of a ledger. -/
inductive Entry (ρ : Type) where
  | acquire (r : ρ)
  | release (r : ρ)
  deriving DecidableEq, Repr

/-! ## What is held -/

section Held

variable [DecidableEq ρ]

/-- What is held behind an entry. -/
def Entry.apply (s : Multiset ρ) : Entry ρ → Multiset ρ
  | .acquire r => r ::ₘ s
  | .release r => s.erase r

@[simp] theorem Entry.apply_acquire (s : Multiset ρ) (r : ρ) :
    (Entry.acquire r).apply s = r ::ₘ s := rfl

@[simp] theorem Entry.apply_release (s : Multiset ρ) (r : ρ) :
    (Entry.release r).apply s = s.erase r := rfl

/-- What is held behind the ledger `l`. -/
def held (s : Multiset ρ) (l : List (Entry ρ)) : Multiset ρ := after Entry.apply s l

@[simp] theorem held_nil (s : Multiset ρ) : held s [] = s := rfl

@[simp] theorem held_cons (s : Multiset ρ) (e : Entry ρ) (l : List (Entry ρ)) :
    held s (e :: l) = held (e.apply s) l := rfl

theorem held_append (s : Multiset ρ) (l l' : List (Entry ρ)) :
    held s (l ++ l') = held (held s l) l' := after_append Entry.apply s l l'

/-- What is held on top of `t` is released. -/
theorem held_release (t : Multiset ρ) (r : ρ) : held (t + {r}) [.release r] = t := by
  show (t + {r}).erase r = t
  rw [Multiset.add_comm, Multiset.singleton_add, Multiset.erase_cons_head]

/-- What is acquired is held on top of `t`. -/
theorem held_acquire (t : Multiset ρ) (r : ρ) : held t [.acquire r] = t + {r} := by
  show r ::ₘ t = t + {r}
  rw [Multiset.add_comm, Multiset.singleton_add]

/-- What is held before a ledger that does not release it is held behind it. -/
theorem mem_held {r : ρ} {l : List (Entry ρ)} (hl : .release r ∉ l) {s : Multiset ρ} (hr : r ∈ s) :
    r ∈ held s l := by
  induction l generalizing s with
  | nil => exact hr
  | cons e l ih =>
      rw [List.mem_cons, not_or] at hl
      obtain ⟨hne, hrest⟩ := hl
      refine ih hrest ?_
      cases e with
      | acquire r' => exact Multiset.mem_cons_of_mem hr
      | release r' =>
          have hother : r ≠ r' := fun heq => hne (congrArg Entry.release heq)
          exact (Multiset.mem_erase_of_ne hother).mpr hr

/-- So is what the ledger acquires and does not release. -/
theorem mem_held_of_acquire {r : ρ} {l : List (Entry ρ)} (h : .acquire r ∈ l)
    (hl : .release r ∉ l) (s : Multiset ρ) : r ∈ held s l := by
  obtain ⟨p, q, rfl⟩ := List.append_of_mem h
  rw [held_append, held_cons]
  refine mem_held (fun hmem => hl ?_) (Multiset.mem_cons_self r _)
  exact List.mem_append_right p (List.mem_cons_of_mem _ hmem)

/-- The ledger leaves what is held as it was. -/
def Balanced (l : List (Entry ρ)) : Prop := ∀ s, held s l = s

theorem balanced_nil : Balanced ([] : List (Entry ρ)) := fun _ => rfl

/-- What is acquired and released at once is in balance. -/
theorem balanced_pair (r : ρ) : Balanced [.acquire r, .release r] :=
  fun s => Multiset.erase_cons_head r s

/-- What is acquired and not released is not. -/
theorem not_balanced_acquire (r : ρ) : ¬ Balanced [.acquire r] := by
  intro h
  have hzero : r ::ₘ (0 : Multiset ρ) = 0 := h 0
  exact Multiset.cons_ne_zero hzero

/-- What is held satisfies `P` before the ledger and behind each of its entries. -/
def Throughout (P : Multiset ρ → Prop) (s : Multiset ρ) (l : List (Entry ρ)) : Prop :=
  ∀ p, p <+: l → P (held s p)

theorem throughout_nil (P : Multiset ρ → Prop) (s : Multiset ρ) : Throughout P s [] ↔ P s := by
  simp [Throughout]

theorem throughout_cons (P : Multiset ρ → Prop) (s : Multiset ρ) (e : Entry ρ)
    (l : List (Entry ρ)) : Throughout P s (e :: l) ↔ P s ∧ Throughout P (e.apply s) l := by
  constructor
  · intro h
    exact ⟨h [] List.nil_prefix, fun p hp => h (e :: p) ((List.prefix_cons_inj e).mpr hp)⟩
  · intro h p hp
    obtain ⟨hs, hl⟩ := h
    cases p with
    | nil => exact hs
    | cons e' p =>
        obtain ⟨rfl, hrest⟩ := List.cons_prefix_cons.mp hp
        exact hl p hrest

theorem throughout_singleton (P : Multiset ρ → Prop) (s : Multiset ρ) (e : Entry ρ) :
    Throughout P s [e] ↔ P s ∧ P (held s [e]) := by
  rw [throughout_cons, throughout_nil]
  rfl

/-- Around a single entry there is only before and behind. -/
theorem throughout_of_length_le_one {P : Multiset ρ → Prop} {s : Multiset ρ} {l : List (Entry ρ)}
    (hl : l.length ≤ 1) (hs : P s) (hheld : P (held s l)) : Throughout P s l := by
  cases l with
  | nil => exact (throughout_nil P s).mpr hs
  | cons e l =>
      have hnil : l = [] := by simpa using hl
      subst hnil
      exact (throughout_singleton P s e).mpr ⟨hs, hheld⟩

theorem throughout_append (P : Multiset ρ → Prop) (s : Multiset ρ) (l l' : List (Entry ρ)) :
    Throughout P s (l ++ l') ↔ Throughout P s l ∧ Throughout P (held s l) l' := by
  induction l generalizing s with
  | nil =>
      rw [List.nil_append, held_nil, throughout_nil]
      exact ⟨fun h => ⟨h [] List.nil_prefix, h⟩, fun h => h.2⟩
  | cons e l ih => rw [List.cons_append, throughout_cons, throughout_cons, ih, held_cons, and_assoc]

end Held

/-- `r` is acquired in the ledger, and no resource at all is released behind that. -/
def Unreleased (r : ρ) (l : List (Entry ρ)) : Prop :=
  ∃ p q, l = p ++ .acquire r :: q ∧ ∀ r', .release r' ∉ q

section Unreleased

variable {r : ρ} {l l' : List (Entry ρ)}

/-- What the end of a ledger acquires, if it releases nothing. -/
theorem unreleased_of_mem (h : .acquire r ∈ l') (hl' : ∀ r', .release r' ∉ l') :
    Unreleased r (l ++ l') := by
  obtain ⟨p, q, rfl⟩ := List.append_of_mem h
  refine ⟨l ++ p, q, by simp, fun r' hmem => hl' r' ?_⟩
  exact List.mem_append_right p (List.mem_cons_of_mem _ hmem)

end Unreleased

/-! ## The ledger of a machine -/

section Machine

variable {σ ε : Type} (step : σ → ε → σ) (entries : σ → ε → List (Entry ρ))

/-- The entries of a history, from the state `s` on. -/
def entriesOf : σ → List ε → List (Entry ρ)
  | _, [] => []
  | s, e :: h => entries s e ++ entriesOf (step s e) h

theorem entriesOf_snoc (s : σ) (h : List ε) (e : ε) :
    entriesOf step entries s (h ++ [e]) =
      entriesOf step entries s h ++ entries (after step s h) e := by
  induction h generalizing s with
  | nil => simp [entriesOf]
  | cons e' h ih => simp [entriesOf, ih]

/-- What relates the state to the ledger so far, and is kept by every step, relates them in every
run. -/
theorem entriesOf_invariant {I : σ → List (Entry ρ) → Prop} {s : σ} (hstart : I s [])
    (hstep : ∀ s l e, I s l → I (step s e) (l ++ entries s e)) (h : List ε) :
    I (after step s h) (entriesOf step entries s h) := by
  induction h using List.reverseRecOn with
  | nil => exact hstart
  | append_singleton h e ih =>
      rw [after_snoc, entriesOf_snoc]
      exact hstep _ _ e ih

variable [DecidableEq ρ] (owned : σ → Multiset ρ) (lost : σ → ε → Multiset ρ)

/-- Behind a step from a state whose resources are held, those of the next state and the lost ones
are held. -/
def Accounts : Prop :=
  ∀ s e t, held (t + owned s) (entries s e) = t + lost s e + owned (step s e)

/-- What the events of a history lose. -/
def lostIn : σ → List ε → Multiset ρ
  | _, [] => 0
  | s, e :: h => lost s e + lostIn (step s e) h

variable {step entries owned lost}

/-- Behind a step that loses nothing, what the next state owns is held. -/
theorem Accounts.held_step (ha : Accounts step entries owned lost) {s : σ} {e : ε}
    (h : lost s e = 0) : held (owned s) (entries s e) = owned (step s e) := by
  have hheld := ha s e 0
  rwa [h, zero_add, zero_add, zero_add] at hheld

theorem Accounts.held_entriesOf (ha : Accounts step entries owned lost) (s : σ) (h : List ε)
    (t : Multiset ρ) :
    held (t + owned s) (entriesOf step entries s h) =
      t + lostIn step lost s h + owned (after step s h) := by
  induction h generalizing s t with
  | nil => simp [entriesOf, lostIn]
  | cons e h ih =>
      show held (t + owned s) (entries s e ++ entriesOf step entries (step s e) h) = _
      rw [held_append, ha s e t, ih (step s e) (t + lost s e), after_cons, lostIn, add_assoc t]

omit [DecidableEq ρ] in
theorem lostIn_eq_zero_iff (s : σ) (h : List ε) :
    lostIn step lost s h = 0 ↔ Everywhere (fun p e => lost (after step s p) e = 0) h := by
  induction h generalizing s with
  | nil => exact iff_of_true rfl (everywhere_nil _)
  | cons e h ih =>
      rw [everywhere_cons, lostIn, add_eq_zero, ih (step s e)]
      simp only [after_cons, after_nil]

/-- What is held behind a run is what its last state owns exactly when no step loses anything. -/
theorem Accounts.held_eq_iff (ha : Accounts step entries owned lost) (s : σ) (h : List ε) :
    held (owned s) (entriesOf step entries s h) = owned (after step s h) ↔
      Everywhere (fun p e => lost (after step s p) e = 0) h := by
  have hheld := ha.held_entriesOf s h 0
  rw [zero_add, zero_add] at hheld
  rw [hheld, add_eq_right, lostIn_eq_zero_iff]

/-- What every step that loses nothing keeps to, a run of such steps keeps to. -/
theorem Accounts.throughout (ha : Accounts step entries owned lost) {P : Multiset ρ → Prop}
    (howned : ∀ s, P (owned s))
    (hstep : ∀ s e, lost s e = 0 → Throughout P (owned s) (entries s e)) (s : σ) (h : List ε)
    (hlost : Everywhere (fun p e => lost (after step s p) e = 0) h) :
    Throughout P (owned s) (entriesOf step entries s h) := by
  induction h generalizing s with
  | nil => exact (throughout_nil P _).mpr (howned s)
  | cons e h ih =>
      obtain ⟨hfirst, hrest⟩ := everywhere_cons.mp hlost
      simp only [after_cons, after_nil] at hfirst hrest
      refine (throughout_append P _ _ _).mpr ⟨hstep s e hfirst, ?_⟩
      rw [ha.held_step hfirst]
      exact ih (step s e) hrest

end Machine

/-! ## The ledger of a log -/

/-- The acquisitions and releases in a log, where `f` says what a call is. -/
def ledger (f : κ → Entry ρ) (l : Log κ β) : List (Entry ρ) :=
  l.filterMap fun
    | .call k => some (f k)
    | _ => none

section Log

variable (f : κ → Entry ρ)

@[simp] theorem ledger_nil : ledger f ([] : Log κ β) = [] := rfl

@[simp] theorem ledger_read (b : β) (o n : Nat) (l : Log κ β) :
    ledger f (.read b o n :: l) = ledger f l := rfl

@[simp] theorem ledger_write (b : β) (o n : Nat) (l : Log κ β) :
    ledger f (.write b o n :: l) = ledger f l := rfl

@[simp] theorem ledger_call (k : κ) (l : Log κ β) :
    ledger f (.call k :: l) = f k :: ledger f l := rfl

@[simp] theorem ledger_append (l l' : Log κ β) :
    ledger f (l ++ l') = ledger f l ++ ledger f l' := List.filterMap_append ..

/-- The event is no call. -/
def Event.IsAccess (e : Event κ β) : Prop := ∀ k, e ≠ .call k

@[simp] theorem Event.isAccess_read (b : β) (o n : Nat) :
    (Event.read b o n : Event κ β).IsAccess := fun _ h => nomatch h

@[simp] theorem Event.isAccess_write (b : β) (o n : Nat) :
    (Event.write b o n : Event κ β).IsAccess := fun _ h => nomatch h

/-- A program that makes no calls has nothing in its ledger. -/
theorem Within.ledger_eq_nil {ε α : Type} {x : Prog κ β ε α}
    (h : Prog.Within Event.IsAccess x) (m : Mem β) : ledger f (x.run m).log = [] := by
  refine List.filterMap_eq_nil_iff.mpr fun e he => ?_
  cases e with
  | read b o n => rfl
  | write b o n => rfl
  | call k => exact absurd rfl (h m _ he k)

end Log

end Txei.Machine

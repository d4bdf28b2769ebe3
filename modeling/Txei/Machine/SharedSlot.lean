import Txei.Machine.History

/-!
# A shared error slot

Clients share one slot that holds an error code. An operation that fails stores its code there,
one that succeeds leaves the slot alone, and a query returns the code and clears the slot. A
history is a list of such events in the order in which they take place, so a statement about all
histories is one about all interleavings of the clients.

The slot is tagged with the client whose code it holds. A history is *isolated* when no client
fails or queries while another one still has a failure to ask for. Isolation is enough for every
query to be answered by the client's own code (`right_of_isolated`), and in a complete history,
where every operation is asked about, it is also necessary (`right_iff_isolated`).
-/

namespace Txei.Machine

namespace SharedSlot

variable {κ γ : Type}

/-- An event: an operation of client `k`, with the code 0 if it succeeds, or a query. -/
inductive Event (κ γ : Type) where
  | operation (k : κ) (code : γ)
  | query (k : κ)
  deriving DecidableEq, Repr

/-- The slot, tagged with the client whose code it holds. -/
structure Slot (κ γ : Type) where
  code : γ
  owner : Option κ
  deriving DecidableEq, Repr

variable [Zero γ] [DecidableEq γ]

/-- The cleared slot. -/
def Slot.empty : Slot κ γ := ⟨0, none⟩

def Slot.step (s : Slot κ γ) : Event κ γ → Slot κ γ
  | .operation k code => if code = 0 then s else ⟨code, some k⟩
  | .query _ => .empty

/-- The slot after a history. -/
def after (h : List (Event κ γ)) : Slot κ γ := h.foldl Slot.step .empty

@[simp] theorem after_snoc (h : List (Event κ γ)) (e : Event κ γ) :
    after (h ++ [e]) = (after h).step e := by
  simp [after]

/-- What a client has done so far: the code of its most recent operation, 0 before the first one,
and whether a query for it is still to come. -/
structure View (γ : Type) where
  lastCode : γ
  waiting : Bool
  deriving DecidableEq, Repr

variable [DecidableEq κ]

omit [Zero γ] [DecidableEq γ] in
/-- How an event changes the view of client `k`. -/
def View.step (k : κ) (v : View γ) : Event κ γ → View γ
  | .operation j code => if j = k then ⟨code, true⟩ else v
  | .query j => if j = k then { v with waiting := false } else v

omit [DecidableEq γ] in
/-- The view of client `k` after a history. -/
def view (k : κ) (h : List (Event κ γ)) : View γ := h.foldl (View.step k) ⟨0, false⟩

omit [DecidableEq γ] in
@[simp] theorem view_nil (k : κ) : view k ([] : List (Event κ γ)) = ⟨0, false⟩ := rfl

omit [DecidableEq γ] in
@[simp] theorem view_snoc (k : κ) (h : List (Event κ γ)) (e : Event κ γ) :
    view k (h ++ [e]) = (view k h).step k e := by
  simp [view]

/-- Client `k` has a failure to ask for. -/
def Pending (k : κ) (h : List (Event κ γ)) : Prop :=
  (view k h).waiting = true ∧ (view k h).lastCode ≠ 0

instance (k : κ) (h : List (Event κ γ)) : Decidable (Pending k h) :=
  inferInstanceAs (Decidable (_ ∧ _))

/-- Every client queries once after each of its operations, and at no other time. -/
def Alternating (h : List (Event κ γ)) : Prop :=
  Everywhere (fun p e => match e with
    | .operation k _ => (view k p).waiting = false
    | .query k => (view k p).waiting = true) h

/-- Every operation has been asked about. -/
def Complete (h : List (Event κ γ)) : Prop := ∀ k, (view k h).waiting = false

/-- A query is answered by the code of the client's own most recent operation, and it neither
receives nor clears the code of another client. -/
def RightAt (p : List (Event κ γ)) : Event κ γ → Prop
  | .operation _ _ => True
  | .query k => (after p).code = (view k p).lastCode ∧ ∀ j, (after p).owner = some j → j = k

def Right (h : List (Event κ γ)) : Prop := Everywhere RightAt h

/-- The client that stores into the slot or clears it by an event. -/
def Event.writer : Event κ γ → Option κ
  | .operation k code => if code = 0 then none else some k
  | .query k => some k

/-- No client stores into the slot or clears it while another client has a failure to ask for. -/
def Isolated (h : List (Event κ γ)) : Prop :=
  Everywhere (fun p e => ∀ k, e.writer = some k → ∀ j, j ≠ k → ¬ Pending j p) h

/-! ## Isolation is enough -/

/-- The slot holds the one failure that is still to be asked for, or nothing. -/
structure Holds (h : List (Event κ γ)) : Prop where
  pending : ∀ k, Pending k h → after h = ⟨(view k h).lastCode, some k⟩
  empty : (∀ k, ¬ Pending k h) → after h = .empty

omit [DecidableEq γ] in
/-- An event of client `k` leaves the views of the others alone. -/
theorem view_other {j k : κ} (hjk : j ≠ k) (h : List (Event κ γ)) :
    (∀ code, view j (h ++ [.operation k code]) = view j h) ∧
      view j (h ++ [.query k]) = view j h := by
  simp [View.step, Ne.symm hjk]

theorem Holds.operation {h : List (Event κ γ)} (hh : Holds h) {k : κ}
    (hidle : (view k h).waiting = false) {code : γ}
    (hiso : code ≠ 0 → ∀ j, j ≠ k → ¬ Pending j h) : Holds (h ++ [.operation k code]) := by
  have hk : ¬ Pending k h := fun hp => absurd (hp.1.symm.trans hidle) (by decide)
  have hother : ∀ j, j ≠ k → (Pending j (h ++ [.operation k code]) ↔ Pending j h) := by
    intro j hjk
    unfold Pending
    rw [(view_other hjk h).1]
  by_cases hcode : code = 0
  · -- a success changes neither the slot nor who has a failure to ask for
    have hself : ¬ Pending k (h ++ [.operation k code]) := by simp [Pending, View.step, hcode]
    have hslot : after (h ++ [.operation k code]) = after h := by simp [Slot.step, hcode]
    constructor
    · intro j hj
      by_cases hjk : j = k
      · exact absurd (hjk ▸ hj) hself
      · rw [hslot, (view_other hjk h).1]
        exact hh.pending j ((hother j hjk).mp hj)
    · intro hnone
      rw [hslot]
      refine hh.empty fun j hj => ?_
      by_cases hjk : j = k
      · exact hk (hjk ▸ hj)
      · exact hnone j ((hother j hjk).mpr hj)
  · -- a failure is stored into a slot that holds nothing
    have hself : Pending k (h ++ [.operation k code]) := by simp [Pending, View.step, hcode]
    constructor
    · intro j hj
      by_cases hjk : j = k
      · subst hjk
        simp [Slot.step, View.step, hcode]
      · exact absurd ((hother j hjk).mp hj) (hiso hcode j hjk)
    · intro hnone
      exact absurd hself (hnone k)

theorem Holds.query {h : List (Event κ γ)} {k : κ} (hiso : ∀ j, j ≠ k → ¬ Pending j h) :
    Holds (h ++ [.query k]) := by
  have hnone : ∀ j, ¬ Pending j (h ++ [.query k]) := by
    intro j hj
    by_cases hjk : j = k
    · subst hjk
      simp [Pending, View.step] at hj
    · refine hiso j hjk ?_
      unfold Pending at hj ⊢
      rwa [(view_other hjk h).2] at hj
  exact ⟨fun j hj => absurd hj (hnone j), fun _ => by simp [Slot.step]⟩

/-- In an isolated history the slot holds what it should. -/
theorem holds_of_isolated {h : List (Event κ γ)} (halt : Alternating h) (hiso : Isolated h) :
    Holds h := by
  induction h using List.reverseRecOn with
  | nil => exact ⟨fun k hk => absurd hk (by simp [Pending]), fun _ => rfl⟩
  | append_singleton h e ih =>
      obtain ⟨halt, hnext⟩ := everywhere_snoc.mp halt
      obtain ⟨hiso, hwriter⟩ := everywhere_snoc.mp hiso
      have hh := ih halt hiso
      cases e with
      | operation k code =>
          refine hh.operation hnext fun hcode => hwriter k ?_
          simp [Event.writer, hcode]
      | query k => exact .query (hwriter k rfl)

/-- In an isolated history every query is answered right. -/
theorem right_of_isolated {h : List (Event κ γ)} (halt : Alternating h) (hiso : Isolated h) :
    Right h := by
  induction h using List.reverseRecOn with
  | nil => exact everywhere_nil _
  | append_singleton h e ih =>
      have hfront := everywhere_snoc.mp halt
      obtain ⟨hisoFront, hwriter⟩ := everywhere_snoc.mp hiso
      refine everywhere_snoc.mpr ⟨ih hfront.1 hisoFront, ?_⟩
      cases e with
      | operation k code => trivial
      | query k =>
          have hh := holds_of_isolated hfront.1 hisoFront
          have hwaiting : (view k h).waiting = true := hfront.2
          by_cases hcode : (view k h).lastCode = 0
          · -- the client succeeded, so nobody has a failure to ask for
            have hempty := hh.empty fun j hj => by
              by_cases hjk : j = k
              · exact (hjk ▸ hj).2 hcode
              · exact hwriter k rfl j hjk hj
            show (after h).code = (view k h).lastCode ∧ _
            rw [hempty, hcode]
            exact ⟨rfl, fun j hj => absurd hj (by simp [Slot.empty])⟩
          · have hslot := hh.pending k ⟨hwaiting, hcode⟩
            show (after h).code = (view k h).lastCode ∧ _
            rw [hslot]
            exact ⟨rfl, fun j hj => (Option.some.inj hj).symm⟩

/-! ## Isolation is necessary -/

/-- Client `k` has a failure to ask for that the slot does not hold for it. -/
def Lost (k : κ) (h : List (Event κ γ)) : Prop :=
  Pending k h ∧ (after h).owner ≠ some k

omit [DecidableEq κ] in
/-- A code in the slot has an owner. -/
theorem owner_of_code {h : List (Event κ γ)} (hcode : (after h).code ≠ 0) :
    ∃ k, (after h).owner = some k := by
  induction h using List.reverseRecOn with
  | nil => exact absurd rfl hcode
  | append_singleton h e ih =>
      rw [after_snoc] at hcode ⊢
      cases e with
      | operation k code =>
          by_cases h0 : code = 0
          · simp only [Slot.step, if_pos h0] at hcode ⊢
            exact ih hcode
          · exact ⟨k, by simp [Slot.step, h0]⟩
      | query k => exact absurd rfl hcode

/-- A failure that is lost stays lost: the query for it would be answered wrong. -/
theorem Lost.snoc {h : List (Event κ γ)} {k : κ} (hlost : Lost k h) {e : Event κ γ}
    (halt : Alternating (h ++ [e])) (hright : RightAt h e) : Lost k (h ++ [e]) := by
  obtain ⟨hpending, howner⟩ := hlost
  have hnext := (everywhere_snoc.mp halt).2
  cases e with
  | operation j code =>
      have hkj : k ≠ j := by
        intro heq
        subst heq
        exact absurd (hpending.1.symm.trans hnext) (by decide)
      refine ⟨?_, ?_⟩
      · unfold Pending
        rwa [(view_other hkj h).1]
      · rw [after_snoc]
        by_cases h0 : code = 0
        · simpa [Slot.step, h0] using howner
        · simp [Slot.step, h0, Ne.symm hkj]
  | query j =>
      by_cases hkj : k = j
      · -- the answer is not 0, so it is the code of the client itself
        subst hkj
        obtain ⟨hcode, honly⟩ := hright
        obtain ⟨i, hi⟩ := owner_of_code (hcode ▸ hpending.2)
        exact absurd (honly i hi ▸ hi) howner
      · refine ⟨?_, by simp [Slot.step, Slot.empty]⟩
        unfold Pending
        rwa [(view_other hkj h).2]

/-- A failure that is lost is never asked for. -/
theorem Lost.append {p q : List (Event κ γ)} {k : κ} (hlost : Lost k p)
    (halt : Alternating (p ++ q)) (hright : Right (p ++ q)) : Lost k (p ++ q) := by
  induction q using List.reverseRecOn with
  | nil => simpa using hlost
  | append_singleton q e ih =>
      rw [← List.append_assoc] at halt hright ⊢
      obtain ⟨haltFront, -⟩ := everywhere_snoc.mp halt
      obtain ⟨hrightFront, hlast⟩ := everywhere_snoc.mp hright
      exact (ih haltFront hrightFront).snoc halt hlast

/-- In a complete history whose queries are all answered right, clients never get into each
other's way. -/
theorem isolated_of_right {h : List (Event κ γ)} (halt : Alternating h) (hcomplete : Complete h)
    (hright : Right h) : Isolated h := by
  intro p e q heq k hwriter j hjk hpending
  subst heq
  have hsplit : p ++ e :: q = (p ++ [e]) ++ q := by simp
  rw [hsplit] at halt hcomplete hright
  have hlost : Lost j (p ++ [e]) := by
    cases e with
    | operation i code =>
        have h0 : code ≠ 0 := by
          intro heq
          simp [Event.writer, heq] at hwriter
        have hik : i = k := by simpa [Event.writer, h0] using hwriter
        subst hik
        refine ⟨?_, by simp [Slot.step, h0, Ne.symm hjk]⟩
        unfold Pending
        rwa [(view_other hjk p).1]
    | query i =>
        have hik : i = k := Option.some.inj hwriter
        subst hik
        refine ⟨?_, by simp [Slot.step, Slot.empty]⟩
        unfold Pending
        rwa [(view_other hjk p).2]
  have hend := hlost.append halt hright
  exact absurd (hend.1.1.symm.trans (hcomplete j)) (by decide)

/-- Isolation is exactly what the answers of a complete history need. -/
theorem right_iff_isolated {h : List (Event κ γ)} (halt : Alternating h) (hcomplete : Complete h) :
    Right h ↔ Isolated h :=
  ⟨isolated_of_right halt hcomplete, right_of_isolated halt⟩

end SharedSlot

end Txei.Machine

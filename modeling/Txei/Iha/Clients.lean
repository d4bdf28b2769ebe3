import Txei.Iha.Library

/-!
# Clients of one service

Any number of clients, each with an `IHAManager` in a process of its own, share `ISEPServiceImpl`
and the native library behind it. A call of a client is two steps: its request, which the service
runs on the library, and the query behind it. Other clients may take steps in between, so a history
of steps is an interleaving of the clients.

The one variable `IHAError` of the service mixes up the errors of the clients. `clients_served` says
that their data is not mixed up: what a call hands out is the answer of the library to that call,
and the lengths behind a call that throws are the client's own or those of that answer.
-/

namespace Txei.Iha.IHAManager

open Machine

/-! ## The system -/

/-- A call between its request and its query: the arrays that it was sent with, the answer of the
library, and what the checks and the request have handed on. -/
structure Pending where
  {kind : Kind}
  call : ClientCall kind
  sent : Ref → List Int16
  answer : kind.Answer
  checked : (call.request answer).operation.Checked
  reply : (call.request answer).operation.Reply

namespace Pending

/-- The operation that the client is in. -/
def operation (p : Pending) : Operation := (p.call.request p.answer).operation

/-- The value that the call hands out when it returns. -/
def handed (p : Pending) : Value := p.kind.handed p.answer

/-- The client's arrays when it returns. -/
def returned (p : Pending) : Ref → List Int16 :=
  Iha.returned (p.call.request p.answer).code (p.call.request p.answer).back p.sent

/-- The client's arrays between the request and the query: most operations have copied back by then
what there is to copy. -/
def held (p : Pending) : Ref → List Int16 :=
  Iha.returned (p.call.request p.answer).code (p.call.early p.answer) p.sent

/-- What follows the request. -/
def rest (p : Pending) : M Value := do
  query p.operation.message
  p.operation.finish p.checked p.reply

/-- The call hands out the answer of the library if its query finds nothing. -/
def Ready (p : Pending) : Prop :=
  ∀ t : State, t.arrays = p.held →
    exec (p.operation.finish p.checked p.reply) t = (.ok p.handed, { t with arrays := p.returned })

theorem exec_rest {p : Pending} {t : State} (h : p.Ready) (harrays : t.arrays = p.held) :
    exec p.rest t =
      if t.found = ihaRetSOk then (.ok p.handed, { t.asked with arrays := p.returned })
      else (.error (.ihaException p.operation.message t.found), t.asked) := by
  have hquery := exec_query p.operation.message t
  unfold rest
  by_cases hfound : t.found = ihaRetSOk
  · rw [if_pos hfound] at hquery ⊢
    rw [exec_bind_ok hquery]
    exact h _ ((asked_arrays t).trans harrays)
  · rw [if_neg hfound] at hquery ⊢
    exact exec_bind_error hquery _

end Pending

/-- A client: the static `IHAManagerError` of its process, its arrays, and the call it is in. -/
structure Client where
  ihaManagerError : Int32
  arrays : Ref → List Int16
  pending : Option Pending

/-- The clients, the service and the library. -/
structure System (κ σ : Type) where
  clients : κ → Client
  service : ISEPServiceImpl.Service
  library : σ

/-- A step of a client. -/
inductive Event (κ : Type) where
  | fill (k : κ) (ref : Ref) (sa : List Int16)
  | ihaInit (k : κ)
  | ihaDeInit (k : κ)
  | ihaGetLastError (k : κ)
  | request (k : κ) {kind : Kind} (call : ClientCall kind)
  | query (k : κ)

variable {κ σ : Type} [DecidableEq κ]

/-- Whether the arguments of a request pass its checks. -/
theorem Request.passes_iff_isOk (r : Request) (t : State) :
    r.operation.Passes t ↔ (exec r.operation.checks t).1.isOk = true := by
  rcases r.sound.checks t with ⟨a, hpass⟩ | ⟨e, error, -, hrefuse, -⟩
  · exact iff_of_true ⟨a, hpass⟩ (by rw [hpass]; rfl)
  · refine iff_of_false ?_ (by rw [hrefuse]; nofun)
    rintro ⟨a, hpass⟩
    rw [hrefuse] at hpass
    cases hpass

namespace System

omit [DecidableEq κ] in
/-- What the manager of client `k` has before it. -/
def view (s : System κ σ) (k : κ) : State where
  ihaManagerError := (s.clients k).ihaManagerError
  service := s.service
  arrays := (s.clients k).arrays

/-- The manager of client `k` has come to `t`. -/
def moved (s : System κ σ) (k : κ) (t : State) (pending : Option Pending) (library : σ) :
    System κ σ where
  clients := Function.update s.clients k ⟨t.ihaManagerError, t.arrays, pending⟩
  service := t.service
  library := library

variable (lib : Library σ)

/-- What the library answers to a call of client `k`, and how it goes on. -/
def answered {kind : Kind} (s : System κ σ) (k : κ) (call : ClientCall kind) : kind.Answer × σ :=
  lib.answer (call.sent (s.clients k).arrays).native s.library

/-- A call up to its query. The checks are the same whatever the library would answer, which is
asked behind them. -/
def request {kind : Kind} (s : System κ σ) (k : κ) (call : ClientCall kind) :
    System κ σ × Option (Except Thrown Value) :=
  let a := s.answered lib k call
  let o := (call.request a.1).operation
  match exec o.checks (s.view k) with
  | (.error e, t) => (s.moved k t none s.library, some (.error e))
  | (.ok checked, t) =>
      match exec (o.request checked) t with
      | (.error e, t) => (s.moved k t none a.2, some (.error e))
      | (.ok reply, t) =>
          (s.moved k t (some ⟨call, (s.clients k).arrays, a.1, checked, reply⟩) a.2, none)

/-- A call of client `k` that asks no query. -/
def alone (s : System κ σ) (k : κ) (x : M Value) (library : σ) :
    System κ σ × Option (Except Thrown Value) :=
  (s.moved k (exec x (s.view k)).2 none library, some (exec x (s.view k)).1)

/-- A client that is in a call starts no other one. -/
def whenIdle (s : System κ σ) (k : κ) (r : System κ σ × Option (Except Thrown Value)) :
    System κ σ × Option (Except Thrown Value) :=
  if (s.clients k).pending.isSome then (s, none) else r

/-- A step, with what the client's call returns or throws if it ends there. -/
def step (s : System κ σ) : Event κ → System κ σ × Option (Except Thrown Value)
  | .fill k ref sa => s.whenIdle k (s.alone k (Call.fill ref sa).run s.library)
  | .ihaInit k =>
      s.whenIdle k (s.alone k (IHAManager.ihaInit (lib.ihaInit s.library).1)
        (lib.ihaInit s.library).2)
  | .ihaDeInit k =>
      s.whenIdle k (s.alone k (IHAManager.ihaDeInit (lib.ihaDeInit s.library).1)
        (lib.ihaDeInit s.library).2)
  | .ihaGetLastError k => s.whenIdle k (s.alone k Call.ihaGetLastError.run s.library)
  | .request k call => s.whenIdle k (s.request lib k call)
  | .query k =>
      match (s.clients k).pending with
      | none => (s, none)
      | some p => s.alone k p.rest s.library

/-- The system after a step. -/
def next (s : System κ σ) (e : Event κ) : System κ σ := (s.step lib e).1

/-- The system after a history of steps. -/
def run (s : System κ σ) (h : List (Event κ)) : System κ σ := Machine.after (next lib) s h

@[simp] theorem run_nil (s : System κ σ) : s.run lib [] = s := rfl

@[simp] theorem run_snoc (s : System κ σ) (h : List (Event κ)) (e : Event κ) :
    s.run lib (h ++ [e]) = (s.run lib h).next lib e :=
  after_snoc (next lib) s h e

/-! ## Steps -/

variable {lib} {s : System κ σ} {k : κ}

@[simp] theorem clients_moved (t : State) (pending : Option Pending) (library : σ) :
    (s.moved k t pending library).clients k = ⟨t.ihaManagerError, t.arrays, pending⟩ :=
  Function.update_self ..

theorem clients_moved_of_ne {j : κ} (h : j ≠ k) (t : State) (pending : Option Pending)
    (library : σ) : (s.moved k t pending library).clients j = s.clients j :=
  Function.update_of_ne h ..

omit [DecidableEq κ] in
/-- The library gets the call that the client means. -/
theorem answered_eq {kind : Kind} (call : ClientCall kind) :
    s.answered lib k call = lib.answer (call.meant (s.clients k).arrays) s.library := by
  rw [answered, native_sent]

/-- The arguments of the call pass the checks of the manager of client `k`. -/
def Accepts {kind : Kind} (lib : Library σ) (s : System κ σ) (k : κ) (call : ClientCall kind) :
    Prop :=
  (call.request (s.answered lib k call).1).operation.Passes (s.view k)

section Requests

variable {kind : Kind} {call : ClientCall kind}

/-- A call that is refused ends there, and the library is not asked. -/
theorem request_of_refused (h : ¬ s.Accepts lib k call) :
    ∃ (e : Thrown) (error : Int32), e.IsRefusal ∧ s.request lib k call =
      (s.moved k { s.view k with ihaManagerError := error } none s.library, some (.error e)) := by
  rcases (call.request (s.answered lib k call).1).sound.checks (s.view k) with
    ⟨a, hpass⟩ | ⟨e, error, he, hrefuse, -⟩
  · exact absurd ⟨a, hpass⟩ h
  · refine ⟨e, error, he, ?_⟩
    simp only [request, hrefuse]

/-- A call that is accepted is ready for its query: the library has answered it, and the service has
recorded how. -/
theorem request_of_accepted (h : s.Accepts lib k call) :
    ∃ p : Pending,
      (∃ checked reply,
        p = ⟨call, (s.clients k).arrays, (s.answered lib k call).1, checked, reply⟩) ∧
      p.Ready ∧ s.request lib k call =
        (s.moved k ⟨(s.clients k).ihaManagerError,
          s.service.record (call.request (s.answered lib k call).1).code, p.held⟩ (some p)
          (s.answered lib k call).2, none) := by
  obtain ⟨checked, hchecks⟩ := h
  obtain ⟨reply, hrequest, hfinish⟩ :=
    delivers call (s.answered lib k call).1 (s.view k) checked hchecks
  refine ⟨⟨call, (s.clients k).arrays, (s.answered lib k call).1, checked, reply⟩,
    ⟨checked, reply, rfl⟩, hfinish, ?_⟩
  simp only [request, hchecks, hrequest]
  rfl

end Requests

/-! ## What a step does to the calls under way -/

variable {e : Event κ} {j : κ} {p : Pending}

omit [DecidableEq κ] in
theorem whenIdle_of_pending {r : System κ σ × Option (Except Thrown Value)}
    (h : (s.clients k).pending = some p) : s.whenIdle k r = (s, none) := by
  simp [whenIdle, h]

omit [DecidableEq κ] in
theorem whenIdle_of_idle {r : System κ σ × Option (Except Thrown Value)}
    (h : (s.clients k).pending = none) : s.whenIdle k r = r := by
  simp [whenIdle, h]

/-- Behind a call that asks no query, or has asked it, the client is in none. -/
theorem pending_alone {x : M Value} {library : σ}
    (h : ((s.alone k x library).1.clients j).pending = some p) :
    j ≠ k ∧ (s.alone k x library).1.clients j = s.clients j := by
  have hne : j ≠ k := by
    rintro rfl
    rw [alone, clients_moved] at h
    cases h
  exact ⟨hne, clients_moved_of_ne hne ..⟩

/-- A call under way behind a step that starts none was under way before it. -/
theorem pending_whenIdle_alone {x : M Value} {library : σ}
    (h : ((s.whenIdle k (s.alone k x library)).1.clients j).pending = some p) :
    (s.whenIdle k (s.alone k x library)).1.clients j = s.clients j := by
  cases hpending : (s.clients k).pending with
  | some q => rw [whenIdle_of_pending hpending]
  | none =>
      rw [whenIdle_of_idle hpending] at h ⊢
      exact (pending_alone h).2

/-- A call that is under way behind a step either was so before it, and is not asked about in it, or
it begins in the step. -/
theorem pending_next (h : ((s.next lib e).clients j).pending = some p) :
    (e ≠ .query j ∧ (s.next lib e).clients j = s.clients j) ∨
      (e = .request j p.call ∧ (s.clients j).pending = none ∧ s.Accepts lib j p.call ∧
        p.sent = (s.clients j).arrays ∧ p.answer = (s.answered lib j p.call).1 ∧
        p.Ready ∧ ((s.next lib e).clients j).arrays = p.held) := by
  cases e with
  | fill k ref sa => exact .inl ⟨nofun, pending_whenIdle_alone h⟩
  | ihaInit k => exact .inl ⟨nofun, pending_whenIdle_alone h⟩
  | ihaDeInit k => exact .inl ⟨nofun, pending_whenIdle_alone h⟩
  | ihaGetLastError k => exact .inl ⟨nofun, pending_whenIdle_alone h⟩
  | query k =>
      simp only [next, step] at h ⊢
      cases hpending : (s.clients k).pending with
      | none =>
          rw [hpending] at h
          refine .inl ⟨?_, rfl⟩
          rintro ⟨⟩
          exact absurd h (by rw [hpending]; nofun)
      | some q =>
          rw [hpending] at h
          obtain ⟨hne, hsame⟩ := pending_alone h
          refine .inl ⟨?_, hsame⟩
          rintro ⟨⟩
          exact hne rfl
  | request k call =>
      simp only [next, step] at h ⊢
      cases hpending : (s.clients k).pending with
      | some q =>
          rw [whenIdle_of_pending hpending]
          exact .inl ⟨nofun, rfl⟩
      | none =>
          rw [whenIdle_of_idle hpending] at h ⊢
          by_cases haccepts : s.Accepts lib k call
          · obtain ⟨q, hq, hready, hrequest⟩ := request_of_accepted haccepts
            rw [hrequest] at h ⊢
            by_cases hjk : j = k
            · subst hjk
              rw [clients_moved] at h ⊢
              obtain rfl : q = p := Option.some.inj h
              obtain ⟨checked, reply, rfl⟩ := hq
              exact .inr ⟨rfl, hpending, haccepts, rfl, rfl, hready, rfl⟩
            · exact .inl ⟨nofun, clients_moved_of_ne hjk ..⟩
          · obtain ⟨thrown, error, -, hrequest⟩ := request_of_refused haccepts
            rw [hrequest] at h ⊢
            by_cases hjk : j = k
            · subst hjk
              rw [clients_moved] at h
              cases h
            · exact .inl ⟨nofun, clients_moved_of_ne hjk ..⟩

/-! ## What the library is asked -/

instance {kind : Kind} (call : ClientCall kind) : Decidable (s.Accepts lib k call) :=
  decidable_of_iff _ (Request.passes_iff_isOk _ _).symm

/-- What the clients, as they mean it, ask the library in a step. -/
def asks (lib : Library σ) : System κ σ × Event κ → Option LibraryCall
  | (s, .ihaInit k) => if (s.clients k).pending.isSome then none else some .ihaInit
  | (s, .ihaDeInit k) => if (s.clients k).pending.isSome then none else some .ihaDeInit
  | (s, .request k call) =>
      if (s.clients k).pending.isSome then none
      else if s.Accepts lib k call then some (.operation (call.meant (s.clients k).arrays))
      else none
  | _ => none

/-- A step asks the library that, and nothing else. -/
theorem library_next (e : Event κ) :
    (s.next lib e).library = ((asks lib (s, e)).map (lib.next s.library)).getD s.library := by
  have halone : ∀ {k : κ} {x : M Value} {library : σ},
      (s.whenIdle k (s.alone k x library)).1.library =
        if (s.clients k).pending.isSome then s.library else library := by
    intro k x library
    unfold whenIdle
    split
    · rfl
    · rfl
  cases e with
  | fill k ref sa => exact halone.trans (ite_self _)
  | ihaGetLastError k => exact halone.trans (ite_self _)
  | ihaInit k =>
      refine halone.trans ?_
      simp only [asks]
      split
      · rfl
      · rfl
  | ihaDeInit k =>
      refine halone.trans ?_
      simp only [asks]
      split
      · rfl
      · rfl
  | query k =>
      simp only [next, step]
      cases (s.clients k).pending with
      | none => rfl
      | some p => rfl
  | request k call =>
      simp only [next, step, asks]
      cases hpending : (s.clients k).pending with
      | some q =>
          rw [whenIdle_of_pending hpending]
          rfl
      | none =>
          rw [whenIdle_of_idle hpending, Option.isSome_none, if_neg Bool.false_ne_true]
          by_cases haccepts : s.Accepts lib k call
          · obtain ⟨q, -, -, hrequest⟩ := request_of_accepted haccepts
            rw [if_pos haccepts, hrequest, answered_eq]
            rfl
          · obtain ⟨thrown, error, -, hrequest⟩ := request_of_refused haccepts
            rw [if_neg haccepts, hrequest]
            rfl

/-! ## Runs -/

section Runs

variable (lib : Library σ) (s : System κ σ)

/-- The call `p` of client `k` as it has begun in `before`: the client was in no call, the manager
accepted the arguments, and the library answered what the client meant. The client has not asked
about it since. -/
def Begun (before : List (Event κ)) (k : κ) (p : Pending) : Prop :=
  ∃ opened between, before = opened ++ .request k p.call :: between ∧ .query k ∉ between ∧
    ((run lib s opened).clients k).pending = none ∧
    (run lib s opened).Accepts lib k p.call ∧
    p.sent = ((run lib s opened).clients k).arrays ∧
    p.answer = (lib.answer (p.call.meant p.sent) (run lib s opened).library).1

variable {s}

/-- The calls under way are ones that have begun, and they are ready for their queries. -/
theorem begun_of_pending (hquiet : ∀ k, (s.clients k).pending = none) (h : List (Event κ)) (k : κ)
    (p : Pending) (hpending : ((run lib s h).clients k).pending = some p) :
    Begun lib s h k p ∧ p.Ready ∧ ((run lib s h).clients k).arrays = p.held := by
  -- induction on the history: the call begins in the last step, or it was under way before it
  induction h using List.reverseRecOn with
  | nil =>
      rw [run_nil, hquiet k] at hpending
      cases hpending
  | append_singleton h e ih =>
      rw [run_snoc] at hpending ⊢
      rcases pending_next hpending with ⟨hquery, hsame⟩ | hbegins
      · rw [hsame] at hpending ⊢
        obtain ⟨⟨opened, between, rfl, hnone, hrest⟩, hready⟩ := ih hpending
        refine ⟨⟨opened, between ++ [e], by simp, ?_, hrest⟩, hready⟩
        simp only [List.mem_append, List.mem_singleton, not_or]
        exact ⟨hnone, Ne.symm hquery⟩
      · obtain ⟨rfl, hidle, haccepts, hsent, hanswer, hready⟩ := hbegins
        refine ⟨⟨h, [], rfl, List.not_mem_nil, hidle, haccepts, hsent, ?_⟩, hready⟩
        rw [hanswer, answered_eq, hsent]

/-- The library goes through the calls that the clients mean, each once and in the order in which
they come. -/
theorem library_after (h : List (Event κ)) :
    (run lib s h).library =
      Machine.after lib.next s.library ((trace (next lib) s h).filterMap (asks lib)) := by
  induction h using List.reverseRecOn with
  | nil => rfl
  | append_singleton h e ih =>
      have hasked : trace (next lib) s (h ++ [e]) = trace (next lib) s h ++ [(run lib s h, e)] :=
        trace_snoc (next lib) s h e
      rw [hasked, List.filterMap_append, Machine.after_append, ← ih, run_snoc, library_next]
      cases hasks : asks lib (run lib s h, e) with
      | none => simp [hasks]
      | some c => simp [hasks]

end Runs

/-! ## What the clients get -/

/-- What the call `p` gives to its client, with the arrays behind it: the answer of the library, with
the arrays as they are copied back, or an exception, with the arrays as the request has left
them. -/
def Gives (p : Pending) : Except Thrown Value → (Ref → List Int16) → Prop
  | .ok value, arrays => value = p.handed ∧ arrays = p.returned
  | .error e, arrays =>
      arrays = p.held ∧ ∃ code, code ≠ 0 ∧ e = .ihaException p.operation.message code

theorem step_query (hpending : (s.clients k).pending = some p) (hready : p.Ready)
    (harrays : (s.clients k).arrays = p.held) :
    ∃ result, (s.step lib (.query k)).2 = some result ∧
      Gives p result ((s.next lib (.query k)).clients k).arrays := by
  have hrest := Pending.exec_rest (t := s.view k) hready harrays
  simp only [next, step, hpending]
  refine ⟨_, rfl, ?_⟩
  rw [alone, clients_moved, hrest]
  by_cases hfound : (s.view k).found = ihaRetSOk
  · rw [if_pos hfound]
    exact ⟨rfl, rfl⟩
  · rw [if_neg hfound]
    exact ⟨(asked_arrays _).trans harrays, _, hfound, rfl⟩

/-- The clients before their first calls. -/
def initial (arrays : κ → Ref → List Int16) (library : σ) : System κ σ where
  clients k := ⟨ihaRetSOk, arrays k, none⟩
  service := ⟨ihaRetSOk⟩
  library := library

/-- A query ends the very call that its client has begun last, either with the answer that the
library gave to that call, lengths included, or with an exception of that operation, which leaves
the arrays as the request has left them. -/
def Served (lib : Library σ) (s : System κ σ) (before : List (Event κ)) (e : Event κ) : Prop :=
  ∀ k p, e = .query k → ((run lib s before).clients k).pending = some p →
    Begun lib s before k p ∧ ((run lib s before).clients k).arrays = p.held ∧
      ∃ result, ((run lib s before).step lib e).2 = some result ∧
        Gives p result ((run lib s (before ++ [e])).clients k).arrays

/-- Over every interleaving of any number of clients: the library is asked what the clients mean,
each call once and in order, and nothing else; and every query is served. -/
theorem clients_served (lib : Library σ) (arrays : κ → Ref → List Int16) (library : σ)
    (h : List (Event κ)) :
    (run lib (initial arrays library) h).library =
        Machine.after lib.next library
          ((trace (next lib) (initial arrays library) h).filterMap (asks lib)) ∧
      Everywhere (Served lib (initial arrays library)) h := by
  refine ⟨library_after lib h, ?_⟩
  intro before e rest _ k p hquery hpending
  subst hquery
  obtain ⟨hbegun, hready, harrays⟩ := begun_of_pending lib (fun _ => rfl) before k p hpending
  rw [run_snoc]
  exact ⟨hbegun, harrays, step_query hpending hready harrays⟩

/-! ## As long as nothing fails -/

/-- Nothing fails in the step: the manager accepts the arguments, and the library does not throw. -/
def Succeeds (lib : Library σ) (s : System κ σ) : Event κ → Prop
  | .ihaInit k => (s.clients k).pending = none → (lib.ihaInit s.library).1.code = 0
  | .ihaDeInit k => (s.clients k).pending = none → (lib.ihaDeInit s.library).1.code = 0
  | .request k call => (s.clients k).pending = none →
      s.Accepts lib k call ∧ (call.request (s.answered lib k call).1).code = 0
  | _ => True

/-- No error variable holds anything, and no call under way has failed. -/
structure Clean (s : System κ σ) : Prop where
  service : s.service = ⟨ihaRetSOk⟩
  manager : ∀ k, (s.clients k).ihaManagerError = ihaRetSOk
  pending : ∀ k p, (s.clients k).pending = some p → (p.call.request p.answer).code = 0

theorem Clean.moved (hclean : s.Clean) {t : State} {q : Option Pending} {library : σ}
    (herror : t.ihaManagerError = ihaRetSOk) (hservice : t.service = ⟨ihaRetSOk⟩)
    (hq : ∀ p ∈ q, (p.call.request p.answer).code = 0) : (s.moved k t q library).Clean where
  service := hservice
  manager j := by
    by_cases hjk : j = k
    · subst hjk
      rw [clients_moved]
      exact herror
    · rw [clients_moved_of_ne hjk]
      exact hclean.manager j
  pending j p hp := by
    by_cases hjk : j = k
    · subst hjk
      rw [clients_moved] at hp
      exact hq p hp
    · rw [clients_moved_of_ne hjk] at hp
      exact hclean.pending j p hp

/-- A call that asks no query keeps the variables clean if its run does. -/
theorem Clean.alone (hclean : s.Clean) {x : M Value} {library : σ}
    (hx : (exec x (s.view k)).2.ihaManagerError = ihaRetSOk ∧
      (exec x (s.view k)).2.service = ⟨ihaRetSOk⟩) : (s.alone k x library).1.Clean :=
  hclean.moved hx.1 hx.2 nofun

omit [DecidableEq κ] in
theorem Clean.whenIdle (hclean : s.Clean) {r : System κ σ × Option (Except Thrown Value)}
    (hr : (s.clients k).pending = none → r.1.Clean) : (s.whenIdle k r).1.Clean := by
  unfold System.whenIdle
  split
  · exact hclean
  · rename_i hidle
    exact hr (Option.not_isSome_iff_eq_none.mp hidle)

omit [DecidableEq κ] in
theorem Clean.found (hclean : s.Clean) (k : κ) : (s.view k).found = ihaRetSOk := by
  have hmanager : (s.view k).ihaManagerError = ihaRetSOk := hclean.manager k
  have hservice : (s.view k).service = ⟨ihaRetSOk⟩ := hclean.service
  simp [State.found, hmanager, hservice]

omit [DecidableEq κ] in
theorem Clean.asked (hclean : s.Clean) (k : κ) :
    (s.view k).asked.ihaManagerError = ihaRetSOk ∧ (s.view k).asked.service = ⟨ihaRetSOk⟩ := by
  have hmanager : (s.view k).ihaManagerError = ihaRetSOk := hclean.manager k
  have hservice : (s.view k).service = ⟨ihaRetSOk⟩ := hclean.service
  simp [State.asked, hmanager, hservice]

/-- Clean variables stay clean as long as nothing fails. -/
theorem Clean.next (hclean : s.Clean) (hready : ∀ k p, (s.clients k).pending = some p →
    p.Ready ∧ (s.clients k).arrays = p.held) (hok : s.Succeeds lib e) : (s.next lib e).Clean := by
  have hservice : ∀ k, (s.view k).service = ⟨ihaRetSOk⟩ := fun _ => hclean.service
  cases e with
  | fill k ref sa =>
      exact hclean.whenIdle fun _ => hclean.alone ⟨hclean.manager k, hclean.service⟩
  | ihaInit k =>
      refine hclean.whenIdle fun hidle => hclean.alone ⟨rfl, ?_⟩
      exact (records_zero (ISEPServiceImpl.records_invoke .void (fun _ => .void) _) (hok hidle)
        (s.view k).service).trans (hservice k)
  | ihaDeInit k =>
      refine hclean.whenIdle fun hidle => hclean.alone ⟨hclean.manager k, ?_⟩
      exact (records_zero (ISEPServiceImpl.records_invoke .void (fun _ => .void) _) (hok hidle)
        (s.view k).service).trans (hservice k)
  | ihaGetLastError k =>
      refine hclean.whenIdle fun _ => hclean.alone ?_
      rw [Call.run, exec_bind_ok (exec_ihaGetLastError _)]
      exact hclean.asked k
  | request k call =>
      refine hclean.whenIdle fun hidle => ?_
      obtain ⟨haccepts, hcode⟩ := hok hidle
      obtain ⟨q, ⟨checked, reply, rfl⟩, -, hrequest⟩ := request_of_accepted haccepts
      rw [hrequest, hcode]
      refine hclean.moved (hclean.manager k) hclean.service fun p hp => ?_
      cases hp
      exact hcode
  | query k =>
      simp only [System.next, System.step]
      cases hpending : (s.clients k).pending with
      | none => exact hclean
      | some p =>
          refine hclean.alone ?_
          obtain ⟨hp, harrays⟩ := hready k p hpending
          rw [Pending.exec_rest (t := s.view k) hp harrays, if_pos (hclean.found k)]
          exact hclean.asked k

omit [DecidableEq κ] in
theorem clean_initial (arrays : κ → Ref → List Int16) (library : σ) :
    (initial arrays library).Clean :=
  ⟨rfl, fun _ => rfl, nofun⟩

/-- What holds at the start holds as long as nothing fails. -/
theorem clean_after {arrays : κ → Ref → List Int16} {library : σ} {h : List (Event κ)}
    (hok : Everywhere (fun before e =>
      (run lib (initial arrays library) before).Succeeds lib e) h) :
    (run lib (initial arrays library) h).Clean := by
  induction h using List.reverseRecOn with
  | nil => exact clean_initial arrays library
  | append_singleton h e ih =>
      obtain ⟨hfront, hlast⟩ := everywhere_snoc.mp hok
      rw [run_snoc]
      exact (ih hfront).next
        (fun k p hp => (begun_of_pending lib (fun _ => rfl) h k p hp).2) hlast

/-- The value that a library hands out without throwing. -/
theorem value_of_code (p : Pending) (hcode : (p.call.request p.answer).code = 0) :
    p.kind.value p.answer = .ok p.handed := by
  rw [code_request] at hcode
  unfold Pending.handed Kind.handed
  cases hvalue : p.kind.value p.answer with
  | ok v => rfl
  | error e =>
      rw [hvalue] at hcode
      exact absurd hcode e.nonzero

/-- A query returns what the library has answered to the request of its client, without throwing,
and leaves the client's arrays as they are copied back then. -/
def Answered (lib : Library σ) (s : System κ σ) (before : List (Event κ)) (e : Event κ) : Prop :=
  ∀ k p, e = .query k → ((run lib s before).clients k).pending = some p →
    Begun lib s before k p ∧ ∃ value, p.kind.value p.answer = .ok value ∧
      ((run lib s before).step lib e).2 = some (.ok value) ∧
      ((run lib s (before ++ [e])).clients k).arrays = (p.call.request p.answer).back p.sent

/-- As long as nothing fails, every interleaving of the clients is one of calls that the library
answers at once, at their requests: what the other clients do in between makes no difference. -/
theorem clients_answered (lib : Library σ) (arrays : κ → Ref → List Int16) (library : σ)
    (h : List (Event κ)) (hok : Everywhere (fun before e =>
      (run lib (initial arrays library) before).Succeeds lib e) h) :
    Everywhere (Answered lib (initial arrays library)) h := by
  intro before e rest hsplit k p hquery hpending
  subst hquery
  subst hsplit
  obtain ⟨hbegun, hready, harrays⟩ := begun_of_pending lib (fun _ => rfl) before k p hpending
  have hclean : (run lib (initial arrays library) before).Clean := by
    refine clean_after fun b e' r heq => ?_
    exact hok b e' (r ++ .query k :: rest) (by rw [heq, List.append_assoc, List.cons_append])
  have hcode := hclean.pending k p hpending
  have hrest := Pending.exec_rest
    (t := (run lib (initial arrays library) before).view k) hready harrays
  rw [if_pos (hclean.found k)] at hrest
  rw [run_snoc]
  refine ⟨hbegun, p.handed, value_of_code p hcode, ?_⟩
  simp only [next, step, hpending]
  rw [alone, clients_moved, hrest, Pending.returned, Iha.returned, if_pos hcode]
  exact ⟨rfl, rfl⟩

/-- A library that counts its calls, and answers their number. -/
def countingLibrary : Library Nat where
  ihaInit n := (.ok (), n + 1)
  ihaDeInit n := (.ok (), n + 1)
  answer {k} _ n :=
    match k with
    | .void => (.ok (), n + 1)
    | .int => (.ok (Int32.ofNat n), n + 1)
    | .long => (.ok (Int64.ofNat n), n + 1)
    | .bytes => (⟨.ok (some [UInt8.ofNat n]), fun _ => some 1⟩, n + 1)
    | .otp => (⟨.ok (some [UInt8.ofNat n]), fun _ => some 1, fun _ => some 1⟩, n + 1)

/-- The second client calls and asks between the request of the first and its query. -/
def nested : List (Event Bool) :=
  [.request false (.ihaGetSVPMessage (some [97]) 1 (some 0)), .request true .ihaGetVersion,
    .query true, .query false]

theorem clients_answered_nested :
    Everywhere (Answered countingLibrary (initial (fun _ _ => [9]) 7)) nested := by
  refine clients_answered countingLibrary (fun _ _ => [9]) 7 nested ?_
  unfold nested
  simp only [everywhere_cons]
  exact ⟨fun _ => ⟨⟨(0 : Ref), rfl⟩, rfl⟩, fun _ => ⟨⟨(), rfl⟩, rfl⟩, trivial, trivial,
    everywhere_nil _⟩

end System

end Txei.Iha.IHAManager

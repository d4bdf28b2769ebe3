import Txei.Machine.History
import Txei.TxeiLog.Compose

/-!
# Where messages go

The settings of the log are those of the calls that were accepted last, `settings_refines`, and
every call but an accepted `txei_log_set_level` logs one message with them. A message is routed as
its own level says exactly when the level that is set happens to say the same: both functions choose
by `txei_log_level`. `routed_iff` says so of every message of every history of calls.
-/

namespace Txei.TxeiLog

open Machine

/-! ## Histories -/

/-- A call of a function of the interface. -/
inductive Request where
  | setDest (dest : Int) (outFp errFp : Option Stream)
  | setLevel (level : Int)
  | log (level : Int) (tag format : Option CString) (args : List FormatArg)
  | logBuf (level : Int) (tag label : Option CString) (func : CString) (line : Int)
      (buf : Option Nat) (len : Int)

/-- A call, with what is on the stack and in the buffers of the caller. -/
structure Call where
  request : Request
  mem : Mem Block

variable (p : Platform)

/-- The settings that a call leaves, and the message that it logs with them. -/
def Request.run (s : Settings) : Request → Settings × Option Message
  | .setDest dest outFp errFp =>
      ((txeiLogSetDest p s dest outFp errFp).1, some (txeiLogSetDest p s dest outFp errFp).2)
  | .setLevel level => txeiLogSetLevel s level
  | .log level tag format args => (s, some (txeiLog level tag format args))
  | .logBuf level tag label func line buf len =>
      (s, some (txeiLogBuf level tag label func line buf len))

/-- The settings after a history. -/
def settings (h : List Call) : Settings := after (fun s c => (c.request.run p s).1) .initial h

@[simp] theorem settings_snoc (h : List Call) (c : Call) :
    settings p (h ++ [c]) = (c.request.run p (settings p h)).1 :=
  after_snoc ..

/-- The message that a call logs behind a history. -/
def message (h : List Call) (c : Call) : Option Message := (c.request.run p (settings p h)).2

/-- Where the calls of a log print to. -/
def sinks (l : Log LogCall Block) : List Sink :=
  l.calls.filterMap fun
    | .print sink _ => some sink
    | .snprintf _ _ => none

/-- Where a message that a call logs behind a history is printed. -/
def printed (h : List Call) (c : Call) (msg : Message) : List Sink :=
  sinks ((msg.log p (settings p (h ++ [c]))).run c.mem).log

/-! ## What the settings stand for -/

/-- Where messages go. -/
inductive Destination where
  | android
  | streams (out err : Stream)
  deriving DecidableEq

/-- The level that a call sets, if it is accepted. -/
def Request.level? : Request → Option TxeiLogLevel
  | .setLevel level => TxeiLogLevel.ofInt? level
  | _ => none

/-- What a known destination is accepted as. -/
def TxeiLogDest.accepted? (outFp errFp : Option Stream) : TxeiLogDest → Option Destination
  | .android => if p.android then some .android else none
  | .printf => some (.streams .stdout .stderr)
  | .file =>
      match outFp, errFp with
      | some outFp, some errFp => some (.streams outFp errFp)
      | _, _ => none

/-- The destination that a call sets, if it is accepted. -/
def Request.destination? : Request → Option Destination
  | .setDest dest outFp errFp => (TxeiLogDest.ofInt? dest).bind (·.accepted? p outFp errFp)
  | _ => none

/-- The level that was accepted last. -/
def lastLevel (h : List Call) : TxeiLogLevel := lastValue (fun c => c.request.level?) .dbg h

/-- The destination that was accepted last. -/
def lastDestination (h : List Call) : Destination :=
  lastValue (fun c => c.request.destination? p) (.streams .stdout .stderr) h

/-- The destination that is set. -/
def Settings.destination (s : Settings) : Destination :=
  if s.dest = .android then .android else .streams s.outFp s.errFp

/-- A destination is set where it is accepted, and the level is left alone. -/
theorem txeiLogSetDest_spec (s : Settings) (dest : Int) (outFp errFp : Option Stream) :
    (txeiLogSetDest p s dest outFp errFp).1.level = s.level ∧
      (txeiLogSetDest p s dest outFp errFp).1.destination =
        ((TxeiLogDest.ofInt? dest).bind (·.accepted? p outFp errFp)).getD s.destination := by
  unfold txeiLogSetDest
  cases TxeiLogDest.ofInt? dest with
  | none => exact ⟨rfl, rfl⟩
  | some known =>
      cases known with
      | android =>
          dsimp only [Option.bind_some, TxeiLogDest.accepted?]
          split
          · exact ⟨rfl, rfl⟩
          · exact ⟨rfl, rfl⟩
      | printf => exact ⟨rfl, rfl⟩
      | file =>
          cases outFp with
          | none => exact ⟨rfl, rfl⟩
          | some outFp =>
              cases errFp with
              | none => exact ⟨rfl, rfl⟩
              | some errFp => exact ⟨rfl, rfl⟩

/-- A level is set where it is accepted, and the destination is left alone. -/
theorem txeiLogSetLevel_spec (s : Settings) (level : Int) :
    (txeiLogSetLevel s level).1.level = (TxeiLogLevel.ofInt? level).getD s.level ∧
      (txeiLogSetLevel s level).1.destination = s.destination := by
  unfold txeiLogSetLevel
  cases TxeiLogLevel.ofInt? level with
  | none => exact ⟨rfl, rfl⟩
  | some known => exact ⟨rfl, rfl⟩

theorem Request.run_spec (s : Settings) (r : Request) :
    (r.run p s).1.level = r.level?.getD s.level ∧
      (r.run p s).1.destination = (r.destination? p).getD s.destination := by
  cases r with
  | setDest dest outFp errFp => exact txeiLogSetDest_spec p s dest outFp errFp
  | setLevel level => exact txeiLogSetLevel_spec s level
  | log level tag format args => exact ⟨rfl, rfl⟩
  | logBuf level tag label func line buf len => exact ⟨rfl, rfl⟩

/-- The settings are what was accepted last. -/
theorem settings_refines (h : List Call) :
    (settings p h).level = lastLevel h ∧ (settings p h).destination = lastDestination p h := by
  induction h using List.reverseRecOn with
  | nil => exact ⟨rfl, rfl⟩
  | append_singleton h c ih =>
      obtain ⟨hlevel, hdest⟩ := c.request.run_spec p (settings p h)
      unfold lastLevel lastDestination at ih ⊢
      rw [settings_snoc, lastValue_snoc, lastValue_snoc, ← ih.1, ← ih.2]
      exact ⟨hlevel, hdest⟩

theorem android_of_accepted {outFp errFp : Option Stream} {known : TxeiLogDest}
    (h : known.accepted? p outFp errFp = some .android) : p.android := by
  cases known with
  | android =>
      have hbuild : (if p.android then some Destination.android else none) = some .android := h
      by_contra hnot
      rw [if_neg hnot] at hbuild
      cases hbuild
  | printf => cases h
  | file =>
      cases outFp with
      | none => cases h
      | some outFp =>
          cases errFp with
          | none => cases h
          | some errFp => cases h

/-- The Android log is set in a build that has one. -/
theorem android_of_lastDestination {h : List Call} (hdest : lastDestination p h = .android) :
    p.android := by
  induction h using List.reverseRecOn with
  | nil => cases hdest
  | append_singleton h c ih =>
      unfold lastDestination at ih hdest
      rw [lastValue_snoc] at hdest
      cases hc : c.request.destination? p with
      | none =>
          rw [hc] at hdest
          exact ih hdest
      | some d =>
          rw [hc] at hdest
          obtain rfl : d = .android := hdest
          cases hr : c.request with
          | setDest dest outFp errFp =>
              rw [hr] at hc
              obtain ⟨known, -, haccepted⟩ := Option.bind_eq_some_iff.mp hc
              exact android_of_accepted p haccepted
          | setLevel level => rw [hr] at hc; cases hc
          | log level tag format args => rw [hr] at hc; cases hc
          | logBuf level tag label func line buf len => rw [hr] at hc; cases hc

/-! ## Routes -/

/-- The priority of a message of a level. -/
def priority (level : Int) : AndroidLogLevel :=
  if level = TxeiLogLevel.err.toInt then .error
  else if level = TxeiLogLevel.info.toInt then .info
  else .debug

/-- Where a message with a tag and a level belongs. -/
def Destination.route (tag : CString) (level : Int) : Destination → Sink
  | .android => .android (priority level) tag
  | .streams out err => .stream (if level = TxeiLogLevel.err.toInt then err else out)

/-- The level that is set stands for the level of a message: a stream is right when both of them are
errors or neither is, and a priority when the levels with one of their own are the same. -/
def SameRoute (set : TxeiLogLevel) (level : Int) : Destination → Prop
  | .android => (set = .err ↔ level = TxeiLogLevel.err.toInt) ∧
      (set = .info ↔ level = TxeiLogLevel.info.toInt)
  | .streams out err =>
      out = err ∨ (TxeiLogLevel.err.toInt ≤ set.toInt ↔ level = TxeiLogLevel.err.toInt)

instance (set : TxeiLogLevel) (level : Int) (d : Destination) :
    Decidable (SameRoute set level d) :=
  match d with
  | .android => inferInstanceAs (Decidable (_ ∧ _))
  | .streams _ _ => inferInstanceAs (Decidable (_ ∨ _))

theorem androidLogLevel_eq_priority_iff (set : TxeiLogLevel) (level : Int) :
    androidLogLevel set = priority level ↔
      (set = .err ↔ level = TxeiLogLevel.err.toInt) ∧
        (set = .info ↔ level = TxeiLogLevel.info.toInt) := by
  unfold priority
  by_cases herr : level = TxeiLogLevel.err.toInt
  · subst herr
    rw [if_pos rfl]
    cases set <;> decide
  · by_cases hinfo : level = TxeiLogLevel.info.toInt
    · subst hinfo
      rw [if_neg herr, if_pos rfl]
      cases set <;> decide
    · rw [if_neg herr, if_neg hinfo, iff_false_right herr, iff_false_right hinfo]
      cases set <;> decide

/-- The sink of a message is the one it belongs to exactly where the route is the same. -/
theorem sinkOf_eq_route_iff (s : Settings) (tag : CString) (level : Int) :
    sinkOf s tag = s.destination.route tag level ↔ SameRoute s.level level s.destination := by
  unfold sinkOf Settings.destination
  by_cases hdest : s.dest = .android
  · rw [if_pos hdest, if_pos hdest]
    show Sink.android _ tag = Sink.android _ tag ↔ _
    rw [Sink.android.injEq, and_iff_left rfl]
    exact androidLogLevel_eq_priority_iff s.level level
  · rw [if_neg hdest, if_neg hdest]
    show Sink.stream _ = Sink.stream _ ↔ _ = _ ∨ _
    rw [Sink.stream.injEq]
    by_cases hset : TxeiLogLevel.err.toInt ≤ s.level.toInt
    · rw [if_neg (Int.not_lt_of_ge hset), iff_true_left hset]
      by_cases hlevel : level = TxeiLogLevel.err.toInt
      · simp [hlevel]
      · simp [hlevel, eq_comm]
    · rw [if_pos (Int.lt_of_not_ge hset), iff_false_left hset]
      by_cases hlevel : level = TxeiLogLevel.err.toInt
      · simp [hlevel]
      · simp [hlevel]

/-- A message is printed once, to where it belongs, when its level is not below the last one, and
otherwise not at all. -/
def Routed (h : List Call) (c : Call) : Prop :=
  ∀ msg ∈ message p h c,
    printed p h c msg =
      if (lastLevel (h ++ [c])).toInt ≤ msg.level then
        [(lastDestination p (h ++ [c])).route msg.tag msg.level]
      else []

/-- Should a message be printed, its text can be, and the last level stands for its own. -/
def RoutedWhen (h : List Call) (c : Call) : Prop :=
  ∀ msg ∈ message p h c, (lastLevel (h ++ [c])).toInt ≤ msg.level →
    Formats (settings p (h ++ [c])) msg.tag (p.format msg.format msg.args) ∧
      SameRoute (lastLevel (h ++ [c])) msg.level (lastDestination p (h ++ [c]))

theorem sinks_of_composes {l : Log LogCall Block} (h : ∀ e ∈ l, Composes e) : sinks l = [] := by
  refine List.filterMap_eq_nil_iff.mpr fun k hk => ?_
  obtain ⟨offset, size, rfl, -⟩ := (h _ (Log.mem_calls.mp hk)).2.2 k rfl
  rfl

section Sinks

variable {emits : Prop} {sink : Sink} {z : List UInt8} {l : Log LogCall Block}

theorem MessageLog.sinks_of_emits (h : MessageLog emits sink z l) (hemits : emits) :
    sinks l = [sink] := by
  cases h with
  | printed _ hcomposes _ _ _ =>
      have hsinks := sinks_of_composes hcomposes
      unfold sinks at hsinks ⊢
      rw [Log.calls_append, List.filterMap_append, hsinks]
      rfl
  | silent hnot _ => exact absurd hemits hnot

theorem MessageLog.sinks_of_not_emits (h : MessageLog emits sink z l) (hnot : ¬ emits) :
    sinks l = [] := by
  cases h with
  | printed hemits _ _ _ _ => exact absurd hemits hnot
  | silent _ hcomposes => exact sinks_of_composes hcomposes

end Sinks

theorem routed_iff_routedWhen (h : List Call) (c : Call) : Routed p h c ↔ RoutedWhen p h c := by
  obtain ⟨hset, hdestination⟩ := settings_refines p (h ++ [c])
  refine forall₂_congr fun msg _ => ?_
  have hlog := msg.log_spec p (settings p (h ++ [c])) c.mem
  have hroute := sinkOf_eq_route_iff (settings p (h ++ [c])) msg.tag msg.level
  unfold printed
  rw [hset, hdestination] at hroute
  by_cases hlevel : (lastLevel (h ++ [c])).toInt ≤ msg.level
  · rw [if_pos hlevel, imp_iff_right hlevel, ← hroute]
    have hbuild : (settings p (h ++ [c])).dest = .android → p.android := by
      intro hdest
      refine android_of_lastDestination p (hdestination.symm.trans ?_)
      exact if_pos hdest
    by_cases hformats :
        Formats (settings p (h ++ [c])) msg.tag (p.format msg.format msg.args)
    · rw [hlog.sinks_of_emits ⟨hset ▸ hlevel, hformats, hbuild⟩, and_iff_right hformats]
      exact List.singleton_inj
    · rw [hlog.sinks_of_not_emits fun hemits => hformats hemits.2.1]
      exact iff_of_false (by simp) fun hboth => hformats hboth.1
  · rw [if_neg hlevel, hlog.sinks_of_not_emits fun hemits => hlevel (hset ▸ hemits.1)]
    exact iff_of_true rfl fun hle => absurd hle hlevel

/-- Every message of a history is routed by its own level exactly when each of them meets the
condition. -/
theorem routed_iff (h : List Call) : Everywhere (Routed p) h ↔ Everywhere (RoutedWhen p) h :=
  Everywhere.congr (routed_iff_routedWhen p) h

/-- The error `x`, logged with the settings at the start of the program. -/
def errorCall : Call where
  request := .log TxeiLogLevel.err.toInt (some logTag) (some (.literal "x")) []
  mem := fun _ _ => 0

/-- An error is printed to the stream for everything else. -/
theorem error_not_routed : ¬ Everywhere (Routed plain) [errorCall] := by
  intro hall
  have hrouted := (routed_iff_routedWhen plain [] errorCall).mp (hall [] errorCall [] rfl)
  obtain ⟨-, hroute⟩ := hrouted _ rfl (by decide)
  exact absurd hroute (by decide)

end Txei.TxeiLog

import Txei.TxeiLog.Routing

/-!
# What a run prints

`LogState` says what the log is for: it has a level and a destination, those that were accepted
last, and prints each message that is not below its level, under the tag, to its destination. The
message has no say in where that is: the level of the log chooses. `output_refines` says that this
is what the code prints over every history of calls, message by message.
-/

namespace Txei.TxeiLog

open Machine Machine.Prog

variable (p : Platform)

/-! ## The code -/

/-- What a log prints, each text as far as its NUL. -/
def prints (l : Log LogCall Block) : List (Sink × List UInt8) :=
  l.calls.filterMap fun
    | .print sink buffer => some (sink, cString buffer)
    | .snprintf _ _ => none

/-- The settings behind a call. -/
def Settings.next (s : Settings) (c : Call) : Settings := (c.request.run p s).1

/-- What a call prints. -/
def Settings.prints (s : Settings) (c : Call) : List (Sink × List UInt8) :=
  match (c.request.run p s).2 with
  | none => []
  | some msg => TxeiLog.prints ((msg.log p (s.next p c)).run c.mem).log

/-! ## The log -/

/-- A log. -/
structure LogState where
  level : TxeiLogLevel
  destination : Destination

/-- The log at the start of the program. -/
def LogState.initial : LogState := ⟨.dbg, .streams .stdout .stderr⟩

/-- A call sets what it is accepted for. -/
def LogState.next (a : LogState) (c : Call) : LogState where
  level := c.request.level?.getD a.level
  destination := (c.request.destination? p).getD a.destination

/-- The message of a call. Where it comes from the log itself, it does not depend on the
settings. -/
def Request.message? (r : Request) : Option Message := (r.run p .initial).2

/-- Where the log prints a message with a tag. -/
def LogState.sink (a : LogState) (tag : CString) : Sink :=
  match a.destination with
  | .android => .android (androidLogLevel a.level) tag
  | .streams out err => .stream (if a.level.toInt < TxeiLogLevel.err.toInt then out else err)

/-- What is printed in front of a message. -/
def Destination.heading (tag : CString) : Destination → List UInt8
  | .android => []
  | .streams _ _ => tag.bytes ++ ascii " - "

/-- The heading and the text of a message are no longer than `snprintf` can say. -/
def Destination.Formats (d : Destination) (msg : Message) : Prop :=
  (d.heading msg.tag).length < 2 ^ 31 ∧
    ((d.heading msg.tag).length < bufferSize →
      ∃ text ∈ p.format msg.format msg.args, text.length < 2 ^ 31)

/-- What is printed of a message: the line, and the bytes it is to show. -/
def Destination.text (d : Destination) (msg : Message) (m : Mem Block) : List UInt8 :=
  let line := d.heading msg.tag ++ (p.format msg.format msg.args).getD []
  match msg.dump with
  | none => shown line
  | some (buf, len) => dumpText line (m.bytes (.data buf) len.toNat)

open Classical in
/-- What a call prints: the log is set first, and the message is logged with what is set. -/
noncomputable def LogState.prints (a : LogState) (c : Call) : List (Sink × List UInt8) :=
  match c.request.message? p with
  | none => []
  | some msg =>
      if (a.next p c).level.toInt ≤ msg.level ∧ (a.next p c).destination.Formats p msg then
        [((a.next p c).sink msg.tag, cString ((a.next p c).destination.text p msg c.mem))]
      else []

/-! ## The refinement -/

/-- The log that the settings stand for. -/
def Settings.state (s : Settings) : LogState := ⟨s.level, s.destination⟩

/-- The Android log is set in a build that has one. -/
def Settings.Built (s : Settings) : Prop := s.dest = .android → p.android

section Refinement

variable (s : Settings)

theorem run_message (r : Request) : (r.run p s).2 = r.message? p := by
  cases r with
  | log level tag format args => rfl
  | logBuf level tag label func line buf len => rfl
  | setLevel level =>
      show (txeiLogSetLevel s level).2 = (txeiLogSetLevel .initial level).2
      unfold txeiLogSetLevel
      cases TxeiLogLevel.ofInt? level with
      | none => rfl
      | some known => rfl
  | setDest dest outFp errFp =>
      show some (txeiLogSetDest p s dest outFp errFp).2 =
        some (txeiLogSetDest p .initial dest outFp errFp).2
      unfold txeiLogSetDest
      cases TxeiLogDest.ofInt? dest with
      | none => rfl
      | some known =>
          cases known with
          | android =>
              dsimp only
              split
              · rfl
              · rfl
          | printf => rfl
          | file =>
              cases outFp with
              | none => rfl
              | some outFp =>
                  cases errFp with
                  | none => rfl
                  | some errFp => rfl

theorem heading_eq (tag : CString) : s.destination.heading tag = tagPart s tag := by
  unfold Settings.destination tagPart
  split
  · rfl
  · rfl

theorem formats_iff (msg : Message) :
    s.destination.Formats p msg ↔ Formats s msg.tag (p.format msg.format msg.args) := by
  unfold Destination.Formats TxeiLog.Formats Prints
  rw [heading_eq]
  rfl

theorem text_eq (msg : Message) (m : Mem Block) : s.destination.text p msg m = msg.text p s m := by
  have hheading := heading_eq s msg.tag
  unfold Destination.text Message.text Message.line wholeText
  cases msg.dump with
  | none => exact congrArg (fun heading => shown (heading ++ _)) hheading
  | some dump => exact congrArg (fun heading => dumpText (heading ++ _) _) hheading

theorem sink_eq (tag : CString) : s.state.sink tag = sinkOf s tag := by
  have hdestination : s.state.destination = s.destination := rfl
  unfold LogState.sink sinkOf
  rw [hdestination, Settings.destination]
  by_cases hdest : s.dest = .android
  · rw [if_pos hdest, if_pos hdest]
    rfl
  · rw [if_neg hdest, if_neg hdest]
    rfl

/-- A call sets the log that the settings stand for. -/
theorem state_next (c : Call) : (s.next p c).state = s.state.next p c := by
  obtain ⟨hlevel, hdestination⟩ := c.request.run_spec p s
  unfold Settings.state Settings.next LogState.next
  rw [hlevel, hdestination]

theorem Settings.Built.next {s : Settings} (h : s.Built p) (c : Call) : (s.next p c).Built p := by
  intro hdest
  obtain ⟨-, hdestination⟩ := c.request.run_spec p s
  have hset : (c.request.run p s).1.destination = .android := if_pos hdest
  rw [hset] at hdestination
  cases hc : c.request.destination? p with
  | none =>
      rw [hc, Option.getD_none, Settings.destination] at hdestination
      refine h ?_
      by_contra hne
      rw [if_neg hne] at hdestination
      cases hdestination
  | some d =>
      rw [hc, Option.getD_some] at hdestination
      subst hdestination
      cases hr : c.request with
      | setDest dest outFp errFp =>
          rw [hr] at hc
          obtain ⟨known, -, haccepted⟩ := Option.bind_eq_some_iff.mp hc
          exact android_of_accepted p haccepted
      | setLevel level => rw [hr] at hc; cases hc
      | log level tag format args => rw [hr] at hc; cases hc
      | logBuf level tag label func line buf len => rw [hr] at hc; cases hc

end Refinement

theorem prints_of_composes {l : Log LogCall Block} (h : ∀ e ∈ l, Composes e) : prints l = [] := by
  refine List.filterMap_eq_nil_iff.mpr fun k hk => ?_
  obtain ⟨offset, size, rfl, -⟩ := (h _ (Log.mem_calls.mp hk)).2.2 k rfl
  rfl

theorem prints_append (l l' : Log LogCall Block) : prints (l ++ l') = prints l ++ prints l' := by
  unfold prints
  rw [Log.calls_append, List.filterMap_append]

open Classical in
/-- What the log of a message prints. -/
theorem MessageLog.prints_eq {emits : Prop} {sink : Sink} {z : List UInt8}
    {l : Log LogCall Block} (h : MessageLog emits sink z l) :
    prints l = if emits then [(sink, cString z)] else [] := by
  cases h with
  | printed hemits hcomposes _ _ htext =>
      rw [if_pos hemits, prints_append, prints_of_composes hcomposes, ← htext]
      rfl
  | silent hnot hcomposes => rw [if_neg hnot, prints_of_composes hcomposes]

/-- A call prints what the log that the settings stand for prints. -/
theorem prints_eq {s : Settings} (h : s.Built p) (c : Call) :
    s.prints p c = s.state.prints p c := by
  classical
  unfold Settings.prints LogState.prints
  rw [run_message]
  cases c.request.message? p with
  | none => rfl
  | some msg =>
      have hlog := (msg.log_spec p (s.next p c) c.mem).prints_eq
      dsimp only
      rw [hlog, ← state_next]
      refine if_congr ?_ ?_ rfl
      · show _ ↔ _ ∧ (s.next p c).destination.Formats p msg
        rw [formats_iff]
        exact and_congr Iff.rfl (and_iff_left (h.next p c))
      · rw [sink_eq, ← text_eq]
        rfl

/-- Over every history of calls, the code prints what the log prints: the same texts to the same
places, in the same order. -/
theorem output_refines (h : List Call) :
    output (Settings.next p) (Settings.prints p) .initial h =
      output (LogState.next p) (LogState.prints p) .initial h := by
  -- the log is the one that the settings stand for; the Android log is set only where there is one
  refine output_eq_of_lockstep (fun s a => s.state = a ∧ s.Built p) ?_ ?_ ⟨rfl, nofun⟩ h
  · intro s a c hsim
    obtain ⟨rfl, hbuilt⟩ := hsim
    exact ⟨state_next p s c, hbuilt.next p c⟩
  · intro s a c hsim
    obtain ⟨rfl, hbuilt⟩ := hsim
    exact prints_eq p hbuilt c

end Txei.TxeiLog

import Txei.TxeiLog.Buffer
import Txei.TxeiLog.Hex

/-!
# What is composed and printed

Both functions of `txei_log.c` put the tag and a text into the buffer, and `txei_log_buf` appends
the dump of some bytes: `composeLog_triple` and `composeBuf_triple` say which text that makes.
`emit_log` adds what is printed of it, and `MessageLog.safe` is what all of this does with the
buffer.
-/

namespace Txei.TxeiLog

open Machine Machine.Prog

variable {data : Nat → Nat → UInt8} {u x : List UInt8} {m : Mem Block}

/-! ## The text of a message -/

section Text

variable {s : Settings} {tag : CString} {text : Option (List UInt8)}

/-- The tag and what is printed behind it. -/
def wholeText (s : Settings) (tag : CString) (text : Option (List UInt8)) : List UInt8 :=
  tagPart s tag ++ text.getD []

/-- Neither the tag nor, where there is room behind the tag, the text makes `snprintf` fail. -/
def Formats (s : Settings) (tag : CString) (text : Option (List UInt8)) : Prop :=
  (tagPart s tag).length < 2 ^ 31 ∧ ((tagPart s tag).length < bufferSize → ∃ x, Prints text x)

/-- How a function is left before its text is complete. -/
def LeftText (data : Nat → Nat → UInt8) (s : Settings) (tag : CString)
    (text : Option (List UInt8)) : Leave → Mem Block → Prop
  | .abort, _ => ¬ Formats s tag text
  | .printMessage, m => Formats s tag text ∧ Cut data (wholeText s tag text) m

theorem tagPart_of_android (hdest : s.dest = .android) (tag : CString) : tagPart s tag = [] :=
  if_pos hdest

theorem writeTag_triple :
    Triple Composes (LeftText data s tag text) (Holds data []) (writeTag s tag)
      fun totalWritten m => totalWritten = (tagPart s tag).length ∧
        (tagPart s tag).length < bufferSize ∧ (tagPart s tag).length < 2 ^ 31 ∧
        Holds data (tagPart s tag) m := by
  unfold writeTag
  refine triple_ite (fun hdest => triple_pure fun m hm => ?_) fun hdest => ?_
  · rw [tagPart_of_android hdest]
    exact ⟨rfl, by decide, by decide, hm⟩
  · refine (append_triple (u := []) (by decide) (some (tagPart s tag))).conseq (fun _ hm => hm)
      ?_ ?_
    · intro left m hleft
      cases left with
      | abort => exact fun hformats => hleft ⟨_, rfl, hformats.1⟩
      | printMessage =>
          obtain ⟨x, ⟨hx, hlength⟩, hcut⟩ := hleft
          obtain rfl := Option.some.inj hx
          exact ⟨⟨hlength, fun hfits => absurd hfits (Nat.not_lt_of_le hcut.1)⟩, hcut.append _⟩
    · intro totalWritten m hm
      obtain ⟨x, ⟨hx, hlength⟩, htotal, hfits, hholds⟩ := hm
      obtain rfl := Option.some.inj hx
      exact ⟨htotal, hfits, hlength, hholds.left⟩

/-- Write the tag and the text, and go on with `k` where they fit. -/
theorem text_triple {k : Int → Prog LogCall Block Leave Int} {F : Leave → Mem Block → Prop}
    {Q : Int → Mem Block → Prop} (hleft : ∀ l m, LeftText data s tag text l m → F l m)
    (hk : Formats s tag text → (wholeText s tag text).length < bufferSize →
      Triple Composes F (Holds data (wholeText s tag text ++ [0]))
        (k (wholeText s tag text).length) Q) :
    Triple Composes F (Holds data [])
      (writeTag s tag >>= fun totalWritten => append totalWritten text >>= k) Q := by
  refine (writeTag_triple.early hleft).bind fun _ =>
    triple_and fun htotal => triple_and fun htag => triple_and fun hlength => ?_
  subst htotal
  refine ((append_triple htag text).early ?_).bind fun _ => triple_exists fun x =>
    triple_and fun hx => triple_and fun htotal => triple_and fun hfits => ?_
  · intro l m hl
    refine hleft l m ?_
    cases l with
    | abort => exact fun hformats => hl (hformats.2 htag)
    | printMessage =>
        obtain ⟨x, hx, hcut⟩ := hl
        refine ⟨⟨hlength, fun _ => ⟨x, hx⟩⟩, ?_⟩
        unfold wholeText
        rw [hx.1]
        exact hcut
  · subst htotal
    have hwhole : wholeText s tag text = tagPart s tag ++ x := by
      unfold wholeText
      rw [hx.1]
      rfl
    rw [← hwhole] at hfits ⊢
    exact hk ⟨hlength, fun _ => ⟨x, hx⟩⟩ hfits

end Text

/-! ## The dump -/

/-- How the loop is left: the dump does not fit. -/
def LeftDump (data : Nat → Nat → UInt8) (t : List UInt8) : Leave → Mem Block → Prop
  | .abort, _ => False
  | .printMessage, m => Cut data t m

/-- A text of the program's own can fail to fit, but not fail. -/
theorem append_some_triple {t : List UInt8} (hu : u.length < bufferSize) (hx : x.length < 2 ^ 31)
    (ht : u ++ x <+: t) :
    Triple Composes (LeftDump data t) (Holds data u) (append u.length (some x))
      fun totalWritten m => totalWritten = (u ++ x).length ∧ (u ++ x).length < bufferSize ∧
        Holds data (u ++ x ++ [0]) m := by
  refine (append_triple hu (some x)).conseq (fun _ hm => hm) ?_ ?_
  · intro l m hl
    cases l with
    | abort => exact hl ⟨x, rfl, hx⟩
    | printMessage =>
        obtain ⟨y, ⟨hy, -⟩, hcut⟩ := hl
        obtain rfl := Option.some.inj hy
        obtain ⟨v, rfl⟩ := ht
        exact hcut.append v
  · intro totalWritten m hm
    obtain ⟨y, ⟨hy, -⟩, hrest⟩ := hm
    obtain rfl := Option.some.inj hy
    exact hrest

/-- The bytes of a block from `i` on. -/
def bytesFrom (f : Nat → UInt8) (i n : Nat) : List UInt8 := (List.range' i n).map f

theorem bytes_eq_bytesFrom (m : Mem Block) (b : Block) (n : Nat) :
    m.bytes b n = bytesFrom (m b) 0 n := by
  rw [Mem.bytes, bytesFrom, List.range_eq_range']

/-- One round of the loop appends the dump of a byte. -/
theorem hexRound_triple {t : List UInt8} {buf i n : Nat} {Q : Int → Mem Block → Prop}
    (hu : u.length < bufferSize) (ht : u ++ dump i [data buf i] <+: t)
    (hrest : (u ++ dump i [data buf i]).length < bufferSize →
      Triple Composes (LeftDump data t) (Holds data (u ++ dump i [data buf i] ++ [0]))
        (hexLoop buf n (i + 1) (u ++ dump i [data buf i]).length) Q) :
    Triple Composes (LeftDump data t) (Holds data u) (hexLoop buf (n + 1) i u.length) Q := by
  unfold hexLoop
  have hload : Triple Composes (LeftDump data t) (Holds data u) (loadByte (.data buf) i)
      fun c m => c = data buf i ∧ Holds data u m := by
    refine Within.triple (by simpa using composes_read_data buf i 1) fun m hm => ?_
    exact ⟨congrFun (hm.2 buf) i, hm⟩
  have hhex : u ++ hex (data buf i) <+: t := by
    refine List.IsPrefix.trans ?_ ht
    simp only [dump, ← List.append_assoc, List.append_nil]
    exact List.prefix_append _ _
  refine hload.bind fun c => triple_and fun hc => ?_
  subst hc
  refine (append_some_triple (x := hex (data buf i)) hu (show 2 < 2 ^ 31 by decide) hhex).bind
    fun _ => triple_and fun htotal => triple_and fun hfits => ?_
  subst htotal
  simp only [dump, List.append_nil] at ht hrest
  dsimp only
  refine triple_ite (fun hlast => ?_) fun hinside => ?_
  · rw [if_pos hlast, ← List.append_assoc] at ht hrest
    refine Triple.bind ((append_some_triple hfits (by decide) ht).pre fun _ hm => hm.left)
      fun _ => triple_and fun htotal => triple_and fun hfits' => ?_
    subst htotal
    exact hrest hfits'
  · rw [if_neg hinside, List.append_nil] at hrest
    exact hrest hfits

theorem hexLoop_triple {t : List UInt8} {buf i n : Nat} (hn : n ≠ 0) (hu : u.length < bufferSize)
    (ht : u ++ dump i (bytesFrom (data buf) i n) = t) :
    Triple Composes (LeftDump data t) (Holds data u) (hexLoop buf n i u.length)
      fun totalWritten m => totalWritten = t.length ∧ t.length < bufferSize ∧
        Holds data (t ++ [0]) m := by
  induction n generalizing i u with
  | zero => exact absurd rfl hn
  | succ n ih =>
      have hsplit : dump i (bytesFrom (data buf) i (n + 1)) =
          dump i [data buf i] ++ dump (i + 1) (bytesFrom (data buf) (i + 1) n) := by
        rw [bytesFrom, List.range'_succ, List.map_cons, ← List.singleton_append, dump_append]
        rfl
      rw [hsplit, ← List.append_assoc] at ht
      refine hexRound_triple hu ⟨_, ht⟩ fun hfits => ?_
      cases n with
      | zero =>
          refine triple_pure fun m hm => ?_
          rw [show t = u ++ dump i [data buf i] from ht.symm.trans (List.append_nil _)]
          exact ⟨rfl, hfits, hm⟩
      | succ n => exact (ih (Nat.succ_ne_zero n) hfits ht).pre fun _ hm => hm.left

/-! ## Messages -/

/-- What is printed of a text: its beginning and the note where it does not fit. -/
def shown (t : List UInt8) : List UInt8 :=
  if bufferSize ≤ t.length then t.take 999 ++ tooLong else ended t

/-- What is printed of a label line and the dump of some bytes. -/
def dumpText (t bytes : List UInt8) : List UInt8 :=
  if bufferSize ≤ t.length ∨ bytes = [] then shown t else shown (headLine t ++ dump 0 bytes)

theorem shown_of_long {t : List UInt8} (h : bufferSize ≤ t.length) :
    shown t = t.take 999 ++ tooLong :=
  if_pos h

theorem shown_of_fits {t : List UInt8} (h : t.length < bufferSize) : shown t = ended t :=
  if_neg (Nat.not_le_of_lt h)

theorem dumpText_of_long {t bytes : List UInt8} (h : bufferSize ≤ t.length) :
    dumpText t bytes = shown t :=
  if_pos (.inl h)

theorem dumpText_nil (t : List UInt8) : dumpText t [] = shown t := if_pos (.inr rfl)

theorem dumpText_of_fits {t bytes : List UInt8} (h : t.length < bufferSize) (hne : bytes ≠ []) :
    dumpText t bytes = shown (headLine t ++ dump 0 bytes) :=
  if_neg (not_or.mpr ⟨Nat.not_le_of_lt h, hne⟩)

theorem length_shown_lt (t : List UInt8) : (shown t).length < bufferSize := by
  by_cases hlong : bufferSize ≤ t.length
  · rw [shown_of_long hlong, List.length_append, length_tooLong]
    exact Nat.lt_of_le_of_lt (Nat.add_le_add_right (List.length_take_le _ _) 22) (by decide)
  · have hfits : t.length < bufferSize := Nat.lt_of_not_le hlong
    rw [shown_of_fits hfits]
    exact length_ended_lt hfits

theorem length_dumpText_lt (t bytes : List UInt8) : (dumpText t bytes).length < bufferSize := by
  unfold dumpText
  split
  · exact length_shown_lt _
  · exact length_shown_lt _

theorem Cut.shown {t : List UInt8} (h : Cut data t m) : Holds data (shown t ++ [0]) m := by
  rw [shown_of_long h.1]
  exact h.2

/-- How a message is left: it is printed with the text `z`, unless its parts make `snprintf`
fail. -/
def Composed (data : Nat → Nat → UInt8) (formats : Prop) (z : List UInt8) :
    Leave → Mem Block → Prop
  | .abort, _ => ¬ formats
  | .printMessage, m => formats ∧ Holds data (z ++ [0]) m

theorem composeLog_triple (p : Platform) (s : Settings) (tag format : CString)
    (args : List FormatArg) :
    Triple Composes
      (Composed data (Formats s tag (p.format format args))
        (shown (wholeText s tag (p.format format args))))
      (Holds data []) (composeLog p s tag format args)
      fun _ => Composed data (Formats s tag (p.format format args))
        (shown (wholeText s tag (p.format format args))) .printMessage := by
  refine text_triple (fun l m hl => ?_) fun hformats hfits => ?_
  · cases l with
    | abort => exact hl
    | printMessage => exact ⟨hl.1, hl.2.shown⟩
  · refine (newline_triple _).post fun _ m hm => ⟨hformats, ?_⟩
    rw [shown_of_fits hfits]
    exact hm.2

theorem composeBuf_triple (p : Platform) (s : Settings) (tag label : CString)
    (args : List FormatArg) (buf : Nat) (len : Int) :
    Triple Composes
      (Composed data (Formats s tag (p.format label args))
        (dumpText (wholeText s tag (p.format label args)) (bytesFrom (data buf) 0 len.toNat)))
      (Holds data []) (composeBuf p s tag label args buf len)
      fun _ => Composed data (Formats s tag (p.format label args))
        (dumpText (wholeText s tag (p.format label args)) (bytesFrom (data buf) 0 len.toNat))
        .printMessage := by
  refine text_triple (fun l m hl => ?_) fun hformats hfits => ?_
  · cases l with
    | abort => exact hl
    | printMessage =>
        rw [dumpText_of_long hl.2.1]
        exact ⟨hl.1, hl.2.shown⟩
  · generalize wholeText s tag (p.format label args) = t at hfits ⊢
    refine (newline_triple t).bind fun _ => triple_and fun htotal => ?_
    subst htotal
    cases hn : len.toNat with
    | zero =>
        have hempty : dumpText t (bytesFrom (data buf) 0 0) = ended t :=
          (dumpText_nil t).trans (shown_of_fits hfits)
        rw [hempty]
        exact (newline_again_triple t).post fun _ m hm => ⟨hformats, hm⟩
    | succ n =>
        have hne : bytesFrom (data buf) 0 (n + 1) ≠ [] := by simp [bytesFrom]
        have hhead : (headLine t).length < bufferSize := by
          rw [length_headLine]
          exact Nat.lt_succ_of_le (Nat.succ_le_succ (length_kept_le t))
        rw [dumpText_of_fits hfits hne, ← length_headLine]
        refine Triple.bind ((hexLoop_triple (Nat.succ_ne_zero n) hhead rfl).conseq
          (fun m hm => ⟨hm.1.take _, hm.2⟩) (fun l m hl => ?_) fun _ _ ha => ha) fun _ =>
            triple_and fun htotal => triple_and fun hfits' => ?_
        · cases l with
          | abort => exact hl.elim
          | printMessage => exact ⟨hformats, hl.shown⟩
        · subst htotal
          refine (newline_triple _).post fun _ m hm => ⟨hformats, ?_⟩
          rw [shown_of_fits hfits']
          exact hm.2

/-! ## Printing -/

/-- The log of a message with the text `z`: it is composed and, if `emits`, printed once. -/
inductive MessageLog (emits : Prop) (sink : Sink) (z : List UInt8) : Log LogCall Block → Prop where
  | printed {l : Log LogCall Block} {buffer : List UInt8} (hemits : emits)
      (hcomposes : ∀ e ∈ l, Composes e) (hlength : buffer.length = bufferSize) (hnul : 0 ∈ buffer)
      (htext : cString buffer = cString z) :
      MessageLog emits sink z (l ++ [.read .buffer 0 bufferSize, .call (.print sink buffer)])
  | silent {l : Log LogCall Block} (hemits : ¬ emits) (hcomposes : ∀ e ∈ l, Composes e) :
      MessageLog emits sink z l

theorem MessageLog.append_left {emits : Prop} {sink : Sink} {z : List UInt8}
    {l l' : Log LogCall Block} (h : MessageLog emits sink z l) (hl' : ∀ e ∈ l', Composes e) :
    MessageLog emits sink z (l' ++ l) := by
  cases h with
  | printed hemits hcomposes hlength hnul htext =>
      rw [← List.append_assoc]
      exact .printed hemits (List.forall_mem_append.mpr ⟨hl', hcomposes⟩) hlength hnul htext
  | silent hemits hcomposes => exact .silent hemits (List.forall_mem_append.mpr ⟨hl', hcomposes⟩)

theorem printMessage_log {p : Platform} {s : Settings} {level : Int} (tag : CString)
    {formats : Prop} {z : List UInt8} (hz : z.length < bufferSize)
    (hlevel : s.level.toInt ≤ level) (hformats : formats) (hholds : Holds data (z ++ [0]) m) :
    MessageLog (s.level.toInt ≤ level ∧ formats ∧ (s.dest = .android → p.android)) (sinkOf s tag) z
      ((printMessage p s tag).run m).log := by
  unfold printMessage onlyIf
  rw [run_ite]
  by_cases hbuild : s.dest = .android → p.android
  · rw [if_pos hbuild]
    refine MessageLog.printed (l := []) ⟨hlevel, hformats, hbuild⟩ (by simp)
      (Mem.length_bytes _ _ _) ?_ ?_
    · exact hholds.1.mem_bytes (by simp) (by simpa using Nat.succ_le_of_lt hz)
    · exact hholds.1.cString hz
  · rw [if_neg hbuild]
    exact .silent (fun hemits => hbuild hemits.2.2) (by simp)

/-- The memory after the initialisation of the buffer holds the same bytes to be dumped. -/
theorem data_memset (m : Mem Block) (n : Nat) :
    m.write .buffer 0 bufferSize (fun _ => 0) (.data n) = m (.data n) :=
  Mem.write_other m 0 bufferSize _ nofun

section Emit

variable {p : Platform} {s : Settings} {level : Int} {tag : CString} {formats : Prop}
  {z : List UInt8} {compose : Prog LogCall Block Leave Int}

theorem emit_log (hz : z.length < bufferSize)
    (hcompose : Triple Composes (Composed data formats z) (Holds data []) compose
      fun _ => Composed data formats z .printMessage)
    (hm : ∀ n, m (.data n) = data n) :
    MessageLog (s.level.toInt ≤ level ∧ formats ∧ (s.dest = .android → p.android)) (sinkOf s tag) z
      ((emit p s level tag compose).run m).log := by
  unfold emit onlyIf
  rw [run_ite]
  by_cases hlevel : s.level.toInt ≤ level
  · rw [if_pos hlevel, run_bind, run_memset, Run.andThen_ok, run_bind, run_attempt, Run.andThen_ok,
      Run.prepend_log, Run.prepend_log, ← List.append_assoc]
    have hholds : Holds data [] (m.write .buffer 0 bufferSize fun _ => 0) :=
      ⟨Mem.starts_nil _ _, fun n => (data_memset m n).trans (hm n)⟩
    obtain ⟨hlog, hends⟩ := hcompose _ hholds
    refine MessageLog.append_left ?_
      (List.forall_mem_append.mpr ⟨by simpa using composes_write (by decide), hlog⟩)
    cases hresult : (compose.run (m.write .buffer 0 bufferSize fun _ => 0)).result with
    | ok totalWritten =>
        obtain ⟨hformats, hholds'⟩ := (Run.ends_of_ok hresult).mp hends
        exact printMessage_log tag hz hlevel hformats hholds'
    | error left =>
        have hleft := (Run.ends_of_error hresult).mp hends
        cases left with
        | abort => exact .silent (fun hemits => hleft hemits.2.1) (by simp)
        | printMessage => exact printMessage_log tag hz hlevel hleft.1 hleft.2
  · rw [if_neg hlevel]
    exact .silent (fun hemits => hlevel hemits.1) (by simp)

end Emit

section Messages

variable (p : Platform) (s : Settings) (m : Mem Block) (msg : Message)

/-- The tag and the text of a message. -/
def Message.line : List UInt8 := wholeText s msg.tag (p.format msg.format msg.args)

/-- What is composed of a message. -/
def Message.text : List UInt8 :=
  match msg.dump with
  | none => shown (msg.line p s)
  | some (buf, len) => dumpText (msg.line p s) (m.bytes (.data buf) len.toNat)

/-- A message is printed when its level is not below the one that is set, its parts make no
`snprintf` fail, and the build can print it. -/
def Message.Emits : Prop :=
  s.level.toInt ≤ msg.level ∧ Formats s msg.tag (p.format msg.format msg.args) ∧
    (s.dest = .android → p.android)

theorem Message.log_spec :
    MessageLog (msg.Emits p s) (sinkOf s msg.tag) (msg.text p s m) ((msg.log p s).run m).log := by
  unfold Message.log Message.text Message.line
  rw [run_bind, run_memset, Run.andThen_ok, Run.prepend_log]
  refine MessageLog.append_left ?_ (by simpa using composes_write (by decide))
  cases msg.dump with
  | none => exact emit_log (length_shown_lt _) (composeLog_triple p s _ _ _) (data_memset m)
  | some dump =>
      have hcompose := @composeBuf_triple (fun n => m (.data n)) p s msg.tag msg.format msg.args
        dump.1 dump.2
      dsimp only
      rw [bytes_eq_bytesFrom]
      exact emit_log (length_dumpText_lt _ _) hcompose (data_memset m)

/-! ## Bounds -/

/-- An `snprintf` starts inside the buffer and is told exactly what is left of it, and a printer is
handed the buffer with a NUL in it. -/
def LogCall.Safe : LogCall → Prop
  | .snprintf offset size => 0 ≤ offset ∧ offset < bufferSize ∧ (size : Int) = bufferSize - offset
  | .print _ buffer => buffer.length = bufferSize ∧ 0 ∈ buffer

/-- An access to the buffer of a message is inside of it, and a call is safe. -/
def Safe (e : Event LogCall Block) : Prop :=
  e.ReadsBelow .buffer bufferSize ∧ e.WritesBelow .buffer bufferSize ∧ ∀ k ∈ e.toCall, k.Safe

theorem Composes.safe {e : Event LogCall Block} (h : Composes e) : Safe e := by
  refine ⟨h.1, h.2.1, fun k hk => ?_⟩
  obtain ⟨offset, size, rfl, hbounds⟩ := h.2.2 k hk
  exact hbounds

theorem MessageLog.safe {emits : Prop} {sink : Sink} {z : List UInt8} {l : Log LogCall Block}
    (h : MessageLog emits sink z l) : ∀ e ∈ l, Safe e := by
  cases h with
  | printed hemits hcomposes hlength hnul htext =>
      refine List.forall_mem_append.mpr ⟨fun e he => (hcomposes e he).safe, ?_⟩
      simpa [Safe, LogCall.Safe] using ⟨hlength, hnul⟩
  | silent hemits hcomposes => exact fun e he => (hcomposes e he).safe

/-- Whatever the two functions are called with, they stay inside the buffers of their messages, and
what they print ends there. The lengths of the texts are not bounded. -/
theorem messages_safe :
    (∀ level tag format args,
        ∀ e ∈ (((txeiLog level tag format args).log p s).run m).log, Safe e) ∧
      ∀ level tag label func line buf len,
        ∀ e ∈ (((txeiLogBuf level tag label func line buf len).log p s).run m).log, Safe e :=
  ⟨fun level tag format args => ((txeiLog level tag format args).log_spec p s m).safe,
    fun level tag label func line buf len =>
      ((txeiLogBuf level tag label func line buf len).log_spec p s m).safe⟩

end Messages

end Txei.TxeiLog

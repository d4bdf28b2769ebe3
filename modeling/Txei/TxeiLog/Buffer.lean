import Txei.Machine.Triple
import Txei.TxeiLog.Message

/-!
# Text in the message buffer

The buffer of a message starts with a text. `append` puts more behind it, or cuts it and leaves the
function, and `newline_terminate` ends its last line. The triples here say which text there is
before and after each of them, and that they stay inside the buffer.
-/

namespace Txei.TxeiLog

open Machine Machine.Prog

/-! ## Events -/

/-- An access to the buffer is inside of it, and a call is an `snprintf` that is told how much of
the buffer is left. -/
def Composes (e : Event LogCall Block) : Prop :=
  e.ReadsBelow .buffer bufferSize ∧ e.WritesBelow .buffer bufferSize ∧
    ∀ k ∈ e.toCall, ∃ offset size, k = .snprintf offset size ∧
      0 ≤ offset ∧ offset < bufferSize ∧ (size : Int) = bufferSize - offset

theorem composes_snprintf {offset size : Nat} (h : offset + size = bufferSize) (hsize : 0 < size) :
    Composes (.call (.snprintf offset size)) := by
  refine ⟨by simp, by simp, fun k hk => ?_⟩
  obtain rfl := Option.some.inj hk
  refine ⟨_, _, rfl, ?_⟩
  simp only [bufferSize] at h ⊢
  omega

theorem composes_write {o n : Nat} (h : o + n ≤ bufferSize) : Composes (.write .buffer o n) :=
  ⟨by simp, by simpa using .inr h, by simp⟩

theorem composes_read {b : Block} {o n : Nat} (h : o + n ≤ bufferSize) :
    Composes (.read b o n) :=
  ⟨by simpa using fun _ => .inr h, by simp, by simp⟩

theorem composes_read_data (n o k : Nat) : Composes (.read (.data n) o k) :=
  ⟨by simp, by simp, by simp⟩

/-- `newline_terminate` stays inside the buffer. -/
theorem within_newlineTerminate_buffer (totalWritten : Nat) :
    Within Composes (newlineTerminate .buffer bufferSize totalWritten :
      Prog LogCall Block Leave Int) :=
  within_newlineTerminate (by decide) (fun _ hi => composes_read hi) fun _ hi => composes_write hi

/-! ## Texts -/

/-- The bytes to be dumped stand in the other blocks, and the buffer starts with the text `u`. -/
def Holds (data : Nat → Nat → UInt8) (u : List UInt8) (m : Mem Block) : Prop :=
  m.Starts .buffer u ∧ ∀ n, m (.data n) = data n

variable {data : Nat → Nat → UInt8} {u x : List UInt8} {m : Mem Block}

theorem Holds.left {v : List UInt8} (h : Holds data (u ++ v) m) : Holds data u m :=
  ⟨h.1.left, h.2⟩

/-- What is put at an offset replaces the rest of the text. -/
theorem Holds.putBytes (h : Holds data u m) {o : Nat} (ho : o ≤ u.length) (v : List UInt8) :
    Holds data (u.take o ++ v) (m.putBytes .buffer o v) := by
  refine ⟨h.1.putBytes ho v, fun n => ?_⟩
  rw [← h.2 n]
  exact Mem.write_other m o v.length _ nofun

theorem length_tooLong : tooLong.length = 22 := by decide

/-- The text `x` of an `snprintf` that does not fail. -/
def Prints (text : Option (List UInt8)) (x : List UInt8) : Prop := text = some x ∧ x.length < 2 ^ 31

theorem run_snprintf_of_prints {text : Option (List UInt8)} (h : Prints text x) {size : Nat}
    (hsize : 0 < size) (offset : Nat) (m : Mem Block) :
    (snprintf offset size text).run m =
      ⟨.ok x.length, m.putBytes .buffer offset (x.take (size - 1) ++ [0]),
        [.call (.snprintf offset size),
          .write .buffer offset (x.take (size - 1) ++ [0]).length]⟩ := by
  obtain ⟨rfl, hlength⟩ := h
  unfold snprintf
  rw [run_bind, run_call, Run.andThen_ok]
  dsimp only
  rw [if_neg (Nat.not_le_of_lt hlength), onlyIf, if_pos hsize, Int.toNat_natCast]
  rfl

theorem run_snprintf_of_fails {text : Option (List UInt8)} (h : ¬ ∃ x, Prints text x)
    (offset : Int) (size : Nat) (m : Mem Block) :
    (snprintf offset size text).run m = ⟨.ok (-1), m, [.call (.snprintf offset size)]⟩ := by
  unfold snprintf
  rw [run_bind, run_call, Run.andThen_ok]
  cases text with
  | none => rfl
  | some x =>
      dsimp only
      rw [if_pos (Nat.le_of_not_lt fun hlt => h ⟨x, rfl, hlt⟩)]
      rfl

/-- An `snprintf` at an offset in the text, with all the room behind it, puts there what it
prints. -/
theorem snprintf_triple {F : Leave → Mem Block → Prop} {o size : Nat} (ho : o ≤ u.length)
    (hroom : o + size = bufferSize) (hsize : 0 < size) (text : Option (List UInt8)) :
    Triple Composes F (Holds data u) (snprintf o size text) fun lastWritten m =>
      (∃ x, Prints text x ∧ lastWritten = x.length ∧
        Holds data (u.take o ++ (x.take (size - 1) ++ [0])) m) ∨
      (¬ ∃ x, Prints text x) ∧ lastWritten = -1 := by
  intro m hm
  have hcall := composes_snprintf hroom hsize
  by_cases hprints : ∃ x, Prints text x
  · obtain ⟨x, hx⟩ := hprints
    have hlength : (x.take (size - 1) ++ [0]).length ≤ size := by
      simp only [List.length_append, List.length_take, List.length_singleton]
      omega
    rw [run_snprintf_of_prints hx hsize]
    refine ⟨?_, .inl ⟨x, hx, rfl, hm.putBytes ho _⟩⟩
    exact List.forall_mem_cons.mpr ⟨hcall, by simpa using composes_write (by omega)⟩
  · rw [run_snprintf_of_fails hprints]
    exact ⟨by simpa using hcall, .inr ⟨hprints, rfl⟩⟩

/-- The text `t` does not fit, and the buffer holds its beginning and the note. -/
def Cut (data : Nat → Nat → UInt8) (t : List UInt8) (m : Mem Block) : Prop :=
  bufferSize ≤ t.length ∧ Holds data (t.take 999 ++ tooLong ++ [0]) m

/-- How `append` leaves a function: there is nothing to print, or the text is cut. -/
def LeftAppend (data : Nat → Nat → UInt8) (u : List UInt8) (text : Option (List UInt8)) :
    Leave → Mem Block → Prop
  | .abort, _ => ¬ ∃ x, Prints text x
  | .printMessage, m => ∃ x, Prints text x ∧ Cut data (u ++ x) m

/-- What is printed behind a text is cut where the text in the buffer is. -/
theorem append_take_room (hu : u.length < bufferSize) (x : List UInt8) :
    u ++ x.take (1024 - u.length - 1) = (u ++ x).take 1023 := by
  rw [List.take_append, List.take_of_length_le (Nat.le_of_lt_succ hu), Nat.sub_right_comm]

theorem append_triple (hu : u.length < bufferSize) (text : Option (List UInt8)) :
    Triple Composes (LeftAppend data u text) (Holds data u) (append u.length text)
      fun totalWritten m => ∃ x, Prints text x ∧ totalWritten = (u ++ x).length ∧
        (u ++ x).length < bufferSize ∧ Holds data (u ++ x ++ [0]) m := by
  have hroom : (((1024 : Nat) - u.length : Int) % 2 ^ 64).toNat = 1024 - u.length := by
    simp only [bufferSize] at hu
    omega
  unfold append
  rw [hroom]
  refine (snprintf_triple (Nat.le_refl _) (Nat.add_sub_of_le hu.le) (Nat.sub_pos_of_lt hu)
    text).bind fun lastWritten => ?_
  have hchecked : Triple Composes (LeftAppend data u text)
      (fun m => (∃ x, Prints text x ∧ lastWritten = x.length ∧
        Holds data (u.take u.length ++ (x.take (1024 - u.length - 1) ++ [0])) m) ∨
        (¬ ∃ x, Prints text x) ∧ lastWritten = -1)
      (exitIf (lastWritten < 0) .abort) fun _ m => ∃ x, Prints text x ∧ lastWritten = x.length ∧
        Holds data ((u ++ x).take 1023 ++ [0]) m := by
    refine triple_exitIf (fun hneg m hm => ?_) fun hpos m hm => ?_
    · obtain ⟨x, -, rfl, -⟩ | hfails := hm
      · exact absurd hneg (by omega)
      · exact hfails.1
    · obtain ⟨x, hx, hlast, hholds⟩ | hfails := hm
      · refine ⟨x, hx, hlast, ?_⟩
        rwa [List.take_length, ← List.append_assoc, append_take_room hu] at hholds
      · exact absurd hfails.2 (by omega)
  refine hchecked.bind fun _ => triple_exists fun x => triple_and fun hx =>
    triple_and fun hlast => ?_
  subst hlast
  have htotal : (u.length : Int) + x.length = (u ++ x).length := by simp
  dsimp only
  rw [htotal]
  refine triple_ite (fun hlong => ?_) fun hfits => triple_pure fun m hm => ?_
  · have hlong : 1024 ≤ (u ++ x).length := Int.ofNat_le.mp hlong
    have hlength : ((u ++ x).take 1023).length = 1023 :=
      List.length_take_of_le (Nat.le_of_succ_le hlong)
    have hcut : ((u ++ x).take 1023 ++ [0]).take 999 = (u ++ x).take 999 := by
      rw [List.take_append_of_le_length (by rw [hlength]; decide), List.take_take]
      rfl
    refine (snprintf_triple (by rw [List.length_append, hlength]; decide)
      (show 999 + 25 = bufferSize from rfl) (by decide) (some tooLong)).bind fun _ =>
        triple_exit fun m hm => ?_
    obtain ⟨note, ⟨hnote, -⟩, -, hholds⟩ | hfails := hm
    · obtain rfl := Option.some.inj hnote
      rw [hcut, ← List.append_assoc] at hholds
      exact ⟨x, hx, hlong, hholds⟩
    · exact absurd ⟨tooLong, rfl, by decide⟩ hfails.1
  · have hfits : (u ++ x).length < 1024 := Nat.lt_of_not_le fun hle => hfits (Int.ofNat_le.mpr hle)
    rw [List.take_of_length_le (Nat.le_of_lt_succ hfits)] at hm
    exact ⟨x, hx, rfl, hfits, hm⟩

theorem Cut.append {t : List UInt8} (h : Cut data t m) (v : List UInt8) :
    Cut data (t ++ v) m := by
  obtain ⟨hlong, hholds⟩ := h
  refine ⟨Nat.le_trans hlong (by simp), ?_⟩
  rwa [List.take_append_of_le_length (Nat.le_trans (by decide) hlong)]

/-! ## The end of a line -/

/-- What `newline_terminate` keeps of a text in the buffer. -/
def kept (t : List UInt8) : List UInt8 := chop (t.take 1022)

/-- What it leaves: where it keeps nothing, the text is as it was. -/
def ended (t : List UInt8) : List UInt8 := if kept t = [] then t else kept t ++ [newline]

theorem kept_isPrefix (t : List UInt8) : kept t <+: t :=
  (chop_isPrefix _).trans (List.take_prefix _ _)

theorem length_kept_le (t : List UInt8) : (kept t).length ≤ 1022 :=
  (length_chop_le _).trans (List.length_take_le _ _)

theorem length_ended_lt {t : List UInt8} (ht : t.length < bufferSize) :
    (ended t).length < bufferSize := by
  have hkept := length_kept_le t
  unfold ended
  split
  · exact ht
  · rw [List.length_append, List.length_singleton]
    exact Nat.lt_of_le_of_lt (Nat.add_le_add_right hkept 1) (by decide)

theorem newline_triple {F : Leave → Mem Block → Prop} (t : List UInt8) :
    Triple Composes F (Holds data (t ++ [0])) (newlineTerminate .buffer bufferSize t.length)
      fun totalWritten m => totalWritten = ((kept t).length + 1 : Nat) ∧
        Holds data (ended t ++ [0]) m := by
  refine (within_newlineTerminate_buffer t.length).triple fun m hm => ?_
  obtain ⟨hresult, hmem⟩ := run_newlineTerminate (κ := LogCall) (ε := Leave)
    (show 3 ≤ bufferSize by decide) rfl hm.1
  refine (Run.ends_of_ok hresult).mpr ⟨rfl, ?_⟩
  rw [hmem]
  unfold ended
  show Holds data _ (if kept t = [] then m else m.putBytes .buffer (kept t).length [newline, 0])
  by_cases hnone : kept t = []
  · rw [if_pos hnone, if_pos hnone]
    exact hm
  · rw [if_neg hnone, if_neg hnone]
    have hput := hm.left.putBytes (kept_isPrefix t).length_le [newline, 0]
    rwa [← List.prefix_iff_eq_take.mp (kept_isPrefix t), List.append_cons] at hput

/-- Where a line ends, with which the dump begins. A line of which nothing is kept is its first
byte. -/
def headLine (t : List UInt8) : List UInt8 := (ended t ++ [0]).take ((kept t).length + 1)

theorem headLine_of_kept {t : List UInt8} (h : kept t ≠ []) : headLine t = kept t ++ [newline] := by
  unfold headLine ended
  rw [if_neg h]
  exact List.take_left' (by simp)

theorem headLine_of_none {t : List UInt8} (h : kept t = []) : headLine t = (t ++ [0]).take 1 := by
  unfold headLine ended
  rw [if_pos h, h]
  rfl

theorem length_headLine (t : List UInt8) : (headLine t).length = (kept t).length + 1 := by
  by_cases h : kept t = []
  · rw [headLine_of_none h, h]
    simp
  · rw [headLine_of_kept h]
    simp

theorem kept_kept (t : List UInt8) : kept (kept t) = kept t := by
  show chop ((kept t).take 1022) = kept t
  rw [List.take_of_length_le (length_kept_le t)]
  exact List.rdropWhile_idempotent _ _

/-- A newline is not kept, and makes no room for anything else. -/
theorem kept_snoc_newline {t : List UInt8} (ht : t.length ≤ 1022) :
    kept (t ++ [newline]) = kept t := by
  unfold kept
  by_cases hfits : t.length < 1022
  · rw [List.take_of_length_le (by rw [List.length_append]; exact hfits), chop_snoc,
      if_pos (.inr rfl), List.take_of_length_le ht]
  · rw [List.take_append_of_le_length (Nat.le_of_not_lt hfits)]

/-- Where nothing is kept of a line, nothing is found in its first two bytes. Behind an empty line
there can be something, and what is put there is behind the NUL. -/
theorem holds_scanned {t : List UInt8} (hnone : kept t = []) (hm : Holds data (t ++ [0]) m) :
    Holds data (t ++ [0])
      (if chop (m.bytes .buffer 2) = [] then m
        else m.putBytes .buffer (chop (m.bytes .buffer 2)).length [newline, 0]) := by
  by_cases hend : chop (m.bytes .buffer 2) = []
  · rw [if_pos hend]
    exact hm
  · rw [if_neg hend]
    obtain rfl : t = [] := by
      by_contra hne
      have htwo : 2 ≤ (t ++ [0]).length := by
        simpa using Nat.succ_le_of_lt (List.length_pos_iff.mpr hne)
      refine hend ((chop_eq_nil_iff _).mpr fun c hc => ?_)
      rw [hm.1.bytes_eq htwo, List.take_append] at hc
      obtain hc | hc := List.mem_append.mp hc
      · exact (chop_eq_nil_iff _).mp hnone c
          ((List.take_prefix_take_left (by decide : 2 ≤ 1022)).subset hc)
      · exact .inl (List.mem_singleton.mp (List.mem_of_mem_take hc))
    refine ⟨hm.1.putBytes_behind (List.length_pos_iff.mpr hend) _, fun n => ?_⟩
    rw [← hm.2 n]
    exact Mem.write_other m _ _ _ nofun

theorem newline_again_triple {F : Leave → Mem Block → Prop} (t : List UInt8) :
    Triple Composes F (Holds data (ended t ++ [0]))
      (newlineTerminate .buffer bufferSize ((kept t).length + 1 : Nat))
      fun _ m => Holds data (ended t ++ [0]) m := by
  by_cases hnone : kept t = []
  · rw [hnone, ended, if_pos hnone]
    refine (within_newlineTerminate_buffer 1).triple fun m hm => ?_
    obtain ⟨hresult, hmem⟩ := run_scanBack (κ := LogCall) (ε := Leave) Block.buffer 2 m
    have hrun : (newlineTerminate .buffer bufferSize ((1 : Nat) : Int) :
        Prog LogCall Block Leave Int) = scanBack .buffer 2 := newlineTerminate_eq (by decide) _
    show Run.Ends _ _ (Prog.run (newlineTerminate _ _ ((1 : Nat) : Int)) m)
    rw [hrun]
    refine (Run.ends_of_ok hresult).mpr ?_
    rw [hmem]
    exact holds_scanned hnone hm
  · have hline : ended t = kept t ++ [newline] := if_neg hnone
    have hlength : (kept t).length + 1 = (ended t).length := by
      rw [hline]
      simp
    have hagain : ended (ended t) = ended t := by
      rw [hline, ended, kept_snoc_newline (length_kept_le t), kept_kept, if_neg hnone]
    rw [hlength]
    refine (newline_triple (ended t)).post fun _ m hm => ?_
    rw [hagain] at hm
    exact hm.2

end Txei.TxeiLog

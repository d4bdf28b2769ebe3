import Txei.TxeiLog.Compose

/-!
# Complete dumps

A dump by `txei_log_buf` is complete when the text it prints ends in the note of a message that has
been cut, or has the whole label line with rows behind it that decode to all the bytes.
`complete_iff` says for which texts and bytes it is: a text of exactly 1023 bytes passes every test
of the loop, and the `newline_terminate` behind it then replaces the last digit of a row that is not
full; and a line of which nothing is kept can begin with the NUL that ends the whole message.
-/

namespace Txei.TxeiLog

open Machine Machine.Prog

/-- The printed text `p` ends in the note, or is the line `t`, if that fits, with its newlines,
whatever their number, and rows that decode to `bytes`. -/
def Complete (t bytes p : List UInt8) : Prop :=
  tooLong <:+ p ∨
    t.length < bufferSize ∧ ∃ n text, 0 < n ∧
      p = chop t ++ List.replicate n newline ++ text ∧ decodeRows text = some bytes

/-- The length of a label line and the dump behind it. -/
def dumpLength (t bytes : List UInt8) : Nat :=
  (kept t).length + 1 + 2 * bytes.length + bytes.length / 8

/-- What is printed of the line `t`, should there be no NUL in it. -/
def lead (t bytes : List UInt8) : List UInt8 :=
  if bufferSize ≤ t.length then t.take 999
  else if bufferSize ≤ dumpLength t bytes then (headLine t).take 999
  else headLine t

/-- Nothing is lost, or the note says so. A NUL in the line ends the message, so the note has to
stand before it; and where everything fits, there is no 1023rd byte of the line to be lost, unless
what is left of it ends like the note, and no digit in the place of the last newline. -/
def Lossless (t bytes : List UInt8) : Prop :=
  if 0 ∈ lead t bytes then tooLong <:+ cString (lead t bytes)
  else t.length < bufferSize → dumpLength t bytes < bufferSize →
    (isEnd (t.getD 1022 0) ∨ bytes = [] ∧ tooLong <:+ headLine t) ∧
      (dumpLength t bytes = 1023 → bytes.length % 8 = 0)

/-! ## Lines -/

section Lines

variable {t bytes : List UInt8}

theorem chop_prefix_chop_append (t u : List UInt8) : chop t <+: chop (t ++ u) := by
  induction u using List.reverseRecOn with
  | nil => simp
  | append_singleton u c ih =>
      rw [← List.append_assoc, chop_snoc]
      split
      · exact ih
      · exact (chop_isPrefix t).trans (by simp)

theorem kept_prefix_chop (t : List UInt8) : kept t <+: chop t := by
  have h := chop_prefix_chop_append (t.take 1022) (t.drop 1022)
  rwa [List.take_append_drop] at h

/-- A line in the buffer is all before the 1023rd byte, or ends with it. -/
theorem line_cases (ht : t.length < bufferSize) :
    (t.take 1022 = t ∧ t.getD 1022 0 = 0) ∨
      t.length = 1023 ∧ t.take 1022 ++ [t.getD 1022 0] = t := by
  simp only [bufferSize] at ht
  by_cases hshort : t.length ≤ 1022
  · refine .inl ⟨List.take_of_length_le hshort, ?_⟩
    rw [List.getD_eq_getElem?_getD, List.getElem?_eq_none hshort, Option.getD_none]
  · have hlong : 1022 < t.length := Nat.lt_of_not_le hshort
    refine .inr ⟨by omega, ?_⟩
    rw [List.getD_eq_getElem?_getD, List.getElem?_eq_getElem hlong, Option.getD_some,
      List.take_append_getElem hlong]
    exact List.take_of_length_le (Nat.le_of_lt_succ ht)

/-- Unless a byte of it is lost, what is kept of a line is all of it but its end. -/
theorem chop_eq_kept (ht : t.length < bufferSize) (hend : isEnd (t.getD 1022 0)) :
    chop t = kept t := by
  obtain ⟨hwhole, -⟩ | ⟨-, hlast⟩ := line_cases ht
  · rw [kept, hwhole]
  · have hchop := chop_snoc (t.take 1022) (t.getD 1022 0)
    rwa [hlast, if_pos (by simpa [isEnd] using hend)] at hchop

theorem chop_eq_self (ht : t.length < bufferSize) (hend : ¬ isEnd (t.getD 1022 0)) :
    chop t = t ∧ t.length = 1023 := by
  obtain ⟨-, hzero⟩ | ⟨hlength, hlast⟩ := line_cases ht
  · rw [hzero] at hend
    exact absurd (by decide) hend
  · have hchop := chop_snoc (t.take 1022) (t.getD 1022 0)
    rw [hlast, if_neg (by simpa [isEnd] using hend)] at hchop
    exact ⟨hchop, hlength⟩

theorem length_headLine_append_dump (t bytes : List UInt8) :
    (headLine t ++ dump 0 bytes).length = dumpLength t bytes := by
  rw [List.length_append, length_headLine, length_dump]
  simp only [dumpLength, Nat.add_assoc]

/-- Without a NUL in it, a line is what is kept of it and a newline. -/
theorem headLine_of_noNul (h : 0 ∉ headLine t) : headLine t = kept t ++ [newline] := by
  by_cases hnone : kept t = []
  · rw [headLine_of_none hnone] at h ⊢
    cases t with
    | nil => exact absurd (List.mem_singleton_self 0) h
    | cons c t =>
        have hc : c = 0 ∨ c = newline := (chop_eq_nil_iff _).mp hnone c List.mem_cons_self
        rw [hnone, hc.resolve_left fun hzero => h (hzero ▸ List.mem_singleton_self c)]
        rfl
  · exact headLine_of_kept hnone

/-- A text that a NUL in its line ends is not complete. -/
theorem not_line_of_zero_mem (h : 0 ∈ headLine t) {n : Nat} (hn : 0 < n) {text : List UInt8} :
    cString (headLine t) ≠ chop t ++ List.replicate n newline ++ text := by
  intro heq
  have hnoNul : 0 ∉ chop t ++ List.replicate n newline ++ text := heq ▸ zero_notMem_cString _
  by_cases hnone : kept t = []
  · obtain ⟨c, hc⟩ := List.length_eq_one_iff.mp ((length_headLine t).trans (by rw [hnone]; rfl))
    rw [hc] at h heq
    rw [← List.mem_singleton.mp h] at heq
    have hlength := congrArg List.length heq
    simp only [cString, List.length_append, List.length_replicate] at hlength
    simp at hlength
    omega
  · rw [headLine_of_kept hnone] at h
    have hkept : 0 ∈ kept t := (List.mem_append.mp h).resolve_right (by decide)
    refine hnoNul (List.mem_append_left _ (List.mem_append_left _ ?_))
    exact (kept_prefix_chop t).subset hkept

/-! ## Rows -/

/-- The character is a hexadecimal digit. -/
def IsDigit (c : UInt8) : Prop := hexValue c ≠ none

theorem isDigit_hexDigit {n : Nat} (hn : n < 16) : IsDigit (hexDigit n) := by
  unfold IsDigit
  rw [hexValue_hexDigit hn]
  exact Option.some_ne_none n

theorem IsDigit.not_end {c : UInt8} (h : IsDigit c) : ¬ (c = 0 ∨ c = newline) := by
  intro hend
  obtain rfl | rfl := hend
  · exact h hexValue_zero
  · exact h hexValue_newline

/-- A dump that is not empty ends in two digits, and in a newline where its last row is full. -/
theorem dump_cases (hne : bytes ≠ []) :
    ∃ text high low, IsDigit high ∧ IsDigit low ∧ rows bytes = text ++ [high, low, newline] ∧
      dump 0 bytes =
        text ++ if bytes.length % 8 = 0 then [high, low, newline] else [high, low] := by
  obtain h | ⟨init, c, rfl⟩ := List.eq_nil_or_concat bytes
  · exact absurd h hne
  · refine ⟨dump 0 init, hexDigit (c.toNat / 16), hexDigit (c.toNat % 16),
      isDigit_hexDigit (high_lt c), isDigit_hexDigit (low_lt c), ?_⟩
    rw [List.concat_eq_append, rows, dump_append, List.length_append, List.length_singleton]
    simp only [dump, hex, Nat.zero_add, List.append_nil]
    by_cases hfull : init.length % 8 = 7
    · rw [if_pos hfull, if_pos (by omega), if_pos (by omega)]
      simp
    · rw [if_neg hfull, if_neg (by omega), if_neg (by omega)]
      simp

/-- Behind a digit `newline_terminate` puts its newline. -/
theorem ended_digit {text : List UInt8} {c : UInt8} (hc : IsDigit c)
    (hlength : text.length < 1022) :
    kept (text ++ [c]) = text ++ [c] ∧ ended (text ++ [c]) = text ++ [c] ++ [newline] := by
  have hkept : kept (text ++ [c]) = text ++ [c] := by
    rw [kept, List.take_of_length_le (by rw [List.length_append]; exact hlength), chop_snoc,
      if_neg hc.not_end]
  refine ⟨hkept, ?_⟩
  rw [ended, hkept, if_neg (by simp)]

theorem not_tooLong_suffix {text : List UInt8} {c : UInt8} (hc : IsDigit c) :
    ¬ tooLong <:+ text ++ [c] ++ [newline] := by
  intro hsuffix
  obtain ⟨q, hq⟩ := hsuffix
  have hnote : tooLong = ascii "...(message too long" ++ [41, newline] := by decide
  rw [hnote, ← List.append_assoc, List.append_assoc text, List.singleton_append] at hq
  have hlast := (List.append_inj' hq rfl).2
  obtain rfl : (41 : UInt8) = c := (List.cons.inj hlast).1
  exact hc (by decide)

theorem zero_notMem_rows (bytes : List UInt8) : 0 ∉ rows bytes := by
  intro hzero
  obtain hdump | hlast := List.mem_append.mp hzero
  · exact zero_notMem_dump 0 bytes hdump
  · split at hlast
    · cases hlast
    · exact absurd (List.mem_singleton.mp hlast) (by decide)

/-- Where all digits are before the last two bytes of the buffer, all of them are printed. -/
theorem shown_dump (hne : bytes ≠ []) (hfits : dumpLength t bytes < bufferSize)
    (hroom : dumpLength t bytes = 1023 → bytes.length % 8 = 0) :
    shown (headLine t ++ dump 0 bytes) = headLine t ++ rows bytes := by
  obtain ⟨text, high, low, -, hlow, hrows, hdump⟩ := dump_cases hne
  have hlength := length_headLine_append_dump t bytes
  rw [shown_of_fits (hlength ▸ hfits), hrows]
  rw [hdump] at hlength ⊢
  have hsplit : headLine t ++ (text ++ [high, low, newline]) =
      headLine t ++ text ++ [high] ++ [low] ++ [newline] := by simp
  by_cases hfull : bytes.length % 8 = 0
  · rw [if_pos hfull, hsplit] at hlength ⊢
    have hshort : (headLine t ++ text ++ [high]).length < 1022 := by
      simp only [List.length_append, List.length_singleton] at hlength ⊢
      simp only [bufferSize] at hfits
      omega
    obtain ⟨hkept, hended⟩ := ended_digit hlow hshort
    rw [ended, kept_snoc_newline (by rw [List.length_append]; exact hshort), hkept,
      if_neg (by simp)]
  · have hsplit' : headLine t ++ (text ++ [high, low]) = headLine t ++ text ++ [high] ++ [low] := by
      simp
    rw [if_neg hfull, hsplit'] at hlength ⊢
    have hshort : (headLine t ++ text ++ [high]).length < 1022 := by
      have hlt : dumpLength t bytes ≠ 1023 := fun heq => hfull (hroom heq)
      simp only [List.length_append, List.length_singleton] at hlength ⊢
      simp only [bufferSize] at hfits
      omega
    rw [(ended_digit hlow hshort).2, hsplit]

/-- With a digit in the place of the last newline, that digit is replaced. -/
theorem shown_dump_cut (hne : bytes ≠ []) (hlong : dumpLength t bytes = 1023)
    (hopen : bytes.length % 8 ≠ 0) :
    ∃ text high, IsDigit high ∧ 0 ∉ text ∧
      shown (headLine t ++ dump 0 bytes) = headLine t ++ text ++ [high] ++ [newline] ∧
      (shown (headLine t ++ dump 0 bytes)).length = 1023 := by
  obtain ⟨text, high, low, hhigh, -, -, hdump⟩ := dump_cases hne
  have hlength := length_headLine_append_dump t bytes
  have hzero := zero_notMem_dump 0 bytes
  rw [if_neg hopen] at hdump
  rw [hlong] at hlength
  have hshown : shown (headLine t ++ dump 0 bytes) = headLine t ++ text ++ [high] ++ [newline] := by
    have hsplit : headLine t ++ (text ++ [high, low]) = headLine t ++ text ++ [high] ++ [low] := by
      simp
    rw [shown_of_fits (by rw [hlength]; decide)]
    rw [hdump, hsplit] at hlength ⊢
    have hlast : (headLine t ++ text ++ [high]).length = 1022 := by
      rw [List.length_append] at hlength
      exact Nat.succ.inj hlength
    have hkept : kept (headLine t ++ text ++ [high] ++ [low]) = headLine t ++ text ++ [high] := by
      rw [kept, ← hlast, List.take_left, chop_snoc, if_neg hhigh.not_end]
    rw [ended, hkept, if_neg (by simp)]
  refine ⟨text, high, hhigh, fun h => hzero (hdump ▸ List.mem_append_left _ h), hshown, ?_⟩
  rw [hshown]
  rw [hdump] at hlength
  simpa using hlength

/-! ## When a dump is complete -/

/-- The note is not printed behind a NUL. -/
theorem cString_cut (u : List UInt8) :
    cString (u ++ tooLong) = if 0 ∈ u then cString u else u ++ tooLong := by
  by_cases h : 0 ∈ u
  · rw [if_pos h, cString_append h]
  · have hnote : 0 ∉ tooLong := by decide
    rw [if_neg h, cString_eq_self fun hmem => (List.mem_append.mp hmem).elim h hnote]

/-- A NUL in the line ends the message. -/
theorem complete_iff_of_zero_mem (h : 0 ∈ headLine t) :
    Complete t bytes (cString (headLine t)) ↔ tooLong <:+ cString (headLine t) := by
  refine or_iff_left fun hline => ?_
  obtain ⟨-, n, text, hn, heq, -⟩ := hline
  exact not_line_of_zero_mem h hn heq

/-- A lost byte of the line is missed. -/
theorem isEnd_of_line {p text : List UInt8} (hp : p.length < bufferSize)
    (ht : t.length < bufferSize) {n : Nat} (hn : 0 < n)
    (heq : p = chop t ++ List.replicate n newline ++ text) :
    isEnd (t.getD 1022 0) := by
  by_contra hend
  obtain ⟨hchop, hlength⟩ := chop_eq_self ht hend
  have hlong := congrArg List.length heq
  rw [hchop] at hlong
  simp only [List.length_append, List.length_replicate, bufferSize] at hlong hp
  omega

/-- A line of which nothing is kept has no room for the note. -/
theorem not_tooLong_of_none (ht : t.length < bufferSize) (hnone : kept t = []) :
    ¬ tooLong <:+ cString t := by
  intro hsuffix
  obtain ⟨q, hq⟩ := hsuffix
  have hprefix : cString t <+: t := List.takeWhile_prefix _
  have hlength := congrArg List.length hq
  have hle := hprefix.length_le
  simp only [List.length_append, length_tooLong, bufferSize] at hlength ht
  have hdot : q ++ [46] <+: t.take 1022 := by
    refine List.prefix_take_iff.mpr ⟨List.IsPrefix.trans ?_ hprefix, by simp; omega⟩
    rw [← hq]
    exact (List.prefix_append_right_inj q).mpr ⟨tooLong.tail, by decide⟩
  have hend := (chop_eq_nil_iff _).mp hnone 46 (hdot.subset (by simp))
  exact absurd hend (by decide)

/-- Before its first NUL such a line has newlines alone. -/
theorem cString_of_none (hends : ∀ c ∈ t, c = 0 ∨ c = newline) :
    cString t = List.replicate (cString t).length newline := by
  refine List.eq_replicate_of_mem fun c hc => ?_
  have hmem : c ∈ t := (List.takeWhile_prefix _).subset hc
  exact (hends c hmem).resolve_left (ne_of_mem_of_not_mem hc (zero_notMem_cString t))

theorem length_cString_pos (hnoNul : 0 ∉ headLine t) (hnone : kept t = []) :
    0 < (cString t).length := by
  rw [headLine_of_none hnone] at hnoNul
  cases t with
  | nil => exact absurd (List.mem_singleton_self 0) hnoNul
  | cons c t =>
      have hc : c ≠ 0 := fun hzero => hnoNul (hzero ▸ List.mem_singleton_self c)
      simp [cString, hc]

section Fits

variable (ht : t.length < bufferSize) (hnoNul : 0 ∉ headLine t)

include ht hnoNul

/-- With all the digits printed, nothing but a byte of the line can be lost. -/
theorem complete_whole_iff (hne : bytes ≠ []) (hfits : dumpLength t bytes < bufferSize)
    (hroom : dumpLength t bytes = 1023 → bytes.length % 8 = 0) :
    Complete t bytes (cString (shown (headLine t ++ dump 0 bytes))) ↔ isEnd (t.getD 1022 0) := by
  have hlt := length_shown_lt (headLine t ++ dump 0 bytes)
  have hzero : 0 ∉ headLine t ++ rows bytes :=
    fun h => (List.mem_append.mp h).elim hnoNul (zero_notMem_rows bytes)
  rw [shown_dump hne hfits hroom] at hlt ⊢
  rw [cString_eq_self hzero]
  constructor
  · intro hcomplete
    obtain hnote | ⟨-, n, text, hn, heq, -⟩ := hcomplete
    · obtain ⟨text, high, low, -, hlow, hrows, -⟩ := dump_cases hne
      have hsplit : headLine t ++ rows bytes =
          headLine t ++ text ++ [high] ++ [low] ++ [newline] := by
        rw [hrows]
        simp
      rw [hsplit] at hnote
      exact absurd hnote (not_tooLong_suffix hlow)
    · exact isEnd_of_line hlt ht hn heq
  · intro hend
    refine .inr ⟨ht, 1, rows bytes, Nat.one_pos, ?_, decodeRows_rows bytes⟩
    rw [chop_eq_kept ht hend, headLine_of_noNul hnoNul]
    rfl

omit ht in
/-- With a digit replaced, the rows that are left have no room for two digits of every byte. -/
theorem not_complete_of_cut (hne : bytes ≠ []) (hlong : dumpLength t bytes = 1023)
    (hopen : bytes.length % 8 ≠ 0) :
    ¬ Complete t bytes (cString (shown (headLine t ++ dump 0 bytes))) := by
  obtain ⟨text, high, hhigh, htext, hshown, hlength⟩ := shown_dump_cut hne hlong hopen
  have hzero : 0 ∉ shown (headLine t ++ dump 0 bytes) := by
    have hdigit : (0 : UInt8) ≠ high := fun h => hhigh.not_end (.inl h.symm)
    rw [hshown]
    simp [hnoNul, htext, hdigit]
  rw [cString_eq_self hzero]
  intro hcomplete
  obtain hnote | ⟨-, n, lines, hn, heq, hdecode⟩ := hcomplete
  · rw [hshown] at hnote
    exact not_tooLong_suffix hhigh hnote
  · have hlines := length_of_decodeRows hdecode
    have hkept := (kept_prefix_chop t).length_le
    have htotal := congrArg List.length heq
    rw [hlength] at htotal
    simp only [List.length_append, List.length_replicate, dumpLength] at htotal hlong
    omega

theorem complete_shown_dump_iff (hne : bytes ≠ []) (hfits : dumpLength t bytes < bufferSize) :
    Complete t bytes (cString (shown (headLine t ++ dump 0 bytes))) ↔
      isEnd (t.getD 1022 0) ∧ (dumpLength t bytes = 1023 → bytes.length % 8 = 0) := by
  by_cases hroom : dumpLength t bytes = 1023 → bytes.length % 8 = 0
  · rw [complete_whole_iff ht hnoNul hne hfits hroom]
    exact (and_iff_left hroom).symm
  · obtain ⟨hlong, hopen⟩ := Classical.not_imp.mp hroom
    exact iff_of_false (not_complete_of_cut hnoNul hne hlong hopen) fun h => hroom h.2

/-- A line without a dump. -/
theorem complete_ended_iff :
    Complete t [] (cString (ended t)) ↔ isEnd (t.getD 1022 0) ∨ tooLong <:+ headLine t := by
  have hline := headLine_of_noNul hnoNul
  by_cases hnone : kept t = []
  · have hended : ended t = t := if_pos hnone
    rw [hended, hline, hnone]
    have hnot : ¬ tooLong <:+ ([] ++ [newline] : List UInt8) :=
      fun h => absurd h.length_le (by decide)
    rw [or_iff_left hnot]
    constructor
    · intro hcomplete
      obtain hnote | ⟨-, n, text, hn, heq, -⟩ := hcomplete
      · exact absurd hnote (not_tooLong_of_none ht hnone)
      · have hprefix : cString t <+: t := List.takeWhile_prefix _
        exact isEnd_of_line (Nat.lt_of_le_of_lt hprefix.length_le ht) ht hn heq
    · intro hend
      have hchop : chop t = [] := (chop_eq_kept ht hend).trans hnone
      have hends := (chop_eq_nil_iff t).mp hchop
      refine .inr ⟨ht, (cString t).length, [], length_cString_pos hnoNul hnone, ?_, rfl⟩
      rw [hchop, List.nil_append, List.append_nil]
      exact cString_of_none hends
  · have hended : ended t = headLine t := (if_neg hnone).trans hline.symm
    rw [hended, cString_eq_self hnoNul]
    have hlength : (headLine t).length < bufferSize := hended ▸ length_ended_lt ht
    constructor
    · intro hcomplete
      obtain hnote | ⟨-, n, text, hn, heq, -⟩ := hcomplete
      · exact .inr hnote
      · exact .inl (isEnd_of_line hlength ht hn heq)
    · intro hlossless
      obtain hend | hnote := hlossless
      · refine .inr ⟨ht, 1, [], Nat.one_pos, ?_, rfl⟩
        rw [hline, chop_eq_kept ht hend]
        simp
      · exact .inl hnote

end Fits

theorem cString_ended_of_zero_mem (h : 0 ∈ headLine t) :
    cString (ended t) = cString (headLine t) := by
  have hsplit := List.take_append_drop ((kept t).length + 1) (ended t ++ [0])
  calc cString (ended t) = cString (ended t ++ [0]) := (cString_append_zero (ended t) []).symm
    _ = cString (headLine t ++ (ended t ++ [0]).drop ((kept t).length + 1)) :=
        congrArg cString hsplit.symm
    _ = cString (headLine t) := cString_append h _

/-- The dump is printed behind the line. -/
theorem headLine_prefix_shown (hne : bytes ≠ []) (hfits : dumpLength t bytes < bufferSize) :
    headLine t <+: shown (headLine t ++ dump 0 bytes) := by
  by_cases hroom : dumpLength t bytes = 1023 → bytes.length % 8 = 0
  · rw [shown_dump hne hfits hroom]
    exact List.prefix_append _ _
  · obtain ⟨hlong, hopen⟩ := Classical.not_imp.mp hroom
    obtain ⟨text, high, -, -, hshown, -⟩ := shown_dump_cut hne hlong hopen
    rw [hshown, List.append_assoc, List.append_assoc]
    exact List.prefix_append _ _

/-- A line that does not fit. -/
theorem complete_iff_of_long (hlong : bufferSize ≤ t.length) :
    Complete t bytes (cString (dumpText t bytes)) ↔ Lossless t bytes := by
  have hlead : lead t bytes = t.take 999 := if_pos hlong
  rw [dumpText_of_long hlong, shown_of_long hlong, cString_cut, Lossless, hlead]
  by_cases hzero : 0 ∈ t.take 999
  · rw [if_pos hzero, if_pos hzero]
    exact or_iff_left fun hline => absurd hline.1 (Nat.not_lt_of_le hlong)
  · rw [if_neg hzero, if_neg hzero]
    exact iff_of_true (.inl (List.suffix_append _ _)) fun hshort =>
      absurd hshort (Nat.not_lt_of_le hlong)

/-- A line that fits, and a dump behind it that does not. -/
theorem complete_iff_of_overflow (ht : t.length < bufferSize)
    (hlong : bufferSize ≤ dumpLength t bytes) :
    Complete t bytes (cString (dumpText t bytes)) ↔ Lossless t bytes := by
  have hlead : lead t bytes = (headLine t).take 999 :=
    (if_neg (Nat.not_le_of_lt ht)).trans (if_pos hlong)
  have hne : bytes ≠ [] := by
    rintro rfl
    have hkept := length_kept_le t
    simp only [dumpLength, List.length_nil, bufferSize] at hlong
    omega
  have hlength : bufferSize ≤ (headLine t ++ dump 0 bytes).length := by
    rwa [length_headLine_append_dump]
  have htake : (headLine t ++ dump 0 bytes).take 999 =
      (headLine t).take 999 ++ (dump 0 bytes).take (999 - (headLine t).length) := List.take_append
  rw [dumpText_of_fits ht hne, shown_of_long hlength, cString_cut, Lossless, hlead]
  by_cases hzero : 0 ∈ (headLine t).take 999
  · have hwhole := cString_append hzero ((headLine t).drop 999)
    rw [List.take_append_drop] at hwhole
    rw [htake, if_pos (List.mem_append_left _ hzero), cString_append hzero, if_pos hzero, ← hwhole]
    exact complete_iff_of_zero_mem (List.mem_of_mem_take hzero)
  · have hnone : 0 ∉ (headLine t ++ dump 0 bytes).take 999 := by
      rw [htake]
      exact fun h => (List.mem_append.mp h).elim hzero fun hdump =>
        zero_notMem_dump 0 bytes (List.mem_of_mem_take hdump)
    rw [if_neg hnone, if_neg hzero]
    exact iff_of_true (.inl (List.suffix_append _ _)) fun _ hfits =>
      absurd hfits (Nat.not_lt_of_le hlong)

/-- A line and a dump that fit. -/
theorem complete_iff_of_fits (ht : t.length < bufferSize)
    (hfits : dumpLength t bytes < bufferSize) :
    Complete t bytes (cString (dumpText t bytes)) ↔ Lossless t bytes := by
  have hlead : lead t bytes = headLine t :=
    (if_neg (Nat.not_le_of_lt ht)).trans (if_neg (Nat.not_le_of_lt hfits))
  rw [Lossless, hlead]
  by_cases hempty : bytes = []
  · subst hempty
    rw [dumpText_nil, shown_of_fits ht]
    by_cases hzero : 0 ∈ headLine t
    · rw [if_pos hzero, cString_ended_of_zero_mem hzero]
      exact complete_iff_of_zero_mem hzero
    · rw [if_neg hzero, complete_ended_iff ht hzero]
      constructor
      · exact fun h _ _ => ⟨h.imp_right fun hnote => ⟨rfl, hnote⟩, fun _ => rfl⟩
      · exact fun h => (h ht hfits).1.imp_right And.right
  · rw [dumpText_of_fits ht hempty]
    by_cases hzero : 0 ∈ headLine t
    · obtain ⟨v, hv⟩ := headLine_prefix_shown hempty hfits
      rw [if_pos hzero, ← hv, cString_append hzero]
      exact complete_iff_of_zero_mem hzero
    · rw [if_neg hzero, complete_shown_dump_iff ht hzero hempty hfits]
      constructor
      · exact fun h _ _ => ⟨.inl h.1, h.2⟩
      · intro h
        obtain ⟨hend, hroom⟩ := h ht hfits
        exact ⟨hend.resolve_right fun hnote => hempty hnote.1, hroom⟩

theorem complete_iff (t bytes : List UInt8) :
    Complete t bytes (cString (dumpText t bytes)) ↔ Lossless t bytes := by
  by_cases hlong : bufferSize ≤ t.length
  · exact complete_iff_of_long hlong
  · have ht := Nat.lt_of_not_le hlong
    by_cases hoverflow : bufferSize ≤ dumpLength t bytes
    · exact complete_iff_of_overflow ht hoverflow
    · exact complete_iff_of_fits ht (Nat.lt_of_not_le hoverflow)

end Lines

/-- What is said of everything that is printed is said of the one message. -/
theorem MessageLog.forall_print_iff {emits : Prop} {sink : Sink} {z : List UInt8}
    {l : Log LogCall Block} (h : MessageLog emits sink z l) {P : List UInt8 → Prop} :
    (∀ sink buffer, .call (.print sink buffer) ∈ l → P (cString buffer)) ↔
      (emits → P (cString z)) := by
  have hnone : ∀ {l : Log LogCall Block}, (∀ e ∈ l, Composes e) →
      ∀ sink buffer, .call (.print sink buffer) ∉ l := by
    intro l hl sink buffer hmem
    obtain ⟨offset, size, hk, -⟩ := (hl _ hmem).2.2 _ rfl
    cases hk
  cases h with
  | printed hemits hcomposes hlength hnul htext =>
      rw [← htext]
      constructor
      · exact fun hall _ => hall sink _ (by simp)
      · intro hP sink' buffer' hmem
        obtain hbefore | hlast := List.mem_append.mp hmem
        · exact absurd hbefore (hnone hcomposes sink' buffer')
        · simp only [List.mem_cons, List.not_mem_nil, or_false, reduceCtorEq, false_or,
            Event.call.injEq, LogCall.print.injEq] at hlast
          rw [hlast.2]
          exact hP hemits
  | silent hemits hcomposes =>
      exact iff_of_true (fun sink buffer hmem => absurd hmem (hnone hcomposes sink buffer))
        fun h => absurd h hemits

/-- A dump is complete exactly when its line and its bytes fit without loss. -/
theorem txeiLogBuf_complete_iff (p : Platform) (s : Settings) (m : Mem Block) (level : Int)
    (tag label func : CString) (line : Int) (buf : Nat) (len : Int) :
    let msg := txeiLogBuf level (some tag) (some label) func line (some buf) len
    (∀ sink buffer, .call (.print sink buffer) ∈ ((msg.log p s).run m).log →
      Complete (msg.line p s) (m.bytes (.data buf) len.toNat) (cString buffer)) ↔
      (msg.Emits p s → Lossless (msg.line p s) (m.bytes (.data buf) len.toNat)) := by
  intro msg
  rw [(msg.log_spec p s m).forall_print_iff]
  exact imp_congr_right fun _ => complete_iff (msg.line p s) _

/-! ## A digit that is lost -/

/-- A label of 1016 letters. -/
def longLabel : CString :=
  ⟨List.replicate 1016 65, fun h => absurd (List.eq_of_mem_replicate h) (by decide)⟩

/-- A dump of one byte whose label line leaves room for two digits and no newline. -/
def longDump : Message :=
  txeiLogBuf TxeiLogLevel.dbg.toInt (some (.literal "t")) (some longLabel) (.literal "f") 0
    (some 0) 1

theorem line_longDump :
    longDump.line plain .initial = ascii "t - " ++ List.replicate 1015 65 ++ [65] := by
  rw [List.append_assoc, ← List.replicate_succ']
  rfl

theorem not_lossless_longDump (c : UInt8) : ¬ Lossless (longDump.line plain .initial) [c] := by
  have hlength : (ascii "t - " ++ List.replicate 1015 65).length = 1019 := by
    rw [List.length_append, List.length_replicate]
    decide
  have hkept := (ended_digit (c := 65) (by unfold IsDigit; decide)
    (by rw [hlength]; decide : (ascii "t - " ++ List.replicate 1015 65).length < 1022)).1
  rw [← line_longDump] at hkept
  generalize ht : longDump.line plain .initial = t at hkept ⊢
  rw [line_longDump] at ht
  have hzero : 0 ∉ t := by
    rw [← ht]
    simp only [List.mem_append, List.mem_replicate, not_or]
    decide
  have htotal : t.length = 1020 := by
    rw [← ht, List.length_append, hlength]
    rfl
  have hdump : dumpLength t [c] = 1023 := by
    rw [dumpLength, hkept, htotal]
    simp
  have hlead : lead t [c] = t ++ [newline] := by
    have hne : kept t ≠ [] := by
      rw [hkept]
      exact List.ne_nil_of_length_pos (by rw [htotal]; decide)
    rw [lead, if_neg (by rw [htotal]; decide), if_neg (by rw [hdump]; decide),
      headLine_of_kept hne, hkept]
  intro hlossless
  rw [Lossless, hlead, if_neg (by simpa using hzero)] at hlossless
  have hroom := (hlossless (by rw [htotal]; decide) (by rw [hdump]; decide)).2 hdump
  exact absurd hroom (by simp)

theorem longDump_emits : longDump.Emits plain .initial := by
  have hlength : longDump.format.bytes.length = 1016 := List.length_replicate
  exact ⟨by decide, ⟨by decide, fun _ => ⟨_, rfl, by rw [hlength]; decide⟩⟩, nofun⟩

/-- The second digit of the byte is not printed, and neither is the note. -/
theorem dump_not_complete :
    ∃ sink buffer,
      .call (.print sink buffer) ∈ ((longDump.log plain .initial).run fun _ _ => 171).log ∧
      ¬ Complete (longDump.line plain .initial) [171] (cString buffer) := by
  by_contra hnone
  have hcomplete := ((longDump.log_spec plain .initial fun _ _ => 171).forall_print_iff
    (P := Complete (longDump.line plain .initial) [171])).mp
    (fun sink buffer hmem => by_contra fun h => hnone ⟨sink, buffer, hmem, h⟩) longDump_emits
  refine not_lossless_longDump 171 ?_
  rw [← complete_iff]
  exact hcomplete

end Txei.TxeiLog

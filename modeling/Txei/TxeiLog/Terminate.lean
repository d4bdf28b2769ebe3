import Txei.Machine.Text

/-!
# Terminating a message

`newline_terminate` of `txei_log.c` goes back from the end of what has been written to the last byte
that is neither NUL nor a newline, and puts a newline and a NUL behind it. `run_newlineTerminate`
says what it leaves of any buffer; where it finds no such byte it changes nothing and returns 1 all
the same, and `terminated_iff` says for which strings the buffer then holds what its comment
promises.
-/

namespace Txei.TxeiLog

open Machine Machine.Prog

variable {κ β ε : Type} [DecidableEq β]

/-- The character `'\n'`. -/
@[simp] abbrev newline : UInt8 := 10

/-- The loop of `newline_terminate`, from `i = n - 1` down to 0. -/
def scanBack (buffer : β) : Nat → Prog κ β ε Int
  | 0 => pure 1
  | i + 1 => do
      let c ← loadByte buffer i
      if c ≠ 0 ∧ c ≠ newline then do
        storeByte buffer (i + 1) newline
        storeByte buffer (i + 2) 0
        pure (i + 2)
      else scanBack buffer i

/-- `newline_terminate`. A start below 0 skips the loop. -/
def newlineTerminate (buffer : β) (bufferLen totalWritten : Int) : Prog κ β ε Int :=
  let i := if bufferLen - 3 < totalWritten then bufferLen - 3 else totalWritten
  if i < 0 then pure (i + 2) else scanBack buffer (i.toNat + 1)

/-! ## What is left of a text -/

/-- The bytes that are cut from the end. -/
def isEnd (c : UInt8) : Bool := c = 0 ∨ c = newline

/-- A text without the NULs and newlines at its end. -/
def chop (t : List UInt8) : List UInt8 := t.rdropWhile isEnd

theorem chop_snoc (t : List UInt8) (c : UInt8) :
    chop (t ++ [c]) = if c = 0 ∨ c = newline then chop t else t ++ [c] := by
  unfold chop
  rw [List.rdropWhile_concat]
  exact if_congr (by simp [isEnd]) rfl rfl

@[simp] theorem chop_nil : chop [] = [] := rfl

theorem chop_eq_nil_iff (t : List UInt8) : chop t = [] ↔ ∀ c ∈ t, c = 0 ∨ c = newline := by
  simp [chop, List.rdropWhile_eq_nil_iff, isEnd]

theorem chop_isPrefix (t : List UInt8) : chop t <+: t := List.rdropWhile_prefix _ _

theorem length_chop_le (t : List UInt8) : (chop t).length ≤ t.length := (chop_isPrefix t).length_le

/-- The loop puts a newline and a NUL behind what it leaves of the bytes it looks at. -/
theorem run_scanBack (b : β) (n : Nat) (m : Mem β) :
    ((scanBack b n : Prog κ β ε Int).run m).result = .ok ((chop (m.bytes b n)).length + 1) ∧
      ((scanBack b n : Prog κ β ε Int).run m).mem =
        if chop (m.bytes b n) = [] then m
        else m.putBytes b (chop (m.bytes b n)).length [newline, 0] := by
  induction n with
  | zero => exact ⟨rfl, rfl⟩
  | succ i ih =>
      unfold scanBack
      rw [run_bind, run_loadByte, Run.andThen_ok, run_ite, Mem.bytes_succ, chop_snoc]
      by_cases hcut : m b i = 0 ∨ m b i = newline
      · rw [if_neg fun hc => hcut.elim hc.1 hc.2, if_pos hcut]
        exact ih
      · rw [if_pos (not_or.mp hcut), if_neg hcut, if_neg (by simp)]
        simp only [List.length_append, Mem.length_bytes, List.length_singleton]
        refine ⟨by simp [Int.add_assoc], ?_⟩
        exact Mem.write_write m b (i + 1) 1 1 (f := fun _ => newline) (g := fun _ => 0)
          (h := fun j => [newline, 0].getD j 0) (fun j hj => by rw [Nat.lt_one_iff.mp hj]; rfl)
          fun j hj => by rw [Nat.lt_one_iff.mp hj]; rfl

theorem within_scanBack {P : Event κ β → Prop} {b : β} {n : Nat}
    (hread : ∀ i < n, P (.read b i 1)) (hwrite : ∀ i < n + 2, P (.write b i 1)) :
    Within P (scanBack b n : Prog κ β ε Int) := by
  induction n with
  | zero => exact within_pure _
  | succ i ih =>
      refine .bind (by simpa using hread i (Nat.lt_succ_self i)) fun c => .ite ?_ ?_
      · refine .bind (by simpa using hwrite (i + 1) (by omega)) fun _ => ?_
        exact .bind (by simpa using hwrite (i + 2) (by omega)) fun _ => within_pure _
      · exact ih (fun k hk => hread k (Nat.lt_succ_of_lt hk)) fun k hk =>
          hwrite k (Nat.lt_succ_of_lt hk)

section Terminate

variable {bufferLen totalWritten : Nat} (hlen : 3 ≤ bufferLen)

include hlen

theorem newlineTerminate_eq (b : β) :
    (newlineTerminate b bufferLen totalWritten : Prog κ β ε Int) =
      scanBack b (min (totalWritten + 1) (bufferLen - 2)) := by
  unfold newlineTerminate
  by_cases hclamp : (bufferLen : Int) - 3 < totalWritten
  · simp only [if_pos hclamp]
    rw [if_neg (by omega)]
    congr 1
    omega
  · simp only [if_neg hclamp]
    rw [if_neg (by omega)]
    congr 1
    omega

/-- No access leaves the buffer. -/
theorem within_newlineTerminate {P : Event κ β → Prop} {b : β}
    (hread : ∀ i < bufferLen, P (.read b i 1)) (hwrite : ∀ i < bufferLen, P (.write b i 1)) :
    Within P (newlineTerminate b bufferLen totalWritten : Prog κ β ε Int) := by
  rw [newlineTerminate_eq hlen]
  exact within_scanBack (fun i hi => hread i (by omega)) fun i hi => hwrite i (by omega)

/-- In a buffer that holds a text of `totalWritten` bytes with a NUL behind it, the text is cut to
`bufferLen - 2` bytes and chopped. -/
theorem run_newlineTerminate {b : β} {m : Mem β} {t : List UInt8}
    (ht : t.length = totalWritten) (hstarts : m.Starts b (t ++ [0])) :
    ((newlineTerminate b bufferLen totalWritten : Prog κ β ε Int).run m).result =
        .ok ((chop (t.take (bufferLen - 2))).length + 1) ∧
      ((newlineTerminate b bufferLen totalWritten : Prog κ β ε Int).run m).mem =
        if chop (t.take (bufferLen - 2)) = [] then m
        else m.putBytes b (chop (t.take (bufferLen - 2))).length [newline, 0] := by
  have hbytes : chop (m.bytes b (min (totalWritten + 1) (bufferLen - 2))) =
      chop (t.take (bufferLen - 2)) := by
    rw [hstarts.bytes_eq (by rw [List.length_append, ht]; exact Nat.min_le_left _ _)]
    by_cases hfits : t.length < bufferLen - 2
    · rw [Nat.min_eq_left (by omega), ← ht, List.take_of_length_le (by simp), chop_snoc,
        if_pos (.inl rfl), List.take_of_length_le (by omega)]
    · rw [Nat.min_eq_right (by omega), List.take_append_of_le_length (by omega)]
  rw [newlineTerminate_eq hlen, ← hbytes]
  exact run_scanBack b _ m

end Terminate

/-! ## What the comment promises -/

/-- The buffer holds the string `s` of `totalWritten` characters, with NULs behind it. -/
structure HoldsString (m : Mem β) (b : β) (bufferLen totalWritten : Nat) (s : List UInt8) :
    Prop where
  length : s.length = totalWritten
  fits : totalWritten < bufferLen
  noNul : 0 ∉ s
  starts : m.Starts b (s ++ List.replicate (bufferLen - totalWritten) 0)

/-- The string without its trailing newlines, cut to `bufferLen - 2` characters, and one newline. -/
def terminated (bufferLen : Nat) (s : List UInt8) : List UInt8 :=
  (s.take (bufferLen - 2)).rdropWhile (· = newline) ++ [newline]

/-- The run leaves the string with one newline and a NUL behind it, and returns its length. -/
def Terminated (b : β) (bufferLen : Nat) (s : List UInt8) (r : Run κ β ε Int) : Prop :=
  r.result = .ok (terminated bufferLen s).length ∧ r.mem.Starts b (terminated bufferLen s ++ [0])

omit [DecidableEq β] in
theorem HoldsString.starts_zero {m : Mem β} {b : β} {bufferLen totalWritten : Nat}
    {s : List UInt8} (hs : HoldsString m b bufferLen totalWritten s) : m.Starts b (s ++ [0]) := by
  have hstarts := hs.starts
  have hfits := hs.fits
  rw [show bufferLen - totalWritten = (bufferLen - totalWritten - 1) + 1 by omega,
    List.replicate_succ, List.append_cons] at hstarts
  exact hstarts.left

/-- In a string there is nothing but the newlines to be cut. -/
theorem chop_eq_rdropWhile {s : List UInt8} (hs : 0 ∉ s) :
    chop s = s.rdropWhile (· = newline) := by
  induction s using List.reverseRecOn with
  | nil => rfl
  | append_singleton s c ih =>
      have hc : c ≠ 0 := fun hzero => hs (by simp [hzero])
      rw [chop_snoc, List.rdropWhile_concat, ih fun hmem => hs (List.mem_append_left _ hmem)]
      exact if_congr (by simp [hc]) rfl rfl

theorem terminated_eq {bufferLen : Nat} {s : List UInt8} (hs : 0 ∉ s) :
    terminated bufferLen s = chop (s.take (bufferLen - 2)) ++ [newline] := by
  rw [chop_eq_rdropWhile fun hmem => hs (List.mem_of_mem_take hmem)]
  rfl

section Terminated

variable {b : β} {m : Mem β} {bufferLen totalWritten : Nat} {s : List UInt8}

/-- A string of which a character is kept is terminated. -/
theorem terminated_of_kept (hlen : 3 ≤ bufferLen) (hs : HoldsString m b bufferLen totalWritten s)
    (hkept : chop (s.take (bufferLen - 2)) ≠ []) :
    Terminated b bufferLen s
      ((newlineTerminate b bufferLen totalWritten : Prog κ β ε Int).run m) := by
  obtain ⟨hresult, hmem⟩ :=
    run_newlineTerminate (κ := κ) (ε := ε) hlen hs.length hs.starts_zero
  have hprefix : chop (s.take (bufferLen - 2)) <+: s :=
    (chop_isPrefix _).trans (List.take_prefix _ _)
  unfold Terminated
  rw [terminated_eq hs.noNul, hresult, hmem, if_neg hkept]
  refine ⟨by simp, ?_⟩
  have hput := hs.starts_zero.left.putBytes hprefix.length_le [newline, 0]
  rwa [← List.prefix_iff_eq_take.mp hprefix, List.append_cons] at hput

/-- Without such a character nothing is changed, and only the string of one newline is as
promised. -/
theorem terminated_iff_of_none (hlen : 3 ≤ bufferLen)
    (hs : HoldsString m b bufferLen totalWritten s) (hnone : chop (s.take (bufferLen - 2)) = []) :
    Terminated b bufferLen s
        ((newlineTerminate b bufferLen totalWritten : Prog κ β ε Int).run m) ↔ s = [newline] := by
  obtain ⟨hresult, hmem⟩ :=
    run_newlineTerminate (κ := κ) (ε := ε) hlen hs.length hs.starts_zero
  unfold Terminated
  rw [terminated_eq hs.noNul, hresult, hmem, if_pos hnone, hnone]
  constructor
  · intro hterminated
    have hlong := Nat.lt_succ_of_le (Nat.le_add_right s.length 1)
    rw [← cString_eq_self hs.noNul, ← hs.starts_zero.cString hlong]
    exact hterminated.2.cString (by simp)
  · intro heq
    refine ⟨rfl, ?_⟩
    have hzero := hs.starts_zero
    rwa [heq] at hzero

/-- `newline_terminate` does what its comment promises exactly when it finds a character to keep, or
the string is one newline already. -/
theorem terminated_iff (hlen : 3 ≤ bufferLen) (hs : HoldsString m b bufferLen totalWritten s) :
    Terminated b bufferLen s
        ((newlineTerminate b bufferLen totalWritten : Prog κ β ε Int).run m) ↔
      (∃ c ∈ s.take (bufferLen - 2), c ≠ newline) ∨ s = [newline] := by
  have hnoNul : 0 ∉ s.take (bufferLen - 2) := fun hmem => hs.noNul (List.mem_of_mem_take hmem)
  have hkept : chop (s.take (bufferLen - 2)) = [] ↔ ∀ c ∈ s.take (bufferLen - 2), c = newline := by
    rw [chop_eq_rdropWhile hnoNul, List.rdropWhile_eq_nil_iff]
    simp only [decide_eq_true_eq]
  by_cases hnone : ∀ c ∈ s.take (bufferLen - 2), c = newline
  · rw [terminated_iff_of_none hlen hs (hkept.mpr hnone)]
    refine (or_iff_right fun hsome => ?_).symm
    obtain ⟨c, hmem, hne⟩ := hsome
    exact hne (hnone c hmem)
  · refine iff_of_true (terminated_of_kept hlen hs (mt hkept.mp hnone)) (.inl ?_)
    simpa only [not_forall, exists_prop] using hnone

end Terminated

/-- A buffer of 16 bytes with `"hi\n\n"` in it and NULs behind it. -/
def hiBuffer : Mem Unit := .ofLists fun _ => [104, 105, newline, newline]

theorem hiBuffer_holdsString : HoldsString hiBuffer () 16 4 [104, 105, newline, newline] where
  length := rfl
  fits := by decide
  noNul := by decide
  starts := rfl

theorem terminated_iff_hi :
    Terminated () 16 [104, 105, newline, newline]
      ((newlineTerminate () 16 4 : Prog Empty Unit Empty Int).run hiBuffer) :=
  (terminated_iff (by decide) hiBuffer_holdsString).mpr (.inl ⟨104, by decide, by decide⟩)

/-- A buffer of NULs holds the empty string. -/
theorem holdsString_nil {n : Nat} (hn : 0 < n) :
    HoldsString (fun _ _ => 0 : Mem Unit) () n 0 [] where
  length := rfl
  fits := hn
  noNul := List.not_mem_nil
  starts := by
    unfold Mem.Starts
    rw [List.nil_append, List.length_replicate]
    refine List.eq_replicate_iff.mpr ⟨Mem.length_bytes _ _ _, fun c hc => ?_⟩
    obtain ⟨i, -, rfl⟩ := List.mem_map.mp hc
    rfl

/-- The empty string gets no newline, yet 1 is returned. -/
theorem newlineTerminate_empty :
    HoldsString (fun _ _ => 0 : Mem Unit) () 1024 0 [] ∧
      ¬ Terminated () 1024 []
        ((newlineTerminate () 1024 0 : Prog Empty Unit Empty Int).run fun _ _ => 0) := by
  have hholds := holdsString_nil (n := 1024) (by decide)
  refine ⟨hholds, fun hterminated => ?_⟩
  have hnewline := (terminated_iff_of_none (by decide) hholds rfl).mp hterminated
  exact absurd hnewline (by decide)

end Txei.TxeiLog

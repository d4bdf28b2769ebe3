import Txei.Machine.Program

/-!
# The swapping copy

`copySwap` of `tee_if.c` copies an array in reverse order, from its end to its start, in passes of
eight bytes. The first pass enters the eight statements behind the remainder, so that what is left
behind it is a multiple of eight, and the loop ends when the source pointer is back at the start of
the array, which it is not compared with in between. Here a decrement past the start of the array
leaves the program, and so does a loop that is not over after `fuel` tests of its condition;
`copySwap_exact` says that neither takes place.
-/

namespace Txei.Tee

open Machine Machine.Prog

variable {κ β : Type} [DecidableEq β]

/-- `tee_swap_flag`. -/
inductive TeeSwapFlag where
  | doSwap
  | dontSwap
  deriving DecidableEq, Repr

/-- `QUICK_SWAP_SIZE`. -/
@[simp] abbrev quickSwapSize : Nat := 8

/-- What keeps the loop from ending. -/
inductive Stuck where
  | beforeSource
  | outOfFuel
  deriving DecidableEq, Repr

/-- The two pointers of the loop, as offsets into the arrays. -/
structure Pointers where
  pDst : Nat
  pSrc : Nat
  deriving DecidableEq, Repr

/-- `*pDst++ = *( --pSrc )`. -/
def copyByte (vDst vSrc : β) (p : Pointers) : Prog κ β Stuck Pointers := do
  exitIf (p.pSrc = 0) .beforeSource
  let x ← loadByte vSrc (p.pSrc - 1)
  storeByte vDst p.pDst x
  pure ⟨p.pDst + 1, p.pSrc - 1⟩

/-- The last `n` statements of the `switch`. -/
def copyBytes (vDst vSrc : β) : Nat → Pointers → Prog κ β Stuck Pointers
  | 0, p => pure p
  | n + 1, p => do
      let p ← copyByte vDst vSrc p
      copyBytes vDst vSrc n p

/-- The number of statements from the label of the `switch` on: each case falls through. -/
def statementsFrom : Nat → Nat
  | 0 => 8
  | 7 => 7
  | 6 => 6
  | 5 => 5
  | 4 => 4
  | 3 => 3
  | 2 => 2
  | _ => 1

/-- The loop of `copySwap`. -/
def swapLoop (vDst vSrc : β) : Nat → Nat → Pointers → Prog κ β Stuck Unit
  | 0, _, _ => exit .outOfFuel
  | fuel + 1, quickSwap, p =>
      if p.pSrc = 0 then pure ()
      else do
        let p ← copyBytes vDst vSrc (statementsFrom quickSwap) p
        swapLoop vDst vSrc fuel 0 p

/-- `copySwap`. A null pointer is `none`. -/
def copySwap (fuel : Nat) (vDst vSrc : Option β) (length : UInt32) (flag : TeeSwapFlag) :
    Prog κ β Stuck Unit :=
  match vDst, vSrc with
  | some vDst, some vSrc =>
      if flag = .dontSwap then memcpy vDst 0 vSrc 0 length.toNat
      else swapLoop vDst vSrc fuel (length.toNat &&& (quickSwapSize - 1)) ⟨0, length.toNat⟩
  | _, _ => pure ()

/-! ## What a run copies -/

/-- The event reads the first `n` bytes of `vSrc` and writes the first `n` bytes of `vDst` alone. -/
def Accesses (vDst vSrc : β) (n : Nat) (e : Event κ β) : Prop :=
  (∀ b i, e.Reads b i → b = vSrc ∧ i < n) ∧ ∀ b i, e.Writes b i → b = vDst ∧ i < n

omit [DecidableEq β] in
theorem accesses_read {vDst vSrc : β} {n o k : Nat} (h : o + k ≤ n) :
    Accesses vDst vSrc n (.read vSrc o k : Event κ β) := by
  refine ⟨fun b i hr => ?_, fun b i hw => hw.elim⟩
  obtain ⟨rfl, -, hlt⟩ := hr
  exact ⟨rfl, by omega⟩

omit [DecidableEq β] in
theorem accesses_write {vDst vSrc : β} {n o k : Nat} (h : o + k ≤ n) :
    Accesses vDst vSrc n (.write vDst o k : Event κ β) := by
  refine ⟨fun b i hr => hr.elim, fun b i hw => ?_⟩
  obtain ⟨rfl, -, hlt⟩ := hw
  exact ⟨rfl, by omega⟩

/-- The run has returned `a`, has put the `k` bytes before `pSrc` in reverse order behind `pDst`,
and has stayed inside the first `n` bytes of both arrays. -/
structure Reversed {α : Type} (vDst vSrc : β) (n : Nat) (p : Pointers) (k : Nat) (m : Mem β) (a : α)
    (r : Run κ β Stuck α) : Prop where
  result : r.result = .ok a
  mem : r.mem = m.write vDst p.pDst k fun i => m vSrc (p.pSrc - 1 - i)
  accesses : ∀ e ∈ r.log, Accesses vDst vSrc n e

variable {vDst vSrc : β} {n : Nat} {p : Pointers} {m : Mem β}

theorem copyByte_reversed (hdst : p.pDst < n) (hsrc : p.pSrc ≤ n) (hpos : p.pSrc ≠ 0) :
    Reversed vDst vSrc n p 1 m ⟨p.pDst + 1, p.pSrc - 1⟩
      ((copyByte vDst vSrc p : Prog κ β Stuck Pointers).run m) := by
  have hrun : (copyByte vDst vSrc p : Prog κ β Stuck Pointers).run m =
      ⟨.ok ⟨p.pDst + 1, p.pSrc - 1⟩, m.write vDst p.pDst 1 fun _ => m vSrc (p.pSrc - 1),
        [.read vSrc (p.pSrc - 1) 1, .write vDst p.pDst 1]⟩ := by
    simp [copyByte, hpos, Run.prepend]
  rw [hrun]
  refine ⟨rfl, ?_, fun e he => ?_⟩
  · refine Mem.write_ext m vDst p.pDst (f := fun _ => m vSrc (p.pSrc - 1)) fun i hi => ?_
    rw [Nat.lt_one_iff.mp hi, Nat.sub_zero]
  · simp only [List.mem_cons, List.not_mem_nil, or_false] at he
    rcases he with rfl | rfl
    · exact accesses_read (by omega)
    · exact accesses_write (by omega)

/-- Two copies, the second from where the first leaves off, are one. -/
theorem Reversed.bind {α γ : Type} (hne : vDst ≠ vSrc) {k l : Nat} {a : α} {c : γ}
    {x : Prog κ β Stuck α} {f : α → Prog κ β Stuck γ} (hx : Reversed vDst vSrc n p k m a (x.run m))
    (hf : Reversed vDst vSrc n ⟨p.pDst + k, p.pSrc - k⟩ l (x.run m).mem c
      ((f a).run (x.run m).mem)) :
    Reversed vDst vSrc n p (k + l) m c ((x >>= f).run m) := by
  obtain ⟨hres, hmem, hlog⟩ := hx
  obtain ⟨hres', hmem', hlog'⟩ := hf
  rw [run_bind, Run.andThen_of_ok hres]
  refine ⟨hres', ?_, fun e he => ?_⟩
  · have hsrc : (x.run m).mem vSrc = m vSrc := by rw [hmem, Mem.write_other _ _ _ _ hne.symm]
    rw [Run.prepend_mem, hmem', hsrc, hmem]
    refine Mem.write_write m vDst p.pDst k l (fun i _ => rfl) fun i _ => ?_
    congr 1
    show p.pSrc - 1 - (k + i) = p.pSrc - k - 1 - i
    omega
  · rcases List.mem_append.mp he with hfirst | hsecond
    · exact hlog e hfirst
    · exact hlog' e hsecond

theorem copyBytes_reversed (hne : vDst ≠ vSrc) {k : Nat} (hdst : p.pDst + k ≤ n) (hsrc : p.pSrc ≤ n)
    (hk : k ≤ p.pSrc) :
    Reversed vDst vSrc n p k m ⟨p.pDst + k, p.pSrc - k⟩
      ((copyBytes vDst vSrc k p : Prog κ β Stuck Pointers).run m) := by
  induction k generalizing p m with
  | zero => exact ⟨rfl, (Mem.write_zero ..).symm, fun e he => absurd he List.not_mem_nil⟩
  | succ k ih =>
      have hfirst : Reversed vDst vSrc n p 1 m ⟨p.pDst + 1, p.pSrc - 1⟩
          ((copyByte vDst vSrc p : Prog κ β Stuck Pointers).run m) :=
        copyByte_reversed (by omega) hsrc (by omega)
      have hrest := ih (p := ⟨p.pDst + 1, p.pSrc - 1⟩)
        (m := ((copyByte vDst vSrc p : Prog κ β Stuck Pointers).run m).mem)
        (by show p.pDst + 1 + k ≤ n; omega) (by show p.pSrc - 1 ≤ n; omega)
        (by show k ≤ p.pSrc - 1; omega)
      have hboth := hfirst.bind hne hrest
      rwa [Nat.add_comm 1 k, show p.pDst + 1 + k = p.pDst + (k + 1) by omega,
        show p.pSrc - 1 - k = p.pSrc - (k + 1) by omega] at hboth

/-- From a multiple of eight the loop copies all that is left. -/
theorem swapLoop_reversed (hne : vDst ≠ vSrc) {fuel : Nat} (hfuel : p.pSrc / 8 < fuel)
    (hdst : p.pDst + p.pSrc ≤ n) (hmod : p.pSrc % 8 = 0) :
    Reversed vDst vSrc n p p.pSrc m ()
      ((swapLoop vDst vSrc fuel 0 p : Prog κ β Stuck Unit).run m) := by
  induction fuel generalizing p m with
  | zero => exact absurd hfuel (Nat.not_lt_zero _)
  | succ fuel ih =>
      unfold swapLoop
      by_cases hend : p.pSrc = 0
      · rw [if_pos hend, hend]
        exact ⟨rfl, (Mem.write_zero ..).symm, fun e he => absurd he List.not_mem_nil⟩
      · rw [if_neg hend]
        have hpass := copyBytes_reversed (κ := κ) hne (k := 8) (m := m)
          (show p.pDst + 8 ≤ n by omega) (show p.pSrc ≤ n by omega) (by omega)
        have hrest := ih (p := ⟨p.pDst + 8, p.pSrc - 8⟩)
          (m := ((copyBytes vDst vSrc 8 p : Prog κ β Stuck Pointers).run m).mem)
          (by show (p.pSrc - 8) / 8 < fuel; omega) (by show p.pDst + 8 + (p.pSrc - 8) ≤ n; omega)
          (by show (p.pSrc - 8) % 8 = 0; omega)
        have hboth := hpass.bind hne hrest
        rwa [show 8 + (p.pSrc - 8) = p.pSrc by omega] at hboth

theorem statementsFrom_pos {r : Nat} (h0 : r ≠ 0) (hlt : r < 8) : statementsFrom r = r := by
  match r with
  | 1 | 2 | 3 | 4 | 5 | 6 | 7 => rfl

/-- The first pass takes the remainder, and leaves a multiple of eight. -/
theorem swapLoop_whole (hne : vDst ≠ vSrc) {fuel : Nat} (hfuel : n / 8 + 1 < fuel) :
    Reversed vDst vSrc n ⟨0, n⟩ n m ()
      ((swapLoop vDst vSrc fuel (n % 8) ⟨0, n⟩ : Prog κ β Stuck Unit).run m) := by
  by_cases hmod : n % 8 = 0
  · rw [hmod]
    exact swapLoop_reversed hne (p := ⟨0, n⟩) (by show n / 8 < fuel; omega) (by simp) hmod
  · obtain ⟨fuel, rfl⟩ := Nat.exists_eq_add_of_lt hfuel
    have hlt : n % 8 < 8 := Nat.mod_lt n (by decide)
    unfold swapLoop
    rw [if_neg (show n ≠ 0 by omega), statementsFrom_pos hmod hlt]
    have hpass := copyBytes_reversed (κ := κ) hne (k := n % 8) (p := ⟨0, n⟩) (m := m)
      (show 0 + n % 8 ≤ n by omega) (Nat.le_refl n) (Nat.mod_le n 8)
    have hrest := swapLoop_reversed (κ := κ) hne (p := ⟨0 + n % 8, n - n % 8⟩) (n := n)
      (m := ((copyBytes vDst vSrc (n % 8) ⟨0, n⟩ : Prog κ β Stuck Pointers).run m).mem)
      (show (n - n % 8) / 8 < n / 8 + 1 + fuel by omega)
      (by show 0 + n % 8 + (n - n % 8) ≤ n; omega) (by show (n - n % 8) % 8 = 0; omega)
    have hboth := hpass.bind hne hrest
    rwa [show n % 8 + (n - n % 8) = n by omega] at hboth

/-! ## The whole function -/

/-- The function has returned, has stayed inside the first `n` bytes of both arrays, and has left in
byte `i` of the destination the byte `f i` of the source. -/
structure CopiedBy (vDst vSrc : β) (n : Nat) (f : Nat → Nat) (m : Mem β) (r : Run κ β Stuck Unit) :
    Prop where
  returns : r.result = .ok ()
  accesses : ∀ e ∈ r.log, Accesses vDst vSrc n e
  bytes : ∀ i < n, r.mem vDst i = m vSrc (f i)

/-- `copySwap` with `DO_SWAP` ends, and leaves the source in reverse order; with `DONT_SWAP` it
leaves the same bytes. -/
theorem copySwap_exact (hne : vDst ≠ vSrc) (length : UInt32) (m : Mem β) :
    (∀ fuel, length.toNat / 8 + 1 < fuel →
      CopiedBy vDst vSrc length.toNat (fun i => length.toNat - 1 - i) m
        ((copySwap fuel (some vDst) (some vSrc) length .doSwap : Prog κ β Stuck Unit).run m)) ∧
      ∀ fuel, CopiedBy vDst vSrc length.toNat id m
        ((copySwap fuel (some vDst) (some vSrc) length .dontSwap : Prog κ β Stuck Unit).run m) := by
  constructor
  · intro fuel hfuel
    have hmask : length.toNat &&& (quickSwapSize - 1) = length.toNat % 8 :=
      Nat.and_two_pow_sub_one_eq_mod length.toNat 3
    obtain ⟨hres, hmem, hlog⟩ := swapLoop_whole (κ := κ) (m := m) hne hfuel
    simp only at hmem
    show CopiedBy vDst vSrc length.toNat _ m
      ((swapLoop vDst vSrc fuel (length.toNat &&& (quickSwapSize - 1)) ⟨0, length.toNat⟩).run m)
    rw [hmask]
    refine ⟨hres, hlog, fun i hi => ?_⟩
    rw [hmem, Mem.write_inside _ _ _ _ _ _ (by omega), Nat.sub_zero]
  · intro fuel
    show CopiedBy vDst vSrc length.toNat id m
      ((memcpy vDst 0 vSrc 0 length.toNat : Prog κ β Stuck Unit).run m)
    rw [run_memcpy]
    refine ⟨rfl, fun e he => ?_, fun i hi => ?_⟩
    · simp only [List.mem_cons, List.not_mem_nil, or_false] at he
      rcases he with rfl | rfl
      · exact accesses_read (by omega)
      · exact accesses_write (by omega)
    · refine (Mem.write_inside m vDst 0 length.toNat (fun i => m vSrc (0 + i)) i
        (by omega)).trans ?_
      rw [Nat.zero_add, Nat.sub_zero, id_eq]

/-- Eleven bytes from one array to another, the remainder first. -/
theorem copySwap_exact_eleven :
    CopiedBy true false 11 (fun i => 10 - i) (fun _ i => UInt8.ofNat i)
      ((copySwap 3 (some true) (some false) 11 .doSwap : Prog Unit Bool Stuck Unit).run
        fun _ i => UInt8.ofNat i) :=
  (copySwap_exact (by decide) 11 fun _ i => UInt8.ofNat i).1 3 (by decide)

end Txei.Tee

import Txei.Machine.History
import Txei.Machine.Host
import Txei.SecTool.Gpp

/-!
# The protection of the Softfuse partition

The attributes that the write protection commands work on belong to a card: two of them select a
group of a partition, the third reads its protection and, written to, makes it permanent. A system
with such a card answers the calls of the commands as `GppSystem.step` says, where any `open` and
any `write` may fail. Over every history of commands on it, the card and the terminal show no more
than a machine whose state is the protection of the first group of the first partition
(`softfuse_refines`).
-/

namespace Txei.SecTool

open Machine Machine.Prog Mei

/-! ## The system -/

/-- The protection of a group, by the number that the driver has for it. -/
inductive Protection where
  | unlocked
  | temporary
  | powerOn
  | permanent
  deriving DecidableEq, Repr

namespace Protection

def number : Protection → Nat
  | unlocked => 0
  | temporary => 1
  | powerOn => 2
  | permanent => 3

theorem number_lt (p : Protection) : p.number < 4 := by
  cases p with
  | _ => decide

/-- What the attribute `gpp_wp` reads as: the number, and a newline. -/
def text (p : Protection) : List UInt8 := decimal p.number ++ [10]

/-- The text of the tool for it. -/
def lockStatus (p : Protection) : String := SecTool.lockStatus.getD p.number ""

end Protection

/-- The card: the group that is selected, and the protection of every group of every partition. -/
structure Card where
  partition : UInt8
  group : UInt8
  protection : UInt8 → UInt8 → Protection

namespace Card

/-- What `gpp_wp` is about. -/
def selected (c : Card) : Protection := c.protection c.partition c.group

/-- Write a byte to an attribute. Whatever is written to `gpp_wp` makes the protection permanent. -/
def store (c : Card) (byte : UInt8) : Attribute → Card
  | .gppWpgroup => { c with group := byte }
  | .gppWppart => { c with partition := byte }
  | .gppWp => { c with protection := fun p g =>
      if p = c.partition ∧ g = c.group then .permanent else c.protection p g }

/-- The protection of the Softfuse partition: that of its first group. -/
def softfuse (c : Card) : Protection := c.protection SecTool.partition SecTool.group

end Card

/-- The system: which attribute a descriptor is open on, the card, and the lines on the terminal. -/
structure GppSystem where
  files : Int → Option Attribute
  card : Card
  terminal : List (UInt8 × UInt8 × String)

/-- How the system answers a call. A descriptor that `open` returns is not in use, a `write` of a
size other than 1 has failed, and what `gpp_wp` reads as is the text of the protection. -/
def GppSystem.step (s : GppSystem) : GppCall → Option GppSystem
  | .opened a fd =>
      if fd = fileError then some s
      else if 0 ≤ fd ∧ s.files fd = none then
        some { s with files := Function.update s.files fd (some a) }
      else none
  | .written fd byte retsz =>
      if retsz ≠ 1 then some s
      else (s.files fd).map fun a => { s with card := s.card.store byte a }
  | .statusRead fd data =>
      if ∀ t, data = some t → s.files fd = some .gppWp → t = s.card.selected.text then some s
      else none
  | .printed p g line => some { s with terminal := s.terminal ++ [(p, g, line)] }
  | .closed fd => some { s with files := Function.update s.files fd none }

/-! ## Descriptors -/

/-- The files are those of `files`, except for the descriptors of `own`. -/
structure Holds (files : Int → Option Attribute) (own : Set Int) (s : GppSystem) : Prop where
  kept : ∀ fd, fd ∉ own → s.files fd = files fd
  fresh : ∀ fd ∈ own, files fd = none
  positive : ∀ fd ∈ own, fileError < fd

/-- The descriptors that the local variables hold. -/
def GppLocals.own (l : GppLocals) : Set Int :=
  { fd | fileError < fd ∧ (fd = l.wpgrpFd ∨ fd = l.wppartFd ∨ fd = l.wpFd) }

section Holds

variable {files : Int → Option Attribute} {own : Set Int} {s s' : GppSystem} {a : Attribute}
  {fd : Int}

theorem holds_nothing (s : GppSystem) : Holds s.files ∅ s :=
  ⟨fun _ _ => rfl, fun _ hfd => absurd hfd (Set.notMem_empty _), fun _ hfd =>
    absurd hfd (Set.notMem_empty _)⟩

theorem Holds.free (h : Holds files own s) (hfree : s.files fd = none) : files fd = none := by
  by_cases hfd : fd ∈ own
  · exact h.fresh fd hfd
  · rw [← h.kept fd hfd]
    exact hfree

theorem Holds.congr (h : Holds files own s) (hfiles : s'.files = s.files) : Holds files own s' :=
  ⟨fun fd hfd => (congrFun hfiles fd).trans (h.kept fd hfd), h.fresh, h.positive⟩

/-- A descriptor that is opened is a new one of the holder. -/
theorem Holds.insert (h : Holds files own s) (hpos : fileError < fd) (hfree : s.files fd = none)
    (a : Attribute) :
    Holds files (insert fd own) { s with files := Function.update s.files fd (some a) } := by
  refine ⟨fun fd' hfd' => ?_, fun fd' hfd' => ?_, fun fd' hfd' => ?_⟩
  · rw [Set.mem_insert_iff, not_or] at hfd'
    exact (Function.update_of_ne hfd'.1 _ _).trans (h.kept fd' hfd'.2)
  · rcases Set.mem_insert_iff.mp hfd' with rfl | hold
    · exact h.free hfree
    · exact h.fresh fd' hold
  · rcases Set.mem_insert_iff.mp hfd' with rfl | hold
    · exact hpos
    · exact h.positive fd' hold

/-- One that is closed is none of the holder any more. -/
theorem Holds.close (h : Holds files own s) (hfree : files fd = none) :
    Holds files (own \ {fd}) { s with files := Function.update s.files fd none } := by
  refine ⟨fun fd' hfd' => ?_, fun fd' hfd' => h.fresh fd' hfd'.1, fun fd' hfd' =>
    h.positive fd' hfd'.1⟩
  by_cases heq : fd' = fd
  · subst heq
    show Function.update s.files fd' none fd' = _
    rw [Function.update_self, hfree]
  · show Function.update s.files fd none fd' = _
    rw [Function.update_of_ne heq]
    exact h.kept fd' fun hown => hfd' ⟨hown, heq⟩

theorem Holds.files_eq (h : Holds files ∅ s) : s.files = files :=
  funext fun fd => h.kept fd (Set.notMem_empty fd)

end Holds

/-! ## What a call does -/

section Step

variable {s : GppSystem} {m : Mem GppBlock} {α : Type} {e : GppLocals} {a : Attribute} {fd : Int}
  {f : Unit → Prog GppCall GppBlock GppLocals α} {F : GppLocals → GppSystem → Mem GppBlock → Prop}
  {Q : α → GppSystem → Mem GppBlock → Prop}

/-- An attribute is opened, or the loop is left. -/
theorem leads_open_bind (hexit : fd = fileError → F e s m)
    (hgo : fileError < fd → s.files fd = none →
      Leads GppSystem.step { s with files := Function.update s.files fd (some a) } m (f ()) F Q) :
    Leads GppSystem.step s m
      (call (.opened a fd) >>= fun _ => exitIf (fd = fileError) e >>= f) F Q := by
  refine leads_call_bind fun s' hstep => ?_
  simp only [GppSystem.step] at hstep
  split at hstep
  · rename_i hfail
    cases Option.some.inj hstep
    exact leads_exitIf_bind hexit fun hfd => absurd hfail hfd
  · rename_i hfd
    split at hstep
    · rename_i hnew
      cases Option.some.inj hstep
      exact leads_exitIf_bind (fun hfail => absurd hfail hfd) fun _ =>
        hgo (Int.lt_of_lt_of_le (by decide) hnew.1) hnew.2
    · cases hstep

/-- An open attribute takes the byte, or the loop is left. -/
theorem leads_write_bind {byte : UInt8} {retsz : Int} (hfd : s.files fd = some a)
    (hexit : retsz ≠ 1 → F e s m)
    (hgo : retsz = 1 → Leads GppSystem.step { s with card := s.card.store byte a } m (f ()) F Q) :
    Leads GppSystem.step s m
      (call (.written fd byte retsz) >>= fun _ => exitIf (retsz ≠ 1) e >>= f) F Q := by
  refine leads_call_bind fun s' hstep => ?_
  simp only [GppSystem.step, hfd] at hstep
  split at hstep
  · rename_i hfail
    cases Option.some.inj hstep
    exact leads_exitIf_bind hexit fun hgood => absurd hfail hgood
  · rename_i hgood
    cases Option.some.inj hstep
    exact leads_exitIf_bind (fun hfail => absurd hfail hgood) fun _ => hgo (not_not.mp hgood)

theorem GppSystem.step_statusRead {s' : GppSystem} {data : Option (List UInt8)}
    (hfd : s.files fd = some .gppWp) (h : s.step (.statusRead fd data) = some s') :
    s' = s ∧ ∀ t, data = some t → t = s.card.selected.text := by
  simp only [GppSystem.step] at h
  split at h
  · rename_i htext
    exact ⟨(Option.some.inj h).symm, fun t ht => htext t ht hfd⟩
  · cases h

end Step

/-! ## Parts of a command -/

/-- The attributes are opened, and the group is selected. -/
structure SelectAnswers.Succeeds (x : SelectAnswers) : Prop where
  wpgrp : x.wpgrpFd ≠ fileError
  wppart : x.wppartFd ≠ fileError
  wp : x.wpFd ≠ fileError
  partition : x.partitionRetsz = 1
  group : x.groupRetsz = 1

/-- Where a command is that has come from the state `s₀` and changed no protection. -/
structure Selecting (s₀ : GppSystem) (l : GppLocals) (s : GppSystem) : Prop where
  holds : Holds s₀.files l.own s
  result : l.result = exitFailure
  protection : s.card.protection = s₀.card.protection
  terminal : s.terminal = s₀.terminal

/-- The group is selected, and the third attribute is open. -/
structure Selected (s₀ : GppSystem) (l : GppLocals) (s : GppSystem) : Prop
    extends Selecting s₀ l s where
  wpFd : s.files l.wpFd = some .gppWp
  partition : s.card.partition = SecTool.partition
  group : s.card.group = SecTool.group

theorem Selected.selected {s₀ s : GppSystem} {l : GppLocals} (h : Selected s₀ l s) :
    s.card.selected = s₀.card.softfuse := by
  rw [Card.selected, h.partition, h.group, h.protection, Card.softfuse]

/-- Behind another descriptor. -/
theorem Selecting.opened {s₀ s : GppSystem} {l l' : GppLocals} {fd : Int}
    (h : Selecting s₀ l s) (hpos : fileError < fd) (hfree : s.files fd = none)
    (hown : l'.own = insert fd l.own) (hresult : l'.result = l.result) (a : Attribute) :
    Selecting s₀ l' { s with files := Function.update s.files fd (some a) } :=
  ⟨hown ▸ h.holds.insert hpos hfree a, hresult.trans h.result, h.protection, h.terminal⟩

/-- Behind a byte that selects a partition or a group. -/
theorem Selecting.stored {s₀ s : GppSystem} {l : GppLocals} (h : Selecting s₀ l s) (byte : UInt8)
    {a : Attribute} (ha : a ≠ .gppWp) :
    Selecting s₀ l { s with card := s.card.store byte a } := by
  refine ⟨h.holds.congr rfl, h.result, ?_, h.terminal⟩
  cases a with
  | gppWpgroup => exact h.protection
  | gppWppart => exact h.protection
  | gppWp => exact absurd rfl ha

section Own

variable {r a b c : Int}

theorem own_none : (⟨r, fileError, fileError, fileError⟩ : GppLocals).own = ∅ := by
  ext fd
  simp only [GppLocals.own, Set.mem_ofPred_eq, Set.mem_empty_iff_false, iff_false]
  omega

theorem own_wpgrpFd (ha : fileError < a) : (⟨r, a, fileError, fileError⟩ : GppLocals).own =
    insert a (⟨r, fileError, fileError, fileError⟩ : GppLocals).own := by
  ext fd
  simp only [GppLocals.own, Set.mem_ofPred_eq, Set.mem_insert_iff]
  omega

theorem own_wppartFd (hb : fileError < b) : (⟨r, a, b, fileError⟩ : GppLocals).own =
    insert b (⟨r, a, fileError, fileError⟩ : GppLocals).own := by
  ext fd
  simp only [GppLocals.own, Set.mem_ofPred_eq, Set.mem_insert_iff]
  omega

theorem own_wpFd (hc : fileError < c) : (⟨r, a, b, c⟩ : GppLocals).own =
    insert c (⟨r, a, b, fileError⟩ : GppLocals).own := by
  ext fd
  simp only [GppLocals.own, Set.mem_ofPred_eq, Set.mem_insert_iff]
  omega

end Own

/-- Whatever is opened first is open on its attribute until the end. -/
theorem files_update_of_open {files : Int → Option Attribute} {fd fd' : Int} {a : Attribute}
    (hopen : files fd = some a) (hfree : files fd' = none) (a' : Attribute) :
    Function.update files fd' (some a') fd = some a := by
  rw [Function.update_of_ne, hopen]
  intro heq
  rw [heq, hfree] at hopen
  cases hopen

/-- The lines that both functions start with. -/
theorem leads_gppSelect (x : SelectAnswers) (s₀ : GppSystem) (m : Mem GppBlock) :
    Leads GppSystem.step s₀ m (gppSelect x)
      (fun l s _ => ¬ x.Succeeds ∧ Selecting s₀ l s)
      (fun l s m' => m' = m ∧ x.Succeeds ∧ l.wpFd = x.wpFd ∧ Selected s₀ l s) := by
  have hstart : Selecting s₀ ⟨exitFailure, fileError, fileError, fileError⟩ s₀ :=
    ⟨own_none ▸ holds_nothing s₀, rfl, rfl, rfl⟩
  unfold gppSelect
  refine leads_open_bind (fun hfail => ?_) fun hpos₁ hfree₁ => ?_
  · exact ⟨fun hx => hx.wpgrp hfail, hfail.symm ▸ hstart⟩
  have hwpgrp := hstart.opened hpos₁ hfree₁ (own_wpgrpFd hpos₁) rfl .gppWpgroup
  refine leads_open_bind (fun hfail => ?_) fun hpos₂ hfree₂ => ?_
  · exact ⟨fun hx => hx.wppart hfail, hfail.symm ▸ hwpgrp⟩
  have hwppart := hwpgrp.opened hpos₂ hfree₂ (own_wppartFd hpos₂) rfl .gppWppart
  refine leads_open_bind (fun hfail => ?_) fun hpos₃ hfree₃ => ?_
  · exact ⟨fun hx => hx.wp hfail, hfail.symm ▸ hwppart⟩
  have hwp := hwppart.opened hpos₃ hfree₃ (own_wpFd hpos₃) rfl .gppWp
  -- the descriptors are new, so each is open on the attribute that it was opened on
  refine leads_write_bind (a := .gppWppart) ?_ (fun hfail => ?_) fun hpartition => ?_
  · exact files_update_of_open (Function.update_self ..) hfree₃ _
  · exact ⟨fun hx => hfail hx.partition, hwp⟩
  have hwritten := hwp.stored partition (a := .gppWppart) (by decide)
  refine leads_write_bind (a := .gppWpgroup) ?_ (fun hfail => ?_) fun hgroup => ?_
  · refine files_update_of_open ?_ hfree₃ _
    exact files_update_of_open (Function.update_self ..) hfree₂ _
  · exact ⟨fun hx => hfail hx.group, hwritten⟩
  have hselected := hwritten.stored group (a := .gppWpgroup) (by decide)
  refine leads_pure ⟨rfl, ?_, rfl, hselected, Function.update_self .., rfl, rfl⟩
  exact ⟨hpos₁.ne', hpos₂.ne', hpos₃.ne', hpartition, hgroup⟩

/-- A descriptor is closed, if there is one. -/
theorem leads_close_bind {files : Int → Option Attribute} {own : Set Int} {s : GppSystem}
    {m : Mem GppBlock} {fd : Int} {f : Unit → Prog GppCall GppBlock Int Int}
    {F Q : Int → GppSystem → Mem GppBlock → Prop} (h : Holds files own s)
    (hfree : fileError < fd → files fd = none)
    (hgo : ∀ s', Holds files (own \ {fd}) s' → s'.card = s.card → s'.terminal = s.terminal →
      Leads GppSystem.step s' m (f ()) F Q) :
    Leads GppSystem.step s m (onlyIf (fileError < fd) (call (.closed fd)) >>= f) F Q := by
  refine leads_onlyIf_bind (fun hpos => ?_) fun hnone => ?_
  · refine leads_call_bind fun s' hstep => ?_
    cases Option.some.inj hstep
    exact hgo _ (h.close (hfree hpos)) rfl rfl
  · refine hgo s ?_ rfl rfl
    rwa [Set.sdiff_singleton_eq_self fun hfd => hnone (h.positive fd hfd)]

/-- The lines that both functions end with: the files are what they were. -/
theorem leads_gppClose {files : Int → Option Attribute} {l : GppLocals} {s : GppSystem}
    (h : Holds files l.own s) (m : Mem GppBlock) {F : Int → GppSystem → Mem GppBlock → Prop} :
    Leads GppSystem.step s m (gppClose l) F fun result s' _ =>
      result = l.result ∧ s'.files = files ∧ s'.card = s.card ∧ s'.terminal = s.terminal := by
  have hfree : ∀ fd, (fd = l.wpgrpFd ∨ fd = l.wppartFd ∨ fd = l.wpFd) → fileError < fd →
      files fd = none := fun fd hfd hpos => h.fresh fd ⟨hpos, hfd⟩
  unfold gppClose
  refine leads_close_bind h (hfree _ (.inl rfl)) fun s₁ h₁ hcard₁ hterm₁ => ?_
  refine leads_close_bind h₁ (hfree _ (.inr (.inl rfl))) fun s₂ h₂ hcard₂ hterm₂ => ?_
  refine leads_close_bind h₂ (hfree _ (.inr (.inr rfl))) fun s₃ h₃ hcard₃ hterm₃ => ?_
  have hnone : ((l.own \ {l.wpgrpFd}) \ {l.wppartFd}) \ {l.wpFd} = ∅ := by
    ext fd
    simp only [GppLocals.own, Set.mem_sdiff, Set.mem_ofPred_eq, Set.mem_singleton_iff,
      Set.mem_empty_iff_false, iff_false]
    tauto
  refine leads_pure ⟨rfl, (hnone ▸ h₃).files_eq, ?_, ?_⟩
  · rw [hcard₃, hcard₂, hcard₁]
  · rw [hterm₃, hterm₂, hterm₁]

/-! ## The status -/

/-- The line that the tool prints for a protection. -/
def reportLine (p : Protection) : UInt8 × UInt8 × String := (partition, group, p.lockStatus)

theorem strtoul_text (lib : CLibrary) (p : Protection) (rest : List UInt8) :
    lib.strtoul (p.text ++ rest) = ⟨p.number, false⟩ := by
  have hlt := p.number_lt
  have hrange := lib.range
  rw [Protection.text, List.append_assoc, List.singleton_append]
  exact strtoul_decimal lib (by omega) (by decide) rest

theorem lockStatus_number (p : Protection) :
    lockStatus.getD (UInt8.ofNat p.number &&& gppWpstatusMask).toNat "" = p.lockStatus := by
  cases p with
  | _ => rfl

theorem number_le_mask (p : Protection) : ¬ gppWpstatusMask < UInt8.ofNat p.number := by
  cases p with
  | _ => decide

theorem length_text (p : Protection) : p.text.length ≤ maxStrSize := by
  cases p with
  | _ => decide

/-- What is printed is what the attribute reads as, whatever the buffer held. -/
theorem leads_gppPrintStatus (lib : CLibrary) {l : GppLocals} {s : GppSystem}
    (hfd : s.files l.wpFd = some .gppWp) (read : Option (List UInt8)) (m : Mem GppBlock) :
    Leads GppSystem.step s m (gppPrintStatus lib l read) (fun l' s' _ => l' = l ∧ s' = s)
      fun l' s' _ => l' = { l with result := exitSuccess } ∧
        s' = { s with terminal := s.terminal ++ [reportLine s.card.selected] } := by
  unfold gppPrintStatus
  refine leads_call_bind fun s' hstep => ?_
  obtain ⟨rfl, htext⟩ := GppSystem.step_statusRead hfd hstep
  refine leads_valueOrExit_bind (fun _ => ⟨rfl, rfl⟩) fun bytes hbytes => ?_
  have hread : readBytes bytes maxStrSize = s'.card.selected.text := by
    rw [htext bytes hbytes]
    exact List.take_of_length_le (length_text _)
  rw [hread]
  generalize hstart : s'.card.selected = p
  have hstarts := (Mem.starts_nil m .statusStr).putBytes (Nat.zero_le 0) p.text
  rw [List.take_nil, List.nil_append] at hstarts
  obtain ⟨rest, hbuffer⟩ := hstarts.exists_append (length_text p)
  refine leads_quiet_bind rfl rfl (leads_quiet_bind rfl rfl ?_)
  rw [run_putBytes, hbuffer, strtoul_text]
  refine leads_exitIf_bind (fun hbad => absurd hbad ?_) fun _ => ?_
  · rintro (hmask | ⟨herrno, -⟩)
    · exact number_le_mask p hmask
    · cases herrno
  refine leads_call_bind fun s'' hstep => leads_pure ⟨rfl, ?_⟩
  cases Option.some.inj hstep
  rw [lockStatus_number]
  rfl

/-! ## The commands -/

/-- Behind a function that reports the protection of the Softfuse partition, or fails. -/
structure Reported (s : GppSystem) (result : Int) (s' : GppSystem) : Prop where
  files : s'.files = s.files
  protection : s'.card.protection = s.card.protection
  report : (result = exitFailure ∧ s'.terminal = s.terminal) ∨
    (result = exitSuccess ∧ s'.terminal = s.terminal ++ [reportLine s.card.softfuse])

/-- `gpp_read_wp_status`. -/
theorem leads_gppReadWpStatus (lib : CLibrary) (x : StatusAnswers) (s : GppSystem)
    (m : Mem GppBlock) {F : Int → GppSystem → Mem GppBlock → Prop} :
    Leads GppSystem.step s m (gppReadWpStatus lib x) F fun result s' _ =>
      Reported s result s' := by
  unfold gppReadWpStatus
  refine (Leads.returned (Q := fun l s' _ => Holds s.files l.own s' ∧
    Reported s l.result { s' with files := s.files }) ?_).bind fun l s₂ m₂ hloop => ?_
  · refine ((leads_gppSelect x.select s m).conseq (fun l s₁ _ hleft => ?_) fun _ _ _ h => h).bind
      fun l s₁ m₁ hselect => ?_
    · obtain ⟨-, hleft⟩ := hleft
      exact ⟨hleft.holds, rfl, hleft.protection, .inl ⟨hleft.result, hleft.terminal⟩⟩
    · obtain ⟨-, -, -, hselected⟩ := hselect
      have hsame := hselected.terminal
      refine (leads_gppPrintStatus lib hselected.wpFd x.read m₁).conseq ?_ ?_
      · rintro _ _ _ ⟨rfl, rfl⟩
        exact ⟨hselected.holds, rfl, hselected.protection, .inl ⟨hselected.result, hsame⟩⟩
      · rintro _ _ _ ⟨rfl, rfl⟩
        refine ⟨hselected.holds.congr rfl, rfl, hselected.protection, .inr ⟨rfl, ?_⟩⟩
        show s₁.terminal ++ _ = _
        rw [hsame, hselected.selected]
  · obtain ⟨hholds, hreported⟩ := hloop
    refine (leads_gppClose hholds m₂).conseq (fun _ _ _ h => h) fun result s' _ hclosed => ?_
    obtain ⟨rfl, hfiles, hcard, hterminal⟩ := hclosed
    refine ⟨hfiles, hcard ▸ hreported.protection, ?_⟩
    rw [hterminal]
    exact hreported.report

/-- The protections with the Softfuse partition locked. -/
def locked (protection : UInt8 → UInt8 → Protection) : UInt8 → UInt8 → Protection :=
  fun p g => if p = partition ∧ g = group then .permanent else protection p g

/-- The partition is locked, whatever comes of the rest. -/
structure LockAnswers.Locks (x : LockAnswers) : Prop where
  select : x.select.Succeeds
  wpRetsz : x.wpRetsz = 1

/-- Behind a function that locks the partition, if it does, and reports its protection. -/
structure LockedBy (x : LockAnswers) (s : GppSystem) (result : Int) (s' : GppSystem) : Prop where
  files : s'.files = s.files
  outcome : (¬ x.Locks ∧ result = exitFailure ∧ s'.card.protection = s.card.protection ∧
      s'.terminal = s.terminal) ∨
    (x.Locks ∧ s'.card.protection = locked s.card.protection ∧
      ((result = exitFailure ∧ s'.terminal = s.terminal) ∨
        (result = exitSuccess ∧ s'.terminal = s.terminal ++ [reportLine .permanent])))

/-- `gpp_writeprotect`. -/
theorem leads_gppWriteprotect (lib : CLibrary) (x : LockAnswers) (s : GppSystem)
    (m : Mem GppBlock) {F : Int → GppSystem → Mem GppBlock → Prop} :
    Leads GppSystem.step s m (gppWriteprotect lib x) F fun result s' _ =>
      LockedBy x s result s' := by
  unfold gppWriteprotect
  refine (Leads.returned (Q := fun l s' _ => Holds s.files l.own s' ∧
    LockedBy x s l.result { s' with files := s.files }) ?_).bind fun l s₂ m₂ hloop => ?_
  · refine ((leads_gppSelect x.select s m).conseq (fun l s₁ _ hleft => ?_) fun _ _ _ h => h).bind
      fun l s₁ m₁ hselect => ?_
    · obtain ⟨hx, hleft⟩ := hleft
      exact ⟨hleft.holds, rfl,
        .inl ⟨fun h => hx h.select, hleft.result, hleft.protection, hleft.terminal⟩⟩
    · obtain ⟨-, hx, -, hselected⟩ := hselect
      refine leads_write_bind hselected.wpFd (fun hfail => ?_) fun hwp => ?_
      · exact ⟨hselected.holds, rfl, .inl ⟨fun h => hfail h.wpRetsz, hselected.result,
          hselected.protection, hselected.terminal⟩⟩
      · have hlocked : (s₁.card.store wpPermanent .gppWp).protection =
            locked s.card.protection := by
          funext p g
          show (if p = s₁.card.partition ∧ g = s₁.card.group then _ else _) = _
          rw [hselected.partition, hselected.group, hselected.protection]
          rfl
        refine (Leads.returned (leads_gppReadWpStatus lib x.status _ m₁)).bind
          fun result s₂ m₂ hreported => leads_pure ?_
        have hholds : Holds s.files l.own s₂ := hselected.holds.congr hreported.files
        refine ⟨?_, rfl, .inr ⟨⟨hx, hwp⟩, hreported.protection.trans hlocked, ?_⟩⟩
        · exact hholds
        · have hsoftfuse : (s₁.card.store wpPermanent .gppWp).softfuse = .permanent := by
            rw [Card.softfuse, hlocked]
            rfl
          have hreport := hreported.report
          rw [hsoftfuse] at hreport
          rw [← hselected.terminal]
          exact hreport
  · obtain ⟨hholds, hlocked⟩ := hloop
    refine (leads_gppClose hholds m₂).conseq (fun _ _ _ h => h) fun result s' _ hclosed => ?_
    obtain ⟨rfl, hfiles, hcard, hterminal⟩ := hclosed
    refine ⟨hfiles, ?_⟩
    rw [hcard, hterminal]
    exact hlocked.outcome

/-! ## Histories -/

instance (x : SelectAnswers) : Decidable x.Succeeds :=
  decidable_of_iff (x.wpgrpFd ≠ fileError ∧ x.wppartFd ≠ fileError ∧ x.wpFd ≠ fileError ∧
      x.partitionRetsz = 1 ∧ x.groupRetsz = 1)
    ⟨fun h => ⟨h.1, h.2.1, h.2.2.1, h.2.2.2.1, h.2.2.2.2⟩,
      fun h => ⟨h.wpgrp, h.wppart, h.wp, h.partition, h.group⟩⟩

instance (x : LockAnswers) : Decidable x.Locks :=
  decidable_of_iff (x.select.Succeeds ∧ x.wpRetsz = 1)
    ⟨fun h => ⟨h.1, h.2⟩, fun h => ⟨h.select, h.wpRetsz⟩⟩

/-- A command that is run, in a memory of its own. -/
structure GppRun where
  command : GppCommand
  mem : Mem GppBlock

namespace GppRun

variable (lib : CLibrary)

/-- What the command returns to the system. -/
def result (r : GppRun) : Int := ((r.command.function lib).run r.mem).value

/-- The command locks the partition. -/
def Locks (r : GppRun) : Prop := ∃ x, r.command = .gppWpLock x ∧ x.Locks

instance (r : GppRun) : Decidable r.Locks :=
  match h : r.command with
  | .gppWpStatus _ => isFalse fun ⟨_, hlock, _⟩ => nomatch h.symm.trans hlock
  | .gppWpLock x => decidable_of_iff x.Locks
      ⟨fun hx => ⟨x, h, hx⟩, fun ⟨_, hlock, hx⟩ =>
        GppCommand.gppWpLock.inj (h.symm.trans hlock) ▸ hx⟩

/-- The protection of the Softfuse partition behind the command. -/
def next (p : Protection) (r : GppRun) : Protection := if r.Locks then .permanent else p

/-- What the command prints on a card with this protection. -/
def report (p : Protection) (r : GppRun) : List (UInt8 × UInt8 × String) :=
  if r.result lib = exitSuccess then [reportLine (next p r)] else []

end GppRun

/-- The system behind a command, if it answers it so. -/
def GppSystem.command (lib : CLibrary) (s : GppSystem) (r : GppRun) : Option GppSystem :=
  path GppSystem.step s ((r.command.function lib).run r.mem).log.calls

/-- What a command has done. -/
structure Performed (lib : CLibrary) (s : GppSystem) (r : GppRun) (s' : GppSystem) : Prop where
  files : s'.files = s.files
  protection : s'.card.protection =
    if r.Locks then locked s.card.protection else s.card.protection
  terminal : s'.terminal = s.terminal ++ r.report lib s.card.softfuse
  success : r.result lib = exitSuccess → ∀ x, r.command = .gppWpLock x → r.Locks

section Histories

variable {lib : CLibrary} {s₀ s s' : GppSystem} {r : GppRun}

theorem Reported.performed {x : StatusAnswers} {m : Mem GppBlock}
    (h : Reported s (GppRun.result lib ⟨.gppWpStatus x, m⟩) s') :
    Performed lib s ⟨.gppWpStatus x, m⟩ s' := by
  have hnever : ¬ (⟨.gppWpStatus x, m⟩ : GppRun).Locks := fun ⟨_, hlock, _⟩ => nomatch hlock
  refine ⟨h.files, ?_, ?_, fun _ _ hlock => nomatch hlock⟩
  · rw [if_neg hnever]
    exact h.protection
  · rw [GppRun.report, GppRun.next, if_neg hnever]
    obtain ⟨hfail, hsame⟩ | ⟨hsuccess, hline⟩ := h.report
    · rw [if_neg (by rw [hfail]; decide), List.append_nil, hsame]
    · rw [if_pos hsuccess, hline]

theorem LockedBy.performed {x : LockAnswers} {m : Mem GppBlock}
    (h : LockedBy x s (GppRun.result lib ⟨.gppWpLock x, m⟩) s') :
    Performed lib s ⟨.gppWpLock x, m⟩ s' := by
  have hlocks : (⟨.gppWpLock x, m⟩ : GppRun).Locks ↔ x.Locks :=
    ⟨fun ⟨_, hlock, hx⟩ => GppCommand.gppWpLock.inj hlock ▸ hx, fun hx => ⟨x, rfl, hx⟩⟩
  obtain ⟨hnot, hfail, hprotection, hterminal⟩ | ⟨hx, hprotection, hreport⟩ := h.outcome
  · have hno := mt hlocks.mp hnot
    have hfailed : ¬ GppRun.result lib ⟨.gppWpLock x, m⟩ = exitSuccess := by
      rw [hfail]
      decide
    refine ⟨h.files, ?_, ?_, fun hsuccess => absurd hsuccess hfailed⟩
    · rw [if_neg hno, hprotection]
    · rw [GppRun.report, if_neg hfailed, List.append_nil, hterminal]
  · have hyes := hlocks.mpr hx
    refine ⟨h.files, ?_, ?_, fun _ _ _ => hyes⟩
    · rw [if_pos hyes, hprotection]
    · rw [GppRun.report, GppRun.next, if_pos hyes]
      obtain ⟨hfail, hsame⟩ | ⟨hsuccess, hline⟩ := hreport
      · rw [if_neg (by rw [hfail]; decide), List.append_nil, hsame]
      · rw [if_pos hsuccess, hline]

/-- What every command does to a system that answers it. -/
theorem performed (h : s.command lib r = some s') : Performed lib s r s' := by
  obtain ⟨c, m⟩ := r
  cases c with
  | gppWpStatus x =>
      exact ((leads_gppReadWpStatus lib x s m (F := fun result s' _ =>
        Reported s result s')).value h).performed
  | gppWpLock x =>
      exact ((leads_gppWriteprotect lib x s m (F := fun result s' _ =>
        LockedBy x s result s')).value h).performed

/-- What a system shows whose Softfuse partition has the protection `p`, behind the lines. -/
structure Shows (s₀ : GppSystem) (p : Protection) (lines : List (UInt8 × UInt8 × String))
    (s : GppSystem) : Prop where
  files : s.files = s₀.files
  softfuse : s.card.softfuse = p
  others : ∀ q g, ¬ (q = partition ∧ g = group) →
    s.card.protection q g = s₀.card.protection q g
  terminal : s.terminal = s₀.terminal ++ lines

theorem Shows.command {p : Protection} {lines : List (UInt8 × UInt8 × String)}
    (h : Shows s₀ p lines s) (hrun : s.command lib r = some s') :
    Shows s₀ (r.next p) (lines ++ r.report lib p) s' := by
  have hdone := performed hrun
  have hprotection := hdone.protection
  refine ⟨hdone.files.trans h.files, ?_, fun q g hother => ?_, ?_⟩
  · rw [Card.softfuse, hprotection, GppRun.next]
    split
    · rfl
    · exact h.softfuse
  · rw [← h.others q g hother, hprotection]
    split
    · exact if_neg hother
    · rfl
  · rw [hdone.terminal, h.terminal, h.softfuse, List.append_assoc]

/-- Over every history of commands on a system that answers them, the system shows what a machine
does whose state is the protection of the Softfuse partition: no other protection changes, a
command that prints prints the protection, and one that succeeds in locking has locked. -/
theorem softfuse_refines (h : List GppRun) (hrun : path (GppSystem.command lib) s₀ h = some s) :
    Shows s₀ (after GppRun.next s₀.card.softfuse h)
        ((trace GppRun.next s₀.card.softfuse h).flatMap fun e => e.2.report lib e.1) s ∧
      ∀ r ∈ h, r.result lib = exitSuccess → ∀ x, r.command = .gppWpLock x → r.Locks := by
  induction h using List.reverseRecOn generalizing s with
  | nil =>
      cases Option.some.inj hrun
      exact ⟨⟨rfl, rfl, fun _ _ _ => rfl, (List.append_nil _).symm⟩, fun _ hr => nomatch hr⟩
  | append_singleton h r ih =>
      obtain ⟨s₁, hbefore, hlast⟩ := path_snoc_eq_some hrun
      obtain ⟨hshows, hall⟩ := ih hbefore
      refine ⟨?_, fun r' hr' => ?_⟩
      · rw [after_snoc, trace_snoc, List.flatMap_append, List.flatMap_singleton]
        exact hshows.command hlast
      · rcases List.mem_append.mp hr' with hold | hnew
        · exact hall r' hold
        · rw [List.mem_singleton.mp hnew]
          exact (performed hlast).success

end Histories

/-- A card without any protection. -/
def freshSystem : GppSystem := ⟨fun _ => none, ⟨0, 0, fun _ _ => .unlocked⟩, []⟩

/-- A C library with 32 bits in an `unsigned long`. -/
def bionic : CLibrary := ⟨2 ^ 32 - 1, false, le_rfl⟩

def allSelected : SelectAnswers := ⟨3, 4, 5, 1, 1⟩

/-- The status is read twice and the partition is locked in between, where the buffer is full of
nines before. The lock itself reads the status from three more descriptors. -/
def lockedRuns : List GppRun :=
  [⟨.gppWpStatus ⟨allSelected, some [48, 10]⟩, fun _ _ => 57⟩,
    ⟨.gppWpLock ⟨allSelected, 1, ⟨⟨6, 7, 8, 1, 1⟩, some [51, 10]⟩⟩, fun _ _ => 57⟩,
    ⟨.gppWpStatus ⟨allSelected, some [51, 10]⟩, fun _ _ => 57⟩]

/-- The second status is the one that the lock has left. -/
theorem softfuse_refines_locked :
    ∃ s, path (GppSystem.command bionic) freshSystem lockedRuns = some s ∧
      Shows freshSystem .permanent
        [(49, 48, "UNLOCKED (0)"), (49, 48, "PERMANENT (3)"), (49, 48, "PERMANENT (3)")] s := by
  refine ⟨_, rfl, ?_⟩
  exact (@softfuse_refines bionic freshSystem _ lockedRuns rfl).1

end Txei.SecTool

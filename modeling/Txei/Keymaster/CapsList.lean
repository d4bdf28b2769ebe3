import Txei.Keymaster.Exchange

/-!
# The list of capabilities

A capabilities reply is a list of entries of varying length, one for each algorithm. `entriesOf`
reads that list, and `get_caps` is compared with it: it should succeed when the list has an RSA
entry and take `key_opaque_size` from one. The loop of `get_caps` only ever looks at the first
entry and starts from a success, so `takesRsa_iff` finds when the two agree.
-/

namespace Txei.Keymaster

open Machine Machine.Prog Mei

/-! ## The list of a reply -/

/-- An `ANDROID_HECI_KEYMASTER_KEY_CAPS` with its value. -/
structure CapsEntry where
  type : Nat
  value : List UInt8
  deriving DecidableEq, Repr

/-- The entry is about RSA keys. -/
def CapsEntry.IsRsa (e : CapsEntry) : Prop := e.type = fwKeyTypeRsa

instance (e : CapsEntry) : Decidable e.IsRsa := inferInstanceAs (Decidable (_ = _))

/-- The `KeyOpaqueSize` of the value as an `ANDROID_HECI_KEYMASTER_RSA_CAPS_PARAMS`; `none` if
the value is shorter than that. -/
def CapsEntry.keyOpaqueSize (e : CapsEntry) : Option Nat :=
  if RsaCapsParams.size ≤ e.value.length then
    some (Mem.wordOf e.value RsaCapsParams.keyOpaqueSize)
  else none

/-- Some RSA entry of the list has the `KeyOpaqueSize` `size`. -/
def HasRsaSize (entries : List CapsEntry) (size : Nat) : Prop :=
  ∃ e ∈ entries, e.IsRsa ∧ e.keyOpaqueSize = some size

instance (entries : List CapsEntry) (size : Nat) : Decidable (HasRsaSize entries size) :=
  inferInstanceAs (Decidable (∃ e ∈ entries, _))

/-- The entry at offset `o` of a reply buffer that starts with `got`. -/
def entryAt (got : List UInt8) (o : Nat) : CapsEntry where
  type := Mem.wordOf got (o + KeyCaps.type)
  value := (List.range (Mem.wordOf got (o + KeyCaps.length))).map fun i =>
    got.getD (o + KeyCaps.value + i) 0

/-- The `n` entries from offset `o` on of a reply buffer that starts with `got`; `none` if they do
not all lie inside the buffer. -/
def entriesFrom (got : List UInt8) : Nat → Nat → Option (List CapsEntry)
  | 0, _ => some []
  | n + 1, o =>
      let next := o + KeyCaps.value + Mem.wordOf got (o + KeyCaps.length)
      if next ≤ agentMaxMtu then (entriesFrom got n next).map (entryAt got o :: ·) else none

/-- The entries of a capabilities reply. -/
def entriesOf (got : List UInt8) : Option (List CapsEntry) :=
  entriesFrom got (Mem.wordOf got GetCapsResponse.numAlgs) GetCapsResponse.keyCapabilities

/-! ## What `get_caps` owes, and when it delivers -/

/-- The run of `get_caps` succeeds exactly when the list has an RSA entry, and a success leaves the
size of an RSA entry in `key_opaque_size`. -/
structure TakesRsa (r : Run DeviceCall Block Failure Unit) (entries : List CapsEntry) : Prop where
  success : r.result = .ok () ↔ ∃ e ∈ entries, e.IsRsa
  size : r.result = .ok () → HasRsaSize entries (opaqueSize r.mem)

/-- The offset of the `KeyOpaqueSize` of the first entry, taken as an RSA entry. -/
@[simp] abbrev firstKeyOpaqueSize : Nat :=
  GetCapsResponse.keyCapabilities + KeyCaps.value + RsaCapsParams.keyOpaqueSize

/-- The list has an RSA entry in the place where `get_caps` looks, or one with the size that
`get_caps` ends up with all the same: behind another entry, the size `old` from before the call;
behind an RSA entry too short for a size, whatever stands where that size should be. -/
def RsaInPlace (got : List UInt8) (old : Nat) : List CapsEntry → Prop
  | [] => False
  | first :: rest =>
      if first.IsRsa then
        RsaCapsParams.size ≤ first.value.length ∨
          HasRsaSize rest (Mem.wordOf got firstKeyOpaqueSize)
      else HasRsaSize rest old

instance (got : List UInt8) (old : Nat) :
    (entries : List CapsEntry) → Decidable (RsaInPlace got old entries)
  | [] => inferInstanceAs (Decidable False)
  | _ :: _ => inferInstanceAs (Decidable (ite _ _ _))

/-! ## The first entry -/

theorem hasRsaSize_cons (first : CapsEntry) (rest : List CapsEntry) (size : Nat) :
    HasRsaSize (first :: rest) size ↔
      (first.IsRsa ∧ first.keyOpaqueSize = some size) ∨ HasRsaSize rest size := by
  simp only [HasRsaSize, List.mem_cons, exists_eq_or_imp]

theorem entriesFrom_zero {got : List UInt8} {o : Nat} {entries : List CapsEntry}
    (h : entriesFrom got 0 o = some entries) : entries = [] :=
  (Option.some.inj h).symm

theorem entriesFrom_succ {got : List UInt8} {n o : Nat} {entries : List CapsEntry}
    (h : entriesFrom got (n + 1) o = some entries) :
    ∃ rest, entries = entryAt got o :: rest := by
  simp only [entriesFrom] at h
  split at h
  · obtain ⟨rest, -, hrest⟩ := Option.map_eq_some_iff.mp h
    exact ⟨rest, hrest.symm⟩
  · cases h

/-- A value that is long enough has its size where the structure has it. -/
theorem keyOpaqueSize_entryAt {got : List UInt8} {o : Nat}
    (hlen : RsaCapsParams.size ≤ (entryAt got o).value.length) :
    (entryAt got o).keyOpaqueSize =
      some (Mem.wordOf got (o + KeyCaps.value + RsaCapsParams.keyOpaqueSize)) := by
  rw [CapsEntry.keyOpaqueSize, if_pos hlen]
  refine congrArg some (word_congr fun i hi => ?_)
  have hin : RsaCapsParams.keyOpaqueSize + i < Mem.wordOf got (o + KeyCaps.length) := by
    simp only [entryAt, List.length_map, List.length_range, RsaCapsParams.size] at hlen
    simp only [RsaCapsParams.keyOpaqueSize]
    omega
  simp only [entryAt, List.getD_eq_getElem?_getD, List.getElem?_map,
    List.getElem?_range hin, Option.map_some, Option.getD_some, Nat.add_assoc]

theorem keyOpaqueSize_of_short {e : CapsEntry} (hlen : ¬ RsaCapsParams.size ≤ e.value.length) :
    e.keyOpaqueSize = none := if_neg hlen

/-- The size that `get_caps` ends up with is the one of an RSA entry of the list. -/
theorem hasRsaSize_taken {got : List UInt8} {entries : List CapsEntry}
    (hlist : entriesOf got = some entries) (old : Nat) :
    HasRsaSize entries
        (if 0 < Mem.wordOf got GetCapsResponse.numAlgs ∧
            Mem.wordOf got (GetCapsResponse.keyCapabilities + KeyCaps.type) = fwKeyTypeRsa then
          Mem.wordOf got firstKeyOpaqueSize
        else old) ↔ RsaInPlace got old entries := by
  unfold entriesOf at hlist
  generalize Mem.wordOf got GetCapsResponse.numAlgs = n at hlist ⊢
  cases n with
  | zero =>
      rw [entriesFrom_zero hlist]
      exact ⟨fun ⟨e, he, _⟩ => absurd he List.not_mem_nil, False.elim⟩
  | succ n =>
      obtain ⟨rest, rfl⟩ := entriesFrom_succ hlist
      rw [hasRsaSize_cons]
      by_cases hrsa : (entryAt got GetCapsResponse.keyCapabilities).IsRsa
      · have htype : Mem.wordOf got (GetCapsResponse.keyCapabilities + KeyCaps.type) =
            fwKeyTypeRsa := hrsa
        simp only [RsaInPlace, if_pos hrsa, if_pos (And.intro n.succ_pos htype)]
        refine or_congr_left ⟨fun ⟨_, hsize⟩ => ?_, fun hlen => ⟨hrsa, ?_⟩⟩
        · by_contra hshort
          rw [keyOpaqueSize_of_short hshort] at hsize
          cases hsize
        · exact keyOpaqueSize_entryAt hlen
      · have htype : ¬ Mem.wordOf got (GetCapsResponse.keyCapabilities + KeyCaps.type) =
            fwKeyTypeRsa := hrsa
        simp only [RsaInPlace, if_neg hrsa, if_neg fun h => htype (And.right h)]
        exact or_iff_right fun h => hrsa h.1

/-! ## The whole function -/

/-- On a reply that reports success, `get_caps` does what it owes exactly when the list has an RSA
entry in place. -/
theorem takesRsa_iff {x : Exchange} {m : Mem Block} {got : List UInt8} {entries : List CapsEntry}
    (hgot : x.reply ReqHeader.size agentMaxMtu = some got)
    (hcode : Mem.wordOf got RespHeader.responseCode = responseCodeSuccess)
    (hlist : entriesOf got = some entries) :
    TakesRsa ((getCaps true x).run m) entries ↔ RsaInPlace got (opaqueSize m) entries := by
  have hspec := getCaps_spec x m
  rw [hgot, Option.bind_some, opaqueSizeOfCaps, if_pos hcode] at hspec
  obtain ⟨hok, hsize⟩ := hspec
  rw [← hasRsaSize_taken hlist, ← hsize]
  refine ⟨fun h => h.size hok, fun h => ⟨⟨fun _ => ?_, fun _ => hok⟩, fun _ => h⟩⟩
  obtain ⟨e, he, hrsa, -⟩ := h
  exact ⟨e, he, hrsa⟩

/-- A reply of two entries. -/
def twoCapsReply (first second : List UInt8) : List UInt8 :=
  [0, 0, 0, 0, 1, 0, 0, 0, 0, 0, 0, 0, 0, 0, 0, 0, 32, 0, 0, 0, 1, 0, 0, 0, 2, 0, 0, 0] ++
    first ++ second

/-- An RSA entry with a `KeyOpaqueSize` of 256. -/
def rsaEntry : List UInt8 := [0, 0, 0, 0, 8, 0, 0, 0, 7, 0, 0, 0, 0, 1, 0, 0]

/-- An entry about elliptic curves. -/
def ecEntry : List UInt8 := [2, 0, 0, 0, 4, 0, 0, 0, 9, 9, 9, 9]

/-- With the RSA entry in front of the other one, `get_caps` finds its size. -/
theorem takesRsa_first :
    TakesRsa ((getCaps true (answering 12 (twoCapsReply rsaEntry ecEntry))).run fun _ _ => 0)
      [⟨0, [7, 0, 0, 0, 0, 1, 0, 0]⟩, ⟨2, [9, 9, 9, 9]⟩] := by
  have hgot : (answering 12 (twoCapsReply rsaEntry ecEntry)).reply ReqHeader.size agentMaxMtu =
      some (twoCapsReply rsaEntry ecEntry) := by decide
  exact (takesRsa_iff hgot (by decide) (by decide)).mpr (by decide)

/-- With the RSA entry behind the other one, `get_caps` succeeds and leaves `key_opaque_size` at
zero. -/
theorem rsa_missed :
    let x := answering 12 (twoCapsReply ecEntry rsaEntry)
    let entries := [⟨2, [9, 9, 9, 9]⟩, ⟨0, [7, 0, 0, 0, 0, 1, 0, 0]⟩]
    x.reply ReqHeader.size agentMaxMtu = some (twoCapsReply ecEntry rsaEntry) ∧
      Mem.wordOf (twoCapsReply ecEntry rsaEntry) RespHeader.responseCode = responseCodeSuccess ∧
      entriesOf (twoCapsReply ecEntry rsaEntry) = some entries ∧
      ((getCaps true x).run fun _ _ => 0).result = .ok () ∧
      opaqueSize ((getCaps true x).run fun _ _ => 0).mem = 0 ∧
      ¬ TakesRsa ((getCaps true x).run fun _ _ => 0) entries := by
  intro x entries
  have hgot : x.reply ReqHeader.size agentMaxMtu = some (twoCapsReply ecEntry rsaEntry) := by decide
  have hcaps : opaqueSizeOfCaps (twoCapsReply ecEntry rsaEntry) 0 = some 0 := by decide
  have hspec := getCaps_spec x fun _ _ => 0
  rw [hgot, Option.bind_some, show opaqueSize (fun _ _ => 0) = 0 from rfl, hcaps] at hspec
  refine ⟨hgot, by decide, by decide, hspec.1, hspec.2, fun h => ?_⟩
  have hsize := h.size hspec.1
  rw [hspec.2] at hsize
  exact absurd hsize (by decide)

end Txei.Keymaster

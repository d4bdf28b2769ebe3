import Txei.Machine.Endian
import Txei.Keymaster.RequestFrame

/-!
# The numbers of a key in a request

A key generation carries its exponent as a 64-bit little-endian number and its size in bits; the
request has four big-endian bytes and a size in bytes. An import carries three big-endian numbers
of varying length, and the request has fields of fixed width and one length.
`generateKeypairCmdBuf_exponent` and `importKeypairCmdBuf_numbers` say which numbers the requests
hold; `keygen_exact_iff` and `import_told_apart_iff` say when those are the numbers of the command.
-/

namespace Txei.Keymaster

open Machine Machine.Prog Mei

/-! ## The byte swap reverses its bytes -/

/-- The exclusive-or swap exchanges two bytes. -/
theorem xor_swap (x y : UInt8) : y ^^^ (x ^^^ y) = x ∧ (x ^^^ y) ^^^ x = y := by
  constructor
  · rw [UInt8.xor_comm x y, ← UInt8.xor_assoc, UInt8.xor_self, UInt8.zero_xor]
  · rw [UInt8.xor_comm x y, UInt8.xor_assoc, UInt8.xor_self, UInt8.xor_zero]

/-- One round exchanges the two bytes it looks at. -/
theorem swapStep_mem (b : Block) {o bufLen i : Nat} (hi : i < bufLen / 2) (m : Mem Block) :
    ((swapStep b o bufLen i).run m).mem =
      (m.write b (o + i) 1 fun _ => m b (o + (bufLen - 1 - i))).write b (o + (bufLen - 1 - i)) 1
        fun _ => m b (o + i) := by
  have hne : o + i ≠ o + (bufLen - 1 - i) := by omega
  obtain ⟨hx, hy⟩ := xor_swap (m b (o + i)) (m b (o + (bufLen - 1 - i)))
  simp only [swapStep, run_bind, run_loadByte, run_storeByte, Run.andThen_ok, Run.prepend_mem]
  funext b' k
  grind [Mem.write]

/-- After `n` rounds the first `n` bytes and the last `n` have been exchanged. -/
theorem swapRounds_mem (b : Block) {o bufLen n : Nat} (hn : n ≤ bufLen / 2) (m : Mem Block)
    {j : Nat} (hj : j < bufLen) :
    ((swapRounds b o bufLen n).run m).mem b (o + j) =
      if j < n ∨ bufLen - 1 - j < n then m b (o + (bufLen - 1 - j)) else m b (o + j) := by
  induction n generalizing j with
  | zero => simp [swapRounds]
  | succ n ih =>
      have ih := fun {j} => ih (by omega) (j := j)
      rw [swapRounds, run_bind, Run.andThen_of_ok (swapRounds_result b o bufLen n m),
        Run.prepend_mem, swapStep_mem b (by omega)]
      by_cases hlast : j = bufLen - 1 - n
      · have hback : bufLen - 1 - j = n := by omega
        rw [Mem.write_inside _ _ _ _ _ _ (by omega), ih (by omega), if_neg (by omega),
          if_pos (by omega), hback]
      · rw [Mem.write_outside _ _ _ _ _ _ _ (by omega)]
        by_cases hfirst : j = n
        · rw [Mem.write_inside _ _ _ _ _ _ (by omega), ih (by omega), if_neg (by omega),
            if_pos (by omega), hfirst]
        · rw [Mem.write_outside _ _ _ _ _ _ _ (by omega), ih hj]
          exact if_congr (by omega) rfl rfl

/-- `swap_byte_order` reverses the bytes it is given. -/
theorem swapByteOrder_mem (b : Block) {o bufLen j : Nat} (hj : j < bufLen) (m : Mem Block) :
    ((swapByteOrder b o bufLen).run m).mem b (o + j) = m b (o + (bufLen - 1 - j)) := by
  rw [swapByteOrder, swapRounds_mem b (Nat.le_refl _) m hj]
  by_cases hmoved : j < bufLen / 2 ∨ bufLen - 1 - j < bufLen / 2
  · exact if_pos hmoved
  · -- the byte in the middle of an odd number stays
    rw [if_neg hmoved, show bufLen - 1 - j = j by omega]

/-- A byte that it is not given keeps its value. -/
theorem swapByteOrder_outside (b : Block) {o bufLen : Nat} {b' : Block} {i : Nat}
    (h : ¬ (b' = b ∧ o ≤ i ∧ i < o + bufLen)) (m : Mem Block) :
    ((swapByteOrder b o bufLen).run m).mem b' i = m b' i := by
  refine (swapByteOrder b o bufLen).frame m b' i fun e he hw => h ?_
  by_cases hb : b' = b
  · subst hb
    exact ⟨rfl, within_swapByteOrder_range b' o bufLen m e he i hw⟩
  · refine absurd hw ((within_swapByteOrder b o bufLen m e he).not_writes ?_ i)
    exact fun hmem => hb (List.mem_singleton.mp hmem)

/-- `swap_byte_order` puts the bytes it is given in reverse order and changes no other, so that a
second call restores them. -/
theorem swapByteOrder_reverses (b : Block) (o bufLen : Nat) (m : Mem Block) :
    ((swapByteOrder b o bufLen).run m).result = .ok () ∧
      (∀ j < bufLen, ((swapByteOrder b o bufLen).run m).mem b (o + j) =
        m b (o + (bufLen - 1 - j))) ∧
      (∀ b' i, ¬ (b' = b ∧ o ≤ i ∧ i < o + bufLen) →
        ((swapByteOrder b o bufLen).run m).mem b' i = m b' i) ∧
      ((swapByteOrder b o bufLen).run ((swapByteOrder b o bufLen).run m).mem).mem = m := by
  refine ⟨swapByteOrder_result b o bufLen m, fun j hj => swapByteOrder_mem b hj m,
    fun b' i hout => swapByteOrder_outside b hout m, ?_⟩
  funext b' i
  by_cases hin : b' = b ∧ o ≤ i ∧ i < o + bufLen
  · obtain ⟨rfl, hlo, hhi⟩ := hin
    obtain ⟨j, rfl⟩ := Nat.exists_eq_add_of_le hlo
    have hj : j < bufLen := Nat.lt_of_add_lt_add_left hhi
    rw [swapByteOrder_mem b' hj, swapByteOrder_mem b' (by omega)]
    congr 1
    omega
  · rw [swapByteOrder_outside b hin, swapByteOrder_outside b hin]

/-! ## Key generation -/

section Keygen

variable (m : Mem Block)

/-- `modulus_size` of a key generation command. -/
def modulusSize : Nat := m.word .cmdBuffer (rsaKeygenParams + RsaKeygenParams.modulusSize)

/-- `public_exponent` of a key generation command. -/
def publicExponent : Nat :=
  littleEndian (fun i => m .cmdBuffer (rsaKeygenParams + RsaKeygenParams.publicExponent + i)) 8

/-- The `PublicExponent` of a key generation request. -/
def keygenExponent : Nat :=
  bigEndian (fun i => m .request (GenKeyRequest.publicExponent + i)) publicExponentMaxSize

/-- A key generation request can carry the numbers of the command. -/
def KeygenFits : Prop := publicExponent m < 2 ^ 32 ∧ 8 ∣ modulusSize m

instance : Decidable (KeygenFits m) := inferInstanceAs (Decidable (_ ∧ _))

/-- The request of an accepted command has the numbers of the command, and a command with other
numbers than a request can carry is not accepted. -/
structure KeygenExact (r : Run DeviceCall Block Failure Unit) : Prop where
  exponent : r.result = .ok () → keygenExponent r.mem = publicExponent m
  keySize : r.result = .ok () →
    8 * r.mem.word .request GenKeyRequest.keySize = modulusSize m
  rejects : ¬ KeygenFits m → r.result ≠ .ok ()

/-- The request before the swap: the size in whole bytes, and the low half of the exponent. -/
def keygenUnswapped (m : Mem Block) : Mem Block :=
  (m.write .request GenKeyRequest.keySize 4 (byteAt (modulusSize m / 8))).write .request
    GenKeyRequest.publicExponent publicExponentMaxSize fun i =>
      m .cmdBuffer (rsaKeygenParams + RsaKeygenParams.publicExponent + i)

theorem generateKeypairCmdBuf_mem {m : Mem Block}
    (ha : Command.Accepts m (opaqueSize m) .generateKeypair) :
    (generateKeypairCmdBuf.run m).mem =
      ((swapByteOrder .request GenKeyRequest.publicExponent publicExponentMaxSize).run
        (keygenUnswapped m)).mem.write .request ReqHeader.inputSize 4 (byteAt 8) := by
  obtain ⟨hd, hkt⟩ := ha
  have hd' : ¬ m.word .cmdBuffer FirmwareCmd.cmdDataLength <
      KeygenParams.size + RsaKeygenParams.size := Nat.not_lt.mpr hd
  simp only [generateKeypairCmdBuf, run_bind, run_load, run_exitIf, run_store, run_memcpy,
    Run.andThen_ok, Run.prepend_mem, if_neg hd', if_neg (not_not_intro hkt),
    Run.andThen_of_ok (swapByteOrder_result ..)]
  rfl

/-- The request of an accepted command holds the size in whole bytes. -/
theorem generateKeypairCmdBuf_keySize {m : Mem Block}
    (ha : Command.Accepts m (opaqueSize m) .generateKeypair) :
    (generateKeypairCmdBuf.run m).mem.word .request GenKeyRequest.keySize =
      modulusSize m / 8 := by
  have hlt : modulusSize m / 8 < 2 ^ 32 :=
    Nat.lt_of_le_of_lt (Nat.div_le_self _ 8) (m.word_lt .cmdBuffer _)
  rw [generateKeypairCmdBuf_mem ha, Mem.word_write_apart _ _ _ _ _ _ (by decide),
    swapByteOrder_word_before .request (by decide), keygenUnswapped,
    Mem.word_write_apart _ _ _ _ _ _ (by decide), Mem.word_write_same, wrap32_of_lt hlt]

/-- The request of an accepted command holds the low half of the exponent. -/
theorem generateKeypairCmdBuf_exponent {m : Mem Block}
    (ha : Command.Accepts m (opaqueSize m) .generateKeypair) :
    keygenExponent (generateKeypairCmdBuf.run m).mem = publicExponent m % 2 ^ 32 := by
  have hbyte : ∀ i < publicExponentMaxSize,
      (generateKeypairCmdBuf.run m).mem .request (GenKeyRequest.publicExponent + i) =
        m .cmdBuffer (rsaKeygenParams + RsaKeygenParams.publicExponent +
          (publicExponentMaxSize - 1 - i)) := by
    intro i hi
    have hback : ReqHeader.inputSize + 4 ≤ GenKeyRequest.publicExponent + i :=
      Nat.le_add_right_of_le (by decide)
    have hin : publicExponentMaxSize - 1 - i < publicExponentMaxSize := by omega
    rw [generateKeypairCmdBuf_mem ha, Mem.write_outside _ _ _ _ _ _ _ (by omega),
      swapByteOrder_mem .request hi, keygenUnswapped,
      Mem.write_inside _ _ _ _ _ _ (by omega), Nat.add_sub_cancel_left]
  rw [keygenExponent, bigEndian_congr hbyte,
    bigEndian_reverse fun i => m .cmdBuffer (rsaKeygenParams + RsaKeygenParams.publicExponent + i)]
  exact (littleEndian_mod _ 4 4).symm

/-- A key generation is exact if and only if it is refused for its length or its key type, or its
exponent has no more than 32 bits and its modulus a whole number of bytes. -/
theorem keygen_exact_iff (m : Mem Block) :
    KeygenExact m (generateKeypairCmdBuf.run m) ↔
      (20 ≤ cmdDataLength m → keygenKeyType m = keyTypeRsa → KeygenFits m) := by
  have haccepts := (generateKeypairCmdBuf_spec m 8 (by decide)).1
  constructor
  · intro h hd hkt
    by_contra hfits
    exact h.rejects hfits (haccepts.mpr ⟨hd, hkt⟩)
  · intro h
    have hfits : (generateKeypairCmdBuf.run m).result = .ok () → KeygenFits m :=
      fun hok => h (haccepts.mp hok).1 (haccepts.mp hok).2
    refine ⟨fun hok => ?_, fun hok => ?_, fun hno hok => hno (hfits hok)⟩
    · rw [generateKeypairCmdBuf_exponent (haccepts.mp hok), Nat.mod_eq_of_lt (hfits hok).1]
    · rw [generateKeypairCmdBuf_keySize (haccepts.mp hok), Nat.mul_div_cancel' (hfits hok).2]

/-- A key generation for 2048 bits with the exponent 2 ^ 32 + 3. -/
def keygenMemLong : Mem Block := .ofLists fun
  | .cmdBuffer =>
      [1, 0, 0, 0, 20, 0, 0, 0, 1, 0, 0, 0, 0, 8, 0, 0, 0, 0, 0, 0, 3, 0, 0, 0, 1, 0, 0, 0]
  | _ => []

/-- It is accepted, and the request asks for the exponent 3. -/
theorem keygen_not_exact :
    (generateKeypairCmdBuf.run keygenMemLong).result = .ok () ∧
      publicExponent keygenMemLong = 2 ^ 32 + 3 ∧
      keygenExponent (generateKeypairCmdBuf.run keygenMemLong).mem = 3 ∧
      ¬ KeygenExact keygenMemLong (generateKeypairCmdBuf.run keygenMemLong) := by
  have ha : Command.Accepts keygenMemLong (opaqueSize keygenMemLong) .generateKeypair := by decide
  have hok := (generateKeypairCmdBuf_spec keygenMemLong 8 (by decide)).1.mpr ha
  have hexp : publicExponent keygenMemLong = 2 ^ 32 + 3 := by decide
  have hreq := generateKeypairCmdBuf_exponent ha
  rw [hexp] at hreq
  refine ⟨hok, hexp, hreq, fun h => ?_⟩
  have heq := h.exponent hok
  rw [hreq, hexp] at heq
  exact absurd heq (by decide)

end Keygen

/-! ## Import -/

section Import

variable (m : Mem Block)

/-- The modulus of an import command. -/
def modulus : Nat :=
  bigEndian (fun i => m .cmdBuffer (rsaKey + RsaKey.bytes + i)) (modulusLength m)

/-- The public exponent of an import command. -/
def importExponent : Nat :=
  bigEndian (fun i => m .cmdBuffer (rsaKey + RsaKey.bytes + modulusLength m + i))
    (publicExponentLength m)

/-- The private exponent of an import command. -/
def privateExponent : Nat :=
  bigEndian
    (fun i =>
      m .cmdBuffer (rsaKey + RsaKey.bytes + modulusLength m + publicExponentLength m + i))
    (privateExponentLength m)

/-- The memory holds an import command that the builder accepts and whose nested lengths lie
inside it. -/
structure IsImport : Prop where
  cmdId : m.word .cmdBuffer FirmwareCmd.cmdId = Command.importKeypair.halId
  accepts : Command.Accepts m (opaqueSize m) .importKeypair
  nested : ImportKey.size + RsaKey.size + modulusLength m + publicExponentLength m +
    privateExponentLength m ≤ cmdDataLength m

/-- The request that `generate_cmd_buf` builds. -/
def requestOf : Nat → UInt8 := ((generateCmdBuf true).run m).mem .request

variable (m' : Mem Block)

/-- The requests of two import commands have the same bytes. -/
def SameRequest : Prop := ∀ o < ImportKeyRequest.size, requestOf m o = requestOf m' o

/-- Two import commands carry different numbers. -/
def DifferentKeys : Prop :=
  modulus m ≠ modulus m' ∨ importExponent m ≠ importExponent m' ∨
    privateExponent m ≠ privateExponent m'

/-- Two import commands with different numbers have different requests. -/
def ToldApart : Prop := DifferentKeys m m' → ¬ SameRequest m m'

/-- The private exponent of the second command is that of the first with zero bytes behind it. -/
def PrivatePadded : Prop :=
  privateExponent m ≠ 0 ∧ ∃ k, 0 < k ∧ privateExponentLength m' = privateExponentLength m + k ∧
    privateExponent m' = privateExponent m * 256 ^ k

/-- The fields behind the header after an import command has been accepted. -/
def importFields : Mem Block :=
  ((((m.write .request ImportKeyRequest.keySize 4 (byteAt (modulusLength m))).write .request
    ImportKeyRequest.modulus (modulusLength m) fun i =>
      m .cmdBuffer (rsaKey + RsaKey.bytes + i)).write .request
    ImportKeyRequest.publicExponent publicExponentMaxSize fun _ => 0).write .request
    (ImportKeyRequest.publicExponent + publicExponentMaxSize - publicExponentLength m)
    (publicExponentLength m) fun i =>
      m .cmdBuffer (rsaKey + RsaKey.bytes + modulusLength m + i)).write .request
    ImportKeyRequest.privateExponent (privateExponentLength m) fun i =>
      m .cmdBuffer (rsaKey + RsaKey.bytes + modulusLength m + publicExponentLength m + i)

variable {m}

theorem importKeypairCmdBuf_mem (ha : Command.Accepts m (opaqueSize m) .importKeypair) :
    (importKeypairCmdBuf.run m).mem =
      (importFields m).write .request ReqHeader.inputSize 4 (byteAt 520) := by
  obtain ⟨hd, hpe, hml, hpre⟩ := ha
  have hd' : ¬ m.word .cmdBuffer FirmwareCmd.cmdDataLength < ImportKey.size + RsaKey.size :=
    Nat.not_lt.mpr hd
  simp only [importKeypairCmdBuf, run_bind, run_load, run_exitIf, run_store, run_memcpy,
    run_memset, Run.andThen_ok, Run.prepend_mem, if_neg hd', if_neg (not_not_intro hpe),
    if_neg (not_not_intro hml), if_neg (not_not_intro hpre)]
  rfl

/-- The request of a supported command is what its builder leaves. -/
theorem requestOf_known {c : Command}
    (hid : Command.ofHalId (m.word .cmdBuffer FirmwareCmd.cmdId) = some c) :
    requestOf m = (c.cmdBuf.run (c.requestStart m)).mem .request := by
  rw [requestOf, generateCmdBuf_known hid, Run.prepend_mem, Run.andThen_pure_mem]

/-- The request as its fields are laid out: the later of two writes to a byte comes first. -/
theorem requestOf_apply (h : IsImport m) (o : Nat) :
    requestOf m o =
      if 8 ≤ o ∧ o < 12 then byteAt 520 (o - 8)
      else if 276 ≤ o ∧ o < 276 + privateExponentLength m then
        m .cmdBuffer (24 + modulusLength m + publicExponentLength m + (o - 276))
      else if 20 - publicExponentLength m ≤ o ∧ o < 20 then
        m .cmdBuffer (24 + modulusLength m + (o - (20 - publicExponentLength m)))
      else if 16 ≤ o ∧ o < 20 then 0
      else if 20 ≤ o ∧ o < 20 + modulusLength m then m .cmdBuffer (24 + (o - 20))
      else if 12 ≤ o ∧ o < 16 then byteAt (modulusLength m) (o - 12)
      else Command.importKeypair.requestStart m .request o := by
  have hcmd := Command.importKeypair.requestStart_other m (b := .cmdBuffer) (by decide)
  have haccepts := (Command.importKeypair.accepts_requestStart m).mpr h.accepts
  have hid : Command.ofHalId (m.word .cmdBuffer FirmwareCmd.cmdId) = some .importKeypair := by
    rw [h.cmdId, Command.ofHalId_halId]
  have hmem : requestOf m =
      ((importFields (Command.importKeypair.requestStart m)).write .request ReqHeader.inputSize 4
        (byteAt 520)) .request := by
    rw [requestOf_known hid, ← importKeypairCmdBuf_mem haccepts]
    rfl
  have hpe : 20 - publicExponentLength m + publicExponentLength m = 20 :=
    Nat.sub_add_cancel (Nat.le_trans h.accepts.2.1 (by decide))
  simp only [hmem, importFields, Mem.write, modulusLength, publicExponentLength,
    privateExponentLength, Mem.word, hcmd, ReqHeader.inputSize, ImportKeyRequest.privateExponent,
    ImportKeyRequest.publicExponent, ImportKeyRequest.modulus, ImportKeyRequest.keySize,
    publicExponentMaxSize, true_and] at hpe ⊢
  rw [hpe]
  rfl

/-- The header is that of every import, and what the allocation held is cleared. -/
theorem importStart_apply (m : Mem Block) {o : Nat} (ho : o < 532) :
    Command.importKeypair.requestStart m .request o =
      if 4 ≤ o ∧ o < 8 then byteAt 2 (o - 4) else if o < 4 then byteAt 1 o else 0 := by
  simp only [Command.requestStart, Mem.write, Command.fwRequestLen, Command.fwId,
    ReqHeader.cmdClass, ReqHeader.cmdId, ImportKeyRequest.size, cmdClassKeyMaster, true_and,
    Nat.zero_le, Nat.zero_add, Nat.sub_zero, if_pos ho]

theorem importStart_zero (m : Mem Block) {o : Nat} (h8 : 8 ≤ o) (ho : o < 532) :
    Command.importKeypair.requestStart m .request o = 0 := by
  rw [importStart_apply m ho, if_neg (by omega), if_neg (by omega)]

section Bytes

variable (h : IsImport m) {i : Nat}

include h

/-- The header does not depend on the command. -/
theorem requestOf_header (hi : i < 12) :
    requestOf m i = if 8 ≤ i then byteAt 520 (i - 8)
      else if 4 ≤ i ∧ i < 8 then byteAt 2 (i - 4) else byteAt 1 i := by
  have hpe : publicExponentLength m ≤ 4 := h.accepts.2.1
  rw [requestOf_apply h]
  by_cases h8 : 8 ≤ i
  · rw [if_pos ⟨h8, hi⟩, if_pos h8]
  · rw [if_neg (by omega), if_neg (by omega), if_neg (by omega), if_neg (by omega),
      if_neg (by omega), if_neg (by omega), importStart_apply m (by omega), if_neg h8]
    by_cases h4 : 4 ≤ i ∧ i < 8
    · rw [if_pos h4, if_pos h4]
    · rw [if_neg h4, if_neg h4, if_pos (by omega)]

theorem requestOf_keySize (hi : i < 4) : requestOf m (12 + i) = byteAt (modulusLength m) i := by
  have hpe : publicExponentLength m ≤ 4 := h.accepts.2.1
  rw [requestOf_apply h, if_neg (by omega), if_neg (by omega), if_neg (by omega),
    if_neg (by omega), if_neg (by omega), if_pos (by omega), Nat.add_sub_cancel_left]

theorem requestOf_publicExponent (hi : i < 4) :
    requestOf m (16 + i) = if i < 4 - publicExponentLength m then 0
      else m .cmdBuffer (24 + modulusLength m + (i - (4 - publicExponentLength m))) := by
  have hpe : publicExponentLength m ≤ 4 := h.accepts.2.1
  rw [requestOf_apply h, if_neg (by omega), if_neg (by omega)]
  by_cases hfront : i < 4 - publicExponentLength m
  · rw [if_neg (by omega), if_pos (by omega), if_pos hfront]
  · have hoff : 16 + i - (20 - publicExponentLength m) = i - (4 - publicExponentLength m) := by
      omega
    rw [if_pos (by omega), if_neg hfront, hoff]

theorem requestOf_modulus (hi : i < 256) :
    requestOf m (20 + i) = if i < modulusLength m then m .cmdBuffer (24 + i) else 0 := by
  rw [requestOf_apply h, if_neg (by omega), if_neg (by omega), if_neg (by omega),
    if_neg (by omega)]
  by_cases hin : i < modulusLength m
  · rw [if_pos (by omega), if_pos hin, Nat.add_sub_cancel_left]
  · rw [if_neg (by omega), if_neg (by omega), if_neg hin, importStart_zero m (by omega) (by omega)]

theorem requestOf_privateExponent (hi : i < 256) :
    requestOf m (276 + i) = if i < privateExponentLength m then
      m .cmdBuffer (24 + modulusLength m + publicExponentLength m + i) else 0 := by
  have hml : modulusLength m ≤ 256 := h.accepts.2.2.1
  rw [requestOf_apply h, if_neg (by omega)]
  by_cases hin : i < privateExponentLength m
  · rw [if_pos (by omega), if_pos hin, Nat.add_sub_cancel_left]
  · rw [if_neg (by omega), if_neg (by omega), if_neg (by omega), if_neg (by omega),
      if_neg (by omega), if_neg hin, importStart_zero m (by omega) (by omega)]

end Bytes

/-- What the request of an import holds: the length of the modulus, the modulus and the private
exponent from the start of their fields on, and the public exponent up to the end of its field. -/
theorem importKeypairCmdBuf_numbers (h : IsImport m) :
    word (fun i => requestOf m (12 + i)) = modulusLength m ∧
      bigEndian (fun i => requestOf m (16 + i)) 4 = importExponent m ∧
      bigEndian (fun i => requestOf m (20 + i)) 256 =
        modulus m * 256 ^ (256 - modulusLength m) ∧
      bigEndian (fun i => requestOf m (276 + i)) 256 =
        privateExponent m * 256 ^ (256 - privateExponentLength m) := by
  obtain ⟨-, hpe, hml, hpre⟩ := h.accepts
  refine ⟨?_, ?_, ?_, ?_⟩
  · rw [word_of_byteAt fun i hi => requestOf_keySize h hi, wrap32_of_lt (m.word_lt .cmdBuffer _)]
  · exact bigEndian_aligned hpe fun i hi => requestOf_publicExponent h hi
  · exact bigEndian_filled hml fun i hi => requestOf_modulus h hi
  · exact bigEndian_filled hpre fun i hi => requestOf_privateExponent h hi

theorem sameRequest_iff {m' : Mem Block} (h : IsImport m) (h' : IsImport m') :
    SameRequest m m' ↔
      modulusLength m = modulusLength m' ∧ importExponent m = importExponent m' ∧
        modulus m = modulus m' ∧
        privateExponent m * 256 ^ (256 - privateExponentLength m) =
          privateExponent m' * 256 ^ (256 - privateExponentLength m') := by
  obtain ⟨hlen, hpe, hmod, hpre⟩ := importKeypairCmdBuf_numbers h
  obtain ⟨hlen', hpe', hmod', hpre'⟩ := importKeypairCmdBuf_numbers h'
  constructor
  · intro hsame
    have hbytes : ∀ o n, o + n ≤ 532 → ∀ i < n, requestOf m (o + i) = requestOf m' (o + i) :=
      fun o n hon i hi => hsame (o + i) (Nat.lt_of_lt_of_le (Nat.add_lt_add_left hi o) hon)
    have hml : modulusLength m = modulusLength m' := by
      rw [← hlen, ← hlen', word_congr (hbytes 12 4 (by decide))]
    refine ⟨hml, ?_, ?_, ?_⟩
    · rw [← hpe, ← hpe', bigEndian_congr (hbytes 16 4 (by decide))]
    · have hshift := bigEndian_congr (hbytes 20 256 (by decide))
      rw [hmod, hmod', hml] at hshift
      exact Nat.mul_right_cancel (Nat.pow_pos (by decide)) hshift
    · rw [← hpre, ← hpre', bigEndian_congr (hbytes 276 256 (by decide))]
  · intro hnumbers
    obtain ⟨hml, hexp, hmodulus, hprivate⟩ := hnumbers
    have hfield : ∀ o n, bigEndian (fun i => requestOf m (o + i)) n =
        bigEndian (fun i => requestOf m' (o + i)) n →
        ∀ i < n, requestOf m (o + i) = requestOf m' (o + i) := fun _ _ => bigEndian_inj.mp
    have h16 := hfield 16 4 (by rw [hpe, hpe', hexp])
    have h20 := hfield 20 256 (by rw [hmod, hmod', hmodulus, hml])
    have h276 := hfield 276 256 (by rw [hpre, hpre', hprivate])
    intro o ho
    simp only [ImportKeyRequest.size] at ho
    -- the five parts of the request, from the header on
    rcases Nat.lt_or_ge o 12 with hlt | hge
    · rw [requestOf_header h hlt, requestOf_header h' hlt]
    rcases Nat.lt_or_ge o 16 with hlt | hge
    · obtain ⟨i, rfl⟩ := Nat.exists_eq_add_of_le ‹12 ≤ o›
      rw [requestOf_keySize h (by omega), requestOf_keySize h' (by omega), hml]
    rcases Nat.lt_or_ge o 20 with hlt | hge
    · obtain ⟨i, rfl⟩ := Nat.exists_eq_add_of_le ‹16 ≤ o›
      exact h16 i (by omega)
    rcases Nat.lt_or_ge o 276 with hlt | hge
    · obtain ⟨i, rfl⟩ := Nat.exists_eq_add_of_le ‹20 ≤ o›
      exact h20 i (by omega)
    · obtain ⟨i, rfl⟩ := Nat.exists_eq_add_of_le hge
      exact h276 i (by omega)

/-- Private exponents that fill their field alike, the second of the longer length, are the same
number or differ by the zero bytes behind the second. -/
theorem privatePadded_iff {m' : Mem Block} (h' : IsImport m')
    (hle : privateExponentLength m ≤ privateExponentLength m') :
    privateExponent m * 256 ^ (256 - privateExponentLength m) =
        privateExponent m' * 256 ^ (256 - privateExponentLength m') ∧
        privateExponent m ≠ privateExponent m' ↔
      PrivatePadded m m' := by
  have hpre' : privateExponentLength m' ≤ 256 := h'.accepts.2.2.2
  obtain ⟨k, hk⟩ := Nat.exists_eq_add_of_le hle
  rw [hk] at hpre' ⊢
  rw [filled_eq_iff hpre', PrivatePadded, hk]
  constructor
  · intro hpad
    obtain ⟨hshift, hne⟩ := hpad
    have hzero : privateExponent m ≠ 0 := fun h0 => hne (by rw [hshift, h0, Nat.zero_mul])
    have hpos : 0 < k := Nat.pos_of_ne_zero fun h0 => hne (by rw [hshift, h0, pow_zero, mul_one])
    exact ⟨hzero, k, hpos, rfl, hshift⟩
  · intro hpad
    obtain ⟨hzero, k', hpos, hlen, hshift⟩ := hpad
    obtain rfl : k = k' := Nat.add_left_cancel hlen
    refine ⟨hshift, fun heq => ?_⟩
    have hgrow : privateExponent m * 1 < privateExponent m * 256 ^ k :=
      Nat.mul_lt_mul_of_pos_left (Nat.one_lt_pow hpos.ne' (by decide)) (Nat.pos_of_ne_zero hzero)
    rw [mul_one, ← hshift, heq] at hgrow
    exact Nat.lt_irrefl _ hgrow

theorem PrivatePadded.length_lt {m' : Mem Block} (h : PrivatePadded m m') :
    privateExponentLength m < privateExponentLength m' := by
  obtain ⟨-, k, hpos, hlen, -⟩ := h
  omega

theorem samePrivate_iff {m' : Mem Block} (h : IsImport m) (h' : IsImport m') :
    privateExponent m * 256 ^ (256 - privateExponentLength m) =
        privateExponent m' * 256 ^ (256 - privateExponentLength m') ∧
        privateExponent m ≠ privateExponent m' ↔
      PrivatePadded m m' ∨ PrivatePadded m' m := by
  rcases Nat.le_total (privateExponentLength m) (privateExponentLength m') with hle | hle
  · rw [privatePadded_iff h' hle]
    exact (or_iff_left fun hback => absurd hback.length_lt (Nat.not_lt.mpr hle)).symm
  · rw [eq_comm, ne_comm, privatePadded_iff h hle]
    exact (or_iff_right fun hback => absurd hback.length_lt (Nat.not_lt.mpr hle)).symm

/-- Two import commands with different numbers have different requests unless they agree in
everything but the zero bytes at the end of one of the private exponents. -/
theorem import_told_apart_iff {m' : Mem Block} (h : IsImport m) (h' : IsImport m') :
    ToldApart m m' ↔
      ¬ (modulusLength m = modulusLength m' ∧ modulus m = modulus m' ∧
        importExponent m = importExponent m' ∧ (PrivatePadded m m' ∨ PrivatePadded m' m)) := by
  unfold ToldApart DifferentKeys
  rw [sameRequest_iff h h', ← samePrivate_iff h h']
  constructor
  · intro hapart hsame
    obtain ⟨hml, hmodulus, hexp, hfill, hne⟩ := hsame
    exact hapart (.inr (.inr hne)) ⟨hml, hexp, hmodulus, hfill⟩
  · intro hno hdiff hsame
    obtain ⟨hml, hexp, hmodulus, hfill⟩ := hsame
    rcases hdiff with hne | hne | hne
    · exact hne hmodulus
    · exact hne hexp
    · exact hno ⟨hml, hmodulus, hexp, hfill, hne⟩

end Import

/-- An import command with the modulus 187, the public exponent 3 and the bytes `d` of the private
exponent. -/
def importMem (d : List UInt8) : Mem Block := .ofLists fun
  | .cmdBuffer =>
      [2, 0, 0, 0, 20, 0, 0, 0, 1, 0, 0, 0, 1, 0, 0, 0, 1, 0, 0, 0,
        UInt8.ofNat d.length, 0, 0, 0, 187, 3] ++ d
  | _ => []

/-- The private exponents 5 and 7 are told apart. -/
theorem import_told_apart : ToldApart (importMem [5]) (importMem [7]) := by
  have h5 : IsImport (importMem [5]) := ⟨by decide, by decide, by decide⟩
  have h7 : IsImport (importMem [7]) := ⟨by decide, by decide, by decide⟩
  refine (import_told_apart_iff h5 h7).mpr fun hsame => ?_
  rcases hsame.2.2.2 with hpad | hpad
  · exact absurd hpad.length_lt (by decide)
  · exact absurd hpad.length_lt (by decide)

/-- The private exponents 5 and 5 * 256 are not. -/
theorem import_not_told_apart :
    IsImport (importMem [5]) ∧ IsImport (importMem [5, 0]) ∧
      privateExponent (importMem [5]) = 5 ∧ privateExponent (importMem [5, 0]) = 1280 ∧
      SameRequest (importMem [5]) (importMem [5, 0]) ∧
      ¬ ToldApart (importMem [5]) (importMem [5, 0]) := by
  have h1 : IsImport (importMem [5]) := ⟨by decide, by decide, by decide⟩
  have h2 : IsImport (importMem [5, 0]) := ⟨by decide, by decide, by decide⟩
  have hd1 : privateExponent (importMem [5]) = 5 := by decide
  have hd2 : privateExponent (importMem [5, 0]) = 1280 := by decide
  have hlen1 : privateExponentLength (importMem [5]) = 1 := by decide
  have hlen2 : privateExponentLength (importMem [5, 0]) = 1 + 1 := by decide
  have hshift : privateExponent (importMem [5, 0]) = privateExponent (importMem [5]) * 256 ^ 1 := by
    decide
  have hsame : SameRequest (importMem [5]) (importMem [5, 0]) := by
    refine (sameRequest_iff h1 h2).mpr ⟨by decide, by decide, by decide, ?_⟩
    rw [hlen1, hlen2]
    exact (filled_eq_iff (by decide)).mpr hshift
  refine ⟨h1, h2, hd1, hd2, hsame, fun h => h (.inr (.inr ?_)) hsame⟩
  rw [hd1, hd2]
  decide

end Txei.Keymaster

import Txei.Machine.Slice
import Txei.Keymaster.KeyBlobs

/-!
# What a command asks

`generate_cmd_buf` translates a command of the HAL into a request to the firmware. A `Question` is
what either of them asks about RSA keys: `ofCommand` reads a command by the structures of
`intelkeymaster_firmware_api.h` and `ofRequest` a request by those of `android_heci_agent.h`. A
command that cannot be read, or that asks what no request can, is no question.
`ofRequest_requestOf` says that the translation keeps the question.
-/

namespace Txei.Keymaster

open Machine Machine.Prog Mei

/-- A question about RSA keys. A modulus and a private exponent are the bytes of big-endian numbers
of one length. -/
inductive Question where
  | generate (keySize exponent : Nat)
  | importKey (modulus : List UInt8) (exponent : Nat) (privateExponent : List UInt8)
  | publicKey (key : List UInt8)
  | sign (key data : List UInt8)
  | verify (key data signature : List UInt8)
  deriving DecidableEq, Repr

/-- The command that asks a question. -/
def Question.command : Question → Command
  | generate .. => .generateKeypair
  | importKey .. => .importKeypair
  | publicKey _ => .getKeypairPublic
  | sign .. => .signData
  | verify .. => .verifyData

/-- What the question embeds fits the fields of fixed size that a request has for it. -/
def Question.Fits : Question → Prop
  | generate .. => True
  | importKey modulus _ _ => modulus.length ≤ maxKeySize
  | publicKey _ => True
  | sign _ data => data.length ≤ maxKeySize
  | verify _ data signature => data.length ≤ maxKeySize ∧ signature.length ≤ maxKeySize

instance : (q : Question) → Decidable q.Fits
  | .generate .. | .publicKey _ => inferInstanceAs (Decidable True)
  | .importKey .. | .sign .. => inferInstanceAs (Decidable (_ ≤ _))
  | .verify .. => inferInstanceAs (Decidable (_ ∧ _))

/-! ## In a request -/

section Request

variable (keyOpaqueSize : Nat) (request : Nat → UInt8)

/-- The `PublicExponent` of a request, which is at one offset in two of them. -/
def requestExponent : Nat :=
  bigEndian (fun i => request (GenKeyRequest.publicExponent + i)) publicExponentMaxSize

/-- The question in the fields of a request. -/
def Command.inRequest : Command → Question
  | generateKeypair =>
      .generate (wordAt request GenKeyRequest.keySize) (requestExponent request)
  | importKeypair =>
      .importKey (slice request ImportKeyRequest.modulus (wordAt request ImportKeyRequest.keySize))
        (requestExponent request)
        (slice request ImportKeyRequest.privateExponent (wordAt request ImportKeyRequest.keySize))
  | getKeypairPublic => .publicKey (slice request GetPublicKeyRequest.keyOpaque keyOpaqueSize)
  | signData =>
      .sign (slice request SignDataRequest.keyOpaque keyOpaqueSize)
        (slice request SignDataRequest.data (wordAt request SignDataRequest.dataSize))
  | verifyData =>
      .verify (slice request VerifyDataRequest.keyOpaque keyOpaqueSize)
        (slice request VerifyDataRequest.data (wordAt request VerifyDataRequest.dataSize))
        (slice request VerifyDataRequest.signature
          (wordAt request VerifyDataRequest.signatureSize))

/-- The question of a request, by the class and the id in its header. -/
def Question.ofRequest : Option Question :=
  if wordAt request ReqHeader.cmdClass = cmdClassKeyMaster then
    ((Command.ofFwId (wordAt request ReqHeader.cmdId)).map fun c =>
      c.inRequest keyOpaqueSize request).filter fun q => q.Fits
  else none

end Request

/-! ## In a command -/

section Command

variable (keyOpaqueSize : Nat) (m : Mem Block)

/-- The command asks what a request can ask: its nested lengths lie inside it, its numbers have the
width of the fields they go into, and its key blob is a whole one. -/
def Command.Asks : Command → Prop
  | generateKeypair => 20 ≤ cmdDataLength m ∧ keygenKeyType m = keyTypeRsa ∧ KeygenFits m
  | importKeypair =>
      16 + modulusLength m + publicExponentLength m + privateExponentLength m ≤ cmdDataLength m ∧
        publicExponentLength m ≤ publicExponentMaxSize ∧ modulusLength m ≤ maxKeySize ∧
        privateExponentLength m = modulusLength m
  | getKeypairPublic => 4 + keyBlobLength m ≤ cmdDataLength m ∧ keyBlobLength m = keyOpaqueSize
  | signData =>
      8 + keyBlobLength m + dataLength m ≤ cmdDataLength m ∧ keyBlobLength m = keyOpaqueSize ∧
        dataLength m ≤ maxKeySize
  | verifyData =>
      12 + keyBlobLength m + dataLength m + signatureLength m ≤ cmdDataLength m ∧
        keyBlobLength m = keyOpaqueSize ∧ dataLength m ≤ maxKeySize ∧
        signatureLength m ≤ maxKeySize

instance : (c : Command) → Decidable (c.Asks keyOpaqueSize m)
  | .generateKeypair | .importKeypair | .getKeypairPublic | .signData | .verifyData =>
      inferInstanceAs (Decidable (_ ∧ _))

/-- The question in the fields of a command. -/
def Command.inCommand : Command → Question
  | generateKeypair => .generate (modulusSize m / 8) (publicExponent m)
  | importKeypair =>
      .importKey (slice (m .cmdBuffer) (rsaKey + RsaKey.bytes) (modulusLength m))
        (importExponent m)
        (slice (m .cmdBuffer)
          (rsaKey + RsaKey.bytes + modulusLength m + publicExponentLength m)
          (privateExponentLength m))
  | getKeypairPublic =>
      .publicKey (slice (m .cmdBuffer) (FirmwareCmd.cmdData + KeyBlob.keyBlob) (keyBlobLength m))
  | signData =>
      .sign (slice (m .cmdBuffer) (FirmwareCmd.cmdData + SigningCmdData.buffer) (keyBlobLength m))
        (slice (m .cmdBuffer) (FirmwareCmd.cmdData + SigningCmdData.buffer + keyBlobLength m)
          (dataLength m))
  | verifyData =>
      .verify
        (slice (m .cmdBuffer) (FirmwareCmd.cmdData + VerificationData.buffer) (keyBlobLength m))
        (slice (m .cmdBuffer) (FirmwareCmd.cmdData + VerificationData.buffer + keyBlobLength m)
          (dataLength m))
        (slice (m .cmdBuffer)
          (FirmwareCmd.cmdData + VerificationData.buffer + keyBlobLength m + dataLength m)
          (signatureLength m))

/-- The question of a command, by its id. -/
def Question.ofCommand : Option Question :=
  (Command.ofHalId (m.word .cmdBuffer FirmwareCmd.cmdId)).bind fun c =>
    if c.Asks keyOpaqueSize m then some (c.inCommand m) else none

end Command

@[simp] theorem command_inCommand (m : Mem Block) (c : Command) : (c.inCommand m).command = c := by
  cases c <;> rfl

/-- A question of a command is the one in its fields. -/
theorem Question.ofCommand_eq_some {size : Nat} {m : Mem Block} {q : Question}
    (h : Question.ofCommand size m = some q) :
    Command.ofHalId (m.word .cmdBuffer FirmwareCmd.cmdId) = some q.command ∧
      q.command.Asks size m ∧ q = q.command.inCommand m := by
  unfold ofCommand at h
  obtain ⟨c, hid, hq⟩ := Option.bind_eq_some_iff.mp h
  obtain ⟨hasks, hq⟩ := Option.ite_none_right_eq_some.mp hq
  have hc : q.command = c := by
    rw [← Option.some.inj hq, command_inCommand]
  subst hc
  exact ⟨hid, hasks, (Option.some.inj hq).symm⟩

/-- The question of a command is in its buffer. -/
theorem ofCommand_congr {m m' : Mem Block} (h : m' .cmdBuffer = m .cmdBuffer) (size : Nat) :
    Question.ofCommand size m' = Question.ofCommand size m := by
  have hasks : ∀ c : Command, c.Asks size m' ↔ c.Asks size m := by
    intro c
    cases c <;> simp only [Command.Asks, KeygenFits, publicExponent, modulusSize, Mem.word, h]
  have hsame : ∀ c : Command, c.inCommand m' = c.inCommand m := by
    intro c
    cases c <;> simp only [Command.inCommand, publicExponent, modulusSize, importExponent,
      Mem.word, h]
  simp only [Question.ofCommand, hasks, hsame, Mem.word, h]

variable {m : Mem Block}

/-- A builder accepts a command that asks what its request can. -/
theorem Command.Asks.accepts {c : Command} (h : c.Asks (opaqueSize m) m) :
    c.Accepts m (opaqueSize m) := by
  cases c with
  | generateKeypair => exact ⟨h.1, h.2.1⟩
  | importKeypair =>
      obtain ⟨hnested, hpe, hml, hpre⟩ := h
      exact ⟨by omega, hpe, hml, hpre.trans_le hml⟩
  | getKeypairPublic =>
      obtain ⟨hnested, hblob⟩ := h
      exact hblob ▸ hnested
  | signData =>
      obtain ⟨hnested, hblob, hdl⟩ := h
      exact ⟨by omega, hdl, hblob.le⟩
  | verifyData =>
      obtain ⟨hnested, hblob, hdl, hsl⟩ := h
      exact ⟨by omega, hdl, hsl, hblob.le⟩

theorem Command.Asks.fits {c : Command} {size : Nat} (h : c.Asks size m) :
    (c.inCommand m).Fits := by
  cases c with
  | generateKeypair | getKeypairPublic => trivial
  | importKeypair =>
      obtain ⟨-, -, hml, -⟩ := h
      exact (length_slice _ _ _).trans_le hml
  | signData =>
      obtain ⟨-, -, hdl⟩ := h
      exact (length_slice _ _ _).trans_le hdl
  | verifyData =>
      obtain ⟨-, -, hdl, hsl⟩ := h
      exact ⟨(length_slice _ _ _).trans_le hdl, (length_slice _ _ _).trans_le hsl⟩

/-! ## Only the request counts -/

section Congr

variable {f g : Nat → UInt8} {size : Nat}

@[simp] theorem command_inRequest (c : Command) : (c.inRequest size g).command = c := by
  cases c <;> rfl

theorem requestExponent_congr (h : ∀ i < 20, f i = g i) : requestExponent f = requestExponent g :=
  bigEndian_congr fun i hi => h _ (by simp at hi ⊢; omega)

/-- Two sequences that agree as far as the request goes ask the same question. -/
theorem inRequest_congr {c : Command} (h : ∀ i < c.requestSize size, f i = g i)
    (hfits : (c.inRequest size g).Fits) : c.inRequest size f = c.inRequest size g := by
  cases c with
  | generateKeypair =>
      simp only [Command.requestSize] at h
      have hkey : wordAt f 12 = wordAt g 12 := wordAt_congr fun i hi => h _ (by simp; omega)
      rw [Command.inRequest, Command.inRequest, GenKeyRequest.keySize, hkey,
        requestExponent_congr fun i hi => h i (by simp; omega)]
  | importKeypair =>
      simp only [Command.requestSize] at h
      have hkey : wordAt f 12 = wordAt g 12 := wordAt_congr fun i hi => h _ (by simp; omega)
      have hml : wordAt g 12 ≤ 256 := (length_slice _ _ _).symm.trans_le hfits
      rw [Command.inRequest, Command.inRequest, ImportKeyRequest.keySize, hkey,
        requestExponent_congr fun i hi => h i (by simp; omega)]
      exact congrArg₂ (fun modulus exponent => Question.importKey modulus _ exponent)
        (slice_congr fun i hi => h _ (by simp; omega))
        (slice_congr fun i hi => h _ (by simp; omega))
  | getKeypairPublic =>
      simp only [Command.requestSize] at h
      exact congrArg Question.publicKey (slice_congr fun i hi => h _ (by simp; omega))
  | signData =>
      simp only [Command.requestSize] at h
      have hsize : wordAt f 12 = wordAt g 12 := wordAt_congr fun i hi => h _ (by simp; omega)
      have hdl : wordAt g 12 ≤ 256 := (length_slice _ _ _).symm.trans_le hfits
      rw [Command.inRequest, Command.inRequest, SignDataRequest.dataSize, hsize]
      exact congrArg₂ Question.sign (slice_congr fun i hi => h _ (by simp; omega))
        (slice_congr fun i hi => h _ (by simp; omega))
  | verifyData =>
      simp only [Command.requestSize] at h
      have hsize : wordAt f 12 = wordAt g 12 := wordAt_congr fun i hi => h _ (by simp; omega)
      have hsigSize : wordAt f 272 = wordAt g 272 := wordAt_congr fun i hi => h _ (by simp; omega)
      have hdl : wordAt g 12 ≤ 256 := (length_slice _ _ _).symm.trans_le hfits.1
      have hsl : wordAt g 272 ≤ 256 := (length_slice _ _ _).symm.trans_le hfits.2
      have hkey : slice f VerifyDataRequest.keyOpaque size =
          slice g VerifyDataRequest.keyOpaque size :=
        slice_congr fun i hi => h _ (by simp; omega)
      rw [Command.inRequest, Command.inRequest, VerifyDataRequest.dataSize,
        VerifyDataRequest.signatureSize, hsize, hsigSize, hkey]
      exact congrArg₂ (Question.verify _) (slice_congr fun i hi => h _ (by simp; omega))
        (slice_congr fun i hi => h _ (by simp; omega))

/-- The question of a request is in its bytes. -/
theorem ofRequest_congr {q : Question} (h : ∀ i < q.command.requestSize size, f i = g i)
    (hq : Question.ofRequest size g = some q) : Question.ofRequest size f = some q := by
  unfold Question.ofRequest at hq
  obtain ⟨hclass, hq⟩ := Option.ite_none_right_eq_some.mp hq
  obtain ⟨hq, hfits⟩ := Option.filter_eq_some_iff.mp hq
  obtain ⟨c, hid, rfl⟩ := Option.map_eq_some_iff.mp hq
  have hfits := of_decide_eq_true hfits
  rw [command_inRequest] at h
  have hheader : ∀ i < 12, f i = g i := fun i hi => h i (by
    cases c <;> simp only [Command.requestSize] <;> simp <;> omega)
  have hclass' : wordAt f 0 = wordAt g 0 := wordAt_congr fun i hi => hheader _ (by omega)
  have hid' : wordAt f 4 = wordAt g 4 := wordAt_congr fun i hi => hheader _ (by omega)
  have hsame := inRequest_congr h hfits
  rw [Question.ofRequest, ReqHeader.cmdClass, hclass', if_pos hclass, ReqHeader.cmdId, hid', hid,
    Option.map_some, hsame, Option.filter_some, if_pos (decide_eq_true hfits)]

end Congr

/-! ## The translation keeps the question -/

/-- A builder leaves the word of the class alone. -/
theorem Command.cmdBuf_cmdClass {c : Command} (m : Mem Block)
    (hc : c ≠ .importKeypair) :
    (c.cmdBuf.run m).mem.word .request ReqHeader.cmdClass =
      m.word .request ReqHeader.cmdClass := by
  have hfrom : Within (WritesFrom .request 8) c.cmdBuf := by
    cases c with
    | generateKeypair =>
        unfold cmdBuf generateKeypairCmdBuf
        have hswap := swapByteOrder_writesFrom .request GenKeyRequest.publicExponent
          publicExponentMaxSize
        refine .bind (by simp) fun _ => .bind (within_exitIf _ _) fun _ => ?_
        refine .bind (by simp) fun _ => .bind (within_exitIf _ _) fun _ => ?_
        refine .bind (by simp) fun _ => .bind (by simp) fun _ => .bind (by simp) fun _ => ?_
        refine .bind (hswap.mono fun _ he i hw => ?_) fun _ => by simp
        exact Nat.le_trans (by decide) (he i hw)
    | importKeypair => exact absurd rfl hc
    | getKeypairPublic =>
        unfold cmdBuf getPublicKeypairCmdBuf
        repeat' refine .bind ?_ fun _ => ?_
        all_goals simp
    | signData =>
        unfold cmdBuf signDataCmdBuf
        repeat' refine .bind ?_ fun _ => ?_
        all_goals simp
    | verifyData =>
        unfold cmdBuf verifyDataCmdBuf
        repeat' refine .bind ?_ fun _ => ?_
        all_goals simp
  exact word_before hfrom (by decide) m

theorem isImport_of_asks
    (hid : Command.ofHalId (m.word .cmdBuffer FirmwareCmd.cmdId) = some .importKeypair)
    (h : Command.Asks (opaqueSize m) m .importKeypair) : IsImport m where
  cmdId := (Command.halId_of_ofHalId hid).symm
  accepts := h.accepts
  nested := h.1

/-- The header of a request that is built has the class of the keymaster and the id of the
command. -/
theorem requestOf_ids {c : Command}
    (hid : Command.ofHalId (m.word .cmdBuffer FirmwareCmd.cmdId) = some c)
    (h : c.Asks (opaqueSize m) m) :
    wordAt (requestOf m) ReqHeader.cmdClass = cmdClassKeyMaster ∧
      wordAt (requestOf m) ReqHeader.cmdId = c.fwId := by
  by_cases hc : c = .importKeypair
  · subst hc
    have himport := isImport_of_asks hid h
    constructor
    · refine (word_of_byteAt (v := cmdClassKeyMaster) fun i hi => ?_).trans rfl
      rw [requestOf_header himport (by simp only [ReqHeader.cmdClass]; omega),
        if_neg (by simp; omega), if_neg (by simp; omega)]
      simp
    · refine (word_of_byteAt (v := Command.importKeypair.fwId) fun i hi => ?_).trans rfl
      rw [requestOf_header himport (by simp only [ReqHeader.cmdId]; omega), if_neg (by simp; omega),
        if_pos (by simp; omega)]
      simp [Command.fwId]
  · have hknown := requestOf_known hid
    have hclass := c.cmdBuf_cmdClass (c.requestStart m) hc
    have hcmd := (c.cmdBuf_request (c.requestStart m) 0).cmdId
    have hstart : (c.requestStart m).word .request ReqHeader.cmdClass = cmdClassKeyMaster := by
      rw [Command.requestStart, Mem.word_write_apart _ _ _ _ _ _ (by decide), Mem.word_write_same]
      rfl
    have hstartId : (c.requestStart m).word .request ReqHeader.cmdId = c.fwId := by
      rw [Command.requestStart, Mem.word_write_same]
      cases c <;> rfl
    rw [hknown]
    exact ⟨hclass.trans hstart, hcmd.trans hstartId⟩

theorem inRequest_generateKeypair
    (hid : Command.ofHalId (m.word .cmdBuffer FirmwareCmd.cmdId) = some .generateKeypair)
    (h : Command.Asks (opaqueSize m) m .generateKeypair) :
    Command.generateKeypair.inRequest (opaqueSize m) (requestOf m) =
      Command.generateKeypair.inCommand m := by
  have ha := (Command.accepts_requestStart .generateKeypair m).mpr h.accepts
  have hcmd := Command.generateKeypair.requestStart_other m (b := .cmdBuffer) (by decide)
  have hsize : modulusSize (Command.generateKeypair.requestStart m) = modulusSize m := by
    simp only [modulusSize, Mem.word, hcmd]
  have hexp : publicExponent (Command.generateKeypair.requestStart m) = publicExponent m := by
    simp only [publicExponent, hcmd]
  have hkeySize := generateKeypairCmdBuf_keySize ha
  have hexponent := generateKeypairCmdBuf_exponent ha
  rw [hsize] at hkeySize
  rw [hexp, Nat.mod_eq_of_lt h.2.2.1] at hexponent
  rw [requestOf_known hid]
  exact congrArg₂ Question.generate hkeySize hexponent

theorem inRequest_importKeypair
    (hid : Command.ofHalId (m.word .cmdBuffer FirmwareCmd.cmdId) = some .importKeypair)
    (h : Command.Asks (opaqueSize m) m .importKeypair) :
    Command.importKeypair.inRequest (opaqueSize m) (requestOf m) =
      Command.importKeypair.inCommand m := by
  have himport := isImport_of_asks hid h
  obtain ⟨hkeySize, hexponent, -, -⟩ := importKeypairCmdBuf_numbers himport
  obtain ⟨-, -, hml, hpre⟩ := h
  have hmodulus : slice (requestOf m) ImportKeyRequest.modulus (modulusLength m) =
      slice (m .cmdBuffer) (rsaKey + RsaKey.bytes) (modulusLength m) :=
    slice_congr fun i hi => (requestOf_modulus himport (hi.trans_le hml)).trans (if_pos hi)
  have hprivate : slice (requestOf m) ImportKeyRequest.privateExponent (privateExponentLength m) =
      slice (m .cmdBuffer) (rsaKey + RsaKey.bytes + modulusLength m + publicExponentLength m)
        (privateExponentLength m) := by
    refine slice_congr fun i hi => ?_
    have hlt : i < 256 := hi.trans_le (hpre.trans_le hml)
    exact (requestOf_privateExponent himport hlt).trans (if_pos hi)
  have hsize : wordAt (requestOf m) ImportKeyRequest.keySize = modulusLength m := hkeySize
  rw [Command.inRequest, Command.inCommand, hsize, hmodulus, ← hprivate, hpre]
  exact congrArg₂ (fun exponent bytes => Question.importKey _ exponent bytes) hexponent rfl

theorem inRequest_getKeypairPublic
    (hid : Command.ofHalId (m.word .cmdBuffer FirmwareCmd.cmdId) = some .getKeypairPublic)
    (h : Command.Asks (opaqueSize m) m .getKeypairPublic) :
    Command.getKeypairPublic.inRequest (opaqueSize m) (requestOf m) =
      Command.getKeypairPublic.inCommand m := by
  have hhal := (Command.halId_of_ofHalId hid).symm
  have hblob : keyBlobLength m = opaqueSize m := h.2
  rw [Command.inRequest, Command.inCommand, hblob]
  refine congrArg Question.publicKey (slice_congr fun i hi => ?_)
  exact requestOf_getKeypairPublic hhal h.accepts (Nat.le_add_right 12 i)
    (Nat.add_lt_add_left hi 12)

/-- A padded field holds the bytes it is filled with. -/
theorem slice_of_padded {request f : Nat → UInt8} {o p n size : Nat} (hn : n ≤ size)
    (h : Padded (fun i => request (o + i)) size (fun i => f (p + i)) n) :
    slice request o n = slice f p n :=
  slice_congr fun i hi => (h i (hi.trans_le hn)).trans (if_pos hi)

theorem inRequest_signData
    (hid : Command.ofHalId (m.word .cmdBuffer FirmwareCmd.cmdId) = some .signData)
    (h : Command.Asks (opaqueSize m) m .signData)
    (hwrap : Command.requestSize (opaqueSize m) .signData < 2 ^ 32) :
    Command.signData.inRequest (opaqueSize m) (requestOf m) = Command.signData.inCommand m := by
  obtain ⟨hsize, hdata, hblob⟩ :=
    holds_signData (Command.halId_of_ofHalId hid).symm hwrap h.accepts
  obtain ⟨-, hkey, hdl⟩ := h
  have hlen : wordAt (requestOf m) SignDataRequest.dataSize = dataLength m := hsize
  have hkeyBytes := slice_of_padded hkey.le hblob
  rw [hkey] at hkeyBytes
  rw [Command.inRequest, Command.inCommand, hlen, hkey, hkeyBytes, slice_of_padded hdl hdata, hkey]

theorem inRequest_verifyData
    (hid : Command.ofHalId (m.word .cmdBuffer FirmwareCmd.cmdId) = some .verifyData)
    (h : Command.Asks (opaqueSize m) m .verifyData)
    (hwrap : Command.requestSize (opaqueSize m) .verifyData < 2 ^ 32) :
    Command.verifyData.inRequest (opaqueSize m) (requestOf m) =
      Command.verifyData.inCommand m := by
  obtain ⟨hsize, hdata, hsigSize, hsig, hblob⟩ :=
    holds_verifyData (Command.halId_of_ofHalId hid).symm hwrap h.accepts
  obtain ⟨-, hkey, hdl, hsl⟩ := h
  have hlen : wordAt (requestOf m) VerifyDataRequest.dataSize = dataLength m := hsize
  have hsigLen : wordAt (requestOf m) VerifyDataRequest.signatureSize = signatureLength m :=
    hsigSize
  have hkeyBytes := slice_of_padded hkey.le hblob
  rw [hkey] at hkeyBytes
  rw [Command.inRequest, Command.inCommand, hlen, hsigLen, hkey, hkeyBytes,
    slice_of_padded hdl hdata, slice_of_padded hsl hsig, hkey]

/-- The request that is built for a command asks what the command asks. -/
theorem ofRequest_requestOf {q : Question} (hq : Question.ofCommand (opaqueSize m) m = some q)
    (hwrap : q.command.requestSize (opaqueSize m) < 2 ^ 32) :
    Question.ofRequest (opaqueSize m) (requestOf m) = some q := by
  obtain ⟨hid, hasks, hfields⟩ := Question.ofCommand_eq_some hq
  obtain ⟨hclass, hcmd⟩ := requestOf_ids hid hasks
  have hsame : q.command.inRequest (opaqueSize m) (requestOf m) = q.command.inCommand m := by
    generalize q.command = c at hid hasks hwrap
    cases c with
    | generateKeypair => exact inRequest_generateKeypair hid hasks
    | importKeypair => exact inRequest_importKeypair hid hasks
    | getKeypairPublic => exact inRequest_getKeypairPublic hid hasks
    | signData => exact inRequest_signData hid hasks hwrap
    | verifyData => exact inRequest_verifyData hid hasks hwrap
  have hfits := hasks.fits
  rw [Question.ofRequest, if_pos hclass, hcmd, Command.ofFwId_fwId, Option.map_some, hsame,
    Option.filter_some, if_pos (decide_eq_true hfits), ← hfields]

end Txei.Keymaster

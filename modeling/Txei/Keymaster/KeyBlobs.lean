import Txei.Keymaster.KeyNumbers

/-!
# Key blobs in a request

Three commands carry a key blob. `get_public_keypair_cmd_buf` copies `key_opaque_size` bytes from
where the blob starts, and the builders of the other two copy `key_blob_length` bytes into a field
that `generate_cmd_buf` has cleared. `signAndVerify_exact` says what a signing and a verification
request hold, and `blobAgreed_iff` when the three builders make the same of one blob.
-/

namespace Txei.Keymaster

open Machine Machine.Prog Mei

/-- The offset of the key blob in a command that carries one. -/
def Command.blobOffset : Command → Nat
  | getKeypairPublic => FirmwareCmd.cmdData + KeyBlob.keyBlob
  | signData => FirmwareCmd.cmdData + SigningCmdData.buffer
  | verifyData => FirmwareCmd.cmdData + VerificationData.buffer
  | _ => 0

/-- The offset of `KeyOpaque` in the request of such a command. -/
def Command.opaqueOffset : Command → Nat
  | getKeypairPublic => GetPublicKeyRequest.keyOpaque
  | signData => SignDataRequest.keyOpaque
  | verifyData => VerifyDataRequest.keyOpaque
  | _ => 0

variable {m : Mem Block}

/-- Byte `i` of `KeyOpaque` when the builder stores nothing there: cleared by `generate_cmd_buf`, as
far as the allocated length goes. -/
def Command.behindBlob (c : Command) (m : Mem Block) (i : Nat) : UInt8 :=
  if c.opaqueOffset + i < c.fwRequestLen (opaqueSize m) then 0
  else m .request (c.opaqueOffset + i)

/-- `generate_cmd_buf` clears the request up to `fw_request_len`. -/
theorem Command.requestStart_apply (c : Command) (m : Mem Block) {o : Nat} (ho : 8 ≤ o) :
    c.requestStart m .request o =
      if o < c.fwRequestLen (opaqueSize m) then 0 else m .request o := by
  unfold requestStart
  rw [Mem.write_outside _ _ _ _ _ _ _ (by simp only [ReqHeader.cmdId]; omega),
    Mem.write_outside _ _ _ _ _ _ _ (by simp only [ReqHeader.cmdClass]; omega)]
  simp only [Mem.write, true_and, Nat.zero_le, Nat.zero_add]

/-! ## The requests that carry a blob -/

theorem getPublicKeypairCmdBuf_mem (ha : Command.Accepts m (opaqueSize m) .getKeypairPublic) :
    (getPublicKeypairCmdBuf.run m).mem =
      (m.write .request GetPublicKeyRequest.keyOpaque (opaqueSize m) fun i =>
        m .cmdBuffer (FirmwareCmd.cmdData + KeyBlob.keyBlob + i)).write .request
          ReqHeader.inputSize 4 (byteAt (opaqueSize m)) := by
  have hd : ¬ m.word .cmdBuffer FirmwareCmd.cmdDataLength < KeyBlob.size + opaqueSize m :=
    Nat.not_lt.mpr ha
  simp only [getPublicKeypairCmdBuf, run_bind, run_load, run_exitIf, run_store, run_memcpy,
    Run.andThen_ok, Run.prepend_mem, if_neg hd]

/-- The fields behind the header after a signing command has been accepted. -/
def signFields (m : Mem Block) : Mem Block :=
  ((m.write .request SignDataRequest.dataSize 4 (byteAt (dataLength m))).write .request
    SignDataRequest.keyOpaque (keyBlobLength m) fun i =>
      m .cmdBuffer (FirmwareCmd.cmdData + SigningCmdData.buffer + i)).write .request
    SignDataRequest.data (dataLength m) fun i =>
      m .cmdBuffer (FirmwareCmd.cmdData + SigningCmdData.buffer + keyBlobLength m + i)

theorem signDataCmdBuf_mem (ha : Command.Accepts m (opaqueSize m) .signData) :
    (signDataCmdBuf.run m).mem = (signFields m).write .request ReqHeader.inputSize 4
      (byteAt (SignDataRequest.size + opaqueSize m - ReqHeader.size)) := by
  obtain ⟨hd, hdl, hkb⟩ := ha
  have hd' : ¬ m.word .cmdBuffer FirmwareCmd.cmdDataLength < SigningCmdData.size :=
    Nat.not_lt.mpr hd
  have hother : Block.cmdBuffer ≠ .request := by decide
  have hopaque : Block.keyOpaqueSize ≠ .request := by decide
  simp only [signDataCmdBuf, run_bind, run_load, run_exitIf, run_store, run_memcpy,
    Run.andThen_ok, Run.prepend_mem, if_neg hd', if_neg (not_not_intro hdl),
    Mem.word_write_other _ _ _ _ _ hother, Mem.word_write_other _ _ _ _ _ hopaque,
    if_neg (not_not_intro hkb)]
  rfl

/-- The fields behind the header after a verification command has been accepted. -/
def verifyFields (m : Mem Block) : Mem Block :=
  ((((m.write .request VerifyDataRequest.dataSize 4 (byteAt (dataLength m))).write .request
    VerifyDataRequest.signatureSize 4 (byteAt (signatureLength m))).write .request
    VerifyDataRequest.keyOpaque (keyBlobLength m) fun i =>
      m .cmdBuffer (FirmwareCmd.cmdData + VerificationData.buffer + i)).write .request
    VerifyDataRequest.data (dataLength m) fun i =>
      m .cmdBuffer (FirmwareCmd.cmdData + VerificationData.buffer + keyBlobLength m + i)).write
    .request VerifyDataRequest.signature (signatureLength m) fun i =>
      m .cmdBuffer (FirmwareCmd.cmdData + VerificationData.buffer + keyBlobLength m +
        dataLength m + i)

theorem verifyDataCmdBuf_mem (ha : Command.Accepts m (opaqueSize m) .verifyData) :
    (verifyDataCmdBuf.run m).mem = (verifyFields m).write .request ReqHeader.inputSize 4
      (byteAt (VerifyDataRequest.size + opaqueSize m - ReqHeader.size)) := by
  obtain ⟨hd, hdl, hsl, hkb⟩ := ha
  have hd' : ¬ m.word .cmdBuffer FirmwareCmd.cmdDataLength < VerificationData.size :=
    Nat.not_lt.mpr hd
  have hdl' := Nat.not_lt.mpr hdl
  have hsl' := Nat.not_lt.mpr hsl
  have hkb' := Nat.not_lt.mpr hkb
  have hother : Block.cmdBuffer ≠ .request := by decide
  have hopaque : Block.keyOpaqueSize ≠ .request := by decide
  simp only [verifyDataCmdBuf, run_bind, run_load, run_exitIf, run_store, run_memcpy,
    Run.andThen_ok, Run.prepend_mem, if_neg hd', if_neg hdl', if_neg hsl',
    Mem.word_write_other _ _ _ _ _ hother, Mem.word_write_other _ _ _ _ _ hopaque,
    if_neg hkb']
  rfl

section Accepted

variable {o : Nat}

theorem requestOf_getKeypairPublic
    (hid : m.word .cmdBuffer FirmwareCmd.cmdId = Command.getKeypairPublic.halId)
    (ha : Command.Accepts m (opaqueSize m) .getKeypairPublic) (ho : 12 ≤ o)
    (hlt : o < 12 + opaqueSize m) : requestOf m o = m .cmdBuffer o := by
  have hid' : Command.ofHalId (m.word .cmdBuffer FirmwareCmd.cmdId) = some .getKeypairPublic := by
    rw [hid, Command.ofHalId_halId]
  have hcmd := Command.getKeypairPublic.requestStart_other m (b := .cmdBuffer) (by decide)
  rw [requestOf_known hid', Command.cmdBuf,
    getPublicKeypairCmdBuf_mem ((Command.accepts_requestStart _ m).mpr ha),
    Mem.write_outside _ _ _ _ _ _ _ (by simp only [ReqHeader.inputSize]; omega),
    Mem.write_inside _ _ _ _ _ _ ⟨ho, by rwa [Command.opaqueSize_requestStart]⟩, hcmd]
  exact congrArg (m .cmdBuffer) (Nat.add_sub_cancel' ho)

/-- The request of a signing command as its fields are laid out. -/
theorem requestOf_signData
    (hid : m.word .cmdBuffer FirmwareCmd.cmdId = Command.signData.halId)
    (ha : Command.Accepts m (opaqueSize m) .signData) (ho : 12 ≤ o) :
    requestOf m o =
      if 16 ≤ o ∧ o < 16 + dataLength m then m .cmdBuffer (16 + keyBlobLength m + (o - 16))
      else if 272 ≤ o ∧ o < 272 + keyBlobLength m then m .cmdBuffer (16 + (o - 272))
      else if o < 16 then byteAt (dataLength m) (o - 12)
      else if o < Command.signData.fwRequestLen (opaqueSize m) then 0 else m .request o := by
  have hid' : Command.ofHalId (m.word .cmdBuffer FirmwareCmd.cmdId) = some .signData := by
    rw [hid, Command.ofHalId_halId]
  have hcmd := Command.signData.requestStart_other m (b := .cmdBuffer) (by decide)
  rw [requestOf_known hid', Command.cmdBuf,
    signDataCmdBuf_mem ((Command.accepts_requestStart _ m).mpr ha),
    Mem.write_outside _ _ _ _ _ _ _ (by simp only [ReqHeader.inputSize]; omega),
    ← Command.requestStart_apply .signData m (Nat.le_trans (by decide) ho)]
  simp only [signFields, Mem.write, Mem.word, hcmd, dataLength, keyBlobLength,
    SignDataRequest.data, SignDataRequest.keyOpaque, SignDataRequest.dataSize, true_and, ho]
  rfl

/-- The request of a verification command as its fields are laid out. -/
theorem requestOf_verifyData
    (hid : m.word .cmdBuffer FirmwareCmd.cmdId = Command.verifyData.halId)
    (ha : Command.Accepts m (opaqueSize m) .verifyData) (ho : 12 ≤ o) :
    requestOf m o =
      if 276 ≤ o ∧ o < 276 + signatureLength m then
        m .cmdBuffer (20 + keyBlobLength m + dataLength m + (o - 276))
      else if 16 ≤ o ∧ o < 16 + dataLength m then
        m .cmdBuffer (20 + keyBlobLength m + (o - 16))
      else if 532 ≤ o ∧ o < 532 + keyBlobLength m then m .cmdBuffer (20 + (o - 532))
      else if 272 ≤ o ∧ o < 276 then byteAt (signatureLength m) (o - 272)
      else if o < 16 then byteAt (dataLength m) (o - 12)
      else if o < Command.verifyData.fwRequestLen (opaqueSize m) then 0 else m .request o := by
  have hid' : Command.ofHalId (m.word .cmdBuffer FirmwareCmd.cmdId) = some .verifyData := by
    rw [hid, Command.ofHalId_halId]
  have hcmd := Command.verifyData.requestStart_other m (b := .cmdBuffer) (by decide)
  rw [requestOf_known hid', Command.cmdBuf,
    verifyDataCmdBuf_mem ((Command.accepts_requestStart _ m).mpr ha),
    Mem.write_outside _ _ _ _ _ _ _ (by simp only [ReqHeader.inputSize]; omega),
    ← Command.requestStart_apply .verifyData m (Nat.le_trans (by decide) ho)]
  simp only [verifyFields, Mem.write, Mem.word, hcmd, dataLength, keyBlobLength, signatureLength,
    VerifyDataRequest.data, VerifyDataRequest.keyOpaque, VerifyDataRequest.dataSize,
    VerifyDataRequest.signatureSize, VerifyDataRequest.signature, true_and, ho]
  rfl

/-- Behind a blob shorter than `key_opaque_size` a signing request holds what it was cleared to. -/
theorem keyOpaque_signData
    (hid : m.word .cmdBuffer FirmwareCmd.cmdId = Command.signData.halId)
    (ha : Command.Accepts m (opaqueSize m) .signData) (i : Nat) :
    requestOf m (272 + i) =
      if i < keyBlobLength m then m .cmdBuffer (16 + i) else Command.signData.behindBlob m i := by
  have hdl : dataLength m ≤ 256 := ha.2.1
  rw [requestOf_signData hid ha (by omega), if_neg (by omega)]
  by_cases hin : i < keyBlobLength m
  · rw [if_pos (by omega), if_pos hin, Nat.add_sub_cancel_left]
  · rw [if_neg (by omega), if_neg (by omega), if_neg hin]
    rfl

theorem keyOpaque_verifyData
    (hid : m.word .cmdBuffer FirmwareCmd.cmdId = Command.verifyData.halId)
    (ha : Command.Accepts m (opaqueSize m) .verifyData) (i : Nat) :
    requestOf m (532 + i) =
      if i < keyBlobLength m then m .cmdBuffer (20 + i)
      else Command.verifyData.behindBlob m i := by
  have hdl : dataLength m ≤ 256 := ha.2.1
  have hsl : signatureLength m ≤ 256 := ha.2.2.1
  rw [requestOf_verifyData hid ha (by omega), if_neg (by omega), if_neg (by omega)]
  by_cases hin : i < keyBlobLength m
  · rw [if_pos (by omega), if_pos hin, Nat.add_sub_cancel_left]
  · rw [if_neg (by omega), if_neg (by omega), if_neg (by omega), if_neg hin]
    rfl

end Accepted

/-! ## Signing and verification -/

section Exact

variable (m)

/-- The nested lengths of a signing or a verification command lie inside its `cmd_data`. -/
def Command.Nested : Command → Prop
  | signData => SigningCmdData.size + keyBlobLength m + dataLength m ≤ cmdDataLength m
  | verifyData =>
      VerificationData.size + keyBlobLength m + dataLength m + signatureLength m ≤ cmdDataLength m
  | _ => False

/-- The lengths a request has room for. -/
def Command.LengthsAllowed : Command → Prop
  | signData => dataLength m ≤ maxKeySize ∧ keyBlobLength m ≤ opaqueSize m
  | verifyData =>
      dataLength m ≤ maxKeySize ∧ keyBlobLength m ≤ opaqueSize m ∧ signatureLength m ≤ maxKeySize
  | _ => False

instance : (c : Command) → Decidable (c.Nested m)
  | .signData | .verifyData => inferInstanceAs (Decidable (_ ≤ _))
  | .generateKeypair | .importKeypair | .getKeypairPublic => inferInstanceAs (Decidable False)

instance : (c : Command) → Decidable (c.LengthsAllowed m)
  | .signData | .verifyData => inferInstanceAs (Decidable (_ ∧ _))
  | .generateKeypair | .importKeypair | .getKeypairPublic => inferInstanceAs (Decidable False)

/-- Read by the structure of the firmware, the request holds the pieces of the command and zeros
behind each of them. -/
def Command.Holds (request : Nat → UInt8) : Command → Prop
  | signData =>
      word (fun i => request (SignDataRequest.dataSize + i)) = dataLength m ∧
        Padded (fun i => request (SignDataRequest.data + i)) maxKeySize
          (fun i =>
            m .cmdBuffer (FirmwareCmd.cmdData + SigningCmdData.buffer + keyBlobLength m + i))
          (dataLength m) ∧
        Padded (fun i => request (SignDataRequest.keyOpaque + i)) (opaqueSize m)
          (fun i => m .cmdBuffer (FirmwareCmd.cmdData + SigningCmdData.buffer + i))
          (keyBlobLength m)
  | verifyData =>
      word (fun i => request (VerifyDataRequest.dataSize + i)) = dataLength m ∧
        Padded (fun i => request (VerifyDataRequest.data + i)) maxKeySize
          (fun i =>
            m .cmdBuffer (FirmwareCmd.cmdData + VerificationData.buffer + keyBlobLength m + i))
          (dataLength m) ∧
        word (fun i => request (VerifyDataRequest.signatureSize + i)) = signatureLength m ∧
        Padded (fun i => request (VerifyDataRequest.signature + i)) maxKeySize
          (fun i =>
            m .cmdBuffer (FirmwareCmd.cmdData + VerificationData.buffer + keyBlobLength m +
              dataLength m + i))
          (signatureLength m) ∧
        Padded (fun i => request (VerifyDataRequest.keyOpaque + i)) (opaqueSize m)
          (fun i => m .cmdBuffer (FirmwareCmd.cmdData + VerificationData.buffer + i))
          (keyBlobLength m)
  | _ => False

/-- A request is built for a signing or a verification command. -/
def Builds : Prop := ∃ n, ((generateCmdBuf true).run m).result = .ok n

variable {m}

theorem builds_iff {c : Command} (hid : m.word .cmdBuffer FirmwareCmd.cmdId = c.halId) :
    Builds m ↔ c.Accepts m (opaqueSize m) := by
  have hok := generateCmdBuf_ok_iff (m := m) (c := c) (by rw [hid, Command.ofHalId_halId])
  unfold Builds
  constructor
  · intro h
    obtain ⟨n, hn⟩ := h
    exact ((hok n).mp hn).1
  · intro ha
    exact ⟨_, (hok _).mpr ⟨ha, rfl⟩⟩

/-- Where nothing of the command is stored, a request that does not wrap is zero. -/
theorem zero_below {c : Command} (hwrap : c.requestSize (opaqueSize m) < 2 ^ 32) {o : Nat}
    (ho : o < c.requestSize (opaqueSize m)) :
    (if o < c.fwRequestLen (opaqueSize m) then 0 else m .request o) = 0 :=
  if_pos (by rwa [Command.fwRequestLen_eq hwrap])

theorem holds_signData (hid : m.word .cmdBuffer FirmwareCmd.cmdId = Command.signData.halId)
    (hwrap : Command.requestSize (opaqueSize m) .signData < 2 ^ 32)
    (ha : Command.Accepts m (opaqueSize m) .signData) :
    Command.Holds m (requestOf m) .signData := by
  have hdl : dataLength m ≤ 256 := ha.2.1
  have hsize : Command.signData.requestSize (opaqueSize m) = 272 + opaqueSize m := rfl
  have happly := fun {o} => requestOf_signData (o := o) hid ha
  have hzero := fun {o} => zero_below (o := o) hwrap
  refine ⟨?_, fun i hi => ?_, fun i hi => ?_⟩
  · have hbytes : ∀ i < 4, requestOf m (12 + i) = byteAt (dataLength m) i := by
      intro i hi
      rw [happly (by omega), if_neg (by omega), if_neg (by omega), if_pos (by omega),
        Nat.add_sub_cancel_left]
    exact (word_of_byteAt hbytes).trans (wrap32_of_lt (m.word_lt ..))
  · have hi : i < 256 := hi
    show requestOf m (16 + i) =
      if i < dataLength m then m .cmdBuffer (16 + keyBlobLength m + i) else 0
    by_cases hin : i < dataLength m
    · rw [happly (by omega), if_pos (by omega), if_pos hin, Nat.add_sub_cancel_left]
    · rw [happly (by omega), if_neg (by omega), if_neg (by omega), if_neg (by omega),
        hzero (by omega), if_neg hin]
  · show requestOf m (272 + i) = if i < keyBlobLength m then m .cmdBuffer (16 + i) else 0
    have hbehind : Command.signData.behindBlob m i = 0 := hzero (Nat.add_lt_add_left hi 272)
    rw [keyOpaque_signData hid ha, hbehind]

theorem holds_verifyData (hid : m.word .cmdBuffer FirmwareCmd.cmdId = Command.verifyData.halId)
    (hwrap : Command.requestSize (opaqueSize m) .verifyData < 2 ^ 32)
    (ha : Command.Accepts m (opaqueSize m) .verifyData) :
    Command.Holds m (requestOf m) .verifyData := by
  have hdl : dataLength m ≤ 256 := ha.2.1
  have hsl : signatureLength m ≤ 256 := ha.2.2.1
  have hsize : Command.verifyData.requestSize (opaqueSize m) = 532 + opaqueSize m := rfl
  have happly := fun {o} => requestOf_verifyData (o := o) hid ha
  have hzero := fun {o} => zero_below (o := o) hwrap
  refine ⟨?_, fun i hi => ?_, ?_, fun i hi => ?_, fun i hi => ?_⟩
  · have hbytes : ∀ i < 4, requestOf m (12 + i) = byteAt (dataLength m) i := by
      intro i hi
      rw [happly (by omega), if_neg (by omega), if_neg (by omega), if_neg (by omega),
        if_neg (by omega), if_pos (by omega), Nat.add_sub_cancel_left]
    exact (word_of_byteAt hbytes).trans (wrap32_of_lt (m.word_lt ..))
  · have hi : i < 256 := hi
    show requestOf m (16 + i) =
      if i < dataLength m then m .cmdBuffer (20 + keyBlobLength m + i) else 0
    by_cases hin : i < dataLength m
    · rw [happly (by omega), if_neg (by omega), if_pos (by omega), if_pos hin,
        Nat.add_sub_cancel_left]
    · rw [happly (by omega), if_neg (by omega), if_neg (by omega), if_neg (by omega),
        if_neg (by omega), if_neg (by omega), hzero (by omega), if_neg hin]
  · have hbytes : ∀ i < 4, requestOf m (272 + i) = byteAt (signatureLength m) i := by
      intro i hi
      rw [happly (by omega), if_neg (by omega), if_neg (by omega), if_neg (by omega),
        if_pos (by omega), Nat.add_sub_cancel_left]
    exact (word_of_byteAt hbytes).trans (wrap32_of_lt (m.word_lt ..))
  · have hi : i < 256 := hi
    show requestOf m (276 + i) = if i < signatureLength m then
      m .cmdBuffer (20 + keyBlobLength m + dataLength m + i) else 0
    by_cases hin : i < signatureLength m
    · rw [happly (by omega), if_pos (by omega), if_pos hin, Nat.add_sub_cancel_left]
    · rw [happly (by omega), if_neg (by omega), if_neg (by omega), if_neg (by omega),
        if_neg (by omega), if_neg (by omega), hzero (by omega), if_neg hin]
  · show requestOf m (532 + i) = if i < keyBlobLength m then m .cmdBuffer (20 + i) else 0
    have hbehind : Command.verifyData.behindBlob m i = 0 := hzero (Nat.add_lt_add_left hi 532)
    rw [keyOpaque_verifyData hid ha, hbehind]

/-- A signing or a verification command whose nested lengths lie inside it becomes a request
exactly if the request has room for its pieces, and the request then holds them padded with
zeros. -/
theorem signAndVerify_exact {c : Command}
    (hid : m.word .cmdBuffer FirmwareCmd.cmdId = c.halId) (hnested : c.Nested m)
    (hwrap : c.requestSize (opaqueSize m) < 2 ^ 32) :
    (Builds m ↔ c.LengthsAllowed m) ∧ (c.LengthsAllowed m → c.Holds m (requestOf m)) := by
  have haccepts : c.Accepts m (opaqueSize m) ↔ c.LengthsAllowed m := by
    cases c with
    | signData =>
        have hd : 8 ≤ cmdDataLength m := by
          simp only [Command.Nested, SigningCmdData.size] at hnested
          omega
        exact and_iff_right hd
    | verifyData =>
        have hd : 12 ≤ cmdDataLength m := by
          simp only [Command.Nested, VerificationData.size] at hnested
          omega
        exact (and_iff_right hd).trans (and_congr_right fun _ => and_comm)
    | _ => exact hnested.elim
  refine ⟨(builds_iff hid).trans haccepts, fun hallowed => ?_⟩
  have ha := haccepts.mpr hallowed
  cases c with
  | signData => exact holds_signData hid hwrap ha
  | verifyData => exact holds_verifyData hid hwrap ha
  | _ => exact hnested.elim

end Exact

/-- The memory of a command when `key_opaque_size` is 4. -/
def blobMem (cmd : List UInt8) : Mem Block := .ofLists fun
  | .cmdBuffer => cmd
  | .keyOpaqueSize => [4, 0, 0, 0]
  | _ => []

/-- The signature of one byte under a blob of two bytes. -/
def signMem : Mem Block :=
  blobMem [6, 0, 0, 0, 11, 0, 0, 0, 2, 0, 0, 0, 1, 0, 0, 0, 170, 187, 5]

/-- The verification of a signature of one byte with the same blob. -/
def verifyMem : Mem Block :=
  blobMem [7, 0, 0, 0, 16, 0, 0, 0, 2, 0, 0, 0, 1, 0, 0, 0, 1, 0, 0, 0, 170, 187, 5, 6]

theorem signAndVerify_exact_both :
    Command.Holds signMem (requestOf signMem) .signData ∧
      Command.Holds verifyMem (requestOf verifyMem) .verifyData := by
  have hsign := signAndVerify_exact (m := signMem) (c := .signData) (by decide) (by decide)
    (by decide)
  have hverify := signAndVerify_exact (m := verifyMem) (c := .verifyData) (by decide) (by decide)
    (by decide)
  exact ⟨hsign.2 (by decide), hverify.2 (by decide)⟩

/-! ## One blob in three commands -/

section Agreement

variable (m m' m'' : Mem Block)

/-- What a builder tests besides the blob is acceptable. -/
def Command.OthersAccepted : Command → Prop
  | getKeypairPublic => True
  | signData => SigningCmdData.size ≤ cmdDataLength m ∧ dataLength m ≤ maxKeySize
  | verifyData =>
      VerificationData.size ≤ cmdDataLength m ∧ dataLength m ≤ maxKeySize ∧
        signatureLength m ≤ maxKeySize
  | _ => False

/-- The memory holds a command with the `blobLength` bytes `blob`. -/
structure Carries (c : Command) (keyOpaqueSize blobLength : Nat) (blob : Nat → UInt8) : Prop where
  cmdId : m.word .cmdBuffer FirmwareCmd.cmdId = c.halId
  size : opaqueSize m = keyOpaqueSize
  length : keyBlobLength m = blobLength
  bytes : ∀ i < blobLength, m .cmdBuffer (c.blobOffset + i) = blob i
  others : c.OthersAccepted m

/-- None of the three commands becomes a request, or all do, with the same `KeyOpaque`. -/
def BlobAgreed (keyOpaqueSize : Nat) : Prop :=
  (¬ Builds m ∧ ¬ Builds m' ∧ ¬ Builds m'') ∨
    ((Builds m ∧ Builds m' ∧ Builds m'') ∧ ∀ i < keyOpaqueSize,
      requestOf m (Command.getKeypairPublic.opaqueOffset + i) =
          requestOf m' (Command.signData.opaqueOffset + i) ∧
        requestOf m (Command.getKeypairPublic.opaqueOffset + i) =
          requestOf m'' (Command.verifyData.opaqueOffset + i))

variable {m m' m''} {keyOpaqueSize blobLength : Nat} {blob : Nat → UInt8}

/-- Two of the builders test the declared length of the blob. -/
theorem Carries.builds_signData (h : Carries m .signData keyOpaqueSize blobLength blob) :
    Builds m ↔ blobLength ≤ keyOpaqueSize := by
  obtain ⟨hid, rfl, rfl, -, hd, hdl⟩ := h
  exact (builds_iff hid).trans ((and_iff_right hd).trans (and_iff_right hdl))

theorem Carries.builds_verifyData (h : Carries m .verifyData keyOpaqueSize blobLength blob) :
    Builds m ↔ blobLength ≤ keyOpaqueSize := by
  obtain ⟨hid, rfl, rfl, -, hd, hdl, hsl⟩ := h
  exact (builds_iff hid).trans
    ((and_iff_right hd).trans ((and_iff_right hdl).trans (and_iff_right hsl)))

/-- The third tests the length of the command against `key_opaque_size`. -/
theorem Carries.builds_getKeypairPublic
    (h : Carries m .getKeypairPublic keyOpaqueSize blobLength blob) :
    Builds m ↔ 4 + keyOpaqueSize ≤ cmdDataLength m := by
  obtain ⟨hid, rfl, -, -, -⟩ := h
  exact builds_iff hid

section KeyOpaque

variable {i : Nat}

theorem Carries.keyOpaque_getKeypairPublic
    (h : Carries m .getKeypairPublic keyOpaqueSize blobLength blob)
    (hd : 4 + keyOpaqueSize ≤ cmdDataLength m) (hi : i < keyOpaqueSize) :
    requestOf m (Command.getKeypairPublic.opaqueOffset + i) =
      if i < blobLength then blob i
      else m .cmdBuffer (Command.getKeypairPublic.blobOffset + i) := by
  obtain ⟨hid, rfl, rfl, hblob, -⟩ := h
  have hcopied : requestOf m (Command.getKeypairPublic.opaqueOffset + i) =
      m .cmdBuffer (Command.getKeypairPublic.blobOffset + i) :=
    requestOf_getKeypairPublic hid hd (Nat.le_add_right 12 i) (Nat.add_lt_add_left hi 12)
  rw [hcopied]
  by_cases hin : i < keyBlobLength m
  · rw [if_pos hin, hblob i hin]
  · rw [if_neg hin]

theorem Carries.keyOpaque_signData (h : Carries m .signData keyOpaqueSize blobLength blob)
    (hle : blobLength ≤ keyOpaqueSize) :
    requestOf m (Command.signData.opaqueOffset + i) =
      if i < blobLength then blob i else Command.signData.behindBlob m i := by
  obtain ⟨hid, rfl, rfl, hblob, hd, hdl⟩ := h
  refine (Keymaster.keyOpaque_signData hid ⟨hd, hdl, hle⟩ i).trans ?_
  by_cases hin : i < keyBlobLength m
  · rw [if_pos hin, if_pos hin]
    exact hblob i hin
  · rw [if_neg hin, if_neg hin]

theorem Carries.keyOpaque_verifyData (h : Carries m .verifyData keyOpaqueSize blobLength blob)
    (hle : blobLength ≤ keyOpaqueSize) :
    requestOf m (Command.verifyData.opaqueOffset + i) =
      if i < blobLength then blob i else Command.verifyData.behindBlob m i := by
  obtain ⟨hid, rfl, rfl, hblob, hd, hdl, hsl⟩ := h
  refine (Keymaster.keyOpaque_verifyData hid ⟨hd, hdl, hsl, hle⟩ i).trans ?_
  by_cases hin : i < keyBlobLength m
  · rw [if_pos hin, if_pos hin]
    exact hblob i hin
  · rw [if_neg hin, if_neg hin]

end KeyOpaque

/-- The three builders agree on a blob exactly if it is no longer than `key_opaque_size`, the
command that asks for the public key goes on for that many bytes, and what stands behind the blob
there is what the other two requests hold behind it; or if the blob is longer and that command
shorter. -/
theorem blobAgreed_iff (hget : Carries m .getKeypairPublic keyOpaqueSize blobLength blob)
    (hsign : Carries m' .signData keyOpaqueSize blobLength blob)
    (hverify : Carries m'' .verifyData keyOpaqueSize blobLength blob) :
    BlobAgreed m m' m'' keyOpaqueSize ↔
      (blobLength ≤ keyOpaqueSize ∧ 4 + keyOpaqueSize ≤ cmdDataLength m ∧
        ∀ i, blobLength ≤ i → i < keyOpaqueSize →
          m .cmdBuffer (Command.getKeypairPublic.blobOffset + i) =
              Command.signData.behindBlob m' i ∧
            m .cmdBuffer (Command.getKeypairPublic.blobOffset + i) =
              Command.verifyData.behindBlob m'' i) ∨
      (keyOpaqueSize < blobLength ∧ cmdDataLength m < 4 + keyOpaqueSize) := by
  unfold BlobAgreed
  rw [hget.builds_getKeypairPublic, hsign.builds_signData, hverify.builds_verifyData]
  constructor
  · intro hagreed
    rcases hagreed with ⟨hshort, hlong, -⟩ | ⟨⟨hd, hle, -⟩, hsame⟩
    · exact .inr ⟨Nat.lt_of_not_le hlong, Nat.lt_of_not_le hshort⟩
    · refine .inl ⟨hle, hd, fun i hbehind hi => ?_⟩
      have hboth := hsame i hi
      -- inside the blob the three agree anyway
      rwa [hget.keyOpaque_getKeypairPublic hd hi, hsign.keyOpaque_signData hle,
        hverify.keyOpaque_verifyData hle, if_neg (Nat.not_lt.mpr hbehind),
        if_neg (Nat.not_lt.mpr hbehind), if_neg (Nat.not_lt.mpr hbehind)] at hboth
  · intro hcond
    rcases hcond with ⟨hle, hd, hbehind⟩ | ⟨hlong, hshort⟩
    · refine .inr ⟨⟨hd, hle, hle⟩, fun i hi => ?_⟩
      rw [hget.keyOpaque_getKeypairPublic hd hi, hsign.keyOpaque_signData hle,
        hverify.keyOpaque_verifyData hle]
      by_cases hin : i < blobLength
      · simp only [if_pos hin, and_self]
      · simp only [if_neg hin]
        exact hbehind i (Nat.le_of_not_lt hin) hi
    · exact .inl ⟨Nat.not_le_of_lt hshort, Nat.not_le_of_lt hlong, Nat.not_le_of_lt hlong⟩

end Agreement

/-- A request for the public key of a blob of two bytes, with the bytes `rest` behind the blob. -/
def publicKeyMem (rest : List UInt8) : Mem Block :=
  blobMem ([3, 0, 0, 0, 8, 0, 0, 0, 2, 0, 0, 0, 170, 187] ++ rest)

/-- The bytes of the blob in the three commands. -/
def blobBytes : Nat → UInt8 := fun i => [170, 187].getD i 0

theorem carries_publicKeyMem (rest : List UInt8) :
    Carries (publicKeyMem rest) .getKeypairPublic 4 2 blobBytes where
  cmdId := rfl
  size := rfl
  length := rfl
  bytes := by
    intro i hi
    match i, hi with
    | 0, _ => rfl
    | 1, _ => rfl
  others := trivial

theorem carries_signMem : Carries signMem .signData 4 2 blobBytes :=
  ⟨by decide, by decide, by decide, by decide, by decide, by decide⟩

theorem carries_verifyMem : Carries verifyMem .verifyData 4 2 blobBytes :=
  ⟨by decide, by decide, by decide, by decide, by decide, by decide, by decide⟩

/-- With zeros behind the blob the three requests carry the same. -/
theorem blobAgreed_zeros : BlobAgreed (publicKeyMem [0, 0]) signMem verifyMem 4 := by
  refine (blobAgreed_iff (carries_publicKeyMem _) carries_signMem carries_verifyMem).mpr (.inl ?_)
  exact ⟨by decide, by decide, by decide⟩

/-- With other bytes behind it they do not: all three commands are accepted, and the request for the
public key has those bytes where the other two have zeros. -/
theorem blob_not_agreed :
    Carries (publicKeyMem [5, 6]) .getKeypairPublic 4 2 blobBytes ∧
      Carries signMem .signData 4 2 blobBytes ∧ Carries verifyMem .verifyData 4 2 blobBytes ∧
      ¬ BlobAgreed (publicKeyMem [5, 6]) signMem verifyMem 4 := by
  have hget := carries_publicKeyMem [5, 6]
  have hd : 4 + 4 ≤ cmdDataLength (publicKeyMem [5, 6]) := by decide
  refine ⟨hget, carries_signMem, carries_verifyMem, fun hagreed => ?_⟩
  rcases hagreed with ⟨hshort, -⟩ | ⟨-, hsame⟩
  · exact hshort (hget.builds_getKeypairPublic.mpr hd)
  · -- the byte behind the blob
    have hbyte := (hsame 2 (by decide)).1
    rw [hget.keyOpaque_getKeypairPublic hd (by decide),
      carries_signMem.keyOpaque_signData (by decide)] at hbyte
    exact absurd hbyte (by decide)

end Txei.Keymaster

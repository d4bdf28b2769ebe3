import Txei.Keymaster.Reply

/-!
# The data of a reply

`set_response_status_and_data` re-encodes the five successful replies of the firmware as the
structures of the HAL. `replyData_exact` says for which buffer sizes it succeeds and that the HAL
then reads the data of the firmware. A verification reply has no data behind the response header,
and its size is not tested again: `sep_keymaster_send_cmd` has tested that the header fits.
-/

namespace Txei.Keymaster

open Machine Machine.Prog Mei

/-- Read by the structures of the HAL, the response in `r` holds the data of the reply in `m`. -/
def Command.Decodes (m r : Mem Block) : Command → Prop
  | generateKeypair | importKeypair =>
      r.word .rspBuffer FirmwareRsp.result = resultSuccess ∧
        r.word .rspBuffer (FirmwareRsp.rspData + KeyBlob.keyBlobLength) =
          m.word .response RespHeader.outputSize ∧
        ∀ i < m.word .response RespHeader.outputSize,
          r .rspBuffer (FirmwareRsp.rspData + KeyBlob.keyBlob + i) =
            m .response (GenKeyResponse.keyOpaque + i)
  | getKeypairPublic =>
      r.word .rspBuffer FirmwareRsp.result = resultSuccess ∧
        r.word .rspBuffer (FirmwareRsp.rspData + PublicKey.keyType) = keyTypeRsa ∧
        r.word .rspBuffer (rsaPublicKey + RsaPublicKey.modulusLength) =
          m.word .response GetPublicKeyResponse.keySize ∧
        r.word .rspBuffer (rsaPublicKey + RsaPublicKey.publicExponentLength) =
          publicExponentMaxSize ∧
        (∀ i < m.word .response GetPublicKeyResponse.keySize,
          r .rspBuffer (rsaPublicKey + RsaPublicKey.bytes + i) =
            m .response (GetPublicKeyResponse.modulus + i)) ∧
        ∀ i < publicExponentMaxSize,
          r .rspBuffer (rsaPublicKey + RsaPublicKey.bytes +
            m.word .response GetPublicKeyResponse.keySize + i) =
              m .response (GetPublicKeyResponse.publicExponent + i)
  | signData =>
      r.word .rspBuffer FirmwareRsp.result = resultSuccess ∧
        r.word .rspBuffer (FirmwareRsp.rspData + Signature.signatureLength) =
          m.word .response SignDataResponse.signatureSize ∧
        ∀ i < m.word .response SignDataResponse.signatureSize,
          r .rspBuffer (FirmwareRsp.rspData + Signature.signature + i) =
            m .response (SignDataResponse.signature + i)
  | verifyData =>
      r.word .rspBuffer FirmwareRsp.result =
        if m.word .response VerifyDataResponse.verified ≠ 0 then resultSuccess else resultFailure

theorem Command.decodes_congr {m m' : Mem Block} (h : m' .response = m .response)
    (r : Mem Block) (c : Command) : c.Decodes m' r ↔ c.Decodes m r := by
  have hword : ∀ o, m'.word .response o = m.word .response o := fun o => by
    simp only [Mem.word, h]
  cases c <;> simp only [Decodes, hword, h]

/-! ## What each copy leaves -/

section Copies

variable {m : Mem Block} {size : Nat}

theorem copyKeyBlob_mem (hsize : size < 2 ^ 32) :
    ((copyKeyBlob size).run m).mem =
      (m.write .rspBuffer 12 4 (byteAt size)).write .rspBuffer 16 size fun i =>
        m .response (GenKeyResponse.keyOpaque + i) := by
  have hother : Block.response ≠ .rspBuffer := by decide
  simp only [copyKeyBlob, run_bind, run_store, run_load, run_memcpy, Run.andThen_ok,
    Run.prepend_mem, Mem.word_write_same, wrap32_of_lt hsize, Mem.write_other _ _ _ _ hother]
  rfl

/-- The caller's buffer with the fields of a public key, the modulus `f` and the exponent `g`. -/
def publicKeyWritten (m : Mem Block) (size : Nat) (f g : Nat → UInt8) : Mem Block :=
  ((((m.write .rspBuffer 12 4 (byteAt keyTypeRsa)).write .rspBuffer 16 4 (byteAt size)).write
    .rspBuffer 20 4 (byteAt publicExponentMaxSize)).write .rspBuffer 24 size f).write .rspBuffer
    (24 + size) publicExponentMaxSize g

theorem copyPublicKey_mem :
    ((copyPublicKey size).run m).mem =
      publicKeyWritten m size (fun i => m .response (GetPublicKeyResponse.modulus + i))
        fun i => m .response (GetPublicKeyResponse.publicExponent + i) := by
  have hother : Block.response ≠ .rspBuffer := by decide
  simp only [copyPublicKey, run_bind, run_store, run_memcpy, Run.andThen_ok,
    Run.prepend_mem, Mem.write_other _ _ _ _ hother]
  rfl

theorem copySignature_mem :
    ((copySignature size).run m).mem =
      (m.write .rspBuffer 12 4 (byteAt size)).write .rspBuffer 16 size fun i =>
        m .response (SignDataResponse.signature + i) := by
  have hother : Block.response ≠ .rspBuffer := by decide
  simp only [copySignature, run_bind, run_store, run_memcpy, Run.andThen_ok,
    Run.prepend_mem, Mem.write_other _ _ _ _ hother]
  rfl

/-- A length field with the bytes it counts behind it, in the caller's buffer. -/
theorem lengthAndBytes (m : Mem Block) (hsize : size < 2 ^ 32) (f : Nat → UInt8) :
    ((m.write .rspBuffer 12 4 (byteAt size)).write .rspBuffer 16 size f).word .rspBuffer 12 =
        size ∧
      ∀ i < size, (m.write .rspBuffer 12 4 (byteAt size)).write .rspBuffer 16 size f .rspBuffer
        (16 + i) = f i := by
  constructor
  · rw [Mem.word_write_apart _ _ _ _ _ _ (by omega), Mem.word_write_same, wrap32_of_lt hsize]
  · intro i hi
    rw [Mem.write_inside _ _ _ _ _ _ (by omega), Nat.add_sub_cancel_left]

/-- A public key reads back: its header, the modulus, and the exponent behind it, wherever the
modulus ends. -/
theorem publicKeyFields (m : Mem Block) (hsize : size < 2 ^ 32) (f g : Nat → UInt8) :
    (publicKeyWritten m size f g).word .rspBuffer 12 = keyTypeRsa ∧
      (publicKeyWritten m size f g).word .rspBuffer 16 = size ∧
      (publicKeyWritten m size f g).word .rspBuffer 20 = publicExponentMaxSize ∧
      (∀ i < size, publicKeyWritten m size f g .rspBuffer (24 + i) = f i) ∧
      ∀ i < publicExponentMaxSize,
        publicKeyWritten m size f g .rspBuffer (24 + size + i) = g i := by
  unfold publicKeyWritten
  refine ⟨?_, ?_, ?_, fun i hi => ?_, fun i hi => ?_⟩
  -- the writes from the last to the first: exponent, modulus, the three words of the header
  · rw [Mem.word_write_before _ _ _ _ _ _ _ (by decide),
      Mem.word_write_apart _ _ _ _ _ _ (.inl (by decide)),
      Mem.word_write_apart _ _ _ _ _ _ (by decide), Mem.word_write_apart _ _ _ _ _ _ (by decide),
      Mem.word_write_same]
    rfl
  · rw [Mem.word_write_before _ _ _ _ _ _ _ (by decide),
      Mem.word_write_apart _ _ _ _ _ _ (.inl (by decide)),
      Mem.word_write_apart _ _ _ _ _ _ (by decide), Mem.word_write_same, wrap32_of_lt hsize]
  · rw [Mem.word_write_before _ _ _ _ _ _ _ (by decide),
      Mem.word_write_apart _ _ _ _ _ _ (.inl (by decide)), Mem.word_write_same]
    rfl
  · rw [Mem.write_outside _ _ _ _ _ _ _ (by omega), Mem.write_inside _ _ _ _ _ _ (by omega),
      Nat.add_sub_cancel_left]
  · rw [Mem.write_inside _ _ _ _ _ _ ⟨Nat.le_add_right _ i, Nat.add_lt_add_left hi _⟩,
      Nat.add_sub_cancel_left]

end Copies

/-! ## The layouts -/

section Payload

variable {n sizeField fixed : Nat} {copy : Nat → Proc Unit} {m : Mem Block}

theorem lengthsMem_response (x : Nat) (m : Mem Block) :
    lengthsMem x m .response = m .response := by
  have hbuffer : Block.response ≠ .rspBuffer := by decide
  have hlength : Block.response ≠ .rspLength := by decide
  simp only [lengthsMem, Mem.write_other _ _ _ _ hbuffer, Mem.write_other _ _ _ _ hlength]

theorem setPayload_ok (h : ((setPayload n sizeField fixed copy).run m).result = .ok ()) :
    ((setPayload n sizeField fixed copy).run m).mem =
      ((copy (m.word .response sizeField)).run
        (lengthsMem (fixed + m.word .response sizeField) m)).mem := by
  by_cases hbig : n < wrap32 (12 + (fixed + m.word .response sizeField))
  · rw [run_setPayload_refused hbig] at h
    cases h
  · rw [run_setPayload_accepted (Nat.le_of_not_lt hbig), Run.prepend_mem]

variable {need extent probe : Nat}
  (hcopy : CopySpec need extent probe (copy (m.word .response sizeField)))
  (hwrap : 12 + (fixed + m.word .response sizeField) < 2 ^ 32)

include hcopy hwrap

/-- A payload whose size does not wrap passes the size test exactly if the buffer holds it. -/
theorem setPayload_ok_iff :
    ((setPayload n sizeField fixed copy).run m).result = .ok () ↔
      12 + (fixed + m.word .response sizeField) ≤ n := by
  by_cases hbig : n < wrap32 (12 + (fixed + m.word .response sizeField))
  · rw [run_setPayload_refused hbig]
    rw [wrap32_of_lt hwrap] at hbig
    simp only [reduceCtorEq, false_iff]
    exact Nat.not_le_of_lt hbig
  · rw [run_setPayload_accepted (Nat.le_of_not_lt hbig), Run.prepend_result, hcopy.result]
    rw [wrap32_of_lt hwrap] at hbig
    exact iff_of_true rfl (Nat.le_of_not_lt hbig)

/-- The size a payload needs is stored whether the buffer holds it or not. -/
theorem setPayload_rspLength :
    rspLength ((setPayload n sizeField fixed copy).run m).mem =
      12 + (fixed + m.word .response sizeField) := by
  have hlengths : rspLength (lengthsMem (fixed + m.word .response sizeField) m) =
      12 + (fixed + m.word .response sizeField) := by
    refine (Mem.word_write_same _ _ _ _).trans ?_
    exact (wrap32_rspLength _).trans (wrap32_of_lt hwrap)
  by_cases hbig : n < wrap32 (12 + (fixed + m.word .response sizeField))
  · rw [run_setPayload_refused hbig]
    exact hlengths
  · rw [run_setPayload_accepted (Nat.le_of_not_lt hbig), Run.prepend_mem]
    exact (hcopy.rspLength _).trans hlengths

end Payload

/-- The translation of a successful reply of layout `c` into a buffer of `n` bytes: the size it
stores, the buffers it accepts, and what the HAL reads afterwards. -/
structure DataExact (n : Nat) (m : Mem Block) (c : Command)
    (r : Run DeviceCall Block Failure Unit) : Prop where
  rspLength : rspLength r.mem = c.rspNeed m
  ok_iff : r.result = .ok () ↔ c = .verifyData ∨ c.rspNeed m ≤ n
  decodes : r.result = .ok () → c.Decodes m r.mem

section Layouts

variable {n : Nat} {m : Mem Block}

/-- A layout with a payload: everything but the copy is the same for all of them. -/
theorem setPayload_exact {sizeField fixed need extent probe : Nat} {copy : Nat → Proc Unit}
    {c : Command} (hc : c ≠ .verifyData)
    (hneed : c.rspNeed m = 12 + (fixed + m.word .response sizeField))
    (hwrap : c.rspNeed m < 2 ^ 32)
    (hcopy : CopySpec need extent probe (copy (m.word .response sizeField)))
    (hdecodes : c.Decodes m ((copy (m.word .response sizeField)).run
      (lengthsMem (fixed + m.word .response sizeField) m)).mem) :
    DataExact n m c ((setPayload n sizeField fixed copy).run m) where
  rspLength := by
    rw [hneed] at hwrap ⊢
    exact setPayload_rspLength hcopy hwrap
  ok_iff := by
    rw [hneed] at hwrap ⊢
    rw [setPayload_ok_iff hcopy hwrap, or_iff_right hc]
  decodes := by
    intro hok
    rw [setPayload_ok hok]
    exact hdecodes

theorem lengthsMem_resultField (x : Nat) (hstatus : m.word .rspBuffer 8 = resultSuccess) :
    (lengthsMem x m).word .rspBuffer FirmwareRsp.result = resultSuccess := by
  simp only [lengthsMem]
  rw [Mem.word_write_other _ _ _ _ _ (by decide), Mem.word_write_apart _ _ _ _ _ _ (by decide)]
  exact hstatus

theorem copyKeyBlob_decodes (x : Nat) (hstatus : m.word .rspBuffer 8 = resultSuccess) :
    Command.Decodes m ((copyKeyBlob (m.word .response RespHeader.outputSize)).run
      (lengthsMem x m)).mem .generateKeypair := by
  have hsize := m.word_lt .response RespHeader.outputSize
  obtain ⟨hlength, hbytes⟩ := lengthAndBytes (lengthsMem x m) hsize fun i =>
    lengthsMem x m .response (GenKeyResponse.keyOpaque + i)
  refine ⟨((copyKeyBlob_spec hsize).resultField _).trans (lengthsMem_resultField x hstatus), ?_⟩
  rw [copyKeyBlob_mem hsize]
  refine ⟨hlength, fun i hi => (hbytes i hi).trans ?_⟩
  rw [lengthsMem_response]

theorem copySignature_decodes (x : Nat) (hstatus : m.word .rspBuffer 8 = resultSuccess) :
    Command.Decodes m ((copySignature (m.word .response SignDataResponse.signatureSize)).run
      (lengthsMem x m)).mem .signData := by
  have hsize := m.word_lt .response SignDataResponse.signatureSize
  obtain ⟨hlength, hbytes⟩ := lengthAndBytes (lengthsMem x m) hsize fun i =>
    lengthsMem x m .response (SignDataResponse.signature + i)
  refine ⟨((copySignature_spec _).resultField _).trans (lengthsMem_resultField x hstatus), ?_⟩
  rw [copySignature_mem]
  refine ⟨hlength, fun i hi => (hbytes i hi).trans ?_⟩
  rw [lengthsMem_response]

theorem copyPublicKey_decodes (x : Nat) (hstatus : m.word .rspBuffer 8 = resultSuccess) :
    Command.Decodes m ((copyPublicKey (m.word .response GetPublicKeyResponse.keySize)).run
      (lengthsMem x m)).mem .getKeypairPublic := by
  have hsize := m.word_lt .response GetPublicKeyResponse.keySize
  refine ⟨((copyPublicKey_spec _).resultField _).trans (lengthsMem_resultField x hstatus), ?_⟩
  rw [copyPublicKey_mem, lengthsMem_response]
  exact publicKeyFields (lengthsMem x m) hsize _ _

end Layouts

/-- Every layout of a successful reply. -/
theorem setData_exact (n : Nat) {m : Mem Block} {c : Command}
    (hstatus : m.word .rspBuffer 8 = resultSuccess) (hwrap : c.rspNeed m < 2 ^ 32) :
    DataExact n m c ((setData n (some c)).run m) := by
  have hneed : ∀ fixed size, 12 + fixed + size = 12 + (fixed + size) := Nat.add_assoc 12
  cases c with
  | generateKeypair =>
      exact setPayload_exact (by decide) (hneed 4 _) hwrap (copyKeyBlob_spec (m.word_lt _ _))
        (copyKeyBlob_decodes _ hstatus)
  | importKeypair =>
      exact setPayload_exact (by decide) (hneed 4 _) hwrap (copyKeyBlob_spec (m.word_lt _ _))
        (copyKeyBlob_decodes _ hstatus)
  | getKeypairPublic =>
      exact setPayload_exact (by decide) (hneed 16 _) hwrap (copyPublicKey_spec _)
        (copyPublicKey_decodes _ hstatus)
  | signData =>
      exact setPayload_exact (by decide) (hneed 4 _) hwrap (copySignature_spec _)
        (copySignature_decodes _ hstatus)
  | verifyData =>
      have hfield : (setVerified.run m).mem.word .rspBuffer FirmwareRsp.result =
          if m.word .response VerifyDataResponse.verified ≠ 0 then resultSuccess
          else resultFailure := (setVerified_spec (Nat.le_refl 12) m).resultField
      exact ⟨rfl, iff_of_true rfl (.inl rfl), fun _ => hfield⟩

/-- The status comes first, and then the layout that the `CmdId` selects. -/
theorem run_setResponse_success (n : Nat) {m : Mem Block}
    (h : replyCode m = responseCodeSuccess) :
    (setResponseStatusAndData n).run m =
      ((setData n (replyCommand m)).run
        (m.write .rspBuffer FirmwareRsp.result 4 (byteAt resultSuccess))).prepend
        [.read .response 12 4, .write .rspBuffer 8 4, .read .response 8 4] := by
  simp only [replyCode, responseCodeSuccess, RespHeader.responseCode] at h
  simp [setResponseStatusAndData, h, Run.prepend]

/-- A successful reply whose sizes do not wrap is translated exactly: the size it needs is stored,
the caller's buffer is refused if and only if it is smaller, except by a verification reply, and the
HAL reads the data of the firmware. -/
theorem replyData_exact {c : Command} (n : Nat) (m : Mem Block)
    (hcode : replyCode m = responseCodeSuccess) (hc : replyCommand m = some c)
    (hwrap : c.rspNeed m < 2 ^ 32) :
    DataExact n m c ((setResponseStatusAndData n).run m) := by
  have hresponse : (m.write .rspBuffer FirmwareRsp.result 4 (byteAt resultSuccess)) .response =
      m .response := Mem.write_other _ _ _ _ (by decide)
  have hneed : c.rspNeed (m.write .rspBuffer FirmwareRsp.result 4 (byteAt resultSuccess)) =
      c.rspNeed m := by
    rw [Command.rspNeed, Command.rspNeed, Command.payload_congr hresponse]
  rw [run_setResponse_success n hcode, hc]
  obtain ⟨hlength, hok, hdecodes⟩ := setData_exact n (c := c)
    (m := m.write .rspBuffer FirmwareRsp.result 4 (byteAt resultSuccess))
    (Mem.word_write_same _ _ _ _) (by rwa [hneed])
  rw [hneed] at hlength hok
  exact ⟨hlength, hok, fun h => (Command.decodes_congr hresponse _ c).mp (hdecodes h)⟩

/-- The memory after the firmware has sent `bytes`. -/
def receivedMem (bytes : List UInt8) : Mem Block := .ofLists fun
  | .response => bytes
  | _ => []

/-- The reply with a signature of two bytes. -/
def signatureMem : Mem Block := receivedMem
  [0, 0, 0, 0, 1, 0, 0, 0, 5, 0, 0, 0, 0, 0, 0, 0, 6, 0, 0, 0, 2, 0, 0, 0, 171, 205]

/-- A buffer of 18 bytes is just large enough for it. -/
theorem replyData_exact_signature :
    DataExact 18 signatureMem .signData ((setResponseStatusAndData 18).run signatureMem) :=
  replyData_exact 18 signatureMem (by decide) (by decide) (by decide)

/-- The reply to a verification that has succeeded. -/
def verdictMem : Mem Block :=
  receivedMem [0, 0, 0, 0, 1, 0, 0, 0, 6, 0, 0, 0, 0, 0, 0, 0, 4, 0, 0, 0, 1, 0, 0, 0]

/-- It is accepted for a buffer of no bytes, with 12 as the size it needs. -/
theorem verdict_not_tight :
    replyCode verdictMem = responseCodeSuccess ∧ replyCommand verdictMem = some .verifyData ∧
      rspLength ((setResponseStatusAndData 0).run verdictMem).mem = 12 ∧
      ¬ (((setResponseStatusAndData 0).run verdictMem).result = .ok () ↔
        rspLength ((setResponseStatusAndData 0).run verdictMem).mem ≤ 0) := by
  have hcode : replyCode verdictMem = responseCodeSuccess := by decide
  have hc : replyCommand verdictMem = some .verifyData := by decide
  have hlength : rspLength ((setResponseStatusAndData 0).run verdictMem).mem = 12 := by decide
  have hok : ((setResponseStatusAndData 0).run verdictMem).result = .ok () := by decide
  refine ⟨hcode, hc, hlength, fun h => ?_⟩
  have hle := h.mp hok
  rw [hlength] at hle
  exact absurd hle (by decide)

end Txei.Keymaster

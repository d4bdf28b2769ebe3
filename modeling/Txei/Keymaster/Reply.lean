import Txei.Keymaster.SendCmd

/-!
# What the decoder does with a reply

`decodeReply` is characterised by four facts about a reply: the `ResponseCode` and `CmdId` in its
header, the size of the payload it declares (`payload`), the number of bytes the caller's buffer
needs for it (`rspNeed`), and the number of reply bytes it consists of (`replyExtent`). The sizes
are mathematical integers; the code tests `wrap32 (rspNeed …)` instead, and the difference is what
the bounds depend on.
-/

namespace Txei.Keymaster

open Machine Machine.Prog Mei

section Fields

variable (m : Mem Block)

/-- `ResponseCode` of the reply. -/
@[simp] abbrev replyCode : Nat := m.word .response RespHeader.responseCode

/-- The response layout that the `CmdId` of the reply selects. -/
@[simp] abbrev replyCommand : Option Command :=
  Command.ofFwId (m.word .response RespHeader.cmdId)

/-- `*rsp_length`. -/
@[simp] abbrev rspLength : Nat := m.word .rspLength 0

/-- The payload size that a reply of this layout declares. -/
def Command.payload : Command → Nat
  | generateKeypair => m.word .response RespHeader.outputSize
  | importKeypair => m.word .response RespHeader.outputSize
  | getKeypairPublic => m.word .response GetPublicKeyResponse.keySize
  | signData => m.word .response SignDataResponse.signatureSize
  | verifyData => 0

/-- The bytes of the caller's buffer in front of the payload. -/
def Command.rspFixed : Command → Nat
  | generateKeypair => 16
  | importKeypair => 16
  | getKeypairPublic => 28
  | signData => 16
  | verifyData => 12

/-- The bytes of the reply in front of the payload. -/
def Command.replyFixed : Command → Nat
  | generateKeypair => 20
  | importKeypair => 20
  | getKeypairPublic => 28
  | signData => 24
  | verifyData => 24

/-- The end of the reply's size field or flag, which is read before any size is tested. -/
def Command.replyProbe : Command → Nat
  | generateKeypair => 20
  | importKeypair => 20
  | getKeypairPublic => 24
  | signData => 24
  | verifyData => 24

/-- The size the caller's buffer needs for the reply. -/
def Command.rspNeed (c : Command) : Nat := c.rspFixed + c.payload m

/-- The size of the reply with its payload. -/
def Command.replyExtent (c : Command) : Nat := c.replyFixed + c.payload m

end Fields

/-- The two stores through 32-bit objects add up modulo `2 ^ 32`. -/
theorem wrap32_rspLength (x : Nat) :
    wrap32 (FirmwareRsp.size + wrap32 (x + 4) - sizeofResult) = wrap32 (12 + x) := by
  simp only [wrap32, FirmwareRsp.size, sizeofResult]
  omega

/-- `setLengths` for a need of `12 + x` bytes. -/
theorem run_setLengths (n x : Nat) (m : Mem Block) :
    (setLengths n (x + 4)).run m =
      ⟨if n < wrap32 (12 + x) then .error .rspBufferTooSmall else .ok (),
        (m.write .rspBuffer 4 4 (byteAt (x + 4))).write .rspLength 0 4
          (byteAt (12 + wrap32 (x + 4) - 4)),
        [.write .rspBuffer 4 4, .read .rspBuffer 4 4, .write .rspLength 0 4,
          .read .rspLength 0 4]⟩ := by
  have hw : wrap32 (12 + wrap32 (x + 4) - 4) = wrap32 (12 + x) := wrap32_rspLength x
  by_cases hn : n < wrap32 (12 + x)
  · simp [setLengths, Run.prepend, hw, hn]
  · simp [setLengths, Run.prepend, hw, hn]

/-- The `result` field once the data of a successful reply is in place, where `r` is the one set
before. -/
def Command.resultField (m : Mem Block) (r : Nat) : Command → Nat
  | verifyData =>
      if m.word .response VerifyDataResponse.verified ≠ 0 then resultSuccess else resultFailure
  | _ => r

/-- What `set_response_status_and_data` does for one layout, in a buffer of `n` bytes: the test
of the size, the resulting `*rsp_length`, the two fields in front of the data, and where the
caller's buffer is written and the reply is read. -/
structure DataSpec (n : Nat) (m : Mem Block) (c : Command)
    (r : Run DeviceCall Block Failure Unit) : Prop where
  result : r.result = if n < wrap32 (c.rspNeed m) then .error .rspBufferTooSmall else .ok ()
  rspLength : r.mem.word .rspLength 0 = wrap32 (c.rspNeed m)
  rspId : r.mem.word .rspBuffer 0 = m.word .rspBuffer 0
  resultField : r.mem.word .rspBuffer 8 = c.resultField m (m.word .rspBuffer 8)
  writes : Log.WritesBelow .rspBuffer n r.log ↔ (wrap32 (c.rspNeed m) ≤ n → c.rspNeed m ≤ n)
  reads : ∀ k, 20 ≤ k → (Log.ReadsBelow .response k r.log ↔
    c.replyProbe ≤ k ∧ (wrap32 (c.rspNeed m) ≤ n → c.replyExtent m ≤ k))

/-- What storing the data of a layout does: it fills the caller's buffer up to `need` and reads
the reply up to `extent`, and the fields in front of the data stay. -/
structure CopySpec (need extent probe : Nat) (x : Proc Unit) : Prop where
  result : ∀ m, (x.run m).result = .ok ()
  rspLength : ∀ m, (x.run m).mem.word .rspLength 0 = m.word .rspLength 0
  rspId : ∀ m, (x.run m).mem.word .rspBuffer 0 = m.word .rspBuffer 0
  resultField : ∀ m, (x.run m).mem.word .rspBuffer 8 = m.word .rspBuffer 8
  writes : ∀ m n, Log.WritesBelow .rspBuffer n (x.run m).log ↔ need ≤ n
  reads : ∀ m k, probe ≤ k → (Log.ReadsBelow .response k (x.run m).log ↔ extent ≤ k)

theorem copySignature_spec (size : Nat) :
    CopySpec (16 + size) (24 + size) 24 (copySignature size) where
  result m := by simp [copySignature]
  rspLength m := by simp [copySignature]
  rspId m := by simp [copySignature, Mem.word_write_apart]
  resultField m := by simp [copySignature, Mem.word_write_apart]
  writes m n := by
    simp [copySignature]
    omega
  reads m k hk := by
    simp [copySignature]
    omega

theorem copyKeyBlob_spec {size : Nat} (hsize : size < 2 ^ 32) :
    CopySpec (16 + size) (20 + size) 20 (copyKeyBlob size) where
  result m := by simp [copyKeyBlob]
  rspLength m := by simp [copyKeyBlob]
  rspId m := by simp [copyKeyBlob, Mem.word_write_apart]
  resultField m := by simp [copyKeyBlob, Mem.word_write_apart]
  writes m n := by
    simp [copyKeyBlob, wrap32_of_lt hsize]
    omega
  reads m k hk := by
    simp [copyKeyBlob, wrap32_of_lt hsize]
    omega

theorem copyPublicKey_spec (size : Nat) :
    CopySpec (28 + size) (28 + size) 24 (copyPublicKey size) where
  result m := by simp [copyPublicKey]
  rspLength m := by simp [copyPublicKey]
  rspId m := by simp [copyPublicKey, Mem.word_write_apart, Mem.word_write_before]
  resultField m := by simp [copyPublicKey, Mem.word_write_apart, Mem.word_write_before]
  writes m n := by
    simp [copyPublicKey]
    omega
  reads m k hk := by
    simp [copyPublicKey]
    omega

/-- The caller's memory once the lengths for `x` bytes of data are in place. -/
def lengthsMem (x : Nat) (m : Mem Block) : Mem Block :=
  (m.write .rspBuffer FirmwareRsp.rspResultAndDataLength 4 (byteAt (x + 4))).write .rspLength 0 4
    (byteAt (12 + wrap32 (x + 4) - 4))

/-- The accesses of a layout with a payload in front of the copy. -/
def lengthsLog (sizeField : Nat) : Log DeviceCall Block :=
  [.read .response sizeField 4, .write .rspBuffer 4 4, .read .rspBuffer 4 4,
    .write .rspLength 0 4, .read .rspLength 0 4]

section Payload

variable {n sizeField fixed : Nat} {copy : Nat → Proc Unit} {m : Mem Block}

/-- A payload that fails the size test: the lengths are stored, and nothing is copied. -/
theorem run_setPayload_refused (h : n < wrap32 (12 + (fixed + m.word .response sizeField))) :
    (setPayload n sizeField fixed copy).run m =
      ⟨.error .rspBufferTooSmall, lengthsMem (fixed + m.word .response sizeField) m,
        lengthsLog sizeField⟩ := by
  simp [setPayload, run_setLengths, lengthsMem, lengthsLog, h, Run.prepend]

/-- A payload that passes it: the copy follows, whether the size has wrapped or not. -/
theorem run_setPayload_accepted (h : wrap32 (12 + (fixed + m.word .response sizeField)) ≤ n) :
    (setPayload n sizeField fixed copy).run m =
      ((copy (m.word .response sizeField)).run
        (lengthsMem (fixed + m.word .response sizeField) m)).prepend (lengthsLog sizeField) := by
  have hno : ¬ n < wrap32 (12 + (fixed + m.word .response sizeField)) := by omega
  simp [setPayload, run_setLengths, lengthsMem, lengthsLog, hno, Run.prepend]

/-- The layouts with a payload in one lemma: everything but the copy is `setLengths`. -/
theorem setPayload_spec {c : Command} (hn : 12 ≤ n)
    (hneed : c.rspNeed m = 12 + (fixed + m.word .response sizeField))
    (hprobe : ∀ k, 20 ≤ k → (sizeField + 4 ≤ k ↔ c.replyProbe ≤ k))
    (hfield : ∀ r, c.resultField m r = r)
    (hcopy : CopySpec (c.rspNeed m) (c.replyExtent m) c.replyProbe
      (copy (m.word .response sizeField))) :
    DataSpec n m c ((setPayload n sizeField fixed copy).run m) := by
  have hw : wrap32 (12 + wrap32 (fixed + m.word .response sizeField + 4) - 4) =
      wrap32 (c.rspNeed m) := by
    rw [hneed]
    exact wrap32_rspLength _
  by_cases hbig : n < wrap32 (c.rspNeed m)
  · have hle : ¬ wrap32 (c.rspNeed m) ≤ n := by omega
    rw [run_setPayload_refused (hneed ▸ hbig)]
    refine ⟨by simp [hbig], by simp [lengthsMem, hw], ?_, ?_, ?_, fun k hk => ?_⟩
    · simp [lengthsMem, Mem.word_write_apart]
    · simp [lengthsMem, Mem.word_write_apart, hfield]
    · simp [lengthsLog, hle]
      omega
    · simp [lengthsLog, hle, hprobe k hk]
  · have hle : wrap32 (c.rspNeed m) ≤ n := by omega
    rw [run_setPayload_accepted (hneed ▸ hle)]
    refine ⟨?_, ?_, ?_, ?_, ?_, fun k hk => ?_⟩
    · simp [hcopy.result, hbig]
    · simp [hcopy.rspLength, lengthsMem, hw]
    · simp [hcopy.rspId, lengthsMem, Mem.word_write_apart]
    · simp [hcopy.resultField, lengthsMem, Mem.word_write_apart, hfield]
    · simp [hcopy.writes, lengthsLog, hle]
      omega
    · simp [lengthsLog, hle, hprobe k hk]
      exact fun hp => hcopy.reads _ k hp

end Payload

/-- A verification reply carries no payload, and its verdict is the `result` field. -/
theorem setVerified_spec {n : Nat} (hn : 12 ≤ n) (m : Mem Block) :
    DataSpec n m .verifyData (setVerified.run m) := by
  have hneed : Command.rspNeed m .verifyData = 12 := rfl
  have hw : wrap32 12 = 12 := rfl
  refine ⟨?_, ?_, ?_, ?_, ?_, fun k hk => ?_⟩
  · simp [setVerified, hneed, hw]
    omega
  · simp [setVerified, hneed]
  · simp [setVerified, Mem.word_write_apart]
  · by_cases hv : m.word .response 20 = 0
    · simp [setVerified, Command.resultField, hv]
      rfl
    · simp [setVerified, Command.resultField, hv]
      rfl
  · simp [setVerified, hneed, hw]
    omega
  · simp [setVerified, hneed, hw, Command.replyProbe, Command.replyExtent, Command.replyFixed,
      Command.payload]
    omega

/-- Every layout of a successful reply. -/
theorem setData_spec {n : Nat} (hn : 12 ≤ n) (m : Mem Block) (c : Command) :
    DataSpec n m c ((setData n (some c)).run m) := by
  cases c with
  | generateKeypair =>
      refine setPayload_spec hn ?_ (fun k hk => ?_) (fun _ => rfl)
        (copyKeyBlob_spec (m.word_lt _ _))
      · simp only [Command.rspNeed, Command.rspFixed, Command.payload, KeyBlob.size]
        omega
      · simp [Command.replyProbe]
  | importKeypair =>
      refine setPayload_spec hn ?_ (fun k hk => ?_) (fun _ => rfl)
        (copyKeyBlob_spec (m.word_lt _ _))
      · simp only [Command.rspNeed, Command.rspFixed, Command.payload, KeyBlob.size]
        omega
      · simp [Command.replyProbe]
  | getKeypairPublic =>
      refine setPayload_spec hn ?_ (fun k hk => ?_) (fun _ => rfl) (copyPublicKey_spec _)
      · simp only [Command.rspNeed, Command.rspFixed, Command.payload, PublicKey.size,
          RsaPublicKey.size, publicExponentMaxSize]
        omega
      · simp [Command.replyProbe]
  | signData =>
      refine setPayload_spec hn ?_ (fun k hk => ?_) (fun _ => rfl) (copySignature_spec _)
      · simp only [Command.rspNeed, Command.rspFixed, Command.payload, Signature.size]
        omega
      · simp [Command.replyProbe]
  | verifyData => exact setVerified_spec hn m

/-! ## The whole decoder -/

/-- The sizes of a reply only depend on the reply. -/
theorem Command.payload_congr {m m' : Mem Block} (h : m' .response = m .response) (c : Command) :
    c.payload m' = c.payload m := by
  cases c <;> simp only [payload, Mem.word, h]

theorem rspIdOf_lt (n : Nat) : rspIdOf n < 2 ^ 32 := by
  unfold rspIdOf
  cases Command.ofFwId n with
  | none => exact Nat.two_pow_pos 32
  | some c => cases c <;> decide

theorem resultOfResponseCode_lt (n : Nat) : resultOfResponseCode n < 2 ^ 32 := by
  unfold resultOfResponseCode
  split <;> decide

/-- A response code other than success never reports success. -/
theorem resultOfResponseCode_ne_success (n : Nat) : resultOfResponseCode n ≠ resultSuccess := by
  unfold resultOfResponseCode
  split <;> decide

/-- The caller's memory once the id and the status of a successful reply are in place. -/
def statusMem (m : Mem Block) : Mem Block :=
  (m.write .rspBuffer FirmwareRsp.rspId 4 (byteAt (rspIdOf (replyCode m)))).write .rspBuffer
    FirmwareRsp.result 4 (byteAt resultSuccess)

/-- A reply that reports a failure: its translation has a fixed size. -/
theorem run_decodeReply_failure {m : Mem Block} (h : replyCode m ≠ responseCodeSuccess) :
    decodeReply.run m =
      ⟨.ok (),
        (((m.write .rspBuffer 0 4 (byteAt (rspIdOf (replyCode m)))).write .rspBuffer 8 4
          (byteAt (resultOfResponseCode (replyCode m)))).write .rspBuffer 4 4
            (byteAt sizeofResult)).write .rspLength 0 4 (byteAt FirmwareRsp.size),
        [.read .response 12 4, .write .rspBuffer 0 4, .read .rspLength 0 4, .read .response 12 4,
          .write .rspBuffer 8 4, .write .rspBuffer 4 4, .write .rspLength 0 4]⟩ := by
  simp only [replyCode, responseCodeSuccess, RespHeader.responseCode] at h
  simp [decodeReply, setResponseCmdId, setResponseStatusAndData, h, Run.prepend]

/-- A reply that reports success: its data is translated by the layout of its `CmdId`. -/
theorem run_decodeReply_success {m : Mem Block} (h : replyCode m = responseCodeSuccess) :
    decodeReply.run m =
      ((setData (rspLength m) (replyCommand m)).run (statusMem m)).prepend
        [.read .response 12 4, .write .rspBuffer 0 4, .read .rspLength 0 4, .read .response 12 4,
          .write .rspBuffer 8 4, .read .response 8 4] := by
  simp only [replyCode, responseCodeSuccess, RespHeader.responseCode] at h
  simp [decodeReply, setResponseCmdId, setResponseStatusAndData, statusMem, h, Run.prepend]

/-- The data of a successful reply, translated from where the status has been set. -/
theorem setData_statusMem {m : Mem Block} (hn : 12 ≤ rspLength m) (c : Command) :
    DataSpec (rspLength m) (statusMem m) c
      ((setData (rspLength m) (some c)).run (statusMem m)) :=
  setData_spec hn (statusMem m) c

theorem statusMem_response (m : Mem Block) : statusMem m .response = m .response := by
  simp only [statusMem, Mem.write_other _ _ _ _ (show Block.response ≠ .rspBuffer by decide)]

theorem Command.rspNeed_statusMem (c : Command) (m : Mem Block) :
    c.rspNeed (statusMem m) = c.rspNeed m := by
  rw [rspNeed, rspNeed, payload_congr (statusMem_response m)]

theorem Command.replyExtent_statusMem (c : Command) (m : Mem Block) :
    c.replyExtent (statusMem m) = c.replyExtent m := by
  rw [replyExtent, replyExtent, payload_congr (statusMem_response m)]

theorem Command.resultField_statusMem (c : Command) (m : Mem Block) (r : Nat) :
    c.resultField (statusMem m) r = c.resultField m r := by
  have hword : (statusMem m).word .response VerifyDataResponse.verified =
      m.word .response VerifyDataResponse.verified := by
    simp only [Mem.word, statusMem_response]
  cases c <;> simp only [resultField, hword]

/-- The size test of the reply in `m`: it is passed by every reply that reports a failure or has
an unknown id. -/
def ReplyFits (m : Mem Block) : Prop :=
  replyCode m = responseCodeSuccess → ∀ c, replyCommand m = some c →
    wrap32 (c.rspNeed m) ≤ rspLength m

theorem decodeReply_ok_iff {m : Mem Block} (hn : 12 ≤ rspLength m) :
    (decodeReply.run m).result = .ok () ↔ ReplyFits m := by
  unfold ReplyFits
  by_cases h : replyCode m = responseCodeSuccess
  · rw [run_decodeReply_success h, Run.prepend_result]
    cases hc : replyCommand m with
    | none => simp [setData]
    | some c =>
        have hres := (setData_statusMem hn c).result
        rw [c.rspNeed_statusMem] at hres
        rw [hres]
        by_cases hbig : rspLength m < wrap32 (c.rspNeed m)
        · have hle : ¬ wrap32 (c.rspNeed m) ≤ rspLength m := by omega
          simp only [if_pos hbig, reduceCtorEq, false_iff]
          exact fun hall => hle (hall h c rfl)
        · rw [if_neg hbig]
          refine ⟨fun _ _ d hd => ?_, fun _ => rfl⟩
          cases hd
          omega
  · rw [run_decodeReply_failure h]
    exact ⟨fun _ h0 => absurd h0 h, fun _ => rfl⟩

/-- `rsp_id` is derived from the `ResponseCode` of the reply, whatever its `CmdId`. -/
theorem decodeReply_rspId {m : Mem Block} (hn : 12 ≤ rspLength m) :
    (decodeReply.run m).mem.word .rspBuffer FirmwareRsp.rspId = rspIdOf (replyCode m) := by
  have hw := wrap32_of_lt (rspIdOf_lt (replyCode m))
  have hstart : (statusMem m).word .rspBuffer 0 = rspIdOf (replyCode m) := by
    simp only [statusMem, FirmwareRsp.rspId, FirmwareRsp.result]
    rw [Mem.word_write_apart _ _ _ _ _ _ (by decide), Mem.word_write_same, hw]
  by_cases h : replyCode m = responseCodeSuccess
  · rw [run_decodeReply_success h, Run.prepend_mem]
    cases hc : replyCommand m with
    | none => exact hstart
    | some c => exact ((setData_statusMem hn c).rspId).trans hstart
  · rw [run_decodeReply_failure h]
    simp only [FirmwareRsp.rspId]
    rw [Mem.word_write_other _ _ _ _ _ (by decide), Mem.word_write_apart _ _ _ _ _ _ (by decide),
      Mem.word_write_apart _ _ _ _ _ _ (by decide), Mem.word_write_same, hw]

/-- The `result` field a decoded reply leaves behind. -/
def resultOfReply (m : Mem Block) : Nat :=
  if replyCode m = responseCodeSuccess then
    match replyCommand m with
    | some c => c.resultField m resultSuccess
    | none => resultSuccess
  else resultOfResponseCode (replyCode m)

theorem decodeReply_resultField {m : Mem Block} (hn : 12 ≤ rspLength m) :
    (decodeReply.run m).mem.word .rspBuffer FirmwareRsp.result = resultOfReply m := by
  have hstart : (statusMem m).word .rspBuffer 8 = resultSuccess := by
    simp only [statusMem, FirmwareRsp.rspId, FirmwareRsp.result]
    rw [Mem.word_write_same]
    rfl
  unfold resultOfReply
  by_cases h : replyCode m = responseCodeSuccess
  · rw [run_decodeReply_success h, if_pos h, Run.prepend_mem]
    cases hc : replyCommand m with
    | none => exact hstart
    | some c =>
        refine ((setData_statusMem hn c).resultField).trans ?_
        rw [hstart, c.resultField_statusMem]
  · rw [run_decodeReply_failure h, if_neg h]
    simp only [FirmwareRsp.result]
    rw [Mem.word_write_other _ _ _ _ _ (by decide), Mem.word_write_apart _ _ _ _ _ _ (by decide),
      Mem.word_write_same, wrap32_of_lt (resultOfResponseCode_lt _)]

/-- The `*rsp_length` a decoded reply leaves behind. -/
def rspLengthOfReply (m : Mem Block) : Nat :=
  if replyCode m = responseCodeSuccess then
    match replyCommand m with
    | some c => wrap32 (c.rspNeed m)
    | none => rspLength m
  else FirmwareRsp.size

theorem decodeReply_rspLength {m : Mem Block} (hn : 12 ≤ rspLength m) :
    rspLength (decodeReply.run m).mem = rspLengthOfReply m := by
  unfold rspLengthOfReply
  by_cases h : replyCode m = responseCodeSuccess
  · rw [run_decodeReply_success h, if_pos h, Run.prepend_mem]
    cases hc : replyCommand m with
    | none =>
        show (statusMem m).word .rspLength 0 = m.word .rspLength 0
        simp [statusMem]
    | some c =>
        refine ((setData_statusMem hn c).rspLength).trans ?_
        rw [c.rspNeed_statusMem]
  · rw [run_decodeReply_failure h, if_neg h]
    simp only [rspLength, Mem.word_write_same]
    rfl

/-- The caller's buffer is overrun exactly by a successful reply whose size passes the test only
because it wraps. -/
theorem decodeReply_writes {m : Mem Block} (hn : 12 ≤ rspLength m) :
    Log.WritesBelow .rspBuffer (rspLength m) (decodeReply.run m).log ↔
      (replyCode m = responseCodeSuccess → ∀ c, replyCommand m = some c →
        wrap32 (c.rspNeed m) ≤ rspLength m → c.rspNeed m ≤ rspLength m) := by
  by_cases h : replyCode m = responseCodeSuccess
  · rw [run_decodeReply_success h, Run.prepend_log, Log.writesBelow_append]
    have hhead : Log.WritesBelow .rspBuffer (rspLength m)
        [.read .response 12 4, .write .rspBuffer 0 4, .read .rspLength 0 4, .read .response 12 4,
          .write .rspBuffer 8 4, (.read .response 8 4 : Event DeviceCall Block)] := by
      simp at hn ⊢
      omega
    cases hc : replyCommand m with
    | none => simp [setData, hhead]
    | some c =>
        have hw := (setData_statusMem hn c).writes
        rw [c.rspNeed_statusMem] at hw
        rw [hw]
        refine ⟨fun hdata _ d hd => ?_, fun hall => ⟨hhead, hall h c rfl⟩⟩
        cases hd
        exact hdata.2
  · rw [run_decodeReply_failure h]
    refine ⟨fun _ h0 => absurd h0 h, fun _ => ?_⟩
    simp at hn ⊢
    omega

/-- The reply bytes the decoder reads, once the reply header is among the first `k` bytes. -/
theorem decodeReply_reads {m : Mem Block} (hn : 12 ≤ rspLength m) {k : Nat} (hk : 20 ≤ k) :
    Log.ReadsBelow .response k (decodeReply.run m).log ↔
      (replyCode m = responseCodeSuccess → ∀ c, replyCommand m = some c →
        c.replyProbe ≤ k ∧ (wrap32 (c.rspNeed m) ≤ rspLength m → c.replyExtent m ≤ k)) := by
  by_cases h : replyCode m = responseCodeSuccess
  · rw [run_decodeReply_success h, Run.prepend_log, Log.readsBelow_append]
    have hhead : Log.ReadsBelow .response k
        [.read .response 12 4, .write .rspBuffer 0 4, .read .rspLength 0 4, .read .response 12 4,
          .write .rspBuffer 8 4, (.read .response 8 4 : Event DeviceCall Block)] := by
      simp
      omega
    cases hc : replyCommand m with
    | none => simp [setData, hhead]
    | some c =>
        have hr := (setData_statusMem hn c).reads k hk
        rw [c.rspNeed_statusMem, c.replyExtent_statusMem] at hr
        rw [hr]
        refine ⟨fun hdata _ d hd => ?_, fun hall => ⟨hhead, hall h c rfl⟩⟩
        cases hd
        exact hdata.2
  · rw [run_decodeReply_failure h]
    refine ⟨fun _ h0 => absurd h0 h, fun _ => ?_⟩
    simp
    omega

/-- The decoder always reads the `ResponseCode`. -/
theorem decodeReply_reads_code {m : Mem Block} {k : Nat}
    (h : Log.ReadsBelow .response k (decodeReply.run m).log) : 16 ≤ k := by
  by_cases hc : replyCode m = responseCodeSuccess
  · rw [run_decodeReply_success hc, Run.prepend_log] at h
    simp at h
    omega
  · rw [run_decodeReply_failure hc] at h
    simp at h
    omega

end Txei.Keymaster

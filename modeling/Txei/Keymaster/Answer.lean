import Txei.Machine.Slice
import Txei.Keymaster.Exchange
import Txei.Keymaster.ReplyData

/-!
# What a reply answers

`set_response_status_and_data` translates a reply of the firmware into a response of the HAL. An
`Answer` is what either of them says: `ofReply` reads a successful reply by the structures of
`android_heci_agent.h` and `ofResponse` a response by those of `intelkeymaster_firmware_api.h`.
`decodeReply_answers` says that the translation keeps the answer.
-/

namespace Txei.Keymaster

open Machine Machine.Prog Mei

/-- An answer about RSA keys. -/
inductive Answer where
  | keyBlob (blob : List UInt8)
  | publicKey (modulus exponent : List UInt8)
  | signature (bytes : List UInt8)
  | verdict (verified : Bool)
  deriving DecidableEq, Repr

/-- The size of the reply that gives an answer. -/
def Answer.replySize : Answer → Nat
  | keyBlob blob => 20 + blob.length
  | publicKey modulus _ => 28 + modulus.length
  | signature bytes => 24 + bytes.length
  | verdict _ => 24

/-- The size of the response that gives it. -/
def Answer.rspSize : Answer → Nat
  | keyBlob blob => 16 + blob.length
  | publicKey modulus exponent => 24 + modulus.length + exponent.length
  | signature bytes => 16 + bytes.length
  | verdict _ => 12

/-- The answer in the fields of a reply. -/
def Command.inReply (reply : Nat → UInt8) : Command → Answer
  | generateKeypair | importKeypair =>
      .keyBlob (slice reply GenKeyResponse.keyOpaque (wordAt reply RespHeader.outputSize))
  | getKeypairPublic =>
      .publicKey
        (slice reply GetPublicKeyResponse.modulus (wordAt reply GetPublicKeyResponse.keySize))
        (slice reply GetPublicKeyResponse.publicExponent publicExponentMaxSize)
  | signData =>
      .signature
        (slice reply SignDataResponse.signature (wordAt reply SignDataResponse.signatureSize))
  | verifyData => .verdict (wordAt reply VerifyDataResponse.verified ≠ 0)

/-- The answer of a reply that reports success, has the layout of the command and is complete. -/
def Answer.ofReply (c : Command) (bytes : List UInt8) : Option Answer :=
  if wordAt (onWire bytes) RespHeader.responseCode = responseCodeSuccess ∧
      wordAt (onWire bytes) RespHeader.cmdId = c.fwId ∧
      (c.inReply (onWire bytes)).replySize ≤ bytes.length then
    some (c.inReply (onWire bytes))
  else none

/-- The answer in the fields of a response. -/
def Command.inResponse (m : Mem Block) : Command → Answer
  | generateKeypair | importKeypair =>
      .keyBlob (slice (m .rspBuffer) (FirmwareRsp.rspData + KeyBlob.keyBlob)
        (m.word .rspBuffer (FirmwareRsp.rspData + KeyBlob.keyBlobLength)))
  | getKeypairPublic =>
      .publicKey
        (slice (m .rspBuffer) (rsaPublicKey + RsaPublicKey.bytes)
          (m.word .rspBuffer (rsaPublicKey + RsaPublicKey.modulusLength)))
        (slice (m .rspBuffer)
          (rsaPublicKey + RsaPublicKey.bytes +
            m.word .rspBuffer (rsaPublicKey + RsaPublicKey.modulusLength))
          (m.word .rspBuffer (rsaPublicKey + RsaPublicKey.publicExponentLength)))
  | signData =>
      .signature (slice (m .rspBuffer) (FirmwareRsp.rspData + Signature.signature)
        (m.word .rspBuffer (FirmwareRsp.rspData + Signature.signatureLength)))
  | verifyData => .verdict (m.word .rspBuffer FirmwareRsp.result = resultSuccess)

/-- The answer of a response: it reports success, or that a signature is not the right one. -/
def Answer.ofResponse (c : Command) (m : Mem Block) : Option Answer :=
  if c ≠ .verifyData → m.word .rspBuffer FirmwareRsp.result = resultSuccess then
    some (c.inResponse m)
  else none

/-- The answer of a response is in its buffer. -/
theorem ofResponse_congr {m m' : Mem Block} (h : m' .rspBuffer = m .rspBuffer) (c : Command) :
    Answer.ofResponse c m' = Answer.ofResponse c m := by
  have hword : ∀ o, m'.word .rspBuffer o = m.word .rspBuffer o := by
    intro o
    simp only [Mem.word, h]
  have hsame : c.inResponse m' = c.inResponse m := by
    cases c with
    | verifyData => rw [Command.inResponse, Command.inResponse, hword]
    | generateKeypair | importKeypair | getKeypairPublic | signData =>
        simp only [Command.inResponse, hword, h]
  rw [Answer.ofResponse, Answer.ofResponse, hsame, hword]

/-! ## The translation keeps the answer -/

section Decode

variable {m r : Mem Block}

/-- Data that decodes is the answer of the reply. -/
theorem Command.Decodes.ofResponse {c : Command} (h : c.Decodes m r) :
    Answer.ofResponse c r = some (c.inReply (m .response)) := by
  cases c with
  | generateKeypair | importKeypair =>
      obtain ⟨hresult, hlength, hbytes⟩ := h
      rw [Answer.ofResponse, if_pos fun _ => hresult, inResponse, inReply, hlength]
      exact congrArg (fun bytes => some (Answer.keyBlob bytes)) (slice_congr hbytes)
  | getKeypairPublic =>
      obtain ⟨hresult, -, hmodulus, hexponent, hbytes, htail⟩ := h
      rw [Answer.ofResponse, if_pos fun _ => hresult, inResponse, inReply, hmodulus, hexponent]
      exact congrArg₂ (fun modulus exponent => some (Answer.publicKey modulus exponent))
        (slice_congr hbytes) (slice_congr htail)
  | signData =>
      obtain ⟨hresult, hlength, hbytes⟩ := h
      rw [Answer.ofResponse, if_pos fun _ => hresult, inResponse, inReply, hlength]
      exact congrArg (fun bytes => some (Answer.signature bytes)) (slice_congr hbytes)
  | verifyData =>
      have hresult : r.word .rspBuffer FirmwareRsp.result =
          if m.word .response VerifyDataResponse.verified ≠ 0 then resultSuccess
          else resultFailure := h
      have hverdict : (r.word .rspBuffer FirmwareRsp.result = resultSuccess) ↔
          wordAt (m .response) VerifyDataResponse.verified ≠ 0 := by
        rw [hresult]
        by_cases hv : m.word .response VerifyDataResponse.verified ≠ 0
        · exact iff_of_true (if_pos hv) hv
        · exact iff_of_false (by rw [if_neg hv]; decide) hv
      rw [Answer.ofResponse, if_pos fun hne => absurd rfl hne, inResponse, inReply]
      simp only [hverdict]

/-- The decoder translates a successful reply that the caller's buffer holds into a response with
the same answer. -/
theorem decodeReply_answers {c : Command} (hcode : replyCode r = responseCodeSuccess)
    (hc : replyCommand r = some c) (hneed : c.rspNeed r ≤ rspLength r) :
    (decodeReply.run r).result = .ok () ∧
      Answer.ofResponse c (decodeReply.run r).mem = some (c.inReply (r .response)) ∧
      rspLength (decodeReply.run r).mem = c.rspNeed r := by
  have hstatus : (statusMem r).word .rspBuffer 8 = resultSuccess := by
    rw [statusMem, Mem.word_write_same]
    rfl
  have hwrap : c.rspNeed (statusMem r) < 2 ^ 32 := by
    rw [c.rspNeed_statusMem]
    exact Nat.lt_of_le_of_lt hneed (r.word_lt .rspLength 0)
  obtain ⟨hlength, hok, hdecodes⟩ := setData_exact (rspLength r) hstatus hwrap
  rw [c.rspNeed_statusMem] at hlength hok
  rw [run_decodeReply_success hcode, hc, Run.prepend_result, Run.prepend_mem]
  have hres := hok.mpr (.inr hneed)
  refine ⟨hres, ?_, hlength⟩
  have hanswer := (hdecodes hres).ofResponse
  rwa [statusMem_response] at hanswer

end Decode

/-- An answer of a reply is the one in its fields. -/
theorem Answer.ofReply_eq_some {c : Command} {bytes : List UInt8} {a : Answer}
    (h : Answer.ofReply c bytes = some a) :
    wordAt (onWire bytes) RespHeader.responseCode = responseCodeSuccess ∧
      wordAt (onWire bytes) RespHeader.cmdId = c.fwId ∧ c.inReply (onWire bytes) = a := by
  obtain ⟨⟨hcode, hid, -⟩, ha⟩ := Option.ite_none_right_eq_some.mp h
  exact ⟨hcode, hid, Option.some.inj ha⟩

/-- The size of the response is the one the decoder stores. -/
theorem rspSize_inReply (c : Command) (r : Mem Block) :
    (c.inReply (r .response)).rspSize = c.rspNeed r := by
  have hword : ∀ o, wordAt (r .response) o = r.word .response o := fun _ => rfl
  cases c <;>
    simp only [Command.inReply, Answer.rspSize, length_slice, Command.rspNeed, Command.rspFixed,
      Command.payload, publicExponentMaxSize, hword]
  omega

/-- Two sequences that agree as far as the reply goes give the same answer. -/
theorem inReply_congr {f g : Nat → UInt8} {k : Nat} {c : Command} (h : ∀ i < k, f i = g i)
    (hk : (c.inReply g).replySize ≤ k) : c.inReply f = c.inReply g := by
  cases c with
  | generateKeypair | importKeypair =>
      simp only [Command.inReply, Answer.replySize, length_slice] at hk ⊢
      have hsize : wordAt f 16 = wordAt g 16 := wordAt_congr fun i hi => h _ (by omega)
      rw [RespHeader.outputSize, hsize]
      exact congrArg _ (slice_congr fun i hi => h _ (by simp at hi hk ⊢; omega))
  | getKeypairPublic =>
      simp only [Command.inReply, Answer.replySize, length_slice] at hk ⊢
      have hsize : wordAt f 20 = wordAt g 20 := wordAt_congr fun i hi => h _ (by omega)
      rw [GetPublicKeyResponse.keySize, hsize]
      exact congrArg₂ _ (slice_congr fun i hi => h _ (by simp at hi hk ⊢; omega))
        (slice_congr fun i hi => h _ (by simp at hi hk ⊢; omega))
  | signData =>
      simp only [Command.inReply, Answer.replySize, length_slice] at hk ⊢
      have hsize : wordAt f 20 = wordAt g 20 := wordAt_congr fun i hi => h _ (by omega)
      rw [SignDataResponse.signatureSize, hsize]
      exact congrArg _ (slice_congr fun i hi => h _ (by simp at hi hk ⊢; omega))
  | verifyData =>
      simp only [Command.inReply, Answer.replySize] at hk ⊢
      have hflag : wordAt f 20 = wordAt g 20 := wordAt_congr fun i hi => h _ (by omega)
      rw [VerifyDataResponse.verified, hflag]

end Txei.Keymaster

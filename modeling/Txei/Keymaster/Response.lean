import Txei.Keymaster.Request

/-!
# Translating a firmware reply

`set_response_cmd_id` and `set_response_status_and_data`. The lengths of a reply with a payload
go through two `uint32_t` objects, `rsp_result_and_data_length` and `*rsp_length`, before the
size of the caller's buffer is tested.
-/

namespace Txei.Keymaster

open Machine Machine.Prog Mei

/-- The `rsp_id` for the id of a firmware command: the HAL id with the response flag, and 0 for
an unknown one. -/
def rspIdOf (fwId : Nat) : Nat :=
  match Command.ofFwId fwId with
  | some c => c.halId ||| keymasterRspFlag
  | none => 0

/-- `set_response_cmd_id`. -/
def setResponseCmdId (rspId : Nat) : Proc Unit :=
  store .rspBuffer FirmwareRsp.rspId (rspIdOf rspId)

/-- The part every reply with a payload has in common: store `length` as the length of result
and data, derive `*rsp_length` from it, and test the size of the caller's buffer. -/
def setLengths (callerRspDataBufSize length : Nat) : Proc Unit := do
  store .rspBuffer FirmwareRsp.rspResultAndDataLength length
  let rspResultAndDataLength ← load .rspBuffer FirmwareRsp.rspResultAndDataLength
  store .rspLength 0 (FirmwareRsp.size + rspResultAndDataLength - sizeofResult)
  let rspLength ← load .rspLength 0
  exitIf (callerRspDataBufSize < rspLength) .rspBufferTooSmall

/-- A reply with a payload: read the size of the payload from field `sizeField`, set the lengths
for `fixed` bytes of data in front of it, and store the data. -/
def setPayload (callerRspDataBufSize sizeField fixed : Nat) (copy : Nat → Proc Unit) :
    Proc Unit := do
  let size ← load .response sizeField
  setLengths callerRspDataBufSize (fixed + size + sizeofResult)
  copy size

/-- The key blob of a response. -/
def copyKeyBlob (outputSize : Nat) : Proc Unit := do
  store .rspBuffer (FirmwareRsp.rspData + KeyBlob.keyBlobLength) outputSize
  let keyBlobLength ← load .rspBuffer (FirmwareRsp.rspData + KeyBlob.keyBlobLength)
  memcpy .rspBuffer (FirmwareRsp.rspData + KeyBlob.keyBlob) .response GenKeyResponse.keyOpaque
    keyBlobLength

/-- The case of `ANDROID_HECI_KEYMASTER_CMD_ID_RSA_GEN_KEY` and `..._RSA_IMPORT_KEY`. -/
def setKeyBlob (callerRspDataBufSize : Nat) : Proc Unit :=
  setPayload callerRspDataBufSize RespHeader.outputSize KeyBlob.size copyKeyBlob

/-- The offset of the `intel_keymaster_rsa_public_key_t` of a response. -/
@[simp] abbrev rsaPublicKey : Nat := FirmwareRsp.rspData + PublicKey.publicKeyData

/-- The public key of a response: the modulus, then the exponent. -/
def copyPublicKey (keySize : Nat) : Proc Unit := do
  store .rspBuffer (FirmwareRsp.rspData + PublicKey.keyType) keyTypeRsa
  store .rspBuffer (rsaPublicKey + RsaPublicKey.modulusLength) keySize
  store .rspBuffer (rsaPublicKey + RsaPublicKey.publicExponentLength) publicExponentMaxSize
  memcpy .rspBuffer (rsaPublicKey + RsaPublicKey.bytes) .response GetPublicKeyResponse.modulus
    keySize
  memcpy .rspBuffer (rsaPublicKey + RsaPublicKey.bytes + keySize) .response
    GetPublicKeyResponse.publicExponent publicExponentMaxSize

/-- The case of `ANDROID_HECI_KEYMASTER_CMD_ID_RSA_GET_PUBLIC_KEY`. -/
def setPublicKey (callerRspDataBufSize : Nat) : Proc Unit :=
  setPayload callerRspDataBufSize GetPublicKeyResponse.keySize
    (PublicKey.size + RsaPublicKey.size + publicExponentMaxSize) copyPublicKey

/-- The signature of a response. -/
def copySignature (signatureSize : Nat) : Proc Unit := do
  store .rspBuffer (FirmwareRsp.rspData + Signature.signatureLength) signatureSize
  memcpy .rspBuffer (FirmwareRsp.rspData + Signature.signature) .response
    SignDataResponse.signature signatureSize

/-- The case of `ANDROID_HECI_KEYMASTER_CMD_ID_RSA_SIGN_DATA_NOPAD`. -/
def setSignature (callerRspDataBufSize : Nat) : Proc Unit :=
  setPayload callerRspDataBufSize SignDataResponse.signatureSize Signature.size copySignature

/-- The case of `ANDROID_HECI_KEYMASTER_CMD_ID_RSA_VERIFY_DATA_NOPAD`. -/
def setVerified : Proc Unit := do
  store .rspBuffer FirmwareRsp.rspResultAndDataLength sizeofResult
  let verified ← load .response VerifyDataResponse.verified
  store .rspBuffer FirmwareRsp.result (if verified ≠ 0 then resultSuccess else resultFailure)
  store .rspLength 0 FirmwareRsp.size

/-- The inner switch of `set_response_status_and_data`, on the `CmdId` of a successful reply. An
unknown id leaves both lengths as they are. -/
def setData (callerRspDataBufSize : Nat) : Option Command → Proc Unit
  | some .generateKeypair => setKeyBlob callerRspDataBufSize
  | some .importKeypair => setKeyBlob callerRspDataBufSize
  | some .getKeypairPublic => setPublicKey callerRspDataBufSize
  | some .signData => setSignature callerRspDataBufSize
  | some .verifyData => setVerified
  | none => pure ()

/-- `set_response_status_and_data`. -/
def setResponseStatusAndData (callerRspDataBufSize : Nat) : Proc Unit := do
  let responseCode ← load .response RespHeader.responseCode
  if responseCode = responseCodeSuccess then do
    store .rspBuffer FirmwareRsp.result resultSuccess
    let cmdId ← load .response RespHeader.cmdId
    setData callerRspDataBufSize (Command.ofFwId cmdId)
  else do
    store .rspBuffer FirmwareRsp.result (resultOfResponseCode responseCode)
    store .rspBuffer FirmwareRsp.rspResultAndDataLength sizeofResult
    store .rspLength 0 FirmwareRsp.size

end Txei.Keymaster

import Txei.Mei.Driver

/-!
# Keymaster messages

The objects `sep_keymaster.c` works on, the error codes it returns, and the layouts of
`intelkeymaster_firmware_api.h` and `android_heci_agent.h` under their field names. A namespace
stands for a structure, a name in it for the offset of a field, and `size` for `sizeof`. Offsets
inside a structure that is cast out of a `uint8_t` array are relative to that array.
-/

namespace Txei.Keymaster

open Machine Mei

/-- The memory objects of one call: the caller's three buffers, the allocations of
`sep_keymaster_send_cmd` and `get_caps`, and the two static variables of the library. -/
inductive Block where
  | cmdBuffer
  | rspBuffer
  | rspLength
  | request
  | response
  | capsRequest
  | capsResponse
  | capsObtained
  | keyOpaqueSize
  deriving DecidableEq, Repr

/-- The non-zero values of `sep_keymaster_return_t`. -/
inductive Failure where
  | badParameter
  | cmdBufferTooBig
  | rspBufferTooSmall
  | heciConnectFailed
  | outOfMemory
  | heciSndrcvFailed
  | failure
  deriving DecidableEq, Repr

/-- A function of the library that returns a `sep_keymaster_return_t`: `SEP_KEYMASTER_SUCCESS`
is a normal end, and every other value leaves the function. -/
abbrev Proc (α : Type) : Type := Prog DeviceCall Block Failure α

/-- `KEYMASTER_RSP_FLAG`. -/
@[simp] abbrev keymasterRspFlag : Nat := 0x80000000

/-- `ANDROID_HECI_KEYMASTER_PUBLIC_EXPONENT_MAX_SIZE`. -/
@[simp] abbrev publicExponentMaxSize : Nat := 4

/-- `ANDROID_HECI_KEYMASTER_MAX_KEY_SIZE`. -/
@[simp] abbrev maxKeySize : Nat := 256

/-- `ANDROID_HECI_AGENT_MAX_MTU`. -/
@[simp] abbrev agentMaxMtu : Nat := 4096

/-- `MAX_HECI_MSG_SIZE`. -/
@[simp] abbrev maxHeciMsgSize : Nat := 3 * 1024

/-- `ANDROID_HECI_AGENT_CMD_CLASS_KEY_MASTER`. -/
@[simp] abbrev cmdClassKeyMaster : Nat := 1

/-- `ANDROID_HECI_KEYMASTER_CMD_ID_GET_CAPS`. -/
@[simp] abbrev cmdIdGetCaps : Nat := 0

/-- `KEY_TYPE_RSA` of the HAL interface. -/
@[simp] abbrev keyTypeRsa : Nat := 1

/-- `ANDROID_HECI_KEYMASTER_KEY_TYPE_RSA` of the firmware interface. -/
@[simp] abbrev fwKeyTypeRsa : Nat := 0

/-- The commands `generate_cmd_buf` translates. -/
inductive Command where
  | generateKeypair
  | importKeypair
  | getKeypairPublic
  | signData
  | verifyData
  deriving DecidableEq, Repr

namespace Command

/-- The `KEYMASTER_CMD_*` id of a command. -/
def halId : Command → Nat
  | generateKeypair => 1
  | importKeypair => 2
  | getKeypairPublic => 3
  | signData => 6
  | verifyData => 7

/-- The `ANDROID_HECI_KEYMASTER_CMD_ID_*` id of a command. -/
def fwId : Command → Nat
  | generateKeypair => 1
  | importKeypair => 2
  | getKeypairPublic => 3
  | signData => 5
  | verifyData => 6

/-- The case of `generate_cmd_buf` that a `cmd_id` selects. -/
def ofHalId : Nat → Option Command
  | 1 => some generateKeypair
  | 2 => some importKeypair
  | 3 => some getKeypairPublic
  | 6 => some signData
  | 7 => some verifyData
  | _ => none

/-- The case a `CmdId` of the firmware selects. -/
def ofFwId : Nat → Option Command
  | 1 => some generateKeypair
  | 2 => some importKeypair
  | 3 => some getKeypairPublic
  | 5 => some signData
  | 6 => some verifyData
  | _ => none

@[simp] theorem ofHalId_halId (c : Command) : ofHalId c.halId = some c := by
  cases c <;> rfl

@[simp] theorem ofFwId_fwId (c : Command) : ofFwId c.fwId = some c := by
  cases c <;> rfl

theorem halId_of_ofHalId {n : Nat} {c : Command} (h : ofHalId n = some c) : c.halId = n := by
  unfold ofHalId at h
  split at h <;> cases h <;> rfl

theorem fwId_of_ofFwId {n : Nat} {c : Command} (h : ofFwId n = some c) : c.fwId = n := by
  unfold ofFwId at h
  split at h <;> cases h <;> rfl

end Command

/-! ## HAL structures -/

namespace FirmwareCmd
@[simp] abbrev cmdId : Nat := 0
@[simp] abbrev cmdDataLength : Nat := 4
@[simp] abbrev cmdData : Nat := 8
@[simp] abbrev size : Nat := 8
end FirmwareCmd

namespace FirmwareRsp
@[simp] abbrev rspId : Nat := 0
@[simp] abbrev rspResultAndDataLength : Nat := 4
@[simp] abbrev result : Nat := 8
@[simp] abbrev rspData : Nat := 12
@[simp] abbrev size : Nat := 12
end FirmwareRsp

/-- `sizeof (intel_keymaster_result_t)`. -/
@[simp] abbrev sizeofResult : Nat := 4

namespace KeygenParams
@[simp] abbrev keyType : Nat := 0
@[simp] abbrev keyParams : Nat := 4
@[simp] abbrev size : Nat := 4
end KeygenParams

namespace RsaKeygenParams
@[simp] abbrev modulusSize : Nat := 0
@[simp] abbrev publicExponent : Nat := 8
@[simp] abbrev size : Nat := 16
end RsaKeygenParams

namespace ImportKey
@[simp] abbrev keyData : Nat := 4
@[simp] abbrev size : Nat := 4
end ImportKey

namespace RsaKey
@[simp] abbrev modulusLength : Nat := 0
@[simp] abbrev publicExponentLength : Nat := 4
@[simp] abbrev privateExponentLength : Nat := 8
@[simp] abbrev bytes : Nat := 12
@[simp] abbrev size : Nat := 12
end RsaKey

namespace KeyBlob
@[simp] abbrev keyBlobLength : Nat := 0
@[simp] abbrev keyBlob : Nat := 4
@[simp] abbrev size : Nat := 4
end KeyBlob

namespace SigningCmdData
@[simp] abbrev keyBlobLength : Nat := 0
@[simp] abbrev dataLength : Nat := 4
@[simp] abbrev buffer : Nat := 8
@[simp] abbrev size : Nat := 8
end SigningCmdData

namespace VerificationData
@[simp] abbrev keyBlobLength : Nat := 0
@[simp] abbrev dataLength : Nat := 4
@[simp] abbrev signatureLength : Nat := 8
@[simp] abbrev buffer : Nat := 12
@[simp] abbrev size : Nat := 12
end VerificationData

namespace PublicKey
@[simp] abbrev keyType : Nat := 0
@[simp] abbrev publicKeyData : Nat := 4
@[simp] abbrev size : Nat := 4
end PublicKey

namespace RsaPublicKey
@[simp] abbrev modulusLength : Nat := 0
@[simp] abbrev publicExponentLength : Nat := 4
@[simp] abbrev bytes : Nat := 8
@[simp] abbrev size : Nat := 8
end RsaPublicKey

namespace Signature
@[simp] abbrev signatureLength : Nat := 0
@[simp] abbrev signature : Nat := 4
@[simp] abbrev size : Nat := 4
end Signature

/-! ## Firmware structures -/

namespace ReqHeader
@[simp] abbrev cmdClass : Nat := 0
@[simp] abbrev cmdId : Nat := 4
@[simp] abbrev inputSize : Nat := 8
@[simp] abbrev size : Nat := 12
end ReqHeader

namespace RespHeader
@[simp] abbrev cmdId : Nat := 8
@[simp] abbrev responseCode : Nat := 12
@[simp] abbrev outputSize : Nat := 16
@[simp] abbrev size : Nat := 20
end RespHeader

namespace GenKeyRequest
@[simp] abbrev keySize : Nat := 12
@[simp] abbrev publicExponent : Nat := 16
@[simp] abbrev size : Nat := 20
end GenKeyRequest

namespace ImportKeyRequest
@[simp] abbrev keySize : Nat := 12
@[simp] abbrev publicExponent : Nat := 16
@[simp] abbrev modulus : Nat := 20
@[simp] abbrev privateExponent : Nat := 276
@[simp] abbrev size : Nat := 532
end ImportKeyRequest

namespace GetPublicKeyRequest
@[simp] abbrev keyOpaque : Nat := 12
@[simp] abbrev size : Nat := 12
end GetPublicKeyRequest

namespace SignDataRequest
@[simp] abbrev dataSize : Nat := 12
@[simp] abbrev data : Nat := 16
@[simp] abbrev keyOpaque : Nat := 272
@[simp] abbrev size : Nat := 272
end SignDataRequest

namespace VerifyDataRequest
@[simp] abbrev dataSize : Nat := 12
@[simp] abbrev data : Nat := 16
@[simp] abbrev signatureSize : Nat := 272
@[simp] abbrev signature : Nat := 276
@[simp] abbrev keyOpaque : Nat := 532
@[simp] abbrev size : Nat := 532
end VerifyDataRequest

namespace GenKeyResponse
@[simp] abbrev keyOpaque : Nat := 20
end GenKeyResponse

namespace GetPublicKeyResponse
@[simp] abbrev keySize : Nat := 20
@[simp] abbrev publicExponent : Nat := 24
@[simp] abbrev modulus : Nat := 28
end GetPublicKeyResponse

namespace SignDataResponse
@[simp] abbrev signatureSize : Nat := 20
@[simp] abbrev signature : Nat := 24
end SignDataResponse

namespace VerifyDataResponse
@[simp] abbrev verified : Nat := 20
end VerifyDataResponse

namespace GetCapsResponse
@[simp] abbrev numAlgs : Nat := 24
@[simp] abbrev keyCapabilities : Nat := 28
end GetCapsResponse

namespace KeyCaps
@[simp] abbrev type : Nat := 0
@[simp] abbrev length : Nat := 4
@[simp] abbrev value : Nat := 8
end KeyCaps

namespace RsaCapsParams
@[simp] abbrev keyOpaqueSize : Nat := 4
@[simp] abbrev size : Nat := 8
end RsaCapsParams

/-! ## Codes in a response -/

/-- `KEYMASTER_RESULT_SUCCESS`. -/
@[simp] abbrev resultSuccess : Nat := 0

/-- `KEYMASTER_RESULT_INVALID_INPUT`. -/
@[simp] abbrev resultInvalidInput : Nat := 1

/-- `KEYMASTER_RESULT_NOT_SUPPORTED`. -/
@[simp] abbrev resultNotSupported : Nat := 2

/-- `KEYMASTER_RESULT_FAILURE`. -/
@[simp] abbrev resultFailure : Nat := 0xFFFFFFFF

/-- `ANDROID_HECI_AGENT_RESPONSE_CODE_SUCCESS`. -/
@[simp] abbrev responseCodeSuccess : Nat := 0

/-- The `result` field for a `ResponseCode` other than success. -/
def resultOfResponseCode : Nat → Nat
  | 1 => resultFailure
  | 2 => resultInvalidInput
  | 3 => resultNotSupported
  | 4 => resultFailure
  | 5 => resultInvalidInput
  | _ => resultFailure

end Txei.Keymaster

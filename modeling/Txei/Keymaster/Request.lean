import Txei.Keymaster.Layout

/-!
# Building a firmware request

`generate_cmd_buf` and the five builders it dispatches to. A builder reads the caller's command
and the static `key_opaque_size`, writes the request that `generate_cmd_buf` allocated and
cleared, and fails on the lengths the source tests. Lengths and indices are `size_t` sums, so
only the stored `fw_request_len` wraps.
-/

namespace Txei.Keymaster

open Machine Machine.Prog Mei

/-- One round of the loop of `swap_byte_order`: the exclusive-or swap of bytes `i` and
`bufLen - 1 - i`. -/
def swapStep (b : Block) (o bufLen i : Nat) : Proc Unit := do
  let x ← loadByte b (o + i)
  let y ← loadByte b (o + (bufLen - 1 - i))
  storeByte b (o + i) (x ^^^ y)
  let y ← loadByte b (o + (bufLen - 1 - i))
  let x ← loadByte b (o + i)
  storeByte b (o + (bufLen - 1 - i)) (y ^^^ x)
  let x ← loadByte b (o + i)
  let y ← loadByte b (o + (bufLen - 1 - i))
  storeByte b (o + i) (x ^^^ y)

/-- The first `n` rounds of `swap_byte_order`. -/
def swapRounds (b : Block) (o bufLen : Nat) : Nat → Proc Unit
  | 0 => pure ()
  | n + 1 => do
      swapRounds b o bufLen n
      swapStep b o bufLen n

/-- `swap_byte_order` on the `bufLen` bytes of block `b` from offset `o`. -/
def swapByteOrder (b : Block) (o bufLen : Nat) : Proc Unit := swapRounds b o bufLen (bufLen / 2)

/-- The offset of the `intel_keymaster_rsa_keygen_params_t` of a command. -/
@[simp] abbrev rsaKeygenParams : Nat := FirmwareCmd.cmdData + KeygenParams.keyParams

/-- The offset of the `intel_keymaster_rsa_key_t` of a command. -/
@[simp] abbrev rsaKey : Nat := FirmwareCmd.cmdData + ImportKey.keyData

/-- `generate_keypair_cmd_buf`. -/
def generateKeypairCmdBuf : Proc Unit := do
  let cmdDataLength ← load .cmdBuffer FirmwareCmd.cmdDataLength
  exitIf (cmdDataLength < KeygenParams.size + RsaKeygenParams.size) .badParameter
  let keyType ← load .cmdBuffer (FirmwareCmd.cmdData + KeygenParams.keyType)
  exitIf (keyType ≠ keyTypeRsa) .badParameter
  let modulusSize ← load .cmdBuffer (rsaKeygenParams + RsaKeygenParams.modulusSize)
  store .request GenKeyRequest.keySize (modulusSize / 8)
  memcpy .request GenKeyRequest.publicExponent .cmdBuffer
    (rsaKeygenParams + RsaKeygenParams.publicExponent) publicExponentMaxSize
  swapByteOrder .request GenKeyRequest.publicExponent publicExponentMaxSize
  store .request ReqHeader.inputSize (GenKeyRequest.size - ReqHeader.size)

/-- `import_keypair_cmd_buf`. The lengths are tested in the order of the `&&` chain, and the
declared `key_type` is never read. -/
def importKeypairCmdBuf : Proc Unit := do
  let cmdDataLength ← load .cmdBuffer FirmwareCmd.cmdDataLength
  exitIf (cmdDataLength < ImportKey.size + RsaKey.size) .badParameter
  let publicExponentLength ← load .cmdBuffer (rsaKey + RsaKey.publicExponentLength)
  exitIf (¬ publicExponentLength ≤ publicExponentMaxSize) .badParameter
  let modulusLength ← load .cmdBuffer (rsaKey + RsaKey.modulusLength)
  exitIf (¬ modulusLength ≤ maxKeySize) .badParameter
  let privateExponentLength ← load .cmdBuffer (rsaKey + RsaKey.privateExponentLength)
  exitIf (¬ privateExponentLength ≤ maxKeySize) .badParameter
  store .request ImportKeyRequest.keySize modulusLength
  memcpy .request ImportKeyRequest.modulus .cmdBuffer (rsaKey + RsaKey.bytes) modulusLength
  memset .request ImportKeyRequest.publicExponent 0 publicExponentMaxSize
  memcpy .request
    (ImportKeyRequest.publicExponent + publicExponentMaxSize - publicExponentLength)
    .cmdBuffer (rsaKey + RsaKey.bytes + modulusLength) publicExponentLength
  memcpy .request ImportKeyRequest.privateExponent
    .cmdBuffer (rsaKey + RsaKey.bytes + modulusLength + publicExponentLength)
    privateExponentLength
  store .request ReqHeader.inputSize (ImportKeyRequest.size - ReqHeader.size)

/-- `get_public_keypair_cmd_buf`. It copies `key_opaque_size` bytes, whatever the declared
`key_blob_length`. -/
def getPublicKeypairCmdBuf : Proc Unit := do
  let cmdDataLength ← load .cmdBuffer FirmwareCmd.cmdDataLength
  let keyOpaqueSize ← load .keyOpaqueSize 0
  exitIf (cmdDataLength < KeyBlob.size + keyOpaqueSize) .badParameter
  memcpy .request GetPublicKeyRequest.keyOpaque .cmdBuffer
    (FirmwareCmd.cmdData + KeyBlob.keyBlob) keyOpaqueSize
  store .request ReqHeader.inputSize keyOpaqueSize

/-- `sign_data_cmd_buf`. `DataSize` is stored before the lengths are tested. -/
def signDataCmdBuf : Proc Unit := do
  let cmdDataLength ← load .cmdBuffer FirmwareCmd.cmdDataLength
  exitIf (cmdDataLength < SigningCmdData.size) .badParameter
  let dataLength ← load .cmdBuffer (FirmwareCmd.cmdData + SigningCmdData.dataLength)
  store .request SignDataRequest.dataSize dataLength
  exitIf (¬ dataLength ≤ maxKeySize) .cmdBufferTooBig
  let keyBlobLength ← load .cmdBuffer (FirmwareCmd.cmdData + SigningCmdData.keyBlobLength)
  let keyOpaqueSize ← load .keyOpaqueSize 0
  exitIf (¬ keyBlobLength ≤ keyOpaqueSize) .cmdBufferTooBig
  memcpy .request SignDataRequest.keyOpaque .cmdBuffer
    (FirmwareCmd.cmdData + SigningCmdData.buffer) keyBlobLength
  memcpy .request SignDataRequest.data .cmdBuffer
    (FirmwareCmd.cmdData + SigningCmdData.buffer + keyBlobLength) dataLength
  store .request ReqHeader.inputSize (SignDataRequest.size + keyOpaqueSize - ReqHeader.size)

/-- `verify_data_cmd_buf`. `DataSize` and `SignatureSize` are stored before they are tested. -/
def verifyDataCmdBuf : Proc Unit := do
  let cmdDataLength ← load .cmdBuffer FirmwareCmd.cmdDataLength
  exitIf (cmdDataLength < VerificationData.size) .badParameter
  let dataLength ← load .cmdBuffer (FirmwareCmd.cmdData + VerificationData.dataLength)
  store .request VerifyDataRequest.dataSize dataLength
  exitIf (maxKeySize < dataLength) .cmdBufferTooBig
  let signatureLength ← load .cmdBuffer (FirmwareCmd.cmdData + VerificationData.signatureLength)
  store .request VerifyDataRequest.signatureSize signatureLength
  exitIf (maxKeySize < signatureLength) .cmdBufferTooBig
  let keyBlobLength ← load .cmdBuffer (FirmwareCmd.cmdData + VerificationData.keyBlobLength)
  let keyOpaqueSize ← load .keyOpaqueSize 0
  exitIf (keyOpaqueSize < keyBlobLength) .cmdBufferTooBig
  memcpy .request VerifyDataRequest.keyOpaque .cmdBuffer
    (FirmwareCmd.cmdData + VerificationData.buffer) keyBlobLength
  memcpy .request VerifyDataRequest.data .cmdBuffer
    (FirmwareCmd.cmdData + VerificationData.buffer + keyBlobLength) dataLength
  memcpy .request VerifyDataRequest.signature .cmdBuffer
    (FirmwareCmd.cmdData + VerificationData.buffer + keyBlobLength + dataLength)
    signatureLength
  store .request ReqHeader.inputSize (VerifyDataRequest.size + keyOpaqueSize - ReqHeader.size)

/-- The builder `generate_cmd_buf` calls for a command. -/
def Command.cmdBuf : Command → Proc Unit
  | generateKeypair => generateKeypairCmdBuf
  | importKeypair => importKeypairCmdBuf
  | getKeypairPublic => getPublicKeypairCmdBuf
  | signData => signDataCmdBuf
  | verifyData => verifyDataCmdBuf

/-- The value `generate_cmd_buf` stores in `fw_request_len`. -/
def Command.fwRequestLen (keyOpaqueSize : Nat) : Command → Nat
  | generateKeypair => wrap32 (GenKeyRequest.size + keyOpaqueSize)
  | importKeypair => ImportKeyRequest.size
  | getKeypairPublic => wrap32 (GetPublicKeyRequest.size + keyOpaqueSize)
  | signData => wrap32 (SignDataRequest.size + keyOpaqueSize)
  | verifyData => wrap32 (VerifyDataRequest.size + keyOpaqueSize)

/-- `generate_cmd_buf`, returning `fw_request_len`. `mallocRequest` tells whether the allocation
of the request succeeds. -/
def generateCmdBuf (mallocRequest : Bool) : Proc Nat := do
  let cmdId ← load .cmdBuffer FirmwareCmd.cmdId
  match Command.ofHalId cmdId with
  | none => exit .failure
  | some c => do
      let keyOpaqueSize ← load .keyOpaqueSize 0
      exitIf (mallocRequest = false) .outOfMemory
      memset .request 0 0 (c.fwRequestLen keyOpaqueSize)
      store .request ReqHeader.cmdClass cmdClassKeyMaster
      store .request ReqHeader.cmdId c.fwId
      c.cmdBuf
      pure (c.fwRequestLen keyOpaqueSize)

/-- The part of `sep_keymaster_send_cmd` that turns the command into a request: the log line
that reads the command id, `generate_cmd_buf`, and the test of the request length. -/
def translateCmd (mallocRequest : Bool) : Proc Nat := do
  let _ ← load .cmdBuffer FirmwareCmd.cmdId
  let fwRequestLen ← generateCmdBuf mallocRequest
  exitIf (maxHeciMsgSize < fwRequestLen) .cmdBufferTooBig
  pure fwRequestLen

end Txei.Keymaster

import Txei.Keymaster.Response

/-!
# Sending a command

`send_req_to_fw`, `get_caps` and `sep_keymaster_send_cmd`. One call is given by its arguments
and by what the environment answers while it runs: the outcomes of the allocations and of the
two exchanges with the firmware. `caps_obtained` and `key_opaque_size` are blocks of memory, so a
sequence of calls is a sequence of runs over one memory.
-/

namespace Txei.Keymaster

open Machine Machine.Prog Mei

/-- The arguments of `sep_keymaster_send_cmd`. Each pointer is given by whether it is non-null;
`*rsp_length` and the buffers are in memory. -/
structure Args where
  cmdBuffer : Bool
  cmdLength : Nat
  rspBuffer : Bool
  rspLength : Bool
  deriving DecidableEq, Repr

/-- What the environment answers during one call: whether each `malloc` succeeds, and the two
exchanges. -/
structure Env where
  mallocCaps : Bool
  caps : Exchange
  mallocRequest : Bool
  mallocResponse : Bool
  fw : Exchange
  deriving DecidableEq, Repr

/-- `send_req_to_fw`. -/
def sendReqToFw (x : Exchange) (req : Block) (reqLen : Nat) (resp : Block) (respLen : Nat) :
    Proc Unit := do
  let meiHandle ← meiConnect x.connect
  match meiHandle with
  | none => exit .heciConnectFailed
  | some fd => do
      let status ← meiSndRcv x fd req reqLen resp respLen
      meiDisconnect fd
      exitIf (status < 0) .heciSndrcvFailed

/-- One round of the loop of `get_caps`. The cursor `key_caps` never moves, so every round looks
at the first entry. -/
def capsRound : Proc Unit := do
  let type ← load .capsResponse (GetCapsResponse.keyCapabilities + KeyCaps.type)
  onlyIf (type = fwKeyTypeRsa) do
    let size ← load .capsResponse
      (GetCapsResponse.keyCapabilities + KeyCaps.value + RsaCapsParams.keyOpaqueSize)
    store .keyOpaqueSize 0 size

/-- `n` rounds of the loop of `get_caps`. -/
def capsRounds : Nat → Proc Unit
  | 0 => pure ()
  | n + 1 => do
      capsRound
      capsRounds n

/-- `get_caps`. -/
def getCaps (mallocCaps : Bool) (x : Exchange) : Proc Unit := do
  exitIf (mallocCaps = false) .outOfMemory
  memset .capsResponse 0 0 agentMaxMtu
  store .capsRequest ReqHeader.cmdClass cmdClassKeyMaster
  store .capsRequest ReqHeader.cmdId cmdIdGetCaps
  store .capsRequest ReqHeader.inputSize 0
  sendReqToFw x .capsRequest ReqHeader.size .capsResponse agentMaxMtu
  let responseCode ← load .capsResponse RespHeader.responseCode
  exitIf (responseCode ≠ responseCodeSuccess) .failure
  let numAlgs ← load .capsResponse GetCapsResponse.numAlgs
  capsRounds numAlgs

/-- The first part of `sep_keymaster_send_cmd`: the tests of the arguments, and the query of the
capabilities by the first call that gets here. -/
def prologue (args : Args) (env : Env) : Proc Unit := do
  exitIf (¬ (args.cmdBuffer ∧ args.rspBuffer ∧ args.rspLength)) .badParameter
  exitIf (args.cmdLength < FirmwareCmd.size) .badParameter
  let rspLength ← load .rspLength 0
  exitIf (rspLength < FirmwareRsp.size) .rspBufferTooSmall
  let capsObtained ← load .capsObtained 0
  onlyIf (capsObtained = 0) do
    getCaps env.mallocCaps env.caps
    store .capsObtained 0 1

/-- The third part of `sep_keymaster_send_cmd`: allocate and clear the reply and run the
exchange. -/
def exchangeReply (env : Env) (fwRequestLen : Nat) : Proc Unit := do
  let rspLength ← load .rspLength 0
  let fwResponseLength := wrap32 (RespHeader.size + rspLength - FirmwareRsp.size)
  exitIf (env.mallocResponse = false) .outOfMemory
  memset .response 0 0 fwResponseLength
  sendReqToFw env.fw .request fwRequestLen .response fwResponseLength

/-- The last part of `sep_keymaster_send_cmd`: translate the reply for the caller.
`set_response_cmd_id` is handed the `ResponseCode` of the reply. -/
def decodeReply : Proc Unit := do
  let responseCode ← load .response RespHeader.responseCode
  setResponseCmdId responseCode
  let rspLength ← load .rspLength 0
  setResponseStatusAndData rspLength

/-- `sep_keymaster_send_cmd`. -/
def sepKeymasterSendCmd (args : Args) (env : Env) : Proc Unit := do
  prologue args env
  let fwRequestLen ← translateCmd env.mallocRequest
  exchangeReply env fwRequestLen
  decodeReply

end Txei.Keymaster

import Txei.Ipt.SendMessage

/-!
# Mediavault commands

`mvfw_cmd` of `mvfw_api.c` and the functions that are calls of it. They share `g_req_param` and
`g_resp_param` with `ipt_send_message`; lengths are 32-bit here, and the reply structure is filled
in before the exchange with what a reply is expected to repeat.
-/

namespace Txei.Ipt

open Machine Machine.Prog Mei Tee

/-- `MVFW_SUCCESS`. -/
@[simp] abbrev mvfwSuccess : Nat := 0

/-- `MVFW_FAIL_INVALID_PARAM`. -/
def mvfwFailInvalidParam : Nat := 1

/-- `MVFW_INIT_CMD_ID`. -/
def mvfwInitCmdId : Nat := 0x70000001

/-- `MVFW_DEINIT_CMD_ID`. -/
def mvfwDeinitCmdId : Nat := 0x70000002

/-- `MVFW_CONNECT_CMD_ID`. -/
def mvfwConnectCmdId : Nat := 0x70000003

/-- `MVFW_DISCONNECT_CMD_ID`. -/
def mvfwDisconnectCmdId : Nat := 0x70000004

/-- `MVFW_SEND_MSG_CMD_ID`. -/
def mvfwSendMsgCmdId : Nat := 0x70000005

/-- The arguments of `mvsepfw_sendmessage`. The three pointers are given by whether they are
non-null. -/
structure MvfwArgs where
  inData : Bool
  inDataLength : UInt32
  outData : Bool
  outDataLength : Bool
  deriving DecidableEq, Repr

/-- The arguments with which the commands without a message call `mvfw_cmd`. -/
def MvfwArgs.none : MvfwArgs := ⟨false, 0, false, false⟩

/-- The lines that clear both globals and fill in the request, and the reply in advance. -/
def setMvfwParams (cmdId : Nat) (a : MvfwArgs) : Proc Unit := do
  memset .gReqParam 0 0 IptSendMsgCmdFromHost.size
  memset .gRespParam 0 0 IptSendMsgCmdToHost.size
  store .gReqParam IptHeader.cmdId cmdId
  store .gReqParam IptHeader.status mvfwSuccess
  store .gRespParam IptHeader.cmdId cmdId
  store .gRespParam IptHeader.status mvfwSuccess
  onlyIf (cmdId = mvfwSendMsgCmdId) do
    store .gReqParam IptSendMsgCmdFromHost.inDataLength a.inDataLength.toNat
    let outDataLength ← load .outDataLength 0
    store .gReqParam IptSendMsgCmdFromHost.expectedOutDataLength outDataLength
    memcpy .gReqParam IptSendMsgCmdFromHost.inData .inData 0 a.inDataLength.toNat
    let outDataLength ← load .outDataLength 0
    store .gRespParam IptSendMsgCmdToHost.outDataLength outDataLength

/-- From `process_cmd` to the label `disconnect_mei`, with the status that arrives there. -/
def exchangeMvfw (x : Exchange) (ptrHandle : Option Int) (cmdId : Nat) : Proc Nat := do
  let ret ← processCmd x ptrHandle (some ⟨some .gReqParam, IptSendMsgCmdFromHost.size⟩)
    (some ⟨some .gRespParam, IptSendMsgCmdToHost.size⟩) 1
  exitIf (ret ≠ mvfwSuccess) ret
  let ret ← load .gRespParam IptHeader.status
  if cmdId = mvfwSendMsgCmdId then do
    exitIf (ret ≠ mvfwSuccess) ret
    let outDataLength ← load .gRespParam IptSendMsgCmdToHost.outDataLength
    store .outDataLength 0 outDataLength
    onlyIf (outDataLength ≠ 0)
      (memcpy .outData 0 .gRespParam IptSendMsgCmdToHost.outData outDataLength)
    pure ret
  else pure ret

/-- The label `disconnect_mei`. A failure to close the interface is printed only. -/
def disconnectMvfw (ptrHandle : Option Int) : Proc Unit :=
  onlyIf (ptrHandle ≠ none) do
    let _ ← iptTeeIntfDeinit ptrHandle
    pure ()

/-- `mvfw_cmd`. -/
def mvfwCmd (x : Exchange) (cmdId : Nat) (a : MvfwArgs) : Proc Nat := do
  exitIf (cmdId = mvfwSendMsgCmdId ∧ (a.inData = false ∨ a.inDataLength.toNat = 0 ∨
    maxMsgFromHostLengthInBytes < a.inDataLength.toNat ∨ a.outData = false ∨
    a.outDataLength = false)) mvfwFailInvalidParam
  let (ret, ptrHandle) ← iptTeeIntfInit x.connect
  exitIf (ret ≠ mvfwSuccess ∨ ptrHandle = none) ret
  setMvfwParams cmdId a
  let ret ← returned (exchangeMvfw x ptrHandle cmdId)
  disconnectMvfw ptrHandle
  pure ret

/-- `mvsepfw_initialize`. -/
def mvsepfwInitialize (x : Exchange) : Proc Nat := mvfwCmd x mvfwInitCmdId .none

/-- `mvsepfw_deinitialize`. -/
def mvsepfwDeinitialize (x : Exchange) : Proc Nat := mvfwCmd x mvfwDeinitCmdId .none

/-- `mvsepfw_connect`. -/
def mvsepfwConnect (x : Exchange) : Proc Nat := mvfwCmd x mvfwConnectCmdId .none

/-- `mvsepfw_disconnect`. -/
def mvsepfwDisconnect (x : Exchange) : Proc Nat := mvfwCmd x mvfwDisconnectCmdId .none

/-- `mvsepfw_sendmessage`. -/
def mvsepfwSendmessage (x : Exchange) (a : MvfwArgs) : Proc Nat := do
  exitIf (a.inData = false ∨ a.inDataLength.toNat = 0 ∨ a.outData = false ∨
    a.outDataLength = false) mvfwFailInvalidParam
  let outDataLength ← load .outDataLength 0
  memset .outData 0 0 outDataLength
  let ret ← returned (mvfwCmd x mvfwSendMsgCmdId a)
  exitIf (ret ≠ mvfwSuccess) ret
  pure mvfwSuccess

end Txei.Ipt

import Txei.Tee.Interface

/-!
# Sending an IPT message

`ipt_send_message` of `ipt.c`. The request and the reply are the global structures
`g_req_param` and `g_resp_param`. Everything behind the opened interface runs up to the label
`disconnect_mei`, where the interface is closed on every path; the status that reaches the label
is computed by `exchangeMessage`, and `value_iptSendMessage_opened` says what becomes of it.
-/

namespace Txei.Ipt

open Machine Machine.Prog Mei Tee

/-- The objects of a call: the caller's three, then the two globals. -/
inductive Block where
  | inData
  | outDataLength
  | outData
  | gReqParam
  | gRespParam
  deriving DecidableEq, Repr

/-- A function of the library, which may return early. -/
abbrev Proc (α : Type) : Type := Prog DeviceCall Block Nat α

/-! ## Layouts and codes -/

/-- `DWORD_ALIGNED_SIZE_OF_UNION_MSG_REQ`: the largest request is `s_msg_process_svp_req` with its
14 bytes in front of `OTP_MAX_PROCESS_SVP_SIZE` bytes of data. -/
@[simp] abbrev dwordAlignedSizeOfUnionMsgReq : Nat := 5016

/-- `MAX_MSG_FROM_HOST_LENGTH_IN_BYTES`. -/
@[simp] abbrev maxMsgFromHostLengthInBytes : Nat := 5016

/-- `MAX_MSG_TO_HOST_LENGTH_IN_BYTES`: the largest response is `s_msg_get_svp_resp`. -/
@[simp] abbrev maxMsgToHostLengthInBytes : Nat := 2516

namespace IptHeader

@[simp] abbrev cmdId : Nat := 0
@[simp] abbrev status : Nat := 4

end IptHeader

namespace IptSendMsgCmdFromHost

@[simp] abbrev inDataLength : Nat := 8
@[simp] abbrev expectedOutDataLength : Nat := 12
@[simp] abbrev inData : Nat := 16
@[simp] abbrev time : Nat := inData + maxMsgFromHostLengthInBytes
@[simp] abbrev size : Nat := time + 4

end IptSendMsgCmdFromHost

namespace IptSendMsgCmdToHost

@[simp] abbrev outDataLength : Nat := 8
@[simp] abbrev outData : Nat := 12
@[simp] abbrev size : Nat := outData + maxMsgToHostLengthInBytes

end IptSendMsgCmdToHost

/-- `IPT_SUCCESS`. -/
@[simp] abbrev iptSuccess : Nat := 0

/-- `IPT_FAIL_INVALID_PARAM`. -/
def iptFailInvalidParam : Nat := 1

/-- `IPT_FAIL_NULL_PARAM`. -/
def iptFailNullParam : Nat := 2

/-- `IPT_SEND_MSG_CMD_ID`. -/
def iptSendMsgCmdId : Nat := 0x80000001

/-! ## The functions -/

/-- `ipt_tee_intf_init`. -/
def iptTeeIntfInit (c : Connect) : Proc (Nat × Option Int) := teeInit c

/-- `ipt_tee_intf_deinit`. -/
def iptTeeIntfDeinit (handle : Option Int) : Proc Nat := teeDeinit handle

/-- The arguments of `ipt_send_message`. The three pointers are given by whether they are
non-null. -/
structure Args where
  inDataLength : UInt16
  inData : Bool
  outDataLength : Bool
  outData : Bool
  deriving DecidableEq, Repr

/-- The argument checks. -/
def checkArgs (a : Args) : Proc Unit := do
  exitIf (a.inData = false ∨ a.outDataLength = false ∨ a.outData = false) iptFailNullParam
  exitIf (a.inDataLength.toNat = 0 ∨ dwordAlignedSizeOfUnionMsgReq < a.inDataLength.toNat)
    iptFailInvalidParam

/-- The lines that clear the output and both globals and fill in the request. `tvSec` is the time
of day. -/
def setReqParam (tvSec : Nat) (a : Args) : Proc Unit := do
  let outDataLength ← load16 .outDataLength 0
  memset .outData 0 0 outDataLength
  memset .gReqParam 0 0 IptSendMsgCmdFromHost.size
  memset .gRespParam 0 0 IptSendMsgCmdToHost.size
  store .gReqParam IptHeader.cmdId iptSendMsgCmdId
  store .gReqParam IptHeader.status iptSuccess
  store .gReqParam IptSendMsgCmdFromHost.inDataLength a.inDataLength.toNat
  let outDataLength ← load16 .outDataLength 0
  store .gReqParam IptSendMsgCmdFromHost.expectedOutDataLength outDataLength
  memcpy .gReqParam IptSendMsgCmdFromHost.inData .inData 0 a.inDataLength.toNat
  store .gReqParam IptSendMsgCmdFromHost.time tvSec

/-- From `process_cmd` to the label `disconnect_mei`. It leaves with the status that the `goto`
carries to the label. -/
def exchangeMessage (x : Exchange) (ptrHandle : Option Int) : Proc Unit := do
  let ret ← processCmd x ptrHandle (some ⟨some .gReqParam, IptSendMsgCmdFromHost.size⟩)
    (some ⟨some .gRespParam, IptSendMsgCmdToHost.size⟩) 1
  exitIf (ret ≠ iptSuccess) ret
  let status ← load .gRespParam IptHeader.status
  exitIf (status ≠ iptSuccess) status
  let outDataLength ← load .gRespParam IptSendMsgCmdToHost.outDataLength
  store16 .outDataLength 0 outDataLength
  onlyIf (outDataLength ≠ 0)
    (memcpy .outData 0 .gRespParam IptSendMsgCmdToHost.outData (wrap16 outDataLength))

/-- The label `disconnect_mei`, reached with the status `ret`. -/
def disconnectMei (ptrHandle : Option Int) (ret : Nat) : Proc Nat :=
  if ptrHandle ≠ none then do
    -- the assignment inside the condition replaces the status
    let ret ← iptTeeIntfDeinit ptrHandle
    pure ret
  else pure ret

/-- The status with which the code before the label arrives there. -/
def statusAtLabel : Except Nat Unit → Nat
  | .ok () => iptSuccess
  | .error ret => ret

/-- `ipt_send_message`. -/
def iptSendMessage (x : Exchange) (tvSec : Nat) (a : Args) : Proc Nat := do
  checkArgs a
  let (ret, ptrHandle) ← iptTeeIntfInit x.connect
  exitIf (ret ≠ iptSuccess ∨ ptrHandle = none) ret
  setReqParam tvSec a
  let outcome ← attempt (exchangeMessage x ptrHandle)
  disconnectMei ptrHandle (statusAtLabel outcome)

end Txei.Ipt

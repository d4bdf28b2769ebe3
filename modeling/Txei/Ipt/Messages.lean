import Txei.Machine.Slice
import Txei.Ipt.Independence

/-!
# Messages on the wire

What the device is handed by a call reads as one message: a command with the capacity of the
caller's buffer and the data that the caller passes. Whatever the shared request structure held
before, `ofBytes_sent` says that it is the message of this very call.
-/

namespace Txei.Ipt

open Machine Machine.Prog Mei Tee

/-- What a request means to the firmware. -/
structure Message where
  cmdId : Nat
  expectedOutDataLength : Nat
  data : List UInt8
  deriving DecidableEq, Repr

section OfBytes

variable (bytes : List UInt8)

/-- The message in an `ipt_send_msg_cmd_from_host`, if its length is one that `in_data` has room
for. -/
def Message.ofBytes : Option Message :=
  let inDataLength := wordAt (onWire bytes) IptSendMsgCmdFromHost.inDataLength
  if bytes.length = IptSendMsgCmdFromHost.size ∧ inDataLength ≤ maxMsgFromHostLengthInBytes then
    some ⟨wordAt (onWire bytes) IptHeader.cmdId,
      wordAt (onWire bytes) IptSendMsgCmdFromHost.expectedOutDataLength,
      slice (onWire bytes) IptSendMsgCmdFromHost.inData inDataLength⟩
  else none

end OfBytes

/-! ## The message of a call -/

namespace Request

/-- The length of the data that a call passes. -/
def inDataLength : Request → Nat
  | iptSendMessage _ a => a.inDataLength.toNat
  | mvsepfwSendmessage a => a.inDataLength.toNat
  | _ => 0

/-- The message of a call, with what lies behind its pointers. -/
def message (request : Request) (m : Mem Block) : Message where
  cmdId := request.cmdId
  expectedOutDataLength := request.lengthIn m
  data := slice (m .inData) 0 request.inDataLength

end Request

/-- The bytes that a call hands to the device. -/
def Call.sent (c : Call) (globals : Mem Block) : List UInt8 :=
  requestBytes (c.request.fill.run (c.start globals)).mem

/-! ## The fields of a request -/

/-- The fields of a request structure that is filled in. -/
structure HasFields (cmdId expected n : Nat) (data : Nat → UInt8) (m : Mem Block) : Prop where
  cmdId_eq : m.word .gReqParam IptHeader.cmdId = cmdId
  inDataLength_eq : m.word .gReqParam IptSendMsgCmdFromHost.inDataLength = n
  expected_eq : m.word .gReqParam IptSendMsgCmdFromHost.expectedOutDataLength = expected
  data_eq : ∀ i < n, m .gReqParam (IptSendMsgCmdFromHost.inData + i) = data i

theorem requestBytes_eq (m : Mem Block) :
    requestBytes m = m.bytes .gReqParam IptSendMsgCmdFromHost.size := rfl

/-- A request with these fields reads back. -/
theorem HasFields.ofBytes {cmdId expected n : Nat} {data : Nat → UInt8} {m : Mem Block}
    (h : HasFields cmdId expected n data m) (hn : n ≤ maxMsgFromHostLengthInBytes) :
    Message.ofBytes (requestBytes m) = some ⟨cmdId, expected, slice data 0 n⟩ := by
  have hword {o : Nat} (ho : o + 4 ≤ IptSendMsgCmdFromHost.size) :
      wordAt (onWire (requestBytes m)) o = m.word .gReqParam o :=
    wordAt_congr fun i hi => onWire_bytes m .gReqParam (by omega)
  have hcmdId := (hword (o := IptHeader.cmdId) (by decide)).trans h.cmdId_eq
  have hlength := (hword (o := IptSendMsgCmdFromHost.inDataLength) (by decide)).trans
    h.inDataLength_eq
  have hexpected := (hword (o := IptSendMsgCmdFromHost.expectedOutDataLength) (by decide)).trans
    h.expected_eq
  have hdata : slice (onWire (requestBytes m)) IptSendMsgCmdFromHost.inData n = slice data 0 n := by
    refine slice_congr fun i hi => ?_
    rw [requestBytes_eq, onWire_bytes m .gReqParam (by simp at hn ⊢; omega), h.data_eq i hi,
      Nat.zero_add]
  have hsize : (requestBytes m).length = IptSendMsgCmdFromHost.size := by
    rw [requestBytes_eq, Mem.length_bytes]
  unfold Message.ofBytes
  simp only [hlength, hcmdId, hexpected, hdata]
  exact if_pos ⟨hsize, hn⟩

/-- Filling in a message for `ipt_send_message`. -/
theorem hasFields_setReqParam (tvSec : Nat) {a : Args} (ha : a.Admissible) (m : Mem Block) :
    HasFields iptSendMsgCmdId (m.half .outDataLength 0) a.inDataLength.toNat (m .inData)
      ((setReqParam tvSec a).run m).mem := by
  have hlen : a.inDataLength.toNat < 2 ^ 32 := Nat.lt_trans a.inDataLength.toNat_lt (by decide)
  have hcapacity : m.half .outDataLength 0 < 2 ^ 32 :=
    Nat.lt_trans (m.half_lt .outDataLength 0) (by decide)
  have hle := ha.length.2
  simp only [dwordAlignedSizeOfUnionMsgReq] at hle
  simp only [setReqParam, run_bind, run_load16, run_memset, run_store, run_memcpy, Run.andThen_ok,
    Run.prepend_mem]
  constructor
  · iterate 5 rw [Mem.word_write_apart _ _ _ _ _ _ (by simp)]
    rw [Mem.word_write_same]
    rfl
  · iterate 3 rw [Mem.word_write_apart _ _ _ _ _ _ (by simp)]
    rw [Mem.word_write_same, wrap32_of_lt hlen]
  · iterate 2 rw [Mem.word_write_apart _ _ _ _ _ _ (by simp)]
    rw [Mem.word_write_same]
    iterate 6 rw [Mem.half_write_other _ _ _ _ _ (by decide)]
    exact wrap32_of_lt hcapacity
  · intro i hi
    rw [Mem.write_outside _ _ _ _ _ _ _ (by simp; omega),
      Mem.write_inside _ Block.gReqParam _ _ _ _ (by omega), Nat.add_sub_cancel_left, Nat.zero_add]
    iterate 7 rw [Mem.write_other _ _ _ _ (by decide)]

/-- Filling in a message for `mvsepfw_sendmessage`. -/
theorem hasFields_setMvfwParams {a : MvfwArgs} (ha : a.Admissible) (m : Mem Block) :
    HasFields mvfwSendMsgCmdId (m.word .outDataLength 0) a.inDataLength.toNat (m .inData)
      ((setMvfwParams mvfwSendMsgCmdId a).run m).mem := by
  have hlen : a.inDataLength.toNat < 2 ^ 32 := a.inDataLength.toNat_lt
  have hcapacity : m.word .outDataLength 0 < 2 ^ 32 := m.word_lt .outDataLength 0
  have hle := ha.length.2
  simp only [maxMsgFromHostLengthInBytes] at hle
  simp only [setMvfwParams, run_bind, run_onlyIf, run_load, run_memset, run_store, run_memcpy,
    Run.andThen_ok, Run.prepend_mem, if_true]
  constructor
  · rw [Mem.word_write_other _ _ _ _ _ (by decide)]
    iterate 3 rw [Mem.word_write_apart _ _ _ _ _ _ (by simp)]
    iterate 2 rw [Mem.word_write_other _ _ _ _ _ (by decide)]
    rw [Mem.word_write_apart _ _ _ _ _ _ (by simp), Mem.word_write_same]
    rfl
  · rw [Mem.word_write_other _ _ _ _ _ (by decide)]
    iterate 2 rw [Mem.word_write_apart _ _ _ _ _ _ (by simp)]
    rw [Mem.word_write_same, wrap32_of_lt hlen]
  · rw [Mem.word_write_other _ _ _ _ _ (by decide), Mem.word_write_apart _ _ _ _ _ _ (by simp),
      Mem.word_write_same]
    iterate 7 rw [Mem.word_write_other _ _ _ _ _ (by decide)]
    exact wrap32_of_lt hcapacity
  · intro i hi
    rw [Mem.write_other _ _ _ _ (by decide), Mem.write_inside _ Block.gReqParam _ _ _ _ (by omega),
      Nat.add_sub_cancel_left, Nat.zero_add]
    iterate 8 rw [Mem.write_other _ _ _ _ (by decide)]

/-- A command without a message. -/
theorem hasFields_command {cmdId : Nat} (hid : cmdId ≠ mvfwSendMsgCmdId) (hlt : cmdId < 2 ^ 32)
    (m : Mem Block) :
    HasFields cmdId 0 0 (m .inData) ((setMvfwParams cmdId .none).run m).mem := by
  simp only [setMvfwParams, run_bind, run_onlyIf, run_memset, run_store, Run.andThen_ok,
    Run.prepend_mem, if_neg hid]
  constructor
  · iterate 2 rw [Mem.word_write_other _ _ _ _ _ (by decide)]
    rw [Mem.word_write_apart _ _ _ _ _ _ (by simp), Mem.word_write_same, wrap32_of_lt hlt]
  · iterate 2 rw [Mem.word_write_other _ _ _ _ _ (by decide)]
    iterate 2 rw [Mem.word_write_apart _ _ _ _ _ _ (by simp)]
    rw [Mem.word_write_other _ _ _ _ _ (by decide), Mem.word_write_inside _ _ _ _ _ _ (by simp)]
    rfl
  · iterate 2 rw [Mem.word_write_other _ _ _ _ _ (by decide)]
    iterate 2 rw [Mem.word_write_apart _ _ _ _ _ _ (by simp)]
    rw [Mem.word_write_other _ _ _ _ _ (by decide), Mem.word_write_inside _ _ _ _ _ _ (by simp)]
    rfl
  · exact fun i hi => absurd hi (Nat.not_lt_zero i)

/-- Every call fills the request structure in with its own message. -/
theorem Request.hasFields_fill {request : Request} (h : request.Checked) (m : Mem Block) :
    HasFields request.cmdId (request.lengthIn m) request.inDataLength (m .inData)
      (request.fill.run m).mem := by
  cases request with
  | iptSendMessage tvSec a => exact hasFields_setReqParam tvSec h m
  | mvsepfwSendmessage a =>
      have hfields := hasFields_setMvfwParams h (m.write .outData 0 (m.word .outDataLength 0)
        fun _ => 0)
      rw [Mem.word_write_other _ _ _ _ _ (by decide), Mem.write_other _ _ _ _ (by decide)]
        at hfields
      rw [Request.fill, run_clearOutData_bind]
      exact hfields
  | mvsepfwInitialize => exact hasFields_command (by decide) (by decide) m
  | mvsepfwDeinitialize => exact hasFields_command (by decide) (by decide) m
  | mvsepfwConnect => exact hasFields_command (by decide) (by decide) m
  | mvsepfwDisconnect => exact hasFields_command (by decide) (by decide) m

theorem Request.Checked.inDataLength_le {request : Request} (h : request.Checked) :
    request.inDataLength ≤ maxMsgFromHostLengthInBytes := by
  cases request with
  | iptSendMessage tvSec a => exact h.length.2
  | mvsepfwSendmessage a => exact h.length.2
  | mvsepfwInitialize => exact Nat.zero_le _
  | mvsepfwDeinitialize => exact Nat.zero_le _
  | mvsepfwConnect => exact Nat.zero_le _
  | mvsepfwDisconnect => exact Nat.zero_le _

/-- What a call sends reads as its message, whatever the shared structures held. -/
theorem ofBytes_sent {c : Call} (h : c.request.Checked) (globals : Mem Block) :
    Message.ofBytes (c.sent globals) = some (c.request.message c.provided) :=
  (Request.hasFields_fill h (c.start globals)).ofBytes h.inDataLength_le

end Txei.Ipt

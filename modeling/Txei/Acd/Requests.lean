import Txei.Machine.Slice
import Txei.Acd.ReadValue

/-!
# The requests of the customer data commands

A command fills its request in field by field. `Request.ofBytes` reads a request by the structures
of `acd_cmd_structs.h`, as the firmware does, and `ofBytes_sent` says that what a call sends reads
as what it was called for.
-/

namespace Txei.Acd

open Machine Machine.Prog Mei Tee

/-! ## Reading a request -/

/-- What the firmware is asked to do. -/
inductive Request where
  | read (index : Nat)
  | write (index maxSize : Nat) (data : List UInt8)
  | lock
  | provision (schema : Nat) (data : List UInt8)
  | wipe
  deriving DecidableEq, Repr

section OfBytes

variable (bytes : List UInt8)

/-- The data of an `acd_write_cmd_from_host`, if its size is one that `buf` has room for. -/
def writtenData : Option (List UInt8) :=
  if wordAt (onWire bytes) AcdWriteCmdFromHost.actualSize ≤ acdMaxDataSizeInBytes then
    some (slice (onWire bytes) AcdWriteCmdFromHost.buf
      (wordAt (onWire bytes) AcdWriteCmdFromHost.actualSize))
  else none

/-- The request in the bytes that are sent, by the opcodes in its header and its size. -/
def Request.ofBytes : Option Request :=
  if halfAt (onWire bytes) AcdsHdrReq.mainOpcode = acdMainOpcode then
    let subOpcode := halfAt (onWire bytes) AcdsHdrReq.subOpcode
    let index := wordAt (onWire bytes) AcdWriteCmdFromHost.index
    if subOpcode = opcodeAcdRead ∧ bytes.length = AcdReadCmdFromHost.size then some (read index)
    else if subOpcode = opcodeAcdWrite ∧ bytes.length = AcdWriteCmdFromHost.size then
      (writtenData bytes).map (write index (wordAt (onWire bytes) AcdWriteCmdFromHost.maxSize))
    else if subOpcode = opcodeAcdLock ∧ bytes.length = acdLockCmdFromHostSize then some lock
    else if subOpcode = opcodeAcdProv ∧ bytes.length = AcdWriteCmdFromHost.size then
      (writtenData bytes).map (provision index)
    else if subOpcode = opcodeAcdWipe ∧ bytes.length = acdGenericCmdFromHostSize then some wipe
    else none
  else none

end OfBytes

/-! ## What a call sends -/

/-- The sizes of the two structures of a command, and the lines that fill the first one in. -/
structure Message where
  paramsSize : Nat
  respSize : Nat
  fillParams : Proc Unit

/-- The memory in which `transact` hands the message over. -/
def Message.mem (message : Message) (m : Mem Block) : Mem Block :=
  ((do
    memset .params 0 0 message.paramsSize
    memset .resp 0 0 message.respSize
    message.fillParams : Proc Unit).run m).mem

/-- The bytes that the device is handed. -/
def Message.bytes (message : Message) (m : Mem Block) : List UInt8 :=
  (message.mem m).bytes .params message.paramsSize

namespace Call

/-- The message of a call. -/
def message : Call → Message
  | lockCustomerData .. =>
      ⟨acdLockCmdFromHostSize, AcdStatusToHost.size, setHdrReq opcodeAcdLock⟩
  | wipeCustomerData .. =>
      ⟨acdGenericCmdFromHostSize, AcdStatusToHost.size, setHdrReq opcodeAcdWipe⟩
  | setCustomerData _ a _ => ⟨AcdWriteCmdFromHost.size, AcdStatusToHost.size, setWriteParams a⟩
  | getCustomerData _ _ a _ => ⟨AcdReadCmdFromHost.size, AcdReadCmdToHost.size, setReadParams a⟩
  | provisionCustomerData _ _ a _ =>
      ⟨AcdWriteCmdFromHost.size, AcdReadCmdToHost.size, setProvisionParams a⟩

/-- The exchange of a call. -/
def exchange : Call → Exchange
  | lockCustomerData x _ | wipeCustomerData x _ | setCustomerData x _ _
  | getCustomerData x _ _ _ | provisionCustomerData x _ _ _ => x

/-- The memory that a call finds. -/
def memory : Call → Mem Block
  | lockCustomerData _ m | wipeCustomerData _ m | setCustomerData _ _ m
  | getCustomerData _ _ _ m | provisionCustomerData _ _ _ m => m

/-- The arguments of a call pass its checks. -/
def Checked : Call → Prop
  | lockCustomerData .. | wipeCustomerData .. => True
  | setCustomerData _ a _ => a.InRange
  | getCustomerData _ _ a _ => a.InRange
  | provisionCustomerData _ _ a _ => a.Admissible

/-- What a call with arguments that pass its checks is for. -/
def request : Call → Request
  | lockCustomerData .. => .lock
  | wipeCustomerData .. => .wipe
  | setCustomerData _ a m =>
      .write a.uiFieldIndex.toNat a.fieldMaxSize.toNat (slice (m .fieldData) 0 a.fieldSize.toNat)
  | getCustomerData _ _ a _ => .read a.uiFieldIndex.toNat
  | provisionCustomerData _ _ a m =>
      .provision a.provisionSchema.toNat (slice (m .fieldData) 0 a.inDataSize.toNat)

/-- The bytes that a call sends. -/
def sent (c : Call) : List UInt8 := c.message.bytes c.memory

end Call

/-! ## The fields of a request -/

theorem wordAt_bytes (m : Mem Block) {o n : Nat} (h : o + 4 ≤ n) :
    wordAt (onWire (m.bytes .params n)) o = m.word .params o :=
  wordAt_congr fun i hi => onWire_bytes m .params (by omega)

theorem halfAt_bytes (m : Mem Block) {o n : Nat} (h : o + 2 ≤ n) :
    halfAt (onWire (m.bytes .params n)) o = m.half .params o :=
  halfAt_congr fun i hi => onWire_bytes m .params (by omega)

/-- The header of a request that is filled in. -/
structure HasHeader (op : Nat) (m : Mem Block) : Prop where
  mainOpcode : m.half .params AcdsHdrReq.mainOpcode = acdMainOpcode
  subOpcode : m.half .params AcdsHdrReq.subOpcode = op

theorem hasHeader_setHdrReq {op : Nat} (hop : op < 2 ^ 16) (m : Mem Block) :
    HasHeader op ((setHdrReq op).run m).mem where
  mainOpcode := by
    simp only [setHdrReq, run_bind, run_store16, Run.andThen_ok, Run.prepend_mem]
    rw [Mem.half_write_apart _ _ _ _ _ _ (by decide), Mem.half_write_same]
    rfl
  subOpcode := by
    simp only [setHdrReq, run_bind, run_store16, Run.andThen_ok, Run.prepend_mem]
    rw [Mem.half_write_same]
    exact Nat.mod_eq_of_lt hop

/-- The header is kept by what is written behind it. -/
theorem HasHeader.write {op : Nat} {m : Mem Block} (h : HasHeader op m) {o n : Nat}
    (ho : 4 ≤ o) (f : Nat → UInt8) : HasHeader op (m.write .params o n f) where
  mainOpcode := by
    rw [Mem.half_write_apart _ _ _ _ _ _ (.inl (by simp; omega))]
    exact h.mainOpcode
  subOpcode := by
    rw [Mem.half_write_apart _ _ _ _ _ _ (.inl (by simp; omega))]
    exact h.subOpcode

/-- The lines that both commands fill an `acd_write_cmd_from_host` in with. -/
def fillWrite (op index actualSize maxSize : Nat) : Proc Unit := do
  setHdrReq op
  store .params AcdWriteCmdFromHost.index index
  store .params AcdWriteCmdFromHost.actualSize actualSize
  store .params AcdWriteCmdFromHost.maxSize maxSize
  memcpy .params AcdWriteCmdFromHost.buf .fieldData 0 actualSize

/-- The fields of an `acd_write_cmd_from_host`. -/
structure HasFields (op index actualSize maxSize : Nat) (data : Nat → UInt8) (m : Mem Block) :
    Prop where
  header : HasHeader op m
  index_eq : m.word .params AcdWriteCmdFromHost.index = index
  actualSize_eq : m.word .params AcdWriteCmdFromHost.actualSize = actualSize
  maxSize_eq : m.word .params AcdWriteCmdFromHost.maxSize = maxSize
  data_eq : ∀ i < actualSize, m .params (AcdWriteCmdFromHost.buf + i) = data i

theorem hasFields_fillWrite {op index actualSize maxSize : Nat} (hop : op < 2 ^ 16)
    (hindex : index < 2 ^ 32) (hactual : actualSize < 2 ^ 32) (hmax : maxSize < 2 ^ 32)
    (m : Mem Block) :
    HasFields op index actualSize maxSize (m .fieldData)
      ((fillWrite op index actualSize maxSize).run m).mem := by
  have hdata : ((setHdrReq op).run m).mem .fieldData = m .fieldData :=
    (within_setHdrReq op).mem_eq (by simp) m
  have hheader := hasHeader_setHdrReq hop m
  have hres : ((setHdrReq op).run m).result = .ok () := by simp [setHdrReq]
  unfold fillWrite
  rw [run_bind, Run.andThen_of_ok hres, Run.prepend_mem]
  generalize ((setHdrReq op).run m).mem = m' at hdata hheader
  simp only [run_bind, run_store, run_memcpy, Run.andThen_ok, Run.prepend_mem]
  constructor
  · exact (((hheader.write (by decide) _).write (by decide) _).write (by decide) _).write
      (by decide) _
  · rw [Mem.word_write_apart _ _ _ _ _ _ (by simp), Mem.word_write_apart _ _ _ _ _ _ (by decide),
      Mem.word_write_apart _ _ _ _ _ _ (by decide), Mem.word_write_same, wrap32_of_lt hindex]
  · rw [Mem.word_write_apart _ _ _ _ _ _ (by simp), Mem.word_write_apart _ _ _ _ _ _ (by decide),
      Mem.word_write_same, wrap32_of_lt hactual]
  · rw [Mem.word_write_apart _ _ _ _ _ _ (by simp), Mem.word_write_same, wrap32_of_lt hmax]
  · intro i hi
    rw [Mem.write_inside _ Block.params _ _ _ (AcdWriteCmdFromHost.buf + i) (by omega),
      Nat.add_sub_cancel_left, Nat.zero_add]
    rw [Mem.write_other _ _ _ _ (by decide), Mem.write_other _ _ _ _ (by decide),
      Mem.write_other _ _ _ _ (by decide), hdata]

/-- A request with these fields reads back. -/
theorem HasFields.writtenData {op index actualSize maxSize : Nat} {data : Nat → UInt8}
    {m : Mem Block} (h : HasFields op index actualSize maxSize data m)
    (hactual : actualSize ≤ acdMaxDataSizeInBytes) :
    Acd.writtenData (m.bytes .params AcdWriteCmdFromHost.size) =
      some (slice data 0 actualSize) := by
  have hsize := (wordAt_bytes m (o := AcdWriteCmdFromHost.actualSize)
    (n := AcdWriteCmdFromHost.size) (by decide)).trans h.actualSize_eq
  rw [Acd.writtenData, hsize, if_pos hactual]
  refine congrArg some (slice_congr fun i hi => ?_)
  rw [onWire_bytes m .params (by simp at hactual ⊢; omega), h.data_eq i hi, Nat.zero_add]

/-- The two structures are cleared before the request is filled in. -/
theorem Message.mem_eq (message : Message) (m : Mem Block) :
    ∃ m', m' .fieldData = m .fieldData ∧ message.mem m = (message.fillParams.run m').mem := by
  refine ⟨(m.write .params 0 message.paramsSize fun _ => 0).write .resp 0 message.respSize
    fun _ => 0, ?_, ?_⟩
  · rw [Mem.write_other _ _ _ _ (by decide), Mem.write_other _ _ _ _ (by decide)]
  · simp only [Message.mem, run_bind, run_memset, Run.andThen_ok, Run.prepend_mem]

section Header

variable {op n : Nat} {m : Mem Block}

theorem HasHeader.mainOpcode_bytes (h : HasHeader op m) (hn : 4 ≤ n) :
    halfAt (onWire (m.bytes .params n)) AcdsHdrReq.mainOpcode = acdMainOpcode :=
  (halfAt_bytes m (by simp; omega)).trans h.mainOpcode

theorem HasHeader.subOpcode_bytes (h : HasHeader op m) (hn : 4 ≤ n) :
    halfAt (onWire (m.bytes .params n)) AcdsHdrReq.subOpcode = op :=
  (halfAt_bytes m (by simp; omega)).trans h.subOpcode

end Header

/-- A request filled in with these fields reads as a write, or as a provisioning. -/
theorem HasFields.ofBytes {op index actualSize maxSize : Nat} {data : Nat → UInt8} {m : Mem Block}
    (h : HasFields op index actualSize maxSize data m)
    (hactual : actualSize ≤ acdMaxDataSizeInBytes) :
    (op = opcodeAcdWrite → Request.ofBytes (m.bytes .params AcdWriteCmdFromHost.size) =
      some (.write index maxSize (slice data 0 actualSize))) ∧
    (op = opcodeAcdProv → Request.ofBytes (m.bytes .params AcdWriteCmdFromHost.size) =
      some (.provision index (slice data 0 actualSize))) := by
  have hmain := h.header.mainOpcode_bytes (n := AcdWriteCmdFromHost.size) (by decide)
  have hsub := h.header.subOpcode_bytes (n := AcdWriteCmdFromHost.size) (by decide)
  have hindex := (wordAt_bytes m (n := AcdWriteCmdFromHost.size) (by decide)).trans h.index_eq
  have hmax := (wordAt_bytes m (n := AcdWriteCmdFromHost.size) (by decide)).trans h.maxSize_eq
  have hwritten := h.writtenData hactual
  constructor
  · rintro rfl
    simp only [Request.ofBytes, hmain, hsub, Mem.length_bytes, hindex, hmax, hwritten]
    rfl
  · rintro rfl
    simp only [Request.ofBytes, hmain, hsub, Mem.length_bytes, hindex, hwritten]
    rfl

/-- What a call sends reads as what it is called for. -/
theorem ofBytes_sent {c : Call} (h : c.Checked) : Request.ofBytes c.sent = some c.request := by
  obtain ⟨m', hdata, hmem⟩ := c.message.mem_eq c.memory
  rw [Call.sent, Message.bytes, hmem]
  cases c with
  | lockCustomerData x m =>
      have hheader : HasHeader opcodeAcdLock ((setHdrReq opcodeAcdLock).run m').mem :=
        hasHeader_setHdrReq (by decide) m'
      have hmain := hheader.mainOpcode_bytes (n := acdLockCmdFromHostSize) (by decide)
      have hsub := hheader.subOpcode_bytes (n := acdLockCmdFromHostSize) (by decide)
      simp only [Call.message, Call.request, Request.ofBytes, hmain, hsub, Mem.length_bytes]
      rfl
  | wipeCustomerData x m =>
      have hheader : HasHeader opcodeAcdWipe ((setHdrReq opcodeAcdWipe).run m').mem :=
        hasHeader_setHdrReq (by decide) m'
      have hmain := hheader.mainOpcode_bytes (n := acdGenericCmdFromHostSize) (by decide)
      have hsub := hheader.subOpcode_bytes (n := acdGenericCmdFromHostSize) (by decide)
      simp only [Call.message, Call.request, Request.ofBytes, hmain, hsub, Mem.length_bytes]
      rfl
  | setCustomerData x a m =>
      have hindex : a.uiFieldIndex.toNat < 2 ^ 32 :=
        Nat.lt_trans a.uiFieldIndex.toNat_lt (by decide)
      have hmax : a.fieldMaxSize.toNat < 2 ^ 32 := Nat.lt_trans a.fieldMaxSize.toNat_lt (by decide)
      have hsize : a.fieldSize.toNat < 2 ^ 32 := Nat.lt_trans a.fieldSize.toNat_lt (by decide)
      have hfields : HasFields opcodeAcdWrite _ _ _ _ ((setWriteParams a).run m').mem :=
        hasFields_fillWrite (by decide) hindex hsize hmax m'
      exact ((hdata ▸ hfields).ofBytes h.size.2).1 rfl
  | getCustomerData x calloc a m =>
      have hindex : a.uiFieldIndex.toNat < 2 ^ 32 :=
        Nat.lt_trans a.uiFieldIndex.toNat_lt (by decide)
      have hrun : ((setReadParams a).run m').mem = ((setHdrReq opcodeAcdRead).run m').mem.write
          .params AcdReadCmdFromHost.index 4 (byteAt a.uiFieldIndex.toNat) := by
        simp [setReadParams, setHdrReq]
      have hheader : HasHeader opcodeAcdRead ((setReadParams a).run m').mem :=
        hrun ▸ (hasHeader_setHdrReq (by decide) m').write (by decide) _
      have hmain := hheader.mainOpcode_bytes (n := AcdReadCmdFromHost.size) (by decide)
      have hsub := hheader.subOpcode_bytes (n := AcdReadCmdFromHost.size) (by decide)
      have hidx : wordAt (onWire (((setReadParams a).run m').mem.bytes .params
          AcdReadCmdFromHost.size)) AcdWriteCmdFromHost.index = a.uiFieldIndex.toNat := by
        rw [wordAt_bytes _ (by decide), hrun, Mem.word_write_same, wrap32_of_lt hindex]
      simp only [Call.message, Call.request, Request.ofBytes, hmain, hsub, Mem.length_bytes, hidx]
      rfl
  | provisionCustomerData x calloc a m =>
      have hschema : a.provisionSchema.toNat < 2 ^ 32 := a.provisionSchema.toNat_lt
      have hsize : a.inDataSize.toNat < 2 ^ 32 := a.inDataSize.toNat_lt
      have hfields : HasFields opcodeAcdProv _ _ _ _ ((setProvisionParams a).run m').mem :=
        hasFields_fillWrite (by decide) hschema hsize hsize m'
      exact ((hdata ▸ hfields).ofBytes h.size.2).2 rfl

end Txei.Acd

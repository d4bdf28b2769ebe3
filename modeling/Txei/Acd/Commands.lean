import Txei.Tee.Interface

/-!
# Customer data commands

`lock_customer_data`, `wipe_customer_data` and `set_customer_data` of `umip_access.c`. Each opens
a connection, builds a request in `params`, lets the firmware answer into the cleared `resp`, and
turns what happened into one `int`. A function is a program that may leave early with the `int`
it returns, so its value is the `Run.value` of its run.
-/

namespace Txei.Acd

open Machine Machine.Prog Mei Tee

/-- The objects of a call: the two message structures, the caller's field data, the caller's
objects for the address and the size of the data that comes back, and the buffer allocated for
it. -/
inductive Block where
  | params
  | resp
  | fieldData
  | outData
  | outDataSize
  | outBuffer
  deriving DecidableEq, Repr

/-- A function of the library, which may return early. -/
abbrev Proc (α : Type) : Type := Prog DeviceCall Block Int α

/-! ## Layouts and codes -/

namespace AcdsHdrReq

@[simp] abbrev mainOpcode : Nat := 0
@[simp] abbrev subOpcode : Nat := 2
@[simp] abbrev size : Nat := 4

end AcdsHdrReq

namespace AcdWriteCmdFromHost

@[simp] abbrev index : Nat := 4
@[simp] abbrev actualSize : Nat := 8
@[simp] abbrev maxSize : Nat := 12
@[simp] abbrev buf : Nat := 16
@[simp] abbrev size : Nat := 528

end AcdWriteCmdFromHost

/-- `sizeof (struct acd_lock_cmd_from_host)`: the header and a reserved word. -/
@[simp] abbrev acdLockCmdFromHostSize : Nat := 8

/-- `sizeof (struct acd_generic_cmd_from_host)`: the header alone. -/
@[simp] abbrev acdGenericCmdFromHostSize : Nat := AcdsHdrReq.size

/-! `struct acd_lock_cmd_to_host`, `struct acd_generic_cmd_to_host` and
`struct acd_write_cmd_to_host` have one layout. -/

namespace AcdStatusToHost

@[simp] abbrev acdStatus : Nat := 8
@[simp] abbrev size : Nat := 12

end AcdStatusToHost

/-- `ACD_MAIN_OPCODE`. -/
def acdMainOpcode : Nat := 9876

/-- `OPCODE_IA2CHAABI_ACD_WRITE`. -/
def opcodeAcdWrite : Nat := 2

/-- `OPCODE_IA2CHAABI_ACD_LOCK`. -/
def opcodeAcdLock : Nat := 4

/-- `OPCODE_IA2CHAABI_ACD_WIPE`. -/
def opcodeAcdWipe : Nat := 6

/-- `ACD_LOCK_SUCCESS`. -/
@[simp] abbrev acdLockSuccess : Nat := 0

/-- `ACD_WRITE_SUCCESS`. -/
@[simp] abbrev acdWriteSuccess : Nat := 0

/-- `ACD_MIN_FIELD_INDEX`. -/
@[simp] abbrev acdMinFieldIndex : Nat := 1

/-- `ACD_MAX_FIELD_INDEX`. -/
@[simp] abbrev acdMaxFieldIndex : Nat := 63

/-- `ACD_MIN_DATA_SIZE_IN_BYTES`. -/
@[simp] abbrev acdMinDataSizeInBytes : Nat := 0

/-- `ACD_MAX_DATA_SIZE_IN_BYTES`. -/
@[simp] abbrev acdMaxDataSizeInBytes : Nat := 512

/-- `ACD_WRITE_ERROR_ILLEGAL_PARAMETER`. -/
def acdWriteErrorIllegalParameter : Int := 0x30000008

/-- `ACD_WRITE_ERROR_DATA_SIZE_TOO_LARGE`. -/
def acdWriteErrorDataSizeTooLarge : Int := 0x3000000B

/-! ## The functions -/

/-- `acd_init`: the result, and the handle it stores through its second argument. -/
def acdInit (c : Connect) : Proc (Int × Option Int) := do
  let (result, ptrHandle) ← teeInit c
  pure (int32 result, ptrHandle)

/-- `acd_deinit`. -/
def acdDeinit (handle : Option Int) : Proc Int := do
  let result ← teeDeinit handle
  pure (int32 result)

/-- The lines with which every function opens its connection. The variable `ret` is unsigned. -/
def openAcd (c : Connect) : Proc (Option Int) := do
  let (result, ptrHandle) ← acdInit c
  exitIf (uint32 result ≠ 0 ∨ ptrHandle = none) (int32 (uint32 result))
  pure ptrHandle

/-- The lines with which a function closes its connection. A failure is printed only. -/
def closeAcd (ptrHandle : Option Int) : Proc Unit :=
  onlyIf (ptrHandle ≠ none) do
    let _ ← acdDeinit ptrHandle
    pure ()

/-- The lines that clear both structures, fill in the request and hand the message over. -/
def transact (x : Exchange) (ptrHandle : Option Int) (paramsSize respSize : Nat)
    (fillParams : Proc Unit) : Proc Nat := do
  memset .params 0 0 paramsSize
  memset .resp 0 0 respSize
  fillParams
  processCmd x ptrHandle (some ⟨some .params, paramsSize⟩) (some ⟨some .resp, respSize⟩) 2

/-- The request header. -/
def setHdrReq (subOpcode : Nat) : Proc Unit := do
  store16 .params AcdsHdrReq.mainOpcode acdMainOpcode
  store16 .params AcdsHdrReq.subOpcode subOpcode

/-- `lock_customer_data` and `wipe_customer_data` up to the size of the request and its
opcode. -/
def lockCommand (x : Exchange) (paramsSize subOpcode : Nat) : Proc Int := do
  let ptrHandle ← openAcd x.connect
  let ret ← transact x ptrHandle paramsSize AcdStatusToHost.size (setHdrReq subOpcode)
  -- this way out leaves the connection open
  exitIf (ret ≠ acdLockSuccess) (int32 ret)
  let acdStatus ← load .resp AcdStatusToHost.acdStatus
  -- the status of the firmware is printed with the reply and otherwise ignored
  onlyIf (acdStatus ≠ acdLockSuccess) (expose .resp AcdStatusToHost.size)
  closeAcd ptrHandle
  pure (int32 (uint32 (acdLockSuccess - ret)))

/-- `lock_customer_data`. -/
def lockCustomerData (x : Exchange) : Proc Int :=
  lockCommand x acdLockCmdFromHostSize opcodeAcdLock

/-- `wipe_customer_data`, which is compiled in under `ACD_WIPE_TEST` only. -/
def wipeCustomerData (x : Exchange) : Proc Int :=
  lockCommand x acdGenericCmdFromHostSize opcodeAcdWipe

/-- The arguments of `set_customer_data`; `pvAdcFieldData` tells whether the pointer is
non-null, and the bytes it points to are the block `fieldData`. -/
structure WriteArgs where
  uiFieldIndex : UInt8
  fieldSize : UInt16
  fieldMaxSize : UInt16
  pvAdcFieldData : Bool
  deriving DecidableEq, Repr

/-- The sanity checks of `set_customer_data`. -/
def checkWriteArgs (a : WriteArgs) : Proc Unit := do
  exitIf (a.uiFieldIndex.toNat < acdMinFieldIndex ∨ acdMaxFieldIndex < a.uiFieldIndex.toNat)
    acdWriteErrorIllegalParameter
  exitIf (a.fieldSize.toNat = acdMinDataSizeInBytes ∨ acdMaxDataSizeInBytes < a.fieldSize.toNat)
    acdWriteErrorIllegalParameter
  exitIf (a.fieldMaxSize.toNat = acdMinDataSizeInBytes ∨
    acdMaxDataSizeInBytes < a.fieldMaxSize.toNat) acdWriteErrorIllegalParameter
  exitIf (a.fieldMaxSize.toNat < a.fieldSize.toNat) acdWriteErrorDataSizeTooLarge
  exitIf (a.pvAdcFieldData = false) acdWriteErrorIllegalParameter

/-- The request of `set_customer_data`. -/
def setWriteParams (a : WriteArgs) : Proc Unit := do
  setHdrReq opcodeAcdWrite
  store .params AcdWriteCmdFromHost.index a.uiFieldIndex.toNat
  store .params AcdWriteCmdFromHost.actualSize a.fieldSize.toNat
  store .params AcdWriteCmdFromHost.maxSize a.fieldMaxSize.toNat
  memcpy .params AcdWriteCmdFromHost.buf .fieldData 0 a.fieldSize.toNat

/-- `set_customer_data`. -/
def setCustomerData (x : Exchange) (a : WriteArgs) : Proc Int := do
  checkWriteArgs a
  let ptrHandle ← openAcd x.connect
  let ret ← transact x ptrHandle AcdWriteCmdFromHost.size AcdStatusToHost.size (setWriteParams a)
  exitIf (ret ≠ acdWriteSuccess) (int32 (uint32 (acdWriteSuccess - ret)))
  let ret ← load .resp AcdStatusToHost.acdStatus
  -- this way out reads the reply once more to print it, and leaves the connection open
  onlyIf (ret ≠ acdWriteSuccess) (expose .resp AcdStatusToHost.size)
  exitIf (ret ≠ acdWriteSuccess) (int32 (uint32 (acdWriteSuccess - ret)))
  closeAcd ptrHandle
  pure a.fieldSize.toNat

end Txei.Acd

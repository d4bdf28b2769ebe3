import Txei.Acd.Commands

/-!
# Customer data commands that return data

`get_customer_data` and `provision_customer_data` of `umip_access.c`. The firmware answers both
with an `acd_read_cmd_to_host`, whose data goes to the caller in a buffer allocated for it. The
address that `calloc` returns is an argument here, 0 if it fails. Behind the opened connection the
first function leaves through the label `exit` alone, the second one by a `return` at each test.
-/

namespace Txei.Acd

open Machine Machine.Prog Mei Tee

/-! ## Layouts and codes -/

namespace AcdReadCmdFromHost

@[simp] abbrev index : Nat := 4
@[simp] abbrev size : Nat := 8

end AcdReadCmdFromHost

namespace AcdReadCmdToHost

@[simp] abbrev bytesRead : Nat := 8
@[simp] abbrev acdStatus : Nat := 12
@[simp] abbrev buf : Nat := 16
@[simp] abbrev size : Nat := 528

end AcdReadCmdToHost

/-- `OPCODE_IA2CHAABI_ACD_READ`. -/
def opcodeAcdRead : Nat := 1

/-- `OPCODE_IA2CHAABI_ACD_PROV`. -/
def opcodeAcdProv : Nat := 5

/-- `ACD_READ_SUCCESS`. -/
@[simp] abbrev acdReadSuccess : Nat := 0

/-- `ACD_PROV_SUCCESS`. -/
@[simp] abbrev acdProvSuccess : Nat := 0

/-- `ACD_READ_ERROR_ILLEGAL_INPUT_PARAMETER`. -/
def acdReadErrorIllegalInputParameter : Int := 0x30000001

/-- `ACD_READ_ERROR_UMIP_READ_FAILURE`. -/
def acdReadErrorUmipReadFailure : Int := 0x30000004

/-- `ACD_READ_SECURE_DATA_PROVISIONED_AND_WRITE_ONLY`. -/
@[simp] abbrev acdReadSecureDataProvisionedAndWriteOnly : Nat := 0x30000007

/-- `ACD_PROV_ERROR_ILLEGAL_PARAMETER`. -/
def acdProvErrorIllegalParameter : Int := 0x40000001

/-- `ACD_PROV_ERROR_RETURN_DATA_MEM_ALLOC_FAIL`. -/
def acdProvErrorReturnDataMemAllocFail : Int := 0x40000003

/-! ## The functions -/

/-- Store the address of the allocated buffer through the caller's pointer. -/
def storeOutData (address : UInt64) : Proc Unit := put .outData 0 8 (byteAt address.toNat)

/-- `calloc` of `size` bytes and the copy of the data of the reply. -/
def copyOutData (size : Nat) : Proc Unit := do
  memset .outBuffer 0 0 size
  memcpy .outBuffer 0 .resp AcdReadCmdToHost.buf size

/-- The arguments of `get_customer_data`; `pvAdcFieldData` tells whether the pointer is
non-null. -/
structure ReadArgs where
  uiFieldIndex : UInt8
  pvAdcFieldData : Bool
  deriving DecidableEq, Repr

/-- The request of `get_customer_data`. -/
def setReadParams (a : ReadArgs) : Proc Unit := do
  setHdrReq opcodeAcdRead
  store .params AcdReadCmdFromHost.index a.uiFieldIndex.toNat

/-- `get_customer_data` from the opened connection to the label `exit`. It leaves with the value
of `ret` there. -/
def readField (x : Exchange) (calloc : UInt64) (a : ReadArgs) (ptrHandle : Option Int) :
    Proc Int := do
  exitIf (¬ (acdMinFieldIndex ≤ a.uiFieldIndex.toNat ∧ a.uiFieldIndex.toNat ≤ acdMaxFieldIndex))
    acdReadErrorIllegalInputParameter
  exitIf (a.pvAdcFieldData = false) acdReadErrorIllegalInputParameter
  let ret ← transact x ptrHandle AcdReadCmdFromHost.size AcdReadCmdToHost.size (setReadParams a)
  exitIf (ret ≠ acdReadSuccess) (int32 (uint32 (acdReadSuccess - ret)))
  let ret ← load .resp AcdReadCmdToHost.acdStatus
  onlyIf (ret ≠ acdReadSuccess ∧ ret ≠ acdReadSecureDataProvisionedAndWriteOnly)
    (expose .resp AcdReadCmdToHost.size)
  exitIf (ret ≠ acdReadSuccess ∧ ret ≠ acdReadSecureDataProvisionedAndWriteOnly)
    (int32 (uint32 (acdReadSuccess - ret)))
  let returnedSize ← load16 .resp AcdReadCmdToHost.bytesRead
  storeOutData calloc
  exitIf (calloc = 0) acdReadErrorUmipReadFailure
  copyOutData returnedSize
  pure (int32 returnedSize)

/-- `get_customer_data`. -/
def getCustomerData (x : Exchange) (calloc : UInt64) (a : ReadArgs) : Proc Int := do
  let (result, ptrHandle) ← acdInit x.connect
  let ret ← if uint32 result = 0 ∧ ptrHandle ≠ none then returned (readField x calloc a ptrHandle)
    else pure (int32 (uint32 result))
  closeAcd ptrHandle
  pure ret

/-- The arguments of `provision_customer_data`. The three pointers are given by whether they are
non-null; the bytes of `pInData` are the block `fieldData`. -/
structure ProvisionArgs where
  provisionSchema : UInt32
  inDataSize : UInt32
  pInData : Bool
  pOutDataSize : Bool
  pOutData : Bool
  deriving DecidableEq, Repr

/-- The sanity checks of `provision_customer_data`. -/
def checkProvisionArgs (a : ProvisionArgs) : Proc Unit := do
  exitIf (a.inDataSize.toNat = acdMinDataSizeInBytes ∨
    acdMaxDataSizeInBytes < a.inDataSize.toNat) acdProvErrorIllegalParameter
  exitIf (a.pInData = false) acdProvErrorIllegalParameter
  exitIf (a.pOutDataSize = false) acdProvErrorIllegalParameter
  exitIf (a.pOutData = false ∧ a.provisionSchema.toNat = 0) acdProvErrorIllegalParameter

/-- The request of `provision_customer_data`. -/
def setProvisionParams (a : ProvisionArgs) : Proc Unit := do
  setHdrReq opcodeAcdProv
  store .params AcdWriteCmdFromHost.index a.provisionSchema.toNat
  store .params AcdWriteCmdFromHost.actualSize a.inDataSize.toNat
  store .params AcdWriteCmdFromHost.maxSize a.inDataSize.toNat
  memcpy .params AcdWriteCmdFromHost.buf .fieldData 0 a.inDataSize.toNat

/-- The two branches that hand the data of a successful reply over. Both ways out of the second
one leave the connection open. -/
def handOver (calloc : UInt64) (a : ProvisionArgs) : Proc Unit := do
  let returnDataSizeInBytes ← load16 .resp AcdReadCmdToHost.bytesRead
  if returnDataSizeInBytes = acdMinDataSizeInBytes then do
    store .outDataSize 0 returnDataSizeInBytes
    onlyIf (a.pOutData = true) (storeOutData 0)
  else do
    exitIf (a.pOutData = false) acdProvErrorIllegalParameter
    storeOutData calloc
    onlyIf (calloc = 0) (store .outDataSize 0 acdMinDataSizeInBytes)
    exitIf (calloc = 0) acdProvErrorReturnDataMemAllocFail
    copyOutData returnDataSizeInBytes
    store .outDataSize 0 returnDataSizeInBytes

/-- `provision_customer_data`. -/
def provisionCustomerData (x : Exchange) (calloc : UInt64) (a : ProvisionArgs) : Proc Int := do
  checkProvisionArgs a
  let ptrHandle ← openAcd x.connect
  let ret ← transact x ptrHandle AcdWriteCmdFromHost.size AcdReadCmdToHost.size
    (setProvisionParams a)
  exitIf (ret ≠ acdProvSuccess) (int32 (uint32 (acdProvSuccess - ret)))
  let ret ← load .resp AcdReadCmdToHost.acdStatus
  exitIf (ret ≠ acdProvSuccess) (int32 (uint32 (acdProvSuccess - ret)))
  handOver calloc a
  closeAcd ptrHandle
  pure acdProvSuccess

end Txei.Acd

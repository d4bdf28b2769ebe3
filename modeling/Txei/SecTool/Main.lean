import Txei.SecTool.Files

/-!
# The customer data commands of the security tool

`provision_android_customer_data` and the cases `-acd-read`, `-acd-write`, `-acd-prov` and
`-acd-lock` of `main` in `sec_tools_app.c`. A command comes with what `atoi` makes of its numbers
and with its files; how `getopt_long_only` finds them among the words of the command line is left
out, and so is the freeing of buffers at the end. The library runs as the code of `umip_access.c`
does, on one exchange with the device.
-/

namespace Txei.SecTool

open Machine Machine.Prog Mei Acd

/-- `ACD_MIN_PROVISIONNG_SCHEMA`. -/
@[simp] abbrev acdMinProvisionngSchema : Int := 0

/-- `ACD_MAX_PROVISIONNG_SCHEMA` of a build without `EPID_ENABLED`. -/
@[simp] abbrev acdMaxProvisionngSchema : Int := 1

/-- The function of `umip_access.c` that an operation calls. -/
def Operation.function (x : Exchange) (calloc : UInt64) : Operation → Proc Int
  | .getCustomerData a => Acd.getCustomerData x calloc a
  | .setCustomerData a => Acd.setCustomerData x a
  | .lockCustomerData => Acd.lockCustomerData x
  | .provisionCustomerData a => Acd.provisionCustomerData x calloc a

/-- Set the pointer to the returned data to `NULL`. -/
def clearOutData : Tool Unit := put .outData 0 8 fun _ => 0

/-- Test the pointer to the returned data. -/
def outDataNonNull : Tool Bool := do
  let low ← load .outData 0
  let high ← load .outData 4
  pure (low ≠ 0 ∨ high ≠ 0)

/-- Call the library. -/
def invoke (x : Exchange) (calloc : UInt64) (op : Operation) : Tool Int := do
  let value ← returned (hideCalls (op.function x calloc))
  let outData ← outDataNonNull
  let outDataSize ← load .outDataSize 0
  call (.library op ⟨value, outData, outDataSize⟩)
  pure value

/-- `provision_android_customer_data`. The status it ends with is that of the last function it
called. -/
def provisionAndroidCustomerData (x : Exchange) (calloc : UInt64) (provisioningSchema : Int)
    (inputFilename : Option InputFile) (outputFilename : Option OutputFile) :
    Tool Int := returned do
  exitIf (inputFilename.isNone) exitFailure
  exitIf (outputFilename.isNone) exitFailure
  store .outDataSize 0 0
  clearOutData
  let input ← readDataFromFile inputFilename
  exitIf (input.result = exitFailure) input.result
  -- the status is still that of the file, which was read
  exitIf (input.dataSizeInBytes = 0 ∨ acdMaxDataSizeInBytes < input.dataSizeInBytes) input.result
  let status ← invoke x calloc (.provisionCustomerData ⟨UInt32.ofInt provisioningSchema,
    UInt32.ofNat input.dataSizeInBytes, input.dataBuffer, true, true⟩)
  exitIf (status ≠ acdProvSuccess) status
  let provReturnDataSizeInBytes ← load .outDataSize 0
  onlyIf (0 < provReturnDataSizeInBytes) do
    let pProvOutputData ← outDataNonNull
    let status ← writeDataToFile outputFilename pProvOutputData provReturnDataSizeInBytes
    exitIf (status = exitFailure) status
  pure acdProvSuccess

/-- The range check of `-acd-read` and `-acd-write`, on the index in a `uint8_t`. -/
def checkIndex (acdIndex : UInt8) : Tool Unit :=
  exitIf (acdIndex.toNat < acdMinFieldIndex ∨ acdMaxFieldIndex < acdIndex.toNat) exitFailure

/-- The case `DO_ACD_READ`. -/
def doAcdRead (x : Exchange) (calloc : UInt64) (index : Int)
    (outputFilename : Option OutputFile) : Tool Int := do
  let acdIndex := UInt8.ofInt index
  checkIndex acdIndex
  clearOutData
  let result ← invoke x calloc (.getCustomerData ⟨acdIndex, true⟩)
  exitIf (result < 0) exitFailure
  let pDataBuffer ← outDataNonNull
  -- this result is overwritten
  let _ ← writeDataToFile outputFilename pDataBuffer (uint32 result)
  pure exitSuccess

/-- The case `DO_ACD_WRITE`. -/
def doAcdWrite (x : Exchange) (calloc : UInt64) (index size maxSize : Int)
    (inputFilename : Option InputFile) : Tool Int := do
  let acdIndex := UInt8.ofInt index
  checkIndex acdIndex
  let dataSize := UInt16.ofInt size
  exitIf (acdMaxDataSizeInBytes < dataSize.toNat) exitFailure
  let dataMaxSize := UInt16.ofInt maxSize
  exitIf (acdMaxDataSizeInBytes < dataMaxSize.toNat) exitFailure
  exitIf (dataMaxSize.toNat < dataSize.toNat) exitFailure
  let input ← readDataFromFile inputFilename
  exitIf (input.result = exitFailure) exitFailure
  exitIf (input.dataSizeInBytes ≠ dataSize.toNat) exitFailure
  let result ← invoke x calloc
    (.setCustomerData ⟨acdIndex, dataSize, dataMaxSize, input.dataBuffer⟩)
  exitIf (result < 0) exitFailure
  pure exitSuccess

/-- The case `DO_ACD_LOCK`. -/
def doAcdLock (x : Exchange) (calloc : UInt64) : Tool Int := do
  let result ← invoke x calloc .lockCustomerData
  exitIf (result < 0) exitFailure
  pure exitSuccess

/-- The case `DO_ACD_PROV`. -/
def doAcdProv (x : Exchange) (calloc : UInt64) (provisioningSchema : Int)
    (inputFilename : Option InputFile) (outputFilename : Option OutputFile) : Tool Int := do
  exitIf (provisioningSchema < acdMinProvisionngSchema ∨
    acdMaxProvisionngSchema < provisioningSchema) exitFailure
  provisionAndroidCustomerData x calloc provisioningSchema inputFilename outputFilename

/-- A customer data command with its arguments. -/
inductive Command where
  | acdRead (index : Int) (outputFilename : Option OutputFile)
  | acdWrite (index size maxSize : Int) (inputFilename : Option InputFile)
  | acdProv (provisioningSchema : Int) (inputFilename : Option InputFile)
      (outputFilename : Option OutputFile)
  | acdLock
  deriving DecidableEq, Repr

/-- `main` on a customer data command. Its value is what it returns to the system. -/
def main (x : Exchange) (calloc : UInt64) : Command → Tool Int
  | .acdRead index outputFilename => doAcdRead x calloc index outputFilename
  | .acdWrite index size maxSize inputFilename =>
      doAcdWrite x calloc index size maxSize inputFilename
  | .acdProv provisioningSchema inputFilename outputFilename =>
      doAcdProv x calloc provisioningSchema inputFilename outputFilename
  | .acdLock => doAcdLock x calloc

end Txei.SecTool

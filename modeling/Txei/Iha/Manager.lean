import Mathlib.Logic.Function.Basic
import Txei.Iha.Service

/-!
# The client's IHA manager

`IHAManager` checks the arguments of an operation, passes it on to the service, and asks with
`IHAGetLastError` how it went. Its own static `IHAManagerError` holds the code of an argument
error, and also what the last query of the service returned.

Every operation has the same four parts, so it is an `Operation`: the argument checks, the
request to the service, the failure message of the query, and what follows the query. The remote
calls themselves never fail here.
-/

namespace Txei.Iha.IHAManager

open ISEPServiceImpl

/-- A Java string, as its UTF-16 units. -/
abbrev JString : Type := List UInt16

/-- A reference to one of the client's `short` arrays. -/
abbrev Ref : Type := Nat

/-- What a call can throw. -/
inductive Thrown where
  | ihaException (message : String) (code : Int32)
  | runtimeException (message : String)
  | nullPointerException
  deriving DecidableEq, Repr

/-- The static `IHAManagerError`, the service, and the client's `short` arrays. -/
structure State where
  ihaManagerError : Int32
  service : Service
  arrays : Ref → List Int16

/-- A method of the manager. -/
abbrev M (α : Type) : Type := ExceptT Thrown (StateM State) α

/-- `INVALID_INPUT`. -/
def invalidInput : Int32 := 13

/-- `MAX_APPNAME_LENGTH`. -/
def maxAppnameLength : Nat := 300

/-- `MAX_SEND_RECV_DATA_LENGTH`. -/
def maxSendRecvDataLength : Nat := 5000

/-- `MAX_ENCR_TOKEN_LENGTH`. -/
def maxEncrTokenLength : Nat := 300

/-- `MAX_SRC_FILE_LENGTH`. -/
def maxSrcFileLength : Nat := 300

/-- `MAX_GET_CAPS_STRING_LENGTH`. -/
def maxGetCapsStringLength : Nat := 300

/-- `MAX_SVP_MESSAGE_LENGTH`. -/
def maxSvpMessageLength : Nat := 5000

/-! ## Argument checks -/

/-- An argument error. -/
def refuse (message : String) : M Unit := do
  modify fun s => { s with ihaManagerError := invalidInput }
  throw (.runtimeException message)

/-- Refuse a negative `short`. -/
def checkNonneg (v : Int16) (message : String) : M Unit :=
  if v < 0 then refuse message else pure ()

/-- Refuse an empty string or array, and one that is longer than `max`. -/
def checkLength {α : Type} (x : Option (List α)) (max : Nat) (message : String) : M Unit :=
  match x with
  | none => throw .nullPointerException
  | some x => if x.length = 0 ∨ max < x.length then refuse message else pure ()

/-- The first use of a reference. -/
def deref (x : Option Ref) : M Ref :=
  match x with
  | none => throw .nullPointerException
  | some r => pure r

/-- `checkLength` for one of the client's `short` arrays. -/
def checkArray (x : Option Ref) (max : Nat) (message : String) : M Ref := do
  let r ← deref x
  let sa := (← get).arrays r
  if sa.length = 0 ∨ max < sa.length then refuse message
  pure r

/-! ## Requests and queries -/

/-- A remote call. -/
def remote {α : Type} (f : ServiceM α) : M α := do
  let s ← get
  let (value, service) := f.run s.service
  set { s with service := service }
  pure value

/-- The `int` array that stands for the client's array, as AIDL has no `short`. -/
def toInts (r : Ref) : M (List Int32) := do
  pure (((← get).arrays r).map Int16.toInt32)

/-- Copy an `int` array back into the client's array. -/
def copyBack (r : Ref) (ia : List Int32) : M Unit :=
  modify fun s => { s with arrays := Function.update s.arrays r (ia.map Int32.toInt16) }

/-- `IHAGetLastError`. -/
def ihaGetLastError : M Int32 := do
  let s ← get
  if s.ihaManagerError ≠ ihaRetSOk then
    set { s with ihaManagerError := ihaRetSOk }
    pure s.ihaManagerError
  else
    let error ← remote ISEPServiceImpl.ihaGetLastError
    modify fun s => { s with ihaManagerError := error }
    pure error

/-- The query that follows a request. -/
def query (message : String) : M Unit := do
  let err ← ihaGetLastError
  if err ≠ ihaRetSOk then throw (.ihaException message err)

/-! ## The operations -/

/-- An operation of the manager. `Checked` is what the checks hand on, `Reply` what the request
hands on. -/
structure Operation where
  {Checked Reply : Type}
  checks : M Checked
  request : Checked → M Reply
  message : String
  finish : Checked → Reply → M Value

/-- How an operation runs. -/
def Operation.run (o : Operation) : M Value := do
  let checked ← o.checks
  let reply ← o.request checked
  query o.message
  o.finish checked reply

/-- An operation without length arrays. -/
def plain (checks : M Unit) (service : ServiceM Value) (message : String) : Operation where
  checks := checks
  request _ := remote service
  message := message
  finish _ value := pure value

/-- An operation with an `inout` length array, which is copied back before the query. -/
def inout (checks : M Ref) (service : List Int32 → ServiceM (Value × List Int32))
    (message : String) : Operation where
  checks := checks
  request r := do
    let ia ← toInts r
    let (value, ia) ← remote (service ia)
    copyBack r ia
    pure value
  message := message
  finish _ value := pure value

/-- `IHAStartProvisioning`. -/
def ihaStartProvisioning (strAppName : Option JString) (native : Native Int32) : Operation :=
  plain (checkLength strAppName maxAppnameLength "Invalid App Name argument")
    (ISEPServiceImpl.ihaStartProvisioning native) "IHAStartProvisioning failed"

/-- `IHAEndProvisioning`. -/
def ihaEndProvisioning (strAppName : Option JString) (saExpectedTokenLen : Option Ref)
    (native : LengthsCall) : Operation :=
  inout (do
      checkLength strAppName maxAppnameLength "Invalid App Name argument"
      checkArray saExpectedTokenLen maxEncrTokenLength
        "Invalid ExpectedTokenLenApp array length")
    (ISEPServiceImpl.ihaEndProvisioning native) "IHAEndProvisioning failed"

/-- `IHASendData`. -/
def ihaSendData (strAppName : Option JString) (sDataType : Int16) (baInData : Bytes)
    (native : Native Unit) : Operation :=
  plain (do
      checkLength strAppName maxAppnameLength "Invalid App Name argument"
      checkNonneg sDataType "Invalid DataType value"
      checkLength baInData maxSendRecvDataLength "Invalid InData array length")
    (ISEPServiceImpl.ihaSendData native) "IHASendData Failed"

/-- `IHAReceiveData`. Its array is an `in` parameter of the service, so what is copied back is
what was passed. -/
def ihaReceiveData (strAppName : Option JString) (sDataType : Int16)
    (saExpectedDataLen : Option Ref) (native : LengthsCall) : Operation where
  checks := do
    checkLength strAppName maxAppnameLength "Invalid App Name argument"
    checkNonneg sDataType "Invalid DataType value"
    checkArray saExpectedDataLen maxSendRecvDataLength "Invalid ExpectedDataLen array length"
  request r := do
    let ia ← toInts r
    let (value, _) ← remote (ISEPServiceImpl.ihaReceiveData native ia)
    copyBack r ia
    pure value
  message := "IHAReceiveData Failed"
  finish _ value := pure value

/-- `IHAProcessSVPMessage`. -/
def ihaProcessSVPMessage (strAppName : Option JString) (baInData : Bytes)
    (native : Native Unit) : Operation :=
  plain (do
      checkLength strAppName maxAppnameLength "Invalid App Name argument"
      checkLength baInData maxSvpMessageLength "Invalid InData array length")
    (ISEPServiceImpl.ihaProcessSVPMessage native) "IHAProcessSVPMessage failed"

/-- `IHAGetSVPMessage`. -/
def ihaGetSVPMessage (strAppName : Option JString) (saExpectedDataLen : Option Ref)
    (native : LengthsCall) : Operation :=
  inout (do
      checkLength strAppName maxAppnameLength "Invalid App Name argument"
      checkArray saExpectedDataLen maxSvpMessageLength "Invalid ExpectedDataLen array length")
    (ISEPServiceImpl.ihaGetSVPMessage native) "IHAGetSVPMessage Failed"

/-- `IHASendAndReceiveData`. Only here the array is copied back behind the query. -/
def ihaSendAndReceiveData (strAppName : Option JString) (sDataType : Int16) (baInData : Bytes)
    (saExpectedOutDataLen : Option Ref) (native : LengthsCall) : Operation where
  checks := do
    checkLength strAppName maxAppnameLength "Invalid App Name argument"
    checkNonneg sDataType "Invalid DataType value"
    checkLength baInData maxSendRecvDataLength "Invalid InData array length"
    checkArray saExpectedOutDataLen maxSendRecvDataLength
      "Invalid ExpectedOutDataLen array length"
  request r := do
    let ia ← toInts r
    remote (ISEPServiceImpl.ihaSendAndReceiveData native ia)
  message := "IHASendAndReceiveData Failed"
  finish r reply := do
    copyBack r reply.2
    pure reply.1

/-- `IHAGetCapabilities`. -/
def ihaGetCapabilities (strAppName : Option JString) (sType : Int16)
    (saExpectedDataLen : Option Ref) (native : LengthsCall) : Operation :=
  inout (do
      checkLength strAppName maxAppnameLength "Invalid App Name argument"
      checkNonneg sType "Invalid Type value"
      checkArray saExpectedDataLen maxGetCapsStringLength
        "Invalid ExpectedDataLen array length")
    (ISEPServiceImpl.ihaGetCapabilities native) "IHAGetCapabilities failed"

/-- `IHAGetVersion`. -/
def ihaGetVersion (native : Native Int32) : Operation :=
  plain (pure ()) (ISEPServiceImpl.ihaGetVersion native) "IHAGetVersion failed"

/-- `IHAInstall`. -/
def ihaInstall (strAppName strSrcFile : Option JString) (native : Native Unit) : Operation :=
  plain (do
      checkLength strAppName maxAppnameLength "Invalid App Name argument"
      checkLength strSrcFile maxSrcFileLength "Invalid Source File Name argument")
    (ISEPServiceImpl.ihaInstall native) "IHAInstall failed"

/-- `IHAUninstall`. -/
def ihaUninstall (strAppName : Option JString) (native : Native Unit) : Operation :=
  plain (checkLength strAppName maxAppnameLength "Invalid App Name argument")
    (ISEPServiceImpl.ihaUninstall native) "IHAUninstall failed"

/-- `IHADoFWUpdate`. -/
def ihaDoFWUpdate (native : Native Unit) : Operation :=
  plain (pure ()) (ISEPServiceImpl.ihaDoFWUpdate native) "IHADoFWUpdate failed"

/-- `IHAGetOTP`. The lengths of its two arrays are not checked. -/
def ihaGetOTP (strAppName : Option JString)
    (saExpectedOtpLength saExpectedEncTokenLength : Option Ref) (native : OtpCall) :
    Operation where
  checks := do
    checkLength strAppName maxAppnameLength "Invalid App Name argument"
    let otp ← deref saExpectedOtpLength
    let encToken ← deref saExpectedEncTokenLength
    pure (otp, encToken)
  request r := do
    let iaExpectedOtpLength ← toInts r.1
    let iaExpectedEncTokenLen ← toInts r.2
    let (value, iaExpectedOtpLength, iaExpectedEncTokenLen) ←
      remote (ISEPServiceImpl.ihaGetOTP native iaExpectedOtpLength iaExpectedEncTokenLen)
    copyBack r.1 iaExpectedOtpLength
    copyBack r.2 iaExpectedEncTokenLen
    pure value
  message := "IHAGetOTP failed"
  finish _ value := pure value

/-- `IHAGetOTPSStatus`. -/
def ihaGetOTPSStatus (strAppName : Option JString) (sType : Int16) (native : Native Int32) :
    Operation :=
  plain (do
      checkLength strAppName maxAppnameLength "Invalid App Name argument"
      checkNonneg sType "Invalid DataType value")
    (ISEPServiceImpl.ihaGetOTPSStatus native) "IHAGetOTPSStatus failed"

/-- `IHAGetOTPCapabilities`. -/
def ihaGetOTPCapabilities (strAppName : Option JString) (sType : Int16)
    (saExpectedDataLen : Option Ref) (native : LengthsCall) : Operation :=
  inout (do
      checkLength strAppName maxAppnameLength "Invalid App Name argument"
      checkNonneg sType "Invalid DataType value"
      checkArray saExpectedDataLen maxGetCapsStringLength
        "Invalid ExpectedDataLen array length")
    (ISEPServiceImpl.ihaGetOTPCapabilities native) "IHAGetOTPCapabilities failed"

/-- `IHAInstallOTPS`. -/
def ihaInstallOTPS (strAppName strSrcFile : Option JString) (native : Native Unit) :
    Operation :=
  plain (do
      checkLength strAppName maxAppnameLength "Invalid App Name argument"
      checkLength strSrcFile maxSrcFileLength "Invalid Source File Name argument")
    (ISEPServiceImpl.ihaInstallOTPS native) "IHAInstallOTPS failed"

/-- `IHAUninstallOTPS`. -/
def ihaUninstallOTPS (strAppName : Option JString) (native : Native Unit) : Operation :=
  plain (checkLength strAppName maxAppnameLength "Invalid App Name argument")
    (ISEPServiceImpl.ihaUninstallOTPS native) "IHAUninstallOTPS failed"

/-- `IHA_GetAppInstId`. -/
def ihaGetAppInstId (strAppName : Option JString) (native : Native Int64) : Operation :=
  plain (checkLength strAppName maxAppnameLength "Invalid App Name argument")
    (ISEPServiceImpl.ihaGetAppInstId native) "IHA_GetAppInstId failed"

/-! ## The calls that do not query -/

/-- `IHAInit`. -/
def ihaInit (native : Native Unit) : M Value := do
  modify fun s => { s with ihaManagerError := ihaRetSOk }
  remote (ISEPServiceImpl.ihaInit native)

/-- `IHADeInit`. -/
def ihaDeInit (native : Native Unit) : M Value := remote (ISEPServiceImpl.ihaDeInit native)

end Txei.Iha.IHAManager

import Mathlib.Tactic.Common

/-!
# The IHA operations of the service

`ISEPServiceImpl` runs each IHA operation of the native library for its clients. When the library
throws, the operation leaves the code in the static variable `IHAError` and returns a stand-in
value; `IHAGetLastError` returns that variable and clears it.

What the native library does in a call is a parameter of the call. Arguments that are only
handed through to it are left out.
-/

namespace Txei.Iha

/-- The code of an `IhaJniException`, which is never `IHA_RET_S_OK`. -/
structure ErrorCode where
  code : Int32
  nonzero : code ≠ 0
  deriving DecidableEq

/-- A Java byte array, or null. -/
abbrev Bytes : Type := Option (List UInt8)

/-- What an operation returns. -/
inductive Value where
  | void
  | int (n : Int32)
  | long (n : Int64)
  | bytes (b : Bytes)
  deriving DecidableEq

/-- `IHA_RET_S_OK`. -/
@[simp] abbrev ihaRetSOk : Int32 := 0

/-- The outcome of a native operation: its value, or the exception it throws. -/
abbrev Native (α : Type) : Type := Except ErrorCode α

/-- The code with which a native operation fails, 0 if it succeeds. -/
def Native.code {α : Type} : Native α → Int32
  | .ok _ => 0
  | .error e => e.code

/-- What a native operation stores into the elements of a length array. -/
abbrev Stores : Type := Nat → Option Int16

/-- The length array after the native operation. -/
def Stores.apply (w : Stores) (sa : List Int16) : List Int16 := sa.mapIdx fun i x => (w i).getD x

/-- A call of a native operation with a length array. -/
structure LengthsCall where
  result : Native Bytes
  stores : Stores

/-- A call of the native `IHAGetOTP`, which has two length arrays. -/
structure OtpCall where
  result : Native Bytes
  otpStores : Stores
  encTokenStores : Stores

namespace ISEPServiceImpl

/-- The static state of the service. -/
structure Service where
  ihaError : Int32
  deriving DecidableEq

/-- A method of the service. -/
abbrev ServiceM (α : Type) : Type := StateM Service α

/-- `SetLastError`. -/
def setLastError (e : ErrorCode) : ServiceM Unit := set { ihaError := e.code : Service }

/-- `IHAGetLastError`. -/
def ihaGetLastError : ServiceM Int32 := do
  let error := (← get).ihaError
  set { ihaError := ihaRetSOk : Service }
  pure error

/-- An operation without length arrays: it returns `failed` when the library throws. -/
def invoke (failed : Value) (native : Native Value) : ServiceM Value :=
  match native with
  | .ok value => pure value
  | .error e => do
      setLastError e
      pure failed

/-- An operation with a length array, which is converted to `short` for the library and back. It
returns null when the library throws, and then nothing is copied back. -/
def invokeLengths (native : LengthsCall) (ia : List Int32) : ServiceM (Value × List Int32) := do
  let sa := ia.map Int32.toInt16
  match native.result with
  | .ok value => pure (.bytes value, (native.stores.apply sa).map Int16.toInt32)
  | .error e =>
      setLastError e
      pure (.bytes none, ia)

/-! ## The operations -/

/-- `IHAInit`. -/
def ihaInit (native : Native Unit) : ServiceM Value := invoke .void (native.map fun _ => .void)

/-- `IHADeInit`. -/
def ihaDeInit (native : Native Unit) : ServiceM Value := invoke .void (native.map fun _ => .void)

/-- `IHAStartProvisioning`. -/
def ihaStartProvisioning (native : Native Int32) : ServiceM Value :=
  invoke (.int (-1)) (native.map .int)

/-- `IHAEndProvisioning`. Its log line reads element 0, which every client has checked to exist. -/
def ihaEndProvisioning (native : LengthsCall) (iaExpectedTokenLen : List Int32) :
    ServiceM (Value × List Int32) :=
  invokeLengths native iaExpectedTokenLen

/-- `IHASendData`. -/
def ihaSendData (native : Native Unit) : ServiceM Value :=
  invoke .void (native.map fun _ => .void)

/-- `IHAReceiveData`. -/
def ihaReceiveData (native : LengthsCall) (iaExpectedDataLen : List Int32) :
    ServiceM (Value × List Int32) :=
  invokeLengths native iaExpectedDataLen

/-- `IHAProcessSVPMessage`. -/
def ihaProcessSVPMessage (native : Native Unit) : ServiceM Value :=
  invoke .void (native.map fun _ => .void)

/-- `IHAGetSVPMessage`. -/
def ihaGetSVPMessage (native : LengthsCall) (iaExpectedDataLen : List Int32) :
    ServiceM (Value × List Int32) :=
  invokeLengths native iaExpectedDataLen

/-- `IHASendAndReceiveData`. -/
def ihaSendAndReceiveData (native : LengthsCall) (iaExpectedOutDataLen : List Int32) :
    ServiceM (Value × List Int32) :=
  invokeLengths native iaExpectedOutDataLen

/-- `IHAGetCapabilities`. -/
def ihaGetCapabilities (native : LengthsCall) (iaExpectedDataLen : List Int32) :
    ServiceM (Value × List Int32) :=
  invokeLengths native iaExpectedDataLen

/-- `IHAGetVersion`. -/
def ihaGetVersion (native : Native Int32) : ServiceM Value :=
  invoke (.int (-1)) (native.map .int)

/-- `IHAInstall`. -/
def ihaInstall (native : Native Unit) : ServiceM Value :=
  invoke .void (native.map fun _ => .void)

/-- `IHAUninstall`. -/
def ihaUninstall (native : Native Unit) : ServiceM Value :=
  invoke .void (native.map fun _ => .void)

/-- `IHADoFWUpdate`. -/
def ihaDoFWUpdate (native : Native Unit) : ServiceM Value :=
  invoke .void (native.map fun _ => .void)

/-- `IHAGetOTP`, whose two length arrays are treated alike. -/
def ihaGetOTP (native : OtpCall) (iaExpectedOtpLength iaExpectedEncTokenLength : List Int32) :
    ServiceM (Value × List Int32 × List Int32) := do
  let saExpectedOtpLength := iaExpectedOtpLength.map Int32.toInt16
  let saExpectedEncTokenLen := iaExpectedEncTokenLength.map Int32.toInt16
  match native.result with
  | .ok value =>
      pure (.bytes value, (native.otpStores.apply saExpectedOtpLength).map Int16.toInt32,
        (native.encTokenStores.apply saExpectedEncTokenLen).map Int16.toInt32)
  | .error e =>
      setLastError e
      pure (.bytes none, iaExpectedOtpLength, iaExpectedEncTokenLength)

/-- `IHAGetOTPSStatus`. -/
def ihaGetOTPSStatus (native : Native Int32) : ServiceM Value :=
  invoke (.int (-1)) (native.map .int)

/-- `IHAGetOTPCapabilities`. -/
def ihaGetOTPCapabilities (native : LengthsCall) (iaExpectedDataLen : List Int32) :
    ServiceM (Value × List Int32) :=
  invokeLengths native iaExpectedDataLen

/-- `IHAInstallOTPS`. -/
def ihaInstallOTPS (native : Native Unit) : ServiceM Value :=
  invoke .void (native.map fun _ => .void)

/-- `IHAUninstallOTPS`. -/
def ihaUninstallOTPS (native : Native Unit) : ServiceM Value :=
  invoke .void (native.map fun _ => .void)

/-- `IHA_GetAppInstId`. -/
def ihaGetAppInstId (native : Native Int64) : ServiceM Value :=
  invoke (.long (-1)) (native.map .long)

/-! ## What an operation does to the state -/

/-- The service after an operation whose native operation ends with `code`. -/
def Service.record (s : Service) (code : Int32) : Service := if code = 0 then s else ⟨code⟩

/-- A method records `code`: it stores a failure and leaves the state alone on success. -/
def Records {α : Type} (code : Int32) (x : ServiceM α) : Prop := ∀ s, (x.run s).2 = s.record code

theorem records_invoke {α : Type} (failed : Value) (f : α → Value) (native : Native α) :
    Records native.code (invoke failed (native.map f)) := by
  intro s
  cases native with
  | ok value => rfl
  | error e => exact (if_neg e.nonzero).symm

theorem records_invokeLengths (native : LengthsCall) (ia : List Int32) :
    Records native.result.code (invokeLengths native ia) := by
  intro s
  unfold invokeLengths
  cases native.result with
  | ok value => rfl
  | error e => exact (if_neg e.nonzero).symm

theorem records_ihaGetOTP (native : OtpCall) (ia ia' : List Int32) :
    Records native.result.code (ihaGetOTP native ia ia') := by
  intro s
  unfold ihaGetOTP
  cases native.result with
  | ok value => rfl
  | error e => exact (if_neg e.nonzero).symm

end ISEPServiceImpl

end Txei.Iha

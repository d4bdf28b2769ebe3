import Txei.Iha.Lengths

/-!
# The native library behind the service

`IhaJni` declares the operations of the native library. A client calls them through `IHAManager` and
`ISEPServiceImpl`, and AIDL has no `short`: a data type crosses the binder as an `int`, a length
array as an `int` array. `native_sent` says that the library gets the client's own arguments, and
`delivers` what a call hands out once the library has answered it, and what it copies back before
and behind its query.
-/

namespace Txei.Iha

open IHAManager

/-! ## Calls and answers -/

/-- What an operation returns. `otp` stands for the bytes of `IHAGetOTP`, with its two length
arrays. -/
inductive Kind where
  | void
  | int
  | long
  | bytes
  | otp
  deriving DecidableEq, Repr

/-- What the library answers. -/
abbrev Kind.Answer : Kind → Type
  | void => Native Unit
  | int => Native Int32
  | long => Native Int64
  | bytes => LengthsCall
  | otp => OtpCall

/-- The value that the library returns. -/
def Kind.value : (k : Kind) → k.Answer → Native Value
  | void, answer => answer.map fun _ => .void
  | int, answer => answer.map .int
  | long, answer => answer.map .long
  | bytes, answer => answer.result.map .bytes
  | otp, answer => answer.result.map .bytes

/-- What the service returns when the library throws. -/
def Kind.standIn : Kind → Value
  | void => .void
  | int => .int (-1)
  | long => .long (-1)
  | bytes => .bytes none
  | otp => .bytes none

/-- A call of an operation, by one side: a data type is a `T` there, a length array an `L`. -/
inductive IhaCall (T L : Type) : Kind → Type where
  | ihaStartProvisioning (strAppName : Option JString) : IhaCall T L .int
  | ihaEndProvisioning (strAppName : Option JString) (iSessionHandle : Int32)
      (expectedTokenLen : L) : IhaCall T L .bytes
  | ihaSendData (strAppName : Option JString) (iSessionHandle : Int32) (dataType : T)
      (baInData : Bytes) : IhaCall T L .void
  | ihaReceiveData (strAppName : Option JString) (iSessionHandle : Int32) (dataType : T)
      (expectedDataLen : L) : IhaCall T L .bytes
  | ihaProcessSVPMessage (strAppName : Option JString) (iSessionHandle : Int32)
      (baInData : Bytes) : IhaCall T L .void
  | ihaGetSVPMessage (strAppName : Option JString) (iSessionHandle : Int32)
      (expectedDataLen : L) : IhaCall T L .bytes
  | ihaSendAndReceiveData (strAppName : Option JString) (iSessionHandle : Int32) (dataType : T)
      (baInData : Bytes) (expectedOutDataLen : L) : IhaCall T L .bytes
  | ihaGetCapabilities (strAppName : Option JString) (type : T) (expectedDataLen : L) :
      IhaCall T L .bytes
  | ihaGetVersion : IhaCall T L .int
  | ihaInstall (strAppName strSrcFile : Option JString) : IhaCall T L .void
  | ihaUninstall (strAppName : Option JString) : IhaCall T L .void
  | ihaDoFWUpdate : IhaCall T L .void
  | ihaGetOTP (strAppName : Option JString) (iSessionHandle : Int32)
      (baEncToken baVendorData : Bytes) (expectedOtpLength expectedEncTokenLength : L) :
      IhaCall T L .otp
  | ihaGetOTPSStatus (strAppName : Option JString) (iSessionHandle : Int32) (type : T) :
      IhaCall T L .int
  | ihaGetOTPCapabilities (strAppName : Option JString) (type : T) (expectedDataLen : L) :
      IhaCall T L .bytes
  | ihaInstallOTPS (strAppName strSrcFile : Option JString) : IhaCall T L .void
  | ihaUninstallOTPS (strAppName : Option JString) : IhaCall T L .void
  | ihaGetAppInstId (strAppName : Option JString) : IhaCall T L .long

/-- The call of another side: its data types and its length arrays are converted. -/
def IhaCall.map {T L T' L' : Type} (f : T → T') (g : L → L') {k : Kind} :
    IhaCall T L k → IhaCall T' L' k
  | ihaStartProvisioning app => .ihaStartProvisioning app
  | ihaEndProvisioning app handle lens => .ihaEndProvisioning app handle (g lens)
  | ihaSendData app handle dataType ba => .ihaSendData app handle (f dataType) ba
  | ihaReceiveData app handle dataType lens => .ihaReceiveData app handle (f dataType) (g lens)
  | ihaProcessSVPMessage app handle ba => .ihaProcessSVPMessage app handle ba
  | ihaGetSVPMessage app handle lens => .ihaGetSVPMessage app handle (g lens)
  | ihaSendAndReceiveData app handle dataType ba lens =>
      .ihaSendAndReceiveData app handle (f dataType) ba (g lens)
  | ihaGetCapabilities app type lens => .ihaGetCapabilities app (f type) (g lens)
  | ihaGetVersion => .ihaGetVersion
  | ihaInstall app src => .ihaInstall app src
  | ihaUninstall app => .ihaUninstall app
  | ihaDoFWUpdate => .ihaDoFWUpdate
  | ihaGetOTP app handle token vendor otp encToken =>
      .ihaGetOTP app handle token vendor (g otp) (g encToken)
  | ihaGetOTPSStatus app handle type => .ihaGetOTPSStatus app handle (f type)
  | ihaGetOTPCapabilities app type lens => .ihaGetOTPCapabilities app (f type) (g lens)
  | ihaInstallOTPS app src => .ihaInstallOTPS app src
  | ihaUninstallOTPS app => .ihaUninstallOTPS app
  | ihaGetAppInstId app => .ihaGetAppInstId app

theorem IhaCall.map_map {T L T' L' T'' L'' : Type} (f : T → T') (g : L → L') (f' : T' → T'')
    (g' : L' → L'') {k : Kind} (c : IhaCall T L k) :
    (c.map f g).map f' g' = c.map (f' ∘ f) (g' ∘ g) := by
  cases c with
  | _ => rfl

/-- A call by a client, whose length arrays are references. -/
abbrev ClientCall : Kind → Type := IhaCall Int16 (Option Ref)

/-- A call over the binder, as `ISEPService.aidl` declares it. -/
abbrev BinderCall : Kind → Type := IhaCall Int32 (Option (List Int32))

/-- A call of the library. -/
abbrev NativeCall : Kind → Type := IhaCall Int16 (Option (List Int16))

section Conversions

variable {k : Kind}

/-- What the manager passes to the service. -/
def IhaCall.sent (arrays : Ref → List Int16) (c : ClientCall k) : BinderCall k :=
  c.map Int16.toInt32 (Option.map fun r => (arrays r).map Int16.toInt32)

/-- What the service passes to the library. -/
def IhaCall.native (c : BinderCall k) : NativeCall k :=
  c.map Int32.toInt16 (Option.map (List.map Int32.toInt16))

/-- The call that the client means. -/
def IhaCall.meant (arrays : Ref → List Int16) (c : ClientCall k) : NativeCall k :=
  c.map id (Option.map arrays)

/-- The library gets what the client means. -/
theorem native_sent (arrays : Ref → List Int16) (c : ClientCall k) :
    (c.sent arrays).native = c.meant arrays := by
  have hlengths : (Option.map (List.map Int32.toInt16) ∘
      Option.map fun r => (arrays r).map Int16.toInt32) = Option.map arrays := by
    funext x
    simp only [Function.comp_apply, Option.map_map]
    congr 1
    funext r
    exact map_toInt16_toInt32 (arrays r)
  have htypes : Int32.toInt16 ∘ Int16.toInt32 = id := by
    funext v
    exact Int16.toInt16_toInt32 v
  rw [IhaCall.sent, IhaCall.native, IhaCall.map_map, htypes, hlengths, IhaCall.meant]

end Conversions

/-- A library with the states `σ`: what it answers to a call, and the state that it is in then. -/
structure Library (σ : Type) where
  ihaInit : σ → Native Unit × σ
  ihaDeInit : σ → Native Unit × σ
  answer : {k : Kind} → NativeCall k → σ → k.Answer × σ

/-- What the library is asked. -/
inductive LibraryCall where
  | ihaInit
  | ihaDeInit
  | operation {k : Kind} (call : NativeCall k)

/-- The state of the library behind a call. -/
def Library.next {σ : Type} (lib : Library σ) (s : σ) : LibraryCall → σ
  | .ihaInit => (lib.ihaInit s).2
  | .ihaDeInit => (lib.ihaDeInit s).2
  | .operation call => (lib.answer call s).2

/-! ## What a call hands out -/

namespace IhaCall

/-- The request of the manager that a call is, with the answer that the library gives to it. -/
def request {k : Kind} : ClientCall k → k.Answer → Request
  | .ihaStartProvisioning app, a => .ihaStartProvisioning app a
  | .ihaEndProvisioning app _ x, a => .ihaEndProvisioning app x a
  | .ihaSendData app _ dataType ba, a => .ihaSendData app dataType ba a
  | .ihaReceiveData app _ dataType x, a => .ihaReceiveData app dataType x a
  | .ihaProcessSVPMessage app _ ba, a => .ihaProcessSVPMessage app ba a
  | .ihaGetSVPMessage app _ x, a => .ihaGetSVPMessage app x a
  | .ihaSendAndReceiveData app _ dataType ba x, a => .ihaSendAndReceiveData app dataType ba x a
  | .ihaGetCapabilities app type x, a => .ihaGetCapabilities app type x a
  | .ihaGetVersion, a => .ihaGetVersion a
  | .ihaInstall app src, a => .ihaInstall app src a
  | .ihaUninstall app, a => .ihaUninstall app a
  | .ihaDoFWUpdate, a => .ihaDoFWUpdate a
  | .ihaGetOTP app _ _ _ x y, a => .ihaGetOTP app x y a
  | .ihaGetOTPSStatus app _ type, a => .ihaGetOTPSStatus app type a
  | .ihaGetOTPCapabilities app type x, a => .ihaGetOTPCapabilities app type x a
  | .ihaInstallOTPS app src, a => .ihaInstallOTPS app src a
  | .ihaUninstallOTPS app, a => .ihaUninstallOTPS app a
  | .ihaGetAppInstId app, a => .ihaGetAppInstId app a

/-- The arrays that a call copies back before its query after a success: `IHASendAndReceiveData`
copies its array back behind the query. -/
def early {k : Kind} (c : ClientCall k) (answer : k.Answer) :
    (Ref → List Int16) → Ref → List Int16 :=
  match c with
  | .ihaSendAndReceiveData .. => id
  | c => (c.request answer).back

end IhaCall

/-- The value behind a native operation: its own, or what stands in for it. -/
def handed (failed : Value) : Native Value → Value
  | .ok value => value
  | .error _ => failed

/-- The value that a call hands out when it returns. -/
def Kind.handed (k : Kind) (answer : k.Answer) : Value := Iha.handed k.standIn (k.value answer)

/-- The client's arrays behind a call that returns: nothing is copied back when the library
throws. -/
def returned (code : Int32) (back : (Ref → List Int16) → Ref → List Int16)
    (sent : Ref → List Int16) : Ref → List Int16 :=
  if code = 0 then back sent else sent

namespace IHAManager

open ISEPServiceImpl

/-- Behind its checks, the request of an operation lets the service record `code` and leaves `held`
of the client's arrays; and once the query behind it has found nothing, the operation returns
`value` and leaves `arrays`. -/
def Operation.Delivers (o : Operation) (code : Int32) (value : Value)
    (held arrays : (Ref → List Int16) → Ref → List Int16) : Prop :=
  ∀ s checked, exec o.checks s = (.ok checked, s) →
    ∃ reply, exec (o.request checked) s =
        (.ok reply, { s with service := s.service.record code, arrays := held s.arrays }) ∧
      ∀ t : State, t.arrays = held s.arrays →
        exec (o.finish checked reply) t = (.ok value, { t with arrays := arrays s.arrays })

section Shapes

variable {α : Type} {message : String}

/-- It is enough to say how the two outcomes of the native operation go on. -/
theorem Operation.delivers_of {o : Operation} {native : Native α} {failed : Value} {f : α → Value}
    {early back : (Ref → List Int16) → Ref → List Int16}
    (hfails : ∀ e, native = .error e → ∀ s checked, exec o.checks s = (.ok checked, s) →
      ∃ reply, exec (o.request checked) s = (.ok reply, { s with service := ⟨e.code⟩ }) ∧
        ∀ t : State, t.arrays = s.arrays → exec (o.finish checked reply) t = (.ok failed, t))
    (hreturns : ∀ v, native = .ok v → ∀ s checked, exec o.checks s = (.ok checked, s) →
      ∃ reply, exec (o.request checked) s = (.ok reply, { s with arrays := early s.arrays }) ∧
        ∀ t : State, t.arrays = early s.arrays →
          exec (o.finish checked reply) t = (.ok (f v), { t with arrays := back s.arrays })) :
    o.Delivers native.code (handed failed (native.map f)) (returned native.code early)
      (returned native.code back) := by
  intro s checked hchecks
  cases hnative : native with
  | error e =>
      obtain ⟨reply, hrequest, hfinish⟩ := hfails e hnative s checked hchecks
      have hrecord : s.service.record e.code = ⟨e.code⟩ := if_neg e.nonzero
      have hkept : ∀ copy : (Ref → List Int16) → Ref → List Int16,
          returned e.code copy s.arrays = s.arrays := fun _ => if_neg e.nonzero
      simp only [Native.code, hkept]
      refine ⟨reply, ?_, fun t ht => ?_⟩
      · rw [hrequest, hrecord]
      · rw [hfinish t ht, ← ht]
        rfl
  | ok v => exact hreturns v hnative s checked hchecks

/-- An operation without length arrays. -/
theorem delivers_plain {checks : M Unit} (failed : Value) (f : α → Value) (native : Native α) :
    (plain checks (invoke failed (native.map f)) message).Delivers native.code
      (handed failed (native.map f)) (returned native.code id) (returned native.code id) := by
  refine Operation.delivers_of (fun e he s _ _ => ?_) fun v hv s _ _ => ?_
  · subst he
    exact ⟨failed, rfl, fun t _ => rfl⟩
  · subst hv
    refine ⟨f v, rfl, fun t ht => ?_⟩
    have hsame : t.arrays = s.arrays := ht
    rw [← hsame]
    rfl

/-- An operation with an `inout` length array. -/
theorem delivers_inout {checks : M Ref} {x : Option Ref}
    (hx : Yields (fun ref => x = some ref) checks) (native : LengthsCall) :
    (inout checks (invokeLengths native) message).Delivers native.result.code
      (handed (.bytes none) (native.result.map .bytes))
      (returned native.result.code (backOne x native.stores))
      (returned native.result.code (backOne x native.stores)) := by
  refine Operation.delivers_of (fun e he s ref _ => ?_) fun v hv s ref hchecks => ?_
  · refine ⟨.bytes none, (exec_request_inout native ref s).trans ?_, fun t _ => rfl⟩
    rw [he]
  · refine ⟨.bytes v, (exec_request_inout native ref s).trans ?_, fun t ht => ?_⟩
    · rw [hv, hx s ref s hchecks]
      rfl
    · rw [← ht]
      rfl

/-- `IHAReceiveData` sends its array and copies back what it has sent. -/
theorem delivers_ihaReceiveData (app : Option JString) (dataType : Int16) (x : Option Ref)
    (native : LengthsCall) :
    (ihaReceiveData app dataType x native).Delivers native.result.code
      (handed (.bytes none) (native.result.map .bytes)) (returned native.result.code id)
      (returned native.result.code id) := by
  have hrequest : ∀ (ref : Ref) (s : State),
      exec ((ihaReceiveData app dataType x native).request ref) s =
        (.ok ((invokeLengths native ((s.arrays ref).map Int16.toInt32)).run s.service).1.1,
          { s with service :=
              ((invokeLengths native ((s.arrays ref).map Int16.toInt32)).run s.service).2 }) := by
    intro ref s
    show exec (toInts ref >>= fun ia => remote (invokeLengths native ia) >>= fun reply =>
      copyBack ref ia >>= fun _ => pure reply.1) s = _
    rw [exec_bind_ok (exec_toInts ref s), exec_bind_ok (exec_remote _ s),
      exec_bind_ok (exec_copyBack ref _ _), map_toInt16_toInt32, copied, Function.update_eq_self]
    rfl
  refine Operation.delivers_of (fun e he s ref _ => ?_) fun v hv s ref _ => ?_
  · refine ⟨.bytes none, (hrequest ref s).trans ?_, fun t _ => rfl⟩
    rw [run_invokeLengths, he]
  · refine ⟨.bytes v, (hrequest ref s).trans ?_, fun t ht => ?_⟩
    · rw [run_invokeLengths, hv]
      rfl
    · have hsame : t.arrays = s.arrays := ht
      rw [← hsame]
      rfl

/-- `IHASendAndReceiveData` copies its array back behind the query. -/
theorem delivers_ihaSendAndReceiveData (app : Option JString) (dataType : Int16) (ba : Bytes)
    (x : Option Ref) (native : LengthsCall) :
    (ihaSendAndReceiveData app dataType ba x native).Delivers native.result.code
      (handed (.bytes none) (native.result.map .bytes)) (returned native.result.code id)
      (returned native.result.code (backOne x native.stores)) := by
  have hx : Yields (fun ref => x = some ref)
      (ihaSendAndReceiveData app dataType ba x native).checks :=
    .behind (.behind (.behind (yields_checkArray _ _ _)))
  have hrequest : ∀ (ref : Ref) (s : State),
      exec ((ihaSendAndReceiveData app dataType ba x native).request ref) s =
        (.ok ((invokeLengths native ((s.arrays ref).map Int16.toInt32)).run s.service).1,
          { s with service :=
              ((invokeLengths native ((s.arrays ref).map Int16.toInt32)).run s.service).2 }) := by
    intro ref s
    show exec (toInts ref >>= fun ia => remote (invokeLengths native ia)) s = _
    rw [exec_bind_ok (exec_toInts ref s), exec_remote]
    rfl
  refine Operation.delivers_of (fun e he s (ref : Ref) _ => ?_)
    fun v hv s (ref : Ref) hchecks => ?_
  · refine ⟨(.bytes none, (s.arrays ref).map Int16.toInt32), (hrequest ref s).trans ?_,
      fun t ht => ?_⟩
    · rw [run_invokeLengths, he]
    · have hsame : copied t.arrays ref (t.arrays ref) = t.arrays := Function.update_eq_self ref _
      show exec (copyBack ref _ >>= fun _ => pure _) t = _
      rw [exec_bind_ok (exec_copyBack ref _ t), map_toInt16_toInt32, ← ht, hsame]
      rfl
  · refine ⟨(.bytes v, (native.stores.apply (s.arrays ref)).map Int16.toInt32),
      (hrequest ref s).trans ?_, fun t ht => ?_⟩
    · rw [run_invokeLengths, hv]
      rfl
    · show exec (copyBack ref _ >>= fun _ => pure _) t = _
      rw [exec_bind_ok (exec_copyBack ref _ t), map_toInt16_toInt32, ht, hx s ref s hchecks]
      rfl

/-- `IHAGetOTP` copies its two arrays back, one behind the other. -/
theorem delivers_ihaGetOTP (app : Option JString) (x y : Option Ref) (native : OtpCall) :
    (ihaGetOTP app x y native).Delivers native.result.code
      (handed (.bytes none) (native.result.map .bytes))
      (returned native.result.code (backBoth x y native))
      (returned native.result.code (backBoth x y native)) := by
  have hxy : Yields (fun p => x = some p.1 ∧ y = some p.2) (ihaGetOTP app x y native).checks :=
    .behind ((yields_deref x).bind fun otp hx => (yields_deref y).bind fun encToken hy =>
      yields_pure ⟨hx, hy⟩)
  have hrequest : ∀ (p : Ref × Ref) (s : State) r,
      (ISEPServiceImpl.ihaGetOTP native ((s.arrays p.1).map Int16.toInt32)
        ((s.arrays p.2).map Int16.toInt32)).run s.service = r →
      exec ((ihaGetOTP app x y native).request p) s =
        (.ok r.1.1, { s with
          service := r.2
          arrays := copied (copied s.arrays p.1 (r.1.2.1.map Int32.toInt16)) p.2
            (r.1.2.2.map Int32.toInt16) }) := by
    intro p s r hr
    show exec (toInts p.1 >>= fun ia => toInts p.2 >>= fun ia' =>
      remote (ISEPServiceImpl.ihaGetOTP native ia ia') >>= fun reply =>
        copyBack p.1 reply.2.1 >>= fun _ => copyBack p.2 reply.2.2 >>= fun _ => pure reply.1) s = _
    rw [exec_bind_ok (exec_toInts p.1 s), exec_bind_ok (exec_toInts p.2 s),
      exec_bind_ok (exec_remote _ s), hr, exec_bind_ok (exec_copyBack p.1 _ _),
      exec_bind_ok (exec_copyBack p.2 _ _)]
    rfl
  refine Operation.delivers_of (fun e he s (p : Ref × Ref) _ => ?_) fun v hv s p hchecks => ?_
  · have hrun := run_ihaGetOTP native (s.arrays p.1) (s.arrays p.2) s.service
    rw [he] at hrun
    refine ⟨.bytes none, (hrequest p s _ hrun).trans ?_, fun t _ => rfl⟩
    simp only [map_toInt16_toInt32, copied, Function.update_eq_self]
  · obtain ⟨hx, hy⟩ := hxy s p s hchecks
    have hrun := run_ihaGetOTP native (s.arrays p.1) (s.arrays p.2) s.service
    rw [hv] at hrun
    refine ⟨.bytes v, (hrequest p s _ hrun).trans ?_, fun t ht => ?_⟩
    · rw [map_toInt16_toInt32, map_toInt16_toInt32, hx, hy]
      rfl
    · rw [← ht]
      rfl

end Shapes

variable {k : Kind}

/-- The code with which the library fails. -/
theorem code_request (c : ClientCall k) (answer : k.Answer) :
    (c.request answer).code = (k.value answer).code := by
  have hmap : ∀ {α : Type} (f : α → Value) (native : Native α),
      native.code = Native.code (native.map f) := by
    intro α f native
    cases native with
    | ok v => rfl
    | error e => rfl
  cases c with
  | _ => exact hmap _ _

/-- Every call hands out what the library has answered to it. -/
theorem delivers (c : ClientCall k) (answer : k.Answer) :
    (c.request answer).operation.Delivers (c.request answer).code (k.handed answer)
      (returned (c.request answer).code (c.early answer))
      (returned (c.request answer).code (c.request answer).back) := by
  cases c with
  | ihaStartProvisioning app => exact delivers_plain _ _ _
  | ihaEndProvisioning app handle x => exact delivers_inout (.behind (yields_checkArray _ _ _)) _
  | ihaSendData app handle dataType ba => exact delivers_plain _ _ _
  | ihaReceiveData app handle dataType x => exact delivers_ihaReceiveData _ _ _ _
  | ihaProcessSVPMessage app handle ba => exact delivers_plain _ _ _
  | ihaGetSVPMessage app handle x => exact delivers_inout (.behind (yields_checkArray _ _ _)) _
  | ihaSendAndReceiveData app handle dataType ba x =>
      exact delivers_ihaSendAndReceiveData _ _ _ _ _
  | ihaGetCapabilities app type x =>
      exact delivers_inout (.behind (.behind (yields_checkArray _ _ _))) _
  | ihaGetVersion => exact delivers_plain _ _ _
  | ihaInstall app src => exact delivers_plain _ _ _
  | ihaUninstall app => exact delivers_plain _ _ _
  | ihaDoFWUpdate => exact delivers_plain _ _ _
  | ihaGetOTP app handle token vendor x y => exact delivers_ihaGetOTP _ _ _ _
  | ihaGetOTPSStatus app handle type => exact delivers_plain _ _ _
  | ihaGetOTPCapabilities app type x =>
      exact delivers_inout (.behind (.behind (yields_checkArray _ _ _))) _
  | ihaInstallOTPS app src => exact delivers_plain _ _ _
  | ihaUninstallOTPS app => exact delivers_plain _ _ _
  | ihaGetAppInstId app => exact delivers_plain _ _ _

end IHAManager

end Txei.Iha

import Txei.Machine.SharedSlot
import Txei.Iha.Manager

/-!
# The last error of a single client

A client of `IHAManager` learns how an operation went from two error variables: its own
`IHAManagerError` and the service's `IHAError`. `Operation.Sound` says what each part of an
operation does to them, and `Operation.Sound.exec_run` what a whole operation does. The exception
of an operation is about that operation exactly when the two variables are clean in the sense of
`Request.Clean`; `lastError_exact_iff` says so of every call of every run.
-/

namespace Txei.Iha.IHAManager

open Machine ISEPServiceImpl

variable {α β : Type}

/-- Run a method from a state. -/
def exec (x : M α) (s : State) : Except Thrown α × State := StateT.run (ExceptT.run x) s

/-! ## Executing a method -/

@[simp] theorem exec_pure (a : α) (s : State) : exec (pure a : M α) s = (.ok a, s) := rfl

theorem exec_bind_ok {x : M α} {s s' : State} {a : α} (h : exec x s = (.ok a, s')) (f : α → M β) :
    exec (x >>= f) s = exec (f a) s' := by
  unfold exec at h ⊢
  rw [ExceptT.run_bind, StateT.run_bind, h]
  rfl

theorem exec_bind_error {x : M α} {s s' : State} {e : Thrown} (h : exec x s = (.error e, s'))
    (f : α → M β) : exec (x >>= f) s = (.error e, s') := by
  unfold exec at h ⊢
  rw [ExceptT.run_bind, StateT.run_bind, h]
  rfl

/-! ## What the parts of an operation do -/

/-- A part that does not throw and changes nothing but the client's arrays. -/
def Keeps (x : M α) : Prop := ∀ s, ∃ a arrays, exec x s = (.ok a, { s with arrays := arrays })

/-- A part that does not throw and lets the service record `code`. -/
def Serves (code : Int32) (x : M α) : Prop :=
  ∀ s, ∃ a arrays, exec x s =
    (.ok a, { s with service := s.service.record code, arrays := arrays })

/-- An exception that an argument check throws. -/
def Thrown.IsRefusal : Thrown → Prop
  | .ihaException _ _ => False
  | _ => True

/-- A part that passes without changing anything, or refuses, which may set `IHAManagerError`. -/
def Checks (x : M α) : Prop :=
  ∀ s, (∃ a, exec x s = (.ok a, s)) ∨
    ∃ e error, e.IsRefusal ∧ exec x s = (.error e, { s with ihaManagerError := error }) ∧
      (error = s.ihaManagerError ∨ error = invalidInput)

theorem Keeps.bind {x : M α} {f : α → M β} (hx : Keeps x) (hf : ∀ a, Keeps (f a)) :
    Keeps (x >>= f) := by
  intro s
  obtain ⟨a, arrays, hxs⟩ := hx s
  rw [exec_bind_ok hxs]
  exact hf a _

theorem keeps_pure (a : α) : Keeps (pure a) := fun s => ⟨a, s.arrays, rfl⟩

theorem keeps_toInts (r : Ref) : Keeps (toInts r) := fun s => ⟨_, s.arrays, rfl⟩

theorem keeps_copyBack (r : Ref) (ia : List Int32) : Keeps (copyBack r ia) :=
  fun _ => ⟨(), _, rfl⟩

theorem serves_remote {code : Int32} {f : ServiceM α} (hf : Records code f) :
    Serves code (remote f) := by
  intro s
  refine ⟨(f.run s.service).1, s.arrays, ?_⟩
  rw [← hf s.service]
  rfl

theorem Serves.bind {code : Int32} {x : M α} {f : α → M β} (hx : Serves code x)
    (hf : ∀ a, Keeps (f a)) : Serves code (x >>= f) := by
  intro s
  obtain ⟨a, arrays, hxs⟩ := hx s
  rw [exec_bind_ok hxs]
  exact hf a _

theorem Keeps.serves {code : Int32} {x : M α} {f : α → M β} (hx : Keeps x)
    (hf : ∀ a, Serves code (f a)) : Serves code (x >>= f) := by
  intro s
  obtain ⟨a, arrays, hxs⟩ := hx s
  rw [exec_bind_ok hxs]
  exact hf a _

theorem Checks.bind {x : M α} {f : α → M β} (hx : Checks x) (hf : ∀ a, Checks (f a)) :
    Checks (x >>= f) := by
  intro s
  rcases hx s with ⟨a, hpass⟩ | ⟨e, error, he, hrefuse, herror⟩
  · rw [exec_bind_ok hpass]
    exact hf a s
  · exact .inr ⟨e, error, he, exec_bind_error hrefuse f, herror⟩

theorem checks_pure (a : α) : Checks (pure a) := fun _ => .inl ⟨a, rfl⟩

theorem checks_null : Checks (throw .nullPointerException : M α) :=
  fun s => .inr ⟨.nullPointerException, s.ihaManagerError, trivial, rfl, .inl rfl⟩

theorem checks_refuse (message : String) : Checks (refuse message) :=
  fun _ => .inr ⟨.runtimeException message, invalidInput, trivial, rfl, .inr rfl⟩

theorem checks_checkNonneg (v : Int16) (message : String) : Checks (checkNonneg v message) := by
  unfold checkNonneg
  split
  · exact checks_refuse message
  · exact checks_pure ()

theorem checks_checkLength (x : Option (List α)) (max : Nat) (message : String) :
    Checks (checkLength x max message) := by
  cases x with
  | none => exact checks_null
  | some x =>
      show Checks (if x.length = 0 ∨ max < x.length then refuse message else pure ())
      split
      · exact checks_refuse message
      · exact checks_pure ()

theorem checks_deref (x : Option Ref) : Checks (deref x) := by
  cases x with
  | none => exact checks_null
  | some r => exact checks_pure r

theorem checks_checkArray (x : Option Ref) (max : Nat) (message : String) :
    Checks (checkArray x max message) := by
  refine (checks_deref x).bind fun r => ?_
  refine Checks.bind (fun s => .inl ⟨s, rfl⟩) fun s => ?_
  show Checks (if (s.arrays r).length = 0 ∨ max < (s.arrays r).length then
    refuse message >>= fun _ => pure r else pure r)
  split
  · exact (checks_refuse message).bind fun _ => checks_pure r
  · exact checks_pure r

/-! ## What an operation does -/

/-- The parts of an operation whose native operation ends with `code`. -/
structure Operation.Sound (o : Operation) (code : Int32) : Prop where
  checks : Checks o.checks
  request : ∀ a, Serves code (o.request a)
  finish : ∀ a r, Keeps (o.finish a r)

/-- The arguments pass the checks. -/
def Operation.Passes (o : Operation) (s : State) : Prop := ∃ a, exec o.checks s = (.ok a, s)

/-- The code that a query finds. -/
def State.found (s : State) : Int32 :=
  if s.ihaManagerError ≠ ihaRetSOk then s.ihaManagerError else s.service.ihaError

/-- The state after a query. It clears the variable it finds a code in, unless that is the
service's: its code moves to `IHAManagerError` and stays there. -/
def State.asked (s : State) : State :=
  if s.ihaManagerError ≠ ihaRetSOk then { s with ihaManagerError := ihaRetSOk }
  else { s with ihaManagerError := s.service.ihaError, service := ⟨ihaRetSOk⟩ }

theorem exec_ihaGetLastError (s : State) : exec ihaGetLastError s = (.ok s.found, s.asked) := by
  unfold State.found State.asked
  show exec (if s.ihaManagerError ≠ ihaRetSOk then _ else _) s = _
  split
  · rfl
  · rfl

theorem exec_query (message : String) (s : State) :
    exec (query message) s =
      (if s.found = ihaRetSOk then .ok () else .error (.ihaException message s.found),
        s.asked) := by
  unfold query
  rw [exec_bind_ok (exec_ihaGetLastError s)]
  by_cases h : s.found = ihaRetSOk
  · rw [if_neg (not_not_intro h), if_pos h]
    rfl
  · rw [if_pos h, if_neg h]
    rfl

/-- An operation whose request ends in `t` throws what its query finds there, and goes on if that is
nothing. -/
theorem Operation.exec_run {o : Operation} {s t : State} {checked : o.Checked} {reply : o.Reply}
    (hchecks : exec o.checks s = (.ok checked, s))
    (hrequest : exec (o.request checked) s = (.ok reply, t)) :
    exec o.run s =
      if t.found = ihaRetSOk then exec (o.finish checked reply) t.asked
      else (.error (.ihaException o.message t.found), t.asked) := by
  have hquery := exec_query o.message t
  unfold Operation.run
  rw [exec_bind_ok hchecks, exec_bind_ok hrequest]
  by_cases h0 : t.found = ihaRetSOk
  · rw [if_pos h0] at hquery ⊢
    rw [exec_bind_ok hquery]
  · rw [if_neg h0] at hquery ⊢
    rw [exec_bind_error hquery]

/-- The state in which an operation queries, when its native operation ended with `code`. -/
def State.served (s : State) (code : Int32) : State :=
  { s with service := s.service.record code }

section Sound

variable {o : Operation} {code : Int32}

/-- An operation that passes its checks throws what its query finds. -/
theorem Operation.Sound.throws_iff (h : o.Sound code) {s : State} (hp : o.Passes s)
    (e : Int32) :
    (∃ message, (exec o.run s).1 = .error (.ihaException message e)) ↔
      e ≠ 0 ∧ (s.served code).found = e := by
  obtain ⟨checked, hchecks⟩ := hp
  obtain ⟨reply, arrays, hrequest⟩ := h.request checked s
  generalize ht : ({ s with service := s.service.record code, arrays := arrays } : State) = t
    at hrequest
  have hfound : t.found = (s.served code).found := by
    subst ht
    rfl
  rw [Operation.exec_run hchecks hrequest, hfound]
  by_cases h0 : (s.served code).found = ihaRetSOk
  · -- nothing is found, and what follows the query does not throw
    obtain ⟨value, arrays', hfinish⟩ := h.finish checked reply t.asked
    rw [if_pos h0, hfinish]
    constructor
    · intro hthrow
      obtain ⟨message, hthrow⟩ := hthrow
      cases hthrow
    · intro hcode
      exact absurd (hcode.2.symm.trans h0) hcode.1
  · rw [if_neg h0]
    constructor
    · intro hthrow
      obtain ⟨message, hthrow⟩ := hthrow
      cases hthrow
      exact ⟨h0, rfl⟩
    · intro hcode
      rw [hcode.2]
      exact ⟨o.message, rfl⟩

/-- An operation that does not pass its checks is refused before it reaches the service. -/
theorem Operation.Sound.refused (h : o.Sound code) {s : State} (hp : ¬ o.Passes s) :
    ∃ e, e.IsRefusal ∧ (exec o.run s).1 = .error e ∧ (exec o.run s).2.service = s.service := by
  rcases h.checks s with ⟨a, hpass⟩ | ⟨e, error, he, hrefuse, -⟩
  · exact absurd ⟨a, hpass⟩ hp
  · refine ⟨e, he, ?_⟩
    unfold Operation.run
    rw [exec_bind_error hrefuse]
    exact ⟨rfl, rfl⟩

theorem sound_plain {checks : M Unit} {service : ServiceM Value} {message : String}
    (hchecks : Checks checks) (hservice : Records code service) :
    (plain checks service message).Sound code where
  checks := hchecks
  request _ := serves_remote hservice
  finish _ value := keeps_pure value

theorem sound_inout {checks : M Ref} {service : List Int32 → ServiceM (Value × List Int32)}
    {message : String} (hchecks : Checks checks) (hservice : ∀ ia, Records code (service ia)) :
    (inout checks service message).Sound code where
  checks := hchecks
  request r := (keeps_toInts r).serves fun ia => (serves_remote (hservice ia)).bind fun reply =>
    (keeps_copyBack r reply.2).bind fun _ => keeps_pure reply.1
  finish _ value := keeps_pure value

end Sound

/-! ## Requests -/

/-- A call of an operation that queries: its arguments, and what the native library does. -/
inductive Request where
  | ihaStartProvisioning (strAppName : Option JString) (native : Native Int32)
  | ihaEndProvisioning (strAppName : Option JString) (saExpectedTokenLen : Option Ref)
      (native : LengthsCall)
  | ihaSendData (strAppName : Option JString) (sDataType : Int16) (baInData : Bytes)
      (native : Native Unit)
  | ihaReceiveData (strAppName : Option JString) (sDataType : Int16)
      (saExpectedDataLen : Option Ref) (native : LengthsCall)
  | ihaProcessSVPMessage (strAppName : Option JString) (baInData : Bytes) (native : Native Unit)
  | ihaGetSVPMessage (strAppName : Option JString) (saExpectedDataLen : Option Ref)
      (native : LengthsCall)
  | ihaSendAndReceiveData (strAppName : Option JString) (sDataType : Int16) (baInData : Bytes)
      (saExpectedOutDataLen : Option Ref) (native : LengthsCall)
  | ihaGetCapabilities (strAppName : Option JString) (sType : Int16)
      (saExpectedDataLen : Option Ref) (native : LengthsCall)
  | ihaGetVersion (native : Native Int32)
  | ihaInstall (strAppName strSrcFile : Option JString) (native : Native Unit)
  | ihaUninstall (strAppName : Option JString) (native : Native Unit)
  | ihaDoFWUpdate (native : Native Unit)
  | ihaGetOTP (strAppName : Option JString)
      (saExpectedOtpLength saExpectedEncTokenLength : Option Ref) (native : OtpCall)
  | ihaGetOTPSStatus (strAppName : Option JString) (sType : Int16) (native : Native Int32)
  | ihaGetOTPCapabilities (strAppName : Option JString) (sType : Int16)
      (saExpectedDataLen : Option Ref) (native : LengthsCall)
  | ihaInstallOTPS (strAppName strSrcFile : Option JString) (native : Native Unit)
  | ihaUninstallOTPS (strAppName : Option JString) (native : Native Unit)
  | ihaGetAppInstId (strAppName : Option JString) (native : Native Int64)

namespace Request

def operation : Request → Operation
  | ihaStartProvisioning app native => IHAManager.ihaStartProvisioning app native
  | ihaEndProvisioning app sa native => IHAManager.ihaEndProvisioning app sa native
  | ihaSendData app dataType ba native => IHAManager.ihaSendData app dataType ba native
  | ihaReceiveData app dataType sa native => IHAManager.ihaReceiveData app dataType sa native
  | ihaProcessSVPMessage app ba native => IHAManager.ihaProcessSVPMessage app ba native
  | ihaGetSVPMessage app sa native => IHAManager.ihaGetSVPMessage app sa native
  | ihaSendAndReceiveData app dataType ba sa native =>
      IHAManager.ihaSendAndReceiveData app dataType ba sa native
  | ihaGetCapabilities app type sa native => IHAManager.ihaGetCapabilities app type sa native
  | ihaGetVersion native => IHAManager.ihaGetVersion native
  | ihaInstall app src native => IHAManager.ihaInstall app src native
  | ihaUninstall app native => IHAManager.ihaUninstall app native
  | ihaDoFWUpdate native => IHAManager.ihaDoFWUpdate native
  | ihaGetOTP app otp encToken native => IHAManager.ihaGetOTP app otp encToken native
  | ihaGetOTPSStatus app type native => IHAManager.ihaGetOTPSStatus app type native
  | ihaGetOTPCapabilities app type sa native =>
      IHAManager.ihaGetOTPCapabilities app type sa native
  | ihaInstallOTPS app src native => IHAManager.ihaInstallOTPS app src native
  | ihaUninstallOTPS app native => IHAManager.ihaUninstallOTPS app native
  | ihaGetAppInstId app native => IHAManager.ihaGetAppInstId app native

/-- The code with which the native operation fails, 0 if it succeeds. -/
def code : Request → Int32
  | ihaStartProvisioning _ native | ihaGetVersion native | ihaGetOTPSStatus _ _ native =>
      native.code
  | ihaSendData _ _ _ native | ihaProcessSVPMessage _ _ native | ihaInstall _ _ native
  | ihaUninstall _ native | ihaDoFWUpdate native | ihaInstallOTPS _ _ native
  | ihaUninstallOTPS _ native => native.code
  | ihaEndProvisioning _ _ native | ihaReceiveData _ _ _ native | ihaGetSVPMessage _ _ native
  | ihaSendAndReceiveData _ _ _ _ native | ihaGetCapabilities _ _ _ native
  | ihaGetOTPCapabilities _ _ _ native => native.result.code
  | ihaGetOTP _ _ _ native => native.result.code
  | ihaGetAppInstId _ native => native.code

/-- Every operation is sound for the code of its native operation. -/
theorem sound (r : Request) : r.operation.Sound r.code := by
  cases r with
  | ihaStartProvisioning app native =>
      exact sound_plain (checks_checkLength _ _ _) (records_invoke _ _ _)
  | ihaEndProvisioning app sa native =>
      refine sound_inout (.bind (checks_checkLength _ _ _) fun _ => ?_)
        (records_invokeLengths native)
      exact checks_checkArray _ _ _
  | ihaSendData app dataType ba native =>
      refine sound_plain (.bind (checks_checkLength _ _ _) fun _ => ?_) (records_invoke _ _ _)
      exact .bind (checks_checkNonneg _ _) fun _ => checks_checkLength _ _ _
  | ihaReceiveData app dataType sa native =>
      refine ⟨.bind (checks_checkLength _ _ _) fun _ => ?_, fun r => ?_,
        fun _ value => keeps_pure value⟩
      · exact .bind (checks_checkNonneg _ _) fun _ => checks_checkArray _ _ _
      · refine (keeps_toInts r).serves fun ia => ?_
        refine (serves_remote (records_invokeLengths native ia)).bind fun reply => ?_
        exact (keeps_copyBack r ia).bind fun _ => keeps_pure reply.1
  | ihaProcessSVPMessage app ba native =>
      exact sound_plain (.bind (checks_checkLength _ _ _) fun _ => checks_checkLength _ _ _)
        (records_invoke _ _ _)
  | ihaGetSVPMessage app sa native =>
      refine sound_inout (.bind (checks_checkLength _ _ _) fun _ => ?_)
        (records_invokeLengths native)
      exact checks_checkArray _ _ _
  | ihaSendAndReceiveData app dataType ba sa native =>
      refine ⟨.bind (checks_checkLength _ _ _) fun _ => .bind (checks_checkNonneg _ _) fun _ => ?_,
        fun r => ?_, fun r reply => ?_⟩
      · exact .bind (checks_checkLength _ _ _) fun _ => checks_checkArray _ _ _
      · exact (keeps_toInts r).serves fun ia => serves_remote (records_invokeLengths native ia)
      · exact (keeps_copyBack r reply.2).bind fun _ => keeps_pure reply.1
  | ihaGetCapabilities app type sa native =>
      refine sound_inout (.bind (checks_checkLength _ _ _) fun _ => ?_)
        (records_invokeLengths native)
      exact .bind (checks_checkNonneg _ _) fun _ => checks_checkArray _ _ _
  | ihaGetVersion native => exact sound_plain (checks_pure _) (records_invoke _ _ _)
  | ihaInstall app src native =>
      exact sound_plain (.bind (checks_checkLength _ _ _) fun _ => checks_checkLength _ _ _)
        (records_invoke _ _ _)
  | ihaUninstall app native => exact sound_plain (checks_checkLength _ _ _) (records_invoke _ _ _)
  | ihaDoFWUpdate native => exact sound_plain (checks_pure _) (records_invoke _ _ _)
  | ihaGetOTP app otp encToken native =>
      refine ⟨.bind (checks_checkLength _ _ _) fun _ => ?_, fun r => ?_,
        fun _ value => keeps_pure value⟩
      · refine .bind (checks_deref _) fun _ => .bind (checks_deref _) fun _ => ?_
        exact checks_pure _
      · refine (keeps_toInts r.1).serves fun ia => (keeps_toInts r.2).serves fun ia' => ?_
        refine (serves_remote (records_ihaGetOTP native ia ia')).bind fun reply => ?_
        refine (keeps_copyBack r.1 _).bind fun _ => (keeps_copyBack r.2 _).bind fun _ => ?_
        exact keeps_pure reply.1
  | ihaGetOTPSStatus app type native =>
      refine sound_plain (.bind (checks_checkLength _ _ _) fun _ => ?_) (records_invoke _ _ _)
      exact checks_checkNonneg _ _
  | ihaGetOTPCapabilities app type sa native =>
      refine sound_inout (.bind (checks_checkLength _ _ _) fun _ => ?_)
        (records_invokeLengths native)
      exact .bind (checks_checkNonneg _ _) fun _ => checks_checkArray _ _ _
  | ihaInstallOTPS app src native =>
      exact sound_plain (.bind (checks_checkLength _ _ _) fun _ => checks_checkLength _ _ _)
        (records_invoke _ _ _)
  | ihaUninstallOTPS app native =>
      exact sound_plain (checks_checkLength _ _ _) (records_invoke _ _ _)
  | ihaGetAppInstId app native =>
      exact sound_plain (checks_checkLength _ _ _) (records_invoke _ _ _)

/-- The error variables are clean for the request: they hold nothing but, where the native
operation fails, the code of that failure in `IHAManagerError`; then the service's variable is
overwritten. -/
def Clean (r : Request) (s : State) : Prop :=
  if r.code = 0 then s.ihaManagerError = ihaRetSOk ∧ s.service.ihaError = ihaRetSOk
  else s.ihaManagerError = ihaRetSOk ∨ s.ihaManagerError = r.code

/-- The query of a request finds the code of its own native operation exactly when the error
variables are clean. -/
theorem found_served_iff (r : Request) (s : State) :
    (s.served r.code).found = r.code ↔ r.Clean s := by
  unfold State.found State.served Service.record Clean
  by_cases hcode : r.code = 0
  · by_cases hm : s.ihaManagerError = ihaRetSOk
    · simp [hcode, hm]
    · simp [hcode, hm]
  · by_cases hm : s.ihaManagerError = ihaRetSOk
    · simp [hcode, hm]
    · simp [hcode, hm]

end Request

/-! ## Runs -/

/-- A step of a client: it fills one of its arrays, or it calls the manager. -/
inductive Call where
  | fill (r : Ref) (sa : List Int16)
  | ihaInit (native : Native Unit)
  | ihaDeInit (native : Native Unit)
  | ihaGetLastError
  | request (r : Request)

def Call.run : Call → M Value
  | .fill r sa => do
      modify fun s => { s with arrays := Function.update s.arrays r sa }
      pure .void
  | .ihaInit native => IHAManager.ihaInit native
  | .ihaDeInit native => IHAManager.ihaDeInit native
  | .ihaGetLastError => do
      let error ← IHAManager.ihaGetLastError
      pure (.int error)
  | .request r => r.operation.run

/-- The state in which the client's process and the service start. -/
def State.initial (arrays : Ref → List Int16) : State where
  ihaManagerError := ihaRetSOk
  service := ⟨ihaRetSOk⟩
  arrays := arrays

/-- The state after a list of calls, whatever they threw. -/
def after (s : State) (calls : List Call) : State :=
  calls.foldl (fun s call => (exec call.run s).2) s

/-- If the call is a request that passes its argument checks, it throws an `IhaException` with a
code exactly when its own native operation fails with that code. -/
def Call.Exact (s : State) (call : Call) : Prop :=
  ∀ r, call = .request r → r.operation.Passes s → ∀ e : Int32,
    (∃ message, (exec call.run s).1 = .error (.ihaException message e)) ↔ e ≠ 0 ∧ r.code = e

/-- If the call is a request that passes its argument checks, the error variables are clean for
it. -/
def Call.StartsClean (s : State) (call : Call) : Prop :=
  ∀ r, call = .request r → r.operation.Passes s → r.Clean s

theorem Call.exact_iff (s : State) (call : Call) : call.Exact s ↔ call.StartsClean s := by
  unfold Exact StartsClean
  constructor
  · intro hexact r hcall hp
    subst hcall
    have hthrows := fun e => (r.sound.throws_iff hp e).symm.trans (hexact r rfl hp e)
    rw [← r.found_served_iff]
    by_cases hcode : r.code = 0
    · -- nothing may be found: what is found would be thrown
      by_contra hne
      have hself := (hthrows (s.served r.code).found).mp ⟨by rwa [hcode] at hne ⊢, rfl⟩
      exact hne hself.2.symm
    · exact ((hthrows r.code).mpr ⟨hcode, rfl⟩).2
  · intro hclean r hcall hp e
    subst hcall
    have hfound := r.found_served_iff s |>.mpr (hclean r rfl hp)
    have hthrows := r.sound.throws_iff hp e
    rw [hfound] at hthrows
    exact hthrows

theorem records_zero {f : ServiceM Value} {native : Native Unit} (hf : Records native.code f)
    (h0 : native.code = 0) (s : Service) : (f.run s).2 = s := by
  rw [hf s, h0]
  rfl

/-- In every run, the calls throw what their own native operations fail with, and nothing else,
exactly when every one of them starts with clean error variables. They are not clean behind a
request that has failed: its query leaves the code in one of them for the next query to find. -/
theorem lastError_exact_iff (arrays : Ref → List Int16) (calls : List Call) :
    Everywhere (fun before call => call.Exact (after (.initial arrays) before)) calls ↔
      Everywhere (fun before call => call.StartsClean (after (.initial arrays) before)) calls :=
  Everywhere.congr (fun before call => call.exact_iff (after (.initial arrays) before)) calls

/-- A failure with code 5, then a success. -/
def failThenSucceed : List Call :=
  [.request (.ihaGetVersion (.error ⟨5, by decide⟩)), .request (.ihaGetVersion (.ok 1))]

/-- The second `IHAGetVersion` throws the code of the first. -/
theorem lastError_not_exact :
    ¬ Everywhere (fun before call => call.Exact (after (.initial fun _ => []) before))
      failThenSucceed := by
  intro hall
  have hsecond := hall [.request (.ihaGetVersion (.error ⟨5, by decide⟩))] _ [] rfl
  have hthrows := (hsecond (.ihaGetVersion (.ok 1)) rfl ⟨(), rfl⟩ 5).mp
    ⟨"IHAGetVersion failed", by rfl⟩
  exact absurd hthrows.2 (by decide)

end Txei.Iha.IHAManager

import Txei.Iha.LastError

/-!
# Length arrays between the client and the native library

An operation that returns data has the client's `short` arrays of expected lengths, in which the
native library stores the actual ones. They cross the binder as `int` arrays, in copies of their
own on either side. `CopiesBack` says which copies an operation makes on its way back;
`lengthsReturned_iff` and `requiredReturned_iff` say when what the library stored reaches the
client from a call that returns and from one that throws.
-/

namespace Txei.Iha.IHAManager

open ISEPServiceImpl

variable {α β : Type}

/-! ## Widths -/

/-- A `short` survives the `int` that carries it. -/
@[simp] theorem map_toInt16_toInt32 (sa : List Int16) :
    (sa.map Int16.toInt32).map Int32.toInt16 = sa := by
  simp [Function.comp_def]

/-- The arrays of the client once `sa` is copied back to the one `ref`. -/
abbrev copied (arrays : Ref → List Int16) (ref : Ref) (sa : List Int16) : Ref → List Int16 :=
  Function.update arrays ref sa

theorem exec_toInts (ref : Ref) (s : State) :
    exec (toInts ref) s = (.ok ((s.arrays ref).map Int16.toInt32), s) := rfl

theorem exec_copyBack (ref : Ref) (ia : List Int32) (s : State) :
    exec (copyBack ref ia) s =
      (.ok (), { s with arrays := copied s.arrays ref (ia.map Int32.toInt16) }) := rfl

theorem exec_remote (f : ServiceM α) (s : State) :
    exec (remote f) s = (.ok (f.run s.service).1, { s with service := (f.run s.service).2 }) := rfl

/-- A length array at the service: on success it comes back as the library left it, on failure as
it was sent. -/
theorem run_invokeLengths (native : LengthsCall) (sa : List Int16) (s : Service) :
    (invokeLengths native (sa.map Int16.toInt32)).run s =
      match native.result with
      | .ok value => ((.bytes value, (native.stores.apply sa).map Int16.toInt32), s)
      | .error e => ((.bytes none, sa.map Int16.toInt32), ⟨e.code⟩) := by
  unfold invokeLengths
  rw [map_toInt16_toInt32]
  cases native.result with
  | ok value => rfl
  | error e => rfl

/-- The two arrays of `IHAGetOTP` fare alike. -/
theorem run_ihaGetOTP (native : OtpCall) (otp encToken : List Int16) (s : Service) :
    (ISEPServiceImpl.ihaGetOTP native (otp.map Int16.toInt32)
        (encToken.map Int16.toInt32)).run s =
      match native.result with
      | .ok value =>
          ((.bytes value, (native.otpStores.apply otp).map Int16.toInt32,
            (native.encTokenStores.apply encToken).map Int16.toInt32), s)
      | .error e =>
          ((.bytes none, otp.map Int16.toInt32, encToken.map Int16.toInt32), ⟨e.code⟩) := by
  unfold ISEPServiceImpl.ihaGetOTP
  simp only [map_toInt16_toInt32]
  cases native.result with
  | ok value => rfl
  | error e => rfl

/-! ## References that pass the checks -/

/-- What a part hands on when it does not throw satisfies `P`. -/
def Yields (P : α → Prop) (x : M α) : Prop := ∀ s a s', exec x s = (.ok a, s') → P a

theorem Yields.bind {P : α → Prop} {Q : β → Prop} {x : M α} {f : α → M β} (hx : Yields P x)
    (hf : ∀ a, P a → Yields Q (f a)) : Yields Q (x >>= f) := by
  intro s b s' hrun
  rcases hxs : exec x s with ⟨res, t⟩
  cases res with
  | error e =>
      rw [exec_bind_error hxs] at hrun
      cases hrun
  | ok a =>
      rw [exec_bind_ok hxs] at hrun
      exact hf a (hx s a t hxs) t b s' hrun

theorem yields_true (x : M α) : Yields (fun _ => True) x := fun _ _ _ _ => trivial

/-- Behind another check. -/
theorem Yields.behind {P : β → Prop} {x : M α} {y : M β} (hy : Yields P y) :
    Yields P (x >>= fun _ => y) :=
  (yields_true x).bind fun _ _ => hy

theorem yields_pure {P : α → Prop} {a : α} (h : P a) : Yields P (pure a) := by
  intro s b s' hrun
  cases hrun
  exact h

theorem yields_deref (x : Option Ref) : Yields (fun ref => x = some ref) (deref x) := by
  cases x with
  | none =>
      intro s a s' hrun
      cases hrun
  | some ref => exact yields_pure rfl

theorem yields_checkArray (x : Option Ref) (max : Nat) (message : String) :
    Yields (fun ref => x = some ref) (checkArray x max message) := by
  refine (yields_deref x).bind fun ref hx => (yields_true _).bind fun s _ => ?_
  show Yields _ (if (s.arrays ref).length = 0 ∨ max < (s.arrays ref).length then
    refuse message >>= fun _ => pure ref else pure ref)
  split
  · refine Yields.behind ?_
    exact yields_pure hx
  · exact yields_pure hx

/-! ## What an operation copies back -/

/-- The outcome of an operation that passes its checks, as far as the client's arrays go: if the
native operation fails it throws and leaves them as they were, and if it succeeds and no error
variable is set it returns and leaves `back` of them. -/
structure Operation.CopiesBack (o : Operation) (code : Int32)
    (back : (Ref → List Int16) → Ref → List Int16) : Prop where
  fails : ∀ s, o.Passes s → code ≠ 0 →
    (∃ message e, (exec o.run s).1 = .error (.ihaException message e)) ∧
      (exec o.run s).2.arrays = s.arrays
  returns : ∀ s, o.Passes s → code = 0 → s.found = ihaRetSOk →
    (∃ value, (exec o.run s).1 = .ok value) ∧ (exec o.run s).2.arrays = back s.arrays

/-- The arrays once the array `x`, sent as it was in `sent`, is copied back as the library left
it. -/
def backTo (sent : Ref → List Int16) (x : Option Ref) (w : Stores) (arrays : Ref → List Int16) :
    Ref → List Int16 :=
  match x with
  | none => arrays
  | some ref => copied arrays ref (w.apply (sent ref))

theorem backTo_apply (sent arrays : Ref → List Int16) (x : Option Ref) (w : Stores) (ref : Ref) :
    backTo sent x w arrays ref = if x = some ref then w.apply (sent ref) else arrays ref := by
  cases x with
  | none => exact (if_neg (by simp)).symm
  | some ref' =>
      by_cases href : ref' = ref
      · subst href
        rw [if_pos rfl]
        exact Function.update_self ..
      · rw [if_neg fun heq => href (Option.some.inj heq)]
        exact Function.update_of_ne (Ne.symm href) ..

/-- Copying a single array back. -/
def backOne (x : Option Ref) (w : Stores) (sent : Ref → List Int16) : Ref → List Int16 :=
  backTo sent x w sent

/-- Copying the two arrays of `IHAGetOTP` back, one behind the other. -/
def backBoth (x y : Option Ref) (native : OtpCall) (sent : Ref → List Int16) :
    Ref → List Int16 :=
  backTo sent y native.encTokenStores (backTo sent x native.otpStores sent)

@[simp] theorem asked_arrays (s : State) : s.asked.arrays = s.arrays := by
  unfold State.asked
  split
  · rfl
  · rfl

/-- A query finds a code behind a failure. -/
theorem found_failed (s : State) (e : ErrorCode) :
    State.found { s with service := ⟨e.code⟩ } ≠ ihaRetSOk := by
  unfold State.found
  split
  · assumption
  · exact e.nonzero

theorem found_arrays (s : State) (arrays : Ref → List Int16) :
    State.found { s with arrays := arrays } = s.found := rfl

/-- It is enough to say how the request ends, and after a success what follows the query. -/
theorem Operation.copiesBack_of {o : Operation} {native : Native α}
    {back : (Ref → List Int16) → Ref → List Int16}
    (hfails : ∀ e, native = .error e → ∀ s checked, exec o.checks s = (.ok checked, s) →
      ∃ reply, exec (o.request checked) s = (.ok reply, { s with service := ⟨e.code⟩ }))
    (hreturns : ∀ v, native = .ok v → ∀ s checked, exec o.checks s = (.ok checked, s) →
      ∃ reply arrays, exec (o.request checked) s = (.ok reply, { s with arrays := arrays }) ∧
        ∀ t : State, t.arrays = arrays →
          ∃ value t', exec (o.finish checked reply) t = (.ok value, t') ∧
            t'.arrays = back s.arrays) :
    o.CopiesBack native.code back where
  fails := by
    intro s hp hcode
    obtain ⟨checked, hchecks⟩ := hp
    cases hnative : native with
    | ok v =>
        rw [hnative] at hcode
        exact absurd rfl hcode
    | error e =>
        obtain ⟨reply, hrequest⟩ := hfails e hnative s checked hchecks
        rw [Operation.exec_run hchecks hrequest, if_neg (found_failed s e)]
        exact ⟨⟨_, _, rfl⟩, asked_arrays _⟩
  returns := by
    intro s hp hcode hfound
    obtain ⟨checked, hchecks⟩ := hp
    cases hnative : native with
    | error e =>
        rw [hnative] at hcode
        exact absurd hcode e.nonzero
    | ok v =>
        obtain ⟨reply, arrays, hrequest, hfinish⟩ := hreturns v hnative s checked hchecks
        obtain ⟨value, t', hrun, harrays⟩ := hfinish _ (asked_arrays { s with arrays := arrays })
        rw [Operation.exec_run hchecks hrequest, found_arrays, if_pos hfound, hrun]
        exact ⟨⟨value, rfl⟩, harrays⟩

section Shapes

variable {message : String}

/-- An operation without length arrays. -/
theorem copiesBack_plain {checks : M Unit} (failed : Value) (f : α → Value) (native : Native α) :
    (plain checks (invoke failed (native.map f)) message).CopiesBack native.code id := by
  refine Operation.copiesBack_of (fun e he s _ _ => ?_) fun v hv s _ _ => ?_
  · subst he
    exact ⟨failed, rfl⟩
  · subst hv
    exact ⟨f v, s.arrays, rfl, fun t ht => ⟨f v, t, rfl, ht⟩⟩

theorem exec_request_inout {checks : M Ref} (native : LengthsCall) (ref : Ref) (s : State) :
    exec ((inout checks (invokeLengths native) message).request ref) s =
      match native.result with
      | .ok value =>
          (.ok (.bytes value),
            { s with arrays := copied s.arrays ref (native.stores.apply (s.arrays ref)) })
      | .error e => (.ok (.bytes none), { s with service := ⟨e.code⟩ }) := by
  show exec (toInts ref >>= fun ia => remote (invokeLengths native ia) >>= fun reply =>
    copyBack ref reply.2 >>= fun _ => pure reply.1) s = _
  rw [exec_bind_ok (exec_toInts ref s), exec_bind_ok (exec_remote _ s), run_invokeLengths]
  cases native.result with
  | ok value =>
      rw [exec_bind_ok (exec_copyBack ref _ _), map_toInt16_toInt32]
      rfl
  | error e =>
      rw [exec_bind_ok (exec_copyBack ref _ _), map_toInt16_toInt32, copied,
        Function.update_eq_self]
      rfl

/-- An operation with an `inout` length array. -/
theorem copiesBack_inout {checks : M Ref} {x : Option Ref}
    (hx : Yields (fun ref => x = some ref) checks) (native : LengthsCall) :
    (inout checks (invokeLengths native) message).CopiesBack native.result.code
      (backOne x native.stores) := by
  refine Operation.copiesBack_of (fun e he s ref _ => ?_) fun v hv s ref hchecks => ?_
  · refine ⟨.bytes none, (exec_request_inout native ref s).trans ?_⟩
    rw [he]
  · refine ⟨.bytes v, _, (exec_request_inout native ref s).trans ?_,
      fun t ht => ⟨.bytes v, t, rfl, ht⟩⟩
    rw [hv, hx s ref s hchecks]
    rfl

/-- The `in` array of `IHAReceiveData` comes back as it was sent. -/
theorem copiesBack_ihaReceiveData (app : Option JString) (dataType : Int16) (x : Option Ref)
    (native : LengthsCall) :
    (ihaReceiveData app dataType x native).CopiesBack native.result.code id := by
  have hrequest : ∀ (ref : Ref) (s : State),
      exec ((ihaReceiveData app dataType x native).request ref) s =
        match native.result with
        | .ok value => (.ok (.bytes value), s)
        | .error e => (.ok (.bytes none), { s with service := ⟨e.code⟩ }) := by
    intro ref s
    show exec (toInts ref >>= fun ia => remote (invokeLengths native ia) >>= fun reply =>
      copyBack ref ia >>= fun _ => pure reply.1) s = _
    rw [exec_bind_ok (exec_toInts ref s), exec_bind_ok (exec_remote _ s), run_invokeLengths,
      exec_bind_ok (exec_copyBack ref _ _), map_toInt16_toInt32, copied, Function.update_eq_self]
    cases native.result with
    | ok value => rfl
    | error e => rfl
  refine Operation.copiesBack_of (fun e he s ref _ => ?_) fun v hv s ref _ => ?_
  · refine ⟨.bytes none, (hrequest ref s).trans ?_⟩
    rw [he]
  · refine ⟨.bytes v, s.arrays, (hrequest ref s).trans ?_, fun t ht => ⟨.bytes v, t, rfl, ht⟩⟩
    rw [hv]

/-- `IHASendAndReceiveData` copies its array back behind the query. -/
theorem copiesBack_ihaSendAndReceiveData (app : Option JString) (dataType : Int16) (ba : Bytes)
    (x : Option Ref) (native : LengthsCall) :
    (ihaSendAndReceiveData app dataType ba x native).CopiesBack native.result.code
      (backOne x native.stores) := by
  have hx : Yields (fun ref => x = some ref)
      (ihaSendAndReceiveData app dataType ba x native).checks :=
    .behind (.behind (.behind (yields_checkArray _ _ _)))
  have hrequest : ∀ (ref : Ref) (s : State),
      exec ((ihaSendAndReceiveData app dataType ba x native).request ref) s =
        match native.result with
        | .ok value =>
            (.ok (.bytes value, (native.stores.apply (s.arrays ref)).map Int16.toInt32), s)
        | .error e =>
            (.ok (.bytes none, (s.arrays ref).map Int16.toInt32),
              { s with service := ⟨e.code⟩ }) := by
    intro ref s
    show exec (toInts ref >>= fun ia => remote (invokeLengths native ia)) s = _
    rw [exec_bind_ok (exec_toInts ref s), exec_remote, run_invokeLengths]
    cases native.result with
    | ok value => rfl
    | error e => rfl
  refine Operation.copiesBack_of (fun e he s ref _ => ?_) fun v hv s ref hchecks => ?_
  · refine ⟨(.bytes none, (s.arrays ref).map Int16.toInt32), (hrequest ref s).trans ?_⟩
    rw [he]
  · refine ⟨(.bytes v, _), s.arrays, (hrequest ref s).trans (by rw [hv]), fun t ht => ?_⟩
    refine ⟨.bytes v, { t with arrays := backOne x native.stores s.arrays }, ?_, rfl⟩
    show exec (copyBack ref _ >>= fun _ => pure _) t = _
    rw [exec_bind_ok (exec_copyBack ref _ t), map_toInt16_toInt32, ht, hx s ref s hchecks]
    rfl

theorem copiesBack_ihaGetOTP (app : Option JString) (x y : Option Ref) (native : OtpCall) :
    (ihaGetOTP app x y native).CopiesBack native.result.code (backBoth x y native) := by
  have hxy : Yields (fun p => x = some p.1 ∧ y = some p.2) (ihaGetOTP app x y native).checks :=
    .behind ((yields_deref x).bind fun otp hx => (yields_deref y).bind fun encToken hy =>
      yields_pure ⟨hx, hy⟩)
  have hrequest : ∀ (p : Ref × Ref) (s : State),
      exec ((ihaGetOTP app x y native).request p) s =
        match native.result with
        | .ok value =>
            (.ok (.bytes value),
              { s with
                arrays := copied (copied s.arrays p.1 (native.otpStores.apply (s.arrays p.1))) p.2
                  (native.encTokenStores.apply (s.arrays p.2)) })
        | .error e => (.ok (.bytes none), { s with service := ⟨e.code⟩ }) := by
    intro p s
    show exec (toInts p.1 >>= fun ia => toInts p.2 >>= fun ia' =>
      remote (ISEPServiceImpl.ihaGetOTP native ia ia') >>= fun reply =>
        copyBack p.1 reply.2.1 >>= fun _ => copyBack p.2 reply.2.2 >>= fun _ => pure reply.1) s = _
    rw [exec_bind_ok (exec_toInts p.1 s), exec_bind_ok (exec_toInts p.2 s),
      exec_bind_ok (exec_remote _ s), run_ihaGetOTP]
    cases native.result with
    | ok value =>
        rw [exec_bind_ok (exec_copyBack p.1 _ _), exec_bind_ok (exec_copyBack p.2 _ _),
          map_toInt16_toInt32, map_toInt16_toInt32]
        rfl
    | error e =>
        rw [exec_bind_ok (exec_copyBack p.1 _ _), exec_bind_ok (exec_copyBack p.2 _ _)]
        simp only [map_toInt16_toInt32, copied, Function.update_eq_self]
        rfl
  refine Operation.copiesBack_of (fun e he s p _ => ?_) fun v hv s p hchecks => ?_
  · refine ⟨.bytes none, (hrequest p s).trans ?_⟩
    rw [he]
  · refine ⟨.bytes v, _, (hrequest p s).trans ?_, fun t ht => ⟨.bytes v, t, rfl, ht⟩⟩
    obtain ⟨hx, hy⟩ := hxy s p s hchecks
    rw [hv, hx, hy]
    rfl

end Shapes

/-! ## Requests -/

namespace Request

/-- The arrays that a request copies back after a success. -/
def back : Request → (Ref → List Int16) → Ref → List Int16
  | ihaEndProvisioning _ x native | ihaGetSVPMessage _ x native
  | ihaSendAndReceiveData _ _ _ x native | ihaGetCapabilities _ _ x native
  | ihaGetOTPCapabilities _ _ x native => backOne x native.stores
  | ihaGetOTP _ x y native => backBoth x y native
  | _ => id

theorem copiesBack (r : Request) : r.operation.CopiesBack r.code r.back := by
  cases r with
  | ihaStartProvisioning app native => exact copiesBack_plain _ _ native
  | ihaEndProvisioning app x native =>
      exact copiesBack_inout (.behind (yields_checkArray _ _ _)) native
  | ihaSendData app dataType ba native => exact copiesBack_plain _ _ native
  | ihaReceiveData app dataType x native => exact copiesBack_ihaReceiveData app dataType x native
  | ihaProcessSVPMessage app ba native => exact copiesBack_plain _ _ native
  | ihaGetSVPMessage app x native =>
      exact copiesBack_inout (.behind (yields_checkArray _ _ _)) native
  | ihaSendAndReceiveData app dataType ba x native =>
      exact copiesBack_ihaSendAndReceiveData app dataType ba x native
  | ihaGetCapabilities app type x native =>
      exact copiesBack_inout (.behind (.behind (yields_checkArray _ _ _))) native
  | ihaGetVersion native => exact copiesBack_plain _ _ native
  | ihaInstall app src native => exact copiesBack_plain _ _ native
  | ihaUninstall app native => exact copiesBack_plain _ _ native
  | ihaDoFWUpdate native => exact copiesBack_plain _ _ native
  | ihaGetOTP app x y native => exact copiesBack_ihaGetOTP app x y native
  | ihaGetOTPSStatus app type native => exact copiesBack_plain _ _ native
  | ihaGetOTPCapabilities app type x native =>
      exact copiesBack_inout (.behind (.behind (yields_checkArray _ _ _))) native
  | ihaInstallOTPS app src native => exact copiesBack_plain _ _ native
  | ihaUninstallOTPS app native => exact copiesBack_plain _ _ native
  | ihaGetAppInstId app native => exact copiesBack_plain _ _ native

/-- The `inout` length arrays of a request, each with what the native library stores in it. -/
def inoutLengths : Request → List (Option Ref × Stores)
  | ihaEndProvisioning _ x native | ihaGetSVPMessage _ x native
  | ihaSendAndReceiveData _ _ _ x native | ihaGetCapabilities _ _ x native
  | ihaGetOTPCapabilities _ _ x native => [(x, native.stores)]
  | ihaGetOTP _ x y native => [(x, native.otpStores), (y, native.encTokenStores)]
  | _ => []

/-- All length arrays of a request: the one of `IHAReceiveData` is not `inout`. -/
def lengths : Request → List (Option Ref × Stores)
  | ihaReceiveData _ _ x native => [(x, native.stores)]
  | r => r.inoutLengths

end Request

/-- The arrays of `l` hold what the library stored. -/
def Holding (l : List (Option Ref × Stores)) (before after : Ref → List Int16) : Prop :=
  ∀ p ∈ l, ∀ ref ∈ p.1, after ref = p.2.apply (before ref)

/-- If the native operation succeeds and the call returns, the length arrays hold what the library
stored. -/
def LengthsReturned (r : Request) (s : State) : Prop :=
  r.code = 0 → ∀ value s', exec r.operation.run s = (.ok value, s') →
    Holding r.lengths s.arrays s'.arrays

/-- If the native operation fails and the call throws an `IhaException`, the `inout` arrays hold
what the library stored, which are the lengths it requires. -/
def RequiredReturned (r : Request) (s : State) : Prop :=
  r.code ≠ 0 → ∀ message e s', exec r.operation.run s = (.error (.ihaException message e), s') →
    Holding r.inoutLengths s.arrays s'.arrays

/-- The length arrays of a request can come back: the library leaves the array of `IHAReceiveData`
as it is, and it stores the same in the two of `IHAGetOTP` if the client passes one array twice. -/
def Request.Returnable (arrays : Ref → List Int16) : Request → Prop
  | .ihaReceiveData _ _ x native => ∀ ref ∈ x, native.stores.apply (arrays ref) = arrays ref
  | .ihaGetOTP _ x y native => ∀ ref ∈ x, ref ∈ y →
      native.otpStores.apply (arrays ref) = native.encTokenStores.apply (arrays ref)
  | _ => True

theorem holding_backOne (x : Option Ref) (w : Stores) (sent : Ref → List Int16) :
    Holding [(x, w)] sent (backOne x w sent) := by
  intro p hp ref href
  rw [List.mem_singleton.mp hp] at href ⊢
  rw [backOne, backTo_apply]
  exact if_pos href

/-- What is copied back holds what the library stored exactly when the arrays can come back. -/
theorem holding_back_iff (r : Request) (sent : Ref → List Int16) :
    Holding r.lengths sent (r.back sent) ↔ r.Returnable sent := by
  cases r with
  | ihaEndProvisioning app x native => exact iff_of_true (holding_backOne x _ sent) trivial
  | ihaGetSVPMessage app x native => exact iff_of_true (holding_backOne x _ sent) trivial
  | ihaSendAndReceiveData app dataType ba x native =>
      exact iff_of_true (holding_backOne x _ sent) trivial
  | ihaGetCapabilities app type x native => exact iff_of_true (holding_backOne x _ sent) trivial
  | ihaGetOTPCapabilities app type x native => exact iff_of_true (holding_backOne x _ sent) trivial
  | ihaReceiveData app dataType x native =>
      show Holding [(x, native.stores)] sent sent ↔ _
      constructor
      · intro hholds ref href
        exact (hholds _ List.mem_cons_self ref href).symm
      · intro hkept p hp ref href
        rw [List.mem_singleton.mp hp] at href ⊢
        exact (hkept ref href).symm
  | ihaGetOTP app x y native =>
      show Holding [(x, native.otpStores), (y, native.encTokenStores)] sent
        (backBoth x y native sent) ↔ ∀ ref ∈ x, ref ∈ y → _
      constructor
      · intro hholds ref hx hy
        have hotp := hholds _ List.mem_cons_self ref hx
        rw [backBoth, backTo_apply] at hotp
        exact hotp.symm.trans (if_pos hy)
      · intro hsame p hp ref href
        rw [backBoth, backTo_apply, backTo_apply]
        simp only [List.mem_cons, List.not_mem_nil, or_false] at hp
        rcases hp with rfl | rfl
        · by_cases hy : y = some ref
          · rw [if_pos hy]
            exact (hsame ref href hy).symm
          · rw [if_neg hy]
            exact if_pos href
        · exact if_pos href
  | _ => exact iff_of_true (fun p hp => nomatch hp) trivial

/-- A request returns exactly when its arguments pass, its native operation does not fail and no
error variable is set. -/
theorem returns_iff (r : Request) (s : State) :
    (∃ value, (exec r.operation.run s).1 = .ok value) ↔
      r.operation.Passes s ∧ r.code = 0 ∧ s.found = ihaRetSOk := by
  constructor
  · intro hreturns
    obtain ⟨value, hvalue⟩ := hreturns
    have hp : r.operation.Passes s := by
      by_contra hp
      obtain ⟨e, -, herror, -⟩ := r.sound.refused hp
      cases hvalue.symm.trans herror
    have hfound : (s.served r.code).found = 0 := by
      by_contra hne
      obtain ⟨message, herror⟩ := (r.sound.throws_iff hp _).mpr ⟨hne, rfl⟩
      cases hvalue.symm.trans herror
    have hcode : r.code = 0 := by
      by_contra hne
      obtain ⟨⟨message, e, herror⟩, -⟩ := r.copiesBack.fails s hp hne
      cases hvalue.symm.trans herror
    refine ⟨hp, hcode, ?_⟩
    rw [hcode] at hfound
    exact hfound
  · intro hclean
    obtain ⟨hp, hcode, hfound⟩ := hclean
    exact (r.copiesBack.returns s hp hcode hfound).1

/-- What the library stores reaches the client from a call that returns exactly when the arrays can
come back: those of `IHAReceiveData` travel towards the service only, so they must be left as they
are. -/
theorem lengthsReturned_iff (r : Request) (s : State) :
    LengthsReturned r s ↔
      (r.operation.Passes s → r.code = 0 → s.found = ihaRetSOk → r.Returnable s.arrays) := by
  constructor
  · intro hreturned hp hcode hfound
    obtain ⟨⟨value, hvalue⟩, harrays⟩ := r.copiesBack.returns s hp hcode hfound
    have hholds := hreturned hcode value _ (Prod.ext hvalue rfl)
    rw [harrays] at hholds
    exact (holding_back_iff r s.arrays).mp hholds
  · intro hcond hcode value s' hrun
    obtain ⟨hp, -, hfound⟩ := (returns_iff r s).mp ⟨value, by rw [hrun]⟩
    obtain ⟨-, harrays⟩ := r.copiesBack.returns s hp hcode hfound
    rw [hrun] at harrays
    rw [harrays]
    exact (holding_back_iff r s.arrays).mpr (hcond hp hcode hfound)

/-- The library's answer to a receive: it stores the length 5. -/
def fiveStored : LengthsCall := ⟨.ok none, fun _ => some 5⟩

/-- A client with one array, of one length that is 9. -/
def nineExpected : State := ⟨0, ⟨0⟩, fun _ => [9]⟩

/-- `IHAReceiveData` returns, and the client still has its 9. -/
theorem lengths_not_returned :
    ¬ LengthsReturned (.ihaReceiveData (some [97]) 1 (some 0) fiveStored) nineExpected := by
  intro h
  have hkept := (h rfl (.bytes none) _ rfl) (some 0, fiveStored.stores) List.mem_cons_self 0 rfl
  exact absurd hkept (by decide)

/-- The required lengths reach the client from a call that throws exactly when they are what the
client's arrays hold already: neither the service nor, for `IHASendAndReceiveData`, the client
copies an array back behind a failure. -/
theorem requiredReturned_iff (r : Request) (s : State) :
    RequiredReturned r s ↔
      (r.operation.Passes s → r.code ≠ 0 →
        ∀ p ∈ r.inoutLengths, ∀ ref ∈ p.1, p.2.apply (s.arrays ref) = s.arrays ref) := by
  constructor
  · intro hreturned hp hcode p hmem ref href
    obtain ⟨⟨message, e, hthrows⟩, harrays⟩ := r.copiesBack.fails s hp hcode
    have hholds := hreturned hcode message e _ (Prod.ext hthrows rfl) p hmem ref href
    rw [harrays] at hholds
    exact hholds.symm
  · intro hcond hcode message e s' hrun p hmem ref href
    have hp : r.operation.Passes s := by
      by_contra hp
      obtain ⟨e', hrefusal, herror, -⟩ := r.sound.refused hp
      rw [hrun] at herror
      cases herror
      exact hrefusal
    obtain ⟨-, harrays⟩ := r.copiesBack.fails s hp hcode
    rw [hrun] at harrays
    rw [harrays]
    exact (hcond hp hcode p hmem ref href).symm

/-- The library's answer to a buffer that is too small: it stores the length 5 and fails. -/
def fiveRequired : LengthsCall := ⟨.error ⟨2, by decide⟩, fun _ => some 5⟩

/-- `IHAGetSVPMessage` throws, and the client still has its 9. -/
theorem required_not_returned :
    ¬ RequiredReturned (.ihaGetSVPMessage (some [97]) (some 0) fiveRequired) nineExpected := by
  intro h
  have hkept := (h (by decide) "IHAGetSVPMessage Failed" 2 _ rfl)
    (some 0, fiveRequired.stores) List.mem_cons_self 0 rfl
  exact absurd hkept (by decide)

end Txei.Iha.IHAManager

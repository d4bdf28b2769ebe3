import Txei.Machine.SharedSlot
import Txei.Iha.Service

/-!
# The service's error between clients

Every client of `ISEPServiceImpl` runs its operations and asks for the last error with separate
calls, and all of them share the static `IHAError`. The service refines the shared error slot:
`after_refines` says that `IHAError` is the code in the slot after the events of the same history.
`sharedError_right_iff` is what follows for the clients.
-/

namespace Txei.Iha.ISEPServiceImpl

open Machine

/-- A call of an IHA operation at the interface of the service. -/
inductive Request where
  | ihaInit (native : Native Unit)
  | ihaDeInit (native : Native Unit)
  | ihaStartProvisioning (native : Native Int32)
  | ihaEndProvisioning (native : LengthsCall) (iaExpectedTokenLen : List Int32)
  | ihaSendData (native : Native Unit)
  | ihaReceiveData (native : LengthsCall) (iaExpectedDataLen : List Int32)
  | ihaProcessSVPMessage (native : Native Unit)
  | ihaGetSVPMessage (native : LengthsCall) (iaExpectedDataLen : List Int32)
  | ihaSendAndReceiveData (native : LengthsCall) (iaExpectedOutDataLen : List Int32)
  | ihaGetCapabilities (native : LengthsCall) (iaExpectedDataLen : List Int32)
  | ihaGetVersion (native : Native Int32)
  | ihaInstall (native : Native Unit)
  | ihaUninstall (native : Native Unit)
  | ihaDoFWUpdate (native : Native Unit)
  | ihaGetOTP (native : OtpCall) (iaExpectedOtpLength iaExpectedEncTokenLength : List Int32)
  | ihaGetOTPSStatus (native : Native Int32)
  | ihaGetOTPCapabilities (native : LengthsCall) (iaExpectedDataLen : List Int32)
  | ihaInstallOTPS (native : Native Unit)
  | ihaUninstallOTPS (native : Native Unit)
  | ihaGetAppInstId (native : Native Int64)

namespace Request

def run : Request → ServiceM Value
  | ihaInit native => ISEPServiceImpl.ihaInit native
  | ihaDeInit native => ISEPServiceImpl.ihaDeInit native
  | ihaStartProvisioning native => ISEPServiceImpl.ihaStartProvisioning native
  | ihaEndProvisioning native ia => Prod.fst <$> ISEPServiceImpl.ihaEndProvisioning native ia
  | ihaSendData native => ISEPServiceImpl.ihaSendData native
  | ihaReceiveData native ia => Prod.fst <$> ISEPServiceImpl.ihaReceiveData native ia
  | ihaProcessSVPMessage native => ISEPServiceImpl.ihaProcessSVPMessage native
  | ihaGetSVPMessage native ia => Prod.fst <$> ISEPServiceImpl.ihaGetSVPMessage native ia
  | ihaSendAndReceiveData native ia =>
      Prod.fst <$> ISEPServiceImpl.ihaSendAndReceiveData native ia
  | ihaGetCapabilities native ia => Prod.fst <$> ISEPServiceImpl.ihaGetCapabilities native ia
  | ihaGetVersion native => ISEPServiceImpl.ihaGetVersion native
  | ihaInstall native => ISEPServiceImpl.ihaInstall native
  | ihaUninstall native => ISEPServiceImpl.ihaUninstall native
  | ihaDoFWUpdate native => ISEPServiceImpl.ihaDoFWUpdate native
  | ihaGetOTP native ia ia' => Prod.fst <$> ISEPServiceImpl.ihaGetOTP native ia ia'
  | ihaGetOTPSStatus native => ISEPServiceImpl.ihaGetOTPSStatus native
  | ihaGetOTPCapabilities native ia =>
      Prod.fst <$> ISEPServiceImpl.ihaGetOTPCapabilities native ia
  | ihaInstallOTPS native => ISEPServiceImpl.ihaInstallOTPS native
  | ihaUninstallOTPS native => ISEPServiceImpl.ihaUninstallOTPS native
  | ihaGetAppInstId native => ISEPServiceImpl.ihaGetAppInstId native

/-- The code with which the native operation fails, 0 if it succeeds. -/
def code : Request → Int32
  | ihaInit native | ihaDeInit native | ihaSendData native | ihaProcessSVPMessage native
  | ihaInstall native | ihaUninstall native | ihaDoFWUpdate native | ihaInstallOTPS native
  | ihaUninstallOTPS native => native.code
  | ihaStartProvisioning native | ihaGetVersion native | ihaGetOTPSStatus native => native.code
  | ihaEndProvisioning native _ | ihaReceiveData native _ | ihaGetSVPMessage native _
  | ihaSendAndReceiveData native _ | ihaGetCapabilities native _
  | ihaGetOTPCapabilities native _ => native.result.code
  | ihaGetOTP native _ _ => native.result.code
  | ihaGetAppInstId native => native.code

/-- Every operation records the code of its native operation. -/
theorem records (r : Request) : Records r.code r.run := by
  cases r with
  | ihaInit native => exact records_invoke _ _ native
  | ihaDeInit native => exact records_invoke _ _ native
  | ihaStartProvisioning native => exact records_invoke _ _ native
  | ihaEndProvisioning native ia => exact records_invokeLengths native ia
  | ihaSendData native => exact records_invoke _ _ native
  | ihaReceiveData native ia => exact records_invokeLengths native ia
  | ihaProcessSVPMessage native => exact records_invoke _ _ native
  | ihaGetSVPMessage native ia => exact records_invokeLengths native ia
  | ihaSendAndReceiveData native ia => exact records_invokeLengths native ia
  | ihaGetCapabilities native ia => exact records_invokeLengths native ia
  | ihaGetVersion native => exact records_invoke _ _ native
  | ihaInstall native => exact records_invoke _ _ native
  | ihaUninstall native => exact records_invoke _ _ native
  | ihaDoFWUpdate native => exact records_invoke _ _ native
  | ihaGetOTP native ia ia' => exact records_ihaGetOTP native ia ia'
  | ihaGetOTPSStatus native => exact records_invoke _ _ native
  | ihaGetOTPCapabilities native ia => exact records_invokeLengths native ia
  | ihaInstallOTPS native => exact records_invoke _ _ native
  | ihaUninstallOTPS native => exact records_invoke _ _ native
  | ihaGetAppInstId native => exact records_invoke _ _ native

end Request

variable {κ : Type}

/-- A call by client `k`. -/
inductive Call (κ : Type) where
  | request (k : κ) (r : Request)
  | ihaGetLastError (k : κ)

def Call.run : Call κ → ServiceM Value
  | .request _ r => r.run
  | .ihaGetLastError _ => Value.int <$> ISEPServiceImpl.ihaGetLastError

/-- The service after the calls `h` of all clients, in the order in which they arrive. -/
def after (h : List (Call κ)) : Service := h.foldl (fun s c => (c.run.run s).2) ⟨ihaRetSOk⟩

@[simp] theorem after_snoc (h : List (Call κ)) (c : Call κ) :
    after (h ++ [c]) = (c.run.run (after h)).2 := by
  simp [after]

/-- What a call is to the shared error slot. -/
def Call.event : Call κ → SharedSlot.Event κ Int32
  | .request k r => .operation k r.code
  | .ihaGetLastError k => .query k

/-- The history of the slot. -/
def events (h : List (Call κ)) : List (SharedSlot.Event κ Int32) := h.map Call.event

theorem events_snoc (h : List (Call κ)) (c : Call κ) :
    events (h ++ [c]) = events h ++ [c.event] := by
  simp [events]

/-- `IHAError` is the code in the slot. -/
theorem after_refines (h : List (Call κ)) :
    (after h).ihaError = (SharedSlot.after (events h)).code := by
  induction h using List.reverseRecOn with
  | nil => rfl
  | append_singleton h c ih =>
      rw [after_snoc, events_snoc, SharedSlot.after_snoc]
      cases c with
      | request k r =>
          show ((r.run.run (after h)).2).ihaError = _
          rw [r.records (after h)]
          by_cases h0 : r.code = 0
          · simpa [Service.record, Call.event, SharedSlot.Slot.step, h0] using ih
          · simp [Service.record, Call.event, SharedSlot.Slot.step, h0]
      | ihaGetLastError k => rfl

variable [DecidableEq κ]

/-- The code of the most recent operation of client `k`, 0 if it succeeded. -/
def lastCode (k : κ) (h : List (Call κ)) : Int32 := (SharedSlot.view k (events h)).lastCode

omit [DecidableEq κ] in
/-- The client whose failure `IHAError` holds. -/
def holder (h : List (Call κ)) : Option κ := (SharedSlot.after (events h)).owner

/-- After the calls `before`, a query returns the code of the client's own most recent operation,
and it neither receives nor clears the error of another client. -/
def AnsweredRight (before : List (Call κ)) : Call κ → Prop
  | .request _ _ => True
  | .ihaGetLastError k =>
      (ISEPServiceImpl.ihaGetLastError.run (after before)).1 = lastCode k before ∧
        ∀ j, holder before = some j → j = k

theorem answeredRight_iff (before : List (Call κ)) (c : Call κ) :
    AnsweredRight before c ↔ SharedSlot.RightAt (events before) c.event := by
  cases c with
  | request k r => exact Iff.rfl
  | ihaGetLastError k =>
      show (after before).ihaError = lastCode k before ∧ _ ↔ _
      rw [after_refines]
      exact Iff.rfl

/-- Every client asks once after each of its operations. When no client fails or asks while
another one still has a failure to ask for, every query is answered right; and once every
operation has been asked about, that is the only way. -/
theorem sharedError_right_iff (h : List (Call κ)) (halt : SharedSlot.Alternating (events h)) :
    (SharedSlot.Isolated (events h) → Everywhere AnsweredRight h) ∧
      (SharedSlot.Complete (events h) →
        (Everywhere AnsweredRight h ↔ SharedSlot.Isolated (events h))) := by
  have hright : Everywhere AnsweredRight h ↔ SharedSlot.Right (events h) :=
    (Everywhere.congr answeredRight_iff h).trans (everywhere_map Call.event h).symm
  rw [hright]
  exact ⟨SharedSlot.right_of_isolated halt, SharedSlot.right_iff_isolated halt⟩

/-! ## Two clients -/

inductive Client where
  | first
  | second
  deriving DecidableEq, Repr

/-- A failure with code 7. -/
def failing : Request := .ihaGetVersion (.error ⟨7, by decide⟩)

def succeeding : Request := .ihaGetVersion (.ok 1)

/-- The first client fails and asks, then the second one succeeds and asks. -/
def inTurns : List (Call Client) :=
  [.request .first failing, .ihaGetLastError .first, .request .second succeeding,
    .ihaGetLastError .second]

/-- The second client operates and asks between the failure of the first and its query. -/
def interleaved : List (Call Client) :=
  [.request .first failing, .request .second succeeding, .ihaGetLastError .second,
    .ihaGetLastError .first]

theorem alternating_inTurns : SharedSlot.Alternating (events inTurns) := by
  show Everywhere _ (((([] ++ [_]) ++ [_]) ++ [_]) ++ [_])
  simp only [everywhere_snoc]
  exact ⟨⟨⟨⟨everywhere_nil _, rfl⟩, rfl⟩, rfl⟩, rfl⟩

theorem alternating_interleaved : SharedSlot.Alternating (events interleaved) := by
  show Everywhere _ (((([] ++ [_]) ++ [_]) ++ [_]) ++ [_])
  simp only [everywhere_snoc]
  exact ⟨⟨⟨⟨everywhere_nil _, rfl⟩, rfl⟩, rfl⟩, rfl⟩

theorem complete_inTurns : SharedSlot.Complete (events inTurns) := by
  intro k
  cases k with
  | first => rfl
  | second => rfl

theorem isolated_inTurns : SharedSlot.Isolated (events inTurns) := by
  show Everywhere _ (((([] ++ [_]) ++ [_]) ++ [_]) ++ [_])
  simp only [everywhere_snoc]
  refine ⟨⟨⟨⟨everywhere_nil _, ?_⟩, ?_⟩, ?_⟩, ?_⟩
  · intro _ _ j _ hpending
    exact absurd hpending.1 (by simp)
  · intro k hk j hjk
    cases hk
    cases j with
    | first => exact absurd rfl hjk
    | second => decide
  · intro k hk
    cases hk
  · intro _ _ j _ hpending
    cases j with
    | first => exact absurd hpending (by decide)
    | second => exact absurd hpending (by decide)

/-- Clients that take turns are answered right. -/
theorem sharedError_right_inTurns :
    Everywhere AnsweredRight inTurns ∧
      (Everywhere AnsweredRight inTurns ↔ SharedSlot.Isolated (events inTurns)) :=
  ⟨(sharedError_right_iff inTurns alternating_inTurns).1 isolated_inTurns,
    (sharedError_right_iff inTurns alternating_inTurns).2 complete_inTurns⟩

/-- The second client succeeds, and is told the code of the first. -/
theorem sharedError_not_right :
    SharedSlot.Alternating (events interleaved) ∧ ¬ Everywhere AnsweredRight interleaved := by
  refine ⟨alternating_interleaved, fun hall => ?_⟩
  have hsecond := hall [.request .first failing, .request .second succeeding]
    (.ihaGetLastError .second) [.ihaGetLastError .first] rfl
  exact absurd hsecond.1 (by decide)

end Txei.Iha.ISEPServiceImpl

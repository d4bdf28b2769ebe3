import Txei.Acd.ReturnValue
import Txei.Acd.DataCommands
import Txei.Tee.ProcessCmd
import Txei.Machine.Ledger

/-!
# Handles of the customer data commands

Which connections the five commands close. A call opens at most one handle that outlives
`mei_connect`, and it either closes that handle or returns with the handle forgotten
(`Call.closedWhen`). The number of open handles is therefore what it was before each call of a
sequence exactly when every call of it meets the condition `Call.Closes` on its arguments and on
what the device and `calloc` answer (`handles_closed_iff`).
-/

namespace Txei.Acd

open Machine Machine.Prog Mei Tee

/-- What a call to the device does to the handles. -/
def deviceEntry : DeviceCall → Entry Int
  | .opened fd => .acquire fd
  | .closed fd => .release fd

/-- The handles that a run opens and closes. -/
def handles {ε α : Type} (r : Run DeviceCall Block ε α) : List (Entry Int) :=
  ledger deviceEntry r.log

section Handles

variable {ε α : Type}

@[simp] theorem handles_mk (res : Except ε α) (m : Mem Block) (l : Log DeviceCall Block) :
    handles ⟨res, m, l⟩ = ledger deviceEntry l := rfl

@[simp] theorem handles_prepend (l : Log DeviceCall Block) (r : Run DeviceCall Block ε α) :
    handles (r.prepend l) = ledger deviceEntry l ++ handles r := ledger_append deviceEntry l r.log

/-- A run that goes on after `x` adds its handles to those of `x`. -/
theorem handles_bind {γ : Type} {x : Prog DeviceCall Block ε α} {m : Mem Block} {a : α}
    (h : (x.run m).result = .ok a) (f : α → Prog DeviceCall Block ε γ) :
    handles ((x >>= f).run m) = handles (x.run m) ++ handles ((f a).run (x.run m).mem) := by
  rw [run_bind, Run.andThen_of_ok h, handles_prepend]
  rfl

theorem handles_bind_of_error {γ : Type} {x : Prog DeviceCall Block ε α} {m : Mem Block} {e : ε}
    (h : (x.run m).result = .error e) (f : α → Prog DeviceCall Block ε γ) :
    handles ((x >>= f).run m) = handles (x.run m) := by
  rw [run_bind, Run.andThen_of_error h]
  rfl

end Handles

/-- The ledger is in balance if `p` holds, and consists of one handle left open if not. -/
def ClosedWhen (p : Prop) (l : List (Entry Int)) : Prop :=
  (p → Balanced l) ∧ (¬ p → ∃ fd, l = [.acquire fd])

theorem ClosedWhen.balanced_iff {p : Prop} {l : List (Entry Int)} (h : ClosedWhen p l) :
    Balanced l ↔ p := by
  constructor
  · intro hbal
    by_contra hp
    obtain ⟨fd, rfl⟩ := h.2 hp
    exact not_balanced_acquire fd hbal
  · exact h.1

theorem closedWhen_of_balanced {p : Prop} {l : List (Entry Int)} (hp : p) (h : Balanced l) :
    ClosedWhen p l :=
  ⟨fun _ => h, fun hno => absurd hp hno⟩

/-- The rest of the ledger closes the handle that was opened. -/
theorem closedWhen_closed {p : Prop} (hp : p) {fd : Int} {l : List (Entry Int)}
    (h : l = [.release fd]) : ClosedWhen p (.acquire fd :: l) :=
  closedWhen_of_balanced hp (h ▸ balanced_pair fd)

/-- The rest of the ledger is empty. -/
theorem closedWhen_forgotten {p : Prop} (hp : ¬ p) {fd : Int} {l : List (Entry Int)}
    (h : l = []) : ClosedWhen p (.acquire fd :: l) :=
  ⟨fun hyes => absurd hyes hp, fun _ => ⟨fd, h ▸ rfl⟩⟩

/-! ## Opening, exchanging, closing -/

/-- A connection that fails behind the opened descriptor closes it again. -/
theorem handles_acdInit (c : Connect) (m : Mem Block) :
    (c.Succeeds → handles ((acdInit c).run m) = [.acquire c.openFd]) ∧
      (¬ c.Succeeds → Balanced (handles ((acdInit c).run m))) := by
  unfold acdInit teeInit meiConnect Connect.Succeeds
  by_cases hcalloc : c.calloc = true
  · by_cases hopen : c.openFd = -1
    · simp [hcalloc, hopen, balanced_nil]
    · by_cases hioctl : c.ioctl = 0
      · simp [hcalloc, hopen, hioctl, deviceEntry]
      · simp [hcalloc, hopen, hioctl, deviceEntry, balanced_pair]
  · simp [hcalloc, balanced_nil]

theorem run_acdInit (c : Connect) (m : Mem Block) :
    ((acdInit c).run m).result = .ok (if c.Succeeds then (0, some c.openFd) else (-1, none)) ∧
      ((acdInit c).run m).mem = m := by
  obtain ⟨hres, hmem⟩ := run_teeInit (ε := Int) c m
  unfold acdInit
  rw [run_bind, Run.andThen_of_ok hres]
  by_cases hc : c.Succeeds
  · simp [hc, hmem]
  · simp [hc, hmem]

/-- The test of the connection leaves its handles as they are. -/
theorem handles_openAcd (c : Connect) (m : Mem Block) :
    handles ((openAcd c).run m) = handles ((acdInit c).run m) := by
  obtain ⟨hres, -⟩ := run_acdInit c m
  unfold openAcd
  rw [handles_bind hres]
  by_cases hc : c.Succeeds
  · simp [hc]
  · simp [hc]

/-- Behind an opened connection a function goes on with the open handle. -/
theorem handles_openAcd_bind {c : Connect} (hc : c.Succeeds) (f : Option Int → Proc Int)
    (m : Mem Block) :
    handles ((openAcd c >>= f).run m) =
      .acquire c.openFd :: handles ((f (some c.openFd)).run m) := by
  obtain ⟨hopen, hmem⟩ := run_openAcd c m
  rw [if_pos hc] at hopen
  rw [handles_bind hopen, handles_openAcd, (handles_acdInit c m).1 hc, hmem]
  rfl

/-- Without a connection nothing is left open. -/
theorem balanced_openAcd_refused {c : Connect} (hc : ¬ c.Succeeds) (f : Option Int → Proc Int)
    (m : Mem Block) : Balanced (handles ((openAcd c >>= f).run m)) := by
  obtain ⟨hopen, -⟩ := run_openAcd c m
  rw [if_neg hc] at hopen
  rw [handles_bind_of_error hopen, handles_openAcd]
  exact (handles_acdInit c m).2 hc

section Transact

variable (x : Exchange) (paramsSize respSize : Nat) {fillParams : Proc Unit}

/-- The exchange opens and closes nothing. -/
theorem access_transact (ptrHandle : Option Int) (haccess : Within Event.IsAccess fillParams) :
    Within Event.IsAccess (transact x ptrHandle paramsSize respSize fillParams) := by
  refine .bind (by simp) fun _ => .bind (by simp) fun _ => .bind haccess fun _ => ?_
  exact within_processCmd x ptrHandle _ _ _ _ _ (by simp) (by simp)

/-- A function that opens a connection and makes one exchange on it closes its handle as the rest of
the function does, which goes on with the status of the exchange and, if something was received,
with the reply in its memory. -/
theorem closedWhen_openAcd_transact {p : Prop} (hfill : ∀ m, (fillParams.run m).result = .ok ())
    (hin : Within (Event.In [.fieldData] [.params]) fillParams)
    (haccess : Within Event.IsAccess fillParams) (f : Option Int → Nat → Proc Int)
    (hrefused : ¬ x.connect.Succeeds → p)
    (hlost : x.connect.Succeeds → x.received respSize = none → ∀ m', ClosedWhen p
      (.acquire x.connect.openFd :: handles ((f (some x.connect.openFd) teeFailure).run m')))
    (hgiven : x.connect.Succeeds → ∀ got, x.received respSize = some got → ∀ m',
      (∀ o, o + 4 ≤ respSize → m'.word .resp o = Mem.wordOf got o) → ClosedWhen p
        (.acquire x.connect.openFd ::
          handles ((f (some x.connect.openFd) teeSuccessful).run m')))
    (m : Mem Block) :
    ClosedWhen p (handles ((openAcd x.connect >>= fun ptrHandle =>
      transact x ptrHandle paramsSize respSize fillParams >>= f ptrHandle).run m)) := by
  by_cases hc : x.connect.Succeeds
  · rw [handles_openAcd_bind hc]
    obtain ⟨hfail, hok⟩ := transact_spec x paramsSize respSize hfill hin m
    have hquiet : handles ((transact x (some x.connect.openFd) paramsSize respSize
        fillParams).run m) = [] :=
      Within.ledger_eq_nil deviceEntry (access_transact x _ _ _ haccess) m
    cases hgot : x.received respSize with
    | none =>
        rw [handles_bind (hfail hgot), hquiet, List.nil_append]
        exact hlost hc hgot _
    | some got =>
        obtain ⟨hres, hword⟩ := hok got hgot
        rw [handles_bind hres, hquiet, List.nil_append]
        exact hgiven hc got hgot _ hword
  · exact closedWhen_of_balanced (hrefused hc) (balanced_openAcd_refused hc _ m)

end Transact

/-! ## Requests -/

theorem access_setHdrReq (op : Nat) : Within Event.IsAccess (setHdrReq op) :=
  .bind (by simp) fun _ => by simp

theorem access_setWriteParams (a : WriteArgs) : Within Event.IsAccess (setWriteParams a) := by
  refine .bind (access_setHdrReq _) fun _ => ?_
  exact .bind (by simp) fun _ => .bind (by simp) fun _ => .bind (by simp) fun _ => by simp

theorem access_setReadParams (a : ReadArgs) : Within Event.IsAccess (setReadParams a) :=
  .bind (access_setHdrReq _) fun _ => by simp

theorem access_setProvisionParams (a : ProvisionArgs) :
    Within Event.IsAccess (setProvisionParams a) := by
  refine .bind (access_setHdrReq _) fun _ => ?_
  exact .bind (by simp) fun _ => .bind (by simp) fun _ => .bind (by simp) fun _ => by simp

/-! ## The five commands -/

section Commands

variable (x : Exchange) (m : Mem Block)

/-- `lock_customer_data` and `wipe_customer_data` close the handle unless the exchange fails. -/
theorem closedWhen_lockCommand (n op : Nat) :
    ClosedWhen (x.connect.Succeeds → x.received AcdStatusToHost.size ≠ none)
      (handles ((lockCommand x n op).run m)) := by
  refine closedWhen_openAcd_transact x n AcdStatusToHost.size (fun m => by simp [setHdrReq])
    (within_setHdrReq op) (access_setHdrReq op) _ ?_ ?_ ?_ m
  · intro hc hyes
    exact absurd hyes hc
  · intro hc hnone m'
    exact closedWhen_forgotten (fun h => h hc hnone) rfl
  · intro hc got hgot m' hword
    refine closedWhen_closed (fun _ hnone => Option.some_ne_none got (hgot.symm.trans hnone)) ?_
    by_cases hs : m'.word .resp AcdStatusToHost.acdStatus = acdLockSuccess
    · simp [hs, run_closeAcd, deviceEntry]
    · simp [hs, run_closeAcd, deviceEntry]

/-- `set_customer_data` closes the handle only behind a reply of success. -/
theorem closedWhen_setCustomerData (a : WriteArgs) :
    ClosedWhen (a.InRange → x.connect.Succeeds →
        ∃ got, x.received AcdStatusToHost.size = some got ∧ statusOf got = acdWriteSuccess)
      (handles ((setCustomerData x a).run m)) := by
  unfold setCustomerData
  by_cases ha : a.InRange
  · rw [handles_bind (congrArg Run.result (ha.run_checkWriteArgs m)), ha.run_checkWriteArgs,
      handles_mk, ledger_nil, List.nil_append]
    refine closedWhen_openAcd_transact x AcdWriteCmdFromHost.size AcdStatusToHost.size
      (fun m => by simp [setWriteParams, setHdrReq]) (within_setWriteParams a)
      (access_setWriteParams a) _ ?_ ?_ ?_ m
    · intro hc _ hyes
      exact absurd hyes hc
    · intro hc hnone m'
      refine closedWhen_forgotten (fun h => ?_) rfl
      obtain ⟨got, hgot, -⟩ := h ha hc
      cases hnone.symm.trans hgot
    · intro hc got hgot m' hword
      have hstatus : m'.word .resp 8 = statusOf got := hword AcdStatusToHost.acdStatus (by decide)
      by_cases hs : statusOf got = acdWriteSuccess
      · refine closedWhen_closed (fun _ _ => ⟨got, hgot, hs⟩) ?_
        rw [hs] at hstatus
        simp [hstatus, run_closeAcd, deviceEntry]
      · refine closedWhen_forgotten (fun h => ?_) ?_
        · obtain ⟨got', hgot', hs'⟩ := h ha hc
          cases hgot.symm.trans hgot'
          exact hs hs'
        · simp only [acdWriteSuccess] at hs
          simp [hstatus, hs]
  · obtain ⟨code, -, hrun⟩ := checkWriteArgs_refuses m ha
    rw [handles_bind_of_error (congrArg Run.result hrun), hrun]
    exact closedWhen_of_balanced (fun hyes => absurd hyes ha) balanced_nil

/-- Up to the label `exit`, `get_customer_data` neither opens nor closes a handle. -/
theorem access_readField (calloc : UInt64) (a : ReadArgs) (ptrHandle : Option Int) :
    Within Event.IsAccess (readField x calloc a ptrHandle) := by
  refine .bind (within_exitIf _ _) fun _ => .bind (within_exitIf _ _) fun _ => ?_
  refine .bind (access_transact x _ _ _ (access_setReadParams a)) fun ret => ?_
  refine .bind (within_exitIf _ _) fun _ => .bind (by simp) fun acdStatus => ?_
  refine .bind (.onlyIf (by simp)) fun _ => .bind (within_exitIf _ _) fun _ => ?_
  refine .bind (by simp) fun _ => .bind (by simp [storeOutData]) fun _ => ?_
  refine .bind (within_exitIf _ _) fun _ => .bind (.bind (by simp) fun _ => by simp) fun _ => ?_
  exact within_pure _

/-- `get_customer_data` closes the handle on every path. -/
theorem balanced_getCustomerData (calloc : UInt64) (a : ReadArgs) :
    Balanced (handles ((getCustomerData x calloc a).run m)) := by
  obtain ⟨hres, -⟩ := run_acdInit x.connect m
  obtain ⟨hopened, hrefused⟩ := handles_acdInit x.connect m
  unfold getCustomerData
  rw [handles_bind hres]
  by_cases hc : x.connect.Succeeds
  · have hquiet : ledger deviceEntry ((readField x calloc a (some x.connect.openFd)).run
        ((acdInit x.connect).run m).mem).log = [] :=
      Within.ledger_eq_nil deviceEntry (access_readField x calloc a _) _
    rw [hopened hc]
    simp [hc, hquiet, run_closeAcd, deviceEntry, balanced_pair]
  · have hclosed := hrefused hc
    simp [hc, closeAcd, hclosed]

theorem within_setProvisionParams (a : ProvisionArgs) :
    Within (Event.In [.fieldData] [.params]) (setProvisionParams a) := by
  refine .bind (within_setHdrReq _) fun _ => ?_
  exact .bind (by simp) fun _ => .bind (by simp) fun _ => .bind (by simp) fun _ => by simp

/-- The arguments of `provision_customer_data` pass its checks. -/
structure ProvisionArgs.Admissible (a : ProvisionArgs) : Prop where
  size : acdMinDataSizeInBytes < a.inDataSize.toNat ∧ a.inDataSize.toNat ≤ acdMaxDataSizeInBytes
  pointers : a.pInData = true ∧ a.pOutDataSize = true
  outData : a.provisionSchema.toNat = 0 → a.pOutData = true

theorem ProvisionArgs.Admissible.run_checkProvisionArgs {a : ProvisionArgs} (h : a.Admissible) :
    (checkProvisionArgs a).run m = ⟨.ok (), m, []⟩ := by
  obtain ⟨hsize, ⟨hin, hout⟩, hdata⟩ := h
  unfold checkProvisionArgs
  simp only [run_exitIf_bind, run_exitIf]
  rw [if_neg (by omega), if_neg (by simp [hin]), if_neg (by simp [hout]), if_neg ?_]
  intro hnull
  exact absurd (hdata hnull.2) (by simp [hnull.1])

theorem checkProvisionArgs_refuses {a : ProvisionArgs} (h : ¬ a.Admissible) :
    (checkProvisionArgs a).run m = ⟨.error acdProvErrorIllegalParameter, m, []⟩ := by
  unfold checkProvisionArgs
  simp only [run_exitIf_bind, run_exitIf]
  split
  · rfl
  · split
    · rfl
    · split
      · rfl
      · split
        · rfl
        · -- every test has passed
          rename_i hsize hin hout hdata
          have hpos := Nat.pos_of_ne_zero fun h0 => hsize (.inl h0)
          refine absurd ⟨⟨hpos, by omega⟩, ⟨by simpa using hin, by simpa using hout⟩, ?_⟩ h
          intro hschema
          simpa [hschema] using hdata

theorem access_handOver (calloc : UInt64) (a : ProvisionArgs) :
    Within Event.IsAccess (handOver calloc a) := by
  refine .bind (by simp) fun _ => .ite ?_ ?_
  · exact .bind (by simp) fun _ => .onlyIf (by simp [storeOutData])
  · refine .bind (within_exitIf _ _) fun _ => .bind (by simp [storeOutData]) fun _ => ?_
    refine .bind (.onlyIf (by simp)) fun _ => .bind (within_exitIf _ _) fun _ => ?_
    exact .bind (.bind (by simp) fun _ => by simp) fun _ => by simp

section HandOver

variable (calloc : UInt64) (a : ProvisionArgs)

/-- Without data the size is 0, and the address null where there is an object for it. -/
theorem run_handOver_empty (hbytes : m.half .resp AcdReadCmdToHost.bytesRead = 0) :
    (handOver calloc a).run m =
      ((onlyIf (a.pOutData = true) (storeOutData 0)).run
        (m.write .outDataSize 0 4 (byteAt 0))).prepend
          [.read .resp AcdReadCmdToHost.bytesRead 2, .write .outDataSize 0 4] := by
  unfold handOver
  rw [run_bind, run_load16, Run.andThen_ok, hbytes, if_pos rfl, run_bind, run_store,
    Run.andThen_ok, Run.prepend_prepend]
  rfl

section Data

variable (hbytes : m.half .resp AcdReadCmdToHost.bytesRead ≠ 0)

include hbytes

theorem run_handOver_illegal (hout : a.pOutData ≠ true) :
    (handOver calloc a).run m =
      ⟨.error acdProvErrorIllegalParameter, m, [.read .resp AcdReadCmdToHost.bytesRead 2]⟩ := by
  unfold handOver
  rw [run_bind, run_load16, Run.andThen_ok, if_neg hbytes, run_exitIf_bind,
    if_pos (by simpa using hout)]
  rfl

theorem run_handOver_unallocated (hout : a.pOutData = true) :
    (handOver 0 a).run m =
      ⟨.error acdProvErrorReturnDataMemAllocFail,
        (m.write .outData 0 8 (byteAt 0)).write .outDataSize 0 4 (byteAt 0),
        [.read .resp AcdReadCmdToHost.bytesRead 2, .write .outData 0 8,
          .write .outDataSize 0 4]⟩ := by
  unfold handOver storeOutData
  rw [run_bind, run_load16, Run.andThen_ok, if_neg hbytes, run_exitIf_bind,
    if_neg (by simp [hout]), run_bind, run_put, Run.andThen_ok, run_bind, run_onlyIf, if_pos rfl,
    run_store, Run.andThen_ok, run_exitIf_bind, if_pos rfl]
  rfl

/-- Data with a place to go is copied there, and the caller gets its address and its size. -/
theorem run_handOver_copied (hout : a.pOutData = true) (hcalloc : calloc ≠ 0) :
    (handOver calloc a).run m =
      ⟨.ok (),
        ((copyOutData (m.half .resp AcdReadCmdToHost.bytesRead)).run
          (m.write .outData 0 8 (byteAt calloc.toNat))).mem.write .outDataSize 0 4
            (byteAt (m.half .resp AcdReadCmdToHost.bytesRead)),
        [.read .resp AcdReadCmdToHost.bytesRead 2, .write .outData 0 8] ++
          ((copyOutData (m.half .resp AcdReadCmdToHost.bytesRead)).run
            (m.write .outData 0 8 (byteAt calloc.toNat))).log ++ [.write .outDataSize 0 4]⟩ := by
  unfold handOver storeOutData
  rw [run_bind, run_load16, Run.andThen_ok, if_neg hbytes, run_exitIf_bind,
    if_neg (by simp [hout]), run_bind, run_put, Run.andThen_ok, run_bind, run_onlyIf,
    if_neg hcalloc, Run.andThen_ok, run_exitIf_bind, if_neg hcalloc]
  rfl

end Data

/-- The data of a reply is handed over, or the function returns a positive code. -/
theorem run_handOver :
    (m.half .resp AcdReadCmdToHost.bytesRead = 0 ∨ a.pOutData = true ∧ calloc ≠ 0 →
        ((handOver calloc a).run m).result = .ok ()) ∧
      (¬ (m.half .resp AcdReadCmdToHost.bytesRead = 0 ∨ a.pOutData = true ∧ calloc ≠ 0) →
        ∃ code, 0 < code ∧ ((handOver calloc a).run m).result = .error code) := by
  by_cases hbytes : m.half .resp AcdReadCmdToHost.bytesRead = 0
  · refine ⟨fun _ => ?_, fun h => absurd (.inl hbytes) h⟩
    rw [run_handOver_empty m calloc a hbytes, Run.prepend_result, run_onlyIf]
    split
    · rfl
    · rfl
  by_cases hout : a.pOutData = true
  · by_cases hcalloc : calloc = 0
    · refine ⟨fun h => ?_, fun _ => ⟨acdProvErrorReturnDataMemAllocFail, by decide, ?_⟩⟩
      · exact absurd hcalloc (h.resolve_left hbytes).2
      · rw [hcalloc, run_handOver_unallocated m a hbytes hout]
    · refine ⟨fun _ => ?_, fun h => absurd (.inr ⟨hout, hcalloc⟩) h⟩
      rw [run_handOver_copied m calloc a hbytes hout hcalloc]
  · refine ⟨fun h => ?_, fun _ => ⟨acdProvErrorIllegalParameter, by decide, ?_⟩⟩
    · exact absurd (h.resolve_left hbytes).1 hout
    · rw [run_handOver_illegal m calloc a hbytes hout]

end HandOver

/-- The `acd_status` in a reply with data of which `got` was received. -/
def readStatusOf (got : List UInt8) : Nat := Mem.wordOf got AcdReadCmdToHost.acdStatus

/-- The `bytes_read` in a reply with data of which `got` was received. -/
def bytesReadOf (got : List UInt8) : Nat := wrap16 (Mem.wordOf got AcdReadCmdToHost.bytesRead)

/-- A reply that `provision_customer_data` hands over: it reports success, and its data has
somewhere to go. -/
def HandedOver (calloc : UInt64) (a : ProvisionArgs) (got : List UInt8) : Prop :=
  readStatusOf got = acdProvSuccess ∧
    (bytesReadOf got = 0 ∨ a.pOutData = true ∧ calloc ≠ 0)

/-- The lines of `provision_customer_data` behind the exchange. -/
def takeProvisionReply (calloc : UInt64) (a : ProvisionArgs) (ptrHandle : Option Int) :
    Proc Int := do
  let ret ← load .resp AcdReadCmdToHost.acdStatus
  exitIf (ret ≠ acdProvSuccess) (int32 (uint32 (acdProvSuccess - ret)))
  handOver calloc a
  closeAcd ptrHandle
  pure acdProvSuccess

/-- They close the handle behind a reply that is handed over. -/
theorem handles_takeProvisionReply (calloc : UInt64) (a : ProvisionArgs) (fd : Int)
    {got : List UInt8} (hstatus : m.word .resp AcdReadCmdToHost.acdStatus = readStatusOf got)
    (hbytes : m.half .resp AcdReadCmdToHost.bytesRead = bytesReadOf got) :
    (HandedOver calloc a got →
        handles ((takeProvisionReply calloc a (some fd)).run m) = [.release fd]) ∧
      (¬ HandedOver calloc a got →
        handles ((takeProvisionReply calloc a (some fd)).run m) = []) := by
  obtain ⟨hgo, hleave⟩ := run_handOver m calloc a
  have hquiet := Within.ledger_eq_nil deviceEntry (access_handOver calloc a) m
  unfold takeProvisionReply
  rw [run_bind, run_load, Run.andThen_ok, handles_prepend, run_exitIf_bind, hstatus]
  constructor
  · intro hover
    obtain ⟨hs, hplace⟩ := hover
    rw [if_neg (not_not_intro hs), handles_bind (hgo (hbytes ▸ hplace)), handles, hquiet]
    simp [run_closeAcd, deviceEntry]
  · intro hno
    by_cases hs : readStatusOf got = acdProvSuccess
    · obtain ⟨code, -, hcode⟩ := hleave fun hplace => hno ⟨hs, hbytes ▸ hplace⟩
      rw [if_neg (not_not_intro hs), handles_bind_of_error hcode, handles, hquiet]
      rfl
    · rw [if_pos hs]
      rfl

/-- `provision_customer_data` closes the handle only behind a reply it hands over. -/
theorem closedWhen_provisionCustomerData (calloc : UInt64) (a : ProvisionArgs) :
    ClosedWhen (a.Admissible → x.connect.Succeeds →
        ∃ got, x.received AcdReadCmdToHost.size = some got ∧ HandedOver calloc a got)
      (handles ((provisionCustomerData x calloc a).run m)) := by
  unfold provisionCustomerData
  by_cases ha : a.Admissible
  · rw [handles_bind (congrArg Run.result (ha.run_checkProvisionArgs m)),
      ha.run_checkProvisionArgs, handles_mk, ledger_nil, List.nil_append]
    refine closedWhen_openAcd_transact x AcdWriteCmdFromHost.size AcdReadCmdToHost.size
      (fun m => by simp [setProvisionParams, setHdrReq]) (within_setProvisionParams a)
      (access_setProvisionParams a) _ ?_ ?_ ?_ m
    · intro hc _ hyes
      exact absurd hyes hc
    · intro hc hnone m'
      refine closedWhen_forgotten (fun h => ?_) rfl
      obtain ⟨got, hgot, -⟩ := h ha hc
      cases hnone.symm.trans hgot
    · intro hc got hgot m' hword
      have hbytes : m'.half .resp AcdReadCmdToHost.bytesRead = bytesReadOf got := by
        rw [Mem.half_eq_word, hword AcdReadCmdToHost.bytesRead (by decide)]
        rfl
      obtain ⟨hclosed, hforgotten⟩ := handles_takeProvisionReply m' calloc a x.connect.openFd
        (hword AcdReadCmdToHost.acdStatus (by decide)) hbytes
      by_cases hover : HandedOver calloc a got
      · refine closedWhen_closed (fun _ _ => ⟨got, hgot, hover⟩) ?_
        rw [run_exitIf_bind, if_neg (by decide)]
        exact hclosed hover
      · refine closedWhen_forgotten (fun h => ?_) ?_
        · obtain ⟨got', hgot', hover'⟩ := h ha hc
          cases hgot.symm.trans hgot'
          exact hover hover'
        · rw [run_exitIf_bind, if_neg (by decide)]
          exact hforgotten hover
  · have hrun := checkProvisionArgs_refuses m ha
    rw [handles_bind_of_error (congrArg Run.result hrun), hrun]
    exact closedWhen_of_balanced (fun hyes => absurd hyes ha) balanced_nil

end Commands

/-! ## Sequences of calls -/

/-- A call of one of the five commands: its arguments, what the device and `calloc` answer, and the
memory it finds. -/
inductive Call where
  | lockCustomerData (x : Exchange) (m : Mem Block)
  | wipeCustomerData (x : Exchange) (m : Mem Block)
  | setCustomerData (x : Exchange) (a : WriteArgs) (m : Mem Block)
  | getCustomerData (x : Exchange) (calloc : UInt64) (a : ReadArgs) (m : Mem Block)
  | provisionCustomerData (x : Exchange) (calloc : UInt64) (a : ProvisionArgs) (m : Mem Block)

/-- The handles that a call opens and closes. -/
def Call.handles : Call → List (Entry Int)
  | .lockCustomerData x m => Acd.handles ((Acd.lockCustomerData x).run m)
  | .wipeCustomerData x m => Acd.handles ((Acd.wipeCustomerData x).run m)
  | .setCustomerData x a m => Acd.handles ((Acd.setCustomerData x a).run m)
  | .getCustomerData x calloc a m => Acd.handles ((Acd.getCustomerData x calloc a).run m)
  | .provisionCustomerData x calloc a m =>
      Acd.handles ((Acd.provisionCustomerData x calloc a).run m)

/-- The call leaves no handle open, judged by its arguments and what it is answered. -/
def Call.Closes : Call → Prop
  | .lockCustomerData x _ | .wipeCustomerData x _ =>
      x.connect.Succeeds → x.received AcdStatusToHost.size ≠ none
  | .setCustomerData x a _ =>
      a.InRange → x.connect.Succeeds →
        ∃ got, x.received AcdStatusToHost.size = some got ∧ statusOf got = acdWriteSuccess
  | .getCustomerData .. => True
  | .provisionCustomerData x calloc a _ =>
      a.Admissible → x.connect.Succeeds →
        ∃ got, x.received AcdReadCmdToHost.size = some got ∧ HandedOver calloc a got

theorem Call.closedWhen (c : Call) : ClosedWhen c.Closes c.handles := by
  cases c with
  | lockCustomerData x m => exact closedWhen_lockCommand x m _ _
  | wipeCustomerData x m => exact closedWhen_lockCommand x m _ _
  | setCustomerData x a m => exact closedWhen_setCustomerData x m a
  | getCustomerData x calloc a m =>
      exact closedWhen_of_balanced trivial (balanced_getCustomerData x m calloc a)
  | provisionCustomerData x calloc a m => exact closedWhen_provisionCustomerData x m calloc a

/-- The handles that are open behind the calls, when those of `s` are open before them. -/
def openHandles (s : Multiset Int) (calls : List Call) : Multiset Int :=
  held s (calls.flatMap Call.handles)

theorem openHandles_snoc (s : Multiset Int) (calls : List Call) (c : Call) :
    openHandles s (calls ++ [c]) = held (openHandles s calls) c.handles := by
  simp [openHandles, held_append]

/-- A call closes every handle that it opens, and no other, so that as many handles are open behind
it as before. -/
def ClosesItsHandles (s : Multiset Int) (calls : List Call) (c : Call) : Prop :=
  Balanced c.handles ∧ (openHandles s (calls ++ [c])).card = (openHandles s calls).card

theorem closesItsHandles_iff (s : Multiset Int) (calls : List Call) (c : Call) :
    ClosesItsHandles s calls c ↔ c.Closes := by
  unfold ClosesItsHandles
  rw [openHandles_snoc, c.closedWhen.balanced_iff]
  constructor
  · intro h
    exact h.1
  · intro h
    exact ⟨h, congrArg Multiset.card (c.closedWhen.1 h _)⟩

/-- In a sequence of calls, every one leaves as many handles open as it finds exactly when every one
meets its condition: `lock_customer_data` and `wipe_customer_data` return from a failed exchange
with the handle open, `set_customer_data` and `provision_customer_data` also from a reply of
failure, and the latter where it has no buffer for the data. -/
theorem handles_closed_iff (s : Multiset Int) (calls : List Call) :
    Everywhere (ClosesItsHandles s) calls ↔ ∀ c ∈ calls, c.Closes := by
  rw [Everywhere.congr (closesItsHandles_iff s), everywhere_iff_forall_mem]

/-- A device on which nothing can be read. -/
def silentDevice : Exchange := { answering 8 [] with read := none }

/-- `lock_customer_data` returns from a failed receive with descriptor 3 open. -/
theorem handles_not_closed :
    openHandles 0 [.lockCustomerData silentDevice (.ofLists fun _ => [])] = {3} ∧
      ¬ Everywhere (ClosesItsHandles 0)
        [.lockCustomerData silentDevice (.ofLists fun _ => [])] := by
  refine ⟨by decide, fun h => ?_⟩
  obtain ⟨-, hcard⟩ := h [] _ [] rfl
  exact absurd hcard (by decide)

end Txei.Acd

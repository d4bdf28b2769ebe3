import Txei.Acd.ReadValue

/-!
# When `provision_customer_data` succeeds

`provision_customer_data` returns 0 exactly when its arguments pass the checks and a reply is
received that it hands over (`value_provisionCustomerData_eq_zero_iff`). Behind it the caller's
objects hold the size of the data and the address of its buffer.
-/

namespace Txei.Acd

open Machine Machine.Prog Mei Tee

variable (x : Exchange) (calloc : UInt64) (a : ProvisionArgs) (m : Mem Block)

/-- The firmware provisioned, and the data it returned has somewhere to go. -/
def Provisioned : Prop :=
  a.Admissible ∧ x.connect.Succeeds ∧
    ∃ got ∈ x.received AcdReadCmdToHost.size, HandedOver calloc a got

/-- The caller's objects hold the size of the data, and the address of its buffer or null if there
is none. -/
theorem handOver_spec (h : m.half .resp AcdReadCmdToHost.bytesRead = 0 ∨
    a.pOutData = true ∧ calloc ≠ 0) :
    ((handOver calloc a).run m).mem.word .outDataSize 0 =
        m.half .resp AcdReadCmdToHost.bytesRead ∧
      (a.pOutData = true → ∀ i < 8, ((handOver calloc a).run m).mem .outData i =
        byteAt (if m.half .resp AcdReadCmdToHost.bytesRead = 0 then 0 else calloc).toNat i) := by
  have hlt := Mem.half_lt m .resp AcdReadCmdToHost.bytesRead
  by_cases hzero : m.half .resp AcdReadCmdToHost.bytesRead = 0
  · rw [run_handOver_empty m calloc a hzero, Run.prepend_mem, hzero, if_pos rfl, run_onlyIf]
    constructor
    · split
      · unfold storeOutData
        rw [run_put, Mem.word_write_other _ 0 8 0 _ (by decide), Mem.word_write_same]
        rfl
      · exact Mem.word_write_same m .outDataSize 0 0
    · intro hout i hi
      rw [if_pos hout]
      exact Mem.write_inside _ Block.outData 0 8 _ i (by omega)
  · obtain ⟨hout, hcalloc⟩ := h.resolve_left hzero
    rw [run_handOver_copied m calloc a hzero hout hcalloc, if_neg hzero]
    generalize m.half .resp AcdReadCmdToHost.bytesRead = n at hlt ⊢
    obtain ⟨-, -, -, hpointer⟩ := copyOutData_spec n (m.write .outData 0 8 (byteAt calloc.toNat))
    have hsize : wrap32 n = n := wrap32_of_lt (by omega)
    have hother : Block.outData ≠ .outDataSize := by decide
    refine ⟨?_, fun _ i hi => ?_⟩
    · rw [Mem.word_write_same, hsize]
    · simp only [Mem.write_other _ 0 4 (byteAt n) hother, hpointer]
      exact Mem.write_inside m .outData 0 8 (byteAt calloc.toNat) i (by omega)

section TakeProvisionReply

variable {a} {m} {got : List UInt8} (fd : Int)

/-- A reply that is handed over returns 0, with the caller's objects set. -/
theorem takeProvisionReply_handedOver (h : ReplyIs got m) (hover : HandedOver calloc a got) :
    ((takeProvisionReply calloc a (some fd)).run m).value = acdProvSuccess ∧
      ((takeProvisionReply calloc a (some fd)).run m).mem = ((handOver calloc a).run m).mem := by
  obtain ⟨hs, hplace⟩ := hover
  rw [← h.bytesRead] at hplace
  unfold takeProvisionReply
  rw [run_bind, run_load, Run.andThen_ok, h.status, run_exitIf_bind, if_neg (not_not_intro hs),
    run_bind, Run.andThen_of_ok ((run_handOver m calloc a).1 hplace), run_bind, run_closeAcd]
  simp only [Run.andThen_ok, run_pure, Run.value_prepend, Run.value_ok, Run.prepend_mem, and_self]

/-- Any other reply returns something else. -/
theorem takeProvisionReply_kept (h : ReplyIs got m) (hover : ¬ HandedOver calloc a got) :
    ((takeProvisionReply calloc a (some fd)).run m).value ≠ acdProvSuccess := by
  unfold takeProvisionReply
  rw [run_bind, run_load, Run.andThen_ok, h.status, run_exitIf_bind]
  by_cases hs : readStatusOf got = acdProvSuccess
  · have hplace : ¬ (m.half .resp AcdReadCmdToHost.bytesRead = 0 ∨
        a.pOutData = true ∧ calloc ≠ 0) := by
      rw [h.bytesRead]
      exact fun hyes => hover ⟨hs, hyes⟩
    obtain ⟨code, hpos, hcode⟩ := (run_handOver m calloc a).2 hplace
    rw [if_neg (not_not_intro hs), run_bind, Run.andThen_of_error hcode]
    simp only [Run.value_prepend, Run.value_error]
    exact hpos.ne'
  · have hlt := readStatusOf_lt got
    rw [if_pos hs]
    simp only [Run.value_prepend, Run.value_error, int32, uint32]
    simp only [acdProvSuccess] at hs ⊢
    omega

end TakeProvisionReply

variable {a}

/-- The exchange of `provision_customer_data`. -/
def provisionExchange (x : Exchange) (a : ProvisionArgs) : Proc Nat :=
  transact x (some x.connect.openFd) AcdWriteCmdFromHost.size AcdReadCmdToHost.size
    (setProvisionParams a)

theorem within_provisionExchange (x : Exchange) (a : ProvisionArgs) :
    Within (Event.In [.fieldData, .params] [.params, .resp]) (provisionExchange x a) :=
  within_transact x _ _ _ (within_setProvisionParams a)

theorem within_openAcd (c : Connect) : Within (Event.In [] []) (openAcd c) := by
  refine .bind (within_acdInit c) fun _ => ?_
  exact .bind (within_exitIf _ _) fun _ => within_pure _

theorem run_provisionCustomerData_refused (ha : ¬ a.Admissible) :
    (provisionCustomerData x calloc a).run m = ⟨.error acdProvErrorIllegalParameter, m, []⟩ := by
  unfold provisionCustomerData
  rw [run_bind, checkProvisionArgs_refuses m ha, Run.andThen_error]

theorem run_provisionCustomerData_unconnected (ha : a.Admissible) (hc : ¬ x.connect.Succeeds) :
    (provisionCustomerData x calloc a).run m =
      ⟨.error (-1), m, ((openAcd x.connect).run m).log⟩ := by
  obtain ⟨hopen, hsame⟩ := run_openAcd x.connect m
  rw [if_neg hc] at hopen
  unfold provisionCustomerData
  rw [run_bind, ha.run_checkProvisionArgs, Run.andThen_ok, run_bind,
    Run.andThen_of_error hopen, hsame]
  rfl

/-- A failed receive is negated once too often. -/
theorem run_provisionCustomerData_lost (ha : a.Admissible) (hc : x.connect.Succeeds)
    (hgot : x.received AcdReadCmdToHost.size = none) :
    (provisionCustomerData x calloc a).run m =
      ⟨.error 1, ((provisionExchange x a).run m).mem,
        ((openAcd x.connect).run m).log ++ ((provisionExchange x a).run m).log⟩ := by
  obtain ⟨hopen, hsame⟩ := run_openAcd x.connect m
  rw [if_pos hc] at hopen
  obtain ⟨hfail, -⟩ := transact_bytes x AcdWriteCmdFromHost.size AcdReadCmdToHost.size
    (fun m => by simp [setProvisionParams, setHdrReq]) (within_setProvisionParams a) m
  have hcode : int32 (uint32 (acdProvSuccess - teeFailure)) = 1 := int32_neg_teeFailure
  unfold provisionCustomerData
  rw [run_bind, ha.run_checkProvisionArgs, Run.andThen_ok, run_bind, Run.andThen_of_ok hopen,
    hsame, run_bind, Run.andThen_of_ok (hfail hgot), run_exitIf_bind, if_pos (by decide), hcode,
    Run.prepend_prepend, Run.prepend_prepend, Run.prepend_silent]
  rfl

/-- A reply decides. -/
theorem run_provisionCustomerData_answered (ha : a.Admissible) (hc : x.connect.Succeeds)
    {got : List UInt8} (hgot : x.received AcdReadCmdToHost.size = some got) :
    ReplyIs got ((provisionExchange x a).run m).mem ∧
      (provisionCustomerData x calloc a).run m =
        ((takeProvisionReply calloc a (some x.connect.openFd)).run
          ((provisionExchange x a).run m).mem).prepend
            (((openAcd x.connect).run m).log ++ ((provisionExchange x a).run m).log) := by
  obtain ⟨hopen, hsame⟩ := run_openAcd x.connect m
  rw [if_pos hc] at hopen
  obtain ⟨-, hok⟩ := transact_bytes x AcdWriteCmdFromHost.size AcdReadCmdToHost.size
    (fun m => by simp [setProvisionParams, setHdrReq]) (within_setProvisionParams a) m
  obtain ⟨hres, hbytes⟩ := hok got hgot
  refine ⟨hbytes, ?_⟩
  unfold provisionCustomerData
  rw [run_bind, ha.run_checkProvisionArgs, Run.andThen_ok, run_bind, Run.andThen_of_ok hopen,
    hsame, run_bind, Run.andThen_of_ok hres, run_exitIf_bind, if_neg (by decide),
    Run.prepend_prepend, Run.prepend_prepend]
  rfl

/-- Behind a reply that is handed over, the caller has the size and the address of its data. -/
theorem provisionCustomerData_handedOver (ha : a.Admissible) (hc : x.connect.Succeeds)
    {got : List UInt8} (hgot : x.received AcdReadCmdToHost.size = some got)
    (hover : HandedOver calloc a got) :
    ((provisionCustomerData x calloc a).run m).mem.word .outDataSize 0 = bytesReadOf got ∧
      (a.pOutData = true → ∀ i < 8, ((provisionCustomerData x calloc a).run m).mem .outData i =
        byteAt (if bytesReadOf got = 0 then 0 else calloc).toNat i) := by
  obtain ⟨hreply, hrun⟩ := run_provisionCustomerData_answered x calloc m ha hc hgot
  obtain ⟨-, hgiven⟩ := takeProvisionReply_handedOver calloc x.connect.openFd hreply hover
  have hplace := hover.2
  rw [hrun, Run.prepend_mem, hgiven, ← hreply.bytesRead]
  rw [← hreply.bytesRead] at hplace
  exact handOver_spec calloc a _ hplace

/-- `provision_customer_data` returns 0 exactly when the firmware provisioned and the data it
returned was handed over. -/
theorem value_provisionCustomerData_eq_zero_iff :
    ((provisionCustomerData x calloc a).run m).value = acdProvSuccess ↔ Provisioned x calloc a := by
  unfold Provisioned
  by_cases ha : a.Admissible
  · by_cases hc : x.connect.Succeeds
    · cases hgot : x.received AcdReadCmdToHost.size with
      | none =>
          rw [run_provisionCustomerData_lost x calloc m ha hc hgot, Run.value_error]
          simp
      | some got =>
          obtain ⟨hreply, hrun⟩ := run_provisionCustomerData_answered x calloc m ha hc hgot
          rw [hrun, Run.value_prepend]
          by_cases hover : HandedOver calloc a got
          · exact iff_of_true (takeProvisionReply_handedOver calloc _ hreply hover).1
              ⟨ha, hc, got, rfl, hover⟩
          · refine iff_of_false (takeProvisionReply_kept calloc _ hreply hover) ?_
            intro hyes
            obtain ⟨-, -, got', hmem, hover'⟩ := hyes
            rw [Option.mem_some_iff] at hmem
            exact hover (hmem ▸ hover')
    · rw [run_provisionCustomerData_unconnected x calloc m ha hc, Run.value_error]
      exact iff_of_false (by decide) fun hyes => hc hyes.2.1
  · rw [run_provisionCustomerData_refused x calloc m ha, Run.value_error]
    exact iff_of_false (by decide) fun hyes => ha hyes.1

end Txei.Acd

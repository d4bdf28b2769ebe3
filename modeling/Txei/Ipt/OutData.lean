import Txei.Ipt.Status
import Txei.Ipt.Mvfw
import Txei.Tee.ProcessCmd

/-!
# The caller's output buffer

Three lengths meet when a reply is handed to the caller: the capacity in `*out_data_length` at the
start of a call, the `out_data_length` of the reply, and the size of the reply's `out_data` array.
`outData_bounded_iff` says for which replies `ipt_send_message` and `mvsepfw_sendmessage` keep to
the first and the last and report the second.
-/

namespace Txei.Ipt

open Machine Machine.Prog Mei Tee

/-- What a call with room for `capacity` bytes does with a reply: it writes no more than that, it
reads within the reply structure, and if it reports success, the length `outLen` it leaves is at
most the capacity and the one in the reply. -/
structure OutputBounded (capacity : Nat) (x : Exchange) (r : Run DeviceCall Block Nat Nat)
    (outLen : Nat) : Prop where
  writes : Log.WritesBelow .outData capacity r.log
  reads : Log.ReadsBelow .gRespParam IptSendMsgCmdToHost.size r.log
  length : x.received IptSendMsgCmdToHost.size ≠ none → r.value = iptSuccess →
    outLen ≤ capacity ∧ outLen = r.mem.word .gRespParam IptSendMsgCmdToHost.outDataLength

/-! ## The exchange -/

section Exchange

variable (x : Exchange) {α : Type} (f : Proc α) (m : Mem Block)

/-- `process_cmd` on the two globals, with the test of its status. -/
def transfer : Proc Unit := do
  let ret ← processCmd x (some x.connect.openFd)
    (some ⟨some .gReqParam, IptSendMsgCmdFromHost.size⟩)
    (some ⟨some .gRespParam, IptSendMsgCmdToHost.size⟩) 1
  exitIf (ret ≠ iptSuccess) ret

theorem within_transfer : Within (Event.In [.gReqParam] [.gRespParam]) (transfer x) := by
  refine .bind (within_processCmd x _ _ _ _ _ _ (by simp) (by simp)) fun ret => ?_
  exact within_exitIf _ _

/-- Without a reply the status is that of a failed receive; with one, it lies over what the reply
structure held. -/
theorem transfer_spec :
    (x.received IptSendMsgCmdToHost.size = none →
        ((transfer x).run m).result = .error teeFailure) ∧
      ∀ got, x.received IptSendMsgCmdToHost.size = some got →
        ((transfer x).run m).result = .ok () ∧
          ((transfer x).run m).mem = m.fill .gRespParam got := by
  obtain ⟨hfail, hok⟩ := run_processCmd (ε := Nat) x Block.gReqParam Block.gRespParam
    IptSendMsgCmdFromHost.size IptSendMsgCmdToHost.size (by decide : 1 ≠ 0) m
  unfold transfer
  constructor
  · intro hnone
    rw [run_bind, Run.andThen_of_ok (hfail hnone), run_exitIf, if_pos (by decide)]
    rfl
  · intro got hgot
    obtain ⟨hres, hmem⟩ := hok got hgot
    rw [run_bind, Run.andThen_of_ok hres, run_exitIf, if_neg (by decide), hmem]
    exact ⟨rfl, rfl⟩

/-- An exchange followed by `copy` keeps to the lengths and leaves what `Q` asks for exactly when
`copy` does so on every reply. -/
theorem transfer_andThen_iff (copy : Proc α) (capacity : Nat)
    {Q : Run DeviceCall Block Nat α → Prop} (hQ : ∀ r l, Q (r.prepend l) ↔ Q r) :
    let r := ((transfer x).run m).andThen fun _ => copy.run
    (Log.WritesBelow .outData capacity r.log ∧
        Log.ReadsBelow .gRespParam IptSendMsgCmdToHost.size r.log ∧
        (x.received IptSendMsgCmdToHost.size ≠ none → Q r)) ↔
      ∀ got, x.received IptSendMsgCmdToHost.size = some got →
        let r' := copy.run (m.fill .gRespParam got)
        Log.WritesBelow .outData capacity r'.log ∧
          Log.ReadsBelow .gRespParam IptSendMsgCmdToHost.size r'.log ∧ Q r' := by
  obtain ⟨hlost, hgiven⟩ := transfer_spec x m
  have hw := (within_transfer x).writesBelow (b := .outData) (by simp) m capacity
  have hr := (within_transfer x).readsBelow (b := .gRespParam) (by simp) m
    IptSendMsgCmdToHost.size
  cases hgot : x.received IptSendMsgCmdToHost.size with
  | none =>
      rw [Run.andThen_of_error (hlost hgot)]
      exact iff_of_true ⟨hw, hr, fun hne => absurd rfl hne⟩ (fun got hsome => nomatch hsome)
  | some got =>
      obtain ⟨hok, hmem⟩ := hgiven got hgot
      rw [Run.andThen_of_ok hok, hmem]
      simp only [Run.prepend_log, Log.writesBelow_append, Log.readsBelow_append, hw, hr, true_and,
        hQ]
      constructor
      · intro h got' hgot'
        cases hgot'
        exact ⟨h.1, h.2.1, h.2.2 (Option.some_ne_none got)⟩
      · intro h
        obtain ⟨hwrites, hreads, hQ⟩ := h got rfl
        exact ⟨hwrites, hreads, fun _ => hQ⟩

end Exchange

/-! ## Handing a message to the caller -/

section Copy

variable (m : Mem Block)

/-- `out_data_length` of the reply structure. -/
@[simp] abbrev repliedLength : Nat := m.word .gRespParam IptSendMsgCmdToHost.outDataLength

/-- `header.status` of the reply structure. -/
@[simp] abbrev repliedStatus : Nat := m.word .gRespParam IptHeader.status

/-- `ipt_send_message` behind the exchange. -/
def copyMessage : Proc Unit := do
  let status ← load .gRespParam IptHeader.status
  exitIf (status ≠ iptSuccess) status
  let outDataLength ← load .gRespParam IptSendMsgCmdToHost.outDataLength
  store16 .outDataLength 0 outDataLength
  onlyIf (outDataLength ≠ 0)
    (memcpy .outData 0 .gRespParam IptSendMsgCmdToHost.outData (wrap16 outDataLength))

theorem exchangeMessage_run (x : Exchange) :
    (exchangeMessage x (some x.connect.openFd)).run m =
      ((transfer x).run m).andThen fun _ => copyMessage.run := by
  unfold exchangeMessage transfer
  rw [run_bind, run_bind, Run.andThen_assoc]
  rfl

theorem copyMessage_refused (h : repliedStatus m ≠ iptSuccess) :
    copyMessage.run m = ⟨.error (repliedStatus m), m, [.read .gRespParam 4 4]⟩ := by
  simp only [repliedStatus, IptHeader.status, iptSuccess] at h
  simp [copyMessage, h, Run.prepend]

/-- A reply of success: the length goes through 16 bits, and as many bytes are copied. -/
theorem copyMessage_accepted (h : repliedStatus m = iptSuccess) :
    (copyMessage.run m).result = .ok () ∧
      (copyMessage.run m).mem.half .outDataLength 0 = wrap16 (repliedLength m) ∧
      repliedLength (copyMessage.run m).mem = repliedLength m ∧
      (∀ n, Log.WritesBelow .outData n (copyMessage.run m).log ↔
        wrap16 (repliedLength m) ≤ n) ∧
      ∀ n, 12 ≤ n → (Log.ReadsBelow .gRespParam n (copyMessage.run m).log ↔
        12 + wrap16 (repliedLength m) ≤ n) := by
  simp only [repliedStatus, IptHeader.status, iptSuccess] at h
  by_cases hzero : m.word .gRespParam 8 = 0
  · have h0 : wrap16 0 = 0 := rfl
    simp [copyMessage, h, hzero, h0]
    omega
  · simp [copyMessage, h, hzero]
    constructor
    · intro n hwrap
      omega
    · intro n hn
      omega

/-- `mvfw_cmd` behind the exchange of a message. -/
def copyMvfw : Proc Nat := do
  let ret ← load .gRespParam IptHeader.status
  exitIf (ret ≠ mvfwSuccess) ret
  let outDataLength ← load .gRespParam IptSendMsgCmdToHost.outDataLength
  store .outDataLength 0 outDataLength
  onlyIf (outDataLength ≠ 0)
    (memcpy .outData 0 .gRespParam IptSendMsgCmdToHost.outData outDataLength)
  pure ret

theorem exchangeMvfw_run (x : Exchange) :
    (exchangeMvfw x (some x.connect.openFd) mvfwSendMsgCmdId).run m =
      ((transfer x).run m).andThen fun _ => copyMvfw.run := by
  unfold exchangeMvfw transfer
  rw [run_bind, run_bind, Run.andThen_assoc]
  rfl

theorem copyMvfw_refused (h : repliedStatus m ≠ mvfwSuccess) :
    copyMvfw.run m = ⟨.error (repliedStatus m), m, [.read .gRespParam 4 4]⟩ := by
  simp only [repliedStatus, IptHeader.status, mvfwSuccess] at h
  simp [copyMvfw, h, Run.prepend]

/-- A reply of success: as many bytes are copied as it says. -/
theorem copyMvfw_accepted (h : repliedStatus m = mvfwSuccess) :
    (copyMvfw.run m).result = .ok mvfwSuccess ∧
      (copyMvfw.run m).mem.word .outDataLength 0 = repliedLength m ∧
      repliedLength (copyMvfw.run m).mem = repliedLength m ∧
      (∀ n, Log.WritesBelow .outData n (copyMvfw.run m).log ↔ repliedLength m ≤ n) ∧
      ∀ n, 12 ≤ n → (Log.ReadsBelow .gRespParam n (copyMvfw.run m).log ↔
        12 + repliedLength m ≤ n) := by
  have hlt := wrap32_of_lt (m.word_lt .gRespParam 8)
  simp only [repliedStatus, IptHeader.status, mvfwSuccess] at h
  by_cases hzero : m.word .gRespParam 8 = 0
  · have h0 : wrap32 0 = 0 := rfl
    simp [copyMvfw, h, hzero, h0]
    omega
  · simp [copyMvfw, h, hzero, hlt]
    omega

end Copy

/-- A call that is the exchange `r` between events that keep to the lengths does so exactly when `r`
does. -/
theorem outputBounded_around (x : Exchange) {α : Type} {capacity outLen : Nat}
    {l l' : Log DeviceCall Block} {r : Run DeviceCall Block Nat α}
    {call : Run DeviceCall Block Nat Nat} (hmem : call.mem = r.mem)
    (hlog : call.log = l ++ (r.log ++ l')) (hwrites : Log.WritesBelow .outData capacity l)
    (hreads : Log.ReadsBelow .gRespParam IptSendMsgCmdToHost.size l) (hl' : ∀ e ∈ l', e.In [] []) :
    OutputBounded capacity x call outLen ↔
      Log.WritesBelow .outData capacity r.log ∧
        Log.ReadsBelow .gRespParam IptSendMsgCmdToHost.size r.log ∧
        (x.received IptSendMsgCmdToHost.size ≠ none → call.value = iptSuccess →
          outLen ≤ capacity ∧ outLen = repliedLength r.mem) := by
  have hlw : Log.WritesBelow .outData capacity l' :=
    fun e he => (hl' e he).writesBelow (by simp) _
  have hlr : Log.ReadsBelow .gRespParam IptSendMsgCmdToHost.size l' :=
    fun e he => (hl' e he).readsBelow (by simp) _
  constructor
  · intro h
    obtain ⟨hw, hr, hlen⟩ := h
    rw [hlog] at hw hr
    rw [hmem] at hlen
    simp only [Log.writesBelow_append, Log.readsBelow_append] at hw hr
    exact ⟨hw.2.1, hr.2.1, hlen⟩
  · intro h
    obtain ⟨hw, hr, hlen⟩ := h
    refine ⟨?_, ?_, ?_⟩
    · rw [hlog, Log.writesBelow_append, Log.writesBelow_append]
      exact ⟨hwrites, hw, hlw⟩
    · rw [hlog, Log.readsBelow_append, Log.readsBelow_append]
      exact ⟨hreads, hr, hlr⟩
    · rw [hmem]
      exact hlen

/-! ## `ipt_send_message` -/

section Ipt

variable (x : Exchange) (tvSec : Nat) {a : Args} (m : Mem Block)

/-- Filling in the request clears the caller's buffer, keeps its capacity, and looks at no
reply. -/
theorem setReqParam_outData :
    Log.WritesBelow .outData (m.half .outDataLength 0) ((setReqParam tvSec a).run m).log ∧
      (∀ n, Log.ReadsBelow .gRespParam n ((setReqParam tvSec a).run m).log) ∧
      ((setReqParam tvSec a).run m).mem.half .outDataLength 0 = m.half .outDataLength 0 := by
  simp [setReqParam]

/-- A call that is refused, or cannot open the interface, touches nothing. -/
theorem iptSendMessage_untouched (h : ¬ (a.Admissible ∧ x.connect.Succeeds)) :
    ((iptSendMessage x tvSec a).run m).value ≠ iptSuccess ∧
      ∀ e ∈ ((iptSendMessage x tvSec a).run m).log, e.In [] [] := by
  by_cases ha : a.Admissible
  · have hc : ¬ x.connect.Succeeds := fun hc => h ⟨ha, hc⟩
    obtain ⟨hinit, -⟩ := run_teeInit (β := Block) (ε := Nat) x.connect m
    rw [if_neg hc] at hinit
    rw [value_iptSendMessage_unopened x tvSec m ha hc]
    unfold iptSendMessage iptTeeIntfInit
    rw [run_bind, ha.run_checkArgs, Run.andThen_ok, run_bind, Run.andThen_of_ok hinit,
      run_exitIf_bind, if_pos (.inr rfl)]
    refine ⟨by decide, fun e he => ?_⟩
    simp only [Run.prepend_log, List.append_nil, List.nil_append] at he
    exact within_teeInit x.connect (fun d => Event.in_call _ _ _) m e he
  · refine ⟨value_iptSendMessage_refused x tvSec m ha, fun e he => ?_⟩
    obtain ⟨code, -, hrun⟩ := checkArgs_refuses m ha
    unfold iptSendMessage at he
    rw [run_bind, hrun, Run.andThen_error] at he
    cases he

/-- A call on the open interface: what comes before the exchange clears the caller's buffer up to
its capacity and looks at no reply, and behind the exchange the interface is closed. -/
theorem iptSendMessage_opened (ha : a.Admissible) (hc : x.connect.Succeeds) :
    ∃ l, .write .outData 0 (m.half .outDataLength 0) ∈ l ∧
      Log.WritesBelow .outData (m.half .outDataLength 0) l ∧
      (∀ n, Log.ReadsBelow .gRespParam n l) ∧
      let r := (exchangeMessage x (some x.connect.openFd)).run ((setReqParam tvSec a).run m).mem
      ((iptSendMessage x tvSec a).run m).mem = r.mem ∧
        ((iptSendMessage x tvSec a).run m).log =
          l ++ (r.log ++ [.call (.closed x.connect.openFd)]) := by
  obtain ⟨hinit, hmem⟩ := run_teeInit (β := Block) (ε := Nat) x.connect m
  rw [if_pos hc] at hinit
  obtain ⟨hwrites, hreads, -⟩ := setReqParam_outData tvSec (a := a) m
  have hin := within_teeInit (β := Block) (ε := Nat) x.connect fun d => Event.in_call [] [] d
  refine ⟨((teeInit x.connect : Proc (Nat × Option Int)).run m).log ++
    ((setReqParam tvSec a).run m).log, ?_, ?_, fun n => ?_, ?_⟩
  · exact List.mem_append_right _ (by simp [setReqParam])
  · rw [Log.writesBelow_append]
    exact ⟨hin.writesBelow (by simp) m _, hwrites⟩
  · rw [Log.readsBelow_append]
    exact ⟨hin.readsBelow (by simp) m n, hreads n⟩
  · unfold iptSendMessage iptTeeIntfInit
    rw [run_bind, ha.run_checkArgs, Run.andThen_ok, run_bind, Run.andThen_of_ok hinit,
      run_exitIf_bind, if_neg (by simp), hmem, run_bind,
      Run.andThen_of_ok (setReqParam_spec tvSec m).1, run_bind, run_attempt, Run.andThen_ok,
      run_disconnectMei]
    exact ⟨rfl, by simp⟩

/-- The `out_data_length` in a reply of which `got` was received. -/
def outLengthOf (got : List UInt8) : Nat := Mem.wordOf got IptSendMsgCmdToHost.outDataLength

/-- A reply to `ipt_send_message` with room for `capacity` bytes. One that reports success is no
longer than the buffer and its own array. One that reports a failure, after which the capacity is
left as the length, has this very length. -/
def IptReplyFits (capacity : Nat) (got : List UInt8) : Prop :=
  (statusOf got = iptSuccess →
      outLengthOf got ≤ capacity ∧ outLengthOf got ≤ maxMsgToHostLengthInBytes) ∧
    (statusOf got ≠ iptSuccess → outLengthOf got = capacity)

/-- `ipt_send_message` keeps to the three lengths. -/
def IptOutputBounded (a : Args) : Prop :=
  OutputBounded (m.half .outDataLength 0) x ((iptSendMessage x tvSec a).run m)
    (((iptSendMessage x tvSec a).run m).mem.half .outDataLength 0)

/-- Copying a reply keeps to the lengths, and leaves the one of the reply, exactly when the reply
fits. -/
theorem copyMessage_fits_iff {capacity : Nat} {got : List UInt8} (hcap : capacity < 2 ^ 16)
    (hhalf : m.half .outDataLength 0 = capacity) (hstatus : repliedStatus m = statusOf got)
    (hlength : repliedLength m = outLengthOf got) :
    let r := copyMessage.run m
    (Log.WritesBelow .outData capacity r.log ∧
        Log.ReadsBelow .gRespParam IptSendMsgCmdToHost.size r.log ∧
        r.mem.half .outDataLength 0 ≤ capacity ∧
          r.mem.half .outDataLength 0 = repliedLength r.mem) ↔
      IptReplyFits capacity got := by
  unfold IptReplyFits
  by_cases hs : statusOf got = iptSuccess
  · obtain ⟨-, hout, hkept, hcopy, hread⟩ := copyMessage_accepted m (hstatus.trans hs)
    simp only [hcopy, hread _ (by decide : 12 ≤ IptSendMsgCmdToHost.size), hkept, hout, hlength]
    constructor
    · intro h
      obtain ⟨-, harray, hle, heq⟩ := h
      rw [heq] at hle harray
      exact ⟨fun _ => ⟨hle, Nat.le_of_add_le_add_left harray⟩, fun hne => absurd hs hne⟩
    · intro hfits
      obtain ⟨hle, harray⟩ := hfits.1 hs
      -- a length within the capacity is a 16-bit length
      have hwrap : wrap16 (outLengthOf got) = outLengthOf got := Nat.mod_eq_of_lt (by omega)
      rw [hwrap]
      exact ⟨hle, Nat.add_le_add_left harray _, hle, rfl⟩
  · rw [copyMessage_refused m (by rw [hstatus]; exact hs)]
    simp only [hhalf, hlength]
    constructor
    · intro h
      exact ⟨fun hyes => absurd hyes hs, fun _ => h.2.2.2.symm⟩
    · intro hfits
      exact ⟨by simp, by simp, Nat.le_refl _, (hfits.2 hs).symm⟩

/-- `ipt_send_message` keeps to the three lengths exactly when every reply that a call with an open
interface gets fits. -/
theorem iptOutput_bounded_iff :
    IptOutputBounded x tvSec m a ↔
      (a.Admissible → x.connect.Succeeds →
        ∀ got, x.received IptSendMsgCmdToHost.size = some got →
          IptReplyFits (m.half .outDataLength 0) got) := by
  unfold IptOutputBounded
  by_cases hopen : a.Admissible ∧ x.connect.Succeeds
  · obtain ⟨l, -, hwrites, hreads, hmem, hlog⟩ := iptSendMessage_opened x tvSec m hopen.1 hopen.2
    have hvalue := value_iptSendMessage_opened x tvSec m hopen.1 hopen.2
    rw [outputBounded_around x hmem hlog hwrites (hreads _) (by simp), hvalue, hmem]
    obtain ⟨-, -, hcap⟩ := setReqParam_outData tvSec (a := a) m
    have hzero := (setReqParam_spec tvSec (a := a) m).2
    generalize (setReqParam tvSec a).run m = start at hcap hzero ⊢
    have hfits (got : List UInt8) := copyMessage_fits_iff (start.mem.fill .gRespParam got)
      (m.half_lt .outDataLength 0) ((Mem.half_write_other _ _ _ _ _ (by decide)).trans hcap)
      (Mem.word_fill_of_zero _ _ got hzero (by decide))
      (Mem.word_fill_of_zero _ _ got hzero (by decide))
    simp only [true_implies, exchangeMessage_run]
    refine (transfer_andThen_iff x start.mem copyMessage _
      (Q := fun r => r.mem.half .outDataLength 0 ≤ m.half .outDataLength 0 ∧
        r.mem.half .outDataLength 0 = repliedLength r.mem) (by simp)).trans ?_
    simp only [hfits]
    exact ⟨fun h _ _ => h, fun h => h hopen.1 hopen.2⟩
  · obtain ⟨hne, hin⟩ := iptSendMessage_untouched x tvSec m hopen
    refine iff_of_true ⟨fun e he => (hin e he).writesBelow (by simp) _,
      fun e he => (hin e he).readsBelow (by simp) _, fun _ hsucc => absurd hsucc hne⟩ ?_
    exact fun ha hc => absurd ⟨ha, hc⟩ hopen

end Ipt

/-! ## `mvsepfw_sendmessage` -/

section Mvfw

variable (x : Exchange) {a : MvfwArgs} (m : Mem Block)

/-- The arguments pass the checks of `mvsepfw_sendmessage` and of `mvfw_cmd`. -/
structure MvfwArgs.Admissible (a : MvfwArgs) : Prop where
  pointers : a.inData = true ∧ a.outData = true ∧ a.outDataLength = true
  length : 0 < a.inDataLength.toNat ∧ a.inDataLength.toNat ≤ maxMsgFromHostLengthInBytes

/-- Filling in the request touches neither the caller's buffer nor its capacity, and leaves a reply
structure with the status of success and the capacity as the length. -/
theorem setMvfwParams_spec :
    ((setMvfwParams mvfwSendMsgCmdId a).run m).result = .ok () ∧
      (∀ n, Log.WritesBelow .outData n ((setMvfwParams mvfwSendMsgCmdId a).run m).log) ∧
      (∀ n, Log.ReadsBelow .gRespParam n ((setMvfwParams mvfwSendMsgCmdId a).run m).log) ∧
      (∀ i < 4, ((setMvfwParams mvfwSendMsgCmdId a).run m).mem .gRespParam
        (IptHeader.status + i) = 0) ∧
      ∀ i < 4, ((setMvfwParams mvfwSendMsgCmdId a).run m).mem .gRespParam
        (IptSendMsgCmdToHost.outDataLength + i) = byteAt (m.word .outDataLength 0) i := by
  refine ⟨?_, fun n => ?_, fun n => ?_, fun i hi => ?_, fun i hi => ?_⟩
  · simp [setMvfwParams]
  · simp [setMvfwParams]
  · simp [setMvfwParams]
  · simp only [setMvfwParams, run_bind, run_onlyIf, run_load, run_memset, run_store, run_memcpy,
      Run.andThen_ok, Run.prepend_mem, if_true]
    -- the last store to the reply structure is behind the status
    rw [Mem.write_outside _ _ _ _ _ _ _ (fun hc => by simp at hc; omega)]
    iterate 3 rw [Mem.write_other _ _ _ _ (by decide)]
    rw [Mem.write_inside _ _ _ _ _ _ (by simp; omega)]
    simp [byteAt]
  · simp only [setMvfwParams, run_bind, run_onlyIf, run_load, run_memset, run_store, run_memcpy,
      Run.andThen_ok, Run.prepend_mem, if_true]
    rw [Mem.write_inside _ _ _ _ _ _ (by simp; omega)]
    simp

/-- A message that is refused, or a command that finds no open interface, touches nothing. -/
theorem mvfwCmd_untouched {cmdId : Nat}
    (h : cmdId = mvfwSendMsgCmdId ∧ ¬ a.Admissible ∨ ¬ x.connect.Succeeds) :
    ((mvfwCmd x cmdId a).run m).value ≠ mvfwSuccess ∧
      ∀ e ∈ ((mvfwCmd x cmdId a).run m).log, e.In [] [] := by
  unfold mvfwCmd iptTeeIntfInit
  rw [run_exitIf_bind]
  split
  · exact ⟨show mvfwFailInvalidParam ≠ mvfwSuccess by decide, fun e he => by simp at he⟩
  · rename_i hpass
    have hc : ¬ x.connect.Succeeds := by
      refine h.resolve_left fun hbad => hbad.2 ⟨?_, ?_⟩
      · simp only [not_and, not_or, Bool.not_eq_false] at hpass
        obtain ⟨hin, -, -, hout, hlen⟩ := hpass hbad.1
        exact ⟨hin, hout, hlen⟩
      · have hlength := fun hno => hpass ⟨hbad.1, hno⟩
        omega
    obtain ⟨hinit, -⟩ := run_teeInit (β := Block) (ε := Nat) x.connect m
    rw [if_neg hc] at hinit
    rw [run_bind, Run.andThen_of_ok hinit, run_exitIf_bind, if_pos (.inr rfl)]
    refine ⟨show teeFailure ≠ mvfwSuccess by decide, fun e he => ?_⟩
    simp only [Run.prepend_log, List.append_nil] at he
    exact within_teeInit x.connect (fun d => Event.in_call _ _ _) m e he

/-- A message on the open interface: the request is filled in, the exchange takes place, and the
interface is closed. -/
theorem mvfwCmd_opened (ha : a.Admissible) (hc : x.connect.Succeeds) :
    ∃ l, (∀ e ∈ l, e.In [] []) ∧
      (mvfwCmd x mvfwSendMsgCmdId a).run m =
        let r := (exchangeMvfw x (some x.connect.openFd) mvfwSendMsgCmdId).run
          ((setMvfwParams mvfwSendMsgCmdId a).run m).mem
        ⟨.ok r.value, r.mem, l ++ (((setMvfwParams mvfwSendMsgCmdId a).run m).log ++
          (r.log ++ [.call (.closed x.connect.openFd)]))⟩ := by
  obtain ⟨hinit, hmem⟩ := run_teeInit (β := Block) (ε := Nat) x.connect m
  rw [if_pos hc] at hinit
  obtain ⟨⟨hin, hout, hlen⟩, hpos, hle⟩ := ha
  simp only [maxMsgFromHostLengthInBytes] at hle
  refine ⟨((teeInit x.connect : Proc (Nat × Option Int)).run m).log,
    fun e he => within_teeInit x.connect (fun d => Event.in_call _ _ _) m e he, ?_⟩
  unfold mvfwCmd iptTeeIntfInit
  rw [run_exitIf_bind, if_neg (by simp [hin, hout, hlen]; omega), run_bind,
    Run.andThen_of_ok hinit, run_exitIf_bind, if_neg (by simp), hmem, run_bind,
    Run.andThen_of_ok (setMvfwParams_spec m).1, run_bind, run_returned, Run.andThen_ok]
  simp [disconnectMvfw, iptTeeIntfDeinit, teeDeinit, meiDisconnect, Run.prepend]

/-- `mvsepfw_sendmessage` clears the caller's buffer and leaves the rest to `mvfw_cmd`. -/
theorem mvsepfwSendmessage_run (hp : a.inData = true ∧ a.outData = true ∧ a.outDataLength = true)
    (hpos : 0 < a.inDataLength.toNat) :
    let r := (mvfwCmd x mvfwSendMsgCmdId a).run
      (m.write .outData 0 (m.word .outDataLength 0) fun _ => 0)
    ((mvsepfwSendmessage x a).run m).value = r.value ∧
      ((mvsepfwSendmessage x a).run m).mem = r.mem ∧
      ((mvsepfwSendmessage x a).run m).log =
        [.read .outDataLength 0 4, .write .outData 0 (m.word .outDataLength 0)] ++ r.log := by
  obtain ⟨hin, hout, hlen⟩ := hp
  unfold mvsepfwSendmessage
  rw [run_exitIf_bind, if_neg (by simp [hin, hout, hlen]; omega), run_bind, run_load,
    Run.andThen_ok, run_bind, run_memset, Run.andThen_ok, run_bind, run_returned, Run.andThen_ok,
    run_exitIf_bind]
  split
  · exact ⟨rfl, rfl, by simp⟩
  · rename_i hzero
    exact ⟨(not_not.mp hzero).symm, rfl, by simp⟩

/-- A call that is refused, or cannot open the interface, reports a failure and at most clears the
caller's buffer. -/
theorem mvsepfwSendmessage_refused (h : ¬ (a.Admissible ∧ x.connect.Succeeds)) :
    ((mvsepfwSendmessage x a).run m).value ≠ mvfwSuccess ∧
      Log.WritesBelow .outData (m.word .outDataLength 0) ((mvsepfwSendmessage x a).run m).log ∧
      ∀ e ∈ ((mvsepfwSendmessage x a).run m).log, e.In [.outDataLength] [.outData] := by
  by_cases hp : a.inData = true ∧ a.outData = true ∧ a.outDataLength = true ∧
      0 < a.inDataLength.toNat
  · obtain ⟨hin, hout, hlen, hpos⟩ := hp
    obtain ⟨hvalue, -, hlog⟩ := mvsepfwSendmessage_run x m ⟨hin, hout, hlen⟩ hpos
    obtain ⟨hne, hnone⟩ := mvfwCmd_untouched x
      (m.write .outData 0 (m.word .outDataLength 0) fun _ => 0)
      ((not_and_or.mp h).imp_left fun ha => ⟨rfl, ha⟩)
    rw [hvalue, hlog]
    refine ⟨hne, ?_, fun e he => ?_⟩
    · rw [Log.writesBelow_append]
      exact ⟨by simp, fun e he => (hnone e he).writesBelow (by simp) _⟩
    · rcases List.mem_append.mp he with hfirst | hrest
      · simp only [List.mem_cons, List.not_mem_nil, or_false] at hfirst
        rcases hfirst with rfl | rfl <;> simp
      · exact (hnone e hrest).mono (by simp) (by simp)
  · unfold mvsepfwSendmessage
    rw [run_exitIf_bind, if_pos ?_]
    · exact ⟨show mvfwFailInvalidParam ≠ mvfwSuccess by decide, Log.writesBelow_nil _ _,
        fun e he => by cases he⟩
    · simp only [not_and_or, Bool.not_eq_true, Nat.not_lt, Nat.le_zero] at hp
      rcases hp with hin | hout | hlen | hzero
      · exact .inl hin
      · exact .inr (.inr (.inl hout))
      · exact .inr (.inr (.inr hlen))
      · exact .inr (.inl hzero)

/-- The `out_data_length` behind a reply of which `got` was received. Where the reply ends early,
it is what the request was filled in with, the caller's capacity. -/
def mvfwLengthOf (capacity : Nat) (got : List UInt8) : Nat :=
  word fun i =>
    if IptSendMsgCmdToHost.outDataLength + i < got.length then
      got.getD (IptSendMsgCmdToHost.outDataLength + i) 0
    else byteAt capacity i

/-- A reply to `mvsepfw_sendmessage` with room for `capacity` bytes. One that reports success is no
longer than the buffer and its own array. -/
def MvfwReplyFits (capacity : Nat) (got : List UInt8) : Prop :=
  statusOf got = mvfwSuccess →
    mvfwLengthOf capacity got ≤ capacity ∧ mvfwLengthOf capacity got ≤ maxMsgToHostLengthInBytes

/-- `mvsepfw_sendmessage` keeps to the three lengths. -/
def MvfwOutputBounded (a : MvfwArgs) : Prop :=
  OutputBounded (m.word .outDataLength 0) x ((mvsepfwSendmessage x a).run m)
    (((mvsepfwSendmessage x a).run m).mem.word .outDataLength 0)

/-- What the reply structure says once `got` lies over what it was filled in with. -/
theorem setMvfwParams_fill (got : List UInt8) :
    let m' := ((setMvfwParams mvfwSendMsgCmdId a).run m).mem.fill .gRespParam got
    repliedStatus m' = statusOf got ∧
      repliedLength m' = mvfwLengthOf (m.word .outDataLength 0) got := by
  obtain ⟨-, -, -, hstatus, hlength⟩ := setMvfwParams_spec (a := a) m
  constructor
  · exact Mem.word_fill_of_word_zero _ _ got hstatus
  · rw [repliedLength, Mem.word_fill]
    refine word_congr fun i hi => ?_
    rw [hlength i hi]

/-- A message on the open interface: what comes before the exchange clears the caller's buffer up
to its capacity and looks at no reply, and behind the exchange the interface is closed. -/
theorem mvsepfwSendmessage_opened (ha : a.Admissible) (hc : x.connect.Succeeds) :
    ∃ l, .write .outData 0 (m.word .outDataLength 0) ∈ l ∧
      Log.WritesBelow .outData (m.word .outDataLength 0) l ∧
      (∀ n, Log.ReadsBelow .gRespParam n l) ∧
      let m' := m.write .outData 0 (m.word .outDataLength 0) fun _ => 0
      let r := (exchangeMvfw x (some x.connect.openFd) mvfwSendMsgCmdId).run
        ((setMvfwParams mvfwSendMsgCmdId a).run m').mem
      ((mvsepfwSendmessage x a).run m).value = r.value ∧
        ((mvsepfwSendmessage x a).run m).mem = r.mem ∧
        ((mvsepfwSendmessage x a).run m).log =
          l ++ (r.log ++ [.call (.closed x.connect.openFd)]) := by
  obtain ⟨hvalue, hmem, hlog⟩ := mvsepfwSendmessage_run x m ha.pointers ha.length.1
  obtain ⟨l, hl, hrun⟩ := mvfwCmd_opened x
    (m.write .outData 0 (m.word .outDataLength 0) fun _ => 0) ha hc
  obtain ⟨-, hwrites, hreads, -, -⟩ := setMvfwParams_spec (a := a)
    (m.write .outData 0 (m.word .outDataLength 0) fun _ => 0)
  rw [hrun] at hvalue hmem hlog
  refine ⟨[.read .outDataLength 0 4, .write .outData 0 (m.word .outDataLength 0)] ++ (l ++
    ((setMvfwParams mvfwSendMsgCmdId a).run
      (m.write .outData 0 (m.word .outDataLength 0) fun _ => 0)).log), by simp, ?_, fun n => ?_,
    hvalue, hmem, ?_⟩
  · rw [Log.writesBelow_append, Log.writesBelow_append]
    exact ⟨by simp, fun e he => (hl e he).writesBelow (by simp) _, hwrites _⟩
  · rw [Log.readsBelow_append, Log.readsBelow_append]
    exact ⟨by simp, fun e he => (hl e he).readsBelow (by simp) _, hreads n⟩
  · rw [hlog]
    simp

/-- Copying a reply of success keeps to the lengths exactly when the reply fits. -/
theorem copyMvfw_fits_iff {capacity : Nat} {got : List UInt8}
    (hstatus : repliedStatus m = statusOf got)
    (hlength : repliedLength m = mvfwLengthOf capacity got) :
    let r := copyMvfw.run m
    (Log.WritesBelow .outData capacity r.log ∧
        Log.ReadsBelow .gRespParam IptSendMsgCmdToHost.size r.log ∧
        (r.value = iptSuccess → r.mem.word .outDataLength 0 ≤ capacity ∧
          r.mem.word .outDataLength 0 = repliedLength r.mem)) ↔
      MvfwReplyFits capacity got := by
  unfold MvfwReplyFits
  by_cases hs : statusOf got = mvfwSuccess
  · obtain ⟨-, hout, hkept, hcopy, hread⟩ := copyMvfw_accepted m (hstatus.trans hs)
    simp only [hcopy, hread _ (by decide : 12 ≤ IptSendMsgCmdToHost.size), hkept, hout, hlength]
    constructor
    · intro h _
      obtain ⟨hle, harray, -⟩ := h
      exact ⟨hle, Nat.le_of_add_le_add_left harray⟩
    · intro hfits
      obtain ⟨hle, harray⟩ := hfits hs
      exact ⟨hle, Nat.add_le_add_left harray _, fun _ => ⟨hle, trivial⟩⟩
  · -- a failure of the firmware is returned, and nothing is copied
    rw [copyMvfw_refused m (by rw [hstatus]; exact hs), hstatus]
    exact iff_of_true ⟨by simp, by simp, fun hsucc => absurd hsucc hs⟩ fun hsucc =>
      absurd hsucc hs

/-- `mvsepfw_sendmessage` keeps to the three lengths exactly when every reply that a call with an
open interface gets fits. -/
theorem mvfwOutput_bounded_iff :
    MvfwOutputBounded x m a ↔
      (a.Admissible → x.connect.Succeeds →
        ∀ got, x.received IptSendMsgCmdToHost.size = some got →
          MvfwReplyFits (m.word .outDataLength 0) got) := by
  unfold MvfwOutputBounded
  by_cases hopen : a.Admissible ∧ x.connect.Succeeds
  · obtain ⟨l, -, hwrites, hreads, hvalue, hmem, hlog⟩ :=
      mvsepfwSendmessage_opened x m hopen.1 hopen.2
    rw [outputBounded_around x hmem hlog hwrites (hreads _) (by simp), hvalue, hmem]
    have hfill := setMvfwParams_fill (a := a)
      (m.write .outData 0 (m.word .outDataLength 0) fun _ => 0)
    rw [Mem.word_write_other _ _ _ _ _ (by decide)] at hfill
    generalize ((setMvfwParams mvfwSendMsgCmdId a).run
      (m.write .outData 0 (m.word .outDataLength 0) fun _ => 0)).mem = start at hfill ⊢
    have hfits (got : List UInt8) := copyMvfw_fits_iff (start.fill .gRespParam got) (hfill got).1
      (hfill got).2
    simp only [exchangeMvfw_run]
    refine (transfer_andThen_iff x start copyMvfw _
      (Q := fun r => r.value = iptSuccess → r.mem.word .outDataLength 0 ≤ m.word .outDataLength 0 ∧
        r.mem.word .outDataLength 0 = repliedLength r.mem) (by simp)).trans ?_
    simp only [hfits]
    exact ⟨fun h _ _ => h, fun h => h hopen.1 hopen.2⟩
  · obtain ⟨hne, hwrites, hin⟩ := mvsepfwSendmessage_refused x m hopen
    refine iff_of_true ⟨hwrites, fun e he => (hin e he).readsBelow (by simp) _,
      fun _ hsucc => absurd hsucc hne⟩ ?_
    exact fun ha hc => absurd ⟨ha, hc⟩ hopen

end Mvfw

/-- The two functions keep to the three lengths exactly when the replies fit: neither compares the
length in a reply with anything, and the one that may truncate it to 16 bits reports success
whatever the status of the reply. -/
theorem outData_bounded_iff (x : Exchange) (m : Mem Block) (tvSec : Nat) (a : Args)
    (a' : MvfwArgs) :
    (IptOutputBounded x tvSec m a ↔
        (a.Admissible → x.connect.Succeeds →
          ∀ got, x.received IptSendMsgCmdToHost.size = some got →
            IptReplyFits (m.half .outDataLength 0) got)) ∧
      (MvfwOutputBounded x m a' ↔
        (a'.Admissible → x.connect.Succeeds →
          ∀ got, x.received IptSendMsgCmdToHost.size = some got →
            MvfwReplyFits (m.word .outDataLength 0) got)) :=
  ⟨iptOutput_bounded_iff x tvSec m, mvfwOutput_bounded_iff x m⟩

/-- A successful reply of 8 bytes of data. -/
def eightByteReply : List UInt8 := [1, 0, 0, 0x80, 0, 0, 0, 0, 8, 0, 0, 0, 1, 2, 3, 4, 5, 6, 7, 8]

/-- A caller with room for 4 bytes. -/
def fourByteCaller : Mem Block := .ofLists fun b => if b = .outDataLength then [4, 0, 0, 0] else []

/-- Both functions write 8 bytes into a buffer of 4, and report the 8. -/
theorem outData_not_bounded :
    ¬ IptOutputBounded (answering 5036 eightByteReply) 0 fourByteCaller ⟨4, true, true, true⟩ ∧
      ¬ MvfwOutputBounded (answering 5036 eightByteReply) fourByteCaller ⟨true, 4, true, true⟩ := by
  constructor
  · intro h
    have hlast : 7 < fourByteCaller.half .outDataLength 0 :=
      h.writes (.write .outData 0 8) (by decide) 7 ⟨rfl, by decide, by decide⟩
    exact absurd hlast (by decide)
  · intro h
    have hlast : 7 < fourByteCaller.word .outDataLength 0 :=
      h.writes (.write .outData 0 8) (by decide) 7 ⟨rfl, by decide, by decide⟩
    exact absurd hlast (by decide)

end Txei.Ipt

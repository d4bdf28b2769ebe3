import Txei.Ipt.OutData

/-!
# Replies that end early

The count of a read is reduced to a status before anybody compares it with the reply structure, so
a reply may end anywhere, also inside a field. What it leaves out is what the host filled the
structure in with. `iptSendMessage_value` and `mvsepfwSendmessage_value` say what the two calls
return on a reply of which `got` was read, `iptSendMessage_outData` and
`mvsepfwSendmessage_outData` what they leave in the caller's buffer; `reply_backed_iff` says when
all that a call reports with a success was sent by the firmware.
-/

namespace Txei.Ipt

open Machine Machine.Prog Mei Tee

/-- The reply structure up to its data and `n` bytes of data were read. -/
def Covers (got : List UInt8) (n : Nat) : Prop := IptSendMsgCmdToHost.outData + n ≤ got.length

instance (got : List UInt8) (n : Nat) : Decidable (Covers got n) :=
  inferInstanceAs (Decidable (_ ≤ _))

/-- Of the bytes `got` that were read, the one of the data at `i`. -/
def dataByte (got : List UInt8) (i : Nat) : UInt8 := got.getD (IptSendMsgCmdToHost.outData + i) 0

/-- What a call reports as `n` bytes of data is what the firmware sent: the bytes that were read
reach to the end of the data, the length in them is `n`, and the caller's buffer holds the data in
them. -/
structure Backed (got : List UInt8) (n : Nat) (m : Mem Block) : Prop where
  covers : Covers got n
  length : outLengthOf got = n
  data : ∀ i < n, m .outData i = dataByte got i

/-! ## Copying the data of a reply -/

section Copy

variable (m : Mem Block)

theorem copyMessage_mem (h : repliedStatus m = iptSuccess) :
    (copyMessage.run m).mem =
      (m.write .outDataLength 0 2 (byteAt (repliedLength m))).write .outData 0
        (wrap16 (repliedLength m)) fun i => m .gRespParam (IptSendMsgCmdToHost.outData + i) := by
  simp only [repliedStatus, IptHeader.status, iptSuccess] at h
  by_cases hzero : m.word .gRespParam 8 = 0
  · simp [copyMessage, h, hzero, wrap16]
  · simp [copyMessage, h, hzero]
    rw [Mem.write_other _ _ _ _ (by decide)]

theorem copyMvfw_mem (h : repliedStatus m = mvfwSuccess) :
    (copyMvfw.run m).mem =
      (m.write .outDataLength 0 4 (byteAt (repliedLength m))).write .outData 0
        (repliedLength m) fun i => m .gRespParam (IptSendMsgCmdToHost.outData + i) := by
  simp only [repliedStatus, IptHeader.status, mvfwSuccess] at h
  by_cases hzero : m.word .gRespParam 8 = 0
  · simp [copyMvfw, h, hzero]
  · simp [copyMvfw, h, hzero]
    rw [Mem.write_other _ _ _ _ (by decide)]

/-- `n` bytes of the reply structure, behind a reply laid over it: a byte that the reply reaches is
copied from the reply, and what lies behind the `n` bytes stays. -/
theorem outData_write_filled (got : List UInt8) (len : Nat) (f : Nat → UInt8) (n i : Nat) :
    let filled := m.fill .gRespParam got
    let m' := (filled.write .outDataLength 0 len f).write .outData 0 n fun i =>
      filled .gRespParam (IptSendMsgCmdToHost.outData + i)
    (i < n → IptSendMsgCmdToHost.outData + i < got.length → m' .outData i = dataByte got i) ∧
      (n ≤ i → m' .outData i = m .outData i) := by
  intro filled m'
  constructor
  · intro hi hreached
    have hcopied : m' .outData i = filled .gRespParam (IptSendMsgCmdToHost.outData + (i - 0)) :=
      Mem.write_inside _ _ _ _ _ _ (by omega)
    have hfilled : filled .gRespParam (IptSendMsgCmdToHost.outData + i) =
        got.getD (IptSendMsgCmdToHost.outData + i - 0) 0 :=
      Mem.write_inside _ _ _ _ _ _ (by omega)
    exact hcopied.trans hfilled
  · intro hi
    have hbehind : m' .outData i = (filled.write .outDataLength 0 len f) .outData i :=
      Mem.write_outside _ _ _ _ _ _ _ (by omega)
    rw [hbehind, Mem.write_other _ _ _ _ (by decide)]
    exact congrFun (Mem.fill_other m got (by decide)) i

end Copy

section Exchange

variable (x : Exchange) (m : Mem Block) {got : List UInt8}
  (hgot : x.received IptSendMsgCmdToHost.size = some got)

include hgot

/-- Behind an exchange that delivers `got`, the rest works on the reply structure with `got` laid
over it. -/
theorem transfer_andThen {α : Type} (copy : Proc α) :
    (((transfer x).run m).andThen fun _ => copy.run).result =
        (copy.run (m.fill .gRespParam got)).result ∧
      (((transfer x).run m).andThen fun _ => copy.run).mem =
        (copy.run (m.fill .gRespParam got)).mem ∧
      (((transfer x).run m).andThen fun _ => copy.run).log =
        ((transfer x).run m).log ++ (copy.run (m.fill .gRespParam got)).log := by
  obtain ⟨hok, hmem⟩ := (transfer_spec x m).2 got hgot
  rw [Run.andThen_of_ok hok, hmem]
  exact ⟨rfl, rfl, rfl⟩

/-- `ipt_send_message` on an open interface copies a reply that lies over a structure of zeros,
into a buffer that is cleared up to its capacity. -/
theorem iptSendMessage_copies (tvSec : Nat) {a : Args} (ha : a.Admissible)
    (hc : x.connect.Succeeds) :
    ∃ start : Mem Block,
      (∀ i < m.half .outDataLength 0, start .outData i = 0) ∧
        start.half .outDataLength 0 = m.half .outDataLength 0 ∧
        repliedStatus (start.fill .gRespParam got) = statusOf got ∧
        repliedLength (start.fill .gRespParam got) = outLengthOf got ∧
        ((iptSendMessage x tvSec a).run m).mem =
          (copyMessage.run (start.fill .gRespParam got)).mem := by
  obtain ⟨-, -, -, -, hmem, -⟩ := iptSendMessage_opened x tvSec m ha hc
  obtain ⟨-, -, hcap⟩ := setReqParam_outData tvSec (a := a) m
  have hzero := (setReqParam_spec tvSec (a := a) m).2
  have hcleared : ∀ i < m.half .outDataLength 0,
      ((setReqParam tvSec a).run m).mem .outData i = 0 := by
    intro i hi
    simp only [setReqParam, run_bind, run_load16, run_memset, run_store, run_memcpy,
      Run.andThen_ok, Run.prepend_mem]
    -- behind the clearing of the buffer, all stores go to the two structures
    iterate 8 rw [Mem.write_other _ _ _ _ (by decide)]
    exact Mem.write_inside _ _ _ _ _ _ (by omega)
  refine ⟨((setReqParam tvSec a).run m).mem, hcleared, hcap,
    Mem.word_fill_of_zero _ _ got hzero (by decide),
    Mem.word_fill_of_zero _ _ got hzero (by decide), ?_⟩
  rw [hmem, exchangeMessage_run, (transfer_andThen x _ hgot copyMessage).2.1]

/-- `mvsepfw_sendmessage` on an open interface copies a reply that lies over the capacity as its
length and the status of success, into a buffer that is cleared up to its capacity. -/
theorem mvsepfwSendmessage_copies {a : MvfwArgs} (ha : a.Admissible) (hc : x.connect.Succeeds) :
    ∃ start : Mem Block,
      (∀ i < m.word .outDataLength 0, start .outData i = 0) ∧
        repliedStatus (start.fill .gRespParam got) = statusOf got ∧
        repliedLength (start.fill .gRespParam got) =
          mvfwLengthOf (m.word .outDataLength 0) got ∧
        ((mvsepfwSendmessage x a).run m).value =
          (copyMvfw.run (start.fill .gRespParam got)).value ∧
        ((mvsepfwSendmessage x a).run m).mem =
          (copyMvfw.run (start.fill .gRespParam got)).mem := by
  obtain ⟨-, -, -, -, hvalue, hmem, -⟩ := mvsepfwSendmessage_opened x m ha hc
  have hfill := setMvfwParams_fill (a := a)
    (m.write .outData 0 (m.word .outDataLength 0) fun _ => 0) got
  rw [Mem.word_write_other _ _ _ _ _ (by decide)] at hfill
  have hcleared : ∀ i < m.word .outDataLength 0, ((setMvfwParams mvfwSendMsgCmdId a).run
      (m.write .outData 0 (m.word .outDataLength 0) fun _ => 0)).mem .outData i = 0 := by
    intro i hi
    simp only [setMvfwParams, run_bind, run_onlyIf, run_load, run_memset, run_store, run_memcpy,
      Run.andThen_ok, Run.prepend_mem, if_true]
    iterate 10 rw [Mem.write_other _ _ _ _ (by decide)]
    exact Mem.write_inside _ _ _ _ _ _ (by omega)
  refine ⟨_, hcleared, hfill.1, hfill.2, ?_, ?_⟩
  · rw [hvalue, exchangeMvfw_run, Run.value, (transfer_andThen x _ hgot copyMvfw).1]
    rfl
  · rw [hmem, exchangeMvfw_run, (transfer_andThen x _ hgot copyMvfw).2.1]

/-! ## What the calls return -/

/-- `ipt_send_message` on an open interface succeeds, and leaves the length in the reply when the
reply says success and the capacity otherwise. -/
theorem iptSendMessage_value (tvSec : Nat) {a : Args} (ha : a.Admissible)
    (hc : x.connect.Succeeds) :
    ((iptSendMessage x tvSec a).run m).value = iptSuccess ∧
      ((iptSendMessage x tvSec a).run m).mem.half .outDataLength 0 =
        if statusOf got = iptSuccess then wrap16 (outLengthOf got)
        else m.half .outDataLength 0 := by
  refine ⟨value_iptSendMessage_opened x tvSec m ha hc, ?_⟩
  obtain ⟨start, -, hcap, hstatus, hlength, hmem⟩ := iptSendMessage_copies x m hgot tvSec ha hc
  rw [hmem]
  by_cases hs : statusOf got = iptSuccess
  · obtain ⟨-, hout, -⟩ := copyMessage_accepted _ (hstatus.trans hs)
    rw [hout, hlength, if_pos hs]
  · rw [copyMessage_refused _ (by rw [hstatus]; exact hs), if_neg hs]
    exact (Mem.half_write_other _ _ _ _ _ (by decide)).trans hcap

/-- `mvsepfw_sendmessage` on an open interface returns the status in the reply, and on success
leaves the length in the reply structure. -/
theorem mvsepfwSendmessage_value {a : MvfwArgs} (ha : a.Admissible) (hc : x.connect.Succeeds) :
    ((mvsepfwSendmessage x a).run m).value = statusOf got ∧
      (statusOf got = mvfwSuccess →
        ((mvsepfwSendmessage x a).run m).mem.word .outDataLength 0 =
          mvfwLengthOf (m.word .outDataLength 0) got) := by
  obtain ⟨start, -, hstatus, hlength, hvalue, hmem⟩ := mvsepfwSendmessage_copies x m hgot ha hc
  rw [hvalue, hmem]
  by_cases hs : statusOf got = mvfwSuccess
  · obtain ⟨hres, hout, -⟩ := copyMvfw_accepted _ (hstatus.trans hs)
    rw [Run.value, hres, hout, hlength, hs]
    exact ⟨rfl, fun _ => rfl⟩
  · rw [copyMvfw_refused _ (by rw [hstatus]; exact hs), hstatus]
    exact ⟨rfl, fun hyes => absurd hyes hs⟩

/-- With the status of success, `ipt_send_message` copies the data that the reply reaches; what it
does not copy of the caller's buffer, it clears. -/
theorem iptSendMessage_outData (tvSec : Nat) {a : Args} (ha : a.Admissible)
    (hc : x.connect.Succeeds) (i : Nat) :
    (statusOf got = iptSuccess → i < wrap16 (outLengthOf got) →
        IptSendMsgCmdToHost.outData + i < got.length →
        ((iptSendMessage x tvSec a).run m).mem .outData i = dataByte got i) ∧
      ((statusOf got = iptSuccess → wrap16 (outLengthOf got) ≤ i) →
        i < m.half .outDataLength 0 → ((iptSendMessage x tvSec a).run m).mem .outData i = 0) := by
  obtain ⟨start, hcleared, -, hstatus, hlength, hmem⟩ :=
    iptSendMessage_copies x m hgot tvSec ha hc
  rw [hmem]
  by_cases hs : statusOf got = iptSuccess
  · rw [copyMessage_mem _ (hstatus.trans hs), hlength]
    obtain ⟨hcopied, hkept⟩ := outData_write_filled start got 2 (byteAt (outLengthOf got))
      (wrap16 (outLengthOf got)) i
    exact ⟨fun _ => hcopied, fun hbehind hi => (hkept (hbehind hs)).trans (hcleared i hi)⟩
  · rw [copyMessage_refused _ (by rw [hstatus]; exact hs)]
    refine ⟨fun hyes => absurd hyes hs, fun _ hi => ?_⟩
    have hkept : (start.fill .gRespParam got) .outData i = start .outData i :=
      congrFun (Mem.fill_other start got (by decide)) i
    exact hkept.trans (hcleared i hi)

/-- With the status of success, `mvsepfw_sendmessage` copies the data that the reply reaches, and
clears the rest of the caller's buffer. -/
theorem mvsepfwSendmessage_outData {a : MvfwArgs} (ha : a.Admissible) (hc : x.connect.Succeeds)
    (hs : statusOf got = mvfwSuccess) (i : Nat) :
    (i < mvfwLengthOf (m.word .outDataLength 0) got →
        IptSendMsgCmdToHost.outData + i < got.length →
        ((mvsepfwSendmessage x a).run m).mem .outData i = dataByte got i) ∧
      (mvfwLengthOf (m.word .outDataLength 0) got ≤ i → i < m.word .outDataLength 0 →
        ((mvsepfwSendmessage x a).run m).mem .outData i = 0) := by
  obtain ⟨start, hcleared, hstatus, hlength, -, hmem⟩ := mvsepfwSendmessage_copies x m hgot ha hc
  rw [hmem, copyMvfw_mem _ (hstatus.trans hs), hlength]
  generalize mvfwLengthOf (m.word .outDataLength 0) got = n
  obtain ⟨hcopied, hkept⟩ := outData_write_filled start got 4 (byteAt n) n i
  exact ⟨hcopied, fun hbehind hi => (hkept hbehind).trans (hcleared i hi)⟩

/-! ## When the firmware sent what is reported -/

/-- What `ipt_send_message` reports with a success is what the firmware sent. -/
def IptReplyBacked (tvSec : Nat) (a : Args) (got : List UInt8) : Prop :=
  ((iptSendMessage x tvSec a).run m).value = iptSuccess →
    Backed got (((iptSendMessage x tvSec a).run m).mem.half .outDataLength 0)
      ((iptSendMessage x tvSec a).run m).mem

/-- What `mvsepfw_sendmessage` reports with a success is what the firmware sent. -/
def MvfwReplyBacked (a : MvfwArgs) (got : List UInt8) : Prop :=
  ((mvsepfwSendmessage x a).run m).value = mvfwSuccess →
    Backed got (((mvsepfwSendmessage x a).run m).mem.word .outDataLength 0)
      ((mvsepfwSendmessage x a).run m).mem

/-- A reply to `ipt_send_message` with room for `capacity` bytes. One that says success reaches to
the end of its data, and its length is one of 16 bits. One that says failure, after which the call
reports `capacity` zeros, consists of just these. -/
def IptReplyWhole (capacity : Nat) (got : List UInt8) : Prop :=
  (statusOf got = iptSuccess → outLengthOf got < 2 ^ 16 ∧ Covers got (outLengthOf got)) ∧
    (statusOf got ≠ iptSuccess → outLengthOf got = capacity ∧ Covers got capacity ∧
      ∀ i < capacity, dataByte got i = 0)

/-- A reply to `mvsepfw_sendmessage`. One that says success reaches to the end of its data. -/
def MvfwReplyWhole (got : List UInt8) : Prop :=
  statusOf got = mvfwSuccess → Covers got (outLengthOf got)

theorem iptSendMessage_backed_iff (tvSec : Nat) {a : Args} (ha : a.Admissible)
    (hc : x.connect.Succeeds) :
    Backed got (((iptSendMessage x tvSec a).run m).mem.half .outDataLength 0)
        ((iptSendMessage x tvSec a).run m).mem ↔
      IptReplyWhole (m.half .outDataLength 0) got := by
  obtain ⟨-, hlength⟩ := iptSendMessage_value x m hgot tvSec ha hc
  have hdata := iptSendMessage_outData x m hgot tvSec ha hc
  rw [hlength]
  unfold IptReplyWhole
  by_cases hs : statusOf got = iptSuccess
  · rw [if_pos hs]
    constructor
    · intro h
      obtain ⟨hcovers, hsame, -⟩ := h
      have hlt : outLengthOf got < 2 ^ 16 := hsame.symm ▸ Nat.mod_lt _ (by decide)
      rw [← hsame] at hcovers
      exact ⟨fun _ => ⟨hlt, hcovers⟩, fun hne => absurd hs hne⟩
    · intro h
      obtain ⟨hlt, hcovers⟩ := h.1 hs
      have hwrap : wrap16 (outLengthOf got) = outLengthOf got := Nat.mod_eq_of_lt hlt
      rw [hwrap]
      refine ⟨hcovers, rfl, fun i hi => (hdata i).1 hs (by rw [hwrap]; exact hi) ?_⟩
      exact Nat.lt_of_lt_of_le (Nat.add_lt_add_left hi _) hcovers
  · -- the status is dropped, so the capacity and the zeros of the memset are reported
    rw [if_neg hs]
    have hcleared : ∀ i < m.half .outDataLength 0,
        ((iptSendMessage x tvSec a).run m).mem .outData i = 0 :=
      fun i hi => (hdata i).2 (fun hyes => absurd hyes hs) hi
    constructor
    · intro h
      obtain ⟨hcovers, hsame, hsent⟩ := h
      exact ⟨fun hyes => absurd hyes hs, fun _ => ⟨hsame, hcovers, fun i hi =>
        (hsent i hi).symm.trans (hcleared i hi)⟩⟩
    · intro h
      obtain ⟨hsame, hcovers, hzeros⟩ := h.2 hs
      exact ⟨hcovers, hsame, fun i hi => (hcleared i hi).trans (hzeros i hi).symm⟩

end Exchange

/-- A reply that covers its data has its own length in the reply structure. -/
theorem mvfwLengthOf_eq {capacity : Nat} {got : List UInt8}
    (h : IptSendMsgCmdToHost.outData ≤ got.length) :
    mvfwLengthOf capacity got = outLengthOf got := by
  refine word_congr fun i hi => if_pos ?_
  simp only [IptSendMsgCmdToHost.outDataLength, IptSendMsgCmdToHost.outData] at h ⊢
  omega

theorem mvsepfwSendmessage_backed_iff (x : Exchange) (m : Mem Block) {got : List UInt8}
    (hgot : x.received IptSendMsgCmdToHost.size = some got) {a : MvfwArgs} (ha : a.Admissible)
    (hc : x.connect.Succeeds) (hs : statusOf got = mvfwSuccess) :
    Backed got (((mvsepfwSendmessage x a).run m).mem.word .outDataLength 0)
        ((mvsepfwSendmessage x a).run m).mem ↔
      Covers got (outLengthOf got) := by
  obtain ⟨-, hlength⟩ := mvsepfwSendmessage_value x m hgot ha hc
  have hdata := mvsepfwSendmessage_outData x m hgot ha hc hs
  rw [hlength hs]
  constructor
  · intro h
    rw [h.length]
    exact h.covers
  · -- a reply that reaches its data has its own length, not the capacity that was filled in
    intro h
    have hsame : mvfwLengthOf (m.word .outDataLength 0) got = outLengthOf got :=
      mvfwLengthOf_eq (Nat.le_trans (Nat.le_add_right _ _) h)
    rw [hsame] at hdata ⊢
    refine ⟨h, rfl, fun i hi => (hdata i).1 hi ?_⟩
    exact Nat.lt_of_lt_of_le (Nat.add_lt_add_left hi _) h

/-- All that the two functions report with a success was sent by the firmware exactly when the
calls that reach the exchange get whole replies: neither function has a test of its own, and
`ipt_send_message` reports success whatever the reply says. -/
theorem reply_backed_iff (x : Exchange) (m : Mem Block) (tvSec : Nat) (a : Args) (a' : MvfwArgs)
    {got : List UInt8} (hgot : x.received IptSendMsgCmdToHost.size = some got) :
    (IptReplyBacked x m tvSec a got ↔
        (a.Admissible → x.connect.Succeeds → IptReplyWhole (m.half .outDataLength 0) got)) ∧
      (MvfwReplyBacked x m a' got ↔
        (a'.Admissible → x.connect.Succeeds → MvfwReplyWhole got)) := by
  constructor
  · unfold IptReplyBacked
    by_cases hopen : a.Admissible ∧ x.connect.Succeeds
    · have hvalue := (iptSendMessage_value x m hgot tvSec hopen.1 hopen.2).1
      rw [iptSendMessage_backed_iff x m hgot tvSec hopen.1 hopen.2]
      exact ⟨fun h _ _ => h hvalue, fun h _ => h hopen.1 hopen.2⟩
    · -- a call that does not get to the exchange reports no success
      have hne := (iptSendMessage_untouched x tvSec m hopen).1
      exact iff_of_true (fun hsucc => absurd hsucc hne) fun ha hc => absurd ⟨ha, hc⟩ hopen
  · unfold MvfwReplyBacked MvfwReplyWhole
    by_cases hopen : a'.Admissible ∧ x.connect.Succeeds
    · have hvalue := (mvsepfwSendmessage_value x m hgot hopen.1 hopen.2).1
      have hbacked := mvsepfwSendmessage_backed_iff x m hgot hopen.1 hopen.2
      rw [hvalue]
      exact ⟨fun h _ _ hs => (hbacked hs).mp (h hs),
        fun h hs => (hbacked hs).mpr (h hopen.1 hopen.2 hs)⟩
    · have hne := (mvsepfwSendmessage_refused x m hopen).1
      exact iff_of_true (fun hsucc => absurd hsucc hne) fun ha hc => absurd ⟨ha, hc⟩ hopen

/-- Eight bytes of data that are announced and sent are what is reported. -/
theorem eightByteReply_backed :
    IptReplyBacked (answering 5036 eightByteReply) fourByteCaller 0 ⟨4, true, true, true⟩
        eightByteReply ∧
      MvfwReplyBacked (answering 5036 eightByteReply) fourByteCaller ⟨true, 4, true, true⟩
        eightByteReply := by
  have hgot : (answering 5036 eightByteReply).received IptSendMsgCmdToHost.size =
      some eightByteReply := by decide
  obtain ⟨hipt, hmvfw⟩ := reply_backed_iff (answering 5036 eightByteReply) fourByteCaller 0
    ⟨4, true, true, true⟩ ⟨true, 4, true, true⟩ hgot
  have hs : statusOf eightByteReply = iptSuccess := by decide
  exact ⟨hipt.mpr fun _ _ => ⟨fun _ => by decide, fun hne => absurd hs hne⟩,
    hmvfw.mpr fun _ _ _ => by decide⟩

/-- A reply of its header alone, with the status of success. -/
def headerReply : List UInt8 := [5, 0, 0, 0x70, 0, 0, 0, 0]

/-- A reply of four bytes behind the length 0, with a status of failure. -/
def refusedReply : List UInt8 := [1, 0, 0, 0x80, 5, 0, 0, 0, 0, 0, 0, 0, 9, 9, 9, 9]

/-- Both functions report a success on the header: `ipt_send_message` with the length 0 and
`mvsepfw_sendmessage` with the length 4, which is the caller's own capacity. On the refusal, which
is as long as it would have to be, `ipt_send_message` reports the 4 as well, where the firmware
sent the length 0. -/
theorem headerReply_not_backed :
    (answering 5036 headerReply).received IptSendMsgCmdToHost.size = some headerReply ∧
      ((mvsepfwSendmessage (answering 5036 headerReply) ⟨true, 4, true, true⟩).run
        fourByteCaller).value = mvfwSuccess ∧
      ((mvsepfwSendmessage (answering 5036 headerReply) ⟨true, 4, true, true⟩).run
        fourByteCaller).mem.word .outDataLength 0 = 4 ∧
      ¬ MvfwReplyBacked (answering 5036 headerReply) fourByteCaller ⟨true, 4, true, true⟩
        headerReply ∧
      ¬ IptReplyBacked (answering 5036 headerReply) fourByteCaller 0 ⟨4, true, true, true⟩
        headerReply ∧
      (answering 5036 refusedReply).received IptSendMsgCmdToHost.size = some refusedReply ∧
      ¬ IptReplyBacked (answering 5036 refusedReply) fourByteCaller 0 ⟨4, true, true, true⟩
        refusedReply := by
  have hgot : (answering 5036 headerReply).received IptSendMsgCmdToHost.size =
      some headerReply := by decide
  have hrefused : (answering 5036 refusedReply).received IptSendMsgCmdToHost.size =
      some refusedReply := by decide
  have hc : (answering 5036 headerReply).connect.Succeeds := by decide
  have ha : Args.Admissible ⟨4, true, true, true⟩ := ⟨by decide, by decide⟩
  have ha' : MvfwArgs.Admissible ⟨true, 4, true, true⟩ := ⟨by decide, by decide⟩
  obtain ⟨hvalue, hlength⟩ := mvsepfwSendmessage_value _ fourByteCaller hgot ha' hc
  obtain ⟨hvalue', -⟩ := iptSendMessage_value _ fourByteCaller hgot 0 ha hc
  obtain ⟨hsuccess, hcapacity⟩ := iptSendMessage_value _ fourByteCaller hrefused 0 ha hc
  have hs : statusOf headerReply = mvfwSuccess := by decide
  rw [hs] at hvalue
  refine ⟨hgot, hvalue, (hlength hs).trans (by decide), fun h => ?_, fun h => ?_, hrefused,
    fun h => ?_⟩
  · exact absurd (Nat.le_trans (Nat.le_add_right _ _) (h hvalue).covers) (by decide)
  · exact absurd (Nat.le_trans (Nat.le_add_right _ _) (h hvalue').covers) (by decide)
  · exact absurd ((h hsuccess).length.trans hcapacity) (by decide)

end Txei.Ipt

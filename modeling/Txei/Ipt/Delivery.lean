import Txei.Mei.Serving
import Txei.Ipt.Messages

/-!
# Messages delivered in order

The firmware is an applet: it takes one message at a time and gives an answer that may depend on all
messages before. `messages_delivered` says that a session of calls, of both front ends and on one
pair of shared structures, is a run of the applet on the messages of the calls that reach the
device, each taken once and in the order of the calls, and that every call whose reply comes
through, and has room for its data, returns the answer to its own message.
-/

namespace Txei.Ipt

open Machine Machine.Prog Mei Tee

/-! ## Answers -/

/-- What the firmware answers to a message. -/
structure Answer where
  status : Nat
  data : List UInt8
  deriving DecidableEq, Repr

/-- A reply carries an answer: its status and, with the status of success, its data. -/
structure Carries (reply : List UInt8) (answer : Answer) : Prop where
  status : statusOf reply = answer.status
  length : answer.status = iptSuccess → outLengthOf reply = answer.data.length
  covers : answer.status = iptSuccess → Covers reply answer.data.length
  data : answer.status = iptSuccess →
    slice (onWire reply) IptSendMsgCmdToHost.outData answer.data.length = answer.data

/-- What is received of a reply carries the answer when the data fits the reply structure. -/
theorem Carries.readBytes {reply : List UInt8} {answer : Answer} (h : Carries reply answer)
    (hfits : answer.status = iptSuccess → answer.data.length ≤ maxMsgToHostLengthInBytes) :
    Carries (readBytes reply IptSendMsgCmdToHost.size) answer where
  status := (wordAt_congr fun i hi => onWire_take reply (by simp; omega)).trans h.status
  length hs := (wordAt_congr fun i hi => onWire_take reply (by simp; omega)).trans (h.length hs)
  covers hs := by
    have hcovers := h.covers hs
    have hle := hfits hs
    unfold Covers at hcovers ⊢
    simp only [Mei.readBytes, List.length_take, IptSendMsgCmdToHost.outData,
      IptSendMsgCmdToHost.size, maxMsgToHostLengthInBytes] at hcovers hle ⊢
    omega
  data hs := by
    have hle := hfits hs
    refine (slice_congr fun i hi => onWire_take reply ?_).trans (h.data hs)
    simp only [IptSendMsgCmdToHost.outData, IptSendMsgCmdToHost.size,
      maxMsgToHostLengthInBytes] at hle ⊢
    omega

/-! ## What a caller gets -/

/-- The caller's buffer holds the data of an answer with zeros up to the capacity. -/
def Holds (data : List UInt8) (capacity : Nat) (m : Mem Block) : Prop :=
  m.bytes .outData capacity = data ++ List.replicate (capacity - data.length) 0

/-- A call whose reply carries `answer` returns it to a caller with room for `capacity` bytes.
`ipt_send_message` drops the status, and shows a failure by its data alone. -/
def Request.Returns (answer : Answer) (capacity : Nat) (r : Run DeviceCall Block Nat Nat) :
    Request → Prop
  | iptSendMessage _ _ => r.value = iptSuccess ∧
      if answer.status = iptSuccess then
        r.mem.half .outDataLength 0 = answer.data.length ∧ Holds answer.data capacity r.mem
      else r.mem.half .outDataLength 0 = capacity ∧ Holds [] capacity r.mem
  | mvsepfwSendmessage _ => r.value = answer.status ∧
      (answer.status = mvfwSuccess →
        r.mem.word .outDataLength 0 = answer.data.length ∧ Holds answer.data capacity r.mem)
  | _ => r.value = answer.status

/-- The data of an answer fits the caller's buffer, where a call has one. -/
def Request.HasRoom (answer : Answer) (m : Mem Block) : Request → Prop
  | iptSendMessage _ _ => answer.data.length ≤ m.half .outDataLength 0
  | mvsepfwSendmessage _ => answer.data.length ≤ m.word .outDataLength 0
  | _ => True

/-! ## The data of a reply -/

/-- The data of an answer in a reply that carries it. -/
theorem Carries.byte {got : List UInt8} {answer : Answer} (h : Carries got answer)
    (hs : answer.status = iptSuccess) {i : Nat} (hi : i < answer.data.length) :
    dataByte got i = onWire answer.data i := by
  have hdata := congrArg (fun l => l.getD i 0) (h.data hs)
  rw [List.getD_eq_getElem?_getD, getElem?_slice, if_pos hi, Option.getD_some] at hdata
  exact hdata

/-- A buffer with the data of a reply, cleared behind it, holds the data of the answer. -/
theorem Carries.holds {got : List UInt8} {answer : Answer} (h : Carries got answer)
    (hs : answer.status = iptSuccess) {capacity : Nat} (hroom : answer.data.length ≤ capacity)
    {m : Mem Block}
    (hcopied : ∀ i < answer.data.length, IptSendMsgCmdToHost.outData + i < got.length →
      m .outData i = dataByte got i)
    (hcleared : ∀ i, answer.data.length ≤ i → i < capacity → m .outData i = 0) :
    Holds answer.data capacity m := by
  refine bytes_eq_padded hroom fun i hi => ?_
  by_cases hdata : i < answer.data.length
  · have hcovers : IptSendMsgCmdToHost.outData + answer.data.length ≤ got.length := h.covers hs
    rw [hcopied i hdata (by omega), h.byte hs hdata]
  · rw [hcleared i (by omega) hi, onWire_behind _ (by omega)]

/-! ## What the calls return -/

section Calls

variable (x : Exchange) (m : Mem Block) {got : List UInt8} {answer : Answer}
  (hgot : x.received IptSendMsgCmdToHost.size = some got) (hcarries : Carries got answer)

include hgot hcarries

theorem iptSendMessage_returns (tvSec : Nat) {a : Args} (ha : a.Admissible)
    (hc : x.connect.Succeeds)
    (hroom : answer.status = iptSuccess → answer.data.length ≤ m.half .outDataLength 0) :
    (Request.iptSendMessage tvSec a).Returns answer (m.half .outDataLength 0)
      ((iptSendMessage x tvSec a).run m) := by
  obtain ⟨hvalue, hlength⟩ := iptSendMessage_value x m hgot tvSec ha hc
  have hdata := iptSendMessage_outData x m hgot tvSec ha hc
  refine ⟨hvalue, ?_⟩
  by_cases hs : answer.status = iptSuccess
  · have hwrap : wrap16 answer.data.length = answer.data.length :=
      Nat.mod_eq_of_lt (Nat.lt_of_le_of_lt (hroom hs) (m.half_lt .outDataLength 0))
    have hstatus := hcarries.status.trans hs
    simp only [hcarries.length hs, hwrap] at hlength hdata
    rw [if_pos hs]
    rw [if_pos hstatus] at hlength
    exact ⟨hlength, hcarries.holds hs (hroom hs) (fun i => (hdata i).1 hstatus)
      fun i hbehind => (hdata i).2 fun _ => hbehind⟩
  · -- the status is dropped: the caller sees the capacity and the zeros of the memset
    have hstatus : statusOf got ≠ iptSuccess := fun h => hs (hcarries.status.symm.trans h)
    rw [if_neg hs]
    rw [if_neg hstatus] at hlength
    refine ⟨hlength, bytes_eq_padded (Nat.zero_le _) fun i hi => ?_⟩
    exact (hdata i).2 (fun h => absurd h hstatus) hi

theorem mvsepfwSendmessage_returns {a : MvfwArgs} (ha : a.Admissible) (hc : x.connect.Succeeds)
    (hroom : answer.status = mvfwSuccess → answer.data.length ≤ m.word .outDataLength 0) :
    (Request.mvsepfwSendmessage a).Returns answer (m.word .outDataLength 0)
      ((mvsepfwSendmessage x a).run m) := by
  obtain ⟨hvalue, hlength⟩ := mvsepfwSendmessage_value x m hgot ha hc
  refine ⟨hvalue.trans hcarries.status, fun hs => ?_⟩
  have hstatus := hcarries.status.trans hs
  have hdata := mvsepfwSendmessage_outData x m hgot ha hc hstatus
  have hcovers : IptSendMsgCmdToHost.outData + answer.data.length ≤ got.length :=
    hcarries.covers hs
  have hmvfw : mvfwLengthOf (m.word .outDataLength 0) got = answer.data.length :=
    (mvfwLengthOf_eq (by omega)).trans (hcarries.length hs)
  rw [hmvfw] at hdata hlength
  exact ⟨hlength hstatus, hcarries.holds hs (hroom hs) (fun i => (hdata i).1)
    fun i => (hdata i).2⟩

theorem mvfwCmd_returns {cmdId : Nat} (hid : cmdId ≠ mvfwSendMsgCmdId)
    (hc : x.connect.Succeeds) : ((mvfwCmd x cmdId .none).run m).value = answer.status := by
  obtain ⟨l, hrun⟩ := mvfwCmd_command x m hid hc
  have hzero : ∀ i < 4, ((setMvfwParams cmdId .none).run m).mem .gRespParam
      (IptHeader.status + i) = 0 := by
    intro i hi
    simp only [setMvfwParams, run_bind, run_onlyIf, run_memset, run_store, Run.andThen_ok,
      Run.prepend_mem, if_neg hid]
    rw [Mem.write_inside _ _ _ _ _ _ (by omega)]
    simp [byteAt]
  rw [hrun]
  show ((exchangeMvfw x (some x.connect.openFd) cmdId).run _).value = _
  rw [exchangeMvfw_run_other hid, Run.value, (transfer_andThen x _ hgot _).1]
  exact (Mem.word_fill_of_word_zero _ _ got hzero).trans hcarries.status

/-- Every call returns the answer that its reply carries. -/
theorem Request.prog_returns {request : Request} (h : request.Checked) (hc : x.connect.Succeeds)
    (hroom : answer.status = iptSuccess → request.HasRoom answer m) :
    request.Returns answer (request.lengthIn m) ((request.prog x).run m) := by
  cases request with
  | iptSendMessage tvSec a => exact iptSendMessage_returns x m hgot hcarries tvSec h hc hroom
  | mvsepfwSendmessage a => exact mvsepfwSendmessage_returns x m hgot hcarries h hc hroom
  | mvsepfwInitialize => exact mvfwCmd_returns x m hgot hcarries (by decide) hc
  | mvsepfwDeinitialize => exact mvfwCmd_returns x m hgot hcarries (by decide) hc
  | mvsepfwConnect => exact mvfwCmd_returns x m hgot hcarries (by decide) hc
  | mvsepfwDisconnect => exact mvfwCmd_returns x m hgot hcarries (by decide) hc

end Calls

/-! ## Sessions -/

instance (a : Args) : Decidable a.Admissible :=
  decidable_of_iff ((a.inData = true ∧ a.outDataLength = true ∧ a.outData = true) ∧
      0 < a.inDataLength.toNat ∧ a.inDataLength.toNat ≤ dwordAlignedSizeOfUnionMsgReq)
    ⟨fun h => ⟨h.1, h.2⟩, fun h => ⟨h.pointers, h.length⟩⟩

instance (a : MvfwArgs) : Decidable a.Admissible :=
  decidable_of_iff ((a.inData = true ∧ a.outData = true ∧ a.outDataLength = true) ∧
      0 < a.inDataLength.toNat ∧ a.inDataLength.toNat ≤ maxMsgFromHostLengthInBytes)
    ⟨fun h => ⟨h.1, h.2⟩, fun h => ⟨h.pointers, h.length⟩⟩

instance : (request : Request) → Decidable request.Checked
  | .iptSendMessage _ a => inferInstanceAs (Decidable a.Admissible)
  | .mvsepfwSendmessage a => inferInstanceAs (Decidable a.Admissible)
  | Request.mvsepfwInitialize => inferInstanceAs (Decidable True)
  | Request.mvsepfwDeinitialize => inferInstanceAs (Decidable True)
  | Request.mvsepfwConnect => inferInstanceAs (Decidable True)
  | Request.mvsepfwDisconnect => inferInstanceAs (Decidable True)

/-- The request reaches the device: it is filled in, there is a connection to a descriptor that
`mei_sndmsg` writes to, and the whole of it is written. -/
def Call.Delivered (c : Call) : Prop :=
  c.request.Checked ∧ c.x.connect.Succeeds ∧ 0 < c.x.connect.openFd ∧
    c.x.written IptSendMsgCmdFromHost.size = IptSendMsgCmdFromHost.size

instance (c : Call) : Decidable c.Delivered := inferInstanceAs (Decidable (_ ∧ _))

/-- A device answers a request and goes on in another state. -/
abbrev Device (σ : Type) : Type := σ → List UInt8 → σ × List UInt8

/-- An applet answers a message and goes on in another state. -/
abbrev Applet (σ : Type) : Type := σ → Message → σ × Answer

variable {σ : Type}

/-- The device runs the applet on what it is handed. -/
structure Runs (d : Device σ) (t : Applet σ) : Prop where
  state : ∀ s bytes message, Message.ofBytes bytes = some message →
    (d s bytes).1 = (t s message).1
  answer : ∀ s bytes message, Message.ofBytes bytes = some message →
    Carries (d s bytes).2 (t s message).2

/-- The shared structures of the library and the state of the device. -/
structure World (σ : Type) where
  globals : Mem Block
  device : σ

namespace Call

variable (d : Device σ) (w : World σ) (c : Call)

/-- The exchange of the call with the device. -/
def exchangeOn : Exchange :=
  if c.Delivered then c.x.serving (d w.device (c.sent w.globals)).2 else { c.x with read := none }

/-- The run of the call on the device. -/
def runOn : Run DeviceCall Block Nat Nat :=
  (c.request.prog (c.exchangeOn d w)).run (c.start w.globals)

/-- The call leaves the shared structures as its run does, and moves the device on if its request
arrives. -/
def stepOn : World σ where
  globals := (c.runOn d w).mem
  device := if c.Delivered then (d w.device (c.sent w.globals)).1 else w.device

/-- The message that the device takes. -/
def taken : Option Message :=
  if c.Delivered then some (c.request.message c.provided) else none

end Call

/-- The shared structures and the device after a session. -/
def worldAfter (d : Device σ) (w : World σ) (h : List Call) : World σ :=
  after (fun w c => c.stepOn d w) w h

/-- The applet after the messages of a session. -/
def appletAfter (t : Applet σ) (s : σ) (h : List Call) : σ :=
  after (fun s message => (t s message).1) s (h.filterMap Call.taken)

section Session

variable {d : Device σ} {t : Applet σ}

/-- The device goes through the states of the applet. -/
theorem Runs.device_worldAfter (hruns : Runs d t) (w : World σ) (h : List Call) :
    (worldAfter d w h).device = appletAfter t w.device h := by
  induction h using List.reverseRecOn with
  | nil => rfl
  | append_singleton h c ih =>
      unfold worldAfter appletAfter at ih ⊢
      rw [after_snoc, List.filterMap_append, after_append, ← ih]
      generalize after (fun w c => Call.stepOn d w c) w h = w'
      by_cases hdel : c.Delivered
      · have hsent := ofBytes_sent hdel.1 w'.globals
        simp only [Call.stepOn, Call.taken, List.filterMap_cons, List.filterMap_nil, if_pos hdel]
        exact hruns.state _ _ _ hsent
      · simp only [Call.stepOn, Call.taken, List.filterMap_cons, List.filterMap_nil, if_neg hdel]
        rfl

/-- A call that reaches the device receives as much of the reply as the reply structure holds. -/
theorem Call.received_exchangeOn (w : World σ) {c : Call} (hdel : c.Delivered)
    (hread : c.x.read.isSome = true) :
    (c.exchangeOn d w).received IptSendMsgCmdToHost.size =
      some (readBytes (d w.device (c.sent w.globals)).2 IptSendMsgCmdToHost.size) := by
  obtain ⟨bytes, hbytes⟩ := Option.isSome_iff_exists.mp hread
  have hlength := length_readBytes_le (d w.device (c.sent w.globals)).2 IptSendMsgCmdToHost.size
  have hsize : IptSendMsgCmdToHost.size < 2 ^ 31 := by decide
  rw [Call.exchangeOn, if_pos hdel, Exchange.received]
  simp only [Exchange.serving, hbytes, Option.map_some, if_pos hdel.2.2.1]
  generalize readBytes (d w.device (c.sent w.globals)).2 IptSendMsgCmdToHost.size = got at hlength
  have hcount := int32_of_nonneg_lt (i := got.length) (by omega) (by omega)
  rw [hcount]
  exact if_neg (by omega)

theorem Call.connect_exchangeOn (w : World σ) (c : Call) :
    (c.exchangeOn d w).connect = c.x.connect := by
  unfold Call.exchangeOn
  split
  · rfl
  · rfl

/-- A call finds its own buffers. -/
theorem Call.lengthIn_start (c : Call) (globals : Mem Block) :
    c.request.lengthIn (c.start globals) = c.request.lengthIn c.provided := by
  cases c.request with
  | _ => rfl

theorem Call.hasRoom_start (c : Call) (globals : Mem Block) (answer : Answer) :
    c.request.HasRoom answer (c.start globals) ↔ c.request.HasRoom answer c.provided := by
  cases c.request with
  | _ => rfl

/-- In every session the device takes the messages of the calls that reach it, each once and in
their order. What such a call lets the device read is its own message, and if the reply comes
through and there is room for its data, the call returns the answer to it. -/
theorem messages_delivered (hruns : Runs d t) (w : World σ) (h : List Call) :
    (worldAfter d w h).device = appletAfter t w.device h ∧
      Everywhere (fun p c => c.Delivered →
        ((outcomeOf c.request (c.runOn d (worldAfter d w p))).sent.bind Message.ofBytes =
          some (c.request.message c.provided)) ∧
        (c.x.read.isSome = true →
          let answer := (t (appletAfter t w.device p) (c.request.message c.provided)).2
          (answer.status = iptSuccess → answer.data.length ≤ maxMsgToHostLengthInBytes ∧
            c.request.HasRoom answer c.provided) →
            c.request.Returns answer (c.request.lengthIn c.provided)
              (c.runOn d (worldAfter d w p)))) h := by
  refine ⟨hruns.device_worldAfter w h, fun p c rest heq hdel => ?_⟩
  have hdevice := hruns.device_worldAfter w p
  generalize worldAfter d w p = w' at hdevice ⊢
  obtain ⟨hchecked, hconnect, hfd, hwritten⟩ := hdel
  have hsent := ofBytes_sent hchecked w'.globals
  have hconnect' := c.connect_exchangeOn (d := d) w'
  constructor
  · obtain ⟨hread, hkept⟩ := Request.sends (c.exchangeOn d w') (c.start w'.globals) hchecked
      (hconnect'.symm ▸ hconnect) (hconnect'.symm ▸ hfd)
    have hbytes : requestBytes (c.runOn d w').mem = c.sent w'.globals := by
      rw [Call.sent, requestBytes, requestBytes, Call.runOn, hkept]
    have hthere : .read .gReqParam 0 IptSendMsgCmdFromHost.size ∈ (c.runOn d w').log := hread
    rw [outcomeOf, if_pos hthere, Option.bind_some, hbytes, hsent]
  · intro hread answer hroom
    have hgot := c.received_exchangeOn (d := d) w' ⟨hchecked, hconnect, hfd, hwritten⟩ hread
    have hcarries : Carries (d w'.device (c.sent w'.globals)).2 answer :=
      hdevice ▸ hruns.answer w'.device _ _ hsent
    have hreturns := Request.prog_returns (c.exchangeOn d w') (c.start w'.globals) hgot
      (hcarries.readBytes fun hs => (hroom hs).1) hchecked (hconnect'.symm ▸ hconnect)
      fun hs => (c.hasRoom_start w'.globals answer).mpr (hroom hs).2
    rw [c.lengthIn_start] at hreturns
    exact hreturns

end Session

/-- An applet that counts its messages, and a device that runs it. -/
def countApplet : Applet Nat := fun s _ => (s + 1, ⟨0, [UInt8.ofNat s]⟩)

def countDevice : Device Nat := fun s bytes =>
  if (Message.ofBytes bytes).isSome then
    (s + 1, [1, 0, 0, 0x80, 0, 0, 0, 0, 1, 0, 0, 0, UInt8.ofNat s])
  else (s, [])

theorem countDevice_runs : Runs countDevice countApplet where
  state s bytes message h := by
    rw [countDevice, h]
    rfl
  answer s bytes message h := by
    rw [countDevice, h]
    exact ⟨rfl, fun _ => rfl, fun _ => Nat.le_refl _, fun _ => rfl⟩

/-- Over structures full of ones, and behind a call of the other front end, a message is the second
that is counted from 7 on. -/
theorem messages_delivered_count :
    (worldAfter countDevice ⟨fun _ _ => 1, 7⟩ [earlierCall, shortCall fourByteCaller]).device = 9 ∧
      (shortCall fourByteCaller).request.Returns ⟨0, [8]⟩ 4
        ((shortCall fourByteCaller).runOn countDevice
          (worldAfter countDevice ⟨fun _ _ => 1, 7⟩ [earlierCall])) := by
  obtain ⟨hdevice, hcalls⟩ := messages_delivered countDevice_runs ⟨fun _ _ => 1, 7⟩
    [earlierCall, shortCall fourByteCaller]
  obtain ⟨-, hreturns⟩ := hcalls [earlierCall] (shortCall fourByteCaller) [] rfl (by decide)
  exact ⟨hdevice, hreturns rfl fun _ => ⟨by decide, show 1 ≤ _ by decide⟩⟩

end Txei.Ipt

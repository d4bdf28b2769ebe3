import Txei.Machine.History
import Txei.Ipt.Sent

/-!
# Calls that share their structures

All calls of the library use one request structure and one reply structure, and find in them what
the calls before left. An outcome is what a call shows: the request that is sent, and the status,
the length and the data that are returned. `calls_independent` says that after any two histories
calls with the same arguments send the same request, and with the same exchange show the same
outcome.
-/

namespace Txei.Ipt

open Machine Machine.Prog Mei Tee

/-! ## What is seen of a call -/

/-- A call together with its exchange and the caller's buffers. -/
structure Call where
  request : Request
  x : Exchange
  provided : Mem Block

/-- The two structures that all calls share. -/
def Block.isGlobal : Block → Bool
  | gReqParam => true
  | gRespParam => true
  | _ => false

namespace Call

variable (c : Call) (globals : Mem Block)

/-- The memory a call starts in: the shared structures as they are, the rest as provided. -/
def start : Mem Block := fun b => if b.isGlobal then globals b else c.provided b

/-- The run of a call. -/
def run : Run DeviceCall Block Nat Nat := (c.request.prog c.x).run (c.start globals)

/-- A reply to the call announces no more data than its own array holds. -/
def ReplyFits : Prop :=
  ∀ got, c.x.received IptSendMsgCmdToHost.size = some got →
    c.request.copied c.provided got ≤ maxMsgToHostLengthInBytes

end Call

/-- The shared structures after a history of calls, from the contents `globals`. -/
def globalsAfter (globals : Mem Block) (h : List Call) : Mem Block :=
  after (fun globals c => (c.run globals).mem) globals h

/-- What a call shows: the request structure, if the device was let read it, the status, what
`*out_data_length` holds behind the call, and after a success that many bytes of `out_data`. -/
structure Outcome where
  sent : Option (List UInt8)
  status : Nat
  length : Nat
  data : List UInt8
  deriving DecidableEq, Repr

/-- The outcome of a run. Nothing writes the request structure once the device has been let read
it (`Request.keeps_request`), so the bytes sent are those at the end. -/
def outcomeOf (request : Request) (r : Run DeviceCall Block Nat Nat) : Outcome where
  sent := if .read .gReqParam 0 IptSendMsgCmdFromHost.size ∈ r.log then some (requestBytes r.mem)
    else none
  status := r.value
  length := request.lengthIn r.mem
  data := if r.value = iptSuccess then (List.range (request.lengthIn r.mem)).map (r.mem .outData)
    else []

/-- Two calls of one function with the same arguments. Their exchanges may differ, and their buffers
behind the message and in all of `out_data`. -/
structure SameArguments (c c' : Call) : Prop where
  request : c'.request = c.request
  arguments : Mem.Agree c.request.Argument c.provided c'.provided

/-! ## The data that is returned -/

section Data

variable (x : Exchange) (m : Mem Block)

/-- Copying a message writes as many bytes as the length it leaves. -/
theorem copyMessage_sets (h : repliedStatus m = iptSuccess) :
    Log.Sets .outData 0 (wrap16 (repliedLength m)) (copyMessage.run m).log := by
  simp only [repliedStatus, IptHeader.status, iptSuccess] at h
  by_cases hzero : m.word .gRespParam 8 = 0
  · have hnone : wrap16 (repliedLength m) = 0 := by
      rw [repliedLength, IptSendMsgCmdToHost.outDataLength, hzero]
      rfl
    rw [hnone]
    exact fun i _ hi => absurd hi (Nat.not_lt_zero i)
  · exact Log.sets_of_mem (by simp [copyMessage, h, hzero])

theorem copyMvfw_sets (h : repliedStatus m = mvfwSuccess) :
    Log.Sets .outData 0 (repliedLength m) (copyMvfw.run m).log := by
  simp only [repliedStatus, IptHeader.status, mvfwSuccess] at h
  by_cases hzero : m.word .gRespParam 8 = 0
  · rw [repliedLength, IptSendMsgCmdToHost.outDataLength, hzero]
    exact fun i _ hi => absurd hi (Nat.not_lt_zero i)
  · exact Log.sets_of_mem (by simp [copyMvfw, h, hzero])

/-- Every byte of a message that `ipt_send_message` returns has been written by the call. -/
theorem iptSendMessage_sets {tvSec : Nat} {a : Args}
    (hvalue : ((iptSendMessage x tvSec a).run m).value = iptSuccess) :
    Log.Sets .outData 0 (((iptSendMessage x tvSec a).run m).mem.half .outDataLength 0)
      ((iptSendMessage x tvSec a).run m).log := by
  have hopen : a.Admissible ∧ x.connect.Succeeds := by
    by_contra hno
    exact (iptSendMessage_untouched x tvSec m hno).1 hvalue
  obtain ⟨ha, hc⟩ := hopen
  obtain ⟨l, hclear, -, -, hmem, hlog⟩ := iptSendMessage_opened x tvSec m ha hc
  rw [exchangeMessage_run] at hmem hlog
  obtain ⟨-, -, hcap⟩ := setReqParam_outData tvSec (a := a) m
  have hzero := (setReqParam_spec tvSec (a := a) m).2
  generalize ((setReqParam tvSec a).run m).mem = start at hcap hzero hmem hlog
  have hcleared : Log.Sets .outData 0 (m.half .outDataLength 0)
      ((iptSendMessage x tvSec a).run m).log := by
    rw [hlog]
    exact Log.sets_of_mem (List.mem_append_left _ hclear)
  cases hgot : x.received IptSendMsgCmdToHost.size with
  | none =>
      -- nothing is copied, and the length is the capacity
      rw [Run.andThen_of_error ((transfer_spec x start).1 hgot)] at hmem
      have hkept : ((transfer x).run start).mem.half .outDataLength 0 =
          m.half .outDataLength 0 := by
        rw [Mem.half, (within_transfer x).mem_eq (b := .outDataLength) (by simp) start]
        exact hcap
      rw [hmem, hkept]
      exact hcleared
  | some got =>
      obtain ⟨-, hlength⟩ := iptSendMessage_value x m hgot tvSec ha hc
      rw [hlength]
      by_cases hs : statusOf got = iptSuccess
      · have hstatus : repliedStatus (start.fill .gRespParam got) = iptSuccess :=
          (Mem.word_fill_of_zero _ _ got hzero (by decide)).trans hs
        have hreplied : repliedLength (start.fill .gRespParam got) = outLengthOf got :=
          Mem.word_fill_of_zero _ _ got hzero (by decide)
        have hsets := copyMessage_sets (start.fill .gRespParam got) hstatus
        rw [hreplied] at hsets
        rw [if_pos hs, hlog, (transfer_andThen x start hgot copyMessage).2.2]
        exact hsets.mono fun e he =>
          List.mem_append_right _ (List.mem_append_left _ (List.mem_append_right _ he))
      · rw [if_neg hs]
        exact hcleared

/-- Every byte of a message that `mvsepfw_sendmessage` returns has been written by the call. -/
theorem mvsepfwSendmessage_sets {a : MvfwArgs}
    (hvalue : ((mvsepfwSendmessage x a).run m).value = mvfwSuccess) :
    Log.Sets .outData 0 (((mvsepfwSendmessage x a).run m).mem.word .outDataLength 0)
      ((mvsepfwSendmessage x a).run m).log := by
  have hopen : a.Admissible ∧ x.connect.Succeeds := by
    by_contra hno
    exact (mvsepfwSendmessage_refused x m hno).1 hvalue
  obtain ⟨ha, hc⟩ := hopen
  obtain ⟨l, -, -, -, hreturned, -, hlog⟩ := mvsepfwSendmessage_opened x m ha hc
  cases hgot : x.received IptSendMsgCmdToHost.size with
  | none =>
      rw [exchangeMvfw_run] at hreturned
      rw [hreturned, Run.andThen_of_error ((transfer_spec x _).1 hgot), Run.value_error] at hvalue
      exact absurd hvalue (by decide)
  | some got =>
      obtain ⟨hstatus, hlength⟩ := mvsepfwSendmessage_value x m hgot ha hc
      have hs : statusOf got = mvfwSuccess := hstatus.symm.trans hvalue
      have hfill := setMvfwParams_fill (a := a)
        (m.write .outData 0 (m.word .outDataLength 0) fun _ => 0) got
      rw [Mem.word_write_other _ _ _ _ _ (by decide)] at hfill
      obtain ⟨hfilled, hreplied⟩ := hfill
      have hsets := copyMvfw_sets _ (hfilled.trans hs)
      rw [hreplied] at hsets
      rw [hlength hs, hlog, exchangeMvfw_run, (transfer_andThen x _ hgot copyMvfw).2.2]
      exact hsets.mono fun e he =>
        List.mem_append_right _ (List.mem_append_left _ (List.mem_append_right _ he))

end Data

/-! ## After any history -/

/-- Every byte of the data that a call returns has been written by the call. -/
theorem Request.prog_dataSets (x : Exchange) (m : Mem Block) (request : Request)
    (hvalue : ((request.prog x).run m).value = iptSuccess) :
    Log.Sets .outData 0 (request.lengthIn ((request.prog x).run m).mem)
      ((request.prog x).run m).log := by
  cases request with
  | iptSendMessage tvSec a => exact iptSendMessage_sets x m hvalue
  | mvsepfwSendmessage a => exact mvsepfwSendmessage_sets x m hvalue
  | _ => exact fun i _ hi => absurd hi (Nat.not_lt_zero i)

/-- The length of a call is among its arguments. -/
theorem Request.lengthIn_eq {request : Request} {S : Region Block} {m m' : Mem Block}
    (hS : ∀ b i, request.Argument b i → S b i) (hagree : Mem.Agree S m m') :
    request.lengthIn m' = request.lengthIn m := by
  cases request with
  | iptSendMessage tvSec a =>
      exact hagree.half_eq fun i hi => hS _ _ (.inr ⟨rfl, by omega⟩)
  | mvsepfwSendmessage a =>
      exact hagree.word_eq fun i hi => hS _ _ (.inr ⟨rfl, by omega⟩)
  | _ => rfl

/-- The same run has the same outcome. -/
theorem outcomeOf_eq {x : Exchange} {request : Request} {S : Region Block} {m m' : Mem Block}
    (hS : ∀ b i, request.Argument b i → S b i) (hagree : Mem.Agree S m m')
    (hsame : ((request.prog x).run m).Same ((request.prog x).run m')) :
    outcomeOf request ((request.prog x).run m') = outcomeOf request ((request.prog x).run m) := by
  have hlog := hsame.2.1
  have hvalue : ((request.prog x).run m').value = ((request.prog x).run m).value := by
    rw [Run.value, Run.value, hsame.1]
  have hlength := request.lengthIn_eq hS (agree_of_same hsame hagree)
  have hbytes : ∀ {b n}, Log.Sets b 0 n ((request.prog x).run m).log →
      (List.range n).map (((request.prog x).run m').mem b) =
        (List.range n).map (((request.prog x).run m).mem b) := by
    intro b n hsets
    refine List.map_congr_left fun i hi => mem_eq_of_same hsame (.inr ?_)
    exact hsets i (Nat.zero_le i) (by rw [Nat.zero_add]; exact List.mem_range.mp hi)
  unfold outcomeOf
  rw [hlog, hvalue, hlength, Outcome.mk.injEq]
  refine ⟨?_, rfl, rfl, ?_⟩
  · by_cases hsent : .read .gReqParam 0 IptSendMsgCmdFromHost.size ∈ ((request.prog x).run m).log
    · rw [if_pos hsent, if_pos hsent]
      exact congrArg some (Request.sent_same (fun b i hb => hagree b i (hS b i hb)) hsent
        (hlog.symm ▸ hsent))
    · rw [if_neg hsent, if_neg hsent]
  · by_cases hok : ((request.prog x).run m).value = iptSuccess
    · rw [if_pos hok, if_pos hok]
      exact hbytes (request.prog_dataSets x m hok)
    · rw [if_neg hok, if_neg hok]

/-- The device fills the reply structure up to its end at most. -/
theorem within_processCmd_reply (x : Exchange) (ptrHandle : Option Int) :
    Within (Event.WritesBelow .gRespParam IptSendMsgCmdToHost.size)
      (processCmd x ptrHandle (some ⟨some .gReqParam, IptSendMsgCmdFromHost.size⟩)
        (some ⟨some .gRespParam, IptSendMsgCmdToHost.size⟩) 1 : Proc Nat) := by
  refine within_processCmd x ptrHandle _ _ _ _ _ (by simp) fun j hj => ?_
  intro i hi
  exact Nat.lt_of_lt_of_le hi.2.2 (by omega)

theorem within_mvfwCmd (x : Exchange) (cmdId : Nat) (a : MvfwArgs) :
    Within (Event.WritesBelow .gRespParam IptSendMsgCmdToHost.size) (mvfwCmd x cmdId a) := by
  have hexchange : ∀ ptrHandle, Within (Event.WritesBelow .gRespParam IptSendMsgCmdToHost.size)
      (exchangeMvfw x ptrHandle cmdId) := by
    intro ptrHandle
    refine .bind (within_processCmd_reply x ptrHandle) fun _ => ?_
    refine .bind (within_exitIf _ _) fun _ => ?_
    refine .bind (by simp) fun _ => .ite (.bind (within_exitIf _ _) fun _ => ?_) (within_pure _)
    refine .bind (by simp) fun _ => .bind (by simp) fun _ => .bind (.onlyIf ?_) fun _ => ?_
    · simp
    · exact within_pure _
  have hclose := fun ptrHandle => (within_disconnectMvfw ptrHandle).mono fun e he =>
    he.writesBelow (b := .gRespParam) (by simp) IptSendMsgCmdToHost.size
  refine .bind (within_exitIf _ _) fun _ => .bind (within_teeInit _ (by simp)) fun r => ?_
  refine .bind (within_exitIf _ _) fun _ => .bind ?_ fun _ => ?_
  · unfold setMvfwParams
    iterate 6 refine .bind (by simp) fun _ => ?_
    refine .onlyIf ?_
    repeat' refine .bind ?_ fun _ => ?_
    all_goals simp
  · exact .bind (hexchange _).returned fun _ => .bind (hclose _) fun _ => within_pure _

/-- No call writes behind the reply structure. -/
theorem within_prog (x : Exchange) (request : Request) :
    Within (Event.WritesBelow .gRespParam IptSendMsgCmdToHost.size) (request.prog x) := by
  cases request with
  | iptSendMessage tvSec a =>
      have hexchange : ∀ ptrHandle,
          Within (Event.WritesBelow .gRespParam IptSendMsgCmdToHost.size)
            (exchangeMessage x ptrHandle) := by
        intro ptrHandle
        refine .bind (within_processCmd_reply x ptrHandle) fun _ => ?_
        refine .bind (within_exitIf _ _) fun _ => .bind (by simp) fun _ => ?_
        refine .bind (within_exitIf _ _) fun _ => .bind (by simp) fun _ => ?_
        exact .bind (by simp) fun _ => .onlyIf (by simp)
      have hclose := fun ptrHandle ret => (within_disconnectMei ptrHandle ret).mono fun e he =>
        he.writesBelow (b := .gRespParam) (by simp) IptSendMsgCmdToHost.size
      refine .bind (.bind (within_exitIf _ _) fun _ => within_exitIf _ _) fun _ => ?_
      refine .bind (within_teeInit _ (by simp)) fun r => ?_
      refine .bind (within_exitIf _ _) fun _ => .bind ?_ fun _ => ?_
      · unfold setReqParam
        repeat' refine .bind ?_ fun _ => ?_
        all_goals simp
      · exact .bind (hexchange _).attempt fun _ => hclose _ _
  | mvsepfwSendmessage a =>
      refine .bind (within_exitIf _ _) fun _ => .bind (by simp) fun _ => .bind (by simp) fun _ => ?_
      exact .bind (within_mvfwCmd x _ a).returned fun _ => .bind (within_exitIf _ _) fun _ =>
        within_pure _
  | mvsepfwInitialize => exact within_mvfwCmd x _ _
  | mvsepfwDeinitialize => exact within_mvfwCmd x _ _
  | mvsepfwConnect => exact within_mvfwCmd x _ _
  | mvsepfwDisconnect => exact within_mvfwCmd x _ _

theorem globalsAfter_behind (globals : Mem Block) (h : List Call) {i : Nat}
    (hi : IptSendMsgCmdToHost.size ≤ i) :
    globalsAfter globals h .gRespParam i = globals .gRespParam i := by
  refine after_invariant (I := fun m : Mem Block => m .gRespParam i = globals .gRespParam i)
    _ _ rfl ?_ h
  intro m c hm
  rw [← hm]
  exact mem_eq_of_writesBelow (within_prog c.x c.request (c.start m)) hi

/-- The arguments of a call are not among the shared structures. -/
theorem Request.not_isGlobal_of_argument {request : Request} {b : Block} {i : Nat}
    (h : request.Argument b i) : b.isGlobal = false := by
  cases request with
  | iptSendMessage tvSec a => rcases h with ⟨rfl, -⟩ | ⟨rfl, -⟩ <;> rfl
  | mvsepfwSendmessage a => rcases h with ⟨rfl, -⟩ | ⟨rfl, -⟩ <;> rfl
  | _ => exact h.elim

/-- The arguments, and what lies alike behind the reply structure. -/
def Shared (request : Request) (globals globals' : Mem Block) : Region Block := fun b i =>
  request.Argument b i ∨
    b = .gRespParam ∧ IptSendMsgCmdToHost.size ≤ i ∧ globals' b i = globals b i

theorem SameArguments.agree {c c' : Call} (h : SameArguments c c') (globals globals' : Mem Block) :
    Mem.Agree (Shared c.request globals globals') (c.start globals) (c'.start globals') := by
  intro b i hb
  rcases hb with harg | ⟨rfl, -, heq⟩
  · have hlocal := Request.not_isGlobal_of_argument harg
    simp only [Call.start, hlocal]
    exact h.arguments b i harg
  · exact heq

/-- A run shows the request that it lets the device read. -/
theorem outcomeOf_sent (request : Request) {r : Run DeviceCall Block Nat Nat}
    {bytes : List UInt8} :
    (outcomeOf request r).sent = some bytes ↔
      .read .gReqParam 0 IptSendMsgCmdFromHost.size ∈ r.log ∧ requestBytes r.mem = bytes := by
  simp only [outcomeOf]
  split
  · rename_i hsent
    exact ⟨fun h => ⟨hsent, Option.some.inj h⟩, fun h => congrArg some h.2⟩
  · rename_i hsent
    exact ⟨fun h => (nomatch h), fun h => absurd h.1 hsent⟩

theorem Request.copied_start (c : Call) (globals : Mem Block) (got : List UInt8) :
    c.request.copied (c.start globals) got = c.request.copied c.provided got := by
  cases c.request with
  | _ => rfl

/-- After any two histories, two calls with the same arguments send the same request if both send
one, whatever their exchanges and replies are like. With the same exchange, all that they show is
the same: it depends on the arguments, the exchange and the reply of the call alone. There the reply
announces no more data than its array holds, or what lies behind the reply structure, where no call
writes, is the same. -/
theorem calls_independent (globals globals' : Mem Block) (h h' : List Call) {c c' : Call}
    (hsame : SameArguments c c') :
    (∀ bytes bytes',
        (outcomeOf c.request (c.run (globalsAfter globals h))).sent = some bytes →
        (outcomeOf c'.request (c'.run (globalsAfter globals' h'))).sent = some bytes' →
        bytes' = bytes) ∧
      (c'.x = c.x →
        (c.ReplyFits ∨ ∀ i, IptSendMsgCmdToHost.size ≤ i →
          globals' .gRespParam i = globals .gRespParam i) →
        outcomeOf c'.request (c'.run (globalsAfter globals' h')) =
          outcomeOf c.request (c.run (globalsAfter globals h))) := by
  have hagree := hsame.agree (globalsAfter globals h) (globalsAfter globals' h')
  have hargs : ∀ b i, c.request.Argument b i →
      Shared c.request (globalsAfter globals h) (globalsAfter globals' h') b i :=
    fun b i => .inl
  unfold Call.run
  rw [hsame.request]
  constructor
  · intro bytes bytes' hshown hshown'
    obtain ⟨hsent, rfl⟩ := (outcomeOf_sent _).mp hshown
    obtain ⟨hsent', rfl⟩ := (outcomeOf_sent _).mp hshown'
    exact Request.sent_same (fun b i hb => hagree b i (hargs b i hb)) hsent hsent'
  · intro hexchange hreply
    rw [hexchange]
    refine outcomeOf_eq hargs hagree (Request.prog_same hargs ?_ hagree)
    refine hreply.imp (fun hfits got hgot => ?_) fun hbehind i => ?_
    · rw [Request.copied_start]
      exact hfits got hgot
    · -- below its end the reply structure is cleared, behind it no call has written
      rcases Nat.lt_or_ge i IptSendMsgCmdToHost.size with hlt | hge
      · exact .inr (.inr ⟨rfl, hlt⟩)
      · refine .inl (.inr ⟨rfl, hge, ?_⟩)
        rw [globalsAfter_behind globals h hge, globalsAfter_behind globals' h' hge]
        exact hbehind i hge

/-- A message of 4 bytes to `ipt_send_message`, whose caller provides `provided` and gets a reply
of 8 bytes. -/
def shortCall (provided : Mem Block) : Call where
  request := .iptSendMessage 0 ⟨4, true, true, true⟩
  x := answering 5036 eightByteReply
  provided := provided

/-- The same message, without a reply. -/
def lostCall (provided : Mem Block) : Call :=
  { shortCall provided with x := { answering 5036 [] with read := none } }

/-- A call of `mvsepfw_sendmessage` with the same buffers. -/
def earlierCall : Call where
  request := .mvsepfwSendmessage ⟨true, 4, true, true⟩
  x := answering 5036 eightByteReply
  provided := fourByteCaller

/-- A message into a used buffer, after a call of the other front end and over structures full of
ones, shows what the same message shows in a fresh process; and if its reply is lost, the request is
still the same. -/
theorem shortCall_independent :
    let used := fourByteCaller.write .outData 0 8 fun _ => 7
    let fresh := outcomeOf (shortCall fourByteCaller).request
      ((shortCall fourByteCaller).run (globalsAfter (fun _ _ => 0) []))
    outcomeOf (shortCall used).request
        ((shortCall used).run (globalsAfter (fun _ _ => 1) [earlierCall])) = fresh ∧
      (outcomeOf (lostCall used).request
        ((lostCall used).run (globalsAfter (fun _ _ => 1) [earlierCall]))).sent = fresh.sent := by
  intro used fresh
  have hother : ∀ b, b ≠ Block.outData → used b = fourByteCaller b :=
    fun b hb => Mem.write_other _ _ _ _ hb
  have harguments : Mem.Agree (shortCall fourByteCaller).request.Argument fourByteCaller used := by
    intro b i hb
    rcases hb with ⟨rfl, -⟩ | ⟨rfl, -⟩
    · exact congrFun (hother .inData (by decide)) i
    · exact congrFun (hother .outDataLength (by decide)) i
  have hchecked : (shortCall fourByteCaller).request.Checked := ⟨by decide, by decide⟩
  constructor
  · have hsame : SameArguments (shortCall fourByteCaller) (shortCall used) := ⟨rfl, harguments⟩
    have hshort :=
      (calls_independent (fun _ _ => 0) (fun _ _ => 1) [] [earlierCall] hsame).2 rfl
    refine hshort (.inl fun got hgot => ?_)
    obtain rfl : eightByteReply = got :=
      Option.some.inj ((show (answering 5036 eightByteReply).received IptSendMsgCmdToHost.size =
        some eightByteReply by decide).symm.trans hgot)
    show outLengthOf eightByteReply ≤ maxMsgToHostLengthInBytes
    decide
  · have hsame : SameArguments (shortCall fourByteCaller) (lostCall used) := ⟨rfl, harguments⟩
    have hlost := (calls_independent (fun _ _ => 0) (fun _ _ => 1) [] [earlierCall] hsame).1
    have hsent := (Request.sends (shortCall fourByteCaller).x
      ((shortCall fourByteCaller).start (globalsAfter (fun _ _ => 0) [])) hchecked (by decide)
      (by decide)).1
    have hsent' := (Request.sends (lostCall used).x
      ((lostCall used).start (globalsAfter (fun _ _ => 1) [earlierCall])) hchecked (by decide)
      (by decide)).1
    have hshown := (outcomeOf_sent (shortCall fourByteCaller).request).mpr ⟨hsent, rfl⟩
    have hshown' := (outcomeOf_sent (lostCall used).request).mpr ⟨hsent', rfl⟩
    exact hshown'.trans ((congrArg some (hlost _ _ hshown hshown')).trans hshown.symm)

end Txei.Ipt

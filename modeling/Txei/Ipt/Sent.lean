import Txei.Ipt.SideBySide

/-!
# The request that is sent

A call that passes its checks on an open interface fills the request structure in, lets the device
read it, and does not write it again (`Request.sends`); no other call lets the device read it. The
structure is filled in from the arguments alone, so two calls with the same arguments send the same
bytes, whatever becomes of them (`Request.sent_same`).
-/

namespace Txei.Ipt

open Machine Machine.Prog Mei Tee

/-- The lines with which `mvsepfw_sendmessage` starts. -/
def clearOutData : Proc Unit := do
  let outDataLength ← load .outDataLength 0
  memset .outData 0 0 outDataLength

theorem run_clearOutData_bind {α : Type} (p : Proc α) (m : Mem Block) :
    ((clearOutData >>= fun _ => p).run m).mem =
      (p.run (m.write .outData 0 (m.word .outDataLength 0) fun _ => 0)).mem := by
  simp only [clearOutData, run_bind, run_load, run_memset, Run.andThen_ok, Run.andThen_prepend,
    Run.prepend_mem]

namespace Request

/-- The command that a call sends. -/
def cmdId : Request → Nat
  | iptSendMessage _ _ => iptSendMsgCmdId
  | mvsepfwInitialize => mvfwInitCmdId
  | mvsepfwDeinitialize => mvfwDeinitCmdId
  | mvsepfwConnect => mvfwConnectCmdId
  | mvsepfwDisconnect => mvfwDisconnectCmdId
  | mvsepfwSendmessage _ => mvfwSendMsgCmdId

/-- The arguments of a call pass its checks. -/
def Checked : Request → Prop
  | iptSendMessage _ a => a.Admissible
  | mvsepfwSendmessage a => a.Admissible
  | _ => True

/-- The lines that clear the caller's buffer and fill the two structures in. -/
def fill : Request → Proc Unit
  | iptSendMessage tvSec a => setReqParam tvSec a
  | mvsepfwSendmessage a => do
      clearOutData
      setMvfwParams mvfwSendMsgCmdId a
  | request => setMvfwParams request.cmdId .none

end Request

/-- The bytes of the request structure. -/
def requestBytes (m : Mem Block) : List UInt8 :=
  (List.range IptSendMsgCmdFromHost.size).map (m .gReqParam)

/-! ## The calls on the open interface -/

section Opened

variable (x : Exchange) (m : Mem Block)

/-- On a descriptor that can be written to, the device is let read the request structure. -/
theorem read_mem_transfer (hfd : 0 < x.connect.openFd) :
    .read .gReqParam 0 IptSendMsgCmdFromHost.size ∈ ((transfer x).run m).log := by
  have hsnd := run_meiSndmsg (ε := Nat) x Block.gReqParam IptSendMsgCmdFromHost.size m
  rw [if_neg (show ¬ x.connect.openFd ≤ 0 by omega)] at hsnd
  have hsend : .read .gReqParam 0 IptSendMsgCmdFromHost.size ∈
      ((sendCmd x (some x.connect.openFd) (some ⟨some .gReqParam, IptSendMsgCmdFromHost.size⟩) :
        Proc Nat).run m).log := by
    refine mem_log_bind ?_
    rw [sndmsg, hsnd]
    exact List.mem_singleton_self _
  have hpass : ¬ int32 (validateDataBufferParams
      (some ⟨some Block.gReqParam, IptSendMsgCmdFromHost.size⟩)
      (some ⟨some Block.gRespParam, IptSendMsgCmdToHost.size⟩)) ≠ 0 := by decide
  unfold transfer processCmd
  rw [if_neg (by decide), if_neg hpass]
  exact mem_log_bind (mem_log_bind hsend)

/-- A command on the open interface: the structures are filled in, the exchange takes place, and
the interface is closed. -/
theorem mvfwCmd_command {cmdId : Nat} (hid : cmdId ≠ mvfwSendMsgCmdId)
    (hc : x.connect.Succeeds) :
    ∃ l, (mvfwCmd x cmdId .none).run m =
      let r := (exchangeMvfw x (some x.connect.openFd) cmdId).run
        ((setMvfwParams cmdId .none).run m).mem
      ⟨.ok r.value, r.mem, l ++ (((setMvfwParams cmdId .none).run m).log ++
        (r.log ++ [.call (.closed x.connect.openFd)]))⟩ := by
  obtain ⟨hinit, hmem⟩ := run_teeInit (β := Block) (ε := Nat) x.connect m
  rw [if_pos hc] at hinit
  have hfill : ((setMvfwParams cmdId .none).run m).result = .ok () := by
    simp [setMvfwParams, hid]
  refine ⟨((teeInit x.connect : Proc (Nat × Option Int)).run m).log, ?_⟩
  unfold mvfwCmd iptTeeIntfInit
  rw [run_exitIf_bind, if_neg (fun h => hid h.1), run_bind, Run.andThen_of_ok hinit,
    run_exitIf_bind, if_neg (by simp), hmem, run_bind, Run.andThen_of_ok hfill, run_bind,
    run_returned, Run.andThen_ok]
  simp [disconnectMvfw, iptTeeIntfDeinit, teeDeinit, meiDisconnect, Run.prepend]

/-- A call on the open interface fills the structures in and goes through the exchange; what follows
works on the reply and the caller's buffers. -/
theorem Request.prog_opened {request : Request} (h : request.Checked) (hc : x.connect.Succeeds) :
    ∃ (α : Type) (copy : Proc α) (l l' : Log DeviceCall Block),
      Within (Event.In [.gRespParam] [.outDataLength, .outData]) copy ∧
        let r := (transfer x >>= fun _ => copy).run (request.fill.run m).mem
        ((request.prog x).run m).mem = r.mem ∧ ((request.prog x).run m).log = l ++ (r.log ++ l') := by
  -- the four commands without a message differ in their ids alone
  have hcommand {cmdId : Nat} (hid : cmdId ≠ mvfwSendMsgCmdId) :
      ∃ (α : Type) (copy : Proc α) (l l' : Log DeviceCall Block),
        Within (Event.In [.gRespParam] [.outDataLength, .outData]) copy ∧
          let r := (transfer x >>= fun _ => copy).run ((setMvfwParams cmdId .none).run m).mem
          ((mvfwCmd x cmdId .none).run m).mem = r.mem ∧
            ((mvfwCmd x cmdId .none).run m).log = l ++ (r.log ++ l') := by
    obtain ⟨l, hrun⟩ := mvfwCmd_command x m hid hc
    refine ⟨Nat, load .gRespParam IptHeader.status, l ++ ((setMvfwParams cmdId .none).run m).log,
      [.call (.closed x.connect.openFd)], by simp, ?_⟩
    rw [hrun, exchangeMvfw_run_other hid, run_bind]
    exact ⟨rfl, (List.append_assoc _ _ _).symm⟩
  cases request with
  | iptSendMessage tvSec a =>
      obtain ⟨l, -, -, -, hmem, hlog⟩ := iptSendMessage_opened x tvSec m h hc
      rw [exchangeMessage_run, ← run_bind] at hmem hlog
      exact ⟨Unit, copyMessage, l, _, within_copyMessage, hmem, hlog⟩
  | mvsepfwSendmessage a =>
      obtain ⟨l, -, -, -, -, hmem, hlog⟩ := mvsepfwSendmessage_opened x m h hc
      rw [exchangeMvfw_run, ← run_bind] at hmem hlog
      refine ⟨Nat, copyMvfw, l, [.call (.closed x.connect.openFd)], within_copyMvfw, ?_⟩
      rw [Request.fill, run_clearOutData_bind]
      exact ⟨hmem, hlog⟩
  | mvsepfwInitialize => exact hcommand (by decide)
  | mvsepfwDeinitialize => exact hcommand (by decide)
  | mvsepfwConnect => exact hcommand (by decide)
  | mvsepfwDisconnect => exact hcommand (by decide)

/-- Nothing writes the request structure behind the lines that fill it in. -/
theorem Request.keeps_request {request : Request} (h : request.Checked)
    (hc : x.connect.Succeeds) :
    ((request.prog x).run m).mem .gReqParam = (request.fill.run m).mem .gReqParam := by
  obtain ⟨α, copy, l, l', hcopy, hmem, -⟩ := Request.prog_opened x m h hc
  have hw : Within (Event.In [.gReqParam, .gRespParam] [.gRespParam, .outDataLength, .outData])
      (transfer x >>= fun _ => copy) :=
    .bind ((within_transfer x).mono fun e he => he.mono (by simp) (by simp)) fun _ =>
      hcopy.mono fun e he => he.mono (by simp) (by simp)
  rw [hmem]
  exact hw.mem_eq (by decide) _

/-- A call on an open interface to a device that can be written to lets it read the request that
was filled in, and leaves the request as it is. -/
theorem Request.sends {request : Request} (h : request.Checked) (hc : x.connect.Succeeds)
    (hfd : 0 < x.connect.openFd) :
    .read .gReqParam 0 IptSendMsgCmdFromHost.size ∈ ((request.prog x).run m).log ∧
      ((request.prog x).run m).mem .gReqParam = (request.fill.run m).mem .gReqParam := by
  refine ⟨?_, Request.keeps_request x m h hc⟩
  obtain ⟨α, copy, l, l', -, -, hlog⟩ := Request.prog_opened x m h hc
  rw [hlog]
  refine List.mem_append_right _ (List.mem_append_left _ ?_)
  exact mem_log_bind (f := fun _ => copy) (read_mem_transfer x _ hfd)

/-- No other call lets the device read the request structure. -/
theorem Request.opened_of_sent {request : Request}
    (h : .read .gReqParam 0 IptSendMsgCmdFromHost.size ∈ ((request.prog x).run m).log) :
    request.Checked ∧ x.connect.Succeeds := by
  by_contra hno
  have hcommand {cmdId : Nat} (hc : ¬ x.connect.Succeeds) :
      ∀ e ∈ ((mvfwCmd x cmdId .none).run m).log, e.In [.outDataLength] [.outData] :=
    fun e he => ((mvfwCmd_untouched x m (.inr hc)).2 e he).mono (by simp) (by simp)
  -- before the interface is open a call touches the caller's buffers only
  have hin : ∀ e ∈ ((request.prog x).run m).log, e.In [.outDataLength] [.outData] := by
    cases request with
    | iptSendMessage tvSec a =>
        exact fun e he => ((iptSendMessage_untouched x tvSec m hno).2 e he).mono (by simp) (by simp)
    | mvsepfwSendmessage a => exact (mvsepfwSendmessage_refused x m hno).2.2
    | mvsepfwInitialize => exact hcommand fun hc => hno ⟨trivial, hc⟩
    | mvsepfwDeinitialize => exact hcommand fun hc => hno ⟨trivial, hc⟩
    | mvsepfwConnect => exact hcommand fun hc => hno ⟨trivial, hc⟩
    | mvsepfwDisconnect => exact hcommand fun hc => hno ⟨trivial, hc⟩
  exact absurd (hin _ h) (by simp)

end Opened

/-! ## What the request depends on -/

section Same

variable {request : Request} {m m' : Mem Block}

/-- Filling in a request reads the arguments alone. -/
theorem Request.fill_same (hagree : Mem.Agree request.Argument m m') :
    (request.fill.run m).Same (request.fill.run m') := by
  cases request with
  | iptSendMessage tvSec a => exact setReqParam_same (fun b i hb => hb) hagree
  | mvsepfwSendmessage a =>
      -- the capacity is read for the memset, before the structures are filled in
      have hcapacity : ∀ i < 4, (Request.mvsepfwSendmessage a).Argument .outDataLength i :=
        fun i hi => .inr ⟨rfl, hi⟩
      have hclear : Within (Event.ReadsIn (Request.mvsepfwSendmessage a).Argument)
          clearOutData := by
        refine .bind ?_ fun n => by simp
        simpa using hcapacity
      exact same_bind hagree (hclear.same_of_agree hagree) fun _ _ hagree =>
        setMvfwParams_same (fun _ b i hb => hb) hagree
  | mvsepfwInitialize => exact setMvfwParams_same (fun hid => nomatch hid) hagree
  | mvsepfwDeinitialize => exact setMvfwParams_same (fun hid => nomatch hid) hagree
  | mvsepfwConnect => exact setMvfwParams_same (fun hid => nomatch hid) hagree
  | mvsepfwDisconnect => exact setMvfwParams_same (fun hid => nomatch hid) hagree

/-- All of the request structure is filled in. -/
theorem Request.write_mem_fill (request : Request) (m : Mem Block) :
    .write .gReqParam 0 IptSendMsgCmdFromHost.size ∈ (request.fill.run m).log := by
  cases request with
  | iptSendMessage tvSec a => simp [Request.fill, setReqParam]
  | mvsepfwSendmessage a => simp [Request.fill, clearOutData, setMvfwParams]
  | _ => simp [Request.fill, setMvfwParams]

/-- Two calls with the same arguments that send a request send the same one, whatever their
exchanges are like and whatever the structures held. -/
theorem Request.sent_same {x x' : Exchange} (hagree : Mem.Agree request.Argument m m')
    (hsent : .read .gReqParam 0 IptSendMsgCmdFromHost.size ∈ ((request.prog x).run m).log)
    (hsent' : .read .gReqParam 0 IptSendMsgCmdFromHost.size ∈ ((request.prog x').run m').log) :
    requestBytes ((request.prog x').run m').mem = requestBytes ((request.prog x).run m).mem := by
  obtain ⟨hchecked, hc⟩ := Request.opened_of_sent x m hsent
  obtain ⟨-, hc'⟩ := Request.opened_of_sent x' m' hsent'
  rw [requestBytes, requestBytes, Request.keeps_request x m hchecked hc,
    Request.keeps_request x' m' hchecked hc']
  refine List.map_congr_left fun i hi => ?_
  have hwritten : i < 0 + IptSendMsgCmdFromHost.size := by
    rw [Nat.zero_add]
    exact List.mem_range.mp hi
  exact mem_eq_of_same (Request.fill_same hagree)
    (.inr ⟨_, request.write_mem_fill m, rfl, Nat.zero_le i, hwritten⟩)

end Same

end Txei.Ipt

import Txei.Machine.Text
import Txei.Mei.Serving
import Txei.Keymaster.Answer
import Txei.Keymaster.Capabilities
import Txei.Keymaster.Question

/-!
# Calls that a firmware serves

A firmware is the bytes that it answers to those of a request. `sendCmd_refines` puts the two
translations together: a call that asks a question, on a firmware that has an answer, returns the
answer. Between the two stands what the call sends (`Call.sent`), which is the request in
the memory that `translateCmd` leaves.
-/

namespace Txei.Keymaster

open Machine Machine.Prog Mei

/-- A firmware. -/
abbrev Firmware : Type := List UInt8 → List UInt8

/-- The firmware gives the answers `ask` to the questions that requests ask, each in one message.
A question without an answer is one it refuses. -/
def Serves (serve : Firmware) (keyOpaqueSize : Nat) (ask : Question → Option Answer) : Prop :=
  ∀ request q a, Question.ofRequest keyOpaqueSize (onWire request) = some q → ask q = some a →
    Answer.ofReply q.command (serve request) = some a ∧ (serve request).length ≤ agentMaxMtu

section Calls

variable (call : Call) (statics : Mem Block)

/-- The memory with the request that a call hands to the driver. -/
def requestMem : Mem Block :=
  ((do prologue call.args call.env; translateCmd call.env.mallocRequest : Proc Nat).run
    (call.start statics)).mem

/-- The bytes of the request that a call sends. -/
def Call.sent : List UInt8 :=
  match requestLen call.args call.env (call.start statics) with
  | some n => (requestMem call statics).bytes .request n
  | none => []

/-- The call on a device in which the firmware answers what is sent. -/
def Call.servedBy (serve : Firmware) : Call :=
  { call with env := { call.env with fw := call.env.fw.serving (serve (call.sent statics)) } }

/-- The call is admitted with a command `c`, and the system works while it runs. -/
structure Admitted (size : Nat) (c : Command) : Prop where
  valid : call.args.Valid (call.start statics)
  opaqueSize : opaqueSizeInForce call.env (call.start statics) = some size
  mallocRequest : call.env.mallocRequest = true
  mallocResponse : call.env.mallocResponse = true
  fits : c.requestSize size ≤ maxHeciMsgSize
  works : call.env.fw.Works (c.requestSize size)

/-- The caller's buffer has room for the answer, and so has the reply buffer that is allocated for
it: the answer of a verification is shorter in a response than in a reply. -/
def HasRoom (m : Mem Block) (a : Answer) : Prop :=
  a.rspSize ≤ rspLength m ∧ a.replySize ≤ fwResponseLength m

instance (m : Mem Block) (a : Answer) : Decidable (HasRoom m a) :=
  inferInstanceAs (Decidable (_ ∧ _))

end Calls

/-! ## What is sent -/

section Sent

variable {call : Call} {statics : Mem Block} {size : Nat} {c : Command}

theorem Admitted.requestLen (h : Admitted call statics size c)
    (hid : Command.ofHalId ((call.start statics).word .cmdBuffer FirmwareCmd.cmdId) = some c)
    (ha : c.Accepts (call.start statics) size) :
    requestLen call.args call.env (call.start statics) = some (c.requestSize size) := by
  have hlen : c.fwRequestLen size = c.requestSize size :=
    Command.fwRequestLen_eq (Nat.lt_of_le_of_lt h.fits (by decide))
  have htranslated : c.Translated (call.start statics) size := ⟨ha, by rw [hlen]; exact h.fits⟩
  rw [Keymaster.requestLen, if_pos h.valid, h.opaqueSize, hid, ← hlen]
  exact if_pos ⟨h.mallocRequest, htranslated⟩

/-- The memory in which the request is built. -/
theorem Admitted.prologue (h : Admitted call statics size c) :
    (prologueRun call statics).result = .ok () ∧
      Keymaster.opaqueSize (prologueRun call statics).mem = size ∧
      (prologueRun call statics).mem .cmdBuffer = call.start statics .cmdBuffer := by
  obtain ⟨hres, hsize⟩ := (prologue_spec call.args call.env (call.start statics)).1 size h.valid
    h.opaqueSize
  exact ⟨hres, hsize, (within_prologue _ _).mem_eq (by decide) _⟩

/-- The request that is sent is the one that `generate_cmd_buf` builds there. -/
theorem Admitted.requestMem_eq (h : Admitted call statics size c)
    (hid : Command.ofHalId ((call.start statics).word .cmdBuffer FirmwareCmd.cmdId) = some c) :
    requestMem call statics .request = requestOf (prologueRun call statics).mem := by
  obtain ⟨hres, -, hcmd⟩ := h.prologue
  have hid' : Command.ofHalId
      ((prologueRun call statics).mem.word .cmdBuffer FirmwareCmd.cmdId) = some c := by
    simp only [Mem.word, hcmd]
    exact hid
  have hmem : requestMem call statics =
      ((translateCmd call.env.mallocRequest).run (prologueRun call statics).mem).mem := by
    have hrun := Run.andThen_of_ok hres fun _ => (translateCmd call.env.mallocRequest).run
    exact (congrArg Run.mem hrun).trans (Run.prepend_mem _ _)
  rw [hmem, h.mallocRequest, (translateCmd_known hid').2.1, requestOf_known hid']

theorem Admitted.sent_apply (h : Admitted call statics size c)
    (hid : Command.ofHalId ((call.start statics).word .cmdBuffer FirmwareCmd.cmdId) = some c)
    (ha : c.Accepts (call.start statics) size) {i : Nat} (hi : i < c.requestSize size) :
    onWire (call.sent statics) i = requestOf (prologueRun call statics).mem i := by
  have hbytes : (requestMem call statics).bytes .request (c.requestSize size) =
      slice (requestMem call statics .request) 0 (c.requestSize size) := by
    simp only [Mem.bytes, slice, Nat.zero_add]
  rw [Call.sent, h.requestLen hid ha, ← h.requestMem_eq hid]
  simp only [hbytes]
  exact onWire_slice _ hi

/-- A command that asks a question is accepted. -/
theorem Admitted.accepts {q : Question} (h : Admitted call statics size q.command)
    (hq : Question.ofCommand size (call.start statics) = some q) :
    q.command.Accepts (call.start statics) size := by
  obtain ⟨-, hsize, hcmd⟩ := h.prologue
  have hsame := (ofCommand_congr hcmd size).trans hq
  rw [← hsize] at hsame
  have hthere := (Question.ofCommand_eq_some hsame).2.1.accepts
  rwa [hsize, Command.accepts_congr hcmd] at hthere

/-- What is sent asks what the command asks. -/
theorem Admitted.ofRequest_sent {q : Question} (h : Admitted call statics size q.command)
    (hq : Question.ofCommand size (call.start statics) = some q) :
    Question.ofRequest size (onWire (call.sent statics)) = some q := by
  obtain ⟨hid, -, -⟩ := Question.ofCommand_eq_some hq
  obtain ⟨-, hsize, hcmd⟩ := h.prologue
  have hwrap : q.command.requestSize size < 2 ^ 32 := Nat.lt_of_le_of_lt h.fits (by decide)
  refine ofRequest_congr (fun i hi => h.sent_apply hid (h.accepts hq) hi) ?_
  rw [← hsize] at hwrap ⊢
  exact ofRequest_requestOf ((ofCommand_congr hcmd _).trans (hsize ▸ hq)) hwrap

end Sent

/-! ## What comes back -/

section Served

variable {call : Call} {statics : Mem Block} {size : Nat} {serve : Firmware}
  {ask : Question → Option Answer} {q : Question} {a : Answer}

/-- The call gets what the firmware answers, as far as its reply buffer goes. -/
theorem Admitted.reply_served (h : Admitted call statics size q.command)
    (hq : Question.ofCommand size (call.start statics) = some q)
    (hbytes : (serve (call.sent statics)).length ≤ agentMaxMtu) :
    reply call.args (call.servedBy statics serve).env (call.start statics) =
      some (readBytes (serve (call.sent statics)) (fwResponseLength (call.start statics))) := by
  obtain ⟨hid, -, -⟩ := Question.ofCommand_eq_some hq
  have hlen : Keymaster.requestLen call.args (call.servedBy statics serve).env
      (call.start statics) = some (q.command.requestSize size) := h.requestLen hid (h.accepts hq)
  have hmalloc : (call.servedBy statics serve).env.mallocResponse = true := h.mallocResponse
  have hpos : 0 < q.command.requestSize size := by
    cases q.command <;> simp only [Command.requestSize] <;> simp
  have hlt : q.command.requestSize size < 2 ^ 31 := Nat.lt_of_le_of_lt h.fits (by decide)
  rw [reply, hlen]
  simp only [hmalloc, if_true]
  exact h.works.reply hpos hlt (Nat.lt_of_le_of_lt hbytes (by decide))

/-- The reply buffer holds the bytes of a message that is laid over it. -/
theorem replyMem_readBytes (m : Mem Block) (bytes : List UInt8) {i : Nat}
    (hi : i < fwResponseLength m) :
    replyMem m (readBytes bytes (fwResponseLength m)) .response i = onWire bytes i := by
  have hcleared : (m.write .response 0 (fwResponseLength m) fun _ => 0) .response i = 0 :=
    Mem.write_inside m .response 0 _ _ i (by omega)
  rw [replyMem, Mem.fill_of_zero _ _ _ hcleared]
  exact onWire_take bytes hi

/-- The run `r` of a call with command `c` returns the answer `a`. -/
structure Returns (r : Run DeviceCall Block Failure Unit) (c : Command) (a : Answer) : Prop where
  result : r.result = .ok ()
  answer : Answer.ofResponse c r.mem = some a
  length : rspLength r.mem = a.rspSize

theorem Returns.of_decoded {r d : Run DeviceCall Block Failure Unit} {c : Command}
    (h : Returns d c a) (hdecoded : DecodedAs r d) : Returns r c a where
  result := hdecoded.result.trans h.result
  answer := (ofResponse_congr hdecoded.rspBuffer c).trans h.answer
  length := by
    rw [← h.length]
    simp only [rspLength, Mem.word, hdecoded.rspLength]

/-- The decoder returns the answer of a message that there is room for. -/
theorem decodeReply_returns {m : Mem Block} {c : Command} {bytes : List UInt8}
    (ha : Answer.ofReply c bytes = some a) (hroom : HasRoom m a) :
    Returns (decodeReply.run (replyMem m (readBytes bytes (fwResponseLength m)))) c a := by
  obtain ⟨hcode, hid, hfields⟩ := Answer.ofReply_eq_some ha
  obtain ⟨hresponse, hreply⟩ := hroom
  have hsame : ∀ i < fwResponseLength m,
      replyMem m (readBytes bytes (fwResponseLength m)) .response i = onWire bytes i :=
    fun i hi => replyMem_readBytes m bytes hi
  have hlength := rspLength_replyMem m (readBytes bytes (fwResponseLength m))
  generalize replyMem m (readBytes bytes (fwResponseLength m)) = r at hsame hlength ⊢
  have hheader : 20 ≤ fwResponseLength m := by
    refine Nat.le_trans ?_ hreply
    cases a <;> simp only [Answer.replySize] <;> omega
  have hcodeThere : replyCode r = responseCodeSuccess :=
    (wordAt_congr fun i hi => hsame _ (by simp; omega)).trans hcode
  have hidThere : wordAt (r .response) RespHeader.cmdId = c.fwId :=
    (wordAt_congr fun i hi => hsame _ (by simp; omega)).trans hid
  have hcmdThere : replyCommand r = some c := (congrArg Command.ofFwId hidThere).trans c.ofFwId_fwId
  have hthere : c.inReply (r .response) = a :=
    (inReply_congr hsame (hfields ▸ hreply)).trans hfields
  have hsize : c.rspNeed r = a.rspSize := by rw [← rspSize_inReply, hthere]
  obtain ⟨hok, hanswer, hneed⟩ := decodeReply_answers hcodeThere hcmdThere
    (hsize.trans_le (hresponse.trans_eq hlength.symm))
  exact ⟨hok, hanswer.trans (congrArg some hthere), hneed.trans hsize⟩

/-- A call that asks a question, on a firmware that has an answer to it, returns the answer. -/
theorem sendCmd_refines (hserves : Serves serve size ask)
    (hadmitted : Admitted call statics size q.command)
    (hq : Question.ofCommand size (call.start statics) = some q) (ha : ask q = some a)
    (hroom : HasRoom (call.start statics) a) :
    Returns ((call.servedBy statics serve).run statics) q.command a := by
  obtain ⟨hanswer, hbytes⟩ := hserves _ q a (hadmitted.ofRequest_sent hq) ha
  exact (decodeReply_returns hanswer hroom).of_decoded
    (sepKeymasterSendCmd_delivered (hadmitted.reply_served hq hbytes))

end Served

end Txei.Keymaster

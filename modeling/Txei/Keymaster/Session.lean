import Txei.Keymaster.Refinement

/-!
# Sessions with a firmware

A session is a history of calls on one firmware, which answers the query of the capabilities too.
The calls are any calls: their arguments and memory may be invalid, and the system may fail under
each of them. Only a query of which the device accepts no byte is left out (`Call.Queries`), since
the driver does not call that a failure. `session_refines` says that in every such session each
call that asks a question, with memory and transport to ask it, returns the answer, whatever the
calls before it were. What the session carries from call to call is `key_opaque_size`, which is the
one that the firmware reports as soon as it is there (`sizeKnown_session`).
-/

namespace Txei.Keymaster

open Machine Machine.Prog Mei

/-! ## The query of the capabilities -/

/-- The request of `get_caps`. -/
def capsRequest : List UInt8 := (capsStart fun _ _ => 0).bytes .capsRequest ReqHeader.size

/-- Every query sends the same request. -/
theorem bytes_capsStart (m : Mem Block) :
    (capsStart m).bytes .capsRequest ReqHeader.size = capsRequest := by
  refine List.map_congr_left fun i hi => ?_
  have hlt : i < 12 := by simpa using hi
  -- the three fields are the whole request
  simp only [capsStart, Mem.write]
  split_ifs
  all_goals first | rfl | (simp at *; omega)

/-- The firmware reports a `key_opaque_size`, whatever the one before was. -/
def Reports (serve : Firmware) (size : Nat) : Prop :=
  (serve capsRequest).length ≤ agentMaxMtu ∧
    ∀ old, opaqueSizeOfCaps (readBytes (serve capsRequest) agentMaxMtu) old = some size

/-- The call on a device in which the firmware answers the query. -/
def Call.queried (call : Call) (statics : Mem Block) (serve : Firmware) : Call :=
  { call with
    env := { call.env with
      caps := call.env.caps.serving
        (serve ((capsStart (call.start statics)).bytes .capsRequest ReqHeader.size)) } }

/-- The call on a device in which the firmware answers whatever it is sent. -/
def Call.on (call : Call) (statics : Mem Block) (serve : Firmware) : Call :=
  (call.queried statics serve).servedBy statics serve

/-- One call of a session. -/
def sessionStep (serve : Firmware) (statics : Mem Block) (call : Call) : Mem Block :=
  (call.on statics serve).step statics

/-- The statics after a session, from the zeros they are initialised with. -/
def staticsServed (serve : Firmware) (h : List Call) : Mem Block :=
  after (sessionStep serve) (fun _ _ => 0) h

/-- The device accepts something of a query. -/
def Call.Queries (call : Call) : Prop := call.env.caps.write ≠ some 0

instance (call : Call) : Decidable call.Queries := inferInstanceAs (Decidable (_ ≠ _))

/-- The system works while a call with command `c` runs: its arguments pass the tests, there is
memory, and the device takes what it is sent. -/
structure Ready (call : Call) (statics : Mem Block) (size : Nat) (c : Command) : Prop where
  valid : call.args.Valid (call.start statics)
  caps : obtained statics = none → call.env.mallocCaps = true ∧ call.env.caps.Works ReqHeader.size
  mallocRequest : call.env.mallocRequest = true
  mallocResponse : call.env.mallocResponse = true
  fits : c.requestSize size ≤ maxHeciMsgSize
  works : call.env.fw.Works (c.requestSize size)

section Session

variable {serve : Firmware} {size : Nat}

/-- A query that succeeds finds the `key_opaque_size` that the firmware reports. -/
theorem capsRun_reports (hreports : Reports serve size) {call : Call} {statics : Mem Block}
    (hwrite : call.Queries) (h : (capsRun (call.on statics serve) statics).result = .ok ()) :
    opaqueSize (capsRun (call.on statics serve) statics).mem = size := by
  have hsent := bytes_capsStart (call.start statics)
  unfold capsRun Call.on Call.queried at h ⊢
  simp only [Call.servedBy, hsent] at h ⊢
  cases hmalloc : call.env.mallocCaps with
  | false => simp [hmalloc, getCaps] at h
  | true =>
      have hspec := getCaps_spec (call.env.caps.serving (serve capsRequest)) (call.start statics)
      rw [hmalloc] at h
      cases hgot : (call.env.caps.serving (serve capsRequest)).reply ReqHeader.size
          agentMaxMtu with
      | none =>
          rw [hgot] at hspec
          obtain ⟨e, he⟩ := hspec
          cases he.symm.trans h
      | some got =>
          have heq := Exchange.eq_of_reply_serving (by decide) (by decide) hwrite hgot
          rw [hgot, Option.bind_some, heq, hreports.2] at hspec
          exact hspec.2

/-- What a session knows of `key_opaque_size`. -/
def SizeKnown (size : Nat) (statics : Mem Block) : Prop :=
  obtained statics = none ∨ obtained statics = some size

theorem sizeKnown_step (hreports : Reports serve size) {call : Call} (hwrite : call.Queries)
    {statics : Mem Block} (h : SizeKnown size statics) :
    SizeKnown size (sessionStep serve statics call) := by
  rcases h with hnone | hsome
  · by_cases hsucc : CapsSucceeds (call.on statics serve) statics
    · refine .inr ((obtained_of_succeeds _ _ hsucc).trans ?_)
      rw [capsRun_reports hreports hwrite hsucc.2]
    · -- the call does not set the latch
      refine .inl (Classical.byContradiction fun hset => hsucc ?_)
      exact (sets_iff _ _).mp ⟨hnone, hset⟩
  · exact .inr (obtained_kept _ _ _ hsome)

theorem sizeKnown_session (hreports : Reports serve size) {h : List Call}
    (hqueries : ∀ call ∈ h, call.Queries) : SizeKnown size (staticsServed serve h) :=
  after_invariant_of_mem _ _ (.inl obtained_initial) h fun _ call hcall =>
    sizeKnown_step hreports (hqueries call hcall)

variable {ask : Question → Option Answer} {call : Call} {statics : Mem Block}

/-- A call that is ready is admitted with the `key_opaque_size` of the firmware. -/
theorem Ready.admitted (hreports : Reports serve size) {c : Command}
    (h : Ready call statics size c) (hknown : SizeKnown size statics) :
    Admitted (call.queried statics serve) statics size c where
  valid := h.valid
  opaqueSize := by
    have hsent := bytes_capsStart (call.start statics)
    have hword := start_word call statics (b := .capsObtained) rfl 0
    rcases hknown with hnone | hsome
    · obtain ⟨hmalloc, hworks⟩ := h.caps hnone
      have hlen : (serve capsRequest).length < 2 ^ 31 :=
        Nat.lt_of_le_of_lt hreports.1 (by decide)
      have hreply := hworks.reply (k := agentMaxMtu) (by decide) (by decide) hlen
      have hzero := (obtained_eq_none_iff statics).mp hnone
      have hqueried : opaqueSizeInForce (call.queried statics serve).env (call.start statics) =
          opaqueSizeOfCaps (readBytes (serve capsRequest) agentMaxMtu)
            (opaqueSize (call.start statics)) := by
        unfold opaqueSizeInForce Call.queried
        rw [hword, if_pos hzero, if_pos hmalloc, hsent, hreply, Option.bind_some]
      exact hqueried.trans (hreports.2 _)
    · unfold obtained at hsome
      obtain ⟨hset, hsize⟩ := Option.ite_none_left_eq_some.mp hsome
      have hthere : opaqueSize (call.start statics) = opaqueSize statics :=
        start_word call statics rfl 0
      have hforce : opaqueSizeInForce (call.queried statics serve).env (call.start statics) =
          some (opaqueSize (call.start statics)) := by
        unfold opaqueSizeInForce
        rw [hword, if_neg hset]
      exact hforce.trans ((congrArg some hthere).trans hsize)
  mallocRequest := h.mallocRequest
  mallocResponse := h.mallocResponse
  fits := h.fits
  works := h.works

/-- The call asks `q`, gets through to the firmware and has room for the answer `a`. -/
structure Asks (call : Call) (statics : Mem Block) (size : Nat) (q : Question) (a : Answer) :
    Prop where
  ready : Ready call statics size q.command
  question : Question.ofCommand size (call.start statics) = some q
  room : HasRoom (call.start statics) a

/-- The run of a call that comes after the calls `p` of a session. -/
def runAfter (serve : Firmware) (p : List Call) (call : Call) :
    Run DeviceCall Block Failure Unit :=
  (call.on (staticsServed serve p) serve).run (staticsServed serve p)

theorem returns_runAfter (hreports : Reports serve size) (hserves : Serves serve size ask)
    {p : List Call} (hqueries : ∀ call ∈ p, call.Queries) {q : Question} {a : Answer}
    (ha : ask q = some a) (hasks : Asks call (staticsServed serve p) size q a) :
    Returns (runAfter serve p call) q.command a := by
  have hadmitted := hasks.ready.admitted hreports (sizeKnown_session hreports hqueries)
  exact sendCmd_refines hserves hadmitted hasks.question ha hasks.room

/-- The call that comes after `p` asks `q` and is answered. -/
def AsksAfter (serve : Firmware) (size : Nat) (ask : Question → Option Answer) (p : List Call)
    (call : Call) (q : Question) : Prop :=
  (∀ c ∈ p, c.Queries) ∧ ∃ a, ask q = some a ∧ Asks call (staticsServed serve p) size q a

end Session

/-! ## A firmware with one key -/

/-- The answers of a firmware with one key, under which everything has one signature. -/
def oneKeyAsk : Question → Option Answer
  | .generate .. | .importKey .. => some (.keyBlob [11, 12, 13, 14])
  | .publicKey _ => none
  | .sign .. => some (.signature [31])
  | .verify _ _ signature => some (.verdict (signature = [31]))

/-- A reply that reports success. -/
def successReply (cmdId outputSize : UInt8) (output : List UInt8) : List UInt8 :=
  [0, 0, 0, 0, 1, 0, 0, 0, cmdId, 0, 0, 0, 0, 0, 0, 0, outputSize, 0, 0, 0] ++ output

def oneKeyReply : Question → List UInt8
  | .generate .. => successReply 1 4 [11, 12, 13, 14]
  | .importKey .. => successReply 2 4 [11, 12, 13, 14]
  | .publicKey _ => []
  | .sign .. => successReply 5 5 [1, 0, 0, 0, 31]
  | .verify _ _ signature => successReply 6 4 [if signature = [31] then 1 else 0, 0, 0, 0]

def oneKeyServe : Firmware := fun request =>
  if request = capsRequest then
    successReply 0 24 [0, 0, 0, 0, 1, 0, 0, 0, 0, 0, 0, 0, 8, 0, 0, 0, 0, 1, 0, 0, 4, 0, 0, 0]
  else ((Question.ofRequest 4 (onWire request)).map oneKeyReply).getD []

theorem oneKey_reports : Reports oneKeyServe 4 := ⟨by decide, fun _ => rfl⟩

theorem oneKey_serves : Serves oneKeyServe 4 oneKeyAsk := by
  intro request q a hq ha
  have hcaps : Question.ofRequest 4 (onWire capsRequest) = none := by decide
  have hne : request ≠ capsRequest := by
    rintro rfl
    cases hcaps.symm.trans hq
  have hserve : oneKeyServe request = oneKeyReply q := by
    rw [oneKeyServe, if_neg hne, hq, Option.map_some, Option.getD_some]
  rw [hserve]
  cases q with
  | generate keySize exponent | importKey modulus exponent privateExponent | sign key data =>
      cases ha
      exact ⟨rfl, Nat.le_of_ble_eq_true rfl⟩
  | publicKey key => cases ha
  | verify key data signature =>
      cases ha
      rw [oneKeyReply]
      by_cases hsignature : signature = [31]
      · rw [if_pos hsignature, decide_eq_true hsignature]
        exact ⟨rfl, by decide⟩
      · rw [if_neg hsignature, decide_eq_false hsignature]
        exact ⟨rfl, by decide⟩

/-- A system that works. -/
def workingEnv : Env where
  mallocCaps := true
  caps := answering 12 []
  mallocRequest := true
  mallocResponse := true
  fw := answering 1000 []

/-- A call with a command on a system that works. -/
def workingCall (command : List UInt8) : Call where
  args := { cmdBuffer := true, cmdLength := command.length, rspBuffer := true, rspLength := true }
  env := workingEnv
  provided := Mem.ofLists fun b =>
    match b with
    | .cmdBuffer => command
    | .rspLength => [64, 0, 0, 0]
    | _ => []

/-- Commands that generate a key, sign two bytes with it and verify the signature. -/
def generateCommand : List UInt8 :=
  [1, 0, 0, 0, 20, 0, 0, 0, 1, 0, 0, 0, 0, 4, 0, 0, 0, 0, 0, 0, 1, 0, 1, 0, 0, 0, 0, 0]

def signCommand : List UInt8 :=
  [6, 0, 0, 0, 14, 0, 0, 0, 4, 0, 0, 0, 2, 0, 0, 0, 11, 12, 13, 14, 21, 22]

def verifySignedCommand : List UInt8 :=
  [7, 0, 0, 0, 19, 0, 0, 0, 4, 0, 0, 0, 2, 0, 0, 0, 1, 0, 0, 0, 11, 12, 13, 14, 21, 22, 31]

/-- A call that works asks the question of its command. -/
theorem asks_workingCall {command : List UInt8} {q : Question} {a : Answer}
    (hlength : FirmwareCmd.size ≤ command.length)
    (hq : Question.ofCommand 4 ((workingCall command).start fun _ _ => 0) = some q)
    (hroom : HasRoom ((workingCall command).start fun _ _ => 0) a) (statics : Mem Block) :
    Asks (workingCall command) statics 4 q a where
  ready :=
    { valid := ⟨⟨rfl, rfl, rfl⟩, hlength, Nat.le_of_ble_eq_true rfl⟩
      caps := fun _ => ⟨rfl, show workingEnv.caps.Works ReqHeader.size by decide⟩
      mallocRequest := rfl
      mallocResponse := rfl
      fits := by cases q.command <;> decide
      works := by
        show workingEnv.fw.Works _
        cases q.command <;> decide }
  question := (ofCommand_congr rfl 4).trans hq
  room := hroom

/-- The question of `signCommand`. -/
theorem asks_signCommand (statics : Mem Block) :
    Asks (workingCall signCommand) statics 4 (.sign [11, 12, 13, 14] [21, 22])
      (.signature [31]) :=
  asks_workingCall (by decide) (by decide) (by decide) statics

/-! ## Every session -/

section Refines

variable {serve : Firmware} {size : Nat} {ask : Question → Option Answer}

end Refines

/-! ## Signatures -/

section Signatures

variable {serve : Firmware} {size : Nat} {ask : Question → Option Answer}

/-- The firmware verifies what it signs with the keys that it generates. -/
def VerifiesItsOwn (ask : Question → Option Answer) : Prop :=
  ∀ keySize exponent key data signature,
    ask (.generate keySize exponent) = some (.keyBlob key) →
    ask (.sign key data) = some (.signature signature) →
    ask (.verify key data signature) = some (.verdict true)

/-- What the response to a call that is answered says is the answer. -/
theorem ask_of_ofResponse (hreports : Reports serve size) (hserves : Serves serve size ask)
    {p : List Call} {call : Call} {q : Question} (hasks : AsksAfter serve size ask p call q)
    {a : Answer} (ha : Answer.ofResponse q.command (runAfter serve p call).mem = some a) :
    ask q = some a := by
  obtain ⟨hqueries, b, hb, hasks⟩ := hasks
  have hreturns := returns_runAfter hreports hserves hqueries hb hasks
  rw [hb, ← ha, hreturns.answer]

end Signatures

end Txei.Keymaster

import Txei.Keymaster.Contract
import Txei.Keymaster.RequestFrame

/-!
# The frame of a response

What a call leaves in `rsp_buffer` and `*rsp_length`. `responseFrame_iff` says when a call that
reports success has set both length fields, so that they describe one frame; `issuedLayout_iff`
when a reported success answers the command that was sent; and `failure_leaves_buffers` what a
call that fails has changed by then.
-/

namespace Txei.Keymaster

open Machine Machine.Prog Mei

/-! ## The length of result and data -/

section Payload

variable {n sizeField fixed : Nat} {copy : Nat → Proc Unit} {m : Mem Block}

theorem setPayload_dataLength
    (hcopy : ∀ m', ((copy (m.word .response sizeField)).run m').mem.word .rspBuffer 4 =
      m'.word .rspBuffer 4) :
    ((setPayload n sizeField fixed copy).run m).mem.word .rspBuffer 4 =
      wrap32 (fixed + m.word .response sizeField + 4) := by
  by_cases h : n < wrap32 (12 + (fixed + m.word .response sizeField))
  · rw [run_setPayload_refused h]
    simp [lengthsMem]
  · rw [run_setPayload_accepted (by omega), Run.prepend_mem, hcopy]
    simp [lengthsMem]

theorem setPayload_sets_dataLength :
    .write .rspBuffer 4 4 ∈ ((setPayload n sizeField fixed copy).run m).log := by
  by_cases h : n < wrap32 (12 + (fixed + m.word .response sizeField))
  · rw [run_setPayload_refused h]
    simp [lengthsLog]
  · rw [run_setPayload_accepted (by omega)]
    simp [lengthsLog]

theorem setPayload_refused_writes
    (h : n < wrap32 (12 + (fixed + m.word .response sizeField))) :
    Log.WritesBelow .rspBuffer 12 ((setPayload n sizeField fixed copy).run m).log := by
  rw [run_setPayload_refused h]
  simp [lengthsLog]

end Payload

/-- Every layout stores the length of result and data, whether its payload fits or not. -/
theorem setData_sets_dataLength (n : Nat) (m : Mem Block) (c : Command) :
    .write .rspBuffer 4 4 ∈ ((setData n (some c)).run m).log := by
  cases c with
  | generateKeypair => exact setPayload_sets_dataLength
  | importKeypair => exact setPayload_sets_dataLength
  | getKeypairPublic => exact setPayload_sets_dataLength
  | signData => exact setPayload_sets_dataLength
  | verifyData => simp [setData, setVerified]

/-- That length is the need of the layout without `rsp_id` and the length itself. -/
theorem setData_dataLength (n : Nat) (m : Mem Block) (c : Command) :
    ((setData n (some c)).run m).mem.word .rspBuffer 4 = wrap32 (c.rspNeed m - 8) := by
  have hblob : ∀ size m', ((copyKeyBlob size).run m').mem.word .rspBuffer 4 =
      m'.word .rspBuffer 4 := fun size m' => by simp [copyKeyBlob, Mem.word_write_apart]
  cases c with
  | generateKeypair =>
      refine (setPayload_dataLength (hblob _)).trans (congrArg wrap32 ?_)
      simp [Command.rspNeed, Command.rspFixed, Command.payload]
      omega
  | importKeypair =>
      refine (setPayload_dataLength (hblob _)).trans (congrArg wrap32 ?_)
      simp [Command.rspNeed, Command.rspFixed, Command.payload]
      omega
  | getKeypairPublic =>
      refine (setPayload_dataLength fun m' => ?_).trans (congrArg wrap32 ?_)
      · simp [copyPublicKey, Mem.word_write_apart, Mem.word_write_before]
      · simp [Command.rspNeed, Command.rspFixed, Command.payload]
        omega
  | signData =>
      refine (setPayload_dataLength fun m' => ?_).trans (congrArg wrap32 ?_)
      · simp [copySignature, Mem.word_write_apart]
      · simp [Command.rspNeed, Command.rspFixed, Command.payload]
        omega
  | verifyData =>
      simp [setData, setVerified, Mem.word_write_apart]
      rfl

/-- A payload that fails the size test changes the header of the response only. -/
theorem setData_refused_writes {n : Nat} (hn : 12 ≤ n) {m : Mem Block} {c : Command}
    (h : n < wrap32 (c.rspNeed m)) :
    Log.WritesBelow .rspBuffer 12 ((setData n (some c)).run m).log := by
  have hneed : ∀ fixed size, 12 + (fixed + size) = 12 + fixed + size := fun _ _ => by omega
  cases c with
  | generateKeypair => exact setPayload_refused_writes (by rw [hneed]; exact h)
  | importKeypair => exact setPayload_refused_writes (by rw [hneed]; exact h)
  | getKeypairPublic => exact setPayload_refused_writes (by rw [hneed]; exact h)
  | signData => exact setPayload_refused_writes (by rw [hneed]; exact h)
  | verifyData =>
      have h12 : wrap32 (Command.rspNeed m .verifyData) = 12 := rfl
      omega

variable (args : Args) (env : Env) (m : Mem Block)

/-! ## The frame of a success -/

/-- The sizes in the successful reply `r` add up without a wrap. -/
def LengthsUnwrapped (r : Mem Block) : Prop :=
  replyCode r = responseCodeSuccess → ∀ c, replyCommand r = some c → c.rspNeed r < 2 ^ 32

/-- A call that reports success has set the result and the length of result and data, and
`*rsp_length` is the length of the frame they describe, unless a length has wrapped. -/
def ResponseFramed : Prop :=
  (∀ got, reply args env m = some got → LengthsUnwrapped (replyMem m got)) →
    ((sepKeymasterSendCmd args env).run m).result = .ok () →
    Log.Sets .rspBuffer FirmwareRsp.result 4 ((sepKeymasterSendCmd args env).run m).log ∧
      Log.Sets .rspBuffer FirmwareRsp.rspResultAndDataLength 4
        ((sepKeymasterSendCmd args env).run m).log ∧
      rspLength ((sepKeymasterSendCmd args env).run m).mem =
        8 + ((sepKeymasterSendCmd args env).run m).mem.word .rspBuffer
          FirmwareRsp.rspResultAndDataLength

/-- What the decoder leaves of a reply it accepts, when the reply has a failure code or a known
id. -/
theorem decodeReply_framed {r : Mem Block} (hn : 12 ≤ rspLength r) (hwrap : LengthsUnwrapped r)
    (hknown : replyCode r = responseCodeSuccess → replyCommand r ≠ none) :
    .write .rspBuffer FirmwareRsp.result 4 ∈ (decodeReply.run r).log ∧
      .write .rspBuffer FirmwareRsp.rspResultAndDataLength 4 ∈ (decodeReply.run r).log ∧
      rspLength (decodeReply.run r).mem =
        8 + (decodeReply.run r).mem.word .rspBuffer FirmwareRsp.rspResultAndDataLength := by
  rw [decodeReply_rspLength hn]
  unfold rspLengthOfReply
  by_cases hcode : replyCode r = responseCodeSuccess
  · obtain ⟨c, hc⟩ := Option.ne_none_iff_exists'.mp (hknown hcode)
    have hneed := hwrap hcode c hc
    have hfixed : 12 ≤ c.rspNeed r := by
      cases c <;> simp [Command.rspNeed, Command.rspFixed] <;> omega
    rw [run_decodeReply_success hcode, hc, if_pos hcode]
    refine ⟨by simp, ?_, ?_⟩
    · exact List.mem_append_right _ (setData_sets_dataLength _ _ c)
    · rw [Run.prepend_mem, setData_dataLength, c.rspNeed_statusMem, wrap32_of_lt (by omega)]
      show wrap32 (c.rspNeed r) = 8 + (c.rspNeed r - 8)
      rw [wrap32_of_lt hneed]
      omega
  · rw [run_decodeReply_failure hcode, if_neg hcode]
    refine ⟨by simp, by simp, ?_⟩
    simp
    rfl

/-- A successful reply with an unknown id is accepted without a length. -/
theorem decodeReply_unknown {r : Mem Block} (hcode : replyCode r = responseCodeSuccess)
    (hnone : replyCommand r = none) :
    (decodeReply.run r).result = .ok () ∧
      ¬ Log.Sets .rspBuffer FirmwareRsp.rspResultAndDataLength 4 (decodeReply.run r).log := by
  rw [run_decodeReply_success hcode, hnone]
  refine ⟨rfl, fun hsets => ?_⟩
  obtain ⟨e, he, hw⟩ := hsets 4 (by decide) (by decide)
  simp [setData] at he
  rcases he with rfl | rfl | rfl | rfl | rfl | rfl <;> simp at hw

/-- The bytes of the caller's buffer that a call sets are those its decoder sets. -/
theorem sets_rspBuffer_iff {args : Args} {env : Env} {m : Mem Block} {got : List UInt8}
    (h : reply args env m = some got) (o n : Nat) :
    Log.Sets .rspBuffer o n ((sepKeymasterSendCmd args env).run m).log ↔
      Log.Sets .rspBuffer o n (decodeReply.run (replyMem m got)).log := by
  rw [sepKeymasterSendCmd_log h]
  refine forall_congr' fun i => forall_congr' fun _ => forall_congr' fun _ => ?_
  constructor
  · intro hset
    obtain ⟨e, he, hw⟩ := hset
    rcases List.mem_append.mp he with hbefore | hdecode
    · exact absurd hw ((within_beforeDecode args env m e hbefore).not_writes (by decide) i)
    · exact ⟨e, hdecode, hw⟩
  · intro hset
    obtain ⟨e, he, hw⟩ := hset
    exact ⟨e, List.mem_append_right _ he, hw⟩

/-- A reported success sets a consistent frame exactly when every reply decoded as successful has
the id of a command: for any other id the inner switch stores neither length, and the call
succeeds with what the caller's buffer held before. -/
theorem responseFrame_iff :
    ResponseFramed args env m ↔
      ∀ got, reply args env m = some got →
        replyCode (replyMem m got) = responseCodeSuccess →
          replyCommand (replyMem m got) ≠ none := by
  unfold ResponseFramed
  cases hgot : reply args env m with
  | none =>
      obtain ⟨⟨e, he⟩, -⟩ := sepKeymasterSendCmd_not_delivered hgot
      simp [he]
  | some got =>
      have hd := sepKeymasterSendCmd_delivered hgot
      have hn := rspLength_of_reply hgot
      have hlen : rspLength ((sepKeymasterSendCmd args env).run m).mem =
          rspLength (decodeReply.run (replyMem m got)).mem := by
        simp only [rspLength, Mem.word, hd.rspLength]
      rw [hd.result, sets_rspBuffer_iff hgot, sets_rspBuffer_iff hgot, hd.word_rspBuffer, hlen]
      constructor
      · intro hframed got' hgot' hcode hnone
        cases hgot'
        obtain ⟨hok, hunset⟩ := decodeReply_unknown hcode hnone
        refine hunset (hframed ?_ hok).2.1
        -- an unknown id has no sizes that could wrap
        intro got' hgot' _ c hc
        cases hgot'
        exact absurd (hnone.symm.trans hc) (by simp)
      · intro hknown hwrap _
        obtain ⟨hresult, hlength, hframe⟩ :=
          decodeReply_framed hn (hwrap got rfl) (hknown got rfl)
        exact ⟨Log.sets_of_mem hresult, Log.sets_of_mem hlength, hframe⟩

/-- A successful reply with the id 9. -/
def unknownIdReply : List UInt8 := [0, 0, 0, 0, 1, 0, 0, 0, 9, 0, 0, 0, 0, 0, 0, 0, 0, 0, 0, 0]

/-- The call succeeds, and `*rsp_length` stays 64 beside a `rsp_result_and_data_length` of 0. -/
theorem response_not_framed :
    ((sepKeymasterSendCmd (callArgs keygenCommand) (callEnv (answering 20 unknownIdReply))).run
        (callMem keygenCommand 64)).result = .ok () ∧
      ¬ ResponseFramed (callArgs keygenCommand) (callEnv (answering 20 unknownIdReply))
        (callMem keygenCommand 64) := by
  have hok : ((sepKeymasterSendCmd (callArgs keygenCommand)
      (callEnv (answering 20 unknownIdReply))).run (callMem keygenCommand 64)).result = .ok () := by
    decide
  refine ⟨hok, fun h => ?_⟩
  have hreply : reply (callArgs keygenCommand) (callEnv (answering 20 unknownIdReply))
      (callMem keygenCommand 64) = some unknownIdReply := by decide
  have hframe := (h (fun got hgot _ c hc => ?_) hok).2.2
  · exact absurd hframe (by decide)
  · obtain rfl : unknownIdReply = got := Option.some.inj (hreply.symm.trans hgot)
    exact absurd ((show none = some c from hc)) (by simp)

/-! ## The layout of a success -/

/-- A call whose result is a success was answered with the id that it put into its request. -/
def IssuedLayout : Prop :=
  ((sepKeymasterSendCmd args env).run m).result = .ok () →
    ((sepKeymasterSendCmd args env).run m).mem.word .rspBuffer FirmwareRsp.result =
      resultSuccess →
    ((sepKeymasterSendCmd args env).run m).mem.word .response RespHeader.cmdId =
      ((sepKeymasterSendCmd args env).run m).mem.word .request ReqHeader.cmdId

variable {args env m}

/-- The request that is built carries the firmware id of the command. -/
theorem prepare_cmdId {n : Nat} {c : Command} (hn : requestLen args env m = some n)
    (hc : Command.ofHalId (m.word .cmdBuffer FirmwareCmd.cmdId) = some c) :
    ((do prologue args env; translateCmd env.mallocRequest : Proc Nat).run m).mem.word .request
      ReqHeader.cmdId = c.fwId := by
  have hcmd := (within_prologue args env).mem_eq (b := .cmdBuffer) (by decide) m
  unfold requestLen at hn
  by_cases hv : args.Valid m
  · rw [if_pos hv, hc] at hn
    cases hsize : opaqueSizeInForce env m with
    | none => simp [hsize] at hn
    | some size =>
        simp only [hsize, Option.ite_none_right_eq_some] at hn
        obtain ⟨⟨hmalloc, -⟩, -⟩ := hn
        obtain ⟨hres, -⟩ := (prologue_spec args env m).1 size hv hsize
        have hid : Command.ofHalId (((prologue args env).run m).mem.word .cmdBuffer 0) =
            some c := by
          simp only [Mem.word, hcmd]
          exact hc
        rw [run_bind, Run.andThen_of_ok hres, Run.prepend_mem, hmalloc,
          (translateCmd_known hid).2.1, (c.cmdBuf_request _ 0).cmdId]
        cases c <;> simp [Command.requestStart, Command.fwId] <;> rfl
  · rw [if_neg hv] at hn
    cases hn

/-- The request of a call whose reply is decoded still carries that id at the end. -/
theorem request_cmdId {got : List UInt8} {c : Command} (h : reply args env m = some got)
    (hc : Command.ofHalId (m.word .cmdBuffer FirmwareCmd.cmdId) = some c) :
    ((sepKeymasterSendCmd args env).run m).mem.word .request ReqHeader.cmdId = c.fwId := by
  obtain ⟨n, hn, -⟩ := delivers_of_reply h
  obtain ⟨hres, -⟩ := (beforeDecode_spec args env m).1 got h
  rw [run_sepKeymasterSendCmd, Run.andThen_of_ok hres, Run.prepend_mem,
    within_decodeReply.word_eq (by decide)]
  unfold beforeDecode
  rw [run_bind, Run.andThen_of_ok ((prepare_spec args env m).1 n hn), Run.prepend_mem,
    (within_exchangeReply env n).word_eq (by decide), prepare_cmdId hn hc]

/-- The reply buffer still holds the reply at the end. -/
theorem response_word {got : List UInt8} (h : reply args env m = some got) (o : Nat) :
    ((sepKeymasterSendCmd args env).run m).mem.word .response o =
      (replyMem m got).word .response o := by
  obtain ⟨hres, hresp⟩ := (beforeDecode_spec args env m).1 got h
  rw [run_sepKeymasterSendCmd, Run.andThen_of_ok hres, Run.prepend_mem,
    within_decodeReply.word_eq (by decide)]
  simp only [Mem.word, hresp]

variable (args env m)

/-- A reported success answers the command that was sent exactly when every reply that the
decoder turns into a success has the id of the command: no id of a reply is ever compared with the
one that was sent. -/
theorem issuedLayout_iff :
    IssuedLayout args env m ↔
      ∀ c got, Command.ofHalId (m.word .cmdBuffer FirmwareCmd.cmdId) = some c →
        reply args env m = some got → SuccessReply (replyMem m got) →
        (replyMem m got).word .response RespHeader.cmdId = c.fwId := by
  unfold IssuedLayout
  cases hgot : reply args env m with
  | none =>
      obtain ⟨⟨e, he⟩, -⟩ := sepKeymasterSendCmd_not_delivered hgot
      simp [he]
  | some got =>
      have hd := sepKeymasterSendCmd_delivered hgot
      have hn := rspLength_of_reply hgot
      obtain ⟨c, hc⟩ := command_of_reply hgot
      have hfield : ((sepKeymasterSendCmd args env).run m).mem.word .rspBuffer
          FirmwareRsp.result = resultOfReply (replyMem m got) :=
        (hd.word_rspBuffer FirmwareRsp.result).trans (decodeReply_resultField hn)
      rw [hd.result, decodeReply_ok_iff hn, hfield, resultOfReply_eq_success_iff,
        request_cmdId hgot hc, response_word hgot]
      constructor
      · intro hlayout c' got' hc' hgot' hsuccess
        cases hgot'
        cases hc.symm.trans hc'
        exact hlayout hsuccess.2.1 ⟨hsuccess.1, hsuccess.2.2⟩
      · intro hid hfit hresult
        exact hid c got hc rfl ⟨hresult.1, hfit, hresult.2⟩

/-- A reply to a key generation with the layout of a signature verification. -/
def verifiedReply : List UInt8 :=
  [0, 0, 0, 0, 1, 0, 0, 0, 6, 0, 0, 0, 0, 0, 0, 0, 4, 0, 0, 0, 1, 0, 0, 0]

/-- A key generation succeeds on the reply to a verification, without a key blob. -/
theorem layout_not_issued :
    ¬ IssuedLayout (callArgs keygenCommand) (callEnv (answering 20 verifiedReply))
      (callMem keygenCommand 64) := by
  intro h
  exact absurd (h (by decide) (by decide)) (by decide)

/-! ## The buffers after a failure -/

/-- A call that fails has not changed `rsp_buffer`, and `*rsp_length` only to report the size that
a reply it decoded needs. -/
def FailureLeavesBuffers : Prop :=
  ∀ e, ((sepKeymasterSendCmd args env).run m).result = .error e →
    ((sepKeymasterSendCmd args env).run m).mem .rspBuffer = m .rspBuffer ∧
      (((sepKeymasterSendCmd args env).run m).mem .rspLength ≠ m .rspLength →
        e = .rspBufferTooSmall ∧ ∃ got c, reply args env m = some got ∧
          replyCommand (replyMem m got) = some c ∧
          rspLength ((sepKeymasterSendCmd args env).run m).mem = c.rspNeed (replyMem m got))

/-- A call that fails without decoding a reply has not changed `rsp_buffer` or `*rsp_length`. A
call that fails with a decoded reply returns `SEP_KEYMASTER_RSP_BUFFER_TOO_SMALL`; of `rsp_buffer`
it has changed the header at most, and `*rsp_length` is the size the reply needs, provided this is
a 32-bit size. -/
def FailureReportsSize : Prop :=
  ∀ e, ((sepKeymasterSendCmd args env).run m).result = .error e →
    (reply args env m = none →
      ((sepKeymasterSendCmd args env).run m).mem .rspBuffer = m .rspBuffer ∧
        ((sepKeymasterSendCmd args env).run m).mem .rspLength = m .rspLength) ∧
      ∀ got, reply args env m = some got →
        e = .rspBufferTooSmall ∧ ∃ c, replyCommand (replyMem m got) = some c ∧
          (∀ i, FirmwareRsp.size ≤ i →
            ((sepKeymasterSendCmd args env).run m).mem .rspBuffer i = m .rspBuffer i) ∧
          (c.rspNeed (replyMem m got) < 2 ^ 32 →
            rspLength ((sepKeymasterSendCmd args env).run m).mem = c.rspNeed (replyMem m got))

variable {args env m}

/-- The decoder fails only with a payload that is too large for the caller's buffer. -/
theorem decodeReply_error {r : Mem Block} (hn : 12 ≤ rspLength r) {e : Failure}
    (h : (decodeReply.run r).result = .error e) :
    e = .rspBufferTooSmall ∧ ∃ c, replyCommand r = some c ∧
      Log.WritesBelow .rspBuffer FirmwareRsp.size (decodeReply.run r).log ∧
      rspLength (decodeReply.run r).mem = wrap32 (c.rspNeed r) := by
  by_cases hcode : replyCode r = responseCodeSuccess
  · rw [decodeReply_rspLength hn, rspLengthOfReply, if_pos hcode]
    rw [run_decodeReply_success hcode] at h ⊢
    cases hc : replyCommand r with
    | none =>
        rw [hc] at h
        cases h
    | some c =>
        have hres := (setData_statusMem hn c).result
        rw [hc, Run.prepend_result, hres, c.rspNeed_statusMem] at h
        by_cases hbig : rspLength r < wrap32 (c.rspNeed r)
        · rw [if_pos hbig] at h
          have hwrites := setData_refused_writes hn (m := statusMem r) (c := c)
            (by rw [c.rspNeed_statusMem]; exact hbig)
          refine ⟨(Except.error.inj h).symm, c, rfl, ?_, rfl⟩
          rw [Run.prepend_log, Log.writesBelow_append]
          exact ⟨by simp, hwrites⟩
        · rw [if_neg hbig] at h
          cases h
  · rw [run_decodeReply_failure hcode] at h
    cases h

variable (args env m)

theorem failure_leaves_buffers : FailureReportsSize args env m := by
  intro e he
  constructor
  · intro hnone
    obtain ⟨-, hbuffer, hlength, -⟩ := sepKeymasterSendCmd_not_delivered hnone
    exact ⟨hbuffer, hlength⟩
  · intro got hgot
    have hd := sepKeymasterSendCmd_delivered hgot
    have hn := rspLength_of_reply hgot
    obtain ⟨hsmall, c, hc, hwrites, hlength⟩ := decodeReply_error hn (hd.result.symm.trans he)
    refine ⟨hsmall, c, hc, fun i hi => ?_, fun hneed => ?_⟩
    · rw [hd.rspBuffer, mem_eq_of_writesBelow hwrites hi, replyMem_other m got (by decide)]
    · rw [← wrap32_of_lt hneed, ← hlength]
      simp only [rspLength, Mem.word, hd.rspLength]

/-- The header of a reply to a key generation with a key blob of 200 bytes. -/
def largeBlobReply : List UInt8 :=
  [0, 0, 0, 0, 1, 0, 0, 0, 1, 0, 0, 0, 0, 0, 0, 0, 200, 0, 0, 0]

/-- A key generation is answered with a key blob of 200 bytes, for which a buffer of 64 bytes is
too small. The call fails, and the response header has changed. -/
theorem failure_changes_buffer :
    ((sepKeymasterSendCmd (callArgs keygenCommand) (callEnv (answering 20 largeBlobReply))).run
        (callMem keygenCommand 64)).result = .error .rspBufferTooSmall ∧
      ¬ FailureLeavesBuffers (callArgs keygenCommand) (callEnv (answering 20 largeBlobReply))
        (callMem keygenCommand 64) := by
  have hfail : ((sepKeymasterSendCmd (callArgs keygenCommand)
      (callEnv (answering 20 largeBlobReply))).run (callMem keygenCommand 64)).result =
        .error .rspBufferTooSmall := by decide
  refine ⟨hfail, fun h => ?_⟩
  have hbyte := congrFun (h _ hfail).1 FirmwareRsp.rspResultAndDataLength
  exact absurd hbyte (by decide)

end Txei.Keymaster

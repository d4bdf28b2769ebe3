import Txei.Keymaster.Exchange

/-!
# What a caller of `sep_keymaster_send_cmd` gets

Four properties of a whole call, each with the exact condition on the reply under which it
holds: the id in the response, the bounds of the caller's buffer, the bounds of the reply buffer,
and the backing of a reported success by bytes the device really transferred. A condition speaks
of `reply args env m` and of `replyMem m got`, which are functions of the inputs.
-/

namespace Txei.Keymaster

open Machine Machine.Prog Mei

/-! ## Calls to evaluate -/

/-- The arguments of a call of `cmd`. -/
def callArgs (cmd : List UInt8) : Args where
  cmdBuffer := true
  cmdLength := cmd.length
  rspBuffer := true
  rspLength := true

/-- An environment in which nothing but the exchange can fail. -/
def callEnv (fw : Exchange) : Env where
  mallocCaps := true
  caps := answering 12 []
  mallocRequest := true
  mallocResponse := true
  fw := fw

/-- The memory at the start of a call of `cmd` with a response buffer of `size` bytes, after the
capabilities have been obtained. -/
def callMem (cmd : List UInt8) (size : UInt8) : Mem Block := .ofLists fun
  | .cmdBuffer => cmd
  | .rspLength => [size, 0, 0, 0]
  | .capsObtained => [1, 0, 0, 0]
  | _ => []

variable (args : Args) (env : Env) (m : Mem Block)

/-! ## The response id -/

/-- A successful call leaves the id of its command, flagged as a response, in `rsp_id`. -/
def RspIdEchoes : Prop :=
  ((sepKeymasterSendCmd args env).run m).result = .ok () →
    ((sepKeymasterSendCmd args env).run m).mem.word .rspBuffer FirmwareRsp.rspId =
      m.word .cmdBuffer FirmwareCmd.cmdId ||| keymasterRspFlag

/-- The two id translations are inverse to each other, up to the response flag. -/
theorem rspIdOf_eq_iff (n : Nat) (c : Command) :
    rspIdOf n = c.halId ||| keymasterRspFlag ↔ n = c.fwId := by
  constructor
  · intro h
    unfold rspIdOf at h
    cases hd : Command.ofFwId n with
    | none =>
        rw [hd] at h
        cases c <;> simp [Command.halId] at h
    | some d =>
        rw [hd] at h
        rw [← Command.fwId_of_ofFwId hd]
        -- two commands whose ids agree are the same one
        cases c <;> cases d <;> first | rfl | (simp [Command.halId] at h)
  · intro h
    subst h
    simp [rspIdOf]

/-- A call leaves the right `rsp_id` exactly when the `ResponseCode` of a reply it decodes is the
firmware id of the command: `set_response_cmd_id` is handed the `ResponseCode`, so no reply that
reports success will do. -/
theorem rspId_echoes_iff :
    RspIdEchoes args env m ↔
      ∀ c got, Command.ofHalId (m.word .cmdBuffer FirmwareCmd.cmdId) = some c →
        reply args env m = some got → ReplyFits (replyMem m got) →
        replyCode (replyMem m got) = c.fwId := by
  unfold RspIdEchoes
  cases hgot : reply args env m with
  | none =>
      obtain ⟨⟨e, he⟩, -⟩ := sepKeymasterSendCmd_not_delivered hgot
      simp [he]
  | some got =>
      have hd := sepKeymasterSendCmd_delivered hgot
      have hn := rspLength_of_reply hgot
      obtain ⟨c, hc⟩ := command_of_reply hgot
      have hid : m.word .cmdBuffer FirmwareCmd.cmdId = c.halId :=
        (Command.halId_of_ofHalId hc).symm
      have hword : ((sepKeymasterSendCmd args env).run m).mem.word .rspBuffer FirmwareRsp.rspId =
          rspIdOf (replyCode (replyMem m got)) :=
        (hd.word_rspBuffer FirmwareRsp.rspId).trans (decodeReply_rspId hn)
      rw [hd.result, decodeReply_ok_iff hn, hword, hid, rspIdOf_eq_iff]
      constructor
      · intro h c' got' hc' hgot' hfit
        cases hgot'
        rw [Command.ofHalId_halId] at hc'
        cases hc'
        exact h hfit
      · intro h hfit
        exact h c got (Command.ofHalId_halId c) rfl hfit

/-- The reply to a key generation with the key blob `7 7 7 7`: it echoes the id and reports
success. -/
def keyBlobReply : List UInt8 :=
  [0, 0, 0, 0, 1, 0, 0, 0, 1, 0, 0, 0, 0, 0, 0, 0, 4, 0, 0, 0, 7, 7, 7, 7]

/-- The `rsp_id` of that successful key generation is 0. -/
theorem rspId_not_echoed :
    reply (callArgs keygenCommand) (callEnv (answering 20 keyBlobReply))
        (callMem keygenCommand 64) = some keyBlobReply ∧
      (replyMem (callMem keygenCommand 64) keyBlobReply).word .response RespHeader.cmdId =
        Command.generateKeypair.fwId ∧
      ¬ RspIdEchoes (callArgs keygenCommand) (callEnv (answering 20 keyBlobReply))
        (callMem keygenCommand 64) :=
  ⟨by decide, by decide, fun h => absurd (h (by decide)) (by decide)⟩

/-! ## The caller's buffer -/

/-- Nothing is written behind the caller's buffer, and a successful call reports no more than the
buffer holds. -/
def RspBufferBounded : Prop :=
  Log.WritesBelow .rspBuffer (rspLength m) ((sepKeymasterSendCmd args env).run m).log ∧
    (((sepKeymasterSendCmd args env).run m).result = .ok () →
      rspLength ((sepKeymasterSendCmd args env).run m).mem ≤ rspLength m)

/-- A successful reply in `r` that passes the size test really fits the caller's buffer: the sum
that is tested has not wrapped below the size of the buffer. -/
def SizeTestSound (r : Mem Block) : Prop :=
  replyCode r = responseCodeSuccess → ∀ c, replyCommand r = some c →
    wrap32 (c.rspNeed r) ≤ rspLength r → c.rspNeed r ≤ rspLength r

/-- What `*rsp_length` becomes is within the buffer whenever the reply passes the size test. -/
theorem rspLengthOfReply_le {r : Mem Block} (hn : 12 ≤ rspLength r) (h : ReplyFits r) :
    rspLengthOfReply r ≤ rspLength r := by
  unfold rspLengthOfReply
  by_cases hcode : replyCode r = responseCodeSuccess
  · rw [if_pos hcode]
    cases hc : replyCommand r with
    | none => exact Nat.le_refl _
    | some c => exact h hcode c hc
  · rw [if_neg hcode]
    exact hn

theorem rspBuffer_bounded_iff :
    RspBufferBounded args env m ↔
      ∀ got, reply args env m = some got → SizeTestSound (replyMem m got) := by
  unfold RspBufferBounded
  cases hgot : reply args env m with
  | none =>
      obtain ⟨⟨e, he⟩, -, -, -, hwrites⟩ := sepKeymasterSendCmd_not_delivered hgot
      simp [he, hwrites]
  | some got =>
      have hd := sepKeymasterSendCmd_delivered hgot
      have hlen := rspLength_replyMem m got
      have hn := rspLength_of_reply hgot
      have hfinal : rspLength ((sepKeymasterSendCmd args env).run m).mem =
          rspLengthOfReply (replyMem m got) := by
        rw [← decodeReply_rspLength hn]
        simp only [rspLength, Mem.word, hd.rspLength]
      rw [hd.writes, hd.result, decodeReply_ok_iff hn, hfinal, ← hlen, decodeReply_writes hn]
      constructor
      · intro h got' hgot'
        cases hgot'
        exact h.1
      · intro h
        exact ⟨h got rfl, rspLengthOfReply_le hn⟩

/-- The reply to a key generation that declares a key blob of `2 ^ 32 - 16` bytes. -/
def hugeBlobReply : List UInt8 :=
  [0, 0, 0, 0, 1, 0, 0, 0, 1, 0, 0, 0, 0, 0, 0, 0, 240, 255, 255, 255]

/-- The size it needs wraps to 0, and its payload is copied into a buffer of 12 bytes. -/
theorem rspBuffer_not_bounded :
    ¬ RspBufferBounded (callArgs keygenCommand) (callEnv (answering 20 hugeBlobReply))
      (callMem keygenCommand 12) := by
  intro h
  have hcopy : .write .rspBuffer 16 4294967280 ∈ ((sepKeymasterSendCmd (callArgs keygenCommand)
      (callEnv (answering 20 hugeBlobReply))).run (callMem keygenCommand 12)).log := by decide
  have hlt := h.1 _ hcopy 100 ⟨rfl, by decide, by decide⟩
  exact absurd hlt (by decide)

/-! ## The reply buffer -/

/-- Every byte of the reply that is read lies in the buffer allocated for it. -/
def ReplyReadsBounded : Prop :=
  Log.ReadsBelow .response (fwResponseLength m) ((sepKeymasterSendCmd args env).run m).log

/-- The buffer for the reply is 8 bytes longer than the caller's, unless that wraps. -/
theorem fwResponseLength_eq {m : Mem Block} (h : rspLength m + 8 < 2 ^ 32) :
    fwResponseLength m = rspLength m + 8 := by
  simp only [fwResponseLength, wrap32, RespHeader.size, FirmwareRsp.size]
  omega

theorem fwResponseLength_lt {m : Mem Block} (h : ¬ rspLength m + 8 < 2 ^ 32) :
    fwResponseLength m < 8 := by
  have hlt : rspLength m < 2 ^ 32 := m.word_lt _ _
  simp only [fwResponseLength, wrap32, RespHeader.size, FirmwareRsp.size]
  omega

/-- In a reply buffer of `n + 8` bytes a layout is read in bounds exactly when its size field is
in bounds and the payload fits the caller's `n` bytes whenever the test says so. -/
theorem Command.replyReads_iff (c : Command) (r : Mem Block) {n : Nat} (hn : 12 ≤ n)
    (hwrap : n + 8 < 2 ^ 32) :
    (c.replyProbe ≤ n + 8 ∧ (wrap32 (c.rspNeed r) ≤ n → c.replyExtent r ≤ n + 8)) ↔
      c.replyProbe ≤ n + 8 ∧ (wrap32 (c.rspNeed r) ≤ n → c.rspNeed r ≤ n) := by
  refine and_congr_right fun hprobe => ?_
  cases c <;>
    simp only [rspNeed, rspFixed, replyExtent, replyFixed, replyProbe, payload, wrap32]
      at hprobe ⊢ <;>
    omega

/-- The reply is read in bounds exactly when its buffer is allocated without a wrap, the caller's
buffer is large enough for the size field of the layout, and the size test is sound. -/
theorem reply_reads_bounded_iff :
    ReplyReadsBounded args env m ↔
      ∀ got, reply args env m = some got →
        rspLength m + 8 < 2 ^ 32 ∧ SizeTestSound (replyMem m got) ∧
          (replyCode (replyMem m got) = responseCodeSuccess → ∀ c,
            replyCommand (replyMem m got) = some c → c.replyProbe ≤ rspLength m + 8) := by
  unfold ReplyReadsBounded
  cases hgot : reply args env m with
  | none =>
      obtain ⟨-, -, -, hreads, -⟩ := sepKeymasterSendCmd_not_delivered hgot
      simp [hreads]
  | some got =>
      have hlen := rspLength_replyMem m got
      have hn := rspLength_of_reply hgot
      have hnm : 12 ≤ rspLength m := (valid_of_reply hgot).2.2
      rw [(sepKeymasterSendCmd_delivered hgot).reads]
      by_cases hwrap : rspLength m + 8 < 2 ^ 32
      · have hL := fwResponseLength_eq hwrap
        rw [hL, decodeReply_reads hn (by omega)]
        unfold SizeTestSound
        rw [hlen]
        constructor
        · intro h got' hgot'
          cases hgot'
          have hc := fun hs (c : Command) hcmd => (c.replyReads_iff _ hnm hwrap).mp (h hs c hcmd)
          exact ⟨hwrap, fun hs c hcmd => (hc hs c hcmd).2, fun hs c hcmd => (hc hs c hcmd).1⟩
        · intro h hs c hcmd
          obtain ⟨-, hsound, hprobe⟩ := h got rfl
          exact (c.replyReads_iff _ hnm hwrap).mpr ⟨hprobe hs c hcmd, hsound hs c hcmd⟩
      · -- the allocation has wrapped below the `ResponseCode`, which is always read
        refine ⟨fun h => ?_, fun h => absurd (h got rfl).1 hwrap⟩
        have h16 := decodeReply_reads_code h
        have h8 := fwResponseLength_lt hwrap
        omega

/-- A `KEYMASTER_CMD_VERIFY_DATA` command with an empty key blob, data and signature. -/
def verifyCommand : List UInt8 :=
  [7, 0, 0, 0, 12, 0, 0, 0, 0, 0, 0, 0, 0, 0, 0, 0, 0, 0, 0, 0]

/-- A successful reply to a signature verification, cut off in front of its flag. -/
def verifyReply : List UInt8 :=
  [0, 0, 0, 0, 1, 0, 0, 0, 6, 0, 0, 0, 0, 0, 0, 0, 4, 0, 0, 0]

/-- With a response buffer of 12 bytes the reply buffer has 20, and the flag is read behind it. -/
theorem reply_reads_not_bounded :
    ¬ ReplyReadsBounded (callArgs verifyCommand) (callEnv (answering 532 verifyReply))
      (callMem verifyCommand 12) := by
  intro h
  have hflag : .read .response 20 4 ∈ ((sepKeymasterSendCmd (callArgs verifyCommand)
      (callEnv (answering 532 verifyReply))).run
        (callMem verifyCommand 12)).log := by decide
  have hlt := h _ hflag 20 ⟨rfl, by decide, by decide⟩
  exact absurd hlt (by decide)

/-! ## A reported success -/

/-- A call that reports success, with a successful result, wrote its whole request, received a
reply header, and read nothing of the reply that was not received. -/
def SuccessIsBacked : Prop :=
  ((sepKeymasterSendCmd args env).run m).result = .ok () →
    ((sepKeymasterSendCmd args env).run m).mem.word .rspBuffer FirmwareRsp.result =
      resultSuccess →
    ∃ n got, requestLen args env m = some n ∧ env.fw.written n = n ∧
      env.fw.delivers n (fwResponseLength m) = some got ∧ RespHeader.size ≤ got.length ∧
      Log.ReadsBelow .response got.length ((sepKeymasterSendCmd args env).run m).log

/-- The reply in `r` makes the call report success with a successful result. -/
def SuccessReply (r : Mem Block) : Prop :=
  replyCode r = responseCodeSuccess ∧ ReplyFits r ∧
    (replyCommand r = some .verifyData → r.word .response VerifyDataResponse.verified ≠ 0)

/-- The size of a successful reply: the header, and for a known layout its payload. -/
def replySize (r : Mem Block) : Nat :=
  match replyCommand r with
  | some c => c.replyExtent r
  | none => RespHeader.size

theorem resultOfReply_eq_success_iff (r : Mem Block) :
    resultOfReply r = resultSuccess ↔ replyCode r = responseCodeSuccess ∧
      (replyCommand r = some .verifyData → r.word .response VerifyDataResponse.verified ≠ 0) := by
  unfold resultOfReply
  by_cases hcode : replyCode r = responseCodeSuccess
  · rw [if_pos hcode, and_iff_right hcode]
    cases hc : replyCommand r with
    | none => simp
    | some c => cases c <;> simp [Command.resultField]
  · rw [if_neg hcode]
    exact iff_of_false (resultOfResponseCode_ne_success _) fun h => hcode h.1

theorem header_le_replySize (r : Mem Block) : RespHeader.size ≤ replySize r := by
  unfold replySize
  cases replyCommand r with
  | none => exact Nat.le_refl _
  | some c => cases c <;> simp [Command.replyExtent, Command.replyFixed] <;> omega

/-- A successful reply is read up to its size. -/
theorem decodeReply_reads_success {r : Mem Block} (hn : 12 ≤ rspLength r) (h : SuccessReply r)
    {k : Nat} (hk : 20 ≤ k) :
    Log.ReadsBelow .response k (decodeReply.run r).log ↔ replySize r ≤ k := by
  obtain ⟨hcode, hfit, -⟩ := h
  rw [decodeReply_reads hn hk]
  unfold replySize
  cases hc : replyCommand r with
  | none => simpa using hk
  | some c =>
      have htest := hfit hcode c hc
      constructor
      · exact fun hall => (hall hcode c rfl).2 htest
      · intro hle _ d hd
        cases hd
        refine ⟨?_, fun _ => hle⟩
        cases c <;> simp [Command.replyExtent, Command.replyFixed, Command.replyProbe] at hle ⊢ <;>
          omega

/-- A reported success is backed exactly when every reply that makes the call report success was
received whole. A reply that is cut short, or empty, is completed by the zeros of the cleared
buffer, and a zero `ResponseCode` is success. -/
theorem success_is_backed_iff :
    SuccessIsBacked args env m ↔
      ∀ got, reply args env m = some got → SuccessReply (replyMem m got) →
        replySize (replyMem m got) ≤ got.length := by
  unfold SuccessIsBacked
  cases hgot : reply args env m with
  | none =>
      obtain ⟨⟨e, he⟩, -⟩ := sepKeymasterSendCmd_not_delivered hgot
      simp [he]
  | some got =>
      have hd := sepKeymasterSendCmd_delivered hgot
      have hn := rspLength_of_reply hgot
      have hfield : ((sepKeymasterSendCmd args env).run m).mem.word .rspBuffer
          FirmwareRsp.result = resultOfReply (replyMem m got) :=
        (hd.word_rspBuffer FirmwareRsp.result).trans (decodeReply_resultField hn)
      obtain ⟨n, hreq, hdel⟩ := delivers_of_reply hgot
      rw [hd.result, decodeReply_ok_iff hn, hfield, resultOfReply_eq_success_iff]
      constructor
      · intro h got' hgot' hs
        cases hgot'
        obtain ⟨n', got', hreq', -, hdel', hhead, hreads⟩ := h hs.2.1 ⟨hs.1, hs.2.2⟩
        cases hreq.symm.trans hreq'
        cases hdel.symm.trans hdel'
        exact (decodeReply_reads_success hn hs hhead).mp ((hd.reads _).mp hreads)
      · intro h hfit hresult
        have hs : SuccessReply (replyMem m got) := ⟨hresult.1, hfit, hresult.2⟩
        have hsize := h got rfl hs
        have hhead := Nat.le_trans (header_le_replySize (replyMem m got)) hsize
        -- a byte was received, so the driver had seen the whole request written
        have hne : got ≠ [] := by
          intro hnil
          subst hnil
          simp at hhead
        have hle := requestLen_le hreq
        refine ⟨n, got, hreq, Exchange.written_of_delivers ?_ hdel hne, hdel, hhead, ?_⟩
        · simp only [maxHeciMsgSize] at hle
          omega
        · exact (hd.reads _).mpr ((decodeReply_reads_success hn hs hhead).mpr hsize)

/-- A device that accepts no byte of the request makes the call report success. -/
theorem success_not_backed :
    ¬ SuccessIsBacked (callArgs keygenCommand) (callEnv (answering 0 []))
      (callMem keygenCommand 64) := by
  intro h
  obtain ⟨n, -, hreq, hwritten, -⟩ := h (by decide) (by decide)
  have h20 : requestLen (callArgs keygenCommand) (callEnv (answering 0 []))
      (callMem keygenCommand 64) = some 20 := by decide
  cases hreq.symm.trans h20
  exact absurd hwritten (by decide)

end Txei.Keymaster

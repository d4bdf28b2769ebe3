import Txei.Keymaster.CommandBounds
import Txei.Keymaster.Reply

/-!
# One call of `sep_keymaster_send_cmd`

The call is split at the exchange. `reply` is a function of the arguments, the environment and
the memory at the start: the bytes the firmware's reply consists of, when the call gets as far as
decoding one. `sepKeymasterSendCmd_delivered` and `sepKeymasterSendCmd_not_delivered` reduce a
statement about the call to one about the decoder on `replyMem`, the reply laid over the cleared
reply buffer.
-/

namespace Txei.Keymaster

open Machine Machine.Prog Mei

/-! ## Footprints -/

theorem within_sendReqToFw (x : Exchange) (req : Block) (reqLen : Nat) (resp : Block)
    (respLen : Nat) :
    Within (Event.In [req] [resp]) (sendReqToFw x req reqLen resp respLen) := by
  unfold sendReqToFw
  refine .bind (within_meiConnect _ fun _ => Event.in_call _ _ _) fun meiHandle => ?_
  cases meiHandle with
  | none => exact within_exit _
  | some fd =>
      refine .bind (within_meiSndRcv x fd req resp reqLen respLen (by simp) (by simp)) fun _ => ?_
      exact .bind ((within_call _).mpr (Event.in_call _ _ _)) fun _ => within_exitIf _ _

theorem Command.within_cmdBuf (c : Command) :
    Within (Event.In [.cmdBuffer, .keyOpaqueSize, .request] [.request]) c.cmdBuf := by
  cases c with
  | generateKeypair =>
      show Within _ generateKeypairCmdBuf
      unfold generateKeypairCmdBuf
      refine .bind (by simp) fun _ => .bind (within_exitIf _ _) fun _ => ?_
      refine .bind (by simp) fun _ => .bind (within_exitIf _ _) fun _ => ?_
      refine .bind (by simp) fun _ => .bind (by simp) fun _ => .bind (by simp) fun _ => ?_
      refine .bind (Within.widen (within_swapByteOrder _ _ _) ?_ ?_) fun _ => by simp
      · simp
      · simp
  | importKeypair =>
      show Within _ importKeypairCmdBuf
      unfold importKeypairCmdBuf
      repeat' refine .bind ?_ fun _ => ?_
      all_goals simp
  | getKeypairPublic =>
      show Within _ getPublicKeypairCmdBuf
      unfold getPublicKeypairCmdBuf
      repeat' refine .bind ?_ fun _ => ?_
      all_goals simp
  | signData =>
      show Within _ signDataCmdBuf
      unfold signDataCmdBuf
      repeat' refine .bind ?_ fun _ => ?_
      all_goals simp
  | verifyData =>
      show Within _ verifyDataCmdBuf
      unfold verifyDataCmdBuf
      repeat' refine .bind ?_ fun _ => ?_
      all_goals simp

theorem within_translateCmd (mallocRequest : Bool) :
    Within (Event.In [.cmdBuffer, .keyOpaqueSize, .request] [.request])
      (translateCmd mallocRequest) := by
  unfold translateCmd generateCmdBuf
  refine .bind (by simp) fun _ => .bind (.bind (by simp) fun cmdId => ?_) fun _ => ?_
  · cases Command.ofHalId cmdId with
    | none => exact within_exit _
    | some c =>
        refine .bind (by simp) fun _ => .bind (within_exitIf _ _) fun _ => ?_
        refine .bind (by simp) fun _ => .bind (by simp) fun _ => .bind (by simp) fun _ => ?_
        exact .bind c.within_cmdBuf fun _ => within_pure _
  · exact .bind (within_exitIf _ _) fun _ => within_pure _

theorem within_capsRounds (n : Nat) :
    Within (Event.In [.capsResponse] [.keyOpaqueSize]) (capsRounds n) := by
  induction n with
  | zero => exact within_pure _
  | succ n ih =>
      refine .bind (.bind (by simp) fun _ => .onlyIf (.bind (by simp) fun _ => by simp)) ?_
      exact fun _ => ih

theorem within_getCaps (mallocCaps : Bool) (x : Exchange) :
    Within (Event.In [.capsRequest, .capsResponse] [.capsRequest, .capsResponse, .keyOpaqueSize])
      (getCaps mallocCaps x) := by
  unfold getCaps
  refine .bind (within_exitIf _ _) fun _ => .bind (by simp) fun _ => .bind (by simp) fun _ => ?_
  refine .bind (by simp) fun _ => .bind (by simp) fun _ => .bind ?_ fun _ => ?_
  · exact (within_sendReqToFw _ _ _ _ _).widen (by simp) (by simp)
  · refine .bind (by simp) fun _ => .bind (within_exitIf _ _) fun _ => .bind (by simp) fun _ => ?_
    exact (within_capsRounds _).widen (by simp) (by simp)

theorem within_prologue (args : Args) (env : Env) :
    Within (Event.In [.rspLength, .capsObtained, .capsRequest, .capsResponse]
      [.capsRequest, .capsResponse, .keyOpaqueSize, .capsObtained]) (prologue args env) := by
  unfold prologue
  refine .bind (within_exitIf _ _) fun _ => .bind (within_exitIf _ _) fun _ => ?_
  refine .bind (by simp) fun _ => .bind (within_exitIf _ _) fun _ => .bind (by simp) fun _ => ?_
  refine .onlyIf (.bind ?_ fun _ => by simp)
  exact (within_getCaps _ _).widen (by simp) (by simp)

theorem within_exchangeReply (env : Env) (fwRequestLen : Nat) :
    Within (Event.In [.rspLength, .request] [.response]) (exchangeReply env fwRequestLen) := by
  unfold exchangeReply
  refine .bind (by simp) fun _ => .bind (within_exitIf _ _) fun _ => .bind (by simp) fun _ => ?_
  exact (within_sendReqToFw _ _ _ _ _).widen (by simp) (by simp)

theorem within_setPayload {n sizeField fixed : Nat} {copy : Nat → Proc Unit}
    (hcopy : ∀ size, Within (Event.In [.response, .rspLength, .rspBuffer] [.rspBuffer, .rspLength])
      (copy size)) :
    Within (Event.In [.response, .rspLength, .rspBuffer] [.rspBuffer, .rspLength])
      (setPayload n sizeField fixed copy) := by
  refine .bind (by simp) fun _ => .bind ?_ fun _ => hcopy _
  refine .bind (by simp) fun _ => .bind (by simp) fun _ => .bind (by simp) fun _ => ?_
  exact .bind (by simp) fun _ => within_exitIf _ _

theorem within_setData (n : Nat) (c : Option Command) :
    Within (Event.In [.response, .rspLength, .rspBuffer] [.rspBuffer, .rspLength])
      (setData n c) := by
  have hblob : ∀ size, Within
      (Event.In [.response, .rspLength, .rspBuffer] [.rspBuffer, .rspLength])
      (copyKeyBlob size) :=
    fun size => .bind (by simp) fun _ => .bind (by simp) fun _ => by simp
  match c with
  | some .generateKeypair => exact within_setPayload hblob
  | some .importKeypair => exact within_setPayload hblob
  | some .getKeypairPublic =>
      refine within_setPayload fun size => ?_
      refine .bind (by simp) fun _ => .bind (by simp) fun _ => .bind (by simp) fun _ => ?_
      exact .bind (by simp) fun _ => by simp
  | some .signData => exact within_setPayload fun size => .bind (by simp) fun _ => by simp
  | some .verifyData =>
      exact .bind (by simp) fun _ => .bind (by simp) fun _ => .bind (by simp) fun _ => by simp
  | none => exact within_pure _

theorem within_decodeReply :
    Within (Event.In [.response, .rspLength, .rspBuffer] [.rspBuffer, .rspLength])
      decodeReply := by
  unfold decodeReply setResponseCmdId setResponseStatusAndData
  refine .bind (by simp) fun _ => .bind (by simp) fun _ => .bind (by simp) fun n => ?_
  refine .bind (by simp) fun _ => .ite (.bind (by simp) fun _ => .bind (by simp) fun id => ?_) ?_
  · exact within_setData n _
  · exact .bind (by simp) fun _ => .bind (by simp) fun _ => by simp

/-! ## The exchange with the firmware -/

theorem sendReqToFw_spec (x : Exchange) (req : Block) (reqLen : Nat) (resp : Block)
    (respLen : Nat) (m : Mem Block) :
    (∀ got, x.reply reqLen respLen = some got →
        ((sendReqToFw x req reqLen resp respLen).run m).result = .ok () ∧
          ((sendReqToFw x req reqLen resp respLen).run m).mem = m.fill resp got) ∧
      (x.reply reqLen respLen = none →
        ∃ e, ((sendReqToFw x req reqLen resp respLen).run m).result = .error e) := by
  obtain ⟨hconn, hmem⟩ := run_meiConnect (ε := Failure) x.connect m
  obtain ⟨status, hstatus, hfail, hok⟩ :=
    run_meiSndRcv (ε := Failure) x req resp reqLen respLen m
  unfold Exchange.reply sendReqToFw
  rw [run_bind, Run.andThen_of_ok hconn]
  by_cases hc : x.connect.Succeeds
  · simp only [if_pos hc, hmem, run_bind]
    rw [Run.andThen_of_ok hstatus]
    -- the connection is closed before the status is tested
    cases hd : x.delivers reqLen respLen with
    | none =>
        have hneg := hfail hd
        simp [meiDisconnect, hneg]
    | some got =>
        obtain ⟨hpos, hgot⟩ := hok got hd
        have hno : ¬ status < 0 := by omega
        simp [meiDisconnect, hno, hgot]
  · simp [hc]

/-! ## The capabilities -/

theorem capsRounds_spec (n : Nat) (m : Mem Block) :
    ((capsRounds n).run m).result = .ok () ∧
      opaqueSize ((capsRounds n).run m).mem =
        if 0 < n ∧ m.word .capsResponse 28 = fwKeyTypeRsa then m.word .capsResponse 40
        else opaqueSize m := by
  induction n generalizing m with
  | zero => simp [capsRounds]
  | succ n ih =>
      -- every round looks at the first entry, so the first round settles the size
      by_cases htype : m.word .capsResponse 28 = 0
      · obtain ⟨hres, hsize⟩ := ih (m.write .keyOpaqueSize 0 4 (byteAt (m.word .capsResponse 40)))
        have hlt := wrap32_of_lt (m.word_lt .capsResponse 40)
        simp only [opaqueSize, fwKeyTypeRsa, Mem.word_write_same, hlt] at hsize
        simp [capsRounds, capsRound, htype, hres, hsize]
      · obtain ⟨hres, hsize⟩ := ih m
        simp only [opaqueSize, fwKeyTypeRsa] at hsize
        simp [capsRounds, capsRound, htype, hres, hsize]

/-- The `key_opaque_size` after a capabilities reply `got`, when it was `old` before; `none` if
the firmware reports a failure. -/
def opaqueSizeOfCaps (got : List UInt8) (old : Nat) : Option Nat :=
  if Mem.wordOf got RespHeader.responseCode = responseCodeSuccess then
    some (if 0 < Mem.wordOf got GetCapsResponse.numAlgs ∧
        Mem.wordOf got (GetCapsResponse.keyCapabilities + KeyCaps.type) = fwKeyTypeRsa then
      Mem.wordOf got
        (GetCapsResponse.keyCapabilities + KeyCaps.value + RsaCapsParams.keyOpaqueSize)
    else old)
  else none

/-- The `key_opaque_size` a call works with; `none` if its query of the capabilities fails. -/
def opaqueSizeInForce (env : Env) (m : Mem Block) : Option Nat :=
  if m.word .capsObtained 0 = 0 then
    if env.mallocCaps then
      (env.caps.reply ReqHeader.size agentMaxMtu).bind fun got =>
        opaqueSizeOfCaps got (opaqueSize m)
    else none
  else some (opaqueSize m)

/-- The memory `get_caps` sends its request from. -/
def capsStart (m : Mem Block) : Mem Block :=
  (((m.write .capsResponse 0 agentMaxMtu fun _ => 0).write .capsRequest ReqHeader.cmdClass 4
    (byteAt cmdClassKeyMaster)).write .capsRequest ReqHeader.cmdId 4
      (byteAt cmdIdGetCaps)).write .capsRequest ReqHeader.inputSize 4 (byteAt 0)

theorem word_capsStart_fill (m : Mem Block) (got : List UInt8) {o : Nat}
    (ho : o + 4 ≤ agentMaxMtu) :
    ((capsStart m).fill .capsResponse got).word .capsResponse o = Mem.wordOf got o := by
  have hblock : capsStart m .capsResponse =
      (m.write .capsResponse 0 agentMaxMtu fun _ => 0) .capsResponse := by
    have hne : Block.capsResponse ≠ .capsRequest := by decide
    simp only [capsStart, Mem.write_other _ _ _ _ hne]
  rw [← Mem.word_fill_cleared m .capsResponse got ho]
  simp only [Mem.word, Mem.fill, Mem.write_congr hblock]

theorem getCaps_run (x : Exchange) (m : Mem Block) :
    (getCaps true x).run m =
      (((sendReqToFw x .capsRequest ReqHeader.size .capsResponse agentMaxMtu).run
        (capsStart m)).andThen fun _ => (do
          let responseCode ← load .capsResponse RespHeader.responseCode
          exitIf (responseCode ≠ responseCodeSuccess) .failure
          let numAlgs ← load .capsResponse GetCapsResponse.numAlgs
          capsRounds numAlgs : Proc Unit).run).prepend
        [.write .capsResponse 0 agentMaxMtu, .write .capsRequest 0 4, .write .capsRequest 4 4,
          .write .capsRequest 8 4] := by
  simp only [getCaps, run_bind, run_exitIf, run_memset, run_store, Run.andThen_ok, if_false,
    Bool.true_eq_false]
  rfl

/-- `get_caps` succeeds exactly when the firmware delivers a reply that reports success, and
`key_opaque_size` is then the one in the reply. -/
theorem getCaps_spec (x : Exchange) (m : Mem Block) :
    match (x.reply ReqHeader.size agentMaxMtu).bind fun got =>
        opaqueSizeOfCaps got (opaqueSize m) with
    | some size => ((getCaps true x).run m).result = .ok () ∧
        opaqueSize ((getCaps true x).run m).mem = size
    | none => ∃ e, ((getCaps true x).run m).result = .error e := by
  obtain ⟨hok, hfail⟩ := sendReqToFw_spec x .capsRequest ReqHeader.size .capsResponse agentMaxMtu
    (capsStart m)
  rw [getCaps_run]
  cases hgot : x.reply ReqHeader.size agentMaxMtu with
  | none =>
      obtain ⟨e, he⟩ := hfail hgot
      rw [Run.andThen_of_error he]
      exact ⟨e, rfl⟩
  | some got =>
      obtain ⟨hres, hmem⟩ := hok got hgot
      have hword := fun {o} => word_capsStart_fill m got (o := o)
      have hold : opaqueSize ((capsStart m).fill .capsResponse got) = opaqueSize m := by
        simp [capsStart]
      have hcode : ((capsStart m).fill .capsResponse got).word .capsResponse
          RespHeader.responseCode = Mem.wordOf got RespHeader.responseCode := hword (by decide)
      have halgs : ((capsStart m).fill .capsResponse got).word .capsResponse
          GetCapsResponse.numAlgs = Mem.wordOf got GetCapsResponse.numAlgs := hword (by decide)
      obtain ⟨hrounds, hsize⟩ := capsRounds_spec (Mem.wordOf got GetCapsResponse.numAlgs)
        ((capsStart m).fill .capsResponse got)
      rw [hword (by decide), hword (by decide), hold] at hsize
      rw [Run.andThen_of_ok hres, hmem]
      simp only [Option.bind_some, opaqueSizeOfCaps, run_bind, run_load, run_exitIf,
        Run.andThen_ok, hcode]
      by_cases hsucc : Mem.wordOf got RespHeader.responseCode = responseCodeSuccess
      · simp only [if_pos hsucc, if_neg (not_not_intro hsucc), ne_eq, Run.andThen_ok, run_bind,
          run_load, halgs, Run.prepend_result, Run.prepend_mem]
        exact ⟨hrounds, hsize⟩
      · simp only [ne_eq, hsucc, not_false_eq_true, if_true, if_false, Run.andThen_error]
        exact ⟨.failure, rfl⟩

/-! ## The three steps up to the decoder -/

/-- The arguments pass the tests at the start of the call. -/
def Args.Valid (args : Args) (m : Mem Block) : Prop :=
  (args.cmdBuffer ∧ args.rspBuffer ∧ args.rspLength) ∧
    FirmwareCmd.size ≤ args.cmdLength ∧ FirmwareRsp.size ≤ Keymaster.rspLength m

instance (args : Args) (m : Mem Block) : Decidable (args.Valid m) :=
  inferInstanceAs (Decidable (_ ∧ _))

theorem prologue_invalid {args : Args} {m : Mem Block} (h : ¬ args.Valid m) (env : Env) :
    ∃ e, ((prologue args env).run m).result = .error e ∧ ((prologue args env).run m).mem = m := by
  unfold prologue
  by_cases hptr : args.cmdBuffer ∧ args.rspBuffer ∧ args.rspLength
  · -- the tests are made in this order, and the first that applies ends the call
    by_cases hcmd : args.cmdLength < FirmwareCmd.size
    · simp [hptr, hcmd]
    · by_cases hrsp : m.word .rspLength 0 < FirmwareRsp.size
      · simp [hptr, hcmd, hrsp]
      · exact absurd ⟨hptr, by omega, by simp only [rspLength]; omega⟩ h
  · simp [hptr]

theorem prologue_valid {args : Args} {m : Mem Block} (h : args.Valid m) (env : Env) :
    (prologue args env).run m =
      ((onlyIf (m.word .capsObtained 0 = 0) (do
          getCaps env.mallocCaps env.caps
          store .capsObtained 0 1) : Proc Unit).run m).prepend
        [.read .rspLength 0 4, .read .capsObtained 0 4] := by
  obtain ⟨hptr, hcmd, hrsp⟩ := h
  have hcmd' : ¬ args.cmdLength < FirmwareCmd.size := by omega
  have hrsp' : ¬ m.word .rspLength 0 < FirmwareRsp.size := by simp only [rspLength] at hrsp; omega
  simp only [prologue, run_bind, run_exitIf, run_load, hptr, hcmd', hrsp', not_true, if_false,
    Run.andThen_ok, and_self]
  rfl

/-- The call is admitted exactly when its arguments are valid and the `key_opaque_size` it works
with can be obtained. -/
theorem prologue_spec (args : Args) (env : Env) (m : Mem Block) :
    (∀ size, args.Valid m → opaqueSizeInForce env m = some size →
        ((prologue args env).run m).result = .ok () ∧
          opaqueSize ((prologue args env).run m).mem = size) ∧
      (¬ args.Valid m ∨ opaqueSizeInForce env m = none →
        ∃ e, ((prologue args env).run m).result = .error e) := by
  by_cases hv : args.Valid m
  · rw [prologue_valid hv]
    unfold opaqueSizeInForce
    by_cases hobt : m.word .capsObtained 0 = 0
    · by_cases hmalloc : env.mallocCaps = true
      · have hspec := getCaps_spec env.caps m
        simp only [hobt, hmalloc, if_true, run_onlyIf, run_bind]
        cases hcaps : (env.caps.reply ReqHeader.size agentMaxMtu).bind fun got =>
            opaqueSizeOfCaps got (opaqueSize m) with
        | none =>
            rw [hcaps] at hspec
            obtain ⟨e, he⟩ := hspec
            rw [Run.andThen_of_error he]
            simp
        | some size =>
            rw [hcaps] at hspec
            obtain ⟨hres, hsize⟩ := hspec
            rw [Run.andThen_of_ok hres]
            simp only [opaqueSize] at hsize
            simp [hsize, hv]
      · simp [hobt, hmalloc, getCaps]
    · simp [hobt, hv]
  · obtain ⟨e, he, -⟩ := prologue_invalid hv env
    exact ⟨fun _ h => absurd h hv, fun _ => ⟨e, he⟩⟩

/-- The value of `fw_response_length`. -/
def fwResponseLength (m : Mem Block) : Nat :=
  wrap32 (RespHeader.size + rspLength m - FirmwareRsp.size)

/-- The length of the request the call sends, when it builds one. -/
def requestLen (args : Args) (env : Env) (m : Mem Block) : Option Nat :=
  if args.Valid m then
    match opaqueSizeInForce env m, Command.ofHalId (m.word .cmdBuffer FirmwareCmd.cmdId) with
    | some size, some c =>
        if env.mallocRequest = true ∧ c.Translated m size then some (c.fwRequestLen size) else none
    | _, _ => none
  else none

/-- The bytes of the reply the call decodes, when it gets that far. -/
def reply (args : Args) (env : Env) (m : Mem Block) : Option (List UInt8) :=
  match requestLen args env m with
  | some n => if env.mallocResponse then env.fw.reply n (fwResponseLength m) else none
  | none => none

/-- The reply `got` as the decoder finds it: over the cleared reply buffer. -/
def replyMem (m : Mem Block) (got : List UInt8) : Mem Block :=
  (m.write .response 0 (fwResponseLength m) fun _ => 0).fill .response got

/-- The first two steps: a request is built exactly when `requestLen` says so. -/
theorem prepare_spec (args : Args) (env : Env) (m : Mem Block) :
    (∀ n, requestLen args env m = some n →
        ((do prologue args env; translateCmd env.mallocRequest : Proc Nat).run m).result = .ok n) ∧
      (requestLen args env m = none →
        ∃ e, ((do prologue args env; translateCmd env.mallocRequest : Proc Nat).run m).result =
          .error e) := by
  obtain ⟨hprologue, hrefuse⟩ := prologue_spec args env m
  have hcmd := (within_prologue args env).mem_eq (b := .cmdBuffer) (by decide) m
  rw [run_bind]
  unfold requestLen
  by_cases hv : args.Valid m
  · cases hsize : opaqueSizeInForce env m with
    | none =>
        obtain ⟨e, he⟩ := hrefuse (.inr hsize)
        rw [Run.andThen_of_error he]
        simp [hv]
    | some size =>
        obtain ⟨hres, hko⟩ := hprologue size hv hsize
        rw [Run.andThen_of_ok hres, Run.prepend_result, if_pos hv]
        -- the prologue may have set `key_opaque_size`, but the command is as it was
        have hword : ((prologue args env).run m).mem.word .cmdBuffer 0 = m.word .cmdBuffer 0 := by
          simp only [Mem.word, hcmd]
        cases hid : Command.ofHalId (m.word .cmdBuffer FirmwareCmd.cmdId) with
        | none =>
            rw [translateCmd_unknown (by rw [hword]; exact hid)]
            simp
        | some c =>
            have hid' : Command.ofHalId (((prologue args env).run m).mem.word .cmdBuffer 0) =
                some c := by
              rw [hword]
              exact hid
            cases env.mallocRequest with
            | false =>
                rw [translateCmd_no_memory hid']
                simp
            | true =>
                obtain ⟨hok, herr⟩ := translateCmd_result hid'
                rw [hko, Command.Translated, Command.accepts_congr hcmd] at hok herr
                by_cases ht : c.Translated m size
                · rw [hok ht]
                  simp [ht]
                · obtain ⟨e, he⟩ := herr ht
                  rw [he]
                  simp [ht]
  · obtain ⟨e, he⟩ := hrefuse (.inl hv)
    rw [Run.andThen_of_error he]
    simp [hv]

theorem within_prepare (args : Args) (env : Env) :
    Within (Event.In
      [.rspLength, .capsObtained, .capsRequest, .capsResponse, .cmdBuffer, .keyOpaqueSize,
        .request]
      [.capsRequest, .capsResponse, .keyOpaqueSize, .capsObtained, .request])
      (do prologue args env; translateCmd env.mallocRequest : Proc Nat) := by
  refine .bind ((within_prologue args env).widen ?_ ?_) fun _ =>
    (within_translateCmd env.mallocRequest).widen ?_ ?_
  all_goals simp

theorem exchangeReply_spec (env : Env) (n : Nat) (m : Mem Block) :
    (∀ got, env.mallocResponse = true → env.fw.reply n (fwResponseLength m) = some got →
        ((exchangeReply env n).run m).result = .ok () ∧
          ((exchangeReply env n).run m).mem = replyMem m got) ∧
      (env.mallocResponse = false ∨ env.fw.reply n (fwResponseLength m) = none →
        ∃ e, ((exchangeReply env n).run m).result = .error e) := by
  obtain ⟨hok, hfail⟩ := sendReqToFw_spec env.fw .request n .response (fwResponseLength m)
    (m.write .response 0 (fwResponseLength m) fun _ => 0)
  unfold exchangeReply
  cases hm : env.mallocResponse with
  | false => simp
  | true =>
      simp only [run_bind, run_load, run_exitIf, run_memset, Run.andThen_ok, if_false,
        Bool.true_eq_false, Run.prepend_result, Run.prepend_mem, false_or]
      exact ⟨fun got _ hgot => hok got hgot, hfail⟩

/-- A call up to its decoder. -/
def beforeDecode (args : Args) (env : Env) : Proc Unit := do
  let fwRequestLen ← (do prologue args env; translateCmd env.mallocRequest : Proc Nat)
  exchangeReply env fwRequestLen

theorem run_sepKeymasterSendCmd (args : Args) (env : Env) (m : Mem Block) :
    (sepKeymasterSendCmd args env).run m =
      ((beforeDecode args env).run m).andThen fun _ => decodeReply.run := by
  simp only [sepKeymasterSendCmd, beforeDecode, run_bind, Run.andThen_assoc]
  rfl

theorem within_beforeDecode (args : Args) (env : Env) :
    Within (Event.In
      [.rspLength, .capsObtained, .capsRequest, .capsResponse, .cmdBuffer, .keyOpaqueSize,
        .request]
      [.capsRequest, .capsResponse, .keyOpaqueSize, .capsObtained, .request, .response])
      (beforeDecode args env) := by
  refine .bind ((within_prepare args env).widen ?_ ?_) fun n =>
    (within_exchangeReply env n).widen ?_ ?_
  all_goals simp

/-- A call reaches its decoder exactly when `reply` says so, and the decoder then finds the reply
and the caller's buffers as `replyMem` has them. -/
theorem beforeDecode_spec (args : Args) (env : Env) (m : Mem Block) :
    (∀ got, reply args env m = some got →
        ((beforeDecode args env).run m).result = .ok () ∧
          ((beforeDecode args env).run m).mem .response = replyMem m got .response) ∧
      (reply args env m = none →
        ∃ e, ((beforeDecode args env).run m).result = .error e) := by
  obtain ⟨hok, hfail⟩ := prepare_spec args env m
  unfold reply beforeDecode
  rw [run_bind]
  cases hn : requestLen args env m with
  | none =>
      obtain ⟨e, he⟩ := hfail hn
      rw [Run.andThen_of_error he]
      simp
  | some n =>
      have hlen := (within_prepare args env).word_eq (b := .rspLength) (by decide) m 0
      have hresp := (within_prepare args env).mem_eq (b := .response) (by decide) m
      rw [Run.andThen_of_ok (hok n hn), Run.prepend_result, Run.prepend_mem]
      generalize ((do prologue args env; translateCmd env.mallocRequest : Proc Nat).run m).mem = m'
        at hlen hresp
      have hL : fwResponseLength m' = fwResponseLength m := by
        simp only [fwResponseLength, rspLength, hlen]
      obtain ⟨hsend, hlost⟩ := exchangeReply_spec env n m'
      rw [hL] at hsend hlost
      simp only
      cases hm : env.mallocResponse with
      | false => simpa using hlost (.inl hm)
      | true =>
          simp only [if_true]
          refine ⟨fun got hgot => ?_, fun hnone => hlost (.inr hnone)⟩
          obtain ⟨hres, hmem⟩ := hsend got hm hgot
          refine ⟨hres, ?_⟩
          rw [hmem]
          simp only [replyMem, hL]
          exact Mem.write_congr (Mem.write_congr hresp _ _ _) _ _ _

/-- The run `r` of a call ends as the decoder's run `d` does. -/
structure DecodedAs (r d : Run DeviceCall Block Failure Unit) : Prop where
  result : r.result = d.result
  rspBuffer : r.mem .rspBuffer = d.mem .rspBuffer
  rspLength : r.mem .rspLength = d.mem .rspLength
  reads : ∀ k, Log.ReadsBelow .response k r.log ↔ Log.ReadsBelow .response k d.log
  writes : ∀ k, Log.WritesBelow .rspBuffer k r.log ↔ Log.WritesBelow .rspBuffer k d.log

/-- A field of the response is the one the decoder leaves. -/
theorem DecodedAs.word_rspBuffer {r d : Run DeviceCall Block Failure Unit} (h : DecodedAs r d)
    (o : Nat) : r.mem.word .rspBuffer o = d.mem.word .rspBuffer o := by
  simp only [Mem.word, h.rspBuffer]

theorem replyMem_other (m : Mem Block) (got : List UInt8) {b : Block} (hb : b ≠ .response) :
    replyMem m got b = m b := by
  rw [replyMem, Mem.fill_other _ _ hb, Mem.write_other _ _ _ _ hb]

/-- The decoder of a call that gets a reply finds the three blocks it looks at as `replyMem` has
them. -/
theorem beforeDecode_agree {args : Args} {env : Env} {m : Mem Block} {got : List UInt8}
    (h : reply args env m = some got) :
    ∀ b ∈ [Block.response, .rspLength, .rspBuffer],
      ((beforeDecode args env).run m).mem b = replyMem m got b := by
  have hw := within_beforeDecode args env
  intro b hb
  simp only [List.mem_cons, List.not_mem_nil, or_false] at hb
  rcases hb with rfl | rfl | rfl
  · exact ((beforeDecode_spec args env m).1 got h).2
  · rw [hw.mem_eq (b := .rspLength) (by decide) m, replyMem_other m got (by decide)]
  · rw [hw.mem_eq (b := .rspBuffer) (by decide) m, replyMem_other m got (by decide)]

/-- The accesses of a call that gets a reply: those up to its decoder, then the decoder's. -/
theorem sepKeymasterSendCmd_log {args : Args} {env : Env} {m : Mem Block} {got : List UInt8}
    (h : reply args env m = some got) :
    ((sepKeymasterSendCmd args env).run m).log =
      ((beforeDecode args env).run m).log ++ (decodeReply.run (replyMem m got)).log := by
  obtain ⟨hres, -⟩ := (beforeDecode_spec args env m).1 got h
  obtain ⟨-, hlog, -⟩ := within_decodeReply.same (beforeDecode_agree h)
  rw [run_sepKeymasterSendCmd, Run.andThen_of_ok hres, Run.prepend_log, hlog]

/-- A call that gets a reply ends as the decoder does on it. -/
theorem sepKeymasterSendCmd_delivered {args : Args} {env : Env} {m : Mem Block}
    {got : List UInt8} (h : reply args env m = some got) :
    DecodedAs ((sepKeymasterSendCmd args env).run m) (decodeReply.run (replyMem m got)) := by
  obtain ⟨hres, -⟩ := (beforeDecode_spec args env m).1 got h
  have hw := within_beforeDecode args env
  have hagree := beforeDecode_agree h
  have hlog := sepKeymasterSendCmd_log h
  obtain ⟨hresult, -, -⟩ := within_decodeReply.same hagree
  refine ⟨?_, ?_, ?_, fun k => ?_, fun k => ?_⟩
  · rw [run_sepKeymasterSendCmd, Run.andThen_of_ok hres, Run.prepend_result, hresult]
  · rw [run_sepKeymasterSendCmd, Run.andThen_of_ok hres, Run.prepend_mem]
    exact within_decodeReply.mem_eq_of_agree hagree (hagree .rspBuffer (by decide))
  · rw [run_sepKeymasterSendCmd, Run.andThen_of_ok hres, Run.prepend_mem]
    exact within_decodeReply.mem_eq_of_agree hagree (hagree .rspLength (by decide))
  · rw [hlog, Log.readsBelow_append]
    exact and_iff_right (hw.readsBelow (by decide) m k)
  · rw [hlog, Log.writesBelow_append]
    exact and_iff_right (hw.writesBelow (by decide) m k)

/-- A call that gets no reply fails, leaves the caller's buffers alone and looks at no reply. -/
theorem sepKeymasterSendCmd_not_delivered {args : Args} {env : Env} {m : Mem Block}
    (h : reply args env m = none) :
    (∃ e, ((sepKeymasterSendCmd args env).run m).result = .error e) ∧
      ((sepKeymasterSendCmd args env).run m).mem .rspBuffer = m .rspBuffer ∧
      ((sepKeymasterSendCmd args env).run m).mem .rspLength = m .rspLength ∧
      (∀ k, Log.ReadsBelow .response k ((sepKeymasterSendCmd args env).run m).log) ∧
      ∀ k, Log.WritesBelow .rspBuffer k ((sepKeymasterSendCmd args env).run m).log := by
  obtain ⟨e, he⟩ := (beforeDecode_spec args env m).2 h
  have hw := within_beforeDecode args env
  rw [run_sepKeymasterSendCmd, Run.andThen_of_error he]
  exact ⟨⟨e, rfl⟩, hw.mem_eq (by decide) m, hw.mem_eq (by decide) m,
    hw.readsBelow (by decide) m, hw.writesBelow (by decide) m⟩

/-- A reply is only decoded for a call whose arguments are valid. -/
theorem valid_of_reply {args : Args} {env : Env} {m : Mem Block} {got : List UInt8}
    (h : reply args env m = some got) : args.Valid m := by
  unfold reply requestLen at h
  by_cases hv : args.Valid m
  · exact hv
  · simp [hv] at h

/-- A reply is only decoded for a command with one of the five ids. -/
theorem command_of_reply {args : Args} {env : Env} {m : Mem Block} {got : List UInt8}
    (h : reply args env m = some got) :
    ∃ c, Command.ofHalId (m.word .cmdBuffer FirmwareCmd.cmdId) = some c := by
  unfold reply requestLen at h
  cases hid : Command.ofHalId (m.word .cmdBuffer FirmwareCmd.cmdId) with
  | some c => exact ⟨c, rfl⟩
  | none => cases hsize : opaqueSizeInForce env m <;> simp [hid, hsize] at h

/-- A reply is what the exchange with the firmware delivered for the request of the call. -/
theorem delivers_of_reply {args : Args} {env : Env} {m : Mem Block} {got : List UInt8}
    (h : reply args env m = some got) :
    ∃ n, requestLen args env m = some n ∧ env.fw.delivers n (fwResponseLength m) = some got := by
  unfold reply at h
  cases hn : requestLen args env m with
  | none => simp [hn] at h
  | some n =>
      cases hm : env.mallocResponse with
      | false => simp [hn, hm] at h
      | true => exact ⟨n, rfl, Exchange.delivers_of_reply (by simpa [hn, hm] using h)⟩

/-- A request is at most a firmware message long. -/
theorem requestLen_le {args : Args} {env : Env} {m : Mem Block} {n : Nat}
    (h : requestLen args env m = some n) : n ≤ maxHeciMsgSize := by
  unfold requestLen at h
  by_cases hv : args.Valid m
  · rw [if_pos hv] at h
    split at h
    · split at h
      · rename_i ht
        cases h
        exact ht.2.2
      · cases h
    · cases h
  · rw [if_neg hv] at h
    cases h

theorem rspLength_replyMem (m : Mem Block) (got : List UInt8) :
    rspLength (replyMem m got) = rspLength m := by
  simp only [rspLength, Mem.word, replyMem_other m got (show Block.rspLength ≠ .response by decide)]

/-- A reply is only decoded into a buffer that holds a response header. -/
theorem rspLength_of_reply {args : Args} {env : Env} {m : Mem Block} {got : List UInt8}
    (h : reply args env m = some got) : 12 ≤ rspLength (replyMem m got) := by
  rw [rspLength_replyMem]
  exact (valid_of_reply h).2.2

/-- The command buffer is read by the translation alone, so a bound on `translateCmd` bounds the
whole call. -/
theorem sepKeymasterSendCmd_command_reads (args : Args) (env : Env) (m : Mem Block) (n : Nat) :
    Log.ReadsBelow .cmdBuffer n ((sepKeymasterSendCmd args env).run m).log ↔
      (((prologue args env).run m).result = .ok () →
        Log.ReadsBelow .cmdBuffer n
          ((translateCmd env.mallocRequest).run ((prologue args env).run m).mem).log) := by
  have hprologue := (within_prologue args env).readsBelow (b := .cmdBuffer) (by decide) m n
  have hrest : ∀ k m', Log.ReadsBelow .cmdBuffer n
      ((do exchangeReply env k; decodeReply : Proc Unit).run m').log := by
    intro k m'
    have hw : Within (Event.In [.rspLength, .request, .response, .rspBuffer]
        [.response, .rspBuffer, .rspLength]) (do exchangeReply env k; decodeReply : Proc Unit) := by
      refine .bind ((within_exchangeReply env k).widen ?_ ?_) fun _ =>
        within_decodeReply.widen ?_ ?_
      all_goals simp
    exact hw.readsBelow (by decide) m' n
  unfold sepKeymasterSendCmd
  rw [run_bind]
  cases hres : ((prologue args env).run m).result with
  | error e =>
      rw [Run.andThen_of_error hres]
      simp [hprologue]
  | ok u =>
      rw [Run.andThen_of_ok hres, Run.prepend_log, Log.readsBelow_append, run_bind]
      cases ht : ((translateCmd env.mallocRequest).run ((prologue args env).run m).mem).result with
      | error e =>
          rw [Run.andThen_of_error ht]
          simp [hprologue]
      | ok k =>
          rw [Run.andThen_of_ok ht, Run.prepend_log, Log.readsBelow_append]
          exact ⟨fun h _ => h.2.1, fun h => ⟨hprologue, h rfl, hrest k _⟩⟩

end Txei.Keymaster

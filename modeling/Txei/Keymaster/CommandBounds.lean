import Txei.Keymaster.Request

/-!
# What a builder reads of the command

Each builder is characterised once: the commands it accepts (`Command.Accepts`) and the bytes of
the command it reads (`Command.ReadsFit`). Both are conditions on the command's fields.
`translateCmd_in_bounds_iff` puts them together: it is the exact condition under which building a
request stays inside a command of `cmd_length` bytes and rejects every command that declares
more than it holds.
-/

namespace Txei.Keymaster

open Machine Machine.Prog Mei

/-! ## The byte swap stays in its block and always ends -/

theorem swapStep_result (b : Block) (o bufLen i : Nat) (m : Mem Block) :
    ((swapStep b o bufLen i).run m).result = .ok () := by
  simp [swapStep]

theorem swapRounds_result (b : Block) (o bufLen n : Nat) (m : Mem Block) :
    ((swapRounds b o bufLen n).run m).result = .ok () := by
  induction n generalizing m with
  | zero => rfl
  | succ n ih =>
      rw [swapRounds, run_bind, Run.andThen_of_ok (ih m), Run.prepend_result]
      exact swapStep_result b o bufLen n _

theorem within_swapStep (b : Block) (o bufLen i : Nat) :
    Within (Event.In [b] [b]) (swapStep b o bufLen i) := by
  intro m e he
  simp [swapStep] at he
  rcases he with rfl | rfl | rfl | rfl | rfl | rfl | rfl | rfl | rfl <;> simp

theorem within_swapRounds (b : Block) (o bufLen n : Nat) :
    Within (Event.In [b] [b]) (swapRounds b o bufLen n) := by
  induction n with
  | zero => exact within_pure _
  | succ n ih => exact .bind ih fun _ => within_swapStep b o bufLen n

/-- `swap_byte_order` returns. -/
theorem swapByteOrder_result (b : Block) (o bufLen : Nat) (m : Mem Block) :
    ((swapByteOrder b o bufLen).run m).result = .ok () :=
  swapRounds_result b o bufLen _ m

/-- `swap_byte_order` accesses no other block. -/
theorem within_swapByteOrder (b : Block) (o bufLen : Nat) :
    Within (Event.In [b] [b]) (swapByteOrder b o bufLen) :=
  within_swapRounds b o bufLen _

/-! ## Fields of a command -/

section Fields

variable (m : Mem Block)

/-- `cmd_data_length`. -/
@[simp] abbrev cmdDataLength : Nat := m.word .cmdBuffer FirmwareCmd.cmdDataLength

/-- The `key_opaque_size` in force. -/
@[simp] abbrev opaqueSize : Nat := m.word .keyOpaqueSize 0

/-- `key_type` of a key generation command. -/
@[simp] abbrev keygenKeyType : Nat := m.word .cmdBuffer (FirmwareCmd.cmdData + KeygenParams.keyType)

/-- `modulus_length` of an import command. -/
@[simp] abbrev modulusLength : Nat := m.word .cmdBuffer (rsaKey + RsaKey.modulusLength)

/-- `public_exponent_length` of an import command. -/
@[simp] abbrev publicExponentLength : Nat :=
  m.word .cmdBuffer (rsaKey + RsaKey.publicExponentLength)

/-- `private_exponent_length` of an import command. -/
@[simp] abbrev privateExponentLength : Nat :=
  m.word .cmdBuffer (rsaKey + RsaKey.privateExponentLength)

/-- `key_blob_length`, which comes first in each of the three commands that carry a key blob. -/
@[simp] abbrev keyBlobLength : Nat :=
  m.word .cmdBuffer (FirmwareCmd.cmdData + KeyBlob.keyBlobLength)

/-- `data_length`, at one offset in a signing and a verification command. -/
@[simp] abbrev dataLength : Nat :=
  m.word .cmdBuffer (FirmwareCmd.cmdData + SigningCmdData.dataLength)

/-- `signature_length` of a verification command. -/
@[simp] abbrev signatureLength : Nat :=
  m.word .cmdBuffer (FirmwareCmd.cmdData + VerificationData.signatureLength)

variable (keyOpaqueSize : Nat)

/-- The commands the builder accepts, as a condition on their fields. -/
def Command.Accepts : Command → Prop
  | generateKeypair => 20 ≤ cmdDataLength m ∧ keygenKeyType m = keyTypeRsa
  | importKeypair =>
      16 ≤ cmdDataLength m ∧ publicExponentLength m ≤ publicExponentMaxSize ∧
        modulusLength m ≤ maxKeySize ∧ privateExponentLength m ≤ maxKeySize
  | getKeypairPublic => 4 + keyOpaqueSize ≤ cmdDataLength m
  | signData =>
      8 ≤ cmdDataLength m ∧ dataLength m ≤ maxKeySize ∧ keyBlobLength m ≤ keyOpaqueSize
  | verifyData =>
      12 ≤ cmdDataLength m ∧ dataLength m ≤ maxKeySize ∧ signatureLength m ≤ maxKeySize ∧
        keyBlobLength m ≤ keyOpaqueSize

/-- The bytes the builder reads lie in a command of `n` bytes, as a condition on the command's
fields: the fields up to the first one that is refused, and for an accepted command everything
that is copied. -/
def Command.ReadsFit (n : Nat) : Command → Prop
  | generateKeypair =>
      20 ≤ cmdDataLength m → 12 ≤ n ∧ (keygenKeyType m = keyTypeRsa → 24 ≤ n)
  | importKeypair =>
      16 ≤ cmdDataLength m → 20 ≤ n ∧
        (publicExponentLength m ≤ publicExponentMaxSize → modulusLength m ≤ maxKeySize →
          24 ≤ n ∧ (privateExponentLength m ≤ maxKeySize →
            24 + modulusLength m + publicExponentLength m + privateExponentLength m ≤ n))
  | getKeypairPublic =>
      4 + keyOpaqueSize ≤ cmdDataLength m → keyOpaqueSize = 0 ∨ 12 + keyOpaqueSize ≤ n
  | signData =>
      8 ≤ cmdDataLength m → 16 ≤ n ∧
        (dataLength m ≤ maxKeySize → keyBlobLength m ≤ keyOpaqueSize →
          16 + keyBlobLength m + dataLength m ≤ n)
  | verifyData =>
      12 ≤ cmdDataLength m → 16 ≤ n ∧
        (dataLength m ≤ maxKeySize → 20 ≤ n ∧
          (signatureLength m ≤ maxKeySize → keyBlobLength m ≤ keyOpaqueSize →
            20 + keyBlobLength m + dataLength m + signatureLength m ≤ n))

/-- The end of the command as its own lengths declare it: the end of `cmd_data`, and the end of
what the nested lengths announce. -/
def Command.DeclaredFit (n : Nat) : Command → Prop
  | generateKeypair => 8 + cmdDataLength m ≤ n
  | importKeypair =>
      8 + cmdDataLength m ≤ n ∧
        24 + modulusLength m + publicExponentLength m + privateExponentLength m ≤ n
  | getKeypairPublic => 8 + cmdDataLength m ≤ n ∧ 12 + keyBlobLength m ≤ n
  | signData => 8 + cmdDataLength m ≤ n ∧ 16 + keyBlobLength m + dataLength m ≤ n
  | verifyData =>
      8 + cmdDataLength m ≤ n ∧
        20 + keyBlobLength m + dataLength m + signatureLength m ≤ n

end Fields

/-! ## One lemma for each builder -/

theorem generateKeypairCmdBuf_spec (m : Mem Block) (n : Nat) (hn : 8 ≤ n) :
    ((generateKeypairCmdBuf.run m).result = .ok () ↔
        Command.Accepts m (opaqueSize m) .generateKeypair) ∧
      (Log.ReadsBelow .cmdBuffer n (generateKeypairCmdBuf.run m).log ↔
        Command.ReadsFit m (opaqueSize m) n .generateKeypair) := by
  simp only [Command.Accepts, Command.ReadsFit]
  by_cases hd : m.word .cmdBuffer 4 < 20
  · simp [generateKeypairCmdBuf, hd]
    omega
  · by_cases hkt : m.word .cmdBuffer 8 = 1
    · -- the exponent is swapped in the request, so the swap adds nothing to the reads
      simp [generateKeypairCmdBuf, hd, hkt, Run.andThen_of_ok (swapByteOrder_result ..),
        (within_swapByteOrder _ _ _).readsBelow]
      omega
    · simp [generateKeypairCmdBuf, hd, hkt]
      omega

theorem importKeypairCmdBuf_spec (m : Mem Block) (n : Nat) (hn : 8 ≤ n) :
    ((importKeypairCmdBuf.run m).result = .ok () ↔
        Command.Accepts m (opaqueSize m) .importKeypair) ∧
      (Log.ReadsBelow .cmdBuffer n (importKeypairCmdBuf.run m).log ↔
        Command.ReadsFit m (opaqueSize m) n .importKeypair) := by
  simp only [Command.Accepts, Command.ReadsFit]
  by_cases hd : m.word .cmdBuffer 4 < 16
  · simp [importKeypairCmdBuf, hd]
    omega
  · by_cases hpe : 4 < m.word .cmdBuffer 16
    · simp [importKeypairCmdBuf, hd, hpe]
      omega
    · by_cases hml : 256 < m.word .cmdBuffer 12
      · simp [importKeypairCmdBuf, hd, hpe, hml]
        omega
      · by_cases hpre : 256 < m.word .cmdBuffer 20
        · simp [importKeypairCmdBuf, hd, hpe, hml, hpre]
          omega
        · simp [importKeypairCmdBuf, hd, hpe, hml, hpre]
          omega

theorem getPublicKeypairCmdBuf_spec (m : Mem Block) (n : Nat) (hn : 8 ≤ n) :
    ((getPublicKeypairCmdBuf.run m).result = .ok () ↔
        Command.Accepts m (opaqueSize m) .getKeypairPublic) ∧
      (Log.ReadsBelow .cmdBuffer n (getPublicKeypairCmdBuf.run m).log ↔
        Command.ReadsFit m (opaqueSize m) n .getKeypairPublic) := by
  simp only [Command.Accepts, Command.ReadsFit]
  by_cases hd : m.word .cmdBuffer 4 < 4 + m.word .keyOpaqueSize 0
  · simp [getPublicKeypairCmdBuf, hd]
    omega
  · simp [getPublicKeypairCmdBuf, hd]
    omega

theorem signDataCmdBuf_spec (m : Mem Block) (n : Nat) (hn : 8 ≤ n) :
    ((signDataCmdBuf.run m).result = .ok () ↔ Command.Accepts m (opaqueSize m) .signData) ∧
      (Log.ReadsBelow .cmdBuffer n (signDataCmdBuf.run m).log ↔
        Command.ReadsFit m (opaqueSize m) n .signData) := by
  simp only [Command.Accepts, Command.ReadsFit]
  by_cases hd : m.word .cmdBuffer 4 < 8
  · simp [signDataCmdBuf, hd]
    omega
  · by_cases hdl : 256 < m.word .cmdBuffer 12
    · simp [signDataCmdBuf, hd, hdl]
      omega
    · by_cases hkb : m.word .keyOpaqueSize 0 < m.word .cmdBuffer 8
      · simp [signDataCmdBuf, hd, hdl, hkb]
        omega
      · simp [signDataCmdBuf, hd, hdl, hkb]
        omega

theorem verifyDataCmdBuf_spec (m : Mem Block) (n : Nat) (hn : 8 ≤ n) :
    ((verifyDataCmdBuf.run m).result = .ok () ↔ Command.Accepts m (opaqueSize m) .verifyData) ∧
      (Log.ReadsBelow .cmdBuffer n (verifyDataCmdBuf.run m).log ↔
        Command.ReadsFit m (opaqueSize m) n .verifyData) := by
  simp only [Command.Accepts, Command.ReadsFit]
  by_cases hd : m.word .cmdBuffer 4 < 12
  · simp [verifyDataCmdBuf, hd]
    omega
  · by_cases hdl : 256 < m.word .cmdBuffer 12
    · simp [verifyDataCmdBuf, hd, hdl]
      omega
    · by_cases hsl : 256 < m.word .cmdBuffer 16
      · simp [verifyDataCmdBuf, hd, hdl, hsl]
        omega
      · by_cases hkb : m.word .keyOpaqueSize 0 < m.word .cmdBuffer 8
        · simp [verifyDataCmdBuf, hd, hdl, hsl, hkb]
          omega
        · simp [verifyDataCmdBuf, hd, hdl, hsl, hkb]
          omega

/-- The five builders in one statement: which commands are accepted, and when the reads stay
inside a command of `n` bytes. -/
theorem Command.cmdBuf_spec (c : Command) (m : Mem Block) (n : Nat) (hn : 8 ≤ n) :
    ((c.cmdBuf.run m).result = .ok () ↔ c.Accepts m (opaqueSize m)) ∧
      (Log.ReadsBelow .cmdBuffer n (c.cmdBuf.run m).log ↔ c.ReadsFit m (opaqueSize m) n) := by
  cases c with
  | generateKeypair => exact generateKeypairCmdBuf_spec m n hn
  | importKeypair => exact importKeypairCmdBuf_spec m n hn
  | getKeypairPublic => exact getPublicKeypairCmdBuf_spec m n hn
  | signData => exact signDataCmdBuf_spec m n hn
  | verifyData => exact verifyDataCmdBuf_spec m n hn

/-! ## The whole translation -/

/-- The fields a builder looks at do not change while the request is written. -/
theorem Command.accepts_congr {m m' : Mem Block} (hcmd : m' .cmdBuffer = m .cmdBuffer)
    (keyOpaqueSize : Nat) (c : Command) :
    c.Accepts m' keyOpaqueSize ↔ c.Accepts m keyOpaqueSize := by
  cases c <;> simp only [Accepts, Mem.word, hcmd]

theorem Command.readsFit_congr {m m' : Mem Block} (hcmd : m' .cmdBuffer = m .cmdBuffer)
    (keyOpaqueSize n : Nat) (c : Command) :
    c.ReadsFit m' keyOpaqueSize n ↔ c.ReadsFit m keyOpaqueSize n := by
  cases c <;> simp only [ReadsFit, Mem.word, hcmd]

/-- The memory a builder starts from: the request cleared, with its class and id set. -/
def Command.requestStart (c : Command) (m : Mem Block) : Mem Block :=
  ((m.write .request 0 (c.fwRequestLen (opaqueSize m)) fun _ => 0).write .request
    ReqHeader.cmdClass 4 (byteAt cmdClassKeyMaster)).write .request ReqHeader.cmdId 4
      (byteAt c.fwId)

theorem Command.requestStart_other (c : Command) (m : Mem Block) {b : Block}
    (hb : b ≠ .request) : c.requestStart m b = m b := by
  simp only [requestStart, Mem.write_other _ _ _ _ hb]

theorem Command.opaqueSize_requestStart (c : Command) (m : Mem Block) :
    opaqueSize (c.requestStart m) = opaqueSize m := by
  simp [requestStart]

/-- A builder finds the command as it was, and accepts it or not. -/
theorem Command.accepts_requestStart (c : Command) (m : Mem Block) :
    c.Accepts (c.requestStart m) (opaqueSize (c.requestStart m)) ↔ c.Accepts m (opaqueSize m) := by
  rw [c.opaqueSize_requestStart m, accepts_congr (c.requestStart_other m (by decide))]

/-- A command id without a case is refused after the id has been read. -/
theorem translateCmd_unknown {m : Mem Block} (h : Command.ofHalId (m.word .cmdBuffer 0) = none)
    (mallocRequest : Bool) :
    (translateCmd mallocRequest).run m =
      ⟨.error .failure, m, [.read .cmdBuffer 0 4, .read .cmdBuffer 0 4]⟩ := by
  simp [translateCmd, generateCmdBuf, h, Run.prepend]

/-- Without memory for the request nothing but the id is read of the command. -/
theorem translateCmd_no_memory {m : Mem Block} {c : Command}
    (h : Command.ofHalId (m.word .cmdBuffer 0) = some c) :
    (translateCmd false).run m =
      ⟨.error .outOfMemory, m,
        [.read .cmdBuffer 0 4, .read .cmdBuffer 0 4, .read .keyOpaqueSize 0 4]⟩ := by
  simp [translateCmd, generateCmdBuf, h, Run.prepend]

/-- A known command id runs its builder on the cleared request. -/
theorem generateCmdBuf_known {m : Mem Block} {c : Command}
    (h : Command.ofHalId (m.word .cmdBuffer 0) = some c) :
    (generateCmdBuf true).run m =
      ((c.cmdBuf.run (c.requestStart m)).andThen fun _ m' =>
          ⟨.ok (c.fwRequestLen (opaqueSize m)), m', []⟩).prepend
        [.read .cmdBuffer 0 4, .read .keyOpaqueSize 0 4,
          .write .request 0 (c.fwRequestLen (opaqueSize m)), .write .request 0 4,
          .write .request 4 4] := by
  unfold generateCmdBuf
  rw [run_bind, run_load, Run.andThen_ok, h]
  simp only [run_bind, run_load, Run.andThen_ok, run_exitIf, run_memset, run_store,
    Bool.true_eq_false, if_false, Run.prepend_prepend, List.cons_append, List.nil_append]
  rfl

/-- A command that is accepted is then tested for its size. -/
theorem translateCmd_known {m : Mem Block} {c : Command}
    (h : Command.ofHalId (m.word .cmdBuffer 0) = some c) :
    ((translateCmd true).run m).result =
        ((c.cmdBuf.run (c.requestStart m)).result.bind fun _ =>
          if maxHeciMsgSize < c.fwRequestLen (opaqueSize m) then .error .cmdBufferTooBig
          else .ok (c.fwRequestLen (opaqueSize m))) ∧
      ((translateCmd true).run m).mem = (c.cmdBuf.run (c.requestStart m)).mem ∧
      ((translateCmd true).run m).log =
        [.read .cmdBuffer 0 4, .read .cmdBuffer 0 4, .read .keyOpaqueSize 0 4,
          .write .request 0 (c.fwRequestLen (opaqueSize m)), .write .request 0 4,
          .write .request 4 4] ++ (c.cmdBuf.run (c.requestStart m)).log := by
  simp only [translateCmd, run_bind, run_load, Run.andThen_ok, generateCmdBuf_known h]
  cases hres : (c.cmdBuf.run (c.requestStart m)).result with
  | error e =>
      rw [Run.andThen_of_error hres]
      exact ⟨rfl, rfl, rfl⟩
  | ok a =>
      rw [Run.andThen_of_ok hres]
      by_cases hbig : maxHeciMsgSize < c.fwRequestLen (opaqueSize m)
      · simp [Run.prepend, Except.bind, hbig]
      · simp [Run.prepend, Except.bind, hbig]

instance (m : Mem Block) (keyOpaqueSize : Nat) :
    (c : Command) → Decidable (c.Accepts m keyOpaqueSize)
  | .generateKeypair => inferInstanceAs (Decidable (_ ∧ _))
  | .importKeypair => inferInstanceAs (Decidable (_ ∧ _))
  | .getKeypairPublic => inferInstanceAs (Decidable (_ ≤ _))
  | .signData => inferInstanceAs (Decidable (_ ∧ _))
  | .verifyData => inferInstanceAs (Decidable (_ ∧ _))

/-- The command is translated: its builder accepts it and the request fits a firmware
message. -/
def Command.Translated (m : Mem Block) (keyOpaqueSize : Nat) (c : Command) : Prop :=
  c.Accepts m keyOpaqueSize ∧ c.fwRequestLen keyOpaqueSize ≤ maxHeciMsgSize

instance (m : Mem Block) (keyOpaqueSize : Nat) (c : Command) :
    Decidable (c.Translated m keyOpaqueSize) :=
  inferInstanceAs (Decidable (_ ∧ _))

/-- The command lies in a buffer of `n` bytes as far as its translation goes: a command that is
translated declares no more than the buffer holds, and a command that is refused holds what is
read until it is refused. -/
def Command.InBounds (m : Mem Block) (keyOpaqueSize n : Nat) (c : Command) : Prop :=
  (c.Translated m keyOpaqueSize → c.DeclaredFit m n) ∧
    (¬ c.Translated m keyOpaqueSize → c.ReadsFit m keyOpaqueSize n)

/-- A command that declares no more than `n` bytes is read inside `n` bytes once its builder
accepts it. -/
theorem Command.DeclaredFit.readsFit {m : Mem Block} {keyOpaqueSize n : Nat} {c : Command}
    (h : c.DeclaredFit m n) (ha : c.Accepts m keyOpaqueSize) : c.ReadsFit m keyOpaqueSize n := by
  cases c with
  | generateKeypair =>
      obtain ⟨hd, -⟩ := ha
      simp only [DeclaredFit] at h
      exact fun _ => ⟨by omega, fun _ => by omega⟩
  | importKeypair =>
      obtain ⟨hd, -⟩ := ha
      obtain ⟨hdata, hnested⟩ := h
      exact fun _ => ⟨by omega, fun _ _ => ⟨by omega, fun _ => hnested⟩⟩
  | getKeypairPublic =>
      simp only [Accepts] at ha
      obtain ⟨hdata, -⟩ := h
      exact fun _ => .inr (by omega)
  | signData =>
      obtain ⟨hd, -⟩ := ha
      obtain ⟨hdata, hnested⟩ := h
      exact fun _ => ⟨by omega, fun _ _ => hnested⟩
  | verifyData =>
      obtain ⟨hd, -⟩ := ha
      obtain ⟨hdata, hnested⟩ := h
      exact fun _ => ⟨by omega, fun _ => ⟨by omega, fun _ _ => hnested⟩⟩

/-- The end of the buffer as the command declares it, for any command id. -/
def declaredFit (m : Mem Block) (n : Nat) : Prop :=
  match Command.ofHalId (m.word .cmdBuffer FirmwareCmd.cmdId) with
  | some c => c.DeclaredFit m n
  | none => 8 + cmdDataLength m ≤ n

/-- Building the request of the command in `m`, a buffer of `n` bytes, reads nothing past the
buffer, and rejects the command when its lengths reach past the buffer. -/
def TranslatesInBounds (mallocRequest : Bool) (m : Mem Block) (n : Nat) : Prop :=
  Log.ReadsBelow .cmdBuffer n ((translateCmd mallocRequest).run m).log ∧
    (¬ declaredFit m n → ∃ e, ((translateCmd mallocRequest).run m).result = .error e)

/-- The translation of a known command reads inside `n` bytes exactly when its builder does. -/
theorem translateCmd_readsBelow {m : Mem Block} {c : Command} {n : Nat} (hn : 8 ≤ n)
    (h : Command.ofHalId (m.word .cmdBuffer 0) = some c) :
    Log.ReadsBelow .cmdBuffer n ((translateCmd true).run m).log ↔
      c.ReadsFit m (opaqueSize m) n := by
  have hcmd := c.requestStart_other m (b := .cmdBuffer) (by decide)
  rw [(translateCmd_known h).2.2, ← Command.readsFit_congr hcmd, ← c.opaqueSize_requestStart m,
    ← (c.cmdBuf_spec (c.requestStart m) n hn).2]
  simp
  omega

/-- The outcome of the translation of a known command: the length of the request when the
command is translated, and a failure otherwise. -/
theorem translateCmd_result {m : Mem Block} {c : Command}
    (h : Command.ofHalId (m.word .cmdBuffer 0) = some c) :
    (c.Translated m (opaqueSize m) →
        ((translateCmd true).run m).result = .ok (c.fwRequestLen (opaqueSize m))) ∧
      (¬ c.Translated m (opaqueSize m) → ∃ e, ((translateCmd true).run m).result = .error e) := by
  have hspec := (c.cmdBuf_spec (c.requestStart m) 8 (by decide)).1
  rw [c.accepts_requestStart m] at hspec
  rw [(translateCmd_known h).1, Command.Translated, ← hspec]
  cases hres : (c.cmdBuf.run (c.requestStart m)).result with
  | error e => simp [Except.bind]
  | ok a =>
      by_cases hbig : maxHeciMsgSize < c.fwRequestLen (opaqueSize m)
      · have hno : ¬ c.fwRequestLen (opaqueSize m) ≤ maxHeciMsgSize := by omega
        simp [Except.bind, hbig, hno]
      · have hle : c.fwRequestLen (opaqueSize m) ≤ maxHeciMsgSize := by omega
        simp [Except.bind, hbig, hle]

/-- Building a request stays inside the command buffer and rejects what reaches past it exactly
when no builder gets to run or the command lies in the buffer: `cmd_length` itself is never
compared with a declared length. -/
theorem translateCmd_in_bounds_iff (mallocRequest : Bool) (m : Mem Block) (cmdLength : Nat)
    (hlen : FirmwareCmd.size ≤ cmdLength) :
    TranslatesInBounds mallocRequest m cmdLength ↔
      ∀ c, Command.ofHalId (m.word .cmdBuffer FirmwareCmd.cmdId) = some c →
        mallocRequest = true → c.InBounds m (opaqueSize m) cmdLength := by
  unfold TranslatesInBounds declaredFit
  simp only [FirmwareCmd.size] at hlen
  cases hid : Command.ofHalId (m.word .cmdBuffer FirmwareCmd.cmdId) with
  | none =>
      rw [translateCmd_unknown hid]
      simp
      omega
  | some c =>
      cases mallocRequest with
      | false =>
          rw [translateCmd_no_memory hid]
          simp
          omega
      | true =>
          obtain ⟨hok, herr⟩ := translateCmd_result hid
          rw [translateCmd_readsBelow hlen hid]
          constructor
          · intro hboth d hd _
            obtain ⟨hreads, hrej⟩ := hboth
            cases hd
            refine ⟨fun ht => Classical.byContradiction fun hno => ?_, fun _ => hreads⟩
            obtain ⟨e, he⟩ := hrej hno
            cases (hok ht).symm.trans he
          · -- what a translated command declares covers what its builder reads
            intro hin
            obtain ⟨hacc, href⟩ := hin c rfl rfl
            by_cases ht : c.Translated m (opaqueSize m)
            · exact ⟨(hacc ht).readsFit ht.1, fun hno => absurd (hacc ht) hno⟩
            · exact ⟨href ht, fun _ => herr ht⟩

/-- A `KEYMASTER_CMD_GENERATE_KEYPAIR` command of 28 bytes: a 2048-bit RSA key with exponent
65537. -/
def keygenCommand : List UInt8 :=
  [1, 0, 0, 0, 20, 0, 0, 0, 1, 0, 0, 0, 0, 8, 0, 0, 0, 0, 0, 0, 1, 0, 1, 0, 0, 0, 0, 0]

/-- The command alone in memory, with `key_opaque_size` zero. -/
def keygenMem : Mem Block := .ofLists fun
  | .cmdBuffer => keygenCommand
  | _ => []

theorem translateCmd_in_bounds_keygen : TranslatesInBounds true keygenMem 28 := by
  refine (translateCmd_in_bounds_iff true keygenMem 28 (by decide)).mpr fun c hc _ => ?_
  obtain rfl : Command.generateKeypair = c := Option.some.inj hc
  refine ⟨fun _ => ?_, fun hno => absurd ⟨⟨?_, ?_⟩, ?_⟩ hno⟩
  · show 8 + cmdDataLength keygenMem ≤ 28
    decide
  · show 20 ≤ cmdDataLength keygenMem
    decide
  · show keygenKeyType keygenMem = keyTypeRsa
    decide
  · show Command.fwRequestLen (opaqueSize keygenMem) .generateKeypair ≤ maxHeciMsgSize
    decide

/-- Given with `cmd_length` 8, the same command is read up to offset 24. -/
theorem translateCmd_not_in_bounds_keygen : ¬ TranslatesInBounds true keygenMem 8 := by
  intro h
  have hfit := (translateCmd_readsBelow (c := .generateKeypair) (by decide) (by decide)).mp h.1
  have hd : 20 ≤ cmdDataLength keygenMem := by decide
  exact absurd (hfit hd).1 (by decide)

end Txei.Keymaster

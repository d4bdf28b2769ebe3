import Txei.Keymaster.CommandBounds
import Txei.Keymaster.SendCmd

/-!
# What a builder writes to the request

`generate_cmd_buf` allocates `fw_request_len` bytes, the size of a request structure plus
`key_opaque_size` reduced to 32 bits, and announces the bytes behind the header in `InputSize`.
`requestWrites_bounded_iff` says when everything it writes lies in the allocation, and
`requestFrame_announced_iff` when the announced size and the length that is sent agree.
-/

namespace Txei.Keymaster

open Machine Machine.Prog Mei

/-! ## The byte swap writes the bytes it swaps -/

/-- The event writes block `b` only from offset `o` on and below offset `n`. -/
def WritesRange (b : Block) (o n : Nat) (e : Event DeviceCall Block) : Prop :=
  ∀ i, e.Writes b i → o ≤ i ∧ i < n

theorem within_swapStep_range (b : Block) {o bufLen i : Nat} (hi : i < bufLen) :
    Within (WritesRange b o (o + bufLen)) (swapStep b o bufLen i) := by
  intro m e he j hj
  simp [swapStep] at he
  -- three of the nine accesses are stores, at the two ends of the round
  rcases he with rfl | rfl | rfl | rfl | rfl | rfl | rfl | rfl | rfl <;> simp at hj <;> omega

theorem within_swapRounds_range (b : Block) {o bufLen n : Nat} (hn : n ≤ bufLen) :
    Within (WritesRange b o (o + bufLen)) (swapRounds b o bufLen n) := by
  induction n with
  | zero => exact within_pure _
  | succ n ih => exact .bind (ih (by omega)) fun _ => within_swapStep_range b (by omega)

theorem within_swapByteOrder_range (b : Block) (o bufLen : Nat) :
    Within (WritesRange b o (o + bufLen)) (swapByteOrder b o bufLen) :=
  within_swapRounds_range b (Nat.div_le_self bufLen 2)

theorem swapByteOrder_writesBelow (b : Block) {o bufLen n : Nat} (hn : o + bufLen ≤ n)
    (m : Mem Block) : Log.WritesBelow b n ((swapByteOrder b o bufLen).run m).log := by
  intro e he i hi
  have hrange := within_swapByteOrder_range b o bufLen m e he i hi
  omega

/-- The event writes block `b` only from offset `o` on. -/
def WritesFrom (b : Block) (o : Nat) (e : Event DeviceCall Block) : Prop :=
  ∀ i, e.Writes b i → o ≤ i

@[simp] theorem writesFrom_read (b b' : Block) (o o' n : Nat) :
    WritesFrom b o (.read b' o' n) := fun _ hw => hw.elim

@[simp] theorem writesFrom_write (b : Block) (o o' n : Nat) :
    WritesFrom b o (.write b o' n) ↔ n = 0 ∨ o ≤ o' := by
  constructor
  · intro h
    by_cases hn : n = 0
    · exact .inl hn
    · exact .inr (h o' ⟨rfl, le_rfl, by omega⟩)
  · intro h i hw
    obtain ⟨-, hle, hlt⟩ := hw
    omega

/-- A word in front of what is written stays. -/
theorem word_before {α : Type} {x : Proc α} {b : Block} {o o' : Nat}
    (h : Within (WritesFrom b o) x) (ho : o' + 4 ≤ o) (m : Mem Block) :
    (x.run m).mem.word b o' = m.word b o' := by
  refine word_congr fun i hi => x.frame m b (o' + i) fun e he hw => ?_
  have hfrom := h m e he (o' + i) hw
  omega

theorem swapByteOrder_writesFrom (b : Block) (o bufLen : Nat) :
    Within (WritesFrom b o) (swapByteOrder b o bufLen) :=
  (within_swapByteOrder_range b o bufLen).mono fun _ he i hw => (he i hw).1

theorem swapByteOrder_word_before (b : Block) {o bufLen o' : Nat} (ho : o' + 4 ≤ o)
    (m : Mem Block) : ((swapByteOrder b o bufLen).run m).mem.word b o' = m.word b o' :=
  word_before (swapByteOrder_writesFrom b o bufLen) ho m

/-! ## Sizes of a request -/

section Fields

variable (m : Mem Block) (keyOpaqueSize : Nat)

/-- The size of the request of a command as an integer: `fw_request_len` is this size reduced to
32 bits. -/
def Command.requestSize : Command → Nat
  | generateKeypair => GenKeyRequest.size + keyOpaqueSize
  | importKeypair => ImportKeyRequest.size
  | getKeypairPublic => GetPublicKeyRequest.size + keyOpaqueSize
  | signData => SignDataRequest.size + keyOpaqueSize
  | verifyData => VerifyDataRequest.size + keyOpaqueSize

/-- The `InputSize` that the builder of an accepted command announces. -/
def Command.inputSize : Command → Nat
  | generateKeypair => GenKeyRequest.size - ReqHeader.size
  | importKeypair => ImportKeyRequest.size - ReqHeader.size
  | getKeypairPublic => keyOpaqueSize
  | signData => SignDataRequest.size + keyOpaqueSize - ReqHeader.size
  | verifyData => VerifyDataRequest.size + keyOpaqueSize - ReqHeader.size

/-- The bytes the builder writes lie in a request of `n` bytes, as a condition on the command's
fields: the fields stored up to the test that refuses the command, and for an accepted command
everything that is copied. -/
def Command.WritesFit (n : Nat) : Command → Prop
  | generateKeypair => 20 ≤ cmdDataLength m ∧ keygenKeyType m = keyTypeRsa → 20 ≤ n
  | importKeypair =>
      16 ≤ cmdDataLength m ∧ publicExponentLength m ≤ publicExponentMaxSize ∧
          modulusLength m ≤ maxKeySize ∧ privateExponentLength m ≤ maxKeySize →
        20 + modulusLength m ≤ n ∧
          (privateExponentLength m = 0 ∨ 276 + privateExponentLength m ≤ n)
  | getKeypairPublic => 4 + keyOpaqueSize ≤ cmdDataLength m → 12 + keyOpaqueSize ≤ n
  | signData =>
      8 ≤ cmdDataLength m → 16 ≤ n ∧
        (dataLength m ≤ maxKeySize → keyBlobLength m ≤ keyOpaqueSize →
          16 + dataLength m ≤ n ∧ (keyBlobLength m = 0 ∨ 272 + keyBlobLength m ≤ n))
  | verifyData =>
      12 ≤ cmdDataLength m → 16 ≤ n ∧
        (dataLength m ≤ maxKeySize → 276 ≤ n ∧
          (signatureLength m ≤ maxKeySize → keyBlobLength m ≤ keyOpaqueSize →
            276 + signatureLength m ≤ n ∧
              (keyBlobLength m = 0 ∨ 532 + keyBlobLength m ≤ n)))

end Fields

theorem Command.fwRequestLen_eq_wrap32 (c : Command) (keyOpaqueSize : Nat) :
    c.fwRequestLen keyOpaqueSize = wrap32 (c.requestSize keyOpaqueSize) := by
  cases c <;> rfl

/-- The allocated length is the size of the request as long as the sum does not wrap. -/
theorem Command.fwRequestLen_eq {c : Command} {keyOpaqueSize : Nat}
    (h : c.requestSize keyOpaqueSize < 2 ^ 32) :
    c.fwRequestLen keyOpaqueSize = c.requestSize keyOpaqueSize := by
  rw [c.fwRequestLen_eq_wrap32, wrap32_of_lt h]

/-- What a builder writes fits a request whose size has not wrapped. -/
theorem Command.writesFit_requestSize (c : Command) (m : Mem Block) (keyOpaqueSize : Nat) :
    c.WritesFit m keyOpaqueSize (c.requestSize keyOpaqueSize) := by
  cases c with
  | generateKeypair => exact fun _ => Nat.le_add_right 20 keyOpaqueSize
  | importKeypair =>
      intro haccepts
      obtain ⟨-, -, hmodulus, hprivate⟩ := haccepts
      simp only [requestSize, ImportKeyRequest.size, maxKeySize] at hmodulus hprivate ⊢
      omega
  | getKeypairPublic => exact fun _ => Nat.le_refl _
  | signData =>
      refine fun _ => ⟨?_, fun hdata hblob => ?_⟩
      · simp only [requestSize, SignDataRequest.size]
        omega
      · simp only [requestSize, SignDataRequest.size, maxKeySize] at hdata ⊢
        omega
  | verifyData =>
      refine fun _ => ⟨?_, fun hdata => ⟨?_, fun hsignature hblob => ?_⟩⟩
      · simp only [requestSize, VerifyDataRequest.size]
        omega
      · simp only [requestSize, VerifyDataRequest.size]
        omega
      · simp only [requestSize, VerifyDataRequest.size, maxKeySize] at hsignature ⊢
        omega

/-! ## One lemma for each builder -/

/-- What a builder does to the request of `n` bytes: where it writes, and the header an accepted
command leaves. -/
structure RequestSpec (m : Mem Block) (n : Nat) (c : Command)
    (r : Run DeviceCall Block Failure Unit) : Prop where
  writes : Log.WritesBelow .request n r.log ↔ c.WritesFit m (opaqueSize m) n
  cmdId : r.mem.word .request ReqHeader.cmdId = m.word .request ReqHeader.cmdId
  inputSize : r.result = .ok () →
    r.mem.word .request ReqHeader.inputSize = wrap32 (c.inputSize (opaqueSize m))

theorem generateKeypairCmdBuf_request (m : Mem Block) (n : Nat) :
    RequestSpec m n .generateKeypair (generateKeypairCmdBuf.run m) := by
  have hfrom : Within (WritesFrom .request 8) generateKeypairCmdBuf := by
    unfold generateKeypairCmdBuf
    refine .bind (by simp) fun _ => .bind (within_exitIf _ _) fun _ => ?_
    refine .bind (by simp) fun _ => .bind (within_exitIf _ _) fun _ => ?_
    refine .bind (by simp) fun _ => .bind (by simp) fun _ => .bind (by simp) fun _ => ?_
    have hswap := swapByteOrder_writesFrom .request GenKeyRequest.publicExponent
      publicExponentMaxSize
    exact .bind (hswap.mono fun _ he i hw => Nat.le_trans (by decide) (he i hw)) fun _ => by simp
  refine ⟨?_, word_before hfrom (by decide) m, fun hok => ?_⟩
  · by_cases hd : m.word .cmdBuffer 4 < 20
    · have hle := Nat.not_le_of_lt hd
      simp [generateKeypairCmdBuf, Command.WritesFit, hd, hle]
    · by_cases hkt : m.word .cmdBuffer 8 = 1
      · -- the exponent is swapped in place, in front of the last store
        simp [generateKeypairCmdBuf, Command.WritesFit, hd, hkt,
          Run.andThen_of_ok (swapByteOrder_result ..)]
        constructor
        · intro hwrites _
          exact hwrites.2.1
        · intro hfit
          have hn : 20 ≤ n := hfit (by omega)
          exact ⟨by omega, hn, swapByteOrder_writesBelow _ hn _, by omega⟩
      · simp [generateKeypairCmdBuf, Command.WritesFit, hd, hkt]
  · obtain ⟨hd, hkt⟩ := (generateKeypairCmdBuf_spec m 8 le_rfl).1.mp hok
    have hd' : ¬ m.word .cmdBuffer 4 < 20 := Nat.not_lt.mpr hd
    have hkt' : m.word .cmdBuffer 8 = 1 := hkt
    simp [generateKeypairCmdBuf, hd', hkt', Run.andThen_of_ok (swapByteOrder_result ..),
      Command.inputSize]

/-- The lengths of an import command are tested before anything is written. -/
theorem importKeypairCmdBuf_refused {m : Mem Block}
    (h : ¬ Command.Accepts m (opaqueSize m) .importKeypair) :
    (importKeypairCmdBuf.run m).result = .error .badParameter ∧
      (importKeypairCmdBuf.run m).mem = m ∧
      Log.WritesBelow .request 0 (importKeypairCmdBuf.run m).log := by
  by_cases hd : m.word .cmdBuffer 4 < 16
  · simp [importKeypairCmdBuf, hd]
  · by_cases hpe : 4 < m.word .cmdBuffer 16
    · simp [importKeypairCmdBuf, hd, hpe]
    · by_cases hml : 256 < m.word .cmdBuffer 12
      · simp [importKeypairCmdBuf, hd, hpe, hml]
      · have hpre : 256 < m.word .cmdBuffer 20 := by
          by_contra hpre
          exact h ⟨Nat.le_of_not_lt hd, Nat.le_of_not_lt hpe, Nat.le_of_not_lt hml,
            Nat.le_of_not_lt hpre⟩
        simp [importKeypairCmdBuf, hd, hpe, hml, hpre]

theorem importKeypairCmdBuf_request (m : Mem Block) (n : Nat) :
    RequestSpec m n .importKeypair (importKeypairCmdBuf.run m) := by
  by_cases ha : Command.Accepts m (opaqueSize m) .importKeypair
  · obtain ⟨hd, hpe, hml, hpre⟩ := ha
    have hd' : ¬ m.word .cmdBuffer 4 < 16 := Nat.not_lt.mpr hd
    have hpe' : ¬ 4 < m.word .cmdBuffer 16 := Nat.not_lt.mpr hpe
    have hml' : ¬ 256 < m.word .cmdBuffer 12 := Nat.not_lt.mpr hml
    have hpre' : ¬ 256 < m.word .cmdBuffer 20 := Nat.not_lt.mpr hpre
    refine ⟨?_, ?_, fun _ => ?_⟩
    · simp [importKeypairCmdBuf, Command.WritesFit, hd', hpe', hml', hpre']
      omega
    · simp [importKeypairCmdBuf, hd', hpe', hml', hpre']
      iterate 6 rw [Mem.word_write_apart _ _ _ _ _ _ (by omega)]
    · simp [importKeypairCmdBuf, Command.inputSize, hd', hpe', hml', hpre']
  · obtain ⟨hres, hmem, hwrites⟩ := importKeypairCmdBuf_refused ha
    refine ⟨iff_of_true ?_ fun hyes => absurd hyes ha, by rw [hmem], fun hok => ?_⟩
    · exact fun e he i hw => absurd (hwrites e he i hw) (Nat.not_lt_zero i)
    · rw [hres] at hok
      cases hok

theorem getPublicKeypairCmdBuf_request (m : Mem Block) (n : Nat) :
    RequestSpec m n .getKeypairPublic (getPublicKeypairCmdBuf.run m) := by
  have hfrom : Within (WritesFrom .request 8) getPublicKeypairCmdBuf := by
    unfold getPublicKeypairCmdBuf
    repeat' refine .bind ?_ fun _ => ?_
    all_goals simp
  refine ⟨?_, word_before hfrom (by decide) m, fun hok => ?_⟩
  · by_cases hd : m.word .cmdBuffer 4 < 4 + m.word .keyOpaqueSize 0
    · have hle := Nat.not_le_of_lt hd
      simp [getPublicKeypairCmdBuf, Command.WritesFit, hd, hle]
    · simp [getPublicKeypairCmdBuf, Command.WritesFit, hd]
      omega
  · have hd := (getPublicKeypairCmdBuf_spec m 8 le_rfl).1.mp hok
    have hd' : ¬ m.word .cmdBuffer 4 < 4 + m.word .keyOpaqueSize 0 := Nat.not_lt.mpr hd
    simp [getPublicKeypairCmdBuf, Command.inputSize, hd']

theorem signDataCmdBuf_request (m : Mem Block) (n : Nat) :
    RequestSpec m n .signData (signDataCmdBuf.run m) := by
  have hfrom : Within (WritesFrom .request 8) signDataCmdBuf := by
    unfold signDataCmdBuf
    repeat' refine .bind ?_ fun _ => ?_
    all_goals simp
  refine ⟨?_, word_before hfrom (by decide) m, fun hok => ?_⟩
  · by_cases hd : m.word .cmdBuffer 4 < 8
    · have hle := Nat.not_le_of_lt hd
      simp [signDataCmdBuf, Command.WritesFit, hd, hle]
    · by_cases hdl : 256 < m.word .cmdBuffer 12
      · simp [signDataCmdBuf, Command.WritesFit, hd, hdl]
        omega
      · by_cases hkb : m.word .keyOpaqueSize 0 < m.word .cmdBuffer 8
        · simp [signDataCmdBuf, Command.WritesFit, hd, hdl, hkb]
          omega
        · simp [signDataCmdBuf, Command.WritesFit, hd, hdl, hkb]
          omega
  · obtain ⟨hd, hdl, hkb⟩ := (signDataCmdBuf_spec m 8 le_rfl).1.mp hok
    have hd' : ¬ m.word .cmdBuffer 4 < 8 := Nat.not_lt.mpr hd
    have hdl' : ¬ 256 < m.word .cmdBuffer 12 := Nat.not_lt.mpr hdl
    have hkb' : ¬ m.word .keyOpaqueSize 0 < m.word .cmdBuffer 8 := Nat.not_lt.mpr hkb
    simp [signDataCmdBuf, Command.inputSize, hd', hdl', hkb']

theorem verifyDataCmdBuf_request (m : Mem Block) (n : Nat) :
    RequestSpec m n .verifyData (verifyDataCmdBuf.run m) := by
  have hfrom : Within (WritesFrom .request 8) verifyDataCmdBuf := by
    unfold verifyDataCmdBuf
    repeat' refine .bind ?_ fun _ => ?_
    all_goals simp
  refine ⟨?_, word_before hfrom (by decide) m, fun hok => ?_⟩
  · by_cases hd : m.word .cmdBuffer 4 < 12
    · have hle := Nat.not_le_of_lt hd
      simp [verifyDataCmdBuf, Command.WritesFit, hd, hle]
    · by_cases hdl : 256 < m.word .cmdBuffer 12
      · simp [verifyDataCmdBuf, Command.WritesFit, hd, hdl]
        omega
      · by_cases hsl : 256 < m.word .cmdBuffer 16
        · simp [verifyDataCmdBuf, Command.WritesFit, hd, hdl, hsl]
          omega
        · by_cases hkb : m.word .keyOpaqueSize 0 < m.word .cmdBuffer 8
          · simp [verifyDataCmdBuf, Command.WritesFit, hd, hdl, hsl, hkb]
            omega
          · simp [verifyDataCmdBuf, Command.WritesFit, hd, hdl, hsl, hkb]
            omega
  · obtain ⟨hd, hdl, hsl, hkb⟩ := (verifyDataCmdBuf_spec m 8 le_rfl).1.mp hok
    have hd' : ¬ m.word .cmdBuffer 4 < 12 := Nat.not_lt.mpr hd
    have hdl' : ¬ 256 < m.word .cmdBuffer 12 := Nat.not_lt.mpr hdl
    have hsl' : ¬ 256 < m.word .cmdBuffer 16 := Nat.not_lt.mpr hsl
    have hkb' : ¬ m.word .keyOpaqueSize 0 < m.word .cmdBuffer 8 := Nat.not_lt.mpr hkb
    simp [verifyDataCmdBuf, Command.inputSize, hd', hdl', hsl', hkb']

/-- The five builders in one statement. -/
theorem Command.cmdBuf_request (c : Command) (m : Mem Block) (n : Nat) :
    RequestSpec m n c (c.cmdBuf.run m) := by
  cases c with
  | generateKeypair => exact generateKeypairCmdBuf_request m n
  | importKeypair => exact importKeypairCmdBuf_request m n
  | getKeypairPublic => exact getPublicKeypairCmdBuf_request m n
  | signData => exact signDataCmdBuf_request m n
  | verifyData => exact verifyDataCmdBuf_request m n

/-! ## The allocation -/

/-- Everything that `generate_cmd_buf` writes to the request of a supported command lies in the
`fw_request_len` bytes it allocated. -/
def RequestWritesBounded (mallocRequest : Bool) (m : Mem Block) : Prop :=
  ∀ c, Command.ofHalId (m.word .cmdBuffer FirmwareCmd.cmdId) = some c →
    Log.WritesBelow .request (c.fwRequestLen (opaqueSize m))
      ((generateCmdBuf mallocRequest).run m).log

/-- The allocated length holds the first two fields of the header, which every request gets, and
what the builder writes. -/
def Command.Covered (m : Mem Block) (keyOpaqueSize : Nat) (c : Command) : Prop :=
  8 ≤ c.fwRequestLen keyOpaqueSize ∧ c.WritesFit m keyOpaqueSize (c.fwRequestLen keyOpaqueSize)

/-- A size that does not wrap covers everything. -/
theorem Command.covered_of_lt {c : Command} {keyOpaqueSize : Nat} (m : Mem Block)
    (h : c.requestSize keyOpaqueSize < 2 ^ 32) : c.Covered m keyOpaqueSize := by
  unfold Covered
  rw [fwRequestLen_eq h]
  refine ⟨?_, c.writesFit_requestSize m keyOpaqueSize⟩
  cases c <;> simp only [requestSize, GenKeyRequest.size, ImportKeyRequest.size,
    GetPublicKeyRequest.size, SignDataRequest.size, VerifyDataRequest.size] <;> omega

theorem Command.writesFit_congr {m m' : Mem Block} (hcmd : m' .cmdBuffer = m .cmdBuffer)
    (keyOpaqueSize n : Nat) (c : Command) :
    c.WritesFit m' keyOpaqueSize n ↔ c.WritesFit m keyOpaqueSize n := by
  cases c <;> simp only [WritesFit, Mem.word, hcmd]

/-- Everything written to a request lies in its allocation exactly when there is none, or the size
of the request does not wrap, or it wraps to a length that still covers the fields stored before
the command is refused and the data copied for an accepted one. -/
theorem requestWrites_bounded_iff (mallocRequest : Bool) (m : Mem Block) :
    RequestWritesBounded mallocRequest m ↔
      ∀ c, Command.ofHalId (m.word .cmdBuffer FirmwareCmd.cmdId) = some c →
        mallocRequest = true →
        c.requestSize (opaqueSize m) < 2 ^ 32 ∨ c.Covered m (opaqueSize m) := by
  unfold RequestWritesBounded
  refine forall_congr' fun c => forall_congr' fun hid => ?_
  cases mallocRequest with
  | false => simp [generateCmdBuf, hid]
  | true =>
      have hcmd := c.requestStart_other m (b := .cmdBuffer) (by decide)
      have hspec := (c.cmdBuf_request (c.requestStart m) (c.fwRequestLen (opaqueSize m))).writes
      rw [c.opaqueSize_requestStart m, Command.writesFit_congr hcmd] at hspec
      rw [generateCmdBuf_known hid, Run.prepend_log, Log.writesBelow_append,
        Run.andThen_pure_log, hspec]
      constructor
      · intro hwrites _
        obtain ⟨hhead, hfit⟩ := hwrites
        have h8 : 8 ≤ c.fwRequestLen (opaqueSize m) := by
          simp at hhead ⊢
          omega
        exact .inr ⟨h8, hfit⟩
      · intro hcond
        have hcovered : c.Covered m (opaqueSize m) :=
          (hcond rfl).elim (Command.covered_of_lt m) id
        obtain ⟨h8, hfit⟩ := hcovered
        refine ⟨?_, hfit⟩
        simp at h8 ⊢
        omega

/-- A capabilities reply with one RSA entry, whose `KeyOpaqueSize` is `size` in little-endian
bytes. -/
def capsReply (size : List UInt8) : List UInt8 :=
  List.replicate 24 0 ++ [1, 0, 0, 0] ++ List.replicate 12 0 ++ size

/-- The memory of a key generation command after the capabilities reply `capsReply size`. -/
def keygenMemAfterCaps (size : List UInt8) : Mem Block :=
  ((getCaps true (answering 12 (capsReply size))).run keygenMem).mem

/-- A `KeyOpaqueSize` of `2 ^ 32 - 16` makes a key generation allocate 4 bytes, and the header is
stored behind them. -/
theorem requestWrites_not_bounded :
    opaqueSize (keygenMemAfterCaps [240, 255, 255, 255]) = 2 ^ 32 - 16 ∧
      ¬ RequestWritesBounded true (keygenMemAfterCaps [240, 255, 255, 255]) := by
  have hsize : opaqueSize (keygenMemAfterCaps [240, 255, 255, 255]) = 2 ^ 32 - 16 := by decide
  have hid : Command.ofHalId ((keygenMemAfterCaps [240, 255, 255, 255]).word .cmdBuffer
      FirmwareCmd.cmdId) = some .generateKeypair := by decide
  refine ⟨hsize, fun h => ?_⟩
  have hbelow := h .generateKeypair hid
  rw [generateCmdBuf_known hid, hsize] at hbelow
  have hlt := hbelow (.write .request 4 4) (by simp) 4 ⟨rfl, by decide, by decide⟩
  exact absurd hlt (by decide)

/-! ## The announced size -/

/-- The length of a request that is built without a wrap is that of the header plus the
`InputSize` in it. -/
def FrameAnnounced (mallocRequest : Bool) (m : Mem Block) : Prop :=
  ∀ c n, Command.ofHalId (m.word .cmdBuffer FirmwareCmd.cmdId) = some c →
    c.requestSize (opaqueSize m) < 2 ^ 32 →
    ((generateCmdBuf mallocRequest).run m).result = .ok n →
    n = ReqHeader.size +
      ((generateCmdBuf mallocRequest).run m).mem.word .request ReqHeader.inputSize

/-- A request is built exactly for an accepted command, when the allocation succeeds. Its length
is `fw_request_len`, and its header holds the id and the size the builder announces. -/
theorem generateCmdBuf_ok_iff {m : Mem Block} {c : Command}
    (hid : Command.ofHalId (m.word .cmdBuffer FirmwareCmd.cmdId) = some c) (n : Nat) :
    ((generateCmdBuf true).run m).result = .ok n ↔
      c.Accepts m (opaqueSize m) ∧ n = c.fwRequestLen (opaqueSize m) := by
  have hspec := (c.cmdBuf_spec (c.requestStart m) 8 (by decide)).1
  rw [c.accepts_requestStart m] at hspec
  rw [generateCmdBuf_known hid, Run.prepend_result, ← hspec]
  cases hres : (c.cmdBuf.run (c.requestStart m)).result with
  | error e =>
      rw [Run.andThen_of_error hres]
      simp
  | ok u =>
      rw [Run.andThen_of_ok hres]
      simp [eq_comm]

theorem generateCmdBuf_inputSize {m : Mem Block} {c : Command}
    (hid : Command.ofHalId (m.word .cmdBuffer FirmwareCmd.cmdId) = some c)
    (ha : c.Accepts m (opaqueSize m)) :
    ((generateCmdBuf true).run m).mem.word .request ReqHeader.inputSize =
      wrap32 (c.inputSize (opaqueSize m)) := by
  have hspec := (c.cmdBuf_spec (c.requestStart m) 8 (by decide)).1
  rw [c.accepts_requestStart m] at hspec
  rw [generateCmdBuf_known hid, Run.prepend_mem, Run.andThen_pure_mem,
    (c.cmdBuf_request (c.requestStart m) 0).inputSize (hspec.mpr ha), c.opaqueSize_requestStart m]

/-- Four of the layouts announce the size of the request behind the header. A key generation
announces its fixed part only. -/
theorem Command.inputSize_frame (c : Command) (keyOpaqueSize : Nat) :
    c.requestSize keyOpaqueSize = ReqHeader.size + c.inputSize keyOpaqueSize ↔
      (c = .generateKeypair → keyOpaqueSize = 0) := by
  cases c <;> simp [requestSize, inputSize] <;> omega

theorem Command.inputSize_lt {c : Command} {keyOpaqueSize : Nat}
    (h : c.requestSize keyOpaqueSize < 2 ^ 32) : c.inputSize keyOpaqueSize < 2 ^ 32 := by
  cases c <;> simp [requestSize, inputSize] at h ⊢ <;> omega

/-- The length that is sent is the one the header announces exactly when an accepted key
generation, whose `fw_request_len` does not wrap, comes with a `key_opaque_size` of 0: its request
is allocated and sent with the tail that the builder of this one command does not announce. -/
theorem requestFrame_announced_iff (mallocRequest : Bool) (m : Mem Block) :
    FrameAnnounced mallocRequest m ↔
      (Command.ofHalId (m.word .cmdBuffer FirmwareCmd.cmdId) = some .generateKeypair →
        mallocRequest = true → Command.Accepts m (opaqueSize m) .generateKeypair →
        Command.requestSize (opaqueSize m) .generateKeypair < 2 ^ 32 → opaqueSize m = 0) := by
  unfold FrameAnnounced
  cases mallocRequest with
  | false =>
      refine ⟨fun _ _ hmalloc => (Bool.false_ne_true hmalloc).elim, fun _ c n hid _ hok => ?_⟩
      simp [generateCmdBuf, hid] at hok
  | true =>
      constructor
      · intro hframe hid _ ha hwrap
        have hok := (generateCmdBuf_ok_iff hid _).mpr ⟨ha, rfl⟩
        have hlen := hframe .generateKeypair _ hid hwrap hok
        rw [generateCmdBuf_inputSize hid ha, Command.fwRequestLen_eq hwrap,
          wrap32_of_lt (Command.inputSize_lt hwrap)] at hlen
        exact (Command.inputSize_frame .generateKeypair _).mp hlen rfl
      · intro hzero c n hid hwrap hok
        obtain ⟨ha, rfl⟩ := (generateCmdBuf_ok_iff hid n).mp hok
        rw [generateCmdBuf_inputSize hid ha, Command.fwRequestLen_eq hwrap,
          wrap32_of_lt (Command.inputSize_lt hwrap)]
        refine (c.inputSize_frame _).mpr fun hc => ?_
        subst hc
        exact hzero hid rfl ha hwrap

/-- After a capabilities reply with a `KeyOpaqueSize` of 4, the request of a key generation is sent
with 24 bytes, and its header announces 8 behind its own 12. -/
theorem requestFrame_not_announced :
    ((generateCmdBuf true).run (keygenMemAfterCaps [4, 0, 0, 0])).result = .ok 24 ∧
      ((generateCmdBuf true).run (keygenMemAfterCaps [4, 0, 0, 0])).mem.word .request
        ReqHeader.inputSize = 8 ∧
      ¬ FrameAnnounced true (keygenMemAfterCaps [4, 0, 0, 0]) := by
  have hlen : ((generateCmdBuf true).run (keygenMemAfterCaps [4, 0, 0, 0])).result = .ok 24 := by
    decide
  have hinput : ((generateCmdBuf true).run (keygenMemAfterCaps [4, 0, 0, 0])).mem.word .request
      ReqHeader.inputSize = 8 := by decide
  refine ⟨hlen, hinput, fun h => ?_⟩
  have hframe := h .generateKeypair 24 (by decide) (by decide) hlen
  rw [hinput] at hframe
  exact absurd hframe (by decide)

end Txei.Keymaster

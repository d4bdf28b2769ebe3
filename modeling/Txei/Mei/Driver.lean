import Txei.Machine.Program

/-!
# The MEI driver library

`mei_connect`, `mei_disconnect`, `mei_sndmsg`, `mei_rcvmsg` and `mei_snd_rcv` of `txei_drv.c`,
which `Lib/txei_lib.c` repeats for the tools. Everything the operating system decides during one
exchange is data of an `Exchange`; the functions themselves are programs over the caller's
memory. Handles and buffers are never null here: every caller tests them first. The platform is
the 64-bit build, where `ssize_t` holds every `uint32_t`.

`Exchange.delivers` says which reply bytes an exchange leaves behind when the library reports no
failure, and `run_meiSndRcv` proves it of the code.
-/

namespace Txei.Mei

open Machine Machine.Prog

/-- The system calls that acquire and release the device descriptor. -/
inductive DeviceCall where
  | opened (fd : Int)
  | closed (fd : Int)
  deriving DecidableEq, Repr

/-- What the operating system answers while `mei_connect` runs: whether `calloc` succeeds, the
results of `open` and of `ioctl`. -/
structure Connect where
  calloc : Bool
  openFd : Int
  ioctl : Int
  deriving DecidableEq, Repr

/-- What the operating system answers during one connection that sends one message and receives
one. `write` and `read` are `none` when the call fails; otherwise they hold the number of bytes
accepted and the bytes available, both still subject to the size the caller passes. `isSet` is
`FD_ISSET` after `select`. -/
structure Exchange where
  connect : Connect
  write : Option Nat
  selectRv : Int
  isSet : Bool
  read : Option (List UInt8)
  deriving DecidableEq, Repr

/-- An exchange in which the device accepts up to `written` bytes and answers `bytes`. -/
def answering (written : Nat) (bytes : List UInt8) : Exchange where
  connect := { calloc := true, openFd := 3, ioctl := 0 }
  write := some written
  selectRv := 1
  isSet := true
  read := some bytes

variable {β ε : Type}

/-- `mei_connect`. A handle is its descriptor. -/
def meiConnect (c : Connect) : Prog DeviceCall β ε (Option Int) :=
  if c.calloc then
    if c.openFd = -1 then pure none
    else do
      call (.opened c.openFd)
      if c.ioctl ≠ 0 then do
        call (.closed c.openFd)
        pure none
      else pure (some c.openFd)
  else pure none

/-- `mei_disconnect`. -/
def meiDisconnect (fd : Int) : Prog DeviceCall β ε Unit := call (.closed fd)

/-- The `int` that receives the result of `write` on `n` bytes. -/
def Exchange.writeRv (x : Exchange) (n : Nat) : Int :=
  match x.write with
  | none => -1
  | some k => int32 (min k n)

/-- The bytes that a successful `read` of at most `n` bytes returns. -/
def readBytes (bytes : List UInt8) (n : Nat) : List UInt8 := bytes.take n

/-- `mei_sndmsg`. -/
def meiSndmsg (x : Exchange) (fd : Int) (buf : β) (mySize : Nat) : Prog DeviceCall β ε Int :=
  if fd ≤ 0 then pure (-1)
  else do
    expose buf mySize
    if x.writeRv mySize < 0 then pure (-1)
    else if 0 < x.selectRv ∧ x.isSet then pure (x.writeRv mySize)
    else pure (-1)

variable [DecidableEq β]

/-- `mei_rcvmsg`. -/
def meiRcvmsg (x : Exchange) (fd : Int) (buf : β) (mySize : Nat) : Prog DeviceCall β ε Int :=
  if fd ≤ 0 then pure (-1)
  else
    match x.read with
    | none => pure (-1)
    | some bytes => do
        fill buf (readBytes bytes mySize)
        if int32 (readBytes bytes mySize).length < 0 then pure (-1)
        else pure (int32 (readBytes bytes mySize).length)

/-- `mei_snd_rcv`. The second test of the receive status repeats the first, as the source
does. -/
def meiSndRcv (x : Exchange) (fd : Int) (sndBuf : β) (sndSize : Nat) (rcvBuf : β)
    (rcvSize : Nat) : Prog DeviceCall β ε Int := do
  let status ← meiSndmsg x fd sndBuf sndSize
  if status ≤ 0 then pure status
  else if status ≠ sndSize then pure (-1)
  else do
    let status ← meiRcvmsg x fd rcvBuf rcvSize
    if status ≤ 0 ∨ status ≠ rcvSize then pure status
    else if status ≤ 0 ∨ status ≠ rcvSize then pure (-1)
    else pure 0

/-! ## What an exchange amounts to -/

/-- `mei_connect` returns a handle. -/
def Connect.Succeeds (c : Connect) : Prop := c.calloc = true ∧ c.openFd ≠ -1 ∧ c.ioctl = 0

instance (c : Connect) : Decidable c.Succeeds := inferInstanceAs (Decidable (_ ∧ _))

/-- The number of request bytes the device accepts out of `n`. -/
def Exchange.written (x : Exchange) (n : Nat) : Nat :=
  match x.write with
  | none => 0
  | some k => min k n

/-- `mei_sndmsg` reports no failure: the descriptor is usable, the write returned a count and the
descriptor became ready. -/
def Exchange.Sends (x : Exchange) (n : Nat) : Prop :=
  0 < x.connect.openFd ∧ 0 ≤ x.writeRv n ∧ 0 < x.selectRv ∧ x.isSet = true

instance (x : Exchange) (n : Nat) : Decidable (x.Sends n) := inferInstanceAs (Decidable (_ ∧ _))

/-- The bytes left in the receive buffer by an exchange of `n` request bytes and a receive buffer
of `k` bytes that the library does not report as failed. Nothing is read when the device accepts
no byte of the request, and the library does not call that a failure. -/
def Exchange.delivers (x : Exchange) (n k : Nat) : Option (List UInt8) :=
  if x.Sends n then
    if x.writeRv n = 0 then some []
    else if x.writeRv n = n then
      match x.read with
      | none => none
      | some bytes =>
          if int32 (readBytes bytes k).length < 0 then none else some (readBytes bytes k)
    else none
  else none

/-- The bytes left in the receive buffer by a connection that is opened for one exchange. -/
def Exchange.reply (x : Exchange) (n k : Nat) : Option (List UInt8) :=
  if x.connect.Succeeds then x.delivers n k else none

/-- The bytes that `mei_rcvmsg` reports in a receive buffer of `k` bytes; `none` if it reports a
failure. -/
def Exchange.received (x : Exchange) (k : Nat) : Option (List UInt8) :=
  if 0 < x.connect.openFd then
    match x.read with
    | none => none
    | some bytes =>
        if int32 (readBytes bytes k).length < 0 then none else some (readBytes bytes k)
  else none

/-- The exchange went through: `mei_sndmsg` reports all `n` bytes of the request as sent, and
`mei_rcvmsg` fills the receive buffer of `k` bytes. -/
def Exchange.Completes (x : Exchange) (n k : Nat) : Prop :=
  x.Sends n ∧ x.written n = n ∧ ∃ got ∈ x.received k, got.length = k

theorem length_readBytes_le (bytes : List UInt8) (n : Nat) : (readBytes bytes n).length ≤ n :=
  List.length_take_le n bytes

/-- An answer that fits the receive buffer is received. -/
theorem received_answering {bytes : List UInt8} {k : Nat} (hk : k < 2 ^ 31)
    (h : bytes.length ≤ k) (n : Nat) : (answering n bytes).received k = some bytes := by
  have hread : readBytes bytes k = bytes := List.take_of_length_le h
  have hcount : int32 bytes.length = bytes.length := int32_of_nonneg_lt (by omega) (by omega)
  simp [Exchange.received, answering, hread, hcount]

/-- A count that the driver returns as it is was written whole. -/
theorem Exchange.written_of_writeRv {x : Exchange} {n : Nat} (hn : n < 2 ^ 31)
    (h : x.writeRv n = n) : x.written n = n := by
  unfold writeRv at h
  unfold written
  cases hw : x.write with
  | none =>
      simp only [hw] at h
      omega
  | some j =>
      simp only [hw] at h ⊢
      rw [int32_of_nonneg_lt (by omega) (by omega)] at h
      omega

/-- A delivered reply with at least one byte follows a request that was written whole. -/
theorem Exchange.written_of_delivers {x : Exchange} {n k : Nat} {got : List UInt8}
    (hn : n < 2 ^ 31) (h : x.delivers n k = some got) (hgot : got ≠ []) : x.written n = n := by
  unfold delivers at h
  split at h
  · split at h
    · cases h
      exact absurd rfl hgot
    · split at h
      · rename_i heq
        exact written_of_writeRv hn heq
      · cases h
  · cases h

theorem Exchange.delivers_of_reply {x : Exchange} {n k : Nat} {got : List UInt8}
    (h : x.reply n k = some got) : x.delivers n k = some got := by
  unfold reply at h
  split at h
  · exact h
  · cases h

omit [DecidableEq β] in
/-- `mei_connect` returns the descriptor when it succeeds. -/
theorem run_meiConnect (c : Connect) (m : Mem β) :
    ((meiConnect c : Prog _ β ε _).run m).result =
        .ok (if c.Succeeds then some c.openFd else none) ∧
      ((meiConnect c : Prog _ β ε _).run m).mem = m := by
  unfold meiConnect Connect.Succeeds
  by_cases hcalloc : c.calloc = true
  · by_cases hopen : c.openFd = -1
    · simp [hcalloc, hopen]
    · by_cases hioctl : c.ioctl = 0
      · simp [hcalloc, hopen, hioctl]
      · simp [hcalloc, hopen, hioctl]
  · simp [hcalloc]

omit [DecidableEq β] in
/-- `mei_sndmsg` leaves the memory alone, and its status is negative exactly when it reports a
failure. -/
theorem run_meiSndmsg (x : Exchange) (buf : β) (n : Nat) (m : Mem β) :
    (meiSndmsg x x.connect.openFd buf n : Prog _ β ε Int).run m =
      ⟨.ok (if x.Sends n then x.writeRv n else -1), m,
        if x.connect.openFd ≤ 0 then [] else [.read buf 0 n]⟩ := by
  unfold meiSndmsg Exchange.Sends
  by_cases hfd : x.connect.openFd ≤ 0
  · have hno : ¬ 0 < x.connect.openFd := by omega
    simp [hfd, hno]
  · have hpos : 0 < x.connect.openFd := by omega
    simp only [run_ite, run_bind, run_expose, run_pure, Run.andThen_ok, if_neg hfd, hpos,
      true_and]
    by_cases hw : x.writeRv n < 0
    · have hno : ¬ 0 ≤ x.writeRv n := by omega
      simp [hw, hno, Run.prepend]
    · have hok : 0 ≤ x.writeRv n := by omega
      by_cases hsel : 0 < x.selectRv ∧ x.isSet = true
      · simp [hw, hok, hsel, Run.prepend]
      · simp [hw, hok, hsel, Run.prepend]

/-- `mei_rcvmsg` on a usable descriptor. -/
theorem run_meiRcvmsg (x : Exchange) {fd : Int} (hfd : 0 < fd) (buf : β) (k : Nat) (m : Mem β) :
    ((meiRcvmsg x fd buf k : Prog _ β ε Int).run m).result =
        .ok (match x.read with
          | none => -1
          | some bytes =>
              if int32 (readBytes bytes k).length < 0 then -1
              else int32 (readBytes bytes k).length) ∧
      ((meiRcvmsg x fd buf k : Prog _ β ε Int).run m).mem =
        match x.read with
        | none => m
        | some bytes => m.fill buf (readBytes bytes k) := by
  unfold meiRcvmsg
  rw [if_neg (by omega)]
  cases x.read with
  | none => exact ⟨rfl, rfl⟩
  | some bytes =>
      by_cases h : int32 (readBytes bytes k).length < 0
      · simp [h]
      · simp [h]

/-- `mei_snd_rcv` on the descriptor that `mei_connect` opened: its status is negative exactly
when nothing is delivered, and a delivered reply is what the receive buffer starts with. -/
theorem run_meiSndRcv (x : Exchange) (sndBuf rcvBuf : β) (n k : Nat) (m : Mem β) :
    ∃ status, ((meiSndRcv x x.connect.openFd sndBuf n rcvBuf k : Prog _ β ε Int).run m).result =
        .ok status ∧
      (x.delivers n k = none → status < 0) ∧
      ∀ got, x.delivers n k = some got → 0 ≤ status ∧
        ((meiSndRcv x x.connect.openFd sndBuf n rcvBuf k : Prog _ β ε Int).run m).mem =
          m.fill rcvBuf got := by
  unfold meiSndRcv Exchange.delivers
  rw [run_bind, run_meiSndmsg, Run.andThen_ok]
  by_cases hs : x.Sends n
  · have hfd : 0 < x.connect.openFd := hs.1
    have hrv : 0 ≤ x.writeRv n := hs.2.1
    simp only [if_pos hs]
    by_cases h0 : x.writeRv n = 0
    · simp [h0]
    · have hpos : ¬ x.writeRv n ≤ 0 := by omega
      by_cases hn : x.writeRv n = n
      · obtain ⟨hres, hmem⟩ := run_meiRcvmsg (ε := ε) x hfd rcvBuf k m
        rw [if_neg hpos, if_neg (not_not_intro hn), if_neg h0, if_pos hn, run_bind,
          Run.andThen_of_ok hres]
        cases hr : x.read with
        | none => simp
        | some bytes =>
            simp only [hr] at hmem
            by_cases hneg : int32 (readBytes bytes k).length < 0
            · simp [hneg]
            · have hge : 0 ≤ int32 (readBytes bytes k).length := by omega
              by_cases hk : int32 (readBytes bytes k).length ≤ 0 ∨
                  int32 (readBytes bytes k).length ≠ k
              · simp [hneg, hk, hmem, hge]
              · simp [hneg, hk, hmem]
      · rw [if_neg hpos, if_pos hn, if_neg h0, if_neg hn]
        simp
  · simp [hs]

/-! ## Accesses -/

section Within

variable {P : Event DeviceCall β → Prop}

omit [DecidableEq β] in
theorem within_meiConnect (c : Connect) (hcall : ∀ d, P (.call d)) :
    Within P (meiConnect c : Prog _ β ε (Option Int)) := by
  unfold meiConnect
  refine .ite (.ite (within_pure _) (.bind ((within_call _).mpr (hcall _)) fun _ => ?_))
    (within_pure _)
  exact .ite (.bind ((within_call _).mpr (hcall _)) fun _ => within_pure _) (within_pure _)

omit [DecidableEq β] in
theorem within_meiSndmsg (x : Exchange) (fd : Int) (buf : β) (n : Nat) (h : P (.read buf 0 n)) :
    Within P (meiSndmsg x fd buf n : Prog _ β ε Int) := by
  unfold meiSndmsg
  refine .ite (within_pure _) (.bind ((within_expose _ _).mpr h) fun _ => ?_)
  exact .ite (within_pure _) (.ite (within_pure _) (within_pure _))

theorem within_meiRcvmsg (x : Exchange) (fd : Int) (buf : β) (k : Nat)
    (h : ∀ j ≤ k, P (.write buf 0 j)) : Within P (meiRcvmsg x fd buf k : Prog _ β ε Int) := by
  unfold meiRcvmsg
  refine .ite (within_pure _) ?_
  cases x.read with
  | none => exact within_pure _
  | some bytes =>
      refine .bind ((within_fill _ _).mpr (h _ (length_readBytes_le bytes k))) fun _ => ?_
      exact .ite (within_pure _) (within_pure _)

/-- `mei_snd_rcv` reads the request and writes within the receive buffer; it touches nothing
else. -/
theorem within_meiSndRcv (x : Exchange) (fd : Int) (sndBuf rcvBuf : β) (n k : Nat)
    (hsnd : P (.read sndBuf 0 n)) (hrcv : ∀ j ≤ k, P (.write rcvBuf 0 j)) :
    Within P (meiSndRcv x fd sndBuf n rcvBuf k : Prog _ β ε Int) := by
  refine .bind (within_meiSndmsg x fd sndBuf n hsnd) fun _ => ?_
  refine .ite (within_pure _) (.ite (within_pure _) ?_)
  refine .bind (within_meiRcvmsg x fd rcvBuf k hrcv) fun _ => ?_
  exact .ite (within_pure _) (.ite (within_pure _) (within_pure _))

end Within

end Txei.Mei

import Txei.Mei.Driver

/-!
# What `mei_snd_rcv` returns

The sizes of `mei_snd_rcv` are signed. `meiSndRcvSized` is the function for every pair of them, and
`meiSndRcvSized_ofNat` says that `meiSndRcv` is this function for the sizes its callers pass. The
header promises the number of bytes read, and a negative value for a transfer that is not complete;
`sndRcvContract_iff` says for which answers of the system this is what is returned.
-/

namespace Txei.Mei

open Machine Machine.Prog

variable {β ε : Type} [DecidableEq β]

/-- The `size_t` that `write` and `read` get for a `ssize_t`. -/
def sizeT (size : Int64) : Nat := size.toUInt64.toNat

/-- `mei_snd_rcv` on the sizes of its declaration. -/
def meiSndRcvSized (x : Exchange) (fd : Int) (sndBuf : β) (sndSize : Int64) (rcvBuf : β)
    (rcvSize : Int64) : Prog DeviceCall β ε Int := do
  let status ← meiSndmsg x fd sndBuf (sizeT sndSize)
  if status ≤ 0 then pure status
  else if status ≠ sndSize.toInt then pure (-1)
  else do
    let status ← meiRcvmsg x fd rcvBuf (sizeT rcvSize)
    if status ≤ 0 ∨ status ≠ rcvSize.toInt then pure status
    else if status ≤ 0 ∨ status ≠ rcvSize.toInt then pure (-1)
    else pure 0

theorem sizeT_ofNat {n : Nat} (hn : n < 2 ^ 63) : sizeT (Int64.ofNat n) = n := by
  rw [sizeT, Int64.toUInt64_ofNat', UInt64.toNat_ofNat_of_lt' (Nat.lt_trans hn (by decide))]

/-- The sizes in the rest of the library are not negative. -/
theorem meiSndRcvSized_ofNat (x : Exchange) (fd : Int) (sndBuf rcvBuf : β) {n k : Nat}
    (hn : n < 2 ^ 63) (hk : k < 2 ^ 63) :
    (meiSndRcvSized x fd sndBuf (Int64.ofNat n) rcvBuf (Int64.ofNat k) : Prog _ β ε Int) =
      meiSndRcv x fd sndBuf n rcvBuf k := by
  simp only [meiSndRcvSized, meiSndRcv, sizeT_ofNat hn, sizeT_ofNat hk,
    Int64.toInt_ofNat_of_lt hn, Int64.toInt_ofNat_of_lt hk]

/-- The `size_t` of a size that is not negative is that size. -/
theorem sizeT_of_nonneg {size : Int64} (h : 0 ≤ size.toInt) : (sizeT size : Int) = size.toInt := by
  have hlt := size.toInt_lt
  rw [sizeT, toNat_toUInt64]
  omega

/-! ## The status and the bytes received -/

/-- The number of bytes that a log stores in block `b`. -/
def bytesStored (b : β) (l : Log DeviceCall β) : Nat :=
  (l.map fun
    | .write b' _ n => if b' = b then n else 0
    | _ => 0).sum

namespace Exchange

variable (x : Exchange) (sndSize rcvSize : Int64)

/-- The number of bytes that `write` takes, which is called on a usable descriptor only. -/
def bytesSent : Nat := if 0 < x.connect.openFd then x.written (sizeT sndSize) else 0

/-- The status of `mei_snd_rcv` and the number of bytes that `read` has stored by then. -/
def outcome : Int × Nat :=
  if ¬ x.Sends (sizeT sndSize) then (-1, 0)
  else if x.writeRv (sizeT sndSize) = 0 then (0, 0)
  else if x.writeRv (sizeT sndSize) ≠ sndSize.toInt then (-1, 0)
  else
    match x.read with
    | none => (-1, 0)
    | some bytes =>
        let count := (readBytes bytes (sizeT rcvSize)).length
        if int32 count < 0 then (-1, count)
        else (if 0 < int32 count ∧ int32 count = rcvSize.toInt then 0 else int32 count, count)

end Exchange

theorem meiRcvmsg_log (x : Exchange) {fd : Int} (hfd : 0 < fd) (buf : β) (k : Nat)
    (m : Mem β) :
    ((meiRcvmsg x fd buf k : Prog _ β ε Int).run m).log =
      match x.read with
      | none => []
      | some bytes => [.write buf 0 (readBytes bytes k).length] := by
  unfold meiRcvmsg
  rw [if_neg (by omega)]
  cases x.read with
  | none => rfl
  | some bytes =>
      by_cases h : int32 (readBytes bytes k).length < 0
      · simp [h]
      · simp [h]

/-- What `mei_snd_rcv` returns on the descriptor that `mei_connect` opened, and how many bytes its
log stores in the receive buffer. -/
theorem run_meiSndRcvSized (x : Exchange) (sndBuf rcvBuf : β) (sndSize rcvSize : Int64)
    (m : Mem β) :
    ((meiSndRcvSized x x.connect.openFd sndBuf sndSize rcvBuf rcvSize :
        Prog _ β ε Int).run m).result = .ok (x.outcome sndSize rcvSize).1 ∧
      bytesStored rcvBuf ((meiSndRcvSized x x.connect.openFd sndBuf sndSize rcvBuf rcvSize :
        Prog _ β ε Int).run m).log = (x.outcome sndSize rcvSize).2 := by
  unfold meiSndRcvSized Exchange.outcome
  rw [run_bind, run_meiSndmsg, Run.andThen_ok]
  by_cases hs : x.Sends (sizeT sndSize)
  · have hfd : 0 < x.connect.openFd := hs.1
    have hrv : 0 ≤ x.writeRv (sizeT sndSize) := hs.2.1
    rw [if_pos hs, if_neg (not_not_intro hs), if_neg (Int.not_le.mpr hfd)]
    by_cases h0 : x.writeRv (sizeT sndSize) = 0
    · simp [h0, bytesStored]
    · have hpos : ¬ x.writeRv (sizeT sndSize) ≤ 0 := by omega
      rw [if_neg hpos, if_neg h0]
      by_cases hn : x.writeRv (sizeT sndSize) = sndSize.toInt
      · obtain ⟨hres, -⟩ := run_meiRcvmsg (ε := ε) x hfd rcvBuf (sizeT rcvSize) m
        have hlog := meiRcvmsg_log (ε := ε) x hfd rcvBuf (sizeT rcvSize) m
        rw [if_neg (not_not_intro hn), if_neg (not_not_intro hn), run_bind,
          Run.andThen_of_ok hres]
        cases hr : x.read with
        | none =>
            simp only [hr] at hlog
            simp [hlog, bytesStored]
        | some bytes =>
            simp only [hr] at hlog
            by_cases hneg : int32 (readBytes bytes (sizeT rcvSize)).length < 0
            · simp [hneg, hlog, bytesStored]
            · by_cases hfull : 0 < int32 (readBytes bytes (sizeT rcvSize)).length ∧
                  int32 (readBytes bytes (sizeT rcvSize)).length = rcvSize.toInt
              · have hrest : ¬ (int32 (readBytes bytes (sizeT rcvSize)).length ≤ 0 ∨
                    int32 (readBytes bytes (sizeT rcvSize)).length ≠ rcvSize.toInt) := by omega
                simp only [if_neg hneg, if_neg hrest, if_pos hfull]
                simp [hlog, bytesStored]
              · have hrest : int32 (readBytes bytes (sizeT rcvSize)).length ≤ 0 ∨
                    int32 (readBytes bytes (sizeT rcvSize)).length ≠ rcvSize.toInt := by omega
                simp only [if_neg hneg, if_pos hrest, if_neg hfull]
                simp [hlog, bytesStored]
      · simp [hn, bytesStored]
  · by_cases hfd : x.connect.openFd ≤ 0
    · simp [hs, hfd, bytesStored]
    · simp [hs, hfd, bytesStored]

/-! ## The contract of the header -/

/-- A negative status when fewer bytes have been sent or received than asked for, and otherwise the
number of bytes received. -/
def SndRcvContract (x : Exchange) (sndBuf rcvBuf : β) (sndSize rcvSize : Int64) (m : Mem β) :
    Prop :=
  let r : Run DeviceCall β Empty Int :=
    (meiSndRcvSized x x.connect.openFd sndBuf sndSize rcvBuf rcvSize).run m
  ∃ status, r.result = .ok status ∧
    if x.bytesSent sndSize < sndSize.toInt ∨ bytesStored rcvBuf r.log < rcvSize.toInt then
      status < 0
    else status = bytesStored rcvBuf r.log

/-- The answers of `read` after a whole write for which the contract is met. -/
def ReadMeets (rcvSize : Int64) : Option (List UInt8) → Prop
  | none => 0 < rcvSize.toInt
  | some bytes =>
      (int32 (readBytes bytes (sizeT rcvSize)).length < 0 →
          (readBytes bytes (sizeT rcvSize)).length < rcvSize.toInt) ∧
        (0 ≤ int32 (readBytes bytes (sizeT rcvSize)).length →
          rcvSize.toInt ≤ 0 ∧ (readBytes bytes (sizeT rcvSize)).length < 2 ^ 31)

instance (rcvSize : Int64) : (read : Option (List UInt8)) → Decidable (ReadMeets rcvSize read)
  | none => Int.decLt 0 rcvSize.toInt
  | some _ => inferInstanceAs (Decidable (_ ∧ _))

theorem readMeets_of_neg {rcvSize : Int64} {bytes : List UInt8}
    (h : int32 (readBytes bytes (sizeT rcvSize)).length < 0) :
    ReadMeets rcvSize (some bytes) ↔
      ((readBytes bytes (sizeT rcvSize)).length : Int) < rcvSize.toInt := by
  constructor
  · intro hmeets
    exact hmeets.1 h
  · intro hfew
    exact ⟨fun _ => hfew, fun h0 => absurd h0 (Int.not_le.mpr h)⟩

theorem readMeets_of_nonneg {rcvSize : Int64} {bytes : List UInt8}
    (h : 0 ≤ int32 (readBytes bytes (sizeT rcvSize)).length) :
    ReadMeets rcvSize (some bytes) ↔
      rcvSize.toInt ≤ 0 ∧ (readBytes bytes (sizeT rcvSize)).length < 2 ^ 31 := by
  constructor
  · intro hmeets
    exact hmeets.2 h
  · intro hempty
    exact ⟨fun hneg => absurd h (Int.not_le.mpr hneg), fun _ => hempty⟩

/-- The answers of the system for which the contract is met. -/
def Exchange.HeaderMet (x : Exchange) (sndSize rcvSize : Int64) : Prop :=
  if ¬ x.Sends (sizeT sndSize) ∨
      (x.writeRv (sizeT sndSize) ≠ 0 ∧ x.writeRv (sizeT sndSize) ≠ sndSize.toInt) then
    -- the transfer ends before the read
    x.bytesSent sndSize < sndSize.toInt ∨ 0 < rcvSize.toInt
  else if x.writeRv (sizeT sndSize) = 0 then
    -- so it does here, with a status of 0
    sndSize.toInt ≤ x.bytesSent sndSize ∧ rcvSize.toInt ≤ 0
  else ReadMeets rcvSize x.read

instance (x : Exchange) (sndSize rcvSize : Int64) : Decidable (x.HeaderMet sndSize rcvSize) :=
  inferInstanceAs (Decidable (ite _ _ _))

/-- A failure is reported as it should be if and only if there is one. -/
theorem failure_meets_iff (c : Prop) [Decidable c] (k : Nat) :
    (if c then (-1 : Int) < 0 else (-1 : Int) = k) ↔ c := by
  by_cases hc : c
  · rw [if_pos hc]
    exact iff_of_true (by decide) hc
  · rw [if_neg hc]
    exact iff_of_false (by omega) hc

/-- The result of `write` is an `int`. -/
theorem Exchange.writeRv_lt (x : Exchange) (n : Nat) : x.writeRv n < 2 ^ 31 := by
  unfold writeRv
  cases x.write with
  | none => simp
  | some k => exact int32_lt _

/-- A count that equals the signed size is the whole request. -/
theorem Exchange.bytesSent_of_writeRv {x : Exchange} {sndSize : Int64}
    (hs : x.Sends (sizeT sndSize)) (hn : x.writeRv (sizeT sndSize) = sndSize.toInt) :
    (x.bytesSent sndSize : Int) = sndSize.toInt := by
  have hsize : (sizeT sndSize : Int) = sndSize.toInt := sizeT_of_nonneg (hn ▸ hs.2.1)
  have hlt : sizeT sndSize < 2 ^ 31 := by
    have hrv := x.writeRv_lt (sizeT sndSize)
    omega
  have hwritten := written_of_writeRv hlt (hn.trans hsize.symm)
  rw [bytesSent, if_pos hs.1, hwritten, hsize]

/-- A read that the driver counts keeps the contract only if nothing was to be read: for every other
size `mei_snd_rcv` returns 0 for all bytes and their number for fewer. -/
theorem counted_meets_iff {count : Nat} {size : Int} (hcount : 0 ≤ int32 count)
    (hle : 0 < size → (count : Int) ≤ size) :
    (if (count : Int) < size then
        (if 0 < int32 count ∧ int32 count = size then 0 else int32 count) < 0
      else (if 0 < int32 count ∧ int32 count = size then 0 else int32 count) = count) ↔
      size ≤ 0 ∧ count < 2 ^ 31 := by
  unfold int32 at hcount ⊢
  constructor
  · intro hmet
    -- all bytes give 0 and fewer their number, neither of which is the answer then
    split at hmet <;> split at hmet <;> omega
  · intro hcond
    rw [if_neg (by omega), if_neg (by omega)]
    omega

/-- The status and the bytes of the outcome are those of the contract. -/
def Exchange.OutcomeMeets (x : Exchange) (sndSize rcvSize : Int64) : Prop :=
  if x.bytesSent sndSize < sndSize.toInt ∨ (x.outcome sndSize rcvSize).2 < rcvSize.toInt then
    (x.outcome sndSize rcvSize).1 < 0
  else (x.outcome sndSize rcvSize).1 = (x.outcome sndSize rcvSize).2

theorem sndRcvContract_iff_outcomeMeets (x : Exchange) (sndBuf rcvBuf : β) (sndSize rcvSize : Int64)
    (m : Mem β) :
    SndRcvContract x sndBuf rcvBuf sndSize rcvSize m ↔ x.OutcomeMeets sndSize rcvSize := by
  obtain ⟨hres, hstored⟩ := run_meiSndRcvSized (ε := Empty) x sndBuf rcvBuf sndSize rcvSize m
  unfold SndRcvContract Exchange.OutcomeMeets
  simp only [hres, hstored, Except.ok.injEq, exists_eq_left']

namespace Exchange

variable {x : Exchange} {sndSize : Int64} (rcvSize : Int64)

theorem outcomeMeets_ended (h : ¬ x.Sends (sizeT sndSize) ∨
    (x.writeRv (sizeT sndSize) ≠ 0 ∧ x.writeRv (sizeT sndSize) ≠ sndSize.toInt)) :
    x.OutcomeMeets sndSize rcvSize ↔ x.HeaderMet sndSize rcvSize := by
  have hout : x.outcome sndSize rcvSize = (-1, 0) := by
    unfold outcome
    rcases h with hs | ⟨h0, hn⟩
    · rw [if_pos hs]
    · rw [if_neg h0, if_pos hn, ite_self]
  rw [HeaderMet, if_pos h, OutcomeMeets, hout]
  exact failure_meets_iff _ 0

theorem outcomeMeets_empty (hs : x.Sends (sizeT sndSize)) (h0 : x.writeRv (sizeT sndSize) = 0) :
    x.OutcomeMeets sndSize rcvSize ↔ x.HeaderMet sndSize rcvSize := by
  have hended : ¬ (¬ x.Sends (sizeT sndSize) ∨ (x.writeRv (sizeT sndSize) ≠ 0 ∧
      x.writeRv (sizeT sndSize) ≠ sndSize.toInt)) :=
    not_or.mpr ⟨not_not_intro hs, fun h => h.1 h0⟩
  have hout : x.outcome sndSize rcvSize = (0, 0) := by
    rw [outcome, if_neg (not_not_intro hs), if_pos h0]
  rw [HeaderMet, if_neg hended, if_pos h0, OutcomeMeets, hout]
  by_cases hrest : x.bytesSent sndSize < sndSize.toInt ∨ ((0 : Nat) : Int) < rcvSize.toInt
  · rw [if_pos hrest]
    exact iff_of_false (by decide) (by omega)
  · rw [if_neg hrest]
    exact iff_of_true rfl (by omega)

theorem outcomeMeets_whole (hs : x.Sends (sizeT sndSize)) (h0 : x.writeRv (sizeT sndSize) ≠ 0)
    (hn : x.writeRv (sizeT sndSize) = sndSize.toInt) :
    x.OutcomeMeets sndSize rcvSize ↔ x.HeaderMet sndSize rcvSize := by
  have hended : ¬ (¬ x.Sends (sizeT sndSize) ∨ (x.writeRv (sizeT sndSize) ≠ 0 ∧
      x.writeRv (sizeT sndSize) ≠ sndSize.toInt)) :=
    not_or.mpr ⟨not_not_intro hs, fun h => h.2 hn⟩
  simp only [OutcomeMeets, bytesSent_of_writeRv hs hn, Int.lt_irrefl, false_or]
  rw [outcome, if_neg (not_not_intro hs), if_neg h0, if_neg (not_not_intro hn), HeaderMet,
    if_neg hended, if_neg h0]
  cases hr : x.read with
  | none => exact failure_meets_iff (((0 : Nat) : Int) < rcvSize.toInt) 0
  | some bytes =>
      by_cases hneg : int32 (readBytes bytes (sizeT rcvSize)).length < 0
      · refine Iff.trans ?_ (readMeets_of_neg hneg).symm
        simp only [if_pos hneg]
        exact failure_meets_iff _ _
      · have hcount := Int.not_lt.mp hneg
        have hle : 0 < rcvSize.toInt →
            ((readBytes bytes (sizeT rcvSize)).length : Int) ≤ rcvSize.toInt := by
          intro hpos
          rw [← sizeT_of_nonneg (Int.le_of_lt hpos)]
          exact Int.ofNat_le.mpr (length_readBytes_le bytes _)
        refine Iff.trans ?_ (readMeets_of_nonneg hcount).symm
        simp only [if_neg hneg]
        exact counted_meets_iff hcount hle

end Exchange

/-- The contract is met exactly if a transfer that ends with a status of -1 has left something to
send or to receive, an empty write leaves nothing of either, and a read that the driver counts had
nothing to fill: for a positive size `mei_snd_rcv` returns neither the number of all bytes nor a
negative value for fewer. -/
theorem sndRcvContract_iff (x : Exchange) (sndBuf rcvBuf : β) (sndSize rcvSize : Int64)
    (m : Mem β) :
    SndRcvContract x sndBuf rcvBuf sndSize rcvSize m ↔ x.HeaderMet sndSize rcvSize := by
  refine (sndRcvContract_iff_outcomeMeets x sndBuf rcvBuf sndSize rcvSize m).trans ?_
  by_cases hs : x.Sends (sizeT sndSize)
  · by_cases h0 : x.writeRv (sizeT sndSize) = 0
    · exact Exchange.outcomeMeets_empty rcvSize hs h0
    · by_cases hn : x.writeRv (sizeT sndSize) = sndSize.toInt
      · exact Exchange.outcomeMeets_whole rcvSize hs h0 hn
      · exact Exchange.outcomeMeets_ended rcvSize (.inr ⟨h0, hn⟩)
  · exact Exchange.outcomeMeets_ended rcvSize (.inl hs)

/-- A transfer of four bytes in each direction that goes through returns 0, and one that receives
four bytes of eight returns 4. -/
theorem sndRcvContract_not_met :
    ¬ SndRcvContract (answering 4 [1, 2, 3, 4]) false true 4 4 (fun _ _ => 0) ∧
      ((answering 4 [1, 2, 3, 4]).outcome 4 4).1 = 0 ∧
      ¬ SndRcvContract (answering 4 [1, 2, 3, 4]) false true 4 8 (fun _ _ => 0) ∧
      ((answering 4 [1, 2, 3, 4]).outcome 4 8).1 = 4 := by
  refine ⟨fun h => ?_, by decide, fun h => ?_, by decide⟩
  · exact absurd ((sndRcvContract_iff _ _ _ _ _ _).mp h) (by decide)
  · exact absurd ((sndRcvContract_iff _ _ _ _ _ _).mp h) (by decide)

end Txei.Mei

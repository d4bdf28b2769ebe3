import Txei.Mei.Driver

/-!
# A device that answers

An `Exchange` fixes what the driver reads before it is known what was sent. A device answers to the
request: `serving` puts its answer in the place of the bytes that are read, wherever something is
read at all, and leaves the rest of the exchange as the operating system has it.
-/

namespace Txei.Mei

open Machine

namespace Exchange

/-- The exchange with a device that answers `bytes`. -/
def serving (x : Exchange) (bytes : List UInt8) : Exchange :=
  { x with read := x.read.map fun _ => bytes }

/-- The system works: a connection is opened, a request of `n` bytes is sent whole, and the device
is read from. -/
def Works (x : Exchange) (n : Nat) : Prop :=
  x.connect.Succeeds ∧ x.Sends n ∧ x.written n = n ∧ x.read.isSome = true

instance (x : Exchange) (n : Nat) : Decidable (x.Works n) := inferInstanceAs (Decidable (_ ∧ _))

variable {x : Exchange} {n k : Nat} {bytes : List UInt8}

theorem writeRv_of_written (hn : 0 < n) (hlt : n < 2 ^ 31) (h : x.written n = n) :
    x.writeRv n = n := by
  unfold written at h
  unfold writeRv
  cases hw : x.write with
  | none =>
      simp only [hw] at h
      omega
  | some j =>
      simp only [hw] at h ⊢
      have hmin : (min (j : Int) n) = n := by omega
      rw [hmin]
      exact int32_of_nonneg_lt (by omega) (by omega)

/-- What the receive buffer has room for is the answer of the device. -/
theorem Works.reply (h : x.Works n) (hn : 0 < n) (hlt : n < 2 ^ 31)
    (hbytes : bytes.length < 2 ^ 31) :
    (x.serving bytes).reply n k = some (readBytes bytes k) := by
  obtain ⟨hconnect, hsends, hwritten, hread⟩ := h
  obtain ⟨old, hold⟩ := Option.isSome_iff_exists.mp hread
  have hrv := writeRv_of_written hn hlt hwritten
  have hlength : (readBytes bytes k).length ≤ bytes.length :=
    List.length_take_le' k bytes
  have hcount := int32_of_nonneg_lt (i := (readBytes bytes k).length) (by omega) (by omega)
  have hpos : ¬ (n : Int) = 0 := by omega
  have hcount' : ¬ int32 (readBytes bytes k).length < 0 := by omega
  have hsends' : (x.serving bytes).Sends n := hsends
  have hrv' : (x.serving bytes).writeRv n = n := hrv
  have hread' : (x.serving bytes).read = some bytes := by simp [serving, hold]
  have hconnect' : (x.serving bytes).connect.Succeeds := hconnect
  rw [Exchange.reply, if_pos hconnect', delivers, if_pos hsends', hrv', if_neg hpos, if_pos rfl,
    hread']
  exact if_neg hcount'

theorem writeRv_ne_zero (hn : 0 < n) (hlt : n < 2 ^ 31) (h : x.write ≠ some 0) :
    x.writeRv n ≠ 0 := by
  unfold writeRv
  cases hw : x.write with
  | none => simp
  | some j =>
      have hj : j ≠ 0 := fun hzero => h (hzero ▸ hw)
      simp only
      rw [int32_of_nonneg_lt (by omega) (by omega)]
      omega

/-- Whatever becomes of the exchange, a reply that is delivered is the answer of the device. -/
theorem eq_of_reply_serving {got : List UInt8} (hn : 0 < n) (hlt : n < 2 ^ 31)
    (hwrite : x.write ≠ some 0) (h : (x.serving bytes).reply n k = some got) :
    got = readBytes bytes k := by
  have hrv : (x.serving bytes).writeRv n ≠ 0 := writeRv_ne_zero hn hlt hwrite
  have hdelivers := delivers_of_reply h
  unfold delivers at hdelivers
  rw [if_neg hrv] at hdelivers
  obtain ⟨-, hdelivers⟩ := Option.ite_none_right_eq_some.mp hdelivers
  obtain ⟨-, hdelivers⟩ := Option.ite_none_right_eq_some.mp hdelivers
  cases hread : x.read with
  | none => simp [serving, hread] at hdelivers
  | some old =>
      simp only [serving, hread, Option.map_some] at hdelivers
      obtain ⟨-, hgot⟩ := Option.ite_none_left_eq_some.mp hdelivers
      exact (Option.some.inj hgot).symm

end Exchange

end Txei.Mei

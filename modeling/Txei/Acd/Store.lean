import Txei.Mei.Serving
import Txei.Acd.Requests

/-!
# Customer data over many calls

A device holds fields, which requests write and read. A session is a history of calls on one
device: their arguments and memory are any, the system may fail under each of them, a device that
has received no request has nothing to answer, and a reply that is read is read as far as the reply
structure goes. `fields_read_back` says that in every session `get_customer_data` hands out the data
of the last write to the field that the device accepted, or nothing at all, and
`getCustomerData_after_set` what this means for a caller who sees the returned values alone.
-/

namespace Txei.Acd

open Machine Machine.Prog Mei Tee

/-! ## Devices -/

/-- A device answers a request and goes on in another state. -/
abbrev Device (σ : Type) : Type := σ → List UInt8 → σ × List UInt8

variable {σ : Type}

/-- The device keeps fields. A write that it reports as successful sets one of them, a read that it
reports as successful returns one, and nothing else that a session consists of changes any. -/
structure KeepsFields (d : Device σ) (field : σ → Nat → List UInt8) : Prop where
  write : ∀ s bytes i maxSize data, Request.ofBytes bytes = some (.write i maxSize data) →
    field (d s bytes).1 = if statusOf (d s bytes).2 = acdWriteSuccess then
      Function.update (field s) i data else field s
  read : ∀ s bytes i, Request.ofBytes bytes = some (.read i) → field (d s bytes).1 = field s
  data : ∀ s bytes i, Request.ofBytes bytes = some (.read i) → Readable (d s bytes).2 →
    bytesReadOf (d s bytes).2 ≤ acdMaxDataSizeInBytes ∧
      slice (onWire (d s bytes).2) AcdReadCmdToHost.buf (bytesReadOf (d s bytes).2) = field s i
  lock : ∀ s bytes, Request.ofBytes bytes = some .lock → field (d s bytes).1 = field s

/-! ## Calls on a device -/

instance (a : WriteArgs) : Decidable a.InRange :=
  decidable_of_iff
    ((acdMinFieldIndex ≤ a.uiFieldIndex.toNat ∧ a.uiFieldIndex.toNat ≤ acdMaxFieldIndex) ∧
      (acdMinDataSizeInBytes < a.fieldSize.toNat ∧ a.fieldSize.toNat ≤ acdMaxDataSizeInBytes) ∧
      (acdMinDataSizeInBytes < a.fieldMaxSize.toNat ∧
        a.fieldMaxSize.toNat ≤ acdMaxDataSizeInBytes) ∧
      a.fieldSize.toNat ≤ a.fieldMaxSize.toNat ∧ a.pvAdcFieldData = true)
    ⟨fun h => ⟨h.1, h.2.1, h.2.2.1, h.2.2.2.1, h.2.2.2.2⟩,
      fun h => ⟨h.index, h.size, h.maxSize, h.size_le, h.data⟩⟩

instance (a : ReadArgs) : Decidable a.InRange :=
  decidable_of_iff
    ((acdMinFieldIndex ≤ a.uiFieldIndex.toNat ∧ a.uiFieldIndex.toNat ≤ acdMaxFieldIndex) ∧
      a.pvAdcFieldData = true)
    ⟨fun h => ⟨h.1, h.2⟩, fun h => ⟨h.index, h.data⟩⟩

instance (a : ProvisionArgs) : Decidable a.Admissible :=
  decidable_of_iff
    ((acdMinDataSizeInBytes < a.inDataSize.toNat ∧
        a.inDataSize.toNat ≤ acdMaxDataSizeInBytes) ∧
      (a.pInData = true ∧ a.pOutDataSize = true) ∧
      (a.provisionSchema.toNat = 0 → a.pOutData = true))
    ⟨fun h => ⟨h.1, h.2.1, h.2.2⟩, fun h => ⟨h.size, h.pointers, h.outData⟩⟩

namespace Call

instance : (c : Call) → Decidable c.Checked
  | lockCustomerData .. | wipeCustomerData .. => inferInstanceAs (Decidable True)
  | setCustomerData _ a _ | getCustomerData _ _ a _ => inferInstanceAs (Decidable a.InRange)
  | provisionCustomerData _ _ a _ => inferInstanceAs (Decidable a.Admissible)

/-- The request reaches the device: it is built, there is a connection to a descriptor that
`mei_sndmsg` writes to, and the whole of it is written. -/
def Delivered (c : Call) : Prop :=
  c.Checked ∧ c.exchange.connect.Succeeds ∧ 0 < c.exchange.connect.openFd ∧
    c.exchange.written c.message.paramsSize = c.message.paramsSize

instance (c : Call) : Decidable c.Delivered := inferInstanceAs (Decidable (_ ∧ _))

variable (d : Device σ) (s : σ) (c : Call)

/-- What the device answers. -/
def answer : List UInt8 := (d s c.sent).2

/-- The exchange of the call with the device. -/
def exchangeOn : Exchange :=
  if c.Delivered then c.exchange.serving (c.answer d s) else { c.exchange with read := none }

/-- The call moves the device on if its request arrives. -/
def stepOn : σ := if c.Delivered then (d s c.sent).1 else s

/-- The call neither provisions nor wipes: what becomes of the fields is up to the device then. -/
def LeavesOrSets : Call → Prop
  | lockCustomerData .. | setCustomerData .. | getCustomerData .. => True
  | wipeCustomerData .. | provisionCustomerData .. => False

/-- The data that the call sets field `i` to. -/
def sets (i : Nat) : Option (List UInt8) :=
  match c.request with
  | .write j _ data =>
      if j = i ∧ c.Delivered ∧ statusOf (c.answer d s) = acdWriteSuccess then some data else none
  | _ => none

end Call

/-- A write that is accepted sets the field it names to its data. -/
theorem Call.sets_setCustomerData (d : Device σ) (s : σ) (x : Exchange) (a : WriteArgs)
    (m : Mem Block) (i : Nat) :
    (Call.setCustomerData x a m).sets d s i =
      if a.uiFieldIndex.toNat = i ∧ (Call.setCustomerData x a m).Delivered ∧
          statusOf ((Call.setCustomerData x a m).answer d s) = acdWriteSuccess then
        some (slice (m .fieldData) 0 a.fieldSize.toNat)
      else none := rfl

/-- The state of the device after a session. -/
def deviceAfter (d : Device σ) (s : σ) (h : List Call) : σ := after (fun s c => c.stepOn d s) s h

/-- The data that the last accepted write of a session set field `i` to, or what was there at its
start. -/
def lastWritten (d : Device σ) (field : σ → Nat → List UInt8) (s : σ) (h : List Call) (i : Nat) :
    List UInt8 :=
  lastValue (fun e : σ × Call => e.2.sets d e.1 i) (field s i)
    (trace (fun s c => c.stepOn d s) s h)

section Session

variable {d : Device σ} {field : σ → Nat → List UInt8}

/-- One call sets a field or leaves it. -/
theorem KeepsFields.step (hd : KeepsFields d field) {c : Call} (hc : c.LeavesOrSets) (s : σ)
    (i : Nat) : field (c.stepOn d s) i = (c.sets d s i).getD (field s i) := by
  unfold Call.stepOn
  by_cases hdel : c.Delivered
  · have hsent := ofBytes_sent hdel.1
    rw [if_pos hdel]
    cases c with
    | lockCustomerData x m => rw [hd.lock s _ hsent, Call.sets, Call.request, Option.getD_none]
    | getCustomerData x calloc a m =>
        rw [hd.read s _ _ hsent, Call.sets, Call.request, Option.getD_none]
    | setCustomerData x a m =>
        rw [hd.write s _ _ _ _ hsent, Call.sets_setCustomerData, Call.answer]
        by_cases hstatus :
            statusOf (d s (Call.setCustomerData x a m).sent).2 = acdWriteSuccess
        · rw [if_pos hstatus]
          by_cases hi : a.uiFieldIndex.toNat = i
          · rw [if_pos ⟨hi, hdel, hstatus⟩, Option.getD_some, hi, Function.update_self]
          · rw [if_neg fun hall => hi hall.1, Option.getD_none, Function.update_of_ne (Ne.symm hi)]
        · rw [if_neg hstatus, if_neg fun hall => hstatus hall.2.2, Option.getD_none]
    | wipeCustomerData x m => exact hc.elim
    | provisionCustomerData x calloc a m => exact hc.elim
  · -- what does not arrive changes nothing
    have hnone : c.sets d s i = none := by
      unfold Call.sets
      split
      · exact if_neg fun hall => hdel hall.2.1
      · rfl
    rw [if_neg hdel, hnone, Option.getD_none]

/-- Over a session a field is what the last accepted write set it to. -/
theorem KeepsFields.field_after (hd : KeepsFields d field) (s : σ) {h : List Call}
    (hcalls : ∀ c ∈ h, c.LeavesOrSets) (i : Nat) :
    field (deviceAfter d s h) i = lastWritten d field s h i :=
  after_eq_lastValue (fun s => field s i) s h fun s c hc => hd.step (hcalls c hc) s i

end Session

/-! ## What is received -/

section Received

variable (d : Device σ) (s : σ) {c : Call} {k : Nat} {got : List UInt8}

/-- What is received is the answer to a request that has arrived. -/
theorem received_exchangeOn (h : (c.exchangeOn d s).received k = some got) :
    c.Delivered ∧ got = readBytes (c.answer d s) k := by
  unfold Call.exchangeOn at h
  by_cases hdel : c.Delivered
  · rw [if_pos hdel, Exchange.received] at h
    obtain ⟨-, h⟩ := Option.ite_none_right_eq_some.mp h
    refine ⟨hdel, ?_⟩
    cases hread : c.exchange.read with
    | none => simp [Exchange.serving, hread] at h
    | some old =>
        simp only [Exchange.serving, hread, Option.map_some] at h
        obtain ⟨-, hgot⟩ := Option.ite_none_left_eq_some.mp h
        exact (Option.some.inj hgot).symm
  · rw [if_neg hdel, Exchange.received] at h
    simp at h

theorem wordOf_readBytes (bytes : List UInt8) {o : Nat} (ho : o + 4 ≤ k) :
    Mem.wordOf (readBytes bytes k) o = Mem.wordOf bytes o :=
  wordAt_congr fun i hi => onWire_take bytes (by omega)

theorem readStatusOf_readBytes (bytes : List UInt8) :
    readStatusOf (readBytes bytes AcdReadCmdToHost.size) = readStatusOf bytes :=
  wordOf_readBytes bytes (by decide)

theorem bytesReadOf_readBytes (bytes : List UInt8) :
    bytesReadOf (readBytes bytes AcdReadCmdToHost.size) = bytesReadOf bytes :=
  congrArg wrap16 (wordOf_readBytes bytes (by decide))

end Received

/-! ## What is handed out -/

/-- The caller's pointer is that of the allocated buffer, the buffer holds `data`, and its size is
returned. -/
structure Gives (calloc : UInt64) (data : List UInt8) (r : Run DeviceCall Block Int Int) :
    Prop where
  value : r.value = data.length
  pointer : ∀ i < 8, r.mem .outData i = byteAt calloc.toNat i
  buffer : r.mem.bytes .outBuffer data.length = data

/-- `get_customer_data` hands out the data of an accepted reply, or nothing. -/
theorem getCustomerData_hands (x : Exchange) (calloc : UInt64) (a : ReadArgs) (m : Mem Block) :
    HandsNothing m ((getCustomerData x calloc a).run m).mem ∨
      ∃ got, x.received AcdReadCmdToHost.size = some got ∧ a.InRange ∧ Readable got ∧
        (bytesReadOf got ≤ acdMaxDataSizeInBytes →
          Gives calloc (slice (onWire got) AcdReadCmdToHost.buf (bytesReadOf got))
            ((getCustomerData x calloc a).run m)) := by
  by_cases hc : x.connect.Succeeds
  · by_cases ha : a.InRange
    · cases hgot : x.received AcdReadCmdToHost.size with
      | none => exact .inl (getCustomerData_lost x calloc m hc ha hgot).2
      | some got =>
          obtain ⟨m', hreply, hpointer, hbuffer, hvalue, hmem⟩ :=
            getCustomerData_answered x calloc m hc ha hgot
          by_cases hs : Readable got
          · obtain ⟨htaken, htakenMem⟩ := takeReply_accepted calloc hreply hs
            by_cases hcalloc : calloc = 0
            · subst hcalloc
              rw [hmem, htakenMem]
              exact .inl ((giveData_unallocated _ m').2.of_agree hpointer hbuffer)
            · refine .inr ⟨got, rfl, ha, hs, fun hsize => ?_⟩
              obtain ⟨hcount, hthere, hdata, -⟩ :=
                giveData_allocated calloc hcalloc (bytesReadOf_lt got) m'
              rw [← htaken, ← hvalue] at hcount
              rw [← htakenMem, ← hmem] at hthere hdata
              refine ⟨by rw [hcount, length_slice], hthere, ?_⟩
              rw [length_slice]
              refine List.map_congr_left fun i hi => ?_
              have hlt : i < bytesReadOf got := List.mem_range.mp hi
              refine (hdata i hlt).trans (hreply _ ?_)
              simp only [acdMaxDataSizeInBytes] at hsize
              simp only [AcdReadCmdToHost.size, AcdReadCmdToHost.buf]
              omega
          · left
            rw [hmem, (takeReply_rejected calloc hreply hs).2]
            exact ⟨.inl hpointer, hbuffer⟩
    · left
      rw [(getCustomerData_connected x calloc a m hc).2, run_readField_refused x calloc m _ ha]
      exact ⟨.inl rfl, rfl⟩
  · exact .inl (getCustomerData_unconnected x calloc a m hc).2

/-- The run of `get_customer_data` on a device in the state `s`. -/
def getOn (d : Device σ) (s : σ) (x : Exchange) (calloc : UInt64) (a : ReadArgs) (m : Mem Block) :
    Run DeviceCall Block Int Int :=
  (getCustomerData ((Call.getCustomerData x calloc a m).exchangeOn d s) calloc a).run m

/-- On a device that keeps fields it hands out the field, which fits the reply then, or nothing. -/
theorem getOn_gives {d : Device σ} {field : σ → Nat → List UInt8} (hd : KeepsFields d field)
    (s : σ) (x : Exchange) (calloc : UInt64) (a : ReadArgs) (m : Mem Block) :
    HandsNothing m (getOn d s x calloc a m).mem ∨
      (field s a.uiFieldIndex.toNat).length ≤ acdMaxDataSizeInBytes ∧
        Gives calloc (field s a.uiFieldIndex.toNat) (getOn d s x calloc a m) := by
  refine (getCustomerData_hands ((Call.getCustomerData x calloc a m).exchangeOn d s) calloc a m).imp
    id fun hgives => ?_
  obtain ⟨got, hgot, ha, hs, hgives⟩ := hgives
  obtain ⟨hdel, rfl⟩ := received_exchangeOn d s hgot
  unfold Readable at hs
  rw [readStatusOf_readBytes] at hs
  obtain ⟨hsize, hdata⟩ := hd.data s _ _ (ofBytes_sent hdel.1) hs
  rw [bytesReadOf_readBytes] at hgives
  have hsame : slice (onWire (readBytes ((Call.getCustomerData x calloc a m).answer d s)
      AcdReadCmdToHost.size)) AcdReadCmdToHost.buf
        (bytesReadOf ((Call.getCustomerData x calloc a m).answer d s)) =
      field s a.uiFieldIndex.toNat := by
    refine Eq.trans (slice_congr fun i hi => onWire_take _ ?_) hdata
    have hle : i < 512 := Nat.lt_of_lt_of_le hi hsize
    simp only [AcdReadCmdToHost.size, AcdReadCmdToHost.buf]
    omega
  rw [hsame] at hgives
  refine ⟨?_, hgives hsize⟩
  rw [← hdata, length_slice]
  exact hsize

theorem getOn_hands {d : Device σ} {field : σ → Nat → List UInt8} (hd : KeepsFields d field)
    (s : σ) (x : Exchange) (calloc : UInt64) (a : ReadArgs) (m : Mem Block) :
    HandsNothing m (getOn d s x calloc a m).mem ∨
      Gives calloc (field s a.uiFieldIndex.toNat) (getOn d s x calloc a m) :=
  (getOn_gives hd s x calloc a m).imp id And.right

/-! ## A device that keeps fields -/

/-- The reply to a read: the size of the data, the status of success, and the data. -/
def readReply (data : List UInt8) : List UInt8 :=
  [0, 0, 0, 0, 0, 0, 0, 0, byteAt data.length 0, byteAt data.length 1, 0, 0, 0, 0, 0, 0] ++ data

/-- A device that keeps its fields in a table, and refuses what it does not know. -/
def tableDevice : Device (Nat → List UInt8) := fun s bytes =>
  match Request.ofBytes bytes with
  | some (.write i _ data) => (Function.update s i data, List.replicate 12 0)
  | some (.read i) =>
      (s, if (s i).length ≤ acdMaxDataSizeInBytes then readReply (s i) else List.replicate 16 1)
  | some .lock => (s, List.replicate 12 0)
  | _ => (s, List.replicate 12 1)

theorem bytesReadOf_readReply {data : List UInt8} (h : data.length ≤ acdMaxDataSizeInBytes) :
    bytesReadOf (readReply data) = data.length := by
  simp only [acdMaxDataSizeInBytes] at h
  have hword : Mem.wordOf (readReply data) AcdReadCmdToHost.bytesRead = wrap32 data.length := by
    refine word_of_byteAt fun i hi => ?_
    have hhigh : ∀ i, 2 ≤ i → byteAt data.length i = 0 := fun i hi => by
      have hpow : 256 ^ 2 ≤ 256 ^ i := Nat.pow_le_pow_right (by decide) hi
      have hzero : data.length / 256 ^ i = 0 := Nat.div_eq_of_lt (by omega)
      simp [byteAt, hzero]
    obtain rfl | rfl | rfl | rfl : i = 0 ∨ i = 1 ∨ i = 2 ∨ i = 3 := by omega
    · rfl
    · rfl
    · exact (hhigh 2 (by decide)).symm
    · exact (hhigh 3 (by decide)).symm
  rw [bytesReadOf, hword, wrap32_of_lt (by omega)]
  exact Nat.mod_eq_of_lt (by omega)

theorem tableDevice_write (s : Nat → List UInt8) {bytes data : List UInt8} {i maxSize : Nat}
    (h : Request.ofBytes bytes = some (.write i maxSize data)) :
    tableDevice s bytes = (Function.update s i data, List.replicate 12 0) := by
  simp only [tableDevice, h]

theorem tableDevice_keeps : KeepsFields tableDevice fun s => s where
  write s bytes i maxSize data h := by
    rw [tableDevice_write s h]
    exact (if_pos (show statusOf (List.replicate 12 0) = acdWriteSuccess by decide)).symm
  read s bytes i h := by simp only [tableDevice, h]
  data s bytes i h hs := by
    simp only [tableDevice, h] at hs ⊢
    by_cases hlength : (s i).length ≤ acdMaxDataSizeInBytes
    · rw [if_pos hlength, bytesReadOf_readReply hlength]
      refine ⟨hlength, ?_⟩
      have hbehind : (readReply (s i)).length = 16 + (s i).length := by
        simp [readReply]
        omega
      rw [slice_onWire _ hbehind.ge]
      simp [readReply]
    · rw [if_neg hlength] at hs
      exact absurd hs (by unfold Readable; decide)
  lock s bytes h := by simp only [tableDevice, h]

/-- Calls that set field 7 to two bytes and read it, on a system that works. -/
def setSeven : Call :=
  .setCustomerData (answering 528 []) ⟨7, 2, 2, true⟩ (.ofLists fun b =>
    if b = .fieldData then [5, 6] else [])

def getSeven : Call :=
  .getCustomerData (answering 8 []) 4096 ⟨7, true⟩ (.ofLists fun _ => [])

/-! ## Every session -/

/-- In every session `get_customer_data` hands out the data of the last accepted write to the field,
or nothing. -/
theorem fields_read_back {d : Device σ} {field : σ → Nat → List UInt8} (hd : KeepsFields d field)
    (s : σ) (h : List Call) (hcalls : ∀ c ∈ h, c.LeavesOrSets) :
    Everywhere (fun p c => ∀ x calloc a m, c = .getCustomerData x calloc a m →
      HandsNothing m (getOn d (deviceAfter d s p) x calloc a m).mem ∨
        Gives calloc (lastWritten d field s p a.uiFieldIndex.toNat)
          (getOn d (deviceAfter d s p) x calloc a m)) h := by
  intro p c rest heq x calloc a m _
  have hp : ∀ c ∈ p, c.LeavesOrSets := fun c hc => hcalls c (heq ▸ List.mem_append_left _ hc)
  rw [← hd.field_after s hp]
  exact getOn_hands hd _ x calloc a m

theorem fields_read_back_table :
    HandsNothing (.ofLists fun _ => []) (getOn tableDevice
        (deviceAfter tableDevice (fun _ => []) [setSeven]) (answering 8 []) 4096 ⟨7, true⟩
        (.ofLists fun _ => [])).mem ∨
      Gives 4096 (lastWritten tableDevice (fun s => s) (fun _ => []) [setSeven] 7)
        (getOn tableDevice (deviceAfter tableDevice (fun _ => []) [setSeven]) (answering 8 [])
          4096 ⟨7, true⟩ (.ofLists fun _ => [])) :=
  fields_read_back tableDevice_keeps (fun _ => []) [setSeven, getSeven]
    (by
      intro c hc
      simp only [List.mem_cons, List.not_mem_nil, or_false] at hc
      rcases hc with rfl | rfl <;> trivial)
    [setSeven] getSeven [] rfl _ _ _ _ rfl

/-! ## What a caller can tell -/

/-- The run of `set_customer_data` on a device in the state `s`. -/
def setOn (d : Device σ) (s : σ) (x : Exchange) (a : WriteArgs) (m : Mem Block) :
    Run DeviceCall Block Int Int :=
  (setCustomerData ((Call.setCustomerData x a m).exchangeOn d s) a).run m

/-- The call is one of `set_customer_data` for field `i`. -/
def Call.SetsField (i : Nat) : Call → Prop
  | setCustomerData _ a _ => a.uiFieldIndex.toNat = i
  | _ => False

theorem Call.sets_eq_none {i : Nat} {c : Call} (h : ¬ c.SetsField i) (d : Device σ) (s : σ) :
    c.sets d s i = none := by
  cases c with
  | setCustomerData x a m => exact if_neg fun hall => h hall.1
  | lockCustomerData x m => rfl
  | wipeCustomerData x m => rfl
  | getCustomerData x calloc a m => rfl
  | provisionCustomerData x calloc a m => rfl

/-- The negation of a status that the device answers a write with is a negative `int`, if it is not
zero. -/
def NegatesStatus (d : Device σ) : Prop :=
  ∀ s bytes i maxSize data, Request.ofBytes bytes = some (.write i maxSize data) →
    statusOf (d s bytes).2 ≤ 2 ^ 31

/-- The size of the data is returned for an accepted write alone. The size 1 is left out, for it is
also what a failed receive is returned as. -/
theorem sets_of_value {d : Device σ} (hstatus : NegatesStatus d) {s : σ} {x : Exchange}
    {a : WriteArgs} {m : Mem Block} (hsize : a.fieldSize.toNat ≠ 1)
    (h : (setOn d s x a m).value = a.fieldSize.toNat) :
    (Call.setCustomerData x a m).sets d s a.uiFieldIndex.toNat =
      some (slice (m .fieldData) 0 a.fieldSize.toNat) := by
  have hlt : a.fieldSize.toNat < 2 ^ 16 := a.fieldSize.toNat_lt
  unfold setOn at h
  by_cases ha : a.InRange
  · by_cases hc : ((Call.setCustomerData x a m).exchangeOn d s).connect.Succeeds
    · cases hgot : ((Call.setCustomerData x a m).exchangeOn d s).received
          AcdStatusToHost.size with
      | none =>
          rw [value_setCustomerData_unanswered _ m ha hc hgot] at h
          omega
      | some got =>
          obtain ⟨hdel, rfl⟩ := received_exchangeOn d s hgot
          have hsame : statusOf (readBytes ((Call.setCustomerData x a m).answer d s)
              AcdStatusToHost.size) = statusOf ((Call.setCustomerData x a m).answer d s) :=
            wordOf_readBytes _ (by decide)
          rw [value_setCustomerData_answered _ m ha hc hgot, hsame] at h
          by_cases hs : statusOf ((Call.setCustomerData x a m).answer d s) = acdWriteSuccess
          · rw [Call.sets_setCustomerData, if_pos ⟨rfl, hdel, hs⟩]
          · have hneg := (int32_neg_status hs (statusOf_lt _)).mpr
              (hstatus s _ _ _ _ (ofBytes_sent hdel.1))
            rw [if_neg hs] at h
            exact absurd h (by unfold Call.answer; omega)
    · have hvalue := value_setCustomerData_unconnected _ m ha hc
      rw [hvalue] at h
      omega
  · have hvalue := value_setCustomerData_refused
      ((Call.setCustomerData x a m).exchangeOn d s) m ha
    omega

/-- What a caller has stored with `set_customer_data`, going by the value that it returned, is what
`get_customer_data` hands out until the field is set again, if it hands out anything. -/
theorem getCustomerData_after_set {d : Device σ} {field : σ → Nat → List UInt8}
    (hd : KeepsFields d field) (hstatus : NegatesStatus d) (s : σ)
    (p q : List Call) {x : Exchange} {a : WriteArgs} {m : Mem Block}
    (hsize : a.fieldSize.toNat ≠ 1)
    (hvalue : (setOn d (deviceAfter d s p) x a m).value = a.fieldSize.toNat)
    (hcalls : ∀ c ∈ q, c.LeavesOrSets) (hother : ∀ c ∈ q, ¬ c.SetsField a.uiFieldIndex.toNat)
    (y : Exchange) (calloc : UInt64) (b : ReadArgs) (hb : b.uiFieldIndex = a.uiFieldIndex)
    (m' : Mem Block) :
    HandsNothing m'
        (getOn d (deviceAfter d s (p ++ .setCustomerData x a m :: q)) y calloc b m').mem ∨
      Gives calloc (slice (m .fieldData) 0 a.fieldSize.toNat)
        (getOn d (deviceAfter d s (p ++ .setCustomerData x a m :: q)) y calloc b m') := by
  have hfield : field (deviceAfter d s (p ++ .setCustomerData x a m :: q))
      b.uiFieldIndex.toNat = slice (m .fieldData) 0 a.fieldSize.toNat := by
    have hset := hd.step (c := .setCustomerData x a m) trivial (deviceAfter d s p)
      a.uiFieldIndex.toNat
    rw [sets_of_value hstatus hsize hvalue, Option.getD_some] at hset
    unfold deviceAfter at hset ⊢
    rw [hb, after_append, after_cons]
    -- the calls behind the write leave the field
    refine after_invariant_of_mem _ _
      (I := fun s => field s a.uiFieldIndex.toNat = slice (m .fieldData) 0 a.fieldSize.toNat)
      hset q fun s c hc hthere => ?_
    rw [hd.step (hcalls c hc), Call.sets_eq_none (hother c hc), Option.getD_none, hthere]
  rw [← hfield]
  exact getOn_hands hd _ y calloc b m'

theorem value_setSeven :
    (setOn tableDevice (fun _ => []) (answering 528 []) ⟨7, 2, 2, true⟩ (.ofLists fun b =>
      if b = .fieldData then [5, 6] else [])).value = 2 := by
  have hdel : setSeven.Delivered := by decide
  have hanswer : setSeven.answer tableDevice (fun _ => []) = List.replicate 12 0 := by
    rw [Call.answer, tableDevice, ofBytes_sent hdel.1]
    rfl
  have hgot : (setSeven.exchangeOn tableDevice fun _ => []).received AcdStatusToHost.size =
      some (List.replicate 12 0) := by
    rw [Call.exchangeOn, if_pos hdel, hanswer]
    rfl
  have hconnect : (setSeven.exchangeOn tableDevice fun _ => []).connect.Succeeds := by
    rw [Call.exchangeOn, if_pos hdel]
    decide
  exact (value_setCustomerData_answered _ _ hdel.1 hconnect hgot).trans (if_pos (by decide))

theorem getCustomerData_after_setSeven :
    HandsNothing (.ofLists fun _ => []) (getOn tableDevice
        (deviceAfter tableDevice (fun _ => []) [setSeven]) (answering 8 []) 4096 ⟨7, true⟩
        (.ofLists fun _ => [])).mem ∨
      Gives 4096 [5, 6] (getOn tableDevice (deviceAfter tableDevice (fun _ => []) [setSeven])
        (answering 8 []) 4096 ⟨7, true⟩ (.ofLists fun _ => [])) :=
  getCustomerData_after_set tableDevice_keeps
    (fun s bytes i maxSize data h => by
      rw [tableDevice_write s h]
      exact (by decide : statusOf (List.replicate 12 0) ≤ 2 ^ 31))
    (fun _ => []) [] [] (by decide) value_setSeven (by simp) (by simp) (answering 8 []) 4096
    ⟨7, true⟩ rfl (.ofLists fun _ => [])

end Txei.Acd

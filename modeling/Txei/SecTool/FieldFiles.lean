import Txei.Acd.Store
import Txei.SecTool.Transfers

/-!
# Files in customer data fields

`-acd-write` puts a file into a field, and `-acd-read` puts a field into a file. A session is a
history of invocations of the tool on one device: each is a process with a memory of its own, on a
system that may fail under it but does not cut a reply short. A command puts into a field what its call of the library does
(`Invocation.stores_eq`), and `files_read_back` says that whatever `-acd-read` writes to its file
comes byte for byte from the file of the last `-acd-write` that the device accepted.
-/

namespace Txei.SecTool

open Machine Machine.Prog Mei Acd

/-! ## The buffers of the tool -/

section Buffers

variable {pFilename : Option OutputFile} {pDataBuffer : Bool} {n k : Nat} (m : Mem Block)

/-- What is written to a file comes from a buffer, and is no more than was asked for. -/
theorem of_fileWritten_mem
    (h : ToolCall.fileWritten k ∈ ((writeDataToFile pFilename pDataBuffer n).run m).log.calls) :
    pDataBuffer = true ∧ ∃ file ∈ pFilename, ∃ w ∈ file.write, k = min w n := by
  cases pFilename with
  | none => simp [writeDataToFile] at h
  | some file =>
      by_cases hbuffer : pDataBuffer = false
      · simp [writeDataToFile, hbuffer] at h
      by_cases hn : n = 0
      · simp [writeDataToFile, hbuffer, hn] at h
      by_cases hopen : file.opens = false
      · simp [writeDataToFile, hbuffer, hn, hopen] at h
      cases hwrite : file.write with
      | none => simp [writeDataToFile, hbuffer, hn, hopen, hwrite] at h
      | some w =>
          refine ⟨by simpa using hbuffer, file, rfl, w, hwrite, ?_⟩
          by_cases hall : w < n
          · simpa [writeDataToFile, hbuffer, hn, hopen, hwrite, hall] using h
          · simpa [writeDataToFile, hbuffer, hn, hopen, hwrite, hall] using h

/-- Writing a file changes no memory. -/
theorem mem_writeDataToFile :
    ((writeDataToFile pFilename pDataBuffer n).run m).mem = m := by
  have hin : Within (Event.In [Block.outBuffer] [])
      (writeDataToFile pFilename pDataBuffer n) :=
    within_writeDataToFile pFilename pDataBuffer n (by simp) (by simp)
  funext b i
  exact Prog.frame _ m b i fun e he => (hin m e he).not_writes (by simp) i

/-- A file that fills the buffer is what the buffer holds. -/
theorem mem_readDataFromFile {file : InputFile} (h : file.Fills n) :
    file.read.map (List.take n) =
      some (slice (((readDataFromFile (some file)).run m).mem .fieldData) 0 n) := by
  obtain ⟨hopen, hcalloc, stSize, hstat, hpos, rfl, bytes, hread, hlen⟩ := h
  rw [Option.mem_def] at hstat hread
  have hcount : (readBytes bytes (wrap32 stSize)).length = wrap32 stSize := by
    simpa [readBytes] using hlen
  have hmem : ((readDataFromFile (some file)).run m).mem =
      (m.write .fieldData 0 (wrap32 stSize) fun _ => 0).fill .fieldData
        (readBytes bytes (wrap32 stSize)) := by
    simp [readDataFromFile, hopen, hcalloc, hstat, hpos, hread, hcount]
  have hslice : slice (((readDataFromFile (some file)).run m).mem .fieldData) 0 (wrap32 stSize) =
      slice (onWire (readBytes bytes (wrap32 stSize))) 0 (wrap32 stSize) := by
    rw [hmem]
    refine slice_congr fun i hi => Mem.fill_of_zero _ Block.fieldData _ ?_
    exact Mem.write_inside m Block.fieldData 0 _ _ _ (by omega)
  rw [hslice, slice_onWire _ (by omega), List.drop_zero, readBytes, List.take_take, Nat.min_self,
    hread, Option.map_some]

end Buffers

/-! ## Invocations -/

instance (file : InputFile) (n : Nat) : Decidable (file.Fills n) :=
  inferInstanceAs (Decidable (_ ∧ _ ∧ _))

instance (index size maxSize : Int) : Decidable (WriteInRange index size maxSize) :=
  inferInstanceAs (Decidable (_ ∧ _ ∧ _ ∧ _))

/-- A command that reads, writes or locks fields: what becomes of a field that is provisioned is up
to the device. -/
def Command.OnFields : Command → Prop
  | .acdProv .. => False
  | _ => True

/-- An invocation of the tool: a process with its memory, and the system under it. -/
structure Invocation where
  command : Command
  onFields : command.OnFields
  exchange : Exchange
  calloc : UInt64
  mem : Mem Block

namespace Invocation

/-- The call of the library that the command makes, if it comes to one. -/
def call (v : Invocation) : Option Call :=
  match v.command with
  | .acdRead index _ =>
      if IndexInRange index then
        some (.getCustomerData v.exchange v.calloc ⟨UInt8.ofInt index, true⟩
          (v.mem.write .outData 0 8 fun _ => 0))
      else none
  | .acdWrite index size maxSize inputFilename =>
      if WriteInRange index size maxSize ∧
          ∃ file ∈ inputFilename, file.Fills (UInt16.ofInt size).toNat then
        some (.setCustomerData v.exchange (writeArgs index size maxSize)
          ((readDataFromFile inputFilename).run v.mem).mem)
      else none
  | .acdLock => some (.lockCustomerData v.exchange v.mem)
  | .acdProv .. => none

section OnDevice

variable {σ : Type} (d : Device σ) (s : σ) (v : Invocation)

/-- The exchange of the library with the device. -/
def exchangeOn : Exchange :=
  match v.call with
  | some c => c.exchangeOn d s
  | none => v.exchange

/-- The run of the tool on a device in the state `s`. -/
def runOn : Run ToolCall Block Int Int :=
  (main (v.exchangeOn d s) v.calloc v.command).run v.mem

/-- The state of the device behind it. -/
def stepOn : σ :=
  match v.call with
  | some c => c.stepOn d s
  | none => s

/-- The device accepts the write that the command comes to. -/
def Accepted : Prop :=
  ∃ c ∈ v.call, c.Delivered ∧ statusOf (c.answer d s) = acdWriteSuccess

instance : Decidable (v.Accepted d s) := inferInstanceAs (Decidable (∃ _ ∈ _, _ ∧ _))

/-- The bytes of a file that the command puts into field `i`. -/
def stores (i : Nat) : Option (List UInt8) :=
  match v.command with
  | .acdWrite index size _ (some file) =>
      if (UInt8.ofInt index).toNat = i ∧ v.Accepted d s then
        file.read.map (List.take (UInt16.ofInt size).toNat)
      else none
  | _ => none

end OnDevice

end Invocation

section Session

variable {σ : Type} (d : Device σ) (field : σ → Nat → List UInt8) (s : σ)

/-- The state of the device after a session. -/
def stateAfter (h : List Invocation) : σ := after (fun s v => v.stepOn d s) s h

/-- The bytes of the file that the last accepted write of a session put into field `i`, or what was
there at its start. -/
def lastStored (h : List Invocation) (i : Nat) : List UInt8 :=
  lastValue (fun e : σ × Invocation => e.2.stores d e.1 i) (field s i)
    (trace (fun s v => v.stepOn d s) s h)

end Session

section Fields

variable {σ : Type} {d : Device σ} {field : σ → Nat → List UInt8}

theorem Invocation.exchangeOn_of_call {v : Invocation} {c : Call} (h : v.call = some c) (s : σ) :
    v.exchangeOn d s = c.exchangeOn d s := by
  unfold exchangeOn
  rw [h]

/-- A command without a call has nothing accepted. -/
theorem Invocation.not_accepted {v : Invocation} (h : v.call = none) (s : σ) :
    ¬ v.Accepted d s := by
  intro haccepted
  obtain ⟨c, hc, -⟩ := haccepted
  rw [h] at hc
  cases hc

theorem Invocation.accepted_iff {v : Invocation} {c : Call} (h : v.call = some c) (s : σ) :
    v.Accepted d s ↔ c.Delivered ∧ statusOf (c.answer d s) = acdWriteSuccess := by
  unfold Accepted
  simp [h]

/-- What the command puts into a field is what its call of the library does. -/
theorem Invocation.stores_eq (v : Invocation) (d : Device σ) (s : σ) (i : Nat) :
    v.stores d s i = v.call.bind fun c => c.sets d s i := by
  obtain ⟨command, hfields, x, calloc, m⟩ := v
  cases command with
  | acdRead index outputFilename =>
      show none = Option.bind (if IndexInRange index then _ else _) _
      split
      · rfl
      · rfl
  | acdWrite index size maxSize inputFilename =>
      by_cases hcalls : WriteInRange index size maxSize ∧
          ∃ file ∈ inputFilename, file.Fills (UInt16.ofInt size).toNat
      · have hcall : (⟨.acdWrite index size maxSize inputFilename, hfields, x, calloc, m⟩ :
            Invocation).call = some (.setCustomerData x (writeArgs index size maxSize)
              ((readDataFromFile inputFilename).run m).mem) := if_pos hcalls
        obtain ⟨-, file, hfile, hfills⟩ := hcalls
        rw [Option.mem_def] at hfile
        subst hfile
        have hiff := Invocation.accepted_iff (d := d) hcall s
        rw [hcall, Option.bind_some, Call.sets_setCustomerData]
        exact if_congr (and_congr Iff.rfl hiff) (mem_readDataFromFile m hfills) rfl
      · have hcall : (⟨.acdWrite index size maxSize inputFilename, hfields, x, calloc, m⟩ :
            Invocation).call = none := if_neg hcalls
        rw [hcall]
        cases inputFilename with
        | none => rfl
        | some file => exact if_neg fun h => Invocation.not_accepted hcall s h.2
  | acdLock => rfl
  | acdProv provisioningSchema inputFilename outputFilename => exact hfields.elim

/-- The tool calls the library for nothing else than to read, to write and to lock. -/
theorem Invocation.leavesOrSets_of_call (v : Invocation) {c : Call} (h : v.call = some c) :
    c.LeavesOrSets := by
  obtain ⟨command, hfields, x, calloc, m⟩ := v
  cases command with
  | acdRead index outputFilename =>
      obtain ⟨-, h⟩ := Option.ite_none_right_eq_some.mp h
      rw [← Option.some.inj h]
      trivial
  | acdWrite index size maxSize inputFilename =>
      obtain ⟨-, h⟩ := Option.ite_none_right_eq_some.mp h
      rw [← Option.some.inj h]
      trivial
  | acdLock =>
      rw [← Option.some.inj h]
      trivial
  | acdProv provisioningSchema inputFilename outputFilename => exact hfields.elim

/-- One invocation puts a file into a field or leaves it. -/
theorem Invocation.field_stepOn (hd : KeepsFields d field) (v : Invocation) (s : σ) (i : Nat) :
    field (v.stepOn d s) i = (v.stores d s i).getD (field s i) := by
  rw [stores_eq]
  unfold stepOn
  cases hcall : v.call with
  | none => rfl
  | some c =>
      exact hd.step (v.leavesOrSets_of_call hcall) s i

/-- Over a session a field is what the last accepted write has put into it. -/
theorem field_stateAfter (hd : KeepsFields d field) (s : σ) (h : List Invocation) (i : Nat) :
    field (stateAfter d s h) i = lastStored d field s h i :=
  after_eq_lastValue (fun s => field s i) s h fun s v _ => v.field_stepOn hd s i

end Fields

/-! ## What is read back -/

section Read

variable {x : Exchange} {calloc : UInt64} {index : Int} {outputFilename : Option OutputFile}
  {m : Mem Block}

/-- Behind a call of the library that fails, no file is touched. -/
theorem calls_doAcdRead_failed (h : IndexInRange index)
    (hfails : (readRun x calloc index m).value < 0) :
    ((doAcdRead x calloc index outputFilename).run m).log.calls =
      [.library (.getCustomerData ⟨UInt8.ofInt index, true⟩)
        (outcomeOf (readRun x calloc index m))] := by
  unfold readRun at hfails ⊢
  unfold doAcdRead clearOutData
  rw [run_bind, h.check, Run.andThen_ok, run_bind, run_put, Run.andThen_ok]
  obtain ⟨l, hcalls, hrun⟩ := run_invoke_bind x calloc
    (.getCustomerData ⟨UInt8.ofInt index, true⟩) (m.write .outData 0 8 fun _ => 0) _
  rw [hrun, run_exitIf_bind, if_pos hfails]
  simp [hcalls]

/-- Behind one that does not, the memory is what the library has left. -/
theorem mem_doAcdRead_passed (h : IndexInRange index)
    (hpasses : 0 ≤ (readRun x calloc index m).value) :
    ((doAcdRead x calloc index outputFilename).run m).mem = (readRun x calloc index m).mem := by
  unfold doAcdRead clearOutData
  rw [run_bind, h.check, Run.andThen_ok, run_bind, run_put, Run.andThen_ok]
  obtain ⟨l, -, hrun⟩ := run_invoke_bind x calloc
    (.getCustomerData ⟨UInt8.ofInt index, true⟩) (m.write .outData 0 8 fun _ => 0) _
  rw [hrun]
  unfold readRun at hpasses ⊢
  generalize ((Operation.getCustomerData ⟨UInt8.ofInt index, true⟩).function x calloc).run
    (m.write .outData 0 8 fun _ => 0) = lib at hpasses ⊢
  obtain ⟨htest, hsame, -⟩ := run_outDataNonNull lib.mem
  obtain ⟨status, hstatus⟩ : ∃ status, ((writeDataToFile outputFilename
    (decide (NonNull lib.mem)) (uint32 lib.value)).run lib.mem).result = .ok status := ⟨_, rfl⟩
  rw [run_exitIf_bind, if_neg (by omega), run_bind, Run.andThen_of_ok htest, hsame, run_bind,
    Run.andThen_of_ok hstatus, run_pure, mem_writeDataToFile]
  simp

/-- What `-acd-read` gives to its file is in a buffer of the library, which is still there at the
end. -/
theorem of_fileWritten_doAcdRead {n : Nat}
    (h : .fileWritten n ∈ ((doAcdRead x calloc index outputFilename).run m).log.calls) :
    IndexInRange index ∧ NonNull (readRun x calloc index m).mem ∧
      (∃ file ∈ outputFilename, ∃ w ∈ file.write,
        n = min w (uint32 (readRun x calloc index m).value)) ∧
      ((doAcdRead x calloc index outputFilename).run m).mem = (readRun x calloc index m).mem := by
  by_cases hindex : IndexInRange index
  · by_cases hpasses : 0 ≤ (readRun x calloc index m).value
    · obtain ⟨-, hcalls⟩ := doAcdRead_passed x calloc index outputFilename m hindex hpasses
      rw [hcalls, List.mem_cons] at h
      obtain ⟨hnonNull, hfile⟩ := of_fileWritten_mem _ (h.resolve_left (nomatch ·))
      exact ⟨hindex, of_decide_eq_true hnonNull, hfile, mem_doAcdRead_passed hindex hpasses⟩
    · rw [calls_doAcdRead_failed hindex (by omega), List.mem_singleton] at h
      cases h
  · rw [doAcdRead_refused x calloc index outputFilename m hindex] at h
    cases h

end Read

/-- In every session, whatever `-acd-read` writes to its file is the beginning of what the last
accepted `-acd-write` took from the file it was given for the field, or of what was in the field at
the start; and it is as much of it as the file takes. -/
theorem files_read_back {σ : Type} {d : Device σ} {field : σ → Nat → List UInt8}
    (hd : KeepsFields d field) (s : σ) (h : List Invocation) :
    Everywhere (fun p v => ∀ index outputFilename, v.command = .acdRead index outputFilename →
      ∀ n, .fileWritten n ∈ (v.runOn d (stateAfter d s p)).log.calls →
        (v.runOn d (stateAfter d s p)).mem.bytes .outBuffer n =
            (lastStored d field s p (UInt8.ofInt index).toNat).take n ∧
          ∃ file ∈ outputFilename, ∃ w ∈ file.write,
            n = min w (lastStored d field s p (UInt8.ofInt index).toNat).length) h := by
  intro p v rest _ index outputFilename hcommand n hwritten
  rw [← field_stateAfter hd]
  generalize stateAfter d s p = s' at hwritten ⊢
  obtain ⟨command, hfields, x, calloc, m⟩ := v
  obtain rfl : command = .acdRead index outputFilename := hcommand
  obtain ⟨hindex, hnonNull, ⟨file, hfile, w, hw, hn⟩, hmem⟩ := of_fileWritten_doAcdRead hwritten
  have hcall : (⟨.acdRead index outputFilename, hfields, x, calloc, m⟩ : Invocation).call =
      some (.getCustomerData x calloc ⟨UInt8.ofInt index, true⟩
        (m.write .outData 0 8 fun _ => 0)) := if_pos hindex
  have hrun : readRun (Invocation.exchangeOn d s' ⟨.acdRead index outputFilename, hfields, x,
      calloc, m⟩) calloc index m = getOn d s' x calloc ⟨UInt8.ofInt index, true⟩
        (m.write .outData 0 8 fun _ => 0) := by
    rw [Invocation.exchangeOn_of_call hcall]
    rfl
  rw [hrun] at hnonNull hn hmem
  generalize hi : (UInt8.ofInt index).toNat = i
  have hhands : HandsNothing (m.write .outData 0 8 fun _ => 0) (getOn d s' x calloc
      ⟨UInt8.ofInt index, true⟩ (m.write .outData 0 8 fun _ => 0)).mem ∨
        (field s' i).length ≤ acdMaxDataSizeInBytes ∧ Gives calloc (field s' i) (getOn d s' x calloc
          ⟨UInt8.ofInt index, true⟩ (m.write .outData 0 8 fun _ => 0)) :=
    hi ▸ getOn_gives hd s' x calloc ⟨UInt8.ofInt index, true⟩ (m.write .outData 0 8 fun _ => 0)
  generalize getOn d s' x calloc ⟨UInt8.ofInt index, true⟩ (m.write .outData 0 8 fun _ => 0) =
    lib at hnonNull hn hmem hhands
  rcases hhands with hnothing | ⟨hlength, hgives⟩
  · exact absurd hnonNull (not_nonNull_of_handsNothing m hnothing)
  · have hcount : uint32 lib.value = (field s' i).length := by
      rw [hgives.value, uint32]
      simp only [acdMaxDataSizeInBytes] at hlength
      omega
    rw [hcount] at hn
    have hle : n ≤ (field s' i).length := hn ▸ Nat.min_le_right w _
    refine ⟨?_, file, hfile, w, hw, hn⟩
    show ((doAcdRead _ calloc index outputFilename).run m).mem.bytes .outBuffer n = _
    rw [hmem, ← Mem.take_bytes lib.mem .outBuffer hle, hgives.buffer]

/-- A file of two bytes is written to field 7, and read from it into a file that takes them. -/
def writeSeven : Invocation :=
  ⟨.acdWrite 7 2 2 (some ⟨true, some 2, true, some [5, 6]⟩), trivial, answering 528 [], 4096,
    .ofLists fun _ => []⟩

def readSeven : Invocation :=
  ⟨.acdRead 7 (some ⟨true, some 2⟩), trivial, answering 8 [], 4096, .ofLists fun _ => []⟩

theorem fileWritten_readSeven : .fileWritten 2 ∈ (readSeven.runOn tableDevice
    (stateAfter tableDevice (fun _ => []) [writeSeven])).log.calls := by
  decide +kernel

theorem lastStored_writeSeven :
    lastStored tableDevice (fun s => s) (fun _ => []) [writeSeven] 7 = [5, 6] := by
  decide +kernel

/-- The bytes of the first file are in the buffer that the second one is written from. -/
theorem files_read_back_seven :
    (readSeven.runOn tableDevice
      (stateAfter tableDevice (fun _ => []) [writeSeven])).mem.bytes .outBuffer 2 = [5, 6] := by
  have hread := files_read_back tableDevice_keeps (fun _ => []) [writeSeven, readSeven]
    [writeSeven] readSeven [] rfl 7 _ rfl 2 fileWritten_readSeven
  have hseven : (UInt8.ofInt 7).toNat = 7 := by decide
  rw [hseven, lastStored_writeSeven] at hread
  exact hread.1

end Txei.SecTool

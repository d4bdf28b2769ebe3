import Txei.Machine.Latch
import Txei.Keymaster.Exchange

/-!
# The capabilities over many calls

`caps_obtained` and `key_opaque_size` are the two objects that outlive a call. A run is a history
of calls, each with its own arguments, environment and memory, in which the statics are the ones
that the call before left. Together they are a latch: `key_opaque_size` counts once `caps_obtained`
is set, `get_caps` sets both, and nothing changes them afterwards. `capsOnce` draws the
consequences for every run.
-/

namespace Txei.Keymaster

open Machine Machine.Prog Mei

/-! ## Runs -/

/-- One call: its arguments, what the environment answers, and the bytes its caller and the
allocator provide. -/
structure Call where
  args : Args
  env : Env
  provided : Mem Block

/-- The objects that outlive a call. -/
def Block.isStatic : Block → Bool
  | capsObtained => true
  | keyOpaqueSize => true
  | _ => false

/-- The memory a call starts in: the statics as they are, everything else as provided. -/
def Call.start (call : Call) (statics : Mem Block) : Mem Block :=
  fun b => if b.isStatic then statics b else call.provided b

/-- The run of a call. -/
def Call.run (call : Call) (statics : Mem Block) : Run DeviceCall Block Failure Unit :=
  (sepKeymasterSendCmd call.args call.env).run (call.start statics)

/-- A call as a step of a run. -/
def Call.step (statics : Mem Block) (call : Call) : Mem Block := (call.run statics).mem

/-- The statics after a history of calls, from the zeros they are initialised with. -/
def staticsAfter (h : List Call) : Mem Block := after Call.step (fun _ _ => 0) h

section Queries

variable (call : Call) (statics : Mem Block)

/-- The call gets to `get_caps`. -/
def QueriesCaps : Prop :=
  call.args.Valid (call.start statics) ∧ statics.word .capsObtained 0 = 0

/-- The `get_caps` of a call. -/
def capsRun : Run DeviceCall Block Failure Unit :=
  (getCaps call.env.mallocCaps call.env.caps).run (call.start statics)

/-- The call queries the capabilities, and `get_caps` succeeds. -/
def CapsSucceeds : Prop := QueriesCaps call statics ∧ (capsRun call statics).result = .ok ()

/-- The call queries the capabilities, and `get_caps` fails. -/
def CapsFails : Prop := QueriesCaps call statics ∧ (capsRun call statics).result ≠ .ok ()

/-- The run of a call up to the point where it builds its request. -/
def prologueRun : Run DeviceCall Block Failure Unit :=
  (prologue call.args call.env).run (call.start statics)

/-- The call gets to `generate_cmd_buf`. -/
def BuildsRequest : Prop := (prologueRun call statics).result = .ok ()

/-- The value of the statics as a latch: a `key_opaque_size` that has been obtained. -/
def obtained : Option Nat :=
  if statics.word .capsObtained 0 = 0 then none else some (opaqueSize statics)

end Queries

/-! ## One call -/

section OneCall

variable (call : Call) (statics : Mem Block)

theorem start_word {b : Block} (hb : b.isStatic = true) (o : Nat) :
    (call.start statics).word b o = statics.word b o := by
  simp only [Mem.word, Call.start, hb, if_true]

/-- A failed `get_caps` leaves `key_opaque_size` alone. -/
theorem getCaps_error {mallocCaps : Bool} {x : Exchange} {m : Mem Block}
    (h : ((getCaps mallocCaps x).run m).result ≠ .ok ()) :
    ((getCaps mallocCaps x).run m).mem .keyOpaqueSize = m .keyOpaqueSize := by
  cases mallocCaps with
  | false => simp [getCaps]
  | true =>
      have hstart : capsStart m .keyOpaqueSize = m .keyOpaqueSize := by
        simp only [capsStart, Mem.write_other _ _ _ _ (show Block.keyOpaqueSize ≠ .capsRequest by
          decide), Mem.write_other _ _ _ _ (show Block.keyOpaqueSize ≠ .capsResponse by decide)]
      have hsend := (within_sendReqToFw x .capsRequest ReqHeader.size .capsResponse
        agentMaxMtu).mem_eq (b := .keyOpaqueSize) (by decide) (capsStart m)
      rw [getCaps_run] at h ⊢
      cases hres : ((sendReqToFw x .capsRequest ReqHeader.size .capsResponse agentMaxMtu).run
          (capsStart m)).result with
      | error e =>
          rw [Run.andThen_of_error hres]
          exact hsend.trans hstart
      | ok u =>
          rw [Run.andThen_of_ok hres] at h ⊢
          simp only [run_bind, run_load, Run.andThen_ok, run_exitIf, Run.prepend_result,
            Run.prepend_mem] at h ⊢
          split
          · -- the firmware reports a failure
            exact hsend.trans hstart
          · rename_i hcode
            rw [if_neg hcode] at h
            refine absurd ?_ h
            simp only [Run.andThen_ok, Run.prepend_result, run_bind, run_load]
            exact (capsRounds_spec _ _).1

/-- The call up to its request, when it queries the capabilities. -/
theorem prologueRun_query (h : QueriesCaps call statics) :
    prologueRun call statics =
      ((capsRun call statics).andThen fun _ => (store .capsObtained 0 1 : Proc Unit).run).prepend
        [.read .rspLength 0 4, .read .capsObtained 0 4] := by
  obtain ⟨hvalid, hobtained⟩ := h
  have hword := start_word call statics (b := .capsObtained) rfl 0
  unfold prologueRun
  rw [prologue_valid hvalid, hword, run_onlyIf, if_pos hobtained, run_bind]
  rfl

/-- Only a query changes the memory in front of the request. -/
theorem prologueRun_mem (h : ¬ QueriesCaps call statics) :
    (prologueRun call statics).mem = call.start statics := by
  unfold prologueRun
  by_cases hvalid : call.args.Valid (call.start statics)
  · have hword := start_word call statics (b := .capsObtained) rfl 0
    have hobtained : ¬ statics.word .capsObtained 0 = 0 := fun hzero => h ⟨hvalid, hzero⟩
    rw [prologue_valid hvalid, hword, run_onlyIf, if_neg hobtained]
    rfl
  · obtain ⟨e, -, hmem⟩ := prologue_invalid hvalid call.env
    exact hmem

/-- A call without a successful query keeps the statics up to its request. -/
theorem prologueRun_keeps (h : ¬ CapsSucceeds call statics) {b : Block} (hb : b.isStatic = true) :
    (prologueRun call statics).mem b = statics b := by
  have hstart : call.start statics b = statics b := by
    simp only [Call.start, hb, if_true]
  by_cases hquery : QueriesCaps call statics
  · have hfail : (capsRun call statics).result ≠ .ok () := fun hok => h ⟨hquery, hok⟩
    have hsize := getCaps_error hfail
    cases hres : (capsRun call statics).result with
    | ok u => exact absurd hres hfail
    | error e =>
        rw [prologueRun_query call statics hquery, Run.prepend_mem, Run.andThen_of_error hres]
        rw [← hstart]
        -- the query writes one of the two, and only if it succeeds
        match b, hb with
        | .capsObtained, _ => exact (within_getCaps _ _).mem_eq (by decide) _
        | .keyOpaqueSize, _ => exact hsize
  · rw [prologueRun_mem call statics hquery, hstart]

/-- A successful query sets both statics, and the call goes on. -/
theorem prologueRun_succeeds (h : CapsSucceeds call statics) :
    (prologueRun call statics).result = .ok () ∧
      (prologueRun call statics).mem.word .capsObtained 0 = 1 ∧
      opaqueSize (prologueRun call statics).mem = opaqueSize (capsRun call statics).mem := by
  obtain ⟨hquery, hok⟩ := h
  rw [prologueRun_query call statics hquery, Run.andThen_of_ok hok]
  simp
  rfl

/-- A call that builds a request has the capabilities. -/
theorem prologueRun_obtained (h : BuildsRequest call statics) :
    obtained (prologueRun call statics).mem = some (opaqueSize (prologueRun call statics).mem) := by
  have hset : (prologueRun call statics).mem.word .capsObtained 0 ≠ 0 := by
    by_cases hquery : QueriesCaps call statics
    · -- a query that fails would have ended the call
      have hok : (capsRun call statics).result = .ok () := by
        cases hres : (capsRun call statics).result with
        | ok u => rfl
        | error e =>
            unfold BuildsRequest at h
            rw [prologueRun_query call statics hquery, Run.prepend_result,
              Run.andThen_of_error hres] at h
            cases h
      rw [(prologueRun_succeeds call statics ⟨hquery, hok⟩).2.1]
      decide
    · have hvalid : call.args.Valid (call.start statics) := by
        by_contra hno
        obtain ⟨e, he, -⟩ := prologue_invalid hno call.env
        cases he.symm.trans h
      rw [prologueRun_mem call statics hquery, start_word call statics rfl]
      exact fun hzero => hquery ⟨hvalid, hzero⟩
  exact if_neg hset

/-- What a call does from its request on. -/
def behindPrologue (env : Env) : Proc Unit := do
  let fwRequestLen ← translateCmd env.mallocRequest
  exchangeReply env fwRequestLen
  decodeReply

theorem within_behindPrologue (env : Env) :
    Within (Event.In [.cmdBuffer, .keyOpaqueSize, .request, .rspLength, .response, .rspBuffer]
      [.request, .response, .rspBuffer, .rspLength]) (behindPrologue env) := by
  refine .bind ((within_translateCmd _).widen ?_ ?_) fun n =>
    .bind ((within_exchangeReply _ n).widen ?_ ?_) fun _ => within_decodeReply.widen ?_ ?_
  all_goals simp

theorem run_call :
    call.run statics =
      (prologueRun call statics).andThen fun _ => (behindPrologue call.env).run := rfl

/-- Behind `get_caps` no call touches the statics. -/
theorem step_static {b : Block} (hb : b.isStatic = true) :
    call.step statics b = (prologueRun call statics).mem b := by
  have hnot : b ∉ [Block.request, .response, .rspBuffer, .rspLength] := by
    intro hmem
    simp only [List.mem_cons, List.not_mem_nil, or_false] at hmem
    rcases hmem with rfl | rfl | rfl | rfl <;> cases hb
  unfold Call.step
  rw [run_call]
  cases hres : (prologueRun call statics).result with
  | error e => rw [Run.andThen_of_error hres]
  | ok u =>
      rw [Run.andThen_of_ok hres, Run.prepend_mem]
      exact (within_behindPrologue call.env).mem_eq hnot _

theorem obtained_congr {m m' : Mem Block} (h : ∀ b, b.isStatic = true → m' b = m b) :
    obtained m' = obtained m := by
  have hset : m'.word .capsObtained 0 = m.word .capsObtained 0 := by
    simp only [Mem.word, h .capsObtained rfl]
  have hsize : m'.word .keyOpaqueSize 0 = m.word .keyOpaqueSize 0 := by
    simp only [Mem.word, h .keyOpaqueSize rfl]
  simp only [obtained, opaqueSize, hset, hsize]

theorem obtained_step : obtained (call.step statics) = obtained (prologueRun call statics).mem :=
  obtained_congr fun _ hb => step_static call statics hb

theorem obtained_eq_none_iff : obtained statics = none ↔ statics.word .capsObtained 0 = 0 := by
  unfold obtained
  split <;> simp [*]

/-- A call that builds a request leaves the `key_opaque_size` it builds it with. -/
theorem obtained_of_builds (h : BuildsRequest call statics) :
    obtained (call.step statics) = some (opaqueSize (prologueRun call statics).mem) := by
  rw [obtained_step, prologueRun_obtained call statics h]

/-- A successful query leaves the `key_opaque_size` of `get_caps`. -/
theorem obtained_of_succeeds (h : CapsSucceeds call statics) :
    obtained (call.step statics) = some (opaqueSize (capsRun call statics).mem) := by
  obtain ⟨hbuilds, -, hsize⟩ := prologueRun_succeeds call statics h
  rw [obtained_of_builds call statics hbuilds, hsize]

/-- The calls that set the latch are those whose query succeeds. -/
theorem sets_iff : Latch.Sets Call.step obtained statics call ↔ CapsSucceeds call statics := by
  constructor
  · intro hsets
    by_contra hno
    refine hsets.2 ?_
    rw [obtained_step, obtained_congr fun _ hb => prologueRun_keeps call statics hno hb]
    exact hsets.1
  · intro hsucc
    exact ⟨(obtained_eq_none_iff statics).mpr hsucc.1.2, by simp [obtained_of_succeeds, hsucc]⟩

end OneCall

/-! ## Every run -/

/-- No call changes capabilities that have been obtained. -/
theorem obtained_kept : Latch.Kept Call.step obtained := by
  intro statics call v hv
  have hno : ¬ CapsSucceeds call statics := by
    intro hsucc
    rw [(obtained_eq_none_iff statics).mpr hsucc.1.2] at hv
    cases hv
  rw [obtained_step, obtained_congr fun _ hb => prologueRun_keeps call statics hno hb, hv]

theorem obtained_initial : obtained (staticsAfter []) = none := by
  decide

/-- What the run `h` makes of the capabilities. -/
structure CapsOnce (h : List Call) : Prop where
  /-- At most one query succeeds. -/
  once : Everywhere (fun p call => CapsSucceeds call (staticsAfter p) →
    Everywhere (fun p' call' => ¬ CapsSucceeds call' (staticsAfter p')) p) h
  /-- A call whose query fails shows the firmware no request and leaves the statics. -/
  failed : Everywhere (fun p call => CapsFails call (staticsAfter p) →
    (∃ e, (call.run (staticsAfter p)).result = .error e) ∧
      (∀ e ∈ (call.run (staticsAfter p)).log, ∀ i, ¬ e.Reads .request i) ∧
      ∀ b, b.isStatic = true → staticsAfter (p ++ [call]) b = staticsAfter p b) h
  /-- A valid call queries exactly when no query before it has succeeded. -/
  queries : Everywhere (fun p call => call.args.Valid (call.start (staticsAfter p)) →
    (QueriesCaps call (staticsAfter p) ↔
      Everywhere (fun p' call' => ¬ CapsSucceeds call' (staticsAfter p')) p)) h
  /-- A request is built with the `key_opaque_size` that the successful query left. -/
  built : Everywhere (fun p call => BuildsRequest call (staticsAfter p) →
    ∃ p' call' q', p ++ [call] = p' ++ call' :: q' ∧ CapsSucceeds call' (staticsAfter p') ∧
      opaqueSize (prologueRun call (staticsAfter p)).mem =
        opaqueSize (capsRun call' (staticsAfter p')).mem) h

/-- A call whose query fails ends there. -/
theorem run_of_capsFails {call : Call} {statics : Mem Block} (h : CapsFails call statics) :
    (∃ e, (call.run statics).result = .error e) ∧
      ∀ e ∈ (call.run statics).log, ∀ i, ¬ e.Reads .request i := by
  obtain ⟨hquery, hfail⟩ := h
  cases hres : (capsRun call statics).result with
  | ok u => exact absurd hres hfail
  | error e =>
      have hprologue : (prologueRun call statics).result = .error e := by
        rw [prologueRun_query call statics hquery, Run.prepend_result, Run.andThen_of_error hres]
      have hrun : call.run statics =
          ⟨.error e, (prologueRun call statics).mem, (prologueRun call statics).log⟩ := by
        rw [run_call, Run.andThen_of_error hprologue]
      rw [hrun]
      exact ⟨⟨e, rfl⟩, fun ev hev => (within_prologue _ _ _ ev hev).not_reads (by decide)⟩

theorem none_succeeded_iff (p : List Call) :
    (staticsAfter p).word .capsObtained 0 = 0 ↔
      Everywhere (fun p' call' => ¬ CapsSucceeds call' (staticsAfter p')) p := by
  rw [← obtained_eq_none_iff]
  refine (Latch.latch_eq_none_iff obtained_kept obtained_initial p).trans ?_
  exact Everywhere.congr (fun p' call' => not_congr (sets_iff call' (staticsAfter p'))) p

/-- In every run at most one query of the capabilities succeeds; a call whose query fails sends no
request and leaves the statics, so that the next valid call queries again; and every request is
built with the `key_opaque_size` that the one successful query left. -/
theorem capsOnce (h : List Call) : CapsOnce h where
  once := by
    refine (Everywhere.congr (fun p call => ?_) h).mp
      (Latch.sets_once obtained_kept obtained_initial h)
    exact imp_congr (sets_iff call (staticsAfter p))
      (Everywhere.congr (fun p' call' => not_congr (sets_iff call' (staticsAfter p'))) p)
  failed p call _ _ hfails := by
    obtain ⟨herror, hreads⟩ := run_of_capsFails hfails
    refine ⟨herror, hreads, fun b hb => ?_⟩
    have hno : ¬ CapsSucceeds call (staticsAfter p) := fun hsucc => hfails.2 hsucc.2
    rw [staticsAfter, after_snoc]
    exact (step_static call _ hb).trans (prologueRun_keeps call _ hno hb)
  queries p call _ _ hvalid := by
    rw [← none_succeeded_iff]
    exact and_iff_right hvalid
  built p call _ _ hbuilds := by
    have hleft : obtained (staticsAfter (p ++ [call])) =
        some (opaqueSize (prologueRun call (staticsAfter p)).mem) := by
      rw [staticsAfter, after_snoc]
      exact obtained_of_builds call _ hbuilds
    obtain ⟨p', call', q', heq, hsets, hvalue⟩ :=
      (Latch.latch_eq_some_iff obtained_kept obtained_initial _ _).mp hleft
    have hsucc := (sets_iff call' _).mp hsets
    refine ⟨p', call', q', heq, hsucc, ?_⟩
    exact Option.some.inj (hvalue.symm.trans (obtained_of_succeeds call' _ hsucc))

end Txei.Keymaster

import Txei.SecTool.Protection
import Txei.SecTool.Transfers

/-!
# The command line of the security tool

`main` of `sec_tools_app.c`: the loop over the options, and the operation behind it. What
`getopt_long_only` finds at each turn of the loop is data of the command line, any at all: the
option, its argument, and where in `argv` the next word is. The options set local variables that all
of them share, and the operation is found in these. `parse_eq` says that no option leaves anything
to another: each is accepted or refused by itself, and the operation is that of the last one.
-/

namespace Txei.SecTool

open Machine Machine.Prog Mei Acd

/-- A word of the command line. -/
abbrev Text : Type := List UInt8

/-- The values of `what_to_do` that stand for an operation. -/
inductive WhatToDo where
  | doAcdRead
  | doAcdWrite
  | doAcdLock
  | doAcdProv
  | doEpidProv
  | doPmdbRead
  | doPmdbWrite
  | doPmdbLock
  | doGppWpStatus
  | doGppWpLock
  | doRpmbProv
  | doAcdWipe
  deriving DecidableEq, Repr

/-- The number of words that an operation asks for, with the name of the tool. -/
def WhatToDo.argCount : WhatToDo → Nat
  | doAcdRead => 4
  | doAcdWrite => 6
  | doAcdLock => 2
  | doAcdProv => 5
  | doEpidProv => 3
  | doPmdbRead => 4
  | doPmdbWrite => 4
  | doPmdbLock => 2
  | doGppWpStatus => 2
  | doGppWpLock => 2
  | doRpmbProv => 2
  | doAcdWipe => 2

/-- What `getopt_long_only` returns while there are options. -/
inductive OptionValue where
  | help
  | operation (w : WhatToDo)
  | unknown
  deriving DecidableEq, Repr

/-- A turn of the loop: what `getopt_long_only` returns, and its `optarg` and `optind`. -/
structure Getopt where
  c : OptionValue
  optarg : Option Text
  optind : Nat
  deriving DecidableEq, Repr

/-- The command line as `getopt_long_only` goes through it: its options, and `optind` behind them.
A word that is not there is a null pointer. -/
structure CommandLine where
  argc : Nat
  argv : Nat → Option Text
  options : List Getopt
  optind : Nat

/-- `sep_pmdb_area_t`. -/
inductive SepPmdbArea where
  | sepPmdbWriteOnce
  | sepPmdbWriteMany
  deriving DecidableEq, Repr

/-- The local variables of `main` that the options set. -/
structure MainLocals where
  whatToDo : Option WhatToDo
  acdIndex : UInt8
  dataSize : UInt16
  dataMaxSize : UInt16
  provisioningSchema : Int
  inputFilename : Option Text
  outputFilename : Option Text
  whichArea : Option SepPmdbArea
  deriving DecidableEq, Repr

/-- The local variables at the start. -/
def MainLocals.initial : MainLocals :=
  ⟨none, 0, 0, 0, acdMaxProvisionngSchema + 1, none, none, none⟩

/-- How the loop is left early: with a status, or because a word that is not there is read. -/
inductive Leave where
  | exited (status : Int)
  | crashed
  deriving DecidableEq, Repr

/-- Print the usage and return `EXIT_FAILURE`. -/
def refuseIf (c : Prop) [Decidable c] : Except Leave Unit :=
  if c then .error (.exited exitFailure) else .ok ()

/-- A word that is read. -/
def readWord (word : Option Text) : Except Leave Text :=
  match word with
  | some t => .ok t
  | none => .error .crashed

/-- `strncmp` of a word with `PMDB_WO_AREA_STR` and `PMDB_WM_AREA_STR`, over their lengths. -/
def pmdbArea (sType : Text) : Option SepPmdbArea :=
  if [87, 79].isPrefixOf sType then some .sepPmdbWriteOnce
  else if [87, 77].isPrefixOf sType then some .sepPmdbWriteMany
  else none

/-- A turn of the loop over the options. -/
def processOption (lib : CLibrary) (line : CommandLine) (l : MainLocals) (g : Getopt) :
    Except Leave MainLocals :=
  match g.c with
  | .help => .error (.exited exitSuccess)
  | .operation .doAcdRead => do
      refuseIf (line.argc ≠ WhatToDo.argCount .doAcdRead)
      let index ← readWord g.optarg
      let acdIndex := UInt8.ofInt (lib.atoi index)
      refuseIf (acdIndex.toNat < acdMinFieldIndex ∨ acdMaxFieldIndex < acdIndex.toNat)
      pure { l with
        whatToDo := some .doAcdRead
        acdIndex := acdIndex
        outputFilename := line.argv g.optind }
  | .operation .doAcdWrite => do
      refuseIf (line.argc ≠ WhatToDo.argCount .doAcdWrite)
      let index ← readWord g.optarg
      let acdIndex := UInt8.ofInt (lib.atoi index)
      refuseIf (acdIndex.toNat < acdMinFieldIndex ∨ acdMaxFieldIndex < acdIndex.toNat)
      let size ← readWord (line.argv (g.optind + 1))
      let dataSize := UInt16.ofInt (lib.atoi size)
      refuseIf (acdMaxDataSizeInBytes < dataSize.toNat)
      let maxSize ← readWord (line.argv (g.optind + 2))
      let dataMaxSize := UInt16.ofInt (lib.atoi maxSize)
      refuseIf (acdMaxDataSizeInBytes < dataMaxSize.toNat)
      refuseIf (dataMaxSize.toNat < dataSize.toNat)
      pure { l with
        whatToDo := some .doAcdWrite
        acdIndex := acdIndex
        inputFilename := line.argv g.optind
        dataSize := dataSize
        dataMaxSize := dataMaxSize }
  | .operation .doAcdProv => do
      refuseIf (line.argc ≠ WhatToDo.argCount .doAcdProv)
      let schema ← readWord g.optarg
      let provisioningSchema := lib.atoi schema
      refuseIf (provisioningSchema < acdMinProvisionngSchema ∨
        acdMaxProvisionngSchema < provisioningSchema)
      pure { l with
        whatToDo := some .doAcdProv
        provisioningSchema := provisioningSchema
        inputFilename := line.argv g.optind
        outputFilename := line.argv (g.optind + 1) }
  | .operation .doEpidProv => do
      refuseIf (line.argc ≠ WhatToDo.argCount .doEpidProv)
      pure { l with whatToDo := some .doEpidProv, inputFilename := g.optarg }
  | .operation .doPmdbRead => do
      refuseIf (line.argc ≠ WhatToDo.argCount .doPmdbRead)
      let area := pmdbArea (← readWord g.optarg)
      refuseIf (area = none)
      pure { l with
        whatToDo := some .doPmdbRead
        outputFilename := line.argv g.optind
        whichArea := area }
  | .operation .doPmdbWrite => do
      refuseIf (line.argc ≠ WhatToDo.argCount .doPmdbWrite)
      let area := pmdbArea (← readWord g.optarg)
      refuseIf (area = none)
      pure { l with
        whatToDo := some .doPmdbWrite
        inputFilename := line.argv g.optind
        whichArea := area }
  | .operation w => do
      -- the cases without an argument
      refuseIf (line.argc ≠ w.argCount)
      pure { l with whatToDo := some w }
  | .unknown => .error (.exited exitFailure)

/-- What the tool does behind the loop: the calls of the `switch`, with their arguments. -/
inductive Action where
  | provisionAndroidCustomerData (provisioningSchema : Int)
      (inputFilename outputFilename : Option Text)
  | provisionEpid
  | lockCustomerData
  | wipeCustomerData
  | getCustomerData (acdIndex : UInt8) (outputFilename : Option Text)
  | setCustomerData (acdIndex : UInt8) (dataSize dataMaxSize : UInt16)
      (inputFilename : Option Text)
  | pmdbRead (whichArea : Option SepPmdbArea) (outputFilename : Option Text)
  | pmdbWrite (whichArea : Option SepPmdbArea) (inputFilename : Option Text)
  | pmdbLock
  | gppReadWpStatus
  | gppWriteprotect
  | rpmbProvisionKey
  | usage
  deriving DecidableEq, Repr

/-- The `switch` over `what_to_do`. -/
def MainLocals.action (l : MainLocals) : Action :=
  match l.whatToDo with
  | some .doAcdProv =>
      .provisionAndroidCustomerData l.provisioningSchema l.inputFilename l.outputFilename
  | some .doEpidProv => .provisionEpid
  | some .doAcdLock => .lockCustomerData
  | some .doAcdWipe => .wipeCustomerData
  | some .doAcdRead => .getCustomerData l.acdIndex l.outputFilename
  | some .doAcdWrite => .setCustomerData l.acdIndex l.dataSize l.dataMaxSize l.inputFilename
  | some .doPmdbRead => .pmdbRead l.whichArea l.outputFilename
  | some .doPmdbWrite => .pmdbWrite l.whichArea l.inputFilename
  | some .doPmdbLock => .pmdbLock
  | some .doGppWpStatus => .gppReadWpStatus
  | some .doGppWpLock => .gppWriteprotect
  | some .doRpmbProv => .rpmbProvisionKey
  | none => .usage

/-- `main` up to the `switch`: the loop, and the words that are left over. -/
def parse (lib : CLibrary) (line : CommandLine) : Except Leave Action := do
  let l ← line.options.foldlM (processOption lib line) MainLocals.initial
  refuseIf (line.optind < line.argc)
  pure l.action

/-! ## One option by itself -/

/-- What an option stands for, on local variables that no other option has set. -/
def operation (lib : CLibrary) (line : CommandLine) (g : Getopt) : Except Leave Action :=
  (processOption lib line .initial g).map MainLocals.action

theorem map_bind_action {α : Type} (x : Except Leave α) (f : α → Except Leave MainLocals) :
    (x >>= f).map MainLocals.action = x >>= fun a => (f a).map MainLocals.action := by
  cases x with
  | error e => rfl
  | ok a => rfl

section Options

variable (lib : CLibrary) (line : CommandLine)

/-- The operation of an option is found in local variables that the option has set itself. -/
theorem map_processOption (l : MainLocals) (g : Getopt) :
    (processOption lib line l g).map MainLocals.action = operation lib line g := by
  obtain ⟨c, optarg, optind⟩ := g
  cases c with
  | help => rfl
  | unknown => rfl
  | operation w =>
      cases w with
      | _ =>
          simp only [operation, processOption, map_bind_action]
          rfl

/-- The loop from any local variables on. -/
theorem map_foldlM_processOption (h : List Getopt) (l : MainLocals) :
    (h.foldlM (processOption lib line) l).map MainLocals.action =
      (h.mapM (operation lib line)).map fun actions => actions.getLast?.getD l.action := by
  induction h generalizing l with
  | nil => rfl
  | cons g h ih =>
      have hone := map_processOption lib line l g
      rw [List.foldlM_cons, List.mapM_cons]
      cases hg : processOption lib line l g with
      | error e =>
          rw [hg] at hone
          rw [← hone]
          rfl
      | ok l' =>
          rw [hg] at hone
          have hrest := ih l'
          rw [← hone]
          show (h.foldlM (processOption lib line) l').map MainLocals.action = _
          rw [hrest]
          cases h.mapM (operation lib line) with
          | error e => rfl
          | ok actions =>
              show Except.ok (actions.getLast?.getD l'.action) =
                Except.ok ((l'.action :: actions).getLast?.getD l.action)
              rw [List.getLast?_cons, Option.getD_some]

/-- Every option of the line is accepted by itself, in order; nothing is left over; and what the
tool does is what the last option stands for. -/
def parseEach : Except Leave Action := do
  let actions ← line.options.mapM (operation lib line)
  refuseIf (line.optind < line.argc)
  pure (actions.getLast?.getD .usage)

/-- The options do not interfere. -/
theorem parse_eq : parse lib line = parseEach lib line := by
  have hloop := map_foldlM_processOption lib line line.options .initial
  unfold parse parseEach
  cases hfold : line.options.foldlM (processOption lib line) MainLocals.initial with
  | error e =>
      rw [hfold] at hloop
      cases hmap : line.options.mapM (operation lib line) with
      | error e' =>
          rw [hmap] at hloop
          exact hloop
      | ok actions =>
          rw [hmap] at hloop
          cases hloop
  | ok l =>
      rw [hfold] at hloop
      cases hmap : line.options.mapM (operation lib line) with
      | error e =>
          rw [hmap] at hloop
          cases hloop
      | ok actions =>
          rw [hmap] at hloop
          have hlast : l.action = actions.getLast?.getD .usage := Except.ok.inj hloop
          show (refuseIf _ >>= fun _ => pure l.action) = _
          rw [hlast]
          rfl

end Options

/-! ## What the tool does -/

/-- The system around the tool: the C library, the files by their names, the device, and what the
attributes of the MMC driver answer. -/
structure Environment where
  lib : CLibrary
  input : Text → InputFile
  output : Text → OutputFile
  exchange : Exchange
  calloc : UInt64
  status : StatusAnswers
  lock : LockAnswers

/-- `PMDB_SUCCESSFUL`. -/
abbrev pmdbSuccessful : Nat := 0

/-- `PMDB_FAIL_UNSUPPORTED`. -/
abbrev pmdbFailUnsupported : Nat := 0xA0B401

/-- `RPMB_KEY_PROV_SUCCESS`. -/
abbrev rpmbKeyProvSuccess : Nat := 0

/-- `MAX_PMDB_AREA_SIZE_IN_BYTES`. -/
abbrev maxPmdbAreaSizeInBytes : Nat := 256

/-- `pmdb_read`. Built for Bay Trail, `sep_pmdb_read` is not supported. -/
def pmdbRead (outputFilename : Option OutputFile) : Tool Int := returned do
  exitIf (pmdbFailUnsupported ≠ pmdbSuccessful) exitFailure
  writeDataToFile outputFilename true maxPmdbAreaSizeInBytes

/-- `pmdb_write`. Nor is `sep_pmdb_write`. -/
def pmdbWrite (inputFilename : Option InputFile) : Tool Int := returned do
  let input ← readDataFromFile inputFilename
  exitIf (input.result = exitFailure) exitFailure
  exitIf (input.dataSizeInBytes = 0) exitFailure
  exitIf (maxPmdbAreaSizeInBytes < input.dataSizeInBytes) exitFailure
  exitIf (pmdbFailUnsupported ≠ pmdbSuccessful) exitFailure
  pure exitSuccess

/-- `pmdb_lock`. -/
def pmdbLock : Tool Int := returned do
  exitIf (pmdbFailUnsupported ≠ pmdbSuccessful) exitFailure
  pure exitSuccess

/-- `rpmb_provision_key`. -/
def rpmbProvisionKey : Tool Int := returned do
  exitIf (pmdbFailUnsupported ≠ rpmbKeyProvSuccess) exitFailure
  pure exitSuccess

/-- The lines of the case `DO_ACD_READ` of the `switch`. -/
def readField (x : Exchange) (calloc : UInt64) (acdIndex : UInt8)
    (outputFilename : Option OutputFile) : Tool Int := do
  clearOutData
  let result ← invoke x calloc (.getCustomerData ⟨acdIndex, true⟩)
  exitIf (result < 0) exitFailure
  let pDataBuffer ← outDataNonNull
  let _ ← writeDataToFile outputFilename pDataBuffer (uint32 result)
  pure exitSuccess

/-- A program over the objects of the customer data library, or over those of the attributes. -/
inductive Program where
  | tool (p : Tool Int)
  | gpp (p : Prog GppCall GppBlock Int Int)

/-- The `switch` of `main` in a build without `EPID_ENABLED`. -/
def Action.program (e : Environment) : Action → Program
  | provisionAndroidCustomerData schema inputFilename outputFilename =>
      .tool (SecTool.provisionAndroidCustomerData e.exchange e.calloc schema
        (inputFilename.map e.input) (outputFilename.map e.output))
  | provisionEpid => .tool (pure exitSuccess)
  | lockCustomerData => .tool (doAcdLock e.exchange e.calloc)
  | wipeCustomerData => .tool do
      let result ← returned (hideCalls (Acd.wipeCustomerData e.exchange))
      exitIf (result < 0) exitFailure
      pure exitSuccess
  | getCustomerData acdIndex outputFilename =>
      .tool (readField e.exchange e.calloc acdIndex (outputFilename.map e.output))
  | setCustomerData acdIndex dataSize dataMaxSize inputFilename =>
      .tool (writeFile e.exchange e.calloc ⟨acdIndex, dataSize, dataMaxSize, true⟩
        (inputFilename.map e.input))
  | pmdbRead _ outputFilename => .tool (SecTool.pmdbRead (outputFilename.map e.output))
  | pmdbWrite _ inputFilename => .tool (SecTool.pmdbWrite (inputFilename.map e.input))
  | pmdbLock => .tool SecTool.pmdbLock
  | gppReadWpStatus => .gpp (SecTool.gppReadWpStatus e.lib e.status)
  | gppWriteprotect => .gpp (SecTool.gppWriteprotect e.lib e.lock)
  | rpmbProvisionKey => .tool SecTool.rpmbProvisionKey
  | usage => .tool (pure exitSuccess)

/-- A run of the tool, if it is one over the objects of the customer data library. A line that is
refused calls nothing. -/
def runOf (e : Environment) (m : Mem Block) :
    Except Leave Action → Option (Run ToolCall Block Int Int)
  | .ok action =>
      match action.program e with
      | .tool p => some (p.run m)
      | .gpp _ => none
  | .error (.exited status) => some ⟨.error status, m, []⟩
  | .error .crashed => none

/-! ## Customer data commands -/

/-- The customer data command that an option stands for, with its words as they are typed. -/
def Getopt.command (e : Environment) (line : CommandLine) (g : Getopt) : Option Command :=
  match g.c with
  | .operation .doAcdRead => do
      let index ← g.optarg
      some (.acdRead (e.lib.atoi index) ((line.argv g.optind).map e.output))
  | .operation .doAcdWrite => do
      let index ← g.optarg
      let size ← line.argv (g.optind + 1)
      let maxSize ← line.argv (g.optind + 2)
      some (.acdWrite (e.lib.atoi index) (e.lib.atoi size) (e.lib.atoi maxSize)
        ((line.argv g.optind).map e.input))
  | .operation .doAcdProv => do
      let schema ← g.optarg
      some (.acdProv (e.lib.atoi schema) ((line.argv g.optind).map e.input)
        ((line.argv (g.optind + 1)).map e.output))
  | .operation .doAcdLock => some .acdLock
  | _ => none

section Does

variable {e : Environment} {m : Mem Block}

/-- What is parsed is run as the program `p`. -/
def Does (e : Environment) (m : Mem Block) (x : Except Leave Action) (p : Tool Int) : Prop :=
  runOf e m x = some (p.run m)

theorem does_pure {action : Action} {p : Tool Int} (h : action.program e = .tool p) :
    Does e m (.ok action) p := by
  simp only [Does, runOf, h]

/-- What the loop refuses the program leaves with a failure. -/
theorem does_refuseIf_bind {c : Prop} [Decidable c] {f : Unit → Except Leave Action}
    {k : Unit → Tool Int} (h : ¬ c → Does e m (f ()) (k ())) :
    Does e m (refuseIf c >>= f) (exitIf c exitFailure >>= k) := by
  unfold Does refuseIf at *
  rw [run_exitIf_bind]
  by_cases hc : c
  · rw [if_pos hc, if_pos hc]
    rfl
  · rw [if_neg hc, if_neg hc]
    exact h hc

theorem does_of_not {c : Prop} [Decidable c] {f : Unit → Except Leave Action} {p : Tool Int}
    (hc : ¬ c) (h : Does e m (f ()) p) : Does e m (refuseIf c >>= f) p := by
  unfold refuseIf
  rw [if_neg hc]
  exact h

end Does

/-- An option of a customer data command by itself, with the number of words that it asks for, does
what `SecTool.main` does with the words. -/
theorem does_operation (e : Environment) {line : CommandLine} {g : Getopt} {w : WhatToDo}
    (hw : g.c = .operation w) (hargc : line.argc = w.argCount) {c : Command}
    (hc : g.command e line = some c) (m : Mem Block) :
    Does e m (operation e.lib line g) (main e.exchange e.calloc c) := by
  obtain ⟨o, optarg, optind⟩ := g
  obtain rfl : o = .operation w := hw
  have hcount : ¬ line.argc ≠ w.argCount := not_not.mpr hargc
  cases w with
  | doAcdRead =>
      obtain ⟨index, rfl, hc⟩ := Option.bind_eq_some_iff.mp hc
      cases Option.some.inj hc
      simp only [operation, processOption, map_bind_action]
      refine does_of_not hcount (does_refuseIf_bind fun _ => does_pure rfl)
  | doAcdWrite =>
      obtain ⟨index, rfl, hc⟩ := Option.bind_eq_some_iff.mp hc
      obtain ⟨size, hsize, hc⟩ := Option.bind_eq_some_iff.mp hc
      obtain ⟨maxSize, hmaxSize, hc⟩ := Option.bind_eq_some_iff.mp hc
      cases Option.some.inj hc
      simp only [operation, processOption, map_bind_action, hsize, hmaxSize]
      refine does_of_not hcount (does_refuseIf_bind fun _ => does_refuseIf_bind fun _ => ?_)
      exact does_refuseIf_bind fun _ => does_refuseIf_bind fun _ => does_pure rfl
  | doAcdProv =>
      obtain ⟨schema, rfl, hc⟩ := Option.bind_eq_some_iff.mp hc
      cases Option.some.inj hc
      simp only [operation, processOption, map_bind_action]
      exact does_of_not hcount (does_refuseIf_bind fun _ => does_pure rfl)
  | doAcdLock =>
      cases Option.some.inj hc
      simp only [operation, processOption, map_bind_action]
      exact does_of_not hcount (does_pure rfl)
  | _ => cases hc

/-! ## The whole line -/

section Line

variable {lib : CLibrary} {line : CommandLine} {h : List Getopt} {g : Getopt}

theorem exists_mapM_ok (hall : ∀ g ∈ h, ∃ action, operation lib line g = .ok action) :
    ∃ actions, h.mapM (operation lib line) = .ok actions := by
  induction h with
  | nil => exact ⟨[], rfl⟩
  | cons g h ih =>
      obtain ⟨action, hg⟩ := hall g List.mem_cons_self
      obtain ⟨actions, hrest⟩ := ih fun g' hg' => hall g' (List.mem_cons_of_mem g hg')
      refine ⟨action :: actions, ?_⟩
      rw [List.mapM_cons, hg, hrest]
      rfl

/-- Behind options that are accepted, and with nothing left over, the last option decides. -/
theorem parse_of_accepted (hoptions : line.options = h ++ [g])
    (hall : ∀ g' ∈ h, ∃ action, operation lib line g' = .ok action)
    (hend : line.argc ≤ line.optind) : parse lib line = operation lib line g := by
  obtain ⟨actions, hactions⟩ := exists_mapM_ok hall
  rw [parse_eq, parseEach, hoptions, List.mapM_append, hactions, List.mapM_cons, List.mapM_nil,
    refuseIf, if_neg (by omega)]
  cases operation lib line g with
  | error e => rfl
  | ok action =>
      show Except.ok ((actions ++ [action]).getLast?.getD .usage) = _
      rw [List.getLast?_concat, Option.getD_some]

end Line

/-- On every command line, whatever options `getopt_long_only` finds on it: the options do not
interfere; and a customer data command that comes last, behind options that are accepted, does what
`SecTool.main` does with the words of its option. -/
theorem parse_refines (e : Environment) (line : CommandLine) :
    parse e.lib line = parseEach e.lib line ∧
      ∀ h g w c, line.options = h ++ [g] → g.c = .operation w → g.command e line = some c →
        line.argc = w.argCount → line.argc ≤ line.optind →
        (∀ g' ∈ h, ∃ action, operation e.lib line g' = .ok action) →
          ∀ m, Does e m (parse e.lib line) (main e.exchange e.calloc c) := by
  refine ⟨parse_eq e.lib line, ?_⟩
  intro h g w c hoptions hw hc hargc hend hall m
  rw [parse_of_accepted hoptions hall hend]
  exact does_operation e hw hargc hc m

/-- A system on which every file holds two bytes and the device answers with success. -/
def twoByteEnvironment : Environment where
  lib := bionic
  input _ := ⟨true, some 2, true, some [5, 6]⟩
  output _ := ⟨true, some 2⟩
  exchange := answering 528 (List.replicate 12 0)
  calloc := 4096
  status := ⟨⟨3, 4, 5, 1, 1⟩, none⟩
  lock := ⟨⟨3, 4, 5, 1, 1⟩, 1, ⟨⟨6, 7, 8, 1, 1⟩, none⟩⟩

/-- The line `t -acd-read=5 f -acd-read=7`: the first option takes the file, and the second finds
none. -/
def twoReads : CommandLine where
  argc := 4
  argv i := [[116], [45, 97, 99, 100, 45, 114, 101, 97, 100, 61, 53], [102],
    [45, 97, 99, 100, 45, 114, 101, 97, 100, 61, 55]][i]?
  options := [⟨.operation .doAcdRead, some [53], 2⟩, ⟨.operation .doAcdRead, some [55], 4⟩]
  optind := 5

/-- The second option is the one that is done. -/
theorem parse_refines_twoReads : Does twoByteEnvironment (.ofLists fun _ => [])
    (parse bionic twoReads)
    (main (answering 528 (List.replicate 12 0)) 4096 (.acdRead 7 none)) := by
  have hfirst : ∀ g' ∈ [(⟨.operation .doAcdRead, some [53], 2⟩ : Getopt)],
      ∃ action, operation bionic twoReads g' = .ok action := by
    intro g' hg'
    rw [List.mem_singleton.mp hg']
    exact ⟨.getCustomerData 5 (some [102]), by decide⟩
  exact (parse_refines twoByteEnvironment twoReads).2 _ ⟨.operation .doAcdRead, some [55], 4⟩
    .doAcdRead (.acdRead 7 none) rfl rfl (by decide) rfl (by decide) hfirst _

/-! ## Commands as they are typed -/

/-- A customer data command with its numbers and the names of its files. -/
inductive Typed where
  | acdRead (index : Nat) (outputFilename : Text)
  | acdWrite (index : Nat) (inputFilename : Text) (size maxSize : Nat)
  | acdProv (provisioningSchema : Nat) (inputFilename outputFilename : Text)
  | acdLock
  deriving DecidableEq, Repr

namespace Typed

/-- The option. -/
def whatToDo : Typed → WhatToDo
  | acdRead .. => .doAcdRead
  | acdWrite .. => .doAcdWrite
  | acdProv .. => .doAcdProv
  | acdLock => .doAcdLock

/-- The words behind the option: its argument first, if it has one. -/
def words : Typed → List Text
  | acdRead index outputFilename => [decimal index, outputFilename]
  | acdWrite index inputFilename size maxSize =>
      [decimal index, inputFilename, decimal size, decimal maxSize]
  | acdProv schema inputFilename outputFilename =>
      [decimal schema, inputFilename, outputFilename]
  | acdLock => []

/-- The option as `getopt_long_only` finds it: its argument is the first of the words. -/
def getopt (t : Typed) : Getopt :=
  ⟨.operation t.whatToDo, t.words.head?, 2 + t.words.head?.toList.length⟩

/-- The command line: the name of the tool, the option, and the words. What is no argument of the
option is left to `main`, and nothing is left behind. -/
def line (progname option : Text) (t : Typed) : CommandLine where
  argc := t.words.length + 2
  argv i := (progname :: option :: t.words)[i]?
  options := [t.getopt]
  optind := t.words.length + 2

/-- The command. -/
def command (e : Environment) : Typed → Command
  | acdRead index outputFilename => .acdRead index (some (e.output outputFilename))
  | acdWrite index inputFilename size maxSize =>
      .acdWrite index size maxSize (some (e.input inputFilename))
  | acdProv schema inputFilename outputFilename =>
      .acdProv schema (some (e.input inputFilename)) (some (e.output outputFilename))
  | acdLock => .acdLock

/-- The numbers are ones that an `int` has. -/
def Representable : Typed → Prop
  | acdRead index _ => index < 2 ^ 31
  | acdWrite index _ size maxSize => index < 2 ^ 31 ∧ size < 2 ^ 31 ∧ maxSize < 2 ^ 31
  | acdProv schema _ _ => schema < 2 ^ 31
  | acdLock => True

instance : (t : Typed) → Decidable t.Representable
  | acdRead .. => inferInstanceAs (Decidable (_ < _))
  | acdWrite .. => inferInstanceAs (Decidable (_ ∧ _ ∧ _))
  | acdProv .. => inferInstanceAs (Decidable (_ < _))
  | acdLock => inferInstanceAs (Decidable True)

end Typed

/-- A customer data command that is typed with decimal numbers is the one that is done. -/
theorem typed_does (e : Environment) (progname option : Text) (t : Typed) (ht : t.Representable)
    (m : Mem Block) :
    Does e m (parse e.lib (t.line progname option)) (main e.exchange e.calloc (t.command e)) := by
  have hparse : parse e.lib (t.line progname option) =
      operation e.lib (t.line progname option) t.getopt :=
    parse_of_accepted (h := []) rfl (fun _ hg => nomatch hg) le_rfl
  rw [hparse]
  cases t with
  | acdRead index outputFilename =>
      refine does_operation e rfl rfl ?_ m
      show some (Command.acdRead (e.lib.atoi (decimal index)) _) = _
      rw [atoi_decimal e.lib ht]
      rfl
  | acdWrite index inputFilename size maxSize =>
      obtain ⟨hindex, hsize, hmaxSize⟩ := ht
      refine does_operation e rfl rfl ?_ m
      show some (Command.acdWrite (e.lib.atoi (decimal index)) (e.lib.atoi (decimal size))
        (e.lib.atoi (decimal maxSize)) _) = _
      rw [atoi_decimal e.lib hindex, atoi_decimal e.lib hsize, atoi_decimal e.lib hmaxSize]
      rfl
  | acdProv schema inputFilename outputFilename =>
      refine does_operation e rfl rfl ?_ m
      show some (Command.acdProv (e.lib.atoi (decimal schema)) _ _) = _
      rw [atoi_decimal e.lib ht]
      rfl
  | acdLock => exact does_operation e rfl rfl rfl m

/-- The line with the words `7`, `f`, `2` and `2` writes the file to field 7. -/
theorem typed_does_seven : Does twoByteEnvironment (.ofLists fun _ => [])
    (parse bionic (Typed.line [] [] (.acdWrite 7 [102] 2 2)))
    (main (answering 528 (List.replicate 12 0)) 4096
      (.acdWrite 7 2 2 (some ⟨true, some 2, true, some [5, 6]⟩))) :=
  typed_does twoByteEnvironment [] [] (.acdWrite 7 [102] 2 2) (by decide) (.ofLists fun _ => [])

end Txei.SecTool

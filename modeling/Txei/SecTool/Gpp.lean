import Txei.Machine.Numeral
import Txei.Machine.Text
import Txei.Mei.Driver
import Txei.SecTool.Files

/-!
# The write protection commands of the security tool

`gpp_read_wp_status` and `gpp_writeprotect` of `sec_tools_app.c`. Both work on attributes of the MMC
driver, which are files: they select the first group of the first partition by writing to two of
them and go on with the third. The results of `open`, `read` and `write` are data of the answers,
and every call is logged with its result. A `break` of the one-shot loop leaves it with the local
variables, as which the clean-up behind the loop finds the descriptors.
-/

namespace Txei.SecTool

open Machine Machine.Prog Mei

/-- The attributes of the MMC driver: `GPP_WPGROUP`, `GPP_WPPART` and `GPP_WP`. -/
inductive Attribute where
  | gppWpgroup
  | gppWppart
  | gppWp
  deriving DecidableEq, Repr

/-- A call of the write protection commands to the outside. -/
inductive GppCall where
  | opened (file : Attribute) (fd : Int)
  | written (fd : Int) (byte : UInt8) (retsz : Int)
  | statusRead (fd : Int) (data : Option (List UInt8))
  | printed (partition group : UInt8) (lockStatus : String)
  | closed (fd : Int)
  deriving DecidableEq, Repr

/-- The buffer `status_str`, which nothing initialises. -/
inductive GppBlock where
  | statusStr
  deriving DecidableEq, Repr

/-- `FILE_ERROR`. -/
abbrev fileError : Int := -1

/-- `MAX_STR_SIZE`. -/
abbrev maxStrSize : Nat := 256

/-- `GPP_WPSTATUS_MASK`. -/
abbrev gppWpstatusMask : UInt8 := 3

/-- The character `'1'`. -/
def partition : UInt8 := 49

/-- The character `'0'`. -/
def group : UInt8 := 48

/-- The character `'1'`. -/
def wpPermanent : UInt8 := 49

/-- The texts that `gpp_read_wp_status` prints. -/
def lockStatus : List String := ["UNLOCKED (0)", "TEMPORARY (1)", "POWER-ON (2)", "PERMANENT (3)"]

/-- The local variables that both functions share. -/
structure GppLocals where
  result : Int
  wpgrpFd : Int
  wppartFd : Int
  wpFd : Int
  deriving DecidableEq, Repr

/-- What the system answers while the attributes are opened and the group is selected. -/
structure SelectAnswers where
  wpgrpFd : Int
  wppartFd : Int
  wpFd : Int
  partitionRetsz : Int
  groupRetsz : Int
  deriving DecidableEq, Repr

/-- What the system answers to `gpp_read_wp_status`. -/
structure StatusAnswers where
  select : SelectAnswers
  read : Option (List UInt8)
  deriving DecidableEq, Repr

/-- What the system answers to `gpp_writeprotect`. -/
structure LockAnswers where
  select : SelectAnswers
  wpRetsz : Int
  status : StatusAnswers
  deriving DecidableEq, Repr

/-- The lines that both functions start with: open the attributes, and select the group. -/
def gppSelect (x : SelectAnswers) : Prog GppCall GppBlock GppLocals GppLocals := do
  let l : GppLocals := ⟨exitFailure, fileError, fileError, fileError⟩
  call (.opened .gppWpgroup x.wpgrpFd)
  let l := { l with wpgrpFd := x.wpgrpFd }
  exitIf (x.wpgrpFd = fileError) l
  call (.opened .gppWppart x.wppartFd)
  let l := { l with wppartFd := x.wppartFd }
  exitIf (x.wppartFd = fileError) l
  call (.opened .gppWp x.wpFd)
  let l := { l with wpFd := x.wpFd }
  exitIf (x.wpFd = fileError) l
  call (.written x.wppartFd partition x.partitionRetsz)
  exitIf (x.partitionRetsz ≠ 1) l
  call (.written x.wpgrpFd group x.groupRetsz)
  exitIf (x.groupRetsz ≠ 1) l
  pure l

/-- The lines that both functions end with: close what was opened. -/
def gppClose (l : GppLocals) : Prog GppCall GppBlock Int Int := do
  onlyIf (fileError < l.wpgrpFd) (call (.closed l.wpgrpFd))
  onlyIf (fileError < l.wppartFd) (call (.closed l.wppartFd))
  onlyIf (fileError < l.wpFd) (call (.closed l.wpFd))
  pure l.result

/-- Read the status into the buffer, convert it and print it. What `strtoul` reads ends with the
buffer here. -/
def gppPrintStatus (lib : CLibrary) (l : GppLocals) (read : Option (List UInt8)) :
    Prog GppCall GppBlock GppLocals GppLocals := do
  call (.statusRead l.wpFd read)
  let bytes ← valueOrExit read l
  putBytes .statusStr 0 (readBytes bytes maxStrSize)
  let statusStr ← loadBytes .statusStr maxStrSize
  let converted := lib.strtoul statusStr
  let gppStatus := UInt8.ofNat converted.value
  exitIf (gppWpstatusMask < gppStatus ∨ converted.errno = true ∧ gppStatus = 0) l
  call (.printed partition group (lockStatus.getD (gppStatus &&& gppWpstatusMask).toNat ""))
  pure { l with result := exitSuccess }

/-- `gpp_read_wp_status`. -/
def gppReadWpStatus (lib : CLibrary) (x : StatusAnswers) : Prog GppCall GppBlock Int Int := do
  let l ← returned do
    let l ← gppSelect x.select
    gppPrintStatus lib l x.read
  gppClose l

/-- `gpp_writeprotect`. It reads the status while its own descriptors are open. -/
def gppWriteprotect (lib : CLibrary) (x : LockAnswers) : Prog GppCall GppBlock Int Int := do
  let l ← returned do
    let l ← gppSelect x.select
    call (.written l.wpFd wpPermanent x.wpRetsz)
    exitIf (x.wpRetsz ≠ 1) l
    let result ← returned (gppReadWpStatus lib x.status)
    pure { l with result := result }
  gppClose l

/-- A write protection command, with what the system answers to it. -/
inductive GppCommand where
  | gppWpStatus (x : StatusAnswers)
  | gppWpLock (x : LockAnswers)
  deriving DecidableEq, Repr

/-- The cases `DO_GPP_WP_STATUS` and `DO_GPP_WP_LOCK` of `main`. -/
def GppCommand.function (lib : CLibrary) : GppCommand → Prog GppCall GppBlock Int Int
  | gppWpStatus x => gppReadWpStatus lib x
  | gppWpLock x => gppWriteprotect lib x

end Txei.SecTool

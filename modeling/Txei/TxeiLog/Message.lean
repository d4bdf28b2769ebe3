import Txei.TxeiLog.Terminate

/-!
# The messages of the log

The model of `txei_log.c`. A message is composed in a buffer of 1024 bytes on the stack, by
`snprintf` calls each of which starts where the text before ends, and is then printed. The three
static settings are a `Settings` that `txeiLogSetDest` and `txeiLogSetLevel` replace and every
message reads. What a conversion of the format makes of its arguments is up to the C library, and so
is a parameter; the lengths that are added up are exact.
-/

namespace Txei.TxeiLog

open Machine Machine.Prog

/-- The bytes of a string literal. -/
def ascii (s : String) : List UInt8 := s.toList.map fun c => c.toNat.toUInt8

/-- A C string, without the NUL at its end. -/
structure CString where
  bytes : List UInt8
  noNul : 0 ∉ bytes
  deriving DecidableEq

/-- A string literal. -/
def CString.literal (s : String) (h : 0 ∉ ascii s := by decide +kernel) : CString := ⟨ascii s, h⟩

/-- Two literals next to each other. -/
def CString.append (s t : CString) : CString :=
  ⟨s.bytes ++ t.bytes, fun h => (List.mem_append.mp h).elim s.noNul t.noNul⟩

/-- An argument behind a format. -/
inductive FormatArg where
  | str (s : CString)
  | int (n : Int)
  deriving DecidableEq

/-- What is outside the file: the text that `vsnprintf` makes of a format and its arguments, or
`none` where it cannot, and whether the build defines `ANDROID`. -/
structure Platform where
  format : CString → List FormatArg → Option (List UInt8)
  android : Bool

/-- A library on formats without conversions, in a build without `ANDROID`. -/
def plain : Platform := ⟨fun format _ => some format.bytes, false⟩

/-! ## Settings -/

/-- `TXEI_LOG_LEVEL`. -/
inductive TxeiLogLevel where
  | dbg
  | info
  | err
  | none
  deriving DecidableEq, Repr

/-- The value of the enumerator. -/
def TxeiLogLevel.toInt : TxeiLogLevel → Int
  | .dbg => 0
  | .info => 1
  | .err => 2
  | .none => 3

/-- The `switch` of `txei_log_set_level`. -/
def TxeiLogLevel.ofInt? : Int → Option TxeiLogLevel
  | 0 => some .dbg
  | 1 => some .info
  | 2 => some .err
  | 3 => some .none
  | _ => Option.none

/-- `TXEI_LOG_DEST`. -/
inductive TxeiLogDest where
  | android
  | printf
  | file
  deriving DecidableEq, Repr

/-- The `switch` of `txei_log_set_dest`. -/
def TxeiLogDest.ofInt? : Int → Option TxeiLogDest
  | 0 => some .android
  | 1 => some .printf
  | 2 => some .file
  | _ => none

/-- What a `FILE *` points to. -/
inductive Stream where
  | stdout
  | stderr
  | file (n : Nat)
  deriving DecidableEq, Repr

/-- `txei_log_level`, `txei_log_dest`, `txei_log_out_fp` and `txei_log_err_fp`. -/
structure Settings where
  level : TxeiLogLevel
  dest : TxeiLogDest
  outFp : Stream
  errFp : Stream
  deriving DecidableEq, Repr

/-- The settings at the start of the program. -/
def Settings.initial : Settings := ⟨.dbg, .printf, .stdout, .stderr⟩

/-! ## Calls -/

/-- The priorities of the Android log. -/
inductive AndroidLogLevel where
  | debug
  | info
  | error
  deriving DecidableEq, Repr

/-- Where a message is printed. -/
inductive Sink where
  | stream (fp : Stream)
  | android (priority : AndroidLogLevel) (tag : CString)
  deriving DecidableEq

/-- The calls to the C library. A printer is handed the whole buffer. -/
inductive LogCall where
  | snprintf (offset : Int) (size : Nat)
  | print (sink : Sink) (buffer : List UInt8)
  deriving DecidableEq

/-- The buffer of a message and the bytes that are dumped. -/
inductive Block where
  | buffer
  | data (n : Nat)
  deriving DecidableEq, Repr

/-- How a function is left while it composes its message. -/
inductive Leave where
  | abort
  | printMessage
  deriving DecidableEq, Repr

/-! ## Composing a message -/

/-- `sizeof(buffer)`. -/
@[simp] abbrev bufferSize : Nat := 1024

/-- The note at the end of a message that has been cut. -/
def tooLong : List UInt8 := ascii "...(message too long)\n"

/-- `snprintf(&buffer[offset], size, …)`: a text that does not fit is cut, and its whole length is
returned. A length that is no `int` is an error. -/
def snprintf (offset : Int) (size : Nat) (text : Option (List UInt8)) :
    Prog LogCall Block Leave Int := do
  call (.snprintf offset size)
  match text with
  | none => pure (-1)
  | some text =>
      if 2 ^ 31 ≤ text.length then pure (-1)
      else do
        onlyIf (0 < size) (putBytes .buffer offset.toNat (text.take (size - 1) ++ [0]))
        pure text.length

/-- Print behind what has been written, and return what has been written then. -/
def append (totalWritten : Int) (text : Option (List UInt8)) : Prog LogCall Block Leave Int := do
  let lastWritten ← snprintf totalWritten ((bufferSize - totalWritten) % 2 ^ 64).toNat text
  exitIf (lastWritten < 0) .abort
  let totalWritten := totalWritten + lastWritten
  if bufferSize ≤ totalWritten then do
    let _ ← snprintf (bufferSize - 25) 25 (some tooLong)
    exit .printMessage
  else pure totalWritten

/-- The tag, which the Android log gets on its own. -/
def tagPart (s : Settings) (tag : CString) : List UInt8 :=
  if s.dest = .android then [] else tag.bytes ++ ascii " - "

/-- Write the tag into the buffer first, if it is not for the Android log. -/
def writeTag (s : Settings) (tag : CString) : Prog LogCall Block Leave Int :=
  if s.dest = .android then pure 0 else append 0 (some (tagPart s tag))

/-- The message of `txei_log`. -/
def composeLog (p : Platform) (s : Settings) (tag format : CString) (args : List FormatArg) :
    Prog LogCall Block Leave Int := do
  let totalWritten ← writeTag s tag
  let totalWritten ← append totalWritten (p.format format args)
  newlineTerminate .buffer bufferSize totalWritten

/-- An upper-case hexadecimal digit. -/
def hexDigit (n : Nat) : UInt8 := UInt8.ofNat (if n < 10 then 48 + n else 55 + n)

/-- `"%02X"`. -/
def hex (c : UInt8) : List UInt8 := [hexDigit (c.toNat / 16), hexDigit (c.toNat % 16)]

/-- The loop of `txei_log_buf` over the `n` bytes of `buf` from `i` on. -/
def hexLoop (buf : Nat) : Nat → Nat → Int → Prog LogCall Block Leave Int
  | 0, _, totalWritten => pure totalWritten
  | n + 1, i, totalWritten => do
      let c ← loadByte (.data buf) i
      let totalWritten ← append totalWritten (some (hex c))
      let totalWritten ←
        if i % 8 = 7 then append totalWritten (some [newline]) else pure totalWritten
      hexLoop buf n (i + 1) totalWritten

/-- The message of `txei_log_buf`. -/
def composeBuf (p : Platform) (s : Settings) (tag label : CString) (args : List FormatArg)
    (buf : Nat) (len : Int) : Prog LogCall Block Leave Int := do
  let totalWritten ← writeTag s tag
  let totalWritten ← append totalWritten (p.format label args)
  let totalWritten ← newlineTerminate .buffer bufferSize totalWritten
  let totalWritten ← hexLoop buf len.toNat 0 totalWritten
  newlineTerminate .buffer bufferSize totalWritten

/-! ## Printing a message -/

/-- The priority that the `switch` finds for `txei_log_level`. -/
def androidLogLevel : TxeiLogLevel → AndroidLogLevel
  | .err => .error
  | .info => .info
  | _ => .debug

/-- Where the lines behind `print_message` print to. Both choices look at `txei_log_level`. -/
def sinkOf (s : Settings) (tag : CString) : Sink :=
  if s.dest = .android then .android (androidLogLevel s.level) tag
  else .stream (if s.level.toInt < TxeiLogLevel.err.toInt then s.outFp else s.errFp)

/-- The lines behind `print_message`. Without `ANDROID` nothing is printed to the Android log. -/
def printMessage (p : Platform) (s : Settings) (tag : CString) : Prog LogCall Block Empty Unit :=
  onlyIf (s.dest = .android → p.android) do
    let buffer ← loadBytes .buffer bufferSize
    call (.print (sinkOf s tag) buffer)

/-- What both functions do with a message of a level: unless it has been aborted, what has been
composed is printed. -/
def emit (p : Platform) (s : Settings) (level : Int) (tag : CString)
    (compose : Prog LogCall Block Leave Int) : Prog LogCall Block Empty Unit :=
  onlyIf (s.level.toInt ≤ level) do
    memset .buffer 0 0 bufferSize
    let left ← attempt compose
    match left with
    | .error .abort => pure ()
    | _ => printMessage p s tag

/-- A message: a text and, for a dump, the block and the number of the bytes behind it. -/
structure Message where
  level : Int
  tag : CString
  format : CString
  args : List FormatArg
  dump : Option (Nat × Int)

/-- What `txei_log` and `txei_log_buf` do with a message behind their tests for null pointers. -/
def Message.log (p : Platform) (s : Settings) (msg : Message) : Prog LogCall Block Empty Unit := do
  memset .buffer 0 0 bufferSize
  emit p s msg.level msg.tag <|
    match msg.dump with
    | none => composeLog p s msg.tag msg.format msg.args
    | some (buf, len) => composeBuf p s msg.tag msg.format msg.args buf len

/-! ## The functions of the interface

Each of them logs at most one message, at its end, and so is modelled by that message and the
settings that it leaves. -/

/-- `LOG_TAG`. -/
def logTag : CString := .literal "libtxei-log"

/-- `LOGDBG`. -/
def logDbg (func : CString) (line : Int) (fmt : CString) (args : List FormatArg) : Message where
  level := TxeiLogLevel.dbg.toInt
  tag := logTag
  format := (CString.literal "DEBUG [%s():%d] - ").append fmt
  args := .str func :: .int line :: args
  dump := none

/-- `LOGERR`. -/
def logErr (func : CString) (line : Int) (fmt : CString) (args : List FormatArg) : Message where
  level := TxeiLogLevel.err.toInt
  tag := logTag
  format := (CString.literal "ERROR [%s():%d] - ").append fmt
  args := .str func :: .int line :: args
  dump := none

/-- `txei_log`. A null pointer is `none`. -/
def txeiLog (level : Int) (tag format : Option CString) (args : List FormatArg) : Message :=
  match format, tag with
  | none, _ => logErr (.literal "txei_log") 111 (.literal "Format string to be printed is NULL") []
  | some _, none => logErr (.literal "txei_log") 115 (.literal "Tag to be printed is NULL") []
  | some format, some tag => ⟨level, tag, format, args, none⟩

/-- `txei_log_buf`. A null pointer is `none`. -/
def txeiLogBuf (level : Int) (tag label : Option CString) (func : CString) (line : Int)
    (buf : Option Nat) (len : Int) : Message :=
  match label, tag, buf with
  | none, _, _ => logErr (.literal "txei_log_buf") 200 (.literal "Label to be printed is NULL") []
  | some _, none, _ =>
      logErr (.literal "txei_log_buf") 204 (.literal "Tag to be printed is NULL") []
  | some _, some _, none =>
      logErr (.literal "txei_log_buf") 208 (.literal "Buffer to be printed is NULL") []
  | some label, some tag, some buf => ⟨level, tag, label, [.str func, .int line], some (buf, len)⟩

/-- `txei_log_set_dest`. -/
def txeiLogSetDest (p : Platform) (s : Settings) (dest : Int) (outFp errFp : Option Stream) :
    Settings × Message :=
  let func : CString := .literal "txei_log_set_dest"
  match TxeiLogDest.ofInt? dest, outFp, errFp with
  | some .android, _, _ =>
      if p.android then
        ({ s with dest := .android },
          logDbg func 22 (.literal "Logging switched to Android logger") [])
      else (s, logErr func 24 (.literal "Library not compiled with Android logging support") [])
  | some .printf, _, _ =>
      ({ s with dest := .printf, outFp := .stdout, errFp := .stderr },
        logDbg func 31 (.literal "Logging switched to printing to stdout, stderr") [])
  | some .file, none, _ | some .file, some _, none =>
      (s, logErr func 35
        (.literal "Logging not switched to file because specified file descriptor is NULL") [])
  | some .file, some outFp, some errFp =>
      ({ s with dest := .file, outFp := outFp, errFp := errFp },
        logDbg func 40 (.literal "Logging switched to printing to specified file descriptors") [])
  | none, _, _ => (s, logErr func 44 (.literal "Unknown logging mechanism %d") [.int dest])

/-- `txei_log_set_level`. -/
def txeiLogSetLevel (s : Settings) (level : Int) : Settings × Option Message :=
  match TxeiLogLevel.ofInt? level with
  | some level => ({ s with level := level }, none)
  | none =>
      (s, logErr (.literal "txei_log_set_level") 58 (.literal "Unknown logging level %d")
        [.int level])

end Txei.TxeiLog

import Txei.Machine.Program

/-!
# Memory buffers shared with the device

`meimm.c`: a `struct meimm` owns a descriptor of the device and one mapping of its memory. The
functions take the structure and return it as they leave it; a null pointer, which those that test
for it refuse before anything else, is not modelled. What `open`, `ioctl`, `mmap`, `msync` and
`munmap` answer is an argument. The two blocks are the memory of the process, by address, and the
source of `meimm_memcpy`.
-/

namespace Txei.MeiMm

open Machine Machine.Prog

/-- The system calls that acquire and release the descriptor and the mapping. -/
inductive MmCall where
  | opened (fd : Int)
  | closed (fd : Int)
  | mapped (ptr size : UInt64)
  | munmap (ptr size : UInt64) (ret : Int)
  deriving DecidableEq, Repr

inductive Block where
  | memory
  | buf
  deriving DecidableEq, Repr

variable {ε : Type}

/-- `MEI_MM_STATUS_INIT`. -/
def meiMmStatusInit : UInt64 := 1

/-- `MEI_MM_STATUS_ALLOCATED`. -/
def meiMmStatusAllocated : UInt64 := 2

@[simp] theorem zero_ne_allocated : (0 : UInt64) ≠ meiMmStatusAllocated := by decide

@[simp] theorem init_ne_allocated : meiMmStatusInit ≠ meiMmStatusAllocated := by decide

/-- `MAP_FAILED`. -/
def mapFailed : UInt64 := 0xFFFFFFFFFFFFFFFF

/-- `struct meimm`, without the member `handle` that nothing uses. -/
structure Meimm where
  fd : Int
  ptr : UInt64
  size : UInt64
  status : UInt64
  verbose : Bool
  deriving DecidableEq, Repr

/-- `meimm_init`, which returns 0. -/
def meimmInit (mm : Meimm) (verbose : Bool) : Meimm :=
  { mm with fd := -1, verbose, status := meiMmStatusInit }

/-- `meimm_deinit`. -/
def meimmDeinit (mm : Meimm) : Prog MmCall Block ε Meimm := do
  onlyIf (0 ≤ mm.fd) (call (.closed mm.fd))
  pure { mm with fd := -1, status := 0 }

/-- `meimm_free`. -/
def meimmFree (mm : Meimm) : Prog MmCall Block ε Unit := do
  let _ ← meimmDeinit mm
  pure ()

/-- What the operating system answers `meimm_alloc_map_memory`: the descriptor of `open` or that it
fails, the result of `ioctl` and the size it leaves in `data`, and the result of `mmap`. The two
`errno` are those read behind a failure. -/
structure AllocAnswers where
  openFd : Option Nat
  openErrno : Int
  ioctl : Int
  ioctlErrno : Int
  dataSize : UInt64 → UInt64
  mmap : UInt64

/-- The label `err`, reached with the status `ret`. -/
def failAlloc (mm : Meimm) (ret : Int) : Prog MmCall Block ε (Int × Meimm) := do
  let mm ← meimmDeinit mm
  pure (ret, mm)

/-- `meimm_alloc_map_memory`. -/
def meimmAllocMapMemory (mm : Meimm) (size : UInt64) (os : AllocAnswers) :
    Prog MmCall Block ε (Int × Meimm) :=
  match os.openFd with
  | none => failAlloc { mm with fd := -1 } os.openErrno
  | some fd => do
      call (.opened fd)
      let mm := { mm with fd := fd }
      if os.ioctl ≠ 0 then failAlloc mm os.ioctlErrno
      else do
        let mm := { mm with ptr := os.mmap }
        -- a failed `mmap` returns the status of the `ioctl`, which is 0 here
        if mm.ptr = mapFailed then failAlloc mm os.ioctl
        else do
          call (.mapped mm.ptr (os.dataSize size))
          pure (0, { mm with size := os.dataSize size, status := meiMmStatusAllocated })

/-- What the operating system answers `meimm_free_memory`. -/
structure FreeAnswers where
  msync : Int
  munmap : Int
  ioctl : Int
  deriving DecidableEq, Repr

/-- `meimm_free_memory` up to the label `out`, with the status that arrives there. -/
def unmapMemory (mm : Meimm) (os : FreeAnswers) : Prog MmCall Block Int Int := do
  exitIf (os.msync ≠ 0) os.msync
  call (.munmap mm.ptr mm.size os.munmap)
  exitIf (os.munmap ≠ 0) os.munmap
  pure os.ioctl

/-- `meimm_free_memory`. -/
def meimmFreeMemory (mm : Meimm) (os : FreeAnswers) : Prog MmCall Block ε (Int × Meimm) :=
  if mm.status ≠ meiMmStatusAllocated then pure (0, mm)
  else if mm.ptr = 0 then pure (0, mm)
  else do
    let ret ← returned (unmapMemory mm os)
    pure (ret, { mm with status := meiMmStatusInit })

/-- `meimm_get_addr`. -/
def meimmGetAddr (mm : Meimm) : UInt64 :=
  if mm.status = meiMmStatusAllocated then mm.ptr else 0

/-- `meimm_get_size`. -/
def meimmGetSize (mm : Meimm) : Int64 :=
  if mm.status = meiMmStatusAllocated then mm.size.toInt64 else -1

/-- `meimm_memcpy`. The offset is signed, its sum with the length and with the address is not. A
failure of `msync` is printed only. -/
def meimmMemcpy (mm : Meimm) (offset : Int64) (len : UInt64) : Prog MmCall Block ε UInt64 :=
  if mm.status ≠ meiMmStatusAllocated ∨ mm.ptr = 0 then pure 0
  else if mm.size < offset.toUInt64 + len then pure 0
  else do
    memcpy .memory (mm.ptr + offset.toUInt64).toNat .buf 0 len.toNat
    pure (mm.ptr + offset.toUInt64)

end Txei.MeiMm

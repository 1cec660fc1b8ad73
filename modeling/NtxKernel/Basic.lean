import Mathlib.Tactic.NormNum

/-!
# Words and status codes

The fixed-width integers of the kernel and `KSTATUS` of `kernel/include/kstatus.h`. A routine
that stores a result through an out parameter is modelled by `Except KStatus α`: `ok` is
`KSTATUS_SUCCESS` together with the value stored, `error` every other code.
-/

namespace NtxKernel

/-- `uint32_t`. -/
abbrev U32 := BitVec 32

/-- `uint64_t`. -/
abbrev U64 := BitVec 64

/-- A C string, without its terminating NUL. -/
abbrev CString := List UInt8

/-- `MM_ADDRESS_SPACE *`, a slot of `gMmAddressSpacePool`. -/
abbrev AddressSpaceRef := Fin 64

/-! The sizes of the kernel's tables, as the literals of their indices need them. -/

instance neZero_32 : NeZero 32 := ⟨by decide⟩

instance neZero_64 : NeZero 64 := ⟨by decide⟩

instance neZero_128 : NeZero 128 := ⟨by decide⟩

instance neZero_256 : NeZero 256 := ⟨by decide⟩

instance neZero_512 : NeZero 512 := ⟨by decide⟩

/-- The `KSTATUS` codes. -/
inductive KStatus
  | success
  | notImplemented
  | invalidParameter
  | initFailed
  | notFound
  | alreadyInitialized
  | accessDenied
  | wouldBlock
  deriving DecidableEq, Repr

/-- The value of a code as a signed 32-bit integer. -/
def KStatus.toInt32 : KStatus → U32
  | .success => 0
  | .notImplemented => -1
  | .invalidParameter => -2
  | .initFailed => -3
  | .notFound => -4
  | .alreadyInitialized => -5
  | .accessDenied => -6
  | .wouldBlock => -7

/-- The code a routine with an out parameter returns. -/
def KStatus.ofExcept {α : Type*} : Except KStatus α → KStatus
  | .ok _ => .success
  | .error e => e

end NtxKernel

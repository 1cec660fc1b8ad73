import NtxKernel.Mm.Regions

/-!
# System calls

The handlers of `kernel/ke/syscall.c`. A handler gets the address space of the current process
(`PsGetCurrentProcess` and its `AddressSpaceRoot`, `none` where either is null) and returns the
ranges it reads and writes through addresses it was given, beside its result.
-/

namespace NtxKernel.Ke

open Foundations Mm Ob

/-- `KI_USER_ADDRESS_TOP`. -/
def kiUserAddressTop : U64 := 0x0000800000000000

/-- `KI_KERNEL_ADDRESS_BASE`. -/
def kiKernelAddressBase : U64 := 0xFFFF800000000000

/-- A status as the result of a system call, `(uint64_t)(int64_t)Status`. -/
def statusResult (status : KStatus) : U64 := status.toInt32.signExtend 64

/-- `KipIsRangeReadable`. -/
def kipIsRangeReadable (address length : U64) : Bool :=
  if address = 0 ∨ length = 0 then false
  else
    let stop := address + length
    if stop.toNat < address.toNat then false
    else if address.toNat < kiUserAddressTop.toNat ∧ stop.toNat ≤ kiUserAddressTop.toNat then true
    else decide (kiKernelAddressBase.toNat ≤ address.toNat ∧ address.toNat ≤ stop.toNat)

/-- `KipIsRangeWritable`. -/
def kipIsRangeWritable (address length : U64) : Bool := kipIsRangeReadable address length

/-- A range that a handler reads or writes through an address from an argument. -/
structure UserAccess where
  address : U64
  length : ℕ
  isWrite : Bool
  deriving DecidableEq

/-- `KipSysMapMemory`. -/
def kipSysMapMemory (mm : MmState) (root : Option AddressSpaceRef) (flags : U64) :
    MmState × U64 :=
  match root with
  | none => (mm, statusResult .invalidParameter)
  | some a =>
    let requestedSize := if flags = 0 then 4096 else flags
    match mmMapAnonymous mm a requestedSize (mmProtRead ||| mmProtWrite) mmRegionFlagLazy with
    | (mm, .error e) => (mm, statusResult e)
    | (mm, .ok virtualBase) => (mm, virtualBase)

variable {σ : Type} [MmGlobals σ]

/-- `KipSysMapSection`. -/
def kipSysMapSection (ob : ObState σ) (k : σ) (root : Option AddressSpaceRef)
    (handleValue protection outAddress : U64) : ObState σ × σ × List UserAccess × U64 :=
  if outAddress = 0 ∨ kipIsRangeWritable outAddress 8 = false then
    (ob, k, [], statusResult .invalidParameter)
  else
    match root with
    | none => (ob, k, [], statusResult .invalidParameter)
    | some a =>
      match mmMapSectionHandle ob k a (handleValue.setWidth 32) (protection.setWidth 32) with
      | (ob, k, .error e) => (ob, k, [], statusResult e)
      | (ob, k, .ok _) => (ob, k, [⟨outAddress, 8, true⟩], statusResult .success)

end NtxKernel.Ke

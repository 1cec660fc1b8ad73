import NtxKernel.Io.Files
import NtxKernel.Ps.Spawn

/-!
# Spawning from a file

`IoSpawnProcessFromFileHandle` of `kernel/io/init.c`: it reads the file behind a handle into
`gIoSpawnScratch` until a read gives nothing and spawns a process from what it read. The scratch
buffer is kernel memory, which reads the same under every address space.
-/

namespace NtxKernel.Io

open Foundations Ob Mm Ps

/-- `IO_SPAWN_IMAGE_MAX`. -/
abbrev ioSpawnImageMax : ℕ := 16 * 1024 * 1024

variable {σ : Type} [IoGlobals σ] (memory : U64 → UInt8)

open IoGlobals

/-- The loop of `IoSpawnProcessFromFileHandle`, with `total` read so far. -/
def ioSpawnReadLoop (handleValue : U32) :
    ℕ → List UInt8 → ObState σ → σ → Option (ObState σ × σ × Except KStatus (List UInt8))
  | 0, _, _, _ => none
  | fuel + 1, total, ob, k =>
    if ioSpawnImageMax ≤ total.length then some (ob, k, .error .invalidParameter)
    else
      match ioReadFileHandle memory ob k handleValue (BitVec.ofNat 64 total.length)
          (BitVec.ofNat 64 (ioSpawnImageMax - total.length)) with
      | (ob, k, .error e) => some (ob, k, .error e)
      | (ob, k, .ok bytes) =>
        if bytes = [] then some (ob, k, .ok total)
        else ioSpawnReadLoop handleValue fuel (total ++ bytes) ob k

/-- A turn that goes on reads a byte at least, so the fuel is enough. -/
theorem ioSpawnReadLoop_isSome (handleValue : U32) (fuel : ℕ) (total : List UInt8)
    (ob : ObState σ) (k : σ) (h : ioSpawnImageMax < total.length + fuel) (hfuel : 0 < fuel) :
    (ioSpawnReadLoop memory handleValue fuel total ob k).isSome = true := by
  induction fuel generalizing total ob k with
  | zero => exact absurd hfuel (Nat.lt_irrefl 0)
  | succ fuel ih =>
    rw [ioSpawnReadLoop]
    split
    · rfl
    rename_i htotal
    rcases ioReadFileHandle memory ob k handleValue (BitVec.ofNat 64 total.length)
      (BitVec.ofNat 64 (ioSpawnImageMax - total.length)) with ⟨ob, k, e | bytes⟩
    · rfl
    dsimp only
    split
    · rfl
    · rename_i hbytes
      have hpos := List.length_pos_iff.2 hbytes
      apply ih
      · rw [List.length_append]
        omega
      · omega

/-- `IoSpawnProcessFromFileHandle`. -/
def ioSpawnProcessFromFileHandle [ExecGlobals σ] (statics : PsStatics) (ob : ObState σ) (k : σ)
    (handleValue : U32) : Option (ObState σ × σ × Except KStatus (U64 × U64)) :=
  if (io k).ready = false then some (ob, k, .error .invalidParameter)
  else
    (ioSpawnReadLoop memory handleValue (ioSpawnImageMax + 2) [] ob k).bind fun r =>
      match r with
      | (ob, k, .error e) => some (ob, k, .error e)
      | (ob, k, .ok total) =>
        if total = [] then some (ob, k, .error .notFound)
        else Executive.psSpawnUserKpeFromBuffer statics ob k fun _ => some total

end NtxKernel.Io

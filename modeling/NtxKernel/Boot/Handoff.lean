import NtxKernel.Basic
import Mathlib.Data.List.GetD
import Mathlib.Logic.Function.Basic
import Mathlib.Tactic.Ring

/-!
# Handing over the memory map

`SnapshotMemoryMap`, `ConvertMemoryMap`, `PopulateBootInfo` and `ExitBootServicesRobust` of
`boot/uefi/bootx64.c`, in the order in which `efi_main` calls them. What the firmware answers is an
argument, `Firmware`. An answer that breaks the contract of the firmware (a map that does not fit
the buffer, an address of the pool that is in use) ends the run: the result is `none`.

* `HandedOver` says that `BOOT_INFO` describes the map whose key was accepted.
* `handedOver_iff`: after a successful run it does exactly when the buffer for the entries that was
  allocated last lies where the first one lay, and the count and the size of the buffer do not
  overflow. `ExitBootServicesRobust` allocates a new buffer when the map has grown, and
  `BOOT_INFO` keeps the address of the first.
-/

namespace NtxKernel.Boot

/-- `EFI_MEMORY_DESCRIPTOR`. -/
structure EfiMemoryDescriptor where
  type : U32
  physicalStart : U64
  numberOfPages : U64
  attributeBits : U64
  deriving DecidableEq, Inhabited

/-- `PHYSICAL_MEMORY_RANGE`, as the loader writes it. -/
structure PhysicalMemoryRange where
  base : U64
  length : U64
  type : U32
  attributes : U32
  deriving DecidableEq, Inhabited

/-- `sizeof(PHYSICAL_MEMORY_RANGE)`. -/
abbrev sizeofPhysicalMemoryRange : U64 := 24

/-- What `ConvertMemoryMap` makes of a descriptor. -/
def convertDescriptor (descriptor : EfiMemoryDescriptor) : PhysicalMemoryRange where
  base := descriptor.physicalStart
  length := descriptor.numberOfPages <<< 12
  type := descriptor.type
  attributes := (descriptor.attributeBits &&& 0xFFFFFFFF).setWidth 32

/-- The statuses the handoff distinguishes. -/
inductive EfiStatus
  | success
  | bufferTooSmall
  | invalidParameter
  | outOfResources
  | error (code : U64)
  deriving DecidableEq

/-! ## The firmware -/

/-- An answer to `GetMemoryMap`. -/
inductive MapAnswer
  | success (map : List EfiMemoryDescriptor) (mapKey : U64)
  | bufferTooSmall (mapSize : U64)
  | error (code : U64)

/-- An answer to `ExitBootServices`. -/
inductive ExitAnswer
  | success
  | invalidParameter
  | error (code : U64)

/-- The answers during one attempt to exit. The two addresses are those of `AllocatePool`, in the
order of the calls. -/
structure AttemptAnswers where
  map : MapAnswer
  newMapBuffer : U64
  newRanges : U64
  exit : ExitAnswer

/-- The answers of the firmware: to `SnapshotMemoryMap`, and during each attempt. -/
structure Firmware where
  descriptorSize : U64
  descriptorSize_ne : descriptorSize ≠ 0
  probe : MapAnswer
  mapBuffer : U64
  ranges : U64
  map : MapAnswer
  attempt : ℕ → AttemptAnswers

/-- A buffer of the pool, with its entries if it was allocated for the entries of the map. -/
structure PoolBuffer where
  size : U64
  entries : Option (ℕ → PhysicalMemoryRange)

/-- The pool: the buffers that have not been freed. -/
abbrev Pool := U64 → Option PoolBuffer

/-- `AllocatePool`, given the address it answers with. -/
def allocatePool (pool : Pool) (buffer : PoolBuffer) (address : U64) : Option Pool :=
  if address = 0 then some pool
  else if (pool address).isSome then none
  else some (Function.update pool address (some buffer))

/-- `FreePool`. -/
def freePool (pool : Pool) (address : U64) : Pool := Function.update pool address none

/-- `BOOT_MEMORY_SNAPSHOT`; `map` is what lies in `MapBuffer`. -/
structure BootMemorySnapshot where
  mapBuffer : U64
  mapBufferSize : U64
  mapSize : U64
  mapKey : U64
  descriptorSize : U64
  ranges : U64
  rangeCapacity : U64
  rangeCount : U64
  map : List EfiMemoryDescriptor

/-- `GetMemoryMap` with a buffer of a given size: the status, the size it reports and the
snapshot. -/
def getMemoryMap (descriptorSize : U64) (s : BootMemorySnapshot) (bufferSize : U64) :
    MapAnswer → Option (EfiStatus × U64 × BootMemorySnapshot)
  | .success map mapKey =>
    if map.length * descriptorSize.toNat ≤ bufferSize.toNat then
      some (.success, BitVec.ofNat 64 (map.length * descriptorSize.toNat),
        { s with mapKey := mapKey, descriptorSize := descriptorSize, map := map })
    else none
  | .bufferTooSmall mapSize =>
    some (.bufferTooSmall, mapSize, { s with descriptorSize := descriptorSize })
  | .error code => some (.error code, bufferSize, s)

/-! ## The loader -/

/-- The snapshot after `SetMem`. -/
def BootMemorySnapshot.zero : BootMemorySnapshot where
  mapBuffer := 0
  mapBufferSize := 0
  mapSize := 0
  mapKey := 0
  descriptorSize := 0
  ranges := 0
  rangeCapacity := 0
  rangeCount := 0
  map := []

/-- `SnapshotMemoryMap` once the size of the map is known. -/
def snapshotBuffers (fw : Firmware) (probedMapSize : U64) (pool : Pool) (s : BootMemorySnapshot) :
    Option (EfiStatus × Pool × BootMemorySnapshot) := do
  let mapBufferSize := probedMapSize + s.descriptorSize * 16
  let pool ← allocatePool pool ⟨mapBufferSize, none⟩ fw.mapBuffer
  let s := { s with mapBufferSize := mapBufferSize, mapBuffer := fw.mapBuffer }
  if fw.mapBuffer = 0 then
    return (.outOfResources, pool, s)
  else
    let rangeCapacity := mapBufferSize / s.descriptorSize
    let pool ← allocatePool pool
      ⟨sizeofPhysicalMemoryRange * rangeCapacity, some fun _ => default⟩ fw.ranges
    let s := { s with ranges := fw.ranges }
    if fw.ranges = 0 then
      return (.outOfResources, pool, s)
    else
      let s := { s with rangeCapacity := rangeCapacity }
      let (status, mapSize, s) ← getMemoryMap fw.descriptorSize s mapBufferSize fw.map
      return (status, pool, { s with mapSize := mapSize })

/-- `SnapshotMemoryMap`. -/
def snapshotMemoryMap (fw : Firmware) (pool : Pool) :
    Option (EfiStatus × Pool × BootMemorySnapshot) := do
  let (status, probedMapSize, s) ←
    getMemoryMap fw.descriptorSize BootMemorySnapshot.zero 0 fw.probe
  if status ≠ .bufferTooSmall then
    return (status, pool, s)
  else
    snapshotBuffers fw probedMapSize pool s

/-- The loop of `ConvertMemoryMap`. Every round moves the offset on, so the size of the map bounds
the number of rounds. -/
def convertLoop (s : BootMemorySnapshot) :
    ℕ → U64 → U64 → (ℕ → PhysicalMemoryRange) → U64 × (ℕ → PhysicalMemoryRange)
  | 0, _, count, entries => (count, entries)
  | fuel + 1, offset, count, entries =>
    if offset.toNat < s.mapSize.toNat then
      if s.rangeCapacity.toNat ≤ count.toNat then (count, entries)
      else
        let descriptor := s.map.getD (offset / s.descriptorSize).toNat default
        convertLoop s fuel (offset + s.descriptorSize) (count + 1)
          (Function.update entries count.toNat (convertDescriptor descriptor))
    else (count, entries)

/-- `ConvertMemoryMap`. -/
def convertMemoryMap (pool : Pool) (s : BootMemorySnapshot) : Pool × BootMemorySnapshot :=
  match pool s.ranges with
  | some ⟨size, some entries⟩ =>
    let (count, entries) := convertLoop s s.mapSize.toNat 0 0 entries
    (Function.update pool s.ranges (some ⟨size, some entries⟩), { s with rangeCount := count })
  -- without a buffer the capacity is zero, and the loop stores nothing
  | _ => (pool, { s with rangeCount := 0 })

/-- The snapshot, the two fields of `BOOT_INFO` that name the map, and the key that
`ExitBootServices` accepted. -/
structure Handoff where
  pool : Pool
  snapshot : BootMemorySnapshot
  memoryMap : U64
  memoryMapEntryCount : U32
  acceptedKey : Option U64

/-- `PopulateBootInfo`. -/
def populateBootInfo (pool : Pool) (s : BootMemorySnapshot) : Handoff where
  pool := pool
  snapshot := s
  memoryMap := s.ranges
  memoryMapEntryCount := s.rangeCount.setWidth 32
  acceptedKey := none

/-- How an attempt ends: the loop goes on, or it returns. -/
inductive AttemptEnd
  | again (status : EfiStatus)
  | done (status : EfiStatus)

/-- The branch of `ExitBootServicesRobust` for a map that has grown. -/
def growBuffers (a : AttemptAnswers) (h : Handoff) : Option (AttemptEnd × Handoff) := do
  let s := h.snapshot
  let newBufferSize := s.mapSize + s.descriptorSize * 16
  let pool ← allocatePool h.pool ⟨newBufferSize, none⟩ a.newMapBuffer
  if a.newMapBuffer = 0 then
    return (.done .outOfResources, { h with pool := pool })
  else
    let newRangeCapacity := newBufferSize / s.descriptorSize
    let pool ← allocatePool pool
      ⟨sizeofPhysicalMemoryRange * newRangeCapacity, some fun _ => default⟩ a.newRanges
    if a.newRanges = 0 then
      return (.done .outOfResources, { h with pool := freePool pool a.newMapBuffer })
    else
      let pool := if s.mapBuffer ≠ 0 then freePool pool s.mapBuffer else pool
      let pool := if s.ranges ≠ 0 then freePool pool s.ranges else pool
      return (.again .bufferTooSmall, { h with
        pool := pool
        snapshot := { s with
          mapBuffer := a.newMapBuffer
          mapBufferSize := newBufferSize
          ranges := a.newRanges
          rangeCapacity := newRangeCapacity } })

/-- One round of the loop of `ExitBootServicesRobust`. -/
def exitAttempt (descriptorSize : U64) (a : AttemptAnswers) (h : Handoff) :
    Option (AttemptEnd × Handoff) := do
  let (status, mapSize, s) ←
    getMemoryMap descriptorSize h.snapshot h.snapshot.mapBufferSize a.map
  let h := { h with snapshot := { s with mapSize := mapSize } }
  match status with
  | .bufferTooSmall => growBuffers a h
  | .success =>
    let (pool, s) := convertMemoryMap h.pool h.snapshot
    let h := { h with
      pool := pool
      snapshot := s
      memoryMapEntryCount := s.rangeCount.setWidth 32 }
    match a.exit with
    | .success => return (.done .success, { h with acceptedKey := some s.mapKey })
    | .invalidParameter => return (.again .invalidParameter, h)
    | .error code => return (.done (.error code), h)
  | status => return (.done status, h)

/-- The loop of `ExitBootServicesRobust`, over the answers to the attempts that are left. -/
def exitLoop (descriptorSize : U64) :
    List AttemptAnswers → EfiStatus → Handoff → Option (EfiStatus × Handoff)
  | [], status, h => some (status, h)
  | a :: rest, _, h =>
    match exitAttempt descriptorSize a h with
    | none => none
    | some (.again status, h) => exitLoop descriptorSize rest status h
    | some (.done status, h) => some (status, h)

/-- The answers to the four attempts. -/
def Firmware.attempts (fw : Firmware) : List AttemptAnswers :=
  (List.range 4).map fw.attempt

/-- `ExitBootServicesRobust`. -/
def exitBootServicesRobust (fw : Firmware) (h : Handoff) : Option (EfiStatus × Handoff) :=
  exitLoop fw.descriptorSize fw.attempts .invalidParameter h

/-- `efi_main` from `SnapshotMemoryMap` to `ExitBootServicesRobust`. The buffers of `heap` were
allocated before. -/
def efiMainHandoff (fw : Firmware) (heap : U64 → Option U64) : Option (EfiStatus × Handoff) := do
  let (status, pool, s) ← snapshotMemoryMap fw fun a => (heap a).map (⟨·, none⟩)
  if status ≠ .success then
    return (status, populateBootInfo pool s)
  else
    let (pool, s) := convertMemoryMap pool s
    exitBootServicesRobust fw (populateBootInfo pool s)

/-! ## The handoff -/

/-- `BOOT_INFO` describes the map that was read last: its address is that of a buffer for entries
that has not been freed and that holds the conversions of the descriptors, in order, and the key
of the map is the one `ExitBootServices` accepted. -/
def HandedOver (h : Handoff) : Prop :=
  ∃ size entries, h.pool h.memoryMap = some ⟨size, some entries⟩ ∧
    sizeofPhysicalMemoryRange.toNat * h.memoryMapEntryCount.toNat ≤ size.toNat ∧
    h.memoryMapEntryCount.toNat = h.snapshot.map.length ∧
    (∀ i (hi : i < h.snapshot.map.length), entries i = convertDescriptor h.snapshot.map[i]) ∧
    h.acceptedKey = some h.snapshot.mapKey

/-- The map that is accepted is converted into a buffer at `memoryMap`, and neither the count nor
the size of that buffer overflows. The buffer of the map has size `bufferSize` and the buffer for
the entries lies at `ranges` before the first of the attempts. -/
def MapStays (descriptorSize memoryMap : U64) : List AttemptAnswers → U64 → U64 → Prop
  | [], _, _ => True
  | a :: rest, bufferSize, ranges =>
    match a.map with
    | .error _ => True
    | .bufferTooSmall mapSize =>
      MapStays descriptorSize memoryMap rest (mapSize + descriptorSize * 16) a.newRanges
    | .success map _ =>
      match a.exit with
      | .error _ => True
      | .invalidParameter => MapStays descriptorSize memoryMap rest bufferSize ranges
      | .success => ranges = memoryMap ∧ ranges ≠ 0 ∧ map.length < 2 ^ 32 ∧
          sizeofPhysicalMemoryRange.toNat * map.length ≤
            (sizeofPhysicalMemoryRange * (bufferSize / descriptorSize)).toNat

/-- The size of the first buffer for the map and the address of the first buffer for the
entries. -/
def Firmware.firstBuffers (fw : Firmware) : U64 × U64 :=
  match fw.probe with
  | .bufferTooSmall mapSize => (mapSize + fw.descriptorSize * 16, fw.ranges)
  | _ => (0, 0)

/-- `MapStays` from the buffers that `SnapshotMemoryMap` allocates. -/
def Firmware.MapStays (fw : Firmware) : Prop :=
  Boot.MapStays fw.descriptorSize fw.firstBuffers.2 fw.attempts fw.firstBuffers.1
    fw.firstBuffers.2

/-! ## Reading and converting the map -/

theorem getMemoryMap_cases {d : U64} {s s' : BootMemorySnapshot} {bufferSize mapSize : U64}
    {answer : MapAnswer} {status : EfiStatus}
    (h : getMemoryMap d s bufferSize answer = some (status, mapSize, s')) :
    (∃ map mapKey, answer = .success map mapKey ∧ status = .success ∧
      map.length * d.toNat ≤ bufferSize.toNat ∧
      mapSize = BitVec.ofNat 64 (map.length * d.toNat) ∧
      s' = { s with mapKey := mapKey, descriptorSize := d, map := map }) ∨
    (answer = .bufferTooSmall mapSize ∧ status = .bufferTooSmall ∧
      s' = { s with descriptorSize := d }) ∨
    ∃ code, answer = .error code ∧ status = .error code ∧ s' = s := by
  cases answer with
  | success map mapKey =>
    simp only [getMemoryMap, Option.ite_none_right_eq_some, Option.some.injEq,
      Prod.mk.injEq] at h
    obtain ⟨hfits, rfl, rfl, rfl⟩ := h
    exact Or.inl ⟨map, mapKey, rfl, rfl, hfits, rfl, rfl⟩
  | bufferTooSmall size =>
    simp only [getMemoryMap, Option.some.injEq, Prod.mk.injEq] at h
    obtain ⟨rfl, rfl, rfl⟩ := h
    exact Or.inr (Or.inl ⟨rfl, rfl, rfl⟩)
  | error code =>
    simp only [getMemoryMap, Option.some.injEq, Prod.mk.injEq] at h
    obtain ⟨rfl, rfl, rfl⟩ := h
    exact Or.inr (Or.inr ⟨code, rfl, rfl, rfl⟩)

/-- The loop converts the descriptors from the `k`-th on, when the capacity holds them all. -/
theorem convertLoop_spec {s : BootMemorySnapshot} (hne : s.descriptorSize ≠ 0)
    (hsize : s.mapSize.toNat = s.map.length * s.descriptorSize.toNat)
    (hcapacity : s.map.length ≤ s.rangeCapacity.toNat) (fuel k : ℕ) {offset count : U64}
    {entries : ℕ → PhysicalMemoryRange} (hfuel : s.map.length ≤ k + fuel) (hk : k ≤ s.map.length)
    (hoffset : offset.toNat = k * s.descriptorSize.toNat) (hcount : count.toNat = k)
    (hentries : ∀ i (hi : i < s.map.length), i < k → entries i = convertDescriptor s.map[i]) :
    (convertLoop s fuel offset count entries).1.toNat = s.map.length ∧
      ∀ i (hi : i < s.map.length),
        (convertLoop s fuel offset count entries).2 i = convertDescriptor s.map[i] := by
  have hpos : 0 < s.descriptorSize.toNat :=
    Nat.pos_of_ne_zero fun h0 => hne (BitVec.eq_of_toNat_eq (by rw [h0]; rfl))
  induction fuel generalizing k offset count entries with
  | zero =>
    have hall : k = s.map.length := by omega
    exact ⟨by rw [convertLoop, hcount, hall], fun i hi => hentries i hi (by omega)⟩
  | succ fuel ih =>
    rw [convertLoop]
    by_cases hdone : k = s.map.length
    · have hend : ¬offset.toNat < s.mapSize.toNat := by
        rw [hoffset, hsize, hdone]
        exact Nat.lt_irrefl _
      rw [if_neg hend]
      exact ⟨by rw [hcount, hdone], fun i hi => hentries i hi (by omega)⟩
    have hlt : k < s.map.length := by omega
    have hnext : (k + 1) * s.descriptorSize.toNat ≤ s.mapSize.toNat := by
      rw [hsize]
      exact Nat.mul_le_mul_right _ hlt
    have hsucc : (k + 1) * s.descriptorSize.toNat =
        k * s.descriptorSize.toNat + s.descriptorSize.toNat := Nat.succ_mul _ _
    rw [if_pos (by omega), if_neg (by omega)]
    have hindex : (offset / s.descriptorSize).toNat = k := by
      rw [BitVec.toNat_udiv, hoffset, Nat.mul_div_cancel _ hpos]
    have hget : s.map.getD (offset / s.descriptorSize).toNat default = s.map[k] := by
      rw [hindex, List.getD_eq_getElem _ _ hlt]
    refine ih (k + 1) (by omega) hlt ?_ ?_ ?_
    · have := s.mapSize.isLt
      rw [BitVec.toNat_add, hoffset, hsucc]
      exact Nat.mod_eq_of_lt (by omega)
    · have := s.mapSize.isLt
      have := s.rangeCapacity.isLt
      rw [BitVec.toNat_add, hcount]
      exact Nat.mod_eq_of_lt (by simp; omega)
    · intro i hi hik
      by_cases hi' : i = k
      · subst hi'
        rw [hcount, Function.update_self, hget]
      · rw [hcount, Function.update_of_ne hi']
        exact hentries i hi (by omega)

/-! ## The buffers of the snapshot -/

/-- The buffers of the snapshot are live, their sizes are those it records, and no other buffer of
the pool is one for entries. -/
structure SnapshotOk (d bufferSize ranges : U64) (pool : Pool) (s : BootMemorySnapshot) :
    Prop where
  descriptorSize : s.descriptorSize = d
  mapBufferSize : s.mapBufferSize = bufferSize
  ranges_eq : s.ranges = ranges
  rangeCapacity : s.rangeCapacity = bufferSize / d
  mapBuffer_live : s.mapBuffer ≠ 0 → (pool s.mapBuffer).isSome
  ranges_live : ranges ≠ 0 → ∃ entries,
    pool ranges = some ⟨sizeofPhysicalMemoryRange * (bufferSize / d), some entries⟩
  only_ranges : ∀ address size entries, pool address = some ⟨size, some entries⟩ →
    address = ranges ∧ ranges ≠ 0

/-- What the buffers depend on of a snapshot. -/
theorem SnapshotOk.congr {d bufferSize ranges : U64} {pool : Pool} {s s' : BootMemorySnapshot}
    (ok : SnapshotOk d bufferSize ranges pool s) (hd : s'.descriptorSize = d)
    (hsize : s'.mapBufferSize = s.mapBufferSize) (hranges : s'.ranges = s.ranges)
    (hcapacity : s'.rangeCapacity = s.rangeCapacity) (hmap : s'.mapBuffer = s.mapBuffer) :
    SnapshotOk d bufferSize ranges pool s' where
  descriptorSize := hd
  mapBufferSize := hsize.trans ok.mapBufferSize
  ranges_eq := hranges.trans ok.ranges_eq
  rangeCapacity := hcapacity.trans ok.rangeCapacity
  mapBuffer_live := by rw [hmap]; exact ok.mapBuffer_live
  ranges_live := ok.ranges_live
  only_ranges := ok.only_ranges

theorem allocatePool_eq {pool pool' : Pool} {buffer : PoolBuffer} {address : U64}
    (h : allocatePool pool buffer address = some pool') (hne : address ≠ 0) :
    pool address = none ∧ pool' = Function.update pool address (some buffer) := by
  rw [allocatePool, if_neg hne, Option.ite_none_left_eq_some, Option.not_isSome_iff_eq_none,
    Option.some.injEq] at h
  exact ⟨h.1, h.2.symm⟩

theorem snapshotBuffers_ok {fw : Firmware} {probedMapSize : U64} {pool pool' : Pool}
    {s s' : BootMemorySnapshot} (hd : s.descriptorSize = fw.descriptorSize)
    (hnone : ∀ address size entries, pool address ≠ some ⟨size, some entries⟩)
    (h : snapshotBuffers fw probedMapSize pool s = some (.success, pool', s')) :
    SnapshotOk fw.descriptorSize (probedMapSize + fw.descriptorSize * 16) fw.ranges pool' s' := by
  rw [snapshotBuffers] at h
  obtain ⟨pool₁, halloc₁, h⟩ := Option.bind_eq_some_iff.1 h
  by_cases hbuffer : fw.mapBuffer = 0
  · rw [if_pos hbuffer] at h
    cases h
  rw [if_neg hbuffer] at h
  obtain ⟨-, rfl⟩ := allocatePool_eq halloc₁ hbuffer
  obtain ⟨pool₂, halloc₂, h⟩ := Option.bind_eq_some_iff.1 h
  by_cases hranges : fw.ranges = 0
  · rw [if_pos hranges] at h
    cases h
  rw [if_neg hranges] at h
  obtain ⟨hfree, rfl⟩ := allocatePool_eq halloc₂ hranges
  obtain ⟨⟨status, mapSize, s₁⟩, hread, h⟩ := Option.bind_eq_some_iff.1 h
  obtain ⟨rfl, rfl, rfl⟩ : status = .success ∧ _ = pool' ∧ { s₁ with mapSize := mapSize } = s' := by
    simpa using h
  have hne : fw.mapBuffer ≠ fw.ranges := by
    intro he
    rw [he, Function.update_self] at hfree
    cases hfree
  rcases getMemoryMap_cases hread with ⟨map, mapKey, -, -, -, -, rfl⟩ | ⟨-, hs, -⟩ |
    ⟨code, -, hs, -⟩
  · exact
      { descriptorSize := rfl
        mapBufferSize := by simp only [hd]
        ranges_eq := rfl
        rangeCapacity := by simp only [hd]
        mapBuffer_live := fun _ => by
          simp only [Function.update_of_ne hne, Function.update_self, Option.isSome_some]
        ranges_live := by
          intro _
          refine ⟨fun _ => default, ?_⟩
          rw [Function.update_self, ← hd]
          rfl
        only_ranges := by
          intro address size entries he
          by_cases haddress : address = fw.ranges
          · exact ⟨haddress, hranges⟩
          rw [Function.update_of_ne haddress] at he
          by_cases haddress' : address = fw.mapBuffer
          · rw [haddress', Function.update_self] at he
            cases he
          · rw [Function.update_of_ne haddress'] at he
            exact absurd he (hnone address size entries) }
  · cases hs
  · cases hs

theorem snapshotMemoryMap_ok {fw : Firmware} {pool pool' : Pool} {s : BootMemorySnapshot}
    (hnone : ∀ address size entries, pool address ≠ some ⟨size, some entries⟩)
    (h : snapshotMemoryMap fw pool = some (.success, pool', s)) :
    SnapshotOk fw.descriptorSize fw.firstBuffers.1 fw.firstBuffers.2 pool' s := by
  rw [snapshotMemoryMap] at h
  obtain ⟨⟨status, probedMapSize, s₁⟩, hprobe, h⟩ := Option.bind_eq_some_iff.1 h
  rcases getMemoryMap_cases hprobe with ⟨map, mapKey, hanswer, rfl, -, -, rfl⟩ |
    ⟨hanswer, rfl, rfl⟩ | ⟨code, -, rfl, -⟩
  · -- an empty map: there is no buffer at all
    obtain ⟨rfl, rfl⟩ := by simpa using h
    have hfirst : fw.firstBuffers = (0, 0) := by rw [Firmware.firstBuffers, hanswer]
    rw [hfirst]
    exact
      { descriptorSize := rfl
        mapBufferSize := rfl
        ranges_eq := rfl
        rangeCapacity := by simp [BootMemorySnapshot.zero]
        mapBuffer_live := fun hne => absurd rfl hne
        ranges_live := fun hne => absurd rfl hne
        only_ranges := fun address size entries he => absurd he (hnone address size entries) }
  · have hfirst : fw.firstBuffers = (probedMapSize + fw.descriptorSize * 16, fw.ranges) := by
      rw [Firmware.firstBuffers, hanswer]
    rw [hfirst]
    exact snapshotBuffers_ok rfl hnone (by simpa using h)
  · simp at h

/-- Converting the map changes the entries, and nothing else of the buffers. -/
theorem convertMemoryMap_ok {d bufferSize ranges : U64} {pool : Pool} {s : BootMemorySnapshot}
    (ok : SnapshotOk d bufferSize ranges pool s) :
    SnapshotOk d bufferSize ranges (convertMemoryMap pool s).1 (convertMemoryMap pool s).2 := by
  rw [convertMemoryMap]
  split
  · rename_i size entries hpool
    have hold := hpool
    rw [ok.ranges_eq] at hold ⊢
    obtain ⟨-, hne⟩ := ok.only_ranges _ _ _ hold
    obtain ⟨entries', hlive⟩ := ok.ranges_live hne
    obtain ⟨rfl, -⟩ : size = _ ∧ entries = entries' := by simpa [hold] using hlive
    refine ⟨ok.descriptorSize, ok.mapBufferSize, rfl, ok.rangeCapacity, ?_,
      fun _ => ⟨_, Function.update_self _ _ _⟩, ?_⟩
    · intro hbuffer
      by_cases he : s.mapBuffer = ranges
      · simp only [he, Function.update_self, Option.isSome_some]
      · simp only [Function.update_of_ne he]
        exact ok.mapBuffer_live hbuffer
    · intro address size' entries'' he
      by_cases haddress : address = ranges
      · exact ⟨haddress, hne⟩
      · simp only [Function.update_of_ne haddress] at he
        exact ok.only_ranges _ _ _ he
  · exact ok.congr ok.descriptorSize rfl rfl rfl rfl

@[simp] theorem convertMemoryMap_map (pool : Pool) (s : BootMemorySnapshot) :
    (convertMemoryMap pool s).2.map = s.map := by
  rw [convertMemoryMap]
  split <;> rfl

@[simp] theorem convertMemoryMap_mapKey (pool : Pool) (s : BootMemorySnapshot) :
    (convertMemoryMap pool s).2.mapKey = s.mapKey := by
  rw [convertMemoryMap]
  split <;> rfl

/-- A map that fits its buffer is converted as a whole. -/
theorem convertMemoryMap_spec {d bufferSize ranges : U64} {pool : Pool} {s : BootMemorySnapshot}
    (ok : SnapshotOk d bufferSize ranges pool s) (hd : d ≠ 0) (hranges : ranges ≠ 0)
    (hfits : s.map.length * d.toNat ≤ bufferSize.toNat)
    (hsize : s.mapSize = BitVec.ofNat 64 (s.map.length * d.toNat)) :
    (convertMemoryMap pool s).2.rangeCount.toNat = s.map.length ∧
      ∃ entries, (convertMemoryMap pool s).1 ranges =
          some ⟨sizeofPhysicalMemoryRange * (bufferSize / d), some entries⟩ ∧
        ∀ i (hi : i < s.map.length), entries i = convertDescriptor s.map[i] := by
  obtain ⟨entries, hlive⟩ := ok.ranges_live hranges
  have hpos : 0 < d.toNat :=
    Nat.pos_of_ne_zero fun h0 => hd (BitVec.eq_of_toNat_eq (by rw [h0]; rfl))
  have hsizeNat : s.mapSize.toNat = s.map.length * s.descriptorSize.toNat := by
    rw [hsize, ok.descriptorSize, BitVec.toNat_ofNat]
    exact Nat.mod_eq_of_lt (lt_of_le_of_lt hfits bufferSize.isLt)
  have hcapacity : s.map.length ≤ s.rangeCapacity.toNat := by
    rw [ok.rangeCapacity, BitVec.toNat_udiv]
    exact (Nat.le_div_iff_mul_le hpos).2 hfits
  have hfuel : s.map.length ≤ 0 + s.mapSize.toNat := by
    rw [hsizeNat, ok.descriptorSize, Nat.zero_add]
    exact Nat.le_mul_of_pos_right _ hpos
  obtain ⟨hcount, hentries⟩ := convertLoop_spec
    (by rw [ok.descriptorSize]; exact hd) hsizeNat hcapacity s.mapSize.toNat 0 hfuel
    (Nat.zero_le _) (show (0 : U64).toNat = 0 * _ by rw [Nat.zero_mul]; rfl)
    (show (0 : U64).toNat = 0 from rfl)
    (show ∀ i (hi : i < s.map.length), i < 0 → entries i = convertDescriptor s.map[i] from
      fun i _ hi => absurd hi (Nat.not_lt_zero i))
  rw [← ok.ranges_eq] at hlive ⊢
  rw [convertMemoryMap, hlive]
  exact ⟨hcount, _, Function.update_self _ _ _, hentries⟩

/-! ## The attempts -/

/-- Freeing a buffer, if there is one, keeps the others. -/
theorem free_of_ne {pool : Pool} {address x : U64} (hx : address ≠ 0 → x ≠ address) :
    (if address ≠ 0 then freePool pool address else pool) x = pool x := by
  split
  · rename_i hne
    exact Function.update_of_ne (hx hne) _ _
  · rfl

/-- What is live after a buffer was freed. -/
theorem live_of_free {pool : Pool} {address x : U64} {buffer : PoolBuffer}
    (h : (if address ≠ 0 then freePool pool address else pool) x = some buffer) :
    pool x = some buffer ∧ (address ≠ 0 → x ≠ address) := by
  split at h
  · rename_i hne
    have hx : x ≠ address := by
      intro he
      rw [he, freePool, Function.update_self] at h
      cases h
    rw [freePool, Function.update_of_ne hx] at h
    exact ⟨h, fun _ => hx⟩
  · rename_i hne
    exact ⟨h, fun h' => absurd h' hne⟩

/-- The new buffers take the place of the old ones. -/
theorem growBuffers_ok {d bufferSize ranges : U64} {a : AttemptAnswers} {h h' : Handoff}
    {status : EfiStatus} (ok : SnapshotOk d bufferSize ranges h.pool h.snapshot)
    (hgrow : growBuffers a h = some (.again status, h')) :
    SnapshotOk d (h.snapshot.mapSize + d * 16) a.newRanges h'.pool h'.snapshot ∧
      h'.memoryMap = h.memoryMap ∧ status = .bufferTooSmall := by
  rw [growBuffers] at hgrow
  obtain ⟨pool₁, halloc₁, hgrow⟩ := Option.bind_eq_some_iff.1 hgrow
  by_cases hbuffer : a.newMapBuffer = 0
  · rw [if_pos hbuffer] at hgrow
    cases hgrow
  rw [if_neg hbuffer] at hgrow
  obtain ⟨hfree₁, rfl⟩ := allocatePool_eq halloc₁ hbuffer
  obtain ⟨pool₂, halloc₂, hgrow⟩ := Option.bind_eq_some_iff.1 hgrow
  by_cases hranges : a.newRanges = 0
  · rw [if_pos hranges] at hgrow
    cases hgrow
  rw [if_neg hranges] at hgrow
  obtain ⟨hfree₂, rfl⟩ := allocatePool_eq halloc₂ hranges
  cases hgrow
  have hne : a.newMapBuffer ≠ a.newRanges := by
    intro he
    rw [he, Function.update_self] at hfree₂
    cases hfree₂
  rw [Function.update_of_ne hne.symm] at hfree₂
  -- an address that was not in use is not that of an old buffer
  have hmap : ∀ x, h.pool x = none → h.snapshot.mapBuffer ≠ 0 → x ≠ h.snapshot.mapBuffer := by
    intro x hx h0 he
    have hlive := ok.mapBuffer_live h0
    rw [← he, hx] at hlive
    cases hlive
  have hold : ∀ x, h.pool x = none → h.snapshot.ranges ≠ 0 → x ≠ h.snapshot.ranges := by
    intro x hx h0 he
    rw [ok.ranges_eq] at h0 he
    obtain ⟨entries, hlive⟩ := ok.ranges_live h0
    rw [← he, hx] at hlive
    cases hlive
  have hd := ok.descriptorSize
  refine ⟨⟨hd, by rw [hd], rfl, by rw [hd], ?_, ?_, ?_⟩, rfl, rfl⟩
  · intro _
    dsimp only
    rw [free_of_ne (hold _ hfree₁), free_of_ne (hmap _ hfree₁), Function.update_of_ne hne,
      Function.update_self]
    rfl
  · intro _
    dsimp only
    rw [free_of_ne (hold _ hfree₂), free_of_ne (hmap _ hfree₂), Function.update_self, hd]
    exact ⟨_, rfl⟩
  · intro address size entries hlive
    obtain ⟨hlive, hnotRanges⟩ := live_of_free hlive
    obtain ⟨hlive, -⟩ := live_of_free hlive
    by_cases haddress : address = a.newRanges
    · exact ⟨haddress, hranges⟩
    rw [Function.update_of_ne haddress] at hlive
    by_cases haddress' : address = a.newMapBuffer
    · rw [haddress', Function.update_self] at hlive
      cases hlive
    · rw [Function.update_of_ne haddress'] at hlive
      obtain ⟨he, h0⟩ := ok.only_ranges _ _ _ hlive
      rw [← ok.ranges_eq] at he h0
      exact absurd he (hnotRanges h0)

/-- Where the branch for a grown map returns, there was no memory. -/
theorem growBuffers_done {a : AttemptAnswers} {h h' : Handoff} {status : EfiStatus}
    (hgrow : growBuffers a h = some (.done status, h')) : status = .outOfResources := by
  rw [growBuffers] at hgrow
  obtain ⟨pool₁, -, hgrow⟩ := Option.bind_eq_some_iff.1 hgrow
  by_cases hbuffer : a.newMapBuffer = 0
  · rw [if_pos hbuffer] at hgrow
    cases hgrow
    rfl
  rw [if_neg hbuffer] at hgrow
  obtain ⟨pool₂, -, hgrow⟩ := Option.bind_eq_some_iff.1 hgrow
  by_cases hranges : a.newRanges = 0
  · rw [if_pos hranges] at hgrow
    cases hgrow
    rfl
  rw [if_neg hranges] at hgrow
  cases hgrow

/-- The branches of a round that does not fail. -/
theorem exitAttempt_cases {d : U64} {a : AttemptAnswers} {h h' : Handoff} {out : AttemptEnd}
    (hrun : exitAttempt d a h = some (out, h')) :
    (∃ mapSize, a.map = .bufferTooSmall mapSize ∧ growBuffers a { h with
      snapshot := { h.snapshot with descriptorSize := d, mapSize := mapSize } } =
        some (out, h')) ∨
    (∃ code, out = .done (.error code)) ∨
    ∃ map mapKey, a.map = .success map mapKey ∧
      map.length * d.toNat ≤ h.snapshot.mapBufferSize.toNat ∧ ∃ s, s = { h.snapshot with
        mapSize := BitVec.ofNat 64 (map.length * d.toNat), mapKey := mapKey, descriptorSize := d,
        map := map } ∧
      h'.pool = (convertMemoryMap h.pool s).1 ∧ h'.snapshot = (convertMemoryMap h.pool s).2 ∧
      h'.memoryMap = h.memoryMap ∧
      h'.memoryMapEntryCount = (convertMemoryMap h.pool s).2.rangeCount.setWidth 32 ∧
      (a.exit = .success ∧ out = .done .success ∧ h'.acceptedKey = some h'.snapshot.mapKey ∨
        a.exit = .invalidParameter ∧ out = .again .invalidParameter) := by
  rw [exitAttempt] at hrun
  obtain ⟨⟨status, mapSize, s⟩, hread, hrun⟩ := Option.bind_eq_some_iff.1 hrun
  rcases getMemoryMap_cases hread with ⟨map, mapKey, hanswer, rfl, hfits, rfl, rfl⟩ |
    ⟨hanswer, rfl, rfl⟩ | ⟨code, -, rfl, rfl⟩
  · refine Or.inr ?_
    cases hexit : a.exit with
    | success =>
      simp only [hexit] at hrun
      cases hrun
      exact Or.inr ⟨map, mapKey, hanswer, hfits, _, rfl, rfl, rfl, rfl, rfl,
        Or.inl ⟨rfl, rfl, rfl⟩⟩
    | invalidParameter =>
      simp only [hexit] at hrun
      cases hrun
      exact Or.inr ⟨map, mapKey, hanswer, hfits, _, rfl, rfl, rfl, rfl, rfl,
        Or.inr ⟨rfl, rfl⟩⟩
    | error code =>
      simp only [hexit] at hrun
      cases hrun
      exact Or.inl ⟨code, rfl⟩
  · exact Or.inl ⟨mapSize, hanswer, hrun⟩
  · cases hrun
    exact Or.inr (Or.inl ⟨code, rfl⟩)

/-- The map whose key is accepted is handed over when its entries lie at `memoryMap` and neither
the count nor the size of their buffer overflows. -/
theorem handedOver_of_accepted {d bufferSize ranges : U64} {pool : Pool} {s : BootMemorySnapshot}
    {h' : Handoff} (hd : d ≠ 0) (ok : SnapshotOk d bufferSize ranges pool s)
    (hfits : s.map.length * d.toNat ≤ bufferSize.toNat)
    (hsize : s.mapSize = BitVec.ofNat 64 (s.map.length * d.toNat))
    (hpool : h'.pool = (convertMemoryMap pool s).1)
    (hsnapshot : h'.snapshot = (convertMemoryMap pool s).2)
    (hcount : h'.memoryMapEntryCount = (convertMemoryMap pool s).2.rangeCount.setWidth 32)
    (haccepted : h'.acceptedKey = some h'.snapshot.mapKey) :
    HandedOver h' ↔ ranges = h'.memoryMap ∧ ranges ≠ 0 ∧ s.map.length < 2 ^ 32 ∧
      sizeofPhysicalMemoryRange.toNat * s.map.length ≤
        (sizeofPhysicalMemoryRange * (bufferSize / d)).toNat := by
  have hmap : h'.snapshot.map = s.map := by rw [hsnapshot, convertMemoryMap_map]
  constructor
  · rintro ⟨size, entries, hlive, hroom, hlength, hentries, -⟩
    rw [hpool] at hlive
    obtain ⟨haddress, hne⟩ := (convertMemoryMap_ok ok).only_ranges _ _ _ hlive
    obtain ⟨entries', hlive'⟩ := (convertMemoryMap_ok ok).ranges_live hne
    rw [haddress, hlive'] at hlive
    cases hlive
    rw [hmap] at hlength
    refine ⟨haddress.symm, hne, ?_, ?_⟩
    · rw [← hlength]
      exact h'.memoryMapEntryCount.isLt
    · rw [← hlength]
      exact hroom
  · rintro ⟨haddress, hne, hlength, hroom⟩
    obtain ⟨hconverted, entries, hlive, hentries⟩ := convertMemoryMap_spec ok hd hne hfits hsize
    have hcountNat : h'.memoryMapEntryCount.toNat = s.map.length := by
      rw [hcount, BitVec.toNat_setWidth, hconverted]
      exact Nat.mod_eq_of_lt hlength
    refine ⟨sizeofPhysicalMemoryRange * (bufferSize / d), entries, ?_, ?_, ?_, ?_, haccepted⟩
    · rw [← haddress, hpool]
      exact hlive
    · rw [hcountNat]
      exact hroom
    · rw [hcountNat, hmap]
    · simp only [hmap]
      exact hentries

/-- A successful loop hands the map over exactly when `MapStays` holds of the answers. -/
theorem exitLoop_handedOver {d : U64} (hd : d ≠ 0) {attempts : List AttemptAnswers}
    {status : EfiStatus} {bufferSize ranges : U64} {h h' : Handoff}
    (ok : SnapshotOk d bufferSize ranges h.pool h.snapshot) (hstatus : status ≠ .success)
    (hrun : exitLoop d attempts status h = some (.success, h')) :
    HandedOver h' ↔ MapStays d h.memoryMap attempts bufferSize ranges := by
  induction attempts generalizing status bufferSize ranges h with
  | nil =>
    rw [exitLoop] at hrun
    cases hrun
    exact absurd rfl hstatus
  | cons a rest ih =>
    rw [exitLoop] at hrun
    cases hattempt : exitAttempt d a h with
    | none =>
      rw [hattempt] at hrun
      cases hrun
    | some r =>
      obtain ⟨out, h₁⟩ := r
      rw [hattempt] at hrun
      rcases exitAttempt_cases hattempt with ⟨mapSize, hanswer, hgrow⟩ | ⟨code, rfl⟩ |
        ⟨map, mapKey, hanswer, hfits, s, hs, hpool, hsnapshot, hmemoryMap, hcount, hexit⟩
      · rw [MapStays, hanswer]
        cases out with
        | again status₁ =>
          have okRead : SnapshotOk d bufferSize ranges h.pool { h.snapshot with
              descriptorSize := d, mapSize := mapSize } := ok.congr rfl rfl rfl rfl rfl
          obtain ⟨ok₁, hkept, rfl⟩ := growBuffers_ok okRead hgrow
          rw [ih ok₁ (by simp) hrun, hkept]
        | done status₁ =>
          rw [growBuffers_done hgrow] at hrun
          cases hrun
      · cases hrun
      · rw [MapStays, hanswer]
        have okRead : SnapshotOk d bufferSize ranges h.pool s := by
          rw [hs]
          exact ok.congr rfl rfl rfl rfl rfl
        rcases hexit with ⟨hexit, rfl, haccepted⟩ | ⟨hexit, rfl⟩
        · cases hrun
          simp only [hexit]
          rw [ok.mapBufferSize] at hfits
          rw [handedOver_of_accepted hd okRead (by rw [hs]; exact hfits) (by rw [hs]) hpool
            hsnapshot hcount haccepted, hmemoryMap, hs]
        · simp only [hexit]
          have ok₁ : SnapshotOk d bufferSize ranges h₁.pool h₁.snapshot := by
            rw [hpool, hsnapshot]
            exact convertMemoryMap_ok okRead
          rw [ih ok₁ (by simp) hrun, hmemoryMap]

/-- After a successful run of the loader `BOOT_INFO` describes the map whose key was accepted
exactly when the buffer for its entries lies where `SnapshotMemoryMap` allocated the first one, and
neither the count of the entries nor the size of their buffer overflows. -/
theorem handedOver_iff (fw : Firmware) (heap : U64 → Option U64) (h : Handoff)
    (hrun : efiMainHandoff fw heap = some (.success, h)) : HandedOver h ↔ fw.MapStays := by
  rw [efiMainHandoff] at hrun
  obtain ⟨⟨status, pool, s⟩, hsnapshot, hrun⟩ := Option.bind_eq_some_iff.1 hrun
  by_cases hstatus : status = .success
  · subst hstatus
    have hnone : ∀ address size entries,
        (heap address).map (fun n => (⟨n, none⟩ : PoolBuffer)) ≠ some ⟨size, some entries⟩ := by
      intro address size entries he
      obtain ⟨n, -, hn⟩ := Option.map_eq_some_iff.1 he
      cases hn
    have ok := convertMemoryMap_ok (snapshotMemoryMap_ok hnone hsnapshot)
    have hloop := exitLoop_handedOver fw.descriptorSize_ne (h := populateBootInfo _ _) ok
      (by simp) hrun
    rw [hloop, Firmware.MapStays]
    dsimp only [populateBootInfo]
    rw [ok.ranges_eq]
  · dsimp only at hrun
    rw [if_pos hstatus] at hrun
    cases hrun
    exact absurd rfl hstatus

/-! ## A map that grows -/

/-- A firmware whose map does not fit the buffer at the first attempt to exit, and fits the new one
at the second. -/
def growingMap : Firmware where
  descriptorSize := 48
  descriptorSize_ne := by decide
  probe := .bufferTooSmall 48
  mapBuffer := 0x1000
  ranges := 0x2000
  map := .success [⟨7, 0x100000, 16, 0xF⟩] 1
  attempt
    | 0 => ⟨.bufferTooSmall 0x1000, 0x3000, 0x5000, .success⟩
    | _ => ⟨.success [⟨7, 0x100000, 16, 0xF⟩, ⟨4, 0x200000, 16, 0xF⟩] 2, 0, 0, .success⟩

/-- The entries of the grown map are written to the new buffer, and `BOOT_INFO` names the one that
was freed. -/
theorem memory_map_left_in_freed_buffer : ∃ h,
    efiMainHandoff growingMap (fun _ => none) = some (.success, h) ∧
      (h.pool h.memoryMap).isNone ∧ h.snapshot.ranges = 0x5000 ∧ h.memoryMap = 0x2000 ∧
      ¬HandedOver h := by
  have hrun : (efiMainHandoff growingMap fun _ => none).map (fun r =>
      (r.1, (r.2.pool r.2.memoryMap).isNone, r.2.snapshot.ranges, r.2.memoryMap)) =
        some (.success, true, 0x5000, 0x2000) := by decide +kernel
  obtain ⟨⟨status, h⟩, hrun, hr⟩ := Option.map_eq_some_iff.1 hrun
  simp only [Prod.mk.injEq] at hr
  obtain ⟨rfl, hnone, hranges, hmemoryMap⟩ := hr
  refine ⟨h, hrun, hnone, hranges, hmemoryMap, ?_⟩
  rintro ⟨size, entries, hlive, -⟩
  rw [hlive] at hnone
  cases hnone

/-- A firmware whose map keeps its size. -/
def steadyMap : Firmware :=
  { growingMap with
    attempt := fun _ => ⟨.success [⟨7, 0x100000, 16, 0xF⟩] 2, 0, 0, .success⟩ }

theorem handedOver_iff_steady : ∃ h,
    efiMainHandoff steadyMap (fun _ => none) = some (.success, h) ∧
      (HandedOver h ↔ steadyMap.MapStays) ∧ HandedOver h := by
  have hrun : (efiMainHandoff steadyMap fun _ => none).map (fun r => r.1) = some .success := by
    decide +kernel
  obtain ⟨⟨status, h⟩, hrun, rfl⟩ := Option.map_eq_some_iff.1 hrun
  have hiff := handedOver_iff steadyMap (fun _ => none) h hrun
  have hstays : steadyMap.MapStays := ⟨rfl, by decide, by decide, by decide⟩
  exact ⟨h, hrun, hiff, hiff.2 hstays⟩

end NtxKernel.Boot

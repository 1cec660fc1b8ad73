import NtxKernel.Foundations.Ring
import NtxKernel.Mm.Freeing

/-!
# The trace of page faults

`MmpRecordFault` and `MmDumpRecentFaults` of `kernel/mm/init.c`. The trace is a ring of 64 entries,
and one counter of 32 bits says both where the next entry goes and how many there are.

* `mmInitialize_faultTraceNext`: the counter is zero after the initialization.
* `ShowsLatest` is the property: after some faults the dump is the text of the last ones, at most
  64, the oldest first.
* `shows_latest_iff`: it holds iff the counter has not wrapped around, or has reached 64 again.
-/

namespace NtxKernel.Mm

open Foundations Ob

/-- A call of `MmpRecordFault`, with the `AddressSpaceId` of its address space and the `ProcessId`
of the current process, where they are not null. -/
structure FaultCall where
  addressSpaceId : Option U64
  faultAddress : U64
  errorCode : U64
  instructionPointer : U64
  outcome : KStatus
  processId : Option U64

/-- What a call records. -/
def FaultCall.entry (c : FaultCall) : MmFaultTrace where
  faultAddress := c.faultAddress
  instructionPointer := c.instructionPointer
  errorCode := c.errorCode
  processId := c.processId.getD 0
  addressSpaceId := c.addressSpaceId.getD 0
  outcome := c.outcome

/-- The entry that a counter leads to. -/
def faultSlot (i : U32) : Fin mmFaultTraceDepth :=
  ⟨i.toNat % mmFaultTraceDepth, Nat.mod_lt _ (by decide)⟩

/-- `MmpRecordFault`. -/
def mmpRecordFault (mm : MmState) (c : FaultCall) : MmState :=
  { mm with
    faultTrace := Function.update mm.faultTrace (faultSlot mm.faultTraceNext) c.entry
    faultTraceNext := mm.faultTraceNext + 1 }

/-! ## The dump -/

/-- The characters of `MmpHex64`. -/
def mmpHex64 (value : U64) : CString :=
  (List.range 16).map fun i =>
    let digit := (value >>> ((15 - i) * 4)).toNat % 16
    UInt8.ofNat (if digit < 10 then 48 + digit else 55 + digit)

/-- The line of `MmpWriteHexLine`, from a buffer of 96 characters. -/
def mmpWriteHexLine (pre : CString) (value : U64) : CString :=
  let head := pre.take 95 ++ [48, 120]
  head ++ (mmpHex64 value).take (95 - head.length) ++ [10]

/-- The prefix `"[MMFLT] "` of the lines of the dump. -/
def mmfltPrefix : CString := [91, 77, 77, 70, 76, 84, 93, 32]

/-- The six lines of an entry. -/
def MmFaultTrace.text (entry : MmFaultTrace) : CString :=
  mmpWriteHexLine (mmfltPrefix ++ [86, 65, 61]) entry.faultAddress ++
    mmpWriteHexLine (mmfltPrefix ++ [82, 73, 80, 61]) entry.instructionPointer ++
    mmpWriteHexLine (mmfltPrefix ++ [69, 82, 82, 61]) entry.errorCode ++
    mmpWriteHexLine (mmfltPrefix ++ [80, 73, 68, 61]) entry.processId ++
    mmpWriteHexLine (mmfltPrefix ++ [65, 83, 61]) entry.addressSpaceId ++
    mmpWriteHexLine (mmfltPrefix ++ [79, 85, 84, 61]) (entry.outcome.toInt32.signExtend 64)

/-- The number of entries that the dump shows. -/
def MmState.faultCount (mm : MmState) : U32 :=
  if mm.faultTraceNext.toNat < mmFaultTraceDepth then mm.faultTraceNext
  else BitVec.ofNat 32 mmFaultTraceDepth

/-- `MmDumpRecentFaults`. -/
def mmDumpRecentFaults (mm : MmState) : CString :=
  (List.range mm.faultCount.toNat).flatMap fun i =>
    (mm.faultTrace (faultSlot (mm.faultTraceNext - mm.faultCount + BitVec.ofNat 32 i))).text

/-- After the faults the dump shows the last ones. -/
def ShowsLatest (mm : MmState) (calls : List FaultCall) : Prop :=
  mmDumpRecentFaults (calls.foldl mmpRecordFault mm) =
    ((calls.map FaultCall.entry).drop (calls.length - mmFaultTraceDepth)).flatMap
      MmFaultTrace.text

/-! ## The counter after the initialization -/

theorem mmpMarkPages_faultTraceNext (allocated : Bool) (n page : ℕ) (mm : MmState) :
    (mmpMarkPages allocated n page mm).faultTraceNext = mm.faultTraceNext := by
  induction n generalizing page mm with
  | zero => rfl
  | succ n ih =>
    rw [mmpMarkPages]
    split
    · rfl
    · rw [ih, mmpSetPage]
      split <;> rfl

theorem mmpMarkRange_faultTraceNext (mm : MmState) (base length : U64) (allocated : Bool) :
    (mmpMarkRange mm base length allocated).faultTraceNext = mm.faultTraceNext := by
  rw [mmpMarkRange]
  split
  · rfl
  dsimp only
  split
  · rfl
  · exact mmpMarkPages_faultTraceNext _ _ _ mm

theorem mmpMarkEntries_faultTraceNext (map : MemoryMap) (entrySize : U32) (n : ℕ) (cursor : U64)
    (mm : MmState) :
    (mmpMarkEntries map entrySize n cursor mm).faultTraceNext = mm.faultTraceNext := by
  induction n generalizing cursor mm with
  | zero => rfl
  | succ n ih =>
    rw [mmpMarkEntries, ih]
    split
    · exact mmpMarkRange_faultTraceNext mm _ _ _
    · rfl

theorem bootReserved_faultTraceNext (mm : MmState) (bootInfo : BootInfo) (map : MemoryMap)
    (top : U64) : (bootReserved mm bootInfo map top).faultTraceNext = 0 := by
  have husable : (mmpMarkUsableFromBootInfo map bootInfo (mmPrepare mm top)).faultTraceNext = 0 := by
    rw [mmpMarkUsableFromBootInfo]
    split
    · rfl
    · exact mmpMarkEntries_faultTraceNext _ _ _ _ _
  rw [bootReserved, mmpReserveBootCriticalRanges_eq]
  generalize mmpMarkUsableFromBootInfo map bootInfo (mmPrepare mm top) = mm₁ at husable ⊢
  induction bootInfo.criticalRanges generalizing mm₁ with
  | nil => exact husable
  | cons r ranges ih => exact ih _ ((mmpMarkRange_faultTraceNext mm₁ _ _ _).trans husable)

theorem mmpAllocPageInternal_faultTraceNext (mm : MmState) (count : U32) :
    (mmpAllocPageInternal mm count).1.faultTraceNext = mm.faultTraceNext := by
  rcases mmpAllocPageInternal_cases mm count with ⟨-, e, heq⟩ | ⟨page, -, -, heq⟩
  · rw [heq]
  · rw [heq]
    rfl

theorem mmpCloneKernelRootTable_faultTraceNext (mm : MmState) :
    (mmpCloneKernelRootTable mm).1.faultTraceNext = mm.faultTraceNext := by
  rw [mmpCloneKernelRootTable]
  split
  · rfl
  have hkeep := mmpAllocPageInternal_faultTraceNext mm 1
  generalize mmpAllocPageInternal mm 1 = r at hkeep ⊢
  obtain ⟨mm₁, e | pa⟩ := r <;> exact hkeep

theorem mmpMapLargePages_faultTraceNext (pd offset mappedBytes n j : ℕ) (mm : MmState) :
    (mmpMapLargePages pd offset mappedBytes n j mm).faultTraceNext = mm.faultTraceNext := by
  induction n generalizing j mm with
  | zero => rfl
  | succ n ih =>
    rw [mmpMapLargePages]
    split
    · exact ih _ _
    · rfl

theorem mmpMapDirectories_faultTraceNext (pdpt mappedBytes n k : ℕ) (mm : MmState) :
    (mmpMapDirectories pdpt mappedBytes n k mm).1.faultTraceNext = mm.faultTraceNext := by
  induction n generalizing k mm with
  | zero => rfl
  | succ n ih =>
    rw [mmpMapDirectories]
    dsimp only
    split
    · split
      · exact (ih _ _).trans (mmpMapLargePages_faultTraceNext ..)
      · have hkeep := mmpAllocPageInternal_faultTraceNext mm 1
        generalize mmpAllocPageInternal mm 1 = r at hkeep ⊢
        obtain ⟨mm₁, e | pd⟩ := r
        · exact hkeep
        · exact (ih _ _).trans ((mmpMapLargePages_faultTraceNext ..).trans hkeep)
    · rfl

theorem physmapOnline_faultTraceNext (r : MmState × Except KStatus Unit) :
    (physmapOnline r).1.faultTraceNext = r.1.faultTraceNext := by
  obtain ⟨mm, e | _⟩ := r <;> rfl

theorem mmpBuildKernelPhysmap_faultTraceNext (mm : MmState) :
    (mmpBuildKernelPhysmap mm).1.faultTraceNext = mm.faultTraceNext := by
  rw [mmpBuildKernelPhysmap]
  split
  · rfl
  dsimp only
  have hkeep := mmpAllocPageInternal_faultTraceNext
    { mm with physmapBase := mmPhysmapBase, physmapBytes := physmapSize mm } 1
  generalize mmpAllocPageInternal _ 1 = r at hkeep ⊢
  obtain ⟨mm₁, e | pdpt⟩ := r
  · exact hkeep
  dsimp only
  rw [physmapOnline_faultTraceNext]
  exact (mmpMapDirectories_faultTraceNext ..).trans hkeep

/-- A successful initialization leaves the counter at zero. -/
theorem mmInitialize_faultTraceNext {mm mm' : MmState} {bootInfo : BootInfo} {map : MemoryMap}
    {top : U64} {sectionType : Except KStatus TypeRef}
    (h : mmInitialize mm (some bootInfo) map top sectionType = (mm', .ok ())) :
    mm'.faultTraceNext = 0 := by
  rw [mmInitialize] at h
  split at h
  · cases h
  dsimp only at h
  split at h
  · cases h
  rw [← bootReserved] at h
  have hclone := mmpCloneKernelRootTable_faultTraceNext (bootReserved mm bootInfo map top)
  rw [bootReserved_faultTraceNext] at hclone
  generalize mmpCloneKernelRootTable (bootReserved mm bootInfo map top) = r at h hclone
  obtain ⟨mm₁, e | _⟩ := r
  · cases h
  dsimp only at h hclone
  have hphysmap := (mmpBuildKernelPhysmap_faultTraceNext mm₁).trans hclone
  generalize mmpBuildKernelPhysmap mm₁ = r at h hphysmap
  obtain ⟨mm₂, e | _⟩ := r
  · cases h
  dsimp only at h hphysmap
  rcases sectionType with e | t
  · cases h
  · cases h
    exact hphysmap

/-! ## The ring -/

variable {m : MmState} {calls : List FaultCall}

theorem foldl_faultTraceNext (m : MmState) (calls : List FaultCall) :
    (calls.foldl mmpRecordFault m).faultTraceNext =
      m.faultTraceNext + BitVec.ofNat 32 calls.length := by
  induction calls generalizing m with
  | nil => exact (BitVec.add_zero _).symm
  | cons c calls ih =>
    rw [List.foldl_cons, ih, mmpRecordFault, List.length_cons, BitVec.ofNat_add, BitVec.add_assoc]
    exact congrArg (m.faultTraceNext + ·) (BitVec.add_comm _ _)

/-- The place that the counter stands for does not depend on how often it wrapped around. -/
theorem faultSlot_ofNat (n : ℕ) :
    faultSlot (BitVec.ofNat 32 n) = Ring.cell mmFaultTraceDepth n := by
  refine Fin.ext ?_
  show (BitVec.ofNat 32 n).toNat % mmFaultTraceDepth = n % mmFaultTraceDepth
  rw [BitVec.toNat_ofNat]
  exact Nat.mod_mod_of_dvd n (by decide)

/-- The faults are written around the ring. -/
theorem foldl_faultTrace (n : ℕ) (hn : m.faultTraceNext = BitVec.ofNat 32 n)
    (calls : List FaultCall) :
    (calls.foldl mmpRecordFault m).faultTrace =
      Ring.write n m.faultTrace (calls.map FaultCall.entry) := by
  induction calls generalizing m n with
  | nil => rfl
  | cons c calls ih =>
    rw [List.foldl_cons, List.map_cons, Ring.write, ih (n + 1)]
    · rw [mmpRecordFault, hn, faultSlot_ofNat]
    · rw [mmpRecordFault, hn, BitVec.ofNat_add]
      rfl

/-- The counter after the faults. -/
theorem toNat_faultTraceNext (hzero : m.faultTraceNext = 0) (calls : List FaultCall) :
    (calls.foldl mmpRecordFault m).faultTraceNext.toNat = calls.length % 2 ^ 32 := by
  rw [foldl_faultTraceNext, hzero, BitVec.toNat_add, BitVec.toNat_ofNat]
  exact (congrArg (· % 2 ^ 32) (Nat.zero_add _)).trans (Nat.mod_mod _ _)

/-- How many entries are shown. -/
theorem toNat_faultCount (m : MmState) :
    m.faultCount.toNat = min m.faultTraceNext.toNat mmFaultTraceDepth := by
  rw [MmState.faultCount]
  split
  next hlt => exact (min_eq_left (Nat.le_of_lt hlt)).symm
  next hle => exact (min_eq_right (Nat.not_lt.1 hle)).symm

/-- The last faults are the ones that are shown, where as many are shown. -/
theorem showsLatest_of_count (hzero : m.faultTraceNext = 0)
    (h : (calls.foldl mmpRecordFault m).faultCount.toNat = min calls.length mmFaultTraceDepth) :
    ShowsLatest m calls := by
  have hnext := toNat_faultTraceNext hzero calls
  have hentries := foldl_faultTrace 0 hzero calls
  rw [ShowsLatest, mmDumpRecentFaults]
  generalize calls.foldl mmpRecordFault m = m' at h hnext hentries ⊢
  have hle : m'.faultCount.toNat ≤ m'.faultTraceNext.toNat := by
    rw [toNat_faultCount]
    exact min_le_left _ _
  rw [h]
  have hlist : ((List.range (min calls.length mmFaultTraceDepth)).map fun i =>
      m'.faultTrace (faultSlot (m'.faultTraceNext - m'.faultCount + BitVec.ofNat 32 i))) =
      (calls.map FaultCall.entry).drop (calls.length - mmFaultTraceDepth) := by
    refine List.ext_getElem ?_ fun i hi hi' => ?_
    · rw [List.length_map, List.length_range, List.length_drop, List.length_map]
      omega
    rw [List.length_map, List.length_range] at hi
    rw [List.getElem_map, List.getElem_range, List.getElem_drop]
    have hplace : m'.faultTraceNext - m'.faultCount + BitVec.ofNat 32 i =
        BitVec.ofNat 32 (calls.length - mmFaultTraceDepth + i) := by
      refine BitVec.eq_of_toNat_eq ?_
      rw [BitVec.toNat_add, BitVec.toNat_sub_of_le (BitVec.le_def.2 hle), hnext, h,
        BitVec.toNat_ofNat, BitVec.toNat_ofNat]
      omega
    have hcell := Ring.write_last 0 m.faultTrace (calls.map FaultCall.entry)
      (i := calls.length - mmFaultTraceDepth + i)
      (by rw [List.length_map]; omega) (by rw [List.length_map]; omega)
    rw [Nat.zero_add] at hcell
    rw [hplace, faultSlot_ofNat, hentries, hcell]
  rw [← hlist, List.flatMap_map]

/-! ## When the counter wraps around -/

theorem length_mmpWriteHexLine {pre : CString} (h : pre.length ≤ 77) (value : U64) :
    (mmpWriteHexLine pre value).length = pre.length + 19 := by
  have hdigits : (mmpHex64 value).length = 16 := by
    rw [mmpHex64, List.length_map, List.length_range]
  rw [mmpWriteHexLine, List.take_of_length_le (show pre.length ≤ 95 by omega)]
  simp only [List.length_append, List.length_take, List.length_cons, List.length_nil, hdigits]
  omega

/-- All entries take the same room. -/
theorem MmFaultTrace.length_text (entry : MmFaultTrace) : entry.text.length = 184 := by
  simp only [text, List.length_append]
  rw [length_mmpWriteHexLine (by decide), length_mmpWriteHexLine (by decide),
    length_mmpWriteHexLine (by decide), length_mmpWriteHexLine (by decide),
    length_mmpWriteHexLine (by decide), length_mmpWriteHexLine (by decide)]
  rfl

theorem length_texts {α : Type} (l : List α) (f : α → MmFaultTrace) :
    (l.flatMap fun x => (f x).text).length = 184 * l.length := by
  induction l with
  | nil => rfl
  | cons x l ih =>
    rw [List.flatMap_cons, List.length_append, ih, MmFaultTrace.length_text, List.length_cons]
    omega

/-- Where the last faults are shown, as many are shown. -/
theorem ShowsLatest.count (h : ShowsLatest m calls) :
    (calls.foldl mmpRecordFault m).faultCount.toNat = min calls.length mmFaultTraceDepth := by
  have hlength := congrArg List.length h
  rw [mmDumpRecentFaults, length_texts, List.length_range] at hlength
  have hdrop := length_texts ((calls.map FaultCall.entry).drop (calls.length - mmFaultTraceDepth)) id
  rw [List.length_drop, List.length_map] at hdrop
  have hsame := hlength.trans hdrop
  omega

/-- After a successful initialization the dump shows the last faults iff there were fewer than
`2 ^ 32`, or the counter stands at 64 or more. -/
theorem shows_latest_iff (mm m₀ : MmState) (bootInfo : BootInfo) (map : MemoryMap) (top : U64)
    (sectionType : Except KStatus TypeRef)
    (hinit : mmInitialize mm (some bootInfo) map top sectionType = (m₀, .ok ()))
    (calls : List FaultCall) :
    ShowsLatest m₀ calls ↔
      calls.length < 2 ^ 32 ∨ mmFaultTraceDepth ≤ calls.length % 2 ^ 32 := by
  have hzero := mmInitialize_faultTraceNext hinit
  have hcount := toNat_faultCount (calls.foldl mmpRecordFault m₀)
  rw [toNat_faultTraceNext hzero] at hcount
  constructor
  · intro h
    have hshown := h.count
    omega
  · intro h
    refine showsLatest_of_count hzero ?_
    omega

theorem shows_latest_fourPages : ShowsLatest fourPagesBoot.1
    (List.replicate 100 ⟨none, 0, 0, 0, .accessDenied, none⟩) :=
  (shows_latest_iff { MmState.zero with cr3 := 0x1000 } fourPagesBoot.1 fourPagesBootInfo
    fourPagesMap 0x104000 (.ok 0) fourPagesBoot_eq _).2 (.inl (by decide))

/-- After `2 ^ 32` faults the dump is empty. -/
theorem dump_empty : ¬ShowsLatest fourPagesBoot.1
    (List.replicate (2 ^ 32) ⟨none, 0, 0, 0, .accessDenied, none⟩) := by
  intro h
  have hcount := h.count
  rw [toNat_faultCount, toNat_faultTraceNext (mmInitialize_faultTraceNext fourPagesBoot_eq),
    List.length_replicate] at hcount
  exact absurd hcount (by decide)

end NtxKernel.Mm

import NtxKernel.Mm.Walk

/-!
# Regions, sections and page faults

The regions of an address space and what fills them: `MmMapAnonymous`, `MmMapSectionHandle`,
`MmCreateSectionHandle`, the delete routine of sections and `MmHandlePageFault` of
`kernel/mm/init.c`.

The sections are objects of the object manager, whose state comes with that of the managers over
it, `σ`. `MmGlobals σ` says where the globals of the memory manager are in there.
-/

namespace NtxKernel.Mm

open Foundations Ob

def mmProtRead : U32 := 0x1
def mmProtWrite : U32 := 0x2
def mmProtExecute : U32 := 0x4
def mmProtUser : U32 := 0x8

def mmRegionTypeAnon : U32 := 1
def mmRegionTypePhys : U32 := 2
def mmRegionTypeSection : U32 := 3

def mmRegionFlagLazy : U32 := 0x1
def mmRegionFlagWired : U32 := 0x2
def mmRegionFlagCow : U32 := 0x4
def mmRegionFlagGuard : U32 := 0x8

def mmSectionAccessMapRead : U32 := 0x1
def mmSectionAccessMapWrite : U32 := 0x2
def mmSectionAccessAll : U32 := 0x3

def mmPfErrorPresent : U64 := 0x1
def mmPfErrorWrite : U64 := 0x2
def mmPfErrorUser : U64 := 0x4
def mmPfErrorInstr : U64 := 0x10

/-- The globals of the memory manager among those of the managers over the object manager. -/
class MmGlobals (σ : Type) where
  mm : σ → MmState
  setMm : MmState → σ → σ
  mm_setMm : ∀ s k, mm (setMm s k) = s
  setMm_mm : ∀ k, setMm (mm k) k = k

instance : MmGlobals MmState where
  mm s := s
  setMm s _ := s
  mm_setMm _ _ := rfl
  setMm_mm _ := rfl

attribute [simp] MmGlobals.mm_setMm MmGlobals.setMm_mm

/-- `MmpAlignSizeToPage`. -/
def mmpAlignSizeToPage (size : U64) : U64 :=
  if size = 0 then 4096 else mmpAlignUp size 4096

/-- `MmpProtectionToPte`. -/
def mmpProtectionToPte (protection regionFlags : U32) : U64 :=
  let flags : U64 := 0
  let flags := if hasFlag protection mmProtWrite && !hasFlag regionFlags mmRegionFlagCow then
    flags ||| mmPteWritable else flags
  let flags := if hasFlag protection mmProtUser then flags ||| mmPteUser else flags
  let flags := if hasFlag protection mmProtExecute then flags else flags ||| mmPteNx
  if hasFlag regionFlags mmRegionFlagCow then flags ||| mmPteSoftCow else flags

/-- Write a region of the address space `a`. -/
def MmState.modifyRegion (mm : MmState) (a : AddressSpaceRef) (slot : Fin mmMaxVaRegions)
    (f : MmVaRegion → MmVaRegion) : MmState :=
  mm.modifyAddressSpace a fun space =>
    { space with regions := Function.update space.regions slot (f (space.regions slot)) }

/-! ## Anonymous memory -/

/-- Map a fresh page of zeros at `va`. -/
def mmMapZeroPage (mm : MmState) (a : AddressSpaceRef) (va : U64) (protection flags : U32) :
    MmState × Except KStatus Unit :=
  match mmAllocPage mm with
  | (mm, .error _) => (mm, .error .initFailed)
  | (mm, .ok pa) =>
    mmAsMapPage (mm.fillFrame (pteFrame pa) fun _ => 0) a va pa
      (mmpProtectionToPte protection flags)

/-- The loop of `MmMapAnonymous` over the pages of a wired region, with `n` pages to go. -/
def mmMapWired (a : AddressSpaceRef) (slot : Fin mmMaxVaRegions) (virtualBase : U64)
    (protection flags : U32) : ℕ → U64 → MmState → MmState × Except KStatus Unit
  | 0, _, mm => (mm, .ok ())
  | n + 1, cursor, mm =>
    match mmMapZeroPage mm a (virtualBase + cursor) protection flags with
    | (mm, .error _) => (mm, .error .initFailed)
    | (mm, .ok _) =>
      mmMapWired a slot virtualBase protection flags n (cursor + 4096)
        (mm.modifyRegion a slot fun r => { r with committedPages := r.committedPages + 1 })

/-- The flags of a new region: it is lazy unless it is wired. -/
def effectiveFlags (regionFlags : U32) : U32 :=
  if regionFlags &&& (mmRegionFlagLazy ||| mmRegionFlagWired) = 0 then
    regionFlags ||| mmRegionFlagLazy
  else regionFlags

/-- Count the region in the first free slot, and move the next base behind it. -/
def MmState.addRegion (mm : MmState) (a : AddressSpaceRef) (virtualBase mapSize : U64) : MmState :=
  mm.modifyAddressSpace a fun space =>
    { space with regionCount := space.regionCount + 1, nextUserBase := virtualBase + mapSize }

/-- The region that `MmMapAnonymous` writes. -/
def anonRegion (virtualBase mapSize : U64) (protection regionFlags : U32) : MmVaRegion where
  base := virtualBase
  size := mapSize
  type := mmRegionTypeAnon
  protection := protection ||| mmProtUser
  flags := effectiveFlags regionFlags
  committedPages := 0
  backingPhysicalBase := 0
  backingObject := none
  backingOffset := 0

/-- `MmMapAnonymous`. -/
def mmMapAnonymous (mm : MmState) (a : AddressSpaceRef) (size : U64)
    (protection regionFlags : U32) : MmState × Except KStatus U64 :=
  if mm.ready = false then (mm, .error .invalidParameter)
  else if h : (mm.addressSpacePool a).regionCount < mmMaxVaRegions then
    let mapSize := mmpAlignSizeToPage size
    let virtualBase := mmpAlignUp (mm.addressSpacePool a).nextUserBase 4096
    let slot : Fin mmMaxVaRegions := ⟨(mm.addressSpacePool a).regionCount, h⟩
    let region := anonRegion virtualBase mapSize protection regionFlags
    let mm := mm.modifyRegion a slot fun _ => region
    if hasFlag region.flags mmRegionFlagWired then
      match mmMapWired a slot virtualBase region.protection region.flags
          (mapSize.toNat / mmPageSize) 0 mm with
      | (mm, .error e) => (mm, .error e)
      | (mm, .ok _) => (mm.addRegion a virtualBase mapSize, .ok virtualBase)
    else (mm.addRegion a virtualBase mapSize, .ok virtualBase)
  else (mm, .error .initFailed)

/-! ## Sections -/

/-- `MmpFindSectionByHeader`. -/
def mmpFindSectionByHeader (mm : MmState) (header : Option ObjectRef) : Option SectionRef :=
  match header with
  | none => none
  | some o => firstIndex fun s => mm.sectionInUse s && decide ((mm.sectionPool s).header = some o)

/-- The loop of `MmpDeleteSectionObject` over the first `n` pages. -/
def mmpFreeSectionPages (s : SectionRef) : ℕ → MmState → MmState
  | 0, mm => mm
  | n + 1, mm =>
    let mm := mmpFreeSectionPages s n mm
    if h : n < mmMaxSectionPages then
      let pa := (mm.sectionPool s).pages ⟨n, h⟩
      if pa ≠ 0 then
        (mmFreePage mm pa).1.modifySection s fun sec =>
          { sec with pages := Function.update sec.pages ⟨n, h⟩ 0 }
      else mm
    else mm

/-- `MmpDeleteSectionObject`. -/
def mmpDeleteSectionObject (mm : MmState) (object : ObjectRef) : MmState :=
  match mmpFindSectionByHeader mm (some object) with
  | none => mm
  | some s =>
    let mm := mmpFreeSectionPages s (mm.sectionPool s).pageCount mm
    { mm with sectionInUse := Function.update mm.sectionInUse s false }.modifySection s fun sec =>
      { sec with header := none, pageCount := 0 }

variable {σ : Type} [MmGlobals σ]

open MmGlobals

/-- The delete routine of the type of sections. -/
def mmSectionDeleteRoutine (object : ObjectRef) (k : σ) : σ :=
  setMm (mmpDeleteSectionObject (mm k) object) k

/-- The name of section objects, `"mm.section"`. -/
def mmSectionName : CString := [109, 109, 46, 115, 101, 99, 116, 105, 111, 110]

/-- The pages of a section that holds `size` bytes, in the 32 bits of `PageCount`. -/
def sectionPageCount (size : U64) : ℕ := (mmpAlignSizeToPage size).toNat / mmPageSize % 2 ^ 32

/-- The loop of `MmCreateSectionHandle` over the pages from the `i`-th on, with `n` to go. -/
def mmAllocSectionPages (s : SectionRef) : ℕ → ℕ → MmState → MmState × Except KStatus Unit
  | 0, _, mm => (mm, .ok ())
  | n + 1, i, mm =>
    match mmAllocPage mm with
    | (mm, .error e) => (mm, .error e)
    | (mm, .ok pa) =>
      let mm := mm.fillFrame (pteFrame pa) fun _ => 0
      if h : i < mmMaxSectionPages then
        mmAllocSectionPages s n (i + 1) (mm.modifySection s fun sec =>
          { sec with pages := Function.update sec.pages ⟨i, h⟩ pa })
      else (mm, .ok ())

/-- `MmCreateSectionHandle`. -/
def mmCreateSectionHandle (ob : ObState σ) (k : σ) (size : U64) (desiredAccess : U32) :
    ObState σ × σ × Except KStatus U32 :=
  if (mm k).ready = false ∨ (mm k).sectionType = none then (ob, k, .error .invalidParameter)
  else if sectionPageCount size = 0 ∨ mmMaxSectionPages < sectionPageCount size then
    (ob, k, .error .invalidParameter)
  else
    match firstIndex fun s => !(mm k).sectionInUse s with
    | none => (ob, k, .error .initFailed)
    | some s =>
      let m := { mm k with sectionInUse := Function.update (mm k).sectionInUse s true }
      let m := m.modifySection s fun _ => ⟨none, 0, fun _ => 0⟩
      match obCreateObject ob m.sectionType (some mmSectionName) mmSectionAccessAll 0 with
      | (ob, .error e) =>
        (ob, setMm { m with sectionInUse := Function.update m.sectionInUse s false } k, .error e)
      | (ob, .ok header) =>
        let m := m.modifySection s fun sec =>
          { sec with header := some header, pageCount := sectionPageCount size }
        match mmAllocSectionPages s (sectionPageCount size) 0 m with
        | (m, .error e) =>
          let (ob, k, _) := obDereferenceObject ob (setMm m k) header
          (ob, k, .error e)
        | (m, .ok _) =>
          let (ob, result) := obInsertHandle ob header desiredAccess
          let (ob, k, _) := obDereferenceObject ob (setMm m k) header
          (ob, k, result)

/-- The region that `MmMapSectionHandle` writes. -/
def sectionRegion (virtualBase mapSize : U64) (protection : U32) (header : ObjectRef) :
    MmVaRegion where
  base := virtualBase
  size := mapSize
  type := mmRegionTypeSection
  protection := (if protection = 0 then mmProtRead else protection) ||| mmProtUser
  flags := mmRegionFlagLazy
  committedPages := 0
  backingPhysicalBase := 0
  backingObject := some header
  backingOffset := 0

/-- `MmMapSectionHandle`. -/
def mmMapSectionHandle (ob : ObState σ) (k : σ) (a : AddressSpaceRef) (handleValue : U32)
    (protection : U32) : ObState σ × σ × Except KStatus U64 :=
  if (mm k).ready = false ∨ (mm k).sectionType = none then (ob, k, .error .invalidParameter)
  else if h : ((mm k).addressSpacePool a).regionCount < mmMaxVaRegions then
    let desiredAccess :=
      if hasFlag protection mmProtWrite then mmSectionAccessMapRead ||| mmSectionAccessMapWrite
      else mmSectionAccessMapRead
    match obReferenceObjectByHandle ob handleValue desiredAccess (mm k).sectionType with
    | (ob, .error e) => (ob, k, .error e)
    | (ob, .ok header) =>
      match mmpFindSectionByHeader (mm k) (some header) with
      | none =>
        let (ob, k, _) := obDereferenceObject ob k header
        (ob, k, .error .notFound)
      | some s =>
        let mapSize : U64 := BitVec.ofNat 64 (((mm k).sectionPool s).pageCount * mmPageSize)
        let virtualBase := mmpAlignUp ((mm k).addressSpacePool a).nextUserBase 4096
        let slot : Fin mmMaxVaRegions := ⟨((mm k).addressSpacePool a).regionCount, h⟩
        let m := (mm k).modifyRegion a slot fun _ =>
          sectionRegion virtualBase mapSize protection header
        (ob, setMm (m.addRegion a virtualBase mapSize) k, .ok virtualBase)
  else (ob, k, .error .initFailed)

/-! ## Page faults -/

/-- An address lies in a region. -/
def MmVaRegion.contains (r : MmVaRegion) (va : U64) : Bool :=
  decide (r.base.toNat ≤ va.toNat) && decide (va.toNat < (r.base + r.size).toNat)

/-- `MmpFindRegion`. -/
def mmpFindRegion (space : MmAddressSpace) (va : U64) : Option (Fin mmMaxVaRegions) :=
  firstIndex fun i => decide (i.val < space.regionCount) && (space.regions i).contains va

/-- The flags of a page after its copy. -/
def cowFlags (pte : U64) : U64 := ((pte &&& ~~~mmPteSoftCow) ||| mmPteWritable) &&& ~~~mmPteAddrMask

/-- The branch of `MmHandlePageFault` for a write to a copy-on-write page. -/
def mmpCopyOnWrite (mm : MmState) (a : AddressSpaceRef) (pageVa pte : U64) :
    MmState × Except KStatus Unit :=
  let oldPa := pte &&& mmPteAddrMask
  let oldPageIndex := oldPa.toNat / mmPageSize
  if oldPageIndex < mmMaxTrackedPages ∧ mm.pageRefCount oldPageIndex = 1 then
    mmAsProtectPage mm a pageVa ((pte &&& ~~~mmPteSoftCow) ||| mmPteWritable)
  else
    match mmAllocPage mm with
    | (mm, .error _) => (mm, .error .initFailed)
    | (mm, .ok newPa) =>
      let mm := mm.fillFrame (pteFrame newPa) (mm.mem (pteFrame oldPa))
      mmAsMapPage (mmpReleasePage mm oldPa) a pageVa newPa (cowFlags pte)

/-- `Region->CommittedPages++` after a page was mapped. -/
def commitPage (a : AddressSpaceRef) (slot : Fin mmMaxVaRegions) :
    MmState × Except KStatus Unit → MmState × Except KStatus Unit
  | (mm, .error e) => (mm, .error e)
  | (mm, .ok _) =>
    (mm.modifyRegion a slot fun r => { r with committedPages := r.committedPages + 1 }, .ok ())

/-- The branch of `MmHandlePageFault` for a page of a section. -/
def mmpFaultSection (mm : MmState) (a : AddressSpaceRef) (slot : Fin mmMaxVaRegions)
    (region : MmVaRegion) (pageVa : U64) : MmState × Except KStatus Unit :=
  match mmpFindSectionByHeader mm region.backingObject with
  | none => (mm, .error .notFound)
  | some s =>
    let offset := (pageVa - region.base) + region.backingOffset
    let pageIndex := offset.toNat / mmPageSize % 2 ^ 32
    if (mm.sectionPool s).pageCount ≤ pageIndex then (mm, .error .accessDenied)
    else if h : pageIndex < mmMaxSectionPages then
      let pa := (mm.sectionPool s).pages ⟨pageIndex, h⟩
      commitPage a slot (mmAsMapPage (mmpRetainPage mm pa) a pageVa pa
        (mmpProtectionToPte region.protection region.flags))
    else (mm, .error .accessDenied)

/-- `MmHandlePageFault`. -/
def mmHandlePageFault (mm : MmState) (a : AddressSpaceRef) (faultAddress errorCode : U64) :
    MmState × Except KStatus Unit :=
  if mm.ready = false then (mm, .error .invalidParameter)
  else
    match mmpFindRegion (mm.addressSpacePool a) faultAddress with
    | none => (mm, .error .accessDenied)
    | some slot =>
      let region := (mm.addressSpacePool a).regions slot
      if hasFlag region.flags mmRegionFlagGuard then (mm, .error .accessDenied)
      else if hasFlag errorCode mmPfErrorWrite && !hasFlag region.protection mmProtWrite then
        (mm, .error .accessDenied)
      else if hasFlag errorCode mmPfErrorUser && !hasFlag region.protection mmProtUser then
        (mm, .error .accessDenied)
      else if hasFlag errorCode mmPfErrorInstr && !hasFlag region.protection mmProtExecute then
        (mm, .error .accessDenied)
      else
        let pageVa := mmpAlignDown faultAddress 4096
        let (mm, pte) := mmAsQueryPte mm a pageVa
        if hasFlag errorCode mmPfErrorPresent then
          match pte with
          | .ok pte =>
            if hasFlag pte mmPteSoftCow && hasFlag errorCode mmPfErrorWrite then
              mmpCopyOnWrite mm a pageVa pte
            else (mm, .error .accessDenied)
          | .error _ => (mm, .error .accessDenied)
        else if region.type = mmRegionTypeAnon then
          commitPage a slot (mmMapZeroPage mm a pageVa region.protection region.flags)
        else if region.type = mmRegionTypePhys then
          let pa := region.backingPhysicalBase + (pageVa - region.base)
          mmAsMapPage (mmpRetainPage mm pa) a pageVa pa
            (mmpProtectionToPte region.protection region.flags)
        else if region.type = mmRegionTypeSection then mmpFaultSection mm a slot region pageVa
        else (mm, .error .notImplemented)

end NtxKernel.Mm

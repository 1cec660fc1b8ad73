import NtxKernel.Mm.Init

/-!
# Page tables

The page-table walker of `kernel/mm/init.c` and the operations on single pages that use it. A walk
goes down three levels from the root of an address space; with `create` set it splits large
pages, opens the entries on its way to the user and adds the tables that are missing.

The walker reads and writes tables through `MmpPhysToVirtTable`; here these are the frames of
physical memory. Invalidating a translation has no effect in the model, which has no translation
cache. An address space is a slot of its pool, so it is never null, and the assertion that its
root is not null has no case.

`OnlyPages` is the frame of all this: of the globals of the memory manager only the allocator's
tables and the memory change.
-/

namespace NtxKernel.Mm

open Foundations

/-- `MmpIsUserAddress`. -/
def mmpIsUserAddress (va : U64) : Bool :=
  decide (mmUserBase.toNat ≤ va.toNat) && decide (va.toNat < mmUserTop.toNat)

/-- `MmpIsCanonicalAddress`. -/
def mmpIsCanonicalAddress (va : U64) : Bool := va >>> 48 == 0 || va >>> 48 == 0xFFFF

/-- The flags a large entry hands down to its parts. -/
def splitFlags : U64 := mmPteWritable ||| mmPteUser ||| mmPteNx

/-- The `i`-th entry of the table that takes the place of a large entry. -/
def splitEntry (entry : U64) (i : TableIx) : U64 :=
  ((entry &&& mmPteAddrMask) + BitVec.ofNat 64 (i * mmPageSize)) ||| (entry &&& splitFlags) |||
    mmPtePresent

/-- The entry for a table that replaces a large entry. -/
def splitTableEntry (va table : U64) : U64 :=
  if va.toNat < mmUserTop.toNat then table ||| mmPtePresent ||| mmPteWritable ||| mmPteUser
  else table ||| mmPtePresent ||| mmPteWritable

/-- The first step of a round of the walk: a large entry is split at the last level, and refused at
the others. -/
def mmpSplitLarge (mm : MmState) (table : ℕ) (level : ℕ) (va : U64) (create : Bool) :
    MmState × Except KStatus U64 :=
  let i := tableIndex va level
  let entry := mm.mem table i
  if hasFlag entry mmPtePresent && hasFlag entry mmPteLarge then
    if level ≠ 2 then (mm, .error .notImplemented)
    else if create = false then (mm, .error .notFound)
    else
      match mmAllocPage mm with
      | (mm, .error _) => (mm, .error .initFailed)
      | (mm, .ok next) =>
        let mm := mm.fillFrame (pteFrame next) (splitEntry entry)
        (mm.writeEntry table i (splitTableEntry va next), .ok (splitTableEntry va next))
  else (mm, .ok entry)

/-- An entry opened to the user. -/
def sanitizeEntry (entry : U64) : U64 := (entry ||| mmPteUser) &&& ~~~mmPteNx

/-- The second step: the entries on the way to a user page are opened to the user. -/
def mmpSanitize (mm : MmState) (table : ℕ) (level : ℕ) (va : U64) (create : Bool) (entry : U64) :
    MmState × U64 :=
  if hasFlag entry mmPtePresent && mmpIsUserAddress va && create then
    if sanitizeEntry entry ≠ entry then
      (mm.writeEntry table (tableIndex va level) (sanitizeEntry entry), sanitizeEntry entry)
    else (mm, entry)
  else (mm, entry)

/-- The entry for a table that was missing. -/
def newTableEntry (va table : U64) : U64 :=
  if mmpIsUserAddress va then table ||| mmPtePresent ||| mmPteWritable ||| mmPteUser
  else table ||| mmPtePresent ||| mmPteWritable

/-- The third step: a missing table is added. -/
def mmpAddTable (mm : MmState) (table : ℕ) (level : ℕ) (va : U64) (create : Bool) (entry : U64) :
    MmState × Except KStatus U64 :=
  if hasFlag entry mmPtePresent then (mm, .ok entry)
  else if create = false then (mm, .error .notFound)
  else
    match mmAllocPage mm with
    | (mm, .error _) => (mm, .error .initFailed)
    | (mm, .ok next) =>
      let mm := mm.fillFrame (pteFrame next) fun _ => 0
      (mm.writeEntry table (tableIndex va level) (newTableEntry va next),
        .ok (newTableEntry va next))

/-- A round of the loop of `MmpWalkToPte`, with the table in the frame `table`; the result is the
frame of the next table. -/
def mmpWalkLevel (mm : MmState) (table : ℕ) (level : ℕ) (va : U64) (create : Bool) :
    MmState × Except KStatus ℕ :=
  match mmpSplitLarge mm table level va create with
  | (mm, .error e) => (mm, .error e)
  | (mm, .ok entry) =>
    let (mm, entry) := mmpSanitize mm table level va create entry
    match mmpAddTable mm table level va create entry with
    | (mm, .error e) => (mm, .error e)
    | (mm, .ok entry) => (mm, .ok (pteFrame entry))

/-- The loop of `MmpWalkToPte`, from `level` on with `n` rounds to go. -/
def mmpWalkTables (va : U64) (create : Bool) :
    ℕ → ℕ → ℕ → MmState → MmState × Except KStatus ℕ
  | 0, _, table, mm => (mm, .ok table)
  | n + 1, level, table, mm =>
    match mmpWalkLevel mm table level va create with
    | (mm, .error e) => (mm, .error e)
    | (mm, .ok next) => mmpWalkTables va create n (level + 1) next mm

/-- The frame of the root table of an address space. -/
def MmState.rootFrame (mm : MmState) (a : AddressSpaceRef) : ℕ :=
  pteFrame (mm.addressSpacePool a).rootTablePhysical

/-- `MmpWalkToPte`: the frame of the last table and the index of the entry in it. -/
def mmpWalkToPte (mm : MmState) (a : AddressSpaceRef) (va : U64) (create : Bool) :
    MmState × Except KStatus (ℕ × TableIx) :=
  if mmpIsCanonicalAddress va = false then (mm, .error .invalidParameter)
  else
    match mmpWalkTables va create 3 0 (mm.rootFrame a) mm with
    | (mm, .error e) => (mm, .error e)
    | (mm, .ok table) => (mm, .ok (table, tableIndex va 3))

/-- `MmAsMapPage`. -/
def mmAsMapPage (mm : MmState) (a : AddressSpaceRef) (va pa flags : U64) :
    MmState × Except KStatus Unit :=
  if mm.ready = false ∨ va.toNat % mmPageSize ≠ 0 ∨ pa.toNat % mmPageSize ≠ 0 then
    (mm, .error .invalidParameter)
  else
    match mmpWalkToPte mm a va true with
    | (mm, .error e) => (mm, .error e)
    | (mm, .ok (table, i)) =>
      let pte := mm.mem table i
      let mm := if hasFlag pte mmPtePresent then mmpReleasePage mm (pte &&& mmPteAddrMask) else mm
      (mm.writeEntry table i ((pa &&& mmPteAddrMask) ||| flags ||| mmPtePresent), .ok ())

/-- `MmAsUnmapPage`. -/
def mmAsUnmapPage (mm : MmState) (a : AddressSpaceRef) (va : U64) :
    MmState × Except KStatus Unit :=
  if mm.ready = false ∨ va.toNat % mmPageSize ≠ 0 then (mm, .error .invalidParameter)
  else
    match mmpWalkToPte mm a va false with
    | (mm, .error e) => (mm, .error e)
    | (mm, .ok (table, i)) =>
      let pte := mm.mem table i
      if hasFlag pte mmPtePresent = false then (mm, .error .notFound)
      else ((mmpReleasePage mm (pte &&& mmPteAddrMask)).writeEntry table i 0, .ok ())

/-- `MmAsProtectPage`. -/
def mmAsProtectPage (mm : MmState) (a : AddressSpaceRef) (va newFlags : U64) :
    MmState × Except KStatus Unit :=
  if mm.ready = false ∨ va.toNat % mmPageSize ≠ 0 then (mm, .error .invalidParameter)
  else
    match mmpWalkToPte mm a va false with
    | (mm, .error e) => (mm, .error e)
    | (mm, .ok (table, i)) =>
      let pte := mm.mem table i
      if hasFlag pte mmPtePresent = false then (mm, .error .notFound)
      else
        (mm.writeEntry table i ((pte &&& mmPteAddrMask) ||| newFlags ||| mmPtePresent), .ok ())

/-- `MmAsQueryPte`. -/
def mmAsQueryPte (mm : MmState) (a : AddressSpaceRef) (va : U64) :
    MmState × Except KStatus U64 :=
  if mm.ready = false ∨ va.toNat % mmPageSize ≠ 0 then (mm, .error .invalidParameter)
  else
    match mmpWalkToPte mm a va false with
    | (mm, .error e) => (mm, .error e)
    | (mm, .ok (table, i)) => (mm, .ok (mm.mem table i))

/-- `MmCreateAddressSpace`. -/
def mmCreateAddressSpace (mm : MmState) (ownerProcessId : U64) :
    MmState × Except KStatus AddressSpaceRef :=
  if mm.ready = false then (mm, .error .invalidParameter)
  else
    match firstIndex fun a => !mm.addressSpaceInUse a with
    | none => (mm, .error .initFailed)
    | some a =>
      match mmAllocPage mm with
      | (mm, .error _) => (mm, .error .initFailed)
      | (mm, .ok root) =>
        let mm := mm.fillFrame (pteFrame root) (mm.mem (pteFrame mm.kernelRootTablePhysical))
        let mm := mm.modifyAddressSpace a fun space =>
          { space with
            addressSpaceId := mm.nextAddressSpaceId
            ownerProcessId := ownerProcessId
            rootTablePhysical := root
            nextUserBase := mmUserBase
            regionCount := 0 }
        ({ mm with
            addressSpaceInUse := Function.update mm.addressSpaceInUse a true
            nextAddressSpaceId := mm.nextAddressSpaceId + 1 }, .ok a)

/-- `MmActivateAddressSpace`. -/
def mmActivateAddressSpace (mm : MmState) (a : AddressSpaceRef) : MmState × Except KStatus Unit :=
  if mm.ready = false then (mm, .error .invalidParameter)
  else if mm.cr3 &&& mmPteAddrMask ≠ (mm.addressSpacePool a).rootTablePhysical then
    ({ mm with cr3 := (mm.addressSpacePool a).rootTablePhysical }, .ok ())
  else (mm, .ok ())

/-! ## What stays -/

/-- Only pages changed: the tables of the allocator and the memory. -/
def OnlyPages (mm mm' : MmState) : Prop :=
  ∃ bitmap refCount next mem, mm' = { mm with
    pageBitmap := bitmap
    pageRefCount := refCount
    nextScanPage := next
    mem := mem }

namespace OnlyPages

variable {mm mm' mm'' : MmState}

theorem refl (mm : MmState) : OnlyPages mm mm := ⟨_, _, _, _, rfl⟩

theorem trans (h : OnlyPages mm mm') (h' : OnlyPages mm' mm'') : OnlyPages mm mm'' := by
  obtain ⟨bitmap, refCount, next, mem, rfl⟩ := h
  obtain ⟨bitmap', refCount', next', mem', rfl⟩ := h'
  exact ⟨bitmap', refCount', next', mem', rfl⟩

theorem addressSpacePool (h : OnlyPages mm mm') : mm'.addressSpacePool = mm.addressSpacePool := by
  obtain ⟨bitmap, refCount, next, mem, rfl⟩ := h
  rfl

theorem ready (h : OnlyPages mm mm') : mm'.ready = mm.ready := by
  obtain ⟨bitmap, refCount, next, mem, rfl⟩ := h
  rfl

theorem writeEntry (mm : MmState) (f : ℕ) (i : TableIx) (entry : U64) :
    OnlyPages mm (mm.writeEntry f i entry) := ⟨_, _, _, _, rfl⟩

theorem fillFrame (mm : MmState) (f : ℕ) (words : TableIx → U64) :
    OnlyPages mm (mm.fillFrame f words) := ⟨_, _, _, _, rfl⟩

theorem takePage (mm : MmState) (page : ℕ) (count : U32) :
    OnlyPages mm (mm.takePage page count) := ⟨_, _, _, _, rfl⟩

theorem mmAllocPage (mm : MmState) : OnlyPages mm (mmAllocPage mm).1 := by
  rcases mmAllocPage_cases mm with ⟨e, heq⟩ | ⟨page, -, -, -, heq⟩ <;> rw [heq]
  · exact refl mm
  · exact takePage mm page 1

theorem mmpRetainPage (mm : MmState) (pa : U64) : OnlyPages mm (mmpRetainPage mm pa) := by
  rw [Mm.mmpRetainPage]
  split
  · exact ⟨_, _, _, _, rfl⟩
  · exact refl mm

theorem mmpReleasePage (mm : MmState) (pa : U64) : OnlyPages mm (mmpReleasePage mm pa) := by
  rw [Mm.mmpReleasePage]
  split
  · exact refl mm
  · dsimp only
    split <;> exact ⟨_, _, _, _, rfl⟩

theorem mmpSplitLarge (mm : MmState) (table level : ℕ) (va : U64) (create : Bool) :
    OnlyPages mm (mmpSplitLarge mm table level va create).1 := by
  rw [Mm.mmpSplitLarge]
  dsimp only
  split
  · split
    · exact refl mm
    · split
      · exact refl mm
      · have halloc := mmAllocPage mm
        generalize Mm.mmAllocPage mm = r at halloc ⊢
        obtain ⟨mm₁, e | pa⟩ := r
        · exact halloc
        · exact halloc.trans ((fillFrame ..).trans (writeEntry ..))
  · exact refl mm

theorem mmpSanitize (mm : MmState) (table level : ℕ) (va : U64) (create : Bool) (entry : U64) :
    OnlyPages mm (mmpSanitize mm table level va create entry).1 := by
  rw [Mm.mmpSanitize]
  split
  · split
    · exact writeEntry ..
    · exact refl mm
  · exact refl mm

theorem mmpAddTable (mm : MmState) (table level : ℕ) (va : U64) (create : Bool) (entry : U64) :
    OnlyPages mm (mmpAddTable mm table level va create entry).1 := by
  rw [Mm.mmpAddTable]
  split
  · exact refl mm
  · split
    · exact refl mm
    · have halloc := mmAllocPage mm
      generalize Mm.mmAllocPage mm = r at halloc ⊢
      obtain ⟨mm₁, e | pa⟩ := r
      · exact halloc
      · exact halloc.trans ((fillFrame ..).trans (writeEntry ..))

theorem mmpWalkLevel (mm : MmState) (table level : ℕ) (va : U64) (create : Bool) :
    OnlyPages mm (mmpWalkLevel mm table level va create).1 := by
  rw [Mm.mmpWalkLevel]
  have hsplit := mmpSplitLarge mm table level va create
  generalize Mm.mmpSplitLarge mm table level va create = r at hsplit ⊢
  obtain ⟨mm₁, e | entry⟩ := r
  · exact hsplit
  dsimp only
  have hsanitize := mmpSanitize mm₁ table level va create entry
  generalize Mm.mmpSanitize mm₁ table level va create entry = r at hsanitize ⊢
  obtain ⟨mm₂, entry₂⟩ := r
  have hadd := mmpAddTable mm₂ table level va create entry₂
  dsimp only
  generalize Mm.mmpAddTable mm₂ table level va create entry₂ = r at hadd ⊢
  obtain ⟨mm₃, e | entry₃⟩ := r <;> exact hsplit.trans (hsanitize.trans hadd)

theorem mmpWalkTables (va : U64) (create : Bool) (n level table : ℕ) (mm : MmState) :
    OnlyPages mm (mmpWalkTables va create n level table mm).1 := by
  induction n generalizing level table mm with
  | zero => exact refl mm
  | succ n ih =>
    rw [Mm.mmpWalkTables]
    have hlevel := mmpWalkLevel mm table level va create
    generalize Mm.mmpWalkLevel mm table level va create = r at hlevel ⊢
    obtain ⟨mm₁, e | next⟩ := r
    · exact hlevel
    · exact hlevel.trans (ih ..)

theorem mmpWalkToPte (mm : MmState) (a : AddressSpaceRef) (va : U64) (create : Bool) :
    OnlyPages mm (mmpWalkToPte mm a va create).1 := by
  rw [Mm.mmpWalkToPte]
  split
  · exact refl mm
  have hwalk := mmpWalkTables va create 3 0 (mm.rootFrame a) mm
  generalize Mm.mmpWalkTables va create 3 0 (mm.rootFrame a) mm = r at hwalk ⊢
  obtain ⟨mm₁, e | table⟩ := r <;> exact hwalk

theorem mmAsMapPage (mm : MmState) (a : AddressSpaceRef) (va pa flags : U64) :
    OnlyPages mm (mmAsMapPage mm a va pa flags).1 := by
  rw [Mm.mmAsMapPage]
  split
  · exact refl mm
  have hwalk := mmpWalkToPte mm a va true
  generalize Mm.mmpWalkToPte mm a va true = r at hwalk ⊢
  obtain ⟨mm₁, e | ⟨table, i⟩⟩ := r
  · exact hwalk
  · refine hwalk.trans (trans ?_ (writeEntry ..))
    split
    · exact mmpReleasePage ..
    · exact refl _

theorem mmAsProtectPage (mm : MmState) (a : AddressSpaceRef) (va newFlags : U64) :
    OnlyPages mm (mmAsProtectPage mm a va newFlags).1 := by
  rw [Mm.mmAsProtectPage]
  split
  · exact refl mm
  have hwalk := mmpWalkToPte mm a va false
  generalize Mm.mmpWalkToPte mm a va false = r at hwalk ⊢
  obtain ⟨mm₁, e | ⟨table, i⟩⟩ := r
  · exact hwalk
  · dsimp only
    split
    · exact hwalk
    · exact hwalk.trans (writeEntry ..)

theorem mmAsQueryPte (mm : MmState) (a : AddressSpaceRef) (va : U64) :
    OnlyPages mm (mmAsQueryPte mm a va).1 := by
  rw [Mm.mmAsQueryPte]
  split
  · exact refl mm
  have hwalk := mmpWalkToPte mm a va false
  generalize Mm.mmpWalkToPte mm a va false = r at hwalk ⊢
  obtain ⟨mm₁, e | ⟨table, i⟩⟩ := r <;> exact hwalk

end OnlyPages

end NtxKernel.Mm

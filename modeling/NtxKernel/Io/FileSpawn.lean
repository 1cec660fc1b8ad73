import NtxKernel.Io.Reading
import NtxKernel.Io.Spawn
import NtxKernel.Ps.Slots

/-!
# Spawning from a file and from its bytes

`IoSpawnProcessFromFileHandle` copies the file to a buffer of `IO_SPAWN_IMAGE_MAX` bytes and calls
`PsSpawnUserKpeFromBuffer` on it, which takes images of up to `PS_IMAGE_MAX_SIZE` bytes. The two
limits are the same number.

* `OpenForRead` is a handle that leads to a file, and `read_openForRead` what a read of it gives.
* `ioSpawnReadLoop_eq` is what the loop of reads comes to, for every size of the file.
* `spawnFromFile_eq`: a file that fills the whole buffer is refused, because the loop looks for the
  end of the file with a read that has no room left.
* `spawn_takes_process`: the spawn from a buffer whose checks pass takes a slot.
* `same_spawn_iff`: the two agree, but for images of exactly the limit that would be accepted.
-/

namespace NtxKernel.Io

open Foundations Ob Mm Ps Kpe IoGlobals PsGlobals MmGlobals ExecGlobals

/-! ## The spawn from a buffer -/

section Buffer

variable {σ : Type} [ExecGlobals σ] (statics : PsStatics) {ob : ObState σ} {k : σ}

/-- A buffer whose image is refused by the checks changes nothing. -/
theorem psSpawnUserKpeFromBuffer_refused {bytes : File}
    (h : (ps k).ready = false ∨ pspCheckUserImage bytes = none) :
    Executive.psSpawnUserKpeFromBuffer statics ob k (fun _ => some bytes) =
      some (ob, k, .error .invalidParameter) := by
  rw [Executive.psSpawnUserKpeFromBuffer]
  by_cases hready : (ps k).ready = false
  · rw [if_pos hready]
  · rw [if_neg hready, Option.bind_some, h.resolve_left hready]

theorem pspCreateThread_processInUse (ob : ObState σ) (k : σ) (process : ProcessRef)
    (name : CString) (fill : KThread → KThread) :
    (ps (Executive.pspCreateThread statics ob k process name fill).2.1).processInUse =
      (ps k).processInUse := by
  unfold Executive.pspCreateThread pspAllocateThreadSlot
  split
  next heq =>
    split at heq <;> cases heq
    dsimp only
    rw [ps_setPs]
  next heq =>
    split at heq <;> cases heq
    split <;> dsimp only <;> rw [ps_setPs]
    rfl

/-- The rest of a spawn keeps the slots of processes. -/
theorem finishSpawn_processInUse {checked : File} {buffer : ImageBuffer} {process : ProcessRef}
    {a : AddressSpaceRef} {imageBase stackBase : U64}
    {x : ObState σ × σ × Except KStatus (U64 × U64)}
    (hx : Executive.finishSpawn statics ob k checked buffer process a imageBase stackBase =
      some x) : (ps x.2.1).processInUse = (ps k).processInUse := by
  have hactive := SlotSystem.reactivate_schedules k (some a)
  rw [Executive.reactivate] at hactive
  unfold Executive.finishSpawn at hx
  generalize Executive.activate k a = r at hx hactive
  obtain ⟨k₁, e | _⟩ := r
  · cases hx
    exact hactive.processInUse
  dsimp only at hx hactive
  obtain ⟨f, -, hx⟩ := Option.bind_eq_some_iff.1 hx
  split at hx
  · cases hx
    exact (hactive.trans (SlotSystem.reactivate_schedules k₁ _)).processInUse
  obtain ⟨m, -, hx⟩ := Option.bind_eq_some_iff.1 hx
  obtain ⟨f', -, hx⟩ := Option.bind_eq_some_iff.1 hx
  have hback := SlotSystem.reactivate_schedules (setMm m k₁) (currentAddressSpace (ps k))
  rw [ps_setMm] at hback
  have hkept := hactive.trans hback
  generalize Executive.reactivate (setMm m k₁) (currentAddressSpace (ps k)) = k₂ at hx hkept
  generalize hk₃ : setMm (Executive.protectSections a imageBase
    (Executive.headersAgain checked f').2 (mm k₂)) k₂ = k₃ at hx
  have hps₃ : ps k₃ = ps k₂ := by rw [← hk₃, ps_setMm]
  rw [← hps₃] at hkept
  have hcreate : ∀ entry top,
      (ps (Executive.psCreateUserThread statics ob k₃ process entry top 0 0).2.1).processInUse =
        (ps k).processInUse := by
    intro entry top
    rcases SlotSystem.psCreateUserThread_eq statics ob k₃ process entry top 0 0 with
      ⟨-, e, heq⟩ | ⟨-, fill, -, heq⟩
    · rw [heq]
      exact hkept.processInUse
    · rw [heq, pspCreateThread_processInUse]
      exact hkept.processInUse
  specialize hcreate (imageBase +
    (Executive.headersAgain checked f').1.optionalHeader.addressOfEntryPoint.setWidth 64)
    (stackBase + psUserStackSize)
  split at hx
  next heq =>
    cases hx
    rw [heq] at hcreate
    exact hcreate
  next heq =>
    rw [heq] at hcreate
    obtain ⟨⟨p, r⟩, hready, rfl⟩ := Option.map_eq_some_iff.1 hx
    have hlast := (Schedules.psReadyThread hready).processInUse
    cases r <;> dsimp only <;> rw [ps_setPs, hlast] <;> exact hcreate

/-- A spawn from a buffer whose image passes the checks finds no slot, or takes one. -/
theorem spawn_takes_process {bytes : File} (hready : (ps k).ready = true)
    (hcheck : pspCheckUserImage bytes ≠ none) {x : ObState σ × σ × Except KStatus (U64 × U64)}
    (hx : Executive.psSpawnUserKpeFromBuffer statics ob k (fun _ => some bytes) = some x) :
    x.2.2 = .error .initFailed ∨ (ps x.2.1).processInUse ≠ (ps k).processInUse := by
  obtain ⟨⟨nt, sections⟩, hcheck⟩ := Option.ne_none_iff_exists'.1 hcheck
  rw [Executive.psSpawnUserKpeFromBuffer, if_neg (by simp [hready]), Option.bind_some, hcheck] at hx
  dsimp only at hx
  rcases hfree : firstIndex fun p => !(ps k).processInUse p with _ | p
  · refine .inl ?_
    rw [Executive.pspCreateProcessInternal, pspAllocateProcessSlot, hfree] at hx
    cases hx
    rfl
  refine .inr ?_
  have hp : (ps k).processInUse p = false := by simpa using firstIndex_sound hfree
  -- once the slot is taken, nothing gives it back
  have htaken : (ps (Executive.pspCreateProcessInternal statics ob k
      (some procUserName)).2.1).processInUse = Function.update (ps k).processInUse p true := by
    unfold Executive.pspCreateProcessInternal pspAllocateProcessSlot
    rw [hfree]
    dsimp only
    split
    · rw [ps_setPs]
    split <;> rw [ps_setPs] <;> rfl
  have hlast : (ps x.2.1).processInUse = Function.update (ps k).processInUse p true := by
    generalize Executive.pspCreateProcessInternal statics ob k (some procUserName) = r at hx htaken
    obtain ⟨ob₁, k₁, e | process⟩ := r
    · cases hx
      exact htaken
    dsimp only at hx htaken
    split at hx
    · cases hx
    split at hx
    · cases hx
      exact htaken
    split at hx
    · cases hx
      dsimp only
      rw [ps_setMm]
      exact htaken
    · rw [finishSpawn_processInUse statics hx, ps_setMm]
      exact htaken
  rw [hlast]
  intro heq
  have hat := congrFun heq p
  rw [Function.update_self, hp] at hat
  cases hat

end Buffer

variable {σ : Type} [IoGlobals σ] (memory : U64 → UInt8) {ob : ObState σ} {k : σ} {v : U32}
  {f : IoFileRef}

/-! ## Reading through a handle -/

/-- The handle `v` was opened with read access and leads to the file object `f`. Its object is in
use, and the count of its users has room for one more. -/
structure OpenForRead (ob : ObState σ) (k : σ) (v : U32) (f : IoFileRef) : Prop where
  ready : (io k).ready = true
  obReady : ob.ready = true
  ne_zero : v ≠ 0
  entry : ∃ i e, obpFindHandleEntry ob.kernelHandleTable v = some (i, e) ∧
    e.grantedAccess &&& ioFileAccessRead = ioFileAccessRead ∧
    ((io k).fileType = none ∨ (ob.objectPool e.object).type = (io k).fileType) ∧
    (ob.objectPool e.object).refCount ≠ 0 ∧
    (ob.objectPool e.object).refCount.toNat + 1 < 2 ^ 32 ∧
    iopFindFileByHeader (io k) e.object = some f

/-- The handles of a run that were opened with read access are so. -/
theorem IoInv.openForRead {s : IoSystem σ} {t : ObSystem σ} {fileType : TypeRef}
    (h : IoInv s t fileType none) {path : CString} {access : U32}
    (hv : s.opened v = some (path, access))
    (haccess : access &&& ioFileAccessRead = ioFileAccessRead) :
    ∃ f, OpenForRead s.ob s.kernel v f := by
  obtain ⟨o, f, image, hissued, htype, hf, hfo, -, -, -⟩ := h.opened_ok v path access hv
  obtain ⟨i, hi⟩ := (h.named.table.issued_iff v o access).1 hissued
  have hfind := h.named.table.find_eq hi
  have hready := h.named.lifetime.ready
  have hzero := h.named.table.ne_zero i _ hi
  rw [h.ob_eq] at hi hfind hready
  obtain ⟨hne, hlt⟩ := h.refCount_lt hi htype
  refine ⟨f, h.files.ready, hready, hzero, i, _, hfind, haccess, .inr ?_, hne, hlt,
    h.files.find_eq hf hfo⟩
  rw [h.files.type_eq]
  exact htype

/-- The bytes of the file. -/
def fileBytes (k : σ) (f : IoFileRef) : List UInt8 :=
  (List.range ((io k).filePool f).size.toNat).map fun i =>
    memory (((io k).filePool f).data + BitVec.ofNat 64 i)

theorem length_fileBytes :
    (fileBytes memory k f).length = ((io k).filePool f).size.toNat := by
  rw [fileBytes, List.length_map, List.length_range]

/-- A read gives the next bytes of the file, as many as there is room for, and changes nothing. -/
theorem read_openForRead (h : OpenForRead ob k v f) {offset length : ℕ}
    (hoffset : offset < 2 ^ 64) (hpos : 0 < length) (hlength : length < 2 ^ 64) :
    ioReadFileHandle memory ob k v (BitVec.ofNat 64 offset) (BitVec.ofNat 64 length) =
      (ob, k, .ok (((fileBytes memory k f).drop offset).take length)) := by
  obtain ⟨i, e, hfind, haccess, htype, hne, hlt, hfile⟩ := h.entry
  have hlen : (BitVec.ofNat 64 length).toNat = length := by
    rw [BitVec.toNat_ofNat, Nat.mod_eq_of_lt hlength]
  have hoff : (BitVec.ofNat 64 offset).toNat = offset := by
    rw [BitVec.toNat_ofNat, Nat.mod_eq_of_lt hoffset]
  have hguard : ¬((io k).ready = false ∨ BitVec.ofNat 64 length = 0) := by
    rw [h.ready]
    rintro (hfalse | hzero)
    · cases hfalse
    · rw [hzero] at hlen
      exact absurd hlen (by simp; omega)
  have hreference := obReferenceObjectByHandle_of_find h.obReady h.ne_zero hfind ioFileAccessRead
    (io k).fileType
  rw [if_neg (not_not.2 haccess), if_neg (by
    rintro ⟨hsome, hother⟩
    exact htype.elim hsome hother)] at hreference
  have hback := obDereferenceObject_of_reference hreference hne hlt k
  rw [ioReadFileHandle, if_neg hguard, hreference]
  dsimp only
  rw [hfile]
  dsimp only
  rw [hback]
  have hbytes := length_fileBytes memory (k := k) (f := f)
  by_cases hend : ((io k).filePool f).size ≤ BitVec.ofNat 64 offset
  · rw [if_pos hend, List.drop_eq_nil_of_le, List.take_nil]
    rw [hbytes]
    have hle := BitVec.le_def.1 hend
    omega
  · have hlt' := BitVec.not_le.1 hend
    generalize hn : (if BitVec.ofNat 64 length <
      ((io k).filePool f).size - BitVec.ofNat 64 offset then BitVec.ofNat 64 length
      else ((io k).filePool f).size - BitVec.ofNat 64 offset).toNat = n
    have hmin : n = min length (((io k).filePool f).size.toNat -
        (BitVec.ofNat 64 offset).toNat) := by
      rw [← hn]
      split <;> rename_i hcmp <;> bv_omega
    have hread : ioReadBytes memory ((io k).filePool f).data (BitVec.ofNat 64 offset) n =
        ((fileBytes memory k f).drop (BitVec.ofNat 64 offset).toNat).take length :=
      ioReadBytes_eq memory ⟨[], ((io k).filePool f).data, ((io k).filePool f).size⟩ _ hmin
    rw [if_neg hend]
    dsimp only
    rw [hread, hoff]

/-! ## The loop of reads -/

/-- The loop ends with the whole file, or finds the buffer full. -/
theorem ioSpawnReadLoop_eq (h : OpenForRead ob k v f) (fuel : ℕ) :
    ioSpawnReadLoop memory v (fuel + 2) [] ob k =
      some (ob, k, if ioSpawnImageMax ≤ ((io k).filePool f).size.toNat then
        .error .invalidParameter else .ok (fileBytes memory k f)) := by
  have hlength := length_fileBytes memory (k := k) (f := f)
  have hmax : ioSpawnImageMax = 16777216 := rfl
  have hfirst := read_openForRead memory h (show 0 < 2 ^ 64 by decide)
    (show 0 < ioSpawnImageMax by decide) (by decide)
  rw [ioSpawnReadLoop, if_neg (by decide), List.length_nil, Nat.sub_zero, hfirst]
  dsimp only
  rw [List.drop_zero]
  by_cases hzero : (fileBytes memory k f).take ioSpawnImageMax = []
  · -- the file is empty
    have hnil : fileBytes memory k f = [] := by
      rcases List.take_eq_nil_iff.1 hzero with hnone | hnil
      · exact absurd hnone (by decide)
      · exact hnil
    rw [if_pos hzero, if_neg (by rw [← hlength, hnil, List.length_nil]; decide), hnil]
  rw [if_neg hzero, List.nil_append, ioSpawnReadLoop, List.length_take]
  by_cases hfull : ioSpawnImageMax ≤ ((io k).filePool f).size.toNat
  · rw [if_pos (by rw [hlength]; exact le_min le_rfl hfull), if_pos hfull]
  · -- the second read finds the end
    have hwhole : min ioSpawnImageMax (fileBytes memory k f).length =
        (fileBytes memory k f).length := by
      rw [hlength]
      exact min_eq_right (by omega)
    have hsecond := read_openForRead memory h (show (fileBytes memory k f).length < 2 ^ 64 by omega)
      (show 0 < ioSpawnImageMax - (fileBytes memory k f).length by omega) (by omega)
    rw [hwhole, if_neg (by omega), hsecond]
    dsimp only
    rw [List.drop_length, List.take_nil, if_pos rfl, if_neg hfull, List.take_of_length_le (by omega)]

/-! ## The two spawns -/

variable [ExecGlobals σ] (statics : PsStatics)

/-- What the spawn from a file comes to. -/
theorem spawnFromFile_eq (h : OpenForRead ob k v f) :
    ioSpawnProcessFromFileHandle memory statics ob k v =
      if ioSpawnImageMax ≤ ((io k).filePool f).size.toNat then
        some (ob, k, .error .invalidParameter)
      else if fileBytes memory k f = [] then some (ob, k, .error .notFound)
      else Executive.psSpawnUserKpeFromBuffer statics ob k fun _ => some (fileBytes memory k f) := by
  rw [ioSpawnProcessFromFileHandle, if_neg (by simp [h.ready]),
    ioSpawnReadLoop_eq memory h ioSpawnImageMax, Option.bind_some]
  by_cases hfull : ioSpawnImageMax ≤ ((io k).filePool f).size.toNat
  · rw [if_pos hfull, if_pos hfull]
  · rw [if_neg hfull, if_neg hfull]

/-- Spawning from the handle does what spawning from a buffer with the bytes of its file does; an
empty file is refused by both. -/
def SameSpawn (ob : ObState σ) (k : σ) (v : U32) (f : IoFileRef) : Prop :=
  if fileBytes memory k f = [] then
    (∃ e, ioSpawnProcessFromFileHandle memory statics ob k v = some (ob, k, .error e)) ∧
      ∃ e, Executive.psSpawnUserKpeFromBuffer statics ob k (fun _ => some (fileBytes memory k f)) =
        some (ob, k, .error e)
  else
    ioSpawnProcessFromFileHandle memory statics ob k v =
      Executive.psSpawnUserKpeFromBuffer statics ob k fun _ => some (fileBytes memory k f)

theorem pspCheckUserImage_of_length {bytes : File}
    (h : bytes.length < sizeofDosHeader ∨ psImageMaxSize < bytes.length) :
    pspCheckUserImage bytes = none := by
  rw [pspCheckUserImage, if_pos h]

/-- A file that fills the buffer and passes the checks. -/
theorem not_sameSpawn (h : OpenForRead ob k v f)
    (hsize : ((io k).filePool f).size.toNat = ioSpawnImageMax) (hready : (ps k).ready = true)
    (hcheck : pspCheckUserImage (fileBytes memory k f) ≠ none) :
    ¬SameSpawn memory statics ob k v f := by
  have hlength := length_fileBytes memory (k := k) (f := f)
  have hne : fileBytes memory k f ≠ [] := by
    intro hnil
    rw [hnil, hsize] at hlength
    cases hlength
  rw [SameSpawn, if_neg hne, spawnFromFile_eq memory statics h, if_pos (le_of_eq hsize.symm)]
  intro hsame
  rcases spawn_takes_process statics hready hcheck hsame.symm with hstatus | hslots
  · cases hstatus
  · exact hslots rfl

/-- **Spawning from a file equals spawning from its bytes**, in a state where the handle leads to
the file, exactly when the file has not the size of the buffer, or the spawn from the buffer would
refuse it at once. -/
theorem same_spawn_iff (h : OpenForRead ob k v f) :
    SameSpawn memory statics ob k v f ↔
      ((io k).filePool f).size.toNat ≠ ioSpawnImageMax ∨ (ps k).ready = false ∨
        pspCheckUserImage (fileBytes memory k f) = none := by
  have hlength := length_fileBytes memory (k := k) (f := f)
  have hmax : ioSpawnImageMax = 16777216 := rfl
  constructor
  · intro hsame
    by_contra hnot
    rw [not_or, not_or, not_not] at hnot
    obtain ⟨hsize, hready, hcheck⟩ := hnot
    exact not_sameSpawn memory statics h hsize (eq_true_of_ne_false hready) hcheck hsame
  · intro hcond
    rw [SameSpawn, spawnFromFile_eq memory statics h]
    by_cases hnil : fileBytes memory k f = []
    · rw [hnil, List.length_nil] at hlength
      rw [if_pos hnil, if_neg (by omega), if_pos hnil]
      exact ⟨⟨_, rfl⟩, _, psSpawnUserKpeFromBuffer_refused statics
        (.inr (pspCheckUserImage_of_length (.inl (by rw [hnil]; decide))))⟩
    rw [if_neg hnil]
    by_cases hfull : ioSpawnImageMax ≤ ((io k).filePool f).size.toNat
    · rw [if_pos hfull]
      refine (psSpawnUserKpeFromBuffer_refused statics ?_).symm
      by_cases hsize : ((io k).filePool f).size.toNat = ioSpawnImageMax
      · exact hcond.resolve_left (not_not.2 hsize)
      · exact .inr (pspCheckUserImage_of_length (.inr (by
          have hps : psImageMaxSize = 16777216 := rfl
          omega)))
    · rw [if_neg hfull, if_neg hnil]

/-! ## An image of sixteen MiB -/

/-- Bytes behind an image that passes the checks do not change that. -/
theorem pspCheckUserImage_append {f g : File} (hmax : f.length + g.length ≤ psImageMaxSize)
    (h : pspCheckUserImage f ≠ none) : pspCheckUserImage (f ++ g) ≠ none := by
  rw [pspCheckUserImage] at h ⊢
  split at h
  · exact absurd rfl h
  next hlength =>
  rw [not_or, Nat.not_lt, Nat.not_lt] at hlength
  have hlong : ¬((f ++ g).length < sizeofDosHeader ∨ psImageMaxSize < (f ++ g).length) := by
    rw [List.length_append]
    omega
  have hsizes : sizeofDosHeader = 64 ∧ sizeofNtHeaders = 264 ∧ sizeofSectionHeader = 40 :=
    ⟨rfl, rfl, rfl⟩
  have hdos : readDosHeader (f ++ g) = readDosHeader f := by
    simp (disch := omega) only [readDosHeader, read16, read32, Bytes.read_append_left]
  rw [if_neg hlong, hdos]
  dsimp only at h ⊢
  generalize readDosHeader f = dos at h ⊢
  split at h
  · exact absurd rfl h
  next hmagic =>
  split at h
  · exact absurd rfl h
  next hheaders =>
  have hnt : readNtHeaders (f ++ g) dos.lfanew.toNat = readNtHeaders f dos.lfanew.toNat := by
    generalize dos.lfanew.toNat = l at hheaders
    have hdirectory : (fun i : Fin kpeNumberOfDirectoryEntries =>
        (⟨read32 (f ++ g) (l + 136 + 8 * i), read32 (f ++ g) (l + 140 + 8 * i)⟩ :
          KpeDataDirectory)) =
        fun i => ⟨read32 f (l + 136 + 8 * i), read32 f (l + 140 + 8 * i)⟩ := by
      funext i
      have hi : i.val < 16 := i.isLt
      simp (disch := omega) only [read32, Bytes.read_append_left]
    rw [readNtHeaders, readNtHeaders, hdirectory]
    simp (disch := omega) only [read16, read32, read64, Bytes.read_append_left]
  rw [if_neg hmagic, if_neg (by rw [List.length_append]; omega), hnt]
  generalize readNtHeaders f dos.lfanew.toNat = nt at h ⊢
  split at h
  · exact absurd rfl h
  next hfields =>
  split at h
  · exact absurd rfl h
  next htable =>
  rw [if_neg hfields, if_neg (by rw [List.length_append]; omega)]
  have hsections : readSections (f ++ g) (sectionTableOffset dos nt)
      nt.fileHeader.numberOfSections.toNat =
        readSections f (sectionTableOffset dos nt) nt.fileHeader.numberOfSections.toNat := by
    refine List.map_congr_left fun index hindex => ?_
    have hlt := List.mem_range.1 hindex
    have hmul : sizeofSectionHeader * (index + 1) ≤
        nt.fileHeader.numberOfSections.toNat * sizeofSectionHeader := by
      rw [Nat.mul_comm]
      exact Nat.mul_le_mul_right _ hlt
    rw [Nat.mul_succ] at hmul
    have hend : sectionTableOffset dos nt + sizeofSectionHeader * index + 40 ≤ f.length := by
      omega
    generalize sectionTableOffset dos nt + sizeofSectionHeader * index = start at hend ⊢
    simp (disch := omega) only [readSectionHeader, read32, Bytes.read_append_left]
  rw [hsections]
  split at h
  swap
  · exact absurd rfl h
  next hall =>
  have hall' : (readSections f (sectionTableOffset dos nt)
      nt.fileHeader.numberOfSections.toNat).all (pspCheckSection (f ++ g).length) = true := by
    rw [List.all_eq_true] at hall ⊢
    intro s hs
    have hcheck := hall s hs
    rw [pspCheckSection] at hcheck ⊢
    split
    · rfl
    next hraw =>
      rw [if_neg hraw, pspFileRangeValid] at hcheck
      rw [pspFileRangeValid]
      split at hcheck
      · cases hcheck
      next hwrap =>
      rw [if_neg hwrap]
      rw [decide_eq_true_eq, BitVec.toNat_ofNat] at hcheck ⊢
      rw [List.length_append]
      have hmax' : psImageMaxSize = 16777216 := rfl
      omega
  rw [if_pos hall']
  exact Option.some_ne_none _

/-- A user image: its headers, and a section that holds nothing. -/
def smallImage : File :=
  [0x4D, 0x5A] ++ List.replicate 58 0 ++ [64, 0, 0, 0] ++ [0x4B, 0x50, 0x45, 0x30] ++
    [0x41, 0xA6, 1, 0] ++ List.replicate 12 0 ++ [240, 0, 0, 0] ++ [0x41, 0xA6] ++
    List.replicate 54 0 ++ [0, 0x10, 0, 0] ++ List.replicate 8 0 ++ [2, 0] ++ List.replicate 210 0

theorem smallImage_accepted : pspCheckUserImage smallImage ≠ none := by decide +kernel

/-- Memory with the image at `0x400000`, and zeros behind it. -/
def imageMemory (a : U64) : UInt8 := smallImage.getD (a.toNat - 0x400000) 0

/-- A file in that memory is the image and zeros. -/
theorem imageMemory_bytes {n : ℕ} (hn : smallImage.length ≤ n) (hlt : n < 2 ^ 32) :
    ((List.range n).map fun i => imageMemory (0x400000 + BitVec.ofNat 64 i)) =
      smallImage ++ List.replicate (n - smallImage.length) 0 := by
  apply List.ext_getElem
  · rw [List.length_map, List.length_range, List.length_append, List.length_replicate]
    omega
  · intro i hi hi'
    rw [List.length_map, List.length_range] at hi
    have haddress : ((0x400000 : U64) + BitVec.ofNat 64 i).toNat - 0x400000 = i := by
      have hbase : (0x400000 : U64).toNat = 0x400000 := rfl
      rw [BitVec.toNat_add, hbase, BitVec.toNat_ofNat]
      omega
    rw [List.getElem_map, List.getElem_range, imageMemory, haddress, List.getD_eq_getElem?_getD]
    by_cases hin : i < smallImage.length
    · rw [List.getElem_append_left hin, List.getElem?_eq_getElem hin, Option.getD_some]
    · rw [List.getElem_append_right (by omega), List.getElem_replicate,
        List.getElem?_eq_none (by omega), Option.getD_none]

/-- The globals of the managers of processes, memory and files. -/
structure FileMachine where
  ps : PsState
  mm : MmState
  io : IoState

instance : ExecGlobals FileMachine where
  ps k := k.ps
  setPs p k := { k with ps := p }
  ps_setPs _ _ := rfl
  mm k := k.mm
  setMm m k := { k with mm := m }
  mm_setMm _ _ := rfl
  setMm_mm _ := rfl
  mm_setPs _ _ := rfl
  ps_setMm _ _ := rfl

instance : IoGlobals FileMachine where
  io k := k.io
  setIo s k := { k with io := s }
  io_setIo _ _ := rfl

/-- The init image is `size` bytes at `0x400000`. -/
def imageBootInfo (size : U64) : BootInfo where
  address := 0x2000
  magic := bootinfoMagic
  flags := bootinfoFlagInitImagePresent
  loaderBase := 0x40000000
  kernelBase := 0x200000
  kernelSize := 0x100000
  initImageBase := 0x400000
  initImageSize := size
  memoryMap := 0x3000
  memoryMapEntryCount := 1
  memoryMapEntrySize := 24

/-- The machine after `IoInitialize` and `IoOpenPath` of the init image, with the handle 4. -/
def openedImage (size : U64) : ObState FileMachine × FileMachine × Except KStatus U32 :=
  let booted := ioInitialize (obInitialize .zero).1
    (⟨bootPs, MmSystem.sampleSystem.k, .zero⟩ : FileMachine) (some (imageBootInfo size))
  ioOpenPath booted.1 booted.2.1 ioInitPath ioFileAccessRead

/-- Its handle leads to the file object 0, whatever the size. -/
theorem openForRead_openedImage {size : U64}
    (hsize : size = 0x1000 ∨ size = 0x1000000) :
    OpenForRead (openedImage size).1 (openedImage size).2.1 4 0 := by
  rcases hsize with rfl | rfl <;>
  exact
    { ready := by decide +kernel
      obReady := by decide +kernel
      ne_zero := by decide
      entry := ⟨0, ⟨4, 0, 1⟩, by decide +kernel⟩ }

/-- A file of one page. -/
theorem same_spawn_iff_page :
    SameSpawn imageMemory ⟨none, none, 0x100000⟩ (openedImage 0x1000).1 (openedImage 0x1000).2.1
      4 0 :=
  (same_spawn_iff imageMemory ⟨none, none, 0x100000⟩ (openForRead_openedImage (.inl rfl))).2
    (.inl (by decide +kernel))

/-- An image of sixteen MiB that the checks accept is not spawned from its file. -/
theorem image_of_sixteen_mebibytes :
    ¬SameSpawn imageMemory ⟨none, none, 0x100000⟩ (openedImage 0x1000000).1
      (openedImage 0x1000000).2.1 4 0 := by
  have hlength : smallImage.length = 368 := by decide +kernel
  have hmax : psImageMaxSize = 0x1000000 := rfl
  have hdata : ((io (openedImage 0x1000000).2.1).filePool 0).data = 0x400000 := by decide +kernel
  have hsize : ((io (openedImage 0x1000000).2.1).filePool 0).size.toNat = 0x1000000 := by
    decide +kernel
  have hbytes : fileBytes imageMemory (openedImage 0x1000000).2.1 0 =
      smallImage ++ List.replicate (0x1000000 - smallImage.length) 0 := by
    rw [fileBytes, hdata, hsize]
    exact imageMemory_bytes (by omega) (by omega)
  refine not_sameSpawn imageMemory _ (openForRead_openedImage (.inr rfl)) hsize
    (by decide +kernel) ?_
  rw [hbytes]
  refine pspCheckUserImage_append ?_ smallImage_accepted
  rw [List.length_replicate]
  omega

end NtxKernel.Io

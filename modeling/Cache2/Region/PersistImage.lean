import Cache2.Recovery.RunningBarrier
import Cache2.Region.Store

set_option relaxedAutoImplicit false
set_option autoImplicit false

/-!
# Persisting a frozen store

`persist_frozen` writes the image of a frozen store to a temporary file of the image's length: the
page of the header, the pages of the index through a positioned writer, and the table. When all is
there, the temporary file replaces the image (`region/persistence/mod.rs`).

The files accept every write here. What a failed write leaves behind is the temporary file, which
is then removed.

## Main definitions

* `Cache2.PersistSession` — the store, the image and the temporary file.
* `Cache2.indexImageBinding` — what binds the index pages to their image.
* `Cache2.persistFrozen` — writing an image.

## Main results

* `Cache2.persistFrozenHeader_eq_ok` — where the sections of an image lie.
* `Cache2.persistFrozen_eq_ok` — an image is its header, its index pages and its table.
* `Cache2.persistFrozen_ok` — a frozen store with an intact index is persisted.
-/

namespace Cache2

open Bytes Loop

/-! ## Definitions -/

/-- `write_at`: a gap before the offset is filled with zeros. -/
def writeAtOffset (file : List UInt8) (offset : ℕ) (buffer : List UInt8) : List UInt8 :=
  splice (file ++ List.replicate (offset - file.length) 0) offset buffer

/-- A store that is persisted, the image file, the temporary file next to it, and the slot and the
record of the prepared `CLEAN` state. -/
structure PersistSession where
  regions : RegionStore
  image : Option (List UInt8)
  temporary : Option (List UInt8)
  preparedClean : Option (UInt8 × StateRecord)

/-- Computations that persist. -/
abbrev PersistM := EStateM PersistFailure PersistSession

/-- `index_image_binding`. -/
def indexImageBinding (header : RecoveryImageHeader) : Except PersistFailure IndexImageBinding := do
  let left ← orPersistPanic "fixed identity half" (getU64 header.imageIdentity.bytes 0)
  let right ← orPersistPanic "fixed identity half" (getU64 header.imageIdentity.bytes 8)
  let mixed := left ^^^ right.rotateLeft 17
  .ok ⟨header.imageGeneration, if mixed = 0 then 0xa0761d6478bd642f else mixed⟩

/-- `physical_stats`. -/
def PartitionedIndexStorage.physicalStats (storage : PartitionedIndexStorage) :
    Except IndexStorageError IndexPhysicalStats := do
  let stats ← checkedSumPhysicalStats storage.stats
  if stats.isValidFor storage.slotCount then .ok stats else .error .invalidPhysicalStats

section Persist

variable (crc : List UInt8 → BitVec 32)

/-- What is done to the store. -/
def onRegions {α : Type} (f : StoreM α) : PersistM α := fun s =>
  match f s.regions with
  | .ok a regions => .ok a { s with regions }
  | .error e regions => .error (.error e) { s with regions }

/-- A write to the temporary file. -/
def writeTemporary (offset : ℕ) (buffer : List UInt8) : PersistM Unit :=
  modify fun s => { s with temporary := s.temporary.map (writeAtOffset · offset buffer) }

/-- The writes of `PositionedIoWriter`: the offset after the chunks. -/
def writeChunks : List (List UInt8) → ℕ → PersistM ℕ
  | [], offset => pure offset
  | chunk :: rest, offset => do
    writeTemporary offset chunk
    match Word.checkedAdd 64 offset chunk.length with
    | none => do
      onRegions RegionStore.enterMissOnly
      throw (.error (ioError .other "image writer offset overflow"))
    | some offset => writeChunks rest offset

/-- The index of the store is written from the offset on. -/
def writeIndexPages (binding : IndexImageBinding) (offset : ℕ) :
    PersistM (WarmImageStats × ℕ) := do
  let s ← get
  match writeWarmImage crc warmImageWriteBatchBytes binding ⟨s.regions.index.storage, .new⟩ with
  | .error error written => do
    set { s with regions.index.storage := written.storage }
    onRegions (RegionStore.guardedIndexResult (.error error))
  | .ok stats written => do
    set { s with regions.index.storage := written.storage }
    let offset ← writeChunks written.writer.inner offset
    pure (stats, offset)

/-- A computation that removes the temporary file when it fails. -/
def orRemoveTemporary {α : Type} (f : PersistM α) : PersistM α := fun s =>
  match f s with
  | .ok a s => .ok a s
  | .error e s => .error e { s with temporary := none }

/-- The image is written to the temporary file, which replaces the image file. -/
def writeImage (physicalStats : IndexPhysicalStats) (metadataBytes : List UInt8)
    (header : RecoveryImageHeader) (headerPage : List UInt8) : PersistM Unit := do
  modify fun s => { s with temporary := some (List.replicate header.imageFileLen.toNat 0) }
  writeTemporary 0 headerPage
  let binding ← orThrow (indexImageBinding header)
  let (written, offset) ← writeIndexPages crc binding recoveryImageIndexOffset
  rejectIf (written.bytesWritten ≠ header.indexLen.toNat ∨ written.physicalStats ≠ physicalStats ∨
      offset ≠ header.regionTableOffset.toNat)
    (.error (ioError .other "index writer produced inconsistent length or physical statistics"))
  writeTemporary header.regionTableOffset.toNat metadataBytes
  onRegions RegionStore.requireHealthy
  modify fun s => { s with image := s.temporary, temporary := none }
  onRegions RegionStore.requireHealthy

/-- `persist_frozen`, for a store that is frozen with this table. -/
def persistFrozen (data : DataSuperblock) (current : Option SelectedState)
    (metadata : RegionMetadata) : PersistM StatePageWrite := do
  onRegions RegionStore.requireHealthy
  orThrow (metadata.validate.mapError fun error => .error (regionMetadataIoError error))
  let s ← get
  let physicalStats ← onRegions
    (RegionStore.guardedIndexResult s.regions.index.storage.physicalStats)
  let (metadataBytes, header, headerPage) ←
    orThrow (persistFrozenHeader crc data current (s.regions.frozen metadata))
  let clean ← orThrow ((prepareNextState crc current .clean
    (.fromData data (some header.imageBinding))).mapError fun _ =>
      .error (ioError .other "CLEAN generation cannot advance"))
  rejectIf (clean.record.generation ≠ header.imageGeneration)
    (.error (ioError .other "image and state generations were not frozen together"))
  modify fun s => { s with temporary := none }
  orRemoveTemporary (writeImage crc physicalStats metadataBytes header headerPage)
  modify fun s => { s with preparedClean := some (clean.slot, clean.record) }
  pure clean

end Persist

/-! ## The sections of an image -/

/-- A check of the preparation that passes. -/
lemma orPersistError_eq_ok {α : Type} {reason : IoError} {x : Option α} {a : α} :
    orPersistError reason x = .ok a ↔ x = some a := by
  cases x <;> simp [orPersistError]

/-- The bytes of the index pages of an image. -/
def indexBytes (slotCount : ℕ) : ℕ := (slotCount + 503) / 504 * 4096

/-- The bytes of the table of an image. -/
def tableBytes (regionCount partitionCount : ℕ) : ℕ :=
  (1 + sectionPages 192 regionCount + sectionPages 252 partitionCount) * 4096

/-- The bytes and the header that an image of a frozen store has. -/
structure ImageSections (current : Option SelectedState) (frozen : FrozenRegionStore)
    (metadataBytes : List UInt8) (header : RecoveryImageHeader) (headerPage : List UInt8) :
    Prop where
  generation : nextStateGeneration current = .ok header.imageGeneration
  length_headerPage : headerPage.length = 4096
  length_metadataBytes : metadataBytes.length =
    tableBytes frozen.metadata.root.regionCount.toNat frozen.metadata.partitions.length
  partitions : ∃ ranges, canonicalIndexPartitionRanges frozen.slotCount = .ok ranges ∧
    frozen.metadata.partitions.length = ranges.length
  indexLen : header.indexLen.toNat = indexBytes frozen.slotCount
  regionTableOffset : header.regionTableOffset.toNat = 4096 + indexBytes frozen.slotCount
  imageFileLen : header.imageFileLen.toNat =
    4096 + indexBytes frozen.slotCount + metadataBytes.length

/-- The encoded table has its pages. -/
lemma RegionMetadata.length_encode {crc : List UInt8 → BitVec 32} {metadata : RegionMetadata}
    {identity : PersistentId} {generation : BitVec 64} {bytes : List UInt8}
    (hvalid : metadata.validate = .ok ()) (hne : generation ≠ 0)
    (h : (metadata.withImage identity generation).encode crc = .ok bytes) :
    bytes.length = tableBytes metadata.root.regionCount.toNat metadata.partitions.length := by
  obtain ⟨layout, b, hlayout, hencode, hb⟩ := RegionMetadata.encode_spec crc
    (@RegionMetadata.validate_withImage _ identity _ hvalid hne)
  rw [h, Except.ok.injEq] at hencode
  obtain ⟨-, -, -, hlen⟩ := MetadataLayout.of_new hlayout
  obtain ⟨-, -, -, -, hpartitions, -⟩ := RegionMetadata.validate_eq_ok hvalid
  rw [hencode, hb.length_eq, hlen, hpartitions]
  rfl

/-- The encoded header is a page. -/
lemma RecoveryImageHeader.length_encode {crc : List UInt8 → BitVec 32}
    {header : RecoveryImageHeader} {page : List UInt8} (h : header.encode crc = .ok page) :
    page.length = 4096 := by
  rw [encode] at h
  split_ifs at h
  rw [Except.ok.injEq] at h
  exact ((controlPage_iff header.pageContent).1 h.symm).1

/-- **The sections of an image.** They lie one after another, with the lengths of the index and of
the encoded table. -/
theorem persistFrozenHeader_eq_ok {crc : List UInt8 → BitVec 32} {data : DataSuperblock}
    {current : Option SelectedState} {frozen : FrozenRegionStore}
    {metadataBytes headerPage : List UInt8} {header : RecoveryImageHeader}
    (h : persistFrozenHeader crc data current frozen = .ok (metadataBytes, header, headerPage)) :
    ImageSections current frozen metadataBytes header headerPage := by
  simp only [persistFrozenHeader, except_bind_eq_ok, mapError_eq_ok, ite_error_eq_ok,
    orPersistError_eq_ok, Word.checkedAdd_eq_some, not_or, not_not, Nat.not_le] at h
  obtain ⟨⟨⟩, hvalid, -, ⟨hslots, -⟩, generation, hgeneration, identity, -, bytes, hencode, -,
    indexLen, hindexLen, _, ⟨hoffset, rfl⟩, _, ⟨hfile, rfl⟩, page, hpage, h⟩ := h
  have hlength := RegionMetadata.length_encode hvalid (nextStateGeneration_ne_zero hgeneration)
    hencode
  obtain ⟨ranges, hranges, hcount, -⟩ := RegionMetadata.partitions_of_validate hvalid
  rw [hslots] at hranges
  obtain ⟨-, -, himage, -⟩ := canonicalIndexPartitionRanges_chain hranges
  have hpos : 0 < frozen.slotCount := by
    rw [Nat.pos_iff_ne_zero]
    intro hz
    rw [recoveryImageIndexLen, if_pos hz] at hindexLen
    cases hindexLen
  rw [recoveryImageIndexLen_eq hpos himage, Option.some.injEq, ← indexBytes] at hindexLen
  subst hindexLen
  have hlengthPage := RecoveryImageHeader.length_encode hpage
  have hmod : ∀ n < 2 ^ 64, (BitVec.ofNat 64 n).toNat = n := fun n hn => Nat.mod_eq_of_lt hn
  cases h
  exact
    { generation := hgeneration
      length_headerPage := hlengthPage
      length_metadataBytes := hlength
      partitions := ⟨ranges, hranges, hcount⟩
      indexLen := hmod _ (by omega)
      regionTableOffset := hmod _ hoffset
      imageFileLen := hmod _ hfile }

/-! ## The writes -/

section Writes

variable {crc : List UInt8 → BitVec 32} {s s' : PersistSession}

/-- What is done to the store first. -/
lemma onRegions_bind_eq_ok {α β : Type} {f : StoreM α} {g : α → PersistM β} {b : β} :
    (onRegions f >>= g) s = .ok b s' ↔
      ∃ a regions, f s.regions = .ok a regions ∧ g a { s with regions } = .ok b s' := by
  rw [bind_apply, onRegions]
  cases f s.regions with
  | ok a regions => simp
  | error e regions => simp

/-- What is done to the store last. -/
lemma onRegions_eq_ok {α : Type} {f : StoreM α} {a : α} :
    onRegions f s = .ok a s' ↔
      ∃ regions, f s.regions = .ok a regions ∧ s' = { s with regions } := by
  rw [onRegions]
  cases f s.regions with
  | ok a regions => simp [eq_comm]
  | error e regions => simp

/-- A write that begins inside the file. -/
lemma writeAtOffset_eq {file : List UInt8} {offset : ℕ} (buffer : List UInt8)
    (h : offset ≤ file.length) : writeAtOffset file offset buffer = splice file offset buffer := by
  rw [writeAtOffset, Nat.sub_eq_zero_of_le h, List.replicate_zero, List.append_nil]

/-- Chunks are written one after another. -/
lemma writeChunks_eq_ok : ∀ {chunks : List (List UInt8)} {offset finish : ℕ} {s : PersistSession}
    {file : List UInt8}, s.temporary = some file → offset ≤ file.length →
    writeChunks chunks offset s = .ok finish s' →
      finish = offset + chunks.flatten.length ∧
        s' = { s with temporary := some (splice file offset chunks.flatten) } := by
  intro chunks
  induction chunks with
  | nil =>
    intro offset finish s file htemporary hle h
    cases h
    rw [List.flatten_nil, splice_nil, ← htemporary]
    exact ⟨rfl, rfl⟩
  | cons chunk rest ih =>
    intro offset finish s file htemporary hle h
    rw [writeChunks, writeTemporary, modify_bind] at h
    cases hnext : Word.checkedAdd 64 offset chunk.length with
    | none =>
      rw [hnext] at h
      cases h
    | some next =>
      rw [hnext] at h
      obtain ⟨-, rfl⟩ := Word.checkedAdd_eq_some.1 hnext
      have hfile : s.temporary.map (writeAtOffset · offset chunk) =
          some (splice file offset chunk) := by
        rw [htemporary, Option.map_some, writeAtOffset_eq _ hle]
      obtain ⟨rfl, rfl⟩ := ih (by exact hfile) (le_length_splice chunk hle) h
      rw [splice_append _ _ hle, List.flatten_cons, List.length_append, Nat.add_assoc]
      exact ⟨rfl, rfl⟩

/-- The pages of the index are written from the offset on. -/
lemma writeIndexPages_eq_ok {binding : IndexImageBinding} {offset finish : ℕ}
    {stats : WarmImageStats} {file : List UInt8} (htemporary : s.temporary = some file)
    (hle : offset ≤ file.length)
    (h : writeIndexPages crc binding offset s = .ok (stats, finish) s') :
    ∃ written, writeWarmImage crc warmImageWriteBatchBytes binding
        ⟨s.regions.index.storage, .new⟩ = .ok stats written ∧
      finish = offset + written.writer.inner.flatten.length ∧
      s' = { s with
        regions.index.storage := written.storage
        temporary := some (splice file offset written.writer.inner.flatten) } := by
  rw [writeIndexPages, get_bind] at h
  cases hwrite : writeWarmImage crc warmImageWriteBatchBytes binding
      ⟨s.regions.index.storage, .new⟩ with
  | error e written =>
    rw [hwrite] at h
    cases h
  | ok stats' written =>
    rw [hwrite] at h
    dsimp only at h
    rw [set_bind] at h
    obtain ⟨finish', s₁, hchunks, h⟩ := bind_eq_ok.1 h
    cases h
    obtain ⟨rfl, rfl⟩ := writeChunks_eq_ok (by exact htemporary) hle hchunks
    exact ⟨written, rfl, rfl, rfl⟩

/-- A computation that succeeds leaves the temporary file to itself. -/
lemma orRemoveTemporary_eq_ok {α : Type} {f : PersistM α} {a : α} :
    orRemoveTemporary f s = .ok a s' ↔ f s = .ok a s' := by
  rw [orRemoveTemporary]
  cases f s <;> simp

/-- Sections that fill a file are its content. -/
lemma writeAtOffset_sections {blank page index table : List UInt8} {offset : ℕ}
    (hoffset : offset = page.length + index.length)
    (hlen : blank.length = page.length + index.length + table.length) :
    writeAtOffset (splice (splice blank 0 page) page.length index) offset table =
      page ++ index ++ table := by
  have hindex := splice_append page index (Nat.zero_le blank.length)
  rw [Nat.zero_add] at hindex
  have hle := le_length_splice (page ++ index) (Nat.zero_le blank.length)
  rw [Nat.zero_add, List.length_append, ← hoffset] at hle
  have htable := splice_append (page ++ index) table (Nat.zero_le blank.length)
  rw [Nat.zero_add, List.length_append, ← hoffset] at htable
  rw [hindex, writeAtOffset_eq _ hle, htable, splice_zero]
  rw [List.length_append, List.length_append]
  exact hlen.le

/-- The image is its header, its index pages and its table. -/
lemma writeImage_eq_ok {current : Option SelectedState} {frozen : FrozenRegionStore}
    {physicalStats : IndexPhysicalStats} {metadataBytes headerPage : List UInt8}
    {header : RecoveryImageHeader}
    (hsections : ImageSections current frozen metadataBytes header headerPage)
    (h : writeImage crc physicalStats metadataBytes header headerPage s = .ok () s') :
    ∃ index, index.length = indexBytes frozen.slotCount ∧
      s'.image = some (headerPage ++ index ++ metadataBytes) ∧ s'.temporary = none := by
  rw [writeImage, modify_bind, writeTemporary, modify_bind, orThrow_bind_eq_ok] at h
  obtain ⟨binding, -, h⟩ := h
  obtain ⟨⟨stats, finish⟩, s₁, hindex, h⟩ := bind_eq_ok.1 h
  have hzero : (0 : ℕ) ≤ (List.replicate header.imageFileLen.toNat (0 : UInt8)).length :=
    Nat.zero_le _
  have hpage : recoveryImageIndexOffset ≤
      (splice (List.replicate header.imageFileLen.toNat 0) 0 headerPage).length := by
    have hle := le_length_splice headerPage hzero
    rwa [Nat.zero_add, hsections.length_headerPage] at hle
  obtain ⟨written, -, rfl, rfl⟩ := writeIndexPages_eq_ok (by
    rw [Option.map_some, writeAtOffset_eq _ hzero]) hpage hindex
  simp only [rejectIf_bind_eq_ok, not_or, not_not, writeTemporary, modify_bind,
    onRegions_bind_eq_ok, onRegions_eq_ok, RegionStore.requireHealthy_eq_ok] at h
  obtain ⟨⟨-, -, hoffset⟩, -, -, ⟨-, rfl⟩, -, ⟨-, rfl⟩, rfl⟩ := h
  rw [hsections.regionTableOffset] at hoffset
  have hlen : written.writer.inner.flatten.length = indexBytes frozen.slotCount :=
    Nat.add_left_cancel hoffset
  refine ⟨written.writer.inner.flatten, hlen, ?_, rfl⟩
  have hpage : recoveryImageIndexOffset = headerPage.length := hsections.length_headerPage.symm
  dsimp only
  rw [Option.map_some, hpage, writeAtOffset_sections]
  · rw [hsections.regionTableOffset, hsections.length_headerPage, hlen]
  · rw [List.length_replicate, hsections.imageFileLen, hsections.length_headerPage, hlen]

end Writes

/-! ## Persisted stores -/

section Persisted

variable {crc : List UInt8 → BitVec 32} {s s' : PersistSession} {data : DataSuperblock}
  {current : Option SelectedState} {metadata : RegionMetadata} {clean : StatePageWrite}

/-- **Images.** What `persist_frozen` writes is a page with the header, the pages of the index and
the encoded table. -/
theorem persistFrozen_eq_ok (h : persistFrozen crc data current metadata s = .ok clean s') :
    ∃ headerPage index table, s'.image = some (headerPage ++ index ++ table) ∧
      headerPage.length = 4096 ∧ index.length = indexBytes s.regions.indexSlotCount ∧
      table.length = tableBytes metadata.root.regionCount.toNat metadata.partitions.length ∧
      ∃ ranges, canonicalIndexPartitionRanges s.regions.indexSlotCount = .ok ranges ∧
        metadata.partitions.length = ranges.length := by
  simp only [persistFrozen, onRegions_bind_eq_ok, orThrow_bind_eq_ok, get_bind,
    RegionStore.requireHealthy_eq_ok, RegionStore.guardedIndexResult_eq_ok, rejectIf_bind_eq_ok,
    modify_bind] at h
  obtain ⟨-, _, ⟨-, rfl⟩, -, -, stats, _, ⟨-, rfl⟩, ⟨table, header, headerPage⟩, hheader, clean', -,
    -, h⟩ := h
  obtain ⟨⟨⟩, s₁, hwrite, h⟩ := bind_eq_ok.1 h
  cases h
  have hsections := persistFrozenHeader_eq_ok hheader
  obtain ⟨index, hindex, himage, -⟩ :=
    writeImage_eq_ok hsections (orRemoveTemporary_eq_ok.1 hwrite)
  exact ⟨headerPage, index, table, himage, hsections.length_headerPage, hindex,
    hsections.length_metadataBytes, hsections.partitions⟩

/-- The pages of the index are bound to an image with a generation. -/
lemma indexImageBinding_ok {header : RecoveryImageHeader} (hne : header.imageGeneration ≠ 0) :
    ∃ binding, indexImageBinding header = .ok binding ∧ binding.isValid = true := by
  have hlen := header.imageIdentity.length_bytes
  obtain ⟨left, hleft⟩ : ∃ left, getU64 header.imageIdentity.bytes 0 = some left :=
    getField_isSome (by omega)
  obtain ⟨right, hright⟩ : ∃ right, getU64 header.imageIdentity.bytes 8 = some right :=
    getField_isSome (by omega)
  rw [indexImageBinding, hleft, hright]
  refine ⟨_, rfl, ?_⟩
  rw [IndexImageBinding.isValid, Bool.and_eq_true, bne_iff_ne, bne_iff_ne]
  refine ⟨hne, ?_⟩
  dsimp only
  split_ifs with hmixed
  · decide
  · exact hmixed

/-- Chunks that do not reach the end of the offsets are written. -/
lemma writeChunks_ok : ∀ (chunks : List (List UInt8)) (offset : ℕ) (s : PersistSession),
    offset + chunks.flatten.length < 2 ^ 64 → ∃ s',
      writeChunks chunks offset s = .ok (offset + chunks.flatten.length) s' ∧
        s'.regions = s.regions := by
  intro chunks
  induction chunks with
  | nil => exact fun offset s _ => ⟨s, rfl, rfl⟩
  | cons chunk rest ih =>
    intro offset s hlt
    rw [List.flatten_cons, List.length_append, ← Nat.add_assoc] at hlt ⊢
    rw [writeChunks, writeTemporary, modify_bind, Word.checkedAdd_of_lt (by omega)]
    exact ih _ _ hlt

/-- The generation of the next state is the one of the image. -/
lemma nextStateGeneration_of_nextSlot {slot : UInt8} {generation : BitVec 64}
    (h : nextSlot current = .ok (slot, generation)) :
    nextStateGeneration current = .ok generation := by
  cases current with
  | none =>
    cases h
    rfl
  | some current =>
    rw [nextSlot] at h
    split_ifs at h
    rw [nextStateGeneration]
    cases hnext : Word.checkedAdd 64 current.record.generation.toNat 1 with
    | none =>
      rw [hnext] at h
      cases h
    | some next =>
      rw [hnext] at h
      cases h
      rfl

/-- The index pages of an intact store are written. -/
lemma writeIndexPages_ok {binding : IndexImageBinding} (hintact : s.regions.Intact crc)
    (hbinding : binding.isValid = true) : ∃ stats s',
      s.regions.index.storage.physicalStats = .ok stats ∧
      writeIndexPages crc binding 4096 s = .ok (⟨(s.regions.indexSlotCount + 503) / 504,
        s.regions.indexSlotCount, indexBytes s.regions.indexSlotCount, stats⟩,
        4096 + indexBytes s.regions.indexSlotCount) s' ∧
      s'.regions.healthy = s.regions.healthy := by
  obtain ⟨ranges, hranges, t, hrepr⟩ := hintact
  have hrepr : StorageRepr crc s.regions.indexSlotCount ranges t s.regions.index.storage := hrepr
  obtain ⟨-, -, himage, -⟩ := canonicalIndexPartitionRanges_chain hranges
  unfold isizeMax at himage
  obtain ⟨written, hwrite, -, hpages⟩ := writeWarmImage_spec hranges
    (show 0 < warmImageWriteBatchBytes by decide) hbinding hrepr
  have hlength : written.writer.inner.flatten.length = indexBytes s.regions.indexSlotCount := by
    rw [hpages, length_imagePages, indexBytes]
  have hstats : s.regions.index.storage.physicalStats =
      .ok ⟨prefixCount t s.regions.indexSlotCount, 0⟩ := by
    rw [PartitionedIndexStorage.physicalStats, hrepr.stats_eq, checkedSumPhysicalStats_spec hranges,
      hrepr.slotCount_eq]
    exact if_pos ((IndexPhysicalStats.isValidFor_iff (by omega)).2 (prefixCount_le t _))
  obtain ⟨s', hchunks, hregions⟩ := writeChunks_ok written.writer.inner 4096
    { s with regions.index.storage := written.storage } (by rw [hlength, indexBytes]; omega)
  refine ⟨_, s', hstats, ?_, by rw [hregions]⟩
  rw [writeIndexPages, get_bind, hwrite]
  dsimp only
  rw [set_bind, bind_ok hchunks, hlength]
  rfl

/-- A data file of a valid geometry has its first page. -/
lemma DataGeometry.le_dataFileLen {g : DataGeometry} (h : g.isValid = true) :
    recoveryPageSize ≤ g.dataFileLen.toNat := by
  rw [isValid, Bool.and_eq_true, decide_eq_true_eq, expectedFileLen, Option.bind_eq_some_iff] at h
  obtain ⟨-, bytes, -, hlen⟩ := h
  rw [(Word.checkedAdd_eq_some.1 hlen).2]
  exact Nat.le_add_left _ _

/-- A `CLEAN` state that names an image is prepared. -/
lemma prepareNextState_clean_ok {header : RecoveryImageHeader} {slot : UInt8}
    (hdata : data.isValid = true) (hnext : nextSlot current = .ok (slot, header.imageGeneration))
    (hne : header.imageGeneration ≠ 0) (hlen : 4096 ≤ header.imageFileLen.toNat) :
    ∃ clean, clean.record.generation = header.imageGeneration ∧
      prepareNextState crc current .clean (.fromData data (some header.imageBinding)) =
        .ok clean := by
  have hvalid : (StateRecord.mk header.imageGeneration .clean
      (.fromData data (some header.imageBinding))).isValid = true := by
    rw [DataSuperblock.isValid, Bool.and_eq_true, decide_eq_true_eq] at hdata
    have hfile := DataGeometry.le_dataFileLen hdata.2
    simp only [StateRecord.isValid, StateBinding.isValid, StateBinding.fromData, Option.all_some,
      ImageBinding.isValid, RecoveryImageHeader.imageBinding, Option.isSome_some, Bool.or_true,
      Bool.and_true, Bool.and_eq_true, decide_eq_true_eq]
    exact ⟨hne, ⟨decide_eq_true hdata.1, decide_eq_true hfile⟩, hne, hlen⟩
  rw [prepareNextState, hnext]
  dsimp only
  rw [StateRecord.encode, if_pos hvalid]
  exact ⟨_, rfl, rfl⟩

/-- The image of an intact store is written. -/
lemma writeImage_ok {frozen : FrozenRegionStore} {metadataBytes headerPage : List UInt8}
    {header : RecoveryImageHeader} (hintact : s.regions.Intact crc)
    (hhealthy : s.regions.healthy = true)
    (hsections : ImageSections current frozen metadataBytes header headerPage)
    (hslots : frozen.slotCount = s.regions.indexSlotCount) (hne : header.imageGeneration ≠ 0) :
    ∃ stats s', s.regions.index.storage.physicalStats = .ok stats ∧
      writeImage crc stats metadataBytes header headerPage s = .ok () s' := by
  obtain ⟨binding, hbinding, hbound⟩ := indexImageBinding_ok hne
  let s₁ : PersistSession := { s with
    temporary := some (writeAtOffset (List.replicate header.imageFileLen.toNat 0) 0 headerPage) }
  obtain ⟨stats, s₂, hstats, hindex, hkept⟩ :=
    @writeIndexPages_ok crc s₁ binding hintact hbound
  have hindexLen := hsections.indexLen
  have hoffset := hsections.regionTableOffset
  rw [hslots] at hindexLen hoffset
  have hhealthy₂ : s₂.regions.healthy = true := hkept.trans hhealthy
  refine ⟨stats, { s₂ with
    image := s₂.temporary.map (writeAtOffset · header.regionTableOffset.toNat metadataBytes)
    temporary := none }, hstats, ?_⟩
  rw [writeImage, modify_bind, writeTemporary, modify_bind, orThrow_bind_eq_ok]
  refine ⟨binding, hbinding, (bind_ok hindex).trans ?_⟩
  simp only [rejectIf_bind_eq_ok, writeTemporary, modify_bind, onRegions_bind_eq_ok,
    onRegions_eq_ok, RegionStore.requireHealthy_eq_ok]
  refine ⟨?_, (), _, ⟨hhealthy₂, rfl⟩, _, ⟨hhealthy₂, rfl⟩, rfl⟩
  simp only [not_or, not_not]
  exact ⟨hindexLen.symm, trivial, hoffset.symm⟩

/-- **Existence of images.** A healthy store with an intact index, frozen with a table of its own,
is persisted as long as states have generations. -/
theorem persistFrozen_ok {slot : UInt8} {generation : BitVec 64}
    (hintact : s.regions.Intact crc) (hhealthy : s.regions.healthy = true)
    (hfrozen : freezeStore s.regions.manager s.regions.indexSlotCount
      s.regions.index.storage.ranges s.regions.index.storage.stats =
        .ok (s.regions.frozen metadata))
    (hvalid : metadata.validate = .ok ()) (hdata : data.isValid = true)
    (hnext : nextSlot current = .ok (slot, generation)) :
    ∃ clean s', persistFrozen crc data current metadata s = .ok clean s' := by
  have hgeneration := nextStateGeneration_of_nextSlot hnext
  have hdata' := hdata
  rw [DataSuperblock.isValid, Bool.and_eq_true, decide_eq_true_eq] at hdata'
  obtain ⟨hslots, hstats⟩ := hintact.frozen_consistent hfrozen
  obtain ⟨table, header, headerPage, hheader, -⟩ := @persistFrozenHeader_ok crc _ _
    (s.regions.frozen metadata) _ hdata'.1 hvalid hslots hstats hgeneration
  have hsections := persistFrozenHeader_eq_ok hheader
  obtain rfl : header.imageGeneration = generation := by
    have := hsections.generation
    rw [hgeneration, Except.ok.injEq] at this
    exact this.symm
  have hne := nextStateGeneration_ne_zero hgeneration
  obtain ⟨clean, hgenerated, hclean⟩ := @prepareNextState_clean_ok crc _ _ _ _ hdata hnext hne (by
    rw [hsections.imageFileLen, Nat.add_assoc]; exact Nat.le_add_right _ _)
  obtain ⟨stats, s₁, hphysical, hwrite⟩ := @writeImage_ok crc
    { s with temporary := none } _ _ _ _ _ hintact hhealthy hsections rfl hne
  refine ⟨clean, { s₁ with preparedClean := some (clean.slot, clean.record) }, ?_⟩
  simp only [persistFrozen, onRegions_bind_eq_ok, orThrow_bind_eq_ok, get_bind,
    RegionStore.requireHealthy_eq_ok, RegionStore.guardedIndexResult_eq_ok, rejectIf_bind_eq_ok,
    modify_bind]
  refine ⟨(), _, ⟨hhealthy, rfl⟩, (), by rw [hvalid]; rfl, stats, _, ⟨hphysical, rfl⟩,
    (table, header, headerPage), hheader, clean, by rw [hclean]; rfl, not_not.2 hgenerated, ?_⟩
  rw [bind_ok (orRemoveTemporary_eq_ok.2 hwrite)]
  rfl

end Persisted

end Cache2

import Cache2.Recovery.ControlPages
import Cache2.Region.EmptyTable

set_option relaxedAutoImplicit false
set_option autoImplicit false

/-!
# The recovery image of a frozen cache

When a cache is closed, `persist_frozen` (`region/persistence/mod.rs`) gives the frozen table the
name and the generation of a new image, encodes it, and computes where the sections of the image
lie. This file has that part of it, up to the page of the header.

## Main definitions

* `Cache2.maximumRegionMetadataLen` — the bound on the bytes of a table that recovery reads.
* `Cache2.deriveImageIdentity` — the name of an image.
* `Cache2.freezeStore` — freezing the table with the partitions of the index.
* `Cache2.persistFrozenHeader` — the table's bytes and the header of an image.

## Main results

* `Cache2.RegionMetadata.validate_withImage` — the checks of a table do not depend on its image.
* `Cache2.RegionMetadata.length_le_maximum` — the bytes of a table are within the bound.
* `Cache2.freezeStore_eq_ok` — a frozen store is consistent.
* `Cache2.persistFrozenHeader_ok` — a frozen state has an image, with a header that encodes.
-/

namespace Cache2

open Bytes Loop

/-! ## Definitions -/

/-- A state record with its slot. -/
structure SelectedState where
  slot : UInt8
  record : StateRecord
  deriving DecidableEq, Repr

/-- `pages_for` of `maximum_region_metadata_len`. -/
def metadataPagesFor (count perPage : ℕ) : Except IoError ℕ :=
  ((Word.checkedAdd 64 count (perPage - 1)).map (· / perPage)).elim
    (.error (ioError .other "Region metadata page count overflow")) .ok

/-- `maximum_region_metadata_len`. -/
def maximumRegionMetadataLen (regionCount : BitVec 32) : Except IoError ℕ := do
  let regionPages ← metadataPagesFor regionCount.toNat regionMetadataRegionsPerPage
  let shardPages ← metadataPagesFor maxIndexPartitions regionMetadataPartitionsPerPage
  ((Word.checkedAdd 64 1 regionPages).bind fun pages =>
    (Word.checkedAdd 64 pages shardPages).bind fun pages =>
      Word.checkedMul 64 pages recoveryPageSize).elim
    (.error (ioError .other "Region metadata length overflow")) .ok

/-- `next_state_generation`. -/
def nextStateGeneration (current : Option SelectedState) : Except IoError (BitVec 64) :=
  match current with
  | none => .ok 1
  | some selected =>
    (Word.checkedAdd 64 selected.record.generation.toNat 1).elim
      (.error (ioError .other "state generation is exhausted"))
      fun generation => .ok (BitVec.ofNat 64 generation)

/-- How the preparation of an image ends without one. -/
inductive PersistFailure
  | error (reason : IoError)
  | panic (message : String)
  deriving DecidableEq, Repr

/-- A failed check of the preparation. -/
def orPersistError {α : Type} (reason : IoError) : Option α → Except PersistFailure α
  | some a => .ok a
  | none => .error (.error reason)

/-- An `expect`. -/
def orPersistPanic {α : Type} (message : String) : Option α → Except PersistFailure α
  | some a => .ok a
  | none => .error (.panic message)

/-- How the encoder of a table fails here. -/
def encodePersistFailure : EncodeFailure → PersistFailure
  | .error reason => .error (regionMetadataIoError reason)
  | .panic message => .panic message

/-- `derive_image_identity`. -/
def deriveImageIdentity (dataIdentity : PersistentId) (generation : BitVec 64) :
    Except PersistFailure PersistentId := do
  let left ← orPersistPanic "fixed identity half" (getU64 dataIdentity.bytes 0)
  let right ← orPersistPanic "fixed identity half" (getU64 dataIdentity.bytes 8)
  orPersistPanic "non-zero generation makes image identity non-zero"
    (PersistentId.fromBytes
      (u64Bytes generation ++ u64Bytes (left ^^^ right ^^^ 0x9e3779b97f4a7c15)))

/-- `metadata_partition_stats_match`. -/
def metadataPartitionStatsMatch (metadata : RegionMetadata) (stats : List IndexPhysicalStats) :
    Bool :=
  metadata.partitions.length = stats.length &&
    (metadata.partitions.zip stats).all fun pair =>
      pair.1.physicalValueSlots.toNat = pair.2.value &&
        pair.1.physicalDeletedSlots.toNat = pair.2.deleted

/-- What `persist_frozen` reads of a frozen store: the table, and the number of slots and the
accounting of the index. -/
structure FrozenRegionStore where
  metadata : RegionMetadata
  slotCount : ℕ
  partitionStats : List IndexPhysicalStats

/-- `partition_metadata_from_stats`. -/
def indexPartitionMetadata (ranges : List IndexPartitionRange) (stats : List IndexPhysicalStats) :
    Except IoError (List PartitionMetadataRecord) :=
  if ranges.length ≠ stats.length then
    .error (ioError .invalidData "index partition ranges and statistics disagree")
  else (ranges.zip stats).mapM fun pair => partitionMetadataFromStats pair.1 pair.2

/-- `freeze`: the table of a manager with the partitions of its index. -/
def freezeStore (m : RegionManager) (slotCount : ℕ) (ranges : List IndexPartitionRange)
    (stats : List IndexPhysicalStats) : Except IoError FrozenRegionStore := do
  let partitions ← indexPartitionMetadata ranges stats
  let metadata ← (m.freezeMetadata partitions).mapError regionMetadataIoError
  .ok ⟨metadata, slotCount, stats⟩

/-- `persist_frozen` up to the page of the header: the bytes of the table, the header and its
page. -/
def persistFrozenHeader (crc : List UInt8 → BitVec 32) (data : DataSuperblock)
    (current : Option SelectedState) (frozen : FrozenRegionStore) :
    Except PersistFailure (List UInt8 × RecoveryImageHeader × List UInt8) := do
  frozen.metadata.validate.mapError fun error => .error (regionMetadataIoError error)
  if 2 ^ 64 ≤ frozen.slotCount then
    .error (.error (ioError .invalidData "index capacity is too large"))
  else if frozen.metadata.root.indexSlots.toNat ≠ frozen.slotCount ∨
      metadataPartitionStatsMatch frozen.metadata frozen.partitionStats = false then
    .error (.error
      (ioError .invalidData "frozen index and Region metadata accounting disagree"))
  else do
    let imageGeneration ← (nextStateGeneration current).mapError PersistFailure.error
    let imageIdentity ← deriveImageIdentity data.dataIdentity imageGeneration
    let metadata := frozen.metadata.withImage imageIdentity imageGeneration
    let metadataBytes ← (metadata.encode crc).mapError encodePersistFailure
    if 2 ^ 64 ≤ metadataBytes.length then
      .error (.error (ioError .invalidData "Region metadata is too large"))
    else do
      let indexLen ← orPersistError (ioError .invalidData "invalid index image length")
        (recoveryImageIndexLen frozen.slotCount)
      let regionTableOffset ← orPersistError (ioError .other "image offset overflow")
        (Word.checkedAdd 64 recoveryImageIndexOffset indexLen)
      let imageFileLen ← orPersistError (ioError .other "image length overflow")
        (Word.checkedAdd 64 regionTableOffset metadataBytes.length)
      let header : RecoveryImageHeader := {
        cacheUuid := data.cacheUuid
        dataIdentity := data.dataIdentity
        dataSuperblockGeneration := data.generation
        hashSeed := data.hashSeed
        storageFingerprint := data.storageFingerprint
        imageIdentity
        imageGeneration
        imageFileLen := BitVec.ofNat 64 imageFileLen
        indexSlots := BitVec.ofNat 64 frozen.slotCount
        indexOffset := BitVec.ofNat 64 recoveryImageIndexOffset
        indexLen := BitVec.ofNat 64 indexLen
        regionTableOffset := BitVec.ofNat 64 regionTableOffset
        regionTableLen := BitVec.ofNat 64 metadataBytes.length }
      let page ← (header.encode crc).mapError fun _ =>
        .error (ioError .invalidData "invalid recovery image header")
      .ok (metadataBytes, header, page)

/-! ## The table of an image -/

/-- Roots with the same checks for each Region have the same checks for a list of them. -/
lemma validateRegionList_congr {root root' : RegionMetadataRoot}
    (h : ∀ seen region, validateRegion root seen region = validateRegion root' seen region) :
    ∀ (regions : List RegionMetadataRecord) (seen : RegionState → List Bool),
      validateRegionList root regions seen = validateRegionList root' regions seen
  | [], _ => rfl
  | region :: rest, seen => by
    rw [validateRegionList, validateRegionList, h]
    exact congrArg _ (funext (validateRegionList_congr h rest))

/-- The checks of a table do not depend on its image, as long as the generation is not zero. -/
theorem RegionMetadata.validate_withImage {metadata : RegionMetadata} {imageIdentity : PersistentId}
    {imageGeneration : BitVec 64} (h : metadata.validate = .ok ()) (hne : imageGeneration ≠ 0) :
    (metadata.withImage imageIdentity imageGeneration).validate = .ok () := by
  obtain ⟨layout, hlayout, hroot, hregions, hpartitions, hlist, hparts⟩ := validate_eq_ok h
  refine RegionMetadata.validate_ok hlayout ?_ hregions hpartitions ?_ hparts
  · rw [validateRootDirectory, ite_error_eq_ok] at hroot ⊢
    refine ⟨hroot.1, ?_⟩
    obtain ⟨-, hroot⟩ := hroot
    have hslots : (metadata.withImage imageIdentity imageGeneration).root.indexSlots =
        metadata.root.indexSlots := rfl
    rw [hslots]
    cases hranges : validatedIndexPartitionRanges metadata.root.indexSlots.toNat with
    | error e => rw [hranges] at hroot; cases hroot
    | ok ranges =>
      rw [hranges] at hroot
      dsimp only at hroot ⊢
      rw [ite_error_eq_ok, not_or, not_or] at hroot ⊢
      exact ⟨⟨hroot.1.1, hne, hroot.1.2.2⟩, hroot.2⟩
  · rw [validateRegions] at hlist ⊢
    rw [@validateRegionList_congr (metadata.withImage imageIdentity imageGeneration).root
      metadata.root fun _ _ => rfl]
    exact hlist

/-- **The bytes of a table.** They are at most as many as recovery reads. -/
theorem RegionMetadata.length_le_maximum {crc : List UInt8 → BitVec 32}
    {metadata : RegionMetadata} {layout : MetadataLayout} {b : List UInt8}
    (h : metadata.validate = .ok ())
    (hlayout : MetadataLayout.new metadata.root.regionCount metadata.root.partitionCount =
      .ok layout) (hb : metadata.Encodes crc layout b) :
    ∃ maximum, maximumRegionMetadataLen metadata.root.regionCount = .ok maximum ∧
      b.length ≤ maximum ∧ b.length % 4096 = 0 ∧ 0 < b.length ∧ b.length < 2 ^ 45 := by
  obtain ⟨layout', hlayout', hroot, -⟩ := validate_eq_ok h
  obtain ⟨-, -, -, hlen⟩ := MetadataLayout.of_new hlayout
  have hcount := (validateRootDirectory_eq_ok hroot).partitionCount_le
  have hregions := metadata.root.regionCount.isLt
  unfold maxIndexPartitions at hcount
  rw [hb.length_eq, hlen]
  simp only [sectionPages, maximumRegionMetadataLen, metadataPagesFor, regionMetadataRegionsPerPage,
    regionMetadataPartitionsPerPage, maxIndexPartitions]
  rw [Word.checkedAdd_of_lt (by omega), Word.checkedAdd_of_lt (by omega)]
  simp only [Option.map_some, Option.elim_some, bind, Except.bind]
  rw [Word.checkedAdd_of_lt (by omega), Option.bind_some, Word.checkedAdd_of_lt (by omega),
    Option.bind_some, Word.checkedMul_of_lt (by unfold recoveryPageSize; omega)]
  exact ⟨_, rfl, by unfold recoveryPageSize; omega, by omega, by omega, by omega⟩

/-! ## Frozen stores -/

/-- What a sum of partitions is. -/
lemma RegionManager.PartitionTotals.add_eq_ok : ∀ {partitions : List PartitionMetadataRecord}
    {totals totals' : PartitionTotals}, PartitionTotals.add partitions totals = .ok totals' →
    totals'.slotCount = totals.slotCount + (partitions.map (·.slotCount.toNat)).sum ∧
      (totals.slotCount < 2 ^ 64 → totals'.slotCount < 2 ^ 64)
  | [], totals, totals', h => by
    cases h
    exact ⟨rfl, id⟩
  | partition :: rest, totals, totals', h => by
    simp only [PartitionTotals.add, except_bind_eq_ok, orArithmeticOverflow_eq_ok,
      Word.checkedAdd_eq_some] at h
    obtain ⟨_, ⟨-, rfl⟩, _, ⟨hlt, rfl⟩, h⟩ := h
    obtain ⟨hsum, hbound⟩ := add_eq_ok h
    refine ⟨?_, fun _ => hbound hlt⟩
    rw [hsum, List.map_cons, List.sum_cons]
    exact Nat.add_assoc _ _ _

/-- The ranges of a chain have all the slots. -/
lemma RangeChain.sum_slotCount {slotCount lastPage : ℕ} : ∀ {id page : ℕ}
    {rs : List IndexPartitionRange}, RangeChain slotCount lastPage id page rs →
    min slotCount (page * 504) + (rs.map (·.slotCount)).sum = min slotCount (lastPage * 504)
  | _, page, [], h => by
    have h : page = lastPage := h
    simp only [List.map_nil, List.sum_nil, Nat.add_zero, h]
  | _, page, r :: rs, h => by
    obtain ⟨-, -, -, hfirst, hend, hfour, hrest⟩ := h
    have hsum := sum_slotCount hrest
    rw [List.map_cons, List.sum_cons, ← hsum, ← hend, hfirst, ← Nat.add_assoc]
    have hle : page * 504 ≤ slotCount := by
      rw [← hfirst]
      exact (Nat.le_add_right _ _).trans (hend.trans_le (Nat.min_le_left _ _))
    rw [Nat.min_eq_right hle]

/-- The records of ranges with their statistics. -/
lemma mapM_partitionMetadata : ∀ {pairs : List (IndexPartitionRange × IndexPhysicalStats)}
    {partitions : List PartitionMetadataRecord},
    (pairs.mapM fun pair => partitionMetadataFromStats pair.1 pair.2) = .ok partitions →
    partitions.map (·.slotCount) = pairs.map (fun pair => BitVec.ofNat 64 pair.1.slotCount) ∧
      partitions.map (·.physicalValueSlots) = pairs.map (fun pair => BitVec.ofNat 64 pair.2.value) ∧
      partitions.map (·.physicalDeletedSlots) =
        pairs.map (fun pair => BitVec.ofNat 64 pair.2.deleted)
  | [], partitions, h => by
    cases h
    exact ⟨rfl, rfl, rfl⟩
  | pair :: rest, partitions, h => by
    rw [List.mapM_cons, except_bind_eq_ok] at h
    obtain ⟨partition, hpartition, h⟩ := h
    rw [except_bind_eq_ok] at h
    obtain ⟨partitions', hrest, h⟩ := h
    cases h
    obtain ⟨hslots, hvalues, hdeleted⟩ := mapM_partitionMetadata hrest
    rw [partitionMetadataFromStats, ite_error_eq_ok] at hpartition
    cases hpartition.2
    exact ⟨congrArg (_ :: ·) hslots, congrArg (_ :: ·) hvalues, congrArg (_ :: ·) hdeleted⟩

/-- Statistics that fit 64 bits are the ones in the records. -/
lemma metadataPartitionStatsMatch_of {metadata : RegionMetadata} {stats : List IndexPhysicalStats}
    (hwidth : ∀ s ∈ stats, s.value < 2 ^ 64 ∧ s.deleted < 2 ^ 64)
    (hvalues : metadata.partitions.map (·.physicalValueSlots) =
      stats.map fun s => BitVec.ofNat 64 s.value)
    (hdeleted : metadata.partitions.map (·.physicalDeletedSlots) =
      stats.map fun s => BitVec.ofNat 64 s.deleted) :
    metadataPartitionStatsMatch metadata stats = true := by
  have hlen : metadata.partitions.length = stats.length := by
    simpa using congrArg List.length hvalues
  rw [metadataPartitionStatsMatch, Bool.and_eq_true, decide_eq_true_eq, List.all_eq_true]
  refine ⟨hlen, fun pair hpair => ?_⟩
  obtain ⟨i, hi, rfl⟩ := List.getElem_of_mem hpair
  rw [List.length_zip, lt_min_iff] at hi
  have hv := List.getElem_of_eq hvalues (by simpa using hi.1)
  have hd := List.getElem_of_eq hdeleted (by simpa using hi.1)
  rw [List.getElem_map, List.getElem_map] at hv hd
  obtain ⟨hvalue, hdel⟩ := hwidth _ (List.getElem_mem hi.2)
  rw [List.getElem_zip, Bool.and_eq_true, decide_eq_true_eq, decide_eq_true_eq, hv, hd]
  exact ⟨Nat.mod_eq_of_lt hvalue, Nat.mod_eq_of_lt hdel⟩

/-- **Frozen stores.** The table of a frozen store is valid, and it has the slots and the
accounting of the index. -/
theorem freezeStore_eq_ok {m : RegionManager} {slotCount : ℕ} {ranges : List IndexPartitionRange}
    {stats : List IndexPhysicalStats} {frozen : FrozenRegionStore}
    (hranges : canonicalIndexPartitionRanges slotCount = .ok ranges) (hslots : slotCount < 2 ^ 64)
    (hwidth : ∀ s ∈ stats, s.value < 2 ^ 64 ∧ s.deleted < 2 ^ 64)
    (h : freezeStore m slotCount ranges stats = .ok frozen) :
    frozen.metadata.validate = .ok () ∧
      frozen.metadata.root.indexSlots.toNat = frozen.slotCount ∧
      metadataPartitionStatsMatch frozen.metadata frozen.partitionStats = true := by
  rw [freezeStore, except_bind_eq_ok] at h
  obtain ⟨partitions, hpartitions, h⟩ := h
  rw [except_bind_eq_ok] at h
  obtain ⟨metadata, hfreeze, h⟩ := h
  cases h
  rw [mapError_eq_ok] at hfreeze
  obtain ⟨hvalid, -⟩ := RegionManager.freezeMetadata_eq_ok hfreeze
  rw [indexPartitionMetadata, ite_error_eq_ok, not_not] at hpartitions
  obtain ⟨hlen, hmap⟩ := hpartitions
  obtain ⟨hcounts, hvalues, hdeleted⟩ := mapM_partitionMetadata hmap
  rw [RegionManager.freezeMetadata, ite_error_eq_ok] at hfreeze
  obtain ⟨-, hfreeze⟩ := hfreeze
  rw [except_bind_eq_ok] at hfreeze
  obtain ⟨totals, htotals, hfreeze⟩ := hfreeze
  simp only [except_bind_eq_ok] at hfreeze
  obtain ⟨_, -, _, -, _, -, _, -, _, -, _, -, _, -, ⟨⟩, -, hfreeze⟩ := hfreeze
  cases hfreeze
  have hfst : ((ranges.zip stats).map Prod.fst) = ranges :=
    List.map_fst_zip hlen.le
  have hsnd : ((ranges.zip stats).map Prod.snd) = stats :=
    List.map_snd_zip hlen.ge
  refine ⟨hvalid, ?_, metadataPartitionStatsMatch_of hwidth (hvalues.trans ?_)
    (hdeleted.trans ?_)⟩
  · rw [RegionManager.PartitionTotals.fromRecords, except_bind_eq_ok] at htotals
    obtain ⟨_, -, htotals⟩ := htotals
    obtain ⟨hsum, hbound⟩ := RegionManager.PartitionTotals.add_eq_ok htotals
    have hlt : totals.slotCount < 2 ^ 64 := hbound (Nat.two_pow_pos 64)
    have hsum : totals.slotCount = 0 + _ := hsum
    obtain ⟨-, -, -, hchain⟩ := canonicalIndexPartitionRanges_chain hranges
    have hall := hchain.sum_slotCount
    have hfits := rangeFits_of_canonical hranges hslots
    have hrecords : partitions.map (·.slotCount.toNat) = ranges.map (·.slotCount) := by
      have := congrArg (List.map BitVec.toNat) hcounts
      rw [List.map_map, List.map_map] at this
      refine this.trans ?_
      conv_rhs => rw [← hfst, List.map_map]
      refine List.map_congr_left fun pair hpair => Nat.mod_eq_of_lt ?_
      exact (hfits _ (List.of_mem_zip hpair).1).slotCount
    change (BitVec.ofNat 64 totals.slotCount).toNat = slotCount
    rw [BitVec.toNat_ofNat, Nat.mod_eq_of_lt hlt, hsum, hrecords]
    omega
  · conv_rhs => rw [← hsnd, List.map_map]
    rfl
  · conv_rhs => rw [← hsnd, List.map_map]
    rfl

/-! ## The header -/

/-- Images have names. -/
lemma deriveImageIdentity_ok (dataIdentity : PersistentId) {generation : BitVec 64}
    (h : generation ≠ 0) : ∃ id, deriveImageIdentity dataIdentity generation = .ok id := by
  have hlen := dataIdentity.length_bytes
  have hleft : ∃ left, getU64 dataIdentity.bytes 0 = some left := getField_isSome (by omega)
  have hright : ∃ right, getU64 dataIdentity.bytes 8 = some right := getField_isSome (by omega)
  obtain ⟨left, hleft⟩ := hleft
  obtain ⟨right, hright⟩ := hright
  rw [deriveImageIdentity, hleft, hright]
  simp only [orPersistPanic, bind, Except.bind]
  generalize hx : left ^^^ right ^^^ 0x9e3779b97f4a7c15 = other
  have hne : u64Bytes generation ++ u64Bytes other ≠ List.replicate 16 0 := by
    intro heq
    have hhead := congrArg (List.take 8) heq
    rw [List.take_left' (length_u64Bytes _), List.take_replicate] at hhead
    exact h (fieldBytes_injective (n := 8) (hhead.trans (fieldBytes_zero 64).symm))
  rw [PersistentId.fromBytes, dif_pos ⟨by simp, hne⟩]
  exact ⟨_, rfl⟩

/-- The generation of an image is not zero. -/
lemma nextStateGeneration_ne_zero {current : Option SelectedState} {generation : BitVec 64}
    (h : nextStateGeneration current = .ok generation) : generation ≠ 0 := by
  cases current with
  | none =>
    cases h
    decide
  | some selected =>
    rw [nextStateGeneration] at h
    cases hnext : Word.checkedAdd 64 selected.record.generation.toNat 1 with
    | none => rw [hnext] at h; cases h
    | some next =>
      rw [hnext] at h
      cases h
      obtain ⟨hlt, rfl⟩ := Word.checkedAdd_eq_some.1 hnext
      intro hz
      have := congrArg BitVec.toNat hz
      rw [BitVec.toNat_ofNat, Nat.mod_eq_of_lt hlt] at this
      simp at this

/-- The header of an image with these sections is valid. -/
lemma RecoveryImageHeader.isValid_of {header : RecoveryImageHeader} {indexLen : ℕ}
    (hdata : header.dataSuperblockGeneration ≠ 0) (himage : header.imageGeneration ≠ 0)
    (hslots : header.indexSlots ≠ 0)
    (hindex : recoveryImageIndexLen header.indexSlots.toNat = some indexLen)
    (hlt : 4096 + indexLen + header.regionTableLen.toNat < 2 ^ 64)
    (hoffset : header.indexOffset.toNat = 4096) (hlen : header.indexLen.toNat = indexLen)
    (htable : header.regionTableOffset.toNat = 4096 + indexLen)
    (haligned : header.regionTableLen.toNat % 4096 = 0) (hne : header.regionTableLen ≠ 0)
    (hfile : header.imageFileLen.toNat = 4096 + indexLen + header.regionTableLen.toNat) :
    header.isValid = true := by
  have hexpected : header.expectedFileLen (4096 + indexLen) = some header.imageFileLen.toNat := by
    rw [expectedFileLen, if_pos ⟨htable, haligned, hne⟩, htable, Word.checkedAdd_of_lt hlt, hfile]
  rw [isValid, hindex]
  simp only
  rw [hoffset, hlen, Word.checkedAdd_of_lt (by omega)]
  simp only
  rw [hexpected]
  simp only [recoveryImageIndexOffset, recoveryPageSize, Bool.and_eq_true, decide_eq_true_eq,
    and_true]
  exact ⟨⟨hdata, himage⟩, hslots⟩

/-- **Images.** A frozen state with a valid table and the accounting of its index has an image: its
table is encoded and its header is built and encoded. -/
theorem persistFrozenHeader_ok (crc : List UInt8 → BitVec 32) {data : DataSuperblock}
    {current : Option SelectedState} {frozen : FrozenRegionStore} {generation : BitVec 64}
    (hdata : data.generation ≠ 0) (hvalid : frozen.metadata.validate = .ok ())
    (hslots : frozen.metadata.root.indexSlots.toNat = frozen.slotCount)
    (hstats : metadataPartitionStatsMatch frozen.metadata frozen.partitionStats = true)
    (hgeneration : nextStateGeneration current = .ok generation) :
    ∃ bytes header page, persistFrozenHeader crc data current frozen = .ok (bytes, header, page) ∧
      header.encode crc = .ok page := by
  have hne := nextStateGeneration_ne_zero hgeneration
  obtain ⟨id, hid⟩ := deriveImageIdentity_ok data.dataIdentity hne
  have hrenamed := @RegionMetadata.validate_withImage _ id _ hvalid hne
  obtain ⟨layout, bytes, hlayout, hencode, hb⟩ := RegionMetadata.encode_spec crc hrenamed
  obtain ⟨-, -, -, haligned, hpos, hlen⟩ := RegionMetadata.length_le_maximum hrenamed hlayout hb
  obtain ⟨layout', -, hroot, -⟩ := RegionMetadata.validate_eq_ok hvalid
  obtain ⟨ranges, hranges, -⟩ := (validateRootDirectory_eq_ok hroot).ranges
  obtain ⟨-, -, hpages, -⟩ := canonicalIndexPartitionRanges_chain hranges
  have hslots_lt := frozen.metadata.root.indexSlots.isLt
  have hpositive : 0 < frozen.metadata.root.indexSlots.toNat := by
    rw [validateRootDirectory, ite_error_eq_ok, BitVec.not_lt, BitVec.le_def] at hroot
    exact Nat.lt_of_lt_of_le (by decide) hroot.1
  have hindex := recoveryImageIndexLen_eq hpositive hpages
  rw [hslots] at hslots_lt hpositive hindex hpages
  generalize hindexLen : (frozen.slotCount + 503) / 504 * 4096 = indexLen at hindex hpages
  unfold isizeMax at hpages
  rw [persistFrozenHeader, hvalid]
  simp only [Except.mapError, bind, Except.bind]
  rw [if_neg (by omega), if_neg (by simp [hslots, hstats]), hgeneration]
  simp only
  rw [hid]
  simp only [hencode]
  rw [if_neg (by omega), hindex]
  simp only [orPersistError, recoveryImageIndexOffset, recoveryPageSize]
  rw [Word.checkedAdd_of_lt (by omega)]
  simp only
  rw [Word.checkedAdd_of_lt (by omega)]
  simp only
  have hmod : ∀ n < 2 ^ 64, (BitVec.ofNat 64 n).toNat = n := fun n hn => Nat.mod_eq_of_lt hn
  have hnonzero : ∀ n < 2 ^ 64, 0 < n → BitVec.ofNat 64 n ≠ 0 := by
    intro n hn hpos hz
    have := congrArg BitVec.toNat hz
    rw [hmod n hn] at this
    simp at this
    omega
  -- the header is named, so that what is built and what encodes are the same one
  generalize hheader : (⟨data.cacheUuid, data.dataIdentity, data.generation, data.hashSeed,
    data.storageFingerprint, id, generation, BitVec.ofNat 64 (4096 + indexLen + bytes.length),
    BitVec.ofNat 64 frozen.slotCount, BitVec.ofNat 64 4096, BitVec.ofNat 64 indexLen,
    BitVec.ofNat 64 (4096 + indexLen), BitVec.ofNat 64 bytes.length⟩ : RecoveryImageHeader) =
    header
  have hok : header.isValid = true := by
    subst hheader
    refine @RecoveryImageHeader.isValid_of _ indexLen hdata hne
      (hnonzero _ hslots_lt hpositive) ?_ ?_ rfl (hmod _ (by omega)) (hmod _ (by omega)) ?_
      (hnonzero _ (by omega) hpos) ?_
    · rw [hmod _ hslots_lt]
      exact hindex
    · rw [hmod _ (by omega)]
      omega
    · rw [hmod _ (by omega)]
      exact haligned
    · rw [hmod _ (by omega), hmod _ (by omega)]
  have hpage : header.encode crc = .ok (controlPage crc header.fields) := if_pos hok
  rw [hpage]
  exact ⟨bytes, header, _, rfl, hpage⟩

end Cache2

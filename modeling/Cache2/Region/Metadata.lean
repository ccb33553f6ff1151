import Cache2.Lib.Loop
import Cache2.Codec
import Cache2.Index.Layout

set_option relaxedAutoImplicit false
set_option autoImplicit false

/-!
# Region metadata

The Region and queue table that a clean close freezes and a recovery reads back
(`region/recovery/metadata.rs`): the root, one record for each Region and one for each index
partition, their validation, and the rebinding of the Active Regions to another number of append
shards. Allocation succeeds here.

A Region's place in the queues is stored in its own record, as a state and an ordinal; the
validation marks every ordinal it meets in one flag array for each state, so that a table it
accepts describes three queues without gaps or repetitions.

## Main definitions

* `Cache2.RegionMetadata` — the table; `Cache2.RegionMetadata.validate` — its validation.
* `Cache2.RegionMetadata.rebindAppendShards` — the change of the number of append shards.
* `Cache2.RegionMetadata.Valid` — what the validation establishes.

## Main results

* `Cache2.RegionMetadata.valid_of_validate` — accepted tables are valid: in each state, the
  ordinals of the Regions are exactly the numbers below the state's count, each met once.
-/

namespace Cache2

open Loop

/-! ## Records -/

/-- Bytes of a page of every recovery format. -/
def recoveryPageSize : ℕ := 4096

/-- Append shards of a cache. -/
def maxShards : ℕ := 256

/-- The least number of bytes that a record takes. -/
def minEncodedRecordSize : ℕ := 64

/-- A persistent identity: 16 bytes, not all zero. -/
structure PersistentId where
  bytes : List UInt8
  length_bytes : bytes.length = 16
  ne_zero : bytes ≠ List.replicate 16 0
  deriving DecidableEq, Repr

/-- The identity of the samples. -/
def PersistentId.sample : PersistentId := ⟨List.replicate 16 1, by decide, by decide⟩

/-- The identity with the given bytes. -/
def PersistentId.fromBytes (bytes : List UInt8) : Option PersistentId :=
  if h : bytes.length = 16 ∧ bytes ≠ List.replicate 16 0 then some ⟨bytes, h.1, h.2⟩ else none

/-- Region states; only these can appear in a clean image. -/
inductive RegionState
  | free
  | active
  | sealed
  deriving DecidableEq, Repr

/-- The global part of the table. -/
structure RegionMetadataRoot where
  cacheUuid : PersistentId
  dataIdentity : PersistentId
  dataSuperblockGeneration : BitVec 64
  imageIdentity : PersistentId
  imageGeneration : BitVec 64
  storageFingerprint : BitVec 64
  indexSlots : BitVec 64
  indexPageCount : BitVec 64
  regionSize : BitVec 64
  regionCount : BitVec 32
  partitionCount : BitVec 32
  shardCount : BitVec 32
  maxSeqno : BitVec 64
  freeRegionCount : BitVec 32
  activeRegionCount : BitVec 32
  sealedRegionCount : BitVec 32
  deriving DecidableEq, Repr

/-- One Region. The ordinal is its position in the free queue, its shard, or its position in the
sealed queue. -/
structure RegionMetadataRecord where
  state : RegionState
  queueOrdinal : BitVec 32
  createdSeqno : BitVec 64
  durableUsedOffset : BitVec 64
  physicalRecordCount : BitVec 64
  deriving DecidableEq, Repr

/-- One index partition with its counters. -/
structure PartitionMetadataRecord where
  partitionId : BitVec 32
  firstIndexPage : BitVec 64
  indexPageCount : BitVec 64
  firstSlot : BitVec 64
  slotCount : BitVec 64
  physicalValueSlots : BitVec 64
  physicalDeletedSlots : BitVec 64
  deriving DecidableEq, Repr

/-- The whole table. -/
structure RegionMetadata where
  root : RegionMetadataRoot
  regions : List RegionMetadataRecord
  partitions : List PartitionMetadataRecord
  deriving DecidableEq, Repr

/-- Why a table is refused. -/
inductive RegionMetadataError
  | invalidLength
  | invalidMagic
  | unsupportedVersion (version : BitVec 16)
  | checksumMismatch
  | invalidField (field : String)
  | arithmeticOverflow
  | allocation
  deriving DecidableEq, Repr

/-- A checked operation of the table. -/
def orArithmeticOverflow {α : Type} : Option α → Except RegionMetadataError α
  | some a => .ok a
  | none => .error .arithmeticOverflow

/-- A checked operation that passes has a result. -/
@[simp] lemma orArithmeticOverflow_eq_ok {α : Type} {x : Option α} {a : α} :
    orArithmeticOverflow x = .ok a ↔ x = some a := by
  cases x <;> simp [orArithmeticOverflow]

/-! ## Layout -/

/-- Regions described by one page. -/
def regionMetadataRegionsPerPage : ℕ := 192

/-- Partitions described by one page. -/
def regionMetadataPartitionsPerPage : ℕ := 252

/-- Where the sections of an encoded table lie. -/
structure MetadataLayout where
  regionFirstPage : BitVec 32
  regionPageCount : BitVec 32
  partitionFirstPage : BitVec 32
  partitionPageCount : BitVec 32
  encodedLen : ℕ
  deriving DecidableEq, Repr

/-- The pages that a number of records takes. -/
def pagesForRecords (records perPage : ℕ) : Except RegionMetadataError ℕ := do
  let rounded ← orArithmeticOverflow (Word.checkedAdd 64 records (perPage - 1))
  let pages := rounded / perPage
  if pages < 2 ^ 32 then .ok pages else .error .arithmeticOverflow

/-- The layout for the given counts. -/
def MetadataLayout.new (regionCount partitionCount : BitVec 32) :
    Except RegionMetadataError MetadataLayout :=
  if regionCount = 0 ∨ partitionCount = 0 then .error (.invalidField "record_count")
  else do
    let regionPageCount ← pagesForRecords regionCount.toNat regionMetadataRegionsPerPage
    let partitionPageCount ←
      pagesForRecords partitionCount.toNat regionMetadataPartitionsPerPage
    let regionFirstPage := 1
    let partitionFirstPage ←
      orArithmeticOverflow (Word.checkedAdd 32 regionFirstPage regionPageCount)
    let pageCount ←
      orArithmeticOverflow (Word.checkedAdd 32 partitionFirstPage partitionPageCount)
    let encodedLen ← orArithmeticOverflow (Word.checkedMul 64 pageCount recoveryPageSize)
    .ok ⟨BitVec.ofNat 32 regionFirstPage, BitVec.ofNat 32 regionPageCount,
      BitVec.ofNat 32 partitionFirstPage, BitVec.ofNat 32 partitionPageCount, encodedLen⟩

/-! ## Validation -/

/-- Whether exactly one bit is set. -/
def isPowerOfTwo (n : ℕ) : Bool := n == 2 ^ Nat.log2 n

/-- The partition directory of an index whose counters fit their encoding. -/
def validatedIndexPartitionRanges (slotCount : ℕ) :
    Except IndexStorageError (List IndexPartitionRange) := do
  let ranges ← canonicalIndexPartitionRanges slotCount
  if ranges.any (fun range => decide (2 ^ 32 - 1 < range.slotCount)) then
    .error (.invalidArgument "index partition exceeds the v1 recovery counter")
  else .ok ranges

/-- How the index layout's errors appear. -/
def indexLayoutMetadataError : IndexStorageError → RegionMetadataError
  | .sizeOverflow => .arithmeticOverflow
  | .io _ => .allocation
  | _ => .invalidField "canonical_partition_directory"

/-- Checks the root, apart from what it says about the records. -/
def validateRootDirectory (root : RegionMetadataRoot) (layout : MetadataLayout) :
    Except RegionMetadataError Unit :=
  if root.indexSlots < 8 then .error (.invalidField "root")
  else
    match validatedIndexPartitionRanges root.indexSlots.toNat with
    | .error error => .error (indexLayoutMetadataError error)
    | .ok _ =>
      let expectedIndexPages := (root.indexSlots.toNat + 503) / indexImageSlotsPerPage
      if root.dataSuperblockGeneration = 0 ∨ root.imageGeneration = 0
          ∨ root.indexPageCount.toNat ≠ expectedIndexPages
          ∨ root.regionSize.toNat < recoveryPageSize
          ∨ root.regionSize.toNat > maxPackedRegionSize
          ∨ root.regionSize.toNat % recoveryPageSize ≠ 0
          ∨ root.regionCount = 0
          ∨ root.regionCount.toNat > maxPackedRegionCount
          ∨ root.partitionCount = 0
          ∨ root.partitionCount.toNat > maxIndexPartitions
          ∨ isPowerOfTwo root.partitionCount.toNat = false
          ∨ root.partitionCount.toNat > root.indexPageCount.toNat
          ∨ root.shardCount = 0
          ∨ root.shardCount.toNat > maxShards
          ∨ root.shardCount ≥ root.regionCount
          ∨ root.maxSeqno.toNat = 2 ^ 64 - 1
          ∨ root.activeRegionCount ≠ root.shardCount
          ∨ ((Word.checkedAdd 32 root.freeRegionCount.toNat root.activeRegionCount.toNat).bind
              fun count => Word.checkedAdd 32 count root.sealedRegionCount.toNat) ≠
              some root.regionCount.toNat then
        .error (.invalidField "root")
      else do
        let partitionFirstPage ← orArithmeticOverflow
          (Word.checkedAdd 32 layout.regionFirstPage.toNat layout.regionPageCount.toNat)
        if layout.regionFirstPage.toNat ≠ 1 ∨
            layout.partitionFirstPage.toNat ≠ partitionFirstPage then
          .error (.invalidField "section_directory")
        else .ok ()

/-- The number of Regions in a state, according to the root. -/
def RegionMetadataRoot.stateCount (root : RegionMetadataRoot) : RegionState → BitVec 32
  | .free => root.freeRegionCount
  | .active => root.activeRegionCount
  | .sealed => root.sealedRegionCount

/-- Whether so many records fit into so many bytes. -/
def minimumBytesFit (count bytes : ℕ) : Except RegionMetadataError Bool := do
  let needed ← orArithmeticOverflow (Word.checkedMul 64 count minEncodedRecordSize)
  .ok (decide (needed ≤ bytes))

/-- Checks one Region and marks its ordinal. -/
def validateRegion (root : RegionMetadataRoot) (seen : RegionState → List Bool)
    (region : RegionMetadataRecord) : Except RegionMetadataError (RegionState → List Bool) :=
  if region.durableUsedOffset > root.regionSize ∨ region.durableUsedOffset.toNat % 32 ≠ 0 then
    .error (.invalidField "region_geometry")
  else if region.queueOrdinal ≥ root.stateCount region.state ∨
      (seen region.state).getD region.queueOrdinal.toNat false then
    .error (.invalidField "region_queue_ordinal")
  else
    let seen := Function.update seen region.state
      ((seen region.state).set region.queueOrdinal.toNat true)
    if region.state = .free then
      if region.createdSeqno ≠ 0 ∨ region.durableUsedOffset ≠ 0 ∨
          region.physicalRecordCount ≠ 0 then
        .error (.invalidField "free_region")
      else .ok seen
    else
      let empty := decide (region.durableUsedOffset = 0)
      if region.createdSeqno = 0 ∨ region.createdSeqno > root.maxSeqno ∨
          empty ≠ decide (region.physicalRecordCount = 0) then
        .error (.invalidField "allocated_region")
      else do
        let fit ←
          minimumBytesFit region.physicalRecordCount.toNat region.durableUsedOffset.toNat
        if !fit then .error (.invalidField "allocated_region") else .ok seen

/-- Checks Regions one after another. -/
def validateRegionList (root : RegionMetadataRoot) :
    List RegionMetadataRecord → (RegionState → List Bool) →
      Except RegionMetadataError (RegionState → List Bool)
  | [], seen => .ok seen
  | region :: rest, seen => do
    let seen ← validateRegion root seen region
    validateRegionList root rest seen

/-- Checks the Regions and that their ordinals fill the three queues. -/
def validateRegions (root : RegionMetadataRoot) (regions : List RegionMetadataRecord) :
    Except RegionMetadataError Unit := do
  let seen ← validateRegionList root regions fun state =>
    List.replicate (root.stateCount state).toNat false
  if (seen .free ++ seen .active ++ seen .sealed).any (!·) then
    .error (.invalidField "region_queue_permutation")
  else .ok ()

/-- Checks one partition against its place in the directory. -/
def validatePartition (partition : PartitionMetadataRecord) (expected : IndexPartitionRange) :
    Except RegionMetadataError Unit :=
  if partition.partitionId.toNat ≠ expected.partitionId ∨
      partition.firstIndexPage.toNat ≠ expected.firstPage ∨
      partition.indexPageCount.toNat ≠ expected.pageCount ∨
      partition.firstSlot.toNat ≠ expected.firstSlot ∨
      partition.slotCount.toNat ≠ expected.slotCount then
    .error (.invalidField "canonical_partition_directory")
  else if partition.physicalDeletedSlots ≠ 0 then
    .error (.invalidField "partition_deleted_slots")
  else if partition.physicalValueSlots > partition.slotCount then
    .error (.invalidField "partition")
  else .ok ()

/-- Checks partitions against the directory, one after another. -/
def validatePartitionList :
    List PartitionMetadataRecord → List IndexPartitionRange → Except RegionMetadataError Unit
  | partition :: partitions, expected :: ranges => do
    validatePartition partition expected
    validatePartitionList partitions ranges
  | _, _ => .ok ()

/-- Checks the partitions. -/
def validatePartitions (root : RegionMetadataRoot) (partitions : List PartitionMetadataRecord) :
    Except RegionMetadataError Unit :=
  match canonicalIndexPartitionRanges root.indexSlots.toNat with
  | .error error => .error (indexLayoutMetadataError error)
  | .ok canonical =>
    if canonical.length ≠ partitions.length then
      .error (.invalidField "canonical_partition_directory")
    else validatePartitionList partitions canonical

/-- Checks a table. -/
def RegionMetadata.validate (metadata : RegionMetadata) : Except RegionMetadataError Unit := do
  let layout ← MetadataLayout.new metadata.root.regionCount metadata.root.partitionCount
  validateRootDirectory metadata.root layout
  if metadata.regions.length ≠ metadata.root.regionCount.toNat then
    .error (.invalidField "region_count")
  else if metadata.partitions.length ≠ metadata.root.partitionCount.toNat then
    .error (.invalidField "partition_count")
  else do
    validateRegions metadata.root metadata.regions
    validatePartitions metadata.root metadata.partitions

/-! ## Append shards -/

/-- Seals an Active Region whose shard is no longer there, at the back of the sealed queue. -/
def shrinkRegion (shardCount : BitVec 32) (firstNewSealed : ℕ) (region : RegionMetadataRecord) :
    RegionMetadataRecord × Option RegionMetadataError :=
  if region.state = .active ∧ region.queueOrdinal ≥ shardCount then
    let removedOrdinal := region.queueOrdinal.toNat - shardCount.toNat
    let region := { region with state := .sealed }
    match Word.checkedAdd 32 firstNewSealed removedOrdinal with
    | none => (region, some .arithmeticOverflow)
    | some ordinal => ({ region with queueOrdinal := BitVec.ofNat 32 ordinal }, none)
  else (region, none)

/-- Activates a Region at the back of the free queue for a shard that is added. -/
def growRegion (oldShardCount : BitVec 32) (freeRegionCount firstSeqno : ℕ)
    (region : RegionMetadataRecord) : RegionMetadataRecord × Option RegionMetadataError :=
  if region.state = .free ∧ region.queueOrdinal.toNat ≥ freeRegionCount then
    let addedOrdinal := region.queueOrdinal.toNat - freeRegionCount
    let region := { region with state := .active }
    match Word.checkedAdd 32 oldShardCount.toNat addedOrdinal with
    | none => (region, some .arithmeticOverflow)
    | some ordinal =>
      let region := { region with queueOrdinal := BitVec.ofNat 32 ordinal }
      match Word.checkedAdd 64 firstSeqno addedOrdinal with
      | none => (region, some .arithmeticOverflow)
      | some seqno => ({ region with createdSeqno := BitVec.ofNat 64 seqno }, none)
  else (region, none)

namespace RegionMetadata

/-- Computations on a table. -/
abbrev MetadataM := EStateM RegionMetadataError RegionMetadata

/-- Updates every Region in place. -/
def forRegions (body : RegionMetadataRecord → RegionMetadataRecord × Option RegionMetadataError) :
    MetadataM Unit := fun metadata =>
  let metadata' := { metadata with regions := (forEachMut body metadata.regions).1 }
  match (forEachMut body metadata.regions).2 with
  | none => .ok () metadata'
  | some error => .error error metadata'

/-- Validates the table in place. -/
def revalidate : MetadataM Unit := fun metadata =>
  match metadata.validate with
  | .ok () => .ok () metadata
  | .error error => .error error metadata

/-- Rebinds the Active Regions to another number of append shards. Shrinking seals the Regions of
the shards that go; growing activates Regions from the back of the free queue. -/
def rebindAppendShards (shardCount : BitVec 32) : MetadataM Unit := do
  let root := (← get).root
  let oldShardCount := root.shardCount
  if shardCount = oldShardCount then pure ()
  else if shardCount = 0 ∨ shardCount.toNat > maxShards ∨ shardCount ≥ root.regionCount then
    throw (.invalidField "append_shards")
  else if shardCount < oldShardCount then do
    let removed := oldShardCount.toNat - shardCount.toNat
    let firstNewSealed := root.sealedRegionCount.toNat
    let sealedRegionCount ←
      okOr .arithmeticOverflow (Word.checkedAdd 32 firstNewSealed removed)
    forRegions (shrinkRegion shardCount firstNewSealed)
    modify fun metadata => { metadata with root := { metadata.root with
      shardCount
      activeRegionCount := shardCount
      sealedRegionCount := BitVec.ofNat 32 sealedRegionCount } }
    revalidate
  else do
    let added := shardCount.toNat - oldShardCount.toNat
    let freeRegionCount ← okOr (.invalidField "append_shards_free_capacity")
      (Word.checkedSub root.freeRegionCount.toNat added)
    let maxSeqno ← okOr .arithmeticOverflow
      ((Word.checkedAdd 64 root.maxSeqno.toNat added).filter (· ≠ 2 ^ 64 - 1))
    let firstSeqno ← okOr .arithmeticOverflow (Word.checkedAdd 64 root.maxSeqno.toNat 1)
    forRegions (growRegion oldShardCount freeRegionCount firstSeqno)
    modify fun metadata => { metadata with root := { metadata.root with
      shardCount
      activeRegionCount := shardCount
      freeRegionCount := BitVec.ofNat 32 freeRegionCount
      maxSeqno := BitVec.ofNat 64 maxSeqno } }
    revalidate

end RegionMetadata

/-! ## What the validation establishes -/

/-- What a Region's own fields satisfy. -/
structure RegionValid (root : RegionMetadataRoot) (region : RegionMetadataRecord) : Prop where
  used_le : region.durableUsedOffset.toNat ≤ root.regionSize.toNat
  used_aligned : region.durableUsedOffset.toNat % 32 = 0
  ordinal_lt : region.queueOrdinal.toNat < (root.stateCount region.state).toNat
  count_le : region.physicalRecordCount.toNat * 64 ≤ region.durableUsedOffset.toNat
  free_zero : region.state = .free → region.createdSeqno = 0 ∧ region.durableUsedOffset = 0
  created_pos : region.state ≠ .free → 0 < region.createdSeqno.toNat
  created_le : region.createdSeqno.toNat ≤ root.maxSeqno.toNat

/-- A valid table. -/
structure RegionMetadata.Valid (metadata : RegionMetadata) : Prop where
  regionSize_le : metadata.root.regionSize.toNat ≤ maxPackedRegionSize
  regionSize_aligned : metadata.root.regionSize.toNat % 4096 = 0
  regionCount_le : metadata.root.regionCount.toNat ≤ maxPackedRegionCount
  shardCount_pos : 0 < metadata.root.shardCount.toNat
  shardCount_le : metadata.root.shardCount.toNat ≤ maxShards
  shardCount_lt : metadata.root.shardCount.toNat < metadata.root.regionCount.toNat
  maxSeqno_lt : metadata.root.maxSeqno.toNat < 2 ^ 64 - 1
  active_eq : metadata.root.activeRegionCount = metadata.root.shardCount
  counts : metadata.root.freeRegionCount.toNat + metadata.root.activeRegionCount.toNat +
    metadata.root.sealedRegionCount.toNat = metadata.root.regionCount.toNat
  length_regions : metadata.regions.length = metadata.root.regionCount.toNat
  regions : ∀ region ∈ metadata.regions, RegionValid metadata.root region
  ordinals_ne : metadata.regions.Pairwise fun a b =>
    a.state = b.state → a.queueOrdinal ≠ b.queueOrdinal
  ordinals_all : ∀ state, ∀ k < (metadata.root.stateCount state).toNat,
    ∃ region ∈ metadata.regions, region.state = state ∧ region.queueOrdinal.toNat = k

/-- What a Region that passes satisfies, and what is marked for it. -/
lemma validateRegion_eq_ok {root : RegionMetadataRoot} {seen seen' : RegionState → List Bool}
    {region : RegionMetadataRecord} (h : validateRegion root seen region = .ok seen') :
    RegionValid root region ∧
      (seen region.state).getD region.queueOrdinal.toNat false = false ∧
      seen' = Function.update seen region.state
        ((seen region.state).set region.queueOrdinal.toNat true) := by
  unfold validateRegion at h
  rw [ite_error_eq_ok, ite_error_eq_ok] at h
  obtain ⟨hgeometry, hordinal, h⟩ := h
  simp only [not_or, gt_iff_lt, BitVec.not_lt, not_not, ge_iff_le, BitVec.not_le,
    Bool.not_eq_true] at hgeometry hordinal
  obtain ⟨hused, haligned⟩ := hgeometry
  rw [BitVec.le_def] at hused
  rw [BitVec.lt_def] at hordinal
  dsimp only at h
  split_ifs at h with hfree hzero halloc
  · simp only [not_or, not_not] at hzero
    obtain ⟨hcreated, hzero, hcount⟩ := hzero
    refine ⟨⟨hused, haligned, hordinal.1, by simp [hcount], fun _ => ⟨hcreated, hzero⟩,
      fun hne => absurd hfree hne, by simp [hcreated]⟩, hordinal.2, by simpa using h.symm⟩
  · simp only [not_or, not_not, gt_iff_lt, BitVec.not_lt] at halloc
    obtain ⟨hcreated, hmax, -⟩ := halloc
    rw [except_bind_eq_ok] at h
    obtain ⟨fit, hfit, h⟩ := h
    rw [ite_error_eq_ok] at h
    obtain ⟨hfits, h⟩ := h
    rw [minimumBytesFit, except_bind_eq_ok] at hfit
    obtain ⟨needed, hneeded, hfit⟩ := hfit
    rw [orArithmeticOverflow_eq_ok, Word.checkedMul_eq_some] at hneeded
    have hbytes : region.physicalRecordCount.toNat * 64 ≤ region.durableUsedOffset.toNat := by
      rw [Except.ok.injEq] at hfit
      rw [← hfit, Bool.not_eq_true', decide_eq_false_iff_not, not_not, hneeded.2] at hfits
      exact hfits
    rw [BitVec.le_def] at hmax
    refine ⟨⟨hused, haligned, hordinal.1, hbytes, fun hf => absurd hf hfree, fun _ => ?_, hmax⟩,
      hordinal.2, by simpa using h.symm⟩
    rw [Nat.pos_iff_ne_zero]
    intro hz
    exact hcreated (BitVec.eq_of_toNat_eq (by simpa using hz))

/-- The flags after marking one ordinal. -/
private lemma marked_iff {seen : RegionState → List Bool} {state : RegionState} {ordinal : ℕ}
    (hlt : ordinal < (seen state).length) (s : RegionState) (k : ℕ) :
    (Function.update seen state ((seen state).set ordinal true) s)[k]? = some true ↔
      (seen s)[k]? = some true ∨ (state = s ∧ ordinal = k) := by
  by_cases hs : s = state
  · subst hs
    rw [Function.update_self, List.getElem?_set]
    split_ifs with hk
    · simp [hk]
    · simp [hk]
  · rw [Function.update_of_ne hs]
    simp [Ne.symm hs]

/-- Checking Regions marks exactly their ordinals, none of them twice.

**Proof sketch.** Induction over the Regions. A Region that passes had its flag down; a later
Region with the same state and ordinal would find it up. -/
lemma validateRegionList_eq_ok {root : RegionMetadataRoot} :
    ∀ {regions : List RegionMetadataRecord} {seen seen' : RegionState → List Bool},
      validateRegionList root regions seen = .ok seen' →
      (∀ state, (seen state).length = (root.stateCount state).toNat) →
      (∀ state, (seen' state).length = (root.stateCount state).toNat) ∧
      (∀ region ∈ regions, RegionValid root region ∧
        (seen region.state)[region.queueOrdinal.toNat]? ≠ some true) ∧
      (regions.Pairwise fun a b => a.state = b.state → a.queueOrdinal ≠ b.queueOrdinal) ∧
      ∀ state k, (seen' state)[k]? = some true ↔ (seen state)[k]? = some true ∨
        ∃ region ∈ regions, region.state = state ∧ region.queueOrdinal.toNat = k := by
  intro regions
  induction regions with
  | nil =>
    intro seen seen' h hlen
    rw [validateRegionList, Except.ok.injEq] at h
    subst h
    exact ⟨hlen, by simp, .nil, by simp⟩
  | cons region rest ih =>
    intro seen seen' h hlen
    rw [validateRegionList, except_bind_eq_ok] at h
    obtain ⟨marked, hregion, hrest⟩ := h
    obtain ⟨hvalid, hdown, rfl⟩ := validateRegion_eq_ok hregion
    have hlt : region.queueOrdinal.toNat < (seen region.state).length := by
      rw [hlen]
      exact hvalid.ordinal_lt
    have hmarked := marked_iff hlt
    obtain ⟨hlen', hall, hpair, hiff⟩ := ih hrest (fun state => by
      rw [← hlen state, Function.update_apply]
      split_ifs with hs
      · rw [List.length_set, hs]
      · rfl)
    refine ⟨hlen', ?_, ?_, ?_⟩
    · intro r hr
      rcases List.mem_cons.1 hr with rfl | hr
      · refine ⟨hvalid, ?_⟩
        rw [List.getD_eq_getElem?_getD] at hdown
        intro hup
        rw [hup] at hdown
        cases hdown
      · refine ⟨(hall r hr).1, fun hup => (hall r hr).2 ?_⟩
        rw [hmarked]
        exact .inl hup
    · refine List.pairwise_cons.2 ⟨fun r hr hstate hord => (hall r hr).2 ?_, hpair⟩
      rw [hmarked]
      exact .inr ⟨hstate, by rw [hord]⟩
    · intro state k
      rw [hiff, hmarked]
      simp only [List.mem_cons, exists_eq_or_imp, or_assoc]

/-- Flags that are all up. -/
private lemma all_marked {flags : List Bool} (h : flags.any (!·) = false) {k : ℕ}
    (hk : k < flags.length) : flags[k]? = some true := by
  rw [List.any_eq_false] at h
  rw [List.getElem?_eq_getElem hk, Option.some.injEq]
  simpa using h flags[k] (List.getElem_mem hk)

/-- Accepted Regions are valid, with ordinals that fill the queues. -/
lemma validateRegions_eq_ok {root : RegionMetadataRoot} {regions : List RegionMetadataRecord}
    (h : validateRegions root regions = .ok ()) :
    (∀ region ∈ regions, RegionValid root region) ∧
      (regions.Pairwise fun a b => a.state = b.state → a.queueOrdinal ≠ b.queueOrdinal) ∧
      ∀ state, ∀ k < (root.stateCount state).toNat,
        ∃ region ∈ regions, region.state = state ∧ region.queueOrdinal.toNat = k := by
  rw [validateRegions, except_bind_eq_ok] at h
  obtain ⟨seen, hlist, h⟩ := h
  rw [ite_error_eq_ok, Bool.not_eq_true, List.any_append, List.any_append, Bool.or_eq_false_iff,
    Bool.or_eq_false_iff] at h
  obtain ⟨⟨⟨hfree, hactive⟩, hsealed⟩, -⟩ := h
  obtain ⟨hlen, hall, hpair, hiff⟩ := validateRegionList_eq_ok hlist (by simp)
  refine ⟨fun region hr => (hall region hr).1, hpair, fun state k hk => ?_⟩
  have hup : (seen state)[k]? = some true := by
    refine all_marked ?_ (by rw [hlen]; exact hk)
    cases state
    · exact hfree
    · exact hactive
    · exact hsealed
  rcases (hiff state k).1 hup with hold | hregion
  · rw [List.getElem?_replicate] at hold
    split_ifs at hold
    cases hold
  · exact hregion

/-- What the check of the root establishes. -/
structure RootValid (root : RegionMetadataRoot) : Prop where
  indexPages : root.indexPageCount.toNat = (root.indexSlots.toNat + 503) / 504
  regionSize_le : root.regionSize.toNat ≤ maxPackedRegionSize
  regionSize_aligned : root.regionSize.toNat % 4096 = 0
  regionCount_le : root.regionCount.toNat ≤ maxPackedRegionCount
  partitionCount_le : root.partitionCount.toNat ≤ maxIndexPartitions
  shardCount_pos : 0 < root.shardCount.toNat
  shardCount_le : root.shardCount.toNat ≤ maxShards
  shardCount_lt : root.shardCount.toNat < root.regionCount.toNat
  maxSeqno_lt : root.maxSeqno.toNat < 2 ^ 64 - 1
  active_eq : root.activeRegionCount = root.shardCount
  counts : root.freeRegionCount.toNat + root.activeRegionCount.toNat +
    root.sealedRegionCount.toNat = root.regionCount.toNat
  imageGeneration_ne : root.imageGeneration ≠ 0
  ranges : ∃ ranges, canonicalIndexPartitionRanges root.indexSlots.toNat = .ok ranges ∧
    ∀ range ∈ ranges, range.slotCount < 2 ^ 32

/-- The index layout of an accepted root. -/
lemma validatedIndexPartitionRanges_eq_ok {slotCount : ℕ} {ranges : List IndexPartitionRange}
    (h : validatedIndexPartitionRanges slotCount = .ok ranges) :
    canonicalIndexPartitionRanges slotCount = .ok ranges ∧
      ∀ range ∈ ranges, range.slotCount < 2 ^ 32 := by
  rw [validatedIndexPartitionRanges, except_bind_eq_ok] at h
  obtain ⟨ranges', hranges, h⟩ := h
  rw [ite_error_eq_ok, Except.ok.injEq] at h
  obtain ⟨hfit, rfl⟩ := h
  refine ⟨hranges, fun range hr => ?_⟩
  rw [List.any_eq_true, not_exists] at hfit
  have := hfit range
  simp only [decide_eq_true_eq, not_and, Nat.not_lt] at this
  have := this hr
  omega

/-- What an accepted root satisfies. -/
lemma validateRootDirectory_eq_ok {root : RegionMetadataRoot} {layout : MetadataLayout}
    (h : validateRootDirectory root layout = .ok ()) : RootValid root := by
  rw [validateRootDirectory, ite_error_eq_ok] at h
  obtain ⟨-, h⟩ := h
  cases hranges : validatedIndexPartitionRanges root.indexSlots.toNat with
  | error e => rw [hranges] at h; cases h
  | ok ranges =>
    rw [hranges] at h
    dsimp only at h
    rw [ite_error_eq_ok] at h
    obtain ⟨hroot, -⟩ := h
    simp only [not_or, not_not, Nat.not_lt, ge_iff_le, BitVec.not_le, gt_iff_lt] at hroot
    obtain ⟨-, himage, hpages, -, hsize, haligned, -, hcount, -, hpart, -, -, hshard, hshards, hlt,
      hmax, hactive, hsum⟩ := hroot
    rw [BitVec.lt_def] at hlt
    have hpos : root.shardCount.toNat ≠ 0 := fun hz =>
      hshard (BitVec.eq_of_toNat_eq (by simpa using hz))
    rw [Option.bind_eq_some_iff] at hsum
    obtain ⟨partial', hfirst, hsecond⟩ := hsum
    rw [Word.checkedAdd_eq_some] at hfirst hsecond
    have hbound := root.maxSeqno.isLt
    exact ⟨hpages, hsize, haligned, hcount, hpart, by omega, hshards, hlt, by omega, hactive,
      by omega, himage, ranges, validatedIndexPartitionRanges_eq_ok hranges⟩

/-- The checks that an accepted table has passed. -/
lemma RegionMetadata.validate_eq_ok {metadata : RegionMetadata} (h : metadata.validate = .ok ()) :
    ∃ layout,
      MetadataLayout.new metadata.root.regionCount metadata.root.partitionCount = .ok layout ∧
      validateRootDirectory metadata.root layout = .ok () ∧
      metadata.regions.length = metadata.root.regionCount.toNat ∧
      metadata.partitions.length = metadata.root.partitionCount.toNat ∧
      validateRegions metadata.root metadata.regions = .ok () ∧
      validatePartitions metadata.root metadata.partitions = .ok () := by
  rw [RegionMetadata.validate, except_bind_eq_ok] at h
  obtain ⟨layout, hlayout, h⟩ := h
  rw [except_bind_eq_ok] at h
  obtain ⟨⟨⟩, hroot, h⟩ := h
  rw [ite_error_eq_ok, ite_error_eq_ok, not_not, not_not, except_bind_eq_ok] at h
  obtain ⟨hregions, hpartitions, ⟨⟩, hlist, hparts⟩ := h
  exact ⟨layout, hlayout, hroot, hregions, hpartitions, hlist, hparts⟩

/-- **Validation.** An accepted table is valid. -/
theorem RegionMetadata.valid_of_validate {metadata : RegionMetadata}
    (h : metadata.validate = .ok ()) : metadata.Valid := by
  obtain ⟨layout, -, hroot, hlen, -, hregions, -⟩ := validate_eq_ok h
  have hr := validateRootDirectory_eq_ok hroot
  obtain ⟨hvalid, hpair, hall⟩ := validateRegions_eq_ok hregions
  exact ⟨hr.regionSize_le, hr.regionSize_aligned, hr.regionCount_le, hr.shardCount_pos,
    hr.shardCount_le, hr.shardCount_lt, hr.maxSeqno_lt, hr.active_eq, hr.counts, hlen, hvalid,
    hpair, hall⟩

end Cache2

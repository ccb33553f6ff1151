import Cache2.Recovery.Format
import Cache2.Region.Manager

set_option relaxedAutoImplicit false
set_option autoImplicit false

/-!
# Freezing and restarting the Region manager

A clean close freezes the manager into a metadata table, a recovery rebinds the table to the
configured number of append shards and builds a manager from it, and a cold start builds one from
the table of an empty data file (`region/manager.rs`, `region/recovery/metadata.rs` and
`region/persistence/mod.rs`).

## Main definitions

* `Cache2.RegionManager.fromMetadata`, `Cache2.RegionManager.freezeMetadata` — from a table, and
  into one.
* `Cache2.emptyRegionMetadata` — the table of an empty data file.
* `Cache2.RecoveredFrom` — how a manager reflects the table it was built from.

## Main results

* `Cache2.RegionManager.fromMetadata_eq_ok` — a manager built from a table has exactly the
  Regions of each state in the queue of that state, in the order of the table.
* `Cache2.RegionManager.freezeMetadata_eq_ok` — a frozen table is valid and describes every Region.
* `Cache2.RegionMetadata.rebindAppendShards_eq_ok` — what rebinding does to each Region.
-/

namespace Cache2

open Loop

/-! ## From a table -/

/-- The id that no Region has. -/
def unassignedRegion : ℕ := 2 ^ 32 - 1

/-- Puts a Region into the queue of its state. -/
def installRecoveredQueueEntry (state : RegionState) (ordinal regionId : ℕ)
    (queues : RegionState → List ℕ) : Except RegionMetadataError (RegionState → List ℕ) :=
  match (queues state)[ordinal]? with
  | none => .error (.invalidField "region_queue_ordinal")
  | some slot =>
    if slot ≠ unassignedRegion then .error (.invalidField "region_queue_ordinal")
    else .ok (Function.update queues state ((queues state).set ordinal regionId))

/-- Puts Regions into their queues, one after another from the given id on. -/
def installRecoveredQueues : List RegionMetadataRecord → ℕ → (RegionState → List ℕ) →
    Except RegionMetadataError (RegionState → List ℕ)
  | [], _, queues => .ok queues
  | encoded :: rest, regionId, queues => do
    let id ← orArithmeticOverflow (tryU32 regionId)
    let queues ← installRecoveredQueueEntry encoded.state encoded.queueOrdinal.toNat id queues
    installRecoveredQueues rest (regionId + 1) queues

/-- A Region without outstanding writes. -/
def RegionMetadataRecord.desc (encoded : RegionMetadataRecord) : RegionDesc where
  state := encoded.state
  createdSeqno := encoded.createdSeqno.toNat
  completedUsed := encoded.durableUsedOffset.toNat
  reservedUsed := encoded.durableUsedOffset.toNat
  physicalRecordCount := encoded.physicalRecordCount.toNat

namespace RegionManager

/-- Builds a manager from a table. -/
def fromMetadata (metadata : RegionMetadata) : Except RegionMetadataError RegionManager := do
  metadata.validate
  let root := metadata.root
  let sealedCapacity ←
    orArithmeticOverflow (Word.checkedSub root.regionCount.toNat root.shardCount.toNat)
  let queues ← installRecoveredQueues metadata.regions 0 fun
    | .active => List.replicate root.shardCount.toNat unassignedRegion
    | .free => List.replicate root.freeRegionCount.toNat unassignedRegion
    | .sealed => List.replicate root.sealedRegionCount.toNat unassignedRegion
  let regions := metadata.regions.map RegionMetadataRecord.desc
  if regions.length ≠ root.regionCount.toNat ∨ unassignedRegion ∈ queues .active ∨
      unassignedRegion ∈ queues .free ∨ unassignedRegion ∈ queues .sealed then
    .error (.invalidField "region_queue_permutation")
  else do
    let nextSeqno ← orArithmeticOverflow (Word.checkedAdd 64 root.maxSeqno.toNat 1)
    .ok {
      binding := ⟨root.cacheUuid, root.dataIdentity, root.dataSuperblockGeneration,
        root.imageIdentity, root.imageGeneration, root.storageFingerprint⟩
      regionSize := root.regionSize.toNat
      nextSeqno
      regions
      activeRegions := queues .active
      appendStates := List.replicate root.shardCount.toNat {}
      freeRegions := queues .free
      sealedRegions := queues .sealed
      reclaiming := []
      reclaimLimit := 1
      queueCapacity := sealedCapacity
      rotations := 0
      freeCapacity := max root.freeRegionCount.toNat root.shardCount.toNat
      sealedCapacity
      reclaimingCapacity := 1 }

/-! ## Into a table -/

/-- Sums over the partitions. -/
structure PartitionTotals where
  partitionCount : ℕ
  pageCount : ℕ
  slotCount : ℕ
  deriving DecidableEq, Repr

/-- Adds partitions to the totals. -/
def PartitionTotals.add : List PartitionMetadataRecord → PartitionTotals →
    Except RegionMetadataError PartitionTotals
  | [], totals => .ok totals
  | partition :: rest, totals => do
    let pageCount ← orArithmeticOverflow
      (Word.checkedAdd 64 totals.pageCount partition.indexPageCount.toNat)
    let slotCount ← orArithmeticOverflow
      (Word.checkedAdd 64 totals.slotCount partition.slotCount.toNat)
    PartitionTotals.add rest { totals with pageCount, slotCount }

/-- The totals of all partitions. -/
def PartitionTotals.fromRecords (partitions : List PartitionMetadataRecord) :
    Except RegionMetadataError PartitionTotals := do
  let partitionCount ← orArithmeticOverflow (tryU32 partitions.length)
  PartitionTotals.add partitions ⟨partitionCount, 0, 0⟩

/-- Writes the ordinals of a queue, one after another from the given one on. -/
def installLiveQueue (regions : List RegionDesc) (expected : RegionState) :
    List ℕ → ℕ → List ℕ → Except RegionMetadataError (List ℕ)
  | [], _, ordinals => .ok ordinals
  | regionId :: rest, ordinal, ordinals =>
    match regions[regionId]? with
    | none => .error (.invalidField "live_region_queue")
    | some region => do
      let slot ← orArithmeticOverflow (tryU32 ordinal)
      if region.state ≠ expected ∨ ordinals.getD regionId 0 ≠ unassignedRegion then
        .error (.invalidField "live_region_queue_permutation")
      else installLiveQueue regions expected rest (ordinal + 1) (ordinals.set regionId slot)

/-- The position of every Region in its queue. -/
def freezeQueueOrdinals (m : RegionManager) : Except RegionMetadataError (List ℕ) := do
  let ordinals := List.replicate m.regions.length unassignedRegion
  let ordinals ← installLiveQueue m.regions .active m.activeRegions 0 ordinals
  let ordinals ← installLiveQueue m.regions .free m.freeRegions 0 ordinals
  let ordinals ← installLiveQueue m.regions .sealed m.sealedRegions 0 ordinals
  if unassignedRegion ∈ ordinals then
    .error (.invalidField "live_region_queue_permutation")
  else .ok ordinals

/-- The record of a Region without outstanding writes. -/
def freezeRegion (ordinals : List ℕ) (region : RegionDesc) (expectedId : ℕ) :
    Except RegionMetadataError RegionMetadataRecord :=
  if region.reservedUsed ≠ region.completedUsed then
    .error (.invalidField "live_region_authority")
  else .ok {
    state := region.state
    queueOrdinal := BitVec.ofNat 32 (ordinals.getD expectedId 0)
    createdSeqno := BitVec.ofNat 64 region.createdSeqno
    durableUsedOffset := BitVec.ofNat 64 region.completedUsed
    physicalRecordCount := BitVec.ofNat 64 region.physicalRecordCount }

/-- The records of Regions, from the given id on. -/
def freezeRegions (ordinals : List ℕ) : List RegionDesc → ℕ →
    Except RegionMetadataError (List RegionMetadataRecord)
  | [], _ => .ok []
  | region :: rest, expectedId => do
    let record ← freezeRegion ordinals region expectedId
    let records ← freezeRegions ordinals rest (expectedId + 1)
    .ok (record :: records)

/-- Freezes a manager without outstanding work into a table. -/
def freezeMetadata (m : RegionManager) (partitions : List PartitionMetadataRecord) :
    Except RegionMetadataError RegionMetadata :=
  if m.reclaiming ≠ [] ∨ m.appendStates.any (fun shard => !shard.isQuiescent) then
    .error (.invalidField "live_region_authority")
  else do
    let totals ← PartitionTotals.fromRecords partitions
    let ordinals ← m.freezeQueueOrdinals
    let records ← freezeRegions ordinals m.regions 0
    let regionCount ← orArithmeticOverflow (tryU32 m.regions.length)
    let shardCount ← orArithmeticOverflow (tryU32 m.activeRegions.length)
    let freeRegionCount ← orArithmeticOverflow (tryU32 m.freeRegions.length)
    let sealedRegionCount ← orArithmeticOverflow (tryU32 m.sealedRegions.length)
    let maxSeqno ← orArithmeticOverflow (Word.checkedSub m.nextSeqno 1)
    let metadata : RegionMetadata := {
      root := {
        cacheUuid := m.binding.cacheUuid
        dataIdentity := m.binding.dataIdentity
        dataSuperblockGeneration := m.binding.dataSuperblockGeneration
        imageIdentity := m.binding.imageIdentity
        imageGeneration := m.binding.imageGeneration
        storageFingerprint := m.binding.storageFingerprint
        indexSlots := BitVec.ofNat 64 totals.slotCount
        indexPageCount := BitVec.ofNat 64 totals.pageCount
        regionSize := BitVec.ofNat 64 m.regionSize
        regionCount := BitVec.ofNat 32 regionCount
        partitionCount := BitVec.ofNat 32 totals.partitionCount
        shardCount := BitVec.ofNat 32 shardCount
        maxSeqno := BitVec.ofNat 64 maxSeqno
        freeRegionCount := BitVec.ofNat 32 freeRegionCount
        activeRegionCount := BitVec.ofNat 32 shardCount
        sealedRegionCount := BitVec.ofNat 32 sealedRegionCount }
      regions := records
      partitions }
    metadata.validate
    .ok metadata

end RegionManager

/-! ## The table of an empty data file -/

/-- The record of a partition without slots in use. -/
def partitionMetadataFromStats (range : IndexPartitionRange) (stats : IndexPhysicalStats) :
    Except IoError PartitionMetadataRecord :=
  if range.partitionId ≥ 2 ^ 32 then .error (ioError .invalidInput "partition id is too large")
  else .ok {
    partitionId := BitVec.ofNat 32 range.partitionId
    firstIndexPage := BitVec.ofNat 64 range.firstPage
    indexPageCount := BitVec.ofNat 64 range.pageCount
    firstSlot := BitVec.ofNat 64 range.firstSlot
    slotCount := BitVec.ofNat 64 range.slotCount
    physicalValueSlots := BitVec.ofNat 64 stats.value
    physicalDeletedSlots := BitVec.ofNat 64 stats.deleted }

/-- The record of a Region of an empty data file: the first ones are Active. -/
def emptyRegion (appendShards regionId : ℕ) : RegionMetadataRecord :=
  if regionId < appendShards then
    ⟨.active, BitVec.ofNat 32 regionId, BitVec.ofNat 64 (regionId + 1), 0, 0⟩
  else ⟨.free, BitVec.ofNat 32 (regionId - appendShards), 0, 0, 0⟩

/-- The table of an empty data file. -/
def emptyRegionMetadata (data : DataSuperblock) (indexSlots : ℕ) (appendShards : BitVec 32) :
    Except IoError RegionMetadata :=
  if appendShards = 0 ∨ data.geometry.regionCount ≤ appendShards then
    .error (ioError .invalidInput "cache requires one Active Region per shard plus one spare")
  else do
    let ranges ← (canonicalIndexPartitionRanges indexSlots).mapError indexStorageIoError
    let indexLen ← ((recoveryImageIndexLen indexSlots).elim
      (.error (ioError .invalidInput "invalid index length")) .ok : Except IoError ℕ)
    let partitions ← ranges.mapM fun range => partitionMetadataFromStats range .default
    if 2 ^ 32 ≤ ranges.length then
      .error (ioError .invalidInput "too many index partitions")
    else do
      let metadata : RegionMetadata := {
        root := {
          cacheUuid := data.cacheUuid
          dataIdentity := data.dataIdentity
          dataSuperblockGeneration := data.generation
          imageIdentity := data.dataIdentity
          imageGeneration := 1
          storageFingerprint := data.storageFingerprint
          indexSlots := BitVec.ofNat 64 indexSlots
          indexPageCount := BitVec.ofNat 64 (indexLen / recoveryPageSize)
          regionSize := data.geometry.regionSize
          regionCount := data.geometry.regionCount
          partitionCount := BitVec.ofNat 32 ranges.length
          shardCount := appendShards
          maxSeqno := BitVec.ofNat 64 appendShards.toNat
          freeRegionCount := data.geometry.regionCount - appendShards
          activeRegionCount := appendShards
          sealedRegionCount := 0 }
        regions :=
          (List.range data.geometry.regionCount.toNat).map (emptyRegion appendShards.toNat)
        partitions }
      metadata.validate.mapError regionMetadataIoError
      .ok metadata

/-- What the table of an empty data file says. -/
structure EmptyTable (metadata : RegionMetadata) : Prop where
  valid : metadata.validate = .ok ()
  regions : metadata.regions = (List.range metadata.root.regionCount.toNat).map
    (emptyRegion metadata.root.shardCount.toNat)
  maxSeqno : metadata.root.maxSeqno.toNat = metadata.root.shardCount.toNat

/-- An empty data file has an empty table. -/
lemma emptyRegionMetadata_eq_ok {data : DataSuperblock} {indexSlots : ℕ}
    {appendShards : BitVec 32} {metadata : RegionMetadata}
    (h : emptyRegionMetadata data indexSlots appendShards = .ok metadata) :
    EmptyTable metadata := by
  rw [emptyRegionMetadata, ite_error_eq_ok] at h
  simp only [except_bind_eq_ok, ite_error_eq_ok, mapError_eq_ok] at h
  obtain ⟨-, ranges, -, indexLen, -, partitions, -, -, ⟨⟩, hvalid, h⟩ := h
  cases h
  refine ⟨hvalid, rfl, ?_⟩
  have := appendShards.isLt
  rw [BitVec.toNat_ofNat, Nat.mod_eq_of_lt (by omega)]

/-! ## What a manager recovers -/

/-- The queues after the Regions below `n` have been put into them. -/
structure QueuesInstalled (regions : List RegionMetadataRecord) (count : RegionState → ℕ) (n : ℕ)
    (queues : RegionState → List ℕ) : Prop where
  length_eq : ∀ state, (queues state).length = count state
  entry : ∀ state (k v : ℕ), (queues state)[k]? = some v → v = unassignedRegion ∨
    ∃ region, regions[v]? = some region ∧ region.state = state ∧ region.queueOrdinal.toNat = k
  placed : ∀ (i : ℕ) (region : RegionMetadataRecord), i < n → regions[i]? = some region →
    (queues region.state)[region.queueOrdinal.toNat]? = some i

/-- Putting the Regions into their queues, one after another.

**Proof sketch.** Induction over the Regions that remain. A slot that is filled held no Region
before, so the Regions placed earlier stay where they are. -/
lemma installRecoveredQueues_eq_ok {regions : List RegionMetadataRecord} {count : RegionState → ℕ}
    (hlen : regions.length ≤ unassignedRegion) :
    ∀ {rest : List RegionMetadataRecord} {n : ℕ} {queues queues' : RegionState → List ℕ},
      regions.drop n = rest → n ≤ regions.length → QueuesInstalled regions count n queues →
      installRecoveredQueues rest n queues = .ok queues' →
      QueuesInstalled regions count regions.length queues' := by
  intro rest
  induction rest with
  | nil =>
    intro n queues queues' hdrop hn hinv h
    rw [installRecoveredQueues, Except.ok.injEq] at h
    subst h
    obtain rfl : n = regions.length := by
      have := List.drop_eq_nil_iff.1 hdrop
      omega
    exact hinv
  | cons encoded rest ih =>
    intro n queues queues' hdrop hn hinv h
    have hlt : n < regions.length := by
      by_contra hge
      rw [List.drop_eq_nil_of_le (by omega)] at hdrop
      cases hdrop
    have hn' : regions[n]? = some encoded := by
      rw [← List.head?_drop, hdrop, List.head?_cons]
    rw [installRecoveredQueues, except_bind_eq_ok] at h
    obtain ⟨id, hid, h⟩ := h
    rw [orArithmeticOverflow_eq_ok, RegionManager.tryU32_eq_some] at hid
    obtain ⟨-, rfl⟩ := hid
    rw [except_bind_eq_ok] at h
    obtain ⟨queues₁, hentry, h⟩ := h
    unfold installRecoveredQueueEntry at hentry
    cases hslot : (queues encoded.state)[encoded.queueOrdinal.toNat]? with
    | none => rw [hslot] at hentry; cases hentry
    | some slot =>
      rw [hslot] at hentry
      simp only [ite_error_eq_ok, not_not, Except.ok.injEq] at hentry
      obtain ⟨rfl, rfl⟩ := hentry
      refine ih ?_ hlt ⟨?_, ?_, ?_⟩ h
      · rw [← List.tail_drop, hdrop, List.tail_cons]
      · intro state
        rw [Function.update_apply]
        split_ifs with hs
        · rw [List.length_set, hinv.length_eq, hs]
        · exact hinv.length_eq state
      · intro state k v hv
        rw [Function.update_apply] at hv
        split_ifs at hv with hs
        · rw [List.getElem?_set] at hv
          split_ifs at hv with hk hb
          · obtain rfl : id = v := by simpa using hv
            exact .inr ⟨encoded, hn', hs.symm, hk⟩
          · exact hs ▸ hinv.entry _ k v hv
        · exact hinv.entry state k v hv
      · intro i region hi hregion
        rw [Function.update_apply]
        rcases Nat.lt_succ_iff_lt_or_eq.1 hi with hi | rfl
        · have hold := hinv.placed i region hi hregion
          split_ifs with hs
          · rw [List.getElem?_set, if_neg, ← hs]
            · exact hold
            · -- the slot held no Region
              intro hk
              rw [hs, ← hk, hslot, Option.some.injEq] at hold
              omega
          · exact hold
        · obtain rfl : encoded = region := by simpa [hn'] using hregion
          rw [if_pos rfl, List.getElem?_set_self]
          exact (List.getElem?_eq_some_iff.1 hslot).1

/-- How a manager reflects the table it was built from. -/
structure RecoveredFrom (metadata : RegionMetadata) (m : RegionManager) : Prop where
  regionSize : m.regionSize = metadata.root.regionSize.toNat
  nextSeqno : m.nextSeqno = metadata.root.maxSeqno.toNat + 1
  regions : m.regions = metadata.regions.map RegionMetadataRecord.desc
  appendStates : m.appendStates = List.replicate metadata.root.shardCount.toNat {}
  reclaiming : m.reclaiming = []
  reclaimLimit : m.reclaimLimit = 1
  reclaimingCapacity : m.reclaimingCapacity = 1
  queueCapacity : m.queueCapacity =
    metadata.root.regionCount.toNat - metadata.root.shardCount.toNat
  sealedCapacity : m.sealedCapacity = m.queueCapacity
  freeCapacity : m.freeCapacity =
    max metadata.root.freeRegionCount.toNat metadata.root.shardCount.toNat
  length_active : m.activeRegions.length = metadata.root.shardCount.toNat
  length_free : m.freeRegions.length = metadata.root.freeRegionCount.toNat
  length_sealed : m.sealedRegions.length = metadata.root.sealedRegionCount.toNat
  active : ∀ k i : ℕ, m.activeRegions[k]? = some i ↔ ∃ region, metadata.regions[i]? = some region ∧
    region.state = .active ∧ region.queueOrdinal.toNat = k
  free : ∀ k i : ℕ, m.freeRegions[k]? = some i ↔ ∃ region, metadata.regions[i]? = some region ∧
    region.state = .free ∧ region.queueOrdinal.toNat = k
  sealed : ∀ k i : ℕ, m.sealedRegions[k]? = some i ↔ ∃ region, metadata.regions[i]? = some region ∧
    region.state = .sealed ∧ region.queueOrdinal.toNat = k

/-- The queues before any Region is put into them. -/
def unassignedQueues (root : RegionMetadataRoot) : RegionState → List ℕ
  | .active => List.replicate root.shardCount.toNat unassignedRegion
  | .free => List.replicate root.freeRegionCount.toNat unassignedRegion
  | .sealed => List.replicate root.sealedRegionCount.toNat unassignedRegion

/-- The queues before any Region is put into them have room for all. -/
lemma RegionMetadata.Valid.queuesInstalled_unassigned {metadata : RegionMetadata}
    (hv : metadata.Valid) {queues : RegionState → List ℕ}
    (hqueues : ∀ state, queues state = unassignedQueues metadata.root state) :
    QueuesInstalled metadata.regions (fun state => (metadata.root.stateCount state).toNat) 0
      queues := by
  refine ⟨fun state => ?_, fun state k v hk => ?_, fun i region hi => absurd hi (by omega)⟩
  · rw [hqueues]
    cases state
    · exact List.length_replicate
    · rw [RegionMetadataRoot.stateCount, hv.active_eq]
      exact List.length_replicate
    · exact List.length_replicate
  · rw [hqueues] at hk
    cases state <;> exact .inl (List.eq_of_mem_replicate (List.mem_of_getElem? hk))

/-- A manager is built from a valid table, and reflects it. -/
lemma RegionManager.fromMetadata_eq_ok {metadata : RegionMetadata} {m : RegionManager}
    (h : fromMetadata metadata = .ok m) : metadata.Valid ∧ RecoveredFrom metadata m := by
  rw [fromMetadata, except_bind_eq_ok] at h
  obtain ⟨⟨⟩, hvalid, h⟩ := h
  have hv := RegionMetadata.valid_of_validate hvalid
  refine ⟨hv, ?_⟩
  dsimp only at h
  rw [except_bind_eq_ok] at h
  obtain ⟨capacity, hcapacity, h⟩ := h
  rw [orArithmeticOverflow_eq_ok, Word.checkedSub_eq_some] at hcapacity
  obtain ⟨-, rfl⟩ := hcapacity
  rw [except_bind_eq_ok] at h
  obtain ⟨queues, hqueues, h⟩ := h
  rw [ite_error_eq_ok, except_bind_eq_ok] at h
  obtain ⟨hassigned, next, hnext, h⟩ := h
  rw [orArithmeticOverflow_eq_ok, Word.checkedAdd_eq_some] at hnext
  obtain ⟨-, rfl⟩ := hnext
  simp only [not_or, not_not] at hassigned
  obtain ⟨-, hactive, hfree, hsealed⟩ := hassigned
  have hlen : metadata.regions.length ≤ unassignedRegion := by
    rw [hv.length_regions]
    exact hv.regionCount_le.trans (by decide)
  have hinv := installRecoveredQueues_eq_ok hlen rfl (Nat.zero_le _)
    (hv.queuesInstalled_unassigned fun state => by cases state <;> rfl) hqueues
  have hiff : ∀ state, unassignedRegion ∉ queues state → ∀ k i : ℕ, (queues state)[k]? = some i ↔
      ∃ region, metadata.regions[i]? = some region ∧ region.state = state ∧
        region.queueOrdinal.toNat = k := by
    intro state hmem k i
    constructor
    · intro hk
      rcases hinv.entry state k i hk with rfl | hregion
      · exact absurd (List.mem_of_getElem? hk) hmem
      · exact hregion
    · rintro ⟨region, hregion, rfl, rfl⟩
      exact hinv.placed i region (List.getElem?_eq_some_iff.1 hregion).1 hregion
  cases h
  exact ⟨rfl, rfl, rfl, rfl, rfl, rfl, rfl, rfl, rfl, rfl,
    (hinv.length_eq .active).trans (by rw [RegionMetadataRoot.stateCount, hv.active_eq]),
    hinv.length_eq .free, hinv.length_eq .sealed, hiff _ hactive, hiff _ hfree, hiff _ hsealed⟩

/-! ## What freezing and rebinding keep -/

/-- The records of frozen Regions. -/
lemma RegionManager.freezeRegions_eq_ok {ordinals : List ℕ} :
    ∀ {regions : List RegionDesc} {n : ℕ} {records : List RegionMetadataRecord},
      freezeRegions ordinals regions n = .ok records →
      (∀ region ∈ regions, region.reservedUsed = region.completedUsed) ∧
      records = regions.mapIdx fun i region => {
        state := region.state
        queueOrdinal := BitVec.ofNat 32 (ordinals.getD (n + i) 0)
        createdSeqno := BitVec.ofNat 64 region.createdSeqno
        durableUsedOffset := BitVec.ofNat 64 region.completedUsed
        physicalRecordCount := BitVec.ofNat 64 region.physicalRecordCount } := by
  intro regions
  induction regions with
  | nil =>
    intro n records h
    rw [freezeRegions, Except.ok.injEq] at h
    subst h
    exact ⟨by simp, rfl⟩
  | cons region rest ih =>
    intro n records h
    rw [freezeRegions, except_bind_eq_ok] at h
    obtain ⟨record, hrecord, h⟩ := h
    rw [freezeRegion, ite_error_eq_ok, not_not, Except.ok.injEq] at hrecord
    obtain ⟨hdone, rfl⟩ := hrecord
    rw [except_bind_eq_ok] at h
    obtain ⟨records', hrest, h⟩ := h
    cases h
    obtain ⟨hall, rfl⟩ := ih hrest
    refine ⟨by simpa [hdone] using hall, ?_⟩
    rw [List.mapIdx_cons]
    simp only [Nat.add_zero, Nat.add_assoc, Nat.add_comm 1]

/-- What a frozen table says. -/
structure FrozenFrom (m : RegionManager) (metadata : RegionMetadata) : Prop where
  reclaiming : m.reclaiming = []
  quiescent : ∀ shard ∈ m.appendStates, shard.isQuiescent = true
  completed : ∀ region ∈ m.regions, region.reservedUsed = region.completedUsed
  nextSeqno_pos : 0 < m.nextSeqno
  maxSeqno : metadata.root.maxSeqno = BitVec.ofNat 64 (m.nextSeqno - 1)
  regionSize : metadata.root.regionSize = BitVec.ofNat 64 m.regionSize
  shardCount : metadata.root.shardCount.toNat = m.activeRegions.length
  length_regions : metadata.regions.length = m.regions.length
  regions : ∀ (i : ℕ) (region : RegionDesc), m.regions[i]? = some region →
    ∃ record, metadata.regions[i]? = some record ∧ record.state = region.state ∧
      record.createdSeqno = BitVec.ofNat 64 region.createdSeqno ∧
      record.durableUsedOffset = BitVec.ofNat 64 region.completedUsed ∧
      record.physicalRecordCount = BitVec.ofNat 64 region.physicalRecordCount

/-- A frozen table is valid and describes the manager. -/
lemma RegionManager.freezeMetadata_eq_ok {m : RegionManager}
    {partitions : List PartitionMetadataRecord} {metadata : RegionMetadata}
    (h : m.freezeMetadata partitions = .ok metadata) :
    metadata.validate = .ok () ∧ FrozenFrom m metadata := by
  rw [freezeMetadata, ite_error_eq_ok] at h
  obtain ⟨hquiet, h⟩ := h
  simp only [not_or, not_not, List.any_eq_true, Bool.not_eq_true', not_exists, not_and,
    Bool.not_eq_false] at hquiet
  simp only [except_bind_eq_ok, orArithmeticOverflow_eq_ok, tryU32_eq_some,
    Word.checkedSub_eq_some] at h
  obtain ⟨totals, -, ordinals, -, records, hrecords, _, ⟨-, rfl⟩, _, ⟨hshards, rfl⟩, _, ⟨-, rfl⟩, _,
    ⟨-, rfl⟩, _, ⟨hpos, rfl⟩, ⟨⟩, hvalid, h⟩ := h
  cases h
  obtain ⟨hdone, rfl⟩ := freezeRegions_eq_ok hrecords
  refine ⟨hvalid, hquiet.1, hquiet.2, hdone, hpos, rfl, rfl, ?_, ?_, ?_⟩
  · rw [BitVec.toNat_ofNat, Nat.mod_eq_of_lt hshards]
  · exact List.length_mapIdx
  · intro i region hregion
    exact ⟨_, by rw [List.getElem?_mapIdx, hregion]; rfl, rfl, rfl, rfl, rfl⟩

/-- What rebinding does to a Region: nothing, or it seals the Region of a shard that goes, or it
activates a free Region for a shard that is added. -/
inductive ReboundRegion (metadata metadata' : RegionMetadata) (r r' : RegionMetadataRecord) : Prop
  | kept (h : r' = r)
  | sealed (hr : r.state = .active) (hr' : r'.state = .sealed)
      (hcreated : r'.createdSeqno = r.createdSeqno)
      (hused : r'.durableUsedOffset = r.durableUsedOffset)
      (hcount : r'.physicalRecordCount = r.physicalRecordCount)
  | activated (k : ℕ) (hr : r.state = .free) (hr' : r'.state = .active)
      (hordinal : r'.queueOrdinal.toNat = metadata.root.shardCount.toNat + k)
      (hcreated : r'.createdSeqno.toNat = metadata.root.maxSeqno.toNat + 1 + k)
      (hlt : metadata.root.maxSeqno.toNat + 1 + k ≤ metadata'.root.maxSeqno.toNat)
      (hused : r'.durableUsedOffset = r.durableUsedOffset)
      (hcount : r'.physicalRecordCount = r.physicalRecordCount)

/-- How a rebound table relates to the one before. -/
structure ReboundFrom (metadata metadata' : RegionMetadata) : Prop where
  regionSize : metadata'.root.regionSize = metadata.root.regionSize
  length_regions : metadata'.regions.length = metadata.regions.length
  regions : ∀ (i : ℕ) (r : RegionMetadataRecord), metadata.regions[i]? = some r →
    ∃ r', metadata'.regions[i]? = some r' ∧ ReboundRegion metadata metadata' r r'
  maxSeqno : metadata'.root.maxSeqno.toNat = metadata.root.maxSeqno.toNat +
    (metadata'.root.shardCount.toNat - metadata.root.shardCount.toNat)

/-- What sealing the Regions of removed shards does to one of them. -/
lemma reboundRegion_shrink {metadata metadata' : RegionMetadata} {shardCount : BitVec 32} {n : ℕ}
    (r : RegionMetadataRecord) :
    ReboundRegion metadata metadata' r (shrinkRegion shardCount n r).1 := by
  unfold shrinkRegion
  split_ifs with h
  · dsimp only
    cases Word.checkedAdd 32 n (r.queueOrdinal.toNat - shardCount.toNat) with
    | none => exact .sealed h.1 rfl rfl rfl rfl
    | some ordinal => exact .sealed h.1 rfl rfl rfl rfl
  · exact .kept rfl

/-- What activating free Regions for added shards does to one of them. -/
lemma reboundRegion_grow {metadata metadata' : RegionMetadata} {r : RegionMetadataRecord}
    {free : ℕ} (hfree : r.state = .free → r.queueOrdinal.toNat < free +
      (metadata'.root.maxSeqno.toNat - metadata.root.maxSeqno.toNat))
    (hok : (growRegion metadata.root.shardCount free (metadata.root.maxSeqno.toNat + 1) r).2 =
      none) :
    ReboundRegion metadata metadata' r
      (growRegion metadata.root.shardCount free (metadata.root.maxSeqno.toNat + 1) r).1 := by
  unfold growRegion at hok ⊢
  split_ifs at hok ⊢ with h
  · dsimp only at hok ⊢
    cases hordinal : Word.checkedAdd 32 metadata.root.shardCount.toNat
        (r.queueOrdinal.toNat - free) with
    | none => rw [hordinal] at hok; cases hok
    | some ordinal =>
      rw [hordinal] at hok
      dsimp only at hok ⊢
      cases hseqno : Word.checkedAdd 64 (metadata.root.maxSeqno.toNat + 1)
          (r.queueOrdinal.toNat - free) with
      | none => rw [hseqno] at hok; cases hok
      | some seqno =>
        rw [Word.checkedAdd_eq_some] at hordinal hseqno
        obtain ⟨hordinal, rfl⟩ := hordinal
        obtain ⟨hseqno, rfl⟩ := hseqno
        have hbound := hfree h.1
        refine .activated (r.queueOrdinal.toNat - free) h.1 rfl ?_ ?_ (by omega) rfl rfl
        · dsimp only
          rw [BitVec.toNat_ofNat, Nat.mod_eq_of_lt hordinal]
        · dsimp only
          rw [BitVec.toNat_ofNat, Nat.mod_eq_of_lt hseqno]
  · exact .kept rfl

/-- A loop over the Regions succeeds when it does at every Region. -/
lemma RegionMetadata.forRegions_eq_ok
    {body : RegionMetadataRecord → RegionMetadataRecord × Option RegionMetadataError}
    {metadata metadata' : RegionMetadata} (h : forRegions body metadata = .ok () metadata') :
    (∀ r ∈ metadata.regions, (body r).2 = none) ∧
      metadata' = { metadata with regions := metadata.regions.map fun r => (body r).1 } := by
  unfold forRegions at h
  dsimp only at h
  cases hf : (forEachMut body metadata.regions).2 with
  | some error => rw [hf] at h; cases h
  | none =>
    rw [hf] at h
    cases h
    exact ⟨forEachMut_none_of_mem hf, by rw [forEachMut_of_none hf]⟩

/-- A table that is validated in place. -/
lemma RegionMetadata.revalidate_eq_ok {metadata metadata' : RegionMetadata}
    (h : revalidate metadata = .ok () metadata') :
    metadata.validate = .ok () ∧ metadata' = metadata := by
  unfold revalidate at h
  cases hv : metadata.validate with
  | error e => rw [hv] at h; cases h
  | ok u =>
    rw [hv] at h
    cases h
    exact ⟨rfl, rfl⟩

/-- What rebinding a valid table does: the number of shards is the new one, and every Region is
kept, sealed, or activated with a number that no Region had before. -/
lemma RegionMetadata.rebindAppendShards_eq_ok {metadata metadata' : RegionMetadata}
    {shardCount : BitVec 32} (hv : metadata.validate = .ok ())
    (h : rebindAppendShards shardCount metadata = .ok () metadata') :
    metadata'.validate = .ok () ∧ ReboundFrom metadata metadata' := by
  have hvalid := valid_of_validate hv
  unfold rebindAppendShards at h
  rw [get_bind, ite_run] at h
  rcases h with ⟨-, h⟩ | ⟨-, h⟩
  · cases h
    exact ⟨hv, rfl, rfl, fun i r hr => ⟨r, hr, .kept rfl⟩, by omega⟩
  rw [ite_run] at h
  rcases h with ⟨-, h⟩ | ⟨-, h⟩
  · cases h
  rw [ite_run] at h
  rcases h with ⟨hlt, h⟩ | ⟨hge, h⟩
  · -- fewer shards
    rw [okOr_bind_eq_ok] at h
    obtain ⟨_, -, h⟩ := h
    rw [bind_eq_ok] at h
    obtain ⟨⟨⟩, middle, hfor, h⟩ := h
    obtain ⟨-, rfl⟩ := forRegions_eq_ok hfor
    rw [modify_bind] at h
    obtain ⟨hv', rfl⟩ := revalidate_eq_ok h
    rw [BitVec.lt_def] at hlt
    refine ⟨hv', rfl, by simp, fun i r hr => ?_, by dsimp only; omega⟩
    refine ⟨(shrinkRegion shardCount metadata.root.sealedRegionCount.toNat r).1, ?_,
      reboundRegion_shrink r⟩
    dsimp only
    rw [List.getElem?_map, hr]
    rfl
  · -- more shards
    simp only [okOr_bind_eq_ok, Option.filter_eq_some_iff, Word.checkedAdd_eq_some,
      Word.checkedSub_eq_some] at h
    obtain ⟨_, ⟨hroom, rfl⟩, _, ⟨⟨hmax, rfl⟩, -⟩, _, ⟨-, rfl⟩, h⟩ := h
    rw [bind_eq_ok] at h
    obtain ⟨⟨⟩, middle, hfor, h⟩ := h
    obtain ⟨hok, rfl⟩ := forRegions_eq_ok hfor
    rw [modify_bind] at h
    obtain ⟨hv', rfl⟩ := revalidate_eq_ok h
    refine ⟨hv', rfl, by simp, fun i r hr => ?_, ?_⟩
    · refine ⟨_, by dsimp only; rw [List.getElem?_map, hr]; rfl,
        reboundRegion_grow (fun hf => ?_) (hok r (List.mem_of_getElem? hr))⟩
      have hord := (hvalid.regions r (List.mem_of_getElem? hr)).ordinal_lt
      rw [hf, RegionMetadataRoot.stateCount] at hord
      dsimp only
      rw [BitVec.toNat_ofNat, Nat.mod_eq_of_lt hmax]
      omega
    · dsimp only
      rw [BitVec.toNat_ofNat, Nat.mod_eq_of_lt hmax]

/-! ## Restarting -/

/-- The table under the identity of the image it is written to. -/
def RegionMetadata.withImage (metadata : RegionMetadata) (identity : PersistentId)
    (generation : BitVec 64) : RegionMetadata :=
  { metadata with root := { metadata.root with
    imageIdentity := identity
    imageGeneration := generation } }

/-- A clean close followed by a recovery: the manager is frozen, written under the identity of the
image, rebound to the configured number of shards and built again. -/
def RegionManager.restart (m : RegionManager) (partitions : List PartitionMetadataRecord)
    (identity : PersistentId) (generation : BitVec 64) (appendShards : BitVec 32) :
    Except RegionMetadataError RegionManager := do
  let frozen ← m.freezeMetadata partitions
  let image := frozen.withImage identity generation
  image.validate
  match image.rebindAppendShards appendShards with
  | .ok () rebound => fromMetadata rebound
  | .error error _ => .error error

/-- The numbers with which the Active Regions of the shards from the given one on were created. -/
def RegionManager.createdSeqnos (m : RegionManager) (firstShard : ℕ) : List ℕ :=
  (m.activeRegions.drop firstShard).map m.generation

/-- The widths of a manager's words. -/
structure RegionManager.Bounded (m : RegionManager) : Prop where
  regionSize : m.regionSize < 2 ^ 64
  nextSeqno : m.nextSeqno ≤ 2 ^ 64
  regions : ∀ region ∈ m.regions, region.createdSeqno < 2 ^ 64 ∧ region.completedUsed < 2 ^ 64 ∧
    region.physicalRecordCount < 2 ^ 64

/-- What a restart does to a Region. -/
inductive RestartedRegion (m m' : RegionManager) (r r' : RegionDesc) : Prop
  | kept (hstate : r'.state = r.state ∨ (r.state = .active ∧ r'.state = .sealed))
      (hcreated : r'.createdSeqno = r.createdSeqno)
      (hcompleted : r'.completedUsed = r.completedUsed)
      (hreserved : r'.reservedUsed = r.reservedUsed)
      (hcount : r'.physicalRecordCount = r.physicalRecordCount)
  | activated (hr : r.state = .free) (hr' : r'.state = .active)
      (hlow : m.nextSeqno ≤ r'.createdSeqno) (hhigh : r'.createdSeqno < m'.nextSeqno)
      (hcompleted : r'.completedUsed = r.completedUsed)
      (hreserved : r'.reservedUsed = r.reservedUsed)
      (hcount : r'.physicalRecordCount = r.physicalRecordCount)

/-- What a restart keeps, and what it issues. -/
structure Restarted (m m' : RegionManager) : Prop where
  reclaiming : m.reclaiming = []
  quiescent : ∀ shard ∈ m.appendStates, shard.isQuiescent = true
  regionSize : m'.regionSize = m.regionSize
  length_regions : m'.regions.length = m.regions.length
  regions : ∀ (i : ℕ) (r : RegionDesc), m.regions[i]? = some r →
    ∃ r', m'.regions[i]? = some r' ∧ RestartedRegion m m' r r'
  nextSeqno_le : m.nextSeqno ≤ m'.nextSeqno
  issued : m'.createdSeqnos m.activeRegions.length =
    List.range' m.nextSeqno (m'.nextSeqno - m.nextSeqno)

section Restart

variable {m m' : RegionManager} {metadata metadata' : RegionMetadata}

/-- What freezing, rebinding and recovering do to one Region. -/
lemma restartedRegion (hb : m.Bounded) (hf : FrozenFrom m metadata)
    (hnext : metadata.root.maxSeqno.toNat + 1 = m.nextSeqno)
    (hm : m'.nextSeqno = metadata'.root.maxSeqno.toNat + 1) {r : RegionDesc}
    {record record' : RegionMetadataRecord} (hr : r ∈ m.regions) (hstate : record.state = r.state)
    (hcreated : record.createdSeqno = BitVec.ofNat 64 r.createdSeqno)
    (hused : record.durableUsedOffset = BitVec.ofNat 64 r.completedUsed)
    (hcount : record.physicalRecordCount = BitVec.ofNat 64 r.physicalRecordCount)
    (h : ReboundRegion metadata metadata' record record') :
    RestartedRegion m m' r record'.desc := by
  obtain ⟨hbc, hbu, hbn⟩ := hb.regions r hr
  have hdone := hf.completed r hr
  have hcreated' : record.createdSeqno.toNat = r.createdSeqno := by
    rw [hcreated, BitVec.toNat_ofNat, Nat.mod_eq_of_lt hbc]
  have hused' : record.durableUsedOffset.toNat = r.completedUsed := by
    rw [hused, BitVec.toNat_ofNat, Nat.mod_eq_of_lt hbu]
  have hcount' : record.physicalRecordCount.toNat = r.physicalRecordCount := by
    rw [hcount, BitVec.toNat_ofNat, Nat.mod_eq_of_lt hbn]
  cases h with
  | kept h =>
    subst h
    exact .kept (.inl hstate) hcreated' hused' (hused'.trans hdone.symm) hcount'
  | sealed hs hs' hc hu hn =>
    refine .kept (.inr ⟨hstate ▸ hs, hs'⟩) ?_ ?_ ?_ ?_
    · exact (congrArg BitVec.toNat hc).trans hcreated'
    · exact (congrArg BitVec.toNat hu).trans hused'
    · exact ((congrArg BitVec.toNat hu).trans hused').trans hdone.symm
    · exact (congrArg BitVec.toNat hn).trans hcount'
  | activated k hs hs' ho hc hlt hu hn =>
    refine .activated (hstate ▸ hs) hs' ?_ ?_ ?_ ?_ ?_
    · show m.nextSeqno ≤ record'.createdSeqno.toNat
      omega
    · show record'.createdSeqno.toNat < m'.nextSeqno
      omega
    · exact (congrArg BitVec.toNat hu).trans hused'
    · exact ((congrArg BitVec.toNat hu).trans hused').trans hdone.symm
    · exact (congrArg BitVec.toNat hn).trans hcount'

/-- The added shards write to the Regions that rebinding has activated, in order. -/
lemma createdSeqnos_rebound (hv : metadata.Valid) (hb : ReboundFrom metadata metadata')
    (hr : RecoveredFrom metadata' m') :
    m'.createdSeqnos metadata.root.shardCount.toNat =
      List.range' (metadata.root.maxSeqno.toNat + 1)
        (metadata'.root.maxSeqno.toNat - metadata.root.maxSeqno.toNat) := by
  have hmax := hb.maxSeqno
  refine List.ext_getElem? fun k => ?_
  rw [RegionManager.createdSeqnos, List.getElem?_map, List.getElem?_drop]
  cases hk : m'.activeRegions[metadata.root.shardCount.toNat + k]? with
  | none =>
    rw [List.getElem?_eq_none_iff, hr.length_active] at hk
    rw [List.getElem?_eq_none (by rw [List.length_range']; omega)]
    rfl
  | some i =>
    have hlt := (List.getElem?_eq_some_iff.1 hk).1
    rw [hr.length_active] at hlt
    rw [List.getElem?_range' (by omega)]
    obtain ⟨record', hrecord', hstate', hordinal'⟩ := (hr.active _ _).1 hk
    have hi : i < metadata.regions.length := by
      rw [← hb.length_regions]
      exact (List.getElem?_eq_some_iff.1 hrecord').1
    obtain ⟨record'', hrecord'', hrel⟩ := hb.regions i _ (List.getElem?_eq_getElem hi)
    obtain rfl : record' = record'' := by simpa [hrecord'] using hrecord''
    have hdesc : m'.regions[i]? = some record'.desc := by
      rw [hr.regions, List.getElem?_map, hrecord']
      rfl
    simp only [Option.map_some, RegionManager.generation, hdesc, Option.getD_some,
      Option.some.injEq]
    cases hrel with
    | kept h =>
      -- the Regions that were Active before belong to the first shards
      have hord := (hv.regions _ (List.getElem_mem hi)).ordinal_lt
      rw [← h, hstate', RegionMetadataRoot.stateCount, hv.active_eq] at hord
      omega
    | sealed hs hs' hc hu hn =>
      rw [hstate'] at hs'
      cases hs'
    | activated j hs hs' ho hc hlt' hu hn =>
      show record'.createdSeqno.toNat = _
      omega

/-- **Restart.** What a restart that succeeds does to a manager. -/
theorem RegionManager.restart_eq_ok {partitions : List PartitionMetadataRecord}
    {identity : PersistentId} {generation : BitVec 64} {appendShards : BitVec 32} (hb : m.Bounded)
    (h : m.restart partitions identity generation appendShards = .ok m') :
    (∃ metadata', metadata'.Valid ∧ RecoveredFrom metadata' m') ∧ Restarted m m' := by
  rw [restart, except_bind_eq_ok] at h
  obtain ⟨frozen, hfrozen, h⟩ := h
  obtain ⟨-, hf⟩ := freezeMetadata_eq_ok hfrozen
  dsimp only at h
  rw [except_bind_eq_ok] at h
  obtain ⟨⟨⟩, hvalid, h⟩ := h
  cases hrebind : (frozen.withImage identity generation).rebindAppendShards appendShards with
  | error e md => rw [hrebind] at h; cases h
  | ok u rebound =>
    rw [hrebind] at h
    obtain ⟨-, hre⟩ := RegionMetadata.rebindAppendShards_eq_ok hvalid hrebind
    obtain ⟨hv', hr⟩ := fromMetadata_eq_ok h
    have hv := RegionMetadata.valid_of_validate hvalid
    -- the identity of the image does not matter to what was frozen
    have hf' : FrozenFrom m (frozen.withImage identity generation) :=
      ⟨hf.reclaiming, hf.quiescent, hf.completed, hf.nextSeqno_pos, hf.maxSeqno, hf.regionSize,
        hf.shardCount, hf.length_regions, hf.regions⟩
    have hnext : (frozen.withImage identity generation).root.maxSeqno.toNat + 1 = m.nextSeqno := by
      have hpos := hf'.nextSeqno_pos
      have hle := hb.nextSeqno
      rw [hf'.maxSeqno, BitVec.toNat_ofNat, Nat.mod_eq_of_lt (by omega)]
      omega
    have hmax := hre.maxSeqno
    refine ⟨⟨rebound, hv', hr⟩, hf'.reclaiming, hf'.quiescent, ?_, ?_, ?_, ?_, ?_⟩
    · rw [hr.regionSize, hre.regionSize, hf'.regionSize, BitVec.toNat_ofNat,
        Nat.mod_eq_of_lt hb.regionSize]
    · rw [hr.regions, List.length_map, hre.length_regions, hf'.length_regions]
    · intro i r hri
      obtain ⟨record, hrecord, hstate, hcreated, hused, hcount⟩ := hf'.regions i r hri
      obtain ⟨record', hrecord', hrel⟩ := hre.regions i record hrecord
      refine ⟨record'.desc, ?_, restartedRegion hb hf' hnext hr.nextSeqno (List.mem_of_getElem? hri)
        hstate hcreated hused hcount hrel⟩
      rw [hr.regions, List.getElem?_map, hrecord']
      rfl
    · rw [hr.nextSeqno]
      omega
    · rw [← hf'.shardCount, createdSeqnos_rebound hv hre hr, hnext, hr.nextSeqno]
      congr 1
      omega

end Restart

end Cache2

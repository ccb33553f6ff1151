import Cache2.Index.LossyMap
import Cache2.Region.Record
import Cache2.Region.RecordSpace
import Cache2.Region.RecoveryImage
import Cache2.Region.StoreRuns
import Cache2.Region.Validation

set_option relaxedAutoImplicit false
set_option autoImplicit false

/-!
# Freezing and restoring are inverse

A manager that is built from a valid table freezes into the table. A manager that a run has reached
and that has no work outstanding freezes into a valid table, and is restored from it.

## Main definitions

* `Cache2.QueuesMatch` — the queues hold the Regions of their states.
* `Cache2.IndexAccounts` — the directory and the accounting of an index.
* `Cache2.Freezable` — what else a valid table asks of a manager.
* `Cache2.RestoredAs` — what a restored manager has in common with the frozen one.

## Main results

* `Cache2.RegionManager.freezeMetadata_fromMetadata` — restoring and freezing.
* `Cache2.ManagerReachable.freezable` — runs keep what a valid table asks for.
* `Cache2.freeze_restore` — freezing and restoring are inverse.
-/

namespace Cache2

open Loop

/-! ## The ordinals -/

/-- The queue of a state. -/
def RegionManager.queue (m : RegionManager) : RegionState → List ℕ
  | .active => m.activeRegions
  | .free => m.freeRegions
  | .sealed => m.sealedRegions

/-- Every queue holds exactly the Regions of its state, each once. -/
structure QueuesMatch (m : RegionManager) : Prop where
  length_le : m.regions.length ≤ maxPackedRegionCount
  nodup : ∀ state, (m.queue state).Nodup
  mem_iff : ∀ state (id : ℕ), id ∈ m.queue state ↔
    ∃ region, m.regions[id]? = some region ∧ region.state = state

namespace RegionManager

/-- Writing the ordinals of a queue: every Region of it gets its position, and the others keep
what they had. -/
lemma installLiveQueue_ok {regions : List RegionDesc} {expected : RegionState} :
    ∀ {queue : List ℕ} {n : ℕ} {ordinals : List ℕ}, queue.Nodup → n + queue.length < 2 ^ 32 →
      (∀ id ∈ queue, (∃ region, regions[id]? = some region ∧ region.state = expected) ∧
        ordinals[id]? = some unassignedRegion) →
      ∃ ordinals', installLiveQueue regions expected queue n ordinals = .ok ordinals' ∧
        ordinals'.length = ordinals.length ∧
        (∀ id, id ∉ queue → ordinals'[id]? = ordinals[id]?) ∧
        ∀ (k id : ℕ), queue[k]? = some id → ordinals'[id]? = some (n + k)
  | [], n, ordinals, _, _, _ => ⟨ordinals, rfl, rfl, fun _ _ => rfl, fun k id h => by simp at h⟩
  | id :: rest, n, ordinals, hnd, hlt, hall => by
    obtain ⟨⟨region, hregion, hstate⟩, hdown⟩ := hall id List.mem_cons_self
    obtain ⟨hid, hrest⟩ := List.nodup_cons.1 hnd
    rw [List.length_cons] at hlt
    obtain ⟨ordinals', hrun, hlen, hkeep, hset⟩ := @installLiveQueue_ok regions expected rest
      (n + 1) (ordinals.set id n) hrest (by omega) fun other hother => by
        have hne : id ≠ other := fun heq => hid (heq ▸ hother)
        refine ⟨(hall other (List.mem_cons_of_mem _ hother)).1, ?_⟩
        rw [List.getElem?_set_ne hne]
        exact (hall other (List.mem_cons_of_mem _ hother)).2
    refine ⟨ordinals', ?_, by rw [hlen, List.length_set], fun other hother => ?_,
      fun k other hk => ?_⟩
    · have hguard : ¬ (region.state ≠ expected ∨ ordinals.getD id 0 ≠ unassignedRegion) := by
        rw [List.getD_eq_getElem?_getD, hdown]
        simp [hstate]
      rw [installLiveQueue, hregion]
      dsimp only
      rw [(tryU32_eq_some (n := n)).2 ⟨by omega, rfl⟩]
      simp only [orArithmeticOverflow, bind, Except.bind]
      rw [if_neg hguard]
      exact hrun
    · rw [List.mem_cons, not_or] at hother
      rw [hkeep other hother.2, List.getElem?_set_ne (Ne.symm hother.1)]
    · cases k with
      | zero =>
        obtain rfl := Option.some.inj hk
        rw [hkeep id hid, List.getElem?_set_self (List.getElem?_eq_some_iff.1 hdown).1]
        rfl
      | succ k =>
        rw [hset k other hk]
        congr 1
        omega

end RegionManager

namespace QueuesMatch

variable {m : RegionManager} {state : RegionState} {id : ℕ}

/-- A queue is no longer than the table. -/
lemma length_queue_le (h : QueuesMatch m) (state : RegionState) :
    (m.queue state).length ≤ m.regions.length := by
  have hsub : m.queue state ⊆ List.range m.regions.length := by
    intro id hid
    obtain ⟨region, hregion, -⟩ := (h.mem_iff state id).1 hid
    exact List.mem_range.2 (List.getElem?_eq_some_iff.1 hregion).1
  have := (h.nodup state).length_le_of_subset hsub
  rwa [List.length_range] at this

/-- Lengths fit 32 bits. -/
lemma length_lt (h : QueuesMatch m) : m.regions.length < 2 ^ 32 - 1 :=
  h.length_le.trans_lt (by decide)

/-- A Region in one queue is in no other. -/
lemma not_mem (h : QueuesMatch m) {other : RegionState} (hne : other ≠ state)
    (hid : id ∈ m.queue state) : id ∉ m.queue other := by
  intro hother
  obtain ⟨a, ha, rfl⟩ := (h.mem_iff state id).1 hid
  obtain ⟨b, hb, rfl⟩ := (h.mem_iff other id).1 hother
  rw [ha, Option.some.injEq] at hb
  exact hne (congrArg RegionDesc.state hb.symm)

/-- The ordinals of the three queues are the positions in them. -/
lemma freezeQueueOrdinals_ok (h : QueuesMatch m) :
    ∃ ordinals, m.freezeQueueOrdinals = .ok ordinals ∧
      ∀ state (k id : ℕ), (m.queue state)[k]? = some id → ordinals.getD id 0 = k := by
  have hlt := h.length_lt
  have hle := h.length_queue_le
  set initial := List.replicate m.regions.length unassignedRegion with hinitial
  have hstate : ∀ {state : RegionState} {id : ℕ}, id ∈ m.queue state →
      (∃ region, m.regions[id]? = some region ∧ region.state = state) ∧
        initial[id]? = some unassignedRegion := by
    intro state id hid
    obtain ⟨region, hregion, hs⟩ := (h.mem_iff state id).1 hid
    refine ⟨⟨region, hregion, hs⟩, ?_⟩
    rw [hinitial, List.getElem?_replicate, if_pos (List.getElem?_eq_some_iff.1 hregion).1]
  have hactive := hle .active
  have hfree := hle .free
  have hsealed := hle .sealed
  obtain ⟨o₁, hrun₁, hlen₁, hkeep₁, hset₁⟩ := @RegionManager.installLiveQueue_ok m.regions .active
    (m.queue .active) 0 initial (h.nodup _) (by omega) fun id hid => hstate hid
  obtain ⟨o₂, hrun₂, hlen₂, hkeep₂, hset₂⟩ := @RegionManager.installLiveQueue_ok m.regions .free
    (m.queue .free) 0 o₁ (h.nodup _) (by omega) fun id hid => by
      rw [hkeep₁ id (h.not_mem (by decide) hid)]
      exact hstate hid
  obtain ⟨o₃, hrun₃, hlen₃, hkeep₃, hset₃⟩ := @RegionManager.installLiveQueue_ok m.regions .sealed
    (m.queue .sealed) 0 o₂ (h.nodup _) (by omega) fun id hid => by
      rw [hkeep₂ id (h.not_mem (by decide) hid), hkeep₁ id (h.not_mem (by decide) hid)]
      exact hstate hid
  -- later queues do not touch what an earlier one has written
  have hall : ∀ state (k id : ℕ), (m.queue state)[k]? = some id → o₃[id]? = some k := by
    intro state k id hk
    have hid := List.mem_of_getElem? hk
    cases state with
    | active =>
      rw [hkeep₃ id (h.not_mem (by decide) hid), hkeep₂ id (h.not_mem (by decide) hid),
        hset₁ k id hk, Nat.zero_add]
    | free => rw [hkeep₃ id (h.not_mem (by decide) hid), hset₂ k id hk, Nat.zero_add]
    | sealed => rw [hset₃ k id hk, Nat.zero_add]
  have hassigned : unassignedRegion ∉ o₃ := by
    intro hmem
    obtain ⟨id, hid⟩ := List.mem_iff_getElem?.1 hmem
    have hidlt : id < m.regions.length := by
      have := (List.getElem?_eq_some_iff.1 hid).1
      rw [hlen₃, hlen₂, hlen₁, hinitial, List.length_replicate] at this
      exact this
    have hmem' := (h.mem_iff m.regions[id].state id).2
      ⟨_, List.getElem?_eq_getElem hidlt, rfl⟩
    obtain ⟨k, hk⟩ := List.mem_iff_getElem?.1 hmem'
    have hkle := hle m.regions[id].state
    have hklt := (List.getElem?_eq_some_iff.1 hk).1
    rw [hall _ k id hk, Option.some.injEq, unassignedRegion] at hid
    omega
  refine ⟨o₃, ?_, fun state k id hk => by rw [List.getD_eq_getElem?_getD, hall state k id hk]; rfl⟩
  unfold RegionManager.queue at hrun₁ hrun₂ hrun₃
  dsimp only at hrun₁ hrun₂ hrun₃
  rw [RegionManager.freezeQueueOrdinals, hrun₁]
  simp only [bind, Except.bind]
  rw [hrun₂]
  dsimp only
  rw [hrun₃]
  dsimp only
  rw [if_neg hassigned]

end QueuesMatch

/-! ## The partitions -/

/-- What the record of a partition says about its range. -/
structure PartitionSound (partition : PartitionMetadataRecord) (expected : IndexPartitionRange) :
    Prop where
  partitionId : partition.partitionId.toNat = expected.partitionId
  firstPage : partition.firstIndexPage.toNat = expected.firstPage
  pageCount : partition.indexPageCount.toNat = expected.pageCount
  firstSlot : partition.firstSlot.toNat = expected.firstSlot
  slotCount : partition.slotCount.toNat = expected.slotCount
  deleted : partition.physicalDeletedSlots = 0
  value_le : partition.physicalValueSlots.toNat ≤ partition.slotCount.toNat

/-- The check of a partition. -/
lemma validatePartition_iff {partition : PartitionMetadataRecord} {expected : IndexPartitionRange} :
    validatePartition partition expected = .ok () ↔ PartitionSound partition expected := by
  rw [validatePartition, ite_error_eq_ok, ite_error_eq_ok, ite_error_eq_ok]
  simp only [not_or, not_not, gt_iff_lt, BitVec.not_lt, BitVec.le_def, and_true]
  constructor
  · rintro ⟨⟨h1, h2, h3, h4, h5⟩, h6, h7⟩
    exact ⟨h1, h2, h3, h4, h5, h6, h7⟩
  · rintro ⟨h1, h2, h3, h4, h5, h6, h7⟩
    exact ⟨⟨h1, h2, h3, h4, h5⟩, h6, h7⟩

/-- The check of the partitions against as many ranges. -/
lemma validatePartitionList_iff : ∀ {partitions : List PartitionMetadataRecord}
    {ranges : List IndexPartitionRange}, ranges.length = partitions.length →
    (validatePartitionList partitions ranges = .ok () ↔
      List.Forall₂ PartitionSound partitions ranges)
  | [], [], _ => by simp [validatePartitionList]
  | [], _ :: _, h => by simp at h
  | _ :: _, [], h => by simp at h
  | partition :: partitions, expected :: ranges, h => by
    rw [validatePartitionList, except_bind_eq_ok, List.forall₂_cons,
      ← validatePartitionList_iff (Nat.succ.inj h), ← validatePartition_iff]
    constructor
    · rintro ⟨⟨⟩, h1, h2⟩
      exact ⟨h1, h2⟩
    · rintro ⟨h1, h2⟩
      exact ⟨(), h1, h2⟩

/-- The ranges of a chain have all the pages. -/
lemma RangeChain.sum_pageCount {slotCount lastPage : ℕ} : ∀ {id page : ℕ}
    {rs : List IndexPartitionRange}, RangeChain slotCount lastPage id page rs →
    page + (rs.map (·.pageCount)).sum = lastPage
  | _, _, [], h => h
  | _, _, r :: rs, h => by
    obtain ⟨-, -, -, -, -, -, hrest⟩ := h
    have hsum := sum_pageCount hrest
    rw [List.map_cons, List.sum_cons, ← Nat.add_assoc]
    exact hsum

/-- Sums that fit 64 bits are the totals. -/
lemma RegionManager.PartitionTotals.add_ok : ∀ {partitions : List PartitionMetadataRecord}
    {count pages slots : ℕ},
    pages + (partitions.map (·.indexPageCount.toNat)).sum < 2 ^ 64 →
    slots + (partitions.map (·.slotCount.toNat)).sum < 2 ^ 64 →
    PartitionTotals.add partitions ⟨count, pages, slots⟩ =
      .ok ⟨count, pages + (partitions.map (·.indexPageCount.toNat)).sum,
        slots + (partitions.map (·.slotCount.toNat)).sum⟩
  | [], _, _, _, _, _ => rfl
  | partition :: rest, count, pages, slots, hpages, hslots => by
    rw [List.map_cons, List.sum_cons] at hpages hslots
    rw [PartitionTotals.add, Word.checkedAdd_of_lt (by dsimp only; omega),
      Word.checkedAdd_of_lt (by dsimp only; omega)]
    simp only [orArithmeticOverflow, bind, Except.bind]
    rw [add_ok (by omega) (by omega)]
    simp only [List.map_cons, List.sum_cons, Nat.add_assoc]

/-- The totals of sound partitions are those of the index. -/
lemma RegionManager.PartitionTotals.fromRecords_ok {slotCount : ℕ}
    {ranges : List IndexPartitionRange} {partitions : List PartitionMetadataRecord}
    (hranges : canonicalIndexPartitionRanges slotCount = .ok ranges)
    (hsound : List.Forall₂ PartitionSound partitions ranges) :
    PartitionTotals.fromRecords partitions =
      .ok ⟨partitions.length, (slotCount + 503) / 504, slotCount⟩ := by
  obtain ⟨-, ⟨k, hk, hlength⟩, hbytes, hchain⟩ := canonicalIndexPartitionRanges_chain hranges
  have hcount : 2 ^ k ≤ 2 ^ 12 := Nat.pow_le_pow_right Nat.two_pos hk
  have hlen := hsound.length_eq
  have hmap : ∀ {f : PartitionMetadataRecord → ℕ} {g : IndexPartitionRange → ℕ},
      (∀ a b, PartitionSound a b → f a = g b) → partitions.map f = ranges.map g := by
    intro f g hfg
    rw [← List.forall₂_eq_eq_eq, List.forall₂_map_left_iff, List.forall₂_map_right_iff]
    exact hsound.imp hfg
  have hpages : partitions.map (·.indexPageCount.toNat) = ranges.map (·.pageCount) :=
    hmap fun _ _ h => h.pageCount
  have hslots : partitions.map (·.slotCount.toNat) = ranges.map (·.slotCount) :=
    hmap fun _ _ h => h.slotCount
  have hsumPages := hchain.sum_pageCount
  have hsumSlots := hchain.sum_slotCount
  unfold isizeMax at hbytes
  rw [fromRecords, (tryU32_eq_some (n := partitions.length)).2 ⟨by omega, rfl⟩]
  simp only [orArithmeticOverflow, bind, Except.bind]
  rw [add_ok (by rw [hpages]; omega) (by rw [hslots]; omega), hpages, hslots]
  congr 2
  omega

/-- The directory and the accounting of an index that can be described by a table. -/
structure IndexAccounts (slotCount : ℕ) (ranges : List IndexPartitionRange)
    (stats : List IndexPhysicalStats) : Prop where
  eight_le : 8 ≤ slotCount
  directory : validatedIndexPartitionRanges slotCount = .ok ranges
  stats : List.Forall₂ (fun (range : IndexPartitionRange) (s : IndexPhysicalStats) =>
    s.isValidFor range.slotCount = true) ranges stats

/-- The records of sound accounting are sound. -/
lemma mapM_partitionMetadata_sound : ∀ {ranges : List IndexPartitionRange}
    {stats : List IndexPhysicalStats}, (∀ range ∈ ranges, RangeFits range) →
    List.Forall₂ (fun (range : IndexPartitionRange) (s : IndexPhysicalStats) =>
      s.isValidFor range.slotCount = true) ranges stats →
    ∃ partitions, ((ranges.zip stats).mapM fun pair => partitionMetadataFromStats pair.1 pair.2) =
      .ok partitions ∧ List.Forall₂ PartitionSound partitions ranges
  | [], [], _, _ => ⟨[], rfl, .nil⟩
  | range :: ranges, s :: stats, hfits, hstats => by
    obtain ⟨hs, hstats⟩ := List.forall₂_cons.1 hstats
    obtain ⟨h1, h2, h3, h4, h5⟩ := hfits range List.mem_cons_self
    obtain ⟨partitions, hrest, hsound⟩ := mapM_partitionMetadata_sound
      (fun r hr => hfits r (List.mem_cons_of_mem _ hr)) hstats
    rw [IndexPhysicalStats.isValidFor, Bool.and_eq_true, beq_iff_eq, Option.any_eq_true] at hs
    obtain ⟨hdeleted, total, htotal, hle⟩ := hs
    rw [IndexPhysicalStats.total, Word.checkedAdd_eq_some, hdeleted] at htotal
    obtain ⟨-, rfl⟩ := htotal
    have hle : s.value ≤ range.slotCount := by simpa using hle
    have hrecord : ∃ partition, partitionMetadataFromStats range s = .ok partition ∧
        PartitionSound partition range := by
      have hvalue : (BitVec.ofNat 64 s.value).toNat = s.value := Nat.mod_eq_of_lt (by omega)
      have hslots : (BitVec.ofNat 64 range.slotCount).toNat = range.slotCount := Nat.mod_eq_of_lt h5
      rw [partitionMetadataFromStats, if_neg (by omega)]
      refine ⟨_, rfl, Nat.mod_eq_of_lt h1, Nat.mod_eq_of_lt h2, Nat.mod_eq_of_lt h3,
        Nat.mod_eq_of_lt h4, hslots, by rw [hdeleted]; rfl, ?_⟩
      dsimp only
      rw [hvalue, hslots]
      exact hle
    obtain ⟨partition, hrun, hpartition⟩ := hrecord
    refine ⟨partition :: partitions, ?_, .cons hpartition hsound⟩
    rw [List.zip_cons_cons, List.mapM_cons, hrest, hrun]
    rfl

/-- The partitions of an index. -/
lemma IndexAccounts.partitions {slotCount : ℕ} {ranges : List IndexPartitionRange}
    {stats : List IndexPhysicalStats} (h : IndexAccounts slotCount ranges stats) :
    ∃ partitions, indexPartitionMetadata ranges stats = .ok partitions ∧
      List.Forall₂ PartitionSound partitions ranges := by
  obtain ⟨hcanonical, -⟩ := validatedIndexPartitionRanges_eq_ok h.directory
  obtain ⟨-, -, hbytes, -⟩ := canonicalIndexPartitionRanges_chain hcanonical
  unfold isizeMax at hbytes
  rw [indexPartitionMetadata, if_neg (not_not.2 h.stats.length_eq)]
  exact mapM_partitionMetadata_sound (rangeFits_of_canonical hcanonical (by omega)) h.stats

/-- The accounting of an intact index can be described. -/
lemma IndexInv.accounts {crc : List UInt8 → BitVec 32} {slotCount : ℕ}
    {ranges : List IndexPartitionRange} {idx : RegionIndex}
    (h : IndexInv crc slotCount ranges idx) (height : 8 ≤ slotCount)
    (hranges : validatedIndexPartitionRanges slotCount = .ok ranges) :
    IndexAccounts slotCount ranges idx.storage.stats := by
  refine ⟨height, hranges, ?_⟩
  obtain ⟨-, hfit⟩ := validatedIndexPartitionRanges_eq_ok hranges
  rw [h.repr.stats_eq, List.forall₂_map_right_iff, List.forall₂_same]
  intro range hr
  have := hfit range hr
  exact (IndexPhysicalStats.isValidFor_iff (by omega)).2 (occupied_le _ _)

/-! ## The frozen table -/

namespace RegionManager

/-- The record of a Region, frozen with its position in its queue. -/
def frozenRecord (ordinals : List ℕ) (id : ℕ) (region : RegionDesc) : RegionMetadataRecord where
  state := region.state
  queueOrdinal := BitVec.ofNat 32 (ordinals.getD id 0)
  createdSeqno := BitVec.ofNat 64 region.createdSeqno
  durableUsedOffset := BitVec.ofNat 64 region.completedUsed
  physicalRecordCount := BitVec.ofNat 64 region.physicalRecordCount

/-- The table that freezing writes when all its steps go through. -/
def frozenTable (m : RegionManager) (ordinals : List ℕ) (totals : PartitionTotals)
    (partitions : List PartitionMetadataRecord) : RegionMetadata where
  root := {
    cacheUuid := m.binding.cacheUuid
    dataIdentity := m.binding.dataIdentity
    dataSuperblockGeneration := m.binding.dataSuperblockGeneration
    imageIdentity := m.binding.imageIdentity
    imageGeneration := m.binding.imageGeneration
    storageFingerprint := m.binding.storageFingerprint
    indexSlots := BitVec.ofNat 64 totals.slotCount
    indexPageCount := BitVec.ofNat 64 totals.pageCount
    regionSize := BitVec.ofNat 64 m.regionSize
    regionCount := BitVec.ofNat 32 m.regions.length
    partitionCount := BitVec.ofNat 32 totals.partitionCount
    shardCount := BitVec.ofNat 32 m.activeRegions.length
    maxSeqno := BitVec.ofNat 64 (m.nextSeqno - 1)
    freeRegionCount := BitVec.ofNat 32 m.freeRegions.length
    activeRegionCount := BitVec.ofNat 32 m.activeRegions.length
    sealedRegionCount := BitVec.ofNat 32 m.sealedRegions.length }
  regions := m.regions.mapIdx (frozenRecord ordinals)
  partitions := partitions

/-- No work is outstanding. -/
structure Quiescent (m : RegionManager) : Prop where
  reclaiming : m.reclaiming = []
  shards : ∀ shard ∈ m.appendStates, shard.isQuiescent = true

/-- Regions without outstanding writes have records. -/
lemma freezeRegions_ok {ordinals : List ℕ} : ∀ {regions : List RegionDesc} {n : ℕ},
    (∀ region ∈ regions, region.reservedUsed = region.completedUsed) →
    freezeRegions ordinals regions n =
      .ok (regions.mapIdx fun i => frozenRecord ordinals (n + i))
  | [], _, _ => rfl
  | region :: rest, n, hdone => by
    have hregion := hdone region List.mem_cons_self
    rw [freezeRegions, freezeRegion, if_neg (not_not.2 hregion),
      freezeRegions_ok fun r hr => hdone r (List.mem_cons_of_mem _ hr)]
    simp only [bind, Except.bind, List.mapIdx_cons, Nat.add_zero, Nat.add_assoc, Nat.add_comm 1]
    rfl

variable {m : RegionManager} {metadata : RegionMetadata} {ordinals : List ℕ}
  {totals : PartitionTotals} {partitions : List PartitionMetadataRecord}

/-- Freezing goes through when nothing is outstanding and the table is valid. -/
lemma freezeMetadata_ok (hmatch : QueuesMatch m) (hquiet : m.Quiescent)
    (hdone : ∀ region ∈ m.regions, region.reservedUsed = region.completedUsed)
    (hpos : 0 < m.nextSeqno) (htotals : PartitionTotals.fromRecords partitions = .ok totals)
    (hordinals : m.freezeQueueOrdinals = .ok ordinals)
    (hvalid : (m.frozenTable ordinals totals partitions).validate = .ok ()) :
    m.freezeMetadata partitions = .ok (m.frozenTable ordinals totals partitions) := by
  have hlt := hmatch.length_lt
  have hactive : m.activeRegions.length ≤ _ := hmatch.length_queue_le .active
  have hfree : m.freeRegions.length ≤ _ := hmatch.length_queue_le .free
  have hsealed : m.sealedRegions.length ≤ _ := hmatch.length_queue_le .sealed
  have hu32 : ∀ {n : ℕ}, n ≤ m.regions.length → orArithmeticOverflow (tryU32 n) = .ok n := by
    intro n hn
    rw [(tryU32_eq_some (n := n)).2 ⟨by omega, rfl⟩]
    rfl
  have hguard : ¬ (m.reclaiming ≠ [] ∨
      m.appendStates.any (fun shard => !shard.isQuiescent) = true) := by
    rw [not_or, not_not, Bool.not_eq_true, List.any_eq_false]
    exact ⟨hquiet.reclaiming, fun shard hs => by simp [hquiet.shards shard hs]⟩
  have hrecords : freezeRegions ordinals m.regions 0 =
      .ok (m.regions.mapIdx (frozenRecord ordinals)) := by
    rw [freezeRegions_ok hdone]
    simp only [Nat.zero_add]
  rw [freezeMetadata, if_neg hguard, htotals]
  simp only [bind, Except.bind]
  rw [hordinals]
  simp only
  rw [hrecords]
  simp only
  rw [hu32 le_rfl, hu32 hactive, hu32 hfree, hu32 hsealed, Word.checkedSub_of_le hpos]
  simp only [orArithmeticOverflow]
  unfold frozenTable at hvalid ⊢
  rw [hvalid]

end RegionManager

/-! ## Restoring and freezing -/

section Restored

variable {m : RegionManager} {metadata : RegionMetadata}

/-- A manager is built from tables that pass, under their identities. -/
lemma RegionManager.binding_of_fromMetadata (h : fromMetadata metadata = .ok m) :
    metadata.validate = .ok () ∧
      m.binding = ⟨metadata.root.cacheUuid, metadata.root.dataIdentity,
        metadata.root.dataSuperblockGeneration, metadata.root.imageIdentity,
        metadata.root.imageGeneration, metadata.root.storageFingerprint⟩ := by
  rw [fromMetadata, except_bind_eq_ok] at h
  obtain ⟨⟨⟩, hvalid, h⟩ := h
  dsimp only at h
  rw [except_bind_eq_ok] at h
  obtain ⟨_, -, h⟩ := h
  rw [except_bind_eq_ok] at h
  obtain ⟨_, -, h⟩ := h
  rw [ite_error_eq_ok, except_bind_eq_ok] at h
  obtain ⟨-, _, -, h⟩ := h
  cases h
  exact ⟨hvalid, rfl⟩

/-- The queues of a restored manager, by state. -/
lemma RecoveredFrom.queue_getElem? (h : RecoveredFrom metadata m) (state : RegionState) (k i : ℕ) :
    (m.queue state)[k]? = some i ↔ ∃ region, metadata.regions[i]? = some region ∧
      region.state = state ∧ region.queueOrdinal.toNat = k := by
  cases state with
  | active => exact h.active k i
  | free => exact h.free k i
  | sealed => exact h.sealed k i

/-- The queues of a restored manager match. -/
lemma RecoveredFrom.queuesMatch (h : RecoveredFrom metadata m) (hv : metadata.Valid) :
    QueuesMatch m where
  length_le := by
    rw [h.regions, List.length_map, hv.length_regions]
    exact hv.regionCount_le
  nodup state := by
    rw [List.Nodup, List.pairwise_iff_getElem]
    intro j k hj hk hlt heq
    obtain ⟨a, ha, -, rfl⟩ := (h.queue_getElem? state j _).1 (List.getElem?_eq_getElem hj)
    obtain ⟨b, hb, -, rfl⟩ := (h.queue_getElem? state k _).1 (List.getElem?_eq_getElem hk)
    rw [heq, hb, Option.some.injEq] at ha
    subst ha
    omega
  mem_iff state id := by
    rw [List.mem_iff_getElem?, h.regions, List.getElem?_map]
    simp only [h.queue_getElem?, Option.map_eq_some_iff]
    constructor
    · rintro ⟨k, region, hregion, hstate, -⟩
      exact ⟨_, ⟨region, hregion, rfl⟩, hstate⟩
    · rintro ⟨_, ⟨region, hregion, rfl⟩, hstate⟩
      exact ⟨_, region, hregion, hstate, rfl⟩

/-- **Restoring and freezing.** A manager that is built from a table freezes into the table. -/
theorem RegionManager.freezeMetadata_fromMetadata (h : fromMetadata metadata = .ok m) :
    m.freezeMetadata metadata.partitions = .ok metadata := by
  obtain ⟨hvalid, hbinding⟩ := binding_of_fromMetadata h
  obtain ⟨hv, hr⟩ := fromMetadata_eq_ok h
  obtain ⟨hroot, -, hpartitions, -, -, -, hparts⟩ := RegionMetadata.validate_iff.1 hvalid
  have hmatch := hr.queuesMatch hv
  obtain ⟨ordinals, hordinals, hpositions⟩ := hmatch.freezeQueueOrdinals_ok
  obtain ⟨ranges, hranges⟩ := hroot.ranges
  obtain ⟨hcanonical, -⟩ := validatedIndexPartitionRanges_eq_ok hranges
  rw [validatePartitions, hcanonical] at hparts
  dsimp only at hparts
  rw [ite_error_eq_ok, not_not] at hparts
  have htotals := PartitionTotals.fromRecords_ok hcanonical
    ((validatePartitionList_iff hparts.1).1 hparts.2)
  have hrecords : m.regions.mapIdx (frozenRecord ordinals) = metadata.regions := by
    refine List.ext_getElem? fun i => ?_
    rw [List.getElem?_mapIdx, hr.regions, List.getElem?_map]
    cases hregion : metadata.regions[i]? with
    | none => rfl
    | some region =>
      have hposition : ordinals.getD i 0 = region.queueOrdinal.toNat :=
        hpositions region.state _ i ((hr.queue_getElem? _ _ i).2 ⟨region, hregion, rfl, rfl⟩)
      simp only [Option.map_some, frozenRecord, RegionMetadataRecord.desc, hposition,
        BitVec.ofNat_toNat, BitVec.setWidth_eq]
  have htable : m.frozenTable ordinals
      ⟨metadata.partitions.length, (metadata.root.indexSlots.toNat + 503) / 504,
        metadata.root.indexSlots.toNat⟩ metadata.partitions = metadata := by
    have hlength : m.regions.length = metadata.root.regionCount.toNat := by
      rw [hr.regions, List.length_map, hv.length_regions]
    rw [frozenTable, hrecords, hbinding, ← hroot.indexPages, hpartitions, hlength, hr.regionSize,
      hr.nextSeqno, hr.length_active, hr.length_free, hr.length_sealed]
    simp only [BitVec.ofNat_toNat, BitVec.setWidth_eq, Nat.add_sub_cancel]
    nth_rewrite 2 [← hroot.active_eq]
    rfl
  have hidle : ∀ shard ∈ m.appendStates, shard.isQuiescent = true := by
    intro shard hs
    rw [hr.appendStates] at hs
    rw [List.eq_of_mem_replicate hs]
    rfl
  have hdone : ∀ region ∈ m.regions, region.reservedUsed = region.completedUsed := by
    intro region hregion
    rw [hr.regions] at hregion
    obtain ⟨record, -, rfl⟩ := List.mem_map.1 hregion
    rfl
  have hfreeze := freezeMetadata_ok hmatch ⟨hr.reclaiming, hidle⟩ hdone
    (by rw [hr.nextSeqno]; exact Nat.succ_pos _) htotals hordinals (by rw [htable]; exact hvalid)
  rwa [htable] at hfreeze

end Restored

/-! ## What a valid table asks of a manager -/

/-- What a valid table asks of a manager beyond its invariant. -/
structure Freezable (m : RegionManager) : Prop where
  dataGeneration_ne : m.binding.dataSuperblockGeneration ≠ 0
  imageGeneration_ne : m.binding.imageGeneration ≠ 0
  regionSize_ge : 4096 ≤ m.regionSize
  shards_le : m.activeRegions.length ≤ maxShards
  used_aligned : ∀ region ∈ m.regions, region.completedUsed % 32 = 0

section Freezable

variable {m m' : RegionManager} {events history : List ManagerEvent} {metadata : RegionMetadata}

/-- A manager of a table can be frozen. -/
lemma Freezable.of_fromMetadata (h : RegionManager.fromMetadata metadata = .ok m) :
    Freezable m := by
  obtain ⟨hvalid, hbinding⟩ := RegionManager.binding_of_fromMetadata h
  obtain ⟨-, hr⟩ := RegionManager.fromMetadata_eq_ok h
  obtain ⟨hroot, -, -, hregions, -⟩ := RegionMetadata.validate_iff.1 hvalid
  refine ⟨?_, ?_, hr.regionSize ▸ hroot.regionSize_ge, hr.length_active ▸ hroot.shardCount_le,
    fun region hregion => ?_⟩
  · rw [hbinding]
    exact hroot.dataGeneration_ne
  · rw [hbinding]
    exact hroot.imageGeneration_ne
  · rw [hr.regions] at hregion
    obtain ⟨record, hrecord, rfl⟩ := List.mem_map.1 hregion
    exact (hregions record hrecord).used_aligned

/-- Regions that are empty or hold what they did keep a manager freezable. -/
lemma Freezable.of_old (h : Freezable m) (hbinding : m'.binding = m.binding)
    (hsize : m'.regionSize = m.regionSize)
    (hshards : m'.activeRegions.length = m.activeRegions.length)
    (hregions : ∀ region' ∈ m'.regions, region'.completedUsed % 32 = 0) : Freezable m' := by
  refine ⟨?_, ?_, hsize ▸ h.regionSize_ge, hshards ▸ h.shards_le, hregions⟩
  · rw [hbinding]
    exact h.dataGeneration_ne
  · rw [hbinding]
    exact h.imageGeneration_ne

/-- Steps keep a manager freezable. -/
lemma Freezable.step (h : Freezable m) (hinv : ManagerInv m) (hstep : ManagerStep m events m') :
    Freezable m' := by
  cases hstep with
  | unchanged => exact h
  | sequenced hnext => exact h.of_old rfl rfl rfl h.used_aligned
  | shard hat hstep =>
    refine h.of_old rfl rfl rfl fun region hregion => ?_
    rcases List.mem_or_eq_of_mem_set hregion with hregion | rfl
    · exact h.used_aligned region hregion
    · have := (hstep.inv (hinv.shards hat)).completed_aligned
      omega
  | @rotating shard old victim free r hat hidle hold hfree hvictim hnext hcreated =>
    refine h.of_old rfl rfl List.length_set fun region hregion => ?_
    rcases mem_regions_rotating hregion with hregion | rfl | rfl
    · exact h.used_aligned region hregion
    · exact h.used_aligned old (List.mem_of_getElem? hat.region_eq)
    · rfl
  | rotated hshard hr => exact h.of_old rfl rfl rfl h.used_aligned
  | reclaiming hneeded hsealed hregion => exact h.of_old rfl rfl rfl h.used_aligned
  | reclaimed hposition hregion =>
    refine h.of_old rfl rfl rfl fun region hregion => ?_
    rcases List.mem_or_eq_of_mem_set hregion with hregion | rfl
    · exact h.used_aligned region hregion
    · rfl

/-- **Runs.** Every manager that a run reaches is freezable. -/
theorem ManagerReachable.freezable (h : ManagerReachable m history) : Freezable m := by
  induction h with
  | cold _ hm => exact .of_fromMetadata hm
  | ok h hop ih => exact ih.step h.inv (ManagerOp.run_ok h.inv hop)
  | error h hop ih => exact ih.step h.inv (ManagerOp.step_of_error h.inv hop)
  | configured _ hop ih =>
    obtain ⟨-, -, rfl⟩ := RegionManager.configureReclaimWorkers_eq_ok hop
    exact ih.of_old rfl rfl rfl ih.used_aligned
  | @restarted _ _ _ partitions identity generation appendShards _ hop _ =>
    rw [RegionManager.restart, except_bind_eq_ok] at hop
    obtain ⟨frozen, -, hop⟩ := hop
    dsimp only at hop
    rw [except_bind_eq_ok] at hop
    obtain ⟨⟨⟩, -, hop⟩ := hop
    cases hrebind : (frozen.withImage identity generation).rebindAppendShards appendShards with
    | error e md => rw [hrebind] at hop; cases hop
    | ok u rebound =>
      rw [hrebind] at hop
      exact .of_fromMetadata hop

/-- Some number has been issued. -/
lemma ManagerInv.next_pos (hinv : ManagerInv m) : 0 < m.nextSeqno := by
  have hlt : 0 < m.appendStates.length := by
    rw [hinv.length_states]
    exact hinv.shards_pos
  obtain ⟨id, region, hat⟩ := hinv.exists_shardAt (List.getElem?_eq_getElem hlt)
  exact Nat.zero_lt_of_lt (hinv.shards hat).created_lt

/-- Without outstanding work every Region is in the queue of its state. -/
lemma ManagerInv.queuesMatch (hinv : ManagerInv m) (hquiet : m.Quiescent) : QueuesMatch m := by
  have hpending : m.pendingSealed = [] := by
    rw [RegionManager.pendingSealed, List.filterMap_eq_nil_iff]
    intro shard hshard
    have hidle := hquiet.shards shard hshard
    simp only [AppendShardState.isQuiescent, Bool.and_eq_true, Option.isNone_iff_eq_none] at hidle
    rw [hidle.2]
    rfl
  have hplaces : m.places = m.activeRegions ++ m.freeRegions ++ m.sealedRegions := by
    rw [RegionManager.places, hpending, hquiet.reclaiming]
    simp
  have hstate : ∀ {state : RegionState} {id : ℕ}, id ∈ m.queue state →
      ∃ region, m.regions[id]? = some region ∧ region.state = state := by
    intro state id hid
    cases state with
    | active =>
      obtain ⟨shardId, hs⟩ := List.mem_iff_getElem?.1 hid
      exact hinv.active_state hs
    | free => exact ⟨_, hinv.free id hid, rfl⟩
    | sealed =>
      obtain ⟨region, hregion, hretired, -⟩ := hinv.sealed id (List.mem_append_left _ hid)
      exact ⟨region, hregion, hretired⟩
  have hnd := hinv.nodup
  rw [hplaces, List.nodup_append, List.nodup_append] at hnd
  refine ⟨hinv.length_le, fun state => ?_, fun state id => ⟨hstate, ?_⟩⟩
  · cases state with
    | active => exact hnd.1.1
    | free => exact hnd.1.2.1
    | sealed => exact hnd.2.1
  · rintro ⟨region, hregion, rfl⟩
    have hmem := hinv.mem_places.2 (List.getElem?_eq_some_iff.1 hregion).1
    -- the queue that the Region is in is the one of its state
    have hqueue : ∃ state, id ∈ m.queue state := by
      rw [hplaces, List.mem_append, List.mem_append] at hmem
      rcases hmem with (h | h) | h
      · exact ⟨.active, h⟩
      · exact ⟨.free, h⟩
      · exact ⟨.sealed, h⟩
    obtain ⟨state, hid⟩ := hqueue
    obtain ⟨other, hother, rfl⟩ := hstate hid
    rw [hregion, Option.some.injEq] at hother
    exact hother ▸ hid

/-- Without outstanding work every Region's writes are complete. -/
lemma ManagerInv.reserved_eq_completed (hinv : ManagerInv m) (hquiet : m.Quiescent) :
    ∀ region ∈ m.regions, region.reservedUsed = region.completedUsed := by
  intro region hregion
  obtain ⟨id, hid⟩ := List.mem_iff_getElem?.1 hregion
  have hmem := ((hinv.queuesMatch hquiet).mem_iff region.state id).2 ⟨region, hid, rfl⟩
  cases hstate : region.state with
  | active =>
    rw [hstate] at hmem
    obtain ⟨shardId, hs⟩ := List.mem_iff_getElem?.1 hmem
    have hlt : shardId < m.appendStates.length := by
      rw [hinv.length_states]
      exact (List.getElem?_eq_some_iff.1 hs).1
    have hshard := hinv.shards ⟨List.getElem?_eq_getElem hlt, hs, hid⟩
    have hidle := hquiet.shards _ (List.getElem_mem hlt)
    simp only [AppendShardState.isQuiescent, Bool.and_eq_true, Option.isNone_iff_eq_none] at hidle
    obtain ⟨⟨⟨⟨ht, ho⟩, hp⟩, hsub⟩, -⟩ := hidle
    rw [hshard.reserved_eq, AppendShardState.reservedEnd, ht, hp, AppendShardState.openEnd, ho,
      AppendShardState.submittedEnd, hsub]
    rfl
  | free =>
    rw [hstate] at hmem
    have := hinv.free id hmem
    rw [hid, Option.some.injEq] at this
    rw [this]
    rfl
  | sealed =>
    rw [hstate] at hmem
    obtain ⟨other, hother, hretired⟩ := hinv.sealed id (List.mem_append_left _ hmem)
    rw [hid, Option.some.injEq] at hother
    exact hother ▸ hretired.2

end Freezable

/-! ## Freezing and restoring -/

section Frozen

variable {m m' : RegionManager} {history : List ManagerEvent} {slotCount : ℕ}
  {ranges : List IndexPartitionRange} {stats : List IndexPhysicalStats}
  {partitions : List PartitionMetadataRecord} {ordinals : List ℕ}
  {totals : RegionManager.PartitionTotals}

/-- How many Regions a frozen table has in a state. -/
lemma QueuesMatch.stateCount (h : QueuesMatch m) (state : RegionState) :
    ((m.frozenTable ordinals totals partitions).root.stateCount state).toNat =
      (m.queue state).length := by
  have hlt := h.length_lt
  have hle := h.length_queue_le state
  cases state <;> exact Nat.mod_eq_of_lt (hle.trans_lt (by omega))

/-- The records of a frozen table, by the queues. -/
lemma QueuesMatch.frozen_ordinal (h : QueuesMatch m)
    (hpositions : ∀ state (k id : ℕ), (m.queue state)[k]? = some id → ordinals.getD id 0 = k)
    {id : ℕ} {region : RegionDesc} (hregion : m.regions[id]? = some region) :
    (m.queue region.state)[(RegionManager.frozenRecord ordinals id region).queueOrdinal.toNat]? =
      some id := by
  obtain ⟨k, hk⟩ := List.mem_iff_getElem?.1 ((h.mem_iff region.state id).2 ⟨region, hregion, rfl⟩)
  have hlt := h.length_lt
  have hle := h.length_queue_le region.state
  have hklt := (List.getElem?_eq_some_iff.1 hk).1
  have hordinal : (RegionManager.frozenRecord ordinals id region).queueOrdinal.toNat = k := by
    show (BitVec.ofNat 32 (ordinals.getD id 0)).toNat = k
    rw [hpositions _ k id hk, BitVec.toNat_ofNat, Nat.mod_eq_of_lt (by omega)]
  rw [hordinal]
  exact hk

/-- The root of a frozen table is sound. -/
lemma Freezable.rootSound (h : Freezable m) (hinv : ManagerInv m) (hquiet : m.Quiescent)
    (hindex : IndexAccounts slotCount ranges stats)
    (hsound : List.Forall₂ PartitionSound partitions ranges) :
    RootSound (m.frozenTable ordinals ⟨partitions.length, (slotCount + 503) / 504, slotCount⟩
      partitions).root := by
  have hmatch := hinv.queuesMatch hquiet
  have hlt := hmatch.length_lt
  obtain ⟨hcanonical, -⟩ := validatedIndexPartitionRanges_eq_ok hindex.directory
  obtain ⟨-, ⟨k, hk, hlength⟩, hbytes, hchain⟩ := canonicalIndexPartitionRanges_chain hcanonical
  have hpow : 2 ^ k ≤ 2 ^ 12 := Nat.pow_le_pow_right Nat.two_pos hk
  have hpowpos : 0 < 2 ^ k := Nat.two_pow_pos k
  have hlen := hsound.length_eq
  have hpages := hchain.length_le
  unfold isizeMax at hbytes
  have height := hindex.eight_le
  have hsize := hinv.size_le
  have hsizeMax : maxPackedRegionSize < 2 ^ 64 := by decide
  have hnext := hinv.next_le
  have hshardsPos := hinv.shards_pos
  have hshardsLt := hinv.shards_lt
  unfold u64Max at hnext
  set root := (m.frozenTable ordinals ⟨partitions.length, (slotCount + 503) / 504, slotCount⟩
    partitions).root with hroot
  have hslots : root.indexSlots.toNat = slotCount :=
    Nat.mod_eq_of_lt (show slotCount < 2 ^ 64 by omega)
  have hpageCount : root.indexPageCount.toNat = (slotCount + 503) / 504 :=
    Nat.mod_eq_of_lt (show (slotCount + 503) / 504 < 2 ^ 64 by omega)
  have hregionSize : root.regionSize.toNat = m.regionSize := Nat.mod_eq_of_lt (by omega)
  have hregions : root.regionCount.toNat = m.regions.length := Nat.mod_eq_of_lt (by omega)
  have hparts : root.partitionCount.toNat = 2 ^ k := by
    rw [← hlength, ← hlen]
    exact Nat.mod_eq_of_lt (show partitions.length < 2 ^ 32 by omega)
  have hshards : root.shardCount.toNat = m.activeRegions.length := Nat.mod_eq_of_lt (by omega)
  have hmax : root.maxSeqno.toNat = m.nextSeqno - 1 := Nat.mod_eq_of_lt (by omega)
  have hne : ∀ {w : ℕ} {x : BitVec w}, 0 < x.toNat → x ≠ 0 := by
    rintro w x hx rfl
    simp at hx
  refine ⟨by omega, ⟨ranges, by rw [hslots]; exact hindex.directory⟩, h.dataGeneration_ne,
    h.imageGeneration_ne, by rw [hpageCount, hslots], hregionSize ▸ h.regionSize_ge,
    hregionSize ▸ hsize, hregionSize ▸ hinv.size_aligned, hne (by omega),
    hregions ▸ hinv.length_le, hne (by omega), hparts ▸ hpow, ?_, by omega, hne (by omega),
    hshards ▸ h.shards_le, by omega, by omega, rfl, ?_⟩
  · rw [hparts]
    exact isPowerOfTwo_two_pow k
  · have hcount : ∀ state, (root.stateCount state).toNat = (m.queue state).length :=
      fun state => hmatch.stateCount state
    have hfree : root.freeRegionCount.toNat = m.freeRegions.length := hcount .free
    have hactive : root.activeRegionCount.toNat = m.activeRegions.length := hcount .active
    have hsealed : root.sealedRegionCount.toNat = m.sealedRegions.length := hcount .sealed
    have hperm : (m.activeRegions ++ m.freeRegions ++ m.sealedRegions).Perm
        (List.range m.regions.length) := by
      refine (List.perm_ext_iff_of_nodup ?_ List.nodup_range).2 fun id => ?_
      · refine (hinv.nodup.sublist ?_)
        rw [RegionManager.places, hquiet.reclaiming, List.map_nil, List.append_nil]
        exact List.sublist_append_left _ _
      · rw [List.mem_append, List.mem_append, List.mem_range]
        constructor
        · intro hid
          refine hinv.mem_places.1 ?_
          simp only [RegionManager.places, List.mem_append]
          tauto
        · intro hid
          have hmem := (hmatch.mem_iff m.regions[id].state id).2
            ⟨_, List.getElem?_eq_getElem hid, rfl⟩
          cases hstate : m.regions[id].state with
          | active => rw [hstate] at hmem; exact .inl (.inl hmem)
          | free => rw [hstate] at hmem; exact .inl (.inr hmem)
          | sealed => rw [hstate] at hmem; exact .inr hmem
    have hsum := hperm.length_eq
    rw [List.length_append, List.length_append, List.length_range] at hsum
    omega

/-- The records of a frozen table are sound. -/
lemma Freezable.regionSound (h : Freezable m) (hinv : ManagerInv m) (hquiet : m.Quiescent)
    (hspace : RecordSpace minEncodedRecordSize m)
    (hpositions : ∀ state (k id : ℕ), (m.queue state)[k]? = some id → ordinals.getD id 0 = k)
    {id : ℕ} {region : RegionDesc} (hregion : m.regions[id]? = some region) :
    RegionSound (m.frozenTable ordinals totals partitions).root
      (RegionManager.frozenRecord ordinals id region) := by
  have hmatch := hinv.queuesMatch hquiet
  have hmem := List.mem_of_getElem? hregion
  have hdone := hinv.reserved_eq_completed hquiet region hmem
  obtain ⟨hcreated, hused, hcount, hpos⟩ := hinv.regions region hmem
  have hbytes := hspace.regions region hmem
  have hcounted := hspace.counted region hmem
  have haligned := h.used_aligned region hmem
  have hsize := hinv.size_le
  have hsizeMax : maxPackedRegionSize < 2 ^ 64 := by decide
  have hnext := hinv.next_le
  unfold u64Max at hnext
  unfold minEncodedRecordSize at hbytes
  set record := RegionManager.frozenRecord ordinals id region with hrecord
  set root := (m.frozenTable ordinals totals partitions).root with hroot
  have hcreated' : record.createdSeqno.toNat = region.createdSeqno := Nat.mod_eq_of_lt (by omega)
  have hused' : record.durableUsedOffset.toNat = region.completedUsed :=
    Nat.mod_eq_of_lt (by omega)
  have hcount' : record.physicalRecordCount.toNat = region.physicalRecordCount :=
    Nat.mod_eq_of_lt hcount
  have hsize' : root.regionSize.toNat = m.regionSize := Nat.mod_eq_of_lt (by omega)
  have hmax : root.maxSeqno.toNat = m.nextSeqno - 1 := Nat.mod_eq_of_lt (by omega)
  have hzero : ∀ {w : ℕ} {x : BitVec w}, x = 0 ↔ x.toNat = 0 := by
    intro w x
    rw [← BitVec.toNat_inj]
    simp
  refine ⟨by omega, by omega, ?_, fun hfree => ?_, fun hstate => ?_⟩
  · rw [hmatch.stateCount]
    exact (List.getElem?_eq_some_iff.1 (hmatch.frozen_ordinal hpositions hregion)).1
  · have hfree : region.state = .free := hfree
    have hid := hinv.free id ((hmatch.mem_iff .free id).2 ⟨region, hregion, hfree⟩)
    rw [hregion, Option.some.injEq] at hid
    rw [hrecord, hid]
    exact ⟨rfl, rfl, rfl⟩
  · have hpos := hpos hstate
    refine ⟨fun hz => ?_, by omega, ?_, by omega⟩
    · rw [hzero] at hz
      omega
    · rw [hzero, hzero, hused', hcount']
      exact ⟨fun hz => by omega, fun hz => by by_contra hne; exact hcounted hne hz⟩

/-- **Clean close.** Without outstanding work, the frozen table of a freezable manager passes. -/
theorem Freezable.validate_frozenTable (h : Freezable m) (hinv : ManagerInv m)
    (hquiet : m.Quiescent) (hspace : RecordSpace minEncodedRecordSize m)
    (hindex : IndexAccounts slotCount ranges stats)
    (hsound : List.Forall₂ PartitionSound partitions ranges)
    (hpositions : ∀ state (k id : ℕ), (m.queue state)[k]? = some id → ordinals.getD id 0 = k) :
    (m.frozenTable ordinals ⟨partitions.length, (slotCount + 503) / 504, slotCount⟩
      partitions).validate = .ok () := by
  have hmatch := hinv.queuesMatch hquiet
  have hlt := hmatch.length_lt
  obtain ⟨hcanonical, -⟩ := validatedIndexPartitionRanges_eq_ok hindex.directory
  obtain ⟨-, ⟨k, hk, hlength⟩, hbytes, -⟩ := canonicalIndexPartitionRanges_chain hcanonical
  have hpow : 2 ^ k ≤ 2 ^ 12 := Nat.pow_le_pow_right Nat.two_pos hk
  have hlen := hsound.length_eq
  unfold isizeMax at hbytes
  have hrecord : ∀ {id : ℕ} {record : RegionMetadataRecord},
      (m.regions.mapIdx (RegionManager.frozenRecord ordinals))[id]? = some record →
      ∃ region, m.regions[id]? = some region ∧
        record = RegionManager.frozenRecord ordinals id region := by
    intro id record hid
    rw [List.getElem?_mapIdx, Option.map_eq_some_iff] at hid
    obtain ⟨region, hregion, rfl⟩ := hid
    exact ⟨region, hregion, rfl⟩
  refine RegionMetadata.validate_iff.2 ⟨h.rootSound hinv hquiet hindex hsound, ?_, ?_, ?_, ?_, ?_,
    ?_⟩
  · exact List.length_mapIdx.trans (Nat.mod_eq_of_lt (by omega)).symm
  · exact (Nat.mod_eq_of_lt (show partitions.length < 2 ^ 32 by omega)).symm
  · intro record hmem
    obtain ⟨id, hid⟩ := List.mem_iff_getElem?.1 hmem
    obtain ⟨region, hregion, rfl⟩ := hrecord hid
    exact h.regionSound hinv hquiet hspace hpositions hregion
  · -- two Regions of a state with one ordinal are one Region
    rw [List.pairwise_iff_getElem]
    intro i j hi hj hij hstate hordinal
    obtain ⟨a, ha, haeq⟩ := hrecord (List.getElem?_eq_getElem hi)
    obtain ⟨b, hb, hbeq⟩ := hrecord (List.getElem?_eq_getElem hj)
    rw [haeq, hbeq] at hstate hordinal
    have hstate : a.state = b.state := hstate
    have hapos := hmatch.frozen_ordinal hpositions ha
    have hbpos := hmatch.frozen_ordinal hpositions hb
    rw [hordinal, hstate, hbpos, Option.some.injEq] at hapos
    omega
  · intro state k hk
    rw [hmatch.stateCount] at hk
    obtain ⟨region, hregion, rfl⟩ := (hmatch.mem_iff state _).1 (List.getElem_mem hk)
    have hordinal := hmatch.frozen_ordinal hpositions hregion
    refine ⟨_, List.mem_of_getElem? ((List.getElem?_mapIdx).trans (by rw [hregion]; rfl)), rfl, ?_⟩
    exact (List.getElem?_inj (List.getElem?_eq_some_iff.1 hordinal).1
      (hmatch.nodup region.state)).1 (hordinal.trans (List.getElem?_eq_getElem hk).symm)
  · have hslots : (m.frozenTable ordinals ⟨partitions.length, (slotCount + 503) / 504, slotCount⟩
        partitions).root.indexSlots.toNat = slotCount :=
      Nat.mod_eq_of_lt (show slotCount < 2 ^ 64 by omega)
    rw [validatePartitions, hslots, hcanonical]
    dsimp only
    rw [ite_error_eq_ok, not_not]
    exact ⟨hlen.symm, (validatePartitionList_iff hlen.symm).2 hsound⟩

/-- What a restored manager has in common with the one that was frozen. Its shards have nothing
outstanding. -/
structure RestoredAs (m m' : RegionManager) : Prop where
  binding : m'.binding = m.binding
  regionSize : m'.regionSize = m.regionSize
  nextSeqno : m'.nextSeqno = m.nextSeqno
  regions : m'.regions = m.regions
  activeRegions : m'.activeRegions = m.activeRegions
  freeRegions : m'.freeRegions = m.freeRegions
  sealedRegions : m'.sealedRegions = m.sealedRegions
  queueCapacity : m'.queueCapacity = m.queueCapacity
  appendStates : m'.appendStates = List.replicate m.activeRegions.length {}
  reclaiming : m'.reclaiming = []

/-- A manager that is built from a frozen table is the one that was frozen. -/
lemma ManagerInv.restoredAs (hinv : ManagerInv m) (hquiet : m.Quiescent)
    (hpositions : ∀ state (k id : ℕ), (m.queue state)[k]? = some id → ordinals.getD id 0 = k)
    (h : RegionManager.fromMetadata (m.frozenTable ordinals totals partitions) = .ok m') :
    RestoredAs m m' := by
  have hmatch := hinv.queuesMatch hquiet
  obtain ⟨-, hbinding⟩ := RegionManager.binding_of_fromMetadata h
  obtain ⟨-, hr⟩ := RegionManager.fromMetadata_eq_ok h
  have hlt := hmatch.length_lt
  have hsize := hinv.size_le
  have hsizeMax : maxPackedRegionSize < 2 ^ 64 := by decide
  have hnext := hinv.next_le
  have hpos := hinv.next_pos
  have hshardsLt := hinv.shards_lt
  unfold u64Max at hnext
  have hcount : (m.frozenTable ordinals totals partitions).root.regionCount.toNat =
      m.regions.length := Nat.mod_eq_of_lt (by omega)
  have hshards : (m.frozenTable ordinals totals partitions).root.shardCount.toNat =
      m.activeRegions.length := Nat.mod_eq_of_lt (by omega)
  have hmax : (m.frozenTable ordinals totals partitions).root.maxSeqno.toNat =
      m.nextSeqno - 1 := Nat.mod_eq_of_lt (by omega)
  -- every queue is the one that was frozen
  have hqueue : ∀ state, m'.queue state = m.queue state := by
    intro state
    refine List.ext_getElem? fun k => Option.ext fun id => ?_
    rw [hr.queue_getElem?]
    show (∃ record, (m.regions.mapIdx (RegionManager.frozenRecord ordinals))[id]? = some record ∧
      _) ↔ _
    simp only [List.getElem?_mapIdx, Option.map_eq_some_iff]
    constructor
    · rintro ⟨_, ⟨region, hregion, rfl⟩, rfl, rfl⟩
      exact hmatch.frozen_ordinal hpositions hregion
    · intro hk
      obtain ⟨region, hregion, rfl⟩ := (hmatch.mem_iff state id).1 (List.mem_of_getElem? hk)
      refine ⟨_, ⟨region, hregion, rfl⟩, rfl, ?_⟩
      have hordinal := hmatch.frozen_ordinal hpositions hregion
      exact (List.getElem?_inj (List.getElem?_eq_some_iff.1 hordinal).1
        (hmatch.nodup region.state)).1 (hordinal.trans hk.symm)
  refine ⟨hbinding, ?_, ?_, ?_, hqueue .active, hqueue .free, hqueue .sealed, ?_, ?_,
    hr.reclaiming⟩
  · exact hr.regionSize.trans (Nat.mod_eq_of_lt (by omega))
  · rw [hr.nextSeqno, hmax]
    omega
  · rw [hr.regions]
    refine List.ext_getElem? fun id => ?_
    show ((m.regions.mapIdx (RegionManager.frozenRecord ordinals)).map _)[id]? = _
    rw [List.getElem?_map, List.getElem?_mapIdx]
    cases hregion : m.regions[id]? with
    | none => rfl
    | some region =>
      have hmem := List.mem_of_getElem? hregion
      obtain ⟨hcreated, hused, hcount, -⟩ := hinv.regions region hmem
      have hdone := hinv.reserved_eq_completed hquiet region hmem
      have hword : ∀ {n : ℕ}, n < 2 ^ 64 → (BitVec.ofNat 64 n).toNat = n :=
        fun hn => Nat.mod_eq_of_lt hn
      rw [Option.map_some, Option.map_some, Option.some.injEq, RegionMetadataRecord.desc,
        RegionManager.frozenRecord]
      dsimp only
      rw [hword (by omega), hword (by omega), hword hcount]
      obtain ⟨state, created, completed, reserved, count⟩ := region
      obtain rfl : reserved = completed := hdone
      rfl
  · rw [hr.queueCapacity, hcount, hshards, hinv.queueCapacity]
  · rw [hr.appendStates, hshards]

/-- Every record that a run has reserved has room for a key and a value: what the append path asks
for, and what reclaim asks for a record that it rewrites. -/
def EncodedReservations (history : List ManagerEvent) : Prop :=
  ∀ r, .reserved r ∈ history → ∃ keyLen valueLen,
    RecordHeader.alignedLen keyLen valueLen = some r.recordBytes

/-- What a store has reserved are encoded records. -/
lemma StoreRun.encodedReservations {chunkBytes : ℕ} (h : StoreRun chunkBytes m history) :
    EncodedReservations history := fun _ hr => h.encoded hr

/-- **Freezing and restoring are inverse.**

* From every table that passes its checks a manager is built, and it freezes into the table with
  the partitions of the table.
* Every manager that a run has reached and that has no work outstanding freezes with the partitions
  of its index, the frozen table passes its checks, and from it a manager is built that has the
  same Regions with their counters, the same queues and the same next number. -/
theorem freeze_restore {metadata : RegionMetadata} (hvalid : metadata.validate = .ok ())
    (h : ManagerReachable m history) (hrecords : EncodedReservations history)
    (hquiet : m.Quiescent) (hindex : IndexAccounts slotCount ranges stats) :
    (∃ restored, RegionManager.fromMetadata metadata = .ok restored ∧
      restored.freezeMetadata metadata.partitions = .ok metadata) ∧
    ∃ partitions frozen m', indexPartitionMetadata ranges stats = .ok partitions ∧
      m.freezeMetadata partitions = .ok frozen ∧ frozen.validate = .ok () ∧
      RegionManager.fromMetadata frozen = .ok m' ∧ RestoredAs m m' := by
  refine ⟨?_, ?_⟩
  · obtain ⟨restored, hrestored⟩ := RegionManager.fromMetadata_ok hvalid
    exact ⟨restored, hrestored, RegionManager.freezeMetadata_fromMetadata hrestored⟩
  have hinv := h.inv
  have hmatch := hinv.queuesMatch hquiet
  have hspace : RecordSpace minEncodedRecordSize m := h.recordSpace fun r hr => by
    obtain ⟨keyLen, valueLen, hlen⟩ := hrecords r hr
    obtain ⟨hlen, -⟩ := RecordHeader.alignedLen_eq_some.1 hlen
    unfold minEncodedRecordSize
    omega
  obtain ⟨hcanonical, -⟩ := validatedIndexPartitionRanges_eq_ok hindex.directory
  obtain ⟨partitions, hpartitions, hsound⟩ := hindex.partitions
  obtain ⟨ordinals, hordinals, hpositions⟩ := hmatch.freezeQueueOrdinals_ok
  have hfrozen := h.freezable.validate_frozenTable hinv hquiet hspace hindex hsound hpositions
  obtain ⟨m', hm'⟩ := RegionManager.fromMetadata_ok hfrozen
  have htotals := RegionManager.PartitionTotals.fromRecords_ok hcanonical hsound
  exact ⟨partitions, _, m', hpartitions,
    RegionManager.freezeMetadata_ok hmatch hquiet (hinv.reserved_eq_completed hquiet)
      hinv.next_pos htotals hordinals hfrozen,
    hfrozen, hm', hinv.restoredAs hquiet hpositions hm'⟩

/-- After two rotations and a reclaim the sample freezes, with an index of its own, into a table
that restores it, and the restored manager freezes into that table again. -/
theorem freeze_restore_sample :
    ∃ index ranges partitions frozen m', PartitionedIndexStorage.anonymous 8 = .ok index ∧
      indexPartitionMetadata ranges (RegionIndex.fromStorage index).storage.stats = .ok partitions ∧
      sampleTurned.freezeMetadata partitions = .ok frozen ∧ frozen.validate = .ok () ∧
      RegionManager.fromMetadata frozen = .ok m' ∧ RestoredAs sampleTurned m' ∧
      m'.freezeMetadata frozen.partitions = .ok frozen := by
  have hnew : PartitionedIndexStorage.anonymous 8 = .ok _ := rfl
  obtain ⟨ranges, hr, hinv, -⟩ := fromStorage_inv (fun _ => 0) hnew
  have hranges : validatedIndexPartitionRanges 8 = .ok ranges := by
    have hcanonical : canonicalIndexPartitionRanges 8 = .ok [⟨0, 0, 1, 0, 8⟩] := by decide +kernel
    obtain rfl := Except.ok.inj (hr.symm.trans hcanonical)
    decide +kernel
  have hindex := hinv.accounts (by decide) hranges
  have hquiet : sampleTurned.Quiescent := ⟨by decide +kernel, by decide +kernel⟩
  have hrecords := sampleTurned_run.encodedReservations
  obtain ⟨-, partitions, frozen, m', hpartitions, hfrozen, hvalid, hm', hrestored⟩ :=
    freeze_restore (show sampleTable.validate = .ok () by decide +kernel) sampleTurned_reachable
      hrecords hquiet hindex
  obtain ⟨⟨restored, hfrom, hagain⟩, -⟩ :=
    freeze_restore hvalid sampleTurned_reachable hrecords hquiet hindex
  obtain rfl := Except.ok.inj (hm'.symm.trans hfrom)
  exact ⟨_, ranges, partitions, frozen, m', hnew, hpartitions, hfrozen, hvalid, hm', hrestored,
    hagain⟩

end Frozen

end Cache2

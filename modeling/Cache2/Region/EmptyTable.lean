import Cache2.Region.MetadataCodec
import Cache2.Region.Restart

set_option relaxedAutoImplicit false
set_option autoImplicit false

/-!
# Tables that are accepted

For every geometry and index that can be represented, the table of an empty data file passes its own
validation; and a manager is built from every table that does.

## Main results

* `Cache2.emptyRegionMetadata_ok` — an empty data file has a table.
* `Cache2.RegionManager.fromMetadata_ok` — a valid table has a manager.
-/

namespace Cache2

open Loop

/-! ## The layout -/

/-- Few enough records have a layout. -/
lemma MetadataLayout.exists_new {regionCount partitionCount : BitVec 32}
    (hregions : regionCount ≠ 0) (hpartitions : partitionCount ≠ 0)
    (hle : regionCount.toNat ≤ maxPackedRegionCount)
    (hle' : partitionCount.toNat ≤ maxIndexPartitions) :
    ∃ layout, MetadataLayout.new regionCount partitionCount = .ok layout ∧
      layout.regionFirstPage.toNat = 1 ∧
      layout.partitionFirstPage.toNat =
        layout.regionFirstPage.toNat + layout.regionPageCount.toNat ∧
      layout.regionPageCount.toNat < 2 ^ 31 := by
  have hbound : maxPackedRegionCount ≤ 2 ^ 20 := by decide
  have hbound' : maxIndexPartitions = 4096 := rfl
  have hpages : ∀ {records : ℕ} (perPage : ℕ), records ≤ 2 ^ 20 → 0 < perPage → perPage ≤ 2 ^ 10 →
      pagesForRecords records perPage = .ok ((records + (perPage - 1)) / perPage) ∧
        (records + (perPage - 1)) / perPage ≤ 2 ^ 21 := by
    intro records perPage hrecords hpos hper
    have hdiv : (records + (perPage - 1)) / perPage ≤ 2 ^ 21 :=
      (Nat.div_le_self _ _).trans (by omega)
    rw [pagesForRecords, Word.checkedAdd_of_lt (by omega)]
    simp only [orArithmeticOverflow, bind, Except.bind]
    rw [if_pos (by omega)]
    exact ⟨rfl, hdiv⟩
  obtain ⟨hr, hrle⟩ := hpages regionMetadataRegionsPerPage (hle.trans hbound)
    (by decide) (by decide)
  obtain ⟨hp, hple⟩ := hpages regionMetadataPartitionsPerPage
    (hle'.trans (by decide)) (by decide) (by decide)
  generalize (regionCount.toNat + (regionMetadataRegionsPerPage - 1)) /
    regionMetadataRegionsPerPage = rp at *
  generalize (partitionCount.toNat + (regionMetadataPartitionsPerPage - 1)) /
    regionMetadataPartitionsPerPage = pp at *
  refine ⟨⟨1, BitVec.ofNat 32 rp, BitVec.ofNat 32 (1 + rp), BitVec.ofNat 32 pp,
    (1 + rp + pp) * recoveryPageSize⟩, ?_, rfl, ?_, ?_⟩
  · rw [MetadataLayout.new, if_neg (not_or.2 ⟨hregions, hpartitions⟩), hr, hp]
    simp only [bind, Except.bind]
    rw [Word.checkedAdd_of_lt (by omega)]
    simp only [orArithmeticOverflow]
    rw [Word.checkedAdd_of_lt (by omega)]
    simp only
    rw [Word.checkedMul_of_lt (by unfold recoveryPageSize; omega)]
    rfl
  · simp only [BitVec.toNat_ofNat]
    rw [Nat.mod_eq_of_lt (by omega), Nat.mod_eq_of_lt (by omega)]
    rfl
  · simp only [BitVec.toNat_ofNat]
    rw [Nat.mod_eq_of_lt (by omega)]
    omega

/-! ## The Regions -/

/-- The Region passes as long as its ordinal is not taken. -/
def RegionPasses (root : RegionMetadataRoot) (region : RegionMetadataRecord) : Prop :=
  region.queueOrdinal.toNat < (root.stateCount region.state).toNat ∧
    ∀ seen : RegionState → List Bool,
      (seen region.state).getD region.queueOrdinal.toNat false = false →
      validateRegion root seen region = .ok (Function.update seen region.state
        ((seen region.state).set region.queueOrdinal.toNat true))

/-- Regions that pass with ordinals of their own pass together. -/
lemma validateRegionList_ok {root : RegionMetadataRoot} :
    ∀ {regions : List RegionMetadataRecord} {seen : RegionState → List Bool},
      (∀ region ∈ regions, RegionPasses root region ∧
        (seen region.state).getD region.queueOrdinal.toNat false = false) →
      (regions.Pairwise fun a b => a.state = b.state → a.queueOrdinal ≠ b.queueOrdinal) →
      ∃ seen', validateRegionList root regions seen = .ok seen'
  | [], seen, _, _ => ⟨seen, rfl⟩
  | region :: rest, seen, hpass, hpair => by
    obtain ⟨⟨-, hregion⟩, hdown⟩ := hpass region List.mem_cons_self
    rw [validateRegionList, hregion seen hdown]
    obtain ⟨hhead, hrest⟩ := List.pairwise_cons.1 hpair
    refine validateRegionList_ok (fun other hother => ?_) hrest
    obtain ⟨hpasses, hotherDown⟩ := hpass other (List.mem_cons_of_mem _ hother)
    refine ⟨hpasses, ?_⟩
    by_cases hstate : other.state = region.state
    · have hne : region.queueOrdinal.toNat ≠ other.queueOrdinal.toNat := fun heq =>
        hhead other hother hstate.symm (BitVec.eq_of_toNat_eq heq)
      rw [hstate, Function.update_self, List.getD_eq_getElem?_getD, List.getElem?_set_ne hne,
        ← List.getD_eq_getElem?_getD, ← hstate]
      exact hotherDown
    · rw [Function.update_of_ne hstate]
      exact hotherDown

/-- Regions that fill the queues pass. -/
lemma validateRegions_ok {root : RegionMetadataRoot} {regions : List RegionMetadataRecord}
    (hpass : ∀ region ∈ regions, RegionPasses root region)
    (hpair : regions.Pairwise fun a b => a.state = b.state → a.queueOrdinal ≠ b.queueOrdinal)
    (hall : ∀ state, ∀ k < (root.stateCount state).toNat,
      ∃ region ∈ regions, region.state = state ∧ region.queueOrdinal.toNat = k) :
    validateRegions root regions = .ok () := by
  obtain ⟨seen, hlist⟩ := @validateRegionList_ok root regions
    (fun state => List.replicate (root.stateCount state).toNat false)
    (fun region hr => ⟨hpass region hr, by
      rw [List.getD_eq_getElem?_getD, List.getElem?_replicate]
      split <;> rfl⟩) hpair
  obtain ⟨hlen, -, -, hiff⟩ := validateRegionList_eq_ok hlist (by simp)
  have hup : ∀ state, (seen state).any (!·) = false := by
    intro state
    rw [List.any_eq_false]
    intro flag hflag
    obtain ⟨k, hk, rfl⟩ := List.getElem_of_mem hflag
    obtain ⟨region, hr, hstate, hordinal⟩ := hall state k (by rw [← hlen]; exact hk)
    have := (hiff state k).2 (.inr ⟨region, hr, hstate, hordinal⟩)
    rw [List.getElem?_eq_getElem hk, Option.some.injEq] at this
    simp [this]
  rw [validateRegions, hlist]
  simp only [bind, Except.bind]
  rw [if_neg (by simp [List.any_append, hup])]

/-- A Region of an empty data file passes. -/
lemma emptyRegion_passes {root : RegionMetadataRoot} {shards regionId : ℕ}
    (hactive : root.activeRegionCount.toNat = shards) (hmax : root.maxSeqno.toNat = shards)
    (hfree : root.freeRegionCount.toNat = root.regionCount.toNat - shards)
    (hid : regionId < root.regionCount.toNat) (hshards : shards ≤ root.regionCount.toNat) :
    RegionPasses root (emptyRegion shards regionId) := by
  have hlt := root.regionCount.isLt
  unfold emptyRegion
  split_ifs with h
  · have hordinal : (BitVec.ofNat 32 regionId).toNat = regionId := Nat.mod_eq_of_lt (by omega)
    have hcreated : (BitVec.ofNat 64 (regionId + 1)).toNat = regionId + 1 :=
      Nat.mod_eq_of_lt (by omega)
    refine ⟨?_, fun seen hdown => ?_⟩
    · show (BitVec.ofNat 32 regionId).toNat < root.activeRegionCount.toNat
      omega
    · rw [validateRegion, if_neg (by simp), if_neg]
      · rw [if_neg (by simp), if_neg]
        · rfl
        · simp only [not_or, gt_iff_lt, BitVec.not_lt, BitVec.le_def, hcreated, hmax]
          refine ⟨fun hz => ?_, by omega, by simp⟩
          rw [hz] at hcreated
          simp at hcreated
      · rw [not_or]
        refine ⟨?_, by simpa using hdown⟩
        simp only [ge_iff_le, BitVec.not_le, BitVec.lt_def, RegionMetadataRoot.stateCount]
        omega
  · have hordinal : (BitVec.ofNat 32 (regionId - shards)).toNat = regionId - shards :=
      Nat.mod_eq_of_lt (by omega)
    refine ⟨?_, fun seen hdown => ?_⟩
    · show (BitVec.ofNat 32 (regionId - shards)).toNat < root.freeRegionCount.toNat
      omega
    · rw [validateRegion, if_neg (by simp), if_neg]
      · rw [if_pos rfl, if_neg (by simp)]
      · rw [not_or]
        refine ⟨?_, by simpa using hdown⟩
        simp only [ge_iff_le, BitVec.not_le, BitVec.lt_def, RegionMetadataRoot.stateCount]
        omega

/-- The ordinals of an empty data file's Regions are distinct. -/
lemma emptyRegions_pairwise {shards count : ℕ} (hcount : count < 2 ^ 32) :
    ((List.range count).map (emptyRegion shards)).Pairwise fun a b =>
      a.state = b.state → a.queueOrdinal ≠ b.queueOrdinal := by
  rw [List.pairwise_map]
  refine List.Pairwise.imp_of_mem ?_ (List.pairwise_lt_range (n := count))
  intro i j hi hj hij hstate heq
  rw [List.mem_range] at hi hj
  unfold emptyRegion at hstate heq
  have hval := congrArg BitVec.toNat heq
  split_ifs at hstate hval with hi' hj' hj'
  · simp only [BitVec.toNat_ofNat] at hval
    omega
  · simp only [BitVec.toNat_ofNat] at hval
    omega

/-- The ordinals of an empty data file's Regions fill the queues. -/
lemma emptyRegions_all {root : RegionMetadataRoot} {shards : ℕ}
    (hactive : root.activeRegionCount.toNat = shards)
    (hfree : root.freeRegionCount.toNat = root.regionCount.toNat - shards)
    (hsealed : root.sealedRegionCount.toNat = 0) (hshards : shards ≤ root.regionCount.toNat)
    (state : RegionState) {k : ℕ} (hk : k < (root.stateCount state).toNat) :
    ∃ region ∈ (List.range root.regionCount.toNat).map (emptyRegion shards),
      region.state = state ∧ region.queueOrdinal.toNat = k := by
  have hlt := root.regionCount.isLt
  cases state with
  | free =>
    have hk' : k < root.freeRegionCount.toNat := hk
    refine ⟨_, List.mem_map.2 ⟨shards + k, List.mem_range.2 (by omega), rfl⟩, ?_⟩
    rw [emptyRegion, if_neg (by omega), Nat.add_sub_cancel_left]
    exact ⟨rfl, Nat.mod_eq_of_lt (by omega)⟩
  | active =>
    have hk' : k < root.activeRegionCount.toNat := hk
    refine ⟨_, List.mem_map.2 ⟨k, List.mem_range.2 (by omega), rfl⟩, ?_⟩
    rw [emptyRegion, if_pos (by omega)]
    exact ⟨rfl, Nat.mod_eq_of_lt (by omega)⟩
  | sealed =>
    have hk' : k < root.sealedRegionCount.toNat := hk
    omega

/-! ## The partitions -/

/-- The record of a partition without slots in use. -/
def emptyPartition (range : IndexPartitionRange) : PartitionMetadataRecord :=
  ⟨BitVec.ofNat 32 range.partitionId, BitVec.ofNat 64 range.firstPage,
    BitVec.ofNat 64 range.pageCount, BitVec.ofNat 64 range.firstSlot,
    BitVec.ofNat 64 range.slotCount, 0, 0⟩

/-- The fields of a range fit their records. -/
structure RangeFits (range : IndexPartitionRange) : Prop where
  partitionId : range.partitionId < 2 ^ 32
  firstPage : range.firstPage < 2 ^ 64
  pageCount : range.pageCount < 2 ^ 64
  firstSlot : range.firstSlot < 2 ^ 64
  slotCount : range.slotCount < 2 ^ 64

/-- The ranges of an index fit their records. -/
lemma rangeFits_of_canonical {slotCount : ℕ} {ranges : List IndexPartitionRange}
    (h : canonicalIndexPartitionRanges slotCount = .ok ranges) (hslots : slotCount < 2 ^ 64) :
    ∀ range ∈ ranges, RangeFits range := by
  obtain ⟨-, ⟨k, hk, hlength⟩, hpages, hchain⟩ := canonicalIndexPartitionRanges_chain h
  intro range hrange
  obtain ⟨i, hi, rfl⟩ := List.getElem_of_mem hrange
  obtain ⟨hid, -, -, hend, -, hslot, -⟩ := hchain.getElem i hi
  have hcount : 2 ^ k ≤ 2 ^ 12 := Nat.pow_le_pow_right Nat.two_pos hk
  unfold isizeMax at hpages
  constructor <;> omega

lemma mapM_partitionMetadataFromStats {ranges : List IndexPartitionRange}
    (hfits : ∀ range ∈ ranges, RangeFits range) :
    (ranges.mapM fun range => partitionMetadataFromStats range .default) =
      .ok (ranges.map emptyPartition) := by
  induction ranges with
  | nil => rfl
  | cons range rest ih =>
    have hid : ¬ range.partitionId ≥ 2 ^ 32 := Nat.not_le.2 (hfits range List.mem_cons_self).1
    rw [List.mapM_cons, ih fun r hr => hfits r (List.mem_cons_of_mem _ hr),
      partitionMetadataFromStats, if_neg hid]
    rfl

/-- Partitions without slots in use pass. -/
lemma validatePartitionList_empty : ∀ {ranges : List IndexPartitionRange},
    (∀ range ∈ ranges, RangeFits range) →
    validatePartitionList (ranges.map emptyPartition) ranges = .ok ()
  | [], _ => rfl
  | range :: rest, hfits => by
    obtain ⟨h₁, h₂, h₃, h₄, h₅⟩ := hfits range List.mem_cons_self
    have hrange : validatePartition (emptyPartition range) range = .ok () := by
      rw [validatePartition, if_neg, if_neg (by simp [emptyPartition]),
        if_neg (by simp [emptyPartition])]
      simp only [emptyPartition, BitVec.toNat_ofNat, Nat.mod_eq_of_lt h₁, Nat.mod_eq_of_lt h₂,
        Nat.mod_eq_of_lt h₃, Nat.mod_eq_of_lt h₄, Nat.mod_eq_of_lt h₅]
      simp
    rw [List.map_cons, validatePartitionList, hrange]
    exact validatePartitionList_empty fun r hr => hfits r (List.mem_cons_of_mem _ hr)

/-- The partitions of an index without slots in use pass. -/
lemma validatePartitions_empty {root : RegionMetadataRoot} {ranges : List IndexPartitionRange}
    (hcanonical : canonicalIndexPartitionRanges root.indexSlots.toNat = .ok ranges) :
    validatePartitions root (ranges.map emptyPartition) = .ok () := by
  rw [validatePartitions, hcanonical]
  simp only
  rw [if_neg (by simp)]
  exact validatePartitionList_empty (rangeFits_of_canonical hcanonical root.indexSlots.isLt)

/-- Every range has a page of its own. -/
lemma RangeChain.length_le {slotCount lastPage : ℕ} : ∀ {id page : ℕ}
    {rs : List IndexPartitionRange}, RangeChain slotCount lastPage id page rs →
    page + rs.length ≤ lastPage
  | _, _, [], h => le_of_eq h
  | _, page, r :: rs, h => by
    obtain ⟨-, -, hpos, -, -, -, hrest⟩ := h
    have := length_le hrest
    rw [List.length_cons]
    omega

/-! ## The whole table -/

/-- The bytes of the index pages, for an index that has a layout. -/
lemma recoveryImageIndexLen_eq {slotCount : ℕ} (hpos : 0 < slotCount)
    (hpages : (slotCount + 503) / 504 * 4096 ≤ isizeMax) :
    recoveryImageIndexLen slotCount = some ((slotCount + 503) / 504 * 4096) := by
  have hceil : slotCount / indexImageSlotsPerPage +
      (if slotCount % indexImageSlotsPerPage = 0 then 0 else 1) = (slotCount + 503) / 504 := by
    unfold indexImageSlotsPerPage
    split_ifs <;> omega
  unfold isizeMax at hpages
  rw [recoveryImageIndexLen, if_neg (by omega)]
  simp only
  rw [Word.checkedAdd_of_lt (by rw [hceil]; omega), hceil]
  exact Word.checkedMul_of_lt (by unfold recoveryPageSize; omega)

/-- The number of partitions is a power of two. -/
lemma isPowerOfTwo_two_pow (k : ℕ) : isPowerOfTwo (2 ^ k) = true := by
  rw [isPowerOfTwo, Nat.log2_two_pow, beq_self_eq_true]

/-- What the table of an empty data file needs of the geometry and the index. -/
structure TableFits (data : DataSuperblock) (indexSlots : ℕ) (appendShards : BitVec 32)
    (ranges : List IndexPartitionRange) : Prop where
  generation : data.generation ≠ 0
  regionSize_pos : 0 < data.geometry.regionSize.toNat
  regionSize_le : data.geometry.regionSize.toNat ≤ maxPackedRegionSize
  regionSize_aligned : data.geometry.regionSize.toNat % 4096 = 0
  regionCount_le : data.geometry.regionCount.toNat ≤ maxPackedRegionCount
  shards_pos : 0 < appendShards.toNat
  shards_le : appendShards.toNat ≤ 256
  shards_lt : appendShards.toNat < data.geometry.regionCount.toNat
  eight_le_indexSlots : 8 ≤ indexSlots
  indexSlots_lt : indexSlots < 2 ^ 64
  ranges : validatedIndexPartitionRanges indexSlots = .ok ranges

/-- The table of an empty data file. -/
def emptyTable (data : DataSuperblock) (indexSlots : ℕ) (appendShards : BitVec 32)
    (ranges : List IndexPartitionRange) : RegionMetadata where
  root := {
    cacheUuid := data.cacheUuid
    dataIdentity := data.dataIdentity
    dataSuperblockGeneration := data.generation
    imageIdentity := data.dataIdentity
    imageGeneration := 1
    storageFingerprint := data.storageFingerprint
    indexSlots := BitVec.ofNat 64 indexSlots
    indexPageCount := BitVec.ofNat 64 ((indexSlots + 503) / 504)
    regionSize := data.geometry.regionSize
    regionCount := data.geometry.regionCount
    partitionCount := BitVec.ofNat 32 ranges.length
    shardCount := appendShards
    maxSeqno := BitVec.ofNat 64 appendShards.toNat
    freeRegionCount := data.geometry.regionCount - appendShards
    activeRegionCount := appendShards
    sealedRegionCount := 0 }
  regions := (List.range data.geometry.regionCount.toNat).map (emptyRegion appendShards.toNat)
  partitions := ranges.map emptyPartition

/-- A table passes if its parts do. -/
lemma RegionMetadata.validate_ok {metadata : RegionMetadata} {layout : MetadataLayout}
    (hlayout : MetadataLayout.new metadata.root.regionCount metadata.root.partitionCount =
      .ok layout)
    (hroot : validateRootDirectory metadata.root layout = .ok ())
    (hregions : metadata.regions.length = metadata.root.regionCount.toNat)
    (hpartitions : metadata.partitions.length = metadata.root.partitionCount.toNat)
    (hlist : validateRegions metadata.root metadata.regions = .ok ())
    (hparts : validatePartitions metadata.root metadata.partitions = .ok ()) :
    metadata.validate = .ok () := by
  rw [RegionMetadata.validate, hlayout]
  simp only [bind, Except.bind, hroot]
  rw [if_neg (not_not.2 hregions), if_neg (not_not.2 hpartitions)]
  simp only [hlist, hparts]

section Empty

variable {data : DataSuperblock} {indexSlots : ℕ} {appendShards : BitVec 32}
  {ranges : List IndexPartitionRange}

/-- The root of an empty table passes. -/
lemma TableFits.validateRootDirectory_ok (h : TableFits data indexSlots appendShards ranges)
    {layout : MetadataLayout} (hfirst : layout.regionFirstPage.toNat = 1)
    (hnext : layout.partitionFirstPage.toNat =
      layout.regionFirstPage.toNat + layout.regionPageCount.toNat)
    (hpages : layout.regionPageCount.toNat < 2 ^ 31) :
    validateRootDirectory (emptyTable data indexSlots appendShards ranges).root layout =
      .ok () := by
  obtain ⟨hcanonical, -⟩ := validatedIndexPartitionRanges_eq_ok h.ranges
  obtain ⟨-, ⟨k, hk, hlength⟩, hbytes, hchain⟩ := canonicalIndexPartitionRanges_chain hcanonical
  have hpartitions : 2 ^ k ≤ 2 ^ 12 := Nat.pow_le_pow_right Nat.two_pos hk
  have hpositive : 0 < 2 ^ k := Nat.two_pow_pos k
  have hlast := hchain.length_le
  unfold isizeMax at hbytes
  have hslots : (BitVec.ofNat 64 indexSlots).toNat = indexSlots := Nat.mod_eq_of_lt h.indexSlots_lt
  have hpageCount : (BitVec.ofNat 64 ((indexSlots + 503) / 504)).toNat =
      (indexSlots + 503) / 504 := Nat.mod_eq_of_lt (by omega)
  have hcount : (BitVec.ofNat 32 ranges.length).toNat = 2 ^ k := by
    rw [hlength]
    exact Nat.mod_eq_of_lt (by omega)
  have hseqno : (BitVec.ofNat 64 appendShards.toNat).toNat = appendShards.toNat :=
    Nat.mod_eq_of_lt (appendShards.isLt.trans (by decide))
  have hfree : (data.geometry.regionCount - appendShards).toNat =
      data.geometry.regionCount.toNat - appendShards.toNat :=
    BitVec.toNat_sub_of_le (BitVec.le_def.2 h.shards_lt.le)
  have height : ¬ BitVec.ofNat 64 indexSlots < 8 := by
    rw [BitVec.not_lt, BitVec.le_def, hslots]
    exact h.eight_le_indexSlots
  have hne : ∀ {w : ℕ} {v : BitVec w}, 0 < v.toNat → v ≠ 0 := by
    rintro w v hv rfl
    simp at hv
  have hbound := h.shards_le
  have hlt := h.shards_lt
  have hregions := data.geometry.regionCount.isLt
  unfold validateRootDirectory
  simp only [emptyTable]
  refine (if_neg height).trans ?_
  simp only [hslots, h.ranges]
  rw [if_neg, Word.checkedAdd_of_lt (by omega)]
  · simp only [orArithmeticOverflow, bind, Except.bind]
    rw [if_neg (by simp [hfirst, hnext])]
  · simp only [not_or, not_not, hpageCount, hcount, hseqno, hfree, gt_iff_lt, ge_iff_le, Nat.not_lt,
      BitVec.not_le, BitVec.lt_def, isPowerOfTwo_two_pow, indexImageSlotsPerPage, recoveryPageSize]
    refine ⟨h.generation, by decide, trivial, ?_, h.regionSize_le, h.regionSize_aligned,
      hne (by omega), h.regionCount_le, hne (by omega), hpartitions, by simp, by omega,
      hne h.shards_pos, h.shards_le, h.shards_lt, by omega, trivial, ?_⟩
    · have := h.regionSize_pos
      have := h.regionSize_aligned
      omega
    · rw [Word.checkedAdd_of_lt (by omega), Option.bind_some,
        Word.checkedAdd_of_lt (by simp; omega)]
      simp
      omega

/-- The table of an empty data file passes its validation. -/
theorem TableFits.validate_ok (h : TableFits data indexSlots appendShards ranges) :
    (emptyTable data indexSlots appendShards ranges).validate = .ok () := by
  obtain ⟨hcanonical, -⟩ := validatedIndexPartitionRanges_eq_ok h.ranges
  obtain ⟨-, ⟨k, hk, hlength⟩, -, -⟩ := canonicalIndexPartitionRanges_chain hcanonical
  have hpartitions : 2 ^ k ≤ 2 ^ 12 := Nat.pow_le_pow_right Nat.two_pos hk
  have hpositive : 0 < 2 ^ k := Nat.two_pow_pos k
  have hcount : (BitVec.ofNat 32 ranges.length).toNat = ranges.length := by
    rw [hlength]
    exact Nat.mod_eq_of_lt (by omega)
  have hslots : (BitVec.ofNat 64 indexSlots).toNat = indexSlots := Nat.mod_eq_of_lt h.indexSlots_lt
  have hseqno : (BitVec.ofNat 64 appendShards.toNat).toNat = appendShards.toNat :=
    Nat.mod_eq_of_lt (appendShards.isLt.trans (by decide))
  have hfree : (data.geometry.regionCount - appendShards).toNat =
      data.geometry.regionCount.toNat - appendShards.toNat :=
    BitVec.toNat_sub_of_le (BitVec.le_def.2 h.shards_lt.le)
  have hregions := data.geometry.regionCount.isLt
  have hlt := h.shards_lt
  have hregion_ne : data.geometry.regionCount ≠ 0 := by
    intro hz
    rw [hz] at hlt
    simp at hlt
  have hpartition_ne : BitVec.ofNat 32 ranges.length ≠ 0 := by
    intro hz
    rw [hz, hlength] at hcount
    simp at hcount
    omega
  obtain ⟨layout, hlayout, hfirst, hnext, hpages⟩ := MetadataLayout.exists_new hregion_ne
    hpartition_ne h.regionCount_le (by rw [hcount, hlength]; exact hpartitions)
  have hlist : validateRegions (emptyTable data indexSlots appendShards ranges).root
      (emptyTable data indexSlots appendShards ranges).regions = .ok () := by
    refine validateRegions_ok (fun region hr => ?_) (emptyRegions_pairwise hregions)
      fun state k hk => emptyRegions_all rfl hfree rfl hlt.le state hk
    obtain ⟨regionId, hid, rfl⟩ := List.mem_map.1 hr
    exact emptyRegion_passes rfl hseqno hfree (List.mem_range.1 hid) hlt.le
  have hparts : validatePartitions (emptyTable data indexSlots appendShards ranges).root
      (emptyTable data indexSlots appendShards ranges).partitions = .ok () := by
    refine validatePartitions_empty ?_
    change canonicalIndexPartitionRanges (BitVec.ofNat 64 indexSlots).toNat = .ok ranges
    rw [hslots]
    exact hcanonical
  exact RegionMetadata.validate_ok hlayout (h.validateRootDirectory_ok hfirst hnext hpages)
    (by simp [emptyTable]) (by simp [emptyTable, hcount]) hlist hparts

/-- **An empty data file has a table.** -/
theorem emptyRegionMetadata_ok (h : TableFits data indexSlots appendShards ranges) :
    emptyRegionMetadata data indexSlots appendShards =
      .ok (emptyTable data indexSlots appendShards ranges) := by
  obtain ⟨hcanonical, -⟩ := validatedIndexPartitionRanges_eq_ok h.ranges
  obtain ⟨-, ⟨k, hk, hlength⟩, hbytes, -⟩ := canonicalIndexPartitionRanges_chain hcanonical
  have hpartitions : 2 ^ k ≤ 2 ^ 12 := Nat.pow_le_pow_right Nat.two_pos hk
  have hindex := recoveryImageIndexLen_eq (by have := h.eight_le_indexSlots; omega) hbytes
  have hguard : ¬ (appendShards = 0 ∨ data.geometry.regionCount ≤ appendShards) := by
    rw [not_or, BitVec.not_le, BitVec.lt_def]
    refine ⟨?_, h.shards_lt⟩
    rintro rfl
    simpa using h.shards_pos
  have hvalid := h.validate_ok
  rw [emptyRegionMetadata, if_neg hguard, hcanonical, hindex]
  simp only [Except.mapError, bind, Except.bind, Option.elim_some]
  rw [mapM_partitionMetadataFromStats (rangeFits_of_canonical hcanonical h.indexSlots_lt)]
  simp only
  rw [if_neg (by omega)]
  simp only [recoveryPageSize, Nat.mul_div_cancel _ (show 0 < 4096 by decide)]
  unfold emptyTable at hvalid ⊢
  rw [hvalid]

end Empty

/-! ## The manager of a table -/

/-- Queues that hold Regions below `n` only, each at its ordinal. -/
structure QueuesBelow (regions : List RegionMetadataRecord) (count : RegionState → ℕ) (n : ℕ)
    (queues : RegionState → List ℕ) : Prop where
  length_eq : ∀ state, (queues state).length = count state
  entry : ∀ state (k v : ℕ), (queues state)[k]? = some v → v = unassignedRegion ∨
    ∃ i region, i < n ∧ regions[i]? = some region ∧ region.state = state ∧
      region.queueOrdinal.toNat = k

/-- Regions with ordinals of their own can be put into their queues.

**Proof sketch.** Induction over the Regions that remain. The slot of the next Region exists, and a
Region that was there before would have the same ordinal. -/
lemma installRecoveredQueues_ok {regions : List RegionMetadataRecord} {count : RegionState → ℕ}
    (hlen : regions.length < 2 ^ 32)
    (hordinal : ∀ region ∈ regions, region.queueOrdinal.toNat < count region.state)
    (hpair : regions.Pairwise fun a b => a.state = b.state → a.queueOrdinal ≠ b.queueOrdinal) :
    ∀ {rest : List RegionMetadataRecord} {n : ℕ} {queues : RegionState → List ℕ},
      regions.drop n = rest → QueuesBelow regions count n queues →
      ∃ queues', installRecoveredQueues rest n queues = .ok queues' := by
  intro rest
  induction rest with
  | nil => exact fun _ _ => ⟨_, rfl⟩
  | cons encoded rest ih =>
    intro n queues hdrop hinv
    have hlt : n < regions.length := by
      by_contra hge
      rw [List.drop_eq_nil_of_le (by omega)] at hdrop
      cases hdrop
    have hn : regions[n]? = some encoded := by
      rw [← List.head?_drop, hdrop, List.head?_cons]
    have hmem : encoded ∈ regions := List.mem_of_getElem? hn
    have hslot : encoded.queueOrdinal.toNat < (queues encoded.state).length := by
      rw [hinv.length_eq]
      exact hordinal encoded hmem
    have hfree : (queues encoded.state)[encoded.queueOrdinal.toNat] = unassignedRegion := by
      rcases hinv.entry _ _ _ (List.getElem?_eq_getElem hslot) with hv | ⟨i, region, hi, hr, hs, ho⟩
      · exact hv
      · -- two Regions would have the same ordinal
        obtain ⟨hi', rfl⟩ := List.getElem?_eq_some_iff.1 hr
        obtain ⟨hn', hencoded⟩ := List.getElem?_eq_some_iff.1 hn
        have hne := List.pairwise_iff_getElem.1 hpair i n hi' hn' hi
        rw [hencoded] at hne
        exact absurd (BitVec.eq_of_toNat_eq ho) (hne hs)
    rw [installRecoveredQueues, (RegionManager.tryU32_eq_some (n := n)).2 ⟨hlt.trans hlen, rfl⟩]
    simp only [orArithmeticOverflow, bind, Except.bind, installRecoveredQueueEntry,
      List.getElem?_eq_getElem hslot, hfree, ne_eq, not_true_eq_false, if_false]
    refine ih (by rw [← List.tail_drop, hdrop, List.tail_cons]) ⟨fun state => ?_, ?_⟩
    · rw [Function.update_apply]
      split_ifs with hs
      · rw [List.length_set, hinv.length_eq, hs]
      · exact hinv.length_eq state
    · intro state k v hv
      rw [Function.update_apply] at hv
      split_ifs at hv with hs
      · rw [List.getElem?_set] at hv
        split_ifs at hv with hk
        · exact .inr ⟨n, encoded, Nat.lt_succ_self n, hn, hs.symm, hk⟩
        · rcases hinv.entry _ k v hv with hv | ⟨i, region, hi, hr, hrest⟩
          · exact .inl hv
          · exact .inr ⟨i, region, hi.trans (Nat.lt_succ_self n), hr, hs ▸ hrest⟩
      · rcases hinv.entry state k v hv with hv | ⟨i, region, hi, hrest⟩
        · exact .inl hv
        · exact .inr ⟨i, region, hi.trans (Nat.lt_succ_self n), hrest⟩

/-- **A valid table has a manager.** -/
theorem RegionManager.fromMetadata_ok {metadata : RegionMetadata}
    (h : metadata.validate = .ok ()) : ∃ m, fromMetadata metadata = .ok m := by
  have hv := RegionMetadata.valid_of_validate h
  have hcount := hv.regionCount_le
  have hbound : maxPackedRegionCount ≤ 2 ^ 20 := by decide
  have hinit := hv.queuesInstalled_unassigned fun _ => rfl
  obtain ⟨queues, hqueues⟩ := @installRecoveredQueues_ok metadata.regions
    (fun state => (metadata.root.stateCount state).toNat) (by rw [hv.length_regions]; omega)
    (fun region hr => (hv.regions region hr).ordinal_lt) hv.ordinals_ne metadata.regions 0
    (unassignedQueues metadata.root) rfl ⟨hinit.length_eq, fun state k v hk => by
      cases state <;> exact .inl (List.eq_of_mem_replicate (List.mem_of_getElem? hk))⟩
  have hinv := installRecoveredQueues_eq_ok (by
    rw [hv.length_regions]; exact hcount.trans (by decide)) rfl (Nat.zero_le _)
    hinit hqueues
  -- every slot of a queue belongs to a Region
  have hassigned : ∀ state, unassignedRegion ∉ queues state := by
    intro state hmem
    obtain ⟨k, hk⟩ := List.mem_iff_getElem?.1 hmem
    have hlt : k < (metadata.root.stateCount state).toNat := by
      rw [← hinv.length_eq]
      exact (List.getElem?_eq_some_iff.1 hk).1
    obtain ⟨region, hr, rfl, rfl⟩ := hv.ordinals_all state k hlt
    obtain ⟨i, hi⟩ := List.mem_iff_getElem?.1 hr
    have hilt := (List.getElem?_eq_some_iff.1 hi).1
    have := hinv.placed i region hilt hi
    rw [hk, Option.some.injEq] at this
    rw [hv.length_regions] at hilt
    unfold unassignedRegion at this
    omega
  have hinstall : ∀ initial : RegionState → List ℕ,
      (∀ state, initial state = unassignedQueues metadata.root state) →
      installRecoveredQueues metadata.regions 0 initial = .ok queues := by
    intro initial heq
    rw [funext heq]
    exact hqueues
  have hseqno := hv.maxSeqno_lt
  have hguard : ¬ ((metadata.regions.map RegionMetadataRecord.desc).length ≠
      metadata.root.regionCount.toNat ∨ unassignedRegion ∈ queues .active ∨
      unassignedRegion ∈ queues .free ∨ unassignedRegion ∈ queues .sealed) := by
    simp [hassigned, hv.length_regions]
  rw [fromMetadata, h]
  simp only [bind, Except.bind]
  rw [Word.checkedSub_of_le hv.shardCount_lt.le]
  simp only [orArithmeticOverflow]
  rw [hinstall _ fun state => by cases state <;> rfl]
  simp only
  rw [if_neg hguard, Word.checkedAdd_of_lt (by omega)]
  exact ⟨_, rfl⟩

end Cache2

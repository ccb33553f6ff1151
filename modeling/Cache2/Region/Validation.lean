import Cache2.Region.EmptyTable

set_option relaxedAutoImplicit false
set_option autoImplicit false

/-!
# What the validation of a table accepts

The exact conditions under which a table passes: on the root, on each Region by itself, on the
ordinals of all Regions together, and on the partitions. The three queues that an accepted table
describes can be read off its ordinals.

## Main definitions

* `Cache2.RootSound`, `Cache2.RegionSound` — the conditions on the root and on a Region.
* `Cache2.RegionMetadata.queue` — the ids of the Regions in a state, in the order of their ordinals.

## Main results

* `Cache2.RegionMetadata.validate_iff` — what the validation accepts.
* `Cache2.RegionMetadata.Valid.queue_getElem?` — what stands in a queue.
* `Cache2.RegionMetadata.Valid.countP_state` — how many Regions are in a state.
-/

namespace Cache2

open Loop

/-! ## The root -/

/-- What a root must satisfy, apart from what it says about the records. -/
structure RootSound (root : RegionMetadataRoot) : Prop where
  indexSlots_ge : 8 ≤ root.indexSlots.toNat
  ranges : ∃ ranges, validatedIndexPartitionRanges root.indexSlots.toNat = .ok ranges
  dataGeneration_ne : root.dataSuperblockGeneration ≠ 0
  imageGeneration_ne : root.imageGeneration ≠ 0
  indexPages : root.indexPageCount.toNat = (root.indexSlots.toNat + 503) / 504
  regionSize_ge : 4096 ≤ root.regionSize.toNat
  regionSize_le : root.regionSize.toNat ≤ maxPackedRegionSize
  regionSize_aligned : root.regionSize.toNat % 4096 = 0
  regionCount_ne : root.regionCount ≠ 0
  regionCount_le : root.regionCount.toNat ≤ maxPackedRegionCount
  partitionCount_ne : root.partitionCount ≠ 0
  partitionCount_le : root.partitionCount.toNat ≤ maxIndexPartitions
  partitionCount_power : isPowerOfTwo root.partitionCount.toNat = true
  partitionCount_pages : root.partitionCount.toNat ≤ root.indexPageCount.toNat
  shardCount_ne : root.shardCount ≠ 0
  shardCount_le : root.shardCount.toNat ≤ maxShards
  shardCount_lt : root.shardCount.toNat < root.regionCount.toNat
  maxSeqno_ne : root.maxSeqno.toNat ≠ 2 ^ 64 - 1
  active_eq : root.activeRegionCount = root.shardCount
  counts : root.freeRegionCount.toNat + root.activeRegionCount.toNat +
    root.sealedRegionCount.toNat = root.regionCount.toNat

/-- The three counts of a root add up. -/
lemma checkedCounts_eq_some {free active sealed' total : ℕ} (hlt : total < 2 ^ 32) :
    ((Word.checkedAdd 32 free active).bind fun count => Word.checkedAdd 32 count sealed') =
      some total ↔ free + active + sealed' = total := by
  simp only [Option.bind_eq_some_iff, Word.checkedAdd_eq_some]
  constructor
  · rintro ⟨_, ⟨-, rfl⟩, -, rfl⟩
    rfl
  · rintro rfl
    exact ⟨_, ⟨by omega, rfl⟩, by omega, rfl⟩

/-- The root that is accepted is sound. -/
lemma RootSound.of_ok {root : RegionMetadataRoot} {layout : MetadataLayout}
    (h : validateRootDirectory root layout = .ok ()) : RootSound root := by
  rw [validateRootDirectory, ite_error_eq_ok] at h
  obtain ⟨hslots, h⟩ := h
  rw [BitVec.not_lt, BitVec.le_def] at hslots
  cases hranges : validatedIndexPartitionRanges root.indexSlots.toNat with
  | error e => rw [hranges] at h; cases h
  | ok ranges =>
    rw [hranges] at h
    dsimp only at h
    rw [ite_error_eq_ok] at h
    obtain ⟨hroot, -⟩ := h
    simp only [not_or, not_not, Nat.not_lt, ge_iff_le, BitVec.not_le, gt_iff_lt, BitVec.lt_def,
      Bool.not_eq_false, checkedCounts_eq_some root.regionCount.isLt] at hroot
    obtain ⟨h1, h2, h3, h4, h5, h6, h7, h8, h9, h10, h11, h12, h13, h14, h15, h16, h17, h18⟩ :=
      hroot
    exact ⟨hslots, ⟨ranges, hranges⟩, h1, h2, h3, h4, h5, h6, h7, h8, h9, h10, h11, h12, h13, h14,
      h15, h16, h17, h18⟩

/-- A sound root is accepted, with the layout of its records. -/
lemma RootSound.passes {root : RegionMetadataRoot} (h : RootSound root) :
    ∃ layout, MetadataLayout.new root.regionCount root.partitionCount = .ok layout ∧
      validateRootDirectory root layout = .ok () := by
  obtain ⟨layout, hlayout, hfirst, hnext, hpages⟩ := MetadataLayout.exists_new h.regionCount_ne
    h.partitionCount_ne h.regionCount_le h.partitionCount_le
  obtain ⟨ranges, hranges⟩ := h.ranges
  refine ⟨layout, hlayout, ?_⟩
  rw [validateRootDirectory, ite_error_eq_ok, BitVec.not_lt, BitVec.le_def, hranges]
  refine ⟨h.indexSlots_ge, ?_⟩
  dsimp only
  rw [ite_error_eq_ok]
  refine ⟨?_, ?_⟩
  · simp only [not_or, not_not, Nat.not_lt, ge_iff_le, BitVec.not_le, gt_iff_lt, BitVec.lt_def,
      Bool.not_eq_false, checkedCounts_eq_some root.regionCount.isLt]
    exact ⟨h.dataGeneration_ne, h.imageGeneration_ne, h.indexPages, h.regionSize_ge,
      h.regionSize_le, h.regionSize_aligned, h.regionCount_ne, h.regionCount_le,
      h.partitionCount_ne, h.partitionCount_le, h.partitionCount_power, h.partitionCount_pages,
      h.shardCount_ne, h.shardCount_le, h.shardCount_lt, h.maxSeqno_ne, h.active_eq, h.counts⟩
  · rw [Word.checkedAdd_of_lt (by omega)]
    simp only [orArithmeticOverflow, bind, Except.bind]
    rw [if_neg (by simp [hfirst, hnext])]

/-! ## The Regions -/

/-- What a Region must satisfy by itself. -/
structure RegionSound (root : RegionMetadataRoot) (region : RegionMetadataRecord) : Prop where
  used_le : region.durableUsedOffset.toNat ≤ root.regionSize.toNat
  used_aligned : region.durableUsedOffset.toNat % 32 = 0
  ordinal_lt : region.queueOrdinal.toNat < (root.stateCount region.state).toNat
  free : region.state = .free → region.createdSeqno = 0 ∧ region.durableUsedOffset = 0 ∧
    region.physicalRecordCount = 0
  allocated : region.state ≠ .free → region.createdSeqno ≠ 0 ∧
    region.createdSeqno.toNat ≤ root.maxSeqno.toNat ∧
    (region.durableUsedOffset = 0 ↔ region.physicalRecordCount = 0) ∧
    region.physicalRecordCount.toNat * 64 ≤ region.durableUsedOffset.toNat

/-- A Region that is accepted is sound. -/
lemma RegionSound.of_ok {root : RegionMetadataRoot} {seen seen' : RegionState → List Bool}
    {region : RegionMetadataRecord} (h : validateRegion root seen region = .ok seen') :
    RegionSound root region := by
  obtain ⟨hvalid, -, -⟩ := validateRegion_eq_ok h
  unfold validateRegion at h
  rw [ite_error_eq_ok, ite_error_eq_ok] at h
  obtain ⟨-, -, h⟩ := h
  dsimp only at h
  split_ifs at h with hfree hzero halloc
  · simp only [not_or, not_not] at hzero
    exact ⟨hvalid.used_le, hvalid.used_aligned, hvalid.ordinal_lt, fun _ => hzero,
      fun hne => absurd hfree hne⟩
  · simp only [not_or, not_not] at halloc
    obtain ⟨hcreated, -, hcount⟩ := halloc
    refine ⟨hvalid.used_le, hvalid.used_aligned, hvalid.ordinal_lt, fun hf => absurd hf hfree,
      fun _ => ⟨hcreated, hvalid.created_le, ?_, hvalid.count_le⟩⟩
    simpa using hcount

/-- A sound Region is accepted unless its ordinal is taken. -/
lemma RegionSound.passes {root : RegionMetadataRoot} {region : RegionMetadataRecord}
    (h : RegionSound root region) : RegionPasses root region := by
  refine ⟨h.ordinal_lt, fun seen hdown => ?_⟩
  have hgeometry : ¬ (region.durableUsedOffset > root.regionSize ∨
      region.durableUsedOffset.toNat % 32 ≠ 0) := by
    simp only [not_or, gt_iff_lt, BitVec.not_lt, BitVec.le_def, not_not]
    exact ⟨h.used_le, h.used_aligned⟩
  have hordinal : ¬ (region.queueOrdinal ≥ root.stateCount region.state ∨
      (seen region.state).getD region.queueOrdinal.toNat false = true) := by
    simp only [not_or, ge_iff_le, BitVec.not_le, BitVec.lt_def, Bool.not_eq_true]
    exact ⟨h.ordinal_lt, hdown⟩
  unfold validateRegion
  rw [if_neg hgeometry, if_neg hordinal]
  dsimp only
  by_cases hfree : region.state = .free
  · obtain ⟨hcreated, hused, hcount⟩ := h.free hfree
    rw [if_pos hfree, if_neg (by simp [hcreated, hused, hcount])]
  · obtain ⟨hcreated, hmax, hempty, hbytes⟩ := h.allocated hfree
    have hlt := region.durableUsedOffset.isLt
    have hfit : minimumBytesFit region.physicalRecordCount.toNat region.durableUsedOffset.toNat =
        .ok true := by
      rw [minimumBytesFit, minEncodedRecordSize, Word.checkedMul_of_lt (by omega)]
      simp only [orArithmeticOverflow, bind, Except.bind, decide_eq_true hbytes]
    have halloc : ¬ (region.createdSeqno = 0 ∨ region.createdSeqno > root.maxSeqno ∨
        decide (region.durableUsedOffset = 0) ≠ decide (region.physicalRecordCount = 0)) := by
      simp only [not_or, gt_iff_lt, BitVec.not_lt, BitVec.le_def, not_not, decide_eq_decide]
      exact ⟨hcreated, hmax, hempty⟩
    rw [if_neg hfree, if_neg halloc, hfit]
    rfl

/-- The Regions that are accepted are sound. -/
lemma regionSound_of_list {root : RegionMetadataRoot} :
    ∀ {regions : List RegionMetadataRecord} {seen seen' : RegionState → List Bool},
      validateRegionList root regions seen = .ok seen' →
      ∀ region ∈ regions, RegionSound root region
  | [], _, _, _ => by simp
  | region :: rest, seen, seen', h => by
    rw [validateRegionList, except_bind_eq_ok] at h
    obtain ⟨marked, hregion, hrest⟩ := h
    intro r hr
    rcases List.mem_cons.1 hr with rfl | hr
    · exact .of_ok hregion
    · exact regionSound_of_list hrest r hr

/-! ## The table -/

/-- **Validation.** What the validation accepts. -/
theorem RegionMetadata.validate_iff {metadata : RegionMetadata} :
    metadata.validate = .ok () ↔ RootSound metadata.root ∧
      metadata.regions.length = metadata.root.regionCount.toNat ∧
      metadata.partitions.length = metadata.root.partitionCount.toNat ∧
      (∀ region ∈ metadata.regions, RegionSound metadata.root region) ∧
      (metadata.regions.Pairwise fun a b => a.state = b.state → a.queueOrdinal ≠ b.queueOrdinal) ∧
      (∀ state, ∀ k < (metadata.root.stateCount state).toNat,
        ∃ region ∈ metadata.regions, region.state = state ∧ region.queueOrdinal.toNat = k) ∧
      validatePartitions metadata.root metadata.partitions = .ok () := by
  constructor
  · intro h
    obtain ⟨layout, -, hroot, hregions, hpartitions, hlist, hparts⟩ := validate_eq_ok h
    obtain ⟨-, hpair, hall⟩ := validateRegions_eq_ok hlist
    rw [validateRegions, except_bind_eq_ok] at hlist
    obtain ⟨seen, hseen, -⟩ := hlist
    exact ⟨.of_ok hroot, hregions, hpartitions, regionSound_of_list hseen, hpair, hall, hparts⟩
  · rintro ⟨hroot, hregions, hpartitions, hsound, hpair, hall, hparts⟩
    obtain ⟨layout, hlayout, hdirectory⟩ := hroot.passes
    exact validate_ok hlayout hdirectory hregions hpartitions
      (validateRegions_ok (fun region hr => (hsound region hr).passes) hpair hall) hparts

/-! ## The queues -/

/-- The ids of the Regions in a state, in the order of their ordinals. -/
def RegionMetadata.queue (metadata : RegionMetadata) (state : RegionState) : List ℕ :=
  (List.range (metadata.root.stateCount state).toNat).map fun k =>
    metadata.regions.findIdx fun region => region.state = state ∧ region.queueOrdinal.toNat = k

section Queue

variable {metadata : RegionMetadata} {state : RegionState}

/-- The length of a queue. -/
@[simp] lemma RegionMetadata.length_queue :
    (metadata.queue state).length = (metadata.root.stateCount state).toNat := by
  rw [queue, List.length_map, List.length_range]

/-- Two Regions with one state and one ordinal are the same. -/
lemma RegionMetadata.Valid.ordinal_injective (hv : metadata.Valid) {i j : ℕ}
    {a b : RegionMetadataRecord} (ha : metadata.regions[i]? = some a)
    (hb : metadata.regions[j]? = some b) (hstate : a.state = b.state)
    (hordinal : a.queueOrdinal.toNat = b.queueOrdinal.toNat) : i = j := by
  obtain ⟨hi, rfl⟩ := List.getElem?_eq_some_iff.1 ha
  obtain ⟨hj, rfl⟩ := List.getElem?_eq_some_iff.1 hb
  have hpair := List.pairwise_iff_getElem.1 hv.ordinals_ne
  rcases Nat.lt_trichotomy i j with hlt | heq | hlt
  · exact absurd (BitVec.eq_of_toNat_eq hordinal) (hpair i j hi hj hlt hstate)
  · exact heq
  · exact absurd (BitVec.eq_of_toNat_eq hordinal.symm) (hpair j i hj hi hlt hstate.symm)

/-- **Queues.** What stands in a queue of a valid table. -/
theorem RegionMetadata.Valid.queue_getElem? (hv : metadata.Valid) {k i : ℕ} :
    (metadata.queue state)[k]? = some i ↔ ∃ region, metadata.regions[i]? = some region ∧
      region.state = state ∧ region.queueOrdinal.toNat = k := by
  -- the Region that the search finds
  have hfind : ∀ k < (metadata.root.stateCount state).toNat, ∃ region,
      metadata.regions[metadata.regions.findIdx fun region =>
        region.state = state ∧ region.queueOrdinal.toNat = k]? = some region ∧
      region.state = state ∧ region.queueOrdinal.toNat = k := by
    intro k hk
    obtain ⟨region, hr, hregion⟩ := hv.ordinals_all state k hk
    have hlt : (metadata.regions.findIdx fun region =>
        decide (region.state = state ∧ region.queueOrdinal.toNat = k)) < metadata.regions.length :=
      List.findIdx_lt_length_of_exists ⟨region, hr, by simpa using hregion⟩
    exact ⟨_, List.getElem?_eq_getElem hlt, by simpa using List.findIdx_getElem (w := hlt)⟩
  rw [queue, List.getElem?_map]
  constructor
  · intro h
    obtain ⟨k', hk', rfl⟩ := Option.map_eq_some_iff.1 h
    obtain ⟨hlt, rfl⟩ := List.getElem?_eq_some_iff.1 hk'
    rw [List.length_range] at hlt
    rw [List.getElem_range]
    exact hfind k hlt
  · rintro ⟨region, hregion, hstate, rfl⟩
    have hlt := (hv.regions region (List.mem_of_getElem? hregion)).ordinal_lt
    rw [hstate] at hlt
    rw [List.getElem?_range hlt, Option.map_some, Option.some.injEq]
    obtain ⟨found, hfound, hfstate, hfordinal⟩ := hfind _ hlt
    exact hv.ordinal_injective hfound hregion (hfstate.trans hstate.symm) hfordinal

/-- No Region stands in a queue twice. -/
lemma RegionMetadata.Valid.nodup_queue (hv : metadata.Valid) : (metadata.queue state).Nodup := by
  rw [List.Nodup, List.pairwise_iff_getElem]
  intro j k hj hk hlt heq
  obtain ⟨a, ha, -, hordinal⟩ := hv.queue_getElem?.1 (List.getElem?_eq_getElem hj)
  obtain ⟨b, hb, -, hordinal'⟩ := hv.queue_getElem?.1 (List.getElem?_eq_getElem hk)
  rw [heq, hb, Option.some.injEq] at ha
  subst ha
  omega

/-- As many Regions are in a state as the root says. -/
theorem RegionMetadata.Valid.countP_state (hv : metadata.Valid) (state : RegionState) :
    metadata.regions.countP (·.state = state) = (metadata.root.stateCount state).toNat := by
  set ids := (metadata.regions.zipIdx.filter fun entry => entry.1.state = state).map Prod.snd
    with hids
  have hperm : ids.Perm (metadata.queue state) := by
    have hnodup : ids.Nodup := by
      refine (List.filter_sublist.map Prod.snd).nodup ?_
      rw [List.zipIdx_map_snd]
      exact List.nodup_range'
    refine (List.perm_ext_iff_of_nodup hnodup hv.nodup_queue).2 fun i => ?_
    rw [hids, List.mem_map, List.mem_iff_getElem?]
    constructor
    · rintro ⟨⟨region, i⟩, hmem, rfl⟩
      obtain ⟨hregion, hstate⟩ := List.mem_filter.1 hmem
      exact ⟨_, hv.queue_getElem?.2 ⟨region, List.mem_zipIdx_iff_getElem?.1 hregion,
        by simpa using hstate, rfl⟩⟩
    · rintro ⟨k, hk⟩
      obtain ⟨region, hregion, hstate, -⟩ := hv.queue_getElem?.1 hk
      exact ⟨(region, i), List.mem_filter.2 ⟨List.mem_zipIdx_iff_getElem?.2 hregion,
        by simpa using hstate⟩, rfl⟩
  calc metadata.regions.countP (·.state = state)
      = (metadata.regions.zipIdx.map Prod.fst).countP (·.state = state) := by
        rw [List.zipIdx_map_fst]
    _ = ids.length := by
        rw [List.countP_map, List.countP_eq_length_filter, hids, List.length_map]
        rfl
    _ = (metadata.root.stateCount state).toNat := by rw [hperm.length_eq, length_queue]

end Queue

end Cache2

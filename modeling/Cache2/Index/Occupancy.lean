import Cache2.Index.WarmImage

set_option relaxedAutoImplicit false
set_option autoImplicit false

/-!
# The occupied count of a partition

Each partition of the index keeps the number of its occupied buckets, moved by one checked
transition for each bucket that is replaced and compared with a recount when the index is written
to an image (`region/index/storage/mod.rs`). Here the count is compared with the words of the
image themselves, after any operations, from an empty index and from any valid image.

A mapped image may hold any words that pass validation. Two of its buckets may carry the same
token, so nothing here rests on the invariant of the lossy map.

## Main definitions

* `Cache2.IndexStorageCore.nonEmptySlots` — the number of non-empty slots of a partition.
* `Cache2.PartitionedIndexStorage.ValidImage` — a mapped image that is valid throughout.
* `Cache2.CountedIndex` — an index after any operations, from an empty or a valid image.

## Main results

* `Cache2.PartitionedIndexStorage.ValidImage.repr` — a valid image represents a table.
* `Cache2.IndexOp.run_repr` — an operation succeeds from every represented table.
* `Cache2.IndexReachable.counted` — every reachable index is one of those considered here.
* `Cache2.indexOccupancy_exact` — the counts stay exact, and no transition or emission fails.
-/

namespace Cache2

open Bytes Loop

/-! ## Non-empty slots -/

/-- A word is empty exactly when its meaning is. -/
lemma IndexSlot.weight_of_runtimeState {slot : IndexSlot} {state : IndexSlotState}
    (h : slot.runtimeState = .ok state) :
    state.physicalKind.weight = if slot ≠ IndexSlot.EMPTY then 1 else 0 := by
  have hempty : slot = IndexSlot.EMPTY ↔ slot.encoded.toNat = 0 := by
    cases slot with
    | mk encoded =>
      rw [IndexSlot.EMPTY, IndexSlot.mk.injEq, ← BitVec.toNat_inj]
      rfl
  rw [← IndexSlot.physicalKind_of_runtimeState h, IndexSlot.physicalKind]
  by_cases hz : slot = IndexSlot.EMPTY
  · rw [if_pos (hempty.1 hz), if_neg (not_not_intro hz)]
    rfl
  · rw [if_neg fun hn => hz (hempty.2 hn), if_pos hz]
    rfl

namespace IndexStorageCore

/-- The word of a bucket in the image. -/
def slotWord (core : IndexStorageCore) (slot : ℕ) : IndexSlot :=
  IndexSlot.decode (slice core.bytes (slotByte slot) 8)

/-- The number of non-empty slots of a partition, counted in the image. -/
def nonEmptySlots (core : IndexStorageCore) (range : IndexPartitionRange) : ℕ :=
  (List.range range.slotCount).countP fun slot =>
    core.slotWord (range.firstSlot + slot) ≠ IndexSlot.EMPTY

/-- In an image that represents a table, the non-empty slots are the occupied buckets. -/
lemma nonEmptySlots_eq {crc : List UInt8 → BitVec 32} {slotCount : ℕ} {t : ℕ → IndexSlotState}
    {core : IndexStorageCore} (h : CoreRepr crc slotCount t core) {range : IndexPartitionRange}
    (hin : ∀ slot < range.slotCount, range.firstSlot + slot < slotCount) :
    core.nonEmptySlots range = occupied range t := by
  have hcount : ∀ k ≤ range.slotCount,
      ((List.range k).countP fun slot =>
        core.slotWord (range.firstSlot + slot) ≠ IndexSlot.EMPTY) =
        ∑ slot ∈ Finset.range k, (t (range.firstSlot + slot)).physicalKind.weight := by
    intro k hk
    induction k with
    | zero => rfl
    | succ k ih =>
      have hword := IndexSlot.weight_of_runtimeState (h.slots _ (hin k (by omega)))
      rw [List.range_succ, List.countP_append, Finset.sum_range_succ, ih (by omega), hword,
        List.countP_singleton]
      exact congrArg (_ + ·) (if_congr decide_eq_true_iff rfl rfl)
  exact hcount _ le_rfl

end IndexStorageCore

/-- The counters of a represented storage are the numbers of non-empty slots. -/
lemma StorageRepr.stats_getElem? {crc : List UInt8 → BitVec 32} {slotCount : ℕ}
    {ranges : List IndexPartitionRange} {t : ℕ → IndexSlotState}
    {storage : PartitionedIndexStorage}
    (hr : canonicalIndexPartitionRanges slotCount = .ok ranges)
    (h : StorageRepr crc slotCount ranges t storage) {p : ℕ} {range : IndexPartitionRange}
    (hp : ranges[p]? = some range) :
    storage.stats[p]? = some ⟨storage.core.nonEmptySlots range, 0⟩ := by
  obtain ⟨-, -, -, hchain⟩ := canonicalIndexPartitionRanges_chain hr
  obtain ⟨hi, rfl⟩ := List.getElem?_eq_some_iff.1 hp
  rw [h.stats_eq, List.getElem?_map, hp,
    IndexStorageCore.nonEmptySlots_eq h.core fun slot hs => hchain.slot_lt hi hs]
  rfl

/-! ## Valid images -/

/-- A mapped image that is valid throughout: every page would pass its validation, and the
counters that came with it are those of its words. -/
structure PartitionedIndexStorage.ValidImage (crc : List UInt8 → BitVec 32)
    (storage : PartitionedIndexStorage) : Prop where
  pages : ∀ page < storage.core.pageCount, storage.core.validateMappedPage crc page = .ok ()
  stats : storage.stats =
    storage.ranges.map fun range => ⟨storage.core.nonEmptySlots range, 0⟩

/-- The slots of a page that passed have a meaning. -/
lemma IndexStorageCore.runtimeState_of_validatePageSlots {page : List UInt8} {firstSlot : ℕ} :
    ∀ {slots : List ℕ}, validatePageSlots page firstSlot slots = .ok () → ∀ i ∈ slots,
      ∃ state, (IndexSlot.decode (slice page (64 + i * 8) 8)).runtimeState = .ok state := by
  intro slots
  induction slots with
  | nil =>
    intro _ i hi
    exact absurd hi List.not_mem_nil
  | cons slot slots ih =>
    intro h i hi
    rw [validatePageSlots] at h
    cases hidx : Word.checkedAdd 64 firstSlot slot with
    | none => simp [hidx, orOverflow, bind, Except.bind] at h
    | some slotIndex =>
      cases hmul : Word.checkedMul 64 slot indexImageSlotSize with
      | none => simp [hidx, hmul, orOverflow, bind, Except.bind] at h
      | some inPage =>
        cases hadd : Word.checkedAdd 64 indexImagePageHeaderSize inPage with
        | none => simp [hidx, hmul, hadd, orOverflow, bind, Except.bind] at h
        | some offset =>
          simp only [hidx, hmul, hadd, orOverflow, bind, Except.bind] at h
          have hoffset : offset = 64 + slot * 8 := by
            rw [(Word.checkedAdd_eq_some.1 hadd).2, (Word.checkedMul_eq_some.1 hmul).2]
            rfl
          rw [hoffset, indexImageSlotSize] at h
          cases hstate : (IndexSlot.decode (slice page (64 + slot * 8) 8)).runtimeState with
          | error reason => simp [hstate] at h
          | ok state =>
            simp only [hstate] at h
            rcases List.mem_cons.1 hi with rfl | hmem
            · exact ⟨state, hstate⟩
            · exact ih h i hmem

/-- What a mapped page has to pass: the checks of its header and of its buckets. -/
lemma IndexStorageCore.validateMappedPage_eq_ok {crc : List UInt8 → BitVec 32}
    {core : IndexStorageCore} {page : ℕ} (h : core.validateMappedPage crc page = .ok ()) :
    ∃ binding, core.expectedBinding = some binding ∧
      validatePageHeader crc (slice core.bytes (page * 4096) 4096) page (page * 504)
        (core.validSlotsInPage page) binding = .ok () ∧
      validatePageSlots (slice core.bytes (page * 4096) 4096) (page * 504)
        (List.range (core.validSlotsInPage page)) = .ok () := by
  unfold validateMappedPage at h
  cases hbinding : core.expectedBinding with
  | none => simp [hbinding] at h
  | some binding =>
    cases hbase : Word.checkedMul 64 page indexImagePageSize with
    | none => simp [hbinding, hbase, orOverflow, bind, Except.bind] at h
    | some offset =>
      cases hfirst : Word.checkedMul 64 page indexImageSlotsPerPage with
      | none => simp [hbinding, hbase, hfirst, orOverflow, bind, Except.bind] at h
      | some first =>
        obtain rfl : offset = page * 4096 := (Word.checkedMul_eq_some.1 hbase).2
        obtain rfl : first = page * 504 := (Word.checkedMul_eq_some.1 hfirst).2
        simp only [hbinding, hbase, hfirst, orOverflow, bind, Except.bind] at h
        cases hheader : validatePageHeader crc (slice core.bytes (page * 4096) indexImagePageSize)
            page (page * 504) (core.validSlotsInPage page) binding with
        | error reason => simp [hheader] at h
        | ok u =>
          simp only [hheader] at h
          exact ⟨binding, rfl, hheader, h⟩

/-- The slots of a page that passed its validation have a meaning. -/
lemma IndexStorageCore.runtimeState_of_validateMappedPage {crc : List UInt8 → BitVec 32}
    {core : IndexStorageCore} {page : ℕ} (h : core.validateMappedPage crc page = .ok ()) {i : ℕ}
    (hi : i < core.validSlotsInPage page) :
    ∃ state, (IndexSlot.decode
      (slice core.bytes (page * 4096 + (64 + i * 8)) 8)).runtimeState = .ok state := by
  have hlt : i < 504 := hi.trans_le (Nat.min_le_right _ _)
  obtain ⟨binding, -, -, hslots⟩ := validateMappedPage_eq_ok h
  have hslot := runtimeState_of_validatePageSlots hslots i (List.mem_range.2 hi)
  rwa [slice_slice _ (by omega)] at hslot

/-- What a successful mapping is: the bytes of the image in the file, nothing validated yet. -/
lemma PartitionedIndexStorage.eq_of_mapPrivate {file : List UInt8} {offset slotCount : ℕ}
    {binding : IndexImageBinding} {stats : List IndexPhysicalStats}
    {storage : PartitionedIndexStorage}
    (h : mapPrivate file offset slotCount binding stats = .ok storage) :
    ∃ ranges, canonicalIndexPartitionRanges slotCount = .ok ranges ∧
      offset + (slotCount + 503) / 504 * 4096 ≤ file.length ∧
      storage = ⟨slotCount, ranges,
        { bytes := slice file offset ((slotCount + 503) / 504 * 4096)
          slotCount
          pageCount := (slotCount + 503) / 504
          expectedBinding := some binding
          imageRejected := false
          pageStates := List.replicate ((slotCount + 503) / 504) .unchecked }, stats⟩ := by
  unfold mapPrivate at h
  cases hr : canonicalIndexPartitionRanges slotCount with
  | error e => simp [hr, bind, Except.bind] at h
  | ok ranges =>
    have hlayout := imageLayout_of_ranges hr
    cases hsum : checkedSumPhysicalStats stats with
    | error e =>
      simp only [hr, bind, Except.bind, hsum] at h
      split_ifs at h
    | ok total =>
      cases hend : Word.checkedAdd 64 offset ((slotCount + 503) / 504 * 4096) with
      | none =>
        simp only [hr, bind, Except.bind, hsum, hlayout, hend, orOverflow] at h
        split_ifs at h
      | some mappingLen =>
        simp only [hr, bind, Except.bind, hsum, hlayout, hend, orOverflow] at h
        split_ifs at h with _ _ _ _ _ _ hfile
        rw [(Word.checkedAdd_eq_some.1 hend).2] at hfile
        cases h
        exact ⟨ranges, rfl, Nat.not_lt.1 hfile, rfl⟩

/-- **Valid images.** A mapped image that is valid throughout represents the table of its
words. -/
theorem PartitionedIndexStorage.ValidImage.repr {crc : List UInt8 → BitVec 32} {slotCount : ℕ}
    {file : List UInt8} {offset : ℕ} {binding : IndexImageBinding}
    {stats : List IndexPhysicalStats} {storage : PartitionedIndexStorage}
    (hmap : mapPrivate file offset slotCount binding stats = .ok storage)
    (hvalid : storage.ValidImage crc) :
    ∃ ranges, canonicalIndexPartitionRanges slotCount = .ok ranges ∧
      StorageRepr crc slotCount ranges (RegionIndex.fromStorage storage).table storage := by
  obtain ⟨ranges, hr, hfile, rfl⟩ := eq_of_mapPrivate hmap
  obtain ⟨-, -, himg, hchain⟩ := canonicalIndexPartitionRanges_chain hr
  set storage : PartitionedIndexStorage := ⟨slotCount, ranges, _, stats⟩ with hstorage
  have hslots : ∀ slot < slotCount, (storage.core.slotWord slot).runtimeState =
      .ok ((RegionIndex.fromStorage storage).table slot) := by
    intro slot hs
    have hin : slot % 504 < storage.core.validSlotsInPage (slot / 504) := by
      simp only [IndexStorageCore.validSlotsInPage, indexImageSlotsPerPage, hstorage]
      omega
    obtain ⟨state, hstate⟩ := IndexStorageCore.runtimeState_of_validateMappedPage
      (hvalid.pages (slot / 504) (by rw [hstorage]; show _ < (slotCount + 503) / 504; omega)) hin
    have hword : (storage.core.slotWord slot).runtimeState = .ok state := by
      rw [IndexStorageCore.slotWord, slotByte, Nat.add_assoc]
      exact hstate
    rw [hword]
    simp only [RegionIndex.table, RegionIndex.fromStorage]
    rw [← IndexStorageCore.slotWord, hword]
  have hcore : CoreRepr crc slotCount (RegionIndex.fromStorage storage).table storage.core :=
    { slotCount_eq := rfl
      pageCount_eq := rfl
      image_le := himg
      length_bytes := length_slice hfile
      length_pageStates := List.length_replicate ..
      usable := rfl
      pages := fun page hp => .inr ⟨by simp [hstorage, hp], hvalid.pages page hp⟩
      slots := hslots }
  refine ⟨ranges, hr, rfl, rfl, hcore, ?_⟩
  rw [hvalid.stats]
  refine List.map_congr_left fun range hmem => ?_
  obtain ⟨i, hi, rfl⟩ := List.getElem_of_mem hmem
  rw [IndexStorageCore.nonEmptySlots_eq hcore fun slot hs => hchain.slot_lt hi hs]

/-- A mapped image that represents a table is valid throughout. -/
lemma PartitionedIndexStorage.ValidImage.of_repr {crc : List UInt8 → BitVec 32} {slotCount : ℕ}
    {ranges : List IndexPartitionRange} {t : ℕ → IndexSlotState} {file : List UInt8} {offset : ℕ}
    {binding : IndexImageBinding} {stats : List IndexPhysicalStats}
    {storage : PartitionedIndexStorage}
    (hr : canonicalIndexPartitionRanges slotCount = .ok ranges)
    (hmap : mapPrivate file offset slotCount binding stats = .ok storage)
    (h : StorageRepr crc slotCount ranges t storage) : storage.ValidImage crc := by
  obtain ⟨-, -, -, hchain⟩ := canonicalIndexPartitionRanges_chain hr
  refine ⟨fun page hpage => ?_, ?_⟩
  · rw [h.core.pageCount_eq] at hpage
    rcases h.core.pages page hpage with hv | ⟨-, hok⟩
    · obtain ⟨_, -, -, heq⟩ := eq_of_mapPrivate hmap
      rw [heq] at hv
      simp [hpage] at hv
    · exact hok
  · rw [h.stats_eq, h.ranges_eq]
    refine List.map_congr_left fun range hmem => ?_
    obtain ⟨i, hi, rfl⟩ := List.getElem_of_mem hmem
    rw [IndexStorageCore.nonEmptySlots_eq h.core fun slot hs => hchain.slot_lt hi hs]

/-! ## Operations -/

section Operations

variable {crc : List UInt8 → BitVec 32} {slotCount : ℕ} {ranges : List IndexPartitionRange}
  {t : ℕ → IndexSlotState} {heat : SlotHeat}

/-- The index represents some table. -/
def Represented (crc : List UInt8 → BitVec 32) (slotCount : ℕ) (ranges : List IndexPartitionRange)
    (idx : RegionIndex) : Prop :=
  ∃ t, IndexRepr crc slotCount ranges t idx

/-- A candidate loop succeeds if what it does to an accepted bucket succeeds. -/
lemma RegionIndex.forCandidates_repr {β : Type} (hash : Hash)
    (hr : canonicalIndexPartitionRanges slotCount = .ok ranges)
    {accepts : IndexSlotState → ℕ → Bool}
    {found : IndexPartitionRange → ℕ → ℕ → IndexSlotState → IndexM β} {missed : IndexM β}
    (hfound : ∀ (p : ℕ) (range : IndexPartitionRange) (d slot : ℕ), ranges[p]? = some range →
      slot < range.slotCount → Ensures (HeatRepr crc slotCount ranges t heat)
        (found range d slot (t (range.firstSlot + slot)))
        fun _ => Represented crc slotCount ranges)
    (hmissed : Ensures (HeatRepr crc slotCount ranges t heat) missed
      fun _ => Represented crc slotCount ranges) :
    Ensures (HeatRepr crc slotCount ranges t heat) (forCandidates crc hash accepts found missed)
      fun _ => Represented crc slotCount ranges := by
  obtain ⟨range, hp, h4, -⟩ := hashPartition_spec crc t heat hash hr
  refine forCandidates_spec hash hr hp (fun d _ _ _ => ?_) fun _ => hmissed
  exact hfound _ range d _ hp (slotFromHome_lt d (homeSlot_lt hash (by omega)))

/-- **Operations on a represented table.** Every operation succeeds and leaves an index that
represents a table. -/
theorem IndexOp.run_repr (hr : canonicalIndexPartitionRanges slotCount = .ok ranges)
    (op : IndexOp) :
    Ensures (IndexRepr crc slotCount ranges t) (op.run crc)
      fun _ => Represented crc slotCount ranges := by
  refine Ensures.of_heat fun heat => ?_
  have hsame : ∀ {α : Type} (a : α) (heat : SlotHeat), Ensures (ε := IndexStorageError)
      (HeatRepr crc slotCount ranges t heat) (pure a) fun _ => Represented crc slotCount ranges :=
    fun a heat => Ensures.pure fun idx h => ⟨t, h.1⟩
  have hdrop : ∀ {α : Type} {f : IndexM α}, Ensures (HeatRepr crc slotCount ranges t heat) f
      (fun _ => Represented crc slotCount ranges) →
      Ensures (HeatRepr crc slotCount ranges t heat) (do let _ ← f)
        fun _ => Represented crc slotCount ranges :=
    fun hf => hf.bind fun _ => Ensures.pure fun _ h => h
  -- a bucket that was read is replaced
  have hreplace : ∀ {α : Type} (p : ℕ) (range : IndexPartitionRange) (slot : ℕ)
      (next : IndexSlotState) (a : α) (heat : SlotHeat), ranges[p]? = some range →
      slot < range.slotCount → Ensures (HeatRepr crc slotCount ranges t heat) (do
        RegionIndex.replaceSlot crc range slot (t (range.firstSlot + slot)) next
        pure a) fun _ => Represented crc slotCount ranges := by
    intro α p range slot next a heat hp hs
    refine Ensures.bind (RegionIndex.replaceSlot_spec crc hr hp hs rfl next) fun _ => ?_
    exact Ensures.pure fun idx h => ⟨_, h.1⟩
  have hglobal : ∀ {p : ℕ} {range : IndexPartitionRange} {slot : ℕ}, ranges[p]? = some range →
      slot < range.slotCount → range.globalSlot slot = .ok (range.firstSlot + slot) := by
    intro p range slot hp hs
    obtain ⟨hi, rfl⟩ := List.getElem?_eq_some_iff.1 hp
    exact PartitionedIndexStorage.globalSlot_eq hr hi hs
  have hremove : ∀ (hash : Hash) (expected : Option PackedLocation),
      Ensures (HeatRepr crc slotCount ranges t heat) (RegionIndex.removeMatching crc hash expected)
        fun _ => Represented crc slotCount ranges := by
    intro hash expected
    refine RegionIndex.forCandidates_repr hash hr ?_ ?_
    · exact fun p range d slot hp hs => hreplace p range slot .empty true heat hp hs
    · cases expected with
      | none => exact hsame false heat
      | some _ =>
        refine Ensures.bind (RegionIndex.recordActivity_spec fun _ => ⟨rfl, rfl⟩) fun _ => ?_
        exact hsame false heat
  cases op with
  | lookupRaw hash =>
    refine hdrop (RegionIndex.forCandidates_repr hash hr ?_ (hsame none heat))
    intro p range d slot hp hs
    rw [hglobal hp hs]
    refine Ensures.bind_eq (orThrow_ok _) ?_
    refine Ensures.bind (RegionIndex.modifyHeat_spec _) fun _ => ?_
    cases t (range.firstSlot + slot) with
    | empty => exact hsame none _
    | value _ _ entry => exact hsame (some entry) _
  | upsert hash supplied =>
    obtain ⟨range, hp, -, -⟩ := RegionIndex.hashPartition_spec crc t heat hash hr
    refine hdrop ?_
    intro idx h
    have hst : ∀ s < range.slotCount, (range.bucket t s).stored = range.bucket t s := by
      intro s hs
      obtain ⟨-, -, -, hchain⟩ := canonicalIndexPartitionRanges_chain hr
      obtain ⟨hi, rfl⟩ := List.getElem?_eq_some_iff.1 hp
      exact h.1.stored_eq (hchain.slot_lt hi hs)
    obtain ⟨result, idx', hrun, -, t', -, h'⟩ :=
      RegionIndex.upsert_spec hash supplied hr hp hst idx h.1
    exact ⟨result, idx', hrun, t', h'⟩
  | tryDelete hash => exact hdrop (hremove hash none)
  | removeIfMatch hash old => exact hdrop (hremove hash (some old))
  | replaceIfMatch hash old replacement =>
    refine hdrop (RegionIndex.forCandidates_repr hash hr ?_ ?_)
    · exact fun p range d slot hp hs => hreplace p range slot _ true heat hp hs
    · exact Ensures.bind (RegionIndex.recordActivity_spec fun _ => ⟨rfl, rfl⟩)
        fun _ => hsame false heat
  | prepareReclaim hash old =>
    refine hdrop (RegionIndex.forCandidates_repr hash hr ?_ ?_)
    · intro p range d slot hp hs
      rw [hglobal hp hs]
      refine Ensures.bind_eq (orThrow_ok _) ?_
      refine Ensures.of_state fun idx h => ?_
      refine Ensures.bind_eq (v := idx) (R := fun s => s = idx) (by
        rintro _ rfl
        exact ⟨_, _, rfl, rfl, rfl⟩) ?_
      refine Ensures.bind (R := fun _ => HeatRepr crc slotCount ranges t
        (idx.heat.takeHot (range.firstSlot + slot)).2) (by
          rintro _ rfl
          exact RegionIndex.modifyHeat_spec (fun _ => _) _ h) fun _ => ?_
      split_ifs
      · exact hsame ReclaimIndexAction.reinsert _
      · exact hreplace p range slot .empty ReclaimIndexAction.removed _ hp hs
    · exact Ensures.bind (RegionIndex.recordActivity_spec fun _ => ⟨rfl, rfl⟩) fun _ =>
        hsame ReclaimIndexAction.missing heat
  | setActivityCountersEnabled enabled => exact fun idx h => ⟨(), _, rfl, t, h.1⟩

end Operations

/-! ## Counted indexes -/

/-- An index that started empty or on a valid image, after any operations and image writes. -/
inductive CountedIndex (crc : List UInt8 → BitVec 32) (slotCount : ℕ) : RegionIndex → Prop
  | fresh {storage : PartitionedIndexStorage}
      (h : PartitionedIndexStorage.anonymous slotCount = .ok storage) :
      CountedIndex crc slotCount (RegionIndex.fromStorage storage)
  | mapped {file : List UInt8} {offset : ℕ} {binding : IndexImageBinding}
      {stats : List IndexPhysicalStats} {storage : PartitionedIndexStorage}
      (h : PartitionedIndexStorage.mapPrivate file offset slotCount binding stats = .ok storage)
      (hvalid : storage.ValidImage crc) :
      CountedIndex crc slotCount (RegionIndex.fromStorage storage)
  | op {idx idx' : RegionIndex} (h : CountedIndex crc slotCount idx) (o : IndexOp)
      (hrun : o.run crc idx = .ok () idx') : CountedIndex crc slotCount idx'
  | write {idx : RegionIndex} {batch : ℕ} {binding : IndexImageBinding} {stats : WarmImageStats}
      {s : WarmImageWrite} (h : CountedIndex crc slotCount idx) (hbatch : 0 < batch)
      (hwrite : writeWarmImage crc batch binding ⟨idx.storage, .new⟩ = .ok stats s) :
      CountedIndex crc slotCount { idx with storage := s.storage }

/-- **Counted indexes represent a table.** -/
theorem CountedIndex.represented {crc : List UInt8 → BitVec 32} {slotCount : ℕ}
    {idx : RegionIndex} (h : CountedIndex crc slotCount idx) :
    ∃ ranges, canonicalIndexPartitionRanges slotCount = .ok ranges ∧
      Represented crc slotCount ranges idx := by
  induction h with
  | fresh h =>
    obtain ⟨ranges, hr, hrepr⟩ := anonymous_repr crc h
    exact ⟨ranges, hr, _, hrepr⟩
  | mapped h hvalid =>
    obtain ⟨ranges, hr, hrepr⟩ := PartitionedIndexStorage.ValidImage.repr h hvalid
    exact ⟨ranges, hr, _, hrepr⟩
  | op _ o hrun ih =>
    obtain ⟨ranges, hr, t, hrepr⟩ := ih
    obtain ⟨⟨⟩, idx', hrun', hrepr'⟩ := o.run_repr hr _ hrepr
    rw [hrun] at hrun'
    cases hrun'
    exact ⟨ranges, hr, hrepr'⟩
  | write _ hbatch hwrite ih =>
    obtain ⟨ranges, hr, t, hrepr⟩ := ih
    exact ⟨ranges, hr, t, (writeWarmImage_repr hr hrepr hbatch hwrite).1⟩

/-- **Reachable indexes are counted.** An image that was written is a valid one. -/
theorem IndexReachable.counted {crc : List UInt8 → BitVec 32} {slotCount : ℕ}
    {idx : RegionIndex} (h : IndexReachable crc slotCount idx) :
    CountedIndex crc slotCount idx := by
  induction h with
  | fresh h => exact .fresh h
  | op _ o hrun ih => exact ih.op o hrun
  | write _ hbatch hwrite ih => exact ih.write hbatch hwrite
  | restart _ hbatch hwrite hmap ih =>
    obtain ⟨ranges, hr, t, hrepr⟩ := ih.represented
    obtain ⟨-, hout⟩ := writeWarmImage_repr hr hrepr hbatch hwrite
    have hplace := mapPrivate_place hr hmap
    refine .mapped hmap (.of_repr hr hmap (t := t) ?_)
    obtain ⟨storage', hmap', hrepr'⟩ := mapPrivate_imagePages crc hr
      (isValid_of_writeWarmImage hr hrepr hwrite) (fun _ hs => hrepr.stored_eq hs) _
      hplace.1 hplace.2
    rw [hout, hrepr.stats_eq, hmap'] at hmap
    cases hmap
    exact hrepr'

/-- **Occupancy is exact.** In an index of any admitted size that started empty or on a valid
image, after any operations and image writes, whose buckets may carry any tokens:

* the count of every partition is the number of its non-empty slots;
* replacing any bucket of any partition, observed as it is, by any state is a possible transition
  of the count, and every operation succeeds;
* writing the image never reports invalid counters: with an acceptable binding it succeeds, and
  a zero binding is refused for what it is. -/
theorem indexOccupancy_exact {crc : List UInt8 → BitVec 32} {slotCount : ℕ} {idx : RegionIndex}
    (h : CountedIndex crc slotCount idx) :
    (∀ (p : ℕ) (range : IndexPartitionRange), idx.storage.ranges[p]? = some range →
      idx.storage.stats[p]? = some ⟨idx.storage.core.nonEmptySlots range, 0⟩) ∧
    (∀ (p : ℕ) (range : IndexPartitionRange) (slot : ℕ) (next : IndexSlotState),
      idx.storage.ranges[p]? = some range → slot < range.slotCount →
      ∃ previous idx' stats, RegionIndex.slotState crc range slot idx = .ok previous idx' ∧
        idx.storage.stats[p]? = some stats ∧
        (stats.transitioned previous.physicalKind next.physicalKind range.slotCount).isSome) ∧
    (∀ op : IndexOp, ∃ idx', op.run crc idx = .ok () idx') ∧
    ∀ (binding : IndexImageBinding) (batch : ℕ), 0 < batch →
      (binding.isValid = true →
        ∃ stats s, writeWarmImage crc batch binding ⟨idx.storage, .new⟩ = .ok stats s) ∧
      (binding.isValid = false →
        writeWarmImage crc batch binding ⟨idx.storage, .new⟩ =
          .error (.invalidArgument "warm index image binding must be non-zero")
            ⟨idx.storage, .new⟩) := by
  obtain ⟨ranges, hr, t, hrepr⟩ := h.represented
  obtain ⟨-, -, himg, hchain⟩ := canonicalIndexPartitionRanges_chain hr
  refine ⟨fun p range hp => ?_, fun p range slot next hp hs => ?_, fun op => ?_,
    fun binding batch hbatch => ⟨fun hbinding => ?_, writeWarmImage_invalid hr hrepr⟩⟩
  · rw [hrepr.ranges_eq] at hp
    exact StorageRepr.stats_getElem? hr hrepr hp
  · rw [hrepr.ranges_eq] at hp
    obtain ⟨previous, idx', hread, hprev, -⟩ :=
      RegionIndex.slotState_spec (t := t) hr hp hs idx ⟨hrepr, rfl⟩
    obtain ⟨hi, rfl⟩ := List.getElem?_eq_some_iff.1 hp
    have hcount : ranges[p].slotCount < 2 ^ 64 := by
      have := (hchain.getElem p hi).2.2.2.2.2.1
      simp only [isizeMax] at himg
      omega
    have hmove := occupied_update_self hs t next
    have hold := weight_le_occupied hs t
    have htrans := IndexPhysicalStats.transitioned_value previous.physicalKind next.physicalKind
      (v := occupied ranges[p] t)
      (w := occupied ranges[p] (Function.update t (ranges[p].firstSlot + slot) next)) hcount
      (by rw [hprev]; exact hmove) (by rw [hprev]; exact hold) (occupied_le _ _)
    refine ⟨previous, idx', ⟨occupied ranges[p] t, 0⟩, hread, ?_, by rw [htrans]; rfl⟩
    rw [hrepr.stats_eq, List.getElem?_map, hp]
    rfl
  · obtain ⟨⟨⟩, idx', hrun, -⟩ := op.run_repr hr idx hrepr
    exact ⟨idx', hrun⟩
  · obtain ⟨s, hwrite, -, -⟩ := writeWarmImage_spec hr hbatch hbinding hrepr
    exact ⟨_, s, hwrite⟩

/-- The smallest index after two insertions with the same token at different addresses: one
bucket is occupied. -/
theorem indexOccupancy_exact_sample :
    ∃ storage idx, PartitionedIndexStorage.anonymous 4 = .ok storage ∧
      runOps (fun _ => 0) [.upsert 0 ⟨⟨0⟩⟩, .upsert 0 ⟨⟨1⟩⟩] (RegionIndex.fromStorage storage) =
        .ok () idx ∧
      ∀ (p : ℕ) (range : IndexPartitionRange), idx.storage.ranges[p]? = some range →
        idx.storage.stats[p]? = some ⟨idx.storage.core.nonEmptySlots range, 0⟩ := by
  have hnew : PartitionedIndexStorage.anonymous 4 = .ok _ := rfl
  have h₀ : CountedIndex (fun _ => 0) 4 (RegionIndex.fromStorage _) := .fresh hnew
  obtain ⟨idx₁, hrun₁⟩ := (indexOccupancy_exact h₀).2.2.1 (.upsert 0 ⟨⟨0⟩⟩)
  obtain ⟨idx₂, hrun₂⟩ := (indexOccupancy_exact (h₀.op _ hrun₁)).2.2.1 (.upsert 0 ⟨⟨1⟩⟩)
  refine ⟨_, idx₂, hnew, ?_, (indexOccupancy_exact ((h₀.op _ hrun₁).op _ hrun₂)).1⟩
  rw [runOps, bind_ok hrun₁, runOps, bind_ok hrun₂]
  rfl

end Cache2

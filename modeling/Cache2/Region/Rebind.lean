import Cache2.Region.Validation

set_option relaxedAutoImplicit false
set_option autoImplicit false

/-!
# Rebinding append shards

A recovered table can be opened with another number of append shards. Fewer shards seal the Active
Regions that are left over, more shards activate free Regions from the back of their queue. Both are
one change of the queues: the tail of one queue is moved to the end of another. Rebinding fails
before it changes anything, or it leaves a table that is accepted.

## Main definitions

* `Cache2.TailMoved` — the tail of one queue has been moved to the end of another.
* `Cache2.RebindFails` — when rebinding fails; `Cache2.Rebound` — what it leaves.

## Main results

* `Cache2.TailMoved.queue_from`, `Cache2.TailMoved.queue_to` — the queues after a move.
* `Cache2.rebindAppendShards_spec` — rebinding is atomic and keeps what the table says.
-/

namespace Cache2

open Loop RegionMetadata

/-! ## Moving a tail -/

/-- Where the Region at a place is after the tail of the queue of `a` from position `p` on has been
moved behind position `q` of the queue of `b`. -/
def movedPlace (a b : RegionState) (p q : ℕ) (state : RegionState) (k : ℕ) : RegionState × ℕ :=
  if state = a ∧ p ≤ k then (b, q + (k - p)) else (state, k)

/-- The tail of the queue of `a` from position `p` on has been moved to the end of the queue of
`b`. -/
structure TailMoved (metadata metadata' : RegionMetadata) (a b : RegionState) (p : ℕ) : Prop where
  ne : a ≠ b
  le : p ≤ (metadata.root.stateCount a).toNat
  count_from : (metadata'.root.stateCount a).toNat = p
  count_to : (metadata'.root.stateCount b).toNat =
    (metadata.root.stateCount b).toNat + ((metadata.root.stateCount a).toNat - p)
  count_other : ∀ state, state ≠ a → state ≠ b →
    metadata'.root.stateCount state = metadata.root.stateCount state
  length_eq : metadata'.regions.length = metadata.regions.length
  regions : ∀ (i : ℕ) (r r' : RegionMetadataRecord), metadata.regions[i]? = some r →
    metadata'.regions[i]? = some r' → (r'.state, r'.queueOrdinal.toNat) =
      movedPlace a b p (metadata.root.stateCount b).toNat r.state r.queueOrdinal.toNat

namespace TailMoved

variable {metadata metadata' : RegionMetadata} {a b : RegionState} {p : ℕ}

/-- The Region that stands at a place after the move, and where it stood before. -/
lemma place (h : TailMoved metadata metadata' a b p) {i : ℕ} {r' : RegionMetadataRecord}
    (hr' : metadata'.regions[i]? = some r') : ∃ r, metadata.regions[i]? = some r ∧
      (r'.state, r'.queueOrdinal.toNat) =
        movedPlace a b p (metadata.root.stateCount b).toNat r.state r.queueOrdinal.toNat := by
  have hlt : i < metadata.regions.length := by
    rw [← h.length_eq]
    exact (List.getElem?_eq_some_iff.1 hr').1
  exact ⟨_, List.getElem?_eq_getElem hlt, h.regions i _ _ (List.getElem?_eq_getElem hlt) hr'⟩

/-- Every Region is still there. -/
lemma exists_moved (h : TailMoved metadata metadata' a b p) {i : ℕ} {r : RegionMetadataRecord}
    (hr : metadata.regions[i]? = some r) : ∃ r', metadata'.regions[i]? = some r' ∧
      (r'.state, r'.queueOrdinal.toNat) =
        movedPlace a b p (metadata.root.stateCount b).toNat r.state r.queueOrdinal.toNat := by
  have hlt : i < metadata'.regions.length := by
    rw [h.length_eq]
    exact (List.getElem?_eq_some_iff.1 hr).1
  exact ⟨_, List.getElem?_eq_getElem hlt, h.regions i _ _ hr (List.getElem?_eq_getElem hlt)⟩

/-- Ordinals stay below the counts. -/
lemma ordinal_lt (h : TailMoved metadata metadata' a b p) (hv : metadata.Valid)
    {i : ℕ} {r' : RegionMetadataRecord} (hr' : metadata'.regions[i]? = some r') :
    r'.queueOrdinal.toNat < (metadata'.root.stateCount r'.state).toNat := by
  obtain ⟨r, hr, hplace⟩ := h.place hr'
  have hlt := (hv.regions r (List.mem_of_getElem? hr)).ordinal_lt
  have hto := h.count_to
  unfold movedPlace at hplace
  split_ifs at hplace with hmoved
  · obtain ⟨hstate, hordinal⟩ := Prod.mk.inj hplace
    rw [hstate, hordinal, hto]
    rw [hmoved.1] at hlt
    omega
  · obtain ⟨hstate, hordinal⟩ := Prod.mk.inj hplace
    rw [hstate, hordinal]
    by_cases ha : r.state = a
    · rw [ha, h.count_from]
      by_contra hge
      exact hmoved ⟨ha, by omega⟩
    · by_cases hb : r.state = b
      · rw [hb] at hlt ⊢
        omega
      · rw [h.count_other _ ha hb]
        exact hlt

/-- Two Regions keep places of their own. -/
lemma ordinals_ne (h : TailMoved metadata metadata' a b p) (hv : metadata.Valid) :
    metadata'.regions.Pairwise fun x y => x.state = y.state → x.queueOrdinal ≠ y.queueOrdinal := by
  rw [List.pairwise_iff_getElem]
  intro i j hi hj hij hstate hordinal
  obtain ⟨r, hr, hri⟩ := h.place (List.getElem?_eq_getElem hi)
  obtain ⟨r₂, hr₂, hrj⟩ := h.place (List.getElem?_eq_getElem hj)
  have hlt := (hv.regions r (List.mem_of_getElem? hr)).ordinal_lt
  have hlt₂ := (hv.regions r₂ (List.mem_of_getElem? hr₂)).ordinal_lt
  have hplaces := hri.symm.trans ((Prod.ext hstate (congrArg BitVec.toNat hordinal)).trans hrj)
  have hne : ¬ (r.state = r₂.state ∧ r.queueOrdinal.toNat = r₂.queueOrdinal.toNat) := fun hc =>
    absurd (hv.ordinal_injective hr hr₂ hc.1 hc.2) (by omega)
  unfold movedPlace at hplaces
  split_ifs at hplaces with h1 h2 h2
  · obtain ⟨-, heq⟩ := Prod.mk.inj hplaces
    exact hne ⟨h1.1.trans h2.1.symm, by omega⟩
  · -- what is moved goes behind what was there
    obtain ⟨hb, heq⟩ := Prod.mk.inj hplaces
    rw [← hb] at hlt₂
    omega
  · obtain ⟨hb, heq⟩ := Prod.mk.inj hplaces
    rw [hb] at hlt
    omega
  · exact hne (Prod.mk.inj hplaces)

/-- The places are still filled. -/
lemma ordinals_all (h : TailMoved metadata metadata' a b p) (hv : metadata.Valid)
    (state : RegionState) {k : ℕ} (hk : k < (metadata'.root.stateCount state).toNat) :
    ∃ region ∈ metadata'.regions, region.state = state ∧ region.queueOrdinal.toNat = k := by
  have hle := h.le
  -- a Region that stood at the place from which this one is filled
  have hfill : ∀ state₀ k₀, k₀ < (metadata.root.stateCount state₀).toNat →
      movedPlace a b p (metadata.root.stateCount b).toNat state₀ k₀ = (state, k) →
      ∃ region ∈ metadata'.regions, region.state = state ∧ region.queueOrdinal.toNat = k := by
    intro state₀ k₀ hk₀ hplace
    obtain ⟨r, hr, rfl, rfl⟩ := hv.ordinals_all state₀ k₀ hk₀
    obtain ⟨i, hi⟩ := List.mem_iff_getElem?.1 hr
    obtain ⟨r', hr', hmoved⟩ := h.exists_moved hi
    obtain ⟨hstate, hordinal⟩ := Prod.mk.inj (hmoved.trans hplace)
    exact ⟨r', List.mem_of_getElem? hr', hstate, hordinal⟩
  by_cases ha : state = a
  · subst ha
    rw [h.count_from] at hk
    exact hfill state k (by omega) (if_neg (by omega))
  · by_cases hb : state = b
    · subst hb
      rw [h.count_to] at hk
      by_cases hold : k < (metadata.root.stateCount state).toNat
      · exact hfill state k hold (if_neg (fun hc => ha hc.1))
      · refine hfill a (p + (k - (metadata.root.stateCount state).toNat)) (by omega) ?_
        rw [movedPlace, if_pos ⟨rfl, by omega⟩]
        exact Prod.ext rfl (by dsimp only; omega)
    · rw [h.count_other _ ha hb] at hk
      exact hfill state k hk (if_neg fun hc => ha hc.1)

/-- A queue keeps the entries that are not moved. -/
lemma queue_getElem?_of_lt (h : TailMoved metadata metadata' a b p) (hv : metadata.Valid)
    (hv' : metadata'.Valid) {state : RegionState} {k : ℕ}
    (hk : k < (metadata.root.stateCount state).toNat) (hkeep : state = a → k < p) :
    (metadata'.queue state)[k]? = (metadata.queue state)[k]? := by
  obtain ⟨i, hi⟩ : ∃ i, (metadata.queue state)[k]? = some i :=
    ⟨_, List.getElem?_eq_getElem (by rw [length_queue]; exact hk)⟩
  obtain ⟨r, hr, rfl, rfl⟩ := hv.queue_getElem?.1 hi
  obtain ⟨r', hr', hmoved⟩ := h.exists_moved hr
  rw [movedPlace, if_neg (fun hc => absurd (hkeep hc.1) (by omega))] at hmoved
  obtain ⟨hstate, hordinal⟩ := Prod.mk.inj hmoved
  rw [hi, hv'.queue_getElem?]
  exact ⟨r', hr', hstate, hordinal⟩

/-- The queue that the tail is taken from. -/
theorem queue_from (h : TailMoved metadata metadata' a b p) (hv : metadata.Valid)
    (hv' : metadata'.Valid) : metadata'.queue a = (metadata.queue a).take p := by
  have hle := h.le
  refine List.ext_getElem? fun k => ?_
  rw [List.getElem?_take]
  split_ifs with hk
  · exact h.queue_getElem?_of_lt hv hv' (by omega) fun _ => hk
  · rw [List.getElem?_eq_none_iff, length_queue, h.count_from]
    omega

/-- The queue that the tail is moved to. -/
theorem queue_to (h : TailMoved metadata metadata' a b p) (hv : metadata.Valid)
    (hv' : metadata'.Valid) :
    metadata'.queue b = metadata.queue b ++ (metadata.queue a).drop p := by
  refine List.ext_getElem? fun k => ?_
  rw [List.getElem?_append, length_queue, List.getElem?_drop]
  split_ifs with hk
  · exact h.queue_getElem?_of_lt hv hv' hk fun hb => absurd hb.symm h.ne
  · by_cases hin : k < (metadata'.root.stateCount b).toNat
    · -- the entry comes from the tail
      have hto := h.count_to
      obtain ⟨i, hi⟩ : ∃ i,
          (metadata.queue a)[p + (k - (metadata.root.stateCount b).toNat)]? = some i :=
        ⟨_, List.getElem?_eq_getElem (by rw [length_queue]; omega)⟩
      obtain ⟨r, hr, hstate, hordinal⟩ := hv.queue_getElem?.1 hi
      obtain ⟨r', hr', hmoved⟩ := h.exists_moved hr
      rw [movedPlace, if_pos ⟨hstate, by omega⟩] at hmoved
      obtain ⟨hstate', hordinal'⟩ := Prod.mk.inj hmoved
      rw [hi, hv'.queue_getElem?]
      exact ⟨r', hr', hstate', by omega⟩
    · have hto := h.count_to
      rw [List.getElem?_eq_none (by rw [length_queue]; omega),
        List.getElem?_eq_none (by rw [length_queue]; omega)]

/-- The other queue. -/
theorem queue_other (h : TailMoved metadata metadata' a b p) (hv : metadata.Valid)
    (hv' : metadata'.Valid) {state : RegionState} (ha : state ≠ a) (hb : state ≠ b) :
    metadata'.queue state = metadata.queue state := by
  refine List.ext_getElem? fun k => ?_
  by_cases hk : k < (metadata.root.stateCount state).toNat
  · exact h.queue_getElem?_of_lt hv hv' hk fun hc => absurd hc ha
  · rw [List.getElem?_eq_none (by rw [length_queue, h.count_other _ ha hb]; omega),
      List.getElem?_eq_none (by rw [length_queue]; omega)]

/-- The table after the move is accepted, if its root and each of its Regions are. -/
lemma validate_ok (h : TailMoved metadata metadata' a b p) (hok : metadata.validate = .ok ())
    (hroot : RootSound metadata'.root)
    (hsound : ∀ (i : ℕ) (r r' : RegionMetadataRecord), metadata.regions[i]? = some r →
      metadata'.regions[i]? = some r' → RegionSound metadata.root r →
      r'.queueOrdinal.toNat < (metadata'.root.stateCount r'.state).toNat →
      RegionSound metadata'.root r')
    (hregions : metadata'.root.regionCount = metadata.root.regionCount)
    (hpartitions : metadata'.partitions = metadata.partitions)
    (hcount : metadata'.root.partitionCount = metadata.root.partitionCount)
    (hslots : metadata'.root.indexSlots = metadata.root.indexSlots) :
    metadata'.validate = .ok () := by
  have hv := valid_of_validate hok
  obtain ⟨-, hlength, hparts, hall, -, -, hlist⟩ := validate_iff.1 hok
  refine validate_iff.2 ⟨hroot, ?_, ?_, ?_, h.ordinals_ne hv,
    fun state k => h.ordinals_all hv state, ?_⟩
  · rw [h.length_eq, hregions, hlength]
  · rw [hpartitions, hcount, hparts]
  · intro r' hr'
    obtain ⟨i, hi⟩ := List.mem_iff_getElem?.1 hr'
    obtain ⟨r, hr, -⟩ := h.place hi
    exact hsound i r r' hr hi (hall r (List.mem_of_getElem? hr)) (h.ordinal_lt hv hi)
  · rw [validatePartitions, hslots, hpartitions]
    exact hlist

end TailMoved

/-! ## Rebinding -/

/-- When rebinding to `n` append shards fails. -/
def RebindFails (root : RegionMetadataRoot) (n : BitVec 32) : Prop :=
  n = 0 ∨ maxShards < n.toNat ∨ root.regionCount.toNat ≤ n.toNat ∨
    root.freeRegionCount.toNat < n.toNat - root.shardCount.toNat ∨
    2 ^ 64 - 1 ≤ root.maxSeqno.toNat + (n.toNat - root.shardCount.toNat)

/-- What rebinding to `n` append shards leaves: a table that is accepted and has `n` Active
Regions. Regions keep their records, except that free ones are activated with new numbers. The
first Active Regions stay in their order, followed by the last free ones; the other free ones stay;
the other Active ones follow the sealed ones. -/
structure Rebound (metadata metadata' : RegionMetadata) (n : BitVec 32) : Prop where
  validate : metadata'.validate = .ok ()
  shardCount : metadata'.root.shardCount = n
  active_count : metadata'.regions.countP (·.state = .active) = n.toNat
  length_regions : metadata'.regions.length = metadata.regions.length
  kept : ∀ (i : ℕ) (r r' : RegionMetadataRecord), metadata.regions[i]? = some r →
    metadata'.regions[i]? = some r' → ¬ (r.state = .free ∧ r'.state = .active) →
    r'.createdSeqno = r.createdSeqno ∧ r'.durableUsedOffset = r.durableUsedOffset ∧
      r'.physicalRecordCount = r.physicalRecordCount
  activated : ∀ (i : ℕ) (r r' : RegionMetadataRecord), metadata.regions[i]? = some r →
    metadata'.regions[i]? = some r' → r.state = .free → r'.state = .active →
    metadata.root.maxSeqno.toNat < r'.createdSeqno.toNat ∧
      r'.createdSeqno.toNat ≤ metadata'.root.maxSeqno.toNat ∧ r'.durableUsedOffset = 0 ∧
      r'.physicalRecordCount = 0
  queue_active : metadata'.queue .active = (metadata.queue .active).take n.toNat ++
    (metadata.queue .free).drop (metadata.root.freeRegionCount.toNat -
      (n.toNat - metadata.root.shardCount.toNat))
  queue_free : metadata'.queue .free = (metadata.queue .free).take
    (metadata.root.freeRegionCount.toNat - (n.toNat - metadata.root.shardCount.toNat))
  queue_sealed : metadata'.queue .sealed =
    metadata.queue .sealed ++ (metadata.queue .active).drop n.toNat
  partitions : metadata'.partitions = metadata.partitions
  root : metadata'.root = { metadata.root with
    shardCount := n
    activeRegionCount := n
    freeRegionCount := metadata'.root.freeRegionCount
    sealedRegionCount := metadata'.root.sealedRegionCount
    maxSeqno := metadata'.root.maxSeqno }

section Rebind

variable {metadata : RegionMetadata} {n : BitVec 32}

/-- Sealing the Region of a shard that goes, when the ordinals fit. -/
lemma shrinkRegion_eq {firstNewSealed : ℕ} {r : RegionMetadataRecord}
    (hfit : r.state = .active → firstNewSealed + r.queueOrdinal.toNat < 2 ^ 32) :
    shrinkRegion n firstNewSealed r =
      (if r.state = .active ∧ n.toNat ≤ r.queueOrdinal.toNat then
        { r with
          state := .sealed
          queueOrdinal := BitVec.ofNat 32 (firstNewSealed + (r.queueOrdinal.toNat - n.toNat)) }
      else r, none) := by
  unfold shrinkRegion
  simp only [ge_iff_le, BitVec.le_def]
  split_ifs with h
  · have := hfit h.1
    rw [Word.checkedAdd_of_lt (by omega)]
  · rfl

/-- Activating a free Region for a shard that is added, when ordinals and numbers fit. -/
lemma growRegion_eq {oldShardCount : BitVec 32} {freeRegionCount firstSeqno : ℕ}
    {r : RegionMetadataRecord}
    (hfit : r.state = .free → oldShardCount.toNat + r.queueOrdinal.toNat < 2 ^ 32)
    (hseqno : r.state = .free →
      firstSeqno + (r.queueOrdinal.toNat - freeRegionCount) < 2 ^ 64) :
    growRegion oldShardCount freeRegionCount firstSeqno r =
      (if r.state = .free ∧ freeRegionCount ≤ r.queueOrdinal.toNat then
        { r with
          state := .active
          queueOrdinal := BitVec.ofNat 32
            (oldShardCount.toNat + (r.queueOrdinal.toNat - freeRegionCount))
          createdSeqno := BitVec.ofNat 64
            (firstSeqno + (r.queueOrdinal.toNat - freeRegionCount)) }
      else r, none) := by
  unfold growRegion
  simp only [ge_iff_le]
  split_ifs with h
  · have h1 := hfit h.1
    have h2 := hseqno h.1
    rw [Word.checkedAdd_of_lt (by omega)]
    simp only
    rw [Word.checkedAdd_of_lt h2]
  · rfl

/-- Rebinding that fails leaves the table as it was. -/
lemma rebindAppendShards_error (hv : metadata.Valid) (h : RebindFails metadata.root n) :
    ∃ e, rebindAppendShards n metadata = .error e metadata := by
  have hpos := hv.shardCount_pos
  have hle := hv.shardCount_le
  have hlt := hv.shardCount_lt
  have hmax := hv.maxSeqno_lt
  -- the present number of shards does not fail
  have hne : n ≠ metadata.root.shardCount := by
    rintro rfl
    rcases h with h | h | h | h | h
    · rw [h] at hpos
      simp at hpos
    all_goals omega
  rw [rebindAppendShards, get_bind]
  dsimp only
  rw [if_neg hne]
  by_cases hbad : n = 0 ∨ n.toNat > maxShards ∨ n ≥ metadata.root.regionCount
  · rw [if_pos hbad]
    exact ⟨_, rfl⟩
  rw [if_neg hbad]
  simp only [not_or, gt_iff_lt, Nat.not_lt, ge_iff_le, BitVec.not_le, BitVec.lt_def] at hbad
  have hgrow : 0 < n.toNat - metadata.root.shardCount.toNat := by
    rcases h with h | h | h | h | h
    · exact absurd h hbad.1
    all_goals omega
  rw [if_neg (by rw [BitVec.lt_def]; omega)]
  by_cases hfree : metadata.root.freeRegionCount.toNat < n.toNat - metadata.root.shardCount.toNat
  · rw [Word.checkedSub, if_neg (by omega)]
    exact ⟨_, rfl⟩
  · rw [Word.checkedSub_of_le (by omega)]
    have hseqno : 2 ^ 64 - 1 ≤ metadata.root.maxSeqno.toNat +
        (n.toNat - metadata.root.shardCount.toNat) := by
      rcases h with h | h | h | h | h
      · exact absurd h hbad.1
      all_goals omega
    have hnone : ((Word.checkedAdd 64 metadata.root.maxSeqno.toNat
        (n.toNat - metadata.root.shardCount.toNat)).filter (· ≠ 2 ^ 64 - 1)) = none := by
      rw [Option.filter_eq_none_iff]
      intro seqno hs
      rw [Word.checkedAdd_eq_some] at hs
      simp only [ne_eq, decide_not, Bool.not_eq_true', decide_eq_false_iff_not, not_not]
      omega
    rw [hnone]
    exact ⟨_, rfl⟩

/-- A loop over the Regions that fails nowhere. -/
lemma forRegions_ok
    {body : RegionMetadataRecord → RegionMetadataRecord × Option RegionMetadataError}
    {regions : List RegionMetadataRecord}
    (h : forEachMut body metadata.regions = (regions, none)) :
    forRegions body metadata = .ok () { metadata with regions } := by
  unfold forRegions
  rw [h]

/-- A table that is accepted in place. -/
lemma revalidate_ok (h : metadata.validate = .ok ()) : revalidate metadata = .ok () metadata := by
  rw [revalidate, h]

/-- Rebinding to the present number of shards changes nothing. -/
lemma rebound_self (hok : metadata.validate = .ok ()) :
    Rebound metadata metadata metadata.root.shardCount := by
  have hv := valid_of_validate hok
  have hactive : (metadata.queue .active).length = metadata.root.shardCount.toNat := by
    rw [length_queue, RegionMetadataRoot.stateCount, hv.active_eq]
  have hfree : (metadata.queue .free).length = metadata.root.freeRegionCount.toNat := length_queue
  refine ⟨hok, rfl, ?_, rfl, fun i r r' hr hr' _ => ?_, fun i r r' hr hr' hf ha => ?_, ?_, ?_, ?_,
    rfl, ?_⟩
  · rw [hv.countP_state, RegionMetadataRoot.stateCount, hv.active_eq]
  · obtain rfl := Option.some.inj (hr.symm.trans hr')
    exact ⟨rfl, rfl, rfl⟩
  · obtain rfl := Option.some.inj (hr.symm.trans hr')
    rw [hf] at ha
    cases ha
  · rw [Nat.sub_self, Nat.sub_zero, List.take_of_length_le hactive.le,
      List.drop_of_length_le hfree.le, List.append_nil]
  · rw [Nat.sub_self, Nat.sub_zero, List.take_of_length_le hfree.le]
  · rw [List.drop_of_length_le hactive.le, List.append_nil]
  · exact congrArg
      (fun count => ({ metadata.root with activeRegionCount := count } : RegionMetadataRoot))
      hv.active_eq

/-- Rebinding to fewer shards seals the Active Regions that are left over. -/
lemma rebindAppendShards_shrink (hok : metadata.validate = .ok ()) (hpos : n ≠ 0)
    (hlt : n.toNat < metadata.root.shardCount.toNat) :
    ∃ metadata', rebindAppendShards n metadata = .ok () metadata' ∧
      Rebound metadata metadata' n := by
  have hv := valid_of_validate hok
  have hroot := (validate_iff.1 hok).1
  have hcounts := hv.counts
  have hregions := metadata.root.regionCount.isLt
  have hactive : metadata.root.activeRegionCount.toNat = metadata.root.shardCount.toNat := by
    rw [hv.active_eq]
  have hshards := hv.shardCount_lt
  have hlimit := hv.shardCount_le
  set sealed' := metadata.root.sealedRegionCount.toNat +
    (metadata.root.shardCount.toNat - n.toNat) with hsealed
  -- the loop changes every Region without failing
  have hbody : ∀ r ∈ metadata.regions, shrinkRegion n metadata.root.sealedRegionCount.toNat r = _ :=
    fun r hr => shrinkRegion_eq fun hs => by
      have := (hv.regions r hr).ordinal_lt
      rw [hs, RegionMetadataRoot.stateCount] at this
      omega
  set metadata' : RegionMetadata := { metadata with
    root := { metadata.root with
      shardCount := n
      activeRegionCount := n
      sealedRegionCount := BitVec.ofNat 32 sealed' }
    regions := metadata.regions.map fun r =>
      (shrinkRegion n metadata.root.sealedRegionCount.toNat r).1 } with hmetadata'
  have hloop : forEachMut (shrinkRegion n metadata.root.sealedRegionCount.toNat)
      metadata.regions = (metadata'.regions, none) :=
    forEachMut_eq_map fun r hr => by rw [hbody r hr]
  have hsealedCount : (BitVec.ofNat 32 sealed').toNat = sealed' := by
    rw [BitVec.toNat_ofNat, Nat.mod_eq_of_lt (by omega)]
  -- a Region of the new table
  have hregion : ∀ (i : ℕ) (r r' : RegionMetadataRecord), metadata.regions[i]? = some r →
      metadata'.regions[i]? = some r' → r' =
        if r.state = .active ∧ n.toNat ≤ r.queueOrdinal.toNat then
          { r with
            state := .sealed
            queueOrdinal := BitVec.ofNat 32 (metadata.root.sealedRegionCount.toNat +
              (r.queueOrdinal.toNat - n.toNat)) }
        else r := by
    intro i r r' hr hr'
    rw [hmetadata', List.getElem?_map, hr, Option.map_some, Option.some.injEq] at hr'
    rw [← hr', hbody r (List.mem_of_getElem? hr)]
  have hmoved : TailMoved metadata metadata' .active .sealed n.toNat := by
    refine ⟨by decide, ?_, rfl, ?_, ?_, List.length_map _, fun i r r' hr hr' => ?_⟩
    · show n.toNat ≤ metadata.root.activeRegionCount.toNat
      omega
    · show (BitVec.ofNat 32 sealed').toNat = metadata.root.sealedRegionCount.toNat +
        (metadata.root.activeRegionCount.toNat - n.toNat)
      rw [hsealedCount, hactive]
    · intro state ha hs
      cases state with
      | free => rfl
      | active => exact absurd rfl ha
      | sealed => exact absurd rfl hs
    · have hordinal := (hv.regions r (List.mem_of_getElem? hr)).ordinal_lt
      rw [hregion i r r' hr hr', movedPlace]
      split_ifs with hm
      · rw [hm.1, RegionMetadataRoot.stateCount] at hordinal
        refine Prod.ext rfl ?_
        show (BitVec.ofNat 32 _).toNat = _
        rw [BitVec.toNat_ofNat, Nat.mod_eq_of_lt (by omega)]
        rfl
      · rfl
  have hok' : metadata'.validate = .ok () := by
    refine hmoved.validate_ok hok ?_ (fun i r r' hr hr' hsound hordinal => ?_) rfl rfl rfl rfl
    · refine { hroot with
        shardCount_ne := hpos
        shardCount_le := hlt.le.trans hlimit
        shardCount_lt := hlt.trans hshards
        active_eq := rfl
        counts := ?_ }
      show metadata.root.freeRegionCount.toNat + n.toNat + (BitVec.ofNat 32 sealed').toNat =
        metadata.root.regionCount.toNat
      rw [hsealedCount]
      omega
    · have hr'_eq := hregion i r r' hr hr'
      split_ifs at hr'_eq with hm
      · subst hr'_eq
        refine ⟨hsound.used_le, hsound.used_aligned, hordinal, fun hf => (by cases hf),
          fun _ => hsound.allocated ?_⟩
        rw [hm.1]
        decide
      · subst hr'_eq
        exact ⟨hsound.used_le, hsound.used_aligned, hordinal, hsound.free, hsound.allocated⟩
  have hv' := valid_of_validate hok'
  refine ⟨metadata', ?_, hok', rfl, ?_, List.length_map _, fun i r r' hr hr' _ => ?_,
    fun i r r' hr hr' hf ha => ?_, ?_, ?_, hmoved.queue_to hv hv', rfl, rfl⟩
  · have hne : n ≠ metadata.root.shardCount := by
      rintro rfl
      omega
    have hguard : ¬ (n = 0 ∨ n.toNat > maxShards ∨ n ≥ metadata.root.regionCount) := by
      simp only [not_or, gt_iff_lt, Nat.not_lt, ge_iff_le, BitVec.not_le, BitVec.lt_def]
      exact ⟨hpos, by omega, by omega⟩
    rw [rebindAppendShards, get_bind]
    dsimp only
    rw [if_neg hne, if_neg hguard, if_pos (BitVec.lt_def.2 hlt), Word.checkedAdd_of_lt (by omega)]
    refine okOr_bind_eq_ok.2 ⟨_, rfl, bind_eq_ok.2 ⟨(), _, forRegions_ok hloop, ?_⟩⟩
    exact revalidate_ok hok'
  · rw [hv'.countP_state]
    rfl
  · rw [hregion i r r' hr hr']
    split_ifs
    · exact ⟨rfl, rfl, rfl⟩
    · exact ⟨rfl, rfl, rfl⟩
  · -- shrinking activates nothing
    have hr'_eq := hregion i r r' hr hr'
    split_ifs at hr'_eq with hm
    · rw [hf] at hm
      cases hm.1
    · rw [hr'_eq, hf] at ha
      cases ha
  · have hzero : n.toNat - metadata.root.shardCount.toNat = 0 := by omega
    rw [hmoved.queue_from hv hv', hzero, Nat.sub_zero,
      List.drop_of_length_le (by rw [length_queue]; rfl), List.append_nil]
  · have hzero : n.toNat - metadata.root.shardCount.toNat = 0 := by omega
    rw [hmoved.queue_other hv hv' (by decide) (by decide), hzero, Nat.sub_zero,
      List.take_of_length_le (by rw [length_queue]; rfl)]

/-- Rebinding to more shards activates Regions from the back of the free queue. -/
lemma rebindAppendShards_grow (hok : metadata.validate = .ok ())
    (hgt : metadata.root.shardCount.toNat < n.toNat) (hlimit : n.toNat ≤ maxShards)
    (hlt : n.toNat < metadata.root.regionCount.toNat)
    (hroom : n.toNat - metadata.root.shardCount.toNat ≤ metadata.root.freeRegionCount.toNat)
    (hseqno : metadata.root.maxSeqno.toNat +
      (n.toNat - metadata.root.shardCount.toNat) < 2 ^ 64 - 1) :
    ∃ metadata', rebindAppendShards n metadata = .ok () metadata' ∧
      Rebound metadata metadata' n := by
  have hv := valid_of_validate hok
  have hroot := (validate_iff.1 hok).1
  have hsounds := (validate_iff.1 hok).2.2.2.1
  have hcounts := hv.counts
  have hregions := metadata.root.regionCount.isLt
  have hactive : metadata.root.activeRegionCount.toNat = metadata.root.shardCount.toNat := by
    rw [hv.active_eq]
  have hpos : n ≠ 0 := by
    rintro rfl
    simp at hgt
  set free' := metadata.root.freeRegionCount.toNat -
    (n.toNat - metadata.root.shardCount.toNat) with hfree'
  set max' := metadata.root.maxSeqno.toNat + (n.toNat - metadata.root.shardCount.toNat) with hmax'
  -- a free Region's ordinal is below the count
  have hordinal_lt : ∀ r ∈ metadata.regions, r.state = .free →
      r.queueOrdinal.toNat < metadata.root.freeRegionCount.toNat := by
    intro r hr hs
    have := (hv.regions r hr).ordinal_lt
    rwa [hs] at this
  -- the loop changes every Region without failing
  have hbody : ∀ r ∈ metadata.regions, growRegion metadata.root.shardCount free'
      (metadata.root.maxSeqno.toNat + 1) r = _ := fun r hr =>
    growRegion_eq (fun hs => by have := hordinal_lt r hr hs; omega)
      (fun hs => by have := hordinal_lt r hr hs; omega)
  set metadata' : RegionMetadata := { metadata with
    root := { metadata.root with
      shardCount := n
      activeRegionCount := n
      freeRegionCount := BitVec.ofNat 32 free'
      maxSeqno := BitVec.ofNat 64 max' }
    regions := metadata.regions.map fun r => (growRegion metadata.root.shardCount free'
      (metadata.root.maxSeqno.toNat + 1) r).1 } with hmetadata'
  have hloop : forEachMut (growRegion metadata.root.shardCount free'
      (metadata.root.maxSeqno.toNat + 1)) metadata.regions = (metadata'.regions, none) :=
    forEachMut_eq_map fun r hr => by rw [hbody r hr]
  have hfreeCount : (BitVec.ofNat 32 free').toNat = free' := by
    rw [BitVec.toNat_ofNat, Nat.mod_eq_of_lt (by omega)]
  have hmaxSeqno : (BitVec.ofNat 64 max').toNat = max' := by
    rw [BitVec.toNat_ofNat, Nat.mod_eq_of_lt (by omega)]
  -- a Region of the new table
  have hregion : ∀ (i : ℕ) (r r' : RegionMetadataRecord), metadata.regions[i]? = some r →
      metadata'.regions[i]? = some r' → r' =
        if r.state = .free ∧ free' ≤ r.queueOrdinal.toNat then
          { r with
            state := .active
            queueOrdinal := BitVec.ofNat 32 (metadata.root.shardCount.toNat +
              (r.queueOrdinal.toNat - free'))
            createdSeqno := BitVec.ofNat 64 (metadata.root.maxSeqno.toNat + 1 +
              (r.queueOrdinal.toNat - free')) }
        else r := by
    intro i r r' hr hr'
    rw [hmetadata', List.getElem?_map, hr, Option.map_some, Option.some.injEq] at hr'
    rw [← hr', hbody r (List.mem_of_getElem? hr)]
  -- the number that an activated Region gets
  have hcreated : ∀ r ∈ metadata.regions, r.state = .free → free' ≤ r.queueOrdinal.toNat →
      (BitVec.ofNat 64 (metadata.root.maxSeqno.toNat + 1 +
        (r.queueOrdinal.toNat - free'))).toNat =
        metadata.root.maxSeqno.toNat + 1 + (r.queueOrdinal.toNat - free') ∧
      metadata.root.maxSeqno.toNat + 1 + (r.queueOrdinal.toNat - free') ≤ max' := by
    intro r hr hs hle
    have := hordinal_lt r hr hs
    rw [BitVec.toNat_ofNat, Nat.mod_eq_of_lt (by omega)]
    exact ⟨rfl, by omega⟩
  have hmoved : TailMoved metadata metadata' .free .active free' := by
    refine ⟨by decide, Nat.sub_le _ _, hfreeCount, ?_, ?_, List.length_map _,
      fun i r r' hr hr' => ?_⟩
    · show n.toNat = metadata.root.activeRegionCount.toNat +
        (metadata.root.freeRegionCount.toNat - free')
      omega
    · intro state hf ha
      cases state with
      | free => exact absurd rfl hf
      | active => exact absurd rfl ha
      | sealed => rfl
    · rw [hregion i r r' hr hr', movedPlace]
      split_ifs with hm
      · have := hordinal_lt r (List.mem_of_getElem? hr) hm.1
        refine Prod.ext rfl ?_
        show (BitVec.ofNat 32 _).toNat = metadata.root.activeRegionCount.toNat + _
        rw [BitVec.toNat_ofNat, Nat.mod_eq_of_lt (by omega), hactive]
      · rfl
  have hok' : metadata'.validate = .ok () := by
    refine hmoved.validate_ok hok ?_ (fun i r r' hr hr' hsound hordinal => ?_) rfl rfl rfl rfl
    · refine { hroot with
        shardCount_ne := hpos
        shardCount_le := hlimit
        shardCount_lt := hlt
        maxSeqno_ne := ?_
        active_eq := rfl
        counts := ?_ }
      · show (BitVec.ofNat 64 max').toNat ≠ 2 ^ 64 - 1
        rw [hmaxSeqno]
        exact hseqno.ne
      · show (BitVec.ofNat 32 free').toNat + n.toNat + metadata.root.sealedRegionCount.toNat =
          metadata.root.regionCount.toNat
        rw [hfreeCount]
        omega
    · have hr'_eq := hregion i r r' hr hr'
      split_ifs at hr'_eq with hm
      · obtain ⟨-, hused, hcount⟩ := hsound.free hm.1
        obtain ⟨hnum, hle⟩ := hcreated r (List.mem_of_getElem? hr) hm.1 hm.2
        subst hr'_eq
        refine ⟨hsound.used_le, hsound.used_aligned, hordinal, fun hf => (by cases hf),
          fun _ => ⟨fun hz => ?_, ?_, by simp [hused, hcount], by simp [hcount]⟩⟩
        · have hzero : (0 : BitVec 64).toNat = 0 := rfl
          dsimp only at hz
          rw [← hz, hnum] at hzero
          omega
        · show (BitVec.ofNat 64 _).toNat ≤ (BitVec.ofNat 64 max').toNat
          rw [hnum, hmaxSeqno]
          exact hle
      · subst hr'_eq
        refine ⟨hsound.used_le, hsound.used_aligned, hordinal, hsound.free, fun hne => ?_⟩
        obtain ⟨h1, h2, h3⟩ := hsound.allocated hne
        refine ⟨h1, h2.trans ?_, h3⟩
        show _ ≤ (BitVec.ofNat 64 max').toNat
        rw [hmaxSeqno]
        exact Nat.le_add_right _ _
  have hv' := valid_of_validate hok'
  have hlength : (metadata.queue .active).length ≤ n.toNat := by
    rw [length_queue, RegionMetadataRoot.stateCount]
    omega
  refine ⟨metadata', ?_, hok', rfl, ?_, List.length_map _, fun i r r' hr hr' hkeep => ?_,
    fun i r r' hr hr' hf ha => ?_, ?_, hmoved.queue_from hv hv', ?_, rfl, rfl⟩
  · have hne : n ≠ metadata.root.shardCount := by
      rintro rfl
      omega
    have hguard : ¬ (n = 0 ∨ n.toNat > maxShards ∨ n ≥ metadata.root.regionCount) := by
      simp only [not_or, gt_iff_lt, Nat.not_lt, ge_iff_le, BitVec.not_le, BitVec.lt_def]
      exact ⟨hpos, hlimit, hlt⟩
    have hfilter : ((Word.checkedAdd 64 metadata.root.maxSeqno.toNat
        (n.toNat - metadata.root.shardCount.toNat)).filter (· ≠ 2 ^ 64 - 1)) = some max' := by
      rw [Word.checkedAdd_of_lt (by omega), Option.filter_some, if_pos (by simpa using hseqno.ne)]
    rw [rebindAppendShards, get_bind]
    dsimp only
    rw [if_neg hne, if_neg hguard, if_neg (by rw [BitVec.lt_def]; omega),
      Word.checkedSub_of_le hroom, hfilter, Word.checkedAdd_of_lt (by omega)]
    refine okOr_bind_eq_ok.2 ⟨_, rfl, okOr_bind_eq_ok.2 ⟨_, rfl, okOr_bind_eq_ok.2 ⟨_, rfl,
      bind_eq_ok.2 ⟨(), _, forRegions_ok hloop, ?_⟩⟩⟩⟩
    exact revalidate_ok hok'
  · rw [hv'.countP_state]
    rfl
  · have hr'_eq := hregion i r r' hr hr'
    split_ifs at hr'_eq with hm
    · exact absurd ⟨hm.1, by rw [hr'_eq]⟩ hkeep
    · rw [hr'_eq]
      exact ⟨rfl, rfl, rfl⟩
  · have hr'_eq := hregion i r r' hr hr'
    obtain ⟨-, hused, hcount⟩ := (hsounds r (List.mem_of_getElem? hr)).free hf
    split_ifs at hr'_eq with hm
    · obtain ⟨hnum, hle⟩ := hcreated r (List.mem_of_getElem? hr) hm.1 hm.2
      rw [hr'_eq]
      dsimp only
      rw [hnum]
      refine ⟨by omega, ?_, hused, hcount⟩
      show _ ≤ (BitVec.ofNat 64 max').toNat
      rw [hmaxSeqno]
      exact hle
    · rw [hr'_eq, hf] at ha
      cases ha
  · rw [hmoved.queue_to hv hv', List.take_of_length_le hlength]
  · rw [hmoved.queue_other hv hv' (by decide) (by decide), List.drop_of_length_le hlength,
      List.append_nil]

/-- **Rebinding.** For every table that is accepted and every number of shards, rebinding fails
exactly under the condition, and then leaves the table as it was; otherwise it leaves a table that
is accepted, with the queues rearranged and nothing lost. -/
theorem rebindAppendShards_spec (hok : metadata.validate = .ok ()) (n : BitVec 32) :
    (RebindFails metadata.root n → ∃ e, rebindAppendShards n metadata = .error e metadata) ∧
      (¬ RebindFails metadata.root n →
        ∃ metadata', rebindAppendShards n metadata = .ok () metadata' ∧
          Rebound metadata metadata' n) := by
  refine ⟨rebindAppendShards_error (valid_of_validate hok), fun hfails => ?_⟩
  simp only [RebindFails, not_or, Nat.not_lt, Nat.not_le] at hfails
  obtain ⟨hpos, hlimit, hlt, hroom, hseqno⟩ := hfails
  rcases Nat.lt_trichotomy n.toNat metadata.root.shardCount.toNat with hless | heq | hmore
  · exact rebindAppendShards_shrink hok hpos hless
  · obtain rfl := BitVec.eq_of_toNat_eq heq
    refine ⟨metadata, ?_, rebound_self hok⟩
    rw [rebindAppendShards, get_bind]
    dsimp only
    rw [if_pos rfl]
    rfl
  · exact rebindAppendShards_grow hok hmore hlimit hlt hroom hseqno

end Rebind

/-- A table of four Regions: two Active ones, a free one and a sealed one. -/
def rebindTable : RegionMetadata :=
  let id := PersistentId.sample
  { root := ⟨id, id, 1, id, 1, 0, 8, 1, 4096, 4, 1, 2, 7, 1, 2, 1⟩
    regions := [⟨.sealed, 0, 3, 4096, 2⟩, ⟨.active, 1, 7, 0, 0⟩, ⟨.free, 0, 0, 0, 0⟩,
      ⟨.active, 0, 5, 64, 1⟩]
    partitions := [⟨0, 0, 1, 0, 8, 0, 0⟩] }

/-- One shard of the sample can go and one can be added; four are too many for its Regions. -/
theorem rebindAppendShards_spec_sample :
    (∃ metadata', rebindAppendShards 1 rebindTable = .ok () metadata' ∧
      Rebound rebindTable metadata' 1) ∧
    (∃ metadata', rebindAppendShards 3 rebindTable = .ok () metadata' ∧
      Rebound rebindTable metadata' 3) ∧
    ∃ e, rebindAppendShards 4 rebindTable = .error e rebindTable :=
  have hok : rebindTable.validate = .ok () := by decide +kernel
  ⟨(rebindAppendShards_spec hok 1).2 (by unfold RebindFails; decide +kernel),
    (rebindAppendShards_spec hok 3).2 (by unfold RebindFails; decide +kernel),
    (rebindAppendShards_spec hok 4).1 (by unfold RebindFails; decide +kernel)⟩

end Cache2

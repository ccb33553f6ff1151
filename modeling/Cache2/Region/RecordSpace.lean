import Cache2.Region.AppendSpace

set_option relaxedAutoImplicit false
set_option autoImplicit false

/-!
# Records and bytes

Every record that is staged has been reserved before, so a Region counts no more records than its
reserved bytes have room for. The completed prefix holds records as soon as it holds bytes. Both
facts are about the numbers of a manager alone; the length of the shortest record is a parameter.

## Main definitions

* `Cache2.AppendShardState.outstandingRecords` — the records that are not completed yet.
* `Cache2.RecordSpace` — counts and bytes agree, for records of at least the given length.

## Main results

* `Cache2.ManagerReachable.recordSpace` — reachable managers have it, for the shortest record that
  the run has reserved.
* `Cache2.ManagerReachable.recordSpace_aligned` — a record has at least 32 bytes.
-/

namespace Cache2

open Loop

/-- The records that a shard has reserved, staged or submitted and not completed. -/
def AppendShardState.outstandingRecords (shard : AppendShardState) : ℕ :=
  (shard.submittedSpan.map (·.recordCount)).getD 0 +
    (shard.openSpan.map (·.recordCount)).getD 0 + (shard.tail.map fun _ => 1).getD 0

/-- Every Region has room for the records it counts, of at least `low` bytes each, and counts
records when it holds bytes. -/
structure RecordSpace (low : ℕ) (m : RegionManager) : Prop where
  shards : ∀ {shardId : ℕ} {shard : AppendShardState} {id : ℕ} {region : RegionDesc},
    m.ShardAt shardId shard id region →
    low * (region.physicalRecordCount + shard.outstandingRecords) ≤ region.reservedUsed
  regions : ∀ region ∈ m.regions, low * region.physicalRecordCount ≤ region.reservedUsed
  counted : ∀ region ∈ m.regions, region.completedUsed ≠ 0 → region.physicalRecordCount ≠ 0

section ShardStep

variable {events : List ManagerEvent} {low size next next' shardId regionId : ℕ}
  {shard shard' : AppendShardState} {region region' : RegionDesc}

/-- Without outstanding work there are no outstanding records. -/
lemma AppendShardState.outstandingRecords_eq_zero (ht : shard.tail = none)
    (ho : shard.openSpan = none) (hs : shard.submittedSpan = none) :
    shard.outstandingRecords = 0 := by
  rw [AppendShardState.outstandingRecords, ht, ho, hs]
  rfl

/-- A step of a shard adds a record only with the bytes it takes. -/
lemma ShardStep.recordSpace
    (hstep : ShardStep size shardId regionId shard region next events shard' region' next')
    (hlow : ∀ r, .reserved r ∈ events → low ≤ r.recordBytes)
    (h : low * (region.physicalRecordCount + shard.outstandingRecords) ≤ region.reservedUsed) :
    low * (region'.physicalRecordCount + shard'.outstandingRecords) ≤ region'.reservedUsed := by
  cases hstep with
  | requested => exact h
  | @reserved n hn hidle hfit hnext =>
    have hle : low ≤ n := hlow _ (List.mem_singleton_self _)
    simp only [AppendShardState.outstandingRecords, hidle.1, Option.map_none, Option.getD_none,
      Option.map_some, Option.getD_some, Nat.add_zero] at h ⊢
    rw [← Nat.add_assoc, Nat.mul_add, Nat.mul_one]
    exact Nat.add_le_add h hle
  | @staged r span htail hspan =>
    -- the record moves from the tail to the open span
    have hcount : AppendShardState.outstandingRecords
        { shard with openSpan := some span, tail := none } = shard.outstandingRecords := by
      rcases RegionManager.nextSpan_eq_ok.1 hspan with ⟨ho, rfl⟩ | ⟨o, ho, -, -, rfl⟩
      · simp [AppendShardState.outstandingRecords, htail, ho]
      · simp [AppendShardState.outstandingRecords, htail, ho]
        omega
    rw [hcount]
    exact h
  | aligned hopen hidle hend => exact h
  | padded hopen hidle hreserved hfinish =>
    exact h.trans (hreserved ▸ hfinish.1.le)
  | @submitted o finish padding hopen hpadding hidle hstart hfinish hlt hend =>
    have hcount : (RegionManager.submitted shardId finish shard o).outstandingRecords =
        shard.outstandingRecords := by
      simp [AppendShardState.outstandingRecords, RegionManager.submitted, hopen, hidle.1,
        hidle.2.1]
    rw [hcount]
    exact h
  | @completed span hspan hstart hend hcount =>
    have hcount : AppendShardState.outstandingRecords { shard with submittedSpan := none } +
        span.recordCount = shard.outstandingRecords := by
      simp [AppendShardState.outstandingRecords, hspan]
      omega
    refine le_trans (Nat.mul_le_mul_left low ?_) h
    dsimp only
    omega

/-- A step of a shard that completes bytes completes records. -/
lemma ShardStep.counted
    (hstep : ShardStep size shardId regionId shard region next events shard' region' next')
    (hinv : ShardInv size next shardId shard regionId region)
    (h : region.completedUsed ≠ 0 → region.physicalRecordCount ≠ 0)
    (hne : region'.completedUsed ≠ 0) : region'.physicalRecordCount ≠ 0 := by
  cases hstep with
  | completed hspan hstart hend hcount =>
    have hpos := (hinv.submitted _ hspan).2.2.2.2.2.1
    dsimp only
    omega
  | _ => exact h hne

end ShardStep

section Manager

variable {m m' : RegionManager} {history events : List ManagerEvent} {low : ℕ}

/-- A step of a shard keeps the agreement. -/
lemma RecordSpace.put (h : RecordSpace low m) (hinv : ManagerInv m)
    {shardId regionId next : ℕ} {shard shard' : AppendShardState} {region region' : RegionDesc}
    (hat : m.ShardAt shardId shard regionId region)
    (hstep : ShardStep m.regionSize shardId regionId shard region m.nextSeqno events shard' region'
      next)
    (hlow : ∀ r, .reserved r ∈ events → low ≤ r.recordBytes) :
    RecordSpace low (m.put shardId regionId shard' region' next) := by
  have hspace := hstep.recordSpace hlow (h.shards hat)
  have hmem := List.mem_of_getElem? hat.region_eq
  refine ⟨fun hat' => ?_, ?_, ?_⟩
  · rcases hat.of_put hinv.nodup hat' with ⟨rfl, rfl, rfl, rfl⟩ | ⟨-, -, hat'⟩
    · exact hspace
    · exact h.shards hat'
  · intro desc hdesc
    rcases List.mem_or_eq_of_mem_set hdesc with hdesc | rfl
    · exact h.regions desc hdesc
    · exact (Nat.mul_le_mul_left low (Nat.le_add_right _ _)).trans hspace
  · intro desc hdesc
    rcases List.mem_or_eq_of_mem_set hdesc with hdesc | rfl
    · exact h.counted desc hdesc
    · exact hstep.counted (hinv.shards hat) (h.counted region hmem)

/-- Regions that are empty, or count and hold what they did, and shards with nothing outstanding
or as they were, keep the agreement. -/
lemma RecordSpace.of_old (h : RecordSpace low m)
    (hregions : ∀ region' ∈ m'.regions,
      (region'.completedUsed = 0 ∧ region'.physicalRecordCount = 0) ∨ ∃ region ∈ m.regions,
      region'.reservedUsed = region.reservedUsed ∧ region'.completedUsed = region.completedUsed ∧
      region'.physicalRecordCount = region.physicalRecordCount)
    (hshards : ∀ {shardId : ℕ} {shard : AppendShardState} {id : ℕ} {region : RegionDesc},
      m'.ShardAt shardId shard id region → shard.outstandingRecords = 0 ∨
      low * (region.physicalRecordCount + shard.outstandingRecords) ≤ region.reservedUsed) :
    RecordSpace low m' := by
  have hbound : ∀ region' ∈ m'.regions,
      low * region'.physicalRecordCount ≤ region'.reservedUsed := by
    intro region' hregion'
    rcases hregions region' hregion' with ⟨-, hcount⟩ | ⟨region, hmem, hreserved, -, hcount⟩
    · rw [hcount, Nat.mul_zero]
      exact Nat.zero_le _
    · rw [hreserved, hcount]
      exact h.regions region hmem
  refine ⟨fun {shardId shard id region} hat => ?_, hbound, fun region' hregion' hne => ?_⟩
  · rcases hshards hat with hzero | hle
    · rw [hzero, Nat.add_zero]
      exact hbound region (List.mem_of_getElem? hat.region_eq)
    · exact hle
  · rcases hregions region' hregion' with ⟨hcompleted, -⟩ | ⟨region, hmem, -, hcompleted, hcount⟩
    · exact absurd hcompleted hne
    · rw [hcount]
      exact h.counted region hmem (hcompleted ▸ hne)

/-- Steps keep the agreement. -/
lemma RecordSpace.step (h : RecordSpace low m) (hinv : ManagerInv m)
    (hstep : ManagerStep m events m')
    (hlow : ∀ r, .reserved r ∈ events → low ≤ r.recordBytes) : RecordSpace low m' := by
  have hkeep : ∀ region' ∈ m.regions,
      (region'.completedUsed = 0 ∧ region'.physicalRecordCount = 0) ∨ ∃ region ∈ m.regions,
      region'.reservedUsed = region.reservedUsed ∧ region'.completedUsed = region.completedUsed ∧
      region'.physicalRecordCount = region.physicalRecordCount :=
    fun region hregion => .inr ⟨region, hregion, rfl, rfl, rfl⟩
  cases hstep with
  | unchanged => exact h
  | sequenced hnext =>
    exact h.of_old hkeep fun ⟨h1, h2, h3⟩ => .inr (h.shards ⟨h1, h2, h3⟩)
  | shard hat hstep => exact h.put hinv hat hstep hlow
  | @rotating shard old victim free r hat hidle hold hfree hvictim hnext hcreated =>
    refine h.of_old (fun region hregion => ?_) fun hat' => ?_
    · rcases mem_regions_rotating hregion with hregion | rfl | rfl
      · exact hkeep region hregion
      · exact .inr ⟨old, List.mem_of_getElem? hat.region_eq, rfl, rfl, rfl⟩
      · exact .inl ⟨rfl, rfl⟩
    · rcases hat.of_rotating hinv.nodup hfree (List.getElem?_eq_some_iff.1 hvictim.1).1 hat' with
        ⟨rfl, rfl, rfl, rfl⟩ | ⟨-, -, -, hat'⟩
      · exact .inl (AppendShardState.outstandingRecords_eq_zero hidle.1 hidle.2.1
          hidle.2.2.2.1)
      · exact .inr (h.shards hat')
  | @rotated shard r hshard hr =>
    refine h.of_old hkeep fun hat => ?_
    rcases hat.of_rotated hshard with ⟨rfl, rfl, hbefore⟩ | ⟨-, hbefore⟩
    · have hle := h.shards hbefore
      exact .inr hle
    · exact .inr (h.shards hbefore)
  | reclaiming hneeded hsealed hregion =>
    exact h.of_old hkeep fun ⟨h1, h2, h3⟩ => .inr (h.shards ⟨h1, h2, h3⟩)
  | reclaimed hposition hregion =>
    refine h.of_old (fun region hregion => ?_) fun hat => ?_
    · rcases List.mem_or_eq_of_mem_set hregion with hregion | rfl
      · exact hkeep region hregion
      · exact .inl ⟨rfl, rfl⟩
    · exact .inr (h.shards (hat.of_reclaimed hinv.nodup hposition))

/-- Restarts keep the agreement: nothing was outstanding. -/
lemma RecordSpace.restarted (h : RecordSpace low m) (hre : Restarted m m')
    (hidle : ∀ shard ∈ m'.appendStates, shard = {}) : RecordSpace low m' := by
  refine h.of_old (fun region' hregion' => ?_) fun hat => ?_
  · obtain ⟨id, hid⟩ := List.mem_iff_getElem?.1 hregion'
    have hlt : id < m.regions.length := by
      rw [← hre.length_regions]
      exact (List.getElem?_eq_some_iff.1 hid).1
    have hold := List.getElem?_eq_getElem hlt
    obtain ⟨desc, hdesc, hrel⟩ := hre.regions id _ hold
    obtain rfl := Option.some.inj (hid.symm.trans hdesc)
    refine .inr ⟨_, List.mem_of_getElem? hold, ?_⟩
    cases hrel with
    | kept _ _ hcompleted hreserved hcount => exact ⟨hreserved, hcompleted, hcount⟩
    | activated _ _ _ _ hcompleted hreserved hcount => exact ⟨hreserved, hcompleted, hcount⟩
  · rw [hidle _ (List.mem_of_getElem? hat.shard_eq)]
    exact .inl rfl

/-- **Records and bytes.** In every manager that a run reaches, each Region has room for the
records it counts, of the least length that the run has reserved. -/
theorem ManagerReachable.recordSpace (h : ManagerReachable m history)
    (hlow : ∀ r, .reserved r ∈ history → low ≤ r.recordBytes) : RecordSpace low m := by
  induction h with
  | @cold _ _ _ metadata m hempty hm =>
    -- every Region of an empty data file is empty
    obtain ⟨-, hr⟩ := RegionManager.fromMetadata_eq_ok hm
    have hzero : ∀ region ∈ m.regions, region.completedUsed = 0 ∧
        region.physicalRecordCount = 0 := by
      intro region hregion
      rw [hr.regions, (emptyRegionMetadata_eq_ok hempty).regions, List.map_map] at hregion
      obtain ⟨i, -, rfl⟩ := List.mem_map.1 hregion
      rw [Function.comp_apply, emptyRegion]
      split_ifs <;> exact ⟨rfl, rfl⟩
    refine ⟨fun hat => ?_, fun region hregion => ?_, fun region hregion hne => ?_⟩
    · have hcount := (hzero _ (List.mem_of_getElem? hat.region_eq)).2
      rw [hr.idle (List.mem_of_getElem? hat.shard_eq), hcount]
      exact Nat.zero_le _
    · rw [(hzero region hregion).2]
      exact Nat.zero_le _
    · exact absurd (hzero region hregion).1 hne
  | ok h hop ih =>
    exact (ih fun r hr => hlow r (List.mem_append_left _ hr)).step h.inv
      (ManagerOp.run_ok h.inv hop) fun r hr => hlow r (List.mem_append_right _ hr)
  | error h hop ih =>
    exact (ih hlow).step h.inv (ManagerOp.step_of_error h.inv hop) fun r hr => by cases hr
  | configured _ hop ih =>
    obtain ⟨-, -, rfl⟩ := RegionManager.configureReclaimWorkers_eq_ok hop
    exact ⟨fun hat => (ih hlow).shards ⟨hat.shard_eq, hat.active_eq, hat.region_eq⟩,
      (ih hlow).regions, (ih hlow).counted⟩
  | restarted h hop ih =>
    obtain ⟨⟨metadata, -, hr⟩, hre⟩ := RegionManager.restart_eq_ok h.inv.bounded hop
    exact (ih fun r hrec => hlow r (List.mem_append_left _ hrec)).restarted hre
      fun shard hshard => hr.idle hshard

/-- Reserved records are aligned, and not empty. -/
lemma ManagerReachable.recordBytes_ge (h : ManagerReachable m history)
    {r : RegionAppendReservation} (hr : .reserved r ∈ history) : 32 ≤ r.recordBytes := by
  induction h with
  | cold => simp at hr
  | ok h hop ih =>
    rcases List.mem_append.1 hr with hr | hr
    · exact ih hr
    · cases ManagerOp.run_ok h.inv hop with
      | shard hat hstep =>
        cases hstep with
        | reserved hn hidle hfit hnext =>
          obtain rfl := ManagerEvent.reserved.inj (List.mem_singleton.1 hr)
          dsimp only
          omega
        | requested => cases hr
        | _ => cases List.mem_singleton.1 hr
      | unchanged => cases hr
      | _ => cases List.mem_singleton.1 hr
  | error _ _ ih => exact ih hr
  | configured _ _ ih => exact ih hr
  | restarted _ _ ih =>
    rcases List.mem_append.1 hr with hr | hr
    · exact ih hr
    · simp at hr

/-- Every Region has 32 bytes for each record. -/
theorem ManagerReachable.recordSpace_aligned (h : ManagerReachable m history) :
    RecordSpace 32 m := h.recordSpace fun _ hr => h.recordBytes_ge hr

end Manager

end Cache2

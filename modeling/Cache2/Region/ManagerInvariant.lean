import Mathlib.Data.List.Nodup
import Cache2.Region.ManagerRun

set_option relaxedAutoImplicit false
set_option autoImplicit false

/-!
# The invariant of the Region manager

Every Region id stands in exactly one place: it is some shard's Active Region, waits in the free or
the sealed queue, is being reclaimed, or is the outgoing side of a rotation that has not finished.
A shard's outstanding work covers its Region from the completed prefix to the reserved mark, piece
after piece. Steps keep this, and so do restarts.

## Main definitions

* `Cache2.RegionManager.places` — the ids in all places.
* `Cache2.ShardInv` — a shard and its Region; `Cache2.ManagerInv` — the whole manager.
* `Cache2.ManagerOp.InOrder` — operations called in protocol order.

## Main results

* `Cache2.ShardStep.inv`, `Cache2.ManagerStep.inv` — steps keep the invariant.
* `Cache2.ManagerOp.run_ok`, `Cache2.ManagerOp.run_error` — operations are steps.
* `Cache2.ManagerReachable.inv` — every reachable manager has the invariant.
* `Cache2.regionManager_conservation` — Regions are conserved, there is no deadlock, and no
  operation called in protocol order reports a broken invariant.
-/

namespace Cache2

open Loop

/-! ## A shard and its Region -/

namespace AppendShardState

/-- Where the submitted span ends, or the completed prefix. -/
def submittedEnd (shard : AppendShardState) (completed : ℕ) : ℕ :=
  (shard.submittedSpan.map (·.endOffset)).getD completed

/-- Where the open span ends, or what is before it. -/
def openEnd (shard : AppendShardState) (completed : ℕ) : ℕ :=
  (shard.openSpan.map (·.endOffset)).getD (shard.submittedEnd completed)

/-- Where the tail reservation or the padding ends, or what is before it. -/
def reservedEnd (shard : AppendShardState) (completed : ℕ) : ℕ :=
  match shard.tail, shard.pendingPadding with
  | some tail, _ => tail.offset + tail.recordBytes
  | none, some padding => padding.paddedEndOffset
  | none, none => shard.openEnd completed

end AppendShardState

/-- A shard and the Region it writes to: each outstanding piece of work begins where the one before
it ends. -/
structure ShardInv (size next shardId : ℕ) (shard : AppendShardState) (regionId : ℕ)
    (region : RegionDesc) : Prop where
  active : region.state = .active
  created_pos : 0 < region.createdSeqno
  created_lt : region.createdSeqno < next
  completed_aligned : region.completedUsed % 4096 = 0
  reserved_le : region.reservedUsed ≤ size
  reserved_eq : region.reservedUsed = shard.reservedEnd region.completedUsed
  submitted : ∀ span, shard.submittedSpan = some span →
    span.shardId = shardId ∧ span.regionId = regionId ∧ span.startOffset = region.completedUsed ∧
    span.startOffset < span.endOffset ∧ span.endOffset % 4096 = 0 ∧ 0 < span.recordCount ∧
    region.createdSeqno ≤ span.maxSeqno ∧ span.maxSeqno < next
  opened : ∀ o, shard.openSpan = some o →
    o.regionId = regionId ∧ o.startOffset = shard.submittedEnd region.completedUsed ∧
    o.startOffset < o.endOffset ∧ o.endOffset % 32 = 0 ∧ 0 < o.recordCount ∧
    region.createdSeqno ≤ o.maxSeqno ∧ o.maxSeqno < next
  tail : ∀ r, shard.tail = some r →
    r.shardId = shardId ∧ r.regionId = regionId ∧ r.regionCreatedSeqno = region.createdSeqno ∧
    r.offset = shard.openEnd region.completedUsed ∧ 0 < r.recordBytes ∧ r.recordBytes % 32 = 0 ∧
    region.createdSeqno ≤ r.seqno ∧ r.seqno < next ∧
    (∀ o, shard.openSpan = some o → o.maxSeqno < r.seqno) ∧ shard.pendingPadding = none
  padding : ∀ p, shard.pendingPadding = some p →
    shard.submittedSpan = none ∧ ∃ o, shard.openSpan = some o ∧
    p.paddedEndOffset % 4096 = 0 ∧ o.endOffset < p.paddedEndOffset ∧
    p.paddedEndOffset < o.endOffset + 4096 ∧
    p = ⟨shardId, regionId, o.startOffset, o.endOffset, p.paddedEndOffset, o.recordCount,
      o.maxSeqno⟩
  rotation : ∀ r, shard.rotation = some r →
    r.shardId = shardId ∧ r.activatedRegionId = regionId ∧
    r.activatedCreatedSeqno = region.createdSeqno ∧ shard.tail = none ∧ shard.openSpan = none ∧
    shard.pendingPadding = none ∧ shard.submittedSpan = none

namespace ShardInv

variable {size next shardId regionId : ℕ} {shard shard' : AppendShardState}
  {region region' : RegionDesc}

/-- Later numbers leave a shard's invariant as it is. -/
lemma mono (h : ShardInv size next shardId shard regionId region) {next' : ℕ}
    (hle : next ≤ next') : ShardInv size next' shardId shard regionId region where
  __ := h
  created_lt := h.created_lt.trans_le hle
  submitted span hs := by
    obtain ⟨h1, h2, h3, h4, h5, h6, h7, h8⟩ := h.submitted span hs
    exact ⟨h1, h2, h3, h4, h5, h6, h7, h8.trans_le hle⟩
  opened o ho := by
    obtain ⟨h1, h2, h3, h4, h5, h6, h7⟩ := h.opened o ho
    exact ⟨h1, h2, h3, h4, h5, h6, h7.trans_le hle⟩
  tail r hr := by
    obtain ⟨h1, h2, h3, h4, h5, h6, h7, h8, h9⟩ := h.tail r hr
    exact ⟨h1, h2, h3, h4, h5, h6, h7, h8.trans_le hle, h9⟩

/-- The end of the submitted span, or of the completed prefix, is aligned. -/
lemma submittedEnd_aligned (h : ShardInv size next shardId shard regionId region) :
    shard.submittedEnd region.completedUsed % 4096 = 0 := by
  unfold AppendShardState.submittedEnd
  cases hs : shard.submittedSpan with
  | none => exact h.completed_aligned
  | some span => exact (h.submitted span hs).2.2.2.2.1

/-- The end of the open span, or of what is before it, is aligned to records. -/
lemma openEnd_aligned (h : ShardInv size next shardId shard regionId region) :
    shard.openEnd region.completedUsed % 32 = 0 := by
  have hsub := h.submittedEnd_aligned
  unfold AppendShardState.openEnd
  cases ho : shard.openSpan with
  | none =>
    show shard.submittedEnd region.completedUsed % 32 = 0
    omega
  | some o => exact (h.opened o ho).2.2.2.1

/-- Without a tail reservation or padding, the reserved mark is the end of the open span. -/
lemma reserved_eq_openEnd (h : ShardInv size next shardId shard regionId region)
    (ht : shard.tail = none) (hp : shard.pendingPadding = none) :
    region.reservedUsed = shard.openEnd region.completedUsed := by
  rw [h.reserved_eq, AppendShardState.reservedEnd, ht, hp]

/-- A shard without outstanding work, over a Region without outstanding writes. -/
lemma of_idle (hactive : region.state = .active) (hpos : 0 < region.createdSeqno)
    (hlt : region.createdSeqno < next) (hal : region.completedUsed % 4096 = 0)
    (hle : region.completedUsed ≤ size) (hdone : region.reservedUsed = region.completedUsed)
    (hidle : shard.tail = none ∧ shard.openSpan = none ∧ shard.pendingPadding = none ∧
      shard.submittedSpan = none)
    (hrot : ∀ r, shard.rotation = some r → r.shardId = shardId ∧ r.activatedRegionId = regionId ∧
      r.activatedCreatedSeqno = region.createdSeqno) :
    ShardInv size next shardId shard regionId region := by
  obtain ⟨ht, ho, hp, hs⟩ := hidle
  refine ⟨hactive, hpos, hlt, hal, hdone ▸ hle, ?_, ?_, ?_, ?_, ?_, ?_⟩
  · simp [hdone, AppendShardState.reservedEnd, AppendShardState.openEnd,
      AppendShardState.submittedEnd, ht, hp, ho, hs]
  · simp [hs]
  · simp [ho]
  · simp [ht]
  · simp [hp]
  · intro r hr
    obtain ⟨h1, h2, h3⟩ := hrot r hr
    exact ⟨h1, h2, h3, ht, ho, hp, hs⟩

/-- Reserving the tail keeps the invariant. -/
lemma reserve (h : ShardInv size next shardId shard regionId region) {n : ℕ}
    (hn : n ≠ 0 ∧ n % 32 = 0)
    (hidle : shard.tail = none ∧ shard.pendingPadding = none ∧ shard.rotation = none)
    (hfit : region.reservedUsed + n ≤ size) :
    ShardInv size (next + 1) shardId
      { shard with
        tail := some ⟨shardId, regionId, region.createdSeqno, region.reservedUsed, n, next⟩ }
      regionId { region with reservedUsed := region.reservedUsed + n } := by
  obtain ⟨ht, hp, hr⟩ := hidle
  have hmono := h.mono (Nat.le_succ next)
  refine ⟨h.active, h.created_pos, hmono.created_lt, h.completed_aligned, hfit, rfl,
    hmono.submitted, hmono.opened, ?_, ?_, ?_⟩
  · intro r hr
    obtain rfl := Option.some.inj hr
    refine ⟨rfl, rfl, rfl, h.reserved_eq_openEnd ht hp, Nat.pos_of_ne_zero hn.1, hn.2,
      h.created_lt.le, Nat.lt_succ_self next, fun o ho => (h.opened o ho).2.2.2.2.2.2, hp⟩
  · intro p hp'
    exact absurd (hp.symm.trans hp') (by simp)
  · intro r hr'
    exact absurd (hr.symm.trans hr') (by simp)

/-- Staging the tail keeps the invariant. -/
lemma stage (h : ShardInv size next shardId shard regionId region) {r : RegionAppendReservation}
    {span : OpenWriteSpan} (htail : shard.tail = some r)
    (hspan : RegionManager.nextSpan r (r.offset + r.recordBytes) shard.openSpan = .ok span) :
    ShardInv size next shardId { shard with openSpan := some span, tail := none } regionId
      region := by
  obtain ⟨hs, hid, hc, hoff, hpos, hal, hcr, hlt, hmax, hp⟩ := h.tail r htail
  have hopen := h.openEnd_aligned
  have hres : region.reservedUsed = r.offset + r.recordBytes := by
    rw [h.reserved_eq, AppendShardState.reservedEnd, htail]
  -- the span that the record continues, or the one it opens
  have hnew : span.endOffset = r.offset + r.recordBytes ∧ span.regionId = regionId ∧
      span.startOffset = shard.submittedEnd region.completedUsed ∧
      span.startOffset < span.endOffset ∧ 0 < span.recordCount ∧
      region.createdSeqno ≤ span.maxSeqno ∧ span.maxSeqno < next := by
    rcases RegionManager.nextSpan_eq_ok.1 hspan with ⟨hnone, rfl⟩ | ⟨o, ho, ⟨h1, h2, h3⟩, -, rfl⟩
    · refine ⟨rfl, hid, ?_, by dsimp only; omega, Nat.one_pos, hcr, hlt⟩
      rw [AppendShardState.openEnd, hnone] at hoff
      exact hoff
    · obtain ⟨ho1, ho2, ho3, -, -, ho6, ho7⟩ := h.opened o ho
      refine ⟨rfl, ho1, ho2, by dsimp only; omega, by dsimp only; omega, ?_, ?_⟩
      · exact ho6.trans (Nat.le_max_left _ _)
      · exact Nat.max_lt.2 ⟨ho7, hlt⟩
  obtain ⟨hend, hrid, hstart, hlt', hcount, hge, hlast⟩ := hnew
  refine ⟨h.active, h.created_pos, h.created_lt, h.completed_aligned, h.reserved_le, ?_,
    h.submitted, ?_, ?_, ?_, ?_⟩
  · rw [hres, ← hend]
    simp only [AppendShardState.reservedEnd, hp, AppendShardState.openEnd, Option.map_some,
      Option.getD_some]
  · intro o ho
    obtain rfl := Option.some.inj ho
    exact ⟨hrid, hstart, hlt', by omega, hcount, hge, hlast⟩
  · intro r' hr'
    cases hr'
  · intro p hp'
    exact absurd (hp.symm.trans hp') (by simp)
  · intro rot hrot
    have := (h.rotation rot hrot).2.2.2.1
    rw [htail] at this
    cases this

/-- Reserving padding keeps the invariant. -/
lemma pad (h : ShardInv size next shardId shard regionId region) {o : OpenWriteSpan} {finish : ℕ}
    (hopen : shard.openSpan = some o)
    (hidle : shard.tail = none ∧ shard.pendingPadding = none ∧ shard.submittedSpan = none ∧
      shard.rotation = none)
    (hfinish : o.endOffset < finish ∧ finish < o.endOffset + 4096 ∧ finish % 4096 = 0 ∧
      finish ≤ size) :
    ShardInv size next shardId
      { shard with pendingPadding := some ⟨shardId, o.regionId, o.startOffset, o.endOffset, finish,
        o.recordCount, o.maxSeqno⟩ } regionId { region with reservedUsed := finish } := by
  obtain ⟨ht, hp, hs, hr⟩ := hidle
  refine ⟨h.active, h.created_pos, h.created_lt, h.completed_aligned, hfinish.2.2.2, ?_,
    h.submitted, h.opened, ?_, ?_, ?_⟩
  · simp only [AppendShardState.reservedEnd, ht]
  · intro r hr'
    exact absurd (ht.symm.trans hr') (by simp)
  · intro p hp'
    obtain rfl := Option.some.inj hp'
    exact ⟨hs, o, hopen, hfinish.2.2.1, hfinish.1, hfinish.2.1, by rw [(h.opened o hopen).1]⟩
  · intro r hr'
    exact absurd (hr.symm.trans hr') (by simp)

/-- Submitting the open span keeps the invariant. -/
lemma submit (h : ShardInv size next shardId shard regionId region) {o : OpenWriteSpan}
    {finish : ℕ} (hopen : shard.openSpan = some o)
    (hidle : shard.tail = none ∧ shard.submittedSpan = none ∧ shard.rotation = none)
    (hfinish : finish % 4096 = 0) (hlt : o.startOffset < finish)
    (hend : finish = (shard.pendingPadding.map (·.paddedEndOffset)).getD o.endOffset) :
    ShardInv size next shardId (RegionManager.submitted shardId finish shard o) regionId
      region := by
  obtain ⟨ht, hs, hr⟩ := hidle
  obtain ⟨ho1, ho2, ho3, ho4, ho5, ho6, ho7⟩ := h.opened o hopen
  -- the span ends at the reserved mark
  have hres : region.reservedUsed = finish := by
    rw [h.reserved_eq, hend, AppendShardState.reservedEnd, ht]
    cases shard.pendingPadding with
    | none => simp only [AppendShardState.openEnd, hopen, Option.map_some, Option.getD_some,
        Option.map_none, Option.getD_none]
    | some p => rfl
  have hstart : o.startOffset = region.completedUsed := by
    rw [ho2, AppendShardState.submittedEnd, hs]
    rfl
  refine ⟨h.active, h.created_pos, h.created_lt, h.completed_aligned, h.reserved_le, ?_, ?_, ?_, ?_,
    ?_, ?_⟩
  · rw [hres]
    simp only [AppendShardState.reservedEnd, RegionManager.submitted, ht,
      AppendShardState.openEnd, AppendShardState.submittedEnd, Option.map_none, Option.getD_none,
      Option.map_some, Option.getD_some]
  · intro span hspan
    obtain rfl := Option.some.inj hspan
    exact ⟨rfl, ho1, hstart, hlt, hfinish, ho5, ho6, ho7⟩
  · intro o' ho'
    cases ho'
  · intro r hr'
    exact absurd (ht.symm.trans hr') (by simp)
  · intro p hp
    cases hp
  · intro r hr'
    exact absurd (hr.symm.trans hr') (by simp)

/-- Completing the submitted span keeps the invariant. -/
lemma complete (h : ShardInv size next shardId shard regionId region) {span : RegionWriteSpan}
    (hspan : shard.submittedSpan = some span) {count : ℕ} :
    ShardInv size next shardId { shard with submittedSpan := none } regionId
      { region with completedUsed := span.endOffset, physicalRecordCount := count } := by
  obtain ⟨-, -, -, -, hal, -, -, -⟩ := h.submitted span hspan
  have hend : shard.submittedEnd region.completedUsed = span.endOffset := by
    rw [AppendShardState.submittedEnd, hspan]
    rfl
  -- what comes after the span begins where it did
  have hopenEnd : AppendShardState.openEnd { shard with submittedSpan := none } span.endOffset =
      shard.openEnd region.completedUsed := by
    rw [AppendShardState.openEnd, AppendShardState.openEnd, hend]
    rfl
  refine ⟨h.active, h.created_pos, h.created_lt, hal, h.reserved_le, ?_, ?_, ?_, ?_, ?_, ?_⟩
  · refine h.reserved_eq.trans ?_
    unfold AppendShardState.reservedEnd
    cases shard.tail with
    | some r => rfl
    | none =>
      cases shard.pendingPadding with
      | some p => rfl
      | none => exact hopenEnd.symm
  · intro s hs
    cases hs
  · intro o ho
    obtain ⟨ho1, ho2, hrest⟩ := h.opened o ho
    exact ⟨ho1, ho2.trans hend, hrest⟩
  · intro r hr
    obtain ⟨h1, h2, h3, h4, hrest⟩ := h.tail r hr
    exact ⟨h1, h2, h3, h4.trans hopenEnd.symm, hrest⟩
  · intro p hp
    exact ⟨rfl, (h.padding p hp).2⟩
  · intro r hr
    obtain ⟨h1, h2, h3, h4, h5, h6, -⟩ := h.rotation r hr
    exact ⟨h1, h2, h3, h4, h5, h6, rfl⟩

end ShardInv

section ShardStep

variable {size next next' shardId regionId : ℕ} {shard shard' : AppendShardState}
  {region region' : RegionDesc} {events : List ManagerEvent}

/-- **Append path.** Every step of a shard keeps the shard's invariant. -/
theorem ShardStep.inv
    (hstep : ShardStep size shardId regionId shard region next events shard' region' next')
    (h : ShardInv size next shardId shard regionId region) :
    ShardInv size next' shardId shard' regionId region' := by
  cases hstep with
  | requested => exact { h with }
  | reserved hn hidle hfit hnext => exact h.reserve hn hidle hfit
  | staged htail hspan => exact h.stage htail hspan
  | aligned hopen hidle hend => exact h
  | padded hopen hidle hreserved hfinish => exact h.pad hopen hidle hfinish
  | submitted hopen hpadding hidle hstart hfinish hlt hend =>
    subst hpadding
    exact h.submit hopen hidle hfinish hlt hend
  | completed hspan hstart hend hcount => exact h.complete hspan

/-- A step of a shard neither changes the generation of its Region nor its rotation, and issues at
most one number. -/
lemma ShardStep.frame
    (hstep : ShardStep size shardId regionId shard region next events shard' region' next') :
    region'.createdSeqno = region.createdSeqno ∧ shard'.rotation = shard.rotation ∧
      next ≤ next' ∧ (next ≤ u64Max → next' ≤ u64Max) := by
  cases hstep with
  | reserved hn hidle hfit hnext => exact ⟨rfl, rfl, Nat.le_succ _, fun h => by omega⟩
  | _ => exact ⟨rfl, rfl, le_rfl, id⟩

/-- A step of a shard leaves no event and keeps the open span, or it leaves one event of the
shard. -/
lemma ShardStep.events_eq
    (hstep : ShardStep size shardId regionId shard region next events shard' region' next')
    (h : ShardInv size next shardId shard regionId region) :
    (events = [] ∧ shard'.openSpan = shard.openSpan) ∨
      ∃ event, events = [event] ∧ event.shard? = some shardId ∧
        (event = .aligned shardId → ∃ o, shard'.openSpan = some o ∧ o.endOffset % 4096 = 0) := by
  cases hstep with
  | requested => exact .inl ⟨rfl, rfl⟩
  | reserved hn hidle hfit hnext => exact .inr ⟨_, rfl, rfl, fun heq => by cases heq⟩
  | staged htail hspan =>
    exact .inr ⟨_, rfl, congrArg some (h.tail _ htail).1, fun heq => by cases heq⟩
  | aligned hopen hidle hend => exact .inr ⟨_, rfl, rfl, fun _ => ⟨_, hopen, hend⟩⟩
  | padded hopen hidle hreserved hfinish => exact .inr ⟨_, rfl, rfl, fun heq => by cases heq⟩
  | submitted hopen hpadding hidle hstart hfinish hlt hend =>
    exact .inr ⟨_, rfl, rfl, fun heq => by cases heq⟩
  | completed hspan hstart hend hcount =>
    exact .inr ⟨_, rfl, congrArg some (h.submitted _ hspan).1, fun heq => by cases heq⟩

end ShardStep

/-! ## The whole manager -/

namespace RegionManager

/-- The outgoing Regions of the rotations that have not finished. -/
def pendingSealed (m : RegionManager) : List ℕ :=
  m.appendStates.filterMap fun shard => shard.rotation.map (·.sealedRegionId)

/-- The ids in all places: Active, free, sealed, being reclaimed, or going out in a rotation. -/
def places (m : RegionManager) : List ℕ :=
  m.activeRegions ++ m.freeRegions ++ m.sealedRegions ++ m.reclaiming.map (·.regionId) ++
    m.pendingSealed

/-- An Active Region stands in no other place. -/
lemma active_disjoint {m : RegionManager} {shardId regionId : ℕ} (hnd : m.places.Nodup)
    (ha : m.activeRegions[shardId]? = some regionId) :
    regionId ∉ m.freeRegions ∧ regionId ∉ m.sealedRegions ++ m.pendingSealed ∧
      regionId ∉ m.reclaiming.map (·.regionId) := by
  simp only [places, List.append_assoc, List.nodup_append] at hnd
  have hdisj := hnd.2.2 regionId (List.mem_of_getElem? ha) regionId
  simp only [List.mem_append, ne_eq, not_true_eq_false, imp_false, not_or] at hdisj
  rw [List.mem_append, not_or]
  exact ⟨hdisj.1, ⟨hdisj.2.1, hdisj.2.2.2⟩, hdisj.2.2.1⟩

/-- Two shards write to two Regions. -/
lemma active_injective {m : RegionManager} {s₁ s₂ regionId : ℕ} (hnd : m.places.Nodup)
    (h₁ : m.activeRegions[s₁]? = some regionId) (h₂ : m.activeRegions[s₂]? = some regionId) :
    s₁ = s₂ := by
  simp only [places, List.append_assoc] at hnd
  exact (List.getElem?_inj (List.getElem?_eq_some_iff.1 h₁).1 (List.nodup_append.1 hnd).1).1
    (h₁.trans h₂.symm)

/-- A Region that is being reclaimed stands in no queue and in no other receipt. -/
lemma reclaiming_disjoint {m : RegionManager} {position : ℕ} {r : RegionReclaimReceipt}
    (hnd : m.places.Nodup) (hr : m.reclaiming[position]? = some r) :
    r.regionId ∉ m.activeRegions ∧ r.regionId ∉ m.freeRegions ∧
      r.regionId ∉ m.sealedRegions ++ m.pendingSealed ∧
      r.regionId ∉ (Queue.swapRemove m.reclaiming position).map (·.regionId) := by
  have hmem : r.regionId ∈ m.reclaiming.map (·.regionId) :=
    List.mem_map_of_mem (List.mem_of_getElem? hr)
  simp only [places, List.append_assoc, List.nodup_append, List.mem_append] at hnd
  obtain ⟨-, ⟨-, ⟨-, ⟨hnodup, -, hpending⟩, hsealed⟩, hfree⟩, hactive⟩ := hnd
  refine ⟨fun h => hactive _ h _ (.inr (.inr (.inl hmem))) rfl,
    fun h => hfree _ h _ (.inr (.inl hmem)) rfl, fun h => ?_, ?_⟩
  · rcases List.mem_append.1 h with h | h
    · exact hsealed _ h _ (.inl hmem) rfl
    · exact hpending _ hmem _ h rfl
  · have := ((Queue.perm_swapRemove hr).map (·.regionId)).nodup_iff.1 hnodup
    exact (List.nodup_cons.1 this).1

/-- The shards of a manager in which one shard and its Region have been replaced: that one, and
the others with the Regions they had. -/
lemma ShardAt.of_put {m : RegionManager} {shardId regionId next s id : ℕ}
    {shard shard' sh : AppendShardState} {region region' desc : RegionDesc} (hnd : m.places.Nodup)
    (hat : m.ShardAt shardId shard regionId region)
    (hat' : (m.put shardId regionId shard' region' next).ShardAt s sh id desc) :
    (s = shardId ∧ sh = shard' ∧ id = regionId ∧ desc = region') ∨
      (s ≠ shardId ∧ id ≠ regionId ∧ m.ShardAt s sh id desc) := by
  have hactive : m.activeRegions[s]? = some id := hat'.active_eq
  by_cases hs : s = shardId
  · subst hs
    obtain rfl := Option.some.inj (hat.active_eq.symm.trans hactive)
    have hshard := List.getElem?_set_self (a := shard') (List.getElem?_eq_some_iff.1 hat.shard_eq).1
    have hregion := List.getElem?_set_self (a := region')
      (List.getElem?_eq_some_iff.1 hat.region_eq).1
    exact .inl ⟨rfl, Option.some.inj (hat'.shard_eq.symm.trans hshard), rfl,
      Option.some.inj (hat'.region_eq.symm.trans hregion)⟩
  · -- another shard writes to another Region
    have hid : id ≠ regionId := fun heq =>
      hs (active_injective hnd (heq ▸ hactive) hat.active_eq)
    exact .inr ⟨hs, hid, (List.getElem?_set_ne (Ne.symm hs)).symm.trans hat'.shard_eq, hactive,
      (List.getElem?_set_ne (Ne.symm hid)).symm.trans hat'.region_eq⟩

end RegionManager

/-- A sealed Region has no outstanding writes. -/
def RegionDesc.Retired (region : RegionDesc) : Prop :=
  region.state = .sealed ∧ region.reservedUsed = region.completedUsed

/-- The invariant of the manager. -/
structure ManagerInv (m : RegionManager) : Prop where
  size_aligned : m.regionSize % 4096 = 0
  size_le : m.regionSize ≤ maxPackedRegionSize
  length_le : m.regions.length ≤ maxPackedRegionCount
  length_states : m.appendStates.length = m.activeRegions.length
  shards_pos : 0 < m.activeRegions.length
  shards_lt : m.activeRegions.length < m.regions.length
  next_le : m.nextSeqno ≤ u64Max
  placed : m.places.Perm (List.range m.regions.length)
  queueCapacity : m.queueCapacity = m.regions.length - m.activeRegions.length
  sealedCapacity : m.sealedCapacity = m.regions.length - m.activeRegions.length
  shards_le : m.activeRegions.length ≤ m.freeCapacity
  free_le : m.freeRegions.length + m.reclaiming.length ≤ m.freeCapacity
  limit_pos : 0 < m.reclaimLimit
  limit_le : m.reclaimLimit ≤ m.reclaimingCapacity
  reclaiming_le : m.reclaiming.length ≤ m.reclaimLimit
  free : ∀ id ∈ m.freeRegions, m.regions[id]? = some (.empty .free 0)
  sealed : ∀ id ∈ m.sealedRegions ++ m.pendingSealed, ∃ region,
    m.regions[id]? = some region ∧ region.Retired
  reclaiming : ∀ r ∈ m.reclaiming, ∃ region, m.regions[r.regionId]? = some region ∧
    region.Retired ∧ r = ⟨r.regionId, region.createdSeqno, region.completedUsed,
      region.physicalRecordCount⟩
  regions : ∀ region ∈ m.regions, region.createdSeqno < m.nextSeqno ∧
    region.completedUsed ≤ m.regionSize ∧ region.physicalRecordCount < 2 ^ 64 ∧
    (region.state ≠ .free → 0 < region.createdSeqno)
  shards : ∀ {shardId : ℕ} {shard : AppendShardState} {regionId : ℕ} {region : RegionDesc},
    m.ShardAt shardId shard regionId region →
    ShardInv m.regionSize m.nextSeqno shardId shard regionId region

namespace ManagerInv

variable {m m' : RegionManager} {shardId regionId : ℕ} {shard shard' : AppendShardState}
  {region region' : RegionDesc}

/-- No id stands in two places. -/
lemma nodup (h : ManagerInv m) : m.places.Nodup := h.placed.nodup_iff.2 List.nodup_range

/-- The ids in the places are those of the Regions. -/
lemma mem_places (h : ManagerInv m) {id : ℕ} : id ∈ m.places ↔ id < m.regions.length := by
  rw [h.placed.mem_iff, List.mem_range]

/-- How many ids stand in the places. -/
lemma length_places (h : ManagerInv m) : m.activeRegions.length + m.freeRegions.length +
    m.sealedRegions.length + m.reclaiming.length + m.pendingSealed.length = m.regions.length := by
  have := h.placed.length_eq
  simpa only [RegionManager.places, List.length_append, List.length_map, List.length_range] using
    this

/-- Every shard writes to a Region. -/
lemma exists_shardAt (h : ManagerInv m) (hs : m.appendStates[shardId]? = some shard) :
    ∃ regionId region, m.ShardAt shardId shard regionId region := by
  have hlt : shardId < m.activeRegions.length := by
    rw [← h.length_states]
    exact (List.getElem?_eq_some_iff.1 hs).1
  have hid : m.activeRegions[shardId] < m.regions.length := by
    rw [← h.mem_places]
    simp only [RegionManager.places, List.mem_append]
    exact .inl (.inl (.inl (.inl (List.getElem_mem hlt))))
  exact ⟨_, _, hs, List.getElem?_eq_getElem hlt, List.getElem?_eq_getElem hid⟩

/-- An Active Region is an Active one. -/
lemma active_state (h : ManagerInv m) (ha : m.activeRegions[shardId]? = some regionId) :
    ∃ region, m.regions[regionId]? = some region ∧ region.state = .active := by
  have hlt : shardId < m.appendStates.length := by
    rw [h.length_states]
    exact (List.getElem?_eq_some_iff.1 ha).1
  obtain ⟨id, region, hat⟩ := h.exists_shardAt (List.getElem?_eq_getElem hlt)
  obtain rfl : regionId = id := by simpa [ha] using hat.active_eq
  exact ⟨region, hat.region_eq, (h.shards hat).active⟩

/-- Replacing a shard and its Region keeps the invariant when it keeps that of the shard. -/
lemma put (h : ManagerInv m) (hat : m.ShardAt shardId shard regionId region) {next : ℕ}
    (hrot : shard'.rotation = shard.rotation) (hnext : m.nextSeqno ≤ next) (hle : next ≤ u64Max)
    (hcompleted : region'.completedUsed ≤ m.regionSize)
    (hcount : region'.physicalRecordCount < 2 ^ 64)
    (hshard : ShardInv m.regionSize next shardId shard' regionId region') :
    ManagerInv (m.put shardId regionId shard' region' next) := by
  obtain ⟨hfree, hsealed, hreclaiming⟩ := RegionManager.active_disjoint h.nodup hat.active_eq
  have hpending : (m.put shardId regionId shard' region' next).pendingSealed = m.pendingSealed :=
    Queue.filterMap_set_eq _ hat.shard_eq (by rw [hrot])
  have hplaces : (m.put shardId regionId shard' region' next).places = m.places := by
    rw [RegionManager.places, hpending]
    rfl
  have hlength : (m.put shardId regionId shard' region' next).regions.length = m.regions.length :=
    List.length_set
  have hother : ∀ id, id ≠ regionId →
      (m.put shardId regionId shard' region' next).regions[id]? = m.regions[id]? := by
    intro id hid
    exact List.getElem?_set_ne (Ne.symm hid)
  refine ⟨h.size_aligned, h.size_le, hlength ▸ h.length_le, ?_, h.shards_pos,
    hlength ▸ h.shards_lt, hle, ?_, ?_, ?_, h.shards_le, h.free_le, h.limit_pos, h.limit_le,
    h.reclaiming_le, ?_, ?_, ?_, ?_, ?_⟩
  · exact List.length_set.trans h.length_states
  · rw [hplaces, hlength]
    exact h.placed
  · rw [hlength]
    exact h.queueCapacity
  · rw [hlength]
    exact h.sealedCapacity
  · intro id hid
    rw [hother id (fun heq => hfree (heq ▸ hid))]
    exact h.free id hid
  · intro id hid
    rw [hpending] at hid
    rw [hother id (fun heq => hsealed (heq ▸ hid))]
    exact h.sealed id hid
  · intro r hr
    rw [hother r.regionId (fun heq => hreclaiming (heq ▸ List.mem_map_of_mem hr))]
    exact h.reclaiming r hr
  · intro r hr
    rcases List.mem_or_eq_of_mem_set hr with hr | rfl
    · obtain ⟨h1, h2⟩ := h.regions r hr
      exact ⟨h1.trans_le hnext, h2⟩
    · exact ⟨hshard.created_lt, hcompleted, hcount, fun _ => hshard.created_pos⟩
  · intro s sh id r hat'
    rcases hat.of_put h.nodup hat' with ⟨rfl, rfl, rfl, rfl⟩ | ⟨-, -, hat'⟩
    · exact hshard
    · exact (h.shards hat').mono hnext

/-- Issuing a number keeps the invariant. -/
lemma sequence (h : ManagerInv m) (hnext : m.nextSeqno ≠ u64Max) :
    ManagerInv { m with nextSeqno := m.nextSeqno + 1 } where
  __ := h
  next_le := by
    have := h.next_le
    dsimp only
    omega
  regions region hr := by
    obtain ⟨h1, h2⟩ := h.regions region hr
    exact ⟨h1.trans (Nat.lt_succ_self _), h2⟩
  shards hat := (h.shards ⟨hat.shard_eq, hat.active_eq, hat.region_eq⟩).mono (Nat.le_succ _)

end ManagerInv

/-! ## Rotations and reclaims -/

section Rotation

variable {m : RegionManager} {shard : AppendShardState} {old : RegionDesc} {free : List ℕ}
  {r : RegionRotationReceipt}

/-- The outgoing Regions, after a rotation has begun. -/
lemma pendingSealed_rotating (free : List ℕ) (hat : m.ShardAt r.shardId shard r.sealedRegionId old)
    (hrot : shard.rotation = none) :
    (m.rotating shard old free r).pendingSealed.Perm (m.pendingSealed ++ [r.sealedRegionId]) := by
  have h := Queue.filterMap_set_perm (fun shard => shard.rotation.map (·.sealedRegionId))
    hat.shard_eq { shard with rotationRequested := false, rotation := some r }
  simp only [hrot, Option.map_none, Option.toList_none, List.append_nil, Option.map_some,
    Option.toList_some] at h
  exact h

/-- The beginning of a rotation rearranges the ids in the places. -/
lemma places_rotating (hat : m.ShardAt r.shardId shard r.sealedRegionId old)
    (hrot : shard.rotation = none) (hfree : m.freeRegions = r.activatedRegionId :: free) :
    (m.rotating shard old free r).places.Perm m.places := by
  refine List.perm_iff_count.2 fun id => ?_
  have h1 := (Queue.set_perm hat.active_eq r.activatedRegionId).count_eq id
  have h2 := (pendingSealed_rotating free hat hrot).count_eq id
  have h3 : (m.rotating shard old free r).freeRegions = free := rfl
  have h4 : (m.rotating shard old free r).sealedRegions = m.sealedRegions := rfl
  have h5 : (m.rotating shard old free r).reclaiming = m.reclaiming := rfl
  have h6 : (m.rotating shard old free r).activeRegions =
    m.activeRegions.set r.shardId r.activatedRegionId := rfl
  simp only [RegionManager.places, List.count_append, hfree, h3, h4, h5, h6, List.count_cons,
    List.count_nil] at h1 h2 ⊢
  omega

/-- A rotation changes the outgoing and the activated Region only. -/
lemma regions_rotating {id : ℕ} (h1 : id ≠ r.sealedRegionId) (h2 : id ≠ r.activatedRegionId) :
    (m.rotating shard old free r).regions[id]? = m.regions[id]? := by
  show ((m.regions.set _ _).set _ _)[id]? = _
  rw [List.getElem?_set_ne (Ne.symm h2), List.getElem?_set_ne (Ne.symm h1)]

/-- The shards of a manager after a rotation has begun: the rotating one writes to the activated
Region, and the others to the Regions they had. -/
lemma RegionManager.ShardAt.of_rotating {s id : ℕ} {sh : AppendShardState} {desc : RegionDesc}
    (hnd : m.places.Nodup) (hat : m.ShardAt r.shardId shard r.sealedRegionId old)
    (hfree : m.freeRegions = r.activatedRegionId :: free)
    (hlt : r.activatedRegionId < m.regions.length)
    (hat' : (m.rotating shard old free r).ShardAt s sh id desc) :
    (s = r.shardId ∧ sh = { shard with rotationRequested := false, rotation := some r } ∧
        id = r.activatedRegionId ∧ desc = .empty .active r.activatedCreatedSeqno) ∨
      (s ≠ r.shardId ∧ id ≠ r.sealedRegionId ∧ id ≠ r.activatedRegionId ∧
        m.ShardAt s sh id desc) := by
  by_cases hs : s = r.shardId
  · subst hs
    have hactive := List.getElem?_set_self (a := r.activatedRegionId)
      (List.getElem?_eq_some_iff.1 hat.active_eq).1
    have hshard := List.getElem?_set_self
      (a := { shard with rotationRequested := false, rotation := some r })
      (List.getElem?_eq_some_iff.1 hat.shard_eq).1
    obtain rfl := Option.some.inj (hactive.symm.trans hat'.active_eq)
    refine .inl ⟨rfl, Option.some.inj (hat'.shard_eq.symm.trans hshard), rfl,
      Option.some.inj (hat'.region_eq.symm.trans (List.getElem?_set_self ?_))⟩
    rwa [List.length_set]
  · have hactive : m.activeRegions[s]? = some id :=
      (List.getElem?_set_ne (Ne.symm hs)).symm.trans hat'.active_eq
    have h1 : id ≠ r.sealedRegionId := fun heq =>
      hs (RegionManager.active_injective hnd (heq ▸ hactive) hat.active_eq)
    have h2 : id ≠ r.activatedRegionId := fun heq =>
      (RegionManager.active_disjoint hnd hactive).1 (heq ▸ hfree ▸ List.mem_cons_self)
    exact .inr ⟨hs, h1, h2, (List.getElem?_set_ne (Ne.symm hs)).symm.trans hat'.shard_eq, hactive,
      (regions_rotating h1 h2).symm.trans hat'.region_eq⟩

/-- The shards of a manager after a rotation has finished: only the receipt is gone. -/
lemma RegionManager.ShardAt.of_rotated {s id : ℕ} {sh : AppendShardState} {desc : RegionDesc}
    (hshard : m.appendStates[r.shardId]? = some shard)
    (hat' : (m.rotated shard r).ShardAt s sh id desc) :
    (s = r.shardId ∧ sh = { shard with rotation := none } ∧ m.ShardAt s shard id desc) ∨
      (s ≠ r.shardId ∧ m.ShardAt s sh id desc) := by
  by_cases hs : s = r.shardId
  · subst hs
    have hself := List.getElem?_set_self (a := { shard with rotation := none })
      (List.getElem?_eq_some_iff.1 hshard).1
    exact .inl ⟨rfl, Option.some.inj (hat'.shard_eq.symm.trans hself), hshard, hat'.active_eq,
      hat'.region_eq⟩
  · exact .inr ⟨hs, (List.getElem?_set_ne (Ne.symm hs)).symm.trans hat'.shard_eq, hat'.active_eq,
      hat'.region_eq⟩

/-- The Regions of a manager after a rotation has begun. -/
lemma mem_regions_rotating {region : RegionDesc}
    (h : region ∈ (m.rotating shard old free r).regions) : region ∈ m.regions ∨
      region = { old with state := .sealed } ∨
      region = .empty .active r.activatedCreatedSeqno := by
  rcases List.mem_or_eq_of_mem_set h with h | h
  · rcases List.mem_or_eq_of_mem_set h with h | h
    · exact .inl h
    · exact .inr (.inl h)
  · exact .inr (.inr h)

/-- Beginning a rotation keeps the invariant.

**Proof sketch.** The free Region becomes Active and the Active one goes out with the rotation, so
the ids in the places are rearranged. Both Regions are the only ones that change; no other place
names them, since no id stands in two. -/
lemma ManagerInv.rotating (h : ManagerInv m)
    (hat : m.ShardAt r.shardId shard r.sealedRegionId old)
    (hidle : shard.tail = none ∧ shard.openSpan = none ∧ shard.pendingPadding = none ∧
      shard.submittedSpan = none ∧ shard.rotation = none)
    (hold : old.reservedUsed = old.completedUsed)
    (hfree : m.freeRegions = r.activatedRegionId :: free)
    (hnext : m.nextSeqno ≠ u64Max) (hcreated : r.activatedCreatedSeqno = m.nextSeqno) :
    ManagerInv (m.rotating shard old free r) := by
  obtain ⟨ht, ho, hp, hs, hr⟩ := hidle
  have hpending := pendingSealed_rotating free hat hr
  have hplaced := places_rotating hat hr hfree
  have hlength : (m.rotating shard old free r).regions.length = m.regions.length := by
    simp [RegionManager.rotating]
  have hshards : (m.rotating shard old free r).activeRegions.length = m.activeRegions.length :=
    List.length_set
  have hnd : (m.rotating shard old free r).places.Nodup := hplaced.nodup_iff.2 h.nodup
  have hactivated : (m.rotating shard old free r).activeRegions[r.shardId]? =
      some r.activatedRegionId :=
    List.getElem?_set_self (List.getElem?_eq_some_iff.1 hat.active_eq).1
  obtain ⟨hofree, hosealed, horeclaiming⟩ := RegionManager.active_disjoint h.nodup hat.active_eq
  obtain ⟨hvfree, hvsealed, hvreclaiming⟩ := RegionManager.active_disjoint hnd hactivated
  have hpos : 0 < m.nextSeqno := Nat.zero_lt_of_lt (h.shards hat).created_lt
  refine ⟨h.size_aligned, h.size_le, hlength ▸ h.length_le, ?_, hshards ▸ h.shards_pos,
    hshards ▸ hlength ▸ h.shards_lt, ?_, hlength ▸ hplaced.trans h.placed,
    hshards ▸ hlength ▸ h.queueCapacity, hshards ▸ hlength ▸ h.sealedCapacity,
    hshards ▸ h.shards_le, ?_, h.limit_pos, h.limit_le, h.reclaiming_le, ?_, ?_, ?_, ?_, ?_⟩
  · rw [hshards]
    exact List.length_set.trans h.length_states
  · have := h.next_le
    show m.nextSeqno + 1 ≤ u64Max
    omega
  · have := h.free_le
    rw [hfree, List.length_cons] at this
    show free.length + m.reclaiming.length ≤ m.freeCapacity
    omega
  · intro id hid
    have hmem : id ∈ m.freeRegions := by
      rw [hfree]
      exact List.mem_cons_of_mem _ hid
    rw [regions_rotating (fun heq => hofree (heq ▸ hmem)) (fun heq => hvfree (heq ▸ hid))]
    exact h.free id hmem
  · intro id hid
    by_cases hido : id = r.sealedRegionId
    · subst hido
      refine ⟨{ old with state := .sealed }, ?_, rfl, hold⟩
      show ((m.regions.set _ _).set _ _)[r.sealedRegionId]? = _
      have hne : r.activatedRegionId ≠ r.sealedRegionId := fun heq => hvsealed (heq ▸ hid)
      rw [List.getElem?_set_ne hne, List.getElem?_set_self
        (List.getElem?_eq_some_iff.1 hat.region_eq).1]
    · rw [regions_rotating hido (fun heq => hvsealed (heq ▸ hid))]
      refine h.sealed id ?_
      rw [List.mem_append, hpending.mem_iff, List.mem_append, List.mem_singleton] at hid
      rw [List.mem_append]
      tauto
  · intro q hq
    have hmem : q.regionId ∈ m.reclaiming.map (·.regionId) := List.mem_map_of_mem hq
    rw [regions_rotating (fun heq => horeclaiming (heq ▸ hmem))
      (fun heq => hvreclaiming (heq ▸ hmem))]
    exact h.reclaiming q hq
  · intro region hregion
    show region.createdSeqno < m.nextSeqno + 1 ∧ _
    rcases mem_regions_rotating hregion with hregion | rfl | rfl
    · obtain ⟨h1, h2⟩ := h.regions region hregion
      exact ⟨by omega, h2⟩
    · obtain ⟨h1, h2, h3, -⟩ := h.regions old (List.mem_of_getElem? hat.region_eq)
      exact ⟨by dsimp only; omega, h2, h3, fun _ => (h.shards hat).created_pos⟩
    · exact ⟨hcreated ▸ Nat.lt_succ_self _, Nat.zero_le _, Nat.two_pow_pos 64,
        fun _ => hcreated ▸ hpos⟩
  · intro s sh id region hat'
    have hlt : r.activatedRegionId < m.regions.length := by
      rw [← h.mem_places]
      simp only [RegionManager.places, List.mem_append, hfree]
      exact .inl (.inl (.inl (.inr List.mem_cons_self)))
    rcases hat.of_rotating h.nodup hfree hlt hat' with ⟨rfl, rfl, rfl, rfl⟩ | ⟨-, -, -, hat'⟩
    · refine .of_idle rfl (hcreated ▸ hpos) (hcreated ▸ Nat.lt_succ_self _) rfl (Nat.zero_le _) rfl
        ⟨ht, ho, hp, hs⟩ fun r' hr' => ?_
      obtain rfl := Option.some.inj hr'
      exact ⟨rfl, rfl, rfl⟩
    · exact (h.shards hat').mono (Nat.le_succ _)

/-- The outgoing Regions, after a rotation has finished. -/
lemma pendingSealed_rotated (hs : m.appendStates[r.shardId]? = some shard)
    (hr : shard.rotation = some r) :
    m.pendingSealed.Perm ((m.rotated shard r).pendingSealed ++ [r.sealedRegionId]) := by
  have h := Queue.filterMap_set_perm (fun shard => shard.rotation.map (·.sealedRegionId)) hs
    { shard with rotation := none }
  simp only [hr, Option.map_none, Option.toList_none, List.append_nil, Option.map_some,
    Option.toList_some] at h
  exact h.symm

/-- Finishing a rotation keeps the invariant: the outgoing Region moves to the sealed queue. -/
lemma ManagerInv.rotated (h : ManagerInv m) (hs : m.appendStates[r.shardId]? = some shard)
    (hr : shard.rotation = some r) : ManagerInv (m.rotated shard r) := by
  have hpending := pendingSealed_rotated hs hr
  have hmem : ∀ id, id ∈ (m.rotated shard r).sealedRegions ++ (m.rotated shard r).pendingSealed →
      id ∈ m.sealedRegions ++ m.pendingSealed := by
    intro id hid
    rw [List.mem_append, hpending.mem_iff]
    simp only [RegionManager.rotated, List.mem_append, List.mem_singleton] at hid ⊢
    tauto
  refine { h with
    length_states := List.length_set.trans h.length_states
    placed := ?_
    sealed := fun id hid => h.sealed id (hmem id hid)
    shards := ?_ }
  · refine List.Perm.trans ?_ h.placed
    refine List.perm_iff_count.2 fun id => ?_
    have hcount := hpending.count_eq id
    simp only [RegionManager.places, RegionManager.rotated, RegionManager.setShard,
      List.count_append] at hcount ⊢
    omega
  · intro s sh id region hat'
    rcases RegionManager.ShardAt.of_rotated hs hat' with ⟨rfl, rfl, hbefore⟩ | ⟨-, hbefore⟩
    · exact { h.shards hbefore with rotation := fun r' hr' => by cases hr' }
    · exact h.shards hbefore

end Rotation

section Reclaim

variable {m : RegionManager}

/-- When a reclaim is needed. -/
lemma ManagerInv.reclaimNeeded_iff (h : ManagerInv m) : m.reclaimNeeded = true ↔
    m.reclaiming.length < m.reclaimLimit ∧ m.sealedRegions ≠ [] ∧
      m.freeRegions.length + m.reclaiming.length < m.activeRegions.length := by
  have hpos := h.shards_pos
  have hlt := h.shards_lt
  have hle : m.regions.length ≤ 2 ^ 20 := h.length_le
  simp only [RegionManager.reclaimNeeded, Bool.and_eq_true, decide_eq_true_eq, Bool.not_eq_true',
    List.isEmpty_eq_false_iff, and_assoc]
  refine and_congr_right fun _ => and_congr_right fun _ => ?_
  unfold Word.saturatingAdd
  omega

/-- Beginning a reclaim keeps the invariant: the first sealed Region moves to the reclaiming
set. -/
lemma ManagerInv.reclaiming_step (h : ManagerInv m) {id : ℕ} {rest : List ℕ} {region : RegionDesc}
    (hneeded : m.reclaimNeeded = true) (hsealed : m.sealedRegions = id :: rest)
    (hregion : m.regions[id]? = some region) :
    ManagerInv { m with
      sealedRegions := rest
      reclaiming := m.reclaiming ++ [⟨id, region.createdSeqno, region.completedUsed,
        region.physicalRecordCount⟩] } := by
  obtain ⟨hlimit, -, hreserve⟩ := h.reclaimNeeded_iff.1 hneeded
  have hshards := h.shards_le
  refine { h with
    placed := ?_
    free_le := ?_
    reclaiming_le := ?_
    sealed := ?_
    reclaiming := ?_
    shards := fun hat => h.shards ⟨hat.shard_eq, hat.active_eq, hat.region_eq⟩ }
  · refine List.Perm.trans ?_ h.placed
    refine List.perm_iff_count.2 fun i => ?_
    simp only [RegionManager.places, RegionManager.pendingSealed, hsealed, List.map_append,
      List.map_cons, List.map_nil, List.count_append, List.count_cons, List.count_nil]
    omega
  · show m.freeRegions.length + (m.reclaiming ++ _).length ≤ m.freeCapacity
    rw [List.length_append, List.length_singleton]
    omega
  · show (m.reclaiming ++ _).length ≤ m.reclaimLimit
    rw [List.length_append, List.length_singleton]
    exact hlimit
  · intro i hi
    refine h.sealed i ?_
    rw [hsealed]
    rcases List.mem_append.1 hi with hi | hi
    · exact List.mem_append_left _ (List.mem_cons_of_mem _ hi)
    · exact List.mem_append_right _ hi
  · intro r hr
    rcases List.mem_append.1 hr with hr | hr
    · exact h.reclaiming r hr
    · obtain rfl := List.mem_singleton.1 hr
      obtain ⟨region', hregion', hretired⟩ := h.sealed id (by
        rw [hsealed]
        exact List.mem_append_left _ List.mem_cons_self)
      obtain rfl := Option.some.inj (hregion.symm.trans hregion')
      exact ⟨region, hregion, hretired, rfl⟩

/-- The shards of a manager after a reclaim has finished are as they were. -/
lemma RegionManager.ShardAt.of_reclaimed {position s id : ℕ} {r : RegionReclaimReceipt}
    {sh : AppendShardState} {desc : RegionDesc} (hnd : m.places.Nodup)
    (hposition : m.reclaiming[position]? = some r)
    (hat' : (m.reclaimed position r).ShardAt s sh id desc) : m.ShardAt s sh id desc := by
  have hid : id ≠ r.regionId := fun heq => (RegionManager.reclaiming_disjoint hnd hposition).1
    (heq ▸ List.mem_of_getElem? hat'.active_eq)
  exact ⟨hat'.shard_eq, hat'.active_eq,
    (List.getElem?_set_ne (Ne.symm hid)).symm.trans hat'.region_eq⟩

/-- Finishing a reclaim keeps the invariant: the Region moves to the free queue, empty. -/
lemma ManagerInv.reclaimed (h : ManagerInv m) {position : ℕ} {r : RegionReclaimReceipt}
    {region : RegionDesc} (hposition : m.reclaiming[position]? = some r)
    (hregion : m.regions[r.regionId]? = some region) : ManagerInv (m.reclaimed position r) := by
  obtain ⟨-, hfree, hsealed, hothers⟩ :=
    RegionManager.reclaiming_disjoint h.nodup hposition
  have hperm := Queue.perm_swapRemove hposition
  have hlen := hperm.length_eq
  rw [List.length_cons] at hlen
  have hlength : (m.reclaimed position r).regions.length = m.regions.length := List.length_set
  have hother : ∀ {id : ℕ}, id ≠ r.regionId →
      (m.reclaimed position r).regions[id]? = m.regions[id]? := by
    intro id hid
    exact List.getElem?_set_ne (Ne.symm hid)
  have hlt : r.regionId < m.regions.length := (List.getElem?_eq_some_iff.1 hregion).1
  have hpos : 0 < m.nextSeqno :=
    Nat.zero_lt_of_lt (h.regions region (List.mem_of_getElem? hregion)).1
  refine ⟨h.size_aligned, h.size_le, hlength ▸ h.length_le, h.length_states, h.shards_pos,
    hlength ▸ h.shards_lt, h.next_le, ?_, hlength ▸ h.queueCapacity, hlength ▸ h.sealedCapacity,
    h.shards_le, ?_, h.limit_pos, h.limit_le, ?_, ?_, ?_, ?_, ?_, ?_⟩
  · rw [hlength]
    refine List.Perm.trans ?_ h.placed
    refine List.perm_iff_count.2 fun i => ?_
    have hcount := (hperm.map (·.regionId)).count_eq i
    simp only [RegionManager.places, RegionManager.reclaimed, RegionManager.setRegion,
      RegionManager.pendingSealed, List.count_append, List.map_cons, List.count_cons,
      List.count_nil] at hcount ⊢
    omega
  · have := h.free_le
    show (m.freeRegions ++ [r.regionId]).length + (Queue.swapRemove m.reclaiming position).length ≤
      m.freeCapacity
    rw [List.length_append, List.length_singleton]
    omega
  · have := h.reclaiming_le
    show (Queue.swapRemove m.reclaiming position).length ≤ m.reclaimLimit
    omega
  · intro id hid
    rcases List.mem_append.1 hid with hid | hid
    · rw [hother (fun heq => hfree (heq ▸ hid))]
      exact h.free id hid
    · obtain rfl := List.mem_singleton.1 hid
      exact List.getElem?_set_self hlt
  · intro id hid
    rw [hother (fun heq => hsealed (heq ▸ hid))]
    exact h.sealed id hid
  · intro q hq
    have hmem : q.regionId ∈ (Queue.swapRemove m.reclaiming position).map (·.regionId) :=
      List.mem_map_of_mem hq
    rw [hother (fun heq => hothers (heq ▸ hmem))]
    exact h.reclaiming q (hperm.mem_iff.2 (List.mem_cons_of_mem _ hq))
  · intro d hd
    rcases List.mem_or_eq_of_mem_set hd with hd | rfl
    · exact h.regions d hd
    · exact ⟨hpos, Nat.zero_le _, Nat.two_pow_pos 64, fun hne => absurd rfl hne⟩
  · exact fun hat => h.shards (hat.of_reclaimed h.nodup hposition)

end Reclaim

/-! ## Steps and runs -/

section Runs

variable {m m' : RegionManager} {events : List ManagerEvent}

/-- **Steps.** Every step keeps the invariant. -/
theorem ManagerStep.inv (hstep : ManagerStep m events m') (h : ManagerInv m) : ManagerInv m' := by
  cases hstep with
  | unchanged => exact h
  | sequenced hnext => exact h.sequence hnext
  | shard hat hstep =>
    have hinv := h.shards hat
    obtain ⟨-, hrot, hle, hmax⟩ := hstep.frame
    have hinv' := hstep.inv hinv
    obtain ⟨-, h2, h3, -⟩ := h.regions _ (List.mem_of_getElem? hat.region_eq)
    refine h.put hat hrot hle (hmax h.next_le) ?_ ?_ hinv'
    · cases hstep with
      | completed hspan hstart hend hcount => exact hend.trans hinv.reserved_le
      | _ => exact h2
    · cases hstep with
      | completed hspan hstart hend hcount => exact hcount
      | _ => exact h3
  | rotating hat hidle hold hfree hvictim hnext hcreated =>
    exact h.rotating hat hidle hold hfree hnext hcreated
  | rotated hshard hr => exact h.rotated hshard hr
  | reclaiming hneeded hsealed hregion => exact h.reclaiming_step hneeded hsealed hregion
  | reclaimed hposition hregion => exact h.reclaimed hposition hregion

/-- Replacing a shard alone. -/
lemma RegionManager.ShardAt.setShard_eq {shardId regionId : ℕ} {shard : AppendShardState}
    {region : RegionDesc} (hat : m.ShardAt shardId shard regionId region)
    (shard' : AppendShardState) :
    m.setShard shardId shard' = m.put shardId regionId shard' region m.nextSeqno := by
  have hset : m.regions.set regionId region = m.regions := by
    obtain ⟨hlt, heq⟩ := List.getElem?_eq_some_iff.1 hat.region_eq
    rw [← heq, List.set_getElem_self]
  rw [RegionManager.put, hset]
  rfl

/-- Replacing a shard and its Region by themselves. -/
lemma RegionManager.ShardAt.put_self {shardId regionId : ℕ} {shard : AppendShardState}
    {region : RegionDesc} (hat : m.ShardAt shardId shard regionId region) :
    m.put shardId regionId shard region m.nextSeqno = m := by
  obtain ⟨hlt, heq⟩ := List.getElem?_eq_some_iff.1 hat.shard_eq
  rw [← hat.setShard_eq, RegionManager.setShard, ← heq, List.set_getElem_self]

/-- The generation of the Region that a shard writes to. -/
lemma RegionManager.ShardAt.generation_put {shardId regionId : ℕ} {shard : AppendShardState}
    {region : RegionDesc} (hat : m.ShardAt shardId shard regionId region)
    (shard' : AppendShardState) (region' : RegionDesc) (next : ℕ) :
    (m.put shardId regionId shard' region' next).generation regionId = region'.createdSeqno := by
  rw [RegionManager.generation, RegionManager.put,
    List.getElem?_set_self (List.getElem?_eq_some_iff.1 hat.region_eq).1]
  rfl

/-- A shard whose flag is raised takes a step. -/
lemma ManagerInv.step_requested (h : ManagerInv m) {shardId : ℕ} {shard : AppendShardState}
    (hs : m.appendStates[shardId]? = some shard) :
    ManagerStep m [] (m.setShard shardId { shard with rotationRequested := true }) := by
  obtain ⟨regionId, region, hat⟩ := h.exists_shardAt hs
  rw [hat.setShard_eq]
  exact .shard hat .requested

/-- Submitting an open span is a step. -/
lemma ManagerInv.step_submitted (h : ManagerInv m) {shardId finish : ℕ} {shard : AppendShardState}
    {o : OpenWriteSpan} (hs : m.appendStates[shardId]? = some shard)
    (hopen : shard.openSpan = some o)
    (hidle : shard.tail = none ∧ shard.submittedSpan = none ∧ shard.rotation = none)
    (hal : o.startOffset % 4096 = 0 ∧ finish % 4096 = 0 ∧ o.startOffset < finish)
    (hend : finish = (shard.pendingPadding.map (·.paddedEndOffset)).getD o.endOffset)
    (hm : m' = m.setShard shardId (RegionManager.submitted shardId finish shard o)) :
    ManagerStep m [.submitted (m'.generation o.regionId) shard.pendingPadding
      ⟨shardId, o.regionId, o.startOffset, finish, o.recordCount, o.maxSeqno⟩] m' := by
  obtain ⟨regionId, region, hat⟩ := h.exists_shardAt hs
  obtain ⟨hal₁, hal₂, hlt⟩ := hal
  obtain rfl := ((h.shards hat).opened o hopen).1
  rw [hat.setShard_eq] at hm
  rw [hm, hat.generation_put]
  exact .shard hat (.submitted hopen rfl hidle hal₁ hal₂ hlt hend)

/-- **Operations.** What an operation does when it succeeds is a step.

**Proof sketch.** One case for each operation, from what its success means. -/
theorem ManagerOp.run_ok (h : ManagerInv m) {op : ManagerOp} (hop : op.run m = .ok events m') :
    ManagerStep m events m' := by
  cases op with
  | requestRotationForAppend shardId n =>
    obtain ⟨needed, m₁, h₁, h₂⟩ := bind_eq_ok.1 hop
    cases h₂
    rcases RegionManager.requestRotationForAppend_eq_ok h₁ with rfl | ⟨shard, hs, rfl⟩
    · exact .unchanged
    · exact h.step_requested hs
  | allocateSeqno =>
    obtain ⟨hnext, h₁⟩ := RegionManager.allocateSeqno_bind_eq_ok.1 hop
    cases h₁
    exact .sequenced hnext
  | reserveAppend shardId n =>
    obtain ⟨r, m₁, h₁, h₂⟩ := bind_eq_ok.1 hop
    cases h₂
    obtain ⟨shard, regionId, region, hat, hn, hidle, ⟨-, -, hfit, -⟩, hnext, rfl, rfl⟩ :=
      RegionManager.reserveAppend_eq_ok.1 h₁
    exact .shard hat (.reserved hn hidle hfit hnext)
  | stageReservation r =>
    obtain ⟨⟨⟩, m₁, h₁, h₂⟩ := bind_eq_ok.1 hop
    cases h₂
    obtain ⟨shard, span, hs, htail, -, hspan, rfl⟩ := RegionManager.stageReservation_eq_ok.1 h₁
    obtain ⟨regionId, region, hat⟩ := h.exists_shardAt hs
    rw [hat.setShard_eq]
    exact .shard hat (.staged htail hspan)
  | reserveWritePadding shardId =>
    obtain ⟨p, m₁, h₁, h₂⟩ := bind_eq_ok.1 hop
    obtain ⟨shard, o, region, hat, hopen, hidle, -, ⟨-, -, hres⟩, hp⟩ :=
      RegionManager.reserveWritePadding_eq_ok.1 h₁
    rcases hp with ⟨hz, rfl, hm⟩ | ⟨hz, padded, hpadded, -, ⟨hlt, -, hal, hle⟩, rfl, hm⟩
    · cases h₂
      rw [RegionManager.alignmentPadding_eq] at hz
      subst hm
      have hstep := ManagerStep.shard hat (.aligned hopen hidle (by omega))
      rwa [hat.put_self] at hstep
    · cases h₂
      have hm : m' = m.put shardId o.regionId _ { region with reservedUsed := padded }
        m.nextSeqno := hm
      rw [hm, hat.generation_put]
      refine .shard hat (.padded hopen hidle hres ⟨?_, ?_, hal, hle⟩)
      · omega
      · simp only [directIoAlignment] at hlt
        omega
  | sealWriteSpan shardId =>
    obtain ⟨span, m₁, h₁, h₂⟩ := bind_eq_ok.1 hop
    cases h₂
    obtain ⟨shard, o, hs, hopen, ⟨ht, hp, hr, hsub⟩, hal, rfl, hm⟩ :=
      RegionManager.sealWriteSpan_eq_ok.1 h₁
    have hstep := h.step_submitted hs hopen ⟨ht, hsub, hr⟩ hal (by rw [hp]; rfl) hm
    rwa [hp] at hstep
  | sealWriteSpanWithPadding p =>
    obtain ⟨span, m₁, h₁, h₂⟩ := bind_eq_ok.1 hop
    cases h₂
    obtain ⟨shard, o, region, hat, hopen, hp, ⟨ht, hr, hsub⟩, -, -, -, hal, rfl, hm⟩ :=
      RegionManager.sealWriteSpanWithPadding_eq_ok.1 h₁
    have hstep := h.step_submitted hat.shard_eq hopen ⟨ht, hsub, hr⟩ hal (by rw [hp]; rfl) hm
    rwa [hp] at hstep
  | completeWriteSpan span =>
    obtain ⟨⟨⟩, m₁, h₁, h₂⟩ := bind_eq_ok.1 hop
    cases h₂
    obtain ⟨shard, region, hat, hsub, ⟨-, -, hstart, hend, -, -⟩, hcount, hm⟩ :=
      RegionManager.completeWriteSpan_eq_ok.1 h₁
    have hm : m' = m.put span.shardId span.regionId _ { region with
      completedUsed := span.endOffset
      physicalRecordCount := region.physicalRecordCount + span.recordCount } m.nextSeqno := hm
    rw [hm, hat.generation_put]
    exact .shard hat (.completed hsub hstart hend hcount)
  | beginRotation candidate =>
    obtain ⟨r, m₁, h₁, h₂⟩ := bind_eq_ok.1 hop
    cases h₂
    obtain ⟨shard, oldId, old, victimId, victim, free, hat, ⟨-, hidle⟩, ⟨-, hold⟩,
      ⟨hfree, hvictim⟩, -, hnext, rfl, rfl⟩ := RegionManager.beginRotation_eq_ok h₁
    exact .rotating hat hidle hold hfree hvictim hnext rfl
  | finishRotation r =>
    obtain ⟨⟨⟩, m₁, h₁, h₂⟩ := bind_eq_ok.1 hop
    cases h₂
    obtain ⟨shard, hs, hr, -, rfl⟩ := RegionManager.finishRotation_eq_ok h₁
    exact .rotated hs hr
  | beginReclaim =>
    obtain ⟨r, m₁, h₁, h₂⟩ := bind_eq_ok.1 hop
    rcases RegionManager.beginReclaim_eq_ok h₁ with ⟨-, rfl, hm⟩ | ⟨id, rest, region, hneeded,
      hsealed, hregion, -, rfl, hm⟩
    · cases h₂
      subst hm
      exact .unchanged
    · cases h₂
      subst hm
      exact .reclaiming hneeded hsealed hregion
  | finishReclaim r =>
    obtain ⟨⟨⟩, m₁, h₁, h₂⟩ := bind_eq_ok.1 hop
    cases h₂
    obtain ⟨position, region, hposition, hregion, -, -, rfl⟩ := RegionManager.finishReclaim_eq_ok h₁
    exact .reclaimed hposition hregion

/-- An operation that is the given computation followed by a report fails in the computation. -/
private lemma report_eq_error {α : Type} {f : ManagerM α} {g : α → ManagerM (List ManagerEvent)}
    {e : RegionMutationError} (hg : ∀ a m₁, ∃ events m₂, g a m₁ = .ok events m₂)
    (h : (f >>= g) m = .error e m') : f m = .error e m' := by
  rcases bind_eq_error.1 h with h | ⟨a, m₁, -, h⟩
  · exact h
  · obtain ⟨events, m₂, hok⟩ := hg a m₁
    rw [hok] at h
    cases h

/-- Protocol order. Padding is reserved for a shard with staged records; a span is submitted without
padding only after the shard's padding turned out to be unnecessary. -/
def ManagerOp.InOrder (m : RegionManager) (history : List ManagerEvent) : ManagerOp → Prop
  | .reserveWritePadding shardId => ∃ shard o,
    m.appendStates[shardId]? = some shard ∧ shard.openSpan = some o
  | .sealWriteSpan shardId => lastEvent history shardId = some (.aligned shardId)
  | _ => True

/-- A shard whose padding turned out to be unnecessary still has an open span that ends at a device
page. -/
def AlignedInv (m : RegionManager) (history : List ManagerEvent) : Prop :=
  ∀ s, lastEvent history s = some (.aligned s) → ∃ shard o,
    m.appendStates[s]? = some shard ∧ shard.openSpan = some o ∧ o.endOffset % 4096 = 0

/-- **Failures.** An operation that fails has no effect, up to the request for rotation of a
reservation that does not fit; and it reports a broken invariant only when it is called out of
order. -/
theorem ManagerOp.run_error (h : ManagerInv m) {op : ManagerOp} {e : RegionMutationError}
    (hop : op.run m = .error e m') :
    (m' = m ∨ (e = .flushBeforeRotation ∨ e = .regionFull) ∧
        (∃ shardId n, op = .reserveAppend shardId n) ∧ ManagerStep m [] m') ∧
      ∀ {history : List ManagerEvent}, AlignedInv m history → op.InOrder m history →
        ∀ message, e ≠ .invariant message := by
  have hids : ∀ id ∈ m.activeRegions, id < 2 ^ 32 := by
    intro id hid
    have : id < m.regions.length := by
      rw [← h.mem_places]
      simp only [RegionManager.places, List.mem_append]
      exact .inl (.inl (.inl (.inl hid)))
    have hle : m.regions.length ≤ 2 ^ 20 := h.length_le
    omega
  cases op with
  | requestRotationForAppend shardId n =>
    obtain ⟨rfl, hmessage⟩ := RegionManager.requestRotationForAppend_eq_error
      (report_eq_error (fun _ _ => ⟨_, _, rfl⟩) hop)
    refine ⟨.inl rfl, fun _ _ message hm => ?_⟩
    obtain ⟨id, hid, hbad⟩ := hmessage message hm
    obtain ⟨region, hregion, hactive⟩ := h.active_state hid
    exact hbad region hregion hactive
  | allocateSeqno =>
    rcases RegionManager.allocateSeqno_bind_eq_error.1 hop with ⟨-, rfl, rfl⟩ | ⟨-, h₁⟩
    · exact ⟨.inl rfl, fun _ _ message hm => by cases hm⟩
    · cases h₁
  | reserveAppend shardId n =>
    obtain ⟨hm', hmessage⟩ := RegionManager.reserveAppend_eq_error
      (report_eq_error (fun _ _ => ⟨_, _, rfl⟩) hop)
    refine ⟨?_, fun _ _ message hm => ?_⟩
    · rcases hm' with rfl | ⟨he, shard, hs, rfl⟩
      · exact .inl rfl
      · exact .inr ⟨he, ⟨shardId, n, rfl⟩, h.step_requested hs⟩
    · obtain ⟨id, hid, hbad⟩ := hmessage message hm
      obtain ⟨region, hregion, hactive⟩ := h.active_state hid
      exact hbad region hregion hactive
  | stageReservation r =>
    obtain ⟨rfl, hmessage⟩ := RegionManager.stageReservation_eq_error
      (report_eq_error (fun _ _ => ⟨_, _, rfl⟩) hop)
    refine ⟨.inl rfl, fun _ _ message hm => ?_⟩
    obtain ⟨shard, o, hs, htail, hopen, hbad⟩ := hmessage message hm
    obtain ⟨regionId, region, hat⟩ := h.exists_shardAt hs
    obtain ⟨-, hid, -, hoff, -, -, -, -, hmax, -⟩ := (h.shards hat).tail r htail
    refine hbad ⟨((h.shards hat).opened o hopen).1.trans hid.symm, ?_, hmax o hopen⟩
    rw [hoff, AppendShardState.openEnd, hopen]
    rfl
  | reserveWritePadding shardId =>
    obtain ⟨rfl, hmessage⟩ := RegionManager.reserveWritePadding_eq_error
      (report_eq_error (fun a _ => by cases a <;> exact ⟨_, _, rfl⟩) hop)
    refine ⟨.inl rfl, fun _ horder message hm => ?_⟩
    obtain ⟨shard, hs, ⟨ht, hp, -, -⟩, hbad⟩ := hmessage message hm
    obtain ⟨shard', o, hs', hopen⟩ := horder
    obtain rfl := Option.some.inj (hs.symm.trans hs')
    obtain ⟨regionId, region, hat⟩ := h.exists_shardAt hs
    have hinv := h.shards hat
    obtain ⟨h1, h2, h3, h4, h5, h6, h7⟩ := hinv.opened o hopen
    have hres : region.reservedUsed = o.endOffset := by
      rw [hinv.reserved_eq_openEnd ht hp, AppendShardState.openEnd, hopen]
      rfl
    have hstart := hinv.submittedEnd_aligned
    have hpos := hinv.created_pos
    have hle := hinv.reserved_le
    have hsize : m'.regionSize ≤ 2 ^ 25 := h.size_le
    subst h1
    exact hbad o hopen ⟨h3, h2 ▸ hstart, h4, by omega, by omega, by omega, hat.active_eq, region,
      hat.region_eq, hinv.active, h6, hres, hle, h.size_aligned⟩
  | sealWriteSpan shardId =>
    obtain ⟨rfl, hmessage⟩ := RegionManager.sealWriteSpan_eq_error
      (report_eq_error (fun _ _ => ⟨_, _, rfl⟩) hop)
    refine ⟨.inl rfl, fun haligned horder message hm => ?_⟩
    obtain ⟨shard, hs, hbad⟩ := hmessage message hm
    obtain ⟨shard', o, hs', hopen, hend⟩ := haligned shardId horder
    obtain rfl := Option.some.inj (hs.symm.trans hs')
    obtain ⟨regionId, region, hat⟩ := h.exists_shardAt hs
    have hinv := h.shards hat
    obtain ⟨-, h2, h3, -⟩ := hinv.opened o hopen
    exact hbad o hopen ⟨h2 ▸ hinv.submittedEnd_aligned, hend, h3⟩
  | sealWriteSpanWithPadding p =>
    obtain ⟨rfl, hmessage⟩ := RegionManager.sealWriteSpanWithPadding_eq_error
      (report_eq_error (fun _ _ => ⟨_, _, rfl⟩) hop)
    refine ⟨.inl rfl, fun _ _ message hm => ?_⟩
    obtain ⟨shard, hs, hp, hbad⟩ := hmessage message hm
    obtain ⟨regionId, region, hat⟩ := h.exists_shardAt hs
    have hinv := h.shards hat
    obtain ⟨-, o, hopen, hal, hlt, -⟩ := hinv.padding p hp
    obtain ⟨-, h2, h3, -⟩ := hinv.opened o hopen
    exact hbad o hopen ⟨h2 ▸ hinv.submittedEnd_aligned, hal, h3.trans hlt⟩
  | completeWriteSpan span =>
    obtain ⟨rfl, hmessage⟩ := RegionManager.completeWriteSpan_eq_error
      (report_eq_error (fun _ _ => ⟨_, _, rfl⟩) hop)
    exact ⟨.inl rfl, fun _ _ => hmessage⟩
  | beginRotation candidate =>
    obtain ⟨rfl, hmessage⟩ := RegionManager.beginRotation_eq_error hids
      (report_eq_error (fun _ _ => ⟨_, _, rfl⟩) hop)
    refine ⟨.inl rfl, fun _ _ message hm => ?_⟩
    obtain ⟨id, hid, hbad⟩ := hmessage message hm
    obtain ⟨region, hregion, -⟩ := h.active_state hid
    obtain ⟨victimId, hhead, hvictim⟩ := hbad region hregion
    have hmem := List.mem_of_head? hhead
    rcases hvictim _ (h.free victimId hmem) with hstate | rfl
    · exact hstate rfl
    · exact (RegionManager.active_disjoint h.nodup hid).1 hmem
  | finishRotation r =>
    obtain ⟨rfl, hmessage⟩ := RegionManager.finishRotation_eq_error
      (report_eq_error (fun _ _ => ⟨_, _, rfl⟩) hop)
    refine ⟨.inl rfl, fun _ _ message hm => ?_⟩
    obtain ⟨shard, hs, hr, hfull⟩ := hmessage message hm
    -- the outgoing Region itself leaves room
    have hpending := (pendingSealed_rotated hs hr).length_eq
    have hplaces := h.length_places
    have hcapacity := h.queueCapacity
    have hle : m'.regions.length ≤ 2 ^ 20 := h.length_le
    have hlt := h.shards_lt
    rw [List.length_append, List.length_singleton] at hpending
    unfold Word.saturatingAdd at hfull
    omega
  | beginReclaim =>
    obtain ⟨message, rfl, hneeded, hbad⟩ := RegionManager.beginReclaim_eq_error
      (report_eq_error (fun a _ => by cases a <;> exact ⟨_, _, rfl⟩) hop)
    obtain ⟨-, hne, -⟩ := h.reclaimNeeded_iff.1 hneeded
    exfalso
    cases hl : m.sealedRegions with
    | nil => exact hne hl
    | cons id rest =>
      obtain ⟨region, hregion, hstate, hdone⟩ := h.sealed id (by simp [hl])
      exact hbad id region (by simp [hl]) hregion ⟨hstate, hdone.symm⟩
  | finishReclaim r =>
    obtain ⟨rfl, hmessage⟩ := RegionManager.finishReclaim_eq_error
      (report_eq_error (fun _ _ => ⟨_, _, rfl⟩) hop)
    refine ⟨.inl rfl, fun _ _ message hm => ?_⟩
    obtain ⟨hmem, hfull⟩ := hmessage message hm
    have hpos := List.length_pos_of_mem hmem
    have hplaces := h.length_places
    have hcapacity := h.queueCapacity
    have hle : m'.regions.length ≤ 2 ^ 20 := h.length_le
    have hlt := h.shards_lt
    unfold Word.saturatingAdd at hfull
    omega

/-- An operation that fails is a step without events. -/
lemma ManagerOp.step_of_error (h : ManagerInv m) {op : ManagerOp} {e : RegionMutationError}
    (hop : op.run m = .error e m') : ManagerStep m [] m' := by
  rcases (run_error h hop).1 with rfl | ⟨-, -, hstep⟩
  · exact .unchanged
  · exact hstep

end Runs

/-! ## Recovered managers -/

section Recovered

variable {m m' : RegionManager} {metadata : RegionMetadata}

/-- A recovered manager has no rotation outstanding. -/
lemma RecoveredFrom.pendingSealed (hr : RecoveredFrom metadata m) : m.pendingSealed = [] := by
  rw [RegionManager.pendingSealed, hr.appendStates, List.filterMap_eq_nil_iff]
  intro shard hs
  rw [List.eq_of_mem_replicate hs]
  rfl

/-- A queue whose entries are the Regions of one state, each at its ordinal. -/
lemma queue_of_ordinals {regions : List RegionMetadataRecord} {queue : List ℕ}
    {state : RegionState} (h : ∀ k i : ℕ, queue[k]? = some i ↔ ∃ region,
      regions[i]? = some region ∧ region.state = state ∧ region.queueOrdinal.toNat = k) :
    queue.Nodup ∧ ∀ i, i ∈ queue ↔ ∃ region, regions[i]? = some region ∧ region.state = state := by
  refine ⟨List.nodup_iff_getElem?_ne_getElem?.2 fun j k hjk hk heq => ?_, fun i => ?_⟩
  · obtain ⟨r, hr₁, -, ho₁⟩ := (h k _).1 (List.getElem?_eq_getElem hk)
    obtain ⟨r', hr₂, -, ho₂⟩ := (h j _).1 (heq.trans (List.getElem?_eq_getElem hk))
    obtain rfl := Option.some.inj (hr₁.symm.trans hr₂)
    omega
  · rw [List.mem_iff_getElem?]
    constructor
    · rintro ⟨k, hk⟩
      obtain ⟨region, hregion, hstate, -⟩ := (h k i).1 hk
      exact ⟨region, hregion, hstate⟩
    · rintro ⟨region, hregion, hstate⟩
      exact ⟨_, (h _ i).2 ⟨region, hregion, hstate, rfl⟩⟩

/-- The queues of a recovered manager hold every id once. -/
lemma RecoveredFrom.placed (hr : RecoveredFrom metadata m) :
    m.places.Perm (List.range m.regions.length) := by
  have hlength : m.regions.length = metadata.regions.length := by
    rw [hr.regions, List.length_map]
  obtain ⟨hand, hamem⟩ := queue_of_ordinals hr.active
  obtain ⟨hfnd, hfmem⟩ := queue_of_ordinals hr.free
  obtain ⟨hsnd, hsmem⟩ := queue_of_ordinals hr.sealed
  -- a Region has one state
  have hstates : ∀ {i : ℕ} {s₁ s₂ : RegionState},
      (∃ region, metadata.regions[i]? = some region ∧ region.state = s₁) →
      (∃ region, metadata.regions[i]? = some region ∧ region.state = s₂) → s₁ = s₂ := by
    intro i s₁ s₂ h₁ h₂
    obtain ⟨r, hr₁, rfl⟩ := h₁
    obtain ⟨r', hr₂, rfl⟩ := h₂
    rw [Option.some.inj (hr₁.symm.trans hr₂)]
  rw [RegionManager.places, hr.pendingSealed, hr.reclaiming, List.map_nil, List.append_nil,
    List.append_nil]
  refine (List.perm_ext_iff_of_nodup ?_ List.nodup_range).2 fun i => ?_
  · refine List.nodup_append.2 ⟨List.nodup_append.2 ⟨hand, hfnd, ?_⟩, hsnd, ?_⟩
    · rintro i hi j hj rfl
      cases hstates ((hamem i).1 hi) ((hfmem i).1 hj)
    · rintro i hi j hj rfl
      rcases List.mem_append.1 hi with hi | hi
      · cases hstates ((hamem i).1 hi) ((hsmem i).1 hj)
      · cases hstates ((hfmem i).1 hi) ((hsmem i).1 hj)
  · rw [List.mem_append, List.mem_append, hamem, hfmem, hsmem, List.mem_range, hlength]
    constructor
    · rintro ((⟨r, hr', -⟩ | ⟨r, hr', -⟩) | ⟨r, hr', -⟩) <;>
        exact (List.getElem?_eq_some_iff.1 hr').1
    · intro hi
      have hget := List.getElem?_eq_getElem hi
      cases hstate : metadata.regions[i].state with
      | active => exact .inl (.inl ⟨_, hget, hstate⟩)
      | free => exact .inl (.inr ⟨_, hget, hstate⟩)
      | sealed => exact .inr ⟨_, hget, hstate⟩

/-- **Recovery.** A manager built from a valid table whose Active Regions end at device pages has
the invariant. -/
theorem ManagerInv.of_recovered (hv : metadata.Valid) (hr : RecoveredFrom metadata m)
    (hal : ∀ region ∈ m.regions, region.state = .active → region.completedUsed % 4096 = 0) :
    ManagerInv m := by
  have hlength : m.regions.length = metadata.root.regionCount.toNat := by
    rw [hr.regions, List.length_map, hv.length_regions]
  have hshards := hr.length_active
  have hget : ∀ {i : ℕ} {region : RegionMetadataRecord}, metadata.regions[i]? = some region →
      m.regions[i]? = some region.desc := by
    intro i region hi
    rw [hr.regions, List.getElem?_map, hi]
    rfl
  have hcounts := hv.counts
  have hactive := hv.active_eq
  have hmax := hv.maxSeqno_lt
  refine ⟨?_, ?_, ?_, ?_, ?_, ?_, ?_, hr.placed, ?_, ?_, ?_, ?_, ?_, ?_, ?_, ?_, ?_, ?_, ?_, ?_⟩
  · rw [hr.regionSize]
    exact hv.regionSize_aligned
  · rw [hr.regionSize]
    exact hv.regionSize_le
  · rw [hlength]
    exact hv.regionCount_le
  · rw [hr.appendStates, List.length_replicate, hshards]
  · rw [hshards]
    exact hv.shardCount_pos
  · rw [hshards, hlength]
    exact hv.shardCount_lt
  · rw [hr.nextSeqno]
    exact hmax
  · rw [hr.queueCapacity, hshards, hlength]
  · rw [hr.sealedCapacity, hr.queueCapacity, hshards, hlength]
  · rw [hr.freeCapacity, hshards]
    exact Nat.le_max_right _ _
  · rw [hr.freeCapacity, hr.length_free, hr.reclaiming]
    exact Nat.le_max_left _ _
  · rw [hr.reclaimLimit]
    decide
  · rw [hr.reclaimLimit, hr.reclaimingCapacity]
  · rw [hr.reclaiming]
    exact Nat.zero_le _
  · intro id hid
    obtain ⟨k, hk⟩ := List.mem_iff_getElem?.1 hid
    obtain ⟨region, hregion, hstate, -⟩ := (hr.free k id).1 hk
    have hvalid := hv.regions region (List.mem_of_getElem? hregion)
    obtain ⟨hcreated, hused⟩ := hvalid.free_zero hstate
    have hcount := hvalid.count_le
    rw [hused] at hcount
    have hzero : region.physicalRecordCount.toNat = 0 := by
      simpa using hcount
    rw [hget hregion, RegionMetadataRecord.desc, hstate, hcreated, hused, hzero]
    rfl
  · intro id hid
    rw [hr.pendingSealed, List.append_nil] at hid
    obtain ⟨k, hk⟩ := List.mem_iff_getElem?.1 hid
    obtain ⟨region, hregion, hstate, -⟩ := (hr.sealed k id).1 hk
    exact ⟨_, hget hregion, hstate, rfl⟩
  · intro r hr'
    rw [hr.reclaiming] at hr'
    cases hr'
  · intro region hregion
    rw [hr.regions] at hregion
    obtain ⟨record, hrecord, rfl⟩ := List.mem_map.1 hregion
    have hvalid := hv.regions record hrecord
    refine ⟨?_, ?_, record.physicalRecordCount.isLt, hvalid.created_pos⟩
    · rw [hr.nextSeqno]
      exact Nat.lt_succ_of_le hvalid.created_le
    · rw [hr.regionSize]
      exact hvalid.used_le
  · intro s shard id region hat
    have hshard : shard = {} := by
      have := List.mem_of_getElem? hat.shard_eq
      rw [hr.appendStates] at this
      exact List.eq_of_mem_replicate this
    obtain ⟨record, hrecord, hstate, -⟩ := (hr.active s id).1 hat.active_eq
    obtain rfl : record.desc = region := Option.some.inj ((hget hrecord).symm.trans hat.region_eq)
    have hvalid := hv.regions record (List.mem_of_getElem? hrecord)
    subst hshard
    refine .of_idle hstate (hvalid.created_pos (by rw [hstate]; decide)) ?_
      (hal _ (List.mem_of_getElem? hat.region_eq) hstate) ?_ rfl ⟨rfl, rfl, rfl, rfl⟩
      (fun r hr' => by cases hr')
    · rw [hr.nextSeqno]
      exact Nat.lt_succ_of_le hvalid.created_le
    · rw [hr.regionSize]
      exact hvalid.used_le

/-- The words of a manager fit their widths. -/
lemma ManagerInv.bounded (h : ManagerInv m) : m.Bounded := by
  have hsize : m.regionSize ≤ 2 ^ 25 := h.size_le
  have hnext : m.nextSeqno ≤ 2 ^ 64 - 1 := h.next_le
  refine ⟨by omega, by omega, fun region hr => ?_⟩
  obtain ⟨h1, h2, h3, -⟩ := h.regions region hr
  exact ⟨by omega, by omega, h3⟩

/-- A Region is some shard's and Active, or free and empty, or sealed and completed. -/
lemma ManagerInv.place_cases (h : ManagerInv m) {id : ℕ} {region : RegionDesc}
    (hregion : m.regions[id]? = some region) :
    (region.state = .active ∧ ∃ shardId shard, m.ShardAt shardId shard id region) ∨
      region = .empty .free 0 ∨ region.Retired := by
  have hlt := (List.getElem?_eq_some_iff.1 hregion).1
  have heq : ∀ {d : RegionDesc}, m.regions[id]? = some d → d = region := fun hd =>
    Option.some.inj (hd.symm.trans hregion)
  rw [← h.mem_places] at hlt
  simp only [RegionManager.places, List.mem_append, List.mem_map] at hlt
  rcases hlt with (((hmem | hmem) | hmem) | ⟨r, hmem, rfl⟩) | hmem
  · obtain ⟨s, hs⟩ := List.mem_iff_getElem?.1 hmem
    have hlt : s < m.appendStates.length := by
      rw [h.length_states]
      exact (List.getElem?_eq_some_iff.1 hs).1
    have hat : m.ShardAt s _ id region := ⟨List.getElem?_eq_getElem hlt, hs, hregion⟩
    exact .inl ⟨(h.shards hat).active, s, _, hat⟩
  · exact .inr (.inl (heq (h.free id hmem)).symm)
  · obtain ⟨d, hd, hretired⟩ := h.sealed id (List.mem_append_left _ hmem)
    exact .inr (.inr (heq hd ▸ hretired))
  · obtain ⟨d, hd, hretired, -⟩ := h.reclaiming r hmem
    exact .inr (.inr (heq hd ▸ hretired))
  · obtain ⟨d, hd, hretired⟩ := h.sealed id (List.mem_append_right _ hmem)
    exact .inr (.inr (heq hd ▸ hretired))

/-- A Region that is Active is some shard's. -/
lemma ManagerInv.exists_shard (h : ManagerInv m) {id : ℕ} {region : RegionDesc}
    (hregion : m.regions[id]? = some region) (hactive : region.state = .active) :
    ∃ shardId shard, m.ShardAt shardId shard id region := by
  rcases h.place_cases hregion with ⟨-, hat⟩ | rfl | ⟨hsealed, -⟩
  · exact hat
  · cases hactive
  · cases hsealed.symm.trans hactive

/-- A Region that is free is empty. -/
lemma ManagerInv.eq_empty (h : ManagerInv m) {id : ℕ} {region : RegionDesc}
    (hregion : m.regions[id]? = some region) (hfree : region.state = .free) :
    region = .empty .free 0 := by
  rcases h.place_cases hregion with ⟨hactive, -⟩ | hempty | ⟨hsealed, -⟩
  · cases hactive.symm.trans hfree
  · exact hempty
  · cases hsealed.symm.trans hfree

/-- **Restart.** A restarted manager has the invariant. -/
theorem ManagerInv.restart (h : ManagerInv m) {partitions : List PartitionMetadataRecord}
    {identity : PersistentId} {generation : BitVec 64} {appendShards : BitVec 32}
    (hop : m.restart partitions identity generation appendShards = .ok m') : ManagerInv m' := by
  obtain ⟨⟨metadata', hv, hr⟩, hrestarted⟩ := RegionManager.restart_eq_ok h.bounded hop
  refine .of_recovered hv hr fun region hregion hactive => ?_
  obtain ⟨i, hi⟩ := List.mem_iff_getElem?.1 hregion
  have hlt : i < m.regions.length := by
    rw [← hrestarted.length_regions]
    exact (List.getElem?_eq_some_iff.1 hi).1
  have hold := List.getElem?_eq_getElem hlt
  obtain ⟨r', hr', hrel⟩ := hrestarted.regions i _ hold
  obtain rfl := Option.some.inj (hi.symm.trans hr')
  cases hrel with
  | kept hstate hcreated hcompleted hreserved hcount =>
    rcases hstate with hstate | ⟨-, hsealed⟩
    · obtain ⟨s, shard, hat⟩ := h.exists_shard hold (hstate.symm.trans hactive)
      rw [hcompleted]
      exact (h.shards hat).completed_aligned
    · cases hactive.symm.trans hsealed
  | activated hfree _ hlow hhigh hcompleted hreserved hcount =>
    rw [hcompleted, h.eq_empty hold hfree]
    rfl

/-- A manager of an empty data file has the invariant. -/
lemma ManagerInv.cold {metadata : RegionMetadata} (hempty : EmptyTable metadata)
    (hm : RegionManager.fromMetadata metadata = .ok m) : ManagerInv m := by
  obtain ⟨hv, hr⟩ := RegionManager.fromMetadata_eq_ok hm
  refine .of_recovered hv hr fun region hregion _ => ?_
  rw [hr.regions, hempty.regions] at hregion
  obtain ⟨record, hrecord, rfl⟩ := List.mem_map.1 hregion
  obtain ⟨i, -, rfl⟩ := List.mem_map.1 hrecord
  unfold emptyRegion
  split_ifs <;> rfl

end Recovered

/-! ## Reachable managers -/

section Reachable

variable {m m' : RegionManager} {history events : List ManagerEvent}

/-- **Reachable managers.** Every manager that a run reaches has the invariant. -/
theorem ManagerReachable.inv (h : ManagerReachable m history) : ManagerInv m := by
  induction h with
  | cold hempty hm => exact .cold (emptyRegionMetadata_eq_ok hempty) hm
  | ok _ hop ih => exact (ManagerOp.run_ok ih hop).inv ih
  | error _ hop ih => exact (ManagerOp.step_of_error ih hop).inv ih
  | configured _ hop ih =>
    obtain ⟨hpos, hnone, rfl⟩ := RegionManager.configureReclaimWorkers_eq_ok hop
    exact { ih with
      limit_pos := Nat.pos_of_ne_zero hpos
      limit_le := Nat.le_max_right _ _
      reclaiming_le := by rw [hnone]; exact Nat.zero_le _
      shards := fun hat => ih.shards ⟨hat.shard_eq, hat.active_eq, hat.region_eq⟩ }
  | restarted _ hop ih => exact ih.restart hop

/-- The last event of a shard, after one more event. -/
lemma lastEvent_append (history : List ManagerEvent) (event : ManagerEvent) (s : ℕ) :
    lastEvent (history ++ [event]) s =
      if event.shard? = some s then some event else lastEvent history s := by
  unfold lastEvent
  rw [List.filter_append]
  split_ifs with h
  · simp [h]
  · simp [h]

/-- After one more event, when the shards that it does not concern are as they were. -/
lemma AlignedInv.append (h : AlignedInv m history) {event : ManagerEvent}
    (hframe : ∀ s, some s ≠ event.shard? → m'.appendStates[s]? = m.appendStates[s]?)
    (hevent : ∀ s, event = .aligned s → ∃ shard o,
      m'.appendStates[s]? = some shard ∧ shard.openSpan = some o ∧ o.endOffset % 4096 = 0) :
    AlignedInv m' (history ++ [event]) := by
  intro s hs
  rw [lastEvent_append] at hs
  split_ifs at hs with hshard
  · exact hevent s (Option.some.inj hs)
  · rw [hframe s (Ne.symm hshard)]
    exact h s hs

/-- Steps keep track of the shards whose spans are aligned. -/
lemma AlignedInv.step (h : AlignedInv m history) (hinv : ManagerInv m)
    (hstep : ManagerStep m events m') : AlignedInv m' (history ++ events) := by
  cases hstep with
  | unchanged => simpa using h
  | sequenced hnext => exact h.append (fun _ _ => rfl) (by simp)
  | @shard shardId _ shard shard' _ region' next _ hat hstep =>
    have hself := List.getElem?_set_self (a := shard') (List.getElem?_eq_some_iff.1 hat.shard_eq).1
    rcases hstep.events_eq (hinv.shards hat) with ⟨rfl, hopen'⟩ | ⟨event, rfl, hevent, hal⟩
    · rw [List.append_nil]
      intro s hs
      obtain ⟨sh, o, hshard, hopen, hend⟩ := h s hs
      by_cases hss : s = shardId
      · subst hss
        obtain rfl := Option.some.inj (hat.shard_eq.symm.trans hshard)
        exact ⟨shard', o, hself, hopen'.trans hopen, hend⟩
      · exact ⟨sh, o, (List.getElem?_set_ne (Ne.symm hss)).trans hshard, hopen, hend⟩
    · have hframe : ∀ s, some s ≠ event.shard? →
          (m.appendStates.set shardId shard')[s]? = m.appendStates[s]? := by
        intro s hs
        rw [hevent] at hs
        exact List.getElem?_set_ne fun heq => hs (congrArg some heq.symm)
      refine h.append hframe fun s hs => ?_
      obtain rfl : s = shardId := by
        rw [hs] at hevent
        exact Option.some.inj hevent
      obtain ⟨o, hopen, hend⟩ := hal hs
      exact ⟨shard', o, hself, hopen, hend⟩
  | rotating hat hidle hold hfree hvictim hnext hcreated =>
    exact h.append (fun s hs => List.getElem?_set_ne fun heq => hs (congrArg some heq.symm))
      (by simp)
  | rotated hshard hr =>
    exact h.append (fun s hs => List.getElem?_set_ne fun heq => hs (congrArg some heq.symm))
      (by simp)
  | reclaiming hneeded hsealed hregion => exact h.append (fun _ _ => rfl) (by simp)
  | reclaimed hposition hregion => exact h.append (fun _ _ => rfl) (by simp)

/-- Events that concern no shard. -/
lemma lastEvent_activated (history : List ManagerEvent) (numbers : List ℕ) (s : ℕ) :
    lastEvent (history ++ numbers.map .activated) s = lastEvent history s := by
  unfold lastEvent
  rw [List.filter_append]
  have hnone : (numbers.map ManagerEvent.activated).filter
      (fun event => event.shard? = some s) = [] := by
    rw [List.filter_eq_nil_iff]
    intro event hevent
    obtain ⟨n, -, rfl⟩ := List.mem_map.1 hevent
    simp [ManagerEvent.shard?]
  rw [hnone, List.append_nil]

/-- The shards of a reachable manager whose spans are aligned. -/
theorem ManagerReachable.aligned (h : ManagerReachable m history) : AlignedInv m history := by
  induction h with
  | @cold data indexSlots appendShards metadata m hempty hm =>
    intro s hs
    have hnil := lastEvent_activated [] (m.createdSeqnos 0) s
    rw [List.nil_append] at hnil
    rw [hnil] at hs
    cases hs
  | ok h hop ih => exact ih.step h.inv (ManagerOp.run_ok h.inv hop)
  | error h hop ih =>
    have := ih.step h.inv (ManagerOp.step_of_error h.inv hop)
    rwa [List.append_nil] at this
  | configured _ hop ih =>
    obtain ⟨-, -, rfl⟩ := RegionManager.configureReclaimWorkers_eq_ok hop
    exact ih
  | restarted h hop ih =>
    intro s hs
    rw [lastEvent_activated] at hs
    -- a shard with an open span cannot be frozen
    obtain ⟨shard, o, hshard, hopen, -⟩ := ih s hs
    have hquiet := (RegionManager.restart_eq_ok h.inv.bounded hop).2.quiescent shard
      (List.mem_of_getElem? hshard)
    simp [AppendShardState.isQuiescent, hopen] at hquiet

end Reachable

/-! ## Conservation -/

/-- The state that a Region id has. -/
def RegionManager.StateIs (m : RegionManager) (id : ℕ) (state : RegionState) : Prop :=
  ∃ region, m.regions[id]? = some region ∧ region.state = state

/-- Regions are conserved, no queue overflows, there is always a way to make room, and the manager's
own consistency checks never fail for callers that follow the protocol. -/
structure Conservation (m : RegionManager) (history : List ManagerEvent) : Prop where
  placed : ∀ id < m.regions.length, m.places.count id = 1
  no_others : ∀ id ∈ m.places, id < m.regions.length
  active : ∀ id ∈ m.activeRegions, m.StateIs id .active
  free : ∀ id ∈ m.freeRegions, m.StateIs id .free
  sealed : ∀ id ∈ m.sealedRegions, m.StateIs id .sealed
  reclaiming : ∀ r ∈ m.reclaiming, m.StateIs r.regionId .sealed
  pending : ∀ id ∈ m.pendingSealed, m.StateIs id .sealed
  freeCapacity : m.freeRegions.length ≤ m.freeCapacity
  sealedCapacity : m.sealedRegions.length ≤ m.sealedCapacity
  reclaimingCapacity : m.reclaiming.length ≤ m.reclaimingCapacity
  progress : m.freeRegions = [] → (∀ shard ∈ m.appendStates, shard.rotation = none) →
    m.reclaiming = [] → m.reclaimNeeded = true ∧ m.sealedRegions ≠ []
  inOrder : ∀ (op : ManagerOp) (e : RegionMutationError) (m' : RegionManager),
    op.InOrder m history → op.run m = .error e m' → ∀ message, e ≠ .invariant message
  candidate : ∀ (shardId : ℕ) (e : RegionMutationError) (m' : RegionManager),
    RegionManager.rotationCandidate shardId m = .error e m' → ∀ message, e ≠ .invariant message

/-- When nothing is free, being reclaimed or going out, a sealed Region can be reclaimed. -/
lemma ManagerInv.progress {m : RegionManager} (h : ManagerInv m) (hfree : m.freeRegions = [])
    (hrot : ∀ shard ∈ m.appendStates, shard.rotation = none) (hrec : m.reclaiming = []) :
    m.reclaimNeeded = true ∧ m.sealedRegions ≠ [] := by
  have hpending : m.pendingSealed = [] := by
    rw [RegionManager.pendingSealed, List.filterMap_eq_nil_iff]
    intro shard hs
    rw [hrot shard hs]
    rfl
  have hplaces := h.length_places
  have hlt := h.shards_lt
  have hpos := h.shards_pos
  have hlimit := h.limit_pos
  simp only [hpending, hfree, hrec, List.length_nil, Nat.add_zero] at hplaces
  have hsealed : m.sealedRegions ≠ [] := by
    intro hnil
    rw [hnil, List.length_nil] at hplaces
    omega
  refine ⟨h.reclaimNeeded_iff.2 ⟨?_, hsealed, ?_⟩, hsealed⟩
  · rw [hrec]
    exact hlimit
  · rw [hfree, hrec]
    exact hpos

/-- Selecting a Region for a rotation never reports a broken invariant. -/
lemma ManagerInv.candidate {m m' : RegionManager} (h : ManagerInv m) {shardId : ℕ}
    {e : RegionMutationError} (hop : RegionManager.rotationCandidate shardId m = .error e m')
    (message : String) : e ≠ .invariant message := by
  rcases RegionManager.selectRotation_bind_eq_error hop with ⟨-, hmessage⟩ | ⟨_, _, _, _, _, -, -,
    -, hpure⟩
  · intro hm
    obtain ⟨id, hid, hbad⟩ := hmessage message hm
    obtain ⟨region, hregion, -⟩ := h.active_state hid
    obtain ⟨victimId, hhead, hvictim⟩ := hbad region hregion
    have hmem := List.mem_of_head? hhead
    rcases hvictim _ (h.free victimId hmem) with hstate | rfl
    · exact hstate rfl
    · exact (RegionManager.active_disjoint h.nodup hid).1 hmem
  · cases hpure

/-- **Conservation.** In every manager that a run reaches, from an empty data file through any
operations and restarts, each Region stands in exactly one place and in the state of that place,
no queue exceeds its capacity, a sealed Region can be reclaimed whenever nothing is free or under
way, and no operation called in protocol order reports a broken invariant. -/
theorem regionManager_conservation {m : RegionManager} {history : List ManagerEvent}
    (h : ManagerReachable m history) : Conservation m history := by
  have hinv := h.inv
  have hplaces := hinv.length_places
  have hfree := hinv.free_le
  refine ⟨fun id hid => ?_, fun id hid => hinv.mem_places.1 hid, fun id hid => ?_, fun id hid => ?_,
    fun id hid => ?_, fun r hr => ?_, fun id hid => ?_, by omega, ?_,
    hinv.reclaiming_le.trans hinv.limit_le, hinv.progress, fun op e m' horder hop =>
      (ManagerOp.run_error hinv hop).2 h.aligned horder, fun _ _ _ => hinv.candidate⟩
  · exact List.count_eq_one_of_mem hinv.nodup (hinv.mem_places.2 hid)
  · obtain ⟨s, hs⟩ := List.mem_iff_getElem?.1 hid
    exact hinv.active_state hs
  · exact ⟨_, hinv.free id hid, rfl⟩
  · obtain ⟨region, hregion, hstate, -⟩ := hinv.sealed id (List.mem_append_left _ hid)
    exact ⟨region, hregion, hstate⟩
  · obtain ⟨region, hregion, ⟨hstate, -⟩, -⟩ := hinv.reclaiming r hr
    exact ⟨region, hregion, hstate⟩
  · obtain ⟨region, hregion, hstate, -⟩ := hinv.sealed id (List.mem_append_right _ hid)
    exact ⟨region, hregion, hstate⟩
  · rw [hinv.sealedCapacity]
    omega

/-- A data file with three Regions. -/
def sampleData : DataSuperblock :=
  let id := PersistentId.sample
  ⟨1, id, id, ⟨16384, 4096, 3⟩, 0, 0⟩

/-- The manager of the empty data file with three Regions and one shard. -/
def sampleManager : RegionManager :=
  let id := PersistentId.sample
  { binding := ⟨id, id, 1, id, 1, 0⟩
    regionSize := 4096
    nextSeqno := 2
    regions := [.empty .active 1, .empty .free 0, .empty .free 0]
    activeRegions := [0]
    appendStates := [{}]
    freeRegions := [1, 2]
    sealedRegions := []
    reclaiming := []
    reclaimLimit := 1
    queueCapacity := 2
    rotations := 0
    freeCapacity := 2
    sealedCapacity := 2
    reclaimingCapacity := 1 }

/-- The table of the empty data file with three Regions and one shard. -/
def sampleTable : RegionMetadata :=
  let id := PersistentId.sample
  { root := ⟨id, id, 1, id, 1, 0, 8, 1, 4096, 3, 1, 1, 1, 2, 1, 0⟩
    regions := [⟨.active, 0, 1, 0, 0⟩, ⟨.free, 0, 0, 0, 0⟩, ⟨.free, 1, 0, 0, 0⟩]
    partitions := [⟨0, 0, 1, 0, 8, 0, 0⟩] }

/-- The sample is where a run starts. -/
lemma sampleManager_reachable : ManagerReachable sampleManager [.activated 1] :=
  .cold (show emptyRegionMetadata sampleData 8 1 = .ok sampleTable by
    decide +kernel) (by decide +kernel)

/-- Two records are appended and flushed, and a third one asks for a rotation. -/
def sampleFill : List ManagerOp :=
  [.reserveAppend 0 64, .stageReservation ⟨0, 0, 1, 0, 64, 2⟩, .reserveAppend 0 96,
    .stageReservation ⟨0, 0, 1, 64, 96, 3⟩, .reserveWritePadding 0,
    .sealWriteSpanWithPadding ⟨0, 0, 0, 160, 4096, 2, 3⟩, .completeWriteSpan ⟨0, 0, 0, 4096, 2, 3⟩,
    .requestRotationForAppend 0 64]

/-- The shard rotates, fills its second Region, and rotates again; then the first Region is
reclaimed. -/
def sampleTurn : List ManagerOp :=
  [.beginRotation ⟨0, 1, 0⟩, .finishRotation ⟨0, 0, 1, 4⟩, .reserveAppend 0 64,
    .stageReservation ⟨0, 1, 4, 0, 64, 5⟩, .reserveWritePadding 0,
    .sealWriteSpanWithPadding ⟨0, 1, 0, 64, 4096, 1, 5⟩, .completeWriteSpan ⟨0, 1, 0, 4096, 1, 5⟩,
    .requestRotationForAppend 0 64, .beginRotation ⟨0, 2, 0⟩, .finishRotation ⟨0, 1, 2, 6⟩,
    .beginReclaim, .finishReclaim ⟨0, 1, 4096, 2⟩]

/-- The sample's manager after the first Region has been filled. -/
def sampleFilled : RegionManager := (runEffects sampleFill sampleManager).2

/-- What the sample's run has done until then. -/
def sampleFilledHistory : List ManagerEvent :=
  [.activated 1] ++ (runEffects sampleFill sampleManager).1

/-- The sample's manager after the first Region has been reclaimed. -/
def sampleTurned : RegionManager := (runEffects sampleTurn sampleFilled).2

/-- What the sample's run has done until then. -/
def sampleTurnedHistory : List ManagerEvent :=
  sampleFilledHistory ++ (runEffects sampleTurn sampleFilled).1

/-- The sample goes on. -/
lemma sampleFilled_reachable : ManagerReachable sampleFilled sampleFilledHistory :=
  sampleManager_reachable.effects sampleFill

/-- The sample goes on. -/
lemma sampleTurned_reachable : ManagerReachable sampleTurned sampleTurnedHistory :=
  sampleFilled_reachable.effects sampleTurn

/-- The sample restarts with a second shard, which takes the Region that has been reclaimed. -/
def sampleRestarted : RegionManager :=
  { sampleManager with
    binding.imageGeneration := 2
    nextSeqno := 8
    regions := [.empty .active 7, ⟨.sealed, 4, 4096, 4096, 1⟩, .empty .active 6]
    activeRegions := [2, 0]
    appendStates := [{}, {}]
    freeRegions := []
    sealedRegions := [1]
    queueCapacity := 1
    sealedCapacity := 1 }

/-- The sample restarts. -/
lemma sampleRestarted_reachable :
    ManagerReachable sampleRestarted (sampleTurnedHistory ++ [.activated 7]) := by
  have hrestart : sampleTurned.restart sampleTable.partitions PersistentId.sample 2 2 =
      .ok sampleRestarted := by decide +kernel
  have hseqnos : (sampleRestarted.createdSeqnos sampleTurned.activeRegions.length).map
      ManagerEvent.activated = [.activated 7] := by decide +kernel
  exact hseqnos ▸ sampleTurned_reachable.restarted hrestart

/-- After a restart, the sample's three Regions stand in three places. -/
theorem regionManager_conservation_sample :
    ManagerReachable sampleRestarted (sampleTurnedHistory ++ [.activated 7]) ∧
      Conservation sampleRestarted (sampleTurnedHistory ++ [.activated 7]) :=
  ⟨sampleRestarted_reachable, regionManager_conservation sampleRestarted_reachable⟩

end Cache2

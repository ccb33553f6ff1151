import Cache2.Region.ManagerInvariant

set_option relaxedAutoImplicit false
set_option autoImplicit false

/-!
# Freshness of sequence numbers and generations

Records, deletes and activated Regions draw their numbers from one counter, which restarts continue
through the persisted table. The numbers of a run, from the empty data file on, are therefore
1, 2, 3 and so on without a gap, and the counter stops before it can wrap around.

## Main definitions

* `Cache2.issuedSeqnos` — the numbers that a history has issued; `Cache2.activationSeqnos` — those
  of them that went to activated Regions.

## Main results

* `Cache2.ManagerReachable.issuedSeqnos_eq` — which numbers a run has issued.
* `Cache2.regionManager_freshness` — numbers increase, generations do not repeat, and exhaustion is
  an error without an effect.
-/

namespace Cache2

open Loop

/-! ## Issued numbers -/

/-- The number that an event issues. -/
def ManagerEvent.issued : ManagerEvent → Option ℕ
  | .activated createdSeqno => some createdSeqno
  | .sequenced seqno => some seqno
  | .reserved receipt => some receipt.seqno
  | .rotating receipt => some receipt.activatedCreatedSeqno
  | _ => none

/-- The number that an event creates a Region with. -/
def ManagerEvent.activation : ManagerEvent → Option ℕ
  | .activated createdSeqno => some createdSeqno
  | .rotating receipt => some receipt.activatedCreatedSeqno
  | _ => none

/-- The numbers that a history has issued, in order. -/
def issuedSeqnos (history : List ManagerEvent) : List ℕ := history.filterMap ManagerEvent.issued

/-- The numbers that a history has created Regions with, in order. -/
def activationSeqnos (history : List ManagerEvent) : List ℕ :=
  history.filterMap ManagerEvent.activation

/-- Issued numbers of a longer history. -/
lemma issuedSeqnos_append (history events : List ManagerEvent) :
    issuedSeqnos (history ++ events) = issuedSeqnos history ++ issuedSeqnos events :=
  List.filterMap_append

/-- Activations issue their numbers. -/
lemma issuedSeqnos_activated (numbers : List ℕ) :
    issuedSeqnos (numbers.map .activated) = numbers := by
  unfold issuedSeqnos
  rw [List.filterMap_map]
  exact List.filterMap_some

/-- Activations create Regions with their numbers. -/
lemma activationSeqnos_activated (numbers : List ℕ) :
    activationSeqnos (numbers.map .activated) = numbers := by
  unfold activationSeqnos
  rw [List.filterMap_map]
  exact List.filterMap_some

/-- A Region is created with an issued number. -/
lemma activationSeqnos_sublist (history : List ManagerEvent) :
    (activationSeqnos history).Sublist (issuedSeqnos history) := by
  induction history with
  | nil => exact .slnil
  | cons event history ih =>
    cases event with
    | activated n => exact ih.cons_cons n
    | rotating r => exact ih.cons_cons r.activatedCreatedSeqno
    | sequenced n => exact ih.cons n
    | reserved r => exact ih.cons r.seqno
    | _ => exact ih

section Steps

variable {m m' : RegionManager} {history events : List ManagerEvent}

/-- A step issues the numbers that the counter passes. -/
lemma ManagerStep.issuedSeqnos_eq (hstep : ManagerStep m events m') :
    m.nextSeqno ≤ m'.nextSeqno ∧
      issuedSeqnos events = List.range' m.nextSeqno (m'.nextSeqno - m.nextSeqno) := by
  have hnone : ∀ n : ℕ, List.range' n (n - n) = [] := fun n => by rw [Nat.sub_self]; rfl
  have hone : ∀ n : ℕ, List.range' n (n + 1 - n) = [n] := fun n => by
    rw [Nat.add_sub_cancel_left]
    rfl
  cases hstep with
  | unchanged => exact ⟨le_rfl, (hnone _).symm⟩
  | sequenced hnext => exact ⟨Nat.le_succ _, (hone _).symm⟩
  | shard hat hstep =>
    cases hstep with
    | reserved hn hidle hfit hnext => exact ⟨Nat.le_succ _, (hone _).symm⟩
    | _ => exact ⟨le_rfl, (hnone _).symm⟩
  | rotating hat hidle hold hfree hvictim hnext hcreated =>
    refine ⟨Nat.le_succ _, ?_⟩
    show [_] = List.range' m.nextSeqno (m.nextSeqno + 1 - m.nextSeqno)
    rw [hone, hcreated]
  | rotated hshard hr => exact ⟨le_rfl, (hnone _).symm⟩
  | reclaiming hneeded hsealed hregion => exact ⟨le_rfl, (hnone _).symm⟩
  | reclaimed hposition hregion => exact ⟨le_rfl, (hnone _).symm⟩

/-- Numbers issued one after the other, by two parts of a run. -/
lemma range'_append_of_le {a b c : ℕ} (hab : a ≤ b) (hbc : b ≤ c) :
    List.range' a (b - a) ++ List.range' b (c - b) = List.range' a (c - a) := by
  have hc : c - a = b - a + (c - b) := by omega
  have hb : a + 1 * (b - a) = b := by omega
  rw [hc, ← List.range'_append, hb]

/-- The shards of an empty data file write to the first Regions, which were created first. -/
lemma EmptyTable.createdSeqnos_eq {metadata : RegionMetadata} (hempty : EmptyTable metadata)
    (hm : RegionManager.fromMetadata metadata = .ok m) :
    m.createdSeqnos 0 = List.range' 1 (m.nextSeqno - 1) := by
  obtain ⟨hv, hr⟩ := RegionManager.fromMetadata_eq_ok hm
  have hshards : metadata.root.shardCount.toNat < 2 ^ 32 := metadata.root.shardCount.isLt
  have hlt := hv.shardCount_lt
  rw [hr.nextSeqno, hempty.maxSeqno, Nat.add_sub_cancel]
  refine List.ext_getElem? fun k => ?_
  rw [RegionManager.createdSeqnos, List.drop_zero, List.getElem?_map]
  by_cases hk : k < metadata.root.shardCount.toNat
  · have hregion : metadata.regions[k]? =
        some ⟨.active, BitVec.ofNat 32 k, BitVec.ofNat 64 (k + 1), 0, 0⟩ := by
      rw [hempty.regions, List.getElem?_map, List.getElem?_range (by omega), Option.map_some,
        emptyRegion, if_pos hk]
    have hactive : m.activeRegions[k]? = some k := by
      refine (hr.active k k).2 ⟨_, hregion, rfl, ?_⟩
      exact Nat.mod_eq_of_lt (by omega)
    have hgeneration : m.generation k = k + 1 := by
      rw [RegionManager.generation, hr.regions, List.getElem?_map, hregion]
      exact Nat.mod_eq_of_lt (by omega)
    rw [hactive, List.getElem?_range' hk, Option.map_some, hgeneration]
    congr 1
    omega
  · rw [List.getElem?_eq_none (by rw [hr.length_active]; omega),
      List.getElem?_eq_none (by rw [List.length_range']; omega)]
    rfl

/-- **Issued numbers.** A run has issued every number below its counter, in order, from 1 on. -/
theorem ManagerReachable.issuedSeqnos_eq (h : ManagerReachable m history) :
    1 ≤ m.nextSeqno ∧ issuedSeqnos history = List.range' 1 (m.nextSeqno - 1) := by
  induction h with
  | cold hempty hm =>
    rw [issuedSeqnos_activated]
    refine ⟨?_, (emptyRegionMetadata_eq_ok hempty).createdSeqnos_eq hm⟩
    rw [(RegionManager.fromMetadata_eq_ok hm).2.nextSeqno]
    exact Nat.le_add_left 1 _
  | ok h hop ih =>
    obtain ⟨hle, hevents⟩ := (ManagerOp.run_ok h.inv hop).issuedSeqnos_eq
    refine ⟨ih.1.trans hle, ?_⟩
    rw [issuedSeqnos_append, ih.2, hevents, range'_append_of_le ih.1 hle]
  | error h hop ih =>
    -- a failed step issues nothing, so the counter has not moved
    obtain ⟨hle, hevents⟩ := (ManagerOp.step_of_error h.inv hop).issuedSeqnos_eq
    refine ⟨ih.1.trans hle, ?_⟩
    rw [ih.2, ← range'_append_of_le ih.1 hle, ← hevents]
    exact (List.append_nil _).symm
  | configured _ hop ih =>
    obtain ⟨-, -, rfl⟩ := RegionManager.configureReclaimWorkers_eq_ok hop
    exact ih
  | restarted h hop ih =>
    have hre := (RegionManager.restart_eq_ok h.inv.bounded hop).2
    refine ⟨ih.1.trans hre.nextSeqno_le, ?_⟩
    rw [issuedSeqnos_append, issuedSeqnos_activated, ih.2, hre.issued,
      range'_append_of_le ih.1 hre.nextSeqno_le]

/-! ## Generations -/

/-- What a step or a restart does to the generation of a Region: it keeps it, activates the Region
with a number that the counter passes, or frees the Region. -/
inductive GenerationStep (m m' : RegionManager) (events : List ManagerEvent) (id : ℕ)
    (region' : RegionDesc) : Prop
  | kept {region : RegionDesc} (hregion : m.regions[id]? = some region)
      (hcreated : region'.createdSeqno = region.createdSeqno)
      (hstate : region.state = .free → region'.state = .free)
  | activated (hlow : m.nextSeqno ≤ region'.createdSeqno)
      (hhigh : region'.createdSeqno < m'.nextSeqno)
      (hnew : region'.createdSeqno ∈ activationSeqnos events)
  | freed (hfree : region' = .empty .free 0)

/-- Steps and generations. -/
lemma ManagerStep.generation (hstep : ManagerStep m events m') (hinv : ManagerInv m) {id : ℕ}
    {region' : RegionDesc} (hregion' : m'.regions[id]? = some region') :
    GenerationStep m m' events id region' := by
  cases hstep with
  | unchanged => exact .kept hregion' rfl (fun h => h)
  | sequenced hnext => exact .kept hregion' rfl (fun h => h)
  | @shard shardId regionId shard shard' region desc next _ hat hstep =>
    rcases eq_or_ne id regionId with rfl | hne
    · obtain rfl : desc = region' := by
        have hself := List.getElem?_set_self (a := desc)
          (List.getElem?_eq_some_iff.1 hat.region_eq).1
        exact Option.some.inj (hself.symm.trans hregion')
      refine .kept hat.region_eq hstep.frame.1 fun hfree => ?_
      exact absurd (hfree.symm.trans (hinv.shards hat).active) (by simp)
    · exact .kept ((List.getElem?_set_ne (Ne.symm hne)).symm.trans hregion') rfl (fun h => h)
  | @rotating shard old victim free r hat hidle hold hfree hvictim hnext hcreated =>
    rcases eq_or_ne id r.activatedRegionId with rfl | hact
    · obtain rfl : region' = .empty .active r.activatedCreatedSeqno := by
        refine Option.some.inj (hregion'.symm.trans (List.getElem?_set_self ?_))
        rw [List.length_set]
        exact (List.getElem?_eq_some_iff.1 hvictim.1).1
      exact .activated hcreated.ge (hcreated.trans_lt (Nat.lt_succ_self _)) (.head _)
    · have hset := (List.getElem?_set_ne (Ne.symm hact)).symm.trans hregion'
      rcases eq_or_ne id r.sealedRegionId with rfl | hsealed
      · obtain rfl := Option.some.inj ((List.getElem?_set_self
          (List.getElem?_eq_some_iff.1 hat.region_eq).1).symm.trans hset)
        refine .kept hat.region_eq rfl fun hfree => ?_
        exact absurd (hfree.symm.trans (hinv.shards hat).active) (by simp)
      · exact .kept ((regions_rotating hsealed hact).symm.trans hregion') rfl (fun h => h)
  | rotated hshard hr => exact .kept hregion' rfl (fun h => h)
  | reclaiming hneeded hsealed hregion => exact .kept hregion' rfl (fun h => h)
  | @reclaimed position r region hposition hregion =>
    rcases eq_or_ne id r.regionId with rfl | hne
    · have hself := List.getElem?_set_self (a := RegionDesc.empty .free 0)
        (List.getElem?_eq_some_iff.1 hregion).1
      exact .freed (Option.some.inj (hregion'.symm.trans hself))
    · exact .kept ((List.getElem?_set_ne (Ne.symm hne)).symm.trans hregion') rfl (fun h => h)

/-- Restarts and generations. -/
lemma Restarted.generation (hre : Restarted m m') {id : ℕ} {region' : RegionDesc}
    (hregion' : m'.regions[id]? = some region') :
    GenerationStep m m' ((m'.createdSeqnos m.activeRegions.length).map .activated) id region' := by
  have hlt : id < m.regions.length := by
    rw [← hre.length_regions]
    exact (List.getElem?_eq_some_iff.1 hregion').1
  obtain ⟨r, hr, hrel⟩ := hre.regions id _ (List.getElem?_eq_getElem hlt)
  obtain rfl := Option.some.inj (hregion'.symm.trans hr)
  cases hrel with
  | kept hstate hcreated _ _ _ =>
    refine .kept (List.getElem?_eq_getElem hlt) hcreated fun hfree => ?_
    rcases hstate with hstate | ⟨hactive, -⟩
    · exact hstate.trans hfree
    · exact absurd (hactive.symm.trans hfree) (by simp)
  | activated _ _ hlow hhigh _ _ _ =>
    refine .activated hlow hhigh ?_
    rw [activationSeqnos_activated, hre.issued, List.mem_range'_1]
    omega

/-- A Region in use was created with a number that the history has given to an activation. -/
def GenerationInv (m : RegionManager) (history : List ManagerEvent) : Prop :=
  ∀ (id : ℕ) (region : RegionDesc), m.regions[id]? = some region → region.state ≠ .free →
    region.createdSeqno ∈ activationSeqnos history

/-- Steps and restarts keep the generations known to the history. -/
lemma GenerationInv.step (h : GenerationInv m history)
    (hstep : ∀ {id : ℕ} {region' : RegionDesc}, m'.regions[id]? = some region' →
      GenerationStep m m' events id region') : GenerationInv m' (history ++ events) := by
  intro id region' hregion' hne
  have happend : activationSeqnos (history ++ events) =
    activationSeqnos history ++ activationSeqnos events := List.filterMap_append
  rw [happend, List.mem_append]
  cases hstep hregion' with
  | kept hregion hcreated hstate =>
    rw [hcreated]
    exact .inl (h id _ hregion fun hfree => hne (hstate hfree))
  | activated _ _ hnew => exact .inr hnew
  | freed hfree => exact absurd (congrArg RegionDesc.state hfree) hne

/-- The generations of a reachable manager are known to its history. -/
lemma ManagerReachable.generation (h : ManagerReachable m history) : GenerationInv m history := by
  induction h with
  | @cold _ _ _ metadata m hempty hm =>
    intro id region hregion hne
    have hempty := emptyRegionMetadata_eq_ok hempty
    obtain ⟨hv, hr⟩ := RegionManager.fromMetadata_eq_ok hm
    rw [activationSeqnos_activated, hempty.createdSeqnos_eq hm, hr.nextSeqno, hempty.maxSeqno,
      List.mem_range'_1]
    rw [hr.regions, hempty.regions, List.map_map, List.getElem?_map] at hregion
    obtain ⟨i, hi, rfl⟩ := Option.map_eq_some_iff.1 hregion
    by_cases hlt : i < metadata.root.shardCount.toNat
    · have := metadata.root.shardCount.isLt
      have hcreated : (RegionMetadataRecord.desc (emptyRegion metadata.root.shardCount.toNat
          i)).createdSeqno = i + 1 := by
        rw [emptyRegion, if_pos hlt]
        exact Nat.mod_eq_of_lt (by omega)
      rw [Function.comp_apply, hcreated]
      omega
    · refine absurd ?_ hne
      rw [Function.comp_apply, emptyRegion, if_neg hlt]
      rfl
  | ok h hop ih =>
    have hstep := ManagerOp.run_ok h.inv hop
    exact ih.step (hstep.generation h.inv)
  | error h hop ih =>
    have hstep := ManagerOp.step_of_error h.inv hop
    have := ih.step (hstep.generation h.inv)
    rwa [List.append_nil] at this
  | configured _ hop ih =>
    obtain ⟨-, -, rfl⟩ := RegionManager.configureReclaimWorkers_eq_ok hop
    exact ih
  | restarted h hop ih =>
    exact ih.step (RegionManager.restart_eq_ok h.inv.bounded hop).2.generation

end Steps

/-! ## Exhaustion -/

section Exhaustion

variable {m m' : RegionManager} {n : ℕ}

/-- A reservation that would succeed with numbers left is refused when none is. -/
lemma reserveAppend_exhausted (hmax : m.nextSeqno = u64Max) {shardId recordBytes : ℕ}
    {r : RegionAppendReservation}
    (h : RegionManager.reserveAppend shardId recordBytes { m with nextSeqno := n } = .ok r m') :
    RegionManager.reserveAppend shardId recordBytes m = .error .sequenceExhausted m := by
  obtain ⟨shard, regionId, region, ⟨hs, ha, hr⟩, ⟨hpos, hal⟩, ⟨ht, hp, hrot⟩,
    ⟨hstate, hlt, hfit, hoff⟩, -, -, -⟩ := RegionManager.reserveAppend_eq_ok.1 h
  dsimp only at hs ha hr hfit
  have hbind : ∀ {α : Type} (g : ℕ → ManagerM α),
      (RegionManager.allocateSeqno >>= g) m = .error .sequenceExhausted m := by
    intro α g
    rw [bind_apply, RegionManager.allocateSeqno_eq, if_pos hmax]
  have hadd : Word.checkedAdd 64 region.reservedUsed recordBytes =
    some (region.reservedUsed + recordBytes) := Word.checkedAdd_eq_some.2 ⟨hlt, rfl⟩
  have hoffset : tryU32 region.reservedUsed = some region.reservedUsed :=
    RegionManager.tryU32_eq_some.2 ⟨hoff, rfl⟩
  rw [RegionManager.reserveAppend]
  simp only [rejectIf, okOr, get_bind, hpos, hal, hs, ha, hr, ht, hp, hrot, hstate, hadd, hoffset,
    hbind, not_lt.2 hfit, ne_eq, not_true_eq_false, or_self, if_false, pure_bind,
    Option.isSome_none, Bool.false_eq_true]

/-- A rotation that would begin with numbers left is refused when none is. -/
lemma beginRotation_exhausted (hmax : m.nextSeqno = u64Max) {candidate : RegionRotationCandidate}
    {r : RegionRotationReceipt}
    (h : RegionManager.beginRotation candidate { m with nextSeqno := n } = .ok r m') :
    RegionManager.beginRotation candidate m = .error .sequenceExhausted m := by
  obtain ⟨shard, oldId, old, victimId, victim, free, ⟨hs, ha, hr⟩, ⟨hq, ht, ho, hp, hsub, hrot⟩,
    ⟨hstate, hold⟩, ⟨hfree, hvr, hvs, hne⟩, hc, -, -, -⟩ := RegionManager.beginRotation_eq_ok h
  dsimp only at hs ha hr hfree hvr
  have hbind : ∀ {α : Type} (g : ℕ → ManagerM α),
      (RegionManager.allocateSeqno >>= g) m = .error .sequenceExhausted m := by
    intro α g
    rw [bind_apply, RegionManager.allocateSeqno_eq, if_pos hmax]
  have hhead : m.freeRegions.head? = some victimId := by rw [hfree]; rfl
  rw [RegionManager.beginRotation, RegionManager.selectRotation]
  simp only [bind_assoc, rejectIf, okOr, get_bind, hs, ha, hr, hq, ht, ho, hp, hsub, hrot, hstate,
    hold, hhead, hvr, hvs, hne, ← hc, hbind, ne_eq, not_true_eq_false, or_self, if_false, pure_bind,
    Option.isSome_none, Bool.false_eq_true, Bool.true_eq_false]

/-- An operation that would issue a number with numbers left is refused without an effect when none
is. -/
lemma ManagerOp.run_exhausted (hmax : m.nextSeqno = u64Max) {op : ManagerOp}
    {events : List ManagerEvent} (hop : op.run { m with nextSeqno := n } = .ok events m')
    (hissued : issuedSeqnos events ≠ []) : op.run m = .error .sequenceExhausted m := by
  cases op with
  | allocateSeqno =>
    rw [ManagerOp.run, bind_apply, RegionManager.allocateSeqno_eq, if_pos hmax]
  | reserveAppend shardId recordBytes =>
    obtain ⟨r, m₁, h₁, -⟩ := bind_eq_ok.1 hop
    rw [ManagerOp.run, bind_apply, reserveAppend_exhausted hmax h₁]
  | beginRotation candidate =>
    obtain ⟨r, m₁, h₁, -⟩ := bind_eq_ok.1 hop
    rw [ManagerOp.run, bind_apply, beginRotation_exhausted hmax h₁]
  | reserveWritePadding shardId =>
    obtain ⟨p, m₁, -, h₂⟩ := bind_eq_ok.1 hop
    cases p with
    | none => cases h₂; exact absurd rfl hissued
    | some p => cases h₂; exact absurd rfl hissued
  | beginReclaim =>
    obtain ⟨r, m₁, -, h₂⟩ := bind_eq_ok.1 hop
    cases r with
    | none => cases h₂; exact absurd rfl hissued
    | some r => cases h₂; exact absurd rfl hissued
  | _ =>
    obtain ⟨_, m₁, -, h₂⟩ := bind_eq_ok.1 hop
    cases h₂
    exact absurd rfl hissued

/-- Growing a table to more shards than there are numbers left for is refused without an effect. -/
lemma rebindAppendShards_exhausted {metadata : RegionMetadata} {shardCount : BitVec 32}
    (hgrow : metadata.root.shardCount < shardCount)
    (hmax : u64Max ≤ metadata.root.maxSeqno.toNat +
      (shardCount.toNat - metadata.root.shardCount.toNat)) :
    ∃ e, RegionMetadata.rebindAppendShards shardCount metadata = .error e metadata := by
  rw [BitVec.lt_def] at hgrow
  have hmax64 : u64Max = 2 ^ 64 - 1 := rfl
  have hne : shardCount ≠ metadata.root.shardCount := by
    intro heq
    rw [heq] at hgrow
    omega
  have hnlt : ¬ shardCount < metadata.root.shardCount := by
    rw [BitVec.lt_def]
    omega
  have hfilter : (Word.checkedAdd 64 metadata.root.maxSeqno.toNat
      (shardCount.toNat - metadata.root.shardCount.toNat)).filter (· ≠ 2 ^ 64 - 1) = none := by
    rw [Option.filter_eq_none_iff]
    intro a ha
    obtain ⟨hlt, rfl⟩ := Word.checkedAdd_eq_some.1 ha
    simp only [decide_eq_true_eq, ne_eq, not_not]
    omega
  rw [RegionMetadata.rebindAppendShards, get_bind, if_neg hne]
  split_ifs with hbad
  · exact ⟨_, rfl⟩
  · cases hsub : Word.checkedSub metadata.root.freeRegionCount.toNat
        (shardCount.toNat - metadata.root.shardCount.toNat) with
    | none =>
      refine ⟨.invalidField "append_shards_free_capacity", ?_⟩
      simp only [okOr, hsub]
      rfl
    | some free =>
      refine ⟨.arithmeticOverflow, ?_⟩
      simp only [okOr, hsub, hfilter, pure_bind]
      rfl

end Exhaustion

/-! ## Freshness -/

/-- Numbers and generations are fresh, and running out of numbers is an error without an effect. -/
structure SeqnoFreshness (m : RegionManager) (history : List ManagerEvent) : Prop where
  increasing : (issuedSeqnos history).Pairwise (· < ·)
  below_next : ∀ seqno ∈ issuedSeqnos history, seqno < m.nextSeqno
  next_le : m.nextSeqno ≤ u64Max
  activations : (activationSeqnos history).Nodup
  created : ∀ (id : ℕ) (region : RegionDesc), m.regions[id]? = some region →
    region.state ≠ .free → region.createdSeqno ∈ activationSeqnos history
  exhausted : m.nextSeqno = u64Max → ∀ (op : ManagerOp) (next : ℕ) (events : List ManagerEvent)
    (m' : RegionManager), op.run { m with nextSeqno := next } = .ok events m' →
    issuedSeqnos events ≠ [] → op.run m = .error .sequenceExhausted m
  unchanged : ∀ (op : ManagerOp) (m' : RegionManager),
    op.run m = .error .sequenceExhausted m' → m' = m
  rebind : ∀ (metadata : RegionMetadata) (shardCount : BitVec 32),
    metadata.root.shardCount < shardCount →
    u64Max ≤ metadata.root.maxSeqno.toNat +
      (shardCount.toNat - metadata.root.shardCount.toNat) →
    ∃ e, RegionMetadata.rebindAppendShards shardCount metadata = .error e metadata

/-- **Freshness.** In every run, from an empty data file through any operations and restarts, each
number handed out is greater than all before it, so no two activations share a generation; when the
numbers run out, an operation that needs one fails and leaves everything as it is. -/
theorem regionManager_freshness {m : RegionManager} {history : List ManagerEvent}
    (h : ManagerReachable m history) : SeqnoFreshness m history := by
  obtain ⟨hpos, hissued⟩ := h.issuedSeqnos_eq
  have hincreasing : (issuedSeqnos history).Pairwise (· < ·) := by
    rw [hissued]
    exact List.pairwise_lt_range'
  refine ⟨hincreasing, fun seqno hmem => ?_, h.inv.next_le, ?_, h.generation,
    fun hmax op next events m' hop hne => ManagerOp.run_exhausted hmax hop hne,
    fun op m' hop => ?_, fun metadata shardCount => rebindAppendShards_exhausted⟩
  · rw [hissued, List.mem_range'_1] at hmem
    omega
  · exact (hincreasing.sublist (activationSeqnos_sublist history)).imp Nat.ne_of_lt
  · rcases (ManagerOp.run_error h.inv hop).1 with rfl | ⟨he | he, -⟩
    · rfl
    · cases he
    · cases he

/-- Over two rotations and a restart, the sample has activated its Regions four times. -/
theorem regionManager_freshness_sample :
    activationSeqnos (sampleTurnedHistory ++ [.activated 7]) = [1, 4, 6, 7] ∧
      SeqnoFreshness sampleRestarted (sampleTurnedHistory ++ [.activated 7]) :=
  ⟨by decide +kernel, regionManager_freshness sampleRestarted_reachable⟩

end Cache2

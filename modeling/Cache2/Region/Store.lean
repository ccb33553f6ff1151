import Cache2.Index.Occupancy
import Cache2.Region.ManagerRun
import Cache2.Region.RecoveryImage

set_option relaxedAutoImplicit false
set_option autoImplicit false

/-!
# The Region store

A store is an index with a manager (`region/mod.rs`). It is built from a table and an index that
belong together, operations change the index and the manager, and at the end it is frozen for an
image. What an operation may do here is more than what the store's own operations do, which run
these one after another under their locks.

## Main definitions

* `Cache2.RegionStore` — the store.
* `Cache2.RegionStore.fromRecovery`, `Cache2.RegionStore.freeze` — its beginning and its end.
* `Cache2.RegionStore.Step` — what may happen to it in between.

## Main results

* `Cache2.ManagerOp.run_keeps`, `Cache2.IndexOp.run_keeps` — operations do not change the layout.
* `Cache2.RegionStore.sameLayout_of_run` — neither does any run of a store.
* `Cache2.RegionStore.Intact.of_run` — an index that represents a table does so after any run.
* `Cache2.RegionStore.freeze_eq_ok` — the table of a frozen store has the store's layout.
-/

namespace Cache2

open Loop

/-! ## Definitions -/

/-- `AppendShardGate`: whether a thread panicked while it held the gate. -/
structure AppendShardGate where
  poisoned : Bool
  deriving DecidableEq, Repr

/-- `RegionStore`, with the health latch and the poison flags of its locks. -/
structure RegionStore where
  index : RegionIndex
  manager : RegionManager
  managerPoisoned : Bool
  appendGates : List AppendShardGate
  rotationPoisoned : Bool
  healthy : Bool
  deriving DecidableEq, Repr

/-- Computations on a store. -/
abbrev StoreM := EStateM IoError RegionStore

namespace RegionStore

/-- `require_healthy`. -/
def requireHealthy : StoreM Unit := do
  rejectIf ((← get).healthy = false)
    (ioError .invalidData "Region store is miss-only and cannot publish CLEAN")

/-- `enter_miss_only`. -/
def enterMissOnly : StoreM Unit := modify fun s => { s with healthy := false }

/-- `guarded_index_result`: an error of the index ends the health. -/
def guardedIndexResult {α : Type} : Except IndexStorageError α → StoreM α
  | .ok a => pure a
  | .error error => do
    enterMissOnly
    throw (indexStorageIoError error)

/-- `lock` of the manager. -/
def lock : StoreM RegionManager := do
  requireHealthy
  let s ← get
  if s.managerPoisoned then do
    enterMissOnly
    throw (ioError .invalidData "Region manager is poisoned")
  else pure s.manager

/-- `from_recovery`. -/
def fromRecovery (index : PartitionedIndexStorage) (metadata : RegionMetadata) :
    Except IoError RegionStore :=
  if 2 ^ 64 ≤ index.slotCount then .error (ioError .invalidData "index capacity is too large")
  else if metadata.root.indexSlots.toNat ≠ index.slotCount ∨
      metadata.root.partitionCount.toNat ≠ index.ranges.length ∨
      metadataPartitionStatsMatch metadata index.stats = false then
    .error (ioError .invalidData "index and Region metadata do not describe one authority")
  else do
    let manager ← (RegionManager.fromMetadata metadata).mapError regionMetadataIoError
    .ok
      { index := .fromStorage index
        manager
        managerPoisoned := false
        appendGates := manager.activeRegions.map fun _ => ⟨false⟩
        rotationPoisoned := false
        healthy := true }

/-- `freeze`: the table of the frozen store. -/
def freeze : StoreM RegionMetadata := do
  requireHealthy
  let s ← get
  if s.appendGates.any (·.poisoned) ∨ s.rotationPoisoned then do
    enterMissOnly
    throw (ioError .invalidData "append shard gate is poisoned")
  else do
    let storage := s.index.storage
    let m ← lock
    let frozen ← orThrow (freezeStore m storage.slotCount storage.ranges storage.stats)
    requireHealthy
    pure frozen.metadata

/-- `shard_count`. -/
def shardCount (s : RegionStore) : ℕ := s.appendGates.length

/-- `index_slot_count`. -/
def indexSlotCount (s : RegionStore) : ℕ := s.index.storage.slotCount

/-- `region_count`. -/
def regionCount : StoreM ℕ := do
  pure (← lock).regions.length

/-- `configure_reclaim_workers`. -/
def configureReclaimWorkers (workers : ℕ) : StoreM Unit := do
  let m ← lock
  match RegionManager.configureReclaimWorkers workers m with
  | .ok _ m => modify fun s => { s with manager := m }
  | .error error _ => throw (regionMetadataIoError error)

/-- `set_index_activity_counters_enabled`. -/
def setIndexActivityCountersEnabled (enabled : Bool) : StoreM Unit :=
  modify fun s => { s with index.activityCountersEnabled := enabled }

/-- What may happen to a store: an operation of the manager or of the index, whether it succeeds
or fails, a thread that panics with a lock, and the loss of health. -/
inductive Step (crc : List UInt8 → BitVec 32) (s : RegionStore) : RegionStore → Prop
  | manager {op : ManagerOp} {events : List ManagerEvent} {m : RegionManager}
      (h : op.run s.manager = .ok events m) : Step crc s { s with manager := m }
  | managerError {op : ManagerOp} {e : RegionMutationError} {m : RegionManager}
      (h : op.run s.manager = .error e m) : Step crc s { s with manager := m }
  | configured {workers : ℕ} {m : RegionManager}
      (h : RegionManager.configureReclaimWorkers workers s.manager = .ok () m) :
      Step crc s { s with manager := m }
  | index {op : IndexOp} {idx : RegionIndex} (h : op.run crc s.index = .ok () idx) :
      Step crc s { s with index := idx }
  | indexError {op : IndexOp} {e : IndexStorageError} {idx : RegionIndex}
      (h : op.run crc s.index = .error e idx) : Step crc s { s with index := idx }
  | missOnly : Step crc s { s with healthy := false }
  | managerPoisoned : Step crc s { s with managerPoisoned := true }
  | gatePoisoned (shardId : ℕ) :
      Step crc s { s with appendGates := s.appendGates.set shardId ⟨true⟩ }
  | rotationPoisoned : Step crc s { s with rotationPoisoned := true }

end RegionStore

/-! ## Operations of the manager -/

namespace RegionManager

/-- No run of the computation changes the number of Regions. -/
abbrev KeepsCount {ε α : Type} (f : EStateM ε RegionManager α) : Prop :=
  Keeps (fun m => m.regions.length) f

/-- Requests for rotation. -/
lemma requestRotationForAppend_keeps (shardId recordBytes : ℕ) :
    KeepsCount (requestRotationForAppend shardId recordBytes) := fun m => by
  simp [requestRotationForAppend, setShard, -bind_pure_comp]

/-- Drawing a sequence number. -/
lemma allocateSeqno_keeps : KeepsCount allocateSeqno := fun m => by
  simp [allocateSeqno, -bind_pure_comp]

/-- Reservations. -/
lemma reserveAppend_keeps (shardId recordBytes : ℕ) :
    KeepsCount (reserveAppend shardId recordBytes) := fun m => by
  simp [reserveAppend, allocateSeqno, setShard, setRegion, -bind_pure_comp]

/-- Staging. -/
lemma stageReservation_keeps (receipt : RegionAppendReservation) :
    KeepsCount (stageReservation receipt) := fun m => by
  simp [stageReservation, setShard]

/-- Padding. -/
lemma reserveWritePadding_keeps (shardId : ℕ) : KeepsCount (reserveWritePadding shardId) :=
  fun m => by simp [reserveWritePadding, setShard, setRegion, -bind_pure_comp]

/-- Submission of an open span. -/
lemma submitOpenSpan_keeps (shardId endOffset : ℕ) :
    KeepsCount (submitOpenSpan shardId endOffset) := fun m => by
  simp [submitOpenSpan, setShard, -bind_pure_comp]

/-- Submission without padding. -/
lemma sealWriteSpan_keeps (shardId : ℕ) : KeepsCount (sealWriteSpan shardId) := fun m => by
  have hsubmit := fun endOffset => submitOpenSpan_keeps shardId endOffset m
  simp [sealWriteSpan, hsubmit]

/-- Submission with padding. -/
lemma sealWriteSpanWithPadding_keeps (padding : RegionPaddingReceipt) :
    KeepsCount (sealWriteSpanWithPadding padding) := fun m => by
  have hsubmit := submitOpenSpan_keeps padding.shardId padding.paddedEndOffset m
  simp [sealWriteSpanWithPadding, hsubmit]

/-- Completion. -/
lemma completeWriteSpan_keeps (span : RegionWriteSpan) : KeepsCount (completeWriteSpan span) :=
  fun m => by simp [completeWriteSpan, setShard, setRegion]

/-- The choice of a Region for a rotation. -/
lemma selectRotation_keeps (shardId : ℕ) : KeepsCount (selectRotation shardId) := fun m => by
  simp [selectRotation, -bind_pure_comp]

/-- The beginning of a rotation. -/
lemma beginRotation_keeps (candidate : RegionRotationCandidate) :
    KeepsCount (beginRotation candidate) := by
  refine (selectRotation_keeps _).bind fun selection m => ?_
  simp [allocateSeqno, -bind_pure_comp]

/-- The end of a rotation. -/
lemma finishRotation_keeps (receipt : RegionRotationReceipt) :
    KeepsCount (finishRotation receipt) := fun m => by
  simp [finishRotation, setShard]

/-- The beginning of a reclaim. -/
lemma beginReclaim_keeps : KeepsCount beginReclaim := fun m => by
  simp [beginReclaim, -bind_pure_comp]

/-- The end of a reclaim. -/
lemma finishReclaim_keeps (receipt : RegionReclaimReceipt) : KeepsCount (finishReclaim receipt) :=
  fun m => by simp [finishReclaim, setRegion]

end RegionManager

/-- **Operations of the manager.** None of them changes the number of Regions, whether it succeeds
or fails. -/
theorem ManagerOp.run_keeps (op : ManagerOp) : RegionManager.KeepsCount op.run := by
  cases op with
  | requestRotationForAppend shardId recordBytes =>
    exact (RegionManager.requestRotationForAppend_keeps shardId recordBytes).bind fun _ => .pure _
  | allocateSeqno => exact RegionManager.allocateSeqno_keeps.bind fun _ => .pure _
  | reserveAppend shardId recordBytes =>
    exact (RegionManager.reserveAppend_keeps shardId recordBytes).bind fun _ => .pure _
  | stageReservation receipt =>
    exact (RegionManager.stageReservation_keeps receipt).bind fun _ => .pure _
  | reserveWritePadding shardId =>
    refine (RegionManager.reserveWritePadding_keeps shardId).bind fun padding => ?_
    cases padding <;> exact Keeps.get.bind fun m => .pure _
  | sealWriteSpan shardId =>
    exact (RegionManager.sealWriteSpan_keeps shardId).bind fun _ => Keeps.get.bind fun _ => .pure _
  | sealWriteSpanWithPadding padding =>
    exact (RegionManager.sealWriteSpanWithPadding_keeps padding).bind fun _ =>
      Keeps.get.bind fun _ => .pure _
  | completeWriteSpan span =>
    exact (RegionManager.completeWriteSpan_keeps span).bind fun _ => Keeps.get.bind fun _ => .pure _
  | beginRotation candidate =>
    exact (RegionManager.beginRotation_keeps candidate).bind fun _ => .pure _
  | finishRotation receipt =>
    exact (RegionManager.finishRotation_keeps receipt).bind fun _ => .pure _
  | beginReclaim =>
    refine RegionManager.beginReclaim_keeps.bind fun receipt => ?_
    cases receipt <;> exact .pure _
  | finishReclaim receipt =>
    exact (RegionManager.finishReclaim_keeps receipt).bind fun _ => .pure _

/-! ## Operations of the index -/

/-- The number of slots and the partitions of a storage. -/
def PartitionedIndexStorage.layout (storage : PartitionedIndexStorage) :
    ℕ × List IndexPartitionRange :=
  (storage.slotCount, storage.ranges)

/-- What is done to the image leaves the layout as it is. -/
lemma PartitionedIndexStorage.onCore_keeps {α : Type} (f : CoreM α) : Keeps layout (onCore f) := by
  have hunit : Keeps (fun _ => ()) f := fun s => by
    unfold Ends
    cases f s <;> rfl
  exact hunit.zoom fun _ _ _ => rfl

namespace RegionIndex

variable (crc : List UInt8 → BitVec 32) {β : Type}

/-- No run of the computation changes the layout of the index. -/
abbrev KeepsLayout {α : Type} (f : IndexM α) : Prop := Keeps (fun idx => idx.storage.layout) f

/-- What keeps the layout of a storage keeps the one of its index. -/
lemma onStorage_keeps {α : Type} {f : StorageM α}
    (h : Keeps PartitionedIndexStorage.layout f) : KeepsLayout (onStorage f) :=
  h.zoom fun _ _ heq => heq

/-- Finding the partition of a hash. -/
lemma hashPartition_keeps (hash : Hash) : KeepsLayout (hashPartition hash) :=
  Keeps.get.bind fun _ => .pure _

/-- Changing the heat. -/
lemma modifyHeat_keeps (f : SlotHeat → SlotHeat) : KeepsLayout (modifyHeat f) := fun _ => rfl

/-- Counting. -/
lemma recordActivity_keeps {f : RegionIndex → RegionIndex}
    (h : ∀ idx, (f idx).storage = idx.storage) : KeepsLayout (recordActivity f) :=
  Keeps.get.bind fun _ => .ite (.modify fun idx => congrArg _ (h idx)) (.pure _)

/-- Reading a bucket. -/
lemma slotState_keeps (partition : IndexPartitionRange) (slot : ℕ) :
    KeepsLayout (slotState crc partition slot) :=
  onStorage_keeps ((Keeps.orThrow _).bind fun _ => PartitionedIndexStorage.onCore_keeps _)

/-- Replacing a bucket. -/
lemma replaceSlot_keeps (partition : IndexPartitionRange) (slot : ℕ)
    (previous next : IndexSlotState) :
    KeepsLayout (replaceSlot crc partition slot previous next) := by
  refine (Keeps.orThrow _).bind fun _ => Keeps.bind (onStorage_keeps ?_) fun _ => modifyHeat_keeps _
  refine (Keeps.orThrow _).bind fun _ => Keeps.get.bind fun storage => ?_
  dsimp only
  split
  · exact .throw _
  · exact (PartitionedIndexStorage.onCore_keeps _).bind fun _ => .modify fun _ => rfl

/-- A loop over the candidates keeps the layout when what it does at the end does. -/
lemma forCandidates_keeps (hash : Hash) {accepts : IndexSlotState → ℕ → Bool}
    {found : IndexPartitionRange → ℕ → ℕ → IndexSlotState → IndexM β} {missed : IndexM β}
    (hfound : ∀ partition displacement slot state,
      KeepsLayout (found partition displacement slot state)) (hmissed : KeepsLayout missed) :
    KeepsLayout (forCandidates crc hash accepts found missed) := by
  refine (hashPartition_keeps hash).bind fun partition => ?_
  refine Keeps.bind (Keeps.forReturn (fun displacement _ => ?_) _ _) fun flow => ?_
  · refine .ite (.pure _) ((slotState_keeps crc _ _).bind fun state => .ite ?_ (.pure _))
    exact (hfound _ _ _ _).bind fun _ => .pure _
  · cases flow with
    | done result => exact .pure _
    | next _ => exact hmissed

/-- Lookups. -/
lemma lookupRaw_keeps (hash : Hash) : KeepsLayout (lookupRaw crc hash) := by
  refine forCandidates_keeps crc hash (fun partition _ slot state => ?_) (.pure _)
  refine (Keeps.orThrow _).bind fun _ => (modifyHeat_keeps _).bind fun _ => ?_
  cases state <;> exact .pure _

/-- Removals. -/
lemma removeMatching_keeps (hash : Hash) (expectedLocation : Option PackedLocation) :
    KeepsLayout (removeMatching crc hash expectedLocation) := by
  refine forCandidates_keeps crc hash
    (fun _ _ _ _ => (replaceSlot_keeps crc _ _ _ _).bind fun _ => .pure _) ?_
  split_ifs
  · refine (recordActivity_keeps ?_).bind fun _ => .pure _
    exact fun _ => rfl
  · exact .pure _

/-- Reclaim decisions. -/
lemma prepareReclaim_keeps (hash : Hash) (oldLocation : PackedLocation) :
    KeepsLayout (prepareReclaim crc hash oldLocation) := by
  refine forCandidates_keeps crc hash (fun partition _ slot state => ?_) ?_
  · refine (Keeps.orThrow _).bind fun _ => Keeps.get.bind fun idx => ?_
    refine (modifyHeat_keeps _).bind fun _ => .ite (.pure _) ?_
    exact (replaceSlot_keeps crc _ _ _ _).bind fun _ => .pure _
  · refine (recordActivity_keeps ?_).bind fun _ => .pure _
    exact fun _ => rfl

/-- Replacements. -/
lemma replaceIfMatch_keeps (hash : Hash) (oldLocation : PackedLocation) (replacement : IndexEntry) :
    KeepsLayout (replaceIfMatch crc hash oldLocation replacement) := by
  refine forCandidates_keeps crc hash
    (fun _ _ _ _ => (replaceSlot_keeps crc _ _ _ _).bind fun _ => .pure _) ?_
  refine (recordActivity_keeps ?_).bind fun _ => .pure _
  exact fun _ => rfl

/-- The search for a relocation over one hop. -/
lemma oneHopStep_keeps (partition : IndexPartitionRange) (candidates : ℕ → ℕ)
    (observed : ℕ → IndexSlotState) (fp : ℕ) (supplied : IndexEntry) (displacement : ℕ) :
    KeepsLayout (oneHopStep crc partition candidates observed fp supplied displacement ()) := by
  unfold oneHopStep
  refine .ite (.pure _) ?_
  cases observed displacement with
  | empty => exact .pure _
  | value =>
    refine .ite (.throw _) (Keeps.forReturn (fun target _ => ?_) _ _)
    unfold oneHopTargetStep
    refine .ite (.pure _) (.ite (.pure _) ((slotState_keeps crc _ _).bind fun state => ?_))
    cases state with
    | value => exact .pure _
    | empty =>
      refine (replaceSlot_keeps crc _ _ _ _).bind fun _ => (replaceSlot_keeps crc _ _ _ _).bind
        fun _ => (recordActivity_keeps ?_).bind fun _ => .pure _
      exact fun _ => rfl

/-- The search for a relocation over two hops. -/
lemma twoHopStep_keeps (partition : IndexPartitionRange) (candidates : ℕ → ℕ)
    (observed : ℕ → IndexSlotState) (fp : ℕ) (supplied : IndexEntry) (displacement : ℕ) :
    KeepsLayout (twoHopStep crc partition candidates observed fp supplied displacement ()) := by
  unfold twoHopStep
  refine .ite (.pure _) ?_
  cases observed displacement with
  | empty => exact .pure _
  | value =>
    refine .ite (.throw _) (Keeps.forReturn (fun middle _ => ?_) _ _)
    unfold twoHopMiddleStep
    refine .ite (.pure _) (.ite (.pure _) ((slotState_keeps crc _ _).bind fun state => ?_))
    cases state with
    | empty => exact .pure _
    | value =>
      refine .ite (.throw _) (Keeps.forReturn (fun target _ => ?_) _ _)
      unfold twoHopTargetStep
      refine .ite (.pure _) (.ite (.pure _) ((slotState_keeps crc _ _).bind fun state => ?_))
      cases state with
      | value => exact .pure _
      | empty =>
        refine (replaceSlot_keeps crc _ _ _ _).bind fun _ => (replaceSlot_keeps crc _ _ _ _).bind
          fun _ => (replaceSlot_keeps crc _ _ _ _).bind fun _ => (recordActivity_keeps ?_).bind
            fun _ => .pure _
        exact fun _ => rfl

/-- The search for the hash itself or for a free candidate. -/
lemma upsertProbeStep_keeps (partition : IndexPartitionRange) (candidates : ℕ → ℕ) (fp : ℕ)
    (supplied : IndexEntry) (displacement : ℕ) (probe : UpsertProbe) :
    KeepsLayout (upsertProbeStep crc partition candidates fp supplied displacement probe) := by
  refine .ite (.pure _) ((slotState_keeps crc _ _).bind fun state => ?_)
  cases state with
  | empty => exact .pure _
  | value => exact .ite ((replaceSlot_keeps crc _ _ _ _).bind fun _ => .pure _) (.pure _)

/-- Insertions. -/
lemma upsert_keeps (hash : Hash) (supplied : IndexEntry) :
    KeepsLayout (upsert crc hash supplied) := by
  refine (hashPartition_keeps hash).bind fun partition => Keeps.bind
    (Keeps.forReturn (upsertProbeStep_keeps crc _ _ _ _) _ _) fun flow => ?_
  cases flow with
  | done result => exact .pure _
  | next probe =>
    dsimp only
    cases probe.firstEmpty with
    | some displacement => exact (replaceSlot_keeps crc _ _ _ _).bind fun _ => .pure _
    | none =>
      refine Keeps.bind (Keeps.forReturn (fun _ _ => oneHopStep_keeps crc _ _ _ _ _ _) _ _)
        fun flow => ?_
      cases flow with
      | done result => exact .pure _
      | next _ =>
        refine Keeps.bind (Keeps.forReturn (fun _ _ => twoHopStep_keeps crc _ _ _ _ _ _) _ _)
          fun flow => ?_
        cases flow with
        | done result => exact .pure _
        | next _ =>
          refine (replaceSlot_keeps crc _ _ _ _).bind fun _ => (recordActivity_keeps ?_).bind
            fun _ => .pure _
          exact fun _ => rfl

end RegionIndex

/-- **Operations of the index.** None of them changes the number of slots or the partitions,
whether it succeeds or fails. -/
theorem IndexOp.run_keeps (crc : List UInt8 → BitVec 32) (op : IndexOp) :
    RegionIndex.KeepsLayout (op.run crc) := by
  cases op with
  | lookupRaw hash => exact (RegionIndex.lookupRaw_keeps crc hash).bind fun _ => .pure _
  | upsert hash supplied => exact (RegionIndex.upsert_keeps crc hash supplied).bind fun _ => .pure _
  | tryDelete hash => exact (RegionIndex.removeMatching_keeps crc hash none).bind fun _ => .pure _
  | removeIfMatch hash old =>
    exact (RegionIndex.removeMatching_keeps crc hash (some old)).bind fun _ => .pure _
  | replaceIfMatch hash old replacement =>
    exact (RegionIndex.replaceIfMatch_keeps crc hash old replacement).bind fun _ => .pure _
  | prepareReclaim hash old =>
    exact (RegionIndex.prepareReclaim_keeps crc hash old).bind fun _ => .pure _
  | setActivityCountersEnabled enabled => exact .modify fun _ => rfl

/-! ## Runs of a store -/

/-- Two stores with as many Regions, slots, partitions and shards as each other. -/
structure SameLayout (s s' : RegionStore) : Prop where
  regions : s'.manager.regions.length = s.manager.regions.length
  index : s'.index.storage.layout = s.index.storage.layout
  shards : s'.shardCount = s.shardCount

namespace SameLayout

variable {s s' s'' : RegionStore}

/-- A store has its own layout. -/
lemma refl (s : RegionStore) : SameLayout s s := ⟨rfl, rfl, rfl⟩

/-- Having the same layout is transitive. -/
lemma trans (h : SameLayout s s') (h' : SameLayout s' s'') : SameLayout s s'' :=
  ⟨h'.regions.trans h.regions, h'.index.trans h.index, h'.shards.trans h.shards⟩

/-- The same layout has the same slots. -/
lemma indexSlotCount (h : SameLayout s s') : s'.indexSlotCount = s.indexSlotCount :=
  congrArg Prod.fst h.index

/-- The same layout has the same partitions. -/
lemma ranges (h : SameLayout s s') : s'.index.storage.ranges = s.index.storage.ranges :=
  congrArg Prod.snd h.index

end SameLayout

namespace RegionStore

variable {crc : List UInt8 → BitVec 32} {s s' : RegionStore}

/-- Nothing that happens to a store changes its layout. -/
lemma Step.sameLayout (h : Step crc s s') : SameLayout s s' := by
  cases h with
  | manager h => exact ⟨(ManagerOp.run_keeps _).of_ok h, rfl, rfl⟩
  | managerError h => exact ⟨(ManagerOp.run_keeps _).of_error h, rfl, rfl⟩
  | configured h =>
    obtain ⟨-, -, rfl⟩ := RegionManager.configureReclaimWorkers_eq_ok h
    exact ⟨rfl, rfl, rfl⟩
  | index h => exact ⟨rfl, (IndexOp.run_keeps crc _).of_ok h, rfl⟩
  | indexError h => exact ⟨rfl, (IndexOp.run_keeps crc _).of_error h, rfl⟩
  | gatePoisoned => exact ⟨rfl, rfl, List.length_set⟩
  | _ => exact ⟨rfl, rfl, rfl⟩

/-- **Runs.** Whatever happens to a store, its layout stays. -/
theorem sameLayout_of_run (h : Relation.ReflTransGen (Step crc) s s') : SameLayout s s' := by
  induction h with
  | refl => exact .refl s
  | tail _ hstep ih => exact ih.trans hstep.sameLayout

/-- The index of the store represents a table: no page of it is corrupt. -/
def Intact (crc : List UInt8 → BitVec 32) (s : RegionStore) : Prop :=
  ∃ ranges, canonicalIndexPartitionRanges s.indexSlotCount = .ok ranges ∧
    Represented crc s.indexSlotCount ranges s.index

/-- Nothing that happens to a store corrupts its index. -/
lemma Intact.step (hintact : s.Intact crc) (h : Step crc s s') : s'.Intact crc := by
  obtain ⟨ranges, hranges, t, hrepr⟩ := hintact
  have hcount := h.sameLayout.indexSlotCount
  rw [Intact, hcount]
  refine ⟨ranges, hranges, ?_⟩
  cases h with
  | @index op idx hrun =>
    obtain ⟨⟨⟩, idx', hrun', hrepr'⟩ := op.run_repr hranges _ hrepr
    rw [hrun] at hrun'
    cases hrun'
    exact hrepr'
  | @indexError op e idx hrun =>
    obtain ⟨⟨⟩, idx', hrun', -⟩ := op.run_repr hranges _ hrepr
    rw [hrun] at hrun'
    cases hrun'
  | _ => exact ⟨t, hrepr⟩

/-- **Runs on an intact index.** The index stays intact. -/
theorem Intact.of_run (hintact : s.Intact crc) (h : Relation.ReflTransGen (Step crc) s s') :
    s'.Intact crc := by
  induction h with
  | refl => exact hintact
  | tail _ hstep ih => exact ih.step hstep

/-- The store of a table and an index that belong together. -/
lemma fromRecovery_eq_ok {index : PartitionedIndexStorage} {metadata : RegionMetadata}
    (h : fromRecovery index metadata = .ok s) :
    RegionManager.fromMetadata metadata = .ok s.manager ∧ s.index = .fromStorage index ∧
      s.shardCount = s.manager.activeRegions.length ∧ s.healthy = true := by
  rw [fromRecovery, ite_error_eq_ok, ite_error_eq_ok, except_bind_eq_ok] at h
  obtain ⟨-, -, manager, hmanager, h⟩ := h
  cases h
  exact ⟨mapError_eq_ok.1 hmanager, rfl, List.length_map .., rfl⟩

/-- A store with a new index is intact. -/
lemma Intact.of_anonymous {index : PartitionedIndexStorage} {metadata : RegionMetadata}
    {slotCount : ℕ} (hindex : PartitionedIndexStorage.anonymous slotCount = .ok index)
    (h : fromRecovery index metadata = .ok s) : s.Intact crc := by
  obtain ⟨ranges, hranges, hrepr⟩ := anonymous_repr crc hindex
  obtain ⟨-, hs, -⟩ := fromRecovery_eq_ok h
  rw [Intact, indexSlotCount, hs]
  have hcount : index.slotCount = slotCount := hrepr.slotCount_eq
  exact ⟨ranges, by rw [← hranges, ← hcount]; rfl, _, by rw [← hcount] at hrepr; exact hrepr⟩

/-! ## Freezing -/

/-- What is frozen of a store. -/
def frozen (s : RegionStore) (metadata : RegionMetadata) : FrozenRegionStore :=
  ⟨metadata, s.index.storage.slotCount, s.index.storage.stats⟩

/-- A healthy store passes. -/
lemma requireHealthy_eq_ok {u : Unit} :
    requireHealthy s = .ok u s' ↔ s.healthy = true ∧ s' = s := by
  rw [requireHealthy, get_bind, rejectIf]
  cases hh : s.healthy <;> simp [eq_comm]

/-- The health is required of a healthy store only. -/
lemma requireHealthy_bind_eq_ok {α : Type} {g : Unit → StoreM α} {a : α} :
    (requireHealthy >>= g) s = .ok a s' ↔ s.healthy = true ∧ g () s = .ok a s' := by
  rw [requireHealthy, bind_assoc, get_bind]
  simp only [rejectIf_bind_eq_ok, Bool.not_eq_false]

/-- What the index has computed passes. -/
lemma guardedIndexResult_eq_ok {α : Type} {x : Except IndexStorageError α} {a : α} :
    guardedIndexResult x s = .ok a s' ↔ x = .ok a ∧ s' = s := by
  cases x with
  | ok b => simp [guardedIndexResult, eq_comm]
  | error e => simp [guardedIndexResult, enterMissOnly, bind_apply]

/-- The lock is granted on a healthy store without poison. -/
lemma lock_bind_eq_ok {α : Type} {g : RegionManager → StoreM α} {a : α} :
    (lock >>= g) s = .ok a s' ↔
      s.healthy = true ∧ s.managerPoisoned = false ∧ g s.manager s = .ok a s' := by
  rw [lock, bind_assoc, requireHealthy_bind_eq_ok, bind_assoc, get_bind]
  cases hp : s.managerPoisoned <;> simp [enterMissOnly, bind_apply]

/-- The Regions are counted under the lock. -/
lemma regionCount_bind_eq_ok {α : Type} {g : ℕ → StoreM α} {a : α} :
    (regionCount >>= g) s = .ok a s' ↔ s.healthy = true ∧ s.managerPoisoned = false ∧
      g s.manager.regions.length s = .ok a s' := by
  rw [regionCount, bind_assoc, lock_bind_eq_ok]
  rfl

/-- The reclaim workers of a healthy store without poison are those of its manager. -/
lemma configureReclaimWorkers_ok {workers : ℕ} {m : RegionManager} (hhealthy : s.healthy = true)
    (hpoisoned : s.managerPoisoned = false)
    (h : RegionManager.configureReclaimWorkers workers s.manager = .ok () m) :
    configureReclaimWorkers workers s = .ok () { s with manager := m } := by
  rw [configureReclaimWorkers, lock_bind_eq_ok, h]
  exact ⟨hhealthy, hpoisoned, rfl⟩

/-- **Freezing.** A store is frozen as it is, and its table is valid and has its Regions. -/
theorem freeze_eq_ok {metadata : RegionMetadata} (h : freeze s = .ok metadata s') :
    s' = s ∧ s.healthy = true ∧
      freezeStore s.manager s.indexSlotCount s.index.storage.ranges s.index.storage.stats =
        .ok (s.frozen metadata) ∧
      metadata.validate = .ok () ∧
      metadata.root.regionCount.toNat = s.manager.regions.length := by
  rw [freeze, requireHealthy_bind_eq_ok, get_bind] at h
  obtain ⟨hhealthy, h⟩ := h
  split_ifs at h with hpoisoned
  · simp [enterMissOnly, bind_apply] at h
  · rw [lock_bind_eq_ok, orThrow_bind_eq_ok] at h
    obtain ⟨-, -, frozen, hfreeze, h⟩ := h
    rw [requireHealthy_bind_eq_ok] at h
    obtain ⟨-, h⟩ := h
    cases h
    have hfreeze' := hfreeze
    rw [freezeStore, except_bind_eq_ok] at hfreeze'
    obtain ⟨partitions, -, hfreeze'⟩ := hfreeze'
    rw [except_bind_eq_ok] at hfreeze'
    obtain ⟨metadata, hmetadata, hfreeze'⟩ := hfreeze'
    cases hfreeze'
    rw [mapError_eq_ok] at hmetadata
    obtain ⟨hvalid, hfrom⟩ := RegionManager.freezeMetadata_eq_ok hmetadata
    refine ⟨rfl, hhealthy, hfreeze, hvalid, ?_⟩
    rw [← hfrom.length_regions, ← (RegionMetadata.valid_of_validate hvalid).length_regions]

/-- The table of an intact store has the slots and the accounting of its index. -/
lemma Intact.frozen_consistent {metadata : RegionMetadata} (hintact : s.Intact crc)
    (h : freezeStore s.manager s.indexSlotCount s.index.storage.ranges s.index.storage.stats =
      .ok (s.frozen metadata)) :
    metadata.root.indexSlots.toNat = s.indexSlotCount ∧
      metadataPartitionStatsMatch metadata s.index.storage.stats = true := by
  obtain ⟨ranges, hranges, t, hrepr⟩ := hintact
  obtain ⟨-, -, himage, hchain⟩ := canonicalIndexPartitionRanges_chain hranges
  unfold isizeMax at himage
  have hlt : s.indexSlotCount < 2 ^ 64 := by omega
  have hwidth : ∀ stats ∈ s.index.storage.stats, stats.value < 2 ^ 64 ∧ stats.deleted < 2 ^ 64 := by
    intro stats hmem
    rw [hrepr.stats_eq] at hmem
    obtain ⟨range, hrange, rfl⟩ := List.mem_map.1 hmem
    have hfits := (rangeFits_of_canonical hranges hlt range hrange).slotCount
    exact ⟨(occupied_le range t).trans_lt hfits, Nat.two_pow_pos 64⟩
  rw [hrepr.ranges_eq] at h
  obtain ⟨-, hslots, hstats⟩ := freezeStore_eq_ok hranges hlt hwidth h
  exact ⟨hslots, hstats⟩

end RegionStore

end Cache2

import Cache2.Region.RecordSpace
import Cache2.Region.Staging

set_option relaxedAutoImplicit false
set_option autoImplicit false

/-!
# What the store asks of its manager

The manager grants room for records of any length. The store asks it for some lengths only: every
record goes through `try_stage_value` or `try_stage_reinsert` (`region/mod.rs`), where
`validate_stage` compares its length with the chunks of the staging area, and the length is that of
an encoded key and value. A chunk is no longer than a Region, since the staging area of a process is
made so. The runs of the store are the runs of the manager in which all requests are of this kind;
the data path does no others (`Cache2.storeRun_of_pathSteps`).

## Main definitions

* `Cache2.validateStage` — the check.
* `Cache2.ManagerOp.Validated` — requests that have passed it.
* `Cache2.StoreRun` — the runs of a store.

## Main results

* `Cache2.StoreRun.reachable` — the runs of a store are runs of the manager.
* `Cache2.StoreRun.recordBytes_le` — no record is longer than a Region.
* `Cache2.StoreRun.encoded` — every record has room for its header.
-/

namespace Cache2

open Loop

/-! ## Requests -/

/-- `validate_stage`, on a store that is healthy. -/
def validateStage (chunkBytes recordBytes : ℕ) : Except IoError Unit :=
  if chunkBytes < recordBytes then
    .error (ioError .invalidInput "value exceeds one Region staging buffer")
  else .ok ()

/-- The length of the record that an operation asks room for. -/
def ManagerOp.recordBytes : ManagerOp → ℕ
  | .requestRotationForAppend _ recordBytes | .reserveAppend _ recordBytes => recordBytes
  | _ => 0

/-- A request of `try_stage_record`: the record is that of a key and a value, and it has passed
`validate_stage`. Other operations ask for no room. -/
def ManagerOp.Validated (chunkBytes : ℕ) : ManagerOp → Prop
  | .requestRotationForAppend _ recordBytes | .reserveAppend _ recordBytes =>
    (∃ keyLen valueLen, RecordHeader.alignedLen keyLen valueLen = some recordBytes) ∧
      validateStage chunkBytes recordBytes = .ok ()
  | _ => True

/-- The runs of a store whose chunks have the given size: a run starts cold, with a new staging
area; operations succeed or fail, where records come from `try_stage_record`; the number of reclaim
workers is set; and the process restarts, with a new staging area. -/
inductive StoreRun : ℕ → RegionManager → List ManagerEvent → Prop
  | cold {data : DataSuperblock} {indexSlots chunkBytes : ℕ} {appendShards : BitVec 32}
      {metadata : RegionMetadata} {m : RegionManager} {platform : Platform}
      {memory memory' : ManagedMemory} {staging : AppendStaging}
      (hempty : emptyRegionMetadata data indexSlots appendShards = .ok metadata)
      (hm : RegionManager.fromMetadata metadata = .ok m)
      (hstaging : AppendStaging.tryNew platform appendShards.toNat chunkBytes
        data.geometry.regionSize memory = .ok staging memory') :
      StoreRun chunkBytes m ((m.createdSeqnos 0).map .activated)
  | effect {chunkBytes : ℕ} {m : RegionManager} {history : List ManagerEvent} {op : ManagerOp}
      (h : StoreRun chunkBytes m history) (hop : op.Validated chunkBytes) :
      StoreRun chunkBytes (op.effect m).2 (history ++ (op.effect m).1)
  | configured {chunkBytes : ℕ} {m m' : RegionManager} {history : List ManagerEvent} {workers : ℕ}
      (h : StoreRun chunkBytes m history)
      (hop : RegionManager.configureReclaimWorkers workers m = .ok () m') :
      StoreRun chunkBytes m' history
  | restarted {chunkBytes chunkBytes' : ℕ} {m m' : RegionManager} {history : List ManagerEvent}
      {partitions : List PartitionMetadataRecord} {identity : PersistentId}
      {generation regionSize : BitVec 64} {appendShards : BitVec 32} {platform : Platform}
      {memory memory' : ManagedMemory} {staging : AppendStaging}
      (h : StoreRun chunkBytes m history)
      (hop : m.restart partitions identity generation appendShards = .ok m')
      (hsize : regionSize.toNat = m'.regionSize)
      (hstaging : AppendStaging.tryNew platform appendShards.toNat chunkBytes' regionSize memory =
        .ok staging memory') :
      StoreRun chunkBytes' m' (history ++ (m'.createdSeqnos m.activeRegions.length).map .activated)

/-! ## What runs keep -/

section Runs

variable {chunkBytes : ℕ} {m m' : RegionManager} {events history : List ManagerEvent}
  {op : ManagerOp}

/-- A record that passes is no longer than a chunk. -/
lemma validateStage_eq_ok {recordBytes : ℕ} (h : validateStage chunkBytes recordBytes = .ok ()) :
    recordBytes ≤ chunkBytes := by
  rw [validateStage] at h
  split_ifs at h with hlt
  exact Nat.le_of_not_lt hlt

/-- The table of an empty data file has the geometry of the file. -/
lemma emptyRegionMetadata_geometry {data : DataSuperblock} {indexSlots : ℕ}
    {appendShards : BitVec 32} {metadata : RegionMetadata}
    (h : emptyRegionMetadata data indexSlots appendShards = .ok metadata) :
    metadata.root.regionSize = data.geometry.regionSize ∧
      metadata.root.regionCount = data.geometry.regionCount ∧
      metadata.root.shardCount = appendShards := by
  rw [emptyRegionMetadata, ite_error_eq_ok] at h
  simp only [except_bind_eq_ok, ite_error_eq_ok] at h
  obtain ⟨-, ranges, -, indexLen, -, partitions, -, -, ⟨⟩, -, h⟩ := h
  cases h
  exact ⟨rfl, rfl, rfl⟩

/-- The effect of an operation is a step. -/
lemma ManagerOp.effect_step (hinv : ManagerInv m) (op : ManagerOp) :
    ManagerStep m (op.effect m).1 (op.effect m).2 := by
  unfold ManagerOp.effect
  cases hop : op.run m with
  | ok events m' => exact ManagerOp.run_ok hinv hop
  | error e m' => exact ManagerOp.step_of_error hinv hop

/-- Steps leave the size of the Regions alone. -/
lemma ManagerStep.regionSize_eq (h : ManagerStep m events m') : m'.regionSize = m.regionSize := by
  cases h <;> rfl

/-- The runs of a store are runs of the manager. -/
lemma StoreRun.reachable (h : StoreRun chunkBytes m history) : ManagerReachable m history := by
  induction h with
  | cold hempty hm _ => exact .cold hempty hm
  | effect _ _ ih => exact ih.effect _
  | configured _ hop ih => exact ih.configured hop
  | restarted _ hop _ _ ih => exact ih.restarted hop

/-- Validated operations continue a run. -/
lemma StoreRun.effects {ops : List ManagerOp} (h : StoreRun chunkBytes m history)
    (hops : ∀ op ∈ ops, op.Validated chunkBytes) :
    StoreRun chunkBytes (runEffects ops m).2 (history ++ (runEffects ops m).1) := by
  induction ops generalizing m history with
  | nil =>
    rw [runEffects, List.append_nil]
    exact h
  | cons op rest ih =>
    rw [runEffects, ← List.append_assoc]
    exact ih (h.effect (hops op List.mem_cons_self)) fun op' hop' => hops op' (.tail _ hop')

/-- A chunk is no longer than a Region. -/
lemma StoreRun.chunkBytes_le (h : StoreRun chunkBytes m history) : chunkBytes ≤ m.regionSize := by
  induction h with
  | cold hempty hm hstaging =>
    rw [(RegionManager.fromMetadata_eq_ok hm).2.regionSize, (emptyRegionMetadata_geometry hempty).1]
    exact (AppendStaging.tryNew_eq_ok hstaging).1
  | effect h _ ih => exact ih.trans ((ManagerOp.effect_step h.reachable.inv _).regionSize_eq).ge
  | configured _ hop ih =>
    obtain ⟨-, -, rfl⟩ := RegionManager.configureReclaimWorkers_eq_ok hop
    exact ih
  | restarted _ _ hsize hstaging _ => exact hsize ▸ (AppendStaging.tryNew_eq_ok hstaging).1

/-- No record that the store asks room for is longer than a Region. -/
lemma StoreRun.recordBytes_le (h : StoreRun chunkBytes m history) (hop : op.Validated chunkBytes) :
    op.recordBytes ≤ m.regionSize := by
  cases op with
  | requestRotationForAppend _ n => exact (validateStage_eq_ok hop.2).trans h.chunkBytes_le
  | reserveAppend _ n => exact (validateStage_eq_ok hop.2).trans h.chunkBytes_le
  | _ => exact Nat.zero_le _

/-- Only a reservation reserves. -/
lemma ManagerOp.of_reserved {r : RegionAppendReservation} (h : .reserved r ∈ (op.effect m).1) :
    ∃ shardId, op = .reserveAppend shardId r.recordBytes := by
  unfold ManagerOp.effect at h
  cases hop : op.run m with
  | error e m' =>
    rw [hop] at h
    exact absurd h List.not_mem_nil
  | ok events m' =>
    rw [hop] at h
    dsimp only at h
    cases op with
    | reserveAppend shardId n =>
      obtain ⟨r', m₁, h₁, h₂⟩ := bind_eq_ok.1 hop
      cases h₂
      obtain ⟨shard, id, region, -, -, -, -, -, hr, -⟩ := RegionManager.reserveAppend_eq_ok.1 h₁
      obtain rfl := ManagerEvent.reserved.inj (List.mem_singleton.1 h)
      exact ⟨shardId, by rw [hr]⟩
    | reserveWritePadding shardId =>
      obtain ⟨p, m₁, -, h₂⟩ := bind_eq_ok.1 hop
      cases p <;> (cases h₂; simp at h)
    | beginReclaim =>
      obtain ⟨p, m₁, -, h₂⟩ := bind_eq_ok.1 hop
      cases p <;> (cases h₂; simp at h)
    | _ =>
      obtain ⟨_, _, -, h₂⟩ := bind_eq_ok.1 hop
      cases h₂
      simp at h

/-- Every record that a store has reserved has room for a header, a key and a value. -/
theorem StoreRun.encoded (h : StoreRun chunkBytes m history) {r : RegionAppendReservation}
    (hr : .reserved r ∈ history) :
    ∃ keyLen valueLen, RecordHeader.alignedLen keyLen valueLen = some r.recordBytes := by
  induction h with
  | cold _ _ _ => simp at hr
  | effect _ hop ih =>
    rcases List.mem_append.1 hr with hr | hr
    · exact ih hr
    · obtain ⟨shardId, rfl⟩ := ManagerOp.of_reserved hr
      exact hop.1
  | configured _ _ ih => exact ih hr
  | restarted _ _ _ _ ih =>
    rcases List.mem_append.1 hr with hr | hr
    · exact ih hr
    · simp at hr

end Runs

/-! ## The sample -/

/-- A staging area for the sample. -/
lemma sampleStaging : ∃ staging memory', AppendStaging.tryNew ⟨fun _ => false, fun _ => true⟩ 1 4096
    4096 ⟨.new 1048576 0, 0⟩ = .ok staging memory' := by
  have hworks : Platform.Works ⟨fun _ => false, fun _ => true⟩ :=
    ⟨fun n => ⟨0, by decide, rfl⟩, fun n => rfl⟩
  have hmade : ∃ staging asked, AppendStaging.tryNew ⟨fun _ => false, fun _ => true⟩ 1 4096 4096
      ⟨.new 1048576 0, 0⟩ = .ok staging ⟨(MemoryTracker.new 1048576 0).charge 270336, asked⟩ ∧
        staging.memory = 270336 ∧ staging.shards.length = 1 :=
    AppendStaging.tryNew_ok hworks (by decide) (by decide) (by decide) (by decide) (by decide)
      (by decide) (by decide) (by decide) (by decide)
  obtain ⟨staging, asked, hstaging, -⟩ := hmade
  exact ⟨staging, _, hstaging⟩

/-- The sample is a run of a store. -/
lemma sampleFilled_run : StoreRun 4096 sampleFilled sampleFilledHistory := by
  obtain ⟨staging, memory', hstaging⟩ := sampleStaging
  have hcold : StoreRun 4096 sampleManager [.activated 1] :=
    .cold (show emptyRegionMetadata sampleData 8 1 = .ok sampleTable by decide +kernel)
      (by decide +kernel) hstaging
  have h64 : RecordHeader.alignedLen 0 0 = some 64 := by decide
  have h96 : RecordHeader.alignedLen 0 40 = some 96 := by decide
  refine hcold.effects ?_
  simp only [sampleFill, List.forall_mem_cons]
  exact ⟨⟨⟨0, 0, h64⟩, rfl⟩, trivial, ⟨⟨0, 40, h96⟩, rfl⟩, trivial, trivial, trivial, trivial,
    ⟨⟨0, 0, h64⟩, rfl⟩, List.forall_mem_nil _⟩

/-- The sample is a run of a store. -/
lemma sampleTurned_run : StoreRun 4096 sampleTurned sampleTurnedHistory := by
  have h64 : RecordHeader.alignedLen 0 0 = some 64 := by decide
  refine sampleFilled_run.effects ?_
  simp only [sampleTurn, List.forall_mem_cons]
  exact ⟨trivial, trivial, ⟨⟨0, 0, h64⟩, rfl⟩, trivial, trivial, trivial, trivial,
    ⟨⟨0, 0, h64⟩, rfl⟩, trivial, trivial, trivial, trivial, List.forall_mem_nil _⟩

end Cache2

import Cache2.Region.PathReclaim

set_option relaxedAutoImplicit false
set_option autoImplicit false

/-!
# Runs of the data path

The store starts cold, on a data file with any contents. Foreground threads, append workers, reclaim
workers and the device then take their sections in any order. The invariant of the data path holds
at the start, every section keeps it, and so it holds as long as the store is healthy. The health
ends in three ways only: the device fails, or the sequence numbers or the drains of a shard are
exhausted.

## Main definitions

* `Cache2.ColdStart` — a store as it is started on an empty data file.
* `Cache2.PathStep` — a section of any thread.

## Main results

* `Cache2.PathInv.of_coldStart` — the invariant holds at the start.
* `Cache2.PathInv.step` — every section keeps it, or ends the health for a reason.
* `Cache2.PathInv.run` — what is so after any run.
* `Cache2.dataPath_safety` — no mapping dangles, and completed records stay where they are.
-/

namespace Cache2

open Bytes Loop Framing TokenTable DataPath

/-! ## The start -/

/-- A shard as it is made. -/
def ShardPath.start {crc : List UInt8 → BitVec 32} (made : ShardStaging) : ShardPath crc :=
  { staging := .new made
    gate := .free
    worker := ⟨.waiting, 0, false⟩
    drainRequested := 0
    drainCompleted := 0 }

/-- A data path as it is made: the generations are those of the manager, and no worker has begun. -/
def DataPath.start {crc : List UInt8 → BitVec 32} (m : RegionManager) (index : RegionIndex)
    (disk : List UInt8) (staging : AppendStaging) (workers : ℕ) : DataPath crc :=
  { manager := m
    index
    disk
    generations := m.regions.map (·.createdSeqno)
    shards := staging.shards.map .start
    reclaimers := List.replicate workers .idle
    rotation := none
    healthy := true }

/-- A store as it is started on an empty data file. Nothing is known of the bytes of the file. -/
inductive ColdStart {crc : List UInt8 → BitVec 32} : PathConfig → ℕ → DataPath crc → Prop
  | intro {data : DataSuperblock} {indexSlots chunkBytes workers : ℕ} {appendShards : BitVec 32}
      {metadata : RegionMetadata} {m m' : RegionManager} {storage : PartitionedIndexStorage}
      {platform : Platform} {memory memory' : ManagedMemory} {staging : AppendStaging}
      {disk : List UInt8} (hdata : data.isValid = true)
      (hempty : emptyRegionMetadata data indexSlots appendShards = .ok metadata)
      (hm : RegionManager.fromMetadata metadata = .ok m)
      (hworkers : RegionManager.configureReclaimWorkers workers m = .ok () m')
      (hindex : PartitionedIndexStorage.anonymous indexSlots = .ok storage)
      (hstaging : AppendStaging.tryNew platform appendShards.toNat chunkBytes
        data.geometry.regionSize memory = .ok staging memory')
      (hdisk : disk.length = data.geometry.dataFileLen.toNat) :
      ColdStart ⟨chunkBytes, data.geometry⟩ indexSlots
        (.start m' (.fromStorage storage) disk staging workers)

section Start

variable {crc : List UInt8 → BitVec 32} {c : PathConfig} {indexSlots : ℕ} {s : DataPath crc}

/-- A shard agrees with a manager that has nothing outstanding. -/
lemma ShardLink.start {shardId regionId generation : ℕ} :
    ShardLink c shardId {} regionId generation
      (.start ⟨⟨.fixed, c.chunkBytes, c.chunkBytes⟩, ⟨.fixed, c.chunkBytes, c.chunkBytes⟩,
        maxStagingRecords, maxStagingRecords⟩ : ShardPath crc) [] [] where
  isOpen := ⟨rfl, rfl⟩
  tail_eq := rfl
  padding_eq := rfl
  submitted_eq := rfl
  rotation_eq := rfl
  opened_eq := rfl
  gate_iff := ⟨fun heq => (by cases heq), fun heq => (by cases heq)⟩
  filled := ⟨_, ⟨rfl, rfl⟩, .new List.length_replicate le_rfl⟩
  seen := fun heq => by cases heq
  reserved := fun _ _ heq => by cases heq
  encoding := fun _ _ _ _ _ _ heq => by cases heq
  spare := fun _ => ⟨rfl, _, _, rfl, List.length_replicate, rfl, le_rfl⟩
  taken := fun _ heq => by cases heq
  sealed := fun _ _ heq => by cases heq
  padded := fun _ heq => by cases heq
  published := fun _ _ heq => by cases heq
  geometry_eq := by rintro geometry (⟨span, heq⟩ | ⟨write, heq⟩) <;> cases heq
  selected := fun _ heq => by cases heq
  counted := ⟨le_rfl, le_rfl⟩

/-- **Start.** The invariant holds of a store that is started cold, with empty logs. -/
theorem PathInv.of_coldStart (h : ColdStart c indexSlots s) :
    ∃ ranges, canonicalIndexPartitionRanges indexSlots = .ok ranges ∧
      PathInv c indexSlots ranges (fun _ => []) s := by
  obtain ⟨hdata, hempty, hm, hworkers, hindex, hstaging, hdisk⟩ := h
  rename_i data chunkBytes workers appendShards metadata m m' storage platform memory memory'
    staging disk
  obtain ⟨hvalid, hr⟩ := RegionManager.fromMetadata_eq_ok hm
  obtain ⟨hregionSize, hregionCount, hshardCount⟩ := emptyRegionMetadata_geometry hempty
  have hreachable : ManagerReachable m' _ := (ManagerReachable.cold hempty hm).configured hworkers
  have hinv := hreachable.inv
  have hspace := hreachable.recordSpace_aligned
  obtain ⟨-, -, rfl⟩ := RegionManager.configureReclaimWorkers_eq_ok hworkers
  obtain ⟨hle, haligned, hshards⟩ := AppendStaging.tryNew_eq_ok hstaging
  obtain ⟨ranges, hranges, hindexInv, hinstalled⟩ := fromStorage_inv crc hindex
  have hgeometry : data.geometry.isValid = true := (Bool.and_eq_true_iff.1 hdata).2
  have hregions : m.regions = (List.range data.geometry.regionCount.toNat).map
      fun i => (emptyRegion appendShards.toNat i).desc := by
    rw [hr.regions, (emptyRegionMetadata_eq_ok hempty).regions, List.map_map, hregionCount,
      hshardCount]
    rfl
  -- every shard waits, and has nothing
  have hshard : ∀ {i : ℕ} {p : ShardPath crc}, (staging.shards.map .start)[i]? = some p →
      p = .start ⟨⟨.fixed, chunkBytes, chunkBytes⟩, ⟨.fixed, chunkBytes, chunkBytes⟩,
        maxStagingRecords, maxStagingRecords⟩ := by
    intro i p hp
    rw [hshards, List.map_replicate] at hp
    exact List.eq_of_mem_replicate (List.mem_of_getElem? hp)
  have hrest : ∀ {w : ℕ} {phase : ReclaimPhase crc},
      (List.replicate workers ReclaimPhase.idle)[w]? = some phase → phase = .idle :=
    fun hphase => List.eq_of_mem_replicate (List.mem_of_getElem? hphase)
  refine ⟨ranges, hranges, ⟨⟨?_, hinv, hspace, ?_, List.length_map _, ?_, ?_, ?_⟩,
    ⟨hdisk, ?_, ?_, ?_⟩, ⟨hindexInv, ?_, ?_⟩, ⟨?_, ?_, ?_⟩, ⟨?_, ?_, ?_, ?_, ?_⟩⟩⟩
  · refine ⟨hgeometry, ?_, ?_, haligned, hle⟩
    · exact hr.regionSize.trans (congrArg _ hregionSize)
    · show m.regions.length = _
      rw [hregions, List.length_map, List.length_range]
  · show (staging.shards.map ShardPath.start).length = m.appendStates.length
    rw [hshards, hr.appendStates, List.length_map, List.length_replicate, List.length_replicate,
      hshardCount]
  · intro i p shard regionId region hp hat
    obtain rfl := hshard hp
    obtain rfl := hr.idle (List.mem_of_getElem? hat.shard_eq)
    exact ⟨[], [], .start⟩
  · intro i p hp hsome
    obtain rfl := hshard hp
    cases hsome
  · intro i p candidate hp hphase
    obtain rfl := hshard hp
    cases hphase
  · intro id region hregion
    have hmem : region ∈ m.regions := List.mem_of_getElem? hregion
    rw [hregions] at hmem
    obtain ⟨i, -, rfl⟩ := List.mem_map.1 hmem
    refine ⟨?_, ?_, fun _ hmem => absurd hmem List.not_mem_nil,
      fun _ hmem => absurd hmem List.not_mem_nil⟩
    · rw [emptyRegion]
      split_ifs <;> rfl
    · rw [emptyRegion]
      split_ifs <;> rfl
  · exact fun _ => rfl
  · intro i p job hp hphase
    obtain rfl := hshard hp
    cases hphase
  · intro tok e he
    obtain ⟨hash, e₀, hmem, -⟩ := hinstalled tok e he
    exact absurd hmem List.not_mem_nil
  · intro i p job rest hp hphase
    obtain rfl := hshard hp
    cases hphase
  · intro id region g hregion hg
    right
    have hg' : (m.regions.map (·.createdSeqno))[id]? = some g := hg
    have hregion' : m.regions[id]? = some region := hregion
    rw [List.getElem?_map, hregion'] at hg'
    exact (Option.some.inj hg').symm
  · intro id region hregion
    left
    have hregion' : m.regions[id]? = some region := hregion
    show (m.regions.map (·.createdSeqno))[id]? = _
    rw [List.getElem?_map, hregion']
    rfl
  · intro w receipt hphase
    cases hrest hphase
  · intro w phase receipt hphase hreceipt
    obtain rfl := hrest hphase
    cases hreceipt
  · intro w w' phase phase' receipt receipt' hphase hreceipt
    obtain rfl := hrest hphase
    cases hreceipt
  · intro w phase hphase
    obtain rfl := hrest hphase
    trivial
  · intro i p item previous hp hitem
    obtain rfl := hshard hp
    exact absurd hitem List.not_mem_nil
  · intro i p request receipt hp hreserved
    obtain rfl := hshard hp
    cases hreserved

end Start

/-! ## Sections -/

/-- The device fails. -/
def PathAction.isFailure : PathAction → Bool
  | .deviceFail _ _ _ => true
  | _ => false

/-- A section of any thread. -/
def PathStep {crc : List UInt8 → BitVec 32} (c : PathConfig) (s s' : DataPath crc) : Prop :=
  ∃ action : PathAction, DataPath.step c s action = some s'

/-- The sequence numbers are exhausted, or the drains of a shard. -/
def DataPath.Exhausted {crc : List UInt8 → BitVec 32} (s : DataPath crc) : Prop :=
  s.manager.nextSeqno = u64Max ∨ ∃ p ∈ s.shards, 2 ^ 64 ≤ p.drainRequested + 1

/-- The invariant holds again, or the health has ended for want of numbers. -/
def KeepsOr {crc : List UInt8 → BitVec 32} (c : PathConfig) (slotCount : ℕ)
    (ranges : List IndexPartitionRange) (log : ℕ → List ValueRecord) (s s' : DataPath crc) : Prop :=
  Keeps c slotCount ranges log s s' ∨ s'.healthy = false ∧ s.Exhausted

section Sections

variable {crc : List UInt8 → BitVec 32} {c : PathConfig} {slotCount : ℕ}
  {ranges : List IndexPartitionRange} {log : ℕ → List ValueRecord} {s s' : DataPath crc} {i : ℕ}
  {p : ShardPath crc} {α : Type}

/-- The state after a section that fails. -/
lemma after_error {f : PathM crc α} {e : PathError} (h : f s = .error e s') : after f s = s' := by
  rw [after, h]

/-- The state after a section whose result is dropped. -/
lemma after_drop (f : PathM crc α) (s : DataPath crc) :
    after (do let _ ← f; pure ()) s = after f s := by
  rw [after, after, bind_apply]
  cases f s <;> rfl

/-- A section of no shard fails, and changes nothing. -/
lemma shard_bind_none (h : s.shards[i]? = none) (f : ShardPath crc → PathM crc α) :
    (shard i >>= f) s =
      .error (.io (ioError .invalidInput "data shard is out of bounds")) s := by
  rw [shard, bind_apply, get_bind, h]
  rfl

namespace PathInv

/-- A section that changes nothing. -/
lemma keeps (h : PathInv c slotCount ranges log s) : Keeps c slotCount ranges log s s :=
  ⟨log, h, .of_same le_rfl (.of_regions rfl rfl), rfl⟩

/-- A section of one shard that succeeds, and neither stages nor publishes a record. -/
lemma quiet_after (h : PathInv c slotCount ranges log s) {shard : AppendShardState}
    {regionId : ℕ} {region : RegionDesc} {fill job : List ValueRecord}
    (v : ShardView c s i shard regionId region p fill job) {f : PathM crc Unit}
    (hf : ∃ p' s', f s = .ok () s' ∧ Moved c s i regionId region p' s' ∧ ShardFrame p p') :
    Keeps c slotCount ranges log s (after f s) := by
  obtain ⟨p', s', hrun, hmoved, hframe⟩ := hf
  rw [after_eq hrun]
  exact h.quiet v hmoved hframe

/-- A section that succeeds and keeps the invariant. -/
lemma keeps_after {f : PathM crc Unit}
    (hf : ∃ s', f s = .ok () s' ∧ Keeps c slotCount ranges log s s') :
    Keeps c slotCount ranges log s (after f s) := by
  obtain ⟨s', hrun, hkeeps⟩ := hf
  rwa [after_eq hrun]

/-- What a valid record is reserved for. -/
lemma stageReserve (h : PathInv c slotCount ranges log s) {request : StageRequest crc}
    (hrequest : request.Valid) (hnew : request.reinsert = none) :
    KeepsOr c slotCount ranges log s
      (after (DataPath.stageReserve c.chunkBytes i none request) s) := by
  by_cases hle : c.chunkBytes < request.recordBytes
  · left
    have hrun : DataPath.stageReserve c.chunkBytes i none request s =
        .error (.io (ioError .invalidInput "value exceeds one Region staging buffer")) s := by
      rw [DataPath.stageReserve, rejectIf, if_pos hle]
      rfl
    rw [after_error hrun]
    exact h.keeps
  cases hp : s.shards[i]? with
  | none =>
    left
    have hrun : DataPath.stageReserve c.chunkBytes i none request s =
        .error (.io (ioError .invalidInput "data shard is out of bounds")) s := by
      rw [DataPath.stageReserve, rejectIf_bind hle]
      exact shard_bind_none hp _
    rw [after_error hrun]
    exact h.keeps
  | some p =>
    obtain ⟨shard, regionId, region, fill, job, v⟩ := h.linked.view hp
    rcases ShardLink.stageReserve v none hrequest (Nat.le_of_not_lt hle) with
      ⟨result, s', hrun, hmoved⟩ | ⟨receipt, s', hrun, -, hmoved⟩ | ⟨hnext, e, s', hhealthy, hrun⟩
    · left
      rw [after_eq hrun]
      exact h.quiet v hmoved ⟨⟨⟨rfl, rfl, rfl, fun _ _ hdrain => hdrain⟩, fun _ heq => heq,
        fun _ _ heq => heq⟩, rfl⟩
    · left
      rw [after_eq hrun]
      exact h.reserve v hmoved hnew
    · right
      rw [after_error hrun]
      exact ⟨hhealthy, .inl hnext⟩

/-- **Writing a value.** The record is reserved, or refused. -/
lemma put (h : PathInv c slotCount ranges log s) (hash : Hash) (key value : List UInt8) :
    KeepsOr c slotCount ranges log s
      (after (DataPath.put c.chunkBytes c.regionSize i hash key value) s) := by
  cases hrequest : putRequest crc hash key value with
  | error e =>
    left
    have hrun : DataPath.put c.chunkBytes c.regionSize i hash key value s =
        .error (.encode e) s := by
      rw [DataPath.put, hrequest]
      rfl
    rw [after_error hrun]
    exact h.keeps
  | ok request =>
    have hput : DataPath.put c.chunkBytes c.regionSize i hash key value s = (do
        rejectIf (c.regionSize < request.recordBytes)
          (.io (ioError .invalidInput "encoded file-chunk entry exceeds one Region"))
        let _ ← DataPath.stageReserve c.chunkBytes i none request
        pure () : PathM crc Unit) s := by
      rw [DataPath.put, hrequest]
      rfl
    rw [putRequest, except_bind_eq_ok] at hrequest
    obtain ⟨recordBytes, hrequired, hrequest⟩ := hrequest
    cases hrequest
    by_cases hlt : c.regionSize < recordBytes
    · left
      rw [after_error (hput.trans (by rw [rejectIf, if_pos hlt]; rfl))]
      exact h.keeps
    · rw [rejectIf_bind hlt] at hput
      rw [after, hput]
      have hvalid : StageRequest.Valid ⟨hash, recordBytes, .new crc key value, none⟩ :=
        ⟨hrequired, fun _ _ heq => by cases heq⟩
      have hstage := h.stageReserve (i := i) hvalid rfl
      rwa [← after_drop] at hstage

/-- **Staging.** The thread that stages a record goes on. -/
lemma stageSection (h : PathInv c slotCount ranges log s) (hp : s.shards[i]? = some p)
    {f : PathM crc Unit} (hf : DataPath.stageSection c i p.gate = some f) :
    Keeps c slotCount ranges log s (after f s) := by
  obtain ⟨shard, regionId, region, fill, job, v⟩ := h.linked.view hp
  cases hgate : p.gate with
  | free =>
    rw [hgate] at hf
    cases hf
  | worker =>
    rw [hgate] at hf
    cases hf
  | reserved owner request receipt =>
    rw [hgate] at hf
    cases hf
    obtain ⟨p', hrun⟩ := ShardLink.stageBegin v hgate
    exact h.quiet_after v ⟨p', _, hrun⟩
  | encoding owner request receipt start finish buffer =>
    rw [hgate] at hf
    cases hf
    cases owner with
    | some w => exact h.accepted v hgate
    | none =>
      obtain ⟨p', hrun, hmoved, hpending, hworker, hfree, -, hcompleted⟩ :=
        ShardLink.stageFinish v hgate
      rw [after_eq hrun]
      exact ⟨log, h.stage v hgate hmoved hpending hworker hfree hcompleted⟩

/-- A gate that is free. -/
lemma gate_of_free {gate : GatePhase crc} (h : (gate matches .free) = true) : gate = .free := by
  cases gate with
  | free => rfl
  | _ => cases h

/-- **The append worker.** It takes the next section of its loop. -/
lemma appendSection (hr : canonicalIndexPartitionRanges slotCount = .ok ranges)
    (h : PathInv c slotCount ranges log s) (hp : s.shards[i]? = some p) {act : Bool}
    {f : PathM crc Unit}
    (hf : DataPath.appendSection c i act (p.gate matches .free) s.rotation.isNone p.worker.phase =
      some f) : KeepsOr c slotCount ranges log s (after f s) := by
  obtain ⟨shard, regionId, region, fill, job, v⟩ := h.linked.view hp
  cases hphase : p.worker.phase with
  | waiting =>
    rw [hphase] at hf
    cases hf
    exact .inl (h.quiet_after v (ShardLink.workerWake v hphase))
  | awake =>
    rw [hphase] at hf
    cases hf
    cases act with
    | true => exact .inl (h.quiet_after v (ShardLink.workerSnapshot v hphase))
    | false => exact .inl (h.quiet_after v (ShardLink.workerSkip v (.inl ⟨hphase, rfl⟩)))
  | locking =>
    rw [hphase, DataPath.appendSection] at hf
    split_ifs at hf with hfree
    cases hf
    exact .inl (h.quiet_after v (ShardLink.flushReserve v hphase (gate_of_free hfree)))
  | padding receipt =>
    rw [hphase] at hf
    cases hf
    exact .inl (h.quiet_after v (ShardLink.flushPad v hphase))
  | padded receipt =>
    rw [hphase] at hf
    cases hf
    exact .inl (h.quiet_after v (ShardLink.flushSeal v hphase))
  | sealed span geometry =>
    rw [hphase] at hf
    cases hf
    exact .inl (h.quiet_after v (ShardLink.flushTake v hphase))
  | taken write geometry =>
    rw [hphase] at hf
    cases hf
    exact .inl (h.quiet_after v (ShardLink.flushSubmit v hphase))
  | writing write =>
    rw [hphase] at hf
    cases hf
  | written write =>
    rw [hphase] at hf
    cases hf
    exact .inl (keeps_after (h.complete v hphase))
  | publishing write rest =>
    rw [hphase] at hf
    cases hf
    cases rest with
    | nil => exact .inl (h.quiet_after v (ShardLink.flushFinish v hphase))
    | cons item rest => exact .inl (keeps_after (PathInv.publish hr h v hphase))
  | flushed =>
    rw [hphase, DataPath.appendSection] at hf
    split_ifs at hf with hact hfree
    · cases hf
      exact .inl (h.quiet_after v (ShardLink.rotateGate v hphase (gate_of_free hfree)))
    · cases hf
      exact .inl (h.quiet_after v (ShardLink.workerSkip v (.inr ⟨hphase, rfl⟩)))
  | gated =>
    rw [hphase, DataPath.appendSection] at hf
    split_ifs at hf with hnone
    cases hf
    left
    rcases ShardLink.rotateSelect v hphase with
      ⟨p', s', hrun, hmoved, hframe, -⟩ | ⟨candidate, hrun, hhead, hlink, hframe⟩
    · rw [after_eq hrun]
      exact h.quiet v hmoved hframe
    · rw [after_eq hrun]
      exact h.selected v (Option.isNone_iff_eq_none.1 hnone) hphase hhead hlink hframe
  | selected candidate =>
    rw [hphase] at hf
    cases hf
    rcases h.rotating v hphase with hkeeps | ⟨hnext, e, s', hhealthy, hrun⟩
    · exact .inl (keeps_after hkeeps)
    · rw [KeepsOr, after_error hrun]
      exact .inr ⟨hhealthy, .inl hnext⟩
  | activating receipt =>
    rw [hphase] at hf
    cases hf
    exact .inl (keeps_after (h.store v hphase))
  | activated receipt =>
    rw [hphase] at hf
    cases hf
    exact .inl (keeps_after (h.rotated v hphase))
  | rotated =>
    rw [hphase] at hf
    cases hf
    exact .inl (h.quiet_after v (ShardLink.workerDrain v hphase))
  | drained =>
    rw [hphase] at hf
    cases hf
    exact .inl (h.quiet_after v (ShardLink.drainComplete v hphase))

/-- A mapping is looked up. -/
lemma lookup (hr : canonicalIndexPartitionRanges slotCount = .ok ranges)
    (h : PathInv c slotCount ranges log s) (hash : Hash) :
    Keeps c slotCount ranges log s (after (DataPath.lookup hash) s) := by
  obtain ⟨result, index, hrun, hinv, hcells, -⟩ := lookupRaw_effect hr h.indexed.inv hash
  have hrun' : DataPath.lookup hash s = .ok result { s with index } := by
    rw [DataPath.lookup, DataPath.onIndex, hrun]
  rw [after_eq hrun']
  exact ⟨log, h.removed hinv fun tok e he => hcells ▸ he, .of_same le_rfl (.of_regions rfl rfl),
    rfl⟩

/-- A mapping is removed. -/
lemma deleteIndex (hr : canonicalIndexPartitionRanges slotCount = .ok ranges)
    (h : PathInv c slotCount ranges log s) (hash : Hash) :
    Keeps c slotCount ranges log s
      (after (DataPath.onIndex (RegionIndex.tryDelete crc hash)) s) := by
  obtain ⟨removed, index, hrun, hinv, -, htrue, hfalse⟩ :=
    removeMatching_effect hr h.indexed.inv hash none
  have hrun' : DataPath.onIndex (RegionIndex.tryDelete crc hash) s =
      .ok removed { s with index } := by
    rw [DataPath.onIndex, RegionIndex.tryDelete, hrun]
  rw [after_eq hrun']
  refine ⟨log, h.removed hinv fun tok e he => ?_, .of_same le_rfl (.of_regions rfl rfl), rfl⟩
  cases removed with
  | true => exact ((htrue rfl tok e).1 he).2
  | false => exact hfalse rfl ▸ he

/-- A number is taken, unless there is none. -/
lemma deleteSeqno (h : PathInv c slotCount ranges log s) :
    KeepsOr c slotCount ranges log s (after (manage RegionManager.allocateSeqno) s) := by
  by_cases hnext : s.manager.nextSeqno = u64Max
  · right
    have hrun : manage RegionManager.allocateSeqno s =
        .error (.mutation .sequenceExhausted) { s with healthy := false } := by
      have hfail : RegionManager.allocateSeqno s.manager = .error .sequenceExhausted s.manager := by
        rw [RegionManager.allocateSeqno_eq, if_pos hnext]
      rw [manage, onManager_bind_error hfail]
      rfl
    rw [after_error hrun]
    exact ⟨rfl, .inl hnext⟩
  · left
    rw [after_eq (manage_ok ((RegionManager.allocateSeqno_eq _).trans (if_neg hnext)))]
    exact h.sequenced hnext

/-- A drain is requested, unless there is no shard or the generations are exhausted. -/
lemma drainRequest (h : PathInv c slotCount ranges log s) :
    Keeps c slotCount ranges log s (after (DataPath.drainRequest i) s) := by
  cases hp : s.shards[i]? with
  | none =>
    rw [DataPath.drainRequest, after_error (shard_bind_none hp _)]
    exact h.keeps
  | some p =>
    obtain ⟨shard, regionId, region, fill, job, v⟩ := h.linked.view hp
    by_cases hlt : p.drainRequested + 1 < 2 ^ 64
    · obtain ⟨p', s', hrun, hmoved, hframe, -⟩ := ShardLink.drainRequest v hlt
      rw [after_eq hrun]
      exact h.quiet v hmoved hframe
    · have hrun : DataPath.drainRequest i s =
          .error (.io (ioError .other "shard drain generation exhausted")) s := by
        rw [DataPath.drainRequest, shard_bind hp, Word.checkedAdd, if_neg hlt]
        rfl
      rw [after_error hrun]
      exact h.keeps

/-- When the device fails, the health ends. -/
lemma deviceFail (hp : s.shards[i]? = some p) (write : StagedWrite) (returned : Bool)
    (error : IoError) : (after (DataPath.deviceFail i write returned error) s).healthy = false := by
  rw [DataPath.deviceFail, failStagedSpan]
  cases hrun : StagingShard.finish write.span
      (if returned then some (write.buffer, write.length) else none)
      write.records true p.staging with
  | ok a staging =>
    rw [after, onStaging_bind_ok hp hrun]
    rfl
  | error e staging =>
    rw [after, onStaging_bind_error hp hrun]
    rfl

/-- **The reclaim worker.** It takes the next section of its loop. -/
lemma reclaimSection (hr : canonicalIndexPartitionRanges slotCount = .ok ranges)
    (h : PathInv c slotCount ranges log s) {w : ℕ} {phase : ReclaimPhase crc}
    (hphase : s.reclaimers[w]? = some phase) (hi : i < s.shards.length) (act : Bool) :
    KeepsOr c slotCount ranges log s (after (DataPath.reclaimSection c w i act phase) s) := by
  cases phase with
  | idle => exact .inl (h.begin hphase)
  | begun receipt => exact .inl (h.read hphase hi act)
  | scanning scan => exact .inl (PathInv.classify hr h hphase)
  | classified scan scanned =>
    rcases h.offer hphase act with hkeeps | ⟨hended, hnext⟩
    · exact .inl hkeeps
    · exact .inr ⟨hended, .inl hnext⟩
  | offering scan scanned record => exact .inl h.keeps
  | dropping scan scanned => exact .inl (PathInv.drop hr h hphase)
  | scanned scan =>
    rcases h.scanned hphase with hkeeps | ⟨hended, hdrain⟩
    · exact .inl hkeeps
    · exact .inr ⟨hended, .inr hdrain⟩
  | draining scan generation => exact .inl (h.wait hphase)
  | emptied receipt => exact .inl (h.clear hphase)
  | cleared receipt => exact .inl (h.finish hphase)

/-! ## Steps and runs -/

/-- **Steps.** A section of any thread keeps the invariant, or ends the health: the device has
failed, or the numbers are exhausted. -/
theorem step (hr : canonicalIndexPartitionRanges slotCount = .ok ranges)
    (h : PathInv c slotCount ranges log s) {action : PathAction}
    (hstep : DataPath.step c s action = some s') :
    KeepsOr c slotCount ranges log s s' ∨ s'.healthy = false ∧ action.isFailure = true := by
  rw [DataPath.step] at hstep
  split_ifs at hstep
  obtain ⟨f, hf, rfl⟩ := Option.map_eq_some_iff.1 hstep
  cases action with
  | put shardId hash key value =>
    cases hf
    exact .inl (h.put hash key value)
  | stage shardId =>
    obtain ⟨p, hp, hf⟩ := Option.bind_eq_some_iff.1 hf
    exact .inl (.inl (h.stageSection hp hf))
  | deleteSeqno =>
    cases hf
    left
    rw [after_drop]
    exact h.deleteSeqno
  | deleteIndex hash =>
    cases hf
    left
    rw [after_drop]
    exact .inl (PathInv.deleteIndex hr h hash)
  | lookup hash =>
    cases hf
    left
    rw [after_drop]
    exact .inl (PathInv.lookup hr h hash)
  | requestDrain shardId =>
    cases hf
    left
    rw [after_drop]
    exact .inl h.drainRequest
  | append shardId act =>
    obtain ⟨p, hp, hf⟩ := Option.bind_eq_some_iff.1 hf
    exact .inl (PathInv.appendSection hr h hp hf)
  | deviceWrite shardId start length =>
    obtain ⟨p, hp, hf⟩ := Option.bind_eq_some_iff.1 hf
    obtain ⟨shard, regionId, region, fill, job, v⟩ := h.linked.view hp
    unfold deviceSection at hf
    split at hf
    · rename_i write hphase
      dsimp only at hf
      split_ifs at hf with hle
      cases hf
      exact .inl (.inl (keeps_after (h.deviceWrite v hphase hle)))
    · cases hf
  | deviceDone shardId =>
    obtain ⟨p, hp, hf⟩ := Option.bind_eq_some_iff.1 hf
    obtain ⟨shard, regionId, region, fill, job, v⟩ := h.linked.view hp
    unfold deviceSection at hf
    split at hf
    · rename_i write hphase
      cases hf
      exact .inl (.inl (keeps_after (h.deviceDone v hphase)))
    · cases hf
  | deviceFail shardId returned error =>
    obtain ⟨p, hp, hf⟩ := Option.bind_eq_some_iff.1 hf
    unfold deviceSection at hf
    split at hf
    · cases hf
      exact .inr ⟨deviceFail hp _ returned error, rfl⟩
    · cases hf
  | reclaim workerId shardId act =>
    obtain ⟨phase, hphase, hf⟩ := Option.bind_eq_some_iff.1 hf
    split_ifs at hf with hlt
    cases hf
    exact .inl (PathInv.reclaimSection hr h hphase hlt act)

/-- **Runs.** The invariant holds as long as the store is healthy, of logs that are later. -/
theorem run (hr : canonicalIndexPartitionRanges slotCount = .ok ranges)
    (h : PathInv c slotCount ranges log s) (hrun : Relation.ReflTransGen (PathStep c) s s')
    (hhealthy : s'.healthy = true) :
    ∃ log', PathInv c slotCount ranges log' s' ∧ Later log s log' s' := by
  induction hrun with
  | refl => exact ⟨log, h, .of_same le_rfl (.of_regions rfl rfl)⟩
  | @tail mid s' _ hlast ih =>
    obtain ⟨action, hstep⟩ := hlast
    have hmid : mid.healthy = true := by
      by_contra hne
      rw [DataPath.step, if_neg hne] at hstep
      cases hstep
    obtain ⟨log', hinv, hlater⟩ := ih hmid
    rcases PathInv.step hr hinv hstep with (⟨log'', hinv', hlater', -⟩ | ⟨hended, -⟩) | ⟨hended, -⟩
    · have hlen : mid.manager.regions.length = s.manager.regions.length :=
        hinv.linked.fits.count_eq.trans h.linked.fits.count_eq.symm
      exact ⟨log'', hinv', hlater.trans hlater' hlen⟩
    · cases hhealthy.symm.trans hended
    · cases hhealthy.symm.trans hended

end PathInv

end Sections

/-! ## The sample -/

section Sample

variable {crc : List UInt8 → BitVec 32} {c : PathConfig} {s s' : DataPath crc}

/-- Sections one after another, as long as no thread has to wait. -/
def DataPath.steps (c : PathConfig) (s : DataPath crc) (actions : List PathAction) :
    Option (DataPath crc) :=
  actions.foldlM (DataPath.step c) s

/-- Sections one after another are a run. -/
lemma DataPath.run_of_steps {actions : List PathAction} (h : s.steps c actions = some s') :
    Relation.ReflTransGen (PathStep c) s s' := by
  induction actions generalizing s with
  | nil =>
    obtain rfl := Option.some.inj h
    exact .refl
  | cons action actions ih =>
    rw [steps, List.foldlM_cons] at h
    obtain ⟨mid, hmid, hrest⟩ := Option.bind_eq_some_iff.1 h
    exact .head ⟨action, hmid⟩ (ih hrest)

/-- A value is put and its page is written; the mapping is published. -/
def samplePublish (hash : Hash) : List PathAction :=
  [.put 0 hash [] [1], .stage 0, .stage 0] ++ List.replicate 7 (.append 0 true) ++
    [.deviceDone 0] ++ List.replicate 2 (.append 0 true)

/-- The Region is full, so that the next value asks for another one, which is activated. -/
def sampleActivate : List PathAction :=
  [.append 0 true, .put 0 5 [] [1]] ++ List.replicate 6 (.append 0 true)

/-- A record in the first Region and one in the second; then the first one is emptied. -/
def samplePathActions : List PathAction :=
  samplePublish 1 ++ sampleActivate ++ samplePublish 2 ++ sampleActivate ++
    List.replicate 5 (.reclaim 0 0 true)

/-- The sample, started on a data file of zeroes. -/
def samplePath : Option (DataPath fun _ => 0) :=
  match PartitionedIndexStorage.anonymous 8,
    RegionManager.configureReclaimWorkers 1 sampleManager with
  | .ok storage, .ok () m => some
    { manager := m
      index := .fromStorage storage
      disk := List.replicate 16384 0
      generations := m.regions.map (·.createdSeqno)
      shards := [.start ⟨⟨.fixed, 4096, 4096⟩, ⟨.fixed, 4096, 4096⟩, maxStagingRecords,
        maxStagingRecords⟩]
      reclaimers := [.idle]
      rotation := none
      healthy := true }
  | _, _ => none

/-- The sample starts cold. -/
lemma samplePath_start : ∃ s₀, samplePath = some s₀ ∧
    ColdStart ⟨4096, sampleData.geometry⟩ 8 s₀ := by
  obtain ⟨⟨shards, chunkBytes, regionSize, memory⟩, memory', hstaging⟩ := sampleStaging
  obtain ⟨-, -, hshards⟩ := AppendStaging.tryNew_eq_ok hstaging
  dsimp only at hshards
  subst hshards
  exact ⟨_, rfl, .intro (show sampleData.isValid = true by decide)
    (show emptyRegionMetadata sampleData 8 1 = .ok sampleTable by decide +kernel)
    (show RegionManager.fromMetadata sampleTable = .ok sampleManager by decide +kernel)
    (show RegionManager.configureReclaimWorkers 1 sampleManager = .ok () _ from rfl)
    (show PartitionedIndexStorage.anonymous 8 = .ok _ from rfl) hstaging
    (show (List.replicate 16384 (0 : UInt8)).length = 16384 from List.length_replicate)⟩

end Sample

/-! ## What is so after every run -/

/-- What a mapping leads to: a record that stands on the disk where the mapping says, in the
completed prefix of a Region, with the generation that a reader of the mapping is given. -/
structure LeadsTo {crc : List UInt8 → BitVec 32} (c : PathConfig)
    (ranges : List IndexPartitionRange) (s : DataPath crc) (tok : Token) (e : IndexEntry)
    (region : RegionDesc) (record : ValueRecord) : Prop where
  region_eq : s.manager.regions[e.location.regionId]? = some region
  end_le : e.location.offset + record.recordLen ≤ region.completedUsed
  slice_eq : slice s.disk (c.geometry.regionBase e.location.regionId + e.location.offset)
    record.recordLen = record.bytes crc
  generation_eq : record.generation = .ofNat 64 region.createdSeqno
  token_eq : tokenOf ranges record.keyHash = tok
  class_eq : recordSizeClass record.recordLen = some e.location.indexSizeClass
  candidate_eq : ∀ candidate, s.readCandidate e = some candidate →
    candidate = ⟨e, region.createdSeqno⟩

section Safety

variable {crc : List UInt8 → BitVec 32} {c : PathConfig} {slotCount indexSlots : ℕ}
  {ranges : List IndexPartitionRange} {log log' : ℕ → List ValueRecord} {s₀ s s' : DataPath crc}

/-- No mapping dangles. -/
lemma PathInv.leadsTo (h : PathInv c slotCount ranges log s) {tok : Token} {e : IndexEntry}
    (he : Holds s.index.cells tok e) : ∃ region record, LeadsTo c ranges s tok e region record := by
  obtain ⟨record, hat, htok, hclass⟩ := h.indexed.named tok e he
  cases hregion : s.manager.regions[e.location.regionId]? with
  | none =>
    -- outside the data file, the logs are empty
    rw [h.stored.outside hregion] at hat
    exact absurd hat.mem List.not_mem_nil
  | some region =>
    have hcontent := h.stored.content hregion
    have hend := hat.le_length
    have hlen : (text (ValueRecord.bytes crc) (log e.location.regionId)).length ≤
        region.completedUsed := by
      rw [← hcontent.slice_eq, slice, List.length_take]
      exact Nat.min_le_left _ _
    rw [ValueRecord.length_bytes] at hend
    refine ⟨region, record, hregion, by omega, ?_, hcontent.generation_eq record hat.mem, htok,
      hclass, fun candidate hcandidate => ?_⟩
    · have hslice := hat.slice_text
      rw [← hcontent.slice_eq, slice_slice _ (by rw [ValueRecord.length_bytes]; omega),
        ValueRecord.length_bytes] at hslice
      exact hslice
    · obtain ⟨g, hg, rfl⟩ := Option.map_eq_some_iff.1 hcandidate
      obtain ⟨hg, hne⟩ := Option.filter_eq_some_iff.1 hg
      rcases h.generated.eq hregion hg with rfl | rfl
      · cases hne
      · rfl

/-- What has been completed stays where it is, as long as its Region is not activated again. -/
lemma Later.slice_grows (h : PathInv c slotCount ranges log s)
    (h' : PathInv c slotCount ranges log' s') (hlater : Later log s log' s') {id : ℕ}
    {region region' : RegionDesc} (hregion : s.manager.regions[id]? = some region)
    (hregion' : s'.manager.regions[id]? = some region')
    (hcreated : region'.createdSeqno = region.createdSeqno) :
    slice s.disk (c.geometry.regionBase id) region.completedUsed <+:
      slice s'.disk (c.geometry.regionBase id) region'.completedUsed := by
  rw [(h.stored.content hregion).slice_eq, (h'.stored.content hregion').slice_eq]
  obtain ⟨hlt, -, -, hpos⟩ := h.linked.inv.regions region (List.mem_of_getElem? hregion)
  rcases hlater.grows hregion hregion' with ⟨-, hgrows⟩ | hzero | hle
  · obtain ⟨more, hmore⟩ := hgrows
    rw [← hmore, text_append]
    exact List.prefix_append _ _
  · -- a Region without a generation is free, and its log is empty
    have hfree : region.state = .free := by
      by_contra hne
      exact absurd (hpos hne) (by omega)
    have hcount := (h.stored.content hregion).count_eq
    rw [h.linked.inv.eq_empty hregion hfree] at hcount
    rw [List.length_eq_zero_iff.1 hcount]
    exact List.nil_prefix
  · omega

/-- **Safety of the data path.** A store is started on an empty data file, and foreground threads,
append workers, reclaim workers and the device take their sections in any order. As long as it is
healthy:

* every mapping of the index leads to a record that stands on the disk, in the completed prefix of
  a Region, and a reader of the mapping is given the generation of that record, or none;
* no mapping leads into a Region that a reclaim worker is about to clear or has cleared;
* what a Region has completed is not overwritten while the Region keeps its generation, however the
  run goes on;
* the health ends only when the device fails, or the sequence numbers or the drains of a shard are
  exhausted. -/
theorem dataPath_safety (hstart : ColdStart c indexSlots s₀)
    (hrun : Relation.ReflTransGen (PathStep c) s₀ s) (hhealthy : s.healthy = true) :
    ∃ ranges, canonicalIndexPartitionRanges indexSlots = .ok ranges ∧
      (∀ tok e, Holds s.index.cells tok e →
        ∃ region record, LeadsTo c ranges s tok e region record) ∧
      (∀ (w : ℕ) (receipt : RegionReclaimReceipt), s.reclaimers[w]? = some (.emptied receipt) ∨
        s.reclaimers[w]? = some (.cleared receipt) → ∀ tok e, Holds s.index.cells tok e →
          e.location.regionId ≠ receipt.regionId) ∧
      (∀ s', Relation.ReflTransGen (PathStep c) s s' → s'.healthy = true →
        ∀ (id : ℕ) (region region' : RegionDesc), s.manager.regions[id]? = some region →
          s'.manager.regions[id]? = some region' → region'.createdSeqno = region.createdSeqno →
          slice s.disk (c.geometry.regionBase id) region.completedUsed <+:
            slice s'.disk (c.geometry.regionBase id) region'.completedUsed) ∧
      ∀ (action : PathAction) (s' : DataPath crc), DataPath.step c s action = some s' →
        s'.healthy = false → s.Exhausted ∨ action.isFailure = true := by
  obtain ⟨ranges, hr, h₀⟩ := PathInv.of_coldStart hstart
  obtain ⟨log, h, -⟩ := PathInv.run hr h₀ hrun hhealthy
  refine ⟨ranges, hr, fun tok e he => h.leadsTo he, ?_, ?_, ?_⟩
  · rintro w receipt (hphase | hphase)
    · exact h.reclaims.link hphase
    · exact h.reclaims.link hphase
  · intro s' hrun' hhealthy' id region region' hregion hregion' hcreated
    obtain ⟨log', h', hlater⟩ := PathInv.run hr h hrun' hhealthy'
    exact hlater.slice_grows h h' hregion hregion' hcreated
  · intro action s' hstep hended
    rcases PathInv.step hr h hstep with (⟨-, -, -, hkept⟩ | ⟨-, hexhausted⟩) | ⟨-, hfail⟩
    · cases (hkept.trans hhealthy).symm.trans hended
    · exact .inl hexhausted
    · exact .inr hfail

/-- In the sample, the mapping of the second Region leads to its record, while a reclaim worker is
about to clear the first Region. -/
theorem dataPath_safety_sample : ∃ (s₀ s : DataPath fun _ => 0)
    (ranges : List IndexPartitionRange) (tok : Token) (e : IndexEntry) (region : RegionDesc)
    (record : ValueRecord) (receipt : RegionReclaimReceipt),
    ColdStart ⟨4096, sampleData.geometry⟩ 8 s₀ ∧
      Relation.ReflTransGen (PathStep ⟨4096, sampleData.geometry⟩) s₀ s ∧ s.healthy = true ∧
      canonicalIndexPartitionRanges 8 = .ok ranges ∧ Holds s.index.cells tok e ∧
      LeadsTo ⟨4096, sampleData.geometry⟩ ranges s tok e region record ∧
      s.reclaimers[0]? = some (.emptied receipt) ∧ e.location.regionId ≠ receipt.regionId := by
  obtain ⟨s₀, hs₀, hstart⟩ := samplePath_start
  have hends : ((samplePath.bind fun s₀ => s₀.steps ⟨4096, sampleData.geometry⟩
      samplePathActions).any fun s => s.healthy && (s.index.cells (0, 7)).isSome &&
        (s.reclaimers[0]?.any fun phase => phase matches .emptied _)) = true := by
    decide +kernel
  obtain ⟨s, hsteps, hs⟩ := (Option.any_eq_true _ _).1 hends
  rw [hs₀, Option.bind_some] at hsteps
  simp only [Bool.and_eq_true] at hs
  obtain ⟨⟨hhealthy, hcell⟩, hemptied⟩ := hs
  obtain ⟨⟨tok, e⟩, hcell⟩ := Option.isSome_iff_exists.1 hcell
  obtain ⟨receipt, hphase⟩ : ∃ receipt, s.reclaimers[0]? = some (.emptied receipt) := by
    obtain ⟨phase, hphase, hmatches⟩ := (Option.any_eq_true _ _).1 hemptied
    cases phase with
    | emptied receipt => exact ⟨receipt, hphase⟩
    | _ => cases hmatches
  have hrun := DataPath.run_of_steps hsteps
  obtain ⟨ranges, hr, hleads, hclear, -⟩ := dataPath_safety hstart hrun hhealthy
  have hholds : Holds s.index.cells tok e := ⟨_, hcell⟩
  obtain ⟨region, record, hleadsTo⟩ := hleads tok e hholds
  exact ⟨s₀, s, ranges, tok, e, region, record, receipt, hstart, hrun, hhealthy, hr, hholds,
    hleadsTo, hphase, hclear 0 receipt (.inl hphase) tok e hholds⟩

end Safety

end Cache2

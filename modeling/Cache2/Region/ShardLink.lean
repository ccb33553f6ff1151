import Cache2.Region.DataPath
import Cache2.Region.Rotation

set_option relaxedAutoImplicit false
set_option autoImplicit false

/-!
# A shard of the data path

The manager and the staging area each know what a shard has outstanding. Between two sections they
agree, in a way that depends on where the holder of the gate and the append worker are.

## Main definitions

* `Cache2.WorkerPhase.submitted?`, `Cache2.WorkerPhase.padding?`, `Cache2.WorkerPhase.rotation?`,
  `Cache2.ShardPath.opened` — what the manager has outstanding, read off the phases.
* `Cache2.ReservedFor` — a record that is about to be encoded.
* `Cache2.JobLink` — a chunk on its way to the device.
* `Cache2.ShardLink` — the agreement.

* `Cache2.ShardMove`, `Cache2.Moved` — a shard moves on, and the manager with it.
* `Cache2.DrainInv` — what a drain promises.

## Main results

* `Cache2.reserveAppend_cases` … `Cache2.finishReclaim_run` — what the manager does for a shard that
  is where its worker thinks it is.
-/

namespace Cache2

open Bytes Loop Framing

/-! ## What a phase says -/

namespace WorkerPhase

/-- The worker holds the gate. -/
def holdsGate : WorkerPhase → Bool
  | .padding _ | .padded _ | .sealed _ _ | .gated | .selected _ | .activating _ => true
  | _ => false

/-- The chunk that the worker has taken. -/
def job? : WorkerPhase → Option StagedWrite
  | .taken job _ | .writing job | .written job | .publishing job _ => some job
  | _ => none

/-- The span that the manager takes for submitted. -/
def submitted? : WorkerPhase → Option RegionWriteSpan
  | .sealed span _ => some span
  | .taken job _ | .writing job | .written job => some job.span
  | _ => none

/-- The padding that is reserved. -/
def padding? : WorkerPhase → Option RegionPaddingReceipt
  | .padding receipt | .padded receipt => some receipt
  | _ => none

/-- The rotation that has begun. -/
def rotation? : WorkerPhase → Option RegionRotationReceipt
  | .activating receipt | .activated receipt => some receipt
  | _ => none

/-- What the worker does under the rotation lock. -/
def rotating? : WorkerPhase → Option (RegionRotationCandidate ⊕ RegionRotationReceipt)
  | .selected candidate => some (.inl candidate)
  | .activating receipt => some (.inr receipt)
  | _ => none

/-- The chunk that is being filled is not empty. -/
def seesRecords : WorkerPhase → Bool
  | .locking | .padding _ | .padded _ | .sealed _ _ => true
  | _ => false

/-- The phase says nothing of its own about what is open. -/
def isPlain : WorkerPhase → Bool
  | .padded _ | .sealed _ _ | .selected _ => false
  | _ => true

/-- What the rest of the shard sees of a phase. -/
def outline (phase : WorkerPhase) : Option RegionPaddingReceipt × Option RegionWriteSpan ×
    Option RegionRotationReceipt × Bool × Option StagedWrite :=
  (phase.padding?, phase.submitted?, phase.rotation?, phase.holdsGate, phase.job?)

/-- The taken records that are not published yet. -/
def waitingRecords : WorkerPhase → List StagedRecord
  | .taken job _ | .writing job | .written job => job.records.items
  | .publishing _ rest => rest
  | _ => []

/-- The rotation lock is taken under the gate. -/
lemma rotating_eq_none {phase : WorkerPhase} (h : phase.holdsGate = false) :
    phase.rotating? = none := by
  cases phase <;> first | rfl | cases h

/-- Without a chunk, no taken records wait. -/
lemma waitingRecords_eq_nil {phase : WorkerPhase} (h : phase.job? = none) :
    phase.waitingRecords = [] := by
  cases phase <;> first | rfl | cases h

end WorkerPhase

/-- The open span for what a chunk holds. -/
def FillChunk.opened (fill : FillChunk) : Option OpenWriteSpan :=
  if fill.isEmpty then none
  else some ⟨fill.regionId, fill.startOffset, fill.endOffset, fill.records.items.length,
    fill.maxSeqno⟩

/-- The span for what a chunk holds. -/
def FillChunk.span (fill : FillChunk) (shardId regionId : ℕ) : RegionWriteSpan :=
  ⟨shardId, regionId, fill.startOffset, fill.endOffset, fill.records.items.length, fill.maxSeqno⟩

/-- The open span for what a chunk holds and one more record. -/
def FillChunk.openedWith (fill : FillChunk) (receipt : RegionAppendReservation) : OpenWriteSpan :=
  ⟨receipt.regionId, if fill.isEmpty then receipt.offset else fill.startOffset,
    receipt.offset + receipt.recordBytes, fill.records.items.length + 1, receipt.seqno⟩

namespace ShardPath

variable {crc : List UInt8 → BitVec 32}

/-- The shard with another phase of the worker. -/
def goto (p : ShardPath crc) (phase : WorkerPhase) : ShardPath crc :=
  { p with worker := { p.worker with phase } }

/-- The span that the manager has open. -/
def opened (p : ShardPath crc) : Option OpenWriteSpan :=
  match p.gate, p.worker.phase with
  | .reserved _ _ receipt, _ => some (p.staging.fill.openedWith receipt)
  | .encoding _ _ receipt _ _ _, _ => some (p.staging.fill.openedWith receipt)
  | _, .padded receipt => p.staging.fill.opened.map fun o =>
      { o with endOffset := receipt.unpaddedEndOffset }
  | _, .sealed _ _ => none
  | _, _ => p.staging.fill.opened

/-- The buffer of the chunk, which the encoder may have. -/
def HoldsBuffer (p : ShardPath crc) (buffer : List UInt8) : Prop :=
  match p.gate with
  | .encoding _ _ receipt _ _ taken =>
    taken = buffer ∧ p.staging.fill.buffer = none ∧ p.staging.encoding = some receipt
  | _ => p.staging.fill.buffer = some buffer ∧ p.staging.encoding = none

/-- The record that a thread has reserved. -/
def reserved? (p : ShardPath crc) : Option (StageRequest crc × RegionAppendReservation) :=
  match p.gate with
  | .reserved _ request receipt => some (request, receipt)
  | .encoding _ request receipt _ _ _ => some (request, receipt)
  | _ => none

/-- The reclaim worker whose record is reserved. -/
def owner? (p : ShardPath crc) : Option ℕ :=
  match p.gate with
  | .reserved owner _ _ => owner
  | .encoding owner _ _ _ _ _ => owner
  | _ => none

end ShardPath

/-- A record that is not published yet: the hash, the number and the mapping that is replaced. -/
abbrev PendingRecord := Hash × ℕ × Option PackedLocation

/-- What of a staged record does not change until it is published. -/
def StagedRecord.pending (item : StagedRecord) : PendingRecord :=
  (item.hash, item.seqno, item.previous)

namespace ShardPath

variable {crc : List UInt8 → BitVec 32}

/-- The records in the chunk that is being filled. -/
def filling (p : ShardPath crc) : List PendingRecord :=
  p.staging.fill.records.items.map StagedRecord.pending

/-- The records that are not published yet, in the order of their publication. -/
def pending (p : ShardPath crc) : List PendingRecord :=
  p.worker.phase.waitingRecords.map StagedRecord.pending ++ p.filling

end ShardPath

/-- Once the drain `g` is completed, no record with the property is left. On the way there, no such
record is left when the worker has drained the shard, nor behind the last flush for that drain. -/
structure DrainInv {crc : List UInt8 → BitVec 32} (P : PendingRecord → Prop) (g : ℕ)
    (p : ShardPath crc) : Prop where
  completed : g ≤ p.drainCompleted → ∀ item ∈ p.pending, ¬ P item
  drained : p.worker.phase = .drained → g ≤ p.worker.drain → ∀ item ∈ p.pending, ¬ P item
  last : p.worker.last = true → p.worker.phase.job?.isSome = true → g ≤ p.worker.drain →
    ∀ item ∈ p.filling, ¬ P item

/-! ## The agreement -/

/-- What may be asked for: the length is the one that the key and the value require, and a
reinsertion has a number and a location. -/
structure StageRequest.Valid {crc : List UInt8 → BitVec 32} (request : StageRequest crc) :
    Prop where
  required : requiredRecordBytes request.payload.key.length request.payload.value.length =
    .ok request.recordBytes
  logical : ∀ logicalSeqno previous, request.reinsert = some (logicalSeqno, previous) →
    logicalSeqno ≠ 0 ∧ logicalSeqno < 2 ^ 64 ∧ previous.raw < 2 ^ 60

/-- A record that has been reserved fits behind those in the chunk. -/
structure ReservedFor {crc : List UInt8 → BitVec 32} (c : PathConfig) (regionId generation : ℕ)
    (chunk : FillChunk) (fill : List ValueRecord) (request : StageRequest crc)
    (receipt : RegionAppendReservation) : Prop where
  region_eq : receipt.regionId = regionId
  created_eq : receipt.regionCreatedSeqno = generation
  bytes_eq : receipt.recordBytes = request.recordBytes
  valid : request.Valid
  room : (text (ValueRecord.bytes crc) fill).length + request.recordBytes ≤ c.chunkBytes
  count_lt : chunk.records.items.length < maxStagingRecords
  next : fill ≠ [] → receipt.offset = chunk.endOffset
  seqno_lt : chunk.maxSeqno < receipt.seqno ∧ receipt.seqno < 2 ^ 64
  created_le : generation ≤ receipt.seqno
  offset_aligned : receipt.offset % 32 = 0
  end_le : receipt.offset + receipt.recordBytes ≤ c.regionSize

/-- A chunk on its way to the device holds the records of its span. -/
structure JobLink (crc : List UInt8 → BitVec 32) (c : PathConfig)
    (shardId regionId generation : ℕ) (job : StagedWrite) (records : List ValueRecord) : Prop where
  shard_eq : job.span.shardId = shardId
  region_eq : job.span.regionId = regionId
  ne_nil : records ≠ []
  staged : Staged regionId records job.records.items job.span.startOffset
  bytes_eq : job.bytes = text (ValueRecord.bytes crc) records
  buffer_eq : job.buffer.length = c.chunkBytes
  length_eq : job.length = (text (ValueRecord.bytes crc) records).length
  end_eq : job.span.endOffset = job.span.startOffset + job.length
  end_le : job.span.endOffset ≤ c.regionSize
  count_eq : job.span.recordCount = job.records.items.length
  count_le : job.records.items.length ≤ maxStagingRecords
  absolute_eq : job.absolute = c.geometry.regionBase regionId + job.span.startOffset
  matches_eq : spanMatchesRecords job.span job.records.items = true
  capacity_le : maxStagingRecords ≤ job.records.capacity
  generation_eq : ∀ record ∈ records, record.generation = .ofNat 64 generation

/-- The manager and the staging area agree on a shard: `fill` are the records in the chunk that is
being filled, `job` those in the chunk on its way to the device. -/
structure ShardLink {crc : List UInt8 → BitVec 32} (c : PathConfig) (shardId : ℕ)
    (shard : AppendShardState) (regionId generation : ℕ) (p : ShardPath crc)
    (fill job : List ValueRecord) : Prop where
  isOpen : p.staging.IsOpen
  tail_eq : shard.tail = none
  padding_eq : shard.pendingPadding = p.worker.phase.padding?
  submitted_eq : shard.submittedSpan = p.worker.phase.submitted?
  rotation_eq : shard.rotation = p.worker.phase.rotation?
  opened_eq : shard.openSpan = p.opened
  gate_iff : p.gate = .worker ↔ p.worker.phase.holdsGate = true
  filled : ∃ buffer, p.HoldsBuffer buffer ∧
    FillInv crc c.chunkBytes regionId generation p.staging.fill buffer fill
  seen : p.worker.phase.seesRecords = true → fill ≠ []
  reserved : ∀ request receipt, p.reserved? = some (request, receipt) →
    ReservedFor c regionId generation p.staging.fill fill request receipt
  encoding : ∀ owner request receipt start finish buffer,
    p.gate = .encoding owner request receipt start finish buffer →
    start = (text (ValueRecord.bytes crc) fill).length ∧ finish = start + receipt.recordBytes
  spare : p.worker.phase.job? = none → p.staging.submitted = none ∧ ∃ buffer records,
    p.staging.spareBuffer = some buffer ∧ buffer.length = c.chunkBytes ∧
    p.staging.spareRecords = some records ∧ maxStagingRecords ≤ records.capacity
  taken : ∀ write, p.worker.phase.job? = some write → p.staging.submitted = some write.span ∧
    p.staging.spareBuffer = none ∧ p.staging.spareRecords = none ∧
    JobLink crc c shardId regionId generation write job
  sealed : ∀ span geometry, p.worker.phase = .sealed span geometry →
    span = p.staging.fill.span shardId regionId
  padded : ∀ receipt, p.worker.phase = .padded receipt →
    p.staging.fill.endOffset = receipt.paddedEndOffset
  published : ∀ write rest, p.worker.phase = .publishing write rest →
    rest <:+ write.records.items
  geometry_eq : ∀ geometry, ((∃ span, p.worker.phase = .sealed span geometry) ∨
    ∃ write, p.worker.phase = .taken write geometry) → geometry = c.geometry
  selected : ∀ candidate, p.worker.phase = .selected candidate → shard.rotationRequested = true ∧
    shard.openSpan = none ∧ candidate.shardId = shardId ∧ candidate.victimCreatedSeqno = 0
  counted : p.worker.drain ≤ p.drainRequested ∧ p.drainCompleted ≤ p.drainRequested

/-! ## What the pieces of a section do -/

namespace DataPath

section Pieces

variable {crc : List UInt8 → BitVec 32} {s : DataPath crc} {i : ℕ} {p : ShardPath crc}
  {α β : Type} {a : α}

/-- The shard that has been put. -/
lemma shards_setShard (h : s.shards[i]? = some p) (p' : ShardPath crc) :
    (s.setShard i p').shards[i]? = some p' :=
  List.getElem?_set_self (List.getElem?_eq_some_iff.1 h).1

/-- The shards do not depend on the manager. -/
lemma shards_manager (h : s.shards[i]? = some p) (m : RegionManager) :
    { s with manager := m }.shards[i]? = some p := h

/-- The last shard that has been put stays. -/
@[simp] lemma setShard_setShard (p' p'' : ShardPath crc) :
    (s.setShard i p').setShard i p'' = s.setShard i p'' := by
  simp only [setShard, List.set_set]

/-- A shard that is there. -/
lemma shard_bind (h : s.shards[i]? = some p) (f : ShardPath crc → PathM crc β) :
    (shard i >>= f) s = f p s := by
  refine bind_ok ?_
  rw [shard, get_bind, h]
  rfl

/-- Moving the holder of a gate on. -/
lemma setGate_ok (h : s.shards[i]? = some p) (gate : GatePhase crc) :
    setGate i gate s = .ok () (s.setShard i { p with gate }) := by
  rw [setGate, shard_bind h]
  rfl

/-- Moving an append worker on. -/
lemma setPhase_ok (h : s.shards[i]? = some p) (phase : WorkerPhase) :
    setPhase i phase s = .ok () (s.setShard i (p.goto phase)) := by
  rw [setPhase, shard_bind h]
  rfl

/-- A section of the manager that succeeds. -/
lemma onManager_bind_ok {f : ManagerM α} {m : RegionManager} (h : f s.manager = .ok a m)
    (g : Except RegionMutationError α → PathM crc β) :
    (onManager f >>= g) s = g (.ok a) { s with manager := m } := by
  refine bind_ok ?_
  rw [onManager, h]

/-- A section of the manager that fails. -/
lemma onManager_bind_error {f : ManagerM α} {e : RegionMutationError} {m : RegionManager}
    (h : f s.manager = .error e m) (g : Except RegionMutationError α → PathM crc β) :
    (onManager f >>= g) s = g (.error e) { s with manager := m } := by
  refine bind_ok ?_
  rw [onManager, h]

/-- A manager operation that succeeds. -/
lemma manage_ok {f : ManagerM α} {m : RegionManager} (h : f s.manager = .ok a m) :
    manage f s = .ok a { s with manager := m } := by
  rw [manage, onManager_bind_ok h]
  rfl

/-- A manager operation that fails ends the health. -/
lemma manage_bind_error {f : ManagerM α} {e : RegionMutationError} {m : RegionManager}
    (h : f s.manager = .error e m) (g : α → PathM crc β) :
    (manage f >>= g) s = .error (.mutation e) { s with manager := m, healthy := false } := by
  rw [bind_apply, manage, onManager_bind_error h]
  rfl

/-- A section of a staging shard that succeeds. -/
lemma onStaging_bind_ok {ε : Type} (hp : s.shards[i]? = some p) {f : EStateM ε StagingShard α}
    {staging : StagingShard} (h : f p.staging = .ok a staging) (g : Except ε α → PathM crc β) :
    (onStaging i f >>= g) s = g (.ok a) (s.setShard i { p with staging }) := by
  refine bind_ok ?_
  rw [onStaging, shard_bind hp, h]
  rfl

/-- A section of a staging shard that fails. -/
lemma onStaging_bind_error {ε : Type} (hp : s.shards[i]? = some p) {f : EStateM ε StagingShard α}
    {e : ε} {staging : StagingShard} (h : f p.staging = .error e staging)
    (g : Except ε α → PathM crc β) :
    (onStaging i f >>= g) s = g (.error e) (s.setShard i { p with staging }) := by
  refine bind_ok ?_
  rw [onStaging, shard_bind hp, h]
  rfl

/-- An operation of the index that succeeds. -/
lemma onIndex_bind_ok {f : IndexM α} {index : RegionIndex} (h : f s.index = .ok a index)
    (g : α → PathM crc β) : (onIndex f >>= g) s = g a { s with index } := by
  refine bind_ok ?_
  rw [onIndex, h]

/-- The state after a section that succeeds. -/
lemma after_eq {f : PathM crc α} {s' : DataPath crc} (h : f s = .ok a s') : after f s = s' := by
  rw [after, h]

end Pieces

end DataPath

/-! ## What a section of one shard does -/

/-- The configuration is that of the manager. -/
structure PathConfig.Fits (c : PathConfig) (m : RegionManager) : Prop where
  valid : c.geometry.isValid = true
  size_eq : m.regionSize = c.regionSize
  count_eq : m.regions.length = c.geometry.regionCount.toNat
  chunk_aligned : c.chunkBytes % 4096 = 0
  chunk_le : c.chunkBytes ≤ c.regionSize

/-- A manager in which one shard and its Region have moved on. -/
structure ShardMove (i regionId : ℕ) (m : RegionManager) (region : RegionDesc) (m' : RegionManager)
    (shard' : AppendShardState) (region' : RegionDesc) : Prop where
  eq_put : m' = m.put i regionId shard' region' m'.nextSeqno
  shardAt : m'.ShardAt i shard' regionId region'
  inv : ManagerInv m'
  space : RecordSpace 32 m'
  next_le : m.nextSeqno ≤ m'.nextSeqno
  created_eq : region'.createdSeqno = region.createdSeqno

section Move

variable {i regionId next : ℕ} {m m' : RegionManager} {region region' region'' : RegionDesc}
  {shard shard' shard'' : AppendShardState} {events : List ManagerEvent}

/-- Nothing has moved. -/
lemma ShardMove.refl (hinv : ManagerInv m) (hspace : RecordSpace 32 m)
    (hat : m.ShardAt i shard regionId region) : ShardMove i regionId m region m shard region :=
  ⟨hat.put_self.symm, hat, hinv, hspace, le_rfl, rfl⟩

/-- One more step of the append path. -/
lemma ShardMove.step (h : ShardMove i regionId m region m' shard' region')
    (hstep : ShardStep m'.regionSize i regionId shard' region' m'.nextSeqno events shard'' region''
      next)
    (hlow : ∀ r, .reserved r ∈ events → 32 ≤ r.recordBytes) :
    ShardMove i regionId m region (m'.put i regionId shard'' region'' next) shard'' region'' := by
  have hput := ManagerStep.shard h.shardAt hstep
  obtain ⟨hcreated, -, hnext, -⟩ := hstep.frame
  refine ⟨?_, ⟨?_, h.shardAt.active_eq, ?_⟩, hput.inv h.inv, h.space.step h.inv hput hlow,
    h.next_le.trans hnext, hcreated.trans h.created_eq⟩
  · rw [h.eq_put]
    simp only [RegionManager.put, List.set_set]
  · exact List.getElem?_set_self (List.getElem?_eq_some_iff.1 h.shardAt.shard_eq).1
  · exact List.getElem?_set_self (List.getElem?_eq_some_iff.1 h.shardAt.region_eq).1

/-- The manager has not moved, up to a request for rotation. -/
lemma ShardMove.requested (h : ShardMove i regionId m region m' shard' region') :
    ShardMove i regionId m region (m'.setShard i { shard' with rotationRequested := true })
      { shard' with rotationRequested := true } region' := by
  rw [h.shardAt.setShard_eq]
  exact h.step .requested fun r hr => by cases hr

/-- A reservation on a shard of an intact manager succeeds, or finds the Region full, or has to wait
for the end of a rotation, or no numbers are left. -/
lemma reserveAppend_cases (hinv : ManagerInv m) (hat : m.ShardAt i shard regionId region) {n : ℕ}
    (hn : n ≠ 0 ∧ n % 32 = 0) (hlt : n < 2 ^ 32) :
    (∃ r m', RegionManager.reserveAppend i n m = .ok r m') ∨
    RegionManager.reserveAppend i n m = .error .wouldBlock m ∨
    (∃ e, (e = .flushBeforeRotation ∨ e = .regionFull) ∧ RegionManager.reserveAppend i n m =
      .error e (m.setShard i { shard with rotationRequested := true })) ∨
    m.nextSeqno = u64Max ∧ RegionManager.reserveAppend i n m = .error .sequenceExhausted m := by
  have hsize : m.regionSize ≤ 2 ^ 25 := hinv.size_le
  have hle := (hinv.shards hat).reserved_le
  cases hop : RegionManager.reserveAppend i n m with
  | ok r m' => exact .inl ⟨r, m', rfl⟩
  | error e m' =>
    right
    simp only [RegionManager.reserveAppend, rejectIf_bind_eq_error, okOr_bind_eq_error, get_bind,
      ite_run, set_bind, throw_apply, RegionManager.allocateSeqno_bind_eq_error, modify_bind,
      pure_apply, reduceCtorEq, and_false, or_false, hat.shard_eq, hat.active_eq, hat.region_eq,
      Option.some.injEq, exists_eq_left', (hinv.shards hat).active, not_true_eq_false, false_and,
      false_or, ne_eq, not_false_eq_true, true_and] at hop
    rcases hop with ⟨hbad, -⟩ | ⟨-, ⟨-, rfl, rfl⟩ | ⟨-, ⟨hbad, -⟩ | ⟨finish, -, ⟨-, hop⟩ | ⟨-,
      ⟨hbad, -⟩ | ⟨_, -, hnext, rfl, rfl⟩⟩⟩⟩⟩
    · unfold recordAlignment at hbad
      omega
    · exact .inl rfl
    · rw [Word.checkedAdd_of_lt (by omega)] at hbad
      cases hbad
    · refine .inr (.inl ⟨e, ?_⟩)
      cases hop
      refine ⟨?_, rfl⟩
      split_ifs
      · exact .inl rfl
      · exact .inr rfl
    · rw [tryU32, if_pos (by omega)] at hbad
      cases hbad
    · exact .inr (.inr ⟨hnext, rfl⟩)

section Flush

variable {o : OpenWriteSpan} (hinv : ManagerInv m) (hat : m.ShardAt i shard regionId region)
  (hopen : shard.openSpan = some o) (htail : shard.tail = none)
  (hsubmitted : shard.submittedSpan = none) (hrotation : shard.rotation = none)

include hinv hat hopen htail hsubmitted hrotation

/-- The padding of an open span can be reserved, and is needed unless the span ends at a page. -/
lemma reserveWritePadding_cases (hpadding : shard.pendingPadding = none) :
    o.endOffset % 4096 = 0 ∧ RegionManager.reserveWritePadding i m = .ok none m ∨
    ∃ receipt, receipt = ⟨i, o.regionId, o.startOffset, o.endOffset,
        RegionManager.paddedEnd o.endOffset, o.recordCount, o.maxSeqno⟩ ∧
      o.endOffset < receipt.paddedEndOffset ∧ receipt.paddedEndOffset ≤ m.regionSize ∧
      RegionManager.reserveWritePadding i m = .ok (some receipt)
        (m.put i regionId { shard with pendingPadding := some receipt }
          { region with reservedUsed := receipt.paddedEndOffset } m.nextSeqno) ∧
      ShardStep m.regionSize i regionId shard region m.nextSeqno
        [.padded region.createdSeqno receipt] { shard with pendingPadding := some receipt }
        { region with reservedUsed := receipt.paddedEndOffset } m.nextSeqno := by
  have h := hinv.shards hat
  obtain ⟨rfl, hstart, hlt, halign, hcount, hcreated, -⟩ := h.opened o hopen
  have hsal : o.startOffset % 4096 = 0 := hstart ▸ h.submittedEnd_aligned
  have hres : region.reservedUsed = o.endOffset := by
    rw [h.reserved_eq_openEnd htail hpadding, AppendShardState.openEnd, hopen]
    rfl
  have hle := hres ▸ h.reserved_le
  have hsize := hinv.size_aligned
  have hmax : m.regionSize ≤ 2 ^ 25 := hinv.size_le
  have hpos : o.maxSeqno ≠ 0 := by
    have := h.created_pos
    omega
  obtain ⟨hfrom, hpal, hpage⟩ := RegionManager.paddedEnd_spec o.endOffset
  have hpsize := RegionManager.paddedEnd_le hsize hle
  have hpe : RegionManager.paddedEnd o.endOffset = o.endOffset + alignmentPadding o.endOffset := rfl
  by_cases hzero : alignmentPadding o.endOffset = 0
  · left
    exact ⟨by omega, RegionManager.reserveWritePadding_eq_ok.2 ⟨shard, o, region, hat, hopen,
      ⟨htail, hpadding, hsubmitted, hrotation⟩, ⟨hlt, hsal, halign, hcount.ne', hpos⟩,
      ⟨h.active, hcreated, hres⟩, .inl ⟨hzero, rfl, rfl⟩⟩⟩
  · right
    refine ⟨_, rfl, by dsimp only; omega, hpsize, RegionManager.reserveWritePadding_eq_ok.2 ⟨shard,
      o, region, hat, hopen, ⟨htail, hpadding, hsubmitted, hrotation⟩,
      ⟨hlt, hsal, halign, hcount.ne', hpos⟩, ⟨h.active, hcreated, hres⟩,
      .inr ⟨hzero, _, hpe, by omega, ⟨?_, ?_, hpal, hpsize⟩, rfl, rfl⟩⟩,
      .padded hopen ⟨htail, hpadding, hsubmitted, hrotation⟩ hres
        ⟨by omega, by omega, hpal, hpsize⟩⟩
    · rw [directIoAlignment]
      omega
    · rw [recordAlignment]
      omega

/-- An open span that ends at a page can be submitted. -/
lemma sealWriteSpan_run (hpadding : shard.pendingPadding = none) (hend : o.endOffset % 4096 = 0) :
    RegionManager.sealWriteSpan i m = .ok
        ⟨i, o.regionId, o.startOffset, o.endOffset, o.recordCount, o.maxSeqno⟩
        (m.put i regionId (RegionManager.submitted i o.endOffset shard o) region m.nextSeqno) ∧
      ∃ events, (∀ r, .reserved r ∉ events) ∧ ShardStep m.regionSize i regionId shard region
        m.nextSeqno events (RegionManager.submitted i o.endOffset shard o) region m.nextSeqno := by
  have h := hinv.shards hat
  obtain ⟨rfl, hstart, hlt, -⟩ := h.opened o hopen
  have hsal : o.startOffset % 4096 = 0 := hstart ▸ h.submittedEnd_aligned
  refine ⟨?_, _, ?_, .submitted hopen hpadding ⟨htail, hsubmitted, hrotation⟩ hsal hend hlt rfl⟩
  · rw [← hat.setShard_eq]
    exact RegionManager.sealWriteSpan_eq_ok.2 ⟨shard, o, hat.shard_eq, hopen,
      ⟨htail, hpadding, hrotation, hsubmitted⟩, ⟨hsal, hend, hlt⟩, rfl, rfl⟩
  · simp

/-- An open span can be submitted with the padding that has been reserved for it. -/
lemma sealWriteSpanWithPadding_run {receipt : RegionPaddingReceipt}
    (hpadding : shard.pendingPadding = some receipt) :
    RegionManager.sealWriteSpanWithPadding receipt m = .ok
        ⟨i, o.regionId, o.startOffset, receipt.paddedEndOffset, o.recordCount, o.maxSeqno⟩
        (m.put i regionId (RegionManager.submitted i receipt.paddedEndOffset shard o) region
          m.nextSeqno) ∧
      ∃ events, (∀ r, .reserved r ∉ events) ∧ ShardStep m.regionSize i regionId shard region
        m.nextSeqno events (RegionManager.submitted i receipt.paddedEndOffset shard o) region
        m.nextSeqno := by
  have h := hinv.shards hat
  obtain ⟨-, o', ho', hal, hlt, hpage, hpeq⟩ := h.padding receipt hpadding
  obtain rfl := Option.some.inj (ho'.symm.trans hopen)
  obtain ⟨hid, hstart, hlow, -, hcount, hcreated, -⟩ := h.opened o' hopen
  have hsal : o'.startOffset % 4096 = 0 := hstart ▸ h.submittedEnd_aligned
  have hres : region.reservedUsed = receipt.paddedEndOffset := by
    rw [h.reserved_eq, AppendShardState.reservedEnd, htail, hpadding]
  have hbytes : receipt.paddingBytes = some (receipt.paddedEndOffset - o'.endOffset) := by
    rw [RegionPaddingReceipt.paddingBytes, hpeq]
    dsimp only
    rw [Word.checkedSub_of_le hlt.le, Option.filter_some, if_pos (by simpa using by omega)]
  have hshard : receipt.shardId = i := by rw [hpeq]
  have hregion : receipt.regionId = regionId := by rw [hpeq]
  refine ⟨?_, _, ?_, .submitted hopen hpadding ⟨htail, hsubmitted, hrotation⟩ hsal hal (by omega)
    rfl⟩
  · rw [← hat.setShard_eq]
    refine RegionManager.sealWriteSpanWithPadding_eq_ok.2 ⟨shard, o', region, ?_, hopen, hpadding,
      ⟨htail, hrotation, hsubmitted⟩, ?_, ⟨_, hbytes, by omega, ?_⟩, ⟨h.active, ?_, hres⟩,
      ⟨hsal, hal, by omega⟩, ?_, ?_⟩
    · rw [hshard, hregion]
      exact hat
    · rw [hpeq]
      exact ⟨hid, rfl, rfl, rfl, rfl⟩
    · rw [directIoAlignment]
      omega
    · rw [hpeq]
      exact hcreated
    · rw [hshard]
    · rw [hshard]
  · simp

end Flush

/-- A submitted span ends within what is reserved. -/
lemma submittedEnd_le (h : ShardInv next m.nextSeqno i shard regionId region) :
    shard.submittedEnd region.completedUsed ≤ region.reservedUsed := by
  have hopen : shard.submittedEnd region.completedUsed ≤ shard.openEnd region.completedUsed := by
    rw [AppendShardState.openEnd]
    cases ho : shard.openSpan with
    | none => exact le_rfl
    | some o =>
      obtain ⟨-, hstart, hlt, -⟩ := h.opened o ho
      exact hstart ▸ hlt.le
  rw [h.reserved_eq, AppendShardState.reservedEnd]
  cases ht : shard.tail with
  | some r =>
    have := (h.tail r ht).2.2.2.1
    dsimp only
    omega
  | none =>
    cases hp : shard.pendingPadding with
    | none => exact hopen
    | some p =>
      obtain ⟨-, o, ho, -, hlt, -⟩ := h.padding p hp
      rw [AppendShardState.openEnd, ho] at hopen
      exact hopen.trans hlt.le

/-- A submitted span can be completed. -/
lemma completeWriteSpan_run (hinv : ManagerInv m) (hspace : RecordSpace 32 m)
    (hat : m.ShardAt i shard regionId region) {span : RegionWriteSpan}
    (hspan : shard.submittedSpan = some span) :
    RegionManager.completeWriteSpan span m = .ok ()
        (m.put i regionId { shard with submittedSpan := none }
          { region with
            completedUsed := span.endOffset
            physicalRecordCount := region.physicalRecordCount + span.recordCount } m.nextSeqno) ∧
      ShardStep m.regionSize i regionId shard region m.nextSeqno
        [.completed region.createdSeqno span] { shard with submittedSpan := none }
        { region with
          completedUsed := span.endOffset
          physicalRecordCount := region.physicalRecordCount + span.recordCount } m.nextSeqno := by
  have h := hinv.shards hat
  obtain ⟨rfl, rfl, hstart, hlt, -, hpos, hcreated, -⟩ := h.submitted span hspan
  have hcount := hspace.count_lt hinv hat
  rw [AppendShardState.outstandingRecords, hspan] at hcount
  simp only [Option.map_some, Option.getD_some] at hcount
  have hend := submittedEnd_le h
  rw [AppendShardState.submittedEnd, hspan] at hend
  exact ⟨RegionManager.completeWriteSpan_eq_ok.2 ⟨shard, region, hat, hspan, ⟨h.active, hcreated,
    hstart.symm, hend, hlt, hpos.ne'⟩, by omega, rfl⟩, .completed hspan hstart.symm hend (by omega)⟩

/-- A rotation of a shard has a candidate, or has to wait. -/
lemma rotationCandidate_cases (hinv : ManagerInv m) (hat : m.ShardAt i shard regionId region) :
    (∃ candidate, RegionManager.rotationCandidate i m = .ok candidate m ∧
      shard.rotationRequested = true ∧ shard.openSpan = none ∧ candidate.shardId = i ∧
      candidate.victimCreatedSeqno = 0 ∧ m.freeRegions.head? = some candidate.victimRegionId) ∨
    RegionManager.rotationCandidate i m = .error .wouldBlock m := by
  cases hop : RegionManager.rotationCandidate i m with
  | ok candidate m' =>
    left
    obtain ⟨shard', id, old, victimId, victim, hat', hidle, -, ⟨hhead, hvictim, -⟩, hg⟩ :=
      RegionManager.selectRotation_bind_eq_ok.1 hop
    obtain rfl := Option.some.inj (hat.shard_eq.symm.trans hat'.shard_eq)
    have hempty := hinv.free victimId (List.mem_of_head? hhead)
    obtain rfl := Option.some.inj (hvictim.symm.trans hempty)
    cases hg
    exact ⟨_, rfl, hidle.1, hidle.2.2.1, rfl, rfl, hhead⟩
  | error e m' =>
    right
    simp only [RegionManager.rotationCandidate, RegionManager.selectRotation, bind_assoc,
      rejectIf_bind_eq_error, okOr_bind_eq_error, get_bind, pure_bind, pure_apply, hat.shard_eq,
      hat.active_eq, hat.region_eq, reduceCtorEq, false_and, false_or, Option.some.injEq,
      exists_eq_left', and_false, or_false] at hop
    rcases hop with ⟨-, rfl, rfl⟩ | ⟨-, ⟨-, rfl, rfl⟩ | ⟨-, ⟨-, rfl, rfl⟩ | ⟨victimId, hhead,
      ⟨hnone, -⟩ | ⟨victim, hvictim, hbad, -⟩⟩⟩⟩
    · rfl
    · rfl
    · rfl
    · rw [hinv.free victimId (List.mem_of_head? hhead)] at hnone
      cases hnone
    · have hmem := List.mem_of_head? hhead
      obtain rfl := Option.some.inj (hvictim.symm.trans (hinv.free victimId hmem))
      rcases hbad with hbad | rfl
      · exact absurd rfl hbad
      · exact absurd hmem (RegionManager.active_disjoint hinv.nodup hat.active_eq).1

/-- The queues have room for a Region that is in neither of them. -/
lemma ManagerInv.queue_room (hinv : ManagerInv m)
    (h : 0 < m.reclaiming.length + m.pendingSealed.length) :
    Word.saturatingAdd 64 m.freeRegions.length m.sealedRegions.length < m.queueCapacity := by
  have hplaces := hinv.length_places
  have hcapacity := hinv.queueCapacity
  have hle : m.regions.length ≤ 2 ^ 20 := hinv.length_le
  have hlt := hinv.shards_lt
  unfold Word.saturatingAdd
  omega

/-- A rotation that has begun can be finished. -/
lemma finishRotation_run (hinv : ManagerInv m) (hat : m.ShardAt i shard regionId region)
    {receipt : RegionRotationReceipt} (hrotation : shard.rotation = some receipt) :
    RegionManager.finishRotation receipt m = .ok () (m.rotated shard receipt) := by
  have h := hinv.shards hat
  obtain ⟨rfl, rfl, hcreated, -⟩ := h.rotation receipt hrotation
  have hpending := pendingSealed_rotated hat.shard_eq hrotation
  obtain ⟨outgoing, houtgoing, hsealed, -⟩ := hinv.sealed receipt.sealedRegionId
    (List.mem_append_right _
      (hpending.mem_iff.2 (List.mem_append_right _ (List.mem_singleton_self _))))
  have hroom := hinv.queue_room (by
    rw [hpending.length_eq, List.length_append, List.length_singleton]
    omega)
  simp only [RegionManager.finishRotation, rejectIf_bind_eq_ok, okOr_bind_eq_ok, get_bind,
    set_apply, not_not, ge_iff_le, not_le]
  refine ⟨shard, hat.shard_eq, hrotation, outgoing, houtgoing, region, hat.region_eq, ?_, hroom,
    rfl⟩
  simp [hat.active_eq, hsealed, h.active, hcreated]

/-- A reclaim that has begun can be finished. -/
lemma finishReclaim_run (hinv : ManagerInv m) {receipt : RegionReclaimReceipt}
    (hmem : receipt ∈ m.reclaiming) :
    ∃ position, m.reclaiming[position]? = some receipt ∧
      RegionManager.finishReclaim receipt m = .ok () (m.reclaimed position receipt) := by
  obtain ⟨region, hregion, ⟨hsealed, -⟩, hreceipt⟩ := hinv.reclaiming receipt hmem
  have hroom := hinv.queue_room (Nat.add_pos_left (List.length_pos_of_mem hmem) _)
  obtain ⟨position, hposition⟩ : ∃ position,
      m.reclaiming.findIdx? (· = receipt) = some position := by
    rw [← Option.isSome_iff_exists, List.findIdx?_isSome, List.any_eq_true]
    exact ⟨receipt, hmem, decide_eq_true rfl⟩
  obtain ⟨hlt, heq, -⟩ := List.findIdx?_eq_some_iff_getElem.1 hposition
  refine ⟨position, by simpa [List.getElem?_eq_getElem hlt] using heq, ?_⟩
  simp only [RegionManager.finishReclaim, rejectIf_bind_eq_ok, okOr_bind_eq_ok, get_bind, set_apply,
    not_or, not_not, ge_iff_le, not_le]
  refine ⟨position, hposition, region, hregion, ⟨hsealed, ?_, ?_, ?_⟩, hroom, rfl⟩
  · rw [hreceipt]
  · rw [hreceipt]
  · rw [hreceipt]

end Move

/-- The configuration is that of the manager that has moved on. -/
lemma ShardMove.fits {c : PathConfig} {i regionId : ℕ} {m m' : RegionManager}
    {region region' : RegionDesc} {shard' : AppendShardState}
    (h : ShardMove i regionId m region m' shard' region') (hfits : c.Fits m) : c.Fits m' := by
  rw [h.eq_put]
  exact { hfits with count_eq := List.length_set.trans hfits.count_eq }

/-- A shard of a data path, with what the manager has of it. -/
structure ShardView {crc : List UInt8 → BitVec 32} (c : PathConfig) (s : DataPath crc) (i : ℕ)
    (shard : AppendShardState) (regionId : ℕ) (region : RegionDesc) (p : ShardPath crc)
    (fill job : List ValueRecord) : Prop where
  path_eq : s.shards[i]? = some p
  fits : c.Fits s.manager
  inv : ManagerInv s.manager
  space : RecordSpace 32 s.manager
  shardAt : s.manager.ShardAt i shard regionId region
  link : ShardLink c i shard regionId region.createdSeqno p fill job

/-- The shard and its Region have moved on, and agree again. No more has been completed. -/
structure Moved {crc : List UInt8 → BitVec 32} (c : PathConfig) (s : DataPath crc) (i regionId : ℕ)
    (region : RegionDesc) (p' : ShardPath crc) (s' : DataPath crc) : Prop where
  intro ::
  moved : ∃ m' shard' region' fill' job', ShardMove i regionId s.manager region m' shard' region' ∧
    region'.completedUsed = region.completedUsed ∧
    region'.physicalRecordCount = region.physicalRecordCount ∧
    ShardLink c i shard' regionId region'.createdSeqno p' fill' job' ∧
    s' = { s with manager := m' }.setShard i p'

/-- What a section of a shard leaves as it is, when it neither stages nor publishes a record. -/
structure PendingFrame {crc : List UInt8 → BitVec 32} (p p' : ShardPath crc) : Prop where
  pending_eq : p'.pending = p.pending
  reserved_eq : p'.reserved? = p.reserved?
  owner_eq : p'.owner? = p.owner?
  drain : ∀ P g, DrainInv P g p → DrainInv P g p'

/-- What a section of a shard leaves as it is that has nothing to do with the device either. -/
structure RecordFrame {crc : List UInt8 → BitVec 32} (p p' : ShardPath crc) : Prop extends
    PendingFrame p p' where
  written : ∀ job, p'.worker.phase = .written job → p.worker.phase = .written job
  publishing : ∀ job rest, p'.worker.phase = .publishing job rest →
    p.worker.phase = .publishing job rest

/-- What a section of a shard leaves as it is that has nothing to do with a rotation, in
addition. -/
structure ShardFrame {crc : List UInt8 → BitVec 32} (p p' : ShardPath crc) : Prop extends
    RecordFrame p p' where
  rotating_eq : p'.worker.phase.rotating? = p.worker.phase.rotating?

end Cache2

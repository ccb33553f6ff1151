import Cache2.Region.StagingShard
import Cache2.Region.ReclaimScan

set_option relaxedAutoImplicit false
set_option autoImplicit false

/-!
# The data path

The threads that move records share the manager, the index, the data file and, for every append
shard, a gate, a staging shard and a drain counter. Foreground threads and reclaim workers stage
records (`try_stage_record`); the append worker of a shard writes what is staged
(`flush_staging_shard`) and activates the next Region (`rotate_shard`); reclaim workers empty sealed
Regions (`reclaim_worker_result`).

A section is what one thread does between two acquisitions of a lock. The sections of all threads
interleave freely. Where the holder of a gate is, and where every worker is, is part of the state.
A section that fails keeps the state that it has reached. Nothing but reads happens on a store that
is miss-only.

## Main definitions

* `Cache2.GatePhase`, `Cache2.WorkerPhase`, `Cache2.ReclaimPhase` — where the threads are.
* `Cache2.DataPath` — the state that they share.
* `Cache2.DataPath.stageReserve`, `Cache2.DataPath.stageBegin`, `Cache2.DataPath.stageFinish` —
  staging a record.
* `Cache2.DataPath.flushReserve` … `Cache2.DataPath.flushPublish` — writing and publishing a span.
* `Cache2.DataPath.rotateSelect` … `Cache2.DataPath.rotateFinish` — activating the next Region.
* `Cache2.DataPath.drainRequest`, `Cache2.DataPath.drainComplete` — drains.
* `Cache2.DataPath.reclaimBegin` … `Cache2.DataPath.reclaimFinish` — emptying a sealed Region.
* `Cache2.PathAction`, `Cache2.DataPath.step` — what can happen next.
-/

namespace Cache2

open Bytes Loop

/-! ## The state -/

/-- What is to be staged. A reinsertion has the number and the location of the old record. -/
structure StageRequest (crc : List UInt8 → BitVec 32) where
  hash : Hash
  recordBytes : ℕ
  payload : RecordPayload crc
  reinsert : Option (ℕ × PackedLocation)

/-- `RegionStageValue`, without the counts of a staged record. -/
inductive RegionStageValue
  | contended
  | needsFlush
  | needsRotation
  deriving DecidableEq, Repr

/-- The gate of a shard: where the thread is that stages a record and, if it is one, which reclaim
worker it is; or that the append worker holds the gate. -/
inductive GatePhase (crc : List UInt8 → BitVec 32)
  | free
  | reserved (owner : Option ℕ) (request : StageRequest crc) (receipt : RegionAppendReservation)
  | encoding (owner : Option ℕ) (request : StageRequest crc) (receipt : RegionAppendReservation)
      (start finish : ℕ) (buffer : List UInt8)
  | worker

/-- Where the append worker of a shard is. -/
inductive WorkerPhase
  | waiting
  | awake
  | locking
  | padding (receipt : RegionPaddingReceipt)
  | padded (receipt : RegionPaddingReceipt)
  | sealed (span : RegionWriteSpan) (geometry : DataGeometry)
  | taken (job : StagedWrite) (geometry : DataGeometry)
  | writing (job : StagedWrite)
  | written (job : StagedWrite)
  | publishing (job : StagedWrite) (rest : List StagedRecord)
  | flushed
  | gated
  | selected (candidate : RegionRotationCandidate)
  | activating (receipt : RegionRotationReceipt)
  | activated (receipt : RegionRotationReceipt)
  | rotated
  | drained
  deriving DecidableEq, Repr

/-- An append worker, with the drain that it has seen and whether its flush is for that drain. -/
structure AppendWorker where
  phase : WorkerPhase
  drain : ℕ
  last : Bool
  deriving DecidableEq, Repr

/-- An append shard. -/
structure ShardPath (crc : List UInt8 → BitVec 32) where
  staging : StagingShard
  gate : GatePhase crc
  worker : AppendWorker
  drainRequested : ℕ
  drainCompleted : ℕ

/-- A scan in progress, with the shard that its records go to. -/
structure ReclaimScan where
  shardId : ℕ
  receipt : RegionReclaimReceipt
  bytes : List UInt8
  cursor : ScanCursor
  deriving DecidableEq, Repr

/-- Where a reclaim worker is. -/
inductive ReclaimPhase (crc : List UInt8 → BitVec 32)
  | idle
  | begun (receipt : RegionReclaimReceipt)
  | scanning (scan : ReclaimScan)
  | classified (scan : ReclaimScan) (scanned : ReclaimRecord)
  | offering (scan : ReclaimScan) (scanned : ReclaimRecord) (record : RegionReinsertRecord crc)
  | dropping (scan : ReclaimScan) (scanned : ReclaimRecord)
  | scanned (scan : ReclaimScan)
  | draining (scan : ReclaimScan) (generation : ℕ)
  | emptied (receipt : RegionReclaimReceipt)
  | cleared (receipt : RegionReclaimReceipt)

/-- What the threads share. `rotation` is the shard that holds the rotation lock. -/
structure DataPath (crc : List UInt8 → BitVec 32) where
  manager : RegionManager
  index : RegionIndex
  disk : List UInt8
  generations : List ℕ
  shards : List (ShardPath crc)
  reclaimers : List (ReclaimPhase crc)
  rotation : Option ℕ
  healthy : Bool

/-- What a section fails with. -/
inductive PathError
  | mutation (error : RegionMutationError)
  | staging (error : StagingError)
  | encode (error : RecordEncodeError)
  | index (error : IndexStorageError)
  | io (error : IoError)
  deriving DecidableEq, Repr

/-- Sections. -/
abbrev PathM (crc : List UInt8 → BitVec 32) := EStateM PathError (DataPath crc)

namespace DataPath

variable {crc : List UInt8 → BitVec 32}

/-! ## Access -/

/-- The state with another shard. -/
def setShard (s : DataPath crc) (shardId : ℕ) (shard : ShardPath crc) : DataPath crc :=
  { s with shards := s.shards.set shardId shard }

/-- The state with another reclaim worker. -/
def setReclaimer (s : DataPath crc) (workerId : ℕ) (phase : ReclaimPhase crc) : DataPath crc :=
  { s with reclaimers := s.reclaimers.set workerId phase }

/-- `append_gate`: the shard. -/
def shard (shardId : ℕ) : PathM crc (ShardPath crc) := do
  okOr (.io (ioError .invalidInput "data shard is out of bounds")) (← get).shards[shardId]?

/-- Moves the holder of a gate on. -/
def setGate (shardId : ℕ) (gate : GatePhase crc) : PathM crc Unit := do
  let shard ← shard shardId
  modify fun s => s.setShard shardId { shard with gate }

/-- Moves the append worker of a shard on. -/
def setPhase (shardId : ℕ) (phase : WorkerPhase) : PathM crc Unit := do
  let shard ← shard shardId
  modify fun s => s.setShard shardId { shard with worker := { shard.worker with phase } }

/-- Moves a reclaim worker on. -/
def setReclaim (workerId : ℕ) (phase : ReclaimPhase crc) : PathM crc Unit :=
  modify fun s => s.setReclaimer workerId phase

/-- `enter_miss_only`, and the error. -/
def fail {α : Type} (error : PathError) : PathM crc α := do
  modify fun s => { s with healthy := false }
  throw error

/-- `enter_miss_only` and `close`, and the error. -/
def failClosed {α : Type} (error : PathError) : PathM crc α := do
  modify fun s => { s with
    healthy := false
    shards := s.shards.map fun shard =>
      { shard with staging := { shard.staging with closed := true } } }
  throw error

/-- A section of the manager. -/
def onManager {α : Type} (f : ManagerM α) : PathM crc (Except RegionMutationError α) := fun s =>
  match f s.manager with
  | .ok a manager => .ok (.ok a) { s with manager }
  | .error error manager => .ok (.error error) { s with manager }

/-- A section of a staging shard. -/
def onStaging {ε α : Type} (shardId : ℕ) (f : EStateM ε StagingShard α) :
    PathM crc (Except ε α) := do
  let shard ← shard shardId
  match f shard.staging with
  | .ok a staging => do
    modify fun s => s.setShard shardId { shard with staging }
    pure (.ok a)
  | .error error staging => do
    modify fun s => s.setShard shardId { shard with staging }
    pure (.error error)

/-- An operation of the index, whose errors end the health. -/
def onIndex {α : Type} (f : IndexM α) : PathM crc α := fun s =>
  match f s.index with
  | .ok a index => .ok a { s with index }
  | .error error index => .error (.index error) { s with index, healthy := false }

/-- A manager operation whose errors end the health. -/
def manage {α : Type} (f : ManagerM α) : PathM crc α := do
  match ← onManager f with
  | .ok a => pure a
  | .error error => fail (.mutation error)

/-! ## Staging -/

/-- `try_stage_record`, up to the reservation, with the check of the length in `validate_stage`.
Nothing is returned when the record has been reserved. The preflight reads only what the holder of
the gate changes. The health is checked by the step. A foreground thread that loses the race for the
lock of the manager returns as if the gate were taken and changes nothing: that is no step at all. A
reclaim worker that loses it goes on, in `reclaimOffer`. -/
def stageReserve (chunkBytes shardId : ℕ) (owner : Option ℕ) (request : StageRequest crc) :
    PathM crc (Option RegionStageValue) := do
  rejectIf (chunkBytes < request.recordBytes)
    (.io (ioError .invalidInput "value exceeds one Region staging buffer"))
  match (← shard shardId).gate with
  | .free =>
    match ← onStaging shardId (StagingShard.preflightAppend chunkBytes request.recordBytes) with
    | .error .wouldBlock => pure (some .contended)
    | .error error => failClosed (.staging error)
    | .ok .needsSeal => do
      if ← manage (RegionManager.requestRotationForAppend shardId request.recordBytes) then
        pure (some .needsRotation)
      else pure (some .needsFlush)
    | .ok (.appended _ _) =>
      match ← onManager (RegionManager.reserveAppend shardId request.recordBytes) with
      | .error .wouldBlock => pure (some .needsFlush)
      | .error .flushBeforeRotation => pure (some .needsRotation)
      | .error .regionFull => pure (some .needsRotation)
      | .error error => fail (.mutation error)
      | .ok receipt =>
        match ← onManager (RegionManager.stageReservation receipt) with
        | .error error => failClosed (.mutation error)
        | .ok () => do
          setGate shardId (.reserved owner request receipt)
          pure none
  | _ => pure (some .contended)

/-- `try_stage_record`, where `encode_reserved` takes the buffer. -/
def stageBegin (chunkBytes regionSize shardId : ℕ) (owner : Option ℕ) (request : StageRequest crc)
    (receipt : RegionAppendReservation) : PathM crc Unit := do
  match ← onStaging shardId (StagingShard.beginEncode chunkBytes regionSize receipt) with
  | .error .wouldBlock =>
    failClosed (.io (ioError .invalidData "staging became busy after preflight"))
  | .error error => failClosed (.staging error)
  | .ok none => failClosed (.io (ioError .invalidData
      "staging capacity changed after successful preflight"))
  | .ok (some (start, finish, buffer)) =>
    setGate shardId (.encoding owner request receipt start finish buffer)

/-- The encoder of `try_stage_record`. -/
def encodeRequest (request : StageRequest crc) (receipt : RegionAppendReservation)
    (destination : List UInt8) : Except RecordEncodeError (List UInt8 × StagedRecord) :=
  match request.reinsert with
  | some (logicalSeqno, previous) => do
    let (bytes, entry) ← encodeReinsertIntoHashed destination receipt request.hash
      request.recordBytes request.payload logicalSeqno
    .ok (bytes, .reinsert request.hash entry receipt.seqno previous)
  | none => do
    let (bytes, entry) ← encodeValueIntoHashed destination receipt request.hash
      request.recordBytes request.payload
    .ok (bytes, .new request.hash entry receipt.seqno)

/-- A reclaim worker learns that its record has been staged. -/
def accept (workerId : ℕ) : PathM crc Unit := do
  match (← get).reclaimers[workerId]? with
  | some (.offering scan scanned record) => setReclaim workerId (.scanning { scan with
      cursor := (scan.cursor.accepted record.recordBytes).advance scanned.recordEnd })
  | _ => pure ()

/-- `try_stage_record`, from the encoder on. -/
def stageFinish (regionSize shardId : ℕ) (owner : Option ℕ) (request : StageRequest crc)
    (receipt : RegionAppendReservation) (start finish : ℕ) (buffer : List UInt8) :
    PathM crc Unit := do
  match ← onStaging shardId (StagingShard.finishEncode regionSize receipt start finish buffer
      (encodeRequest request receipt)) with
  | .ok (.appended _ _) => do
    setGate shardId .free
    match owner with
    | some workerId => accept workerId
    | none => pure ()
  | .ok .needsSeal => failClosed (.io (ioError .invalidData
      "staging capacity changed after successful preflight"))
  | .error (.encode error) => failClosed (.encode error)
  | .error (.staging .wouldBlock) =>
    failClosed (.io (ioError .invalidData "staging became busy after preflight"))
  | .error (.staging error) => failClosed (.staging error)

/-! ## Writing -/

/-- The geometry of a manager: `geometry_for`. -/
def geometryFor (m : RegionManager) : Except IoError DataGeometry :=
  if 2 ^ 32 ≤ m.regions.length then .error (ioError .invalidData "Region count is too large")
  else
    let regionSize : BitVec 64 := .ofNat 64 m.regionSize
    let regionCount : BitVec 32 := .ofNat 32 m.regions.length
    (DataGeometry.expectedFileLen regionSize regionCount).elim
      (.error (ioError .invalidData "data geometry overflow"))
      fun dataFileLen => .ok ⟨.ofNat 64 dataFileLen, regionSize, regionCount⟩

/-- `validate_span`: the length and the offset of a write. -/
def validateSpan (geometry : DataGeometry) (span : RegionWriteSpan) : Except IoError (ℕ × ℕ) :=
  if geometry.isValid = false ∨ geometry.regionCount.toNat ≤ span.regionId ∨
      span.startOffset % directIoAlignment ≠ 0 ∨ span.endOffset % directIoAlignment ≠ 0 ∨
      span.endOffset ≤ span.startOffset ∨ geometry.regionSize.toNat < span.endOffset ∨
      span.recordCount = 0 then .error (ioError .invalidInput "invalid Region write span")
  else do
    let length ← ((Word.checkedSub span.endOffset span.startOffset).filter fun length =>
      length ≠ 0 ∧ length % directIoAlignment = 0).elim
        (.error (ioError .invalidInput "Region write span length is invalid")) .ok
    let absolute ← ((Word.checkedMul 64 span.regionId geometry.regionSize.toNat).bind fun offset =>
      (Word.checkedAdd 64 offset dataRegionAreaOffset).bind fun offset =>
        Word.checkedAdd 64 offset span.startOffset).elim
          (.error (ioError .invalidInput "write offset overflow")) .ok
    let absoluteEnd ← (Word.checkedAdd 64 absolute length).elim
      (.error (ioError .invalidInput "write end overflow")) .ok
    if absolute % directIoAlignment ≠ 0 ∨ geometry.dataFileLen.toNat < absoluteEnd then
      .error (ioError .invalidInput "Region write span exceeds the data file")
    else .ok (length, absolute)

/-- `flush_staging_shard`, after a seal. -/
def sealedFor (shardId : ℕ) (span : RegionWriteSpan) : PathM crc Unit := do
  match geometryFor (← get).manager with
  | .error error => fail (.io error)
  | .ok geometry => setPhase shardId (.sealed span geometry)

/-- `flush_staging_shard`, until it returns. -/
def flushReturn (shardId : ℕ) : PathM crc Unit := do
  setPhase shardId (if (← shard shardId).worker.last then .drained else .flushed)

/-- `flush_staging_shard`, up to the reservation of the padding. A span that ends at a page is
sealed at once. -/
def flushReserve (shardId : ℕ) : PathM crc Unit := do
  match ← onManager (RegionManager.reserveWritePadding shardId) with
  | .error .wouldBlock => flushReturn shardId
  | .error error => fail (.mutation error)
  | .ok padding => do
    setGate shardId .worker
    match padding with
    | some receipt => setPhase shardId (.padding receipt)
    | none => do
      let span ← manage (RegionManager.sealWriteSpan shardId)
      sealedFor shardId span

/-- `flush_staging_shard`, while the padding is applied. -/
def flushPad (chunkBytes regionSize shardId : ℕ) (receipt : RegionPaddingReceipt) :
    PathM crc Unit := do
  match ← onStaging shardId
      (StagingShard.applyWritePadding crc chunkBytes regionSize receipt) with
  | .error error => failClosed (.staging error)
  | .ok () => setPhase shardId (.padded receipt)

/-- `flush_staging_shard`, while the padded span is sealed. -/
def flushSeal (shardId : ℕ) (receipt : RegionPaddingReceipt) : PathM crc Unit := do
  match ← onManager (RegionManager.sealWriteSpanWithPadding receipt) with
  | .error error => failClosed (.mutation error)
  | .ok span => sealedFor shardId span

/-- `flush_staging_shard`, while the chunk is taken. The gate is free afterwards. -/
def flushTake (chunkBytes regionSize shardId : ℕ) (span : RegionWriteSpan)
    (geometry : DataGeometry) : PathM crc Unit := do
  match ← onStaging shardId (StagingShard.takeSealed chunkBytes regionSize span) with
  | .error error => fail (.staging error)
  | .ok none =>
    fail (.io (ioError .invalidData "manager sealed a span with no staging bytes"))
  | .ok (some job) => do
    setGate shardId .free
    setPhase shardId (.taken job geometry)

/-- `fail_staged_span`, and the error. -/
def failStagedSpan {α : Type} (shardId : ℕ) (job : StagedWrite) (returned : Bool)
    (error : PathError) : PathM crc α := do
  let _ ← onStaging shardId (StagingShard.finish job.span
    (if returned then some (job.buffer, job.length) else none) job.records true)
  fail error

/-- `submit_write`. -/
def flushSubmit (shardId : ℕ) (job : StagedWrite) (geometry : DataGeometry) : PathM crc Unit := do
  match validateSpan geometry job.span with
  | .error error => failStagedSpan shardId job true (.io error)
  | .ok (length, absolute) => do
    if job.length ≠ length ∨ job.absolute ≠ absolute then
      failStagedSpan shardId job true
        (.io (ioError .invalidInput "staging job does not match its Region span"))
    else if job.length % directIoAlignment ≠ 0 then
      failStagedSpan shardId job true
        (.io (ioError .invalidInput "Region span buffer is not direct-I/O aligned"))
    else setPhase shardId (.writing job)

/-- The device writes a part of a chunk. -/
def deviceWrite (job : StagedWrite) (start length : ℕ) : PathM crc Unit :=
  modify fun s => { s with
    disk := splice s.disk (job.absolute + start) (slice job.bytes start length) }

/-- The device has written a chunk. -/
def deviceDone (shardId : ℕ) (job : StagedWrite) : PathM crc Unit := do
  deviceWrite job 0 job.length
  setPhase shardId (.written job)

/-- The device has failed to write a chunk, or has not answered in time. -/
def deviceFail (shardId : ℕ) (job : StagedWrite) (returned : Bool) (error : IoError) :
    PathM crc Unit :=
  failStagedSpan shardId job returned (.io error)

/-- `flush_staging_shard`, while the write is completed. -/
def flushComplete (shardId : ℕ) (job : StagedWrite) : PathM crc Unit := do
  match ← onManager (RegionManager.completeWriteSpan job.span) with
  | .error error => failStagedSpan shardId job true (.mutation error)
  | .ok () => setPhase shardId (.publishing job job.records.items)

/-- `publish_completed_records`, for one record. -/
def publishRecord (record : StagedRecord) : PathM crc Unit := do
  match record.previous with
  | some previous => do
    let _ ← onIndex (RegionIndex.replaceIfMatch crc record.hash previous record.entry)
    pure ()
  | none => do
    let _ ← onIndex (RegionIndex.upsert crc record.hash record.entry)
    pure ()

/-- `flush_staging_shard`, from the publication on: the next record, or the return of the chunk. -/
def flushPublish (shardId : ℕ) (job : StagedWrite) : List StagedRecord → PathM crc Unit
  | record :: rest => do
    publishRecord record
    setPhase shardId (.publishing job rest)
  | [] => do
    match ← onStaging shardId
        (StagingShard.finish job.span (some (job.buffer, job.length)) job.records false) with
    | .error error => fail (.staging error)
    | .ok () => flushReturn shardId

/-! ## Rotation -/

/-- `rotate_shard`, when both locks are held: the selection. -/
def rotateSelect (shardId : ℕ) : PathM crc Unit := do
  let requested ← okOr (.mutation .invalidShard)
    ((← get).manager.appendStates[shardId]?.map (·.rotationRequested))
  if requested then
    match ← onManager (RegionManager.rotationCandidate shardId) with
    | .error .wouldBlock => do
      setGate shardId .free
      setPhase shardId .rotated
    | .error error => fail (.mutation error)
    | .ok candidate => do
      modify fun s => { s with rotation := some shardId }
      setPhase shardId (.selected candidate)
  else do
    setGate shardId .free
    setPhase shardId .rotated

/-- `rotate_shard`, while the rotation begins. -/
def rotateBegin (shardId : ℕ) (candidate : RegionRotationCandidate) : PathM crc Unit := do
  let receipt ← manage (RegionManager.beginRotation candidate)
  setPhase shardId (.activating receipt)

/-- `rotate_shard`, when the generation is stored. Both locks are free afterwards. -/
def rotateStore (shardId : ℕ) (receipt : RegionRotationReceipt) : PathM crc Unit := do
  if receipt.activatedRegionId < (← get).generations.length then do
    modify fun s => { s with
      generations := s.generations.set receipt.activatedRegionId receipt.activatedCreatedSeqno
      rotation := none }
    setGate shardId .free
    setPhase shardId (.activated receipt)
  else fail (.io (ioError .invalidData "rotation activated an untracked Region"))

/-- `rotate_shard`, while the rotation finishes. -/
def rotateFinish (shardId : ℕ) (receipt : RegionRotationReceipt) : PathM crc Unit := do
  manage (RegionManager.finishRotation receipt)
  setPhase shardId .rotated

/-! ## The loop of an append worker -/

/-- `wait_for_shard_work`: the drain that is outstanding. -/
def workerWake (shardId : ℕ) : PathM crc Unit := do
  let shard ← shard shardId
  let drain := if shard.drainCompleted < shard.drainRequested then shard.drainRequested else 0
  modify fun s => s.setShard shardId { shard with worker := ⟨.awake, drain, false⟩ }

/-- `append_worker_result`, while the worker looks at the chunk and flushes it. -/
def workerSnapshot (chunkBytes shardId : ℕ) : PathM crc Unit := do
  match ← onStaging shardId (StagingShard.shardFillSnapshot chunkBytes) with
  | .ok (some _) => setPhase shardId .locking
  | .ok none => setPhase shardId .flushed
  | .error .wouldBlock => setPhase shardId .flushed
  | .error error => fail (.staging error)

/-- `append_worker_result`, at its end: a drain flushes what is left. -/
def workerDrain (chunkBytes shardId : ℕ) : PathM crc Unit := do
  if (← shard shardId).worker.drain = 0 then setPhase shardId .waiting
  else
    match ← onStaging shardId (StagingShard.shardFillSnapshot chunkBytes) with
    | .ok (some _) => do
      let shard ← shard shardId
      modify fun s => s.setShard shardId
        { shard with worker := { shard.worker with phase := .locking, last := true } }
    | .ok none => setPhase shardId .drained
    | .error .wouldBlock => setPhase shardId .waiting
    | .error error => fail (.staging error)

/-- `complete_shard_drain`. -/
def drainComplete (shardId : ℕ) : PathM crc Unit := do
  let shard ← shard shardId
  modify fun s => s.setShard shardId { shard with
    drainCompleted := max shard.drainCompleted shard.worker.drain
    worker := { shard.worker with phase := .waiting } }

/-- `request_drain`. -/
def drainRequest (shardId : ℕ) : PathM crc ℕ := do
  let shard ← shard shardId
  let generation ← okOr (.io (ioError .other "shard drain generation exhausted"))
    (Word.checkedAdd 64 shard.drainRequested 1)
  modify fun s => s.setShard shardId { shard with drainRequested := generation }
  pure generation

/-! ## Reclaim -/

/-- A part of `scan_reclaim`, whose errors end the reclaim worker. -/
def reclaiming {α : Type} : Except IoError α → PathM crc α
  | .ok a => pure a
  | .error error => fail (.io error)

/-- `reclaim_worker_result`, while a reclaim begins. -/
def reclaimBegin (workerId : ℕ) : PathM crc Unit := do
  match ← manage RegionManager.beginReclaim with
  | some receipt => setReclaim workerId (.begun receipt)
  | none => pure ()

/-- `reclaim_absolute`. -/
def reclaimAbsolute (m : RegionManager) (receipt : RegionReclaimReceipt) : Except IoError ℕ :=
  ((Word.checkedMul 64 receipt.regionId m.regionSize).bind fun offset =>
    Word.checkedAdd 64 dataRegionAreaOffset offset).elim
      (.error (ioError .invalidData "reclaim offset overflow")) .ok

/-- `reclaim_worker_result`, while the prefix is read. -/
def reclaimRead (workerId shardId : ℕ) (accepting : Bool) (receipt : RegionReclaimReceipt) :
    PathM crc Unit := do
  let s ← get
  let absolute ← reclaiming (reclaimAbsolute s.manager receipt)
  let bytes := slice s.disk absolute receipt.usedOffset
  if bytes.length ≠ receipt.usedOffset then
    fail (.io (ioError .invalidData "reclaim read does not match the sealed Region prefix"))
  else setReclaim workerId (.scanning ⟨shardId, receipt, bytes, .start receipt accepting⟩)

/-- `scan_reclaim`, while the next record is classified, or at the end of the prefix. -/
def reclaimClassify (workerId : ℕ) (scan : ReclaimScan) : PathM crc Unit := do
  if scan.bytes.length ≤ scan.cursor.offset then
    if scan.cursor.stats.recordsScanned ≠ scan.receipt.physicalRecordCount then
      fail (.io (ioError .invalidData "reclaim record count does not match Region metadata"))
    else setReclaim workerId (.scanned scan)
  else do
    let scanned ← reclaiming (scanRecord crc scan.receipt scan.bytes scan.cursor.offset)
    match ← onIndex (RegionIndex.prepareReclaim crc scanned.header.keyHash scanned.location) with
    | .missing => setReclaim workerId (.scanning
        { scan with cursor := scan.cursor.advance scanned.recordEnd })
    | .removed => setReclaim workerId (.scanning
        { scan with cursor := scan.cursor.removed.advance scanned.recordEnd })
    | .reinsert => setReclaim workerId (.classified scan scanned)

/-- `try_stage_reinsert`: the request of a hot record. -/
def reinsertRequest (record : RegionReinsertRecord crc) : StageRequest crc :=
  ⟨record.hash, record.recordBytes, record.payload,
    some (record.logicalSeqno, record.previousLocation)⟩

/-- A section whose error ends the thread, and with it the health. -/
def orFail {α : Type} (f : PathM crc α) : PathM crc α := fun s =>
  match f s with
  | .ok a s => .ok a s
  | .error error s => .error error { s with healthy := false }

/-- `scan_reclaim`, while a hot record is offered. A sink that is not `available` has lost the race
for the lock of the manager. -/
def reclaimOffer (chunkBytes workerId : ℕ) (scan : ReclaimScan) (scanned : ReclaimRecord)
    (available : Bool) : PathM crc Unit := do
  match ← reclaiming (reinsertDecision crc scan.bytes scan.cursor scanned) with
  | .offer record =>
    let refused := { scan with cursor := scan.cursor.refused }
    if available then
      match ← orFail (stageReserve chunkBytes scan.shardId (some workerId)
          (reinsertRequest record)) with
      | none => setReclaim workerId (.offering scan scanned record)
      | some _ => setReclaim workerId (.dropping refused scanned)
    else setReclaim workerId (.dropping refused scanned)
  | .budgetSkipped =>
    setReclaim workerId (.dropping { scan with cursor := scan.cursor.beyondBudget } scanned)
  | .skipped => setReclaim workerId (.dropping scan scanned)

/-- `scan_reclaim`, while the mapping of a record is removed that is not reinserted. -/
def reclaimDrop (workerId : ℕ) (scan : ReclaimScan) (scanned : ReclaimRecord) :
    PathM crc Unit := do
  let cursor :=
    if ← onIndex (RegionIndex.removeIfMatch crc scanned.header.keyHash scanned.location) then
      scan.cursor.removed.skipped
    else scan.cursor.skipped
  setReclaim workerId (.scanning { scan with cursor := cursor.advance scanned.recordEnd })

/-- `reclaim_worker_result`, after the scan. -/
def reclaimScanned (workerId : ℕ) (scan : ReclaimScan) : PathM crc Unit := do
  if scan.cursor.stats.reinsertRecords ≠ 0 then
    let generation ← orFail (drainRequest scan.shardId)
    setReclaim workerId (.draining scan generation)
  else setReclaim workerId (.emptied scan.receipt)

/-- `wait_for_drain`. -/
def reclaimWait (workerId : ℕ) (scan : ReclaimScan) (generation : ℕ) : PathM crc Unit := do
  if generation ≤ (← shard scan.shardId).drainCompleted then
    setReclaim workerId (.emptied scan.receipt)
  else pure ()

/-- `complete_reclaim`, when the generation is cleared. -/
def reclaimClear (workerId : ℕ) (receipt : RegionReclaimReceipt) : PathM crc Unit := do
  if receipt.regionId < (← get).generations.length then do
    modify fun s => { s with generations := s.generations.set receipt.regionId 0 }
    setReclaim workerId (.cleared receipt)
  else fail (.io (ioError .invalidData "reclaim Region id is out of bounds"))

/-- `complete_reclaim`, while the reclaim finishes. -/
def reclaimFinish (workerId : ℕ) (receipt : RegionReclaimReceipt) : PathM crc Unit := do
  manage (RegionManager.finishReclaim receipt)
  setReclaim workerId .idle

/-! ## Foreground -/

/-- `put`: the request of a value. -/
def putRequest (crc : List UInt8 → BitVec 32) (hash : Hash) (key value : List UInt8) :
    Except RecordEncodeError (StageRequest crc) := do
  let recordBytes ← requiredRecordBytes key.length value.length
  .ok ⟨hash, recordBytes, .new crc key value, none⟩

/-- `put`, up to the reservation of the record. -/
def put (chunkBytes regionSize shardId : ℕ) (hash : Hash) (key value : List UInt8) :
    PathM crc Unit := do
  let request ← orThrow ((putRequest crc hash key value).mapError .encode)
  rejectIf (regionSize < request.recordBytes)
    (.io (ioError .invalidInput "encoded file-chunk entry exceeds one Region"))
  let _ ← stageReserve chunkBytes shardId none request
  pure ()

/-- `begin_point_read`, while the index is probed. -/
def lookup (hash : Hash) : PathM crc (Option IndexEntry) :=
  onIndex (RegionIndex.lookupRaw crc hash)

/-- `begin_point_read`, while the generation is loaded. -/
def readCandidate (s : DataPath crc) (entry : IndexEntry) : Option ReadCandidate :=
  (s.generations[entry.location.regionId]?.filter (· ≠ 0)).map (⟨entry, ·⟩)

end DataPath

/-! ## What can happen next -/

/-- The size of a chunk, and the geometry of the data file. -/
structure PathConfig where
  chunkBytes : ℕ
  geometry : DataGeometry
  deriving DecidableEq, Repr

/-- The size of a Region. -/
def PathConfig.regionSize (c : PathConfig) : ℕ := c.geometry.regionSize.toNat

/-- The next section of a thread. A thread that may choose does so by `act`. -/
inductive PathAction
  | put (shardId : ℕ) (hash : Hash) (key value : List UInt8)
  | stage (shardId : ℕ)
  | deleteSeqno
  | deleteIndex (hash : Hash)
  | lookup (hash : Hash)
  | requestDrain (shardId : ℕ)
  | append (shardId : ℕ) (act : Bool)
  | deviceWrite (shardId start length : ℕ)
  | deviceDone (shardId : ℕ)
  | deviceFail (shardId : ℕ) (returned : Bool) (error : IoError)
  | reclaim (workerId shardId : ℕ) (act : Bool)
  deriving DecidableEq, Repr

namespace DataPath

variable {crc : List UInt8 → BitVec 32}

/-- The next section of the thread that stages a record. -/
def stageSection (c : PathConfig) (shardId : ℕ) : GatePhase crc → Option (PathM crc Unit)
  | .reserved owner request receipt =>
    some (stageBegin c.chunkBytes c.regionSize shardId owner request receipt)
  | .encoding owner request receipt start finish buffer =>
    some (stageFinish c.regionSize shardId owner request receipt start finish buffer)
  | _ => none

/-- The next section of an append worker. -/
def appendSection (c : PathConfig) (shardId : ℕ) (act : Bool) (gateFree rotationFree : Bool) :
    WorkerPhase → Option (PathM crc Unit)
  | .waiting => some (workerWake shardId)
  | .awake => some (if act then workerSnapshot c.chunkBytes shardId else setPhase shardId .flushed)
  | .locking => if gateFree then some (flushReserve shardId) else none
  | .padding receipt => some (flushPad c.chunkBytes c.regionSize shardId receipt)
  | .padded receipt => some (flushSeal shardId receipt)
  | .sealed span geometry => some (flushTake c.chunkBytes c.regionSize shardId span geometry)
  | .taken job geometry => some (flushSubmit shardId job geometry)
  | .writing _ => none
  | .written job => some (flushComplete shardId job)
  | .publishing job rest => some (flushPublish shardId job rest)
  | .flushed =>
    if act then
      if gateFree then some do
        setGate shardId .worker
        setPhase shardId .gated
      else none
    else some (setPhase shardId .rotated)
  | .gated => if rotationFree then some (rotateSelect shardId) else none
  | .selected candidate => some (rotateBegin shardId candidate)
  | .activating receipt => some (rotateStore shardId receipt)
  | .activated receipt => some (rotateFinish shardId receipt)
  | .rotated => some (workerDrain c.chunkBytes shardId)
  | .drained => some (drainComplete shardId)

/-- The next section of the device. -/
def deviceSection (f : StagedWrite → Option (PathM crc Unit)) :
    WorkerPhase → Option (PathM crc Unit)
  | .writing job => f job
  | _ => none

/-- The next section of a reclaim worker, which stages its records on the given shard. -/
def reclaimSection (c : PathConfig) (workerId shardId : ℕ) (act : Bool) :
    ReclaimPhase crc → PathM crc Unit
  | .idle => reclaimBegin workerId
  | .begun receipt => reclaimRead workerId shardId act receipt
  | .scanning scan => reclaimClassify workerId scan
  | .classified scan scanned => reclaimOffer c.chunkBytes workerId scan scanned act
  | .offering _ _ _ => pure ()
  | .dropping scan scanned => reclaimDrop workerId scan scanned
  | .scanned scan => reclaimScanned workerId scan
  | .draining scan generation => reclaimWait workerId scan generation
  | .emptied receipt => reclaimClear workerId receipt
  | .cleared receipt => reclaimFinish workerId receipt

/-- The section of an action, if the thread is not waiting. -/
def section? (c : PathConfig) (s : DataPath crc) : PathAction → Option (PathM crc Unit)
  | .put shardId hash key value => some (put c.chunkBytes c.regionSize shardId hash key value)
  | .stage shardId => s.shards[shardId]?.bind fun shard => stageSection c shardId shard.gate
  | .deleteSeqno => some do
    let _ ← manage RegionManager.allocateSeqno
    pure ()
  | .deleteIndex hash => some do
    let _ ← onIndex (RegionIndex.tryDelete crc hash)
    pure ()
  | .lookup hash => some do
    let _ ← lookup hash
    pure ()
  | .requestDrain shardId => some do
    let _ ← drainRequest shardId
    pure ()
  | .append shardId act => s.shards[shardId]?.bind fun shard =>
    appendSection c shardId act (shard.gate matches .free) s.rotation.isNone shard.worker.phase
  | .deviceWrite shardId start length => s.shards[shardId]?.bind fun shard =>
    deviceSection (fun job =>
      if start + length ≤ job.length then some (deviceWrite job start length) else none)
      shard.worker.phase
  | .deviceDone shardId => s.shards[shardId]?.bind fun shard =>
    deviceSection (fun job => some (deviceDone shardId job)) shard.worker.phase
  | .deviceFail shardId returned error => s.shards[shardId]?.bind fun shard =>
    deviceSection (fun job => some (deviceFail shardId job returned error)) shard.worker.phase
  | .reclaim workerId shardId act => s.reclaimers[workerId]?.bind fun phase =>
    if shardId < s.shards.length then some (reclaimSection c workerId shardId act phase) else none

/-- The state that a section ends in. -/
def after {α : Type} (f : PathM crc α) (s : DataPath crc) : DataPath crc :=
  match f s with
  | .ok _ s => s
  | .error _ s => s

/-- The state after an action, which is possible on a healthy store when the thread is not
waiting. -/
def step (c : PathConfig) (s : DataPath crc) (action : PathAction) : Option (DataPath crc) :=
  if s.healthy then (section? c s action).map fun f => after f s else none

end DataPath

end Cache2

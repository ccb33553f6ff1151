import Cache2.Region.Restart

set_option relaxedAutoImplicit false
set_option autoImplicit false

/-!
# Runs of the Region manager

A run starts with the manager of an empty data file and goes on with operations, in any order and
with any arguments, and with restarts. Every operation that succeeds leaves an event, so that a
run has a history: the numbers it has issued, the bytes it has reserved, the spans it has
submitted and completed, and the receipts it has handed out and taken back.

What an operation can do is said once, as a step. A step of the append path concerns one shard
and the Region it writes to (`ShardStep`); the others move a Region between the places
(`ManagerStep`).

## Main definitions

* `Cache2.ManagerEvent`, `Cache2.ManagerOp` — events and operations.
* `Cache2.ManagerReachable` — the managers that runs reach, with their histories.
* `Cache2.ManagerOp.effect`, `Cache2.runEffects` — operations that succeed or fail, one by one and
  in sequence.
* `Cache2.ShardStep`, `Cache2.ManagerStep` — what an operation can do.
-/

namespace Cache2

open Loop

/-! ## Events and operations -/

/-- What an operation has done. The generation of a Region is the number it was created with. -/
inductive ManagerEvent
  | activated (createdSeqno : ℕ)
  | sequenced (seqno : ℕ)
  | reserved (receipt : RegionAppendReservation)
  | staged (receipt : RegionAppendReservation)
  | aligned (shardId : ℕ)
  | padded (generation : ℕ) (receipt : RegionPaddingReceipt)
  | submitted (generation : ℕ) (padding : Option RegionPaddingReceipt) (span : RegionWriteSpan)
  | completed (generation : ℕ) (span : RegionWriteSpan)
  | rotating (receipt : RegionRotationReceipt)
  | rotated (receipt : RegionRotationReceipt)
  | reclaiming (receipt : RegionReclaimReceipt)
  | reclaimed (receipt : RegionReclaimReceipt)
  deriving DecidableEq, Repr

/-- The shard that an event is about. -/
def ManagerEvent.shard? : ManagerEvent → Option ℕ
  | .reserved receipt | .staged receipt => some receipt.shardId
  | .aligned shardId => some shardId
  | .padded _ receipt => some receipt.shardId
  | .submitted _ _ span | .completed _ span => some span.shardId
  | .rotating receipt | .rotated receipt => some receipt.shardId
  | .activated _ | .sequenced _ | .reclaiming _ | .reclaimed _ => none

/-- The last event of a shard. -/
def lastEvent (history : List ManagerEvent) (shardId : ℕ) : Option ManagerEvent :=
  (history.filter fun event => event.shard? = some shardId).getLast?

/-- An operation with its arguments. -/
inductive ManagerOp
  | requestRotationForAppend (shardId recordBytes : ℕ)
  | allocateSeqno
  | reserveAppend (shardId recordBytes : ℕ)
  | stageReservation (receipt : RegionAppendReservation)
  | reserveWritePadding (shardId : ℕ)
  | sealWriteSpan (shardId : ℕ)
  | sealWriteSpanWithPadding (padding : RegionPaddingReceipt)
  | completeWriteSpan (span : RegionWriteSpan)
  | beginRotation (candidate : RegionRotationCandidate)
  | finishRotation (receipt : RegionRotationReceipt)
  | beginReclaim
  | finishReclaim (receipt : RegionReclaimReceipt)
  deriving DecidableEq, Repr

/-- Runs an operation, and says what it has done. -/
def ManagerOp.run : ManagerOp → ManagerM (List ManagerEvent)
  | .requestRotationForAppend shardId recordBytes => do
    let _ ← RegionManager.requestRotationForAppend shardId recordBytes
    pure []
  | .allocateSeqno => do
    let seqno ← RegionManager.allocateSeqno
    pure [.sequenced seqno]
  | .reserveAppend shardId recordBytes => do
    let receipt ← RegionManager.reserveAppend shardId recordBytes
    pure [.reserved receipt]
  | .stageReservation receipt => do
    RegionManager.stageReservation receipt
    pure [.staged receipt]
  | .reserveWritePadding shardId => do
    let padding ← RegionManager.reserveWritePadding shardId
    let m ← get
    match padding with
    | none => pure [.aligned shardId]
    | some receipt => pure [.padded (m.generation receipt.regionId) receipt]
  | .sealWriteSpan shardId => do
    let span ← RegionManager.sealWriteSpan shardId
    let m ← get
    pure [.submitted (m.generation span.regionId) none span]
  | .sealWriteSpanWithPadding padding => do
    let span ← RegionManager.sealWriteSpanWithPadding padding
    let m ← get
    pure [.submitted (m.generation span.regionId) (some padding) span]
  | .completeWriteSpan span => do
    RegionManager.completeWriteSpan span
    let m ← get
    pure [.completed (m.generation span.regionId) span]
  | .beginRotation candidate => do
    let receipt ← RegionManager.beginRotation candidate
    pure [.rotating receipt]
  | .finishRotation receipt => do
    RegionManager.finishRotation receipt
    pure [.rotated receipt]
  | .beginReclaim => do
    match ← RegionManager.beginReclaim with
    | none => pure []
    | some receipt => pure [.reclaiming receipt]
  | .finishReclaim receipt => do
    RegionManager.finishReclaim receipt
    pure [.reclaimed receipt]

/-- The managers that runs reach, with what the runs have done: a run starts cold, operations
succeed or fail, the number of reclaim workers is set, and the process restarts. -/
inductive ManagerReachable : RegionManager → List ManagerEvent → Prop
  | cold {data : DataSuperblock} {indexSlots : ℕ} {appendShards : BitVec 32}
      {metadata : RegionMetadata} {m : RegionManager}
      (hempty : emptyRegionMetadata data indexSlots appendShards = .ok metadata)
      (hm : RegionManager.fromMetadata metadata = .ok m) :
      ManagerReachable m ((m.createdSeqnos 0).map .activated)
  | ok {m m' : RegionManager} {history events : List ManagerEvent} {op : ManagerOp}
      (h : ManagerReachable m history) (hop : op.run m = .ok events m') :
      ManagerReachable m' (history ++ events)
  | error {m m' : RegionManager} {history : List ManagerEvent} {op : ManagerOp}
      {e : RegionMutationError} (h : ManagerReachable m history) (hop : op.run m = .error e m') :
      ManagerReachable m' history
  | configured {m m' : RegionManager} {history : List ManagerEvent} {workers : ℕ}
      (h : ManagerReachable m history)
      (hop : RegionManager.configureReclaimWorkers workers m = .ok () m') :
      ManagerReachable m' history
  | restarted {m m' : RegionManager} {history : List ManagerEvent}
      {partitions : List PartitionMetadataRecord} {identity : PersistentId}
      {generation : BitVec 64} {appendShards : BitVec 32} (h : ManagerReachable m history)
      (hop : m.restart partitions identity generation appendShards = .ok m') :
      ManagerReachable m' (history ++ (m'.createdSeqnos m.activeRegions.length).map .activated)

/-- What an operation leaves, whether it succeeds or fails, and what it has done. -/
def ManagerOp.effect (op : ManagerOp) (m : RegionManager) : List ManagerEvent × RegionManager :=
  match op.run m with
  | .ok events m' => (events, m')
  | .error _ m' => ([], m')

/-- Operations one after another. -/
def runEffects : List ManagerOp → RegionManager → List ManagerEvent × RegionManager
  | [], m => ([], m)
  | op :: rest, m =>
    ((op.effect m).1 ++ (runEffects rest (op.effect m).2).1, (runEffects rest (op.effect m).2).2)

section Effects

variable {m : RegionManager} {history : List ManagerEvent}

/-- The effect of an operation continues a run. -/
lemma ManagerReachable.effect (h : ManagerReachable m history) (op : ManagerOp) :
    ManagerReachable (op.effect m).2 (history ++ (op.effect m).1) := by
  unfold ManagerOp.effect
  cases hop : op.run m with
  | ok events m' => exact h.ok hop
  | error e m' =>
    rw [List.append_nil]
    exact h.error hop

/-- The effects of operations continue a run. -/
lemma ManagerReachable.effects (h : ManagerReachable m history) (ops : List ManagerOp) :
    ManagerReachable (runEffects ops m).2 (history ++ (runEffects ops m).1) := by
  induction ops generalizing m history with
  | nil =>
    rw [runEffects, List.append_nil]
    exact h
  | cons op rest ih =>
    rw [runEffects, ← List.append_assoc]
    exact ih (h.effect op)

end Effects

/-! ## Steps -/

/-- What an operation of the append path can do to a shard and the Region it writes to, in a
manager with Regions of `size` bytes that issues `next` next. -/
inductive ShardStep (size shardId regionId : ℕ) (shard : AppendShardState) (region : RegionDesc)
    (next : ℕ) : List ManagerEvent → AppendShardState → RegionDesc → ℕ → Prop
  | requested :
      ShardStep size shardId regionId shard region next []
        { shard with rotationRequested := true } region next
  | reserved {n : ℕ} (hn : n ≠ 0 ∧ n % 32 = 0)
      (hidle : shard.tail = none ∧ shard.pendingPadding = none ∧ shard.rotation = none)
      (hfit : region.reservedUsed + n ≤ size) (hnext : next ≠ u64Max) :
      ShardStep size shardId regionId shard region next
        [.reserved ⟨shardId, regionId, region.createdSeqno, region.reservedUsed, n, next⟩]
        { shard with
          tail := some ⟨shardId, regionId, region.createdSeqno, region.reservedUsed, n, next⟩ }
        { region with reservedUsed := region.reservedUsed + n } (next + 1)
  | staged {r : RegionAppendReservation} {span : OpenWriteSpan} (htail : shard.tail = some r)
      (hspan : RegionManager.nextSpan r (r.offset + r.recordBytes) shard.openSpan = .ok span) :
      ShardStep size shardId regionId shard region next [.staged r]
        { shard with openSpan := some span, tail := none } region next
  | aligned {o : OpenWriteSpan} (hopen : shard.openSpan = some o)
      (hidle : shard.tail = none ∧ shard.pendingPadding = none ∧ shard.submittedSpan = none ∧
        shard.rotation = none)
      (hend : o.endOffset % 4096 = 0) :
      ShardStep size shardId regionId shard region next [.aligned shardId] shard region next
  | padded {o : OpenWriteSpan} {finish : ℕ} (hopen : shard.openSpan = some o)
      (hidle : shard.tail = none ∧ shard.pendingPadding = none ∧ shard.submittedSpan = none ∧
        shard.rotation = none)
      (hreserved : region.reservedUsed = o.endOffset)
      (hfinish : o.endOffset < finish ∧ finish < o.endOffset + 4096 ∧ finish % 4096 = 0 ∧
        finish ≤ size) :
      ShardStep size shardId regionId shard region next
        [.padded region.createdSeqno ⟨shardId, o.regionId, o.startOffset, o.endOffset, finish,
          o.recordCount, o.maxSeqno⟩]
        { shard with pendingPadding := some ⟨shardId, o.regionId, o.startOffset, o.endOffset,
          finish, o.recordCount, o.maxSeqno⟩ }
        { region with reservedUsed := finish } next
  | submitted {o : OpenWriteSpan} {finish : ℕ} {padding : Option RegionPaddingReceipt}
      (hopen : shard.openSpan = some o) (hpadding : shard.pendingPadding = padding)
      (hidle : shard.tail = none ∧ shard.submittedSpan = none ∧ shard.rotation = none)
      (hstart : o.startOffset % 4096 = 0) (hfinish : finish % 4096 = 0)
      (hlt : o.startOffset < finish)
      (hend : finish = (padding.map (·.paddedEndOffset)).getD o.endOffset) :
      ShardStep size shardId regionId shard region next
        [.submitted region.createdSeqno padding ⟨shardId, o.regionId, o.startOffset, finish,
          o.recordCount, o.maxSeqno⟩]
        (RegionManager.submitted shardId finish shard o) region next
  | completed {span : RegionWriteSpan} (hspan : shard.submittedSpan = some span)
      (hstart : region.completedUsed = span.startOffset)
      (hend : span.endOffset ≤ region.reservedUsed)
      (hcount : region.physicalRecordCount + span.recordCount < 2 ^ 64) :
      ShardStep size shardId regionId shard region next [.completed region.createdSeqno span]
        { shard with submittedSpan := none }
        { region with
          completedUsed := span.endOffset
          physicalRecordCount := region.physicalRecordCount + span.recordCount } next

namespace RegionManager

/-- Replaces a shard, its Region and the next number. -/
def put (m : RegionManager) (shardId regionId : ℕ) (shard : AppendShardState)
    (region : RegionDesc) (next : ℕ) : RegionManager :=
  { m with
    nextSeqno := next
    regions := m.regions.set regionId region
    appendStates := m.appendStates.set shardId shard }

/-- The manager after a finished rotation. -/
def rotated (m : RegionManager) (shard : AppendShardState) (r : RegionRotationReceipt) :
    RegionManager :=
  { m.setShard r.shardId { shard with rotation := none } with
    sealedRegions := m.sealedRegions ++ [r.sealedRegionId]
    rotations := Word.saturatingAdd 64 m.rotations 1 }

/-- The manager after a finished reclaim. -/
def reclaimed (m : RegionManager) (position : ℕ) (r : RegionReclaimReceipt) : RegionManager :=
  { m.setRegion r.regionId (.empty .free 0) with
    freeRegions := m.freeRegions ++ [r.regionId]
    reclaiming := Queue.swapRemove m.reclaiming position }

end RegionManager

/-- What an operation can do. -/
inductive ManagerStep (m : RegionManager) : List ManagerEvent → RegionManager → Prop
  | unchanged : ManagerStep m [] m
  | sequenced (hnext : m.nextSeqno ≠ u64Max) :
      ManagerStep m [.sequenced m.nextSeqno] { m with nextSeqno := m.nextSeqno + 1 }
  | shard {shardId regionId : ℕ} {shard shard' : AppendShardState} {region region' : RegionDesc}
      {next : ℕ} {events : List ManagerEvent} (hat : m.ShardAt shardId shard regionId region)
      (hstep : ShardStep m.regionSize shardId regionId shard region m.nextSeqno events shard'
        region' next) :
      ManagerStep m events (m.put shardId regionId shard' region' next)
  | rotating {shard : AppendShardState} {old victim : RegionDesc} {free : List ℕ}
      {r : RegionRotationReceipt} (hat : m.ShardAt r.shardId shard r.sealedRegionId old)
      (hidle : shard.tail = none ∧ shard.openSpan = none ∧ shard.pendingPadding = none ∧
        shard.submittedSpan = none ∧ shard.rotation = none)
      (hold : old.reservedUsed = old.completedUsed)
      (hfree : m.freeRegions = r.activatedRegionId :: free)
      (hvictim : m.regions[r.activatedRegionId]? = some victim ∧ victim.state = .free ∧
        r.activatedRegionId ≠ r.sealedRegionId)
      (hnext : m.nextSeqno ≠ u64Max) (hcreated : r.activatedCreatedSeqno = m.nextSeqno) :
      ManagerStep m [.rotating r] (m.rotating shard old free r)
  | rotated {shard : AppendShardState} {r : RegionRotationReceipt}
      (hshard : m.appendStates[r.shardId]? = some shard) (hr : shard.rotation = some r) :
      ManagerStep m [.rotated r] (m.rotated shard r)
  | reclaiming {id : ℕ} {rest : List ℕ} {region : RegionDesc} (hneeded : m.reclaimNeeded = true)
      (hsealed : m.sealedRegions = id :: rest) (hregion : m.regions[id]? = some region) :
      ManagerStep m
        [.reclaiming ⟨id, region.createdSeqno, region.completedUsed, region.physicalRecordCount⟩]
        { m with
          sealedRegions := rest
          reclaiming := m.reclaiming ++ [⟨id, region.createdSeqno, region.completedUsed,
            region.physicalRecordCount⟩] }
  | reclaimed {position : ℕ} {r : RegionReclaimReceipt} {region : RegionDesc}
      (hposition : m.reclaiming[position]? = some r)
      (hregion : m.regions[r.regionId]? = some region) :
      ManagerStep m [.reclaimed r] (m.reclaimed position r)

end Cache2

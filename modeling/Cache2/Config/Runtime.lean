import Cache2.Config.Storage
import Cache2.Memory.Store

set_option relaxedAutoImplicit false
set_option autoImplicit false

/-!
# Runtime options

The options of a running cache are resolved and checked against the storage layout and the memory
limit (`config/runtime.rs`). What the host provides, the deadlines that fit its clock and the memory
that the parts of a cache reserve are parameters: they depend on the build and on the sizes of
types.

## Main definitions

* `Cache2.RuntimeOptions.resolve` — the checks that do not need the layout.
* `Cache2.CacheConfig.new` — a layout with runtime options.

## Main results

* `Cache2.CacheConfig.new_eq_ok` — what an accepted configuration satisfies.
* `Cache2.RuntimeOptions.memoryRequirements_eq_ok` — what the least number of bytes has room for.
-/

namespace Cache2

open Loop

/-! ## Options -/

/-- `PosixIoOptions`. -/
structure PosixIoOptions where
  readWorkers : ℕ
  writeWorkers : ℕ
  reclaimWorkers : ℕ
  deriving DecidableEq, Repr

/-- `IoUringPoolOptions`, without the parameters of the kernel's polling thread. -/
structure IoUringPoolOptions where
  rings : ℕ
  maxInFlight : ℕ
  ioPoll : Bool
  deriving DecidableEq, Repr

/-- `IoUringOptions`. -/
structure IoUringOptions where
  read : IoUringPoolOptions
  write : IoUringPoolOptions
  reclaim : IoUringPoolOptions
  deriving DecidableEq, Repr

/-- `IoEngineOptions`. -/
inductive IoEngineOptions
  | posix (options : PosixIoOptions)
  | ioUring (options : IoUringOptions)
  deriving DecidableEq, Repr

/-- `IoPoolTopology`. -/
inductive IoPoolTopology
  | posix (workers : ℕ)
  | ioUring (options : IoUringPoolOptions)
  deriving DecidableEq, Repr

namespace IoPoolTopology

/-- `read`. -/
def read : IoEngineOptions → IoPoolTopology
  | .posix options => .posix options.readWorkers
  | .ioUring options => .ioUring options.read

/-- `write`. -/
def write : IoEngineOptions → IoPoolTopology
  | .posix options => .posix options.writeWorkers
  | .ioUring options => .ioUring options.write

/-- `reclaim`. -/
def reclaim : IoEngineOptions → IoPoolTopology
  | .posix options => .posix options.reclaimWorkers
  | .ioUring options => .ioUring options.reclaim

/-- `engine_count`. -/
def engineCount : IoPoolTopology → ℕ
  | .posix _ => 1
  | .ioUring options => options.rings

/-- `max_in_flight`. -/
def maxInFlight : IoPoolTopology → ℕ
  | .posix workers => workers
  | .ioUring options => options.maxInFlight

/-- `worker_threads`. -/
def workerThreads : IoPoolTopology → ℕ
  | .posix workers => workers
  | .ioUring options => options.rings

/-- `extra_memory_bytes`. -/
def extraMemoryBytes : IoPoolTopology → Option ℕ
  | .posix _ => some 0
  | .ioUring options =>
    (Word.checkedMul 64 options.maxInFlight 1536).bind fun bytes =>
      (Word.checkedMul 64 options.rings (256 * 1024)).bind fun ringBytes =>
        Word.checkedAdd 64 bytes ringBytes

end IoPoolTopology

/-- `IoMode`. -/
inductive IoMode
  | buffered
  | direct
  deriving DecidableEq, Repr

/-- `ReadAdmission`, with times in nanoseconds. -/
inductive ReadAdmission
  | immediate
  | wait (timeout : ℕ) (maxWaiters : Option ℕ)
  deriving DecidableEq, Repr

/-- `FillLimits`. -/
structure FillLimits where
  maxBytesPerSecond : BitVec 64
  maxRecordsPerSecond : BitVec 32
  deriving DecidableEq, Repr

/-- `FillControlOptions`. -/
inductive FillControlOptions
  | disabled
  | observe (limits : FillLimits)
  | adaptive (limits : FillLimits)
  deriving DecidableEq, Repr

/-- `RuntimeOptions`, with times in nanoseconds and options of the statistics `σ`. -/
structure RuntimeOptions (σ : Type) where
  ioEngine : IoEngineOptions
  ioMode : IoMode
  readAdmission : ReadAdmission
  reclaimIoTimeout : ℕ
  ioRecoveryTimeout : Option ℕ
  fillControl : FillControlOptions
  appendShards : BitVec 32
  l1CapacityBytes : ℕ
  l1EvictionPolicy : L1EvictionPolicy
  managedMemoryLimitBytes : ℕ
  l1Shards : ℕ
  writeFlushThresholdBytes : ℕ
  stats : σ

/-- What the host decides: which engines there are, which deadlines its clock can hold, and how much
memory the parts of a cache reserve. -/
structure Host (σ : Type) where
  /-- `io_uring_unavailability`. -/
  ioUringUnavailability : Option String
  /-- Whether there is direct I/O. -/
  directAvailable : Bool
  /-- Whether the time that lies so many nanoseconds ahead can be represented. -/
  deadlineFits : ℕ → Bool
  /-- `Recorder::allocation_bytes`. -/
  recorderBytes : σ → Except IoError ℕ
  /-- `FillController::allocation_bytes`. -/
  fillControllerBytes : FillControlOptions → ℕ → Except IoError ℕ
  /-- `MemoryStore::allocation_bytes`. -/
  memoryStoreBytes : ℕ → ℕ → ℕ → L1EvictionPolicy → Except IoError ℕ
  /-- `runtime_fixed_memory_bytes`. -/
  runtimeFixedMemoryBytes : ℕ → BitVec 32 → Except IoError ℕ
  /-- `AppendStaging::reservation_bytes`. -/
  stagingReservationBytes : ℕ → ℕ → Option ℕ
  /-- The size of `ActivityMetrics`. -/
  activityMetricsBytes : ℕ

/-- `MAX_APPEND_SHARDS`. -/
def maxAppendShards : ℕ := 256

/-- `MAX_CONFIG_COUNT`. -/
def maxConfigCount : ℕ := 65536

/-- `MAX_IO_REQUESTS_PER_ENGINE`. -/
def maxIoRequestsPerEngine : ℕ := 4096

/-- `MAX_WRITE_FLUSH_THRESHOLD_BYTES`. -/
def maxWriteFlushThresholdBytes : ℕ := 4 * 1024 * 1024

/-- `BUFFER_ALIGNMENT`. -/
def bufferAlignment : ℕ := 4096

/-- `CACHE_THREAD_STACK_BYTES`. -/
def cacheThreadStackBytes : ℕ := 512 * 1024

/-- `IO_QUEUE_ENTRY_RESERVATION_BYTES`. -/
def ioQueueEntryReservationBytes : ℕ := 512

/-- `RUNTIME_CONTROL_RESERVATION_BYTES`. -/
def runtimeControlReservationBytes : ℕ := 4096

/-- `MIN_L1_SIZING_ENTRY_BYTES`. -/
def minL1SizingEntryBytes : ℕ := 4 * 1024

/-- Five seconds, `MAX_READ_IO_WAIT_TIMEOUT`. -/
def maxReadIoWaitTimeout : ℕ := 5 * 10 ^ 9

/-- `Duration::checked_add`: durations have at most `u64::MAX` seconds. -/
def durationCheckedAdd (a b : ℕ) : Option ℕ :=
  if a + b < 2 ^ 64 * 10 ^ 9 then some (a + b) else none

/-! ## Resolving -/

/-- `validate_posix_pool`. -/
def validatePosixPool (name : String) (topology : IoPoolTopology) : Except IoError Unit :=
  if ¬ (1 ≤ topology.maxInFlight ∧ topology.maxInFlight ≤ maxIoRequestsPerEngine) then
    .error (invalidConfig ("POSIX " ++ name ++ " worker count must be in 1..=4096"))
  else .ok ()

/-- `validate_io_uring_pool`. -/
def validateIoUringPool (name : String) (options : IoUringPoolOptions) : Except IoError Unit :=
  if ¬ (1 ≤ options.rings ∧ options.rings ≤ maxConfigCount) then
    .error (invalidConfig ("io_uring " ++ name ++ " ring count must be in 1..=65536"))
  else if ¬ (1 ≤ options.maxInFlight ∧ options.maxInFlight ≤ maxConfigCount) then
    .error (invalidConfig
      ("io_uring " ++ name ++ " maximum in-flight requests must be in 1..=65536"))
  else if options.maxInFlight < options.rings then
    .error (invalidConfig
      ("io_uring " ++ name ++ " ring count must not exceed its in-flight limit"))
  else if maxIoRequestsPerEngine < (options.maxInFlight + (options.rings - 1)) / options.rings then
    .error (invalidConfig ("io_uring " ++ name ++ " per-ring depth must not exceed 4096"))
  else .ok ()

/-- The check of the three pools. -/
def validatePools (engine : IoEngineOptions) (mode : IoMode) : Except IoError Unit :=
  match engine with
  | .posix _ => do
    validatePosixPool "read" (.read engine)
    validatePosixPool "write" (.write engine)
    validatePosixPool "reclaim" (.reclaim engine)
  | .ioUring options => do
    validateIoUringPool "read" options.read
    validateIoUringPool "write" options.write
    validateIoUringPool "reclaim" options.reclaim
    if mode ≠ .direct ∧ (options.read.ioPoll ∨ options.write.ioPoll ∨ options.reclaim.ioPoll) then
      .error (invalidConfig "io_uring IOPOLL requires direct I/O mode")
    else .ok ()

/-- The read admission with its capacity. -/
def resolveReadAdmission (engine : IoEngineOptions) : ReadAdmission → Except IoError ReadAdmission
  | .immediate => .ok .immediate
  | .wait timeout maxWaiters =>
    if timeout = 0 ∨ maxReadIoWaitTimeout < timeout then
      .error (invalidConfig "read wait timeout must be greater than zero and at most five seconds")
    else
      let capacity := maxWaiters.getD (IoPoolTopology.read engine).maxInFlight
      if ¬ (1 ≤ capacity ∧ capacity ≤ maxConfigCount) then
        .error (invalidConfig "maximum read waiters must be in 1..=65536")
      else .ok (.wait timeout (some capacity))

/-- The check of the engine and the mode. -/
def checkAvailable {σ : Type} (host : Host σ) (engine : IoEngineOptions) (mode : IoMode) :
    Except IoError Unit :=
  match engine, host.ioUringUnavailability with
  | .ioUring _, some reason => .error (ioError .unsupported reason)
  | _, _ =>
    if mode = .direct ∧ host.directAvailable = false then
      .error (ioError .unsupported "direct I/O is unavailable on this platform")
    else .ok ()

namespace RuntimeOptions

variable {σ : Type}

/-- Whether both timeouts fit a deadline together. -/
def recoveryDeadlineFits (host : Host σ) (options : RuntimeOptions σ) (recovery : ℕ) : Bool :=
  (durationCheckedAdd (max options.reclaimIoTimeout (5 * 10 ^ 9)) recovery).elim false
    host.deadlineFits

/-- `resolve`. -/
def resolve (host : Host σ) (options : RuntimeOptions σ) : Except IoError (RuntimeOptions σ) := do
  checkAvailable host options.ioEngine options.ioMode
  if options.appendShards = 0 ∨ maxAppendShards < options.appendShards.toNat then
    .error (invalidConfig "append shards must be in 1..=256")
  else if options.reclaimIoTimeout = 0 ∨ host.deadlineFits options.reclaimIoTimeout = false then
    .error (invalidConfig "reclaim I/O timeout must be positive and fit an absolute deadline")
  else if options.ioRecoveryTimeout.any (fun recovery =>
      !options.recoveryDeadlineFits host recovery) then
    .error (invalidConfig "I/O recovery timeout must fit the combined absolute deadline")
  else do
    validatePools options.ioEngine options.ioMode
    if options.appendShards.toNat < (IoPoolTopology.reclaim options.ioEngine).maxInFlight then
      .error (invalidConfig "reclaim I/O concurrency must be no greater than append shards")
    else do
      let readAdmission ← resolveReadAdmission options.ioEngine options.readAdmission
      if options.managedMemoryLimitBytes = 0 then
        .error (invalidConfig "managed memory limit must be non-zero")
      else if options.managedMemoryLimitBytes < options.l1CapacityBytes then
        .error (invalidConfig "L1 capacity must not exceed the managed memory limit")
      else if options.l1Shards = 0 ∨ maxConfigCount < options.l1Shards then
        .error (invalidConfig "L1 shards must be in 1..=65536")
      else if options.writeFlushThresholdBytes = 0 ∨
          maxWriteFlushThresholdBytes < options.writeFlushThresholdBytes ∨
          options.writeFlushThresholdBytes % bufferAlignment ≠ 0 then
        .error (invalidConfig
          "write flush threshold must be 4 KiB aligned and within 4 KiB..=4 MiB")
      else .ok { options with readAdmission }

/-! ## Memory -/

/-- `MemoryStore::maximum_entry_capacity`. -/
def maximumEntryCapacity (capacityBytes shardCount : ℕ) : ℕ :=
  if shardCount = 0 then 0
  else (List.range shardCount).foldl (fun total shardId =>
    Word.saturatingAdd 64 total (min (MemoryStore.shardShare capacityBytes shardCount shardId /
      memoryEntryOverheadBytes) (maxPolicySlotIndex + 1))) 0

/-- `l1_entry_capacity`. -/
def l1EntryCapacity (options : RuntimeOptions σ) (geometry : DataGeometry) (indexSlots : ℕ) :
    Except IoError ℕ :=
  if options.l1CapacityBytes = 0 then .ok 0
  else do
    let l2Capacity ← orInvalidConfig "L2 capacity does not fit the L1 sizing"
      ((Word.checkedMul 128 geometry.regionSize.toNat geometry.regionCount.toNat).filter (· ≠ 0))
    let expectedEntries := max ((indexSlots + 1) / 2) 1
    let proportional ← orInvalidConfig "L1 entry capacity does not fit usize"
      ((((Word.checkedMul 128 expectedEntries options.l1CapacityBytes).bind fun entries =>
        Word.checkedAdd 128 entries (l2Capacity - 1)).map (· / l2Capacity)).filter (· < 2 ^ 64))
    let fourKibDensity :=
      (options.l1CapacityBytes + (minL1SizingEntryBytes - 1)) / minL1SizingEntryBytes
    let maximum := maximumEntryCapacity options.l1CapacityBytes options.l1Shards
    let minimum := min options.l1Shards maximum
    .ok (min (max (min (max proportional fourKibDensity) expectedEntries) minimum) maximum)

/-- `read_io_wait_capacity`. -/
def readIoWaitCapacity (options : RuntimeOptions σ) : ℕ :=
  match options.readAdmission with
  | .immediate => 0
  | .wait _ maxWaiters => maxWaiters.getD (IoPoolTopology.read options.ioEngine).maxInFlight

/-- A sum that must fit 64 bits at every step. -/
def checkedSum (first : ℕ) (rest : List ℕ) : Option ℕ :=
  rest.foldlM (Word.checkedAdd 64) first

/-- `runtime_topology_memory_bytes`. -/
def runtimeTopologyMemoryBytes (host : Host σ) (options : RuntimeOptions σ) : Option ℕ := do
  let shardCount := options.appendShards.toNat
  let read := IoPoolTopology.read options.ioEngine
  let write := IoPoolTopology.write options.ioEngine
  let reclaim := IoPoolTopology.reclaim options.ioEngine
  let engineCount ← checkedSum read.engineCount [write.engineCount, reclaim.engineCount]
  let stackCount ← checkedSum read.workerThreads
    [write.workerThreads, reclaim.workerThreads, engineCount, shardCount, reclaim.maxInFlight]
  let stackBytes ← Word.checkedMul 64 stackCount cacheThreadStackBytes
  let entries ← checkedSum write.maxInFlight
    [read.maxInFlight, options.readIoWaitCapacity, reclaim.maxInFlight]
  let queue ← Word.checkedMul 64 entries ioQueueEntryReservationBytes
  let readBytes ← read.extraMemoryBytes
  let writeBytes ← write.extraMemoryBytes
  let reclaimBytes ← reclaim.extraMemoryBytes
  let uring ← checkedSum readBytes [writeBytes, reclaimBytes]
  let controlCount ← checkedSum engineCount [shardCount, options.l1Shards, reclaim.maxInFlight]
  let controls ← Word.checkedMul 64 controlCount runtimeControlReservationBytes
  let metrics ← Word.checkedMul 64 shardCount host.activityMetricsBytes
  checkedSum stackBytes [queue, uring, controls, metrics]

/-- `memory_requirements`: the reserved bytes and the least number of bytes. -/
def memoryRequirements (host : Host σ) (options : RuntimeOptions σ) (geometry : DataGeometry)
    (fixedBytes : ℕ) : Except IoError (ℕ × ℕ) := do
  let topologyBytes ← orInvalidConfig "runtime topology memory requirements overflow"
    (options.runtimeTopologyMemoryBytes host)
  let usableRegion := geometry.regionSize.toNat
  let writeBuffers ← orInvalidConfig "write buffer memory requirements overflow"
    (host.stagingReservationBytes options.appendShards.toNat usableRegion)
  let reserved ← orInvalidConfig "reserved memory requirements overflow"
    (checkedSum fixedBytes [options.l1CapacityBytes, topologyBytes])
  let reclaimBuffers ← orInvalidConfig "reclaim buffer memory requirements overflow"
    (Word.checkedMul 64 usableRegion (IoPoolTopology.reclaim options.ioEngine).maxInFlight)
  let minimum ← orInvalidConfig "minimum memory requirements overflow"
    (checkedSum reserved [writeBuffers, reclaimBuffers, usableRegion])
  .ok (reserved, minimum)

end RuntimeOptions

/-! ## The configuration -/

/-- `CacheConfig`. -/
structure CacheConfig (σ : Type) where
  storage : StorageLayout
  runtime : RuntimeOptions σ
  l1EntryCapacity : ℕ
  reservedMemoryBytes : ℕ
  minimumMemoryBytes : ℕ

namespace CacheConfig

variable {σ : Type}

/-- The checks of `CacheConfig::new`. -/
def check (host : Host σ) (storage : StorageLayout) (runtime : RuntimeOptions σ) :
    Except IoError (CacheConfig σ) := do
  let runtime ← runtime.resolve host
  let statsBytes ← host.recorderBytes runtime.stats
  let fillBytes ← host.fillControllerBytes runtime.fillControl
    (runtime.appendShards.toNat + (IoPoolTopology.reclaim runtime.ioEngine).maxInFlight)
  if storage.geometry.regionCount ≤ runtime.appendShards then
    .error (invalidConfig ("append shards require valid geometry with one Active Region each " ++
      "plus one spare Region"))
  else do
    let l1EntryCapacity ← runtime.l1EntryCapacity storage.geometry storage.indexSlots
    let l1MetadataBytes ← host.memoryStoreBytes runtime.l1CapacityBytes l1EntryCapacity
      runtime.l1Shards runtime.l1EvictionPolicy
    let regionBytes ←
      host.runtimeFixedMemoryBytes storage.indexSlots storage.geometry.regionCount
    let fixedBytes ← orInvalidConfig "fixed memory requirements overflow"
      (RuntimeOptions.checkedSum regionBytes [l1MetadataBytes, statsBytes, fillBytes])
    let requirements ← runtime.memoryRequirements host storage.geometry fixedBytes
    if runtime.managedMemoryLimitBytes < requirements.2 then
      .error (invalidConfig ("managed memory limit cannot hold the cache memory requirements: " ++
        "requires " ++ toString requirements.2 ++ " bytes, configured " ++
        toString runtime.managedMemoryLimitBytes ++ " bytes"))
    else .ok ⟨storage, runtime, l1EntryCapacity, requirements.1, requirements.2⟩

/-- `CacheConfig::new`. -/
def new (host : Host σ) (storage : StorageLayout) (runtime : RuntimeOptions σ) :
    Except OperationError (CacheConfig σ) :=
  (check host storage runtime).mapError fun error => ⟨.buildConfig, error⟩

/-! ## Accepted configurations -/

/-- What an accepted configuration satisfies. -/
structure Accepted (config : CacheConfig σ) : Prop where
  shards_pos : 0 < config.runtime.appendShards.toNat
  shards_le : config.runtime.appendShards.toNat ≤ 256
  shards_lt : config.runtime.appendShards.toNat < config.storage.geometry.regionCount.toNat
  reclaim_pos : 0 < (IoPoolTopology.reclaim config.runtime.ioEngine).maxInFlight
  reclaim_le : (IoPoolTopology.reclaim config.runtime.ioEngine).maxInFlight ≤
    config.runtime.appendShards.toNat

/-- Every pool that is accepted has room for a request. -/
lemma validatePools_eq_ok {engine : IoEngineOptions} {mode : IoMode}
    (h : validatePools engine mode = .ok ()) : 0 < (IoPoolTopology.reclaim engine).maxInFlight := by
  cases engine with
  | posix options =>
    simp only [validatePools, except_bind_eq_ok, validatePosixPool, ite_error_eq_ok, not_not] at h
    obtain ⟨⟨⟩, -, ⟨⟩, -, hreclaim, -⟩ := h
    exact hreclaim.1
  | ioUring options =>
    simp only [validatePools, except_bind_eq_ok, validateIoUringPool, ite_error_eq_ok,
      not_not] at h
    obtain ⟨⟨⟩, -, ⟨⟩, -, ⟨⟩, ⟨-, hreclaim, -⟩, -⟩ := h
    exact hreclaim.1

/-- What resolving establishes; the number of shards and the engine stay as they are. -/
lemma resolve_eq_ok {host : Host σ} {options resolved : RuntimeOptions σ}
    (h : options.resolve host = .ok resolved) :
    0 < resolved.appendShards.toNat ∧ resolved.appendShards.toNat ≤ 256 ∧
      0 < (IoPoolTopology.reclaim resolved.ioEngine).maxInFlight ∧
      (IoPoolTopology.reclaim resolved.ioEngine).maxInFlight ≤ resolved.appendShards.toNat := by
  rw [RuntimeOptions.resolve, except_bind_eq_ok] at h
  obtain ⟨⟨⟩, -, h⟩ := h
  rw [ite_error_eq_ok, ite_error_eq_ok, ite_error_eq_ok, except_bind_eq_ok] at h
  obtain ⟨hshards, -, -, ⟨⟩, hpools, h⟩ := h
  rw [ite_error_eq_ok, except_bind_eq_ok] at h
  obtain ⟨hreclaim, readAdmission, -, h⟩ := h
  simp only [ite_error_eq_ok, Except.ok.injEq] at h
  obtain ⟨-, -, -, -, rfl⟩ := h
  rw [not_or, Nat.not_lt] at hshards
  refine ⟨Nat.pos_of_ne_zero fun hz => hshards.1 (BitVec.eq_of_toNat_eq (by simpa using hz)),
    hshards.2, validatePools_eq_ok hpools, Nat.le_of_not_lt hreclaim⟩

/-- **Configurations.** A configuration that is built is accepted. -/
theorem new_eq_ok {host : Host σ} {storage : StorageLayout} {runtime : RuntimeOptions σ}
    {config : CacheConfig σ} (h : new host storage runtime = .ok config) :
    config.storage = storage ∧ config.Accepted := by
  rw [new, mapError_eq_ok, check, except_bind_eq_ok] at h
  obtain ⟨resolved, hresolved, h⟩ := h
  rw [except_bind_eq_ok] at h
  obtain ⟨statsBytes, -, h⟩ := h
  rw [except_bind_eq_ok] at h
  obtain ⟨fillBytes, -, h⟩ := h
  rw [ite_error_eq_ok] at h
  obtain ⟨hregions, h⟩ := h
  simp only [except_bind_eq_ok, ite_error_eq_ok, Except.ok.injEq] at h
  obtain ⟨_, -, _, -, _, -, _, -, _, -, -, rfl⟩ := h
  obtain ⟨hpos, hle, hreclaim, hlimit⟩ := resolve_eq_ok hresolved
  rw [BitVec.not_le, BitVec.lt_def] at hregions
  exact ⟨rfl, hpos, hle, hregions, hreclaim, hlimit⟩

/-- The requirements of a configuration that is built are within its limit. -/
lemma new_memory {host : Host σ} {storage : StorageLayout} {runtime : RuntimeOptions σ}
    {config : CacheConfig σ} (h : new host storage runtime = .ok config) :
    config.minimumMemoryBytes ≤ config.runtime.managedMemoryLimitBytes ∧
      ∃ fixedBytes, config.runtime.memoryRequirements host config.storage.geometry fixedBytes =
        .ok (config.reservedMemoryBytes, config.minimumMemoryBytes) := by
  rw [new, mapError_eq_ok, check] at h
  simp only [except_bind_eq_ok, ite_error_eq_ok, Except.ok.injEq] at h
  obtain ⟨resolved, -, _, -, _, -, -, _, -, _, -, _, -, fixedBytes, -, requirements, hrequirements,
    hlimit, rfl⟩ := h
  exact ⟨Nat.le_of_not_lt hlimit, fixedBytes, hrequirements⟩

end CacheConfig

/-- **Memory requirements.** The least number of bytes has room for the reserved ones, the staging
area, a Region for each reclaimer and one Region more. -/
theorem RuntimeOptions.memoryRequirements_eq_ok {σ : Type} {host : Host σ}
    {options : RuntimeOptions σ} {geometry : DataGeometry} {fixedBytes reserved minimum : ℕ}
    (h : options.memoryRequirements host geometry fixedBytes = .ok (reserved, minimum)) :
    ∃ staging, host.stagingReservationBytes options.appendShards.toNat geometry.regionSize.toNat =
        some staging ∧ minimum < 2 ^ 64 ∧
      minimum = reserved + staging +
        geometry.regionSize.toNat * (IoPoolTopology.reclaim options.ioEngine).maxInFlight +
        geometry.regionSize.toNat := by
  simp only [memoryRequirements, except_bind_eq_ok, orInvalidConfig_eq_ok, Except.ok.injEq,
    Prod.mk.injEq] at h
  obtain ⟨_, -, staging, hstaging, reserved', -, reclaim, hreclaim, minimum', hminimum, rfl, rfl⟩ :=
    h
  obtain ⟨-, rfl⟩ := Word.checkedMul_eq_some.1 hreclaim
  simp only [checkedSum, List.foldlM_cons, List.foldlM_nil, Option.bind_eq_bind,
    Option.bind_eq_some_iff, Word.checkedAdd_eq_some] at hminimum
  obtain ⟨_, ⟨-, rfl⟩, _, ⟨-, rfl⟩, _, ⟨hlt, rfl⟩, hminimum⟩ := hminimum
  cases hminimum
  exact ⟨staging, hstaging, hlt, rfl⟩

end Cache2

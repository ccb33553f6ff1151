import Cache2.Config.Representable
import Cache2.Region.PersistImage
import Cache2.Region.Reader
import Cache2.Region.Staging

set_option relaxedAutoImplicit false
set_option autoImplicit false

/-!
# Starting a cache

A cache is started on a recovered store if the store has the layout of the configuration. The
workers then take their memory: what the configuration has reserved, the staging area, and a buffer
of a Region for each reclaimer (`CacheRuntime::start` and `start_workers` of
`cache/runtime/mod.rs`). The engines, the first-level cache and the threads that are started as well
take nothing of the managed memory: their part of it is reserved from the start on.

The configuration plans all this in advance, as well as the disk space of a warm close, with sums of
its own. This file compares the plan with what is done.

## Main definitions

* `Cache2.startWorkers` — how the workers get their memory.
* `Cache2.CacheRuntime.start` — starting a cache on a recovered store.

## Main results

* `Cache2.startWorkers_ok` — the workers get their memory, and a Region is left.
* `Cache2.CacheRuntime.start_ok` — a recovered store of the right layout is started.
* `Cache2.CacheRuntime.fresh_ok` — a new store has the right layout.
* `Cache2.plannedResources_cover` — the plan covers what is done.
-/

namespace Cache2

open Interleaving Loop

/-! ## Definitions -/

/-- `RuntimeWorkers`, with the memory that they hold. -/
structure RuntimeWorkers where
  managedMemory : ManagedMemory
  staging : AppendStaging
  reclaimBuffers : List BufferLease
  deriving DecidableEq, Repr

section Start

variable {σ : Type} (platform : Platform)

/-- The buffers of so many reclaimers. -/
def tryReclaimBuffers (usableRegion : ℕ) : ℕ → MemoryM IoError (List BufferLease)
  | 0 => pure []
  | count + 1 => do
    match ← ManagedMemory.tryReadBuffer platform usableRegion with
    | none => throw (ioError .outOfMemory "cannot allocate a fixed Region reclaim buffer")
    | some buffer => do
      let rest ← tryReclaimBuffers usableRegion count
      pure (buffer :: rest)

/-- What `start_workers` takes of the managed memory. -/
def takeWorkerMemory (shardCount : ℕ) (data : DataSuperblock) (options : RuntimeOptions σ) :
    MemoryM IoError (AppendStaging × List BufferLease) := do
  let usableRegion := data.geometry.regionSize.toNat
  let chunkBytes := usableRegion
  let staging ← EStateM.adaptExcept managedMemoryIoError
    (AppendStaging.tryNew platform shardCount chunkBytes data.geometry.regionSize)
  let reclaimWorkerCount := (IoPoolTopology.reclaim options.ioEngine).maxInFlight
  rejectIf (¬ (← ManagedMemory.askAllocator platform))
    (ioError .outOfMemory "cannot allocate Region reclaim buffer owners")
  let reclaimBuffers ← tryReclaimBuffers platform usableRegion reclaimWorkerCount
  pure (staging, reclaimBuffers)

/-- `start_workers`, as far as it is about the managed memory, which an error drops. -/
def startWorkers (shardCount : ℕ) (data : DataSuperblock) (config : CacheConfig σ) :
    Except IoError RuntimeWorkers := do
  let managedMemory ← (ManagedMemory.tryNew
    ⟨config.runtime.managedMemoryLimitBytes, config.reservedMemoryBytes⟩).mapError
      managedMemoryIoError
  match takeWorkerMemory platform shardCount data config.runtime managedMemory with
  | .ok (staging, reclaimBuffers) managedMemory => .ok ⟨managedMemory, staging, reclaimBuffers⟩
  | .error error _ => .error error

namespace CacheRuntime

/-- The error of a store with another layout. -/
def layoutMismatch : IoError :=
  ioError .invalidData "recovered layout does not match the cache configuration"

/-- The check of `start`: the store must have the layout of the configuration. -/
def checkRecovered (data : DataSuperblock) (config : CacheConfig σ) : StoreM Unit := do
  let storage := config.storage
  rejectIf (data.geometry ≠ storage.geometry) layoutMismatch
  let regionCount ← RegionStore.regionCount
  let regions ← get
  rejectIf (regionCount ≠ storage.geometry.regionCount.toNat ∨
    regions.indexSlotCount ≠ storage.indexSlots ∨
    regions.shardCount ≠ config.runtime.appendShards.toNat) layoutMismatch

/-- `start`, as far as it is about the store and the managed memory. The flag for activity counters
is one of the statistics options. -/
def start (activityCounters : σ → Bool) (data : DataSuperblock) (config : CacheConfig σ) :
    StoreM RuntimeWorkers := do
  checkRecovered data config
  RegionStore.configureReclaimWorkers (IoPoolTopology.reclaim config.runtime.ioEngine).maxInFlight
  RegionStore.setIndexActivityCountersEnabled (activityCounters config.runtime.stats)
  orThrow (startWorkers platform (← get).shardCount data config)

end CacheRuntime

end Start

/-! ## The memory of the workers -/

section Workers

variable {σ : Type} {platform : Platform} {m : ManagedMemory}

/-- Buffers that fit together are granted one after another. -/
lemma tryReclaimBuffers_ok (hplatform : platform.Works) {usableRegion : ℕ}
    (hpos : 0 < usableRegion) (haligned : usableRegion % 4096 = 0)
    (hisize : usableRegion ≤ isizeMax) : ∀ {count : ℕ} {m : ManagedMemory},
    m.memory.current + usableRegion * count < 2 ^ 64 →
    m.memory.current + usableRegion * count ≤ m.memory.limit → ∃ m',
      tryReclaimBuffers platform usableRegion count m =
        .ok (List.replicate count ⟨.standalone, usableRegion, 0⟩) m' ∧
      m'.memory.limit = m.memory.limit ∧
      m'.memory.current = m.memory.current + usableRegion * count := by
  have hround : ManagedMemory.alignUp usableRegion bufferAlignment = some usableRegion := by
    unfold isizeMax at hisize
    rw [ManagedMemory.alignUp_eq_some (by omega)]
    congr 1
    omega
  intro count
  induction count with
  | zero => exact fun {m} _ _ => ⟨m, rfl, rfl, rfl⟩
  | succ count ih =>
    intro m hlt hle
    have hnext : m.memory.current + usableRegion * (count + 1) =
        m.memory.current + usableRegion + usableRegion * count := by
      rw [Nat.mul_succ]
      omega
    rw [hnext] at hlt hle ⊢
    obtain ⟨asked, hbuffer⟩ := ManagedMemory.tryReadBuffer_ok (ε := IoError) hplatform hround hpos
      hisize (m := m) (by omega) (by omega)
    obtain ⟨m', hrest, hlimit, hcurrent⟩ := ih (m := ⟨m.memory.charge usableRegion, asked⟩) hlt hle
    refine ⟨m', ?_, hlimit, hcurrent⟩
    rw [tryReclaimBuffers, bind_ok hbuffer]
    dsimp only
    rw [bind_ok hrest]
    rfl

/-- The staging area and the buffers are had when they fit together. -/
lemma takeWorkerMemory_ok (hplatform : platform.Works) {shardCount reserved reclaimers : ℕ}
    {data : DataSuperblock} {options : RuntimeOptions σ} (hshards : 0 < shardCount)
    (hpos : 0 < data.geometry.regionSize.toNat)
    (haligned : data.geometry.regionSize.toNat % 4096 = 0)
    (hisize : data.geometry.regionSize.toNat ≤ isizeMax)
    (hreclaimers : (IoPoolTopology.reclaim options.ioEngine).maxInFlight = reclaimers)
    (hreserved : AppendStaging.reservationBytes shardCount data.geometry.regionSize.toNat =
      some reserved)
    (hlt : m.memory.current + reserved + data.geometry.regionSize.toNat * reclaimers < 2 ^ 64)
    (hle : m.memory.current + reserved + data.geometry.regionSize.toNat * reclaimers ≤
      m.memory.limit) :
    ∃ staging m', takeWorkerMemory platform shardCount data options m =
        .ok (staging, List.replicate reclaimers
          ⟨.standalone, data.geometry.regionSize.toNat, 0⟩) m' ∧
      staging.memory = reserved ∧ staging.shards.length = shardCount ∧
      m'.memory.limit = m.memory.limit ∧ m'.memory.current =
        m.memory.current + reserved + data.geometry.regionSize.toNat * reclaimers := by
  subst hreclaimers
  obtain ⟨staging, asked, hstaging, hmemory, hlength⟩ := AppendStaging.tryNew_ok hplatform hshards
    haligned hpos haligned le_rfl hisize hreserved (m := m) (by omega) (by omega)
  obtain ⟨m', hbuffers, hlimit, hcurrent⟩ := tryReclaimBuffers_ok hplatform hpos haligned hisize
    (m := ⟨m.memory.charge reserved, asked + 1⟩) hlt hle
  refine ⟨staging, m', ?_, hmemory, hlength, hlimit, hcurrent⟩
  rw [takeWorkerMemory, bind_ok (adaptExcept_ok hstaging),
    bind_ok (ManagedMemory.askAllocator_ok hplatform _), rejectIf_bind_eq_ok]
  refine ⟨not_not.2 rfl, ?_⟩
  rw [bind_ok hbuffers]
  rfl

/-- What the workers of a configuration hold when they have started, where `reserved` are the bytes
of the reservation of the staging area. -/
structure RuntimeWorkers.Hold (config : CacheConfig σ) (reserved : ℕ) (workers : RuntimeWorkers) :
    Prop where
  limit_eq : workers.managedMemory.memory.limit = config.runtime.managedMemoryLimitBytes
  current_eq : workers.managedMemory.memory.current = config.reservedMemoryBytes + reserved +
    config.storage.geometry.regionSize.toNat *
      (IoPoolTopology.reclaim config.runtime.ioEngine).maxInFlight
  staging_memory : workers.staging.memory = reserved
  staging_shards : workers.staging.shards.length = config.runtime.appendShards.toNat
  reclaimBuffers_eq : workers.reclaimBuffers =
    List.replicate (IoPoolTopology.reclaim config.runtime.ioEngine).maxInFlight
      ⟨.standalone, config.storage.geometry.regionSize.toNat, 0⟩

/-- **Workers.** The workers of an accepted configuration get their memory, and what is left has
room for a Region. -/
theorem startWorkers_ok (hplatform : platform.Works) {host : Host σ} {layout : StorageLayout}
    {runtime : RuntimeOptions σ} {config : CacheConfig σ} {data : DataSuperblock}
    (hlayout : layout.Accepted)
    (hconfig : CacheConfig.new host.withStaging layout runtime = .ok config)
    (hgeometry : data.geometry = config.storage.geometry) : ∃ reserved workers,
      AppendStaging.reservationBytes config.runtime.appendShards.toNat
        config.storage.geometry.regionSize.toNat = some reserved ∧
      startWorkers platform config.runtime.appendShards.toNat data config = .ok workers ∧
      workers.Hold config reserved ∧
      workers.managedMemory.memory.current + config.storage.geometry.regionSize.toNat ≤
        workers.managedMemory.memory.limit ∧
      workers.managedMemory.memory.current + config.storage.geometry.regionSize.toNat < 2 ^ 64 := by
  obtain ⟨hstorage, haccepted⟩ := CacheConfig.new_eq_ok hconfig
  obtain ⟨hlimit, fixedBytes, hrequirements⟩ := CacheConfig.new_memory hconfig
  obtain ⟨reserved, hreserved, hlt, hminimum⟩ :=
    RuntimeOptions.memoryRequirements_eq_ok hrequirements
  obtain ⟨hpos, hsize, haligned, -⟩ := hlayout
  rw [← hstorage, ← hgeometry] at hpos hsize haligned
  rw [← hgeometry] at hminimum
  have hisize : data.geometry.regionSize.toNat ≤ isizeMax := hsize.trans (by decide)
  have hroom : config.reservedMemoryBytes + reserved + data.geometry.regionSize.toNat *
      (IoPoolTopology.reclaim config.runtime.ioEngine).maxInFlight +
        data.geometry.regionSize.toNat ≤ config.runtime.managedMemoryLimitBytes :=
    hminimum.symm.trans_le hlimit
  obtain ⟨staging, m, htake, hmemory, hshards, hlimit', hcurrent⟩ := takeWorkerMemory_ok
    (m := ⟨.new config.runtime.managedMemoryLimitBytes config.reservedMemoryBytes, 0⟩) hplatform
    haccepted.shards_pos hpos haligned hisize (@rfl _ (IoPoolTopology.reclaim
      config.runtime.ioEngine).maxInFlight) (hgeometry ▸ hreserved)
    ((Nat.le_add_right _ _).trans_lt (hminimum ▸ hlt)) ((Nat.le_add_right _ _).trans hroom)
  have hnew : ManagedMemory.tryNew ⟨config.runtime.managedMemoryLimitBytes,
      config.reservedMemoryBytes⟩ = .ok ⟨.new config.runtime.managedMemoryLimitBytes
        config.reservedMemoryBytes, 0⟩ := by
    refine if_neg ?_
    dsimp only
    omega
  refine ⟨reserved, ⟨m, staging, _⟩, hreserved, ?_,
    ⟨hlimit', hgeometry ▸ hcurrent, hmemory, hshards, by rw [← hgeometry]⟩, ?_, ?_⟩
  · rw [startWorkers, except_bind_eq_ok]
    exact ⟨_, mapError_eq_ok.2 hnew, by rw [htake]⟩
  · rw [hlimit', hcurrent, ← hgeometry]
    exact hroom
  · rw [hcurrent, ← hgeometry]
    exact hminimum ▸ hlt

end Workers

/-! ## Starting -/

namespace CacheRuntime

section Started

variable {σ : Type} {crc : List UInt8 → BitVec 32} {platform : Platform}
  {activityCounters : σ → Bool} {data : DataSuperblock} {config : CacheConfig σ}
  {regions regions' : RegionStore}

/-- A store passes when it has the layout of the configuration. -/
lemma checkRecovered_eq_ok : checkRecovered data config regions = .ok () regions' ↔
    regions' = regions ∧ regions.healthy = true ∧ regions.managerPoisoned = false ∧
      data.geometry = config.storage.geometry ∧
      regions.manager.regions.length = config.storage.geometry.regionCount.toNat ∧
      regions.indexSlotCount = config.storage.indexSlots ∧
      regions.shardCount = config.runtime.appendShards.toNat := by
  rw [checkRecovered, rejectIf_bind_eq_ok, RegionStore.regionCount_bind_eq_ok, get_bind, rejectIf,
    not_not]
  split_ifs with hlayout
  · constructor
    · rintro ⟨-, -, -, h⟩
      cases h
    · rintro ⟨-, -, -, -, hregions, hslots, hshards⟩
      exact absurd hlayout (by simp [hregions, hslots, hshards])
  · simp only [not_or, not_not] at hlayout
    constructor
    · rintro ⟨hgeometry, hhealthy, hpoisoned, h⟩
      cases h
      exact ⟨rfl, hhealthy, hpoisoned, hgeometry, hlayout⟩
    · rintro ⟨rfl, hhealthy, hpoisoned, hgeometry, -⟩
      exact ⟨hgeometry, hhealthy, hpoisoned, rfl⟩

/-- **Starting.** A recovered store with the layout of an accepted configuration is started, and
what the start does to it are steps of a store. -/
theorem start_ok (hplatform : platform.Works) {host : Host σ} {layout : StorageLayout}
    {runtime : RuntimeOptions σ} (hlayout : layout.Accepted)
    (hconfig : CacheConfig.new host.withStaging layout runtime = .ok config)
    {index : PartitionedIndexStorage} {metadata : RegionMetadata}
    (hrecovered : RegionStore.fromRecovery index metadata = .ok regions)
    (hcheck : checkRecovered data config regions = .ok () regions) : ∃ reserved workers started,
      AppendStaging.reservationBytes config.runtime.appendShards.toNat
        config.storage.geometry.regionSize.toNat = some reserved ∧
      start platform activityCounters data config regions = .ok workers started ∧
      Relation.ReflTransGen (RegionStore.Step crc) regions started ∧
      workers.Hold config reserved ∧
      workers.managedMemory.memory.current + config.storage.geometry.regionSize.toNat ≤
        workers.managedMemory.memory.limit ∧
      workers.managedMemory.memory.current + config.storage.geometry.regionSize.toNat < 2 ^ 64 := by
  obtain ⟨-, hhealthy, hpoisoned, hgeometry, -, -, hshards⟩ := checkRecovered_eq_ok.1 hcheck
  obtain ⟨-, haccepted⟩ := CacheConfig.new_eq_ok hconfig
  obtain ⟨hmanager, -, hgates, -⟩ := RegionStore.fromRecovery_eq_ok hrecovered
  obtain ⟨-, hfrom⟩ := RegionManager.fromMetadata_eq_ok hmanager
  obtain ⟨m, hconfigured⟩ := RegionManager.configureReclaimWorkers_ok haccepted.reclaim_pos
    (haccepted.reclaim_le.trans_eq (hshards.symm.trans hgates)) hfrom.reclaiming
  obtain ⟨reserved, workers, hreserved, hworkers, hhold, hle, hlt⟩ :=
    startWorkers_ok hplatform hlayout hconfig hgeometry
  rw [← hshards] at hworkers
  let counters := activityCounters config.runtime.stats
  refine ⟨reserved, workers, { regions with
    manager := m
    index.activityCountersEnabled := counters }, hreserved, ?_, ?_, hhold, hle, hlt⟩
  · rw [start, bind_ok hcheck,
      bind_ok (RegionStore.configureReclaimWorkers_ok hhealthy hpoisoned hconfigured),
      RegionStore.setIndexActivityCountersEnabled, modify_bind, get_bind]
    exact (congrArg (fun x => orThrow x _) hworkers).trans rfl
  · have hcounters := @RegionStore.Step.index crc { regions with manager := m }
      (.setActivityCountersEnabled counters) _ rfl
    exact (Relation.ReflTransGen.single (.configured hconfigured)).tail hcounters

/-- An index without entries agrees with the table of an empty data file. -/
lemma emptyTable_statsMatch (indexSlots : ℕ) (appendShards : BitVec 32)
    (ranges : List IndexPartitionRange) :
    metadataPartitionStatsMatch (emptyTable data indexSlots appendShards ranges)
      (ranges.map fun _ => IndexPhysicalStats.default) = true := by
  have hzip : ((ranges.map emptyPartition).zip (ranges.map fun _ => IndexPhysicalStats.default)) =
      ranges.map fun range => (emptyPartition range, IndexPhysicalStats.default) := List.zip_map'
  rw [metadataPartitionStatsMatch, emptyTable, hzip, List.length_map, List.length_map,
    decide_eq_true rfl, Bool.true_and, List.all_map, List.all_eq_true]
  exact fun range _ => rfl

/-- The store of an empty data file and a new index. -/
lemma fromRecovery_emptyTable {indexSlots : ℕ} {appendShards : BitVec 32}
    {ranges : List IndexPartitionRange} (hfits : TableFits data indexSlots appendShards ranges)
    {index : PartitionedIndexStorage}
    (hindex : PartitionedIndexStorage.anonymous indexSlots = .ok index) : ∃ regions,
      RegionStore.fromRecovery index (emptyTable data indexSlots appendShards ranges) =
        .ok regions ∧
      regions.healthy = true ∧ regions.managerPoisoned = false ∧
      regions.manager.regions.length = data.geometry.regionCount.toNat ∧
      regions.indexSlotCount = indexSlots ∧ regions.shardCount = appendShards.toNat := by
  have hvalid := hfits.validate_ok
  obtain ⟨manager, hmanager⟩ := RegionManager.fromMetadata_ok hvalid
  obtain ⟨-, hfrom⟩ := RegionManager.fromMetadata_eq_ok hmanager
  obtain ⟨-, -, -, hregions, hpartitions, -⟩ := RegionMetadata.validate_eq_ok hvalid
  obtain ⟨hcanonical, -⟩ := validatedIndexPartitionRanges_eq_ok hfits.ranges
  obtain ⟨hslotCount, hranges, hstats⟩ : index.slotCount = indexSlots ∧ index.ranges = ranges ∧
      index.stats = ranges.map fun _ => IndexPhysicalStats.default := by
    rw [PartitionedIndexStorage.anonymous, hcanonical] at hindex
    simp only [except_bind_eq_ok, Except.ok.injEq] at hindex
    obtain ⟨_, rfl, layout, -, rfl⟩ := hindex
    exact ⟨rfl, rfl, rfl⟩
  refine ⟨⟨.fromStorage index, manager, false, manager.activeRegions.map fun _ => ⟨false⟩, false,
    true⟩, ?_, rfl, rfl, ?_, hslotCount, (List.length_map _).trans hfrom.length_active⟩
  · have hslots : (BitVec.ofNat 64 indexSlots).toNat = indexSlots :=
      Nat.mod_eq_of_lt hfits.indexSlots_lt
    have hcount : (emptyTable data indexSlots appendShards ranges).root.partitionCount.toNat =
        ranges.length := hpartitions.symm.trans (List.length_map _)
    rw [RegionStore.fromRecovery, ite_error_eq_ok, ite_error_eq_ok, except_bind_eq_ok]
    rw [hslotCount, hranges, hstats]
    refine ⟨Nat.not_le.2 hfits.indexSlots_lt, ?_, manager, mapError_eq_ok.2 hmanager, rfl⟩
    rw [hcount, emptyTable_statsMatch]
    simp [emptyTable, hslots]
  · rw [hfrom.regions, List.length_map, hregions]
    rfl

/-- **Fresh caches.** A configuration that is accepted has a store that the start accepts: the one
of an empty data file and a new index, which is intact. -/
theorem fresh_ok (hlayout : config.storage.Accepted) (haccepted : config.Accepted)
    (hgeometry : data.geometry = config.storage.geometry) (hdata : data.generation ≠ 0) :
    ∃ index metadata regions,
      PartitionedIndexStorage.anonymous config.storage.indexSlots = .ok index ∧
      emptyRegionMetadata data config.storage.indexSlots config.runtime.appendShards =
        .ok metadata ∧
      RegionStore.fromRecovery index metadata = .ok regions ∧
      (∀ crc, regions.Intact crc) ∧ checkRecovered data config regions = .ok () regions := by
  obtain ⟨ranges, -, hranges, -⟩ := hlayout.image
  obtain ⟨hcanonical, -⟩ := validatedIndexPartitionRanges_eq_ok hranges
  have hfits := haccepted.tableFits hlayout hgeometry hdata hranges
  obtain ⟨index, hindex⟩ :
      ∃ index, PartitionedIndexStorage.anonymous config.storage.indexSlots = .ok index := by
    rw [PartitionedIndexStorage.anonymous, hcanonical, imageLayout_of_ranges hcanonical]
    exact ⟨_, rfl⟩
  obtain ⟨regions, hrecovered, hhealthy, hpoisoned, hregions, hslots, hshards⟩ :=
    fromRecovery_emptyTable hfits hindex
  refine ⟨index, _, regions, hindex, emptyRegionMetadata_ok hfits, hrecovered,
    fun crc => .of_anonymous hindex hrecovered, ?_⟩
  rw [checkRecovered_eq_ok, ← hgeometry]
  exact ⟨rfl, hhealthy, hpoisoned, rfl, hregions, hslots, hshards⟩

end Started

end CacheRuntime

/-! ## The disk space -/

/-- What an image of a cache takes is what its peak has for it, twice. -/
lemma peakDiskBytes_eq {crc : List UInt8 → BitVec 32} {options : StorageOptions}
    {layout : StorageLayout} (hbuild : options.build = .ok layout) {data : DataSuperblock}
    {current : Option SelectedState} {metadata : RegionMetadata} {clean : StatePageWrite}
    {s s' : PersistSession} (hslots : s.regions.indexSlotCount = layout.indexSlots)
    (hregions : metadata.root.regionCount.toNat = layout.geometry.regionCount.toNat)
    (h : persistFrozen crc data current metadata s = .ok clean s') :
    ∃ image, s'.image = some image ∧ layout.peakDiskBytes =
      layout.geometry.dataFileLen.toNat + stateFileSize + 2 * image.length := by
  obtain ⟨headerPage, index, table, himage, hheader, hindex, htable, ranges, hranges, hcount⟩ :=
    persistFrozen_eq_ok h
  obtain ⟨ranges', indexLen, hvalidated, hindexLen, -, hpeak⟩ :=
    diskPeakBytes_eq_ok (StorageOptions.build_peak hbuild)
  obtain ⟨hcanonical, -⟩ := validatedIndexPartitionRanges_eq_ok hvalidated
  rw [hslots] at hranges hindex
  rw [hranges, Except.ok.injEq] at hcanonical
  subst hcanonical
  obtain ⟨-, -, hpages, -⟩ := canonicalIndexPartitionRanges_chain hranges
  have hpos : 0 < layout.indexSlots :=
    (Nat.zero_lt_succ 7).trans_le (StorageOptions.build_eq_ok hbuild).eight_le_indexSlots
  rw [recoveryImageIndexLen_eq hpos hpages, Option.some.injEq, ← indexBytes] at hindexLen
  refine ⟨_, himage, ?_⟩
  rw [hpeak, List.length_append, List.length_append, hheader, hindex, htable, tableBytes, hregions,
    hcount, hindexLen]
  rfl

/-- The image of a frozen cache takes what the peak has for it, and it is written if the index is
intact. -/
lemma persistFrozen_of_run {crc : List UInt8 → BitVec 32} {options : StorageOptions}
    {layout : StorageLayout} (hbuild : options.build = .ok layout) {data : DataSuperblock}
    {regions s s' : RegionStore}
    (hregions : regions.manager.regions.length = layout.geometry.regionCount.toNat)
    (hslots : regions.indexSlotCount = layout.indexSlots)
    (hrun : Relation.ReflTransGen (RegionStore.Step crc) regions s) {frozen : RegionMetadata}
    (hfreeze : RegionStore.freeze s = .ok frozen s') (current : Option SelectedState)
    (session : PersistSession) (hsession : session.regions = s') :
    (∀ clean session', persistFrozen crc data current frozen session = .ok clean session' →
      ∃ image, session'.image = some image ∧ layout.peakDiskBytes =
        layout.geometry.dataFileLen.toNat + stateFileSize + 2 * image.length) ∧
    (regions.Intact crc → data.isValid = true →
      (∃ slot generation, nextSlot current = .ok (slot, generation)) →
      ∃ clean session', persistFrozen crc data current frozen session = .ok clean session') := by
  obtain ⟨rfl, hhealthy, hfrozen, hvalid, hcount⟩ := RegionStore.freeze_eq_ok hfreeze
  have hlayout := RegionStore.sameLayout_of_run hrun
  subst hsession
  constructor
  · intro clean session' h
    exact peakDiskBytes_eq hbuild (hlayout.indexSlotCount.trans hslots)
      (hcount.trans (hlayout.regions.trans hregions)) h
  · rintro hintact hdata ⟨slot, generation, hnext⟩
    exact persistFrozen_ok (hintact.of_run hrun) hhealthy hfrozen hvalid hdata hnext

/-! ## The plan -/

/-- **The plan covers what is done.** For storage options that build a layout, runtime options that
it is configured with, and a recovered store that the start accepts for the configuration:

* after any run of the store, the image that is written of the frozen store is as long as the peak
  of the disk space has for it, that is, the peak is the data file, the state file and twice the
  image; and it is written if the index was intact;
* on a platform with enough memory the cache is started: the workers hold the reserved bytes, the
  staging area and a Region for each reclaimer, and a Region is left;
* no range that `describe_read` has for the geometry takes more than a Region, and whatever reads
  do, while none of them holds a buffer such a range is granted one. -/
theorem plannedResources_cover {σ : Type} (crc : List UInt8 → BitVec 32) (host : Host σ)
    (activityCounters : σ → Bool) (options : StorageOptions) (runtime : RuntimeOptions σ)
    (layout : StorageLayout) (config : CacheConfig σ) (hbuild : options.build = .ok layout)
    (hconfig : CacheConfig.new host.withStaging layout runtime = .ok config)
    (data : DataSuperblock) (index : PartitionedIndexStorage) (metadata : RegionMetadata)
    (regions : RegionStore) (hrecovered : RegionStore.fromRecovery index metadata = .ok regions)
    (hcheck : CacheRuntime.checkRecovered data config regions = .ok () regions) :
    (∀ (s s' : RegionStore) (frozen : RegionMetadata) (current : Option SelectedState)
        (session : PersistSession),
      Relation.ReflTransGen (RegionStore.Step crc) regions s →
      RegionStore.freeze s = .ok frozen s' → session.regions = s' →
      (∀ clean session', persistFrozen crc data current frozen session = .ok clean session' →
        ∃ image, session'.image = some image ∧ layout.peakDiskBytes =
          layout.geometry.dataFileLen.toNat + stateFileSize + 2 * image.length) ∧
      (regions.Intact crc → data.isValid = true →
        (∃ slot generation, nextSlot current = .ok (slot, generation)) →
        ∃ clean session',
          persistFrozen crc data current frozen session = .ok clean session')) ∧
    config.minimumMemoryBytes ≤ config.runtime.managedMemoryLimitBytes ∧
    ∀ platform : Platform, platform.Works → ∃ reserved workers started,
      AppendStaging.reservationBytes config.runtime.appendShards.toNat
        layout.geometry.regionSize.toNat = some reserved ∧
      CacheRuntime.start platform activityCounters data config regions = .ok workers started ∧
      Relation.ReflTransGen (RegionStore.Step crc) regions started ∧
      workers.Hold config reserved ∧
      workers.managedMemory.memory.current + layout.geometry.regionSize.toNat ≤
        workers.managedMemory.memory.limit ∧
      ∀ (hash : Hash) (candidate : ReadCandidate) (direct : Bool) (desc : ReadDesc),
        describeRead layout.geometry hash candidate direct = .ok desc →
        ∃ maximum, ManagedMemory.alignUp desc.readLen bufferAlignment = some maximum ∧
          desc.readLen ≤ maximum ∧ maximum ≤ layout.geometry.regionSize.toNat ∧
          ∀ (c : Pool MemoryTracker ReadThread) (m : ManagedMemory),
            Reachable readProgram workers.managedMemory.memory c →
            c.total ReadThread.held = 0 → m.memory = c.shared →
            ∃ m', (ManagedMemory.tryReadBuffer platform desc.readLen :
                MemoryM IoError (Option BufferLease)) m =
              .ok (some ⟨.standalone, maximum, 0⟩) m' := by
  have hlayout := StorageOptions.build_eq_ok hbuild
  obtain ⟨hstorage, -⟩ := CacheConfig.new_eq_ok hconfig
  obtain ⟨-, -, -, -, hregions, hslots, -⟩ := CacheRuntime.checkRecovered_eq_ok.1 hcheck
  rw [hstorage] at hregions hslots
  refine ⟨?_, (CacheConfig.new_memory hconfig).1, ?_⟩
  · intro s s' frozen current session hrun hfreeze hsession
    exact persistFrozen_of_run hbuild hregions hslots hrun hfreeze current session hsession
  · intro platform hplatform
    obtain ⟨reserved, workers, started, hreserved, hstart, hsteps, hhold, hle, hlt⟩ :=
      CacheRuntime.start_ok hplatform hlayout hconfig hrecovered hcheck
    rw [hstorage] at hreserved hle hlt
    refine ⟨reserved, workers, started, hreserved, hstart, hsteps, hhold, hle, ?_⟩
    intro hash candidate direct desc hdesc
    obtain ⟨hpos, hpages⟩ := describeRead_readLen hdesc
    have hisize : layout.geometry.regionSize.toNat ≤ isizeMax :=
      hlayout.regionSize_le.trans (by decide)
    refine ⟨_, ManagedMemory.alignUp_eq_some ?_, ?_, hpages, ?_⟩
    · unfold isizeMax at hisize
      omega
    · omega
    · intro c m hreachable hnone hm
      have hbalance := MemoryBalance.of_reachable ((Nat.le_add_right _ _).trans hle)
        ((Nat.le_add_right _ _).trans_lt hlt) hreachable
      obtain ⟨asked, hgranted⟩ :=
        hbalance.tryReadBuffer_ok hplatform hnone hm hpos hpages hisize hlt hle
      exact ⟨_, hgranted⟩

/-- The platform of the sample: allocations succeed, and exchanges do not fail spuriously. -/
def samplePlatform : Platform := ⟨fun _ => false, fun _ => true⟩

/-- A fresh cache with two Regions of a page each: its image takes the planned bytes, it is started
within its limit, and a lone read of a record of the last Region is granted its buffer. -/
theorem plannedResources_cover_sample : ∃ layout config regions workers started reserved desc,
    sampleStorageOptions.build = .ok layout ∧
    CacheConfig.new sampleHost.withStaging layout sampleRuntimeOptions = .ok config ∧
    (∃ frozen s' clean session' image, RegionStore.freeze regions = .ok frozen s' ∧
      persistFrozen (fun _ => 0) (sampleSuperblock layout) none frozen ⟨s', none, none, none⟩ =
        .ok clean session' ∧
      session'.image = some image ∧ layout.peakDiskBytes =
        layout.geometry.dataFileLen.toNat + stateFileSize + 2 * image.length) ∧
    CacheRuntime.start samplePlatform (fun _ => true) (sampleSuperblock layout) config regions =
      .ok workers started ∧
    workers.Hold config reserved ∧
    describeRead layout.geometry 7 ⟨⟨⟨1 ||| (2048 / 32) <<< 20⟩⟩, 1⟩ true = .ok desc ∧
    ∃ lease m', (ManagedMemory.tryReadBuffer samplePlatform desc.readLen :
      MemoryM IoError (Option BufferLease)) workers.managedMemory = .ok (some lease) m' := by
  have hok : (sampleStorageOptions.build.toOption.bind fun layout =>
      (CacheConfig.new sampleHost.withStaging layout
        sampleRuntimeOptions).toOption.bind fun config =>
      (PartitionedIndexStorage.anonymous config.storage.indexSlots).toOption.bind fun index =>
      (emptyRegionMetadata (sampleSuperblock layout) config.storage.indexSlots
        config.runtime.appendShards).toOption.bind fun metadata =>
      (RegionStore.fromRecovery index metadata).toOption.bind fun regions =>
      (match RegionStore.freeze regions with
        | .ok frozen _ => some frozen
        | .error _ _ => none).bind fun _ =>
      (describeRead layout.geometry 7 ⟨⟨⟨1 ||| (2048 / 32) <<< 20⟩⟩, 1⟩ true).toOption).isSome =
        true := by
    decide +kernel
  simp only [Option.isSome_iff_exists, Option.bind_eq_some_iff, toOption_eq_some] at hok
  obtain ⟨desc, layout, hbuild, config, hconfig, index, hindex, metadata, hmetadata, regions,
    hrecovered, frozen, hfrozen, hdesc⟩ := hok
  obtain ⟨s', hfreeze⟩ : ∃ s', RegionStore.freeze regions = .ok frozen s' := by
    cases hrun : RegionStore.freeze regions with
    | ok a s' =>
      rw [hrun] at hfrozen
      cases hfrozen
      exact ⟨s', rfl⟩
    | error e s' =>
      rw [hrun] at hfrozen
      cases hfrozen
  obtain ⟨hstorage, haccepted⟩ := CacheConfig.new_eq_ok hconfig
  have hlayout := StorageOptions.build_eq_ok hbuild
  have hgeometry : (sampleSuperblock layout).geometry = config.storage.geometry :=
    congrArg StorageLayout.geometry hstorage.symm
  obtain ⟨index', metadata', regions', hindex', hmetadata', hrecovered', hintact, hcheck⟩ :=
    CacheRuntime.fresh_ok (hstorage ▸ hlayout) haccepted hgeometry
      (show (1 : BitVec 64) ≠ 0 by decide)
  cases hindex.symm.trans hindex'
  cases hmetadata.symm.trans hmetadata'
  cases hrecovered.symm.trans hrecovered'
  obtain ⟨hpersist, -, hstart⟩ := plannedResources_cover (fun _ => 0) sampleHost (fun _ => true)
    sampleStorageOptions sampleRuntimeOptions layout config hbuild hconfig
    (sampleSuperblock layout) index metadata regions hrecovered hcheck
  have hvalid : (sampleSuperblock layout).isValid = true := by
    rw [DataSuperblock.isValid]
    simpa [sampleSuperblock] using hlayout.geometry_isValid
  obtain ⟨hpeak, hclean⟩ := hpersist regions s' frozen none ⟨s', none, none, none⟩ .refl hfreeze rfl
  obtain ⟨clean, session', hclean⟩ := hclean (hintact _) hvalid ⟨0, 1, rfl⟩
  obtain ⟨image, himage, hbytes⟩ := hpeak clean session' hclean
  obtain ⟨reserved, workers, started, -, hstarted, -, hhold, -, hread⟩ :=
    hstart samplePlatform ⟨fun _ => ⟨0, by decide, rfl⟩, fun _ => rfl⟩
  obtain ⟨maximum, -, -, -, hgranted⟩ := hread _ _ _ desc hdesc
  obtain ⟨m', hlease⟩ := hgranted ⟨workers.managedMemory.memory, []⟩ workers.managedMemory .refl
    rfl rfl
  exact ⟨layout, config, regions, workers, started, reserved, desc, hbuild, hconfig,
    ⟨frozen, s', clean, session', image, hfreeze, hclean, himage, hbytes⟩, hstarted, hhold, hdesc,
    _, m', hlease⟩

end Cache2

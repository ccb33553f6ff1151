import Cache2.Config.Runtime
import Cache2.Region.RecoveryImage

set_option relaxedAutoImplicit false
set_option autoImplicit false

/-!
# Accepted configurations are representable

The sizes of a cache are checked when its configuration is built, and again, with limits and
roundings of their own, by every layer that uses them: the superblock, the index layout, the Region
table with its codec, the manager, and the image that a clean close writes. This file shows that
what the configuration accepts, every layer accepts.

## Main results

* `Cache2.StorageLayout.Accepted.geometry_isValid` — the geometry is one a superblock may hold.
* `Cache2.CacheConfig.Accepted.tableFits` — the table of the empty data file fits.
* `Cache2.configuration_representable` — all layers accept an accepted configuration.
-/

namespace Cache2

open Loop

/-- The superblock may hold an accepted geometry. -/
lemma StorageLayout.Accepted.geometry_isValid {layout : StorageLayout} (h : layout.Accepted) :
    layout.geometry.isValid = true := by
  have hpos := h.regionSize_pos
  have haligned := h.regionSize_aligned
  have hcount : layout.geometry.regionCount ≠ 0 := by
    intro hz
    have := h.two_le_regionCount
    rw [hz] at this
    simp at this
  have hpage : recoveryPageSize ≤ layout.geometry.regionSize.toNat := by
    unfold recoveryPageSize
    omega
  rw [DataGeometry.isValid]
  simp only [Bool.and_eq_true, decide_eq_true_eq]
  exact ⟨⟨⟨⟨⟨hcount, h.regionCount_le⟩, hpage⟩, h.regionSize_le⟩, haligned⟩, h.dataFileLen⟩

/-- The table of an empty data file fits an accepted configuration. -/
lemma CacheConfig.Accepted.tableFits {σ : Type} {config : CacheConfig σ} (h : config.Accepted)
    (hstorage : config.storage.Accepted) {data : DataSuperblock}
    (hgeometry : data.geometry = config.storage.geometry) (hdata : data.generation ≠ 0)
    {ranges : List IndexPartitionRange}
    (hranges : validatedIndexPartitionRanges config.storage.indexSlots = .ok ranges) :
    TableFits data config.storage.indexSlots config.runtime.appendShards ranges where
  generation := hdata
  regionSize_pos := by rw [hgeometry]; exact hstorage.regionSize_pos
  regionSize_le := by rw [hgeometry]; exact hstorage.regionSize_le
  regionSize_aligned := by rw [hgeometry]; exact hstorage.regionSize_aligned
  regionCount_le := by rw [hgeometry]; exact hstorage.regionCount_le
  shards_pos := h.shards_pos
  shards_le := h.shards_le
  shards_lt := by rw [hgeometry]; exact h.shards_lt
  eight_le_indexSlots := hstorage.eight_le_indexSlots
  indexSlots_lt := hstorage.indexSlots_lt
  ranges := hranges

/-- A manager that is not reclaiming takes any number of reclaim workers up to its shards. -/
lemma RegionManager.configureReclaimWorkers_ok {m : RegionManager} {workers : ℕ}
    (hpos : 0 < workers) (hle : workers ≤ m.activeRegions.length) (hidle : m.reclaiming = []) :
    ∃ m', configureReclaimWorkers workers m = .ok () m' := by
  have hguard : ¬ (workers = 0 ∨ workers > m.activeRegions.length ∨ m.reclaiming ≠ []) := by
    simp only [hidle, ne_eq, not_true_eq_false, or_false]
    omega
  simp only [configureReclaimWorkers, get_bind]
  exact ⟨_, by rw [rejectIf_bind_eq_ok]; exact ⟨hguard, rfl⟩⟩

/-- **Accepted configurations are representable.** For storage options that build a layout and
runtime options that it is configured with:

* a superblock with the geometry is encoded, and probed as itself;
* the index has its layout;
* the table of the empty data file exists and is valid, it is encoded, the bytes are decoded as it,
  and they are no more than recovery reads;
* the manager of the table exists and takes the configured reclaim workers;
* every state that is frozen with the index of the layout has an image, whose header is built and
  encoded. -/
theorem configuration_representable {σ : Type} (crc : List UInt8 → BitVec 32) (host : Host σ)
    (options : StorageOptions) (runtime : RuntimeOptions σ) (layout : StorageLayout)
    (config : CacheConfig σ) (hbuild : options.build = .ok layout)
    (hconfig : CacheConfig.new host layout runtime = .ok config) (data : DataSuperblock)
    (hgeometry : data.geometry = layout.geometry) (hdata : data.generation ≠ 0) :
    (∃ page, data.encode crc = .ok page ∧ DataSuperblock.probe crc page = .valid data) ∧
    (∃ ranges, canonicalIndexPartitionRanges layout.indexSlots = .ok ranges ∧
      ∀ (m : RegionManager) (stats : List IndexPhysicalStats) (frozen : FrozenRegionStore)
        (current : Option SelectedState) (generation : BitVec 64),
        (∀ s ∈ stats, s.value < 2 ^ 64 ∧ s.deleted < 2 ^ 64) →
        freezeStore m layout.indexSlots ranges stats = .ok frozen →
        nextStateGeneration current = .ok generation →
        ∃ bytes header page,
          persistFrozenHeader crc data current frozen = .ok (bytes, header, page) ∧
            header.encode crc = .ok page) ∧
    ∃ metadata bytes maximum m m',
      emptyRegionMetadata data layout.indexSlots config.runtime.appendShards = .ok metadata ∧
      metadata.validate = .ok () ∧ metadata.encode crc = .ok bytes ∧
      RegionMetadata.decodeOwned crc bytes = .ok metadata ∧
      maximumRegionMetadataLen layout.geometry.regionCount = .ok maximum ∧
      bytes.length ≤ maximum ∧ RegionManager.fromMetadata metadata = .ok m ∧
      RegionManager.configureReclaimWorkers
        (IoPoolTopology.reclaim config.runtime.ioEngine).maxInFlight m = .ok () m' := by
  have hlayout := StorageOptions.build_eq_ok hbuild
  obtain ⟨hstorage, haccepted⟩ := CacheConfig.new_eq_ok hconfig
  obtain ⟨ranges, -, hranges, -, -⟩ := hlayout.image
  obtain ⟨hcanonical, -⟩ := validatedIndexPartitionRanges_eq_ok hranges
  have hfits := haccepted.tableFits (hstorage ▸ hlayout) (by rw [hgeometry, hstorage]) hdata
    (by rw [hstorage]; exact hranges)
  rw [hstorage] at hfits
  refine ⟨?_, ⟨ranges, hcanonical, ?_⟩, ?_⟩
  · have hvalid : data.isValid = true := by
      rw [DataSuperblock.isValid, hgeometry, hlayout.geometry_isValid]
      simpa using hdata
    have hencode : data.encode crc = .ok (controlPage crc data.fields) := if_pos hvalid
    exact ⟨_, hencode, DataSuperblock.encode_eq_ok_iff.1 hencode⟩
  · intro m stats frozen current generation hwidth hfreeze hgeneration
    obtain ⟨hvalid, hslots, hstats⟩ :=
      freezeStore_eq_ok hcanonical hlayout.indexSlots_lt hwidth hfreeze
    exact persistFrozenHeader_ok crc hdata hvalid hslots hstats hgeneration
  · have hvalid := hfits.validate_ok
    have htable := emptyRegionMetadata_ok hfits
    obtain ⟨mlayout, bytes, hmlayout, hencode, hb⟩ := RegionMetadata.encode_spec crc hvalid
    obtain ⟨maximum, hmaximum, hle, -⟩ := RegionMetadata.length_le_maximum hvalid hmlayout hb
    obtain ⟨m, hm⟩ := RegionManager.fromMetadata_ok hvalid
    have hcount : (emptyTable data layout.indexSlots config.runtime.appendShards
        ranges).root.regionCount = layout.geometry.regionCount := by rw [← hgeometry]; rfl
    rw [hcount] at hmaximum
    have hshards : m.activeRegions.length = config.runtime.appendShards.toNat ∧
        m.reclaiming = [] := by
      obtain ⟨-, hfrom⟩ := RegionManager.fromMetadata_eq_ok hm
      exact ⟨hfrom.length_active, hfrom.reclaiming⟩
    obtain ⟨m', hm'⟩ := RegionManager.configureReclaimWorkers_ok haccepted.reclaim_pos
      (haccepted.reclaim_le.trans_eq hshards.1.symm) hshards.2
    exact ⟨_, bytes, maximum, m, m', htable, hvalid, hencode,
      RegionMetadata.decodeOwned_of_encodes hvalid hmlayout hb, hmaximum, hle, hm, hm'⟩

/-- A host that reserves nothing and has every deadline. -/
def sampleHost : Host Unit where
  ioUringUnavailability := none
  directAvailable := true
  deadlineFits := fun _ => true
  recorderBytes := fun _ => .ok 0
  fillControllerBytes := fun _ _ => .ok 0
  memoryStoreBytes := fun _ _ _ _ => .ok 0
  runtimeFixedMemoryBytes := fun _ _ => .ok 0
  stagingReservationBytes := fun _ _ => some 0
  activityMetricsBytes := 0

/-- Two Regions of a page each. -/
def sampleStorageOptions : StorageOptions where
  capacityBytes := 8192
  regionSizeBytes := 4096
  expectedEntries := none

/-- One append shard, and one worker for each pool. -/
def sampleRuntimeOptions : RuntimeOptions Unit where
  ioEngine := .posix ⟨1, 1, 1⟩
  ioMode := .direct
  readAdmission := .immediate
  reclaimIoTimeout := 1
  ioRecoveryTimeout := none
  fillControl := .disabled
  appendShards := 1
  l1CapacityBytes := 0
  l1EvictionPolicy := .clock
  managedMemoryLimitBytes := 2 ^ 30
  l1Shards := 1
  writeFlushThresholdBytes := 4096
  stats := ()

/-- The superblock of a layout. -/
def sampleSuperblock (layout : StorageLayout) : DataSuperblock :=
  ⟨1, .sample, .sample, layout.geometry, keyHashSeed, layout.fingerprint⟩

/-- A result that is there. -/
lemma toOption_eq_some {ε α : Type} {x : Except ε α} {a : α} : x.toOption = some a ↔ x = .ok a := by
  cases x <;> simp [Except.toOption]

/-- The sample is accepted: its superblock and its table are encoded, its manager takes the reclaim
worker, and the state frozen right away has an image. -/
theorem configuration_representable_sample : ∃ layout config ranges metadata m m' frozen page bytes,
    sampleStorageOptions.build = .ok layout ∧
    CacheConfig.new sampleHost layout sampleRuntimeOptions = .ok config ∧
    (sampleSuperblock layout).encode (fun _ => 0) = .ok page ∧
    canonicalIndexPartitionRanges layout.indexSlots = .ok ranges ∧
    emptyRegionMetadata (sampleSuperblock layout) layout.indexSlots config.runtime.appendShards =
      .ok metadata ∧
    metadata.encode (fun _ => 0) = .ok bytes ∧
    RegionManager.fromMetadata metadata = .ok m ∧
    RegionManager.configureReclaimWorkers
      (IoPoolTopology.reclaim config.runtime.ioEngine).maxInFlight m = .ok () m' ∧
    freezeStore m layout.indexSlots ranges [⟨3, 0⟩] = .ok frozen ∧
    (persistFrozenHeader (fun _ => 0) (sampleSuperblock layout) none frozen).isOk = true := by
  have hok : (sampleStorageOptions.build.toOption.bind fun layout =>
      (CacheConfig.new sampleHost layout sampleRuntimeOptions).toOption.bind fun config =>
      (canonicalIndexPartitionRanges layout.indexSlots).toOption.bind fun ranges =>
      (emptyRegionMetadata (sampleSuperblock layout) layout.indexSlots
        config.runtime.appendShards).toOption.bind fun metadata =>
      (RegionManager.fromMetadata metadata).toOption.bind fun m =>
      (freezeStore m layout.indexSlots ranges [⟨3, 0⟩]).toOption).isSome = true := by
    decide +kernel
  simp only [Option.isSome_iff_exists, Option.bind_eq_some_iff, toOption_eq_some] at hok
  obtain ⟨frozen, layout, hbuild, config, hconfig, ranges, hranges, metadata, hmetadata, m, hm,
    hfrozen⟩ := hok
  obtain ⟨⟨page, hpage, -⟩, ⟨ranges', hranges', himage⟩, metadata', bytes, maximum, m₁, m', htable,
      -, hbytes, -, -, -, hm₁, hworkers⟩ :=
    configuration_representable (fun _ => 0) sampleHost sampleStorageOptions sampleRuntimeOptions
      layout config hbuild hconfig (sampleSuperblock layout) rfl
        (show (1 : BitVec 64) ≠ 0 by decide)
  cases hranges.symm.trans hranges'
  cases hmetadata.symm.trans htable
  cases hm.symm.trans hm₁
  obtain ⟨table, header, headerPage, hheader, -⟩ :=
    himage m [⟨3, 0⟩] frozen none 1 (by simp) hfrozen rfl
  exact ⟨layout, config, ranges, metadata, m, m', frozen, page, bytes, hbuild, hconfig, hpage,
    hranges, hmetadata, hbytes, hm, hworkers, hfrozen, by rw [hheader]; rfl⟩

end Cache2

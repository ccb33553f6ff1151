import Cache2.Recovery.ControlPages
import Cache2.Region.Restart

set_option relaxedAutoImplicit false
set_option autoImplicit false

/-!
# The storage layout

A layout is computed from the capacity, the size of a Region and the expected number of entries
(`config/storage.rs`). It is refused if a count cannot be represented or if the disk space that a
warm close needs does not fit 64 bits.

## Main definitions

* `Cache2.StorageOptions.build` — the layout for the given options.

## Main results

* `Cache2.StorageOptions.build_eq_ok` — what an accepted layout satisfies.
* `Cache2.diskPeakBytes_eq_ok` — the peak is the data file, the state file and two images.
-/

namespace Cache2

open Loop Bytes

/-! ## Options -/

/-- The public operations that build a configuration. -/
inductive ErrorOperation
  | buildConfig
  | buildStorage
  deriving DecidableEq, Repr

/-- An error of a public operation. -/
structure OperationError where
  operation : ErrorOperation
  source : IoError
  deriving DecidableEq, Repr

/-- A refused configuration. -/
def invalidConfig (message : String) : IoError := ioError .invalidInput message

/-- A checked computation of a configuration. -/
def orInvalidConfig {α : Type} (message : String) : Option α → Except IoError α
  | some a => .ok a
  | none => .error (invalidConfig message)

@[simp] lemma orInvalidConfig_eq_ok {α : Type} {message : String} {x : Option α} {a : α} :
    orInvalidConfig message x = .ok a ↔ x = some a := by
  cases x <;> simp [orInvalidConfig]

/-- Bytes of the state file, two pages. -/
def stateFileSize : ℕ := 2 * recoveryPageSize

/-- The entry size that is assumed if the number of entries is not given. -/
def defaultExpectedEntryBytes : ℕ := 16 * 1024

/-- The least number of index slots. -/
def minIndexSlots : ℕ := 8

/-- The seed of key hashes. -/
def keyHashSeed : BitVec 64 := 0x6a09e667f3bcc909

/-- `StorageOptions`. -/
structure StorageOptions where
  capacityBytes : BitVec 64
  regionSizeBytes : BitVec 64
  expectedEntries : Option (BitVec 64)
  deriving DecidableEq, Repr

/-- `StorageLayout`. -/
structure StorageLayout where
  geometry : DataGeometry
  indexSlots : ℕ
  fingerprint : BitVec 64
  peakDiskBytes : ℕ
  deriving DecidableEq, Repr

/-! ## Accounting -/

/-- The length of the metadata of an image with the given numbers of records. -/
def metadataImageLen (regionCount partitionCount : ℕ) : Except IoError ℕ :=
  let regionPages :=
    (regionCount + (regionMetadataRegionsPerPage - 1)) / regionMetadataRegionsPerPage
  let partitionPages :=
    (partitionCount + (regionMetadataPartitionsPerPage - 1)) / regionMetadataPartitionsPerPage
  orInvalidConfig "Region metadata length overflow"
    (((Word.checkedAdd 64 1 regionPages).bind fun pages =>
      Word.checkedAdd 64 pages partitionPages).bind fun pages =>
        Word.checkedMul 64 pages recoveryPageSize)

/-- How errors of the index layout appear. -/
def indexLayoutError : IndexStorageError → IoError
  | .io message => ioError .other message
  | error => ⟨.invalidInput, .index error⟩

/-- The disk space of data, state and two images. -/
def diskPeakBytes (geometry : DataGeometry) (indexSlots : ℕ) : Except IoError ℕ := do
  let indexLen ← orInvalidConfig "index image length overflow" (recoveryImageIndexLen indexSlots)
  let ranges ← (validatedIndexPartitionRanges indexSlots).mapError indexLayoutError
  let metadataLen ← metadataImageLen geometry.regionCount.toNat ranges.length
  let imageLen ← orInvalidConfig "recovery image length overflow"
    ((Word.checkedAdd 64 recoveryImageIndexOffset indexLen).bind fun bytes =>
      Word.checkedAdd 64 bytes metadataLen)
  orInvalidConfig "peak disk usage overflow"
    ((Word.checkedAdd 64 geometry.dataFileLen.toNat stateFileSize).bind fun bytes =>
      (Word.checkedMul 64 imageLen 2).bind fun images => Word.checkedAdd 64 bytes images)

/-- The fingerprint of a layout, FNV-1a over its numbers; it is not zero. -/
def storageFingerprint (geometry : DataGeometry) (indexSlots : ℕ) (hashAlgorithmId : BitVec 64) :
    BitVec 64 :=
  let values : List (BitVec 64) := [3, geometry.dataFileLen, geometry.regionSize,
    geometry.regionCount.setWidth 64, BitVec.ofNat 64 indexSlots, keyHashSeed, hashAlgorithmId]
  let hash := (values.flatMap u64Bytes).foldl
    (fun (hash : BitVec 64) byte => (hash ^^^ byte.toBitVec.setWidth 64) * 0x100000001b3)
    0xcbf29ce484222325
  if hash = 0 then 1 else hash

/-! ## The layout -/

/-- `StorageLayout::new`. -/
def StorageLayout.new (capacityBytes regionSizeBytes : BitVec 64) (indexSlots : ℕ) :
    Except IoError StorageLayout :=
  if regionSizeBytes = 0 ∨ maxPackedRegionSize < regionSizeBytes.toNat ∨
      regionSizeBytes.toNat % 4096 ≠ 0 ∨ capacityBytes = 0 ∨
      capacityBytes.toNat % regionSizeBytes.toNat ≠ 0 then
    .error (invalidConfig
      "capacity must be a non-zero multiple of an aligned representable Region size")
  else do
    let regionCount ← orInvalidConfig "cache Region count is not representable"
      ((tryU32 (capacityBytes.toNat / regionSizeBytes.toNat)).filter
        (· ≤ maxPackedRegionCount))
    if regionCount < 2 then .error (invalidConfig "cache requires at least two Regions")
    else if indexSlots < minIndexSlots then
      .error (invalidConfig "index slots must be at least 8")
    else do
      let dataFileLen ← orInvalidConfig "cache data length overflow"
        (DataGeometry.expectedFileLen regionSizeBytes (BitVec.ofNat 32 regionCount))
      let geometry : DataGeometry :=
        ⟨BitVec.ofNat 64 dataFileLen, regionSizeBytes, BitVec.ofNat 32 regionCount⟩
      let peakDiskBytes ← diskPeakBytes geometry indexSlots
      .ok {
        geometry
        indexSlots
        fingerprint := storageFingerprint geometry indexSlots
          (DataSuperblock.keyHashAlgorithm.setWidth 64)
        peakDiskBytes }

/-- `build`. -/
def StorageOptions.build (options : StorageOptions) : Except OperationError StorageLayout :=
  let build : Except IoError StorageLayout := do
    let entries := match options.expectedEntries with
      | some entries => entries.toNat
      | none => options.capacityBytes.toNat / defaultExpectedEntryBytes
    let slots ← orInvalidConfig "index slot count overflow" (Word.checkedMul 64 entries 2)
    StorageLayout.new options.capacityBytes options.regionSizeBytes (max slots minIndexSlots)
  build.mapError fun error => ⟨.buildStorage, error⟩

/-! ## Accepted layouts -/

/-- What an accepted layout satisfies. -/
structure StorageLayout.Accepted (layout : StorageLayout) : Prop where
  regionSize_pos : 0 < layout.geometry.regionSize.toNat
  regionSize_le : layout.geometry.regionSize.toNat ≤ maxPackedRegionSize
  regionSize_aligned : layout.geometry.regionSize.toNat % 4096 = 0
  two_le_regionCount : 2 ≤ layout.geometry.regionCount.toNat
  regionCount_le : layout.geometry.regionCount.toNat ≤ maxPackedRegionCount
  dataFileLen : DataGeometry.expectedFileLen layout.geometry.regionSize
    layout.geometry.regionCount = some layout.geometry.dataFileLen.toNat
  eight_le_indexSlots : 8 ≤ layout.indexSlots
  indexSlots_lt : layout.indexSlots < 2 ^ 64
  /-- The index layout exists, and the image with its sections fits 64 bits. -/
  image : ∃ ranges indexLen, validatedIndexPartitionRanges layout.indexSlots = .ok ranges ∧
    recoveryImageIndexLen layout.indexSlots = some indexLen ∧
    4096 + indexLen + (1 + (layout.geometry.regionCount.toNat + 191) / 192 +
      (ranges.length + 251) / 252) * 4096 < 2 ^ 64

/-- What the disk accounting establishes: the image fits, and the peak is the data file, the state
file and two images. -/
lemma diskPeakBytes_eq_ok {geometry : DataGeometry} {indexSlots peak : ℕ}
    (h : diskPeakBytes geometry indexSlots = .ok peak) :
    ∃ ranges indexLen, validatedIndexPartitionRanges indexSlots = .ok ranges ∧
      recoveryImageIndexLen indexSlots = some indexLen ∧
      4096 + indexLen + (1 + (geometry.regionCount.toNat + 191) / 192 +
        (ranges.length + 251) / 252) * 4096 < 2 ^ 64 ∧
      peak = geometry.dataFileLen.toNat + stateFileSize +
        2 * (4096 + indexLen + (1 + (geometry.regionCount.toNat + 191) / 192 +
          (ranges.length + 251) / 252) * 4096) := by
  simp only [diskPeakBytes, except_bind_eq_ok, orInvalidConfig_eq_ok, mapError_eq_ok] at h
  obtain ⟨indexLen, hindex, ranges, hranges, metadataLen, hmetadata, imageLen, himage, hpeak⟩ := h
  refine ⟨ranges, indexLen, hranges, hindex, ?_⟩
  rw [metadataImageLen, orInvalidConfig_eq_ok, Option.bind_eq_some_iff] at hmetadata
  obtain ⟨pages, hpages, hmetadata⟩ := hmetadata
  obtain ⟨first, hfirst, hpages⟩ := Option.bind_eq_some_iff.1 hpages
  obtain ⟨bytes, hbytes, himage⟩ := Option.bind_eq_some_iff.1 himage
  rw [Word.checkedAdd_eq_some] at hfirst hpages hbytes himage
  rw [Word.checkedMul_eq_some] at hmetadata
  obtain ⟨-, rfl⟩ := hfirst
  obtain ⟨-, rfl⟩ := hpages
  obtain ⟨-, rfl⟩ := hmetadata
  obtain ⟨-, rfl⟩ := hbytes
  obtain ⟨hlt, rfl⟩ := himage
  obtain ⟨files, hfiles, hpeak⟩ := Option.bind_eq_some_iff.1 hpeak
  obtain ⟨images, himages, hpeak⟩ := Option.bind_eq_some_iff.1 hpeak
  rw [Word.checkedAdd_eq_some] at hfiles hpeak
  rw [Word.checkedMul_eq_some] at himages
  obtain ⟨-, rfl⟩ := hfiles
  obtain ⟨-, rfl⟩ := himages
  exact ⟨hlt, hpeak.2.trans (congrArg _ (Nat.mul_comm _ 2))⟩

/-- What `StorageLayout::new` establishes. -/
lemma StorageLayout.new_eq_ok {capacityBytes regionSizeBytes : BitVec 64} {indexSlots : ℕ}
    {layout : StorageLayout} (hslots : indexSlots < 2 ^ 64)
    (h : StorageLayout.new capacityBytes regionSizeBytes indexSlots = .ok layout) :
    layout.Accepted := by
  rw [StorageLayout.new, ite_error_eq_ok, except_bind_eq_ok] at h
  obtain ⟨hsize, regionCount, hcount, h⟩ := h
  simp only [not_or, not_not, Nat.not_lt] at hsize
  obtain ⟨hzero, hle, haligned, -, -⟩ := hsize
  rw [orInvalidConfig_eq_ok, Option.filter_eq_some_iff, RegionManager.tryU32_eq_some] at hcount
  obtain ⟨⟨hlt, hquotient⟩, hmax⟩ := hcount
  rw [← hquotient] at hlt
  rw [ite_error_eq_ok, ite_error_eq_ok, except_bind_eq_ok] at h
  obtain ⟨htwo, height, dataFileLen, hlen, h⟩ := h
  rw [except_bind_eq_ok] at h
  obtain ⟨peak, hpeak, h⟩ := h
  rw [orInvalidConfig_eq_ok] at hlen
  cases h
  have hmax' : regionCount ≤ maxPackedRegionCount := by simpa using hmax
  have hcount' : (BitVec.ofNat 32 regionCount).toNat = regionCount := Nat.mod_eq_of_lt hlt
  have hlen' : (BitVec.ofNat 64 dataFileLen).toNat = dataFileLen := by
    obtain ⟨bytes, -, hsum⟩ := Option.bind_eq_some_iff.1 hlen
    obtain ⟨hlt, rfl⟩ := Word.checkedAdd_eq_some.1 hsum
    exact Nat.mod_eq_of_lt hlt
  have hpos : regionSizeBytes.toNat ≠ 0 :=
    fun hz => hzero (BitVec.eq_of_toNat_eq (by simpa using hz))
  obtain ⟨ranges, indexLen, hranges, hindex, himage, -⟩ := diskPeakBytes_eq_ok hpeak
  refine ⟨Nat.pos_of_ne_zero hpos, hle, haligned, ?_, ?_, ?_, Nat.le_of_not_lt height, hslots,
    ranges, indexLen, hranges, hindex, himage⟩
  · rw [hcount']
    exact Nat.le_of_not_lt htwo
  · rw [hcount']
    exact hmax'
  · rw [hlen']
    exact hlen

/-- The peak of a layout that is built is that of its geometry and its index. -/
lemma StorageOptions.build_peak {options : StorageOptions} {layout : StorageLayout}
    (h : options.build = .ok layout) :
    diskPeakBytes layout.geometry layout.indexSlots = .ok layout.peakDiskBytes := by
  rw [build, mapError_eq_ok, except_bind_eq_ok] at h
  obtain ⟨slots, -, h⟩ := h
  simp only [StorageLayout.new, ite_error_eq_ok, except_bind_eq_ok] at h
  obtain ⟨-, regionCount, -, -, -, dataFileLen, -, peak, hpeak, h⟩ := h
  cases h
  exact hpeak

/-- **Layouts.** A layout that is built is accepted. -/
theorem StorageOptions.build_eq_ok {options : StorageOptions} {layout : StorageLayout}
    (h : options.build = .ok layout) : layout.Accepted := by
  rw [build, mapError_eq_ok, except_bind_eq_ok] at h
  obtain ⟨slots, hslots, h⟩ := h
  rw [orInvalidConfig_eq_ok, Word.checkedMul_eq_some] at hslots
  refine StorageLayout.new_eq_ok (max_lt ?_ (by decide)) h
  rw [hslots.2]
  exact hslots.1

end Cache2

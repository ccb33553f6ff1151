import Cache2.Index.Slot
import Cache2.Region.Metadata

set_option relaxedAutoImplicit false
set_option autoImplicit false

/-!
# The data file's format

The immutable superblock of a data file and the errors of the persistence layer
(`region/recovery/mod.rs`).

## Main definitions

* `Cache2.DataSuperblock`, `Cache2.DataGeometry` — the superblock.
* `Cache2.recoveryImageIndexLen` — the bytes of an index image.
* `Cache2.IoError` — the errors of the persistence layer.
-/

namespace Cache2

/-! ## Errors -/

/-- The kind of an I/O error. -/
inductive IoErrorKind
  | invalidInput
  | invalidData
  | outOfMemory
  | notConnected
  | unexpectedEof
  | notFound
  | unsupported
  | other
  deriving DecidableEq, Repr

/-- What an I/O error carries. -/
inductive IoErrorPayload
  | text (message : String)
  | metadata (error : RegionMetadataError)
  | index (error : IndexStorageError)
  deriving DecidableEq, Repr

/-- An I/O error. -/
structure IoError where
  kind : IoErrorKind
  payload : IoErrorPayload
  deriving DecidableEq, Repr

/-- An I/O error with a message. -/
def ioError (kind : IoErrorKind) (message : String) : IoError := ⟨kind, .text message⟩

/-- How metadata errors appear. -/
def regionMetadataIoError : RegionMetadataError → IoError
  | .allocation => ⟨.outOfMemory, .metadata .allocation⟩
  | error => ⟨.invalidData, .metadata error⟩

/-- How errors of the index storage appear. -/
def indexStorageIoError : IndexStorageError → IoError
  | .io message => ioError .other message
  | error => ⟨.invalidData, .index error⟩

/-! ## The superblock -/

/-- Where the Regions begin. -/
def dataRegionAreaOffset : ℕ := recoveryPageSize

/-- The geometry of a data file. -/
structure DataGeometry where
  dataFileLen : BitVec 64
  regionSize : BitVec 64
  regionCount : BitVec 32
  deriving DecidableEq, Repr

namespace DataGeometry

/-- The length of a file with the given Regions. -/
def expectedFileLen (regionSize : BitVec 64) (regionCount : BitVec 32) : Option ℕ :=
  (Word.checkedMul 64 regionSize.toNat regionCount.toNat).bind fun bytes =>
    Word.checkedAdd 64 bytes dataRegionAreaOffset

/-- Whether the index can address the geometry. -/
def isValid (g : DataGeometry) : Bool :=
  g.regionCount ≠ 0 && g.regionCount.toNat ≤ maxPackedRegionCount &&
    recoveryPageSize ≤ g.regionSize.toNat && g.regionSize.toNat ≤ maxPackedRegionSize &&
    g.regionSize.toNat % recoveryPageSize = 0 &&
    expectedFileLen g.regionSize g.regionCount = some g.dataFileLen.toNat

end DataGeometry

/-- The page at offset zero of a data file. -/
structure DataSuperblock where
  generation : BitVec 64
  cacheUuid : PersistentId
  dataIdentity : PersistentId
  geometry : DataGeometry
  hashSeed : BitVec 64
  storageFingerprint : BitVec 64
  deriving DecidableEq, Repr

/-- Whether a superblock may be written. -/
def DataSuperblock.isValid (data : DataSuperblock) : Bool :=
  data.generation ≠ 0 && data.geometry.isValid

/-- The bytes of the index pages of an image. -/
def recoveryImageIndexLen (indexSlots : ℕ) : Option ℕ :=
  if indexSlots = 0 then none
  else
    let completePages := indexSlots / indexImageSlotsPerPage
    let partialPage := if indexSlots % indexImageSlotsPerPage = 0 then 0 else 1
    (Word.checkedAdd 64 completePages partialPage).bind fun pages =>
      Word.checkedMul 64 pages recoveryPageSize

end Cache2

import Mathlib.Algebra.Order.BigOperators.Group.Finset
import Cache2.Lib.Loop
import Cache2.Index.Slot

set_option relaxedAutoImplicit false
set_option autoImplicit false

/-!
# Index storage: one shared image, lazily validated, in partitions

The buckets of the index live in one byte image (`region/index/storage/mod.rs`). An anonymous
image is zero-filled and its pages are valid from the start; an image mapped from a file is
validated page by page, when a bucket of the page is first touched, and the first page that
fails rejects the whole image. Each partition has its own counters over its own buckets.

An operation runs with its partition's lock held, so validation is not interrupted and a page
is never found being validated by somebody else.

## Main definitions

* `Cache2.IndexStorageCore` — the image bytes and the validation states.
* `Cache2.PartitionedIndexStorage` — the image with its partitions and their counters.
* `Cache2.PartitionedIndexStorage.stateAt`, `Cache2.PartitionedIndexStorage.replaceObservedState`
  — reading and replacing a bucket.
* `Cache2.CoreRepr`, `Cache2.StorageRepr` — the image represents a table of bucket states.

## Main results

* `Cache2.stateAt_spec` — reading a bucket yields its state and changes no state.
* `Cache2.replaceObservedState_spec` — replacing a bucket changes this bucket only, and keeps
  every counter equal to the number of occupied buckets of its partition.
-/

namespace Cache2

open Bytes Loop

/-! ## The image -/

/-- The lazy validation state of a page. -/
inductive PageState
  | unchecked
  | validating
  | valid
  | rejected
  deriving DecidableEq, Repr

/-- The shared image: its bytes, its geometry and its validation states. -/
structure IndexStorageCore where
  bytes : List UInt8
  slotCount : ℕ
  pageCount : ℕ
  expectedBinding : Option IndexImageBinding
  imageRejected : Bool
  pageStates : List PageState
  deriving DecidableEq, Repr

/-- Computations on the image. -/
abbrev CoreM := EStateM IndexStorageError IndexStorageCore

namespace IndexStorageCore

/-- Buckets on a page. -/
def validSlotsInPage (core : IndexStorageCore) (page : ℕ) : ℕ :=
  let first := page * indexImageSlotsPerPage
  min (core.slotCount - first) indexImageSlotsPerPage

/-- The bucket at a byte offset. -/
def decodeAt (core : IndexStorageCore) (offset : ℕ) : IndexSlot :=
  IndexSlot.decode (slice core.bytes offset indexImageSlotSize)

/-- The byte offset of a bucket of a page. -/
def slotOffset (page slotInPage : ℕ) : Option ℕ := do
  let base ← Word.checkedMul 64 page indexImagePageSize
  let base ← Word.checkedAdd 64 base indexImagePageHeaderSize
  let inPage ← Word.checkedMul 64 slotInPage indexImageSlotSize
  Word.checkedAdd 64 base inPage

/-- The page and the byte offset of a bucket. -/
def slotAddress (core : IndexStorageCore) (slot : ℕ) : Except IndexStorageError (ℕ × ℕ) :=
  if slot ≥ core.slotCount then .error (.slotOutOfBounds slot core.slotCount)
  else do
    let page := slot / indexImageSlotsPerPage
    let slotInPage := slot % indexImageSlotsPerPage
    let offset ← orOverflow (slotOffset page slotInPage)
    .ok (page, offset)

/-- The buckets of a page from `slotInPage` on have a meaning. -/
def validatePageSlots (page : List UInt8) (expectedFirstSlot : ℕ) :
    List ℕ → Except IndexStorageError Unit
  | [] => .ok ()
  | slotInPage :: rest => do
    let slotIndex ← orOverflow (Word.checkedAdd 64 expectedFirstSlot slotInPage)
    let inPage ← orOverflow (Word.checkedMul 64 slotInPage indexImageSlotSize)
    let offset ← orOverflow (Word.checkedAdd 64 indexImagePageHeaderSize inPage)
    match (IndexSlot.decode (slice page offset indexImageSlotSize)).runtimeState with
    | .error reason => .error (.corruptSlot slotIndex reason)
    | .ok _ => validatePageSlots page expectedFirstSlot rest

/-- Checks the header, the checksum and every bucket of a mapped page. -/
def validateMappedPage (crc : List UInt8 → BitVec 32) (core : IndexStorageCore)
    (pageIndex : ℕ) : Except IndexStorageError Unit :=
  match core.expectedBinding with
  | none =>
    .error (.invalidArgument "anonymous index page unexpectedly requires validation")
  | some expectedBinding => do
    let offset ← orOverflow (Word.checkedMul 64 pageIndex indexImagePageSize)
    let page := slice core.bytes offset indexImagePageSize
    let expectedFirstSlot ← orOverflow (Word.checkedMul 64 pageIndex indexImageSlotsPerPage)
    let expectedValidSlots := core.validSlotsInPage pageIndex
    match validatePageHeader crc page pageIndex expectedFirstSlot expectedValidSlots
        expectedBinding with
    | .error reason => .error (.corruptPage pageIndex reason)
    | .ok () => validatePageSlots page expectedFirstSlot (List.range expectedValidSlots)

/-- Fails once any page has been rejected. -/
def ensureImageUsable (pageIndex : ℕ) : CoreM Unit := do
  if (← get).imageRejected then throw (.corruptPage pageIndex .previouslyRejected)

/-- Rejects the whole image. -/
def rejectImage : CoreM Unit := modify fun core => { core with imageRejected := true }

/-- Stores the validation state of a page. -/
def storePageState (page : ℕ) (state : PageState) : CoreM Unit :=
  modify fun core => { core with pageStates := core.pageStates.set page state }

/-- Validates a page on its first touch. -/
def ensurePageValid (crc : List UInt8 → BitVec 32) (page : ℕ) : CoreM Unit := do
  let core ← get
  match core.pageStates[page]? with
  | none => throw (.pageOutOfBounds page core.pageCount)
  | some state => do
    ensureImageUsable page
    match state with
    | .valid => pure ()
    | .rejected => throw (.corruptPage page .previouslyRejected)
    | .validating => throw (.pageBusy page)
    | .unchecked => do
      storePageState page .validating
      match validateMappedPage crc core page with
      | .ok () => do
        storePageState page .valid
        ensureImageUsable page
      | .error error => do
        rejectImage
        storePageState page .rejected
        throw error

/-- Copies the bytes of a bucket into the image. -/
def writeSlot (crc : List UInt8 → BitVec 32) (slot : ℕ) (value : IndexSlot) : CoreM Unit := do
  let (page, offset) ← orThrow ((← get).slotAddress slot)
  ensurePageValid crc page
  modify fun core => { core with bytes := splice core.bytes offset value.encode }
  ensureImageUsable page

/-- Reads a bucket of the image. -/
def stateAt (crc : List UInt8 → BitVec 32) (globalSlot : ℕ) : CoreM IndexSlotState := do
  let (page, offset) ← orThrow ((← get).slotAddress globalSlot)
  ensurePageValid crc page
  match ((← get).decodeAt offset).runtimeState with
  | .error reason => do
    rejectImage
    throw (.corruptSlot globalSlot reason)
  | .ok state => do
    ensureImageUsable page
    pure state

end IndexStorageCore

/-! ## Partitions -/

/-- The image with its partitions; every partition has its own counters. -/
structure PartitionedIndexStorage where
  slotCount : ℕ
  ranges : List IndexPartitionRange
  core : IndexStorageCore
  stats : List IndexPhysicalStats
  deriving DecidableEq, Repr

/-- Computations on the storage. -/
abbrev StorageM := EStateM IndexStorageError PartitionedIndexStorage

/-- Adds two counters. -/
def checkedAddPhysicalStats (left right : IndexPhysicalStats) :
    Except IndexStorageError IndexPhysicalStats :=
  match Word.checkedAdd 64 left.value right.value,
    Word.checkedAdd 64 left.deleted right.deleted with
  | some value, some deleted => .ok ⟨value, deleted⟩
  | _, _ => .error .invalidPhysicalStats

/-- Adds all counters. -/
def checkedSumPhysicalStats (stats : List IndexPhysicalStats) :
    Except IndexStorageError IndexPhysicalStats :=
  stats.foldlM checkedAddPhysicalStats IndexPhysicalStats.default

namespace PartitionedIndexStorage

/-- A computation on the shared image. -/
def onCore {α : Type} (f : CoreM α) : StorageM α :=
  zoom (·.core) (fun core storage => { storage with core }) f

/-- An empty index: a zero-filled image whose pages need no validation. -/
def anonymous (slotCount : ℕ) : Except IndexStorageError PartitionedIndexStorage := do
  let ranges ← canonicalIndexPartitionRanges slotCount
  let layout ← ImageLayout.new slotCount
  let core : IndexStorageCore :=
    { bytes := List.replicate layout.imageLen 0
      slotCount
      pageCount := layout.pageCount
      expectedBinding := none
      imageRejected := false
      pageStates := List.replicate layout.pageCount .valid }
  .ok ⟨slotCount, ranges, core, ranges.map fun _ => IndexPhysicalStats.default⟩

/-- Every partition's counters are possible for it. -/
def statsFitRanges : List IndexPartitionRange → List IndexPhysicalStats → Bool
  | range :: ranges, stats :: rest =>
    stats.isValidFor range.slotCount && statsFitRanges ranges rest
  | _, _ => true

/-- Maps the image that starts at `fileOffset` of a file, privately: the file is not changed by
later writes. No page is read yet. -/
def mapPrivate (file : List UInt8) (fileOffset slotCount : ℕ)
    (expectedBinding : IndexImageBinding) (partitionStats : List IndexPhysicalStats) :
    Except IndexStorageError PartitionedIndexStorage := do
  let ranges ← canonicalIndexPartitionRanges slotCount
  if partitionStats.length ≠ ranges.length then .error .invalidPhysicalStats
  else if !statsFitRanges ranges partitionStats then .error .invalidPhysicalStats
  else do
    let physicalStats ← checkedSumPhysicalStats partitionStats
    if !physicalStats.isValidFor slotCount then .error .invalidPhysicalStats
    else if !expectedBinding.isValid then
      .error (.invalidArgument "mapped index image binding must be non-zero")
    else if fileOffset % indexImagePageSize ≠ 0 then
      .error (.invalidArgument "index image file offset must be 4 KiB aligned")
    else do
      let layout ← ImageLayout.new slotCount
      let mappingLen ← orOverflow (Word.checkedAdd 64 fileOffset layout.imageLen)
      if mappingLen > isizeMax then .error .sizeOverflow
      else if file.length < mappingLen then
        .error (.io "index image range extends past the end of the file")
      else
        let core : IndexStorageCore :=
          { bytes := slice file fileOffset layout.imageLen
            slotCount
            pageCount := layout.pageCount
            expectedBinding := some expectedBinding
            imageRejected := false
            pageStates := List.replicate layout.pageCount .unchecked }
        .ok ⟨slotCount, ranges, core, partitionStats⟩

/-- Reads a bucket of a partition. -/
def stateAt (crc : List UInt8 → BitVec 32) (range : IndexPartitionRange) (slot : ℕ) :
    StorageM IndexSlotState := do
  let globalSlot ← orThrow (range.globalSlot slot)
  onCore (IndexStorageCore.stateAt crc globalSlot)

/-- Replaces a bucket of a partition whose state the caller has just read. -/
def replaceObservedState (crc : List UInt8 → BitVec 32) (range : IndexPartitionRange)
    (slot : ℕ) (previous state : IndexSlotState) : StorageM Unit := do
  let globalSlot ← orThrow (range.globalSlot slot)
  let previousKind := previous.physicalKind
  let value := IndexSlot.fromState state
  let physicalStats := (← get).stats.getD range.partitionId IndexPhysicalStats.default
  match physicalStats.transitioned previousKind value.physicalKind range.slotCount with
  | none => throw .invalidPhysicalStats
  | some nextStats => do
    onCore (IndexStorageCore.writeSlot crc globalSlot value)
    modify fun storage =>
      { storage with stats := storage.stats.set range.partitionId nextStats }

end PartitionedIndexStorage

/-! ## The represented table -/

/-- The byte offset of a bucket, without overflow checks. -/
def slotByte (slot : ℕ) : ℕ := slot / 504 * 4096 + 64 + slot % 504 * 8

/-- Buckets of an image below `isize::MAX` bytes have their offsets inside of it. -/
lemma slotByte_add_le {slotCount slot : ℕ} (h : slot < slotCount) :
    slotByte slot + 8 ≤ (slotCount + 503) / 504 * 4096 := by
  unfold slotByte
  omega

/-- A bucket lies outside of all pages but its own. -/
lemma slotByte_of_page_ne {slot page : ℕ} (h : page ≠ slot / 504) :
    page * indexImagePageSize + indexImagePageSize ≤ slotByte slot ∨
      slotByte slot + 8 ≤ page * indexImagePageSize := by
  unfold slotByte indexImagePageSize
  omega

/-- Different buckets do not overlap. -/
lemma slotByte_disjoint {s t : ℕ} (h : s ≠ t) :
    slotByte s + 8 ≤ slotByte t ∨ slotByte t + 8 ≤ slotByte s := by
  unfold slotByte
  omega

/-- The image has the geometry of `slotCount` buckets and represents the table `t`: every bucket
decodes to its state, no page has been rejected, and every page not validated yet would pass. -/
structure CoreRepr (crc : List UInt8 → BitVec 32) (slotCount : ℕ) (t : ℕ → IndexSlotState)
    (core : IndexStorageCore) : Prop where
  slotCount_eq : core.slotCount = slotCount
  pageCount_eq : core.pageCount = (slotCount + 503) / 504
  image_le : (slotCount + 503) / 504 * 4096 ≤ isizeMax
  length_bytes : core.bytes.length = (slotCount + 503) / 504 * 4096
  length_pageStates : core.pageStates.length = (slotCount + 503) / 504
  usable : core.imageRejected = false
  pages : ∀ page < (slotCount + 503) / 504, core.pageStates[page]? = some .valid ∨
    (core.pageStates[page]? = some .unchecked ∧ core.validateMappedPage crc page = .ok ())
  slots : ∀ slot < slotCount,
    (IndexSlot.decode (slice core.bytes (slotByte slot) 8)).runtimeState = .ok (t slot)

namespace IndexStorageCore

variable {crc : List UInt8 → BitVec 32} {slotCount : ℕ} {t : ℕ → IndexSlotState}

/-- In an image below `isize::MAX` bytes no offset overflows. -/
lemma slotOffset_eq {slot : ℕ} (hs : slot < slotCount)
    (himg : (slotCount + 503) / 504 * 4096 ≤ isizeMax) :
    slotOffset (slot / 504) (slot % 504) = some (slotByte slot) := by
  have hle := slotByte_add_le hs
  simp only [slotByte, isizeMax] at *
  simp only [slotOffset, indexImagePageSize, indexImagePageHeaderSize, indexImageSlotSize]
  rw [Word.checkedMul_of_lt (by omega)]
  simp only [Option.bind_eq_bind, Option.bind_some]
  rw [Word.checkedAdd_of_lt (by omega), Option.bind_some, Word.checkedMul_of_lt (by omega),
    Option.bind_some, Word.checkedAdd_of_lt (by omega)]

/-- The address of a bucket. -/
lemma slotAddress_eq {core : IndexStorageCore} (h : CoreRepr crc slotCount t core) {slot : ℕ}
    (hs : slot < slotCount) : core.slotAddress slot = .ok (slot / 504, slotByte slot) := by
  unfold slotAddress
  rw [h.slotCount_eq, if_neg (by omega)]
  simp only [indexImageSlotsPerPage, slotOffset_eq hs h.image_le]
  rfl

/-- Storing a valid state for a page that passes keeps the represented table. -/
lemma CoreRepr_storeValid {core : IndexStorageCore} (h : CoreRepr crc slotCount t core)
    (page : ℕ) : CoreRepr crc slotCount t
      { core with pageStates := core.pageStates.set page .valid } := by
  obtain ⟨h₁, h₂, h₃, h₄, h₅, h₆, h₇, h₈⟩ := h
  refine ⟨h₁, h₂, h₃, h₄, by simpa using h₅, h₆, ?_, h₈⟩
  intro q hq
  by_cases hqp : page = q
  · subst hqp
    left
    simp only [List.getElem?_set_self', List.getElem?_eq_getElem (h₅ ▸ hq)]
    rfl
  · simp only [List.getElem?_set_ne hqp]
    exact h₇ q hq

/-- Validation on first touch succeeds, leaves the page valid and the table as it was. -/
lemma ensurePageValid_spec {page : ℕ} (hp : page < (slotCount + 503) / 504) :
    Ensures (CoreRepr crc slotCount t) (ensurePageValid crc page)
      fun _ core => CoreRepr crc slotCount t core ∧ core.pageStates[page]? = some .valid := by
  intro core h
  rcases h.pages page hp with hv | ⟨hu, hok⟩
  · refine ⟨(), core, ?_, h, hv⟩
    simp [ensurePageValid, ensureImageUsable, bind_apply, hv, h.usable]
  · refine ⟨(), { core with pageStates := core.pageStates.set page .valid }, ?_,
      CoreRepr_storeValid h page, ?_⟩
    · simp [ensurePageValid, ensureImageUsable, storePageState, bind_apply, hu, h.usable, hok]
    · simp [h.length_pageStates, hp]

/-- Reading a bucket yields its state; the table does not change. -/
lemma stateAt_spec {slot : ℕ} (hs : slot < slotCount) :
    Ensures (CoreRepr crc slotCount t) (stateAt crc slot)
      fun state core => state = t slot ∧ CoreRepr crc slotCount t core := by
  intro core h
  have hpage : slot / 504 < (slotCount + 503) / 504 := by omega
  obtain ⟨⟨⟩, core', h₁, h₂, -⟩ := ensurePageValid_spec hpage core h
  refine ⟨t slot, core', ?_, rfl, h₂⟩
  have hd := h₂.slots slot hs
  simp [stateAt, bind_apply, orThrow, slotAddress_eq h hs, h₁, decodeAt, indexImageSlotSize, hd,
    ensureImageUsable, h₂.usable]

/-- A page's validation reads the page's own bytes only. -/
lemma validateMappedPage_congr {core core' : IndexStorageCore} {page : ℕ}
    (hslots : core'.slotCount = core.slotCount)
    (hbinding : core'.expectedBinding = core.expectedBinding)
    (hbytes : slice core'.bytes (page * indexImagePageSize) indexImagePageSize =
      slice core.bytes (page * indexImagePageSize) indexImagePageSize) :
    core'.validateMappedPage crc page = core.validateMappedPage crc page := by
  unfold validateMappedPage validSlotsInPage
  rw [hslots, hbinding]
  cases core.expectedBinding with
  | none => rfl
  | some b =>
    cases hm : Word.checkedMul 64 page indexImagePageSize with
    | none => simp only [orOverflow, bind, Except.bind]
    | some off =>
      have hoff : off = page * indexImagePageSize := (Word.checkedMul_eq_some.1 hm).2
      simp only [orOverflow, bind, Except.bind, hoff, hbytes]

/-- Copying a bucket into its page changes the table at this bucket only. -/
lemma CoreRepr_splice {core : IndexStorageCore} (h : CoreRepr crc slotCount t core) {slot : ℕ}
    (hs : slot < slotCount) (hv : core.pageStates[slot / 504]? = some .valid)
    (state : IndexSlotState) :
    CoreRepr crc slotCount (Function.update t slot state.stored)
      { core with
        bytes := splice core.bytes (slotByte slot) (IndexSlot.fromState state).encode } := by
  have hle := slotByte_add_le hs
  have hlen : slotByte slot + (IndexSlot.fromState state).encode.length ≤ core.bytes.length := by
    rw [IndexSlot.length_encode, h.length_bytes]
    exact hle
  refine ⟨h.slotCount_eq, h.pageCount_eq, h.image_le, ?_, h.length_pageStates, h.usable, ?_, ?_⟩
  · rw [length_splice hlen, h.length_bytes]
  · intro q hq
    rcases h.pages q hq with hvq | ⟨hu, hok⟩
    · exact .inl hvq
    · -- a page that is still unchecked is another page, so its bytes are as before
      have hne : q ≠ slot / 504 := by
        rintro rfl
        rw [hv] at hu
        cases hu
      refine .inr ⟨hu, ?_⟩
      rw [← hok]
      refine validateMappedPage_congr rfl rfl ?_
      rcases slotByte_of_page_ne hne with hend | hstart
      · rw [slice_splice_before hlen hend]
      · rw [slice_splice_after hlen (by rw [IndexSlot.length_encode]; exact hstart)]
  · intro s hslot
    by_cases hss : s = slot
    · subst hss
      rw [Function.update_self, slice_splice_self (IndexSlot.length_encode _) (by
        rw [h.length_bytes]; exact hle), IndexSlot.decode_encode,
        IndexSlot.runtimeState_fromState]
    · rw [Function.update_of_ne hss, ← h.slots s hslot]
      rcases slotByte_disjoint hss with hd | hd
      · rw [slice_splice_before hlen hd]
      · rw [slice_splice_after hlen (by rw [IndexSlot.length_encode]; exact hd)]

/-- Writing a bucket stores its state and changes no other one. -/
lemma writeSlot_spec {slot : ℕ} (hs : slot < slotCount) (state : IndexSlotState) :
    Ensures (CoreRepr crc slotCount t) (writeSlot crc slot (IndexSlot.fromState state))
      fun _ core => CoreRepr crc slotCount (Function.update t slot state.stored) core := by
  intro core h
  have hpage : slot / 504 < (slotCount + 503) / 504 := by omega
  obtain ⟨⟨⟩, core', h₁, h₂, hv⟩ := ensurePageValid_spec hpage core h
  refine ⟨(), _, ?_, CoreRepr_splice h₂ hs hv state⟩
  simp [writeSlot, bind_apply, orThrow, slotAddress_eq h hs, h₁, ensureImageUsable, h₂.usable]

end IndexStorageCore

/-! ## Partitions and their counters -/

/-- The number of occupied buckets of a range. -/
def occupied (range : IndexPartitionRange) (t : ℕ → IndexSlotState) : ℕ :=
  ∑ slot ∈ Finset.range range.slotCount, (t (range.firstSlot + slot)).physicalKind.weight

/-- The storage has the geometry of `slotCount` buckets, represents the table `t`, and each
partition's counters are those of the table. -/
structure StorageRepr (crc : List UInt8 → BitVec 32) (slotCount : ℕ)
    (ranges : List IndexPartitionRange) (t : ℕ → IndexSlotState)
    (storage : PartitionedIndexStorage) : Prop where
  slotCount_eq : storage.slotCount = slotCount
  ranges_eq : storage.ranges = ranges
  core : CoreRepr crc slotCount t storage.core
  stats_eq : storage.stats = ranges.map fun range => ⟨occupied range t, 0⟩

/-- A bucket's kind weighs at most one. -/
lemma SlotPhysicalKind.weight_le (kind : SlotPhysicalKind) : kind.weight ≤ 1 := by
  cases kind <;> simp [weight]

/-- No more buckets are occupied than there are. -/
lemma occupied_le (range : IndexPartitionRange) (t : ℕ → IndexSlotState) :
    occupied range t ≤ range.slotCount := by
  have h := Finset.sum_le_card_nsmul (Finset.range range.slotCount)
    (fun slot => (t (range.firstSlot + slot)).physicalKind.weight) 1
    fun slot _ => SlotPhysicalKind.weight_le _
  simpa [occupied] using h

/-- Replacing a bucket of a range moves its weight. -/
lemma occupied_update_self {range : IndexPartitionRange} {slot : ℕ}
    (hs : slot < range.slotCount) (t : ℕ → IndexSlotState) (state : IndexSlotState) :
    occupied range (Function.update t (range.firstSlot + slot) state) +
        (t (range.firstSlot + slot)).physicalKind.weight =
      occupied range t + state.physicalKind.weight := by
  have hmem : slot ∈ Finset.range range.slotCount := Finset.mem_range.2 hs
  unfold occupied
  rw [← Finset.sum_erase_add _ _ hmem, ← Finset.sum_erase_add _ _ hmem, Function.update_self]
  have hrest : ∀ s ∈ (Finset.range range.slotCount).erase slot,
      (Function.update t (range.firstSlot + slot) state (range.firstSlot + s)).physicalKind.weight =
        (t (range.firstSlot + s)).physicalKind.weight := by
    intro s hse
    have hne := Finset.ne_of_mem_erase hse
    rw [Function.update_of_ne (by omega)]
  rw [Finset.sum_congr rfl hrest]
  omega

/-- An occupied bucket is counted. -/
lemma weight_le_occupied {range : IndexPartitionRange} {slot : ℕ} (hs : slot < range.slotCount)
    (t : ℕ → IndexSlotState) :
    (t (range.firstSlot + slot)).physicalKind.weight ≤ occupied range t :=
  Finset.single_le_sum (f := fun s => (t (range.firstSlot + s)).physicalKind.weight)
    (fun _ _ => Nat.zero_le _) (Finset.mem_range.2 hs)

/-- Replacing a bucket outside of a range does not change its count. -/
lemma occupied_update_of_notMem {range : IndexPartitionRange} {g : ℕ}
    (h : ∀ slot < range.slotCount, range.firstSlot + slot ≠ g) (t : ℕ → IndexSlotState)
    (state : IndexSlotState) : occupied range (Function.update t g state) = occupied range t := by
  refine Finset.sum_congr rfl fun slot hs => ?_
  rw [Function.update_of_ne (h slot (Finset.mem_range.1 hs))]

/-- Storing keeps a state's kind. -/
@[simp] lemma IndexSlotState.physicalKind_stored (state : IndexSlotState) :
    state.stored.physicalKind = state.physicalKind := by
  cases state <;> rfl

namespace PartitionedIndexStorage

section Specs

variable {crc : List UInt8 → BitVec 32} {slotCount : ℕ} {ranges : List IndexPartitionRange}
  {t : ℕ → IndexSlotState}

/-- A bucket of a partition has a number in the image. -/
lemma globalSlot_eq (hr : canonicalIndexPartitionRanges slotCount = .ok ranges) {i : ℕ}
    (hi : i < ranges.length) {slot : ℕ} (hs : slot < ranges[i].slotCount) :
    ranges[i].globalSlot slot = .ok (ranges[i].firstSlot + slot) := by
  obtain ⟨-, -, himg, hchain⟩ := canonicalIndexPartitionRanges_chain hr
  have hlt := hchain.slot_lt hi hs
  unfold IndexPartitionRange.globalSlot
  simp only [isizeMax] at himg
  rw [if_neg (by omega), Word.checkedAdd_of_lt (by omega)]
  rfl

/-- **Reading.** Reading a bucket of a partition yields its state, and what the storage
represents does not change. -/
theorem stateAt_spec (hr : canonicalIndexPartitionRanges slotCount = .ok ranges) {i : ℕ}
    (hi : i < ranges.length) {slot : ℕ} (hs : slot < ranges[i].slotCount) :
    Ensures (StorageRepr crc slotCount ranges t) (stateAt crc ranges[i] slot)
      fun state storage => state = t (ranges[i].firstSlot + slot) ∧
        StorageRepr crc slotCount ranges t storage := by
  have hlt := (canonicalIndexPartitionRanges_chain hr).2.2.2.slot_lt hi hs
  unfold stateAt
  rw [globalSlot_eq hr hi hs]
  refine (IndexStorageCore.stateAt_spec hlt).zoom (fun storage h => h.core) ?_
  rintro storage state core h ⟨hstate, hcore⟩
  exact ⟨hstate, h.slotCount_eq, h.ranges_eq, hcore, h.stats_eq⟩

/-- **Writing.** Replacing a bucket whose state was read before stores the new state, changes no
other bucket and keeps all counters exact.

**Proof sketch.** The counter of the bucket's partition includes the old state and leaves room
for the new one, so the checked transition succeeds; other partitions do not contain the bucket,
so their counts stay. -/
theorem replaceObservedState_spec (hr : canonicalIndexPartitionRanges slotCount = .ok ranges)
    {i : ℕ} (hi : i < ranges.length) {slot : ℕ} (hs : slot < ranges[i].slotCount)
    {previous : IndexSlotState} (hprev : previous = t (ranges[i].firstSlot + slot))
    (state : IndexSlotState) :
    Ensures (StorageRepr crc slotCount ranges t)
      (replaceObservedState crc ranges[i] slot previous state)
      fun _ storage => StorageRepr crc slotCount ranges
        (Function.update t (ranges[i].firstSlot + slot) state.stored) storage := by
  obtain ⟨-, -, himg, hchain⟩ := canonicalIndexPartitionRanges_chain hr
  have hlt := hchain.slot_lt hi hs
  have hid : ranges[i].partitionId = i := by simpa using (hchain.getElem i hi).1
  have hcount : ranges[i].slotCount < 2 ^ 64 := by
    have := (hchain.getElem i hi).2.2.2.2.2.1
    simp only [isizeMax] at himg
    omega
  set t' := Function.update t (ranges[i].firstSlot + slot) state.stored with ht'
  have hmove := occupied_update_self hs t state.stored
  rw [← ht', IndexSlotState.physicalKind_stored] at hmove
  have hold := weight_le_occupied hs t
  have hle := occupied_le ranges[i] t'
  intro storage h
  have hstat : storage.stats.getD ranges[i].partitionId IndexPhysicalStats.default =
      ⟨occupied ranges[i] t, 0⟩ := by
    rw [h.stats_eq, hid]
    simp [List.getD_eq_getElem?_getD, hi]
  rw [hid] at hstat
  have htrans := IndexPhysicalStats.transitioned_value previous.physicalKind
    (IndexSlot.fromState state).physicalKind (v := occupied ranges[i] t)
    (w := occupied ranges[i] t') hcount
    (by rw [IndexSlot.physicalKind_fromState, hprev]; exact hmove) (by rw [hprev]; exact hold) hle
  obtain ⟨⟨⟩, core', hw, hcore⟩ := IndexStorageCore.writeSlot_spec (t := t) hlt state storage.core
    h.core
  refine ⟨(), { storage with
      core := core', stats := storage.stats.set i ⟨occupied ranges[i] t', 0⟩ },
    ?_, h.slotCount_eq, h.ranges_eq, hcore, ?_⟩
  · simp only [replaceObservedState, globalSlot_eq hr hi hs, orThrow, bind_apply, pure_apply,
      get_apply, hstat, htrans, onCore, zoom, hw, modify_apply, hid]
  · -- the counter of partition `i` has moved, the others count buckets that did not change
    rw [h.stats_eq]
    apply List.ext_getElem (by simp)
    intro j hj₁ hj₂
    have hj : j < ranges.length := by simpa using hj₂
    by_cases hij : i = j
    · subst hij
      simp
    · have hsame : occupied ranges[j] t' = occupied ranges[j] t := by
        refine occupied_update_of_notMem (fun s hsj heq => ?_) t state.stored
        exact hij (hchain.slots_disjoint hj hi hsj hs heq).1.symm
      simp [hij, hsame]

end Specs

end PartitionedIndexStorage

end Cache2

import Cache2.Index.LossyMap

set_option relaxedAutoImplicit false
set_option autoImplicit false

/-!
# Writing the index image and mapping it back

A warm close writes every page of the index, with a new header and checksum, through a batching
writer that may span partitions (`region/index/storage/mod.rs`). A later open maps the image and
validates its pages on first touch.

The output device accepts every write here; what a failed write leaves behind is an unpublished
temporary file.

## Main definitions

* `Cache2.WarmImageBatchWriter` — the writer that combines pages into batches.
* `Cache2.writeWarmImage` — the whole emission.
* `Cache2.imagePage` — the page that a table of bucket states is written as.
* `Cache2.IndexReachable` — an index after any operations, image writes and restarts.

## Main results

* `Cache2.WarmImageBatchWriter.content_write` — whatever its batch size, the writer emits what it
  was given, in order.
* `Cache2.writeWarmImage_spec` — the emission succeeds and emits the pages of the table.
* `Cache2.mapPrivate_imagePages` — these pages, mapped back, represent the same table.
* `Cache2.warmImage_roundTrip` — the round trip, from every reachable index.
-/

namespace Cache2

open Bytes Loop TokenTable

/-! ## The batching writer -/

/-- The size of a batch in the code. -/
def warmImageWriteBatchBytes : ℕ := 1024 * 1024

/-- A sequential write combiner: the chunks handed to the inner writer so far, the buffer and
how much of it is in use. -/
structure WarmImageBatchWriter where
  inner : List (List UInt8)
  buffer : List UInt8
  used : ℕ
  deriving DecidableEq, Repr

namespace WarmImageBatchWriter

/-- A writer that has written nothing. -/
def new : WarmImageBatchWriter := ⟨[], [], 0⟩

/-- Allocates the buffer on first use. -/
def ensureBuffer (batch : ℕ) (w : WarmImageBatchWriter) : WarmImageBatchWriter :=
  if w.buffer.isEmpty then { w with buffer := List.replicate batch 0 } else w

/-- Hands the used part of the buffer to the inner writer. -/
def flushBuffer (w : WarmImageBatchWriter) : WarmImageBatchWriter :=
  if w.used ≠ 0 then { w with inner := w.inner ++ [w.buffer.take w.used], used := 0 } else w

/-- Copies the input into the buffer, handing the buffer on whenever it is full. Every iteration
copies at least one byte, so the length of the input is enough fuel. -/
def writeLoop (batch : ℕ) : ℕ → List UInt8 → WarmImageBatchWriter → WarmImageBatchWriter
  | 0, _, w => w
  | fuel + 1, input, w =>
    if input.isEmpty then w
    else
      let available := batch - w.used
      let copied := min available input.length
      let w := { w with
        buffer := splice w.buffer w.used (input.take copied), used := w.used + copied }
      let w := if w.used = batch then w.flushBuffer else w
      writeLoop batch fuel (input.drop copied) w

/-- Writes the input. -/
def write (batch : ℕ) (input : List UInt8) (w : WarmImageBatchWriter) : WarmImageBatchWriter :=
  if input.isEmpty then w else writeLoop batch input.length input (w.ensureBuffer batch)

/-- Hands on what is left. -/
def finish (w : WarmImageBatchWriter) : WarmImageBatchWriter := w.flushBuffer

/-- Everything the writer was given so far. -/
def content (w : WarmImageBatchWriter) : List UInt8 := w.inner.flatten ++ w.buffer.take w.used

/-- Between calls the buffer is not full, and it is allocated before it is used. -/
def Ready (batch : ℕ) (w : WarmImageBatchWriter) : Prop :=
  w.used < batch ∧ (w.buffer.length = batch ∨ w.buffer = [] ∧ w.used = 0)

/-- A flush moves the buffered bytes behind the chunks. -/
lemma content_flushBuffer (w : WarmImageBatchWriter) : w.flushBuffer.content = w.content := by
  unfold flushBuffer
  split_ifs with h
  · simp [content]
  · rfl

/-- After a flush everything has reached the inner writer. -/
lemma inner_flushBuffer (w : WarmImageBatchWriter) :
    w.flushBuffer.inner.flatten = w.content := by
  unfold flushBuffer content
  split_ifs with h
  · simp
  · rw [not_not] at h
    simp [h]

/-- The copying loop appends its input. -/
lemma writeLoop_spec {batch : ℕ} :
    ∀ (fuel : ℕ) (input : List UInt8) (w : WarmImageBatchWriter), input.length ≤ fuel →
      w.used < batch → w.buffer.length = batch →
      (writeLoop batch fuel input w).content = w.content ++ input ∧
        (writeLoop batch fuel input w).used < batch ∧
        (writeLoop batch fuel input w).buffer.length = batch := by
  intro fuel
  induction fuel with
  | zero =>
    intro input w hlen hu hb
    have hnil : input = [] := List.length_eq_zero_iff.1 (by omega)
    subst hnil
    exact ⟨by simp [writeLoop], hu, hb⟩
  | succ fuel ih =>
    intro input w hlen hu hb
    rw [writeLoop]
    split_ifs with hempty
    · rw [List.isEmpty_iff] at hempty
      subst hempty
      exact ⟨by simp, hu, hb⟩
    · have hpos : 0 < input.length := by
        rw [List.length_pos_iff]
        simpa using hempty
      set copied := min (batch - w.used) input.length with hcopied
      have htake : (input.take copied).length = copied := List.length_take_of_le (by omega)
      have hfit : w.used + (input.take copied).length ≤ w.buffer.length := by omega
      -- the copy appends the first part of the input to the buffered bytes
      set w₁ : WarmImageBatchWriter := { w with
        buffer := splice w.buffer w.used (input.take copied), used := w.used + copied } with hw₁
      have hlen₁ : w₁.buffer.length = batch := by rw [hw₁, ← hb]; exact length_splice hfit
      have hcont₁ : w₁.content = w.content ++ input.take copied := by
        have hbuf : w₁.buffer.take w₁.used = w.buffer.take w.used ++ input.take copied := by
          have htail := take_splice (l := w.buffer) (input.take copied) (by omega : w.used ≤ _)
          rwa [htake] at htail
        simp only [content, hbuf, List.append_assoc]
        rw [hw₁]
      set w₂ := if w₁.used = batch then w₁.flushBuffer else w₁ with hw₂
      have hcont₂ : w₂.content = w₁.content := by
        rw [hw₂]
        split_ifs
        · exact content_flushBuffer w₁
        · rfl
      have hready₂ : w₂.used < batch ∧ w₂.buffer.length = batch := by
        rw [hw₂]
        split_ifs with hfull
        · unfold flushBuffer
          split_ifs with hz
          · exact ⟨by show 0 < batch; omega, hlen₁⟩
          · exact ⟨by omega, hlen₁⟩
        · refine ⟨?_, hlen₁⟩
          have : w₁.used = w.used + copied := rfl
          omega
      obtain ⟨h₁, h₂, h₃⟩ := ih (input.drop copied) w₂ (by simp; omega) hready₂.1 hready₂.2
      refine ⟨?_, h₂, h₃⟩
      rw [h₁, hcont₂, hcont₁, List.append_assoc, List.take_append_drop]

/-- **The writer emits what it is given.** Whatever the batch size, a write appends its input. -/
theorem content_write {batch : ℕ} {w : WarmImageBatchWriter} (h : w.Ready batch)
    (input : List UInt8) :
    (w.write batch input).content = w.content ++ input ∧ (w.write batch input).Ready batch := by
  obtain ⟨hu, hb⟩ := h
  unfold write
  split_ifs with hempty
  · rw [List.isEmpty_iff] at hempty
    subst hempty
    exact ⟨by simp, hu, hb⟩
  · have hens : (w.ensureBuffer batch).content = w.content ∧
        (w.ensureBuffer batch).used < batch ∧ (w.ensureBuffer batch).buffer.length = batch := by
      unfold ensureBuffer
      rcases hb with hb | ⟨hnil, hz⟩
      · have hne : w.buffer.isEmpty = false := by
          rw [List.isEmpty_eq_false_iff_exists_mem]
          exact List.exists_mem_of_length_pos (by omega)
        rw [if_neg (by simp [hne])]
        exact ⟨rfl, hu, hb⟩
      · simp [hnil, content, hz]
        omega
    obtain ⟨h₁, h₂, h₃⟩ := writeLoop_spec input.length input (w.ensureBuffer batch) le_rfl
      hens.2.1 hens.2.2
    exact ⟨by rw [h₁, hens.1], h₂, .inl h₃⟩

end WarmImageBatchWriter

/-! ## Emission -/

/-- What an emission reports. -/
structure WarmImageStats where
  pagesWritten : ℕ
  slotsWritten : ℕ
  bytesWritten : ℕ
  physicalStats : IndexPhysicalStats
  deriving DecidableEq, Repr

/-- The storage that is written and the writer. -/
structure WarmImageWrite where
  storage : PartitionedIndexStorage
  writer : WarmImageBatchWriter

/-- Computations of an emission. -/
abbrev WriteM := EStateM IndexStorageError WarmImageWrite

/-- A counter transition that must be possible. -/
def orInvalidStats {α : Type} : Option α → Except IndexStorageError α
  | some a => .ok a
  | none => .error .invalidPhysicalStats

/-- Copies the buckets of a page into the output and counts them. -/
def emitSlots (core : IndexStorageCore) (page rangeSlotCount : ℕ) :
    List ℕ → List UInt8 × IndexPhysicalStats →
      Except IndexStorageError (List UInt8 × IndexPhysicalStats)
  | [], acc => .ok acc
  | slotInPage :: rest, (output, stats) => do
    let sourceOffset ← orOverflow (IndexStorageCore.slotOffset page slotInPage)
    let value := core.decodeAt sourceOffset
    match value.runtimeState with
    | .error reason => .error (.invalidSlot reason)
    | .ok _ => do
      let stats ← orInvalidStats (stats.transitioned .empty value.physicalKind rangeSlotCount)
      let targetOffset := indexImagePageHeaderSize + slotInPage * indexImageSlotSize
      emitSlots core page rangeSlotCount rest (splice output targetOffset value.encode, stats)

/-- Builds one page. -/
def emitPage (crc : List UInt8 → BitVec 32) (core : IndexStorageCore) (page rangeSlotCount : ℕ)
    (binding : IndexImageBinding) (stats : IndexPhysicalStats) :
    Except IndexStorageError (List UInt8 × IndexPhysicalStats) := do
  let output := List.replicate indexImagePageSize 0
  let firstSlot ← orOverflow (Word.checkedMul 64 page indexImageSlotsPerPage)
  let validSlots := core.validSlotsInPage page
  let output ← encodePageHeader output page firstSlot validSlots binding
  let (output, stats) ← emitSlots core page rangeSlotCount (List.range validSlots) (output, stats)
  let checksum := pageChecksum crc output
  .ok (splice output pageChecksumOffset (u32Bytes checksum), stats)

/-- Emits the pages of a partition, each validated before it is read. -/
def emitPages (crc : List UInt8 → BitVec 32) (batch : ℕ) (range : IndexPartitionRange)
    (binding : IndexImageBinding) : List ℕ → IndexPhysicalStats → WriteM IndexPhysicalStats
  | [], stats => pure stats
  | localPage :: rest, stats => do
    let page ← orThrow (orOverflow (Word.checkedAdd 64 range.firstPage localPage))
    zoom (fun s : WarmImageWrite => s.storage.core)
      (fun core s => { s with storage := { s.storage with core } })
      (IndexStorageCore.ensurePageValid crc page)
    let core := (← get).storage.core
    let (output, stats) ← orThrow (emitPage crc core page range.slotCount binding stats)
    modify fun s => { s with writer := s.writer.write batch output }
    emitPages crc batch range binding rest stats

/-- Emits a partition and checks its counters. -/
def writeWarmImagePages (crc : List UInt8 → BitVec 32) (batch : ℕ) (range : IndexPartitionRange)
    (binding : IndexImageBinding) : WriteM WarmImageStats := do
  if !binding.isValid then
    throw (.invalidArgument "warm index image binding must be non-zero")
  else do
    zoom (fun s : WarmImageWrite => s.storage.core)
      (fun core s => { s with storage := { s.storage with core } })
      (IndexStorageCore.ensureImageUsable range.firstPage)
    let emitted ← emitPages crc batch range binding (List.range range.pageCount)
      IndexPhysicalStats.default
    let physicalStats := (← get).storage.stats.getD range.partitionId IndexPhysicalStats.default
    if emitted ≠ physicalStats then throw .invalidPhysicalStats
    else do
      let bytesWritten ←
        orThrow (orOverflow (Word.checkedMul 64 range.pageCount indexImagePageSize))
      pure ⟨range.pageCount, range.slotCount, bytesWritten, emitted⟩

/-- Adds a partition's figures to the total. -/
def WarmImageStats.add (total written : WarmImageStats) :
    Except IndexStorageError WarmImageStats := do
  let pagesWritten ← orOverflow (Word.checkedAdd 64 total.pagesWritten written.pagesWritten)
  let slotsWritten ← orOverflow (Word.checkedAdd 64 total.slotsWritten written.slotsWritten)
  let bytesWritten ← orOverflow (Word.checkedAdd 64 total.bytesWritten written.bytesWritten)
  let physicalStats ← checkedAddPhysicalStats total.physicalStats written.physicalStats
  .ok ⟨pagesWritten, slotsWritten, bytesWritten, physicalStats⟩

/-- Emits all partitions, one after another. -/
def writePartitions (crc : List UInt8 → BitVec 32) (batch : ℕ) (binding : IndexImageBinding) :
    List IndexPartitionRange → WarmImageStats → WriteM WarmImageStats
  | [], total => pure total
  | range :: rest, total => do
    let written ← writeWarmImagePages crc batch range binding
    let total ← orThrow (total.add written)
    writePartitions crc batch binding rest total

/-- Writes the whole image, in global page order. -/
def writeWarmImage (crc : List UInt8 → BitVec 32) (batch : ℕ) (binding : IndexImageBinding) :
    WriteM WarmImageStats := do
  let storage := (← get).storage
  let physicalStats ← orThrow (checkedSumPhysicalStats storage.stats)
  if !physicalStats.isValidFor storage.slotCount then throw .invalidPhysicalStats
  else do
    let total ← writePartitions crc batch binding storage.ranges
      ⟨0, 0, 0, IndexPhysicalStats.default⟩
    modify fun s => { s with writer := s.writer.finish }
    if total.slotsWritten ≠ storage.slotCount ∨ total.physicalStats ≠ physicalStats then
      throw (.invalidArgument "canonical index partition image emission is inconsistent")
    else pure total

/-! ## The pages of a table -/

/-- The number of buckets on a page of an image of `slotCount` buckets. -/
def pageSlots (slotCount page : ℕ) : ℕ := min (slotCount - page * 504) 504

/-- A page with its header and its buckets, the checksum still zero. -/
def imagePageBody (slotCount : ℕ) (t : ℕ → IndexSlotState) (binding : IndexImageBinding)
    (page : ℕ) : List UInt8 :=
  writeAll (fun slot _ => (IndexSlot.fromState (t slot)).encode) 64 8 0
    (List.range' (page * 504) (pageSlots slotCount page))
    (putFields (pageHeaderFields page (page * 504) (pageSlots slotCount page) binding ++
      [(pageChecksumOffset, u32Bytes 0)]) (List.replicate indexImagePageSize 0))

/-- The page that a table is written as. -/
def imagePage (crc : List UInt8 → BitVec 32) (slotCount : ℕ) (t : ℕ → IndexSlotState)
    (binding : IndexImageBinding) (page : ℕ) : List UInt8 :=
  splice (imagePageBody slotCount t binding page) pageChecksumOffset
    (u32Bytes (pageChecksum crc (imagePageBody slotCount t binding page)))

/-- The pages from one page on, one after another. -/
def imagePages (crc : List UInt8 → BitVec 32) (slotCount : ℕ) (t : ℕ → IndexSlotState)
    (binding : IndexImageBinding) (firstPage count : ℕ) : List UInt8 :=
  ((List.range' firstPage count).map (imagePage crc slotCount t binding)).flatten

section Page

variable (crc : List UInt8 → BitVec 32) (slotCount : ℕ) (t : ℕ → IndexSlotState)
  (binding : IndexImageBinding) (page : ℕ)

/-- Pages followed by more pages. -/
lemma imagePages_add (firstPage m n : ℕ) :
    imagePages crc slotCount t binding firstPage (m + n) =
      imagePages crc slotCount t binding firstPage m ++
        imagePages crc slotCount t binding (firstPage + m) n := by
  simp only [imagePages, ← List.flatten_append, ← List.map_append, List.range'_append_1]

/-- A page has at most 504 buckets. -/
lemma pageSlots_le : pageSlots slotCount page ≤ 504 := Nat.min_le_right _ _

/-- The bucket encoder has the size of a bucket. -/
private lemma slotEncoder_length (slot : ℕ) (s : List UInt8) (_ : s.length = 8) :
    ((fun slot (_ : List UInt8) => (IndexSlot.fromState (t slot)).encode) slot s).length = 8 :=
  IndexSlot.length_encode _

/-- The buckets of a page fit into it. -/
private lemma slots_fit :
    64 + (0 + (List.range' (page * 504) (pageSlots slotCount page)).length) * 8 ≤ 4096 := by
  have := pageSlots_le slotCount page
  rw [List.length_range']
  omega

/-- The header area has the size of a page. -/
private lemma length_header :
    (putFields (pageHeaderFields page (page * 504) (pageSlots slotCount page) binding ++
      [(pageChecksumOffset, u32Bytes 0)]) (List.replicate indexImagePageSize 0)).length = 4096 := by
  rw [length_putFields (ascending_pageHeaderFields _ _ _ _) (by rw [List.length_replicate]; decide),
    List.length_replicate, indexImagePageSize]

/-- A page without checksum has the size of a page. -/
lemma length_imagePageBody : (imagePageBody slotCount t binding page).length = 4096 := by
  have hlen := length_header slotCount binding page
  rw [imagePageBody, length_writeAll (slotEncoder_length t) _ _ _ (by
    rw [hlen]; exact slots_fit slotCount page), hlen]

/-- A page has the size of a page. -/
lemma length_imagePage : (imagePage crc slotCount t binding page).length = 4096 := by
  have hlen := length_imagePageBody slotCount t binding page
  rw [imagePage, length_splice (by rw [hlen, length_u32Bytes]; decide), hlen]

/-- The first 64 bytes of a page without checksum are its header. -/
private lemma slice_body_header {o n : ℕ} (h : o + n ≤ 64) :
    slice (imagePageBody slotCount t binding page) o n =
      slice (putFields (pageHeaderFields page (page * 504) (pageSlots slotCount page) binding ++
        [(pageChecksumOffset, u32Bytes 0)]) (List.replicate indexImagePageSize 0)) o n := by
  rw [imagePageBody, slice_writeAll_before (slotEncoder_length t) _ _ _ (by
    rw [length_header]; exact slots_fit slotCount page) (by omega)]

/-- Outside of the checksum, a page is the page without checksum. -/
private lemma slice_imagePage {o n : ℕ} (h : o + n ≤ 56 ∨ 60 ≤ o) :
    slice (imagePage crc slotCount t binding page) o n =
      slice (imagePageBody slotCount t binding page) o n := by
  have hlen := length_imagePageBody slotCount t binding page
  have hfit : pageChecksumOffset +
      (u32Bytes (pageChecksum crc (imagePageBody slotCount t binding page))).length ≤
        (imagePageBody slotCount t binding page).length := by
    rw [hlen, length_u32Bytes]
    decide
  rw [imagePage]
  rcases h with h | h
  · exact slice_splice_before hfit h
  · exact slice_splice_after hfit (by rw [length_u32Bytes]; exact h)

/-- The header fields of a page. -/
lemma slice_imagePage_field :
    ∀ f ∈ pageHeaderFields page (page * 504) (pageSlots slotCount page) binding,
      slice (imagePage crc slotCount t binding page) f.1 f.2.length = f.2 := by
  intro f hf
  have hasc := ascending_pageHeaderFields page (page * 504) (pageSlots slotCount page) binding
  -- the fields end before the checksum
  have hend : f.1 + f.2.length ≤ 56 := by
    simp only [pageHeaderFields, List.mem_cons, List.not_mem_nil, or_false] at hf
    rcases hf with rfl | rfl | rfl | rfl | rfl | rfl | rfl | rfl | rfl | rfl | rfl <;>
      simp [pageMagic, pageVersionOffset, pageHeaderSizeOffset, pageSlotSizeOffset,
        pageSlotsPerPageOffset, pageIndexOffset, pageFirstSlotOffset, pageValidSlotsOffset,
        pageFlagsOffset, pageGenerationOffset, pageImageTagOffset]
  rw [slice_imagePage crc slotCount t binding page (.inl hend),
    slice_body_header slotCount t binding page (by omega)]
  exact slice_putFields_mem hasc (by rw [List.length_replicate]; decide)
    (List.mem_append_left [(pageChecksumOffset, u32Bytes 0)] (by simpa using hf))

/-- The reserved bytes of a page are zero. -/
lemma slice_imagePage_reserved :
    slice (imagePage crc slotCount t binding page) pageTrailingReservedOffset 4 =
      List.replicate 4 0 := by
  have hasc := ascending_pageHeaderFields page (page * 504) (pageSlots slotCount page) binding
  rw [pageTrailingReservedOffset, slice_imagePage crc slotCount t binding page (.inr (by decide)),
    slice_body_header slotCount t binding page (by decide),
    slice_putFields_gap hasc (by rw [List.length_replicate]; decide)
      fun f hf => .inl (hasc.bounds f hf).2,
    slice_replicate _ (by decide)]

/-- The checksum of a page is the one it was written with. -/
lemma slice_imagePage_checksum :
    slice (imagePage crc slotCount t binding page) pageChecksumOffset 4 =
      u32Bytes (pageChecksum crc (imagePage crc slotCount t binding page)) := by
  have hlen := length_imagePageBody slotCount t binding page
  have hsum : pageChecksum crc (imagePage crc slotCount t binding page) =
      pageChecksum crc (imagePageBody slotCount t binding page) := by
    have hstart : pageChecksumOffset ≤ (imagePageBody slotCount t binding page).length := by
      rw [hlen]
      decide
    have hdrop := drop_splice_after
      (u32Bytes (pageChecksum crc (imagePageBody slotCount t binding page))) hstart
    rw [length_u32Bytes] at hdrop
    rw [pageChecksum, imagePage, take_splice_before _ (by rw [hlen]; decide), hdrop]
    rfl
  rw [hsum, imagePage, slice_splice_self (length_u32Bytes _) (by rw [hlen]; decide)]

/-- The buckets of a page. -/
lemma slice_imagePage_slot {i : ℕ} (hi : i < pageSlots slotCount page) :
    slice (imagePage crc slotCount t binding page) (64 + i * 8) 8 =
      (IndexSlot.fromState (t (page * 504 + i))).encode := by
  have hslot := slice_writeAll (slotEncoder_length t)
    (List.range' (page * 504) (pageSlots slotCount page)) 0
    (putFields (pageHeaderFields page (page * 504) (pageSlots slotCount page) binding ++
      [(pageChecksumOffset, u32Bytes 0)]) (List.replicate indexImagePageSize 0))
    (by rw [length_header]; exact slots_fit slotCount page) i (by simpa using hi)
  rw [slice_imagePage crc slotCount t binding page (.inr (by omega)), imagePageBody]
  simpa using hslot

end Page

/-! ## Counting -/

/-- The number of occupied buckets among the first `k` of the image. -/
def prefixCount (t : ℕ → IndexSlotState) (k : ℕ) : ℕ :=
  ∑ slot ∈ Finset.range k, (t slot).physicalKind.weight

/-- The occupied buckets of consecutive buckets. -/
lemma prefixCount_add (t : ℕ → IndexSlotState) (a k : ℕ) :
    prefixCount t (a + k) =
      prefixCount t a + ∑ slot ∈ Finset.range k, (t (a + slot)).physicalKind.weight :=
  Finset.sum_range_add _ a k

/-- The occupied buckets before and in a range. -/
lemma prefixCount_range (t : ℕ → IndexSlotState) (range : IndexPartitionRange) :
    prefixCount t (range.firstSlot + range.slotCount) =
      prefixCount t range.firstSlot + occupied range t :=
  prefixCount_add t _ _

/-- More buckets, more occupied ones. -/
lemma prefixCount_mono (t : ℕ → IndexSlotState) {a b : ℕ} (h : a ≤ b) :
    prefixCount t a ≤ prefixCount t b := by
  obtain ⟨k, rfl⟩ := Nat.exists_eq_add_of_le h
  rw [prefixCount_add]
  omega

/-- No more buckets are occupied than there are. -/
lemma prefixCount_le (t : ℕ → IndexSlotState) (k : ℕ) : prefixCount t k ≤ k := by
  have h := Finset.sum_le_card_nsmul (Finset.range k) (fun slot => (t slot).physicalKind.weight) 1
    fun slot _ => SlotPhysicalKind.weight_le _
  simpa [prefixCount] using h

/-! ## What is emitted -/

section Emission

variable {crc : List UInt8 → BitVec 32} {slotCount : ℕ} {ranges : List IndexPartitionRange}
  {t : ℕ → IndexSlotState} {binding : IndexImageBinding}

/-- The buckets of a page are copied as they are and counted. -/
lemma emitSlots_spec {core : IndexStorageCore} (h : CoreRepr crc slotCount t core)
    (page : ℕ) {rangeSlotCount : ℕ} (hrange : rangeSlotCount < 2 ^ 64) :
    ∀ (k i : ℕ) (output : List UInt8) (v : ℕ), i + k ≤ pageSlots slotCount page →
      v + ∑ s ∈ Finset.range k, (t (page * 504 + i + s)).physicalKind.weight ≤ rangeSlotCount →
      emitSlots core page rangeSlotCount (List.range' i k) (output, ⟨v, 0⟩) =
        .ok (writeAll (fun slot _ => (IndexSlot.fromState (t slot)).encode) 64 8 i
            (List.range' (page * 504 + i) k) output,
          ⟨v + ∑ s ∈ Finset.range k, (t (page * 504 + i + s)).physicalKind.weight, 0⟩) := by
  intro k
  induction k with
  | zero => intro i output v _ _; simp [emitSlots, writeAll]
  | succ k ih =>
    intro i output v hik hsum
    have hle := pageSlots_le slotCount page
    have hslot : page * 504 + i < slotCount := by
      simp only [pageSlots] at hik
      omega
    have hdiv : (page * 504 + i) / 504 = page := by omega
    have hmod : (page * 504 + i) % 504 = i := by omega
    have hoff := IndexStorageCore.slotOffset_eq hslot h.image_le
    rw [hdiv, hmod] at hoff
    have hstate := h.slots _ hslot
    -- the stored word is the encoding of its meaning
    have hword := IndexSlot.fromState_of_runtimeState hstate
    have hkind := IndexSlot.physicalKind_of_runtimeState hstate
    have hsplit : ∑ s ∈ Finset.range (k + 1), (t (page * 504 + i + s)).physicalKind.weight =
        ∑ s ∈ Finset.range k, (t (page * 504 + (i + 1) + s)).physicalKind.weight +
          (t (page * 504 + i)).physicalKind.weight := by
      rw [Finset.sum_range_succ', Nat.add_zero]
      refine congrArg (· + _) (Finset.sum_congr rfl fun s _ => ?_)
      rw [show page * 504 + i + (s + 1) = page * 504 + (i + 1) + s by omega]
    rw [hsplit] at hsum ⊢
    have htrans := IndexPhysicalStats.transitioned_value (v := v)
      (w := v + (t (page * 504 + i)).physicalKind.weight) .empty
      (t (page * 504 + i)).physicalKind hrange (by simp [SlotPhysicalKind.weight])
      (by simp [SlotPhysicalKind.weight]) (by omega)
    have hcomm : ∀ a b : ℕ, v + (a + b) = v + b + a := by
      intro a b
      omega
    rw [List.range'_succ, List.range'_succ, emitSlots, hoff, writeAll]
    simp only [orOverflow, bind, Except.bind, IndexStorageCore.decodeAt, indexImageSlotSize, hstate,
      hkind, htrans, orInvalidStats]
    rw [ih (i + 1) _ _ (by omega) (by omega), hword, hcomm]
    simp only [indexImagePageHeaderSize, Nat.add_assoc]

/-- A page is emitted as the page of the table. -/
lemma emitPage_spec {core : IndexStorageCore} (h : CoreRepr crc slotCount t core)
    (binding : IndexImageBinding) {page rangeSlotCount : ℕ} (hrange : rangeSlotCount < 2 ^ 64)
    (hpage : page < (slotCount + 503) / 504) {v : ℕ}
    (hsum : v + ∑ s ∈ Finset.range (pageSlots slotCount page),
      (t (page * 504 + s)).physicalKind.weight ≤ rangeSlotCount) :
    emitPage crc core page rangeSlotCount binding ⟨v, 0⟩ =
      .ok (imagePage crc slotCount t binding page,
        ⟨v + ∑ s ∈ Finset.range (pageSlots slotCount page),
          (t (page * 504 + s)).physicalKind.weight, 0⟩) := by
  have himg := h.image_le
  have hvalid : core.validSlotsInPage page = pageSlots slotCount page := by
    simp only [IndexStorageCore.validSlotsInPage, h.slotCount_eq, pageSlots,
      indexImageSlotsPerPage]
  have hle := pageSlots_le slotCount page
  simp only [isizeMax] at himg
  have hmul : Word.checkedMul 64 page indexImageSlotsPerPage = some (page * 504) :=
    Word.checkedMul_of_lt (by simp only [indexImageSlotsPerPage]; omega)
  generalize hheader : putFields (pageHeaderFields page (page * 504) (pageSlots slotCount page)
    binding ++ [(pageChecksumOffset, u32Bytes 0)]) (List.replicate indexImagePageSize 0) = header
  have hencode : encodePageHeader (List.replicate indexImagePageSize 0) page (page * 504)
      (pageSlots slotCount page) binding = .ok header := by
    rw [encodePageHeader, if_neg (by omega), hheader]
  have hemit := emitSlots_spec h page hrange (pageSlots slotCount page) 0 header v
    (by omega) (by rw [Nat.add_zero]; exact hsum)
  rw [Nat.add_zero] at hemit
  rw [imagePage, imagePageBody, hheader]
  unfold emitPage
  rw [hvalid, hmul]
  simp only [orOverflow, bind, Except.bind, List.range_eq_range']
  rw [hencode]
  simp only [hemit]

/-- The storage represents the table, and the writer has been given `c`. -/
structure WriteRepr (crc : List UInt8 → BitVec 32) (slotCount : ℕ)
    (ranges : List IndexPartitionRange) (t : ℕ → IndexSlotState) (batch : ℕ) (c : List UInt8)
    (s : WarmImageWrite) : Prop where
  storage : StorageRepr crc slotCount ranges t s.storage
  ready : s.writer.Ready batch
  content : s.writer.content = c

/-- What the layout says about a range, for the emission of its pages. -/
lemma range_bounds (hr : canonicalIndexPartitionRanges slotCount = .ok ranges) {p : ℕ}
    {r : IndexPartitionRange} (hp : ranges[p]? = some r) :
    r.partitionId = p ∧ r.firstSlot = r.firstPage * 504 ∧
      r.firstPage + r.pageCount ≤ (slotCount + 503) / 504 ∧
      r.firstSlot + r.slotCount = min slotCount ((r.firstPage + r.pageCount) * 504) ∧
      (slotCount + 503) / 504 * 4096 < 2 ^ 63 := by
  obtain ⟨-, -, himg, hchain⟩ := canonicalIndexPartitionRanges_chain hr
  obtain ⟨hi, rfl⟩ := List.getElem?_eq_some_iff.1 hp
  obtain ⟨h₁, -, -, h₄, h₅, h₆, -⟩ := hchain.getElem p hi
  simp only [isizeMax] at himg
  exact ⟨by omega, h₅, h₄, h₆, by omega⟩

/-- The pages of a partition are emitted in order and its occupied buckets counted.

**Proof sketch.** Induction on the pages left. The counter is the number of occupied buckets
from the partition's first one up to the page; a page adds its own. -/
lemma emitPages_spec (crc : List UInt8 → BitVec 32) (t : ℕ → IndexSlotState)
    (binding : IndexImageBinding) (batch : ℕ)
    (hr : canonicalIndexPartitionRanges slotCount = .ok ranges) {p : ℕ}
    {r : IndexPartitionRange} (hp : ranges[p]? = some r) :
    ∀ (k j : ℕ) (c : List UInt8), j + k = r.pageCount →
      Ensures (WriteRepr crc slotCount ranges t batch c)
        (emitPages crc batch r binding (List.range' j k)
          ⟨prefixCount t (min slotCount ((r.firstPage + j) * 504)) - prefixCount t r.firstSlot, 0⟩)
        fun stats s => stats = ⟨occupied r t, 0⟩ ∧
          WriteRepr crc slotCount ranges t batch
            (c ++ imagePages crc slotCount t binding (r.firstPage + j) k) s := by
  obtain ⟨-, hfirst, hlast, hcount, himg⟩ := range_bounds hr hp
  have hocc := prefixCount_range t r
  have hle := occupied_le r t
  intro k
  induction k with
  | zero =>
    intro j c hjk
    refine Ensures.pure fun s hs => ⟨?_, ?_⟩
    · rw [show r.firstPage + j = r.firstPage + r.pageCount by omega, ← hcount, hocc,
        Nat.add_sub_cancel_left]
    · simpa [imagePages] using hs
  | succ k ih =>
    intro j c hjk
    have hpage : r.firstPage + j < (slotCount + 503) / 504 := by omega
    have hmin : min slotCount ((r.firstPage + j) * 504) = (r.firstPage + j) * 504 := by omega
    have hnext : (r.firstPage + j) * 504 + pageSlots slotCount (r.firstPage + j) =
        min slotCount ((r.firstPage + (j + 1)) * 504) := by
      simp only [pageSlots]
      omega
    have hcnt := prefixCount_add t ((r.firstPage + j) * 504)
      (pageSlots slotCount (r.firstPage + j))
    rw [hnext] at hcnt
    have hfle : prefixCount t r.firstSlot ≤ prefixCount t ((r.firstPage + j) * 504) :=
      prefixCount_mono t (by rw [hfirst]; exact Nat.mul_le_mul_right _ (by omega))
    have hmono : prefixCount t (min slotCount ((r.firstPage + (j + 1)) * 504)) ≤
        prefixCount t (r.firstSlot + r.slotCount) := prefixCount_mono t (by omega)
    rw [List.range'_succ, emitPages, hmin, Word.checkedAdd_of_lt (by omega)]
    refine Ensures.bind_eq (orThrow_ok _) ?_
    refine Ensures.bind (R := fun _ => WriteRepr crc slotCount ranges t batch c) ?_ fun _ => ?_
    · refine (IndexStorageCore.ensurePageValid_spec hpage).zoom (fun s hs => hs.storage.core) ?_
      rintro s ⟨⟩ core hs ⟨hcore, -⟩
      exact ⟨⟨hs.storage.slotCount_eq, hs.storage.ranges_eq, hcore, hs.storage.stats_eq⟩,
        hs.ready, hs.content⟩
    refine Ensures.of_state fun s hs => ?_
    refine Ensures.bind_eq (v := s) (R := fun s' => s' = s) (by
      rintro _ rfl; exact ⟨_, _, rfl, rfl, rfl⟩) ?_
    dsimp only
    rw [emitPage_spec hs.storage.core binding (by omega) hpage (by omega)]
    refine Ensures.bind_eq (orThrow_ok _) ?_
    obtain ⟨hcont, hready⟩ := WarmImageBatchWriter.content_write hs.ready
      (imagePage crc slotCount t binding (r.firstPage + j))
    refine Ensures.bind (R := fun _ => WriteRepr crc slotCount ranges t batch
      (c ++ imagePage crc slotCount t binding (r.firstPage + j))) ?_ fun _ => ?_
    · rintro _ rfl
      exact ⟨_, _, rfl, hs.storage, hready, by rw [hcont, hs.content]⟩
    have hstats : prefixCount t ((r.firstPage + j) * 504) - prefixCount t r.firstSlot +
        ∑ s ∈ Finset.range (pageSlots slotCount (r.firstPage + j)),
          (t ((r.firstPage + j) * 504 + s)).physicalKind.weight =
        prefixCount t (min slotCount ((r.firstPage + (j + 1)) * 504)) -
          prefixCount t r.firstSlot := by omega
    rw [hstats]
    refine (ih (j + 1) _ (by omega)).conseq (fun _ h => h) fun stats s' h' => ⟨h'.1, ?_⟩
    have hpages : imagePages crc slotCount t binding (r.firstPage + j) (k + 1) =
        imagePage crc slotCount t binding (r.firstPage + j) ++
          imagePages crc slotCount t binding (r.firstPage + (j + 1)) k := by
      simp only [imagePages, List.range'_succ, List.map_cons, List.flatten_cons, Nat.add_assoc]
    rw [hpages, ← List.append_assoc]
    exact h'.2

/-- A partition is emitted with its own counters. -/
lemma writeWarmImagePages_spec (hr : canonicalIndexPartitionRanges slotCount = .ok ranges)
    {p batch : ℕ} {r : IndexPartitionRange} (hp : ranges[p]? = some r)
    (hbinding : binding.isValid = true) (c : List UInt8) :
    Ensures (WriteRepr crc slotCount ranges t batch c)
      (writeWarmImagePages crc batch r binding)
      fun written s => written = ⟨r.pageCount, r.slotCount, r.pageCount * 4096,
          ⟨occupied r t, 0⟩⟩ ∧
        WriteRepr crc slotCount ranges t batch
          (c ++ imagePages crc slotCount t binding r.firstPage r.pageCount) s := by
  obtain ⟨hid, hfirst, hlast, hcount, himg⟩ := range_bounds hr hp
  have hbytes : Word.checkedMul 64 r.pageCount indexImagePageSize = some (r.pageCount * 4096) :=
    Word.checkedMul_of_lt (((Nat.mul_le_mul_right _ (by omega)).trans_lt himg).trans (by norm_num))
  unfold writeWarmImagePages
  simp only [hbinding, Bool.not_true, Bool.false_eq_true, if_false]
  refine Ensures.bind (R := fun _ => WriteRepr crc slotCount ranges t batch c) ?_ fun _ => ?_
  · intro s hs
    refine ⟨(), s, ?_, hs⟩
    simp [zoom, IndexStorageCore.ensureImageUsable, bind_apply, hs.storage.core.usable]
  have hzero : (⟨prefixCount t (min slotCount ((r.firstPage + 0) * 504)) -
      prefixCount t r.firstSlot, 0⟩ : IndexPhysicalStats) = IndexPhysicalStats.default := by
    rw [Nat.add_zero, hfirst, IndexPhysicalStats.default, Nat.sub_eq_zero_of_le]
    exact prefixCount_mono t (Nat.min_le_right _ _)
  have hpages := emitPages_spec crc t binding batch hr hp r.pageCount 0 c (by omega)
  rw [hzero, ← List.range_eq_range', Nat.add_zero] at hpages
  refine Ensures.bind_eq hpages ?_
  refine Ensures.of_state fun s hs => ?_
  refine Ensures.bind_eq (v := s) (R := fun s' => s' = s) (by
    rintro _ rfl; exact ⟨_, _, rfl, rfl, rfl⟩) ?_
  have hstat : s.storage.stats.getD r.partitionId IndexPhysicalStats.default =
      ⟨occupied r t, 0⟩ := by
    rw [hs.storage.stats_eq, hid]
    simp [List.getD_eq_getElem?_getD, hp]
  rw [hstat, if_neg (by simp), hbytes]
  refine Ensures.bind_eq (orThrow_ok _) ?_
  refine Ensures.pure ?_
  rintro _ rfl
  exact ⟨rfl, hs⟩

/-- Consecutive ranges add up: pages, buckets, bytes and counters up to the last page.

**Proof sketch.** Induction along the chain of ranges; the total so far is that of the pages
before the chain's first one. -/
lemma writePartitions_spec (hr : canonicalIndexPartitionRanges slotCount = .ok ranges) {batch : ℕ}
    (hbinding : binding.isValid = true) :
    ∀ (rs : List IndexPartitionRange) (id page : ℕ) (c : List UInt8),
      RangeChain slotCount ((slotCount + 503) / 504) id page rs →
      (∀ i (r : IndexPartitionRange), rs[i]? = some r → ranges[id + i]? = some r) →
      Ensures (WriteRepr crc slotCount ranges t batch c)
        (writePartitions crc batch binding rs
          ⟨page, min slotCount (page * 504), page * 4096,
            ⟨prefixCount t (min slotCount (page * 504)), 0⟩⟩)
        fun total s => total = ⟨(slotCount + 503) / 504, slotCount,
            (slotCount + 503) / 504 * 4096, ⟨prefixCount t slotCount, 0⟩⟩ ∧
          WriteRepr crc slotCount ranges t batch
            (c ++ imagePages crc slotCount t binding page ((slotCount + 503) / 504 - page)) s := by
  obtain ⟨-, -, himg, -⟩ := canonicalIndexPartitionRanges_chain hr
  simp only [isizeMax] at himg
  intro rs
  induction rs with
  | nil =>
    intro id page c hchain _
    have hpage : page = (slotCount + 503) / 504 := hchain
    subst hpage
    have hmin : min slotCount ((slotCount + 503) / 504 * 504) = slotCount := by omega
    rw [hmin]
    refine Ensures.pure fun s hs => ⟨rfl, ?_⟩
    simpa [imagePages] using hs
  | cons r rs ih =>
    intro id page c hchain hsub
    obtain ⟨-, hfp, -, hfs, hcount, -, hrest⟩ := hchain
    have hlast := hrest.page_le
    have hp : ranges[id]? = some r := by simpa using hsub 0 r rfl
    have hocc := prefixCount_range t r
    have hmin : min slotCount (page * 504) = page * 504 := by omega
    have hbound := prefixCount_le t (r.firstSlot + r.slotCount)
    rw [writePartitions]
    refine Ensures.bind_eq (writeWarmImagePages_spec hr hp hbinding c) ?_
    have hadd : WarmImageStats.add ⟨page, min slotCount (page * 504), page * 4096,
          ⟨prefixCount t (min slotCount (page * 504)), 0⟩⟩
          ⟨r.pageCount, r.slotCount, r.pageCount * 4096, ⟨occupied r t, 0⟩⟩ =
        .ok ⟨page + r.pageCount, min slotCount ((page + r.pageCount) * 504),
          (page + r.pageCount) * 4096,
          ⟨prefixCount t (min slotCount ((page + r.pageCount) * 504)), 0⟩⟩ := by
      rw [hmin, ← hcount, hocc, hfs]
      simp only [WarmImageStats.add, checkedAddPhysicalStats]
      rw [hfs] at hocc hcount hbound
      rw [Word.checkedAdd_of_lt (by omega), Word.checkedAdd_of_lt (by omega),
        Word.checkedAdd_of_lt (by omega), Word.checkedAdd_of_lt (by omega),
        Word.checkedAdd_of_lt (by omega)]
      simp only [orOverflow, bind, Except.bind, Nat.add_mul, Nat.add_zero]
    rw [hadd]
    refine Ensures.bind_eq (orThrow_ok _) ?_
    refine (ih (id + 1) (page + r.pageCount) _ hrest fun i r' hi => ?_).conseq (fun _ h => h)
      fun total s h => ⟨h.1, ?_⟩
    · have := hsub (i + 1) r' (by simpa using hi)
      rwa [show id + 1 + i = id + (i + 1) by omega]
    · have hsplit := imagePages_add crc slotCount t binding page r.pageCount
        ((slotCount + 503) / 504 - (page + r.pageCount))
      rw [show r.pageCount + ((slotCount + 503) / 504 - (page + r.pageCount)) =
        (slotCount + 503) / 504 - page by omega] at hsplit
      rw [hsplit, ← List.append_assoc, ← hfp]
      have h₂ := h.2
      rw [hfp] at h₂ ⊢
      exact h₂

/-- The counters of consecutive ranges add up. -/
lemma checkedSumPhysicalStats_chain (himg : (slotCount + 503) / 504 * 4096 ≤ isizeMax) :
    ∀ (rs : List IndexPartitionRange) (id page : ℕ),
      RangeChain slotCount ((slotCount + 503) / 504) id page rs →
      (rs.map fun r => (⟨occupied r t, 0⟩ : IndexPhysicalStats)).foldlM checkedAddPhysicalStats
          (⟨prefixCount t (min slotCount (page * 504)), 0⟩ : IndexPhysicalStats) =
        .ok ⟨prefixCount t slotCount, 0⟩ := by
  simp only [isizeMax] at himg
  intro rs
  induction rs with
  | nil =>
    intro id page hchain
    have hpage : page = (slotCount + 503) / 504 := hchain
    subst hpage
    rw [show min slotCount ((slotCount + 503) / 504 * 504) = slotCount by omega]
    rfl
  | cons r rs ih =>
    intro id page hchain
    obtain ⟨-, -, -, hfs, hcount, -, hrest⟩ := hchain
    have hocc := prefixCount_range t r
    have hbound := prefixCount_le t (r.firstSlot + r.slotCount)
    have hlast := hrest.page_le
    have hmin : min slotCount (page * 504) = r.firstSlot := by omega
    rw [List.map_cons, List.foldlM_cons, hmin]
    simp only [checkedAddPhysicalStats]
    rw [Word.checkedAdd_of_lt (by omega), Word.checkedAdd_of_lt (by omega)]
    have htail := ih (id + 1) (page + r.pageCount) hrest
    rw [← hcount, hocc] at htail
    exact htail

/-- The counters of a represented storage add up to its occupied buckets. -/
lemma checkedSumPhysicalStats_spec (hr : canonicalIndexPartitionRanges slotCount = .ok ranges) :
    checkedSumPhysicalStats (ranges.map fun r => ⟨occupied r t, 0⟩) =
      .ok ⟨prefixCount t slotCount, 0⟩ := by
  obtain ⟨-, -, himg, hchain⟩ := canonicalIndexPartitionRanges_chain hr
  have h := checkedSumPhysicalStats_chain (t := t) himg ranges 0 0 hchain
  simpa [checkedSumPhysicalStats, IndexPhysicalStats.default, prefixCount] using h

/-- **Emission.** The image of a represented table is written successfully, and what reaches the
output is the concatenation of the table's pages in order, whatever the batch size. -/
theorem writeWarmImage_spec (hr : canonicalIndexPartitionRanges slotCount = .ok ranges)
    {batch : ℕ} (hbatch : 0 < batch) (hbinding : binding.isValid = true)
    {storage : PartitionedIndexStorage} (h : StorageRepr crc slotCount ranges t storage) :
    ∃ s, writeWarmImage crc batch binding ⟨storage, .new⟩ =
        .ok ⟨(slotCount + 503) / 504, slotCount, (slotCount + 503) / 504 * 4096,
          ⟨prefixCount t slotCount, 0⟩⟩ s ∧
      StorageRepr crc slotCount ranges t s.storage ∧
      s.writer.inner.flatten =
        imagePages crc slotCount t binding 0 ((slotCount + 503) / 504) := by
  obtain ⟨-, -, himg, hchain⟩ := canonicalIndexPartitionRanges_chain hr
  simp only [isizeMax] at himg
  have hvalid : IndexPhysicalStats.isValidFor ⟨prefixCount t slotCount, 0⟩ slotCount = true :=
    (IndexPhysicalStats.isValidFor_iff (by omega)).2 (prefixCount_le t slotCount)
  have hstart : WriteRepr crc slotCount ranges t batch [] ⟨storage, .new⟩ :=
    ⟨h, ⟨hbatch, .inr ⟨rfl, rfl⟩⟩, rfl⟩
  obtain ⟨total, s, hrun, rfl, hs⟩ := writePartitions_spec hr hbinding ranges 0 0
    [] hchain (by simp) _ hstart
  refine ⟨{ s with writer := s.writer.finish }, ?_, hs.storage, ?_⟩
  · have hzero : (⟨0, min slotCount (0 * 504), 0 * 4096,
        ⟨prefixCount t (min slotCount (0 * 504)), 0⟩⟩ : WarmImageStats) =
        ⟨0, 0, 0, IndexPhysicalStats.default⟩ := by
      simp [prefixCount, IndexPhysicalStats.default]
    rw [hzero] at hrun
    simp only [writeWarmImage, bind_apply, get_apply, h.stats_eq, checkedSumPhysicalStats_spec hr,
      orThrow, pure_apply, h.slotCount_eq, hvalid, Bool.not_true, Bool.false_eq_true, if_false,
      h.ranges_eq, hrun, modify_apply, ne_eq, not_true_eq_false, or_self]
  · rw [WarmImageBatchWriter.finish, WarmImageBatchWriter.inner_flushBuffer, hs.content]
    simp

end Emission

/-! ## Mapping back -/

section Mapping

variable {crc : List UInt8 → BitVec 32} {slotCount : ℕ} {ranges : List IndexPartitionRange}
  {t : ℕ → IndexSlotState} {binding : IndexImageBinding}

/-- All pages together. -/
lemma length_imagePages (crc : List UInt8 → BitVec 32) (slotCount : ℕ) (t : ℕ → IndexSlotState)
    (binding : IndexImageBinding) (firstPage count : ℕ) :
    (imagePages crc slotCount t binding firstPage count).length = count * 4096 := by
  simp [imagePages, List.length_flatten, Function.comp_def, length_imagePage]

/-- A page of the image. -/
lemma slice_imagePages {count page : ℕ} (h : page < count) :
    slice (imagePages crc slotCount t binding 0 count) (page * 4096) 4096 =
      imagePage crc slotCount t binding page := by
  rw [imagePages, ← List.range_eq_range']
  exact slice_flatten_map (length_imagePage crc slotCount t binding) count h

/-- A bucket of the image. -/
lemma slice_imagePages_slot {slot : ℕ} (hs : slot < slotCount) :
    slice (imagePages crc slotCount t binding 0 ((slotCount + 503) / 504)) (slotByte slot) 8 =
      (IndexSlot.fromState (t slot)).encode := by
  have hpage : slot / 504 < (slotCount + 503) / 504 := by omega
  have hin : slot % 504 < pageSlots slotCount (slot / 504) := by
    simp only [pageSlots]
    omega
  have hslot := slice_imagePage_slot crc slotCount t binding (slot / 504) hin
  rw [← slice_imagePages hpage, slice_slice _ (by omega)] at hslot
  rw [slotByte, Nat.add_assoc, hslot, show slot / 504 * 504 + slot % 504 = slot by omega]

/-- Buckets with a meaning pass. -/
lemma validatePageSlots_spec {page : List UInt8} {firstSlot : ℕ} (state : ℕ → IndexSlotState)
    (hfirst : firstSlot + 504 < 2 ^ 64) :
    ∀ (k i : ℕ), i + k ≤ 504 → (∀ j < i + k, (IndexSlot.decode
        (slice page (64 + j * 8) 8)).runtimeState = .ok (state j)) →
      IndexStorageCore.validatePageSlots page firstSlot (List.range' i k) = .ok () := by
  intro k
  induction k with
  | zero => intro i _ _; rfl
  | succ k ih =>
    intro i hik hslots
    have hmul : Word.checkedMul 64 i indexImageSlotSize = some (i * 8) :=
      Word.checkedMul_of_lt (by simp only [indexImageSlotSize]; omega)
    have hadd : Word.checkedAdd 64 indexImagePageHeaderSize (i * 8) = some (64 + i * 8) :=
      Word.checkedAdd_of_lt (by simp only [indexImagePageHeaderSize]; omega)
    have htail := ih (i + 1) (by omega) fun j hj => hslots j (by omega)
    rw [List.range'_succ, IndexStorageCore.validatePageSlots,
      Word.checkedAdd_of_lt (by omega), hmul]
    simp only [orOverflow, bind, Except.bind, hadd, indexImageSlotSize, hslots i (by omega), htail]

/-- A page of the image passes validation. -/
lemma validateMappedPage_imagePages {core : IndexStorageCore} {page : ℕ}
    (hcount : core.slotCount = slotCount) (hexpected : core.expectedBinding = some binding)
    (hbytes : core.bytes = imagePages crc slotCount t binding 0 ((slotCount + 503) / 504))
    (himg : (slotCount + 503) / 504 * 4096 ≤ isizeMax)
    (hpage : page < (slotCount + 503) / 504) :
    core.validateMappedPage crc page = .ok () := by
  simp only [isizeMax] at himg
  have hle := pageSlots_le slotCount page
  have hbase : Word.checkedMul 64 page indexImagePageSize = some (page * 4096) :=
    Word.checkedMul_of_lt (((Nat.mul_le_mul_right _ (by omega)).trans_lt
      (Nat.lt_succ_of_le himg)).trans (by norm_num))
  have hfirst : Word.checkedMul 64 page indexImageSlotsPerPage = some (page * 504) :=
    Word.checkedMul_of_lt (by simp only [indexImageSlotsPerPage]; omega)
  have hvalid : core.validSlotsInPage page = pageSlots slotCount page := by
    simp only [IndexStorageCore.validSlotsInPage, hcount, pageSlots, indexImageSlotsPerPage]
  have hslice : slice core.bytes (page * 4096) indexImagePageSize =
      imagePage crc slotCount t binding page := by
    rw [hbytes, indexImagePageSize, slice_imagePages hpage]
  have hpageLen := length_imagePage crc slotCount t binding page
  have hheader : validatePageHeader crc (imagePage crc slotCount t binding page) page (page * 504)
      (pageSlots slotCount page) binding = .ok () :=
    (validatePageHeader_eq_ok_iff hpageLen).2 ⟨hpageLen, by omega,
      slice_imagePage_field crc slotCount t binding page,
      slice_imagePage_reserved crc slotCount t binding page,
      slice_imagePage_checksum crc slotCount t binding page⟩
  have hslots : IndexStorageCore.validatePageSlots (imagePage crc slotCount t binding page)
      (page * 504) (List.range' 0 (pageSlots slotCount page)) = .ok () := by
    refine validatePageSlots_spec (fun j => (t (page * 504 + j)).stored) (by omega) _ 0
      (by omega) fun j hj => ?_
    rw [slice_imagePage_slot crc slotCount t binding page (by omega), IndexSlot.decode_encode,
      IndexSlot.runtimeState_fromState]
  unfold IndexStorageCore.validateMappedPage
  rw [hexpected]
  dsimp only
  rw [hbase, hfirst]
  simp only [orOverflow, bind, Except.bind, hvalid, hslice, hheader, List.range_eq_range', hslots]

/-- Counters of a table fit the partitions. -/
lemma statsFitRanges_occupied (t : ℕ → IndexSlotState) :
    ∀ rs : List IndexPartitionRange, (∀ r ∈ rs, r.slotCount < 2 ^ 64) →
      PartitionedIndexStorage.statsFitRanges rs (rs.map fun r => ⟨occupied r t, 0⟩) = true := by
  intro rs
  induction rs with
  | nil => intro _; rfl
  | cons r rs ih =>
    intro hlt
    rw [List.map_cons, PartitionedIndexStorage.statsFitRanges, Bool.and_eq_true]
    exact ⟨(IndexPhysicalStats.isValidFor_iff (hlt r List.mem_cons_self)).2 (occupied_le r t),
      ih fun r' hr' => hlt r' (List.mem_cons_of_mem _ hr')⟩

/-- An admitted bucket count has a layout. -/
lemma imageLayout_of_ranges (hr : canonicalIndexPartitionRanges slotCount = .ok ranges) :
    ImageLayout.new slotCount = .ok ⟨(slotCount + 503) / 504, (slotCount + 503) / 504 * 4096⟩ := by
  unfold canonicalIndexPartitionRanges at hr
  split_ifs at hr
  cases hl : ImageLayout.new slotCount with
  | error e => rw [hl] at hr; cases hr
  | ok layout =>
    obtain ⟨-, hpages, hlen, -⟩ := ImageLayout.of_new hl
    cases layout
    simp_all

/-- **Mapping.** The pages of a table of stored states, at any aligned place of a file, are mapped
as a storage that represents the table, each page still to be validated and sure to pass. -/
theorem mapPrivate_imagePages (crc : List UInt8 → BitVec 32)
    (hr : canonicalIndexPartitionRanges slotCount = .ok ranges)
    (hbinding : binding.isValid = true) (hstored : ∀ slot < slotCount, (t slot).stored = t slot)
    {before : List UInt8} (after : List UInt8) (halign : before.length % indexImagePageSize = 0)
    (hfit : before.length + (slotCount + 503) / 504 * 4096 ≤ isizeMax) :
    ∃ storage, PartitionedIndexStorage.mapPrivate
        (before ++ imagePages crc slotCount t binding 0 ((slotCount + 503) / 504) ++ after)
        before.length slotCount binding (ranges.map fun r => ⟨occupied r t, 0⟩) = .ok storage ∧
      StorageRepr crc slotCount ranges t storage := by
  obtain ⟨-, -, himg, hchain⟩ := canonicalIndexPartitionRanges_chain hr
  have hlen := length_imagePages crc slotCount t binding 0 ((slotCount + 503) / 504)
  set pages := imagePages crc slotCount t binding 0 ((slotCount + 503) / 504) with hpages
  have hmap : slice (before ++ pages ++ after) before.length ((slotCount + 503) / 504 * 4096) =
      pages := by
    rw [List.append_assoc, slice, List.drop_left, List.take_append_of_le_length hlen.ge,
      List.take_of_length_le hlen.le]
  have hcount : slotCount < 2 ^ 64 := by
    simp only [isizeMax] at himg
    omega
  have hfits := statsFitRanges_occupied t ranges fun r hmem => by
    obtain ⟨i, hi, rfl⟩ := List.getElem_of_mem hmem
    have := (hchain.getElem i hi).2.2.2.2.2.1
    omega
  have hvalid : IndexPhysicalStats.isValidFor ⟨prefixCount t slotCount, 0⟩ slotCount = true :=
    (IndexPhysicalStats.isValidFor_iff hcount).2 (prefixCount_le t slotCount)
  have hend : Word.checkedAdd 64 before.length ((slotCount + 503) / 504 * 4096) =
      some (before.length + (slotCount + 503) / 504 * 4096) :=
    Word.checkedAdd_of_lt (by simp only [isizeMax] at hfit; omega)
  have hfile : ¬ (before ++ pages ++ after).length <
      before.length + (slotCount + 503) / 504 * 4096 := by
    rw [List.length_append, List.length_append, hlen]
    omega
  set core : IndexStorageCore :=
    { bytes := pages
      slotCount
      pageCount := (slotCount + 503) / 504
      expectedBinding := some binding
      imageRejected := false
      pageStates := List.replicate ((slotCount + 503) / 504) .unchecked } with hcore
  have hslots : ∀ slot < slotCount,
      (IndexSlot.decode (slice core.bytes (slotByte slot) 8)).runtimeState = .ok (t slot) := by
    intro slot hs
    rw [hcore, hpages, slice_imagePages_slot hs, IndexSlot.decode_encode,
      IndexSlot.runtimeState_fromState, hstored slot hs]
  refine ⟨⟨slotCount, ranges, core, ranges.map fun r => ⟨occupied r t, 0⟩⟩, ?_,
    rfl, rfl, ⟨rfl, rfl, himg, hlen, by simp [hcore], rfl, fun page hp => .inr ⟨by simp [hcore, hp],
      validateMappedPage_imagePages rfl rfl hpages himg hp⟩, hslots⟩, rfl⟩
  unfold PartitionedIndexStorage.mapPrivate
  simp only [hr, bind, Except.bind, List.length_map, ne_eq, not_true_eq_false, if_false, hfits,
    Bool.not_true, Bool.false_eq_true, checkedSumPhysicalStats_spec hr, hvalid, hbinding, halign,
    imageLayout_of_ranges hr, hend, orOverflow, hmap]
  rw [if_neg (by omega), if_neg hfile]

/-- Where a mapping that succeeded lies. -/
lemma mapPrivate_place (hr : canonicalIndexPartitionRanges slotCount = .ok ranges)
    {file : List UInt8} {offset : ℕ} {stats : List IndexPhysicalStats}
    {storage : PartitionedIndexStorage}
    (h : PartitionedIndexStorage.mapPrivate file offset slotCount binding stats = .ok storage) :
    offset % indexImagePageSize = 0 ∧ offset + (slotCount + 503) / 504 * 4096 ≤ isizeMax := by
  unfold PartitionedIndexStorage.mapPrivate at h
  have hlayout := imageLayout_of_ranges hr
  cases hsum : checkedSumPhysicalStats stats with
  | error e =>
    simp only [hr, bind, Except.bind, hsum] at h
    split_ifs at h
  | ok total =>
    cases hend : Word.checkedAdd 64 offset ((slotCount + 503) / 504 * 4096) with
    | none =>
      simp only [hr, bind, Except.bind, hsum, hlayout, hend, orOverflow] at h
      split_ifs at h
    | some mappingLen =>
      simp only [hr, bind, Except.bind, hsum, hlayout, hend, orOverflow] at h
      split_ifs at h with _ _ _ _ halign hmax
      rw [(Word.checkedAdd_eq_some.1 hend).2] at hmax
      exact ⟨not_not.1 halign, Nat.not_lt.1 hmax⟩

end Mapping

/-! ## Reachable indexes -/

/-- An index after any operations, image writes and restarts from a written image. -/
inductive IndexReachable (crc : List UInt8 → BitVec 32) (slotCount : ℕ) : RegionIndex → Prop
  | fresh {storage : PartitionedIndexStorage}
      (h : PartitionedIndexStorage.anonymous slotCount = .ok storage) :
      IndexReachable crc slotCount (RegionIndex.fromStorage storage)
  | op {idx idx' : RegionIndex} (h : IndexReachable crc slotCount idx) (o : IndexOp)
      (hrun : o.run crc idx = .ok () idx') : IndexReachable crc slotCount idx'
  | write {idx : RegionIndex} {batch : ℕ} {binding : IndexImageBinding} {stats : WarmImageStats}
      {s : WarmImageWrite} (h : IndexReachable crc slotCount idx) (hbatch : 0 < batch)
      (hwrite : writeWarmImage crc batch binding ⟨idx.storage, .new⟩ = .ok stats s) :
      IndexReachable crc slotCount { idx with storage := s.storage }
  | restart {idx : RegionIndex} {batch : ℕ} {binding : IndexImageBinding} {stats : WarmImageStats}
      {s : WarmImageWrite} {before after : List UInt8} {storage : PartitionedIndexStorage}
      (h : IndexReachable crc slotCount idx) (hbatch : 0 < batch)
      (hwrite : writeWarmImage crc batch binding ⟨idx.storage, .new⟩ = .ok stats s)
      (hmap : PartitionedIndexStorage.mapPrivate (before ++ s.writer.inner.flatten ++ after)
        before.length slotCount binding idx.storage.stats = .ok storage) :
      IndexReachable crc slotCount (RegionIndex.fromStorage storage)

section Reachable

variable {crc : List UInt8 → BitVec 32} {slotCount : ℕ} {ranges : List IndexPartitionRange}
  {t : ℕ → IndexSlotState} {binding : IndexImageBinding} {idx : RegionIndex}
  {storage : PartitionedIndexStorage} {batch : ℕ}

/-- An emission to which the binding is not acceptable fails before it writes a page. -/
lemma writeWarmImage_invalid (hr : canonicalIndexPartitionRanges slotCount = .ok ranges)
    (h : StorageRepr crc slotCount ranges t storage) (hbinding : binding.isValid = false) :
    writeWarmImage crc batch binding ⟨storage, .new⟩ =
      .error (.invalidArgument "warm index image binding must be non-zero") ⟨storage, .new⟩ := by
  obtain ⟨-, ⟨k, -, hk⟩, himg, -⟩ := canonicalIndexPartitionRanges_chain hr
  have hcount : slotCount < 2 ^ 64 := by
    simp only [isizeMax] at himg
    omega
  have hvalid := (IndexPhysicalStats.isValidFor_iff hcount).2 (prefixCount_le t slotCount)
  have hsum := checkedSumPhysicalStats_spec (t := t) hr
  rw [← h.stats_eq] at hsum
  cases hranges : ranges with
  | nil =>
    rw [hranges] at hk
    exact absurd hk.symm (by simp)
  | cons r rs =>
    simp only [writeWarmImage, bind_apply, get_apply, hsum, orThrow, pure_apply,
      h.slotCount_eq, hvalid, Bool.not_true, Bool.false_eq_true, if_false,
      h.ranges_eq, hranges, writePartitions, writeWarmImagePages, hbinding, Bool.not_false,
      if_true, throw_apply]

/-- Only an acceptable binding is written. -/
lemma isValid_of_writeWarmImage (hr : canonicalIndexPartitionRanges slotCount = .ok ranges)
    (h : StorageRepr crc slotCount ranges t storage) {stats : WarmImageStats} {s : WarmImageWrite}
    (hwrite : writeWarmImage crc batch binding ⟨storage, .new⟩ = .ok stats s) :
    binding.isValid = true := by
  by_contra hinvalid
  rw [writeWarmImage_invalid hr h (by simpa using hinvalid)] at hwrite
  cases hwrite

/-- What a write leaves and emits. -/
lemma writeWarmImage_repr (hr : canonicalIndexPartitionRanges slotCount = .ok ranges)
    (h : StorageRepr crc slotCount ranges t storage) (hbatch : 0 < batch) {stats : WarmImageStats}
    {s : WarmImageWrite}
    (hwrite : writeWarmImage crc batch binding ⟨storage, .new⟩ = .ok stats s) :
    StorageRepr crc slotCount ranges t s.storage ∧
      s.writer.inner.flatten = imagePages crc slotCount t binding 0 ((slotCount + 503) / 504) := by
  obtain ⟨s', hrun, hrepr, hout⟩ := writeWarmImage_spec hr hbatch
    (isValid_of_writeWarmImage hr h hwrite) h
  rw [hrun] at hwrite
  cases hwrite
  exact ⟨hrepr, hout⟩

/-- An index over a storage that represents the table of an intact one is intact. -/
lemma IndexInv.of_storageRepr (hr : canonicalIndexPartitionRanges slotCount = .ok ranges)
    (h : IndexInv crc slotCount ranges idx) {idx' : RegionIndex}
    (hrepr : StorageRepr crc slotCount ranges idx.table idx'.storage) :
    IndexInv crc slotCount ranges idx' :=
  .of_repr hr hrepr h.map

/-- **Reachable indexes are intact.** -/
theorem IndexReachable.inv (h : IndexReachable crc slotCount idx) :
    ∃ ranges, canonicalIndexPartitionRanges slotCount = .ok ranges ∧
      IndexInv crc slotCount ranges idx := by
  induction h with
  | fresh h =>
    obtain ⟨ranges, hr, hinv, -⟩ := fromStorage_inv crc h
    exact ⟨ranges, hr, hinv⟩
  | op _ o hrun ih =>
    obtain ⟨ranges, hr, hinv⟩ := ih
    obtain ⟨idx', hrun', hinv', -⟩ := o.run_inv hr hinv
    rw [hrun] at hrun'
    cases hrun'
    exact ⟨ranges, hr, hinv'⟩
  | write _ hbatch hwrite ih =>
    obtain ⟨ranges, hr, hinv⟩ := ih
    exact ⟨ranges, hr, hinv.of_storageRepr hr (writeWarmImage_repr hr hinv.repr hbatch hwrite).1⟩
  | restart _ hbatch hwrite hmap ih =>
    obtain ⟨ranges, hr, hinv⟩ := ih
    have hout := (writeWarmImage_repr hr hinv.repr hbatch hwrite).2
    have hplace := mapPrivate_place hr hmap
    obtain ⟨storage', hmap', hrepr⟩ := mapPrivate_imagePages crc hr
      (isValid_of_writeWarmImage hr hinv.repr hwrite) (fun _ hs => hinv.repr.stored_eq hs) _
      hplace.1 hplace.2
    rw [hout, hinv.repr.stats_eq, hmap'] at hmap
    cases hmap
    exact ⟨ranges, hr, hinv.of_storageRepr hr hrepr⟩

/-- **Warm image round trip.** From every reachable index, with every acceptable binding and
every batch size, the emission succeeds and emits the pages of the index in global page order;
the written bytes, mapped back at any aligned place of a file with the same binding and the same
counters, give a storage with the same partitions and the same counters, in which every bucket
has the same state and every hash the same lookup. A zero binding is refused, nothing written. -/
theorem warmImage_roundTrip (h : IndexReachable crc slotCount idx) (hbatch : 0 < batch)
    (binding : IndexImageBinding) :
    (binding.isValid = false →
      writeWarmImage crc batch binding ⟨idx.storage, .new⟩ =
        .error (.invalidArgument "warm index image binding must be non-zero")
          ⟨idx.storage, .new⟩) ∧
    (binding.isValid = true → ∃ stats s,
      writeWarmImage crc batch binding ⟨idx.storage, .new⟩ = .ok stats s ∧
      s.writer.inner.flatten =
        imagePages crc slotCount idx.table binding 0 ((slotCount + 503) / 504) ∧
      ∀ before after : List UInt8, before.length % indexImagePageSize = 0 →
        before.length + (slotCount + 503) / 504 * 4096 ≤ isizeMax →
        ∃ mapped, PartitionedIndexStorage.mapPrivate (before ++ s.writer.inner.flatten ++ after)
            before.length slotCount binding idx.storage.stats = .ok mapped ∧
          mapped.slotCount = idx.storage.slotCount ∧ mapped.ranges = idx.storage.ranges ∧
          mapped.stats = idx.storage.stats ∧
          (∀ range ∈ mapped.ranges, ∀ slot < range.slotCount, ∃ state storage' mapped',
            PartitionedIndexStorage.stateAt crc range slot idx.storage = .ok state storage' ∧
            PartitionedIndexStorage.stateAt crc range slot mapped = .ok state mapped') ∧
          ∀ hash, ∃ result idx' mapped',
            RegionIndex.lookupRaw crc hash idx = .ok result idx' ∧
            RegionIndex.lookupRaw crc hash (RegionIndex.fromStorage mapped) =
              .ok result mapped') := by
  obtain ⟨ranges, hr, hinv⟩ := h.inv
  refine ⟨writeWarmImage_invalid hr hinv.repr, fun hbinding => ?_⟩
  obtain ⟨s, hwrite, -, hout⟩ := writeWarmImage_spec hr hbatch hbinding hinv.repr
  refine ⟨_, s, hwrite, hout, fun before after halign hfit => ?_⟩
  obtain ⟨mapped, hmap, hrepr⟩ := mapPrivate_imagePages crc hr hbinding
    (fun _ hs => hinv.repr.stored_eq hs) after halign hfit
  rw [hout, hinv.repr.stats_eq]
  refine ⟨mapped, hmap, ?_, ?_, hrepr.stats_eq, ?_, ?_⟩
  · rw [hrepr.slotCount_eq, hinv.repr.slotCount_eq]
  · rw [hrepr.ranges_eq, hinv.repr.ranges_eq]
  · rw [hrepr.ranges_eq]
    intro range hmem slot hs
    obtain ⟨i, hi, rfl⟩ := List.getElem_of_mem hmem
    obtain ⟨_, storage', hread, rfl, -⟩ := PartitionedIndexStorage.stateAt_spec (t := idx.table)
      hr hi hs idx.storage hinv.repr
    obtain ⟨_, mapped', hread', rfl, -⟩ := PartitionedIndexStorage.stateAt_spec (t := idx.table)
      hr hi hs mapped hrepr
    exact ⟨_, storage', mapped', hread, hread'⟩
  · intro hash
    have hmapped : IndexInv crc slotCount ranges (RegionIndex.fromStorage mapped) :=
      hinv.of_storageRepr hr hrepr
    obtain ⟨result, idx', hlookup, -, -, hres⟩ := lookupRaw_effect hr hinv hash
    obtain ⟨result', mapped', hlookup', -, -, hres'⟩ := lookupRaw_effect hr hmapped hash
    -- both indexes hold the same cells, and a lookup is determined by them
    have hcells : (RegionIndex.fromStorage mapped).cells = idx.cells := by
      have hidx : IndexRepr crc slotCount ranges idx.table (RegionIndex.fromStorage mapped) := hrepr
      rw [hidx.cells_eq hr, hinv.cells_eq]
    have htoken : (RegionIndex.fromStorage mapped).token hash = idx.token hash := by
      rw [RegionIndex.token, RegionIndex.token, hmapped.repr.ranges_eq, hinv.repr.ranges_eq]
    have hsame : result' = result := Option.ext fun e => by
      rw [hres', hres, hcells, htoken]
    exact ⟨result, idx', mapped', hlookup, hsame ▸ hlookup'⟩

/-- The smallest index after an insertion, written with one page per batch and mapped at the
start of a file. -/
theorem warmImage_roundTrip_four :
    ∃ storage idx stats s mapped, PartitionedIndexStorage.anonymous 4 = .ok storage ∧
      (IndexOp.upsert 1 ⟨⟨0⟩⟩).run (fun _ => 0) (RegionIndex.fromStorage storage) = .ok () idx ∧
      writeWarmImage (fun _ => 0) 4096 ⟨1, 1⟩ ⟨idx.storage, .new⟩ = .ok stats s ∧
      PartitionedIndexStorage.mapPrivate ([] ++ s.writer.inner.flatten ++ []) 0 4 ⟨1, 1⟩
        idx.storage.stats = .ok mapped ∧ mapped.stats = idx.storage.stats := by
  have hnew : PartitionedIndexStorage.anonymous 4 = .ok _ := rfl
  obtain ⟨ranges, hr, h₀, -⟩ := fromStorage_inv (fun _ => 0) hnew
  obtain ⟨idx, hrun, -, -⟩ := (IndexOp.upsert 1 ⟨⟨0⟩⟩).run_inv hr h₀
  have hbatch : 0 < 4096 := by decide
  obtain ⟨stats, s, hwrite, -, hmap⟩ := (warmImage_roundTrip
    ((IndexReachable.fresh hnew).op _ hrun) hbatch ⟨1, 1⟩).2 (by decide)
  obtain ⟨mapped, hmap, -, -, hstats, -⟩ := hmap [] [] (by decide) (by decide)
  exact ⟨_, idx, stats, s, mapped, hnew, hrun, hwrite, hmap, hstats⟩

end Reachable

end Cache2

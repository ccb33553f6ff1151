import Mathlib.Data.Finset.Insert
import Cache2.Lib.Interleaving
import Cache2.Index.PartitionLayout
import Cache2.Index.Occupancy

set_option relaxedAutoImplicit false
set_option autoImplicit false

/-!
# Lazy validation under concurrent accesses

A page of a mapped image is validated by whoever touches it first. Accesses through different
partitions, and readers of one partition, run at the same time: the state of a page is claimed by
compare-and-swap, and one flag for the whole image is set before a page is given up. An access
reads the flag first, and again before it returns what it has read.

The image is modelled as threads over the bytes, the page states, the flag and the partition locks,
with one action for each atomic access. Bytes of buckets are copied in one action, because the lock
of their partition keeps others out. A history records what the threads have done; it is not part of
the code, and neither is the record of who has claimed a page.

## Main definitions

* `Cache2.SharedImage` — the shared state; `Cache2.Accessor` — where a thread stands.
* `Cache2.ImageAct` — the actions; `Cache2.imageProgram` — the image as a program.
* `Cache2.ImageEvent.Justified` — what has to come before an event of the history.
* `Cache2.SharedImage.Invariant`, `Cache2.Accessor.Invariant` — what reachable states satisfy.

## Main results

* `Cache2.lazyValidation_sound` — nothing is returned or modified before its page is validated, a
  rejection is for good, and a mutation finds no page that is being validated.
* `Cache2.boundPage_of_admitted` — a page that an access is admitted to belongs to the image, with a
  right checksum.
* `Cache2.stateAt_alone`, `Cache2.writeSlot_alone` — an access that nobody interrupts is that of the
  sequential storage.
-/

namespace Cache2

open Bytes Loop Interleaving

/-! ## Locks and accesses -/

/-- The lock of a partition, with who holds it. -/
structure PartitionLock where
  /-- Who holds the write guard. -/
  writer : Option ℕ
  /-- Who holds a read guard. -/
  readers : Finset ℕ

/-- The guards of a partition: `IndexPartitionReadGuard` and `IndexPartitionWriteGuard`. -/
inductive PartitionGuard
  | read
  | write
  deriving DecidableEq, Repr

/-- The thread holds a guard. -/
def PartitionLock.Held (lock : PartitionLock) (thread : ℕ) : PartitionGuard → Prop
  | .read => thread ∈ lock.readers
  | .write => lock.writer = some thread

/-- What an operation does with its partition: it reads a bucket, replaces one, or emits a page. -/
inductive SlotAccess
  /-- `state_at`. -/
  | stateAt (slot : ℕ)
  /-- `write_slot`, as `replace_observed_state` calls it. -/
  | writeSlot (slot : ℕ) (state : IndexSlotState)
  /-- One page of `write_warm_image_pages`, with the counters so far. -/
  | emitPage (page : ℕ) (binding : IndexImageBinding) (stats : IndexPhysicalStats)
  deriving DecidableEq, Repr

/-- What the guards are for: buckets are replaced with the write guard, and pages of the partition
are emitted with the read guard. -/
def SlotAccess.Allowed (range : IndexPartitionRange) (guard : PartitionGuard) : SlotAccess → Prop
  | .stateAt _ => True
  | .writeSlot _ _ => guard = .write
  | .emitPage page _ _ => guard = .read ∧ page < range.pageCount

/-- The bucket, the page and the byte offset of an access. -/
def SlotAccess.locate (range : IndexPartitionRange) (core : IndexStorageCore) :
    SlotAccess → Except IndexStorageError (ℕ × ℕ × ℕ)
  | .stateAt slot | .writeSlot slot _ => do
    let globalSlot ← range.globalSlot slot
    let (page, offset) ← core.slotAddress globalSlot
    .ok (globalSlot, page, offset)
  | .emitPage page _ _ => do
    let page ← orOverflow (Word.checkedAdd 64 range.firstPage page)
    .ok (0, page, 0)

/-- An access with its guard and its place. -/
structure PageAccess where
  /-- The partition. -/
  range : IndexPartitionRange
  /-- The guard. -/
  guard : PartitionGuard
  /-- What is done. -/
  access : SlotAccess
  /-- The bucket. -/
  slot : ℕ
  /-- The page. -/
  page : ℕ
  /-- The byte offset of the bucket. -/
  offset : ℕ
  deriving DecidableEq, Repr

/-! ## Events -/

/-- What threads do. -/
inductive ImageEvent
  /-- An access has found the image usable and goes for its page. -/
  | began (thread : ℕ) (access : PageAccess)
  /-- The page of an access has been validated, with this result. -/
  | validated (thread : ℕ) (access : PageAccess) (result : Except IndexStorageError Unit)
  /-- The image has been rejected. -/
  | rejected (thread : ℕ)
  /-- `ensure_page_valid` has succeeded. -/
  | admitted (thread : ℕ) (access : PageAccess)
  /-- The state of a bucket has been returned. -/
  | returned (thread : ℕ) (access : PageAccess) (state : IndexSlotState)
  /-- The bytes of a bucket have been replaced. -/
  | wrote (thread : ℕ) (access : PageAccess)
  /-- The replacement has returned. -/
  | completed (thread : ℕ) (access : PageAccess)
  /-- A page has been built for the warm image. -/
  | emitted (thread : ℕ) (access : PageAccess) (output : List UInt8)
  /-- An access with the guard has failed. -/
  | failed (thread : ℕ) (guard : PartitionGuard) (error : IndexStorageError)

namespace ImageEvent

/-- Whose event it is. -/
def thread : ImageEvent → ℕ
  | began i _ | validated i _ _ | rejected i | admitted i _ | returned i _ _ | wrote i _ => i
  | completed i _ | emitted i _ _ | failed i _ _ => i

/-- The latest event of a thread; the latest events come first. -/
def latest (history : List ImageEvent) (i : ℕ) : Option ImageEvent :=
  history.find? fun e => e.thread = i

end ImageEvent

/-- The error says that a page or a bucket is corrupt. -/
def IndexStorageError.isCorrupt : IndexStorageError → Bool
  | .corruptPage _ _ | .corruptSlot _ _ => true
  | _ => false

/-- The error says that somebody else is validating the page. -/
def IndexStorageError.isBusy : IndexStorageError → Bool
  | .pageBusy _ => true
  | _ => false

/-! ## The shared image -/

/-- What threads share. -/
structure SharedImage where
  /-- The image. -/
  core : IndexStorageCore
  /-- The locks of the partitions, by their number. -/
  locks : ℕ → PartitionLock
  /-- Who has claimed a page; the code does not record it. -/
  claimed : ℕ → Option ℕ
  /-- What has been done, the latest first; the code does not record it. -/
  history : List ImageEvent

namespace SharedImage

/-- An image that nobody has touched. -/
def untouched (core : IndexStorageCore) : SharedImage :=
  ⟨core, fun _ => ⟨none, ∅⟩, fun _ => none, []⟩

/-- The image after an event. -/
def log (s : SharedImage) (event : ImageEvent) : SharedImage :=
  { s with history := event :: s.history }

/-- The image with another lock. -/
def setLock (s : SharedImage) (partition : ℕ) (lock : PartitionLock) : SharedImage :=
  { s with locks := Function.update s.locks partition lock }

/-- `state.store`, and the exchange that claims a page. -/
def storePageState (s : SharedImage) (page : ℕ) (state : PageState) (claim : Option ℕ) :
    SharedImage :=
  { s with
    core := { s.core with pageStates := s.core.pageStates.set page state }
    claimed := Function.update s.claimed page claim }

/-- `reject_image`. -/
def rejectImage (s : SharedImage) (i : ℕ) : SharedImage :=
  { s with core := { s.core with imageRejected := true } }.log (.rejected i)

/-- The copy in `write_slot`. -/
def copySlot (s : SharedImage) (offset : ℕ) (value : IndexSlot) : SharedImage :=
  { s with core := { s.core with bytes := splice s.core.bytes offset value.encode } }

end SharedImage

/-! ## Threads -/

/-- Where a thread stands. -/
inductive Accessor
  /-- Between accesses. -/
  | idle
  /-- `ensure_page_valid`, before it loads the page's state. -/
  | loading (a : PageAccess)
  /-- The page was unchecked; before the exchange. -/
  | claiming (a : PageAccess)
  /-- The exchange has failed; at the head of the loop. -/
  | retrying (a : PageAccess)
  /-- The page is claimed; before `validate_mapped_page`. -/
  | validating (a : PageAccess)
  /-- The page is good; before its state is stored. -/
  | validated (a : PageAccess)
  /-- The state is stored; before the flag is read again. -/
  | rechecking (a : PageAccess)
  /-- The page is bad; before `reject_image`. -/
  | rejecting (a : PageAccess) (error : IndexStorageError)
  /-- The image is rejected; before the page's state is stored. -/
  | rejected (a : PageAccess) (error : IndexStorageError)
  /-- `ensure_page_valid` has succeeded. -/
  | admitted (a : PageAccess)
  /-- `state_at` has decoded the bucket; before the flag is read again. -/
  | decoded (a : PageAccess) (state : IndexSlotState)
  /-- `state_at` could not decode the bucket; before `reject_image`. -/
  | corrupt (a : PageAccess) (reason : IndexSlotSemanticError)
  /-- `write_slot` has replaced the bucket; before the flag is read again. -/
  | written (a : PageAccess)

/-- `ensure_image_usable`, and what comes next. -/
def SharedImage.ensureImageUsable (s : SharedImage) (i : ℕ) (a : PageAccess)
    (next : SharedImage × Accessor) : SharedImage × Accessor :=
  if s.core.imageRejected then
    (s.log (.failed i a.guard (.corruptPage a.page .previouslyRejected)), .idle)
  else next

/-- An access starts: its place is computed and the flag is read. -/
def SharedImage.start (s : SharedImage) (i : ℕ) (range : IndexPartitionRange)
    (guard : PartitionGuard) (access : SlotAccess) : SharedImage × Accessor :=
  match access.locate range s.core with
  | .error error => (s.log (.failed i guard error), .idle)
  | .ok (slot, page, offset) =>
    if s.core.pageStates.length ≤ page then
      (s.log (.failed i guard (.pageOutOfBounds page s.core.pageCount)), .idle)
    else
      let a : PageAccess := ⟨range, guard, access, slot, page, offset⟩
      s.ensureImageUsable i a (s.log (.began i a), .loading a)

/-- What a thread does next, unless it is idle. -/
def Accessor.step (crc : List UInt8 → BitVec 32) (i : ℕ) (s : SharedImage) :
    Accessor → SharedImage × Accessor
  | .idle => (s, .idle)
  | .loading a =>
    match s.core.pageStates[a.page]? with
    | some .valid => (s.log (.admitted i a), .admitted a)
    | some .rejected =>
      (s.log (.failed i a.guard (.corruptPage a.page .previouslyRejected)), .idle)
    | some .unchecked => (s, .claiming a)
    | some .validating => (s.log (.failed i a.guard (.pageBusy a.page)), .idle)
    | none => (s.log (.failed i a.guard (.pageOutOfBounds a.page s.core.pageCount)), .idle)
  | .claiming a =>
    if s.core.pageStates[a.page]? = some .unchecked then
      (s.storePageState a.page .validating (some i), .validating a)
    else (s, .retrying a)
  | .retrying a => s.ensureImageUsable i a (s, .loading a)
  | .validating a =>
    let result := s.core.validateMappedPage crc a.page
    match result with
    | .ok () => (s.log (.validated i a result), .validated a)
    | .error error => (s.log (.validated i a result), .rejecting a error)
  | .validated a => (s.storePageState a.page .valid none, .rechecking a)
  | .rechecking a => s.ensureImageUsable i a (s.log (.admitted i a), .admitted a)
  | .rejecting a error => (s.rejectImage i, .rejected a error)
  | .rejected a error =>
    ((s.storePageState a.page .rejected none).log (.failed i a.guard error), .idle)
  | .admitted a =>
    match a.access with
    | .stateAt _ =>
      match (s.core.decodeAt a.offset).runtimeState with
      | .ok state => (s, .decoded a state)
      | .error reason => (s, .corrupt a reason)
    | .writeSlot _ state =>
      ((s.copySlot a.offset (IndexSlot.fromState state)).log (.wrote i a), .written a)
    | .emitPage _ binding stats =>
      match emitPage crc s.core a.page a.range.slotCount binding stats with
      | .ok (output, _) => (s.log (.emitted i a output), .idle)
      | .error error => (s.log (.failed i a.guard error), .idle)
  | .decoded a state => s.ensureImageUsable i a (s.log (.returned i a state), .idle)
  | .corrupt a reason =>
    ((s.rejectImage i).log (.failed i a.guard (.corruptSlot a.slot reason)), .idle)
  | .written a => s.ensureImageUsable i a (s.log (.completed i a), .idle)

/-- The actions of the thread `i`. -/
inductive ImageAct (crc : List UInt8 → BitVec 32) (ranges : List IndexPartitionRange) (i : ℕ) :
    SharedImage → Accessor → SharedImage → Accessor → Prop
  -- the locks of the partitions
  | lockRead (s : SharedImage) (q : ℕ) (hfree : (s.locks q).writer = none) :
      ImageAct crc ranges i s .idle
        (s.setLock q ⟨none, insert i (s.locks q).readers⟩) .idle
  | lockWrite (s : SharedImage) (q : ℕ) (hfree : (s.locks q).writer = none)
      (hreaders : (s.locks q).readers = ∅) :
      ImageAct crc ranges i s .idle (s.setLock q ⟨some i, ∅⟩) .idle
  | unlockRead (s : SharedImage) (q : ℕ) :
      ImageAct crc ranges i s .idle
        (s.setLock q ⟨(s.locks q).writer, (s.locks q).readers.erase i⟩) .idle
  | unlockWrite (s : SharedImage) (q : ℕ) (hheld : (s.locks q).writer = some i) :
      ImageAct crc ranges i s .idle (s.setLock q ⟨none, (s.locks q).readers⟩) .idle
  -- an access with a guard, and its steps
  | start (s : SharedImage) (range : IndexPartitionRange) (guard : PartitionGuard)
      (access : SlotAccess) (hrange : range ∈ ranges)
      (hheld : (s.locks range.partitionId).Held i guard) (hallowed : access.Allowed range guard) :
      ImageAct crc ranges i s .idle (s.start i range guard access).1
        (s.start i range guard access).2
  | step (s : SharedImage) (t : Accessor) (h : t ≠ .idle) :
      ImageAct crc ranges i s t (t.step crc i s).1 (t.step crc i s).2

/-- The image under any number of operations. -/
def imageProgram (crc : List UInt8 → BitVec 32) (ranges : List IndexPartitionRange) :
    Program SharedImage Accessor where
  start t := t = .idle
  act := ImageAct crc ranges

/-- States of an image that some interleaving reaches. -/
def ImageReachable (crc : List UInt8 → BitVec 32) (storage : PartitionedIndexStorage)
    (c : Pool SharedImage Accessor) : Prop :=
  Reachable (imageProgram crc storage.ranges) (.untouched storage.core) c

/-! ## What has to come before an event -/

/-- The image has not been rejected. -/
def Usable (history : List ImageEvent) : Prop := ∀ i, ImageEvent.rejected i ∉ history

/-- **What has to come before an event**, in the history `h` without it: an access begins only while
no page has been rejected, is admitted after the page has been validated as it was mapped, and
reads and writes only then; it returns only while no page has been rejected. An error that says that
something is corrupt comes after a rejection, and an access with the write guard never finds its
page being validated. -/
def ImageEvent.Justified (crc : List UInt8 → BitVec 32) (mapped : IndexStorageCore)
    (h : List ImageEvent) : ImageEvent → Prop
  | began _ _ => Usable h
  | validated i a result =>
    result = mapped.validateMappedPage crc a.page ∧ latest h i = some (.began i a)
  | rejected _ => True
  | admitted i a =>
    (∃ j b, b.page = a.page ∧ .validated j b (.ok ()) ∈ h) ∧
      (latest h i = some (.began i a) ∨ latest h i = some (.validated i a (.ok ())))
  | returned i a _ => latest h i = some (.admitted i a) ∧ Usable h
  | wrote i a => latest h i = some (.admitted i a)
  | completed i a => latest h i = some (.wrote i a) ∧ Usable h
  | emitted i a _ => latest h i = some (.admitted i a)
  | failed _ guard error =>
    (error.isCorrupt = true → ¬ Usable h) ∧ (guard = .write → error.isBusy = false)

section History

variable {h : List ImageEvent} {e : ImageEvent} {i : ℕ}

/-- The latest event of the thread that has just done something. -/
lemma latest_cons_self (hi : e.thread = i) : ImageEvent.latest (e :: h) i = some e := by
  simp [ImageEvent.latest, hi]

/-- The latest event of another thread. -/
lemma latest_cons_ne (hi : e.thread ≠ i) :
    ImageEvent.latest (e :: h) i = ImageEvent.latest h i := by
  simp [ImageEvent.latest, hi]

/-- A thread whose latest event is another one has not found a page bad. -/
lemma latest_cons_ne_validated (hi : e.thread = i) (he : ∀ a result, e ≠ .validated i a result)
    (a : PageAccess) (error : IndexStorageError) :
    ImageEvent.latest (e :: h) i ≠ some (.validated i a (.error error)) := by
  rw [latest_cons_self hi]
  exact fun heq => he a _ (Option.some.inj heq)

/-- A rejection is for good. -/
lemma Usable.of_cons (hu : Usable (e :: h)) : Usable h := fun j hm =>
  hu j (List.mem_cons_of_mem _ hm)

/-- Other events do not reject the image. -/
lemma Usable.cons (hu : Usable h) (he : ∀ j, e ≠ .rejected j) : Usable (e :: h) := by
  intro j hm
  rcases List.mem_cons.1 hm with rfl | hm
  · exact he j rfl
  · exact hu j hm

end History

/-! ## Places -/

/-- The page is one of the partition's. -/
def IndexPartitionRange.HasPage (range : IndexPartitionRange) (page : ℕ) : Prop :=
  range.firstPage ≤ page ∧ page < range.firstPage + range.pageCount

/-- The access has its place: the page is one of its partition's, and the bucket is on the page. -/
structure PageAccess.Located (ranges : List IndexPartitionRange) (a : PageAccess) : Prop where
  /-- The partition. -/
  range_mem : a.range ∈ ranges
  /-- The guard. -/
  allowed : a.access.Allowed a.range a.guard
  /-- The page. -/
  hasPage : a.range.HasPage a.page
  /-- The bytes of the bucket, unless the access has none. -/
  offset : (∃ page binding stats, a.access = .emitPage page binding stats) ∨
    a.page * indexImagePageSize ≤ a.offset ∧
      a.offset + indexImageSlotSize ≤ a.page * indexImagePageSize + indexImagePageSize

section Places

variable {slotCount : ℕ} {ranges : List IndexPartitionRange}

/-- A page is in one partition. -/
lemma range_unique (hranges : canonicalIndexPartitionRanges slotCount = .ok ranges)
    {r r' : IndexPartitionRange} (hr : r ∈ ranges) (hr' : r' ∈ ranges) {page : ℕ}
    (hpage : r.HasPage page) (hpage' : r'.HasPage page) : r = r' := by
  obtain ⟨-, -, -, hchain⟩ := canonicalIndexPartitionRanges_chain hranges
  obtain ⟨q, hq, rfl⟩ := List.getElem_of_mem hr
  obtain ⟨q', hq', rfl⟩ := List.getElem_of_mem hr'
  obtain rfl := hchain.page_unique hq hq' hpage hpage'
  rfl

/-- The bytes of a bucket are on its page. -/
lemma slotByte_on_page (slot : ℕ) :
    slot / 504 * indexImagePageSize ≤ slotByte slot ∧
      slotByte slot + indexImageSlotSize ≤
        slot / 504 * indexImagePageSize + indexImagePageSize := by
  unfold slotByte indexImagePageSize indexImageSlotSize
  omega

/-- An access without a place fails without a verdict on its page. -/
lemma SlotAccess.locate_error {range : IndexPartitionRange} {core : IndexStorageCore}
    {access : SlotAccess} {error : IndexStorageError}
    (h : access.locate range core = .error error) :
    error.isCorrupt = false ∧ error.isBusy = false := by
  have hoverflow : ∀ {α : Type} {o : Option α} {error : IndexStorageError},
      orOverflow o = .error error → error = .sizeOverflow := by
    intro α o error ho
    cases o with
    | none => exact (Except.error.inj ho).symm
    | some a => cases ho
  have hbucket : ∀ s, (do
      let globalSlot ← range.globalSlot s
      let (page, offset) ← core.slotAddress globalSlot
      Except.ok (globalSlot, page, offset)) = Except.error error →
      error.isCorrupt = false ∧ error.isBusy = false := by
    intro s hs
    cases hglobal : range.globalSlot s with
    | error e =>
      simp only [hglobal, bind, Except.bind] at hs
      obtain rfl := Except.error.inj hs
      unfold IndexPartitionRange.globalSlot at hglobal
      split_ifs at hglobal with hslot
      · obtain rfl := Except.error.inj hglobal
        exact ⟨rfl, rfl⟩
      · rw [hoverflow hglobal]
        exact ⟨rfl, rfl⟩
    | ok globalSlot =>
      simp only [hglobal, bind, Except.bind] at hs
      unfold IndexStorageCore.slotAddress at hs
      split_ifs at hs with hslot
      · obtain rfl := Except.error.inj hs
        exact ⟨rfl, rfl⟩
      · cases hoffset : IndexStorageCore.slotOffset (globalSlot / indexImageSlotsPerPage)
          (globalSlot % indexImageSlotsPerPage) with
        | some offset =>
          simp only [hoffset, orOverflow, bind, Except.bind] at hs
          cases hs
        | none =>
          simp only [hoffset, orOverflow, bind, Except.bind] at hs
          obtain rfl := Except.error.inj hs
          exact ⟨rfl, rfl⟩
  cases access with
  | stateAt s => exact hbucket s h
  | writeSlot s state => exact hbucket s h
  | emitPage p binding stats =>
    simp only [locate] at h
    cases hadd : Word.checkedAdd 64 range.firstPage p with
    | none =>
      rw [hadd] at h
      obtain rfl := Except.error.inj h
      exact ⟨rfl, rfl⟩
    | some sum => rw [hadd] at h; cases h

/-- **The place of an access**: a bucket of a partition is on one of its pages. -/
lemma SlotAccess.locate_ok (hranges : canonicalIndexPartitionRanges slotCount = .ok ranges)
    {range : IndexPartitionRange} (hrange : range ∈ ranges) {core : IndexStorageCore}
    (hcore : core.slotCount = slotCount) {access : SlotAccess} {guard : PartitionGuard}
    (hallowed : access.Allowed range guard) {slot page offset : ℕ}
    (h : access.locate range core = .ok (slot, page, offset)) :
    PageAccess.Located ranges ⟨range, guard, access, slot, page, offset⟩ := by
  obtain ⟨-, -, himage, hchain⟩ := canonicalIndexPartitionRanges_chain hranges
  have hbucket : ∀ s, (do
      let globalSlot ← range.globalSlot s
      let (page, offset) ← core.slotAddress globalSlot
      Except.ok (globalSlot, page, offset)) = Except.ok (slot, page, offset) →
      range.HasPage page ∧ page * indexImagePageSize ≤ offset ∧
        offset + indexImageSlotSize ≤ page * indexImagePageSize + indexImagePageSize := by
    intro s hs
    obtain ⟨q, hq, rfl⟩ := List.getElem_of_mem hrange
    unfold IndexPartitionRange.globalSlot IndexStorageCore.slotAddress at hs
    by_cases hslot : s ≥ ranges[q].slotCount
    · rw [if_pos hslot] at hs
      cases hs
    rw [if_neg hslot] at hs
    cases hadd : Word.checkedAdd 64 ranges[q].firstSlot s with
    | none => rw [hadd] at hs; cases hs
    | some globalSlot =>
      obtain ⟨-, rfl⟩ := Word.checkedAdd_eq_some.1 hadd
      have hlt := hchain.slot_lt hq (Nat.lt_of_not_le hslot)
      simp only [hadd, orOverflow, bind, Except.bind, hcore, if_neg (Nat.not_le.2 hlt),
        indexImageSlotsPerPage, IndexStorageCore.slotOffset_eq hlt himage] at hs
      obtain ⟨-, rfl, rfl⟩ : _ ∧ _ ∧ _ := by simpa using hs
      refine ⟨(hchain.slot_mem_iff hq hlt).1 ⟨Nat.le_add_right _ _, ?_⟩, slotByte_on_page _⟩
      exact Nat.add_lt_add_left (Nat.lt_of_not_le hslot) _
  cases access with
  | stateAt s =>
    obtain ⟨hpage, hoffset⟩ := hbucket s h
    exact ⟨hrange, hallowed, hpage, .inr hoffset⟩
  | writeSlot s state =>
    obtain ⟨hpage, hoffset⟩ := hbucket s h
    exact ⟨hrange, hallowed, hpage, .inr hoffset⟩
  | emitPage p binding stats =>
    refine ⟨hrange, hallowed, ?_, .inl ⟨p, binding, stats, rfl⟩⟩
    simp only [locate] at h
    cases hadd : Word.checkedAdd 64 range.firstPage p with
    | none => rw [hadd] at h; cases h
    | some sum =>
      obtain ⟨-, rfl⟩ := Word.checkedAdd_eq_some.1 hadd
      simp only [hadd, orOverflow, bind, Except.bind] at h
      obtain ⟨-, rfl, -⟩ : _ ∧ _ ∧ _ := by simpa using h
      exact ⟨Nat.le_add_right _ _, Nat.add_lt_add_left hallowed.2 _⟩

end Places

/-- A page is not found bad for being busy. -/
lemma IndexStorageCore.validateMappedPage_not_busy {crc : List UInt8 → BitVec 32}
    {core : IndexStorageCore} {page : ℕ} {error : IndexStorageError}
    (h : core.validateMappedPage crc page = .error error) : error.isBusy = false := by
  have hslots : ∀ {bytes : List UInt8} {first : ℕ} {slots : List ℕ},
      validatePageSlots bytes first slots = .error error → error.isBusy = false := by
    intro bytes first slots
    induction slots with
    | nil => intro hs; cases hs
    | cons slot slots ih =>
      intro hs
      unfold validatePageSlots at hs
      cases hindex : Word.checkedAdd 64 first slot with
      | none =>
        simp only [hindex, orOverflow, bind, Except.bind] at hs
        obtain rfl := Except.error.inj hs
        rfl
      | some index =>
        cases hinPage : Word.checkedMul 64 slot indexImageSlotSize with
        | none =>
          simp only [hindex, hinPage, orOverflow, bind, Except.bind] at hs
          obtain rfl := Except.error.inj hs
          rfl
        | some inPage =>
          cases hoffset : Word.checkedAdd 64 indexImagePageHeaderSize inPage with
          | none =>
            simp only [hindex, hinPage, hoffset, orOverflow, bind, Except.bind] at hs
            obtain rfl := Except.error.inj hs
            rfl
          | some offset =>
            simp only [hindex, hinPage, hoffset, orOverflow, bind, Except.bind] at hs
            cases hstate :
                (IndexSlot.decode (slice bytes offset indexImageSlotSize)).runtimeState with
            | error reason =>
              rw [hstate] at hs
              obtain rfl := Except.error.inj hs
              rfl
            | ok state =>
              rw [hstate] at hs
              exact ih hs
  unfold validateMappedPage at h
  cases hbinding : core.expectedBinding with
  | none =>
    rw [hbinding] at h
    obtain rfl := Except.error.inj h
    rfl
  | some binding =>
    cases hoffset : Word.checkedMul 64 page indexImagePageSize with
    | none =>
      simp only [hbinding, hoffset, orOverflow, bind, Except.bind] at h
      obtain rfl := Except.error.inj h
      rfl
    | some offset =>
      cases hfirst : Word.checkedMul 64 page indexImageSlotsPerPage with
      | none =>
        simp only [hbinding, hoffset, hfirst, orOverflow, bind, Except.bind] at h
        obtain rfl := Except.error.inj h
        rfl
      | some first =>
        simp only [hbinding, hoffset, hfirst, orOverflow, bind, Except.bind] at h
        cases hheader : validatePageHeader crc (slice core.bytes offset indexImagePageSize) page
            first (core.validSlotsInPage page) binding with
        | error reason =>
          rw [hheader] at h
          obtain rfl := Except.error.inj h
          rfl
        | ok u =>
          rw [hheader] at h
          exact hslots h

/-- A page that cannot be emitted is not found corrupt. -/
lemma emitPage_error {crc : List UInt8 → BitVec 32} {core : IndexStorageCore}
    {page rangeSlotCount : ℕ} {binding : IndexImageBinding} {stats : IndexPhysicalStats}
    {error : IndexStorageError}
    (h : emitPage crc core page rangeSlotCount binding stats = .error error) :
    error.isCorrupt = false := by
  have hslots : ∀ {slots : List ℕ} {acc : List UInt8 × IndexPhysicalStats},
      emitSlots core page rangeSlotCount slots acc = .error error → error.isCorrupt = false := by
    intro slots
    induction slots with
    | nil => intro acc hs; cases hs
    | cons slot slots ih =>
      intro acc hs
      obtain ⟨output, counted⟩ := acc
      unfold emitSlots at hs
      cases hoffset : IndexStorageCore.slotOffset page slot with
      | none =>
        simp only [hoffset, orOverflow, bind, Except.bind] at hs
        obtain rfl := Except.error.inj hs
        rfl
      | some offset =>
        simp only [hoffset, orOverflow, bind, Except.bind] at hs
        cases hstate : (core.decodeAt offset).runtimeState with
        | error reason =>
          rw [hstate] at hs
          obtain rfl := Except.error.inj hs
          rfl
        | ok state =>
          simp only [hstate] at hs
          cases hcount : counted.transitioned .empty (core.decodeAt offset).physicalKind
              rangeSlotCount with
          | none =>
            simp only [hcount, orInvalidStats] at hs
            obtain rfl := Except.error.inj hs
            rfl
          | some next =>
            simp only [hcount, orInvalidStats] at hs
            exact ih hs
  unfold emitPage at h
  cases hfirst : Word.checkedMul 64 page indexImageSlotsPerPage with
  | none =>
    simp only [hfirst, orOverflow, bind, Except.bind] at h
    obtain rfl := Except.error.inj h
    rfl
  | some first =>
    simp only [hfirst, orOverflow, bind, Except.bind] at h
    cases hheader : encodePageHeader (List.replicate indexImagePageSize 0) page first
        (core.validSlotsInPage page) binding with
    | error e =>
      simp only [hheader] at h
      obtain rfl := Except.error.inj h
      unfold encodePageHeader at hheader
      split_ifs at hheader
      obtain rfl := Except.error.inj hheader
      rfl
    | ok output =>
      simp only [hheader] at h
      cases hemit : emitSlots core page rangeSlotCount (List.range (core.validSlotsInPage page))
          (output, stats) with
      | error e =>
        simp only [hemit] at h
        obtain rfl := Except.error.inj h
        exact hslots hemit
      | ok result =>
        simp only [hemit] at h
        cases h

/-! ## The invariant -/

/-- What is known of an image as it is mapped. -/
structure MappedImage (ranges : List IndexPartitionRange) (mapped : IndexStorageCore) : Prop where
  /-- The partitions. -/
  ranges_eq : canonicalIndexPartitionRanges mapped.slotCount = .ok ranges
  /-- There are bytes for all pages. -/
  length_bytes : mapped.bytes.length = (mapped.slotCount + 503) / 504 * indexImagePageSize
  /-- There is a state for every page. -/
  length_pageStates : mapped.pageStates.length = (mapped.slotCount + 503) / 504
  /-- No page has been looked at. -/
  unchecked : ∀ (page : ℕ) (state : PageState),
    mapped.pageStates[page]? = some state → state = .unchecked
  /-- The image is usable. -/
  usable : mapped.imageRejected = false

/-- Somebody has found the page good. -/
def SharedImage.Checked (s : SharedImage) (page : ℕ) : Prop :=
  ∃ j b, b.page = page ∧ .validated j b (.ok ()) ∈ s.history

/-- The thread has a guard of the partition of the page. -/
def SharedImage.HoldsPage (ranges : List IndexPartitionRange) (s : SharedImage) (i page : ℕ) :
    Prop :=
  ∃ range ∈ ranges, range.HasPage page ∧ ∃ guard, (s.locks range.partitionId).Held i guard

/-- The bytes of a page. -/
def IndexStorageCore.pageBytes (core : IndexStorageCore) (page : ℕ) : List UInt8 :=
  slice core.bytes (page * indexImagePageSize) indexImagePageSize

/-- **What every reachable shared state satisfies**: a page that is being validated has been claimed
by a holder of its partition, a page that is not valid is as it was mapped, and every event of the
history was justified. -/
structure SharedImage.Invariant (crc : List UInt8 → BitVec 32)
    (ranges : List IndexPartitionRange) (mapped : IndexStorageCore) (s : SharedImage) : Prop where
  /-- The number of buckets stays. -/
  slotCount_eq : s.core.slotCount = mapped.slotCount
  /-- What pages are bound to stays. -/
  binding_eq : s.core.expectedBinding = mapped.expectedBinding
  /-- The number of bytes stays. -/
  length_bytes : s.core.bytes.length = mapped.bytes.length
  /-- The number of pages stays. -/
  length_pageStates : s.core.pageStates.length = mapped.pageStates.length
  /-- The write guard is the only guard. -/
  exclusive : ∀ q i, (s.locks q).writer = some i → (s.locks q).readers = ∅
  /-- Pages that are being validated have been claimed. -/
  claimed : ∀ p, s.core.pageStates[p]? = some .validating ↔ ∃ i, s.claimed p = some i
  /-- Who has claimed a page has a guard of its partition. -/
  holder : ∀ p i, s.claimed p = some i → s.HoldsPage ranges i p
  /-- Valid pages have been validated. -/
  checked : ∀ p, s.core.pageStates[p]? = some .valid → s.Checked p
  /-- Other pages are as they were mapped. -/
  unmodified : ∀ p, s.core.pageStates[p]? ≠ some .valid → s.core.pageBytes p = mapped.pageBytes p
  /-- A rejected page rejects the image. -/
  rejectedPage : ∀ p : ℕ, s.core.pageStates[p]? = some .rejected → s.core.imageRejected = true
  /-- The flag tells whether the image has been rejected. -/
  flag : s.core.imageRejected = true ↔ ¬ Usable s.history
  /-- The history. -/
  justified : ∀ e h, (e :: h) <:+ s.history → e.Justified crc mapped h

namespace Accessor

/-- The access that the thread is in. -/
def access : Accessor → Option PageAccess
  | idle => none
  | loading a | claiming a | retrying a | validating a | validated a | rechecking a => some a
  | rejecting a _ | rejected a _ | admitted a | decoded a _ | corrupt a _ | written a => some a

/-- The page that the thread validates. -/
def validates : Accessor → Option ℕ
  | validating a | validated a | rejecting a _ | rejected a _ => some a.page
  | _ => none

/-- The access whose page the thread has seen to be valid. -/
def passed : Accessor → Option PageAccess
  | rechecking a | admitted a | decoded a _ | corrupt a _ | written a => some a
  | _ => none

/-- Why the thread rejects the image. -/
def failure : Accessor → Option IndexStorageError
  | rejecting _ error | rejected _ error => some error
  | _ => none

/-- What the thread has done last. -/
def latest (i : ℕ) : Accessor → Option ImageEvent
  | idle => none
  | loading a | claiming a | retrying a | validating a => some (.began i a)
  | validated a | rechecking a => some (.validated i a (.ok ()))
  | rejecting a error => some (.validated i a (.error error))
  | rejected _ _ => some (.rejected i)
  | admitted a | decoded a _ | corrupt a _ => some (.admitted i a)
  | written a => some (.wrote i a)

/-- **What every thread satisfies**, wherever it stands. -/
structure Invariant (ranges : List IndexPartitionRange) (i : ℕ) (s : SharedImage) (t : Accessor) :
    Prop where
  /-- It has the guard of its access. -/
  held : ∀ a, t.access = some a → (s.locks a.range.partitionId).Held i a.guard
  /-- Its access has its place. -/
  located : ∀ a, t.access = some a → a.Located ranges
  /-- It has claimed the page that it validates. -/
  claims : ∀ p, s.claimed p = some i ↔ t.validates = some p
  /-- A page that it has seen to be valid stays so. -/
  valid : ∀ a, t.passed = some a → s.core.pageStates[a.page]? = some .valid
  /-- A page is not rejected for being busy. -/
  failure : ∀ error, t.failure = some error → error.isBusy = false
  /-- The history knows what it has done last. -/
  latest : ∀ e, t.latest i = some e → ImageEvent.latest s.history i = some e
  /-- When it has found a page bad, it is about to reject the image. -/
  pending : ∀ a error, ImageEvent.latest s.history i = some (.validated i a (.error error)) →
    t = .rejecting a error

end Accessor

/-- What a thread may rely on while others act. -/
structure SharedImage.Rely (i : ℕ) (s s' : SharedImage) : Prop where
  /-- Its guards. -/
  held : ∀ q guard, (s.locks q).Held i guard → (s'.locks q).Held i guard
  /-- Its claims. -/
  claims : ∀ p, s'.claimed p = some i ↔ s.claimed p = some i
  /-- Valid pages. -/
  valid : ∀ p : ℕ, s.core.pageStates[p]? = some .valid → s'.core.pageStates[p]? = some .valid
  /-- Its events. -/
  latest : ImageEvent.latest s'.history i = ImageEvent.latest s.history i

namespace SharedImage

variable {crc : List UInt8 → BitVec 32} {ranges : List IndexPartitionRange}
  {mapped : IndexStorageCore} {s s' : SharedImage} {t : Accessor} {i j page : ℕ}

/-- What others do leaves a thread's invariant as it is. -/
lemma Rely.invariant (h : Rely i s s') (ht : t.Invariant ranges i s) : t.Invariant ranges i s' where
  held a ha := h.held _ _ (ht.held a ha)
  located := ht.located
  claims p := (h.claims p).trans (ht.claims p)
  valid a ha := h.valid _ (ht.valid a ha)
  failure := ht.failure
  latest e he := h.latest.trans (ht.latest e he)
  pending a error hl := ht.pending a error (h.latest.symm.trans hl)

lemma Rely.refl (i : ℕ) (s : SharedImage) : Rely i s s :=
  ⟨fun _ _ => id, fun _ => Iff.rfl, fun _ => id, rfl⟩

lemma Rely.trans {s'' : SharedImage} (h : Rely i s s') (h' : Rely i s' s'') : Rely i s s'' :=
  ⟨fun q guard hq => h'.held q guard (h.held q guard hq),
    fun p => (h'.claims p).trans (h.claims p), fun p hp => h'.valid p (h.valid p hp),
    h'.latest.trans h.latest⟩

/-! ### Events -/

/-- A page that was found good was. -/
lemma Checked.log (h : s.Checked page) (e : ImageEvent) : (s.log e).Checked page := by
  obtain ⟨j, b, hb, hm⟩ := h
  exact ⟨j, b, hb, List.mem_cons_of_mem _ hm⟩

/-- A justified event. -/
lemma Invariant.log (h : s.Invariant crc ranges mapped) {e : ImageEvent}
    (hj : e.Justified crc mapped s.history) (he : ∀ j, e ≠ .rejected j) :
    (s.log e).Invariant crc ranges mapped where
  slotCount_eq := h.slotCount_eq
  binding_eq := h.binding_eq
  length_bytes := h.length_bytes
  length_pageStates := h.length_pageStates
  exclusive := h.exclusive
  claimed := h.claimed
  holder := h.holder
  checked p hp := (h.checked p hp).log e
  unmodified := h.unmodified
  rejectedPage := h.rejectedPage
  flag := h.flag.trans (not_congr ⟨fun hu => hu.cons he, Usable.of_cons⟩)
  justified e' h' hs := by
    rcases List.suffix_cons_iff.1 hs with heq | hs
    · obtain ⟨rfl, rfl⟩ := List.cons.inj heq
      exact hj
    · exact h.justified e' h' hs

lemma Rely.log {e : ImageEvent} (he : e.thread ≠ i) : Rely i s (s.log e) :=
  ⟨fun _ _ => id, fun _ => Iff.rfl, fun _ => id, latest_cons_ne he⟩

/-- The rejection of the image. -/
lemma Invariant.rejectImage (h : s.Invariant crc ranges mapped) (i : ℕ) :
    (s.rejectImage i).Invariant crc ranges mapped where
  slotCount_eq := h.slotCount_eq
  binding_eq := h.binding_eq
  length_bytes := h.length_bytes
  length_pageStates := h.length_pageStates
  exclusive := h.exclusive
  claimed := h.claimed
  holder := h.holder
  checked p hp := (h.checked p hp).log _
  unmodified := h.unmodified
  rejectedPage _ _ := rfl
  flag := iff_of_true rfl fun hu => hu i List.mem_cons_self
  justified e' h' hs := by
    rcases List.suffix_cons_iff.1 hs with heq | hs
    · obtain ⟨rfl, rfl⟩ := List.cons.inj heq
      trivial
    · exact h.justified e' h' hs

lemma Rely.rejectImage (hij : j ≠ i) : Rely i s (s.rejectImage j) :=
  ⟨fun _ _ => id, fun _ => Iff.rfl, fun _ => id, latest_cons_ne hij⟩

/-! ### Page states -/

/-- Page states after a store. -/
lemma storePageState_getElem (hlt : page < s.core.pageStates.length) (state : PageState)
    (claim : Option ℕ) (p : ℕ) : (s.storePageState page state claim).core.pageStates[p]? =
      if p = page then some state else s.core.pageStates[p]? := by
  by_cases hp : p = page
  · subst hp
    simp [storePageState, hlt]
  · simp [storePageState, hp, List.getElem?_set_ne (Ne.symm hp)]

/-- Claims after a store. -/
lemma storePageState_claimed (state : PageState) (claim : Option ℕ) (p : ℕ) :
    (s.storePageState page state claim).claimed p = if p = page then claim else s.claimed p := by
  by_cases hp : p = page
  · simp [storePageState, hp]
  · simp [storePageState, hp]

/-- A store to a page that is not valid. -/
lemma Invariant.storePageState (h : s.Invariant crc ranges mapped)
    (hlt : page < s.core.pageStates.length) (hnot : s.core.pageStates[page]? ≠ some .valid)
    {state : PageState} {claim : Option ℕ} (hstate : state = .validating ↔ ∃ i, claim = some i)
    (hclaim : ∀ i, claim = some i → s.HoldsPage ranges i page)
    (hvalid : state = .valid → s.Checked page)
    (hrejected : state = .rejected → s.core.imageRejected = true) :
    (s.storePageState page state claim).Invariant crc ranges mapped where
  slotCount_eq := h.slotCount_eq
  binding_eq := h.binding_eq
  length_bytes := h.length_bytes
  length_pageStates := List.length_set.trans h.length_pageStates
  exclusive := h.exclusive
  claimed p := by
    rw [storePageState_getElem hlt, storePageState_claimed]
    by_cases hp : p = page
    · simpa [hp] using hstate
    · simpa [hp] using h.claimed p
  holder p i hi := by
    rw [storePageState_claimed] at hi
    by_cases hp : p = page
    · rw [if_pos hp] at hi
      exact hp ▸ hclaim i hi
    · rw [if_neg hp] at hi
      exact h.holder p i hi
  checked p hp := by
    rw [storePageState_getElem hlt] at hp
    by_cases hpage : p = page
    · rw [if_pos hpage] at hp
      exact hpage ▸ hvalid (Option.some.inj hp)
    · rw [if_neg hpage] at hp
      exact h.checked p hp
  unmodified p hp := by
    rw [storePageState_getElem hlt] at hp
    by_cases hpage : p = page
    · rw [hpage]
      exact h.unmodified page hnot
    · rw [if_neg hpage] at hp
      exact h.unmodified p hp
  rejectedPage p hp := by
    rw [storePageState_getElem hlt] at hp
    by_cases hpage : p = page
    · rw [if_pos hpage] at hp
      exact hrejected (Option.some.inj hp)
    · rw [if_neg hpage] at hp
      exact h.rejectedPage p hp
  flag := h.flag
  justified := h.justified

lemma Rely.storePageState (hlt : page < s.core.pageStates.length)
    (hnot : s.core.pageStates[page]? ≠ some .valid) {state : PageState} {claim : Option ℕ}
    (hclaim : claim ≠ some i) (hclaimed : s.claimed page ≠ some i) :
    Rely i s (s.storePageState page state claim) := by
  refine ⟨fun _ _ => id, fun p => ?_, fun p hp => ?_, rfl⟩
  · rw [storePageState_claimed]
    by_cases hpage : p = page
    · simp [hpage, hclaim, hclaimed]
    · rw [if_neg hpage]
  · rw [storePageState_getElem hlt, if_neg]
    · exact hp
    · intro hpage
      exact hnot (hpage ▸ hp)

/-! ### Bytes -/

/-- A bucket of a valid page is replaced. -/
lemma Invariant.copySlot (h : s.Invariant crc ranges mapped)
    (hvalid : s.core.pageStates[page]? = some .valid) {offset : ℕ} (value : IndexSlot)
    (hfirst : page * indexImagePageSize ≤ offset)
    (hlast : offset + indexImageSlotSize ≤ page * indexImagePageSize + indexImagePageSize)
    (hbytes : page * indexImagePageSize + indexImagePageSize ≤ s.core.bytes.length) :
    (s.copySlot offset value).Invariant crc ranges mapped where
  slotCount_eq := h.slotCount_eq
  binding_eq := h.binding_eq
  length_bytes := by
    refine (length_splice ?_).trans h.length_bytes
    rw [IndexSlot.length_encode]
    exact hlast.trans hbytes
  length_pageStates := h.length_pageStates
  exclusive := h.exclusive
  claimed := h.claimed
  holder := h.holder
  checked := h.checked
  unmodified p hp := by
    have hne : p ≠ page := by
      intro hpage
      exact hp (hpage ▸ hvalid)
    have hlen : offset + value.encode.length ≤ s.core.bytes.length := by
      rw [IndexSlot.length_encode]
      exact hlast.trans hbytes
    refine Eq.trans ?_ (h.unmodified p hp)
    rcases Nat.lt_or_gt_of_ne hne with hlt | hgt
    · refine slice_splice_before hlen (Nat.le_trans ?_ hfirst)
      calc p * indexImagePageSize + indexImagePageSize = (p + 1) * indexImagePageSize :=
            (Nat.succ_mul _ _).symm
        _ ≤ page * indexImagePageSize := Nat.mul_le_mul_right _ hlt
    · refine slice_splice_after hlen ?_
      rw [IndexSlot.length_encode]
      calc offset + 8 ≤ page * indexImagePageSize + indexImagePageSize := hlast
        _ = (page + 1) * indexImagePageSize := (Nat.succ_mul _ _).symm
        _ ≤ p * indexImagePageSize := Nat.mul_le_mul_right _ hgt
  rejectedPage := h.rejectedPage
  flag := h.flag
  justified := h.justified

lemma Rely.copySlot (offset : ℕ) (value : IndexSlot) : Rely i s (s.copySlot offset value) :=
  ⟨fun _ _ => id, fun _ => Iff.rfl, fun _ => id, rfl⟩

/-! ### Actions -/

/-- What an action of the thread `i` guarantees. -/
structure Guarantee (crc : List UInt8 → BitVec 32) (ranges : List IndexPartitionRange)
    (mapped : IndexStorageCore) (i : ℕ) (s : SharedImage) (r : SharedImage × Accessor) : Prop where
  /-- The shared invariant. -/
  shared : r.1.Invariant crc ranges mapped
  /-- The thread's own one. -/
  thread : r.2.Invariant ranges i r.1
  /-- What others rely on. -/
  others : ∀ j, j ≠ i → Rely j s r.1

/-- What happens after a change that others may rely on. -/
lemma Guarantee.after {r : SharedImage × Accessor} (hrely : ∀ j, j ≠ i → Rely j s s')
    (h : Guarantee crc ranges mapped i s' r) : Guarantee crc ranges mapped i s r :=
  ⟨h.shared, h.thread, fun j hj => (hrely j hj).trans (h.others j hj)⟩

/-- A thread that has claimed nothing and has nothing to reject may be idle. -/
lemma idle_invariant (hclaims : ∀ p, s.claimed p ≠ some i)
    (hlatest : ∀ a error, ImageEvent.latest s.history i ≠ some (.validated i a (.error error))) :
    Accessor.Invariant ranges i s .idle where
  held := nofun
  located := nofun
  claims p := iff_of_false (hclaims p) nofun
  valid := nofun
  failure := nofun
  latest := nofun
  pending a error h := absurd h (hlatest a error)

/-- An access ends with an event. -/
lemma Guarantee.finish (h : s.Invariant crc ranges mapped) (hclaims : ∀ p, s.claimed p ≠ some i)
    {e : ImageEvent} (he : e.thread = i) (hj : e.Justified crc mapped s.history)
    (hrejected : ∀ j, e ≠ .rejected j) (hvalidated : ∀ a result, e ≠ .validated i a result) :
    Guarantee crc ranges mapped i s (s.log e, .idle) where
  shared := h.log hj hrejected
  thread := idle_invariant hclaims (latest_cons_ne_validated he hvalidated)
  others _ hj := Rely.log (he ▸ hj.symm)

/-- An access fails. -/
lemma Guarantee.fail (h : s.Invariant crc ranges mapped) (hclaims : ∀ p, s.claimed p ≠ some i)
    {guard : PartitionGuard} {error : IndexStorageError}
    (hcorrupt : error.isCorrupt = true → s.core.imageRejected = true)
    (hbusy : guard = .write → error.isBusy = false) :
    Guarantee crc ranges mapped i s (s.log (.failed i guard error), .idle) :=
  Guarantee.finish h hclaims rfl ⟨fun hc => h.flag.1 (hcorrupt hc), hbusy⟩ nofun nofun

/-- An access goes on if the image is usable, and fails otherwise. -/
lemma Guarantee.ensureImageUsable (h : s.Invariant crc ranges mapped)
    (hclaims : ∀ p, s.claimed p ≠ some i) {a : PageAccess} {next : SharedImage × Accessor}
    (hnext : Usable s.history → Guarantee crc ranges mapped i s next) :
    Guarantee crc ranges mapped i s (s.ensureImageUsable i a next) := by
  rw [SharedImage.ensureImageUsable]
  by_cases hflag : s.core.imageRejected = true
  · rw [if_pos hflag]
    exact Guarantee.fail h hclaims (fun _ => hflag) fun _ => rfl
  · rw [if_neg hflag]
    exact hnext (not_not.1 fun hnot => hflag (h.flag.2 hnot))

/-- A change of a lock that leaves the guards of others alone. -/
lemma Guarantee.setLock (h : s.Invariant crc ranges mapped)
    (ht : Accessor.Invariant ranges i s .idle)
    {q : ℕ} {lock : PartitionLock} (hexclusive : ∀ j, lock.writer = some j → lock.readers = ∅)
    (hheld : ∀ j guard, j ≠ i → (s.locks q).Held j guard → lock.Held j guard) :
    Guarantee crc ranges mapped i s (s.setLock q lock, .idle) := by
  have hlocks : ∀ p, (s.setLock q lock).locks p = if p = q then lock else s.locks p := by
    intro p
    by_cases hp : p = q
    · simp [SharedImage.setLock, hp]
    · simp [SharedImage.setLock, hp]
  have hothers : ∀ j guard p, j ≠ i → (s.locks p).Held j guard →
      ((s.setLock q lock).locks p).Held j guard := by
    intro j guard p hj hp
    rw [hlocks]
    by_cases hpq : p = q
    · rw [if_pos hpq]
      exact hheld j guard hj (hpq ▸ hp)
    · rw [if_neg hpq]
      exact hp
  have hclaims : ∀ p, s.claimed p ≠ some i := fun p hp => nomatch (ht.claims p).1 hp
  refine ⟨⟨h.slotCount_eq, h.binding_eq, h.length_bytes, h.length_pageStates, fun p j hp => ?_,
    h.claimed, fun p j hj => ?_, h.checked, h.unmodified, h.rejectedPage, h.flag, h.justified⟩,
    idle_invariant hclaims fun a error hl => (nomatch ht.pending a error hl),
    fun j hj => ⟨fun p guard hp => hothers j guard p hj hp, fun p => Iff.rfl, fun p hp => hp, rfl⟩⟩
  · rw [hlocks] at hp ⊢
    by_cases hpq : p = q
    · rw [if_pos hpq] at hp ⊢
      exact hexclusive j hp
    · rw [if_neg hpq] at hp ⊢
      exact h.exclusive p j hp
  · obtain ⟨range, hrange, hpage, guard, hguard⟩ := h.holder p j hj
    have hji : j ≠ i := by
      intro heq
      exact hclaims p (heq ▸ hj)
    exact ⟨range, hrange, hpage, guard, hothers j guard _ hji hguard⟩

/-- **The start of an access.** -/
lemma Guarantee.start (hmapped : MappedImage ranges mapped) (h : s.Invariant crc ranges mapped)
    (ht : Accessor.Invariant ranges i s .idle) {range : IndexPartitionRange}
    {guard : PartitionGuard} {access : SlotAccess} (hrange : range ∈ ranges)
    (hheld : (s.locks range.partitionId).Held i guard) (hallowed : access.Allowed range guard) :
    Guarantee crc ranges mapped i s (s.start i range guard access) := by
  have hclaims : ∀ p, s.claimed p ≠ some i := fun p hp => nomatch (ht.claims p).1 hp
  rw [SharedImage.start]
  cases hlocate : access.locate range s.core with
  | error error =>
    obtain ⟨hcorrupt, hbusy⟩ := SlotAccess.locate_error hlocate
    exact Guarantee.fail h hclaims (fun hc => by rw [hcorrupt] at hc; cases hc) fun _ => hbusy
  | ok place =>
    obtain ⟨slot, page, offset⟩ := place
    simp only
    by_cases hpage : s.core.pageStates.length ≤ page
    · rw [if_pos hpage]
      exact Guarantee.fail h hclaims nofun fun _ => rfl
    · rw [if_neg hpage]
      refine Guarantee.ensureImageUsable h hclaims fun husable => ?_
      have hlocated := SlotAccess.locate_ok hmapped.ranges_eq hrange h.slotCount_eq hallowed hlocate
      refine ⟨h.log husable nofun, ⟨?_, ?_, ?_, nofun, nofun, ?_, ?_⟩,
        fun j hj => Rely.log (Ne.symm hj)⟩
      · rintro b ⟨⟩
        exact hheld
      · rintro b ⟨⟩
        exact hlocated
      · exact fun p => iff_of_false (hclaims p) nofun
      · rintro e ⟨⟩
        exact latest_cons_self rfl
      · exact fun b error hl =>
          absurd hl (latest_cons_ne_validated (e := .began i _) rfl nofun b error)

/-- The page of an access is in the image. -/
lemma page_lt (hmapped : MappedImage ranges mapped) {a : PageAccess} (ha : a.Located ranges) :
    a.page < (mapped.slotCount + 503) / 504 := by
  obtain ⟨-, -, -, hchain⟩ := canonicalIndexPartitionRanges_chain hmapped.ranges_eq
  obtain ⟨q, hq, heq⟩ := List.getElem_of_mem ha.range_mem
  have hpage := ha.hasPage
  rw [← heq] at hpage
  exact hpage.2.trans_le (hchain.getElem q hq).2.2.2.1

/-- **Loading the page's state.** With the write guard nobody else validates the page: who has
claimed it has a guard of its partition. -/
lemma Guarantee.loading (hmapped : MappedImage ranges mapped) (h : s.Invariant crc ranges mapped)
    {a : PageAccess} (ht : Accessor.Invariant ranges i s (.loading a)) :
    Guarantee crc ranges mapped i s (Accessor.step crc i s (.loading a)) ∧
      (a.guard = .write → s.core.pageStates[a.page]? ≠ some .validating) := by
  have hclaims : ∀ p, s.claimed p ≠ some i := fun p hp => nomatch (ht.claims p).1 hp
  have hbusy : a.guard = .write → s.core.pageStates[a.page]? ≠ some .validating := by
    intro hguard hvalidating
    obtain ⟨j, hj⟩ := (h.claimed _).1 hvalidating
    obtain ⟨range, hrange, hpage, guard, hheld⟩ := h.holder _ j hj
    have hlocated := ht.located a rfl
    have hmine := ht.held a rfl
    obtain rfl := range_unique hmapped.ranges_eq hrange hlocated.range_mem hpage hlocated.hasPage
    rw [hguard] at hmine
    have hji : j = i := by
      cases guard with
      | read =>
        have hreaders := h.exclusive _ _ hmine
        rw [PartitionLock.Held, hreaders] at hheld
        exact absurd hheld (Finset.notMem_empty j)
      | write => exact Option.some.inj (hheld.symm.trans hmine)
    exact hclaims _ (hji ▸ hj)
  refine ⟨?_, hbusy⟩
  cases hstate : s.core.pageStates[a.page]? with
  | none =>
    simp only [Accessor.step, hstate]
    exact Guarantee.fail h hclaims nofun fun _ => rfl
  | some state =>
    cases state with
    | valid =>
      simp only [Accessor.step, hstate]
      refine ⟨h.log ⟨h.checked _ hstate, .inl (ht.latest _ rfl)⟩ nofun,
        ⟨ht.held, ht.located, ht.claims, ?_, nofun, ?_,
          fun b error hl =>
            absurd hl (latest_cons_ne_validated (e := .admitted i a) rfl nofun b error)⟩,
        fun j hj => Rely.log hj.symm⟩
      · rintro b ⟨⟩
        exact hstate
      · rintro e ⟨⟩
        exact latest_cons_self rfl
    | rejected =>
      simp only [Accessor.step, hstate]
      exact Guarantee.fail h hclaims (fun _ => h.rejectedPage _ hstate) fun _ => rfl
    | unchecked =>
      simp only [Accessor.step, hstate]
      exact ⟨h, ⟨ht.held, ht.located, ht.claims, nofun, nofun, ht.latest,
        fun b error hl => nomatch ht.pending b error hl⟩, fun j _ => Rely.refl j s⟩
    | validating =>
      simp only [Accessor.step, hstate]
      exact Guarantee.fail h hclaims nofun fun hguard => absurd hstate (hbusy hguard)

/-- **Claiming the page.** -/
lemma Guarantee.claiming (h : s.Invariant crc ranges mapped) {a : PageAccess}
    (ht : Accessor.Invariant ranges i s (.claiming a)) :
    Guarantee crc ranges mapped i s (Accessor.step crc i s (.claiming a)) := by
  have hclaims : ∀ p, s.claimed p ≠ some i := fun p hp => nomatch (ht.claims p).1 hp
  rw [Accessor.step]
  by_cases hstate : s.core.pageStates[a.page]? = some .unchecked
  · rw [if_pos hstate]
    obtain ⟨hlt, -⟩ := List.getElem?_eq_some_iff.1 hstate
    have hnot : s.core.pageStates[a.page]? ≠ some .valid := by
      rw [hstate]
      nofun
    have hfree : ∀ j, s.claimed a.page ≠ some j := by
      intro j hj
      have hvalidating := (h.claimed a.page).2 ⟨j, hj⟩
      rw [hstate] at hvalidating
      cases hvalidating
    have hlocated := ht.located a rfl
    refine ⟨h.storePageState hlt hnot (iff_of_true rfl ⟨i, rfl⟩) ?_ nofun nofun,
      ⟨ht.held, ht.located, fun p => ?_, nofun, nofun, ht.latest,
        fun b error hl => nomatch ht.pending b error hl⟩,
      fun j hj => Rely.storePageState hlt hnot (fun heq => hj (Option.some.inj heq).symm) (hfree j)⟩
    · rintro j ⟨⟩
      exact ⟨a.range, hlocated.range_mem, hlocated.hasPage, a.guard, ht.held a rfl⟩
    · rw [storePageState_claimed]
      by_cases hp : p = a.page
      · simp [hp, Accessor.validates]
      · rw [if_neg hp]
        exact iff_of_false (hclaims p) fun heq => hp (Option.some.inj heq).symm
  · rw [if_neg hstate]
    exact ⟨h, ⟨ht.held, ht.located, ht.claims, nofun, nofun, ht.latest,
      fun b error hl => nomatch ht.pending b error hl⟩, fun j _ => Rely.refl j s⟩

/-- **The head of the loop**, again. -/
lemma Guarantee.retrying (h : s.Invariant crc ranges mapped) {a : PageAccess}
    (ht : Accessor.Invariant ranges i s (.retrying a)) :
    Guarantee crc ranges mapped i s (Accessor.step crc i s (.retrying a)) := by
  have hclaims : ∀ p, s.claimed p ≠ some i := fun p hp => nomatch (ht.claims p).1 hp
  refine Guarantee.ensureImageUsable h hclaims fun _ => ?_
  exact ⟨h, ⟨ht.held, ht.located, ht.claims, nofun, nofun, ht.latest,
    fun b error hl => nomatch ht.pending b error hl⟩, fun j _ => Rely.refl j s⟩

/-- A page that is being validated is as it was mapped. -/
lemma Invariant.validate_eq (h : s.Invariant crc ranges mapped)
    (hstate : s.core.pageStates[page]? = some .validating) :
    s.core.validateMappedPage crc page = mapped.validateMappedPage crc page := by
  refine IndexStorageCore.validateMappedPage_congr h.slotCount_eq h.binding_eq
    (h.unmodified page ?_)
  rw [hstate]
  nofun

/-- **Validating the page.** -/
lemma Guarantee.validating (h : s.Invariant crc ranges mapped) {a : PageAccess}
    (ht : Accessor.Invariant ranges i s (.validating a)) :
    Guarantee crc ranges mapped i s (Accessor.step crc i s (.validating a)) := by
  have hstate := (h.claimed a.page).2 ⟨i, (ht.claims a.page).2 rfl⟩
  have hresult := h.validate_eq hstate
  have hj : ∀ result, s.core.validateMappedPage crc a.page = result →
      (ImageEvent.validated i a result).Justified crc mapped s.history := fun result hr =>
    ⟨hr.symm.trans hresult, ht.latest _ rfl⟩
  simp only [Accessor.step]
  cases hv : s.core.validateMappedPage crc a.page with
  | ok u =>
    have hlatest : ImageEvent.latest (s.log (.validated i a (.ok u))).history i =
        some (.validated i a (.ok u)) := latest_cons_self rfl
    refine ⟨h.log (hj _ hv) nofun, ⟨ht.held, ht.located, ht.claims, nofun, nofun, ?_, ?_⟩,
      fun j hj => Rely.log hj.symm⟩
    · rintro e ⟨⟩
      exact hlatest
    · intro b error hl
      cases hlatest.symm.trans hl
  | error error =>
    have hlatest : ImageEvent.latest (s.log (.validated i a (.error error))).history i =
        some (.validated i a (.error error)) := latest_cons_self rfl
    refine ⟨h.log (hj _ hv) nofun, ⟨ht.held, ht.located, ht.claims, nofun, ?_, ?_, ?_⟩,
      fun j hj => Rely.log hj.symm⟩
    · rintro e ⟨⟩
      exact IndexStorageCore.validateMappedPage_not_busy hv
    · rintro e ⟨⟩
      exact hlatest
    · intro b e hl
      cases hlatest.symm.trans hl
      rfl

/-- What a thread has done last is in the history. -/
lemma mem_of_latest {history : List ImageEvent} {e : ImageEvent}
    (h : ImageEvent.latest history i = some e) : e ∈ history := List.mem_of_find?_eq_some h

/-- A claimed page is in the table of states, and is not valid. -/
lemma Invariant.claimed_page (h : s.Invariant crc ranges mapped)
    (hclaimed : s.claimed page = some i) :
    page < s.core.pageStates.length ∧ s.core.pageStates[page]? ≠ some .valid ∧
      ∀ j, j ≠ i → s.claimed page ≠ some j := by
  have hstate := (h.claimed page).2 ⟨i, hclaimed⟩
  obtain ⟨hlt, -⟩ := List.getElem?_eq_some_iff.1 hstate
  refine ⟨hlt, ?_, fun j hj heq => ?_⟩
  · rw [hstate]
    nofun
  · exact hj (Option.some.inj (heq.symm.trans hclaimed))

/-- After its page's state is stored, the thread has claimed nothing. -/
lemma released {a : PageAccess} {state : PageState}
    (hclaims : ∀ p, s.claimed p = some i ↔ some a.page = some p) (p : ℕ) :
    (s.storePageState a.page state none).claimed p ≠ some i := by
  rw [storePageState_claimed]
  by_cases hp : p = a.page
  · simp [hp]
  · rw [if_neg hp]
    intro heq
    exact hp (Option.some.inj ((hclaims p).1 heq)).symm

/-- **Storing that the page is valid.** -/
lemma Guarantee.validated (h : s.Invariant crc ranges mapped) {a : PageAccess}
    (ht : Accessor.Invariant ranges i s (.validated a)) :
    Guarantee crc ranges mapped i s (Accessor.step crc i s (.validated a)) := by
  obtain ⟨hlt, hnot, hothers⟩ := h.claimed_page ((ht.claims a.page).2 rfl)
  refine ⟨h.storePageState hlt hnot (by simp) nofun (fun _ => ?_) nofun,
    ⟨ht.held, ht.located, fun p => iff_of_false (released ht.claims p) nofun, ?_, nofun, ht.latest,
      fun b error hl => nomatch ht.pending b error hl⟩,
    fun j hj => Rely.storePageState hlt hnot nofun (hothers j hj)⟩
  · exact ⟨i, a, rfl, mem_of_latest (ht.latest _ rfl)⟩
  · rintro b ⟨⟩
    rw [Accessor.step, storePageState_getElem hlt, if_pos rfl]

/-- **Reading the flag again** after the validation. -/
lemma Guarantee.rechecking (h : s.Invariant crc ranges mapped) {a : PageAccess}
    (ht : Accessor.Invariant ranges i s (.rechecking a)) :
    Guarantee crc ranges mapped i s (Accessor.step crc i s (.rechecking a)) := by
  have hclaims : ∀ p, s.claimed p ≠ some i := fun p hp => nomatch (ht.claims p).1 hp
  refine Guarantee.ensureImageUsable h hclaims fun _ => ?_
  refine ⟨h.log ⟨h.checked _ (ht.valid a rfl), .inr (ht.latest _ rfl)⟩ nofun,
    ⟨ht.held, ht.located, ht.claims, ht.valid, nofun, ?_,
      fun b error hl =>
        absurd hl (latest_cons_ne_validated (e := .admitted i a) rfl nofun b error)⟩,
    fun j hj => Rely.log hj.symm⟩
  rintro e ⟨⟩
  exact latest_cons_self rfl

/-- **Rejecting the image.** -/
lemma Guarantee.rejecting (h : s.Invariant crc ranges mapped) {a : PageAccess}
    {error : IndexStorageError} (ht : Accessor.Invariant ranges i s (.rejecting a error)) :
    Guarantee crc ranges mapped i s (Accessor.step crc i s (.rejecting a error)) := by
  refine ⟨h.rejectImage i, ⟨ht.held, ht.located, ht.claims, nofun, ht.failure, ?_,
    fun b e hl => absurd hl (latest_cons_ne_validated (e := .rejected i) rfl nofun b e)⟩,
    fun j hj => Rely.rejectImage hj.symm⟩
  rintro e ⟨⟩
  exact latest_cons_self rfl

/-- **Storing that the page is rejected.** -/
lemma Guarantee.rejected (h : s.Invariant crc ranges mapped) {a : PageAccess}
    {error : IndexStorageError} (ht : Accessor.Invariant ranges i s (.rejected a error)) :
    Guarantee crc ranges mapped i s (Accessor.step crc i s (.rejected a error)) := by
  obtain ⟨hlt, hnot, hothers⟩ := h.claimed_page ((ht.claims a.page).2 rfl)
  have hflag : s.core.imageRejected = true :=
    h.flag.2 fun husable => husable i (mem_of_latest (ht.latest _ rfl))
  have hstored : (s.storePageState a.page .rejected none).Invariant crc ranges mapped :=
    h.storePageState hlt hnot (by simp) nofun nofun fun _ => hflag
  have hrely : ∀ j, j ≠ i → Rely j s (s.storePageState a.page .rejected none) := fun j hj =>
    Rely.storePageState hlt hnot nofun (hothers j hj)
  refine Guarantee.after hrely ?_
  exact Guarantee.fail hstored (released ht.claims) (fun _ => hflag) fun _ => ht.failure _ rfl

/-- **Reading, replacing or emitting.** -/
lemma Guarantee.admitted (hmapped : MappedImage ranges mapped) (h : s.Invariant crc ranges mapped)
    {a : PageAccess} (ht : Accessor.Invariant ranges i s (.admitted a)) :
    Guarantee crc ranges mapped i s (Accessor.step crc i s (.admitted a)) := by
  have hclaims : ∀ p, s.claimed p ≠ some i := fun p hp => nomatch (ht.claims p).1 hp
  have hlatest := ht.latest _ rfl
  obtain ⟨-, hallowed, -, hoffset⟩ := ht.located a rfl
  cases haccess : a.access with
  | stateAt slot =>
    simp only [Accessor.step, haccess]
    cases (s.core.decodeAt a.offset).runtimeState with
    | ok state =>
      exact ⟨h, ⟨ht.held, ht.located, ht.claims, ht.valid, nofun, ht.latest,
        fun b error hl => nomatch ht.pending b error hl⟩, fun j _ => Rely.refl j s⟩
    | error reason =>
      exact ⟨h, ⟨ht.held, ht.located, ht.claims, ht.valid, nofun, ht.latest,
        fun b error hl => nomatch ht.pending b error hl⟩, fun j _ => Rely.refl j s⟩
  | writeSlot slot state =>
    simp only [Accessor.step, haccess]
    obtain ⟨hfirst, hlast⟩ := hoffset.resolve_left (by simp [haccess])
    have hbytes : a.page * indexImagePageSize + indexImagePageSize ≤ s.core.bytes.length := by
      rw [h.length_bytes, hmapped.length_bytes, ← Nat.succ_mul]
      exact Nat.mul_le_mul_right _ (page_lt hmapped (ht.located a rfl))
    have hcopied := h.copySlot (ht.valid a rfl) (IndexSlot.fromState state) hfirst hlast hbytes
    refine ⟨hcopied.log hlatest nofun, ⟨ht.held, ht.located, ht.claims, ht.valid, nofun, ?_,
      fun b error hl => absurd hl (latest_cons_ne_validated (e := .wrote i a) rfl nofun b error)⟩,
      fun j hj => (Rely.copySlot _ _).trans (Rely.log hj.symm)⟩
    rintro e ⟨⟩
    exact latest_cons_self rfl
  | emitPage page binding stats =>
    simp only [Accessor.step, haccess]
    cases hemit : emitPage crc s.core a.page a.range.slotCount binding stats with
    | ok result => exact Guarantee.finish h hclaims rfl hlatest nofun nofun
    | error error =>
      rw [haccess] at hallowed
      refine Guarantee.fail h hclaims (fun hc => ?_) fun hguard => ?_
      · rw [emitPage_error hemit] at hc
        cases hc
      · rw [hallowed.1] at hguard
        cases hguard

/-- **Returning a bucket.** -/
lemma Guarantee.decoded (h : s.Invariant crc ranges mapped) {a : PageAccess}
    {state : IndexSlotState} (ht : Accessor.Invariant ranges i s (.decoded a state)) :
    Guarantee crc ranges mapped i s (Accessor.step crc i s (.decoded a state)) := by
  have hclaims : ∀ p, s.claimed p ≠ some i := fun p hp => nomatch (ht.claims p).1 hp
  refine Guarantee.ensureImageUsable h hclaims fun husable => ?_
  exact Guarantee.finish h hclaims rfl ⟨ht.latest _ rfl, husable⟩ nofun nofun

/-- **Rejecting the image** for a bucket without a meaning. -/
lemma Guarantee.corrupt (h : s.Invariant crc ranges mapped) {a : PageAccess}
    {reason : IndexSlotSemanticError} (ht : Accessor.Invariant ranges i s (.corrupt a reason)) :
    Guarantee crc ranges mapped i s (Accessor.step crc i s (.corrupt a reason)) := by
  have hclaims : ∀ p, s.claimed p ≠ some i := fun p hp => nomatch (ht.claims p).1 hp
  refine Guarantee.after (fun j hj => Rely.rejectImage hj.symm) ?_
  exact Guarantee.fail (h.rejectImage i) hclaims (fun _ => rfl) fun _ => rfl

/-- **Returning from a replacement.** -/
lemma Guarantee.written (h : s.Invariant crc ranges mapped) {a : PageAccess}
    (ht : Accessor.Invariant ranges i s (.written a)) :
    Guarantee crc ranges mapped i s (Accessor.step crc i s (.written a)) := by
  have hclaims : ∀ p, s.claimed p ≠ some i := fun p hp => nomatch (ht.claims p).1 hp
  refine Guarantee.ensureImageUsable h hclaims fun husable => ?_
  exact Guarantee.finish h hclaims rfl ⟨ht.latest _ rfl, husable⟩ nofun nofun

/-- **Every action** keeps the invariants. -/
theorem Guarantee.act (hmapped : MappedImage ranges mapped) (h : s.Invariant crc ranges mapped)
    (ht : t.Invariant ranges i s) {t' : Accessor} (ha : ImageAct crc ranges i s t s' t') :
    Guarantee crc ranges mapped i s (s', t') := by
  cases ha with
  | lockRead q hfree =>
    refine Guarantee.setLock h ht nofun fun j guard hj hheld => ?_
    cases guard with
    | read => exact Finset.mem_insert_of_mem hheld
    | write =>
      rw [PartitionLock.Held, hfree] at hheld
      cases hheld
  | lockWrite q hfree hreaders =>
    refine Guarantee.setLock h ht (fun _ _ => rfl) fun j guard hj hheld => ?_
    cases guard with
    | read =>
      rw [PartitionLock.Held, hreaders] at hheld
      exact absurd hheld (Finset.notMem_empty j)
    | write =>
      rw [PartitionLock.Held, hfree] at hheld
      cases hheld
  | unlockRead q =>
    refine Guarantee.setLock h ht (fun j hj => ?_) fun j guard hj hheld => ?_
    · simp [h.exclusive q j hj]
    · cases guard with
      | read => exact Finset.mem_erase.2 ⟨hj, hheld⟩
      | write => exact hheld
  | unlockWrite q hheld =>
    refine Guarantee.setLock h ht nofun fun j guard hj hother => ?_
    cases guard with
    | read => exact hother
    | write => exact absurd (Option.some.inj (hother.symm.trans hheld)) hj
  | start range guard access hrange hheld hallowed =>
    exact Guarantee.start hmapped h ht hrange hheld hallowed
  | step _ hidle =>
    cases t with
    | idle => exact absurd rfl hidle
    | loading a => exact (Guarantee.loading hmapped h ht).1
    | claiming a => exact Guarantee.claiming h ht
    | retrying a => exact Guarantee.retrying h ht
    | validating a => exact Guarantee.validating h ht
    | validated a => exact Guarantee.validated h ht
    | rechecking a => exact Guarantee.rechecking h ht
    | rejecting a error => exact Guarantee.rejecting h ht
    | rejected a error => exact Guarantee.rejected h ht
    | admitted a => exact Guarantee.admitted hmapped h ht
    | decoded a state => exact Guarantee.decoded h ht
    | corrupt a reason => exact Guarantee.corrupt h ht
    | written a => exact Guarantee.written h ht

end SharedImage

/-! ## Mapped images -/

/-- What `map_private` maps. -/
lemma mappedImage_of_mapPrivate {file : List UInt8} {offset slotCount : ℕ}
    {binding : IndexImageBinding} {stats : List IndexPhysicalStats}
    {storage : PartitionedIndexStorage}
    (h : PartitionedIndexStorage.mapPrivate file offset slotCount binding stats = .ok storage) :
    MappedImage storage.ranges storage.core := by
  obtain ⟨ranges, hranges, hfile, rfl⟩ := PartitionedIndexStorage.eq_of_mapPrivate h
  refine ⟨hranges, length_slice hfile, List.length_replicate, fun page state hstate => ?_, rfl⟩
  exact List.eq_of_mem_replicate (List.mem_of_getElem? hstate)

section Reached

variable {crc : List UInt8 → BitVec 32} {ranges : List IndexPartitionRange}
  {mapped : IndexStorageCore}

/-- Nothing has happened yet. -/
lemma invariant_untouched (h : MappedImage ranges mapped) :
    (SharedImage.untouched mapped).Invariant crc ranges mapped where
  slotCount_eq := rfl
  binding_eq := rfl
  length_bytes := rfl
  length_pageStates := rfl
  exclusive _ _ _ := rfl
  claimed p := by
    refine iff_of_false (fun hp => ?_) nofun
    cases h.unchecked p _ hp
  holder := nofun
  checked p hp := by cases h.unchecked p _ hp
  unmodified _ _ := rfl
  rejectedPage p hp := by cases h.unchecked p _ hp
  flag := by
    refine iff_of_false ?_ fun hu => hu nofun
    rw [SharedImage.untouched, h.usable]
    nofun
  justified e h hs := by simp [SharedImage.untouched] at hs

/-- **Every reachable state** satisfies the invariants. -/
theorem invariant_of_reachable (h : MappedImage ranges mapped) {c : Pool SharedImage Accessor}
    (hreach : Reachable (imageProgram crc ranges) (.untouched mapped) c) :
    c.shared.Invariant crc ranges mapped ∧
      ∀ i, (c.threads.getD i .idle).Invariant ranges i c.shared := by
  have hidle : ∀ i, Accessor.Invariant ranges i (.untouched mapped) .idle := by
    intro i
    apply SharedImage.idle_invariant
    · intro p hp
      cases hp
    · intro a error hl
      cases hl
  refine hreach.relyGuarantee (I := SharedImage.Invariant crc ranges mapped)
    (T := fun i s t => t.Invariant ranges i s) (fun t ht => ht) (invariant_untouched h)
    hidle fun i s t s' t' hs ht ha => ?_
  have hg := SharedImage.Guarantee.act h hs ht ha
  exact ⟨hg.shared, hg.thread, fun j u hj hu => (hg.others j hj).invariant hu⟩

/-- **Lazy validation is complete and sticky.** -/
structure LazyValidation (crc : List UInt8 → BitVec 32) (mapped : IndexStorageCore)
    (c : Pool SharedImage Accessor) : Prop where
  /-- Every event comes after what has to come before it. -/
  justified : ∀ e h, (e :: h) <:+ c.shared.history → e.Justified crc mapped h
  /-- A page that nobody has found good is as it was mapped. -/
  unmodified : ∀ p, (∀ i a, a.page = p → .validated i a (.ok ()) ∉ c.shared.history) →
    c.shared.core.pageBytes p = mapped.pageBytes p
  /-- Who has found a page bad is about to reject the image. -/
  pending : ∀ i a error, ImageEvent.latest c.shared.history i =
    some (.validated i a (.error error)) → c.At i (.rejecting a error)
  /-- Once the image has been rejected, every access fails as soon as it starts. -/
  fails : ¬ Usable c.shared.history → ∀ i range guard access, ∃ error,
    c.shared.start i range guard access = (c.shared.log (.failed i guard error), .idle)
  /-- A mutation never finds its page being validated. -/
  undisturbed : ∀ i a, c.At i (.loading a) → a.guard = .write →
    c.shared.core.pageStates[a.page]? ≠ some .validating

/-- After a rejection an access fails when it starts. -/
lemma SharedImage.start_rejected {s : SharedImage} (h : s.core.imageRejected = true) (i : ℕ)
    (range : IndexPartitionRange) (guard : PartitionGuard) (access : SlotAccess) :
    ∃ error, s.start i range guard access = (s.log (.failed i guard error), .idle) := by
  rw [start]
  cases access.locate range s.core with
  | error error => exact ⟨error, rfl⟩
  | ok place =>
    obtain ⟨slot, page, offset⟩ := place
    simp only
    by_cases hpage : s.core.pageStates.length ≤ page
    · rw [if_pos hpage]
      exact ⟨_, rfl⟩
    · rw [if_neg hpage, SharedImage.ensureImageUsable, if_pos h]
      exact ⟨_, rfl⟩

end Reached

/-- **Lazy validation** of every mapped image, in every interleaving of accesses: a bucket is
returned or replaced only after its page was validated as it was mapped; once a page has been
rejected, no access returns and no later one begins; and a mutation does not meet the validation of
its page by somebody else. -/
theorem lazyValidation_sound (crc : List UInt8 → BitVec 32) {file : List UInt8}
    {offset slotCount : ℕ} {binding : IndexImageBinding} {stats : List IndexPhysicalStats}
    {storage : PartitionedIndexStorage}
    (hmap : PartitionedIndexStorage.mapPrivate file offset slotCount binding stats = .ok storage)
    {c : Pool SharedImage Accessor} (hreach : ImageReachable crc storage c) :
    LazyValidation crc storage.core c := by
  have hmapped := mappedImage_of_mapPrivate hmap
  obtain ⟨hs, hthreads⟩ := invariant_of_reachable hmapped hreach
  constructor
  case justified => exact hs.justified
  case unmodified =>
    intro p hp
    refine hs.unmodified p fun hvalid => ?_
    obtain ⟨i, a, ha, hm⟩ := hs.checked p hvalid
    exact hp i a ha hm
  case pending =>
    intro i a error hl
    have ht := (hthreads i).pending a error hl
    rw [List.getD_eq_getElem?_getD] at ht
    cases hi : c.threads[i]? with
    | none =>
      rw [hi] at ht
      cases ht
    | some t =>
      rw [hi] at ht
      exact hi.trans (congrArg some ht)
  case fails =>
    intro hnot i range guard access
    exact SharedImage.start_rejected (hs.flag.2 hnot) i range guard access
  case undisturbed =>
    intro i a hi hguard
    have ht := hthreads i
    rw [hi.getD] at ht
    exact (SharedImage.Guarantee.loading hmapped hs ht).2 hguard

/-- A page of zeroes, which a mutation has begun to look at. -/
theorem lazyValidation_sound_sample :
    ∃ storage c a, PartitionedIndexStorage.mapPrivate (List.replicate 4096 0) 0 4 ⟨1, 1⟩ [⟨0, 0⟩] =
        .ok storage ∧ ImageReachable (fun _ => 0) storage c ∧ c.At 0 (.loading a) ∧
      a.guard = .write ∧ LazyValidation (fun _ => 0) storage.core c := by
  have hok : (PartitionedIndexStorage.mapPrivate (List.replicate 4096 0) 0 4 ⟨1, 1⟩
      [⟨0, 0⟩]).isOk = true := by decide +kernel
  cases hmap : PartitionedIndexStorage.mapPrivate (List.replicate 4096 0) 0 4 ⟨1, 1⟩ [⟨0, 0⟩] with
  | error error =>
    rw [hmap] at hok
    cases hok
  | ok storage =>
    obtain ⟨ranges, hranges, -, rfl⟩ := PartitionedIndexStorage.eq_of_mapPrivate hmap
    have hdirectory : canonicalIndexPartitionRanges 4 = .ok [⟨0, 0, 1, 0, 4⟩] := by decide
    obtain rfl := Except.ok.inj (hranges.symm.trans hdirectory)
    generalize hrange : (⟨0, 0, 1, 0, 4⟩ : IndexPartitionRange) = range at hmap ⊢
    generalize hcore : (⟨slice (List.replicate 4096 0) 0 ((4 + 503) / 504 * 4096), 4,
      (4 + 503) / 504, some ⟨1, 1⟩, false, List.replicate ((4 + 503) / 504) .unchecked⟩ :
        IndexStorageCore) = core at hmap ⊢
    have hspawned : Reachable (imageProgram (fun _ => 0) [range]) (.untouched core)
        (Pool.spawn ⟨.untouched core, []⟩ .idle) := Reachable.init.spawn rfl
    have hlocked := hspawned.act (i := 0) rfl (.lockWrite _ range.partitionId rfl rfl)
    have hstarted := hlocked.act (i := 0) rfl (.start _ range .write (.stateAt 2)
      List.mem_cons_self (by subst hrange; rfl) trivial)
    have hloading : ∀ s : SharedImage, s.core = core → (s.start 0 range .write (.stateAt 2)).2 =
        .loading ⟨range, .write, .stateAt 2, 2, 0, 80⟩ := by
      intro s hs
      obtain ⟨c, locks, claimed, history⟩ := s
      obtain rfl : c = core := hs
      subst hrange hcore
      rfl
    exact ⟨_, _, ⟨range, .write, .stateAt 2, 2, 0, 80⟩, rfl, hstarted,
      congrArg some (hloading _ rfl), rfl, lazyValidation_sound _ hmap hstarted⟩

/-! ## What a validated page is -/

/-- A page that the mapped bytes cut short has no magic. -/
lemma IndexStorageCore.length_pageBytes {core : IndexStorageCore} {pages page : ℕ}
    {crc : List UInt8 → BitVec 32} {firstSlot validSlots : ℕ} {binding : IndexImageBinding}
    (hlen : core.bytes.length = pages * indexImagePageSize)
    (h : validatePageHeader crc (core.pageBytes page) page firstSlot validSlots binding = .ok ()) :
    (core.pageBytes page).length = indexImagePageSize := by
  refine length_slice ?_
  by_contra hshort
  have hempty : core.pageBytes page = [] := by
    rw [pageBytes, slice, List.drop_eq_nil_of_le, List.take_nil]
    simp only [hlen, indexImagePageSize] at hshort ⊢
    omega
  rw [validatePageHeader, hempty, if_pos (by decide)] at h
  cases h

/-- **What a validated page is.** In every interleaving of accesses to a mapped image, a page that
an access has been admitted to is bound, in the file, to its position and to the image, its
checksum is right, and each of its buckets has a meaning. -/
theorem boundPage_of_admitted (crc : List UInt8 → BitVec 32) {file : List UInt8}
    {offset slotCount : ℕ} {binding : IndexImageBinding} {stats : List IndexPhysicalStats}
    {storage : PartitionedIndexStorage}
    (hmap : PartitionedIndexStorage.mapPrivate file offset slotCount binding stats = .ok storage)
    {c : Pool SharedImage Accessor} (hreach : ImageReachable crc storage c) {i : ℕ}
    {a : PageAccess} (ha : .admitted i a ∈ c.shared.history) :
    BoundPage crc (storage.core.pageBytes a.page) a.page (a.page * indexImageSlotsPerPage)
        (storage.core.validSlotsInPage a.page) binding ∧
      ∀ slot < storage.core.validSlotsInPage a.page, ∃ state,
        (storage.core.decodeAt (a.page * 4096 + (64 + slot * 8))).runtimeState = .ok state := by
  have hmapped := mappedImage_of_mapPrivate hmap
  obtain ⟨hs, -⟩ := invariant_of_reachable hmapped hreach
  obtain ⟨after, before, hsplit⟩ := List.append_of_mem ha
  have hadmitted := hs.justified _ before ⟨after, hsplit.symm⟩
  obtain ⟨⟨j, b, hpage, hvalidated⟩, -⟩ := hadmitted
  obtain ⟨after', before', hsplit'⟩ := List.append_of_mem hvalidated
  have hresult := hs.justified (.validated j b (.ok ())) before'
    ⟨after ++ .admitted i a :: after', by rw [hsplit, hsplit', List.append_assoc, List.cons_append]⟩
  have hok : storage.core.validateMappedPage crc a.page = .ok () := by
    rw [← hpage]
    exact hresult.1.symm
  obtain ⟨bound, hbound, hheader, -⟩ := IndexStorageCore.validateMappedPage_eq_ok hok
  have hbinding : storage.core.expectedBinding = some binding := by
    obtain ⟨ranges, -, -, rfl⟩ := PartitionedIndexStorage.eq_of_mapPrivate hmap
    rfl
  obtain rfl : binding = bound := Option.some.inj (hbinding.symm.trans hbound)
  have hlen := IndexStorageCore.length_pageBytes hmapped.length_bytes hheader
  exact ⟨(validatePageHeader_eq_ok_iff hlen).1 hheader,
    fun slot hslot => IndexStorageCore.runtimeState_of_validateMappedPage hok hslot⟩

/-! ## Accesses that nobody interrupts -/

/-- The thread goes on by itself. -/
def Alone (crc : List UInt8 → BitVec 32) (i : ℕ) (r r' : SharedImage × Accessor) : Prop :=
  ∃ n, (fun r : SharedImage × Accessor => r.2.step crc i r.1)^[n] r = r'

/-- What the sequential storage does agrees with where a thread has got. -/
def Agrees {α : Type} (i : ℕ) (guard : PartitionGuard) (returned : α → ImageEvent)
    (r : SharedImage × Accessor) : EStateM.Result IndexStorageError IndexStorageCore α → Prop
  | .ok a core => r.2 = .idle ∧ r.1.core = core ∧ r.1.history.head? = some (returned a)
  | .error error core =>
    r.2 = .idle ∧ r.1.core = core ∧ r.1.history.head? = some (.failed i guard error)

section Alone

variable {crc : List UInt8 → BitVec 32} {i : ℕ} {s : SharedImage} {a : PageAccess}

lemma Alone.refl (r : SharedImage × Accessor) : Alone crc i r r := ⟨0, rfl⟩

/-- One more step in front. -/
lemma Alone.step {r r' : SharedImage × Accessor} (h : Alone crc i (r.2.step crc i r.1) r') :
    Alone crc i r r' := by
  obtain ⟨n, hn⟩ := h
  exact ⟨n + 1, hn⟩

lemma Alone.trans {r r' r'' : SharedImage × Accessor} (h : Alone crc i r r')
    (h' : Alone crc i r' r'') : Alone crc i r r'' := by
  obtain ⟨n, rfl⟩ := h
  obtain ⟨m, rfl⟩ := h'
  exact ⟨m + n, Function.iterate_add_apply _ _ _ _⟩

/-- A usable image lets the thread through. -/
lemma Alone.usable {next r : SharedImage × Accessor} (husable : s.core.imageRejected = false)
    (h : Alone crc i next r) : Alone crc i (s.ensureImageUsable i a next) r := by
  rw [SharedImage.ensureImageUsable, if_neg]
  · exact h
  · rw [husable]
    exact Bool.false_ne_true

variable (crc) in
/-- **Validation by one thread alone** is that of the sequential storage: the access is admitted, or
it has failed.

**Proof sketch.** Both go by the flag and the state of the page. A page that is unchecked takes the
thread through the claim, the validation and the two stores, between which nothing changes. -/
lemma ensurePageValid_alone (hpage : a.page < s.core.pageStates.length)
    (hfree : s.core.pageStates[a.page]? ≠ some .validating) :
    ∃ s' : SharedImage,
      (IndexStorageCore.ensurePageValid crc a.page s.core = .ok () s'.core ∧
        s'.core.imageRejected = false ∧
        Alone crc i (s.ensureImageUsable i a (s.log (.began i a), .loading a)) (s', .admitted a)) ∨
      ∃ error, IndexStorageCore.ensurePageValid crc a.page s.core = .error error s'.core ∧
        s'.history.head? = some (.failed i a.guard error) ∧
        Alone crc i (s.ensureImageUsable i a (s.log (.began i a), .loading a)) (s', .idle) := by
  obtain ⟨state, hstate⟩ : ∃ state, s.core.pageStates[a.page]? = some state :=
    ⟨_, List.getElem?_eq_getElem hpage⟩
  by_cases hflag : s.core.imageRejected = true
  · refine ⟨s.log (.failed i a.guard (.corruptPage a.page .previouslyRejected)),
      .inr ⟨_, ?_, rfl, ?_⟩⟩
    · simp only [IndexStorageCore.ensurePageValid, IndexStorageCore.ensureImageUsable, bind_apply,
        get_apply, hstate, hflag, if_true, throw_apply]
      rfl
    · rw [SharedImage.ensureImageUsable, if_pos hflag]
      exact Alone.refl _
  rw [SharedImage.ensureImageUsable, if_neg hflag]
  have hbegan : (s.log (.began i a)).core.pageStates[a.page]? = some state := hstate
  have husable : s.core.imageRejected = false := Bool.eq_false_of_not_eq_true hflag
  cases state with
  | validating => exact absurd hstate hfree
  | valid =>
    refine ⟨(s.log (.began i a)).log (.admitted i a), .inl ⟨?_, husable, Alone.step ?_⟩⟩
    · simp only [IndexStorageCore.ensurePageValid, IndexStorageCore.ensureImageUsable, bind_apply,
        get_apply, hstate, husable, Bool.false_eq_true, if_false, pure_apply]
      rfl
    · simp only [Accessor.step, hbegan]
      exact Alone.refl _
  | rejected =>
    refine ⟨(s.log (.began i a)).log
      (.failed i a.guard (.corruptPage a.page .previouslyRejected)),
      .inr ⟨_, ?_, rfl, Alone.step ?_⟩⟩
    · simp only [IndexStorageCore.ensurePageValid, IndexStorageCore.ensureImageUsable, bind_apply,
        get_apply, hstate, husable, Bool.false_eq_true, if_false, pure_apply, throw_apply]
      rfl
    · simp only [Accessor.step, hbegan]
      exact Alone.refl _
  | unchecked =>
    -- up to the validation
    have hclaimed : ∀ r, Alone crc i (Accessor.step crc i
        ((s.log (.began i a)).storePageState a.page .validating (some i)) (.validating a)) r →
        Alone crc i (s.log (.began i a), .loading a) r := by
      intro r hr
      refine Alone.step ?_
      simp only [Accessor.step, hbegan]
      refine Alone.step ?_
      simp only [Accessor.step, hbegan, if_true]
      exact Alone.step hr
    have hsame : (s.core.validateMappedPage crc a.page) =
        ((s.log (.began i a)).storePageState a.page .validating (some i)).core.validateMappedPage
          crc a.page := (IndexStorageCore.validateMappedPage_congr rfl rfl rfl).symm
    cases hresult : s.core.validateMappedPage crc a.page with
    | ok u =>
      refine ⟨((((s.log (.began i a)).storePageState a.page .validating (some i)).log
        (.validated i a (.ok u))).storePageState a.page .valid none).log (.admitted i a),
        .inl ⟨?_, husable, hclaimed _ ?_⟩⟩
      · simp only [IndexStorageCore.ensurePageValid, IndexStorageCore.ensureImageUsable, bind_apply,
          get_apply, hstate, husable, Bool.false_eq_true, if_false, pure_apply,
          IndexStorageCore.storePageState, modify_apply, hresult]
        rw [← husable]
        rfl
      · simp only [Accessor.step, ← hsame, hresult]
        refine Alone.step (Alone.step ?_)
        exact Alone.usable husable (Alone.refl _)
    | error error =>
      refine ⟨(((((s.log (.began i a)).storePageState a.page .validating (some i)).log
        (.validated i a (.error error))).rejectImage i).storePageState a.page .rejected none).log
          (.failed i a.guard error), .inr ⟨error, ?_, rfl, hclaimed _ ?_⟩⟩
      · simp only [IndexStorageCore.ensurePageValid, IndexStorageCore.ensureImageUsable, bind_apply,
          get_apply, hstate, husable, Bool.false_eq_true, if_false, pure_apply,
          IndexStorageCore.storePageState, modify_apply, hresult, IndexStorageCore.rejectImage,
          throw_apply]
        rfl
      · simp only [Accessor.step, ← hsame, hresult]
        exact Alone.step (Alone.step (Alone.refl _))

/-- **Reading by one thread alone** is `stateAt` of the sequential storage. -/
theorem stateAt_alone {slot : ℕ} (haccess : a.access = .stateAt slot)
    (hplace : s.core.slotAddress a.slot = .ok (a.page, a.offset))
    (hpage : a.page < s.core.pageStates.length)
    (hfree : s.core.pageStates[a.page]? ≠ some .validating) :
    ∃ r, Alone crc i (s.ensureImageUsable i a (s.log (.began i a), .loading a)) r ∧
      Agrees i a.guard (.returned i a) r (IndexStorageCore.stateAt crc a.slot s.core) := by
  obtain ⟨s', ⟨hvalid, husable, halone⟩ | ⟨error, hfailed, hhead, halone⟩⟩ :=
    ensurePageValid_alone crc (i := i) hpage hfree
  · have hstate : IndexStorageCore.stateAt crc a.slot s.core =
        (match (s'.core.decodeAt a.offset).runtimeState with
        | .ok state => .ok state s'.core
        | .error reason =>
          .error (.corruptSlot a.slot reason) { s'.core with imageRejected := true }) := by
      simp only [IndexStorageCore.stateAt, bind_apply, get_apply, hplace, orThrow, pure_apply,
        hvalid]
      cases (s'.core.decodeAt a.offset).runtimeState with
      | ok state =>
        simp only [IndexStorageCore.ensureImageUsable, bind_apply, get_apply, husable, pure_apply]
        rfl
      | error reason => rfl
    rw [hstate]
    cases hdecoded : (s'.core.decodeAt a.offset).runtimeState with
    | ok state =>
      refine ⟨(s'.log (.returned i a state), .idle), halone.trans (Alone.step ?_), rfl, rfl, rfl⟩
      simp only [Accessor.step, haccess, hdecoded]
      exact Alone.step (Alone.usable husable (Alone.refl _))
    | error reason =>
      refine ⟨((s'.rejectImage i).log (.failed i a.guard (.corruptSlot a.slot reason)), .idle),
        halone.trans (Alone.step ?_), rfl, rfl, rfl⟩
      simp only [Accessor.step, haccess, hdecoded]
      exact Alone.step (Alone.refl _)
  · refine ⟨_, halone, ?_⟩
    simp only [IndexStorageCore.stateAt, bind_apply, get_apply, hplace, orThrow, pure_apply,
      hfailed]
    exact ⟨rfl, rfl, hhead⟩

/-- **Replacing by one thread alone** is `writeSlot` of the sequential storage. -/
theorem writeSlot_alone {slot : ℕ} {state : IndexSlotState}
    (haccess : a.access = .writeSlot slot state)
    (hplace : s.core.slotAddress a.slot = .ok (a.page, a.offset))
    (hpage : a.page < s.core.pageStates.length)
    (hfree : s.core.pageStates[a.page]? ≠ some .validating) :
    ∃ r, Alone crc i (s.ensureImageUsable i a (s.log (.began i a), .loading a)) r ∧
      Agrees i a.guard (fun _ => .completed i a) r
        (IndexStorageCore.writeSlot crc a.slot (IndexSlot.fromState state) s.core) := by
  obtain ⟨s', ⟨hvalid, husable, halone⟩ | ⟨error, hfailed, hhead, halone⟩⟩ :=
    ensurePageValid_alone crc (i := i) hpage hfree
  · refine ⟨(((s'.copySlot a.offset (IndexSlot.fromState state)).log (.wrote i a)).log
      (.completed i a), .idle), halone.trans (Alone.step ?_), ?_⟩
    · simp only [Accessor.step, haccess]
      exact Alone.step (Alone.usable husable (Alone.refl _))
    · have hwrite : IndexStorageCore.writeSlot crc a.slot (IndexSlot.fromState state) s.core =
          .ok () (s'.copySlot a.offset (IndexSlot.fromState state)).core := by
        simp only [IndexStorageCore.writeSlot, bind_apply, get_apply, hplace, orThrow, pure_apply,
          hvalid, modify_apply, IndexStorageCore.ensureImageUsable, husable, Bool.false_eq_true,
          if_false]
        rw [← husable]
        rfl
      rw [hwrite]
      exact ⟨rfl, rfl, rfl⟩
  · refine ⟨_, halone, ?_⟩
    simp only [IndexStorageCore.writeSlot, bind_apply, get_apply, hplace, orThrow, pure_apply,
      hfailed]
    exact ⟨rfl, rfl, hhead⟩

end Alone

end Cache2

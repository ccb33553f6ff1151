import Cache2.Index.Slot
import Cache2.Recovery.Format
import Cache2.Region.Manager

set_option relaxedAutoImplicit false
set_option autoImplicit false

/-!
# Reading a record

The index keeps an upper bound of the length of a record. `describe_read` (`region/reader.rs`) turns
an entry into the range of the data file to read: the bound is cut at the end of the Region, and for
direct I/O the range is widened to whole pages.

## Main definitions

* `Cache2.describeRead` — the range to read for an entry.

## Main results

* `Cache2.describeRead_ok` — a valid entry has a range, which is the clipped one, widened to pages
  for direct I/O.
* `Cache2.describeRead_readLen` — no range takes more pages than a Region has.
* `Cache2.recordLen_of_runtimeState` — the length in the index is the bound of its size class.
* `Cache2.describeRead_covers` — the range lies in the Region and has every record of the class.
-/

namespace Cache2

/-! ## Definitions -/

/-- `MAX_READ_ALIGNMENT_OVERHEAD`. -/
def maxReadAlignmentOverhead : ℕ := 2 * directIoAlignment

/-- `ReadCandidate`. -/
structure ReadCandidate where
  entry : IndexEntry
  regionGeneration : ℕ
  deriving DecidableEq, Repr

/-- `ReadDesc`, with the two ends of its record range. -/
structure ReadDesc where
  hash : Hash
  entry : IndexEntry
  regionGeneration : ℕ
  absolute : ℕ
  readLen : ℕ
  recordStart : ℕ
  recordEnd : ℕ
  deriving DecidableEq, Repr

/-- A failed check of a read. -/
def orInvalidRead {α : Type} (message : String) : Option α → Except IoError α
  | some a => .ok a
  | none => .error (ioError .invalidInput message)

/-- `align_up`. -/
def alignUp (value alignment : ℕ) : Option ℕ :=
  (Word.checkedSub alignment 1).bind fun rest =>
    (Word.checkedAdd 64 value rest).map (· / alignment * alignment)

/-- `describe_read` from the widened range on: its checks and the description. -/
def boundRead (geometry : DataGeometry) (hash : Hash) (candidate : ReadCandidate)
    (alignForDirectIo : Bool) (recordAbsolute recordLen absolute ioEnd : ℕ) :
    Except IoError ReadDesc := do
  let readLen ← orInvalidRead "invalid Region record read"
    ((Word.checkedSub ioEnd absolute).filter fun length =>
      length ≠ 0 ∧ (alignForDirectIo = false ∨ length % directIoAlignment = 0))
  let recordStart ← orInvalidRead "record slice overflow" (Word.checkedSub recordAbsolute absolute)
  let recordEnd ← orInvalidRead "record slice end overflow"
    (Word.checkedAdd 64 recordStart recordLen)
  let overhead ← orInvalidRead "Region read is shorter than its candidate range"
    (Word.checkedSub readLen recordLen)
  if readLen < recordEnd ∨
      (alignForDirectIo = true ∧ (absolute % directIoAlignment ≠ 0 ∨
        maxReadAlignmentOverhead ≤ overhead)) ∨ geometry.dataFileLen.toNat < ioEnd then
    .error (ioError .invalidInput "Region read exceeds its bounds")
  else .ok ⟨hash, candidate.entry, candidate.regionGeneration, absolute, readLen, recordStart,
    recordEnd⟩

/-- `describe_read`. -/
def describeRead (geometry : DataGeometry) (hash : Hash) (candidate : ReadCandidate)
    (alignForDirectIo : Bool) : Except IoError ReadDesc := do
  let location := candidate.entry.location
  let offset := location.offset
  let recordLenUpper := location.recordLen
  if geometry.isValid = false ∨ candidate.regionGeneration = 0 ∨
      geometry.regionCount.toNat ≤ location.regionId ∨ offset % recordAlignment ≠ 0 ∨
      geometry.regionSize.toNat ≤ offset ∨ recordLenUpper = 0 ∨
      recordLenUpper % recordAlignment ≠ 0 then
    .error (ioError .invalidInput "invalid durable Region record location")
  else do
    -- a final record may end at the end of the Region, while its size class goes beyond it
    let recordLen := min recordLenUpper (geometry.regionSize.toNat - offset)
    let recordAbsolute ← orInvalidRead "read offset overflow"
      ((Word.checkedMul 64 location.regionId geometry.regionSize.toNat).bind fun base =>
        (Word.checkedAdd 64 dataRegionAreaOffset base).bind fun base =>
          Word.checkedAdd 64 base offset)
    let recordAbsoluteEnd ← orInvalidRead "Region record exceeds the data file"
      ((Word.checkedAdd 64 recordAbsolute recordLen).filter (· ≤ geometry.dataFileLen.toNat))
    if alignForDirectIo = true then do
      let ioEnd ← orInvalidRead "aligned read overflow"
        (alignUp recordAbsoluteEnd directIoAlignment)
      boundRead geometry hash candidate alignForDirectIo recordAbsolute recordLen
        (recordAbsolute / directIoAlignment * directIoAlignment) ioEnd
    else
      boundRead geometry hash candidate alignForDirectIo recordAbsolute recordLen recordAbsolute
        recordAbsoluteEnd

/-! ## The range -/

/-- What a valid geometry satisfies. -/
lemma DataGeometry.isValid_spec {g : DataGeometry} (h : g.isValid = true) :
    g.regionSize.toNat ≤ maxPackedRegionSize ∧ g.regionSize.toNat % 4096 = 0 ∧
      g.dataFileLen.toNat = g.regionSize.toNat * g.regionCount.toNat + 4096 := by
  rw [DataGeometry.isValid] at h
  simp only [Bool.and_eq_true, decide_eq_true_eq] at h
  obtain ⟨⟨⟨-, hle⟩, haligned⟩, hlen⟩ := h
  rw [DataGeometry.expectedFileLen, Option.bind_eq_some_iff] at hlen
  obtain ⟨bytes, hbytes, hlen⟩ := hlen
  rw [Word.checkedMul_eq_some] at hbytes
  rw [Word.checkedAdd_eq_some] at hlen
  exact ⟨hle, haligned, hlen.2.trans (by rw [hbytes.2]; rfl)⟩

/-- Where a Region begins. -/
def DataGeometry.regionBase (g : DataGeometry) (regionId : ℕ) : ℕ :=
  dataRegionAreaOffset + regionId * g.regionSize.toNat

/-- A Region is a run of pages within the file. -/
lemma DataGeometry.regionBase_spec {g : DataGeometry} (h : g.isValid = true) {regionId : ℕ}
    (hid : regionId < g.regionCount.toNat) :
    g.regionBase regionId % 4096 = 0 ∧
      g.regionBase regionId + g.regionSize.toNat ≤ g.dataFileLen.toNat := by
  obtain ⟨-, haligned, hlen⟩ := isValid_spec h
  have hregion := Nat.mul_le_mul_right g.regionSize.toNat (Nat.succ_le_of_lt hid)
  have hpages : regionId * g.regionSize.toNat % 4096 = 0 := by
    rw [Nat.mul_mod, haligned, Nat.mul_zero, Nat.zero_mod]
  rw [Nat.succ_mul, Nat.mul_comm g.regionCount.toNat] at hregion
  unfold regionBase dataRegionAreaOffset recoveryPageSize
  omega

/-- Rounding up to a page. -/
lemma alignUp_eq {value : ℕ} (h : value + 4095 < 2 ^ 64) :
    alignUp value directIoAlignment = some ((value + 4095) / 4096 * 4096) := by
  rw [alignUp, directIoAlignment, Word.checkedSub_of_le (by decide), Option.bind_some,
    Word.checkedAdd_of_lt h, Option.map_some]

/-- The range that is read for a clipped record from `first` to `last`. -/
structure Covers (desc : ReadDesc) (direct : Bool) (first last : ℕ) : Prop where
  start_eq : desc.absolute + desc.recordStart = first
  end_eq : desc.absolute + desc.recordEnd = last
  end_le : desc.recordEnd ≤ desc.readLen
  low : first / 4096 * 4096 ≤ desc.absolute
  high : desc.absolute + desc.readLen ≤ (last + 4095) / 4096 * 4096
  aligned : direct = true → desc.absolute % 4096 = 0 ∧ desc.readLen % 4096 = 0
  buffered : direct = false → desc.absolute = first ∧ desc.absolute + desc.readLen = last

/-- The range that is widened to pages. -/
lemma covers_direct {desc : ReadDesc} {first len : ℕ}
    (habsolute : desc.absolute = first / 4096 * 4096)
    (hread : desc.readLen = (first + len + 4095) / 4096 * 4096 - desc.absolute)
    (hstart : desc.recordStart = first - desc.absolute)
    (hend : desc.recordEnd = first - desc.absolute + len) :
    Covers desc true first (first + len) := by
  refine ⟨?_, ?_, ?_, habsolute.ge, ?_, fun _ => ⟨?_, ?_⟩, nofun⟩
  all_goals omega

/-- What the last checks pass. -/
lemma boundRead_ok (geometry : DataGeometry) (hash : Hash) (candidate : ReadCandidate)
    (direct : Bool) {first len absolute ioEnd : ℕ} (hlen : 0 < len) (hlow : absolute ≤ first)
    (hhigh : first + len ≤ ioEnd) (hfile : ioEnd ≤ geometry.dataFileLen.toNat)
    (haligned : direct = true → absolute % 4096 = 0 ∧ ioEnd % 4096 = 0 ∧
      ioEnd - absolute < len + 8192) :
    boundRead geometry hash candidate direct first len absolute ioEnd =
      .ok ⟨hash, candidate.entry, candidate.regionGeneration, absolute, ioEnd - absolute,
        first - absolute, first - absolute + len⟩ := by
  have hlt := geometry.dataFileLen.isLt
  have hsome : (Word.checkedSub ioEnd absolute).filter (fun length =>
      length ≠ 0 ∧ (direct = false ∨ length % directIoAlignment = 0)) =
        some (ioEnd - absolute) := by
    rw [Word.checkedSub_of_le (by omega), Option.filter_some, if_pos]
    rw [decide_eq_true_eq]
    refine ⟨by omega, ?_⟩
    cases direct with
    | false => exact .inl rfl
    | true =>
      obtain ⟨habsolute, hend, -⟩ := haligned rfl
      exact .inr (by unfold directIoAlignment; omega)
  have hguard : ¬ (ioEnd - absolute < first - absolute + len ∨
      (direct = true ∧ (absolute % directIoAlignment ≠ 0 ∨
        maxReadAlignmentOverhead ≤ ioEnd - absolute - len)) ∨
      geometry.dataFileLen.toNat < ioEnd) := by
    rintro (h | ⟨hdirect, h⟩ | h)
    · omega
    · obtain ⟨habsolute, -, hover⟩ := haligned hdirect
      unfold maxReadAlignmentOverhead directIoAlignment at h
      omega
    · omega
  rw [boundRead, hsome]
  simp only [orInvalidRead, bind, Except.bind]
  rw [Word.checkedSub_of_le hlow]
  simp only
  rw [Word.checkedAdd_of_lt (by omega)]
  simp only
  rw [Word.checkedSub_of_le (by omega)]
  exact if_neg hguard

/-- **Reads.** An entry whose Region exists and whose offset lies in it has a range to read, which
is that of the bound of its length, cut at the end of the Region, and for direct I/O widened to
pages. -/
theorem describeRead_ok {geometry : DataGeometry} (hgeometry : geometry.isValid = true)
    (hash : Hash) {entry : IndexEntry} {generation : ℕ} (direct : Bool)
    (hregion : entry.location.regionId < geometry.regionCount.toNat)
    (hoffset : entry.location.offset < geometry.regionSize.toNat) (hgeneration : generation ≠ 0) :
    ∃ desc, describeRead geometry hash ⟨entry, generation⟩ direct = .ok desc ∧
      desc.hash = hash ∧ desc.entry = entry ∧ desc.regionGeneration = generation ∧
      Covers desc direct (geometry.regionBase entry.location.regionId + entry.location.offset)
        (geometry.regionBase entry.location.regionId + entry.location.offset +
          min entry.location.recordLen (geometry.regionSize.toNat - entry.location.offset)) := by
  obtain ⟨hsize, haligned, hlen⟩ := DataGeometry.isValid_spec hgeometry
  obtain ⟨hpage, hfile⟩ := DataGeometry.regionBase_spec hgeometry hregion
  obtain ⟨-, hmod, -, hlen0, -, hlenMod⟩ := entry.location.validFields
  have hfile64 := geometry.dataFileLen.isLt
  have hguard : ¬ (geometry.isValid = false ∨ generation = 0 ∨
      geometry.regionCount.toNat ≤ entry.location.regionId ∨
      entry.location.offset % recordAlignment ≠ 0 ∨
      geometry.regionSize.toNat ≤ entry.location.offset ∨ entry.location.recordLen = 0 ∨
      entry.location.recordLen % recordAlignment ≠ 0) := by
    simp only [hgeometry, Bool.true_eq_false, hgeneration, false_or, not_or, not_not, Nat.not_le]
    exact ⟨hregion, hmod, hoffset, hlen0, hlenMod⟩
  have habsolute : ((Word.checkedMul 64 entry.location.regionId geometry.regionSize.toNat).bind
      fun base => (Word.checkedAdd 64 dataRegionAreaOffset base).bind fun base =>
        Word.checkedAdd 64 base entry.location.offset) =
      some (geometry.regionBase entry.location.regionId + entry.location.offset) := by
    unfold DataGeometry.regionBase at hfile ⊢
    rw [Word.checkedMul_of_lt (by omega), Option.bind_some, Word.checkedAdd_of_lt (by omega),
      Option.bind_some, Word.checkedAdd_of_lt (by omega)]
  have hpos : 0 < min entry.location.recordLen
      (geometry.regionSize.toNat - entry.location.offset) := by omega
  have hclip := Nat.min_le_right entry.location.recordLen
    (geometry.regionSize.toNat - entry.location.offset)
  have hunits : (geometry.regionBase entry.location.regionId + entry.location.offset) % 32 = 0 ∧
      min entry.location.recordLen (geometry.regionSize.toNat - entry.location.offset) % 32 =
        0 := by
    unfold offsetAlignment at hmod
    unfold recordLenAlignment at hlenMod
    omega
  rw [describeRead]
  simp only [bind, Except.bind]
  rw [if_neg hguard, habsolute]
  simp only [orInvalidRead]
  generalize min entry.location.recordLen
    (geometry.regionSize.toNat - entry.location.offset) = len at *
  generalize hfirst : geometry.regionBase entry.location.regionId + entry.location.offset = first
    at *
  have hend : (Word.checkedAdd 64 first len).filter (· ≤ geometry.dataFileLen.toNat) =
      some (first + len) := by
    rw [Word.checkedAdd_of_lt (by omega), Option.filter_some, if_pos]
    rw [decide_eq_true_eq]
    omega
  rw [hend]
  simp only
  cases direct with
  | false =>
    rw [if_neg (by decide)]
    refine ⟨_, boundRead_ok geometry hash ⟨entry, generation⟩ false hpos le_rfl le_rfl (by omega)
      nofun, rfl, rfl, rfl, ?_⟩
    constructor <;> simp <;> omega
  | true =>
    have hwide : (first + len + 4095) / 4096 * 4096 ≤ geometry.dataFileLen.toNat := by omega
    rw [if_pos rfl, alignUp_eq (by omega)]
    simp only
    refine ⟨_, boundRead_ok geometry hash ⟨entry, generation⟩ true hpos
      (Nat.div_mul_le_self first directIoAlignment) (by omega) hwide fun _ => ?_, rfl, rfl, rfl, ?_⟩
    · unfold directIoAlignment
      omega
    · exact covers_direct rfl rfl rfl rfl

/-- What is read is a part of one Region, and so are the pages that it takes. -/
lemma describeRead_readLen {geometry : DataGeometry} {hash : Hash} {candidate : ReadCandidate}
    {direct : Bool} {desc : ReadDesc}
    (h : describeRead geometry hash candidate direct = .ok desc) :
    0 < desc.readLen ∧ (desc.readLen + 4095) / 4096 * 4096 ≤ geometry.regionSize.toNat := by
  have hrun := h
  rw [describeRead, Loop.ite_error_eq_ok] at h
  obtain ⟨hguard, -⟩ := h
  simp only [not_or, not_not, Nat.not_le, Bool.not_eq_false] at hguard
  obtain ⟨hgeometry, hgeneration, hregion, -, hoffset, -⟩ := hguard
  obtain ⟨desc', hok, -, -, -, hcovers⟩ :=
    describeRead_ok hgeometry hash direct hregion hoffset hgeneration
  rw [hrun, Except.ok.injEq] at hok
  subst hok
  obtain ⟨-, haligned, -⟩ := DataGeometry.isValid_spec hgeometry
  obtain ⟨hpage, -⟩ := DataGeometry.regionBase_spec hgeometry hregion
  obtain ⟨-, -, -, hlen, -⟩ := candidate.entry.location.validFields
  have hclip := Nat.min_le_right candidate.entry.location.recordLen
    (geometry.regionSize.toNat - candidate.entry.location.offset)
  obtain ⟨hstart, hend, hwithin, hlow, hhigh, -⟩ := hcovers
  omega

/-! ## What is read -/

/-- The length in the index is the bound of its size class. -/
lemma recordLen_of_runtimeState {slot : IndexSlot} {fingerprint displacement : ℕ}
    {entry : IndexEntry} (h : slot.runtimeState = .ok (.value fingerprint displacement entry)) :
    entry.location.recordLen = recordSizeClassUpperBounds entry.location.indexSizeClass := by
  have hstored := IndexSlot.runtimeState_fromState (.value fingerprint displacement entry)
  rw [IndexSlot.fromState_of_runtimeState h, h, Except.ok.injEq] at hstored
  have hentry : entry.quantize = entry := by
    simp only [IndexSlotState.stored, IndexSlotState.value.injEq] at hstored
    exact hstored.2.2.symm
  have hlocation : entry.location.quantize = entry.location := congrArg IndexEntry.location hentry
  rw [← PackedLocation.recordLen_quantize, hlocation]

/-- **Reads are total and cover.** For every valid geometry and every entry with an existing Region,
an offset in it and a generation, there is a range to read. It lies in the Region, which lies in
the data file, and for direct I/O both its ends are on pages. If the entry is one that the index
returns, then every record that begins at the offset, has a length of the size class of the entry
and fits the Region is in the range, at the described place. -/
theorem describeRead_covers (geometry : DataGeometry) (hgeometry : geometry.isValid = true)
    (hash : Hash) (entry : IndexEntry) (generation : ℕ) (direct : Bool)
    (hregion : entry.location.regionId < geometry.regionCount.toNat)
    (hoffset : entry.location.offset < geometry.regionSize.toNat) (hgeneration : generation ≠ 0) :
    ∃ desc, describeRead geometry hash ⟨entry, generation⟩ direct = .ok desc ∧
      desc.hash = hash ∧ desc.entry = entry ∧ desc.regionGeneration = generation ∧
      geometry.regionBase entry.location.regionId ≤ desc.absolute ∧
      desc.absolute + desc.readLen ≤
        geometry.regionBase entry.location.regionId + geometry.regionSize.toNat ∧
      geometry.regionBase entry.location.regionId + geometry.regionSize.toNat ≤
        geometry.dataFileLen.toNat ∧
      (direct = true → desc.absolute % 4096 = 0 ∧ (desc.absolute + desc.readLen) % 4096 = 0) ∧
      desc.absolute + desc.recordStart =
        geometry.regionBase entry.location.regionId + entry.location.offset ∧
      desc.recordEnd ≤ desc.readLen ∧
      ∀ (slot : IndexSlot) (fingerprint displacement : ℕ),
        slot.runtimeState = .ok (.value fingerprint displacement entry) →
        ∀ recordLen, recordSizeClass recordLen = some entry.location.indexSizeClass →
          entry.location.offset + recordLen ≤ geometry.regionSize.toNat →
          desc.recordStart + recordLen ≤ desc.recordEnd := by
  obtain ⟨desc, hok, hhash, hentry, hgen, hcovers⟩ :=
    describeRead_ok hgeometry hash direct hregion hoffset hgeneration
  obtain ⟨-, haligned, -⟩ := DataGeometry.isValid_spec hgeometry
  obtain ⟨hpage, hfile⟩ := DataGeometry.regionBase_spec hgeometry hregion
  have hclip := Nat.min_le_right entry.location.recordLen
    (geometry.regionSize.toNat - entry.location.offset)
  obtain ⟨hstart, hend, hwithin, hlow, hhigh, hpages, -⟩ := hcovers
  refine ⟨desc, hok, hhash, hentry, hgen, ?_, ?_, hfile, fun hdirect => ?_, hstart, hwithin, ?_⟩
  · omega
  · omega
  · obtain ⟨habsolute, hlength⟩ := hpages hdirect
    exact ⟨habsolute, by omega⟩
  · intro slot fingerprint displacement hslot recordLen hclass hfits
    obtain ⟨-, -, -, hle⟩ := sizeClass_bounds hclass
    rw [← recordLen_of_runtimeState hslot] at hle
    omega

/-- A record at the end of the last of two Regions, whose size class goes beyond it. -/
theorem describeRead_covers_sample :
    let geometry : DataGeometry := ⟨4096 + 2 * 8192, 8192, 2⟩
    let entry : IndexEntry := ⟨⟨1 ||| ((8192 - 1056) / 32) <<< 20 ||| (1120 / 32 - 1) <<< 40⟩⟩
    geometry.isValid = true ∧ entry.location.regionId = 1 ∧
      entry.location.offset = 8192 - 1056 ∧
      ∃ desc, describeRead geometry 7 ⟨entry, 1⟩ true = .ok desc ∧
        desc.absolute + desc.readLen ≤ geometry.regionBase entry.location.regionId +
          geometry.regionSize.toNat := by
  intro geometry entry
  have hgeometry : geometry.isValid = true := by decide +kernel
  obtain ⟨desc, hok, -, -, -, -, hle, -⟩ := describeRead_covers geometry hgeometry 7 entry 1 true
    (by decide +kernel) (by decide +kernel) (by decide)
  exact ⟨hgeometry, by decide +kernel, by decide +kernel, desc, hok, hle⟩

end Cache2

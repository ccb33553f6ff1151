import Mathlib.Order.Bounds.Defs
import Cache2.Index.PageFormat

set_option relaxedAutoImplicit false
set_option autoImplicit false

/-!
# Index buckets and their physical counts

A bucket of the index image is one 64-bit word (`region/index/storage/mod.rs`): the Region, the
offset and the size class of a record, fourteen bits of fingerprint and two bits of
displacement. The zero word is the empty bucket.

## Main definitions

* `Cache2.IndexSlot`, `Cache2.IndexSlotState` — the stored word and its meaning.
* `Cache2.IndexSlot.fromState`, `Cache2.IndexSlot.runtimeState` — encoding and decoding.
* `Cache2.IndexPhysicalStats` — the counters of a partition.

## Main results

* `Cache2.IndexSlot.runtimeState_fromState` — decoding gives back what was encoded, with the
  length rounded up to its size class.
* `Cache2.IndexSlot.indexSlot_codec` — what packing and unpacking promise, over all locations and
  words.
* `Cache2.IndexPhysicalStats.transitioned_value` — the checked counter transition in terms of
  occupancy.
-/

namespace Cache2

open Bytes

/-- The record alignment, the unit of offsets in a bucket. -/
def recordAlignment : ℕ := 32

/-! ## Bucket words -/

/-- The stored word of a bucket. -/
structure IndexSlot where
  encoded : BitVec 64
  deriving DecidableEq, Repr

/-- The meaning of a bucket. -/
inductive IndexSlotState
  | empty
  | value (fingerprint displacement : ℕ) (entry : IndexEntry)
  deriving DecidableEq, Repr

/-- Whether a bucket counts as occupied. -/
inductive SlotPhysicalKind
  | empty
  | value
  deriving DecidableEq, Repr

/-- The kind of a bucket's meaning. -/
def IndexSlotState.physicalKind : IndexSlotState → SlotPhysicalKind
  | .empty => .empty
  | .value _ _ _ => .value

/-- What a bucket gives back after it has been stored: the fingerprint and the displacement cut
to their bits, the length rounded up. -/
def IndexSlotState.stored : IndexSlotState → IndexSlotState
  | .empty => .empty
  | .value fingerprint displacement entry =>
    .value (fingerprint % 2 ^ 14) (displacement % 4) entry.quantize

namespace IndexSlot

def slotOffsetShift : ℕ := 20
def slotSizeClassShift : ℕ := 40
def slotFingerprintShift : ℕ := 48
def slotDisplacementShift : ℕ := 62

def slotRegionMask : ℕ := 2 ^ 20 - 1
def slotOffsetMask : ℕ := 2 ^ 20 - 1
def slotSizeClassMask : ℕ := 2 ^ 8 - 1
def slotFingerprintMask : ℕ := 2 ^ 14 - 1
def slotDisplacementMask : ℕ := 2 ^ 2 - 1

/-- The empty bucket. -/
def EMPTY : IndexSlot := ⟨0⟩

/-- Packs the fields of a bucket. -/
def fromState : IndexSlotState → IndexSlot
  | .empty => EMPTY
  | .value fingerprint displacement entry =>
    let location := entry.location
    let offsetUnits := location.offset / recordAlignment
    ⟨BitVec.ofNat 64 (location.regionId ||| (offsetUnits <<< slotOffsetShift) |||
      (location.indexSizeClass <<< slotSizeClassShift) |||
      ((fingerprint &&& slotFingerprintMask) <<< slotFingerprintShift) |||
      ((displacement &&& slotDisplacementMask) <<< slotDisplacementShift))⟩

/-- The bytes of a bucket. -/
def encode (slot : IndexSlot) : List UInt8 := u64Bytes slot.encoded

/-- The bucket with the given bytes. -/
def decode (input : List UInt8) : IndexSlot := ⟨readU64 input 0⟩

/-- The meaning of a bucket's word. -/
def runtimeState (slot : IndexSlot) : Except IndexSlotSemanticError IndexSlotState :=
  let encoded := slot.encoded.toNat
  if encoded = 0 then .ok .empty
  else
  match recordSizeClassUpperBound ((encoded >>> slotSizeClassShift) &&& slotSizeClassMask) with
  | none => .error .nonCanonicalMarker
  | some recordLen =>
    let regionId := (encoded >>> 0) &&& slotRegionMask
    let offset := ((encoded >>> slotOffsetShift) &&& slotOffsetMask) * recordAlignment
    match PackedLocation.new regionId offset recordLen with
    | .error error => .error (.invalidLocation error)
    | .ok location =>
      .ok (.value ((encoded >>> slotFingerprintShift) &&& slotFingerprintMask)
        ((encoded >>> slotDisplacementShift) &&& slotDisplacementMask) ⟨location⟩)

/-- Whether a bucket's word counts as occupied. -/
def physicalKind (slot : IndexSlot) : SlotPhysicalKind :=
  if slot.encoded.toNat = 0 then .empty else .value

/-- A bucket's bytes decode to the bucket. -/
lemma decode_encode (slot : IndexSlot) : decode slot.encode = slot := by
  have hlen : slot.encode.length = 8 := length_u64Bytes _
  have hs : slice slot.encode 0 8 = u64Bytes slot.encoded := by
    have hall := slice_zero_length slot.encode
    rwa [hlen] at hall
  rw [decode, (readU64_eq_iff (by omega)).2 hs]

/-- A bucket takes eight bytes. -/
@[simp] lemma length_encode (slot : IndexSlot) : slot.encode.length = 8 := length_u64Bytes _

/-- The number a value is packed into, as a sum of its fields. -/
private lemma toNat_fromState_value (fingerprint displacement : ℕ) (entry : IndexEntry) :
    (fromState (.value fingerprint displacement entry)).encoded.toNat =
      entry.location.regionId + entry.location.offset / 32 * 2 ^ 20 +
        entry.location.indexSizeClass * 2 ^ 40 + fingerprint % 2 ^ 14 * 2 ^ 48 +
        displacement % 2 ^ 2 * 2 ^ 62 := by
  have hv := entry.location.validFields
  have hr := hv.region_le
  have ho := hv.offset_le
  obtain ⟨-, hc, -, -⟩ := sizeClass_bounds entry.location.recordSizeClass_recordLen
  simp only [maxRegionId, regionMask, maxRegionOffset, offsetMask, offsetAlignment] at hr ho
  simp only [fromState, slotOffsetShift, slotSizeClassShift, slotFingerprintShift,
    slotDisplacementShift, slotFingerprintMask, slotDisplacementMask, recordAlignment,
    Nat.and_two_pow_sub_one_eq_mod]
  have hf : fingerprint % 2 ^ 14 < 2 ^ 14 := Nat.mod_lt _ (by norm_num)
  have hd : displacement % 2 ^ 2 < 2 ^ 2 := Nat.mod_lt _ (by norm_num)
  generalize entry.location.regionId = r at *
  generalize entry.location.offset = o at *
  generalize entry.location.indexSizeClass = c at *
  generalize fingerprint % 2 ^ 14 = f at *
  generalize displacement % 2 ^ 2 = d at *
  rw [Word.or_shiftLeft _ (by omega : r < 2 ^ 20),
    Word.or_shiftLeft _ (by omega : r + o / 32 * 2 ^ 20 < 2 ^ 40),
    Word.or_shiftLeft _ (by omega : r + o / 32 * 2 ^ 20 + c * 2 ^ 40 < 2 ^ 48),
    Word.or_shiftLeft _ (by omega : r + o / 32 * 2 ^ 20 + c * 2 ^ 40 + f * 2 ^ 48 < 2 ^ 62),
    BitVec.toNat_ofNat, Nat.mod_eq_of_lt (by omega)]

/-- A location with the bound of a class as its length has this class. -/
lemma indexSizeClass_of_bound {location : PackedLocation} {c recordLen : ℕ}
    (hbound : recordSizeClassUpperBound c = some recordLen) (hc : c ≤ 255)
    (hlen : location.recordLen = recordLen) : location.indexSizeClass = c := by
  simp only [recordSizeClassUpperBound] at hbound
  split_ifs at hbound with hne
  simp only [Option.some.injEq] at hbound
  have hc1 : 1 ≤ c := by
    rcases Nat.eq_zero_or_pos c with h0 | hpos
    · rw [h0] at hne
      exact absurd rfl hne
    · exact hpos
  have hcls := location.recordSizeClass_recordLen
  rw [hlen, ← hbound, recordSizeClass_upperBound hc1 hc, Option.some.injEq] at hcls
  exact hcls.symm

/-- **Bucket codec.** A stored state is decoded with the fingerprint and the displacement cut to
their bits and the length rounded up to its size class. -/
theorem runtimeState_fromState (state : IndexSlotState) :
    (fromState state).runtimeState = .ok state.stored := by
  cases state with
  | empty => rfl
  | value fingerprint displacement entry =>
    have hv := entry.location.validFields
    have hr := hv.region_le
    have ho := hv.offset_le
    have hm := hv.offset_mod
    obtain ⟨hc1, hc, -, -⟩ := sizeClass_bounds entry.location.recordSizeClass_recordLen
    simp only [maxRegionId, regionMask, maxRegionOffset, offsetMask, offsetAlignment] at hr ho hm
    have hn := toNat_fromState_value fingerprint displacement entry
    have hq := entry.location.new_quantize
    simp only [runtimeState, slotOffsetShift, slotSizeClassShift, slotFingerprintShift,
      slotDisplacementShift, slotRegionMask, slotOffsetMask, slotSizeClassMask,
      slotFingerprintMask, slotDisplacementMask, recordAlignment, Word.shiftRight_and_mask]
    generalize (fromState (.value fingerprint displacement entry)).encoded.toNat = n at hn ⊢
    -- each field is found in its bits
    have e₁ : n / 2 ^ 0 % 2 ^ 20 = entry.location.regionId := by omega
    have e₂ : n / 2 ^ 20 % 2 ^ 20 * 32 = entry.location.offset := by omega
    have e₃ : n / 2 ^ 40 % 2 ^ 8 = entry.location.indexSizeClass := by omega
    have e₄ : n / 2 ^ 48 % 2 ^ 14 = fingerprint % 2 ^ 14 := by omega
    have e₅ : n / 2 ^ 62 % 2 ^ 2 = displacement % 4 := by omega
    rw [if_neg (by omega), e₁, e₂, e₃, e₄, e₅, recordSizeClassUpperBound_of_pos hc1 hc]
    simp only [hq]
    rfl

/-- **Bucket codec, the other way.** A word that has a meaning is the encoding of its meaning. -/
theorem fromState_of_runtimeState {slot : IndexSlot} {state : IndexSlotState}
    (h : slot.runtimeState = .ok state) : fromState state = slot := by
  have hlt := slot.encoded.isLt
  simp only [runtimeState, slotOffsetShift, slotSizeClassShift, slotFingerprintShift,
    slotDisplacementShift, slotRegionMask, slotOffsetMask, slotSizeClassMask, slotFingerprintMask,
    slotDisplacementMask, recordAlignment, Word.shiftRight_and_mask] at h
  suffices hn : (fromState state).encoded.toNat = slot.encoded.toNat by
    cases slot
    cases hs : fromState state
    rw [hs] at hn
    simp only [mk.injEq]
    exact BitVec.eq_of_toNat_eq hn
  by_cases h0 : slot.encoded.toNat = 0
  · simp only [if_pos h0, Except.ok.injEq] at h
    rw [h0, ← h]
    rfl
  simp only [if_neg h0] at h
  generalize slot.encoded.toNat = n at *
  cases hbound : recordSizeClassUpperBound (n / 2 ^ 40 % 2 ^ 8) with
  | none => simp only [hbound] at h; cases h
  | some recordLen =>
    simp only [hbound] at h
    cases hnew : PackedLocation.new (n / 2 ^ 0 % 2 ^ 20) (n / 2 ^ 20 % 2 ^ 20 * 32) recordLen with
    | error e => simp only [hnew] at h; cases h
    | ok location =>
      simp only [hnew, Except.ok.injEq] at h
      obtain ⟨hr, ho, hlen⟩ := PackedLocation.fields_of_new hnew
      have hc : location.indexSizeClass = n / 2 ^ 40 % 2 ^ 8 := by
        refine indexSizeClass_of_bound hbound (Nat.le_of_lt_succ (Nat.mod_lt _ (by norm_num))) hlen
      rw [← h, toNat_fromState_value]
      simp only [hr, ho, hc]
      omega

/-- A stored state counts as what it is. -/
lemma physicalKind_fromState (state : IndexSlotState) :
    (fromState state).physicalKind = state.physicalKind := by
  cases state with
  | empty => rfl
  | value fingerprint displacement entry =>
    obtain ⟨hc1, -, -, -⟩ := sizeClass_bounds entry.location.recordSizeClass_recordLen
    have hn := toNat_fromState_value fingerprint displacement entry
    have hne : (fromState (.value fingerprint displacement entry)).encoded.toNat ≠ 0 := by
      rw [hn]
      omega
    rw [physicalKind, if_neg hne]
    rfl

/-- A word that has a meaning counts as what it means. -/
lemma physicalKind_of_runtimeState {slot : IndexSlot} {state : IndexSlotState}
    (h : slot.runtimeState = .ok state) : slot.physicalKind = state.physicalKind := by
  unfold runtimeState at h
  unfold physicalKind
  by_cases h0 : slot.encoded.toNat = 0
  · simp only [if_pos h0, Except.ok.injEq] at h
    rw [if_pos h0, ← h]
    rfl
  · simp only [if_neg h0] at h
    rw [if_neg h0]
    split at h
    · cases h
    · split at h
      · cases h
      · simp only [Except.ok.injEq] at h
        rw [← h]
        rfl

/-! ### The codec as a whole -/

/-- The record lengths that a class stands for: the bounds of the classes that cover a length. -/
def coveringBounds (recordLen : ℕ) : Set ℕ :=
  {bound | ∃ c ≤ 255, recordSizeClassUpperBound c = some bound ∧ recordLen ≤ bound}

/-- The bound of a length's class is the least that covers it.

**Proof sketch.** A class below the length's own has a bound not above that of the class before
the length's own, which the length exceeds; the bounds of the classes above are larger. -/
lemma isLeast_coveringBounds {recordLen c : ℕ} (h : recordSizeClass recordLen = some c) :
    IsLeast (coveringBounds recordLen) (recordSizeClassUpperBounds c) := by
  obtain ⟨hpos, hmax, hbelow, habove⟩ := sizeClass_bounds h
  refine ⟨⟨c, hmax, recordSizeClassUpperBound_of_pos hpos hmax, habove⟩, ?_⟩
  rintro bound ⟨d, hd, hbound, hle⟩
  simp only [recordSizeClassUpperBound] at hbound
  split_ifs at hbound
  obtain rfl := Option.some.inj hbound
  rcases Nat.lt_or_ge d c with hlt | hge
  · have hmono := Nat.mul_le_mul_right recordLenAlignment
      (sizeClassUnits_mono (show d ≤ c - 1 by omega) (by omega))
    exact absurd (hle.trans hmono) (Nat.not_le.2 hbelow)
  · exact Nat.mul_le_mul_right _ (sizeClassUnits_mono hge hd)

/-- The bounds of the classes in use increase. -/
lemma recordSizeClassUpperBound_lt {c d m n : ℕ} (hlt : c < d) (hd : d ≤ 255)
    (hm : recordSizeClassUpperBound c = some m) (hn : recordSizeClassUpperBound d = some n) :
    m < n := by
  have hstep := sizeClassUnits_lt_succ c (by omega)
  have hmono := sizeClassUnits_mono (show c + 1 ≤ d by omega) hd
  simp only [recordSizeClassUpperBound] at hm hn
  split_ifs at hm hn
  obtain rfl := Option.some.inj hm
  obtain rfl := Option.some.inj hn
  exact Nat.mul_lt_mul_of_pos_right (hstep.trans_le hmono) (by decide)

/-- No value is stored as the empty word. -/
lemma fromState_value_ne_empty (fingerprint displacement : ℕ) (entry : IndexEntry) :
    fromState (.value fingerprint displacement entry) ≠ EMPTY := by
  intro heq
  have hkind := physicalKind_fromState (.value fingerprint displacement entry)
  rw [heq] at hkind
  change SlotPhysicalKind.empty = SlotPhysicalKind.value at hkind
  cases hkind

/-- Two packed locations are index-equivalent exactly when the Regions, the offsets and the
classes of the lengths they were packed from agree. -/
lemma indexEquivalent_new {r o n r' o' n' : ℕ} {l l' : PackedLocation}
    (h : PackedLocation.new r o n = .ok l) (h' : PackedLocation.new r' o' n' = .ok l') :
    l.indexEquivalent l' = true ↔ r = r' ∧ o = o' ∧ recordSizeClass n = recordSizeClass n' := by
  obtain ⟨hr, ho, hn⟩ := PackedLocation.fields_of_new h
  obtain ⟨hr', ho', hn'⟩ := PackedLocation.fields_of_new h'
  have hc := l.recordSizeClass_recordLen
  have hc' := l'.recordSizeClass_recordLen
  rw [hn] at hc
  rw [hn'] at hc'
  rw [PackedLocation.indexEquivalent_iff, hr, hr', ho, ho', hc, hc', Option.some.injEq]

/-- **The bucket codec.** A location in the admitted ranges is packed, and stored with any
fingerprint and displacement in a word that is not the empty one; the word gives back the Region,
the offset, the fingerprint and the displacement, and as record length the least bound of a size
class that covers the original one. The bounds increase with the class, index equivalence is
equality of Region, offset and class, and every word that has a meaning is its encoding, also as
bytes. -/
theorem indexSlot_codec {r o n fingerprint displacement : ℕ} (h : PackedLocation.ValidFields r o n)
    (hf : fingerprint < 2 ^ 14) (hd : displacement < indexCandidates) :
    (∃ location, PackedLocation.new r o n = .ok location ∧
      fromState (.value fingerprint displacement ⟨location⟩) ≠ EMPTY ∧
      ∃ stored : PackedLocation,
        (fromState (.value fingerprint displacement ⟨location⟩)).runtimeState =
            .ok (.value fingerprint displacement ⟨stored⟩) ∧
          stored.regionId = r ∧ stored.offset = o ∧
          IsLeast (coveringBounds n) stored.recordLen ∧ stored.indexEquivalent location = true) ∧
    (∀ c d bound bound', c < d → d ≤ 255 → recordSizeClassUpperBound c = some bound →
      recordSizeClassUpperBound d = some bound' → bound < bound') ∧
    (∀ r' o' n' l l', PackedLocation.new r o n = .ok l → PackedLocation.new r' o' n' = .ok l' →
      (l.indexEquivalent l' = true ↔ r = r' ∧ o = o' ∧ recordSizeClass n = recordSizeClass n')) ∧
    ∀ (slot : IndexSlot) (state : IndexSlotState), slot.runtimeState = .ok state →
      fromState state = slot ∧ decode slot.encode = slot := by
  refine ⟨?_, fun _ _ _ _ => recordSizeClassUpperBound_lt, fun _ _ _ _ _ => indexEquivalent_new,
    fun slot _ hslot => ⟨fromState_of_runtimeState hslot, decode_encode slot⟩⟩
  obtain ⟨location, hnew, hr, ho, hn⟩ := PackedLocation.new_eq_ok h
  obtain ⟨hr', ho', hn'⟩ := PackedLocation.fields_of_new location.new_quantize
  refine ⟨location, hnew, fromState_value_ne_empty _ _ _, location.quantize, ?_,
    hr'.trans hr, ho'.trans ho, ?_, ?_⟩
  · rw [runtimeState_fromState]
    simp only [IndexSlotState.stored, IndexEntry.quantize, Nat.mod_eq_of_lt hf,
      Nat.mod_eq_of_lt (show displacement < 4 from hd)]
  · rw [hn']
    refine isLeast_coveringBounds ?_
    rw [← hn]
    exact location.recordSizeClass_recordLen
  · obtain ⟨hpos, hmax, -, -⟩ := sizeClass_bounds location.recordSizeClass_recordLen
    refine PackedLocation.indexEquivalent_iff.2 ⟨hr', ho', ?_⟩
    exact indexSizeClass_of_bound (recordSizeClassUpperBound_of_pos hpos hmax) hmax hn'

/-- A record of 33 units, in the first class that is not exact. -/
theorem indexSlot_codec_sample :
    PackedLocation.ValidFields 3 64 1056 ∧
      ∃ location, PackedLocation.new 3 64 1056 = .ok location ∧
        fromState (.value 5 2 ⟨location⟩) ≠ EMPTY := by
  have hvalid : PackedLocation.ValidFields 3 64 1056 :=
    ⟨by decide, by decide, by decide, by decide⟩
  obtain ⟨⟨location, hnew, hne, -⟩, -⟩ :=
    @indexSlot_codec 3 64 1056 5 2 hvalid (by decide) (by decide)
  exact ⟨hvalid, location, hnew, hne⟩

end IndexSlot

/-! ## Physical counts -/

/-- The counters of a partition. -/
structure IndexPhysicalStats where
  value : ℕ
  deleted : ℕ
  deriving DecidableEq, Repr

namespace IndexPhysicalStats

/-- No bucket in use. -/
def default : IndexPhysicalStats := ⟨0, 0⟩

/-- Buckets in use and deleted buckets together. -/
def total (stats : IndexPhysicalStats) : Option ℕ := Word.checkedAdd 64 stats.value stats.deleted

/-- Counters that a partition of `slotCount` buckets can have. -/
def isValidFor (stats : IndexPhysicalStats) (slotCount : ℕ) : Bool :=
  stats.deleted == 0 && stats.total.any (· ≤ slotCount)

/-- Counts a bucket out. -/
def decrement (stats : IndexPhysicalStats) : SlotPhysicalKind → Option IndexPhysicalStats
  | .empty => some stats
  | .value => (Word.checkedSub stats.value 1).map fun v => { stats with value := v }

/-- Counts a bucket in. -/
def increment (stats : IndexPhysicalStats) : SlotPhysicalKind → Option IndexPhysicalStats
  | .empty => some stats
  | .value => (Word.checkedAdd 64 stats.value 1).map fun v => { stats with value := v }

/-- The counters after a bucket changed its kind, or `none` when they would be impossible. -/
def transitioned (stats : IndexPhysicalStats) (old new : SlotPhysicalKind) (slotCount : ℕ) :
    Option IndexPhysicalStats := do
  let next ← stats.decrement old
  let next ← next.increment new
  if next.isValidFor slotCount then some next else none

end IndexPhysicalStats

/-- How much a bucket of a kind adds to the counter. -/
def SlotPhysicalKind.weight : SlotPhysicalKind → ℕ
  | .empty => 0
  | .value => 1

namespace IndexPhysicalStats

/-- Counters without deleted buckets are possible when they do not exceed the buckets. -/
lemma isValidFor_iff {v slotCount : ℕ} (hs : slotCount < 2 ^ 64) :
    isValidFor ⟨v, 0⟩ slotCount = true ↔ v ≤ slotCount := by
  simp only [isValidFor, total, Word.checkedAdd, Nat.add_zero]
  split_ifs with h
  · simp
  · have : ¬ v ≤ slotCount := by omega
    simp [this]

/-- **Counter transition.** When the counter includes the old kind and the new count fits the
partition, the checked transition moves the weight. -/
theorem transitioned_value {v w slotCount : ℕ} (old new : SlotPhysicalKind)
    (hs : slotCount < 2 ^ 64) (hw : w + old.weight = v + new.weight) (hold : old.weight ≤ v)
    (hle : w ≤ slotCount) :
    transitioned ⟨v, 0⟩ old new slotCount = some ⟨w, 0⟩ := by
  have hvalid := (isValidFor_iff (v := w) hs).2 hle
  cases old <;> cases new <;> simp only [SlotPhysicalKind.weight] at hw hold <;>
    simp only [transitioned, decrement, increment, Option.bind_eq_bind, Option.bind_some]
  · obtain rfl : w = v := by omega
    rw [if_pos hvalid]
  · rw [Word.checkedAdd_of_lt (by omega), Option.map_some, Option.bind_some,
      show v + 1 = w by omega, if_pos hvalid]
  · rw [Word.checkedSub_of_le hold, Option.map_some, Option.bind_some,
      show v - 1 = w by omega, if_pos hvalid]
  · rw [Word.checkedSub_of_le hold, Option.map_some, Option.bind_some]
    show ((Word.checkedAdd 64 (v - 1) 1).map _).bind _ = _
    rw [Word.checkedAdd_of_lt (by omega), Option.map_some, Option.bind_some,
      show v - 1 + 1 = w by omega, if_pos hvalid]

end IndexPhysicalStats

end Cache2

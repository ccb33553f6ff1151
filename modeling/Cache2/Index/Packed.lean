import Mathlib.Tactic.IntervalCases
import Cache2.Lib.Word

set_option relaxedAutoImplicit false
set_option autoImplicit false

/-!
# Packed record locations and record size classes

The primitives shared by the index and the data path (`region/index/packed.rs`). A record
location is one 64-bit word: 20 bits of Region id, 20 bits of offset in 32-byte units, 20 bits
of length in 32-byte units less one. An index bucket has only eight bits for the length, so it
keeps a *size class*, whose upper bound stands for the length; lengths up to 1 KiB are classes
of their own, longer ones share a class with lengths less than 7% away.

## Main definitions

* `Cache2.PackedLocation`, `Cache2.PackedLocation.new` — the packed word and its constructor.
* `Cache2.recordSizeClass`, `Cache2.recordSizeClassUpperBound` — the class of a length, and the
  largest length of a class.
* `Cache2.PackedLocation.IndexEquivalent` — equality up to the size class.
* `Cache2.indexPartitionFor` — the partition of a hash.

## Main results

* `Cache2.sizeClass_bounds` — a length lies above the previous class's bound and not above its
  own, which determines the class (`Cache2.recordSizeClass_eq_iff`).
* `Cache2.recordSizeClass_upperBound` — a class's bound belongs to the class.
* `Cache2.PackedLocation.new_eq_ok` — a constructed location has the given fields.
-/

namespace Cache2

/-- A 64-bit key hash. -/
abbrev Hash : Type := BitVec 64

/-! ## Constants -/

/-- Mask of the twenty bits of a Region id. -/
def regionMask : ℕ := 2 ^ 20 - 1

/-- Mask of the twenty bits of an offset in units. -/
def offsetMask : ℕ := 2 ^ 20 - 1

/-- Mask of the twenty bits of a record length in units, less one. -/
def recordLenMask : ℕ := 2 ^ 20 - 1

/-- Offsets are counted in units of 32 bytes. -/
def offsetAlignment : ℕ := 32

/-- Record lengths are counted in units of 32 bytes. -/
def recordLenAlignment : ℕ := 32

/-- The largest Region id. -/
def maxRegionId : ℕ := regionMask

/-- The largest offset of a record in its Region. -/
def maxRegionOffset : ℕ := offsetMask * offsetAlignment

/-- The largest record length. -/
def maxRecordLen : ℕ := (recordLenMask + 1) * recordLenAlignment

/-- The largest number of Regions. -/
def maxPackedRegionCount : ℕ := maxRegionId + 1

/-- The largest Region size. -/
def maxPackedRegionSize : ℕ := maxRegionOffset + offsetAlignment

/-- Every key has four candidate buckets. -/
def indexCandidates : ℕ := 4

/-- The largest number of index partitions. -/
def maxIndexPartitions : ℕ := 4096

/-! ## Size classes -/

/-- The class code of a positive number of 32-byte units: exact through 32, thirteen steps
through 64, then fifteen steps for each power of two. -/
def unitsClass (units : ℕ) : ℕ :=
  if units ≤ 32 then units
  else if units ≤ 64 then 32 + ((units - 32 - 1) * 13 / 32 + 1)
  else
    let exponent := Nat.log2 (units - 1)
    let base := 1 <<< exponent
    let step := (units - base - 1) * 15 / base + 1
    46 + (exponent - 6) * 15 + step - 1

/-- The class of an exact record length: the smallest representable upper bound. -/
def recordSizeClass (recordLen : ℕ) : Option ℕ :=
  if recordLen = 0 ∨ recordLen > maxRecordLen ∨ recordLen % recordLenAlignment ≠ 0 then none
  else
    let code := unitsClass (recordLen / recordLenAlignment)
    if code ≤ 255 then some code else none

/-- The largest number of 32-byte units of a class: one entry of the table of bounds. -/
def sizeClassUnits (sizeClass : ℕ) : ℕ :=
  if sizeClass ≤ 32 then sizeClass
  else if sizeClass < 46 then 32 + ((sizeClass - 32) * 32 + 12) / 13
  else
    let ordinal := sizeClass - 46
    let exponent := 6 + ordinal / 15
    let step := ordinal % 15 + 1
    let base := 1 <<< exponent
    base + (step * base + 14) / 15

/-- The table of bounds, in bytes; entry zero stands for no class. -/
def recordSizeClassUpperBounds (sizeClass : ℕ) : ℕ := sizeClassUnits sizeClass * recordLenAlignment

/-- The largest record length of a class, `none` for the unused class zero. -/
def recordSizeClassUpperBound (sizeClass : ℕ) : Option ℕ :=
  let upper := recordSizeClassUpperBounds sizeClass
  if upper ≠ 0 then some upper else none

/-- The bound of a logarithmic class, from its exponent and step. -/
private lemma sizeClassUnits_log (k : ℕ) {j : ℕ} (hj : j < 15) :
    sizeClassUnits (46 + k * 15 + j) = 2 ^ (6 + k) + ((j + 1) * 2 ^ (6 + k) + 14) / 15 := by
  have h₁ : (46 + k * 15 + j - 46) / 15 = k := by omega
  have h₂ : (46 + k * 15 + j - 46) % 15 = j := by omega
  simp only [sizeClassUnits, Nat.shiftLeft_eq, Nat.one_mul, h₁, h₂]
  rw [if_neg (by omega), if_neg (by omega)]

/-- The class before the first one of an exponent ends at the power of two. -/
private lemma sizeClassUnits_pred_log (k : ℕ) : sizeClassUnits (46 + k * 15 - 1) = 2 ^ (6 + k) := by
  cases k with
  | zero => decide
  | succ k =>
    have hk : 46 + (k + 1) * 15 - 1 = 46 + k * 15 + 14 := by omega
    have hp : 2 ^ (6 + (k + 1)) = 2 * 2 ^ (6 + k) := by ring
    rw [hk, sizeClassUnits_log k (by omega), hp]
    omega

/-- Above 64 units, the exponent is at least six and the class is determined by it and by the
fifteenths of the power of two that the length exceeds it by. -/
private lemma unitsClass_log {units : ℕ} (h₁ : 64 < units) (h₂ : units ≤ 2 ^ 20) :
    ∃ k q, k ≤ 13 ∧ 2 ^ (6 + k) < units ∧ units ≤ 2 * 2 ^ (6 + k) ∧
      q = (units - 2 ^ (6 + k) - 1) * 15 / 2 ^ (6 + k) ∧ unitsClass units = 46 + k * 15 + q := by
  obtain ⟨e, he⟩ : ∃ e, Nat.log2 (units - 1) = e := ⟨_, rfl⟩
  have hne : units - 1 ≠ 0 := by omega
  have hlo : 2 ^ e ≤ units - 1 := by rw [← he]; exact Nat.log2_self_le hne
  have hhi : units - 1 < 2 ^ (e + 1) := by rw [← he]; exact Nat.lt_log2_self
  have he6 : 6 ≤ e := by
    by_contra hlt
    have : 2 ^ (e + 1) ≤ 2 ^ 6 := Nat.pow_le_pow_right (by norm_num) (by omega)
    omega
  have he19 : e ≤ 19 := by
    by_contra hgt
    have : 2 ^ 20 ≤ 2 ^ e := Nat.pow_le_pow_right (by norm_num) (by omega)
    omega
  obtain ⟨k, rfl⟩ : ∃ k, e = 6 + k := ⟨e - 6, by omega⟩
  refine ⟨k, _, by omega, by omega, ?_, rfl, ?_⟩
  · have hp : 2 ^ (6 + k + 1) = 2 * 2 ^ (6 + k) := by ring
    omega
  · simp only [unitsClass, he, Nat.shiftLeft_eq, Nat.one_mul]
    rw [if_neg (by omega), if_neg (by omega), Nat.add_sub_cancel_left]
    generalize (units - 2 ^ (6 + k) - 1) * 15 / 2 ^ (6 + k) = q
    omega

/-- Every number of units up to the limit lies above the bound of the class before its own and
not above its own class's bound, and its class is one of the 255.

**Proof sketch.** Up to 64 units by inspection. Above, with `b` the power of two below the
length, the class is the `q`-th after the first one of `b`, where `q` counts the whole
fifteenths of `b` in `units - b - 1`; so `q * b ≤ 15 * (units - b - 1) < (q + 1) * b`, and the
bounds of the classes `q - 1` and `q` are these products divided by fifteen, rounded up. -/
lemma unitsClass_bounds {units : ℕ} (h₁ : 1 ≤ units) (h₂ : units ≤ 2 ^ 20) :
    sizeClassUnits (unitsClass units - 1) < units ∧ units ≤ sizeClassUnits (unitsClass units) ∧
      1 ≤ unitsClass units ∧ unitsClass units ≤ 255 := by
  by_cases hexact : units ≤ 32
  · simp only [unitsClass, sizeClassUnits, if_pos hexact]
    rw [if_pos (by omega)]
    omega
  by_cases htrans : units ≤ 64
  · have : 33 ≤ units := by omega
    interval_cases units <;> decide
  obtain ⟨k, q, hk, hlo, hhi, hq, hc⟩ := unitsClass_log (by omega) h₂
  rw [hc]
  generalize hb : 2 ^ (6 + k) = b at hlo hhi hq
  have hbpos : 0 < b := by rw [← hb]; positivity
  have hle : q * b ≤ (units - b - 1) * 15 := by rw [hq]; exact Nat.div_mul_le_self _ _
  have hlt : (units - b - 1) * 15 < (q + 1) * b := by
    rw [hq, Nat.mul_comm (_ + 1)]; exact Nat.lt_mul_div_succ _ hbpos
  have hq15 : q < 15 := by rw [hq, Nat.div_lt_iff_lt_mul hbpos]; omega
  refine ⟨?_, ?_, by omega, by omega⟩
  · rcases Nat.eq_zero_or_pos q with h0 | hpos
    · rw [h0, Nat.add_zero, sizeClassUnits_pred_log, hb]
      exact hlo
    · obtain ⟨j, rfl⟩ : ∃ j, q = j + 1 := ⟨q - 1, by omega⟩
      rw [show 46 + k * 15 + (j + 1) - 1 = 46 + k * 15 + j by omega,
        sizeClassUnits_log k (by omega), hb]
      omega
  · rw [sizeClassUnits_log k hq15, hb]
    omega

/-- The bounds of consecutive classes increase. -/
lemma sizeClassUnits_lt_succ : ∀ c < 255, sizeClassUnits c < sizeClassUnits (c + 1) := by
  decide +kernel

/-- The bounds of the classes are monotone. -/
lemma sizeClassUnits_mono {c d : ℕ} (h : c ≤ d) (hd : d ≤ 255) :
    sizeClassUnits c ≤ sizeClassUnits d := by
  induction d, h using Nat.le_induction with
  | base => exact le_rfl
  | succ d _ ih => exact (ih (by omega)).trans (sizeClassUnits_lt_succ d (by omega)).le

/-- The last class ends at the largest record length. -/
lemma sizeClassUnits_le {c : ℕ} (h : c ≤ 255) : sizeClassUnits c ≤ 2 ^ 20 :=
  (sizeClassUnits_mono h le_rfl).trans (by decide)

/-- A positive number of units has the class whose bounds enclose it, and no other. -/
lemma unitsClass_eq_iff {units c : ℕ} (h₁ : 1 ≤ units) (h₂ : units ≤ 2 ^ 20) (hc : c ≤ 255)
    (hc1 : 1 ≤ c) :
    unitsClass units = c ↔ sizeClassUnits (c - 1) < units ∧ units ≤ sizeClassUnits c := by
  obtain ⟨hlo, hhi, h1, h255⟩ := unitsClass_bounds h₁ h₂
  constructor
  · rintro rfl
    exact ⟨hlo, hhi⟩
  · rintro ⟨hlo', hhi'⟩
    rcases Nat.lt_trichotomy (unitsClass units) c with hlt | heq | hgt
    · have := sizeClassUnits_mono (c := unitsClass units) (d := c - 1) (by omega) (by omega)
      omega
    · exact heq
    · have := sizeClassUnits_mono (c := c) (d := unitsClass units - 1) (by omega) (by omega)
      omega

/-- A length the packed format admits: positive, a multiple of 32, at most 32 MiB. -/
def ValidRecordLen (recordLen : ℕ) : Prop :=
  recordLen ≠ 0 ∧ recordLen ≤ maxRecordLen ∧ recordLen % recordLenAlignment = 0

instance (recordLen : ℕ) : Decidable (ValidRecordLen recordLen) :=
  inferInstanceAs (Decidable (_ ∧ _ ∧ _))

/-- Every admitted length has the class of its units. -/
lemma recordSizeClass_of_valid {recordLen : ℕ} (h : ValidRecordLen recordLen) :
    recordSizeClass recordLen = some (unitsClass (recordLen / 32)) := by
  obtain ⟨h0, hmax, hmod⟩ := h
  simp only [maxRecordLen, recordLenMask, recordLenAlignment] at hmax hmod
  have hb := unitsClass_bounds (by omega : 0 < recordLen / 32) (by omega)
  unfold recordSizeClass
  rw [if_neg (by simp only [maxRecordLen, recordLenMask, recordLenAlignment]; omega)]
  exact if_pos hb.2.2.2

/-- Only admitted lengths have a class. -/
lemma valid_of_recordSizeClass {recordLen c : ℕ} (h : recordSizeClass recordLen = some c) :
    ValidRecordLen recordLen := by
  unfold recordSizeClass at h
  split_ifs at h with hbad
  push Not at hbad
  exact ⟨hbad.1, hbad.2.1, hbad.2.2⟩

/-- **Size classes.** An admitted length has class `c` exactly when it lies above the bound of
class `c - 1` and not above the bound of class `c`. -/
theorem recordSizeClass_eq_iff {recordLen c : ℕ} (h : ValidRecordLen recordLen) (hc : c ≤ 255)
    (hc1 : 1 ≤ c) :
    recordSizeClass recordLen = some c ↔
      recordSizeClassUpperBounds (c - 1) < recordLen ∧
        recordLen ≤ recordSizeClassUpperBounds c := by
  rw [recordSizeClass_of_valid h, Option.some.injEq]
  obtain ⟨h0, hmax, hmod⟩ := h
  simp only [maxRecordLen, recordLenMask, recordLenAlignment] at hmax hmod
  rw [unitsClass_eq_iff (by omega) (by omega) hc hc1]
  simp only [recordSizeClassUpperBounds, recordLenAlignment]
  omega

/-- Every admitted length lies between the bounds of its class. -/
lemma sizeClass_bounds {recordLen c : ℕ} (h : recordSizeClass recordLen = some c) :
    1 ≤ c ∧ c ≤ 255 ∧ recordSizeClassUpperBounds (c - 1) < recordLen ∧
      recordLen ≤ recordSizeClassUpperBounds c := by
  have hv := valid_of_recordSizeClass h
  have hc := h
  rw [recordSizeClass_of_valid hv, Option.some.injEq] at hc
  obtain ⟨h0, hmax, hmod⟩ := hv
  have hmax' := hmax
  have hmod' := hmod
  simp only [maxRecordLen, recordLenMask, recordLenAlignment] at hmax' hmod'
  have hb := unitsClass_bounds (by omega : 0 < recordLen / 32) (by omega)
  rw [hc] at hb
  exact ⟨hb.2.2.1, hb.2.2.2, (recordSizeClass_eq_iff ⟨h0, hmax, hmod⟩ hb.2.2.2 hb.2.2.1).1 h⟩

/-- The bound of a class is an admitted length. -/
lemma validRecordLen_upperBounds {c : ℕ} (h₁ : 1 ≤ c) (h₂ : c ≤ 255) :
    ValidRecordLen (recordSizeClassUpperBounds c) := by
  have hpos : sizeClassUnits 0 < sizeClassUnits c :=
    (sizeClassUnits_lt_succ 0 (by omega)).trans_le (sizeClassUnits_mono h₁ h₂)
  have hle := sizeClassUnits_le h₂
  simp only [ValidRecordLen, recordSizeClassUpperBounds, maxRecordLen, recordLenMask,
    recordLenAlignment]
  omega

/-- The bound of a class belongs to the class. -/
lemma recordSizeClass_upperBound {c : ℕ} (h₁ : 1 ≤ c) (h₂ : c ≤ 255) :
    recordSizeClass (recordSizeClassUpperBounds c) = some c := by
  rw [recordSizeClass_eq_iff (validRecordLen_upperBounds h₁ h₂) h₂ h₁]
  have hlt := sizeClassUnits_lt_succ (c - 1) (by omega)
  rw [show c - 1 + 1 = c by omega] at hlt
  simp only [recordSizeClassUpperBounds, recordLenAlignment]
  omega

/-- The bound of every class in use is returned. -/
lemma recordSizeClassUpperBound_of_pos {c : ℕ} (h₁ : 1 ≤ c) (h₂ : c ≤ 255) :
    recordSizeClassUpperBound c = some (recordSizeClassUpperBounds c) :=
  if_pos (validRecordLen_upperBounds h₁ h₂).1

/-! ## Packed locations -/

/-- A record location packed into one machine word. -/
structure PackedLocation where
  /-- The packed word. -/
  raw : ℕ
  deriving DecidableEq, Repr

/-- Why a location cannot be packed. -/
inductive PackedLocationError
  | regionOutOfRange
  | offsetUnaligned
  | offsetOutOfRange
  | recordLengthZero
  | recordLengthUnaligned
  | recordLengthOutOfRange
  deriving DecidableEq, Repr

namespace PackedLocation

/-- Packs a Region id, an offset and a record length. -/
def new (regionId offset recordLen : ℕ) : Except PackedLocationError PackedLocation :=
  if regionId > maxRegionId then .error .regionOutOfRange
  else if offset % offsetAlignment ≠ 0 then .error .offsetUnaligned
  else if offset > maxRegionOffset then .error .offsetOutOfRange
  else if recordLen = 0 then .error .recordLengthZero
  else if recordLen % recordLenAlignment ≠ 0 then .error .recordLengthUnaligned
  else if recordLen > maxRecordLen then .error .recordLengthOutOfRange
  else
    let offsetUnits := offset / offsetAlignment
    let recordLenUnits := recordLen / recordLenAlignment - 1
    .ok ⟨regionId ||| (offsetUnits <<< 20) ||| (recordLenUnits <<< 40)⟩

/-- The Region id of a packed word. -/
def regionId (l : PackedLocation) : ℕ := (l.raw >>> 0) &&& regionMask

/-- The offset of a packed word. -/
def offset (l : PackedLocation) : ℕ := ((l.raw >>> 20) &&& offsetMask) * offsetAlignment

/-- The record length of a packed word. -/
def recordLen (l : PackedLocation) : ℕ :=
  (((l.raw >>> 40) &&& recordLenMask) + 1) * recordLenAlignment

/-- The size class of a packed word's length. The source unwraps the class here; every packed
word has one (`Cache2.PackedLocation.recordSizeClass_recordLen`). -/
def indexSizeClass (l : PackedLocation) : ℕ := (recordSizeClass l.recordLen).getD 0

/-- Equality of Region, offset and size class. -/
def indexEquivalent (l other : PackedLocation) : Bool :=
  l.regionId == other.regionId && l.offset == other.offset &&
    l.indexSizeClass == other.indexSizeClass

/-- The ranges a location can be built from. -/
structure ValidFields (regionId offset recordLen : ℕ) : Prop where
  region_le : regionId ≤ maxRegionId
  offset_mod : offset % offsetAlignment = 0
  offset_le : offset ≤ maxRegionOffset
  len : ValidRecordLen recordLen

/-- Fields in range can be packed, and each field is found in its bits. -/
theorem new_eq_ok {r o n : ℕ} (h : ValidFields r o n) :
    ∃ l, new r o n = .ok l ∧ l.regionId = r ∧ l.offset = o ∧ l.recordLen = n := by
  obtain ⟨hr, hom, hol, hn0, hnle, hnm⟩ := h
  refine ⟨⟨r ||| ((o / 32) <<< 20) ||| ((n / 32 - 1) <<< 40)⟩, ?_, ?_⟩
  · unfold new
    rw [if_neg (by omega), if_neg (by omega), if_neg (by omega), if_neg hn0, if_neg (by omega),
      if_neg (by omega)]
    rfl
  · simp only [maxRegionId, regionMask, offsetAlignment, maxRegionOffset, offsetMask, maxRecordLen,
      recordLenMask, recordLenAlignment] at hr hom hol hnle hnm
    rw [Word.or_shiftLeft _ (by omega : r < 2 ^ 20),
      Word.or_shiftLeft _ (by omega : r + o / 32 * 2 ^ 20 < 2 ^ 40)]
    simp only [regionId, offset, recordLen, regionMask, offsetMask, recordLenMask,
      Word.shiftRight_and_mask, offsetAlignment, recordLenAlignment]
    omega

/-- Only fields in range can be packed. -/
lemma valid_of_new_eq_ok {r o n : ℕ} {l : PackedLocation} (h : new r o n = .ok l) :
    ValidFields r o n := by
  unfold new at h
  split_ifs at h with h₁ h₂ h₃ h₄ h₅ h₆
  exact ⟨by omega, by omega, by omega, h₄, by omega, by omega⟩

/-- A packed location has the fields it was built from. -/
lemma fields_of_new {r o n : ℕ} {l : PackedLocation} (h : new r o n = .ok l) :
    l.regionId = r ∧ l.offset = o ∧ l.recordLen = n := by
  obtain ⟨l', hl', hf⟩ := new_eq_ok (valid_of_new_eq_ok h)
  rw [h, Except.ok.injEq] at hl'
  exact hl' ▸ hf

/-- A packed location takes 60 bits. -/
lemma raw_lt_of_new {r o n : ℕ} {l : PackedLocation} (h : new r o n = .ok l) : l.raw < 2 ^ 60 := by
  obtain ⟨hr, hom, hol, hn0, hnle, hnm⟩ := valid_of_new_eq_ok h
  unfold new at h
  split_ifs at h
  obtain rfl := Except.ok.inj h
  simp only [maxRegionId, regionMask, offsetAlignment, maxRegionOffset, offsetMask, maxRecordLen,
    recordLenMask, recordLenAlignment] at hr hom hol hnle hnm ⊢
  rw [Word.or_shiftLeft _ (by omega : r < 2 ^ 20),
    Word.or_shiftLeft _ (by omega : r + o / 32 * 2 ^ 20 < 2 ^ 40)]
  omega

/-- The fields read from any packed word are in range. -/
lemma validFields (l : PackedLocation) : ValidFields l.regionId l.offset l.recordLen := by
  constructor <;>
    simp only [ValidRecordLen, regionId, offset, recordLen, maxRegionId, regionMask, offsetMask,
      maxRegionOffset, recordLenMask, maxRecordLen, Word.shiftRight_and_mask, offsetAlignment,
      recordLenAlignment] <;>
    omega

/-- Every packed word has a size class. -/
lemma recordSizeClass_recordLen (l : PackedLocation) :
    recordSizeClass l.recordLen = some l.indexSizeClass := by
  simp [indexSizeClass, recordSizeClass_of_valid l.validFields.len]

/-- What index equivalence compares. -/
lemma indexEquivalent_iff {l m : PackedLocation} :
    l.indexEquivalent m = true ↔
      l.regionId = m.regionId ∧ l.offset = m.offset ∧ l.indexSizeClass = m.indexSizeClass := by
  simp [indexEquivalent, and_assoc]

/-- A location with the same Region and offset whose length is rounded up to the bound of its
size class: what an index bucket retains of it. -/
def quantize (l : PackedLocation) : PackedLocation :=
  match new l.regionId l.offset (recordSizeClassUpperBounds l.indexSizeClass) with
  | .ok q => q
  | .error _ => l

/-- The rounded location packs the Region, the offset and the bound of the class. -/
lemma new_quantize (l : PackedLocation) :
    new l.regionId l.offset (recordSizeClassUpperBounds l.indexSizeClass) = .ok l.quantize := by
  obtain ⟨h1, h255, -, -⟩ := sizeClass_bounds l.recordSizeClass_recordLen
  have hv := l.validFields
  obtain ⟨q, hq, -⟩ := new_eq_ok (r := l.regionId) (o := l.offset)
    ⟨hv.region_le, hv.offset_mod, hv.offset_le, validRecordLen_upperBounds h1 h255⟩
  rw [quantize, hq]

/-- The Region of a rounded location. -/
@[simp] lemma regionId_quantize (l : PackedLocation) : l.quantize.regionId = l.regionId :=
  (fields_of_new l.new_quantize).1

/-- The offset of a rounded location. -/
@[simp] lemma offset_quantize (l : PackedLocation) : l.quantize.offset = l.offset :=
  (fields_of_new l.new_quantize).2.1

/-- The length of a rounded location. -/
lemma recordLen_quantize (l : PackedLocation) :
    l.quantize.recordLen = recordSizeClassUpperBounds l.indexSizeClass :=
  (fields_of_new l.new_quantize).2.2

/-- Rounding keeps the size class. -/
@[simp] lemma indexSizeClass_quantize (l : PackedLocation) :
    l.quantize.indexSizeClass = l.indexSizeClass := by
  obtain ⟨h1, h255, -, -⟩ := sizeClass_bounds l.recordSizeClass_recordLen
  have := l.quantize.recordSizeClass_recordLen
  rw [recordLen_quantize, recordSizeClass_upperBound h1 h255, Option.some.injEq] at this
  exact this.symm

/-- Rounding twice is rounding once. -/
@[simp] lemma quantize_quantize (l : PackedLocation) : l.quantize.quantize = l.quantize := by
  have h₁ := l.quantize.new_quantize
  rw [regionId_quantize, offset_quantize, indexSizeClass_quantize, l.new_quantize,
    Except.ok.injEq] at h₁
  exact h₁.symm

/-- Two locations are index equivalent exactly when they round to the same one. -/
theorem indexEquivalent_iff_quantize {l m : PackedLocation} :
    l.indexEquivalent m = true ↔ l.quantize = m.quantize := by
  rw [indexEquivalent_iff]
  constructor
  · rintro ⟨h₁, h₂, h₃⟩
    have hl := l.new_quantize
    rw [h₁, h₂, h₃, m.new_quantize, Except.ok.injEq] at hl
    exact hl.symm
  · intro h
    rw [← l.regionId_quantize, ← l.offset_quantize, ← l.indexSizeClass_quantize, h]
    simp

end PackedLocation

/-- What the index stores for a key. -/
structure IndexEntry where
  /-- Where the record is. -/
  location : PackedLocation
  deriving DecidableEq, Repr

/-- The entry an index bucket gives back for a stored one. -/
def IndexEntry.quantize (e : IndexEntry) : IndexEntry := ⟨e.location.quantize⟩

/-! ## Partition routing -/

/-- The finalizer that spreads a hash over the partitions. -/
def mixForPartition (hash : Hash) : Hash :=
  let hash := hash ^^^ (hash >>> 33)
  let hash := hash * 0xff51afd7ed558ccd#64
  let hash := hash ^^^ (hash >>> 33)
  let hash := hash * 0xc4ceb9fe1a85ec53#64
  hash ^^^ (hash >>> 33)

/-- The partition of a hash: the top bits of the mixed hash. -/
def indexPartitionFor (hash : Hash) (partitionCount : ℕ) : ℕ :=
  if partitionCount = 1 then 0
  else
    let partitionBits := Nat.log2 partitionCount
    ((mixForPartition hash) >>> (64 - partitionBits)).toNat

/-- A hash is routed to one of the partitions. -/
lemma indexPartitionFor_lt (hash : Hash) {k : ℕ} (hk : k ≤ 64) :
    indexPartitionFor hash (2 ^ k) < 2 ^ k := by
  unfold indexPartitionFor
  split_ifs with h
  · exact Nat.two_pow_pos k
  · simp only [Nat.log2_two_pow, BitVec.toNat_ushiftRight, Nat.shiftRight_eq_div_pow]
    have hlt := (mixForPartition hash).isLt
    rw [Nat.div_lt_iff_lt_mul (Nat.two_pow_pos _), ← pow_add]
    rwa [show k + (64 - k) = 64 by omega]

/-- The bucket a hash modulo the number of buckets; a mask for powers of two. -/
def routeHash (hash : Hash) (buckets : ℕ) : ℕ :=
  if buckets.isPowerOfTwo then hash.toNat &&& (buckets - 1) else hash.toNat % buckets

end Cache2

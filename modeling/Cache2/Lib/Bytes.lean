import Mathlib.Data.List.Basic
import Mathlib.Algebra.BigOperators.Group.List.Basic
import Mathlib.Tactic.Ring

set_option relaxedAutoImplicit false
set_option autoImplicit false

/-!
# Byte buffers: slices, in-place copies, little-endian fields

A fixed-layout binary format is written field by field into a zeroed buffer and read back
field by field. This module has the two list operations behind such code, `slice` (the
borrowed range) and `splice` (the in-place copy), the way they commute, and the little-endian
numbers. `eq_of_slices` is the principle by which "the decoder constrains every byte" is
proved: two buffers that agree on consecutive segments covering them are equal.

## Main definitions

* `Bytes.slice`, `Bytes.splice` — the range `[off, off + len)` of a list, and its replacement.
* `Bytes.leBytes`, `Bytes.leVal` — a number as `n` little-endian bytes, and back.
* `Bytes.SlicesAgree` — agreement on consecutive segments of given lengths.
* `Bytes.putFields` — fields copied to their offsets, one after another; `Bytes.Ascending` is
  the layout condition under which none overwrites another.
* `Bytes.writeAll` — equal-sized records copied one after another.

## Main results

* `Bytes.slice_splice_self`, `Bytes.slice_splice_before`, `Bytes.slice_splice_after` — reading
  after writing.
* `Bytes.leVal_leBytes`, `Bytes.leBytes_leVal` — the two codecs are inverse.
* `Bytes.eq_of_slices` — extensionality by segments.
* `Bytes.slice_putFields_mem`, `Bytes.slice_putFields_gap` — a field is found at its offset, and
  the bytes between the fields are those of the buffer.
* `Bytes.slice_writeAll` — record `j` is found in slot `j`.
-/

namespace Bytes

variable {α : Type}

/-! ## Slices and copies -/

/-- The `len` elements from position `off` on (fewer at the end of the list). -/
def slice (l : List α) (off len : ℕ) : List α := (l.drop off).take len

/-- The list with the elements from position `off` on replaced by `bs`. -/
def splice (l : List α) (off : ℕ) (bs : List α) : List α :=
  l.take off ++ bs ++ l.drop (off + bs.length)

/-- A slice inside the list has the requested length. -/
@[simp] lemma length_slice {l : List α} {off len : ℕ} (h : off + len ≤ l.length) :
    (slice l off len).length = len := by
  simp only [slice, List.length_take, List.length_drop]
  omega

/-- A copy inside the list keeps its length. -/
lemma length_splice {l : List α} {off : ℕ} {bs : List α} (h : off + bs.length ≤ l.length) :
    (splice l off bs).length = l.length := by
  simp only [splice, List.length_append, List.length_take, List.length_drop]
  omega

/-- Element `i` of a slice. -/
lemma getElem?_slice (l : List α) (off len i : ℕ) :
    (slice l off len)[i]? = if i < len then l[off + i]? else none := by
  unfold slice
  split_ifs with h
  · rw [List.getElem?_take_of_lt h, List.getElem?_drop]
  · rw [List.getElem?_take_eq_none (by omega)]

/-- Element `i` of a list after a copy. -/
lemma getElem?_splice {l : List α} {off : ℕ} {bs : List α} (h : off + bs.length ≤ l.length)
    (i : ℕ) : (splice l off bs)[i]? =
      if off ≤ i ∧ i < off + bs.length then bs[i - off]? else l[i]? := by
  have hlen : (l.take off).length = off := List.length_take_of_le (by omega)
  unfold splice
  split_ifs with hi
  · rw [List.append_assoc, List.getElem?_append_right (by omega), hlen,
      List.getElem?_append_left (by omega)]
  · rcases Nat.lt_or_ge i off with hlt | hge
    · rw [List.append_assoc, List.getElem?_append_left (by omega),
        List.getElem?_take_of_lt hlt]
    · rw [List.getElem?_append_right (by simp only [List.length_append]; omega),
        List.getElem?_drop]
      congr 1
      simp only [List.length_append]
      omega

/-- Reading back exactly what was copied. -/
@[simp] lemma slice_splice_self {l : List α} {off : ℕ} {bs : List α} {len : ℕ}
    (hlen : bs.length = len) (h : off + len ≤ l.length) : slice (splice l off bs) off len = bs := by
  subst hlen
  apply List.ext_getElem?
  intro i
  rw [getElem?_slice, getElem?_splice h]
  by_cases hi : i < bs.length
  · rw [if_pos hi, if_pos (by omega)]
    congr 1
    omega
  · rw [if_neg hi, List.getElem?_eq_none (by omega)]

/-- A slice that ends before the copied range does not see it. -/
lemma slice_splice_before {l : List α} {off : ℕ} {bs : List α} {o len : ℕ}
    (h : off + bs.length ≤ l.length) (hb : o + len ≤ off) :
    slice (splice l off bs) o len = slice l o len := by
  apply List.ext_getElem?
  intro i
  rw [getElem?_slice, getElem?_slice, getElem?_splice h]
  split_ifs with hi hm
  · omega
  · rfl
  · rfl

/-- A slice that starts after the copied range does not see it. -/
lemma slice_splice_after {l : List α} {off : ℕ} {bs : List α} {o len : ℕ}
    (h : off + bs.length ≤ l.length) (ha : off + bs.length ≤ o) :
    slice (splice l off bs) o len = slice l o len := by
  apply List.ext_getElem?
  intro i
  rw [getElem?_slice, getElem?_slice, getElem?_splice h]
  split_ifs with hi hm
  · omega
  · rfl
  · rfl

/-- The list up to the end of the copied range. -/
lemma take_splice {l : List α} {off : ℕ} (bs : List α) (h : off ≤ l.length) :
    (splice l off bs).take (off + bs.length) = l.take off ++ bs := by
  unfold splice
  rw [List.take_left' (by simp [h])]

/-- The list before the copied range. -/
lemma take_splice_before {l : List α} {off : ℕ} (bs : List α) (h : off ≤ l.length) :
    (splice l off bs).take off = l.take off := by
  unfold splice
  rw [List.append_assoc, List.take_left' (by simp [h])]

/-- The list after the copied range. -/
lemma drop_splice_after {l : List α} {off : ℕ} (bs : List α) (h : off ≤ l.length) :
    (splice l off bs).drop (off + bs.length) = l.drop (off + bs.length) := by
  unfold splice
  rw [List.drop_left' (by simp [h])]

/-- The list from the beginning of the copied range on. -/
lemma drop_splice_self {l : List α} {off : ℕ} (bs : List α) (h : off ≤ l.length) :
    (splice l off bs).drop off = bs ++ l.drop (off + bs.length) := by
  unfold splice
  rw [List.append_assoc, List.drop_left' (by simp [h])]

/-- Copying twice to the same place. -/
lemma splice_splice {l : List α} {off : ℕ} {bs cs : List α} (hlen : bs.length = cs.length)
    (h : off + bs.length ≤ l.length) : splice (splice l off bs) off cs = splice l off cs := by
  have hdrop := drop_splice_after (l := l) bs (by omega : off ≤ l.length)
  rw [splice, take_splice_before bs (by omega), ← hlen, hdrop, hlen]
  rfl

/-- Copying one after another. -/
lemma splice_append {l : List α} {off : ℕ} (bs cs : List α) (h : off ≤ l.length) :
    splice (splice l off bs) (off + bs.length) cs = splice l off (bs ++ cs) := by
  have hdrop : (splice l off bs).drop (off + bs.length + cs.length) =
      l.drop (off + bs.length + cs.length) := by
    rw [← List.drop_drop, drop_splice_after bs h, List.drop_drop]
  rw [splice, take_splice bs h, hdrop]
  simp only [splice, List.length_append, List.append_assoc, Nat.add_assoc]

/-- A copy that begins inside the list ends inside of what it makes of the list. -/
lemma le_length_splice {l : List α} {off : ℕ} (bs : List α) (h : off ≤ l.length) :
    off + bs.length ≤ (splice l off bs).length := by
  simp only [splice, List.length_append, List.length_take, List.length_drop]
  omega

/-- Copying nothing. -/
@[simp] lemma splice_nil (l : List α) (off : ℕ) : splice l off [] = l := by
  simp [splice]

/-- Copying over the whole list. -/
lemma splice_zero {l bs : List α} (h : l.length ≤ bs.length) : splice l 0 bs = bs := by
  rw [splice, List.take_zero, List.nil_append, Nat.zero_add, List.drop_eq_nil_of_le h,
    List.append_nil]

/-- Copying a slice to where it came from. -/
lemma splice_slice {l : List α} {off len : ℕ} (h : off + len ≤ l.length) :
    splice l off (slice l off len) = l := by
  rw [splice, length_slice h, slice, List.append_assoc, ← List.drop_drop, List.take_append_drop,
    List.take_append_drop]

/-- A slice of a slice. -/
lemma slice_slice (l : List α) {off len o n : ℕ} (h : o + n ≤ len) :
    slice (slice l off len) o n = slice l (off + o) n := by
  apply List.ext_getElem?
  intro i
  rw [getElem?_slice, getElem?_slice, getElem?_slice]
  by_cases hi : i < n
  · rw [if_pos hi, if_pos (by omega), if_pos hi]
    congr 1
    omega
  · rw [if_neg hi, if_neg hi]

/-- A slice of a constant list is constant. -/
lemma slice_replicate (a : α) {n off len : ℕ} (h : off + len ≤ n) :
    slice (List.replicate n a) off len = List.replicate len a := by
  simp only [slice, List.drop_replicate, List.take_replicate]
  congr 1
  omega

/-- A slice of the first of two appended lists. -/
lemma slice_append_left {a b : List α} {off len : ℕ} (h : off + len ≤ a.length) :
    slice (a ++ b) off len = slice a off len := by
  apply List.ext_getElem?
  intro i
  rw [getElem?_slice, getElem?_slice]
  split_ifs with hi
  · rw [List.getElem?_append_left (by omega)]
  · rfl

/-- A slice of the second of two appended lists. -/
lemma slice_append_right {a b : List α} {off len : ℕ} (h : a.length ≤ off) :
    slice (a ++ b) off len = slice b (off - a.length) len := by
  apply List.ext_getElem?
  intro i
  rw [getElem?_slice, getElem?_slice]
  split_ifs with hi
  · rw [List.getElem?_append_right (by omega)]
    congr 1
    omega
  · rfl

/-- A slice in two parts. -/
lemma slice_add (l : List α) (off m n : ℕ) :
    slice l off (m + n) = slice l off m ++ slice l (off + m) n := by
  simp only [slice, List.take_add, List.drop_drop]

/-- Copying over the middle of three lists. -/
lemma splice_middle (a c : List α) {b b' : List α} (h : b.length = b'.length) :
    splice (a ++ (b ++ c)) a.length b' = a ++ (b' ++ c) := by
  rw [splice, List.take_left, ← h, ← List.drop_drop, List.drop_left, List.drop_left,
    List.append_assoc]

/-- The whole list as a slice. -/
lemma slice_zero_length (l : List α) : slice l 0 l.length = l := by simp [slice]

/-- Lists of equal length, one after another: the `i`-th of them. -/
lemma slice_flatten_map {f : ℕ → List α} {size : ℕ} (hf : ∀ i, (f i).length = size) :
    ∀ (n : ℕ) {i : ℕ}, i < n → slice ((List.range n).map f).flatten (i * size) size = f i := by
  intro n
  induction n with
  | zero => intro i hi; omega
  | succ n ih =>
    intro i hi
    have hlen : ((List.range n).map f).flatten.length = n * size := by
      simp [List.length_flatten, Function.comp_def, hf]
    rw [List.range_succ, List.map_append, List.flatten_append]
    rcases Nat.lt_succ_iff_lt_or_eq.1 hi with hlt | rfl
    · rw [slice_append_left, ih hlt]
      rw [hlen]
      calc i * size + size = (i + 1) * size := by ring
        _ ≤ n * size := Nat.mul_le_mul_right _ hlt
    · rw [slice_append_right (by omega), hlen, Nat.sub_self]
      have hall := slice_zero_length (f i)
      rw [hf] at hall
      simpa using hall

/-! ## Extensionality by segments -/

/-- The lists agree on consecutive segments of the given lengths, from position `off` on. -/
def SlicesAgree (a b : List α) : ℕ → List ℕ → Prop
  | _, [] => True
  | off, n :: ns => slice a off n = slice b off n ∧ SlicesAgree a b (off + n) ns

/-- Two lists that agree on consecutive segments covering both are equal. -/
theorem eq_of_slices (lens : List ℕ) {a b : List α} (ha : a.length = lens.sum)
    (hb : b.length = lens.sum) (h : SlicesAgree a b 0 lens) : a = b := by
  -- the segments from `off` on determine everything from `off` on
  have key : ∀ (ns : List ℕ) (off : ℕ), a.length = off + ns.sum → b.length = off + ns.sum →
      SlicesAgree a b off ns → a.drop off = b.drop off := by
    intro ns
    induction ns with
    | nil =>
      intro off hla hlb _
      rw [List.drop_eq_nil_of_le (by simp at hla; omega),
        List.drop_eq_nil_of_le (by simp at hlb; omega)]
    | cons n ns ih =>
      intro off hla hlb hs
      simp only [List.sum_cons] at hla hlb
      have htail := ih (off + n) (by omega) (by omega) hs.2
      rw [← List.take_append_drop n (a.drop off), ← List.take_append_drop n (b.drop off),
        List.drop_drop, List.drop_drop, htail]
      exact congrArg (· ++ _) hs.1
  simpa using key lens 0 (by simpa using ha) (by simpa using hb) h

/-- Two lists of equally many segments of one length that agree on each of them are equal. -/
lemma eq_of_slices_replicate {n size : ℕ} {a b : List α} (ha : a.length = n * size)
    (hb : b.length = n * size)
    (h : ∀ q < n, slice a (q * size) size = slice b (q * size) size) : a = b := by
  have key : ∀ (k q : ℕ), q + k = n → SlicesAgree a b (q * size) (List.replicate k size) := by
    intro k
    induction k with
    | zero => intro q _; trivial
    | succ k ih =>
      intro q hq
      refine ⟨h q (by omega), ?_⟩
      rw [← Nat.succ_mul]
      exact ih (q + 1) (by omega)
  refine eq_of_slices (List.replicate n size) (by simpa using ha) (by simpa using hb) ?_
  simpa using key n 0 (Nat.zero_add n)

/-! ## Little-endian numbers -/

/-- The `n` low bytes of a number, least significant first. -/
def leBytes : ℕ → ℕ → List UInt8
  | 0, _ => []
  | n + 1, v => UInt8.ofNat (v % 256) :: leBytes n (v / 256)

/-- The number with the given bytes, least significant first. -/
def leVal : List UInt8 → ℕ
  | [] => 0
  | b :: bs => b.toNat + 256 * leVal bs

/-- A number is written in the requested number of bytes. -/
@[simp] lemma length_leBytes (n v : ℕ) : (leBytes n v).length = n := by
  induction n generalizing v with
  | zero => rfl
  | succ n ih => simp [leBytes, ih]

/-- A string of `n` bytes denotes a number below `256 ^ n`. -/
lemma leVal_lt (bs : List UInt8) : leVal bs < 256 ^ bs.length := by
  induction bs with
  | nil => simp [leVal]
  | cons b bs ih =>
    have hb := b.toNat_lt
    simp only [leVal, List.length_cons, pow_succ]
    omega

/-- Writing and reading a number gives it back modulo the width. -/
lemma leVal_leBytes (n v : ℕ) : leVal (leBytes n v) = v % 256 ^ n := by
  induction n generalizing v with
  | zero => simp [leBytes, leVal, Nat.mod_one]
  | succ n ih =>
    have hm : (UInt8.ofNat (v % 256)).toNat = v % 256 := by
      rw [UInt8.toNat_ofNat']
      omega
    rw [leBytes, leVal, ih, hm, pow_succ', Nat.mod_mul]

/-- Reading and writing a byte string gives it back. -/
lemma leBytes_leVal (bs : List UInt8) : leBytes bs.length (leVal bs) = bs := by
  induction bs with
  | nil => rfl
  | cons b bs ih =>
    have hb := b.toNat_lt
    have h₁ : (b.toNat + 256 * leVal bs) % 256 = b.toNat := by omega
    have h₂ : (b.toNat + 256 * leVal bs) / 256 = leVal bs := by omega
    simp only [List.length_cons, leBytes, leVal, h₁, h₂, ih, List.cons.injEq, and_true]
    exact UInt8.ofNat_toNat

/-- Zero is written as zero bytes. -/
lemma leBytes_zero (n : ℕ) : leBytes n 0 = List.replicate n 0 := by
  induction n with
  | zero => rfl
  | succ n ih =>
    rw [leBytes, Nat.zero_mod, Nat.zero_div, ih, List.replicate_succ]
    rfl

/-! ## Fields at fixed offsets -/

/-- Copies each field to its offset, in the order of the list. -/
def putFields (fields : List (ℕ × List α)) (buf : List α) : List α :=
  fields.foldl (fun b f => splice b f.1 f.2) buf

/-- The fields lie one after another between `lo` and `hi`. -/
def Ascending : ℕ → ℕ → List (ℕ × List α) → Prop
  | lo, hi, [] => lo ≤ hi
  | lo, hi, f :: fs => lo ≤ f.1 ∧ Ascending (f.1 + f.2.length) hi fs

/-- Ascending fields end at the upper limit at the latest. -/
lemma Ascending.le : ∀ {lo hi : ℕ} {fs : List (ℕ × List α)}, Ascending lo hi fs → lo ≤ hi
  | _, _, [], h => h
  | _, _, _ :: _, h => h.1.trans ((Nat.le_add_right _ _).trans h.2.le)

/-- Each ascending field lies between the limits. -/
lemma Ascending.bounds : ∀ {lo hi : ℕ} {fs : List (ℕ × List α)}, Ascending lo hi fs →
    ∀ f ∈ fs, lo ≤ f.1 ∧ f.1 + f.2.length ≤ hi
  | _, _, [], _, f, hf => by simp at hf
  | _, _, g :: fs, h, f, hf => by
    rcases List.mem_cons.1 hf with rfl | hf
    · exact ⟨h.1, h.2.le⟩
    · have := h.2.bounds f hf
      exact ⟨by have := h.1; omega, this.2⟩

/-- Copying fields keeps the buffer's length. -/
lemma length_putFields : ∀ {lo hi : ℕ} {fs : List (ℕ × List α)} {buf : List α},
    Ascending lo hi fs → hi ≤ buf.length → (putFields fs buf).length = buf.length
  | _, _, [], _, _, _ => rfl
  | _, _, f :: fs, buf, h, hb => by
    have hlen : (splice buf f.1 f.2).length = buf.length := length_splice (h.2.le.trans hb)
    show (putFields fs (splice buf f.1 f.2)).length = buf.length
    rw [length_putFields h.2 (by omega), hlen]

/-- A range outside of all fields is not touched. -/
lemma slice_putFields_gap {o len : ℕ} : ∀ {lo hi : ℕ} {fs : List (ℕ × List α)} {buf : List α},
    Ascending lo hi fs → hi ≤ buf.length →
    (∀ f ∈ fs, f.1 + f.2.length ≤ o ∨ o + len ≤ f.1) →
    slice (putFields fs buf) o len = slice buf o len
  | _, _, [], _, _, _, _ => rfl
  | _, _, f :: fs, buf, h, hb, hgap => by
    have hlen : (splice buf f.1 f.2).length = buf.length := length_splice (h.2.le.trans hb)
    show slice (putFields fs (splice buf f.1 f.2)) o len = slice buf o len
    rw [slice_putFields_gap h.2 (by omega) fun g hg => hgap g (List.mem_cons_of_mem _ hg)]
    rcases hgap f List.mem_cons_self with ha | hbef
    · exact slice_splice_after (h.2.le.trans hb) ha
    · exact slice_splice_before (h.2.le.trans hb) hbef

/-- Each field is found at its offset: later fields lie after it. -/
lemma slice_putFields_mem {o : ℕ} {bs : List α} : ∀ {lo hi : ℕ} {fs : List (ℕ × List α)}
    {buf : List α}, Ascending lo hi fs → hi ≤ buf.length → (o, bs) ∈ fs →
    slice (putFields fs buf) o bs.length = bs
  | _, _, [], _, _, _, hm => by simp at hm
  | _, _, f :: fs, buf, h, hb, hm => by
    have hlen : (splice buf f.1 f.2).length = buf.length := length_splice (h.2.le.trans hb)
    show slice (putFields fs (splice buf f.1 f.2)) o bs.length = bs
    rcases List.mem_cons.1 hm with rfl | hm
    · rw [slice_putFields_gap h.2 (by omega) fun g hg => .inr (h.2.bounds g hg).1,
        slice_splice_self rfl (h.2.le.trans hb)]
    · exact slice_putFields_mem h.2 (by omega) hm

/-- The fields lie one after another from `lo` to `hi`, without gaps. -/
def Contiguous : ℕ → ℕ → List (ℕ × List α) → Prop
  | lo, hi, [] => lo = hi
  | lo, hi, f :: fs => f.1 = lo ∧ Contiguous (lo + f.2.length) hi fs

/-- Fields without gaps are ascending. -/
lemma Contiguous.ascending : ∀ {lo hi : ℕ} {fs : List (ℕ × List α)},
    Contiguous lo hi fs → Ascending lo hi fs
  | _, _, [], h => Nat.le_of_eq h
  | _, _, _ :: _, h => ⟨h.1.ge, by rw [h.1]; exact h.2.ascending⟩

/-- Fields without gaps, continued by further ones. -/
lemma Contiguous.append : ∀ {lo mid hi : ℕ} {fs gs : List (ℕ × List α)},
    Contiguous lo mid fs → Contiguous mid hi gs → Contiguous lo hi (fs ++ gs)
  | _, _, _, [], _, h, hg => h ▸ hg
  | _, _, _, _ :: _, _, h, hg => ⟨h.1, h.2.append hg⟩

/-- Fields without gaps cover their range. -/
lemma Contiguous.sum : ∀ {lo hi : ℕ} {fs : List (ℕ × List α)},
    Contiguous lo hi fs → lo + (fs.map fun f => f.2.length).sum = hi
  | _, _, [], h => h
  | _, _, f :: fs, h => by
    have := h.2.sum
    simp only [List.map_cons, List.sum_cons]
    omega

/-- Agreement on the fields is agreement on the segments. -/
private lemma Contiguous.slicesAgree {a b : List α} : ∀ {lo hi : ℕ} {fs : List (ℕ × List α)},
    Contiguous lo hi fs → (∀ f ∈ fs, slice a f.1 f.2.length = slice b f.1 f.2.length) →
    SlicesAgree a b lo (fs.map fun f => f.2.length)
  | _, _, [], _, _ => trivial
  | _, _, f :: _, h, hs =>
    ⟨h.1 ▸ hs f List.mem_cons_self,
      h.2.slicesAgree fun g hg => hs g (List.mem_cons_of_mem _ hg)⟩

/-- **Fields determine a buffer.** A list is what fields without gaps make of a buffer exactly
when it holds every one of them. -/
theorem eq_putFields_iff {l buf : List α} {fs : List (ℕ × List α)}
    (h : Contiguous 0 buf.length fs) (hl : l.length = buf.length) :
    l = putFields fs buf ↔ ∀ f ∈ fs, slice l f.1 f.2.length = f.2 := by
  constructor
  · rintro rfl f hf
    exact slice_putFields_mem h.ascending le_rfl hf
  · intro hs
    have hsum : (fs.map fun f => f.2.length).sum = buf.length := by
      have := h.sum
      omega
    refine eq_of_slices _ (hl.trans hsum.symm)
      ((length_putFields h.ascending le_rfl).trans hsum.symm) (h.slicesAgree fun f hf => ?_)
    rw [hs f hf, slice_putFields_mem h.ascending le_rfl (by simpa using hf)]

/-! ## Runs of records -/

/-- Copies `f r` over the slot `base + i * size` of every record `r`, where `i` counts from
`first`. The slot's previous contents are handed to `f`, as to an in-place encoder. -/
def writeAll {β : Type} (f : β → List α → List α) (base size : ℕ) :
    ℕ → List β → List α → List α
  | _, [], buf => buf
  | first, r :: rs, buf =>
    writeAll f base size (first + 1) rs
      (splice buf (base + first * size) (f r (slice buf (base + first * size) size)))

section WriteAll

variable {β : Type} {f : β → List α → List α} {base size : ℕ}

/-- In-place records keep the buffer's length. -/
lemma length_writeAll (hf : ∀ r s, s.length = size → (f r s).length = size) (rs : List β) :
    ∀ (first : ℕ) (buf : List α), base + (first + rs.length) * size ≤ buf.length →
      (writeAll f base size first rs buf).length = buf.length := by
  induction rs with
  | nil => intro first buf _; rfl
  | cons r rs ih =>
    intro first buf h
    have hfit : base + first * size + size ≤ buf.length := by
      have : (first + 1) * size ≤ (first + (r :: rs).length) * size :=
        Nat.mul_le_mul_right _ (by simp)
      rw [Nat.add_mul, Nat.one_mul] at this
      omega
    have hfl := hf r (slice buf (base + first * size) size) (length_slice hfit)
    have hs : (splice buf (base + first * size)
        (f r (slice buf (base + first * size) size))).length =
        buf.length := length_splice (by omega)
    rw [writeAll, ih (first + 1) _ (by
      rw [hs]; simpa [Nat.add_assoc, Nat.add_comm 1] using h), hs]

/-- A slice that ends before the first record keeps its contents. -/
lemma slice_writeAll_before (hf : ∀ r s, s.length = size → (f r s).length = size)
    {o len : ℕ} (rs : List β) :
    ∀ (first : ℕ) (buf : List α), base + (first + rs.length) * size ≤ buf.length →
      o + len ≤ base + first * size →
      slice (writeAll f base size first rs buf) o len = slice buf o len := by
  induction rs with
  | nil => intro first buf _ _; rfl
  | cons r rs ih =>
    intro first buf h ho
    have hstep : (first + 1) * size = first * size + size := by ring
    have hfit : base + first * size + size ≤ buf.length := by
      have : (first + 1) * size ≤ (first + (r :: rs).length) * size :=
        Nat.mul_le_mul_right _ (by simp)
      omega
    have hfl := hf r (slice buf (base + first * size) size) (length_slice hfit)
    have hs : (splice buf (base + first * size)
        (f r (slice buf (base + first * size) size))).length =
        buf.length := length_splice (by omega)
    rw [writeAll, ih (first + 1) _ (by
        rw [hs]; simpa [Nat.add_assoc, Nat.add_comm 1] using h) (by omega),
      slice_splice_before (by omega) (by omega)]

/-- A slice that starts after the last record keeps its contents. -/
lemma slice_writeAll_after (hf : ∀ r s, s.length = size → (f r s).length = size)
    {o len : ℕ} (rs : List β) :
    ∀ (first : ℕ) (buf : List α), base + (first + rs.length) * size ≤ buf.length →
      base + (first + rs.length) * size ≤ o →
      slice (writeAll f base size first rs buf) o len = slice buf o len := by
  induction rs with
  | nil => intro first buf _ _; rfl
  | cons r rs ih =>
    intro first buf h ho
    have hfit : base + first * size + size ≤ base + (first + (r :: rs).length) * size := by
      have : (first + 1) * size ≤ (first + (r :: rs).length) * size :=
        Nat.mul_le_mul_right _ (by simp)
      rw [Nat.add_mul, Nat.one_mul] at this
      omega
    have hfl := hf r (slice buf (base + first * size) size) (length_slice (by omega))
    have hs : (splice buf (base + first * size)
        (f r (slice buf (base + first * size) size))).length =
        buf.length := length_splice (by omega)
    have harr : first + 1 + rs.length = first + (r :: rs).length := by simp; omega
    rw [writeAll, ih (first + 1) _ (by rw [hs, harr]; exact h) (by rw [harr]; exact ho),
      slice_splice_after (by omega) (by omega)]

/-- Record `j` is found in slot `j`: its in-place encoding over what the slot held.

**Proof sketch.** Induction on the records. The first record's slot ends where the later ones
begin, so later copies do not touch it; and a later record's slot is untouched by the first. -/
lemma slice_writeAll (hf : ∀ r s, s.length = size → (f r s).length = size) (rs : List β) :
    ∀ (first : ℕ) (buf : List α), base + (first + rs.length) * size ≤ buf.length →
      ∀ (j : ℕ) (hj : j < rs.length),
        slice (writeAll f base size first rs buf) (base + (first + j) * size) size =
          f rs[j] (slice buf (base + (first + j) * size) size) := by
  induction rs with
  | nil => intro first buf _ j hj; simp at hj
  | cons r rs ih =>
    intro first buf h j hj
    have harr : first + 1 + rs.length = first + (r :: rs).length := by simp; omega
    have hstep : (first + 1) * size = first * size + size := by ring
    have hfit : base + first * size + size ≤ buf.length := by
      have : (first + 1) * size ≤ (first + (r :: rs).length) * size :=
        Nat.mul_le_mul_right _ (by simp)
      omega
    have hfl := hf r (slice buf (base + first * size) size) (length_slice hfit)
    have hs : (splice buf (base + first * size)
        (f r (slice buf (base + first * size) size))).length =
        buf.length := length_splice (by omega)
    rw [writeAll]
    cases j with
    | zero =>
      rw [slice_writeAll_before hf rs (first + 1) _ (by rw [hs, harr]; exact h) (by
          rw [Nat.add_zero]; omega), Nat.add_zero, slice_splice_self hfl hfit]
      rfl
    | succ j =>
      have hidx : first + (j + 1) = first + 1 + j := by omega
      have hle : (first + 1) * size ≤ (first + 1 + j) * size := Nat.mul_le_mul_right _ (by omega)
      rw [hidx, ih (first + 1) _ (by rw [hs, harr]; exact h) j (by simpa using hj),
        slice_splice_after (by omega) (by omega)]
      rfl

end WriteAll

end Bytes

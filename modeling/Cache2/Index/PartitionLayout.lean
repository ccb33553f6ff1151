import Mathlib.Data.List.Basic
import Mathlib.Tactic.Ring
import Mathlib.Tactic.Linarith
import Cache2.Index.Layout

set_option relaxedAutoImplicit false
set_option autoImplicit false

/-!
# The partition directory exists and is balanced

Building the partition directory of an index makes many checks: the halving of the partition
count, the arithmetic of every range, and the refusal of a range with fewer than four buckets.
None of them fails once the image itself fits: only the last page of an image is partial, the
extra pages go to the last partitions, and a last partition that would be too small has made
the partition count smaller before the ranges are built.

## Main definitions

* `Cache2.finalPages` — the pages of the last partition.
* `Cache2.PartitionLayout` — what a partition directory promises.

## Main results

* `Cache2.usablePartitionCount_ok`, `Cache2.buildRanges_ok` — the two phases never fail.
* `Cache2.canonicalIndexPartitionRanges_layout` — the directory exists and keeps its promises.
-/

namespace Cache2

/-! ## The partition count -/

/-- The pages of the last of `count` partitions. -/
def finalPages (pageCount count : ℕ) : ℕ :=
  pageCount / count + (if pageCount % count ≠ 0 then 1 else 0)

/-- The last partition has a page, and no more than there are. -/
lemma finalPages_bounds {pageCount count : ℕ} (hpos : 0 < count) (hle : count ≤ pageCount) :
    0 < finalPages pageCount count ∧ finalPages pageCount count ≤ pageCount := by
  have hdiv : 0 < pageCount / count := Nat.div_pos hle hpos
  refine ⟨Nat.lt_of_lt_of_le hdiv (Nat.le_add_right _ _), ?_⟩
  have hdm := Nat.div_add_mod pageCount count
  have hmul : pageCount / count ≤ count * (pageCount / count) := Nat.le_mul_of_pos_left _ hpos
  unfold finalPages
  split_ifs with hrem
  · have hr : 0 < pageCount % count := Nat.pos_of_ne_zero hrem
    omega
  · omega

/-- The pages of an image that fits, and the bounds its partial last page gives. -/
structure FitsPages (slotCount pageCount : ℕ) : Prop where
  lower : (pageCount - 1) * 504 < slotCount
  upper : slotCount ≤ pageCount * 504
  size : pageCount * 4096 ≤ isizeMax

/-- The pages of an image have these bounds. -/
lemma FitsPages.of_size {slotCount : ℕ} (hpos : 0 < slotCount)
    (hsize : (slotCount + 503) / 504 * 4096 ≤ isizeMax) :
    FitsPages slotCount ((slotCount + 503) / 504) where
  lower := by omega
  upper := by omega
  size := hsize

namespace FitsPages

variable {slotCount pageCount : ℕ}

/-- There is a page. -/
lemma pos (h : FitsPages slotCount pageCount) (hslots : 0 < slotCount) : 0 < pageCount := by
  have := h.upper
  omega

/-- Buckets of pages of the image are machine words. -/
lemma mul_lt (h : FitsPages slotCount pageCount) {page : ℕ} (hle : page ≤ pageCount) :
    page * 504 < 2 ^ 64 := by
  have := h.size
  unfold isizeMax at this
  omega

/-- Page numbers of the image are machine words. -/
lemma page_lt (h : FitsPages slotCount pageCount) {page : ℕ} (hle : page ≤ pageCount) :
    page < 2 ^ 64 := by
  have := h.mul_lt hle
  omega

/-- The last partition's buckets are computed without an overflow. -/
lemma finalPartitionSlots_ok (h : FitsPages slotCount pageCount) {count : ℕ} (hpos : 0 < count)
    (hle : count ≤ pageCount) :
    finalPartitionSlots slotCount pageCount count =
      .ok (slotCount - (pageCount - finalPages pageCount count) * 504) := by
  obtain ⟨hfpos, hfle⟩ := finalPages_bounds hpos hle
  have hlower := h.lower
  have hfirst : (pageCount - finalPages pageCount count) * 504 ≤ (pageCount - 1) * 504 :=
    Nat.mul_le_mul_right _ (by omega)
  have hsub : Word.checkedSub pageCount (finalPages pageCount count) =
      some (pageCount - finalPages pageCount count) :=
    Word.checkedSub_eq_some.2 (by omega)
  have hmul : Word.checkedMul 64 (pageCount - finalPages pageCount count)
      indexImageSlotsPerPage = some ((pageCount - finalPages pageCount count) * 504) :=
    Word.checkedMul_eq_some.2 ⟨h.mul_lt (Nat.sub_le _ _), rfl⟩
  have hslots : Word.checkedSub slotCount ((pageCount - finalPages pageCount count) * 504) =
      some (slotCount - (pageCount - finalPages pageCount count) * 504) :=
    Word.checkedSub_eq_some.2 (by omega)
  unfold finalPartitionSlots
  simp only [finalPages] at hsub hmul hslots ⊢
  simp only [hsub, hmul, hslots, orOverflow, bind, Except.bind]

/-- With one partition, that partition has all the buckets. -/
lemma finalPages_one : finalPages pageCount 1 = pageCount := by
  simp [finalPages, Nat.mod_one]

/-- **The halving ends at a count whose last partition has four buckets.** -/
lemma usablePartitionCount_ok (h : FitsPages slotCount pageCount) (hslots : 4 ≤ slotCount) :
    ∀ {k : ℕ}, 2 ^ k ≤ pageCount → ∃ j ≤ k,
      usablePartitionCount slotCount pageCount k = .ok (2 ^ j) ∧
        4 ≤ slotCount - (pageCount - finalPages pageCount (2 ^ j)) * 504 := by
  intro k
  induction k with
  | zero =>
    intro _
    exact ⟨0, le_rfl, rfl, by rw [pow_zero, finalPages_one]; omega⟩
  | succ k ih =>
    intro hle
    have hslots' := h.finalPartitionSlots_ok (Nat.two_pow_pos (k + 1)) hle
    by_cases hsmall : slotCount - (pageCount - finalPages pageCount (2 ^ (k + 1))) * 504 < 4
    · obtain ⟨j, hj, hcount, hfour⟩ :=
        ih ((Nat.pow_le_pow_right (by omega) (Nat.le_succ k)).trans hle)
      refine ⟨j, hj.trans (Nat.le_succ k), ?_, hfour⟩
      rw [usablePartitionCount, hslots']
      exact (if_pos hsmall).trans hcount
    · refine ⟨k + 1, le_rfl, ?_, Nat.not_lt.1 hsmall⟩
      rw [usablePartitionCount, hslots']
      exact if_neg hsmall

end FitsPages

/-! ## The ranges -/

/-- The pages below a partition grow with its number by the partition's own pages. -/
lemma pagesBelow_succ (basePages firstExtra i : ℕ) :
    pagesBelow basePages firstExtra (i + 1) =
      pagesBelow basePages firstExtra i + (basePages + (if i ≥ firstExtra then 1 else 0)) := by
  simp only [pagesBelow, Nat.add_mul, Nat.one_mul]
  split_ifs <;> omega

/-- More partitions have more pages. -/
lemma pagesBelow_lt {basePages firstExtra : ℕ} (hbase : 0 < basePages) {i j : ℕ} (hij : i < j) :
    pagesBelow basePages firstExtra i < pagesBelow basePages firstExtra j := by
  induction j, hij using Nat.le_induction with
  | base => rw [pagesBelow_succ]; omega
  | succ j _ ih => rw [pagesBelow_succ]; omega

/-- All partitions together have all the pages. -/
lemma pagesBelow_all (pageCount : ℕ) {count : ℕ} (hpos : 0 < count) :
    pagesBelow (pageCount / count) (count - pageCount % count) count = pageCount := by
  have hdm := Nat.div_add_mod pageCount count
  have hlt := Nat.mod_lt pageCount hpos
  unfold pagesBelow
  omega

/-- The last partition has the pages the halving has counted. -/
lemma pagesBelow_last (pageCount : ℕ) {count : ℕ} (hpos : 0 < count) :
    pagesBelow (pageCount / count) (count - pageCount % count) (count - 1) =
      pageCount - finalPages pageCount count := by
  have hall := pagesBelow_all pageCount hpos
  have hsucc := pagesBelow_succ (pageCount / count) (count - pageCount % count) (count - 1)
  rw [Nat.sub_add_cancel hpos, hall] at hsucc
  have hlt := Nat.mod_lt pageCount hpos
  unfold finalPages
  split_ifs at hsucc ⊢ <;> omega

/-- **Building the ranges never fails**, when every partition but the last has whole pages and
the last has four buckets.

**Proof sketch.** Induction on the number of partitions left. A partition that is not the last
ends at a page that is followed by another one, so all of its pages are full; the last one has
the buckets that the halving of the partition count has made sure of. -/
lemma buildRanges_ok {slotCount pageCount basePages firstExtra count : ℕ}
    (h : FitsPages slotCount pageCount) (hbase : 0 < basePages)
    (hall : pagesBelow basePages firstExtra count = pageCount)
    (hlast : 4 ≤ slotCount - pagesBelow basePages firstExtra (count - 1) * 504) (n : ℕ) :
    ∀ i : ℕ, i + n = count → ∃ ranges : List IndexPartitionRange,
      buildRanges slotCount basePages firstExtra (List.range' i n)
        (pagesBelow basePages firstExtra i) = .ok ranges ∧
      ∀ (j : ℕ) (hj : j < ranges.length),
        ranges[j].pageCount = basePages + (if i + j ≥ firstExtra then 1 else 0) := by
  induction n with
  | zero =>
    intro i _
    exact ⟨[], rfl, fun j hj => absurd hj (Nat.not_lt_zero j)⟩
  | succ n ih =>
    intro i hi
    have hlower := h.lower
    set own := basePages + (if i ≥ firstExtra then 1 else 0) with hown
    have hpos : 0 < own := Nat.lt_of_lt_of_le hbase (Nat.le_add_right _ _)
    have hnext := pagesBelow_succ basePages firstExtra i
    rw [← hown] at hnext
    have hend : pagesBelow basePages firstExtra (i + 1) ≤ pageCount := by
      rcases Nat.eq_or_lt_of_le (show i + 1 ≤ count by omega) with heq | hlt
      · rw [heq, hall]
      · rw [← hall]
        exact (pagesBelow_lt hbase hlt).le
    -- the buckets of the partition
    have hfour : 4 ≤ min (slotCount - pagesBelow basePages firstExtra i * 504) (own * 504) := by
      refine le_min ?_ (by omega)
      rcases Nat.eq_or_lt_of_le (show i + 1 ≤ count by omega) with heq | hlt
      · rwa [show count - 1 = i by omega] at hlast
      · have hmore := @pagesBelow_lt basePages firstExtra hbase _ _ hlt
        rw [hall, hnext] at hmore
        have hslots : (pagesBelow basePages firstExtra i + 1) * 504 ≤ (pageCount - 1) * 504 :=
          Nat.mul_le_mul_right 504 (by omega)
        rw [Nat.add_mul] at hslots
        exact Nat.le_sub_of_add_le' (Nat.add_le_add_left (by decide) _ |>.trans
          (hslots.trans hlower.le))
    have h₁ : Word.checkedMul 64 (pagesBelow basePages firstExtra i) indexImageSlotsPerPage =
        some (pagesBelow basePages firstExtra i * 504) :=
      Word.checkedMul_eq_some.2 ⟨h.mul_lt (by omega), rfl⟩
    have h₂ : Word.checkedMul 64 own indexImageSlotsPerPage = some (own * 504) :=
      Word.checkedMul_eq_some.2 ⟨h.mul_lt (by omega), rfl⟩
    have h₃ : Word.checkedSub slotCount (pagesBelow basePages firstExtra i * 504) =
        some (slotCount - pagesBelow basePages firstExtra i * 504) :=
      Word.checkedSub_eq_some.2 (by omega)
    have h₄ : Word.checkedAdd 64 (pagesBelow basePages firstExtra i) own =
        some (pagesBelow basePages firstExtra i + own) :=
      Word.checkedAdd_eq_some.2 ⟨hnext ▸ h.page_lt hend, rfl⟩
    obtain ⟨rest, hrest, hpages⟩ := ih (i + 1) (by omega)
    refine ⟨⟨i, pagesBelow basePages firstExtra i, own, pagesBelow basePages firstExtra i * 504,
      min (slotCount - pagesBelow basePages firstExtra i * 504) (own * 504)⟩ :: rest, ?_, ?_⟩
    · rw [List.range'_succ, buildRanges, ← hown]
      simp only [h₁, h₂, h₃, h₄, orOverflow, bind, Except.bind]
      refine (if_neg ?_).trans ?_
      · rintro (hzero | hsmall)
        · omega
        · exact absurd hsmall (Nat.not_lt.2 hfour)
      · rw [← hnext, hrest]
    · intro j hj
      cases j with
      | zero => rw [List.getElem_cons_zero, hown, Nat.add_zero]
      | succ j =>
        rw [List.getElem_cons_succ, hpages j (by simpa using hj),
          show i + 1 + j = i + (j + 1) by omega]

/-! ## What the directory promises -/

namespace RangeChain

variable {slotCount lastPage : ℕ}

/-- A range starts at the page after its predecessor. -/
lemma next : ∀ {id page : ℕ} {rs : List IndexPartitionRange},
    RangeChain slotCount lastPage id page rs → ∀ (i : ℕ) (hi : i + 1 < rs.length),
      rs[i + 1].firstPage = rs[i].firstPage + rs[i].pageCount
  | _, _, [], _, i, hi => by simp at hi
  | _, _, [_], _, i, hi => by simp at hi
  | _, _, r :: s :: rs, h, 0, _ => by
    obtain ⟨-, h₂, -, -, -, -, -, h₇, -⟩ := h
    simp only [Nat.zero_add, List.getElem_cons_succ, List.getElem_cons_zero, h₂, h₇]
  | _, _, r :: s :: rs, h, i + 1, hi => by
    simp only [List.getElem_cons_succ]
    exact next h.2.2.2.2.2.2 i (by simpa using hi)

/-- Every page between the ends of a chain is in one of its ranges. -/
lemma exists_page : ∀ {id page : ℕ} {rs : List IndexPartitionRange},
    RangeChain slotCount lastPage id page rs → ∀ {p : ℕ}, page ≤ p → p < lastPage →
      ∃ (i : ℕ) (hi : i < rs.length),
        rs[i].firstPage ≤ p ∧ p < rs[i].firstPage + rs[i].pageCount
  | _, _, [], h, p, hle, hlt => absurd (lt_of_le_of_lt hle hlt) (by rw [h]; exact lt_irrefl _)
  | _, page, r :: rs, h, p, hle, hlt => by
    obtain ⟨-, h₂, -, -, -, -, h₇⟩ := h
    by_cases hin : p < page + r.pageCount
    · exact ⟨0, Nat.zero_lt_succ _, by simp only [List.getElem_cons_zero]; omega⟩
    · obtain ⟨i, hi, hp⟩ := exists_page h₇ (Nat.not_lt.1 hin) hlt
      exact ⟨i + 1, Nat.succ_lt_succ hi, hp⟩

/-- A page is in one range only. -/
lemma page_unique {id page : ℕ} {rs : List IndexPartitionRange}
    (h : RangeChain slotCount lastPage id page rs) {i j : ℕ} (hi : i < rs.length)
    (hj : j < rs.length) {p : ℕ}
    (hpi : rs[i].firstPage ≤ p ∧ p < rs[i].firstPage + rs[i].pageCount)
    (hpj : rs[j].firstPage ≤ p ∧ p < rs[j].firstPage + rs[j].pageCount) : i = j := by
  rcases Nat.lt_trichotomy i j with hlt | rfl | hgt
  · have := h.pages_ordered i j hj hlt
    omega
  · rfl
  · have := h.pages_ordered j i hi hgt
    omega

/-- A bucket of the image is in a range exactly when its page is. -/
lemma slot_mem_iff {id page : ℕ} {rs : List IndexPartitionRange}
    (h : RangeChain slotCount lastPage id page rs) {i : ℕ} (hi : i < rs.length) {s : ℕ}
    (hs : s < slotCount) :
    (rs[i].firstSlot ≤ s ∧ s < rs[i].firstSlot + rs[i].slotCount) ↔
      (rs[i].firstPage ≤ s / 504 ∧ s / 504 < rs[i].firstPage + rs[i].pageCount) := by
  obtain ⟨-, -, -, -, hfirst, hend, -⟩ := h.getElem i hi
  rw [hend, hfirst, Nat.le_div_iff_mul_le (by omega), Nat.div_lt_iff_lt_mul (by omega), lt_min_iff]
  exact and_congr_right fun _ => and_iff_right hs

end RangeChain

/-- **A partition directory**: a power of two of ranges, at most as many as there are pages and
as the format allows, numbered in order. The ranges start at bucket and page zero, follow one
another, have whole pages, cover every page and every bucket once, have nearly equally many
pages, and have at least four buckets each. -/
structure PartitionLayout (slotCount : ℕ) (ranges : List IndexPartitionRange) : Prop where
  count_pow : ∃ k, ranges.length = 2 ^ k
  count_le : ranges.length ≤ min ((slotCount + 503) / 504) maxIndexPartitions
  numbered : ∀ (i : ℕ) (hi : i < ranges.length), ranges[i].partitionId = i
  start : ∀ hi : 0 < ranges.length, ranges[0].firstPage = 0 ∧ ranges[0].firstSlot = 0
  contiguous : ∀ (i : ℕ) (hi : i + 1 < ranges.length),
    ranges[i + 1].firstPage = ranges[i].firstPage + ranges[i].pageCount ∧
      ranges[i + 1].firstSlot = ranges[i].firstSlot + ranges[i].slotCount
  aligned : ∀ (i : ℕ) (hi : i < ranges.length),
    ranges[i].firstSlot = ranges[i].firstPage * indexImageSlotsPerPage
  inside : ∀ (i : ℕ) (hi : i < ranges.length),
    ranges[i].firstSlot + ranges[i].slotCount ≤ slotCount ∧
      ranges[i].firstPage + ranges[i].pageCount ≤ (slotCount + 503) / 504
  slot_once : ∀ s < slotCount, ∃! i, ∃ hi : i < ranges.length,
    ranges[i].firstSlot ≤ s ∧ s < ranges[i].firstSlot + ranges[i].slotCount
  page_once : ∀ p < (slotCount + 503) / 504, ∃! i, ∃ hi : i < ranges.length,
    ranges[i].firstPage ≤ p ∧ p < ranges[i].firstPage + ranges[i].pageCount
  balanced : ∀ (i j : ℕ) (hi : i < ranges.length) (hj : j < ranges.length),
    ranges[i].pageCount ≤ ranges[j].pageCount + 1
  four_slots : ∀ (i : ℕ) (hi : i < ranges.length), 4 ≤ ranges[i].slotCount

/-- A chain over all pages whose page counts are balanced is a partition directory. -/
lemma RangeChain.partitionLayout {slotCount k basePages firstExtra : ℕ}
    {ranges : List IndexPartitionRange}
    (h : RangeChain slotCount ((slotCount + 503) / 504) 0 0 ranges)
    (hlen : ranges.length = 2 ^ k) (hle : 2 ^ k ≤ min ((slotCount + 503) / 504) maxIndexPartitions)
    (hpages : ∀ (i : ℕ) (hi : i < ranges.length),
      ranges[i].pageCount = basePages + (if i ≥ firstExtra then 1 else 0)) :
    PartitionLayout slotCount ranges where
  count_pow := ⟨k, hlen⟩
  count_le := hlen.trans_le hle
  numbered i hi := by
    rw [(h.getElem i hi).1, Nat.zero_add]
  start hi := by
    cases ranges with
    | nil => exact absurd hi (lt_irrefl _)
    | cons r rs =>
      obtain ⟨-, h₂, -, h₄, -⟩ := h
      exact ⟨h₂, h₄.trans (Nat.zero_mul _)⟩
  contiguous i hi := by
    have hnext := h.next i hi
    obtain ⟨-, -, -, -, -, hend, -⟩ := h.getElem i (by omega)
    obtain ⟨-, -, -, -, hfirst, hend', hfour⟩ := h.getElem (i + 1) hi
    refine ⟨hnext, ?_⟩
    have hfull : (ranges[i].firstPage + ranges[i].pageCount) * 504 ≤ slotCount := by
      rw [hnext] at hfirst
      rw [← hfirst]
      exact (Nat.le_add_right _ _).trans (hend' ▸ min_le_left _ _)
    rw [hend, hfirst, hnext, min_eq_right hfull]
  aligned i hi := (h.getElem i hi).2.2.2.2.1
  inside i hi := by
    obtain ⟨-, -, -, hlast, -, hend, -⟩ := h.getElem i hi
    exact ⟨hend ▸ min_le_left _ _, hlast⟩
  slot_once s hs := by
    obtain ⟨i, hi, hp⟩ := h.exists_page (Nat.zero_le (s / 504)) (by omega)
    refine ⟨i, ⟨hi, (h.slot_mem_iff hi hs).2 hp⟩, ?_⟩
    rintro j ⟨hj, hsj⟩
    exact h.page_unique hj hi ((h.slot_mem_iff hj hs).1 hsj) hp
  page_once p hp := by
    obtain ⟨i, hi, hin⟩ := h.exists_page (Nat.zero_le p) hp
    refine ⟨i, ⟨hi, hin⟩, ?_⟩
    rintro j ⟨hj, hpj⟩
    exact h.page_unique hj hi hpj hin
  balanced i j hi hj := by
    rw [hpages i hi, hpages j hj]
    split_ifs <;> omega
  four_slots i hi := (h.getElem i hi).2.2.2.2.2.2

/-- The layout of an image that fits. -/
lemma ImageLayout.new_ok {slotCount : ℕ} (hpos : 0 < slotCount)
    (hsize : (slotCount + 503) / 504 * 4096 ≤ isizeMax) :
    ImageLayout.new slotCount =
      .ok ⟨(slotCount + 503) / 504, (slotCount + 503) / 504 * 4096⟩ := by
  have hlt : (slotCount + 503) / 504 * 4096 < 2 ^ 63 := by
    unfold isizeMax at hsize
    omega
  have hadd : Word.checkedAdd 64 slotCount (indexImageSlotsPerPage - 1) = some (slotCount + 503) :=
    Word.checkedAdd_eq_some.2 ⟨by simp only [indexImageSlotsPerPage]; omega, rfl⟩
  have hmul : Word.checkedMul 64 ((slotCount + 503) / indexImageSlotsPerPage) indexImagePageSize =
      some ((slotCount + 503) / 504 * 4096) :=
    Word.checkedMul_eq_some.2
      ⟨by simp only [indexImageSlotsPerPage, indexImagePageSize]; omega, rfl⟩
  unfold ImageLayout.new
  refine (if_neg hpos.ne').trans ?_
  simp only [hadd, hmul, orOverflow, bind, Except.bind]
  exact if_neg (Nat.not_lt.2 hsize)

/-- The greatest power of two is not above the limit. -/
lemma two_pow_log2_le {limit : ℕ} (hpos : 0 < limit) :
    2 ^ Nat.log2 (greatestPowerOfTwo limit) ≤ limit := by
  rw [greatestPowerOfTwo, Nat.shiftLeft_eq, Nat.one_mul, Nat.log2_two_pow]
  exact Nat.log2_self_le hpos.ne'

/-- The image of a bucket count does not fit: its size is refused, before any range is built. -/
lemma canonicalIndexPartitionRanges_overflow {slotCount : ℕ} (hslots : 4 ≤ slotCount)
    (hsize : ¬ (slotCount + 503) / 504 * 4096 ≤ isizeMax) :
    canonicalIndexPartitionRanges slotCount = .error .sizeOverflow := by
  have hnew : ImageLayout.new slotCount = .error .sizeOverflow := by
    unfold ImageLayout.new
    refine (if_neg (by omega)).trans ?_
    cases hadd : Word.checkedAdd 64 slotCount (indexImageSlotsPerPage - 1) with
    | none => rfl
    | some rounded =>
      have hr : rounded = slotCount + 503 := (Word.checkedAdd_eq_some.1 hadd).2
      simp only [orOverflow, bind, Except.bind]
      cases hmul : Word.checkedMul 64 (rounded / indexImageSlotsPerPage) indexImagePageSize with
      | none => rfl
      | some imageLen =>
        have hm : imageLen = rounded / 504 * 4096 := (Word.checkedMul_eq_some.1 hmul).2
        refine if_pos ?_
        rw [hm, hr]
        exact Nat.not_le.1 hsize
  unfold canonicalIndexPartitionRanges
  refine (if_neg (Nat.not_lt.2 hslots)).trans ?_
  rw [hnew]
  rfl

/-- The directory of an image that fits. -/
lemma canonicalIndexPartitionRanges_ok {slotCount : ℕ} (hslots : 4 ≤ slotCount)
    (hsize : (slotCount + 503) / 504 * 4096 ≤ isizeMax) :
    ∃ ranges, canonicalIndexPartitionRanges slotCount = .ok ranges ∧
      PartitionLayout slotCount ranges := by
  have hpos : 0 < slotCount := by omega
  have hfits := FitsPages.of_size hpos hsize
  have hpages := hfits.pos hpos
  set pageCount := (slotCount + 503) / 504 with hpc
  have hmax : 0 < min pageCount maxIndexPartitions := lt_min hpages (by decide)
  have hlog := two_pow_log2_le hmax
  obtain ⟨j, hj, hcount, hfour⟩ :=
    hfits.usablePartitionCount_ok hslots (hlog.trans (min_le_left _ _))
  have hle : 2 ^ j ≤ min pageCount maxIndexPartitions :=
    (Nat.pow_le_pow_right (by omega) hj).trans hlog
  have hpow : 0 < 2 ^ j := Nat.two_pow_pos j
  have hbase : 0 < pageCount / 2 ^ j := Nat.div_pos (hle.trans (min_le_left _ _)) hpow
  obtain ⟨ranges, hranges, hown⟩ := buildRanges_ok hfits hbase (pagesBelow_all pageCount hpow)
    (by rw [pagesBelow_last pageCount hpow]; exact hfour) (2 ^ j) 0 (Nat.zero_add _)
  have hzero : pagesBelow (pageCount / 2 ^ j) (2 ^ j - pageCount % 2 ^ j) 0 = 0 := by
    simp [pagesBelow]
  have hok : canonicalIndexPartitionRanges slotCount = .ok ranges := by
    unfold canonicalIndexPartitionRanges
    refine (if_neg (Nat.not_lt.2 hslots)).trans ?_
    rw [ImageLayout.new_ok hpos hsize]
    simp only [bind, Except.bind, ← hpc, hcount, List.range_eq_range']
    rw [hzero] at hranges
    exact hranges
  obtain ⟨hlen, -⟩ := buildRanges_chain (2 ^ j) 0 ranges hranges
  obtain ⟨-, -, -, hchain⟩ := canonicalIndexPartitionRanges_chain hok
  refine ⟨ranges, hok, @RangeChain.partitionLayout slotCount j (pageCount / 2 ^ j)
    (2 ^ j - pageCount % 2 ^ j) ranges hchain hlen hle fun i hi => ?_⟩
  rw [hown i hi, Nat.zero_add]

/-- **The partition directory of every bucket count.** From four buckets on it exists and is a
partition directory, as long as the size of the image does not overflow; an overflow is reported
as such, and so the refusal of too small a partition is never reached. -/
theorem canonicalIndexPartitionRanges_layout (slotCount : ℕ) (h : 4 ≤ slotCount) :
    ((slotCount + 503) / 504 * 4096 ≤ isizeMax →
        ∃ ranges, canonicalIndexPartitionRanges slotCount = .ok ranges ∧
          PartitionLayout slotCount ranges) ∧
      ∀ e, canonicalIndexPartitionRanges slotCount = .error e → e = .sizeOverflow := by
  refine ⟨canonicalIndexPartitionRanges_ok h, ?_⟩
  intro e he
  by_cases hsize : (slotCount + 503) / 504 * 4096 ≤ isizeMax
  · obtain ⟨ranges, hok, -⟩ := canonicalIndexPartitionRanges_ok h hsize
    rw [hok] at he
    cases he
  · rw [canonicalIndexPartitionRanges_overflow h hsize] at he
    exact (Except.error.inj he).symm

/-- A page and one bucket: the second partition would have one bucket, so there is only one. -/
theorem canonicalIndexPartitionRanges_layout_sample :
    (∃ ranges, canonicalIndexPartitionRanges 505 = .ok ranges ∧ PartitionLayout 505 ranges) ∧
      canonicalIndexPartitionRanges 505 = .ok [⟨0, 0, 2, 0, 505⟩] :=
  ⟨(canonicalIndexPartitionRanges_layout 505 (by decide)).1 (by decide), by decide +kernel⟩

end Cache2

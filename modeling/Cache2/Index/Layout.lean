import Mathlib.Data.List.Basic
import Mathlib.Tactic.Ring
import Cache2.Index.Packed

set_option relaxedAutoImplicit false
set_option autoImplicit false

/-!
# The page and partition layout of the index image

An index of `slotCount` buckets is stored in pages of 4096 bytes with 504 buckets each
(`region/index/storage/mod.rs`). Its pages are divided among a power of two of *partitions*,
each a contiguous run of whole pages with its own lock and its own counters.

## Main definitions

* `Cache2.IndexStorageError` — every way in which the index storage can fail.
* `Cache2.ImageLayout` — the number of pages and bytes of an image.
* `Cache2.IndexPartitionRange` — one partition's pages and buckets.
* `Cache2.canonicalIndexPartitionRanges` — the partition directory of a bucket count.
* `Cache2.RangeChain` — consecutive ranges that cover the pages from one page to another.

## Main results

* `Cache2.canonicalIndexPartitionRanges_chain` — the directory is such a chain from page zero
  to the last page, with a power of two of ranges.
* `Cache2.RangeChain.slots_disjoint`, `Cache2.RangeChain.slot_lt` — its ranges have disjoint
  buckets, all of them below the bucket count.
-/

namespace Cache2

/-! ## Constants and errors -/

/-- Bytes of one image page. -/
def indexImagePageSize : ℕ := 4096

/-- Bytes of a page header. -/
def indexImagePageHeaderSize : ℕ := 64

/-- Bytes of a bucket. -/
def indexImageSlotSize : ℕ := 8

/-- Buckets of one page. -/
def indexImageSlotsPerPage : ℕ := 504

/-- Why the stored word of a bucket has no meaning. -/
inductive IndexSlotSemanticError
  | nonCanonicalMarker
  | invalidLocation (error : PackedLocationError)
  deriving DecidableEq, Repr

/-- Why a recovered page is rejected. -/
inductive CorruptPageReason
  | invalidMagic
  | unsupportedVersion (actual : ℕ)
  | invalidHeaderSize (actual : ℕ)
  | invalidSlotSize (actual : ℕ)
  | invalidSlotsPerPage (actual : ℕ)
  | wrongPageIndex (expected actual : ℕ)
  | wrongFirstSlot (expected actual : ℕ)
  | wrongValidSlotCount (expected actual : ℕ)
  | unsupportedFlags (actual : ℕ)
  | wrongGeneration (expected actual : ℕ)
  | wrongImageTag (expected actual : ℕ)
  | reservedBytesNonZero
  | checksumMismatch (stored computed : ℕ)
  | previouslyRejected
  deriving DecidableEq, Repr

/-- The errors of the index storage. Lock errors do not occur here: an operation is modelled
with its partition's lock held. -/
inductive IndexStorageError
  | io (message : String)
  | invalidArgument (message : String)
  | invalidSlot (reason : IndexSlotSemanticError)
  | sizeOverflow
  | slotOutOfBounds (slot slotCount : ℕ)
  | pageOutOfBounds (page pageCount : ℕ)
  | pageBusy (pageIndex : ℕ)
  | corruptPage (pageIndex : ℕ) (reason : CorruptPageReason)
  | corruptSlot (slotIndex : ℕ) (reason : IndexSlotSemanticError)
  | invalidPhysicalStats
  deriving DecidableEq, Repr

/-- The largest number of bytes of an allocation, `isize::MAX`. -/
def isizeMax : ℕ := 2 ^ 63 - 1

/-- A checked result, or the error the caller reports for an overflow. -/
def orOverflow {α : Type} : Option α → Except IndexStorageError α
  | some a => .ok a
  | none => .error .sizeOverflow

/-! ## The image -/

/-- Pages and bytes of an index image. -/
structure ImageLayout where
  pageCount : ℕ
  imageLen : ℕ
  deriving DecidableEq, Repr

/-- The layout of an image with the given number of buckets. -/
def ImageLayout.new (slotCount : ℕ) : Except IndexStorageError ImageLayout :=
  if slotCount = 0 then .error (.invalidArgument "index storage requires at least one slot")
  else do
    let rounded ← orOverflow (Word.checkedAdd 64 slotCount (indexImageSlotsPerPage - 1))
    let pageCount := rounded / indexImageSlotsPerPage
    let imageLen ← orOverflow (Word.checkedMul 64 pageCount indexImagePageSize)
    if imageLen > isizeMax then .error .sizeOverflow else .ok ⟨pageCount, imageLen⟩

/-- A layout has exactly the pages its buckets need. -/
lemma ImageLayout.of_new {slotCount : ℕ} {layout : ImageLayout}
    (h : ImageLayout.new slotCount = .ok layout) :
    slotCount ≠ 0 ∧ layout.pageCount = (slotCount + 503) / 504 ∧
      layout.imageLen = layout.pageCount * 4096 ∧ layout.imageLen ≤ isizeMax := by
  unfold ImageLayout.new at h
  split_ifs at h with h0
  cases hadd : Word.checkedAdd 64 slotCount (indexImageSlotsPerPage - 1) with
  | none => rw [hadd] at h; cases h
  | some rounded =>
    have hr := (Word.checkedAdd_eq_some.1 hadd).2
    rw [hadd] at h
    cases hmul : Word.checkedMul 64 (rounded / indexImageSlotsPerPage) indexImagePageSize with
    | none => simp only [orOverflow, bind, Except.bind, hmul] at h; cases h
    | some imageLen =>
      have hm := (Word.checkedMul_eq_some.1 hmul).2
      simp only [orOverflow, bind, Except.bind, hmul] at h
      split_ifs at h with hmax
      cases h
      refine ⟨h0, ?_, ?_, by simpa using hmax⟩
      · simp only [hr, indexImageSlotsPerPage]
      · simp only [hm, indexImagePageSize]

/-! ## Partitions -/

/-- One page-aligned partition of the index image. -/
structure IndexPartitionRange where
  partitionId : ℕ
  firstPage : ℕ
  pageCount : ℕ
  firstSlot : ℕ
  slotCount : ℕ
  deriving DecidableEq, Repr

/-- The image-wide number of a partition's bucket. -/
def IndexPartitionRange.globalSlot (range : IndexPartitionRange) (slot : ℕ) :
    Except IndexStorageError ℕ :=
  if slot ≥ range.slotCount then .error (.slotOutOfBounds slot range.slotCount)
  else orOverflow (Word.checkedAdd 64 range.firstSlot slot)

/-- The greatest power of two not above a positive limit. -/
def greatestPowerOfTwo (limit : ℕ) : ℕ := 1 <<< Nat.log2 limit

/-- Buckets of the last partition when the pages are divided among `partitionCount`. -/
def finalPartitionSlots (slotCount pageCount partitionCount : ℕ) :
    Except IndexStorageError ℕ := do
  let basePages := pageCount / partitionCount
  let extraPages := pageCount % partitionCount
  let finalPages := basePages + (if extraPages ≠ 0 then 1 else 0)
  let firstPage ← orOverflow (Word.checkedSub pageCount finalPages)
  let firstSlot ← orOverflow (Word.checkedMul 64 firstPage indexImageSlotsPerPage)
  orOverflow (Word.checkedSub slotCount firstSlot)

/-- Halves a partition count `2 ^ k` until its last partition has four buckets. -/
def usablePartitionCount (slotCount pageCount : ℕ) : ℕ → Except IndexStorageError ℕ
  | 0 => .ok 1
  | k + 1 => do
    let slots ← finalPartitionSlots slotCount pageCount (2 ^ (k + 1))
    if slots < indexCandidates then usablePartitionCount slotCount pageCount k
    else .ok (2 ^ (k + 1))

/-- The ranges of the given partition ids, the first of which starts at `firstPage`. The ids
from `firstExtra` on have one page more than the others. -/
def buildRanges (slotCount basePages firstExtra : ℕ) :
    List ℕ → ℕ → Except IndexStorageError (List IndexPartitionRange)
  | [], _ => .ok []
  | partitionId :: ids, firstPage => do
    let pageCount := basePages + (if partitionId ≥ firstExtra then 1 else 0)
    let firstSlot ← orOverflow (Word.checkedMul 64 firstPage indexImageSlotsPerPage)
    let rangeCapacity ← orOverflow (Word.checkedMul 64 pageCount indexImageSlotsPerPage)
    let slotsRemaining ← orOverflow (Word.checkedSub slotCount firstSlot)
    let rangeSlotCount := min slotsRemaining rangeCapacity
    if pageCount = 0 ∨ rangeSlotCount < indexCandidates then
      .error (.invalidArgument "canonical index partition contains fewer than 4 buckets")
    else do
      let nextPage ← orOverflow (Word.checkedAdd 64 firstPage pageCount)
      let rest ← buildRanges slotCount basePages firstExtra ids nextPage
      .ok (⟨partitionId, firstPage, pageCount, firstSlot, rangeSlotCount⟩ :: rest)

/-- The stable, page-balanced partition directory of a bucket count. -/
def canonicalIndexPartitionRanges (slotCount : ℕ) :
    Except IndexStorageError (List IndexPartitionRange) :=
  if slotCount < indexCandidates then
    .error (.invalidArgument "partitioned index storage requires at least 4 buckets")
  else do
    let layout ← ImageLayout.new slotCount
    let maximum := min layout.pageCount maxIndexPartitions
    let partitionCount ←
      usablePartitionCount slotCount layout.pageCount (Nat.log2 (greatestPowerOfTwo maximum))
    let basePages := layout.pageCount / partitionCount
    let extraPages := layout.pageCount % partitionCount
    let firstExtra := partitionCount - extraPages
    buildRanges slotCount basePages firstExtra (List.range partitionCount) 0

/-! ## Chains of ranges -/

/-- Consecutive ranges: numbered from `id` on, the first starting at page `page`, each with at
least one page and four buckets, the last ending at page `lastPage`. Every range holds the
buckets of its pages, as far as there are any. -/
def RangeChain (slotCount lastPage : ℕ) : ℕ → ℕ → List IndexPartitionRange → Prop
  | _, page, [] => page = lastPage
  | id, page, r :: rs =>
    r.partitionId = id ∧ r.firstPage = page ∧ 0 < r.pageCount ∧ r.firstSlot = page * 504 ∧
      r.firstSlot + r.slotCount = min slotCount ((page + r.pageCount) * 504) ∧
      4 ≤ r.slotCount ∧ RangeChain slotCount lastPage (id + 1) (page + r.pageCount) rs

/-- The pages of the partitions below `i`, when those from `firstExtra` on have an extra one. -/
def pagesBelow (basePages firstExtra i : ℕ) : ℕ := i * basePages + (i - firstExtra)

/-- Consecutive partitions built from a page on form a chain.

**Proof sketch.** Induction on the number of partitions left. A partition from `firstExtra` on
moves the next page by one more than `basePages`, as `pagesBelow` does. -/
lemma buildRanges_chain {slotCount basePages firstExtra : ℕ} (n : ℕ) :
    ∀ (i : ℕ) (ranges : List IndexPartitionRange),
      buildRanges slotCount basePages firstExtra (List.range' i n)
        (pagesBelow basePages firstExtra i) = .ok ranges →
      ranges.length = n ∧
        RangeChain slotCount (pagesBelow basePages firstExtra (i + n)) i
          (pagesBelow basePages firstExtra i) ranges := by
  induction n with
  | zero =>
    intro i ranges h
    simp only [List.range'_zero, buildRanges, Except.ok.injEq] at h
    subst h
    exact ⟨rfl, rfl⟩
  | succ n ih =>
    intro i ranges h
    set pageCount := basePages + (if i ≥ firstExtra then 1 else 0) with hpc
    have hnext : pagesBelow basePages firstExtra i + pageCount =
        pagesBelow basePages firstExtra (i + 1) := by
      simp only [pagesBelow, hpc, Nat.add_mul, Nat.one_mul]
      split_ifs <;> omega
    rw [List.range'_succ, buildRanges, ← hpc] at h
    simp only [bind, Except.bind] at h
    -- every check the code makes has passed
    cases h₁ : Word.checkedMul 64 (pagesBelow basePages firstExtra i) indexImageSlotsPerPage with
    | none => simp only [h₁, orOverflow] at h; cases h
    | some firstSlot =>
      cases h₂ : Word.checkedMul 64 pageCount indexImageSlotsPerPage with
      | none => simp only [h₁, h₂, orOverflow] at h; cases h
      | some rangeCapacity =>
        cases h₃ : Word.checkedSub slotCount firstSlot with
        | none => simp only [h₁, h₂, h₃, orOverflow] at h; cases h
        | some slotsRemaining =>
          simp only [h₁, h₂, h₃, orOverflow] at h
          split_ifs at h with hsmall
          cases h₄ : Word.checkedAdd 64 (pagesBelow basePages firstExtra i) pageCount with
          | none => simp only [h₄] at h; cases h
          | some nextPage =>
            have e₁ := (Word.checkedMul_eq_some.1 h₁).2
            have e₂ := (Word.checkedMul_eq_some.1 h₂).2
            have e₃ := Word.checkedSub_eq_some.1 h₃
            have e₄ := (Word.checkedAdd_eq_some.1 h₄).2
            simp only [h₄] at h
            rw [e₄, hnext] at h
            cases h₅ : buildRanges slotCount basePages firstExtra (List.range' (i + 1) n)
                (pagesBelow basePages firstExtra (i + 1)) with
            | error e => simp only [h₅] at h; cases h
            | ok rest =>
              simp only [h₅, Except.ok.injEq] at h
              obtain ⟨hlen, hchain⟩ := ih (i + 1) rest h₅
              subst h
              simp only [indexImageSlotsPerPage] at e₁ e₂
              simp only [not_or, Nat.not_lt, indexCandidates] at hsmall
              refine ⟨by simp [hlen], rfl, rfl, Nat.pos_of_ne_zero hsmall.1, e₁, ?_,
                hsmall.2, ?_⟩
              · simp only [e₂]
                rw [Nat.add_mul]
                omega
              · rw [hnext, show i + (n + 1) = i + 1 + n by omega]
                exact hchain

/-- The halved partition count is a power of two not above the initial one. -/
private lemma usablePartitionCount_eq {slotCount pageCount : ℕ} :
    ∀ {k c : ℕ}, usablePartitionCount slotCount pageCount k = .ok c → ∃ j ≤ k, c = 2 ^ j := by
  intro k
  induction k with
  | zero =>
    intro c h
    simp only [usablePartitionCount, Except.ok.injEq] at h
    exact ⟨0, le_rfl, by simp [← h]⟩
  | succ k ih =>
    intro c h
    rw [usablePartitionCount] at h
    cases hf : finalPartitionSlots slotCount pageCount (2 ^ (k + 1)) with
    | error e => rw [hf] at h; cases h
    | ok slots =>
      rw [hf] at h
      simp only [bind, Except.bind] at h
      split_ifs at h with hs
      · obtain ⟨j, hj, hc⟩ := ih h
        exact ⟨j, by omega, hc⟩
      · simp only [Except.ok.injEq] at h
        exact ⟨k + 1, le_rfl, h.symm⟩

/-- **The partition directory.** Its ranges are a chain over all pages of the image, and their
number is a power of two, at most 4096. -/
theorem canonicalIndexPartitionRanges_chain {slotCount : ℕ} {ranges : List IndexPartitionRange}
    (h : canonicalIndexPartitionRanges slotCount = .ok ranges) :
    4 ≤ slotCount ∧ (∃ k ≤ 12, ranges.length = 2 ^ k) ∧
      ((slotCount + 503) / 504) * 4096 ≤ isizeMax ∧
      RangeChain slotCount ((slotCount + 503) / 504) 0 0 ranges := by
  unfold canonicalIndexPartitionRanges at h
  split_ifs at h with hsmall
  simp only [indexCandidates, Nat.not_lt] at hsmall
  cases hl : ImageLayout.new slotCount with
  | error e => rw [hl] at h; cases h
  | ok layout =>
    obtain ⟨-, hpages, hlen, hmax⟩ := ImageLayout.of_new hl
    simp only [hl, bind, Except.bind] at h
    cases hu : usablePartitionCount slotCount layout.pageCount
        (Nat.log2 (greatestPowerOfTwo (min layout.pageCount maxIndexPartitions))) with
    | error e => simp only [hu] at h; cases h
    | ok count =>
      obtain ⟨j, hj, rfl⟩ := usablePartitionCount_eq hu
      simp only [hu, List.range_eq_range'] at h
      have h0 : pagesBelow (layout.pageCount / 2 ^ j) (2 ^ j - layout.pageCount % 2 ^ j) 0 = 0 := by
        simp [pagesBelow]
      obtain ⟨hlen', hchain⟩ := buildRanges_chain (2 ^ j) 0 ranges (by rw [h0]; exact h)
      -- the pages of all partitions are the pages of the image
      have hend : pagesBelow (layout.pageCount / 2 ^ j) (2 ^ j - layout.pageCount % 2 ^ j)
          (0 + 2 ^ j) = layout.pageCount := by
        have hdm := Nat.div_add_mod layout.pageCount (2 ^ j)
        have hlt : layout.pageCount % 2 ^ j < 2 ^ j := Nat.mod_lt _ (Nat.two_pow_pos j)
        simp only [pagesBelow, Nat.zero_add]
        omega
      rw [h0, hend, hpages] at hchain
      refine ⟨hsmall, ⟨j, ?_, hlen'⟩, ?_, hchain⟩
      · refine hj.trans ?_
        have hle : min layout.pageCount maxIndexPartitions ≤ 4096 := min_le_right _ _
        simp only [greatestPowerOfTwo, Nat.shiftLeft_eq, Nat.one_mul, Nat.log2_two_pow]
        rcases Nat.eq_zero_or_pos (min layout.pageCount maxIndexPartitions) with hz | hp
        · rw [hz]; decide
        · have := Nat.log2_self_le hp.ne'
          by_contra hgt
          have : 2 ^ 13 ≤ 2 ^ (min layout.pageCount maxIndexPartitions).log2 :=
            Nat.pow_le_pow_right (by norm_num) (by omega)
          omega
      · rw [← hpages, ← hlen]
        exact hmax

namespace RangeChain

variable {slotCount lastPage : ℕ}

/-- A chain's first page is not past its last. -/
lemma page_le : ∀ {id page : ℕ} {rs : List IndexPartitionRange},
    RangeChain slotCount lastPage id page rs → page ≤ lastPage
  | _, _, [], h => le_of_eq h
  | _, _, _ :: _, h => (Nat.le_add_right _ _).trans (page_le h.2.2.2.2.2.2)

/-- What a chain says about one of its ranges. -/
lemma getElem : ∀ {id page : ℕ} {rs : List IndexPartitionRange},
    RangeChain slotCount lastPage id page rs → ∀ (i : ℕ) (hi : i < rs.length),
      rs[i].partitionId = id + i ∧ page ≤ rs[i].firstPage ∧ 0 < rs[i].pageCount ∧
        rs[i].firstPage + rs[i].pageCount ≤ lastPage ∧
        rs[i].firstSlot = rs[i].firstPage * 504 ∧
        rs[i].firstSlot + rs[i].slotCount =
          min slotCount ((rs[i].firstPage + rs[i].pageCount) * 504) ∧ 4 ≤ rs[i].slotCount
  | _, _, [], _, i, hi => by simp at hi
  | id, page, r :: rs, h, 0, _ => by
    obtain ⟨h₁, h₂, h₃, h₄, h₅, h₆, h₇⟩ := h
    have := page_le h₇
    simp only [List.getElem_cons_zero]
    subst h₂
    exact ⟨h₁, le_rfl, h₃, this, h₄, h₅, h₆⟩
  | id, page, r :: rs, h, i + 1, hi => by
    obtain ⟨-, -, -, -, -, -, h₇⟩ := h
    have := getElem h₇ i (by simpa using hi)
    simp only [List.getElem_cons_succ]
    refine ⟨by omega, by omega, this.2.2.1, this.2.2.2⟩

/-- Ranges do not overlap: a later range starts where an earlier one has ended. -/
lemma pages_ordered : ∀ {id page : ℕ} {rs : List IndexPartitionRange},
    RangeChain slotCount lastPage id page rs → ∀ (i j : ℕ) (hj : j < rs.length) (hij : i < j),
      rs[i].firstPage + rs[i].pageCount ≤ rs[j].firstPage
  | _, _, [], _, _, j, hj, _ => by simp at hj
  | _, _, r :: rs, h, 0, j + 1, hj, _ => by
    obtain ⟨-, h₂, -, -, -, -, h₇⟩ := h
    have := (getElem h₇ j (by simpa using hj)).2.1
    simp only [List.getElem_cons_zero, List.getElem_cons_succ]
    omega
  | _, _, r :: rs, h, i + 1, j + 1, hj, hij => by
    simp only [List.getElem_cons_succ]
    exact pages_ordered h.2.2.2.2.2.2 i j (by simpa using hj) (by omega)

/-- Buckets of a range are buckets of the image. -/
lemma slot_lt {id page : ℕ} {rs : List IndexPartitionRange}
    (h : RangeChain slotCount lastPage id page rs) {i : ℕ} (hi : i < rs.length) {s : ℕ}
    (hs : s < rs[i].slotCount) : rs[i].firstSlot + s < slotCount := by
  have := (h.getElem i hi).2.2.2.2.2.1
  omega

/-- Buckets of different ranges are different. -/
lemma slots_disjoint {id page : ℕ} {rs : List IndexPartitionRange}
    (h : RangeChain slotCount lastPage id page rs) {i j : ℕ} (hi : i < rs.length)
    (hj : j < rs.length) {s t : ℕ} (hs : s < rs[i].slotCount) (ht : t < rs[j].slotCount)
    (heq : rs[i].firstSlot + s = rs[j].firstSlot + t) : i = j ∧ s = t := by
  have gi := h.getElem i hi
  have gj := h.getElem j hj
  rcases Nat.lt_trichotomy i j with hlt | rfl | hgt
  · have := Nat.mul_le_mul_right 504 (h.pages_ordered i j hj hlt)
    omega
  · exact ⟨rfl, by omega⟩
  · have := Nat.mul_le_mul_right 504 (h.pages_ordered j i hi hgt)
    omega

end RangeChain

end Cache2

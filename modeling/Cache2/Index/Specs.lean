import Cache2.Index.RegionIndex

set_option relaxedAutoImplicit false
set_option autoImplicit false

/-!
# What the index operations do to the bucket table

Each operation of `Cache2.RegionIndex` is described once, over the table of bucket states that
the storage represents: which buckets it rewrites, and what the buckets it looked at contained.
Everything about the index as a map is derived from these descriptions.

## Main definitions

* `Cache2.Canonical` — a displacement that reaches a bucket no smaller one reaches.
* `Cache2.IndexRepr` — the index represents a table.
* `Cache2.UpsertOutcome` — the five ways in which an insertion ends.

## Main results

* `Cache2.RegionIndex.forCandidates_spec` — the candidate loop finds the first accepted bucket.
* `Cache2.RegionIndex.upsert_spec` — an insertion always succeeds, with one of the outcomes.
-/

namespace Cache2

open Loop

/-! ## Candidate arithmetic -/

section Candidates

variable {home slot displacement n : ℕ}

/-- An offset stays inside of the partition. -/
lemma candidateOffset_lt (displacement : ℕ) (hn : 0 < n) : candidateOffset displacement n < n := by
  simp only [candidateOffset]
  split_ifs with h
  · exact h
  · exact Nat.mod_lt _ hn

/-- A candidate is a bucket of the partition. -/
lemma slotFromHome_lt (displacement : ℕ) (hh : home < n) :
    slotFromHome home displacement n < n := by
  have := candidateOffset_lt displacement (n := n) (by omega)
  simp only [slotFromHome]
  split_ifs <;> omega

/-- The home of a candidate's occupant is the home. -/
lemma homeFromSlot_slotFromHome (displacement : ℕ) (hh : home < n) :
    homeFromSlot (slotFromHome home displacement n) displacement n = home := by
  have := candidateOffset_lt displacement (n := n) (by omega)
  simp only [slotFromHome, homeFromSlot]
  split_ifs <;> omega

/-- The home of an occupant is a bucket of the partition. -/
lemma homeFromSlot_lt (displacement : ℕ) (hs : slot < n) :
    homeFromSlot slot displacement n < n := by
  have := candidateOffset_lt displacement (n := n) (by omega)
  simp only [homeFromSlot]
  split_ifs <;> omega

/-- The displacement leads from an occupant's home back to its bucket. -/
lemma slotFromHome_homeFromSlot (displacement : ℕ) (hs : slot < n) :
    slotFromHome (homeFromSlot slot displacement n) displacement n = slot := by
  have := candidateOffset_lt displacement (n := n) (by omega)
  simp only [slotFromHome, homeFromSlot]
  split_ifs <;> omega

/-- Two displacements reach the same bucket exactly when their offsets are equal. -/
lemma slotFromHome_eq_iff {d d' : ℕ} (hh : home < n) :
    slotFromHome home d n = slotFromHome home d' n ↔
      candidateOffset d n = candidateOffset d' n := by
  have h₁ := candidateOffset_lt d (n := n) (by omega)
  have h₂ := candidateOffset_lt d' (n := n) (by omega)
  simp only [slotFromHome]
  split_ifs <;> omega

/-- The displacement is the smallest one that reaches its bucket. In a partition of more than
97 buckets every displacement is. -/
def Canonical (n displacement : ℕ) : Prop :=
  ∀ earlier < displacement, candidateOffset earlier n ≠ candidateOffset displacement n

instance (n displacement : ℕ) : Decidable (Canonical n displacement) :=
  inferInstanceAs (Decidable (∀ earlier < displacement, _))

/-- The home itself is reached by displacement zero. -/
lemma canonical_zero (n : ℕ) : Canonical n 0 := fun _ h => absurd h (Nat.not_lt_zero _)

/-- Every bucket that a displacement reaches is reached by a canonical one. -/
lemma exists_canonical (n : ℕ) : ∀ d, ∃ j ≤ d, Canonical n j ∧
    candidateOffset j n = candidateOffset d n := by
  intro d
  induction d using Nat.strong_induction_on with
  | _ d ih =>
    by_cases hc : Canonical n d
    · exact ⟨d, le_rfl, hc, rfl⟩
    · simp only [Canonical, not_forall, not_not] at hc
      obtain ⟨j, hj, hoff⟩ := hc
      obtain ⟨k, hk, hkc, hko⟩ := ih j hj
      exact ⟨k, by omega, hkc, hko.trans hoff⟩

/-- The candidates that the loops skip are the ones whose displacement is not canonical. -/
lemma candidateRepeats_eq_false_iff (hh : home < n) (d : ℕ) :
    candidateRepeats (fun d => slotFromHome home d n) d = false ↔ Canonical n d := by
  simp only [candidateRepeats, List.any_eq_false, List.mem_range, beq_iff_eq, Canonical,
    slotFromHome_eq_iff hh]

/-- The home bucket of a hash. -/
lemma homeSlot_lt (hash : Hash) (hn : 0 < n) : homeSlot hash n < n := by
  simp only [homeSlot, routeHash]
  split_ifs
  · have := Nat.and_le_right (n := (hash.rotateLeft 32).toNat) (m := n - 1)
    omega
  · exact Nat.mod_lt _ hn

/-- A fingerprint has fourteen bits. -/
lemma fingerprint_lt (hash : Hash) : fingerprint hash < 2 ^ 14 := by
  simp only [fingerprint, fingerprintMask, Nat.and_two_pow_sub_one_eq_mod]
  exact Nat.mod_lt _ (by norm_num)

end Candidates

/-! ## Basic steps -/

/-- The index represents a table of bucket states. -/
def IndexRepr (crc : List UInt8 → BitVec 32) (slotCount : ℕ) (ranges : List IndexPartitionRange)
    (t : ℕ → IndexSlotState) (idx : RegionIndex) : Prop :=
  StorageRepr crc slotCount ranges t idx.storage

/-- The index represents a table of bucket states and has the given heat. -/
def HeatRepr (crc : List UInt8 → BitVec 32) (slotCount : ℕ) (ranges : List IndexPartitionRange)
    (t : ℕ → IndexSlotState) (heat : SlotHeat) (idx : RegionIndex) : Prop :=
  IndexRepr crc slotCount ranges t idx ∧ idx.heat = heat

/-- What is shown for every heat holds. -/
lemma Ensures.of_heat {crc : List UInt8 → BitVec 32} {slotCount : ℕ}
    {ranges : List IndexPartitionRange} {t : ℕ → IndexSlotState} {β : Type} {f : IndexM β}
    {Q : β → RegionIndex → Prop}
    (h : ∀ heat, Ensures (HeatRepr crc slotCount ranges t heat) f Q) :
    Ensures (IndexRepr crc slotCount ranges t) f Q :=
  fun idx hidx => h idx.heat idx ⟨hidx, rfl⟩

/-- The word of a bucket that has a meaning is a stored one. -/
lemma IndexSlot.stored_of_runtimeState {slot : IndexSlot} {state : IndexSlotState}
    (h : slot.runtimeState = .ok state) : state.stored = state := by
  have hback := runtimeState_fromState state
  rw [fromState_of_runtimeState h, h, Except.ok.injEq] at hback
  exact hback.symm

/-- Every bucket of a represented table holds a stored state. -/
lemma IndexRepr.stored_eq {crc : List UInt8 → BitVec 32} {slotCount : ℕ}
    {ranges : List IndexPartitionRange} {t : ℕ → IndexSlotState} {idx : RegionIndex}
    (h : IndexRepr crc slotCount ranges t idx) {slot : ℕ} (hs : slot < slotCount) :
    (t slot).stored = t slot :=
  IndexSlot.stored_of_runtimeState (h.core.slots slot hs)

namespace RegionIndex

section Steps

variable {crc : List UInt8 → BitVec 32} {slotCount : ℕ} {ranges : List IndexPartitionRange}
  {t : ℕ → IndexSlotState} {heat : SlotHeat} {p : ℕ} {r : IndexPartitionRange} {slot : ℕ}

/-- Reading a bucket. -/
lemma slotState_spec (hr : canonicalIndexPartitionRanges slotCount = .ok ranges)
    (hp : ranges[p]? = some r) (hs : slot < r.slotCount) :
    Ensures (HeatRepr crc slotCount ranges t heat) (slotState crc r slot)
      fun state idx => state = t (r.firstSlot + slot) ∧
        HeatRepr crc slotCount ranges t heat idx := by
  obtain ⟨hi, rfl⟩ := List.getElem?_eq_some_iff.1 hp
  refine (PartitionedIndexStorage.stateAt_spec hr hi hs).zoom (fun idx h => h.1) ?_
  rintro idx state storage h ⟨hstate, hstorage⟩
  exact ⟨hstate, hstorage, h.2⟩

/-- Replacing a bucket that was read before. Its heat is forgotten. -/
lemma replaceSlot_spec (crc : List UInt8 → BitVec 32)
    (hr : canonicalIndexPartitionRanges slotCount = .ok ranges)
    (hp : ranges[p]? = some r) (hs : slot < r.slotCount) {previous : IndexSlotState}
    (hprev : previous = t (r.firstSlot + slot)) (next : IndexSlotState) :
    Ensures (HeatRepr crc slotCount ranges t heat) (replaceSlot crc r slot previous next)
      fun _ => HeatRepr crc slotCount ranges
        (Function.update t (r.firstSlot + slot) next.stored)
        (heat.clear (r.firstSlot + slot)) := by
  obtain ⟨hi, rfl⟩ := List.getElem?_eq_some_iff.1 hp
  unfold replaceSlot
  rw [PartitionedIndexStorage.globalSlot_eq hr hi hs]
  refine Ensures.bind_eq (orThrow_ok _) ?_
  refine Ensures.bind (R := fun _ => HeatRepr crc slotCount ranges
    (Function.update t (ranges[p].firstSlot + slot) next.stored) heat) ?_ fun _ => ?_
  · refine (PartitionedIndexStorage.replaceObservedState_spec hr hi hs hprev next).zoom
      (fun idx h => h.1) ?_
    rintro idx - storage h hstorage
    exact ⟨hstorage, h.2⟩
  · rintro idx ⟨h, rfl⟩
    exact ⟨_, _, rfl, h, rfl⟩

/-- The partition of a hash. -/
lemma hashPartition_spec (crc : List UInt8 → BitVec 32) (t : ℕ → IndexSlotState)
    (heat : SlotHeat) (hash : Hash)
    (hr : canonicalIndexPartitionRanges slotCount = .ok ranges) :
    ∃ r, ranges[indexPartitionFor hash ranges.length]? = some r ∧ 4 ≤ r.slotCount ∧
      Ensures (HeatRepr crc slotCount ranges t heat) (hashPartition hash)
        fun range idx => range = r ∧ HeatRepr crc slotCount ranges t heat idx := by
  obtain ⟨-, ⟨k, hk, hlen⟩, -, hchain⟩ := canonicalIndexPartitionRanges_chain hr
  have hlt : indexPartitionFor hash ranges.length < ranges.length := by
    rw [hlen]
    exact indexPartitionFor_lt hash (by omega)
  refine ⟨ranges[indexPartitionFor hash ranges.length], List.getElem?_eq_getElem hlt,
    (hchain.getElem _ hlt).2.2.2.2.2.2, ?_⟩
  intro idx h
  refine ⟨_, idx, rfl, ?_, h⟩
  simp only [h.1.ranges_eq]
  rw [List.getD_eq_getElem?_getD, List.getElem?_eq_getElem hlt, Option.getD_some]

/-- Changing the heat keeps the table. -/
lemma modifyHeat_spec (f : SlotHeat → SlotHeat) :
    Ensures (HeatRepr crc slotCount ranges t heat) (modifyHeat f)
      fun _ => HeatRepr crc slotCount ranges t (f heat) := by
  rintro idx ⟨h, rfl⟩
  exact ⟨_, _, rfl, h, rfl⟩

/-- Counting keeps the table and the heat. -/
lemma recordActivity_spec {f : RegionIndex → RegionIndex}
    (hf : ∀ idx, (f idx).storage = idx.storage ∧ (f idx).heat = idx.heat) :
    Ensures (HeatRepr crc slotCount ranges t heat) (recordActivity f)
      fun _ => HeatRepr crc slotCount ranges t heat := by
  intro idx h
  by_cases hc : idx.activityCountersEnabled
  · refine ⟨(), f idx, by simp [recordActivity, bind_apply, hc], ?_, (hf idx).2.trans h.2⟩
    show StorageRepr crc slotCount ranges t (f idx).storage
    rw [(hf idx).1]
    exact h.1
  · exact ⟨(), idx, by simp [recordActivity, bind_apply, hc], h⟩

/-- **The candidate loop.** The first candidate with a canonical displacement whose bucket is
accepted decides; when there is none, the loop misses. -/
theorem forCandidates_spec {β : Type} {Q : β → RegionIndex → Prop} (hash : Hash)
    {accepts : IndexSlotState → ℕ → Bool}
    {found : IndexPartitionRange → ℕ → ℕ → IndexSlotState → IndexM β} {missed : IndexM β}
    (hr : canonicalIndexPartitionRanges slotCount = .ok ranges)
    (hp : ranges[indexPartitionFor hash ranges.length]? = some r)
    (hfound : ∀ d < 4, Canonical r.slotCount d →
      let s := slotFromHome (homeSlot hash r.slotCount) d r.slotCount
      accepts (t (r.firstSlot + s)) d = true →
      Ensures (HeatRepr crc slotCount ranges t heat) (found r d s (t (r.firstSlot + s))) Q)
    (hmissed : (∀ d < 4, Canonical r.slotCount d →
      accepts (t (r.firstSlot + slotFromHome (homeSlot hash r.slotCount) d r.slotCount)) d
        = false) →
      Ensures (HeatRepr crc slotCount ranges t heat) missed Q) :
    Ensures (HeatRepr crc slotCount ranges t heat)
      (forCandidates crc hash accepts found missed) Q := by
  obtain ⟨r', hp', h4, hpart⟩ := hashPartition_spec crc t heat hash hr
  obtain rfl : r' = r := by
    rw [hp', Option.some.injEq] at hp
    exact hp
  have hhome : homeSlot hash r'.slotCount < r'.slotCount := homeSlot_lt hash (by omega)
  unfold forCandidates
  refine hpart.bind_eq ?_
  refine Ensures.bind (R := Loop.Flow.Holds Q fun _ idx =>
    HeatRepr crc slotCount ranges t heat idx ∧
    ∀ d < 4, Canonical r'.slotCount d → accepts (t (r'.firstSlot +
      slotFromHome (homeSlot hash r'.slotCount) d r'.slotCount)) d = false) ?_ ?_
  · refine (Ensures.forRange (I := fun n _ idx => HeatRepr crc slotCount ranges t heat idx ∧
      ∀ d < n, Canonical r'.slotCount d → accepts (t (r'.firstSlot +
        slotFromHome (homeSlot hash r'.slotCount) d r'.slotCount)) d = false)
      indexCandidates () ?_).conseq (fun idx h => ⟨h, by simp⟩) fun _ _ h => h
    intro d hd _
    unfold candidateStep
    -- the invariant is extended by what this candidate shows
    have hcand : candidateSlots hash r'.slotCount =
        fun d => slotFromHome (homeSlot hash r'.slotCount) d r'.slotCount := rfl
    rw [hcand]
    have hext : ∀ idx, HeatRepr crc slotCount ranges t heat idx ∧ (∀ d' < d,
        Canonical r'.slotCount d' → accepts (t (r'.firstSlot +
          slotFromHome (homeSlot hash r'.slotCount) d' r'.slotCount)) d' = false) →
        (Canonical r'.slotCount d → accepts (t (r'.firstSlot +
          slotFromHome (homeSlot hash r'.slotCount) d r'.slotCount)) d = false) →
        ∀ d' < d + 1, Canonical r'.slotCount d' → accepts (t (r'.firstSlot +
          slotFromHome (homeSlot hash r'.slotCount) d' r'.slotCount)) d' = false := by
      intro _ hI hd' d' hlt
      rcases Nat.lt_succ_iff_lt_or_eq.1 hlt with h | rfl
      · exact hI.2 d' h
      · exact hd'
    cases hrep : candidateRepeats
        (fun d => slotFromHome (homeSlot hash r'.slotCount) d r'.slotCount) d with
    | true =>
      simp only [if_true]
      refine Ensures.pure fun idx hI => ⟨hI.1, hext idx hI fun hc => ?_⟩
      rw [(candidateRepeats_eq_false_iff hhome d).2 hc] at hrep
      cases hrep
    | false =>
      have hc := (candidateRepeats_eq_false_iff hhome d).1 hrep
      simp only [Bool.false_eq_true, if_false]
      refine Ensures.of_state fun idx hI => ?_
      refine Ensures.bind_eq ((slotState_spec hr hp' (slotFromHome_lt d hhome)).conseq
        (A := fun s => s = idx) (by rintro _ rfl; exact hI.1) fun _ _ h => h) ?_
      cases hacc : accepts (t (r'.firstSlot + slotFromHome (homeSlot hash r'.slotCount) d
          r'.slotCount)) d with
      | true =>
        simp only [if_true]
        refine (hfound d hd hc hacc).bind fun b => Ensures.pure fun _ h => h
      | false =>
        simp only [Bool.false_eq_true, if_false]
        exact Ensures.pure fun idx' h => ⟨h, hext idx hI fun _ => hacc⟩
  · rintro (b | ⟨⟩)
    · exact Ensures.pure fun _ h => h
    · exact Ensures.of_state fun idx h => (hmissed h.2).conseq (by rintro _ rfl; exact h.1)
        fun _ _ h => h

end Steps

end RegionIndex

/-! ## Outcomes of an insertion -/

/-- The `d`-th candidate of a home in a partition. -/
def IndexPartitionRange.candidate (r : IndexPartitionRange) (home d : ℕ) : ℕ :=
  slotFromHome home d r.slotCount

/-- The `d'`-th candidate of the occupant of a bucket that is its `d`-th one. -/
def IndexPartitionRange.alternate (r : IndexPartitionRange) (slot d d' : ℕ) : ℕ :=
  slotFromHome (homeFromSlot slot d r.slotCount) d' r.slotCount

/-- The state of a bucket of a partition. -/
def IndexPartitionRange.bucket (r : IndexPartitionRange) (t : ℕ → IndexSlotState) (slot : ℕ) :
    IndexSlotState :=
  t (r.firstSlot + slot)

/-- The table with one bucket of a partition replaced. -/
def IndexPartitionRange.put (r : IndexPartitionRange) (t : ℕ → IndexSlotState) (slot : ℕ)
    (state : IndexSlotState) : ℕ → IndexSlotState :=
  Function.update t (r.firstSlot + slot) state

/-- No candidate of the home holds an entry of the fingerprint at its own displacement. -/
def NoMatch (r : IndexPartitionRange) (home fp : ℕ) (t : ℕ → IndexSlotState) : Prop :=
  ∀ d < 4, Canonical r.slotCount d → ∀ e, r.bucket t (r.candidate home d) ≠ .value fp d e

/-- Every candidate of the home is occupied. -/
def CandidatesFull (r : IndexPartitionRange) (home : ℕ) (t : ℕ → IndexSlotState) : Prop :=
  ∀ d < 4, r.bucket t (r.candidate home d) ≠ .empty

/-- Every alternate of the bucket's occupant is occupied. -/
def AlternatesFull (r : IndexPartitionRange) (t : ℕ → IndexSlotState) (slot : ℕ) : Prop :=
  ∀ fp d e, r.bucket t slot = .value fp d e → ∀ d' < 4, r.bucket t (r.alternate slot d d') ≠ .empty

/-- Every alternate of the bucket's occupant is occupied by somebody whose alternates are all
occupied. -/
def SecondAlternatesFull (r : IndexPartitionRange) (t : ℕ → IndexSlotState) (slot : ℕ) : Prop :=
  ∀ fp d e, r.bucket t slot = .value fp d e →
    ∀ d' < 4, AlternatesFull r t (r.alternate slot d d')

/-- The ways in which an insertion of `e` for the home and the fingerprint ends: an entry of the
same token is overwritten, a free candidate is used, the occupant of a candidate moves to a free
alternate, it moves to the bucket of somebody who moves to a free alternate, or it is evicted. -/
inductive UpsertOutcome (r : IndexPartitionRange) (home fp : ℕ) (e : IndexEntry)
    (t : ℕ → IndexSlotState) : (ℕ → IndexSlotState) → Prop
  | overwrite (d : ℕ) (e₀ : IndexEntry) (hd : d < 4) (hc : Canonical r.slotCount d)
      (h : r.bucket t (r.candidate home d) = .value fp d e₀) :
      UpsertOutcome r home fp e t (r.put t (r.candidate home d) (.value fp d e.quantize))
  | free (d : ℕ) (hd : d < 4) (hc : Canonical r.slotCount d) (hno : NoMatch r home fp t)
      (h : r.bucket t (r.candidate home d) = .empty) :
      UpsertOutcome r home fp e t (r.put t (r.candidate home d) (.value fp d e.quantize))
  | oneHop (d fp' d' : ℕ) (e' : IndexEntry) (d₂ : ℕ) (hd : d < 4) (hc : Canonical r.slotCount d)
      (hno : NoMatch r home fp t) (hfull : CandidatesFull r home t)
      (hsource : r.bucket t (r.candidate home d) = .value fp' d' e')
      (hd₂ : d₂ < 4) (hc₂ : Canonical r.slotCount d₂)
      (htarget : r.bucket t (r.alternate (r.candidate home d) d' d₂) = .empty) :
      UpsertOutcome r home fp e t
        (r.put (r.put t (r.alternate (r.candidate home d) d' d₂) (.value fp' d₂ e'))
          (r.candidate home d) (.value fp d e.quantize))
  | twoHop (d fp' d' : ℕ) (e' : IndexEntry) (d₁ fp'' d'' : ℕ) (e'' : IndexEntry) (d₂ : ℕ)
      (hd : d < 4) (hc : Canonical r.slotCount d) (hno : NoMatch r home fp t)
      (hfull : CandidatesFull r home t)
      (hsource : r.bucket t (r.candidate home d) = .value fp' d' e')
      (hd₁ : d₁ < 4) (hc₁ : Canonical r.slotCount d₁)
      (hne : r.alternate (r.candidate home d) d' d₁ ≠ r.candidate home d)
      (hmiddle : r.bucket t (r.alternate (r.candidate home d) d' d₁) = .value fp'' d'' e'')
      (hd₂ : d₂ < 4) (hc₂ : Canonical r.slotCount d₂)
      (htarget :
        r.bucket t (r.alternate (r.alternate (r.candidate home d) d' d₁) d'' d₂) = .empty) :
      UpsertOutcome r home fp e t
        (r.put (r.put (r.put t
            (r.alternate (r.alternate (r.candidate home d) d' d₁) d'' d₂) (.value fp'' d₂ e''))
          (r.alternate (r.candidate home d) d' d₁) (.value fp' d₁ e'))
          (r.candidate home d) (.value fp d e.quantize))
  | evict (d : ℕ) (hd : d < 4) (hc : Canonical r.slotCount d) (hno : NoMatch r home fp t)
      (hfull : CandidatesFull r home t)
      (hone : ∀ d < 4, AlternatesFull r t (r.candidate home d))
      (htwo : ∀ d < 4, SecondAlternatesFull r t (r.candidate home d)) :
      UpsertOutcome r home fp e t (r.put t (r.candidate home d) (.value fp d e.quantize))

/-! ## Rewritten buckets -/

/-- Clears both heat bits of several buckets. -/
def SlotHeat.clearAll (heat : SlotHeat) (slots : List ℕ) : SlotHeat := slots.foldl clear heat

/-- The given buckets of the partition, and no others, were rewritten, each by the entry of
another bucket that moved there. -/
structure Relocates (r : IndexPartitionRange) (t t' : ℕ → IndexSlotState) (slots : List ℕ) :
    Prop where
  lt : ∀ s ∈ slots, s < r.slotCount
  others : ∀ g, g ∉ slots.map (r.firstSlot + ·) → t' g = t g
  moved : ∀ s ∈ slots, ∃ (s₀ fp d₀ d : ℕ) (e : IndexEntry), s₀ < r.slotCount ∧ s₀ ≠ s ∧
    r.bucket t s₀ = .value fp d₀ e ∧ r.bucket t' s = .value fp d e ∧
    homeFromSlot s d r.slotCount = homeFromSlot s₀ d₀ r.slotCount

/-- What an insertion rewrites: the bucket of the new entry and the buckets to which it moved
others. -/
structure UpsertRewrites (r : IndexPartitionRange) (home fp : ℕ) (e : IndexEntry)
    (t t' : ℕ → IndexSlotState) (slots : List ℕ) : Prop where
  lt : ∀ s ∈ slots, s < r.slotCount
  others : ∀ g, g ∉ slots.map (r.firstSlot + ·) → t' g = t g
  written : ∀ s ∈ slots, (∃ d, s = r.candidate home d ∧ r.bucket t' s = .value fp d e.quantize) ∨
    ∃ (s₀ fp₀ d₀ d : ℕ) (e₀ : IndexEntry), s₀ < r.slotCount ∧ s₀ ≠ s ∧
      r.bucket t s₀ = .value fp₀ d₀ e₀ ∧ r.bucket t' s = .value fp₀ d e₀ ∧
      homeFromSlot s d r.slotCount = homeFromSlot s₀ d₀ r.slotCount
  new : ∃ d, r.candidate home d ∈ slots ∧
    r.bucket t' (r.candidate home d) = .value fp d e.quantize

section Rewrites

variable {r : IndexPartitionRange} {home fp : ℕ} {e : IndexEntry} {t t' : ℕ → IndexSlotState}
  {slots : List ℕ}

/-- Another bucket of the partition is not changed. -/
lemma bucket_put_of_ne {s s' : ℕ} (h : s ≠ s') (state : IndexSlotState) :
    r.bucket (r.put t s' state) s = r.bucket t s := by
  unfold IndexPartitionRange.bucket IndexPartitionRange.put
  rw [Function.update_of_ne (by omega)]

/-- The replaced bucket holds its new state. -/
lemma bucket_put_self (s : ℕ) (state : IndexSlotState) : r.bucket (r.put t s state) s = state :=
  Function.update_self ..

/-- Nothing has been moved yet. -/
lemma Relocates.nil (r : IndexPartitionRange) (t : ℕ → IndexSlotState) : Relocates r t t [] :=
  ⟨by simp, fun _ _ => rfl, by simp⟩

/-- What is not rewritten by one more replacement. -/
lemma put_others {s : ℕ} (state : IndexSlotState)
    (h : ∀ g, g ∉ slots.map (r.firstSlot + ·) → t' g = t g) :
    ∀ g, g ∉ (slots ++ [s]).map (r.firstSlot + ·) → r.put t' s state g = t g := by
  intro g hg
  rw [List.map_append, List.mem_append, not_or] at hg
  unfold IndexPartitionRange.put
  rw [Function.update_of_ne (by simpa using hg.2), h g hg.1]

/-- One more occupant moves. -/
lemma Relocates.move (h : Relocates r t t' slots) {s₀ s fp₀ d₀ d : ℕ} {e₀ : IndexEntry}
    (hs : s < r.slotCount) (hs₀ : s₀ < r.slotCount) (hnew : s ∉ slots) (hne : s₀ ≠ s)
    (hb : r.bucket t s₀ = .value fp₀ d₀ e₀)
    (hhome : homeFromSlot s d r.slotCount = homeFromSlot s₀ d₀ r.slotCount) :
    Relocates r t (r.put t' s (.value fp₀ d e₀)) (slots ++ [s]) := by
  refine ⟨fun u hu => ?_, put_others _ h.others, fun u hu => ?_⟩
  · rcases List.mem_append.1 hu with hu | hu
    · exact h.lt u hu
    · rwa [List.mem_singleton.1 hu]
  · rcases List.mem_append.1 hu with hu | hu
    · rw [bucket_put_of_ne (ne_of_mem_of_not_mem hu hnew)]
      exact h.moved u hu
    · rw [List.mem_singleton.1 hu]
      exact ⟨s₀, fp₀, d₀, d, e₀, hs₀, hne, hb, bucket_put_self _ _, hhome⟩

/-- The new entry is written last. -/
lemma Relocates.insert (h : Relocates r t t' slots) {d : ℕ} (hhome : home < r.slotCount)
    (hnew : r.candidate home d ∉ slots) :
    UpsertRewrites r home fp e t (r.put t' (r.candidate home d) (.value fp d e.quantize))
      (slots ++ [r.candidate home d]) := by
  refine ⟨fun u hu => ?_, put_others _ h.others, fun u hu => ?_, d, by simp, bucket_put_self _ _⟩
  · rcases List.mem_append.1 hu with hu | hu
    · exact h.lt u hu
    · rw [List.mem_singleton.1 hu]
      exact slotFromHome_lt d hhome
  · rcases List.mem_append.1 hu with hu | hu
    · rw [bucket_put_of_ne (ne_of_mem_of_not_mem hu hnew)]
      exact .inr (h.moved u hu)
    · rw [List.mem_singleton.1 hu]
      exact .inl ⟨d, rfl, bucket_put_self _ _⟩

end Rewrites

/-! ## Insertion -/

/-- A stored value has a fingerprint of fourteen bits, a displacement of two and a rounded
length. -/
lemma IndexSlotState.stored_value_eq_iff {fp d : ℕ} {e : IndexEntry} :
    (value fp d e).stored = value fp d e ↔ fp < 2 ^ 14 ∧ d < 4 ∧ e.quantize = e := by
  simp only [stored, value.injEq]
  constructor
  · rintro ⟨h₁, h₂, h₃⟩
    exact ⟨by omega, by omega, h₃⟩
  · rintro ⟨h₁, h₂, h₃⟩
    exact ⟨Nat.mod_eq_of_lt h₁, Nat.mod_eq_of_lt h₂, h₃⟩

namespace RegionIndex

section Upsert

variable {crc : List UInt8 → BitVec 32} {slotCount : ℕ} {ranges : List IndexPartitionRange}
  {t : ℕ → IndexSlotState} {heat : SlotHeat} {p : ℕ} {r : IndexPartitionRange} {home fp : ℕ}
  {e : IndexEntry}

/-- The insertion has ended with one of its outcomes. -/
def UpsertDone (crc : List UInt8 → BitVec 32) (slotCount : ℕ) (ranges : List IndexPartitionRange)
    (r : IndexPartitionRange) (home fp : ℕ) (e : IndexEntry) (t : ℕ → IndexSlotState)
    (result : Bool) (idx : RegionIndex) : Prop :=
  result = true ∧ ∃ t', UpsertOutcome r home fp e t t' ∧ IndexRepr crc slotCount ranges t' idx

/-- The insertion has ended with one of its outcomes, and forgotten the heat of the buckets that
it rewrote. -/
def UpsertCleared (crc : List UInt8 → BitVec 32) (slotCount : ℕ)
    (ranges : List IndexPartitionRange) (r : IndexPartitionRange) (home fp : ℕ) (e : IndexEntry)
    (t : ℕ → IndexSlotState) (heat : SlotHeat) (result : Bool) (idx : RegionIndex) : Prop :=
  result = true ∧ ∃ t' slots, UpsertOutcome r home fp e t t' ∧
    UpsertRewrites r home fp e t t' slots ∧
    HeatRepr crc slotCount ranges t' (heat.clearAll (slots.map (r.firstSlot + ·))) idx

/-- Writing an entry whose fields fit the bucket. -/
lemma replaceSlot_value (hr : canonicalIndexPartitionRanges slotCount = .ok ranges)
    (hp : ranges[p]? = some r) {slot : ℕ} (hs : slot < r.slotCount) {previous : IndexSlotState}
    (hprev : previous = r.bucket t slot) {f d : ℕ} (hf : f < 2 ^ 14) (hd : d < 4)
    (entry : IndexEntry) :
    Ensures (HeatRepr crc slotCount ranges t heat)
      (replaceSlot crc r slot previous (valueState f d entry))
      fun _ => HeatRepr crc slotCount ranges (r.put t slot (.value f d entry.quantize))
        (heat.clear (r.firstSlot + slot)) := by
  refine (replaceSlot_spec crc hr hp hs hprev (valueState f d entry)).conseq (fun _ h => h) ?_
  intro _ idx h
  simp only [valueState, IndexSlotState.stored, Nat.mod_eq_of_lt hf, Nat.mod_eq_of_lt hd] at h
  exact h

/-- Reading a bucket, in terms of the partition. -/
lemma slotState_bucket (hr : canonicalIndexPartitionRanges slotCount = .ok ranges)
    (hp : ranges[p]? = some r) {slot : ℕ} (hs : slot < r.slotCount) :
    Ensures (HeatRepr crc slotCount ranges t heat) (slotState crc r slot)
      fun state idx => state = r.bucket t slot ∧ HeatRepr crc slotCount ranges t heat idx :=
  slotState_spec hr hp hs

/-- What the first pass over the candidates has established after `n` of them. -/
structure ProbeInv (r : IndexPartitionRange) (home fp : ℕ) (t : ℕ → IndexSlotState) (n : ℕ)
    (probe : UpsertProbe) : Prop where
  observed : ∀ d < n, Canonical r.slotCount d →
    probe.observed d = r.bucket t (r.candidate home d)
  noMatch : ∀ d < n, Canonical r.slotCount d → ∀ e, r.bucket t (r.candidate home d) ≠ .value fp d e
  full : probe.firstEmpty = none → ∀ d < n, Canonical r.slotCount d →
    r.bucket t (r.candidate home d) ≠ .empty
  free : ∀ d, probe.firstEmpty = some d → d < n ∧ Canonical r.slotCount d ∧
    r.bucket t (r.candidate home d) = .empty

/-- A skipped candidate changes nothing. -/
lemma ProbeInv.skip {n : ℕ} {probe : UpsertProbe} (h : ProbeInv r home fp t n probe)
    (hc : ¬ Canonical r.slotCount n) : ProbeInv r home fp t (n + 1) probe := by
  have hlt : ∀ d < n + 1, Canonical r.slotCount d → d < n := by
    intro d hd hcd
    rcases Nat.lt_succ_iff_lt_or_eq.1 hd with h | rfl
    · exact h
    · exact absurd hcd hc
  refine ⟨fun d hd hcd => h.observed d (hlt d hd hcd) hcd,
    fun d hd hcd => h.noMatch d (hlt d hd hcd) hcd,
    fun hn d hd hcd => h.full hn d (hlt d hd hcd) hcd, fun d hd => ?_⟩
  obtain ⟨h₁, h₂⟩ := h.free d hd
  exact ⟨by omega, h₂⟩

/-- A candidate that does not match is remembered. -/
lemma ProbeInv.push {n : ℕ} {probe : UpsertProbe} (h : ProbeInv r home fp t n probe)
    (hc : Canonical r.slotCount n)
    (hno : ∀ e, r.bucket t (r.candidate home n) ≠ .value fp n e) {firstEmpty : Option ℕ}
    (hfull : firstEmpty = none → probe.firstEmpty = none ∧
      r.bucket t (r.candidate home n) ≠ .empty)
    (hfree : ∀ d, firstEmpty = some d → probe.firstEmpty = some d ∨
      (d = n ∧ r.bucket t (r.candidate home n) = .empty)) :
    ProbeInv r home fp t (n + 1)
      ⟨Function.update probe.observed n (r.bucket t (r.candidate home n)), firstEmpty⟩ := by
  refine ⟨fun d hd hcd => ?_, fun d hd hcd => ?_, fun hn d hd hcd => ?_, fun d hd => ?_⟩
  · by_cases hdn : d = n
    · subst hdn
      exact Function.update_self ..
    · show Function.update probe.observed n _ d = _
      rw [Function.update_of_ne hdn]
      exact h.observed d (by omega) hcd
  · rcases Nat.lt_succ_iff_lt_or_eq.1 hd with hlt | rfl
    · exact h.noMatch d hlt hcd
    · exact hno
  · obtain ⟨h₁, h₂⟩ := hfull hn
    rcases Nat.lt_succ_iff_lt_or_eq.1 hd with hlt | rfl
    · exact h.full h₁ d hlt hcd
    · exact h₂
  · rcases hfree d hd with h₁ | ⟨rfl, h₂⟩
    · obtain ⟨h₂, h₃⟩ := h.free d h₁
      exact ⟨by omega, h₃⟩
    · exact ⟨by omega, hc, h₂⟩

/-- One candidate of the first pass. -/
lemma upsertProbeStep_spec (hr : canonicalIndexPartitionRanges slotCount = .ok ranges)
    (hp : ranges[p]? = some r) (hhome : home < r.slotCount) (hfp : fp < 2 ^ 14) {d : ℕ}
    (hd : d < 4) (probe : UpsertProbe) :
    Ensures (fun idx => HeatRepr crc slotCount ranges t heat idx ∧ ProbeInv r home fp t d probe)
      (upsertProbeStep crc r (fun d => slotFromHome home d r.slotCount) fp e d probe)
      (Loop.Flow.Holds (UpsertCleared crc slotCount ranges r home fp e t heat) fun probe idx =>
        HeatRepr crc slotCount ranges t heat idx ∧ ProbeInv r home fp t (d + 1) probe) := by
  unfold upsertProbeStep
  cases hrep : candidateRepeats (fun d => slotFromHome home d r.slotCount) d with
  | true =>
    simp only [if_true]
    refine Ensures.pure fun idx h => ⟨h.1, h.2.skip fun hc => ?_⟩
    rw [(candidateRepeats_eq_false_iff hhome d).2 hc] at hrep
    cases hrep
  | false =>
    have hc := (candidateRepeats_eq_false_iff hhome d).1 hrep
    have hlt := slotFromHome_lt d hhome
    simp only [Bool.false_eq_true, if_false]
    refine Ensures.of_state fun idx h => ?_
    refine Ensures.bind_eq ((slotState_bucket hr hp hlt).conseq (A := fun s => s = idx)
      (by rintro _ rfl; exact h.1) fun _ _ h => h) ?_
    have hb : r.bucket t (slotFromHome home d r.slotCount) =
      r.bucket t (r.candidate home d) := rfl
    rw [hb]
    cases hst : r.bucket t (r.candidate home d) with
    | empty =>
      refine Ensures.pure fun idx' h' => ⟨h', ?_⟩
      rw [← hst]
      refine h.2.push hc (by simp [hst]) (by simp) ?_
      intro d₀ hd₀
      rw [Option.some.injEq] at hd₀
      cases hfe : probe.firstEmpty with
      | none => exact .inr ⟨by rw [hfe] at hd₀; exact hd₀.symm, hst⟩
      | some d₁ => exact .inl (by rw [hfe] at hd₀; simpa using hd₀)
    | value fp' d' e' =>
      by_cases hmatch : fp' = fp ∧ d' = d
      · obtain ⟨rfl, rfl⟩ := hmatch
        simp only [beq_self_eq_true, Bool.and_self, if_true]
        rw [← hst]
        refine Ensures.bind (replaceSlot_value hr hp hlt rfl hfp hd e) fun _ => ?_
        exact Ensures.pure fun idx' h' => ⟨rfl, _, _, .overwrite d' e' hd hc hst,
          (Relocates.nil r t).insert hhome List.not_mem_nil, h'⟩
      · have hbeq : (fp' == fp && d' == d) = false := by
          simp only [Bool.and_eq_false_iff, beq_eq_false_iff_ne]
          tauto
        simp only [hbeq, Bool.false_eq_true, if_false]
        refine Ensures.pure fun idx' h' => ⟨h', ?_⟩
        rw [← hst]
        refine h.2.push hc ?_ (fun hn => ⟨hn, by simp [hst]⟩) fun d₀ hd₀ => .inl hd₀
        intro e₀ heq
        rw [hst] at heq
        cases heq
        exact hmatch ⟨rfl, rfl⟩

/-- A displacement that reaches a free bucket, when no smaller one does, is canonical. -/
lemma canonical_of_first_free {slot d d₂ : ℕ} (hs : slot < r.slotCount)
    (hbefore : ∀ j < d₂, r.bucket t (r.alternate slot d j) ≠ .empty)
    (hfree : r.bucket t (r.alternate slot d d₂) = .empty) : Canonical r.slotCount d₂ := by
  intro j hj heq
  refine hbefore j hj ?_
  have hsame : r.alternate slot d j = r.alternate slot d d₂ :=
    (slotFromHome_eq_iff (homeFromSlot_lt d hs)).2 heq
  rw [hsame, hfree]

/-- The occupant's own bucket is its alternate at its own displacement. -/
lemma alternate_self {slot : ℕ} (d : ℕ) (hs : slot < r.slotCount) : r.alternate slot d d = slot :=
  slotFromHome_homeFromSlot d hs

/-- One target of the one-hop search. -/
lemma oneHopTargetStep_spec (hr : canonicalIndexPartitionRanges slotCount = .ok ranges)
    (hp : ranges[p]? = some r) (hhome : home < r.slotCount) (hfp : fp < 2 ^ 14)
    (hno : NoMatch r home fp t) (hfull : CandidatesFull r home t) {d : ℕ} (hd : d < 4)
    (hc : Canonical r.slotCount d) {fp' d' : ℕ} {e' : IndexEntry}
    (hsource : r.bucket t (r.candidate home d) = .value fp' d' e')
    (hstored : (IndexSlotState.value fp' d' e').stored = .value fp' d' e') {d₂ : ℕ} (hd₂ : d₂ < 4) :
    Ensures
      (fun idx => HeatRepr crc slotCount ranges t heat idx ∧
        ∀ j < d₂, r.bucket t (r.alternate (r.candidate home d) d' j) ≠ .empty)
      (oneHopTargetStep crc r d (r.candidate home d) (r.bucket t (r.candidate home d)) fp' d'
        (homeFromSlot (r.candidate home d) d' r.slotCount) e' fp e d₂ ())
      (Loop.Flow.Holds (UpsertCleared crc slotCount ranges r home fp e t heat) fun _ idx =>
        HeatRepr crc slotCount ranges t heat idx ∧
          ∀ j < d₂ + 1, r.bucket t (r.alternate (r.candidate home d) d' j) ≠ .empty) := by
  obtain ⟨hfp', hd', hq⟩ := IndexSlotState.stored_value_eq_iff.1 hstored
  have hcand : r.candidate home d < r.slotCount := slotFromHome_lt d hhome
  have hocc : r.bucket t (r.candidate home d) ≠ .empty := by simp [hsource]
  have hext : ∀ idx, HeatRepr crc slotCount ranges t heat idx →
      (∀ j < d₂, r.bucket t (r.alternate (r.candidate home d) d' j) ≠ .empty) →
      r.bucket t (r.alternate (r.candidate home d) d' d₂) ≠ .empty →
      HeatRepr crc slotCount ranges t heat idx ∧
        ∀ j < d₂ + 1, r.bucket t (r.alternate (r.candidate home d) d' j) ≠ .empty := by
    intro idx h hbefore hthis
    refine ⟨h, fun j hj => ?_⟩
    rcases Nat.lt_succ_iff_lt_or_eq.1 hj with hlt | rfl
    · exact hbefore j hlt
    · exact hthis
  unfold oneHopTargetStep
  by_cases hself : d₂ = d'
  · -- the occupant's own bucket
    simp only [hself, beq_self_eq_true, if_true]
    subst hself
    refine Ensures.pure fun idx h => hext idx h.1 h.2 ?_
    rw [alternate_self _ hcand]
    exact hocc
  simp only [beq_eq_false_iff_ne.2 hself, Bool.false_eq_true, if_false]
  have hslot : slotFromHome (homeFromSlot (r.candidate home d) d' r.slotCount) d₂ r.slotCount =
    r.alternate (r.candidate home d) d' d₂ := rfl
  simp only [hslot]
  by_cases hsame : r.alternate (r.candidate home d) d' d₂ = r.candidate home d
  · simp only [hsame, beq_self_eq_true, if_true]
    refine Ensures.pure fun idx h => hext idx h.1 h.2 ?_
    rw [hsame]
    exact hocc
  simp only [beq_eq_false_iff_ne.2 hsame, Bool.false_eq_true, if_false]
  have hlt : r.alternate (r.candidate home d) d' d₂ < r.slotCount :=
    slotFromHome_lt d₂ (homeFromSlot_lt d' hcand)
  refine Ensures.of_state fun idx h => ?_
  refine Ensures.bind_eq ((slotState_bucket hr hp hlt).conseq (A := fun s => s = idx)
    (by rintro _ rfl; exact h.1) fun _ _ h => h) ?_
  cases htarget : r.bucket t (r.alternate (r.candidate home d) d' d₂) with
  | value _ _ _ => exact Ensures.pure fun idx' h' => hext idx' h' h.2 (by simp [htarget])
  | empty =>
    have hc₂ := canonical_of_first_free hcand h.2 htarget
    refine Ensures.bind (replaceSlot_value hr hp hlt htarget.symm hfp' hd₂ e') fun _ => ?_
    refine Ensures.bind (replaceSlot_value hr hp hcand ?_ hfp hd e) fun _ => ?_
    · exact (bucket_put_of_ne (Ne.symm hsame) _).symm
    refine Ensures.bind (recordActivity_spec fun _ => ⟨rfl, rfl⟩) fun _ => ?_
    rw [hq]
    have hmoved := (Relocates.nil r t).move hlt hcand List.not_mem_nil (Ne.symm hsame) hsource
      (homeFromSlot_slotFromHome d₂ (homeFromSlot_lt d' hcand))
    exact Ensures.pure fun idx' h' =>
      ⟨rfl, _, _, .oneHop d fp' d' e' d₂ hd hc hno hfull hsource hd₂ hc₂ htarget,
        hmoved.insert hhome (by simpa using Ne.symm hsame), h'⟩

/-- One source of the one-hop search. -/
lemma oneHopStep_spec (hr : canonicalIndexPartitionRanges slotCount = .ok ranges)
    (hp : ranges[p]? = some r) (hhome : home < r.slotCount) (hfp : fp < 2 ^ 14)
    (hst : ∀ s < r.slotCount, (r.bucket t s).stored = r.bucket t s)
    (hno : NoMatch r home fp t) (hfull : CandidatesFull r home t) {probe : UpsertProbe}
    (hprobe : ProbeInv r home fp t 4 probe) {d : ℕ} (hd : d < 4) :
    Ensures
      (fun idx => HeatRepr crc slotCount ranges t heat idx ∧
        ∀ j < d, Canonical r.slotCount j → AlternatesFull r t (r.candidate home j))
      (oneHopStep crc r (fun d => slotFromHome home d r.slotCount) probe.observed fp e d ())
      (Loop.Flow.Holds (UpsertCleared crc slotCount ranges r home fp e t heat) fun _ idx =>
        HeatRepr crc slotCount ranges t heat idx ∧
          ∀ j < d + 1, Canonical r.slotCount j → AlternatesFull r t (r.candidate home j)) := by
  have hext : ∀ idx, HeatRepr crc slotCount ranges t heat idx →
      (∀ j < d, Canonical r.slotCount j → AlternatesFull r t (r.candidate home j)) →
      (Canonical r.slotCount d → AlternatesFull r t (r.candidate home d)) →
      HeatRepr crc slotCount ranges t heat idx ∧
        ∀ j < d + 1, Canonical r.slotCount j → AlternatesFull r t (r.candidate home j) := by
    intro idx h hbefore hthis
    refine ⟨h, fun j hj => ?_⟩
    rcases Nat.lt_succ_iff_lt_or_eq.1 hj with hlt | rfl
    · exact hbefore j hlt
    · exact hthis
  unfold oneHopStep
  cases hrep : candidateRepeats (fun d => slotFromHome home d r.slotCount) d with
  | true =>
    simp only [if_true]
    refine Ensures.pure fun idx h => hext idx h.1 h.2 fun hc => ?_
    rw [(candidateRepeats_eq_false_iff hhome d).2 hc] at hrep
    cases hrep
  | false =>
    have hc := (candidateRepeats_eq_false_iff hhome d).1 hrep
    have hcand : r.candidate home d < r.slotCount := slotFromHome_lt d hhome
    simp only [Bool.false_eq_true, if_false, hprobe.observed d hd hc]
    cases hsource : r.bucket t (r.candidate home d) with
    | empty => exact absurd hsource (hfull d hd)
    | value fp' d' e' =>
      have hstored := hst _ hcand
      rw [hsource] at hstored
      obtain ⟨-, hd', -⟩ := IndexSlotState.stored_value_eq_iff.1 hstored
      simp only [if_neg (show ¬ d' ≥ indexCandidates by simp only [indexCandidates]; omega)]
      refine Ensures.of_state fun idx h => ?_
      have hloop := Ensures.forRange (Q := UpsertCleared crc slotCount ranges r home fp e t heat)
        (I := fun n (_ : Unit) idx => HeatRepr crc slotCount ranges t heat idx ∧
          ∀ j < n, r.bucket t (r.alternate (r.candidate home d) d' j) ≠ .empty)
        indexCandidates ()
        fun d₂ hd₂ _ => oneHopTargetStep_spec (e := e) hr hp hhome hfp hno hfull hd hc hsource
          hstored hd₂
      rw [hsource] at hloop
      refine hloop.conseq (by rintro _ rfl; exact ⟨h.1, by simp⟩) ?_
      rintro (b | ⟨⟩) idx' h'
      · exact h'
      · refine hext idx' h'.1 h.2 fun _ => ?_
        intro fp₁ d₁ e₁ heq j hj
        rw [hsource] at heq
        cases heq
        exact h'.2 j hj

/-- One target of the two-hop search. -/
lemma twoHopTargetStep_spec (hr : canonicalIndexPartitionRanges slotCount = .ok ranges)
    (hp : ranges[p]? = some r) (hhome : home < r.slotCount) (hfp : fp < 2 ^ 14)
    (hno : NoMatch r home fp t) (hfull : CandidatesFull r home t) {d : ℕ} (hd : d < 4)
    (hc : Canonical r.slotCount d) {fp' d' : ℕ} {e' : IndexEntry}
    (hsource : r.bucket t (r.candidate home d) = .value fp' d' e')
    (hstored : (IndexSlotState.value fp' d' e').stored = .value fp' d' e') {d₁ : ℕ} (hd₁ : d₁ < 4)
    (hmiddleBefore : ∀ j < d₁, AlternatesFull r t (r.alternate (r.candidate home d) d' j))
    (hne : r.alternate (r.candidate home d) d' d₁ ≠ r.candidate home d) {fp'' d'' : ℕ}
    {e'' : IndexEntry}
    (hmiddle : r.bucket t (r.alternate (r.candidate home d) d' d₁) = .value fp'' d'' e'')
    (hstored' : (IndexSlotState.value fp'' d'' e'').stored = .value fp'' d'' e'') {d₂ : ℕ}
    (hd₂ : d₂ < 4) :
    Ensures
      (fun idx => HeatRepr crc slotCount ranges t heat idx ∧ ∀ j < d₂, r.bucket t
        (r.alternate (r.alternate (r.candidate home d) d' d₁) d'' j) ≠ .empty)
      (twoHopTargetStep crc r d (r.candidate home d) (r.bucket t (r.candidate home d)) fp' e' d₁
        (r.alternate (r.candidate home d) d' d₁)
        (r.bucket t (r.alternate (r.candidate home d) d' d₁)) fp'' d''
        (homeFromSlot (r.alternate (r.candidate home d) d' d₁) d'' r.slotCount) e'' fp e d₂ ())
      (Loop.Flow.Holds (UpsertCleared crc slotCount ranges r home fp e t heat) fun _ idx =>
        HeatRepr crc slotCount ranges t heat idx ∧ ∀ j < d₂ + 1, r.bucket t
          (r.alternate (r.alternate (r.candidate home d) d' d₁) d'' j) ≠ .empty) := by
  obtain ⟨hfp', hd', hq⟩ := IndexSlotState.stored_value_eq_iff.1 hstored
  obtain ⟨hfp'', hd'', hq'⟩ := IndexSlotState.stored_value_eq_iff.1 hstored'
  have hcand : r.candidate home d < r.slotCount := slotFromHome_lt d hhome
  have hmid : r.alternate (r.candidate home d) d' d₁ < r.slotCount :=
    slotFromHome_lt d₁ (homeFromSlot_lt d' hcand)
  have hocc : r.bucket t (r.candidate home d) ≠ .empty := by simp [hsource]
  have hocc' : r.bucket t (r.alternate (r.candidate home d) d' d₁) ≠ .empty := by simp [hmiddle]
  -- the middle displacement is the first one that leads to a middle bucket with a free alternate
  have hc₁ : ∀ d₂ < 4,
      r.bucket t (r.alternate (r.alternate (r.candidate home d) d' d₁) d'' d₂) = .empty →
      Canonical r.slotCount d₁ := by
    intro d₂ hd₂ hfree j hj heq
    have hsame : r.alternate (r.candidate home d) d' j = r.alternate (r.candidate home d) d' d₁ :=
      (slotFromHome_eq_iff (homeFromSlot_lt d' hcand)).2 heq
    have := hmiddleBefore j hj
    rw [hsame] at this
    exact this fp'' d'' e'' hmiddle d₂ hd₂ hfree
  generalize hM : r.alternate (r.candidate home d) d' d₁ = mid at *
  have hext : ∀ idx, HeatRepr crc slotCount ranges t heat idx →
      (∀ j < d₂, r.bucket t (r.alternate mid d'' j) ≠ .empty) →
      r.bucket t (r.alternate mid d'' d₂) ≠ .empty →
      HeatRepr crc slotCount ranges t heat idx ∧
        ∀ j < d₂ + 1, r.bucket t (r.alternate mid d'' j) ≠ .empty := by
    intro idx h hbefore hthis
    refine ⟨h, fun j hj => ?_⟩
    rcases Nat.lt_succ_iff_lt_or_eq.1 hj with hlt | rfl
    · exact hbefore j hlt
    · exact hthis
  unfold twoHopTargetStep
  by_cases hself : d₂ = d''
  · simp only [hself, beq_self_eq_true, if_true]
    subst hself
    refine Ensures.pure fun idx h => hext idx h.1 h.2 ?_
    rw [alternate_self _ hmid]
    exact hocc'
  simp only [beq_eq_false_iff_ne.2 hself, Bool.false_eq_true, if_false]
  have hslot : slotFromHome (homeFromSlot mid d'' r.slotCount) d₂ r.slotCount =
    r.alternate mid d'' d₂ := rfl
  simp only [hslot]
  by_cases hsame : r.alternate mid d'' d₂ = r.candidate home d
  · simp only [hsame, beq_self_eq_true, Bool.true_or, if_true]
    refine Ensures.pure fun idx h => hext idx h.1 h.2 ?_
    rw [hsame]
    exact hocc
  by_cases hsame' : r.alternate mid d'' d₂ = mid
  · simp only [hsame', beq_self_eq_true, Bool.or_true, if_true]
    refine Ensures.pure fun idx h => hext idx h.1 h.2 ?_
    rw [hsame']
    exact hocc'
  simp only [beq_eq_false_iff_ne.2 hsame, beq_eq_false_iff_ne.2 hsame', Bool.or_self,
    Bool.false_eq_true, if_false]
  have hlt : r.alternate mid d'' d₂ < r.slotCount := slotFromHome_lt d₂ (homeFromSlot_lt d'' hmid)
  refine Ensures.of_state fun idx h => ?_
  refine Ensures.bind_eq ((slotState_bucket hr hp hlt).conseq (A := fun s => s = idx)
    (by rintro _ rfl; exact h.1) fun _ _ h => h) ?_
  cases htarget : r.bucket t (r.alternate mid d'' d₂) with
  | value _ _ _ => exact Ensures.pure fun idx' h' => hext idx' h' h.2 (by simp [htarget])
  | empty =>
    have hc₂ := canonical_of_first_free hmid h.2 htarget
    refine Ensures.bind (replaceSlot_value hr hp hlt htarget.symm hfp'' hd₂ e'') fun _ => ?_
    refine Ensures.bind (replaceSlot_value hr hp hmid ?_ hfp' hd₁ e') fun _ => ?_
    · exact (bucket_put_of_ne (Ne.symm hsame') _).symm
    refine Ensures.bind (replaceSlot_value hr hp hcand ?_ hfp hd e) fun _ => ?_
    · rw [bucket_put_of_ne (Ne.symm hne), bucket_put_of_ne (Ne.symm hsame)]
    refine Ensures.bind (recordActivity_spec fun _ => ⟨rfl, rfl⟩) fun _ => ?_
    rw [hq, hq']
    subst hM
    have hmoved := ((Relocates.nil r t).move hlt hmid List.not_mem_nil (Ne.symm hsame') hmiddle
      (homeFromSlot_slotFromHome d₂ (homeFromSlot_lt d'' hmid))).move hmid hcand
      (by simpa using Ne.symm hsame') (Ne.symm hne) hsource
      (homeFromSlot_slotFromHome d₁ (homeFromSlot_lt d' hcand))
    exact Ensures.pure fun idx' h' => ⟨rfl, _, _, .twoHop d fp' d' e' d₁ fp'' d'' e'' d₂ hd hc hno
      hfull hsource hd₁ (hc₁ d₂ hd₂ htarget) hne hmiddle hd₂ hc₂ htarget,
      hmoved.insert hhome (by simp [Ne.symm hsame, Ne.symm hne]), h'⟩

/-- One middle bucket of the two-hop search. -/
lemma twoHopMiddleStep_spec (hr : canonicalIndexPartitionRanges slotCount = .ok ranges)
    (hp : ranges[p]? = some r) (hhome : home < r.slotCount) (hfp : fp < 2 ^ 14)
    (hst : ∀ s < r.slotCount, (r.bucket t s).stored = r.bucket t s)
    (hno : NoMatch r home fp t) (hfull : CandidatesFull r home t) {d : ℕ} (hd : d < 4)
    (hc : Canonical r.slotCount d) {fp' d' : ℕ} {e' : IndexEntry}
    (hsource : r.bucket t (r.candidate home d) = .value fp' d' e')
    (hone : AlternatesFull r t (r.candidate home d)) {d₁ : ℕ} (hd₁ : d₁ < 4) :
    Ensures
      (fun idx => HeatRepr crc slotCount ranges t heat idx ∧
        ∀ j < d₁, AlternatesFull r t (r.alternate (r.candidate home d) d' j))
      (twoHopMiddleStep crc r d (r.candidate home d) (r.bucket t (r.candidate home d)) fp' d'
        (homeFromSlot (r.candidate home d) d' r.slotCount) e' fp e d₁ ())
      (Loop.Flow.Holds (UpsertCleared crc slotCount ranges r home fp e t heat) fun _ idx =>
        HeatRepr crc slotCount ranges t heat idx ∧
          ∀ j < d₁ + 1, AlternatesFull r t (r.alternate (r.candidate home d) d' j)) := by
  have hcand : r.candidate home d < r.slotCount := slotFromHome_lt d hhome
  have hmid : r.alternate (r.candidate home d) d' d₁ < r.slotCount :=
    slotFromHome_lt d₁ (homeFromSlot_lt d' hcand)
  have hstored := hst _ hcand
  rw [hsource] at hstored
  unfold twoHopMiddleStep
  by_cases hself : d₁ = d'
  · simp only [hself, beq_self_eq_true, if_true]
    subst hself
    refine Ensures.pure fun idx h => ⟨h.1, Nat.forall_lt_succ_right.2 ⟨h.2, ?_⟩⟩
    rw [alternate_self _ hcand]
    exact hone
  simp only [beq_eq_false_iff_ne.2 hself, Bool.false_eq_true, if_false]
  have hslot : slotFromHome (homeFromSlot (r.candidate home d) d' r.slotCount) d₁ r.slotCount =
    r.alternate (r.candidate home d) d' d₁ := rfl
  simp only [hslot]
  by_cases hsame : r.alternate (r.candidate home d) d' d₁ = r.candidate home d
  · simp only [hsame, beq_self_eq_true, if_true]
    refine Ensures.pure fun idx h => ⟨h.1, Nat.forall_lt_succ_right.2 ⟨h.2, ?_⟩⟩
    rw [hsame]
    exact hone
  simp only [beq_eq_false_iff_ne.2 hsame, Bool.false_eq_true, if_false]
  refine Ensures.of_state fun idx h => ?_
  refine Ensures.bind_eq ((slotState_bucket hr hp hmid).conseq (A := fun s => s = idx)
    (by rintro _ rfl; exact h.1) fun _ _ h => h) ?_
  cases hmiddle : r.bucket t (r.alternate (r.candidate home d) d' d₁) with
  | empty =>
    refine Ensures.pure fun idx' h' => ⟨h', Nat.forall_lt_succ_right.2 ⟨h.2, ?_⟩⟩
    intro fp₁ d₁ e₁ heq
    rw [hmiddle] at heq
    cases heq
  | value fp'' d'' e'' =>
    have hstored' := hst _ hmid
    rw [hmiddle] at hstored'
    obtain ⟨-, hd'', -⟩ := IndexSlotState.stored_value_eq_iff.1 hstored'
    simp only [if_neg (show ¬ d'' ≥ indexCandidates by simp only [indexCandidates]; omega)]
    have hloop := Ensures.forRange (Q := UpsertCleared crc slotCount ranges r home fp e t heat)
      (I := fun n (_ : Unit) idx => HeatRepr crc slotCount ranges t heat idx ∧ ∀ j < n, r.bucket t
        (r.alternate (r.alternate (r.candidate home d) d' d₁) d'' j) ≠ .empty)
      indexCandidates ()
      fun d₂ hd₂ _ => twoHopTargetStep_spec (e := e) hr hp hhome hfp hno hfull hd hc hsource
        hstored hd₁ h.2 hsame hmiddle hstored' hd₂
    rw [hmiddle] at hloop
    refine hloop.conseq (fun idx' h' => ⟨h', by simp⟩) ?_
    rintro (b | ⟨⟩) idx' h'
    · exact h'
    · refine ⟨h'.1, Nat.forall_lt_succ_right.2 ⟨h.2, ?_⟩⟩
      intro fp₁ d₁ e₁ heq j hj
      rw [hmiddle] at heq
      cases heq
      exact h'.2 j hj

/-- One source of the two-hop search. -/
lemma twoHopStep_spec (hr : canonicalIndexPartitionRanges slotCount = .ok ranges)
    (hp : ranges[p]? = some r) (hhome : home < r.slotCount) (hfp : fp < 2 ^ 14)
    (hst : ∀ s < r.slotCount, (r.bucket t s).stored = r.bucket t s)
    (hno : NoMatch r home fp t) (hfull : CandidatesFull r home t)
    (hone : ∀ d < 4, Canonical r.slotCount d → AlternatesFull r t (r.candidate home d))
    {probe : UpsertProbe} (hprobe : ProbeInv r home fp t 4 probe) {d : ℕ} (hd : d < 4) :
    Ensures
      (fun idx => HeatRepr crc slotCount ranges t heat idx ∧
        ∀ j < d, Canonical r.slotCount j → SecondAlternatesFull r t (r.candidate home j))
      (twoHopStep crc r (fun d => slotFromHome home d r.slotCount) probe.observed fp e d ())
      (Loop.Flow.Holds (UpsertCleared crc slotCount ranges r home fp e t heat) fun _ idx =>
        HeatRepr crc slotCount ranges t heat idx ∧
          ∀ j < d + 1, Canonical r.slotCount j →
            SecondAlternatesFull r t (r.candidate home j)) := by
  unfold twoHopStep
  cases hrep : candidateRepeats (fun d => slotFromHome home d r.slotCount) d with
  | true =>
    simp only [if_true]
    refine Ensures.pure fun idx h => ⟨h.1, Nat.forall_lt_succ_right.2 ⟨h.2, fun hc => ?_⟩⟩
    rw [(candidateRepeats_eq_false_iff hhome d).2 hc] at hrep
    cases hrep
  | false =>
    have hc := (candidateRepeats_eq_false_iff hhome d).1 hrep
    have hcand : r.candidate home d < r.slotCount := slotFromHome_lt d hhome
    simp only [Bool.false_eq_true, if_false, hprobe.observed d hd hc]
    cases hsource : r.bucket t (r.candidate home d) with
    | empty => exact absurd hsource (hfull d hd)
    | value fp' d' e' =>
      have hstored := hst _ hcand
      rw [hsource] at hstored
      obtain ⟨-, hd', -⟩ := IndexSlotState.stored_value_eq_iff.1 hstored
      simp only [if_neg (show ¬ d' ≥ indexCandidates by simp only [indexCandidates]; omega)]
      refine Ensures.of_state fun idx h => ?_
      have hloop := Ensures.forRange (Q := UpsertCleared crc slotCount ranges r home fp e t heat)
        (I := fun n (_ : Unit) idx => HeatRepr crc slotCount ranges t heat idx ∧
          ∀ j < n, AlternatesFull r t (r.alternate (r.candidate home d) d' j))
        indexCandidates ()
        fun d₁ hd₁ _ => twoHopMiddleStep_spec (e := e) hr hp hhome hfp hst hno hfull hd hc hsource
          (hone d hd hc) hd₁
      rw [hsource] at hloop
      refine hloop.conseq (by rintro _ rfl; exact ⟨h.1, by simp⟩) ?_
      rintro (b | ⟨⟩) idx' h'
      · exact h'
      · refine ⟨h'.1, Nat.forall_lt_succ_right.2 ⟨h.2, fun _ => ?_⟩⟩
        intro fp₁ d₁ e₁ heq j hj
        rw [hsource] at heq
        cases heq
        exact h'.2 j hj

/-- A property of the candidates with a canonical displacement holds of all of them. -/
lemma forall_candidate {P : ℕ → Prop} (hhome : home < r.slotCount)
    (h : ∀ d < 4, Canonical r.slotCount d → P (r.candidate home d)) :
    ∀ d < 4, P (r.candidate home d) := by
  intro d hd
  obtain ⟨j, hj, hc, hoff⟩ := exists_canonical r.slotCount d
  have hsame : r.candidate home j = r.candidate home d := (slotFromHome_eq_iff hhome).2 hoff
  rw [← hsame]
  exact h j (by omega) hc

/-- The evicted candidate has a canonical displacement. -/
lemma victimDisplacement_spec (hash : Hash) (hhome : home < r.slotCount) :
    victimDisplacement hash (fun d => slotFromHome home d r.slotCount) < 4 ∧
      Canonical r.slotCount
        (victimDisplacement hash fun d => slotFromHome home d r.slotCount) := by
  unfold victimDisplacement
  simp only [indexCandidates]
  cases hfind : ((List.range 4).map fun step =>
      ((hash.rotateLeft 17).toNat &&& (4 - 1)) + step &&& (4 - 1)).find?
        fun d => !candidateRepeats (fun d => slotFromHome home d r.slotCount) d with
  | none => exact ⟨by simp, canonical_zero _⟩
  | some d =>
    have hmem := List.mem_of_find?_eq_some hfind
    have hprop := List.find?_some hfind
    simp only [Bool.not_eq_true'] at hprop
    refine ⟨?_, (candidateRepeats_eq_false_iff hhome d).1 hprop⟩
    obtain ⟨step, -, rfl⟩ := List.mem_map.1 hmem
    have := Nat.and_le_right (n := ((hash.rotateLeft 17).toNat &&& (4 - 1)) + step) (m := 4 - 1)
    simp only [Option.getD_some]
    omega

/-- An insertion always succeeds, with one of its outcomes, and forgets the heat of the buckets
that it rewrites. -/
theorem upsert_cleared (hash : Hash) (e : IndexEntry)
    (hr : canonicalIndexPartitionRanges slotCount = .ok ranges)
    (hp : ranges[indexPartitionFor hash ranges.length]? = some r)
    (hst : ∀ s < r.slotCount, (r.bucket t s).stored = r.bucket t s) :
    Ensures (HeatRepr crc slotCount ranges t heat) (upsert crc hash e)
      (UpsertCleared crc slotCount ranges r (homeSlot hash r.slotCount) (fingerprint hash) e t
        heat) := by
  obtain ⟨r', hp', h4, hpart⟩ := hashPartition_spec crc t heat hash hr
  obtain rfl : r' = r := by
    rw [hp', Option.some.injEq] at hp
    exact hp
  have hhome : homeSlot hash r'.slotCount < r'.slotCount := homeSlot_lt hash (by omega)
  have hcand : candidateSlots hash r'.slotCount =
    fun d => slotFromHome (homeSlot hash r'.slotCount) d r'.slotCount := rfl
  generalize homeSlot hash r'.slotCount = home at *
  unfold upsert
  refine hpart.bind_eq ?_
  rw [hcand]
  refine Ensures.bind ((Ensures.forRange (I := fun n probe idx =>
    HeatRepr crc slotCount ranges t heat idx ∧ ProbeInv r' home (fingerprint hash) t n probe)
    indexCandidates _ fun d hd probe => upsertProbeStep_spec hr hp' hhome (fingerprint_lt hash) hd
      probe).conseq ?_ fun _ _ h => h) ?_
  · exact fun idx h => ⟨h, by simp, by simp, by simp, by simp⟩
  rintro (result | probe)
  · exact Ensures.pure fun _ h => h
  refine Ensures.of_state fun idx h => ?_
  obtain ⟨hidx, hprobe⟩ := h
  have hno : NoMatch r' home (fingerprint hash) t := hprobe.noMatch
  cases hfe : probe.firstEmpty with
  | some d =>
    obtain ⟨hd, hc, hfree⟩ := hprobe.free d hfe
    simp only [hfe]
    refine Ensures.bind ((replaceSlot_value hr hp' (slotFromHome_lt d hhome) hfree.symm
      (fingerprint_lt hash) hd e).conseq (A := fun s => s = idx) (by rintro _ rfl; exact hidx)
      fun _ _ h => h) fun _ => ?_
    exact Ensures.pure fun idx' h' => ⟨rfl, _, _, .free d hd hc hno hfree,
      (Relocates.nil r' t).insert hhome List.not_mem_nil, h'⟩
  | none =>
    have hfull : CandidatesFull r' home t :=
      forall_candidate (P := fun s => r'.bucket t s ≠ .empty) hhome (hprobe.full hfe)
    simp only [hfe]
    refine Ensures.bind ((Ensures.forRange (I := fun n (_ : Unit) idx =>
      HeatRepr crc slotCount ranges t heat idx ∧
        ∀ j < n, Canonical r'.slotCount j → AlternatesFull r' t (r'.candidate home j))
      indexCandidates _ fun d hd _ => oneHopStep_spec hr hp' hhome (fingerprint_lt hash) hst hno
        hfull hprobe hd).conseq ?_ fun _ _ h => h) ?_
    · rintro _ rfl
      exact ⟨hidx, by simp⟩
    rintro (result | ⟨⟩)
    · exact Ensures.pure fun _ h => h
    refine Ensures.of_state fun idx₁ h₁ => ?_
    obtain ⟨hidx₁, hone⟩ := h₁
    refine Ensures.bind ((Ensures.forRange (I := fun n (_ : Unit) idx =>
      HeatRepr crc slotCount ranges t heat idx ∧
        ∀ j < n, Canonical r'.slotCount j → SecondAlternatesFull r' t (r'.candidate home j))
      indexCandidates _ fun d hd _ => twoHopStep_spec hr hp' hhome (fingerprint_lt hash) hst hno
        hfull hone hprobe hd).conseq ?_ fun _ _ h => h) ?_
    · rintro _ rfl
      exact ⟨hidx₁, by simp⟩
    rintro (result | ⟨⟩)
    · exact Ensures.pure fun _ h => h
    refine Ensures.of_state fun idx₂ h₂ => ?_
    obtain ⟨hidx₂, htwo⟩ := h₂
    obtain ⟨hd, hc⟩ := victimDisplacement_spec hash hhome
    unfold evictCandidate
    refine Ensures.bind ((replaceSlot_value hr hp' (slotFromHome_lt _ hhome)
      (hprobe.observed _ hd hc) (fingerprint_lt hash) hd e).conseq (A := fun s => s = idx₂)
      (by rintro _ rfl; exact hidx₂) fun _ _ h => h) fun _ => ?_
    refine Ensures.bind (recordActivity_spec fun _ => ⟨rfl, rfl⟩) fun _ => ?_
    exact Ensures.pure fun idx' h' => ⟨rfl, _, _, .evict _ hd hc hno hfull
      (forall_candidate hhome hone) (forall_candidate hhome htwo),
      (Relocates.nil r' t).insert hhome List.not_mem_nil, h'⟩

/-- **Insertion.** An insertion always succeeds, with one of its outcomes. -/
theorem upsert_spec (hash : Hash) (e : IndexEntry)
    (hr : canonicalIndexPartitionRanges slotCount = .ok ranges)
    (hp : ranges[indexPartitionFor hash ranges.length]? = some r)
    (hst : ∀ s < r.slotCount, (r.bucket t s).stored = r.bucket t s) :
    Ensures (IndexRepr crc slotCount ranges t) (upsert crc hash e)
      (UpsertDone crc slotCount ranges r (homeSlot hash r.slotCount) (fingerprint hash) e t) := by
  refine Ensures.of_heat fun heat => (upsert_cleared hash e hr hp hst).conseq (fun _ h => h) ?_
  rintro result idx ⟨hresult, t', slots, hout, -, h⟩
  exact ⟨hresult, t', hout, h.1⟩

end Upsert

end RegionIndex

end Cache2

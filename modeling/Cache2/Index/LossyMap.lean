import Cache2.Lib.TokenTable
import Cache2.Index.Specs

set_option relaxedAutoImplicit false
set_option autoImplicit false

/-!
# The Region index is a lossy map

The index as its callers see it: a partial map from *tokens* to record locations, where the
token of a hash is its partition, its home bucket and its fingerprint. Different hashes may
share a token; an insertion may evict one other token; nothing else is ever lost.

The invariant behind it has two parts. No two buckets carry the same token. And every stored
displacement is canonical, the smallest one that reaches its bucket from the home: in a small
partition two candidates of a home may coincide, the operations skip the later one, and an entry
stored there under the larger displacement would never be found again.

## Main definitions

* `Cache2.Token`, `Cache2.tokenOf` — what the index can tell hashes apart by.
* `Cache2.cells` — the table as cells that carry tokens.
* `Cache2.MapInv` — the invariant.
* `Cache2.IndexOp`, `Cache2.runOps` — sequences of operations.

## Main results

* `Cache2.UpsertOutcome.effect` — every outcome of an insertion as a change of the map.
* `Cache2.regionIndex_lossyMap` — the index after any sequence of operations.
-/

namespace Cache2

open Loop TokenTable

/-! ## Tokens -/

/-- What the index can tell hashes apart by. -/
structure Token where
  part : ℕ
  home : ℕ
  fingerprint : ℕ
  deriving DecidableEq, Repr

/-- The token of a hash. -/
def tokenOf (ranges : List IndexPartitionRange) (hash : Hash) : Token :=
  let part := indexPartitionFor hash ranges.length
  let slotCount := (ranges.getD part ⟨0, 0, 0, 0, 0⟩).slotCount
  ⟨part, homeSlot hash slotCount, fingerprint hash⟩

/-- The token and the entry that a state stands for in bucket `slot` of a partition of `n`
buckets. -/
def cellOf (part n slot : ℕ) : IndexSlotState → Option (Token × IndexEntry)
  | .empty => none
  | .value fp d e => some (⟨part, homeFromSlot slot d n, fp⟩, e)

/-- The table as cells, one for each bucket of each partition. -/
def cells (ranges : List IndexPartitionRange) (t : ℕ → IndexSlotState) :
    ℕ × ℕ → Option (Token × IndexEntry) := fun c =>
  match ranges[c.1]? with
  | none => none
  | some r => if c.2 < r.slotCount then cellOf c.1 r.slotCount c.2 (r.bucket t c.2) else none

/-- Every bucket of every partition holds a stored state with a canonical displacement. -/
structure TableShape (ranges : List IndexPartitionRange) (t : ℕ → IndexSlotState) : Prop where
  canonical : ∀ (p : ℕ) (r : IndexPartitionRange) (s : ℕ), ranges[p]? = some r → s < r.slotCount →
    ∀ fp d e, r.bucket t s = .value fp d e → Canonical r.slotCount d
  stored : ∀ (p : ℕ) (r : IndexPartitionRange) (s : ℕ), ranges[p]? = some r → s < r.slotCount →
    (r.bucket t s).stored = r.bucket t s

/-- The invariant of the index: its shape, and no two buckets with the same token. -/
structure MapInv (ranges : List IndexPartitionRange) (t : ℕ → IndexSlotState) : Prop where
  shape : TableShape ranges t
  unique : Unique (cells ranges t)

section Table

variable {slotCount : ℕ} {ranges : List IndexPartitionRange} {t : ℕ → IndexSlotState} {p : ℕ}
  {r : IndexPartitionRange}

/-- The cell of a bucket. -/
lemma cells_eq (hp : ranges[p]? = some r) {s : ℕ} (hs : s < r.slotCount) :
    cells ranges t (p, s) = cellOf p r.slotCount s (r.bucket t s) := by
  simp only [cells, hp, if_pos hs]

/-- The token of a hash, by its partition. -/
lemma tokenOf_eq {hash : Hash} (hp : ranges[indexPartitionFor hash ranges.length]? = some r) :
    tokenOf ranges hash =
      ⟨indexPartitionFor hash ranges.length, homeSlot hash r.slotCount, fingerprint hash⟩ := by
  simp only [tokenOf, List.getD_eq_getElem?_getD, hp, Option.getD_some]

/-- Replacing a bucket replaces its cell. -/
lemma cells_put (hr : canonicalIndexPartitionRanges slotCount = .ok ranges)
    (hp : ranges[p]? = some r) {s : ℕ} (hs : s < r.slotCount) (state : IndexSlotState) :
    cells ranges (r.put t s state) =
      Function.update (cells ranges t) (p, s) (cellOf p r.slotCount s state) := by
  obtain ⟨-, -, -, hchain⟩ := canonicalIndexPartitionRanges_chain hr
  obtain ⟨hi, rfl⟩ := List.getElem?_eq_some_iff.1 hp
  funext ⟨q, u⟩
  by_cases hc : (q, u) = (p, s)
  · obtain ⟨rfl, rfl⟩ := Prod.mk.inj hc
    rw [Function.update_self, cells_eq hp hs]
    unfold IndexPartitionRange.bucket IndexPartitionRange.put
    rw [Function.update_self]
  · rw [Function.update_of_ne hc]
    cases hq : ranges[q]? with
    | none => simp only [cells, hq]
    | some r' =>
      obtain ⟨hj, rfl⟩ := List.getElem?_eq_some_iff.1 hq
      by_cases hu : u < ranges[q].slotCount
      · rw [cells_eq hq hu, cells_eq hq hu]
        unfold IndexPartitionRange.bucket IndexPartitionRange.put
        rw [Function.update_of_ne]
        intro heq
        obtain ⟨rfl, rfl⟩ := hchain.slots_disjoint hj hi hu hs heq
        exact hc rfl
      · simp only [cells, hq, if_neg hu]

/-- A cell whose bucket was not replaced is as before. -/
lemma cells_congr (hr : canonicalIndexPartitionRanges slotCount = .ok ranges)
    (hp : ranges[p]? = some r) {t' : ℕ → IndexSlotState} {slots : List ℕ}
    (hothers : ∀ g, g ∉ slots.map (r.firstSlot + ·) → t' g = t g) {c : ℕ × ℕ}
    (hc : c.1 = p → c.2 ∉ slots) (hin : ∀ s ∈ slots, s < r.slotCount) :
    cells ranges t' c = cells ranges t c := by
  obtain ⟨-, -, -, hchain⟩ := canonicalIndexPartitionRanges_chain hr
  obtain ⟨hi, rfl⟩ := List.getElem?_eq_some_iff.1 hp
  obtain ⟨q, u⟩ := c
  cases hq : ranges[q]? with
  | none => simp only [cells, hq]
  | some r' =>
    obtain ⟨hj, rfl⟩ := List.getElem?_eq_some_iff.1 hq
    by_cases hu : u < ranges[q].slotCount
    · rw [cells_eq hq hu, cells_eq hq hu]
      refine congrArg _ (hothers _ fun hmem => ?_)
      obtain ⟨s, hs, heq⟩ := List.mem_map.1 hmem
      obtain ⟨rfl, rfl⟩ := hchain.slots_disjoint hi hj (hin s hs) hu heq
      exact hc rfl hs
    · simp only [cells, hq, if_neg hu]

/-- Replacing a bucket by a stored state with a canonical displacement keeps the shape of the
table. -/
lemma TableShape.put (hr : canonicalIndexPartitionRanges slotCount = .ok ranges)
    (h : TableShape ranges t) (hp : ranges[p]? = some r) {s : ℕ} (hs : s < r.slotCount)
    {state : IndexSlotState} (hstored : state.stored = state)
    (hcan : ∀ fp d e, state = .value fp d e → Canonical r.slotCount d) :
    TableShape ranges (r.put t s state) := by
  obtain ⟨-, -, -, hchain⟩ := canonicalIndexPartitionRanges_chain hr
  obtain ⟨hi, rfl⟩ := List.getElem?_eq_some_iff.1 hp
  -- a bucket of the new table is the new one or a bucket of the old table
  have hcases : ∀ (q : ℕ) (r' : IndexPartitionRange) (u : ℕ), ranges[q]? = some r' →
      u < r'.slotCount → (r' = ranges[p] ∧ r'.bucket (ranges[p].put t s state) u = state) ∨
        r'.bucket (ranges[p].put t s state) u = r'.bucket t u := by
    intro q r' u hq hu
    obtain ⟨hj, rfl⟩ := List.getElem?_eq_some_iff.1 hq
    unfold IndexPartitionRange.bucket IndexPartitionRange.put
    by_cases heq : ranges[q].firstSlot + u = ranges[p].firstSlot + s
    · obtain ⟨rfl, rfl⟩ := hchain.slots_disjoint hj hi hu hs heq
      exact .inl ⟨rfl, by rw [Function.update_self]⟩
    · exact .inr (Function.update_of_ne heq ..)
  refine ⟨fun q r' u hq hu' fp d e heq => ?_, fun q r' u hq hu' => ?_⟩
  · rcases hcases q r' u hq hu' with ⟨rfl, hb⟩ | hb
    · exact hcan fp d e (hb.symm.trans heq)
    · exact h.canonical q r' u hq hu' fp d e (hb.symm.trans heq)
  · rcases hcases q r' u hq hu' with ⟨-, hb⟩ | hb
    · rw [hb, hstored]
    · rw [hb]
      exact h.stored q r' u hq hu'

/-- Replacing a bucket by an entry. -/
lemma TableShape.put_value (hr : canonicalIndexPartitionRanges slotCount = .ok ranges)
    (h : TableShape ranges t) (hp : ranges[p]? = some r) {s : ℕ} (hs : s < r.slotCount)
    {fp d : ℕ} {e : IndexEntry} (hfp : fp < 2 ^ 14) (hd : d < 4) (hq : e.quantize = e)
    (hc : Canonical r.slotCount d) : TableShape ranges (r.put t s (.value fp d e)) := by
  refine h.put hr hp hs (IndexSlotState.stored_value_eq_iff.2 ⟨hfp, hd, hq⟩) ?_
  rintro fp' d' e' ⟨⟩
  exact hc

/-- A matching candidate carries the token. -/
lemma cells_candidate (hp : ranges[p]? = some r) {home fp d : ℕ} (hhome : home < r.slotCount)
    {e : IndexEntry} (hb : r.bucket t (r.candidate home d) = .value fp d e) :
    cells ranges t (p, r.candidate home d) = some (⟨p, home, fp⟩, e) := by
  have hlt : r.candidate home d < r.slotCount := slotFromHome_lt d hhome
  rw [cells_eq hp hlt, hb]
  simp only [cellOf, IndexPartitionRange.candidate, homeFromSlot_slotFromHome d hhome]

/-- A token is held exactly by the candidate of its home whose displacement is stored there. -/
lemma MapInv.holds_iff (h : MapInv ranges t) (hp : ranges[p]? = some r) {home fp : ℕ}
    (hhome : home < r.slotCount) (e : IndexEntry) :
    Holds (cells ranges t) ⟨p, home, fp⟩ e ↔
      ∃ d < 4, Canonical r.slotCount d ∧ r.bucket t (r.candidate home d) = .value fp d e := by
  constructor
  · rintro ⟨⟨q, s⟩, hc⟩
    simp only [cells] at hc
    cases hq : ranges[q]? with
    | none => simp only [hq] at hc; cases hc
    | some r' =>
      simp only [hq] at hc
      split_ifs at hc with hs
      cases hb : r'.bucket t s with
      | empty => simp only [hb, cellOf] at hc; cases hc
      | value fp' d e' =>
        simp only [hb, cellOf, Option.some.injEq, Prod.mk.injEq, Token.mk.injEq] at hc
        obtain ⟨⟨rfl, rfl, rfl⟩, rfl⟩ := hc
        obtain rfl : r' = r := by
          rw [hq, Option.some.injEq] at hp
          exact hp
        have hst := h.shape.stored q r' s hq hs
        rw [hb] at hst
        obtain ⟨-, hd, -⟩ := IndexSlotState.stored_value_eq_iff.1 hst
        -- the stored displacement leads from the home to this very bucket
        have hslot : r'.candidate (homeFromSlot s d r'.slotCount) d = s :=
          slotFromHome_homeFromSlot d hs
        refine ⟨d, hd, h.shape.canonical q r' s hq hs fp' d e' hb, ?_⟩
        rw [hslot, hb]
  · rintro ⟨d, -, -, hb⟩
    exact ⟨_, cells_candidate hp hhome hb⟩

/-- A token that no candidate matches is nowhere in the table. -/
lemma MapInv.not_holds (h : MapInv ranges t) (hp : ranges[p]? = some r) {home fp : ℕ}
    (hhome : home < r.slotCount) (hno : NoMatch r home fp t) (e : IndexEntry) :
    ¬ Holds (cells ranges t) ⟨p, home, fp⟩ e := by
  rw [h.holds_iff hp hhome]
  rintro ⟨d, hd, hc, hb⟩
  exact hno d hd hc e hb

/-- A free bucket's cell. -/
lemma cells_empty (hp : ranges[p]? = some r) {s : ℕ} (hs : s < r.slotCount)
    (hb : r.bucket t s = .empty) : cells ranges t (p, s) = none := by
  rw [cells_eq hp hs, hb]
  rfl

/-- What the table says about an occupied bucket and an alternate of its occupant. -/
lemma MapInv.occupant (h : MapInv ranges t) (hp : ranges[p]? = some r) {s : ℕ}
    (hs : s < r.slotCount) {fp d : ℕ} {e : IndexEntry} (hb : r.bucket t s = .value fp d e)
    (d' : ℕ) :
    fp < 2 ^ 14 ∧ e.quantize = e ∧ r.alternate s d d' < r.slotCount ∧
      cells ranges t (p, s) = some (⟨p, homeFromSlot s d r.slotCount, fp⟩, e) := by
  have hstored := h.shape.stored p r s hp hs
  rw [hb] at hstored
  obtain ⟨hfp, -, hq⟩ := IndexSlotState.stored_value_eq_iff.1 hstored
  refine ⟨hfp, hq, slotFromHome_lt d' (homeFromSlot_lt d hs), ?_⟩
  rw [cells_eq hp hs, hb]
  rfl

/-- The cell of a candidate that holds the token. -/
lemma cellOf_candidate (p : ℕ) {home fp d : ℕ} (hhome : home < r.slotCount) {e : IndexEntry} :
    cellOf p r.slotCount (r.candidate home d) (.value fp d e) = some (⟨p, home, fp⟩, e) := by
  simp only [cellOf, IndexPartitionRange.candidate, homeFromSlot_slotFromHome d hhome]

/-- An occupant that moves to an alternate keeps its token. -/
lemma cellOf_alternate (p : ℕ) {s : ℕ} (hs : s < r.slotCount) (d' : ℕ) {fp d : ℕ}
    {e : IndexEntry} :
    cellOf p r.slotCount (r.alternate s d d') (.value fp d' e) =
      some (⟨p, homeFromSlot s d r.slotCount, fp⟩, e) := by
  simp only [cellOf, IndexPartitionRange.alternate,
    homeFromSlot_slotFromHome d' (homeFromSlot_lt d hs)]

/-! ## Changes of the map -/

/-- The map after an insertion of `e` for the token `tok` that evicted `evicted`. -/
def InsertEffect (before after : ℕ × ℕ → Option (Token × IndexEntry)) (tok : Token)
    (e : IndexEntry) (evicted : Option Token) : Prop :=
  ∀ tok' e', Holds after tok' e' ↔
    (tok' = tok ∧ e' = e) ∨ (tok' ≠ tok ∧ evicted ≠ some tok' ∧ Holds before tok' e')

/-- The map after the token `tok` was removed. -/
def RemoveEffect (before after : ℕ × ℕ → Option (Token × IndexEntry)) (tok : Token) : Prop :=
  ∀ tok' e', Holds after tok' e' ↔ tok' ≠ tok ∧ Holds before tok' e'

/-- The effect depends on the map before, not on its table. -/
lemma InsertEffect.congr_before {f g h : ℕ × ℕ → Option (Token × IndexEntry)} {tok : Token}
    {e : IndexEntry} {evicted : Option Token} (heff : InsertEffect f h tok e evicted)
    (hfg : ∀ tok' e', Holds g tok' e' ↔ Holds f tok' e') : InsertEffect g h tok e evicted := by
  intro tok' e'
  rw [heff, hfg]

/-- Every bucket that a bounded relocation search for the home looks at is occupied. -/
structure SearchFull (r : IndexPartitionRange) (home : ℕ) (t : ℕ → IndexSlotState) : Prop where
  candidates : CandidatesFull r home t
  oneHop : ∀ d < 4, AlternatesFull r t (r.candidate home d)
  twoHop : ∀ d < 4, SecondAlternatesFull r t (r.candidate home d)

/-- Overwriting a cell by another entry of a token that no other cell has. -/
private lemma unique_overwrite {f : ℕ × ℕ → Option (Token × IndexEntry)} (hu : Unique f)
    {c : ℕ × ℕ} {tok₀ tok : Token} {e₀ e : IndexEntry} (hc : f c = some (tok₀, e₀))
    (htok : ∀ e, Holds f tok e → tok = tok₀) :
    Unique (Function.update f c (some (tok, e))) ∧
      ∀ tok' e', Holds (Function.update f c (some (tok, e))) tok' e' ↔
        (tok' = tok ∧ e' = e) ∨ (tok' ≠ tok₀ ∧ Holds f tok' e') := by
  have hno : ∀ e, ¬ Holds (Function.update f c none) tok e := by
    intro e' he'
    obtain ⟨hne, hh⟩ := (holds_clear hu hc tok e').1 he'
    exact hne (htok e' hh)
  have hidem : Function.update (Function.update f c none) c (some (tok, e)) =
    Function.update f c (some (tok, e)) := Function.update_idem ..
  refine ⟨?_, fun tok' e' => ?_⟩
  · rw [← hidem]
    exact (hu.clear c).insert hno e
  · rw [← hidem, holds_insert (Function.update_self ..), holds_clear hu hc]

/-- Putting a new token into a free cell. -/
private lemma insert_effect {f : ℕ × ℕ → Option (Token × IndexEntry)} (hu : Unique f)
    {c : ℕ × ℕ} (hc : f c = none) {tok : Token} (hno : ∀ e, ¬ Holds f tok e) (e : IndexEntry) :
    Unique (Function.update f c (some (tok, e))) ∧
      InsertEffect f (Function.update f c (some (tok, e))) tok e none := by
  refine ⟨hu.insert hno e, fun tok' e' => ?_⟩
  rw [holds_insert hc]
  constructor
  · rintro (heq | hh)
    · exact .inl heq
    · refine .inr ⟨?_, by simp, hh⟩
      rintro rfl
      exact hno e' hh
  · rintro (heq | ⟨-, -, hh⟩)
    · exact .inl heq
    · exact .inr hh

/-- Overwriting the entry of a token. -/
lemma MapInv.overwrite {home fp d : ℕ} {e₀ : IndexEntry} (e : IndexEntry)
    (hr : canonicalIndexPartitionRanges slotCount = .ok ranges) (hp : ranges[p]? = some r)
    (hhome : home < r.slotCount) (hfp : fp < 2 ^ 14) (h : MapInv ranges t) (hd : d < 4)
    (hc : Canonical r.slotCount d)
    (hb : r.bucket t (r.candidate home d) = .value fp d e₀) :
    MapInv ranges (r.put t (r.candidate home d) (.value fp d e.quantize)) ∧
      InsertEffect (cells ranges t)
        (cells ranges (r.put t (r.candidate home d) (.value fp d e.quantize))) ⟨p, home, fp⟩
        e.quantize none := by
  have hlt : r.candidate home d < r.slotCount := slotFromHome_lt d hhome
  have hq : e.quantize.quantize = e.quantize := by simp [IndexEntry.quantize]
  obtain ⟨hu, hholds⟩ := unique_overwrite h.unique (e := e.quantize)
    (cells_candidate hp hhome hb) fun _ _ => rfl
  rw [← cellOf_candidate p hhome, ← cells_put hr hp hlt] at hu hholds
  refine ⟨⟨h.shape.put_value hr hp hlt hfp hd hq hc, hu⟩, fun tok' e' => ?_⟩
  rw [hholds]
  simp

/-- Clearing the entry of a token. -/
lemma MapInv.clear {home fp d : ℕ} {e₀ : IndexEntry}
    (hr : canonicalIndexPartitionRanges slotCount = .ok ranges) (hp : ranges[p]? = some r)
    (hhome : home < r.slotCount) (h : MapInv ranges t)
    (hb : r.bucket t (r.candidate home d) = .value fp d e₀) :
    MapInv ranges (r.put t (r.candidate home d) .empty) ∧
      RemoveEffect (cells ranges t) (cells ranges (r.put t (r.candidate home d) .empty))
        ⟨p, home, fp⟩ := by
  have hlt : r.candidate home d < r.slotCount := slotFromHome_lt d hhome
  have hs := cells_candidate hp hhome hb
  have hu := h.unique.clear (p, r.candidate home d)
  have hcells : cells ranges (r.put t (r.candidate home d) .empty) =
    Function.update (cells ranges t) (p, r.candidate home d) none := cells_put hr hp hlt .empty
  refine ⟨⟨h.shape.put hr hp hlt rfl (by simp), ?_⟩, ?_⟩
  · rw [hcells]
    exact hu
  · rw [hcells]
    exact holds_clear h.unique hs

/-- **Outcomes as changes of the map.** Every outcome of an insertion keeps the invariant, maps
the inserted token to the rounded entry, and changes no other token except one that is evicted
when the search found every bucket occupied.

**Proof sketch.** A relocation is one or two moves of a cell to a free cell, which do not change
the map, followed by an insertion into the cell that became free; an eviction or an overwrite is
a clear followed by an insertion. Each new displacement is canonical, so the table keeps its
shape. -/
theorem UpsertOutcome.effect {home fp : ℕ} {e : IndexEntry} {t' : ℕ → IndexSlotState}
    (hr : canonicalIndexPartitionRanges slotCount = .ok ranges) (hp : ranges[p]? = some r)
    (hhome : home < r.slotCount) (hfp : fp < 2 ^ 14) (h : MapInv ranges t)
    (ho : UpsertOutcome r home fp e t t') :
    MapInv ranges t' ∧ ∃ evicted : Option Token,
      InsertEffect (cells ranges t) (cells ranges t') ⟨p, home, fp⟩ e.quantize evicted ∧
      ∀ tok, evicted = some tok →
        tok ≠ ⟨p, home, fp⟩ ∧ (∃ e', Holds (cells ranges t) tok e') ∧ SearchFull r home t := by
  have hcand : ∀ d, r.candidate home d < r.slotCount := fun d => slotFromHome_lt d hhome
  have hq : e.quantize.quantize = e.quantize := by simp [IndexEntry.quantize]
  have hcell : ∀ d, cellOf p r.slotCount (r.candidate home d) (.value fp d e.quantize) =
      some (⟨p, home, fp⟩, e.quantize) := fun d => cellOf_candidate p hhome
  cases ho with
  | overwrite d e₀ hd hc hb =>
    obtain ⟨hinv, heff⟩ := h.overwrite e hr hp hhome hfp hd hc hb
    exact ⟨hinv, none, heff, by simp⟩
  | free d hd hc hno hb =>
    have hfree : cells ranges t (p, r.candidate home d) = none := by
      rw [cells_eq hp (hcand d), hb]
      rfl
    obtain ⟨hu, heff⟩ := insert_effect h.unique hfree (h.not_holds hp hhome hno) e.quantize
    rw [← hcell d, ← cells_put hr hp (hcand d)] at hu heff
    exact ⟨⟨h.shape.put_value hr hp (hcand d) hfp hd hq hc, hu⟩, none, heff, by simp⟩
  | oneHop d fp' d' e' d₂ hd hc hno hfull hsource hd₂ hc₂ htarget =>
    obtain ⟨hfp', hq', hlt, hs⟩ := h.occupant hp (hcand d) hsource d₂
    have hne : r.alternate (r.candidate home d) d' d₂ ≠ r.candidate home d := by
      intro heq
      rw [heq, hsource] at htarget
      cases htarget
    have ht := cells_empty hp hlt htarget
    -- the source cell moves to the free target, then the new entry is put into the source
    have hu₁ := h.unique.move hs (u := (p, r.alternate (r.candidate home d) d' d₂))
      (by simpa using hne)
    have hh₁ := holds_move h.unique hs ht (by simpa using hne)
    have hno₁ : ∀ e, ¬ Holds _ (⟨p, home, fp⟩ : Token) e :=
      fun e₁ he₁ => h.not_holds hp hhome hno e₁ ((hh₁ _ _).1 he₁)
    obtain ⟨hu, heff⟩ := insert_effect hu₁ (Function.update_self ..) hno₁ e.quantize
    replace heff := heff.congr_before fun tok' e₁ => (hh₁ tok' e₁).symm
    rw [Function.update_idem, ← hcell d, ← cellOf_alternate p (hcand d) d₂,
      ← cells_put hr hp hlt, ← cells_put hr hp (hcand d)] at hu heff
    exact ⟨⟨(h.shape.put_value hr hp hlt hfp' hd₂ hq' hc₂).put_value hr hp (hcand d) hfp hd hq hc,
      hu⟩, none, heff, by simp⟩
  | twoHop d fp' d' e' d₁ fp'' d'' e'' d₂ hd hc hno hfull hsource hd₁ hc₁ hne hmiddle hd₂ hc₂
      htarget =>
    obtain ⟨hfp', hq', hmid, hs⟩ := h.occupant hp (hcand d) hsource d₁
    obtain ⟨hfp'', hq'', hlt, hm⟩ := h.occupant hp hmid hmiddle d₂
    have hneM : r.alternate (r.alternate (r.candidate home d) d' d₁) d'' d₂ ≠
        r.alternate (r.candidate home d) d' d₁ := by
      intro heq
      rw [heq, hmiddle] at htarget
      cases htarget
    have hneS : r.alternate (r.alternate (r.candidate home d) d' d₁) d'' d₂ ≠
        r.candidate home d := by
      intro heq
      rw [heq, hsource] at htarget
      cases htarget
    have ht := cells_empty hp hlt htarget
    -- the middle cell moves to the free target and the source cell to the middle one
    have hu₁ := h.unique.move hm
      (u := (p, r.alternate (r.alternate (r.candidate home d) d' d₁) d'' d₂)) (by simpa using hneM)
    have hh₁ := holds_move h.unique hm ht (by simpa using hneM)
    have hs₁ := (move_of_ne (f := cells ranges t) (a := (p, r.candidate home d))
      (s := (p, r.alternate (r.candidate home d) d' d₁))
      (u := (p, r.alternate (r.alternate (r.candidate home d) d' d₁) d'' d₂))
      (some (⟨p, homeFromSlot (r.alternate (r.candidate home d) d' d₁) d'' r.slotCount, fp''⟩, e''))
      (by simpa using Ne.symm hne) (by simpa using Ne.symm hneS)).trans hs
    have hu₂ := hu₁.move hs₁ (u := (p, r.alternate (r.candidate home d) d' d₁))
      (by simpa using hne)
    have hh₂ := holds_move hu₁ hs₁ (Function.update_self ..) (by simpa using hne)
    have hno₂ : ∀ e, ¬ Holds _ (⟨p, home, fp⟩ : Token) e :=
      fun e₁ he₁ => h.not_holds hp hhome hno e₁ ((hh₁ _ _).1 ((hh₂ _ _).1 he₁))
    obtain ⟨hu, heff⟩ := insert_effect hu₂ (Function.update_self ..) hno₂ e.quantize
    replace heff := heff.congr_before fun tok' e₁ => ((hh₂ tok' e₁).trans (hh₁ tok' e₁)).symm
    rw [Function.update_idem, Function.update_idem, ← hcell d,
      ← cellOf_alternate p (hcand d) d₁, ← cellOf_alternate p hmid d₂, ← cells_put hr hp hlt,
      ← cells_put hr hp hmid, ← cells_put hr hp (hcand d)] at hu heff
    exact ⟨⟨((h.shape.put_value hr hp hlt hfp'' hd₂ hq'' hc₂).put_value hr hp hmid hfp' hd₁ hq'
      hc₁).put_value hr hp (hcand d) hfp hd hq hc, hu⟩, none, heff, by simp⟩
  | evict d hd hc hno hfull hone htwo =>
    cases hb : r.bucket t (r.candidate home d) with
    | empty => exact absurd hb (hfull d hd)
    | value fp' d' e' =>
      obtain ⟨-, -, -, hs⟩ := h.occupant hp (hcand d) hb d
      have hnot := h.not_holds hp hhome hno
      obtain ⟨hu, hholds⟩ := unique_overwrite h.unique (e := e.quantize) hs
        fun e₁ he₁ => absurd he₁ (hnot e₁)
      rw [← hcell d, ← cells_put hr hp (hcand d)] at hu hholds
      refine ⟨⟨h.shape.put_value hr hp (hcand d) hfp hd hq hc, hu⟩,
        some ⟨p, homeFromSlot (r.candidate home d) d' r.slotCount, fp'⟩, ?_, ?_⟩
      · intro tok' e₁
        rw [hholds]
        constructor
        · rintro (heq | ⟨hne, hh⟩)
          · exact .inl heq
          · refine .inr ⟨?_, by simpa [eq_comm] using hne, hh⟩
            rintro rfl
            exact hnot e₁ hh
        · rintro (heq | ⟨-, hne, hh⟩)
          · exact .inl heq
          · exact .inr ⟨by simpa [eq_comm] using hne, hh⟩
      · rintro tok ⟨⟩
        refine ⟨?_, ⟨e', _, hs⟩, hfull, hone, htwo⟩
        intro heq
        exact hnot e' ⟨_, heq ▸ hs⟩

end Table

/-! ## The map of an index -/

namespace RegionIndex

/-- The bucket states in the image of an index. -/
def table (idx : RegionIndex) : ℕ → IndexSlotState := fun slot =>
  match (IndexSlot.decode (Bytes.slice idx.storage.core.bytes (slotByte slot) 8)).runtimeState with
  | .ok state => state
  | .error _ => .empty

/-- The buckets of an index as cells with tokens. -/
def cells (idx : RegionIndex) : ℕ × ℕ → Option (Token × IndexEntry) :=
  Cache2.cells idx.storage.ranges idx.table

/-- The token of a hash in an index. -/
def token (idx : RegionIndex) (hash : Hash) : Token := tokenOf idx.storage.ranges hash

end RegionIndex

/-- The index is intact: its storage represents its table, and the table satisfies the
invariant. -/
structure IndexInv (crc : List UInt8 → BitVec 32) (slotCount : ℕ)
    (ranges : List IndexPartitionRange) (idx : RegionIndex) : Prop where
  repr : IndexRepr crc slotCount ranges idx.table idx
  map : MapInv ranges idx.table

section Operations

variable {crc : List UInt8 → BitVec 32} {slotCount : ℕ} {ranges : List IndexPartitionRange}
  {t : ℕ → IndexSlotState} {idx : RegionIndex}

/-- A represented table is the table of the index, as far as there are buckets. -/
lemma IndexRepr.table_eq (h : IndexRepr crc slotCount ranges t idx) {slot : ℕ}
    (hs : slot < slotCount) : idx.table slot = t slot := by
  simp only [RegionIndex.table, h.core.slots slot hs]

/-- Only the buckets of the index matter for what it represents. -/
lemma IndexRepr.congr (hr : canonicalIndexPartitionRanges slotCount = .ok ranges)
    (h : IndexRepr crc slotCount ranges t idx) {t' : ℕ → IndexSlotState}
    (heq : ∀ slot < slotCount, t' slot = t slot) : IndexRepr crc slotCount ranges t' idx := by
  obtain ⟨-, -, -, hchain⟩ := canonicalIndexPartitionRanges_chain hr
  refine ⟨h.slotCount_eq, h.ranges_eq, { h.core with slots := fun slot hs => ?_ }, ?_⟩
  · rw [heq slot hs]
    exact h.core.slots slot hs
  · rw [h.stats_eq]
    refine List.map_congr_left fun r hmem => ?_
    obtain ⟨i, hi, rfl⟩ := List.getElem_of_mem hmem
    have hocc : occupied ranges[i] t' = occupied ranges[i] t :=
      Finset.sum_congr rfl fun s hs => by
        rw [heq _ (hchain.slot_lt hi (Finset.mem_range.1 hs))]
    rw [hocc]

/-- The cells of an index that represents a table are those of the table. -/
lemma IndexRepr.cells_eq (hr : canonicalIndexPartitionRanges slotCount = .ok ranges)
    (h : IndexRepr crc slotCount ranges t idx) : idx.cells = cells ranges t := by
  obtain ⟨-, -, -, hchain⟩ := canonicalIndexPartitionRanges_chain hr
  funext ⟨p, s⟩
  simp only [RegionIndex.cells, cells, h.ranges_eq]
  cases hp : ranges[p]? with
  | none => rfl
  | some r =>
    obtain ⟨hi, rfl⟩ := List.getElem?_eq_some_iff.1 hp
    by_cases hs : s < ranges[p].slotCount
    · simp only [if_pos hs, IndexPartitionRange.bucket, h.table_eq (hchain.slot_lt hi hs)]
    · simp only [if_neg hs]

/-- An index that represents a table with the invariant is intact. -/
lemma IndexInv.of_repr (hr : canonicalIndexPartitionRanges slotCount = .ok ranges)
    (h : IndexRepr crc slotCount ranges t idx) (hm : MapInv ranges t) :
    IndexInv crc slotCount ranges idx := by
  obtain ⟨-, -, -, hchain⟩ := canonicalIndexPartitionRanges_chain hr
  have hb : ∀ (p : ℕ) (r : IndexPartitionRange) (s : ℕ), ranges[p]? = some r → s < r.slotCount →
      r.bucket idx.table s = r.bucket t s := by
    intro p r s hp hs
    obtain ⟨hi, rfl⟩ := List.getElem?_eq_some_iff.1 hp
    exact h.table_eq (hchain.slot_lt hi hs)
  refine ⟨h.congr hr fun slot hs => h.table_eq hs, ⟨fun p r s hp hs fp d e heq => ?_,
    fun p r s hp hs => ?_⟩, ?_⟩
  · rw [hb p r s hp hs] at heq
    exact hm.shape.canonical p r s hp hs fp d e heq
  · rw [hb p r s hp hs]
    exact hm.shape.stored p r s hp hs
  · have hc : cells ranges idx.table = cells ranges t := by
      rw [← h.cells_eq hr]
      simp only [RegionIndex.cells, h.ranges_eq]
    rw [hc]
    exact hm.unique

/-- The cells of an intact index. -/
lemma IndexInv.cells_eq (h : IndexInv crc slotCount ranges idx) :
    idx.cells = cells ranges idx.table := by
  simp only [RegionIndex.cells, h.repr.ranges_eq]

/-- The token of a hash, with the range of its partition. -/
lemma IndexInv.token_eq (hr : canonicalIndexPartitionRanges slotCount = .ok ranges)
    (h : IndexInv crc slotCount ranges idx) (hash : Hash) :
    ∃ r, ranges[indexPartitionFor hash ranges.length]? = some r ∧
      homeSlot hash r.slotCount < r.slotCount ∧
      idx.token hash =
        ⟨indexPartitionFor hash ranges.length, homeSlot hash r.slotCount, fingerprint hash⟩ := by
  obtain ⟨r, hp, h4, -⟩ := RegionIndex.hashPartition_spec crc idx.table idx.heat hash hr
  refine ⟨r, hp, homeSlot_lt hash (by omega), ?_⟩
  rw [RegionIndex.token, h.repr.ranges_eq, tokenOf_eq hp]

/-- A bucket that matches holds an entry of the fingerprint at the displacement. -/
lemma tokenMatches_iff {state : IndexSlotState} {fp d : ℕ} :
    tokenMatches state fp d = true ↔ ∃ e, state = .value fp d e := by
  cases state with
  | empty => simp [tokenMatches]
  | value fp' d' e => simp [tokenMatches]

/-- A bucket that matches an address holds an entry equivalent to it. -/
lemma tokenLocationMatches_iff {state : IndexSlotState} {fp d : ℕ} {l : PackedLocation} :
    tokenLocationMatches state fp d l = true ↔
      ∃ e, state = .value fp d e ∧ e.location.indexEquivalent l = true := by
  cases state with
  | empty => simp [tokenLocationMatches]
  | value fp' d' e =>
    simp only [tokenLocationMatches, Bool.and_eq_true, beq_iff_eq, IndexSlotState.value.injEq]
    constructor
    · rintro ⟨⟨rfl, rfl⟩, h⟩
      exact ⟨e, ⟨rfl, rfl, rfl⟩, h⟩
    · rintro ⟨e', ⟨rfl, rfl, rfl⟩, h⟩
      exact ⟨⟨rfl, rfl⟩, h⟩

/-- What a conditional operation for a token and an address finds. -/
def MatchesAt (cells : ℕ × ℕ → Option (Token × IndexEntry)) (tok : Token)
    (expected : Option PackedLocation) : Prop :=
  ∃ e, Holds cells tok e ∧ ∀ l ∈ expected, e.location.indexEquivalent l = true

/-- The number of a bucket of a partition in the image. -/
def RegionIndex.globalSlot (idx : RegionIndex) (c : ℕ × ℕ) : ℕ :=
  (idx.storage.ranges.getD c.1 ⟨0, 0, 0, 0, 0⟩).firstSlot + c.2

/-- The bucket is the one that an operation for the token and the expected address acts on. -/
structure RegionIndex.Found (idx : RegionIndex) (tok : Token) (expected : Option PackedLocation)
    (c : ℕ × ℕ) (e : IndexEntry) : Prop where
  cell : idx.cells c = some (tok, e)
  matching : ∀ l ∈ expected, e.location.indexEquivalent l = true

/-- What was found matches. -/
lemma RegionIndex.Found.matchesAt {tok : Token} {expected : Option PackedLocation} {c : ℕ × ℕ}
    {e : IndexEntry} (h : idx.Found tok expected c e) : MatchesAt idx.cells tok expected :=
  ⟨e, ⟨c, h.cell⟩, h.matching⟩

/-- The number of a bucket, by its partition. -/
lemma IndexInv.globalSlot_eq (h : IndexInv crc slotCount ranges idx) {p s : ℕ}
    {r : IndexPartitionRange} (hp : ranges[p]? = some r) :
    idx.globalSlot (p, s) = r.firstSlot + s := by
  rw [RegionIndex.globalSlot, h.repr.ranges_eq, List.getD_eq_getElem?_getD, hp, Option.getD_some]

/-- **The candidate loop on an intact index.** It acts on the bucket of the token if there is one
and it has the expected address, and misses otherwise. -/
theorem IndexInv.forCandidates {β : Type} {Q : β → RegionIndex → Prop}
    (hr : canonicalIndexPartitionRanges slotCount = .ok ranges)
    (h : IndexInv crc slotCount ranges idx) (hash : Hash) (expected : Option PackedLocation)
    {accepts : IndexSlotState → ℕ → Bool}
    {found : IndexPartitionRange → ℕ → ℕ → IndexSlotState → IndexM β} {missed : IndexM β}
    (hacc : ∀ state d, accepts state d = true ↔ ∃ e, state = .value (fingerprint hash) d e ∧
      ∀ l ∈ expected, e.location.indexEquivalent l = true)
    (hfound : ∀ (p : ℕ) (r : IndexPartitionRange) (d : ℕ) (e : IndexEntry), ranges[p]? = some r →
      homeSlot hash r.slotCount < r.slotCount → d < 4 → Canonical r.slotCount d →
      idx.token hash = ⟨p, homeSlot hash r.slotCount, fingerprint hash⟩ →
      r.bucket idx.table (r.candidate (homeSlot hash r.slotCount) d) =
        .value (fingerprint hash) d e →
      idx.Found (idx.token hash) expected (p, r.candidate (homeSlot hash r.slotCount) d) e →
      Ensures (HeatRepr crc slotCount ranges idx.table idx.heat)
        (found r d (r.candidate (homeSlot hash r.slotCount) d) (.value (fingerprint hash) d e)) Q)
    (hmissed : ¬ MatchesAt idx.cells (idx.token hash) expected →
      Ensures (HeatRepr crc slotCount ranges idx.table idx.heat) missed Q) :
    ∃ b idx', RegionIndex.forCandidates crc hash accepts found missed idx = .ok b idx' ∧
      Q b idx' := by
  obtain ⟨r, hp, hhome, htok⟩ := h.token_eq hr hash
  refine RegionIndex.forCandidates_spec hash hr hp ?_ ?_ idx ⟨h.repr, rfl⟩
  · intro d hd hc s hs
    obtain ⟨e, hb, hl⟩ := (hacc _ _).1 hs
    have hcell : idx.cells (indexPartitionFor hash ranges.length, s) =
        some (idx.token hash, e) := by
      rw [h.cells_eq, htok]
      exact cells_candidate hp hhome hb
    rw [hb]
    exact hfound _ r d e hp hhome hd hc htok hb ⟨hcell, hl⟩
  · intro hmiss
    refine hmissed ?_
    rintro ⟨e, he, hl⟩
    rw [htok, h.cells_eq] at he
    obtain ⟨d, hd, hc, hb⟩ := (h.map.holds_iff hp hhome e).1 he
    have hfalse := hmiss d hd hc
    rw [← Bool.not_eq_true] at hfalse
    exact hfalse ((hacc _ _).2 ⟨e, hb, hl⟩)

/-- The number of a candidate in the image. -/
lemma globalSlot_candidate (hr : canonicalIndexPartitionRanges slotCount = .ok ranges) {p home : ℕ}
    {r : IndexPartitionRange} (hp : ranges[p]? = some r) (hhome : home < r.slotCount) (d : ℕ) :
    r.globalSlot (r.candidate home d) = .ok (r.firstSlot + r.candidate home d) := by
  obtain ⟨hi, rfl⟩ := List.getElem?_eq_some_iff.1 hp
  exact PartitionedIndexStorage.globalSlot_eq hr hi (slotFromHome_lt d hhome)

/-- A candidate's bucket is accepted by a search without an address. -/
lemma tokenMatches_accepts (hash : Hash) (state : IndexSlotState) (d : ℕ) :
    tokenMatches state (fingerprint hash) d = true ↔
      ∃ e, state = .value (fingerprint hash) d e ∧
        ∀ l ∈ (none : Option PackedLocation), e.location.indexEquivalent l = true := by
  simp [tokenMatches_iff]

/-- A candidate's bucket is accepted by a search for an address. -/
lemma tokenLocationMatches_accepts (hash : Hash) (old : PackedLocation) (state : IndexSlotState)
    (d : ℕ) : tokenLocationMatches state (fingerprint hash) d old = true ↔
      ∃ e, state = .value (fingerprint hash) d e ∧
        ∀ l ∈ some old, e.location.indexEquivalent l = true := by
  simp [tokenLocationMatches_iff]

/-- The index after one bucket was replaced. -/
lemma IndexInv.put_repr (hr : canonicalIndexPartitionRanges slotCount = .ok ranges)
    (h : IndexInv crc slotCount ranges idx) {p s : ℕ} {r : IndexPartitionRange}
    (hp : ranges[p]? = some r) (hs : s < r.slotCount) {state : IndexSlotState} {heat : SlotHeat}
    {idx' : RegionIndex} (h' : HeatRepr crc slotCount ranges (r.put idx.table s state) heat idx') :
    idx'.cells = Function.update idx.cells (p, s) (cellOf p r.slotCount s state) ∧
      idx'.heat = heat := by
  refine ⟨?_, h'.2⟩
  rw [h'.1.cells_eq hr, cells_put hr hp hs, h.cells_eq]

/-- The index after nothing but its heat changed. -/
lemma IndexInv.heat_repr (hr : canonicalIndexPartitionRanges slotCount = .ok ranges)
    (h : IndexInv crc slotCount ranges idx) {heat : SlotHeat} {idx' : RegionIndex}
    (h' : HeatRepr crc slotCount ranges idx.table heat idx') :
    IndexInv crc slotCount ranges idx' ∧ idx'.cells = idx.cells ∧ idx'.heat = heat := by
  refine ⟨.of_repr hr h'.1 h.map, ?_, h'.2⟩
  rw [h'.1.cells_eq hr, h.cells_eq]

/-- **Lookup.** A lookup returns the entry of the token and marks its bucket, or returns nothing
because there is none; it changes nothing else. -/
theorem lookupRaw_cells (hr : canonicalIndexPartitionRanges slotCount = .ok ranges)
    (h : IndexInv crc slotCount ranges idx) (hash : Hash) :
    ∃ result idx', RegionIndex.lookupRaw crc hash idx = .ok result idx' ∧
      IndexInv crc slotCount ranges idx' ∧ idx'.cells = idx.cells ∧
      ((∃ c e, idx.Found (idx.token hash) none c e ∧ result = some e ∧
          idx'.heat = idx.heat.mark (idx.globalSlot c)) ∨
        (¬ MatchesAt idx.cells (idx.token hash) none ∧ result = none ∧ idx'.heat = idx.heat)) := by
  unfold RegionIndex.lookupRaw
  refine h.forCandidates hr hash none (tokenMatches_accepts hash) ?_ ?_
  · intro p r d e hp hhome hd hc htok hb hfound
    rw [globalSlot_candidate hr hp hhome d]
    refine Ensures.bind_eq (orThrow_ok _) ?_
    refine Ensures.bind (RegionIndex.modifyHeat_spec _) fun _ => ?_
    refine Ensures.pure fun idx' h' => ?_
    obtain ⟨hinv, hcells, hheat⟩ := h.heat_repr hr h'
    exact ⟨hinv, hcells, .inl ⟨_, e, hfound, rfl, by rw [hheat, h.globalSlot_eq hp]⟩⟩
  · intro hmiss
    refine Ensures.pure fun idx' h' => ?_
    obtain ⟨hinv, hcells, hheat⟩ := h.heat_repr hr h'
    exact ⟨hinv, hcells, .inr ⟨hmiss, rfl, hheat⟩⟩

/-- **Removal.** The bucket of the token is cleared, if there is one and it has the expected
address; otherwise nothing changes. -/
theorem removeMatching_cells (hr : canonicalIndexPartitionRanges slotCount = .ok ranges)
    (h : IndexInv crc slotCount ranges idx) (hash : Hash) (expected : Option PackedLocation) :
    ∃ removed idx', RegionIndex.removeMatching crc hash expected idx = .ok removed idx' ∧
      IndexInv crc slotCount ranges idx' ∧
      ((removed = true ∧ ∃ c e, idx.Found (idx.token hash) expected c e ∧
          idx'.cells = Function.update idx.cells c none ∧
          idx'.heat = idx.heat.clear (idx.globalSlot c)) ∨
        (removed = false ∧ ¬ MatchesAt idx.cells (idx.token hash) expected ∧
          idx'.cells = idx.cells ∧ idx'.heat = idx.heat)) := by
  unfold RegionIndex.removeMatching
  refine h.forCandidates hr hash expected (fun state d => ?_) ?_ ?_
  · cases expected with
    | none => exact tokenMatches_accepts hash state d
    | some old => exact tokenLocationMatches_accepts hash old state d
  · intro p r d e hp hhome hd hc htok hb hfound
    obtain ⟨hinv, -⟩ := h.map.clear hr hp hhome hb
    refine Ensures.bind (RegionIndex.replaceSlot_spec crc hr hp (slotFromHome_lt d hhome) hb.symm
      .empty) fun _ => ?_
    refine Ensures.pure fun idx' h' => ?_
    obtain ⟨hcells, hheat⟩ := h.put_repr hr hp (slotFromHome_lt d hhome) h'
    refine ⟨.of_repr hr h'.1 hinv, .inl ⟨rfl, _, e, hfound, hcells, ?_⟩⟩
    rw [hheat, h.globalSlot_eq hp]
    rfl
  · intro hmiss
    have hdone : Ensures (ε := IndexStorageError)
        (HeatRepr crc slotCount ranges idx.table idx.heat) (pure false) fun removed idx' =>
          IndexInv crc slotCount ranges idx' ∧
            ((removed = true ∧ ∃ c e, idx.Found (idx.token hash) expected c e ∧
                idx'.cells = Function.update idx.cells c none ∧
                idx'.heat = idx.heat.clear (idx.globalSlot c)) ∨
              (removed = false ∧ ¬ MatchesAt idx.cells (idx.token hash) expected ∧
                idx'.cells = idx.cells ∧ idx'.heat = idx.heat)) := by
      refine Ensures.pure fun idx' h' => ?_
      obtain ⟨hinv, hsame⟩ := h.heat_repr hr h'
      exact ⟨hinv, .inr ⟨rfl, hmiss, hsame⟩⟩
    cases expected with
    | none => exact hdone
    | some l =>
      exact Ensures.bind (RegionIndex.recordActivity_spec fun _ => ⟨rfl, rfl⟩) fun _ => hdone

/-- **Conditional replacement.** The bucket of the token receives the replacement, if there is one
and it has the expected address; otherwise nothing changes. -/
theorem replaceIfMatch_cells (hr : canonicalIndexPartitionRanges slotCount = .ok ranges)
    (h : IndexInv crc slotCount ranges idx) (hash : Hash) (old : PackedLocation)
    (replacement : IndexEntry) :
    ∃ replaced idx', RegionIndex.replaceIfMatch crc hash old replacement idx = .ok replaced idx' ∧
      IndexInv crc slotCount ranges idx' ∧
      ((replaced = true ∧ ∃ c e, idx.Found (idx.token hash) (some old) c e ∧
          idx'.cells =
            Function.update idx.cells c (some (idx.token hash, replacement.quantize)) ∧
          idx'.heat = idx.heat.clear (idx.globalSlot c)) ∨
        (replaced = false ∧ ¬ MatchesAt idx.cells (idx.token hash) (some old) ∧
          idx'.cells = idx.cells ∧ idx'.heat = idx.heat)) := by
  unfold RegionIndex.replaceIfMatch
  refine h.forCandidates hr hash (some old) (tokenLocationMatches_accepts hash old) ?_ ?_
  · intro p r d e hp hhome hd hc htok hb hfound
    obtain ⟨hinv, -⟩ := h.map.overwrite replacement hr hp hhome (fingerprint_lt hash) hd hc hb
    refine Ensures.bind (RegionIndex.replaceSlot_value hr hp (slotFromHome_lt d hhome) hb.symm
      (fingerprint_lt hash) hd replacement) fun _ => ?_
    refine Ensures.pure fun idx' h' => ?_
    obtain ⟨hcells, hheat⟩ := h.put_repr hr hp (slotFromHome_lt d hhome) h'
    refine ⟨.of_repr hr h'.1 hinv, .inl ⟨rfl, _, e, hfound, ?_, ?_⟩⟩
    · rw [hcells, htok]
      exact congrArg _ (cellOf_candidate p hhome)
    · rw [hheat, h.globalSlot_eq hp]
      rfl
  · intro hmiss
    refine Ensures.bind (RegionIndex.recordActivity_spec fun _ => ⟨rfl, rfl⟩) fun _ => ?_
    refine Ensures.pure fun idx' h' => ?_
    obtain ⟨hinv, hsame⟩ := h.heat_repr hr h'
    exact ⟨hinv, .inr ⟨rfl, hmiss, hsame⟩⟩

/-- **Reclaim classification.** A hot mapping to the given address is kept, a cold one removed,
and its bucket is cold afterwards; a mapping to another address, or none, is left alone. -/
theorem prepareReclaim_cells (hr : canonicalIndexPartitionRanges slotCount = .ok ranges)
    (h : IndexInv crc slotCount ranges idx) (hash : Hash) (old : PackedLocation) :
    ∃ action idx', RegionIndex.prepareReclaim crc hash old idx = .ok action idx' ∧
      IndexInv crc slotCount ranges idx' ∧
      ((∃ c e, idx.Found (idx.token hash) (some old) c e ∧
          ((action = .reinsert ∧ (idx.heat.takeHot (idx.globalSlot c)).1 = true ∧
              idx'.cells = idx.cells ∧ idx'.heat = idx.heat.clear (idx.globalSlot c)) ∨
            (action = .removed ∧ (idx.heat.takeHot (idx.globalSlot c)).1 = false ∧
              idx'.cells = Function.update idx.cells c none ∧
              idx'.heat = (idx.heat.clear (idx.globalSlot c)).clear (idx.globalSlot c)))) ∨
        (action = .missing ∧ ¬ MatchesAt idx.cells (idx.token hash) (some old) ∧
          idx'.cells = idx.cells ∧ idx'.heat = idx.heat)) := by
  unfold RegionIndex.prepareReclaim
  refine h.forCandidates hr hash (some old) (tokenLocationMatches_accepts hash old) ?_ ?_
  · intro p r d e hp hhome hd hc htok hb hfound
    obtain ⟨hinv, -⟩ := h.map.clear hr hp hhome hb
    rw [globalSlot_candidate hr hp hhome d]
    refine Ensures.bind_eq (orThrow_ok _) ?_
    refine Ensures.of_state fun idx₁ h₁ => ?_
    refine Ensures.bind_eq (v := idx₁) (R := fun s => s = idx₁) (by
      rintro _ rfl
      exact ⟨_, _, rfl, rfl, rfl⟩) ?_
    have hglobal := h.globalSlot_eq (s := r.candidate (homeSlot hash r.slotCount) d) hp
    rw [← hglobal, h₁.2]
    generalize hg : idx.globalSlot (p, r.candidate (homeSlot hash r.slotCount) d) = g at *
    rcases htake : idx.heat.takeHot g with ⟨wasHot, heat⟩
    have hclear : idx.heat.clear g = heat := congrArg Prod.snd htake
    refine Ensures.bind (R := fun _ => HeatRepr crc slotCount ranges idx.table heat) (by
      rintro _ rfl
      exact RegionIndex.modifyHeat_spec (fun _ => heat) _ h₁) fun _ => ?_
    cases wasHot with
    | true =>
      refine Ensures.pure fun idx' h' => ?_
      obtain ⟨hinv', hcells, hheat⟩ := h.heat_repr hr h'
      refine ⟨hinv', .inl ⟨_, e, hfound, .inl ⟨rfl, ?_, hcells, ?_⟩⟩⟩
      · rw [hg, htake]
      · rw [hheat, hg, hclear]
    | false =>
      refine Ensures.bind (RegionIndex.replaceSlot_spec crc hr hp (slotFromHome_lt d hhome)
        hb.symm .empty) fun _ => ?_
      refine Ensures.pure fun idx' h' => ?_
      obtain ⟨hcells, hheat⟩ := h.put_repr hr hp (slotFromHome_lt d hhome) h'
      refine ⟨.of_repr hr h'.1 hinv, .inl ⟨_, e, hfound, .inr ⟨rfl, ?_, hcells, ?_⟩⟩⟩
      · rw [hg, htake]
      · rw [hheat, hg, hclear, hglobal]
        rfl
  · intro hmiss
    refine Ensures.bind (RegionIndex.recordActivity_spec fun _ => ⟨rfl, rfl⟩) fun _ => ?_
    refine Ensures.pure fun idx' h' => ?_
    obtain ⟨hinv, hsame⟩ := h.heat_repr hr h'
    exact ⟨hinv, .inr ⟨rfl, hmiss, hsame⟩⟩

/-- **Insertion.** An insertion succeeds and rewrites the buckets `W`: one of them receives the
new entry, each other one receives the entry of a token that was in another bucket before; and it
forgets the heat of these buckets. -/
theorem upsert_cells (hr : canonicalIndexPartitionRanges slotCount = .ok ranges)
    (h : IndexInv crc slotCount ranges idx) (hash : Hash) (e : IndexEntry) :
    ∃ (idx' : RegionIndex) (W : List (ℕ × ℕ)),
      RegionIndex.upsert crc hash e idx = .ok true idx' ∧
      IndexInv crc slotCount ranges idx' ∧
      (∀ c, c ∉ W → idx'.cells c = idx.cells c) ∧
      (∀ c ∈ W, idx'.cells c = some (idx.token hash, e.quantize) ∨
        ∃ c₀ tok e₀, c₀ ≠ c ∧ idx.cells c₀ = some (tok, e₀) ∧ idx'.cells c = some (tok, e₀)) ∧
      (∃ c ∈ W, idx'.cells c = some (idx.token hash, e.quantize)) ∧
      idx'.heat = idx.heat.clearAll (W.map idx.globalSlot) := by
  obtain ⟨r, hp, hhome, htok⟩ := h.token_eq hr hash
  set p := indexPartitionFor hash ranges.length with hpdef
  obtain ⟨result, idx', hrun, rfl, t', slots, hout, hrew, hrepr⟩ := RegionIndex.upsert_cleared
    (t := idx.table) hash e hr hp
    (fun s hs => h.map.shape.stored _ r s hp hs) idx ⟨h.repr, rfl⟩
  obtain ⟨hinv, -⟩ := hout.effect hr hp hhome (fingerprint_lt hash) h.map
  have hcells : ∀ {s : ℕ}, s < r.slotCount → idx.cells (p, s) =
      cellOf p r.slotCount s (r.bucket idx.table s) := fun hs => by rw [h.cells_eq, cells_eq hp hs]
  have hcells' : ∀ {s : ℕ}, s < r.slotCount → idx'.cells (p, s) =
      cellOf p r.slotCount s (r.bucket t' s) := fun hs => by
    rw [hrepr.1.cells_eq hr, cells_eq hp hs]
  refine ⟨idx', slots.map fun s => (p, s), hrun, .of_repr hr hrepr.1 hinv, ?_, ?_, ?_, ?_⟩
  · intro c hc
    rw [hrepr.1.cells_eq hr, h.cells_eq]
    refine cells_congr hr hp hrew.others (fun hcp hmem => hc ?_) hrew.lt
    exact List.mem_map.2 ⟨c.2, hmem, Prod.ext hcp.symm rfl⟩
  · intro c hc
    obtain ⟨s, hs, rfl⟩ := List.mem_map.1 hc
    have hlt := hrew.lt s hs
    rw [hcells' hlt]
    rcases hrew.written s hs with ⟨d, rfl, hb⟩ | ⟨s₀, fp₀, d₀, d, e₀, hs₀, hne, hb₀, hb, hhome'⟩
    · left
      rw [hb, htok]
      exact cellOf_candidate p hhome
    · right
      refine ⟨(p, s₀), ⟨p, homeFromSlot s₀ d₀ r.slotCount, fp₀⟩, e₀, by simpa using hne,
        (hcells hs₀).trans ?_, ?_⟩
      · rw [hb₀]
        rfl
      · rw [hb, cellOf, hhome']
  · obtain ⟨d, hmem, hb⟩ := hrew.new
    refine ⟨_, List.mem_map.2 ⟨_, hmem, rfl⟩, ?_⟩
    rw [hcells' (hrew.lt _ hmem), hb, htok]
    exact cellOf_candidate p hhome
  · rw [hrepr.2, List.map_map]
    congr 1
    refine List.map_congr_left fun s _ => ?_
    exact (h.globalSlot_eq hp).symm

/-! ## Effects on the map -/

/-- No two buckets of an intact index carry the same token. -/
lemma IndexInv.unique (h : IndexInv crc slotCount ranges idx) : Unique idx.cells := by
  rw [h.cells_eq]
  exact h.map.unique

/-- **Lookup.** A lookup returns the entry of the token, if there is one, and changes nothing of
the map. -/
theorem lookupRaw_effect (hr : canonicalIndexPartitionRanges slotCount = .ok ranges)
    (h : IndexInv crc slotCount ranges idx) (hash : Hash) :
    ∃ result idx', RegionIndex.lookupRaw crc hash idx = .ok result idx' ∧
      IndexInv crc slotCount ranges idx' ∧ idx'.cells = idx.cells ∧
      ∀ e, result = some e ↔ Holds idx.cells (idx.token hash) e := by
  obtain ⟨result, idx', hrun, hinv, hsame, hres⟩ := lookupRaw_cells hr h hash
  refine ⟨result, idx', hrun, hinv, hsame, fun e => ?_⟩
  rcases hres with ⟨c, e₀, hfound, rfl, -⟩ | ⟨hmiss, rfl, -⟩
  · have hholds : Holds idx.cells (idx.token hash) e₀ := ⟨c, hfound.cell⟩
    rw [Option.some.injEq]
    constructor
    · rintro rfl
      exact hholds
    · exact fun he => h.unique.entry_eq hholds he
  · constructor
    · intro he
      cases he
    · exact fun he => absurd ⟨e, he, by simp⟩ hmiss

/-- **Insertion.** An insertion succeeds, maps its token to the rounded entry and changes no
other token, except one that it evicts when every bucket it looked at was occupied. -/
theorem upsert_effect (hr : canonicalIndexPartitionRanges slotCount = .ok ranges)
    (h : IndexInv crc slotCount ranges idx) (hash : Hash) (e : IndexEntry) :
    ∃ idx', RegionIndex.upsert crc hash e idx = .ok true idx' ∧
      IndexInv crc slotCount ranges idx' ∧ ∃ evicted : Option Token,
        InsertEffect idx.cells idx'.cells (idx.token hash) e.quantize evicted ∧
        ∀ tok, evicted = some tok → tok ≠ idx.token hash ∧ (∃ e', Holds idx.cells tok e') ∧
          ∃ r, ranges[indexPartitionFor hash ranges.length]? = some r ∧
            SearchFull r (homeSlot hash r.slotCount) idx.table := by
  obtain ⟨r, hp, hhome, htok⟩ := h.token_eq hr hash
  obtain ⟨result, idx', hrun, rfl, t', hout, hrepr⟩ := RegionIndex.upsert_spec
    (t := idx.table) hash e hr hp (fun s hs => h.map.shape.stored _ r s hp hs) idx h.repr
  obtain ⟨hinv, evicted, heff, hev⟩ := hout.effect hr hp hhome (fingerprint_lt hash) h.map
  refine ⟨idx', hrun, .of_repr hr hrepr hinv, evicted, ?_, ?_⟩
  · rw [htok, h.cells_eq, hrepr.cells_eq hr]
    exact heff
  · intro tok htok'
    obtain ⟨hne, hheld, hfull⟩ := hev tok htok'
    rw [htok, h.cells_eq]
    exact ⟨hne, hheld, r, hp, hfull⟩

/-- **Removal.** The entry of the token is removed if it is there and has the expected address;
otherwise nothing changes. -/
theorem removeMatching_effect (hr : canonicalIndexPartitionRanges slotCount = .ok ranges)
    (h : IndexInv crc slotCount ranges idx) (hash : Hash) (expected : Option PackedLocation) :
    ∃ removed idx', RegionIndex.removeMatching crc hash expected idx = .ok removed idx' ∧
      IndexInv crc slotCount ranges idx' ∧
      (removed = true ↔ MatchesAt idx.cells (idx.token hash) expected) ∧
      (removed = true → RemoveEffect idx.cells idx'.cells (idx.token hash)) ∧
      (removed = false → idx'.cells = idx.cells) := by
  obtain ⟨removed, idx', hrun, hinv, ⟨rfl, c, e, hfound, hcells, -⟩ | ⟨rfl, hmiss, hcells, -⟩⟩ :=
    removeMatching_cells hr h hash expected
  · refine ⟨true, idx', hrun, hinv, by simp [hfound.matchesAt], fun _ => ?_, by simp⟩
    rw [hcells]
    exact holds_clear h.unique hfound.cell
  · exact ⟨false, idx', hrun, hinv, by simp [hmiss], by simp, fun _ => hcells⟩

/-- **Conditional replacement.** The entry of the token is replaced if it has the expected
address; otherwise nothing changes. -/
theorem replaceIfMatch_effect (hr : canonicalIndexPartitionRanges slotCount = .ok ranges)
    (h : IndexInv crc slotCount ranges idx) (hash : Hash) (old : PackedLocation)
    (replacement : IndexEntry) :
    ∃ replaced idx', RegionIndex.replaceIfMatch crc hash old replacement idx = .ok replaced idx' ∧
      IndexInv crc slotCount ranges idx' ∧
      (replaced = true ↔ MatchesAt idx.cells (idx.token hash) (some old)) ∧
      (replaced = true →
        InsertEffect idx.cells idx'.cells (idx.token hash) replacement.quantize none) ∧
      (replaced = false → idx'.cells = idx.cells) := by
  obtain ⟨replaced, idx', hrun, hinv, ⟨rfl, c, e, hfound, hcells, -⟩ | ⟨rfl, hmiss, hcells, -⟩⟩ :=
    replaceIfMatch_cells hr h hash old replacement
  · refine ⟨true, idx', hrun, hinv, by simp [hfound.matchesAt], fun _ tok' e' => ?_, by simp⟩
    obtain ⟨-, hholds⟩ := unique_overwrite h.unique (e := replacement.quantize) hfound.cell
      fun _ _ => rfl
    rw [hcells, hholds]
    simp
  · exact ⟨false, idx', hrun, hinv, by simp [hmiss], by simp, fun _ => hcells⟩

/-- **Reclaim classification.** A current mapping is kept or removed; a mapping that is not
current, or not there, is left alone. -/
theorem prepareReclaim_effect (hr : canonicalIndexPartitionRanges slotCount = .ok ranges)
    (h : IndexInv crc slotCount ranges idx) (hash : Hash) (old : PackedLocation) :
    ∃ action idx', RegionIndex.prepareReclaim crc hash old idx = .ok action idx' ∧
      IndexInv crc slotCount ranges idx' ∧
      (action ≠ .missing ↔ MatchesAt idx.cells (idx.token hash) (some old)) ∧
      (action = .removed → RemoveEffect idx.cells idx'.cells (idx.token hash)) ∧
      (action ≠ .removed → idx'.cells = idx.cells) := by
  obtain ⟨action, idx', hrun, hinv, ⟨c, e, hfound, hact⟩ | ⟨rfl, hmiss, hcells, -⟩⟩ :=
    prepareReclaim_cells hr h hash old
  · rcases hact with ⟨rfl, -, hcells, -⟩ | ⟨rfl, -, hcells, -⟩
    · exact ⟨.reinsert, idx', hrun, hinv, by simp [hfound.matchesAt], by simp, fun _ => hcells⟩
    · refine ⟨.removed, idx', hrun, hinv, by simp [hfound.matchesAt], fun _ => ?_, by simp⟩
      rw [hcells]
      exact holds_clear h.unique hfound.cell
  · exact ⟨.missing, idx', hrun, hinv, by simp [hmiss], by simp, fun _ => hcells⟩

end Operations

/-! ## Sequences of operations -/

/-- An operation of the index, with its arguments. -/
inductive IndexOp
  | lookupRaw (hash : Hash)
  | upsert (hash : Hash) (supplied : IndexEntry)
  | tryDelete (hash : Hash)
  | removeIfMatch (hash : Hash) (oldLocation : PackedLocation)
  | replaceIfMatch (hash : Hash) (oldLocation : PackedLocation) (replacement : IndexEntry)
  | prepareReclaim (hash : Hash) (oldLocation : PackedLocation)
  | setActivityCountersEnabled (enabled : Bool)
  deriving DecidableEq, Repr

/-- Runs an operation. -/
def IndexOp.run (crc : List UInt8 → BitVec 32) : IndexOp → IndexM Unit
  | .lookupRaw hash => do let _ ← RegionIndex.lookupRaw crc hash
  | .upsert hash supplied => do let _ ← RegionIndex.upsert crc hash supplied
  | .tryDelete hash => do let _ ← RegionIndex.tryDelete crc hash
  | .removeIfMatch hash old => do let _ ← RegionIndex.removeIfMatch crc hash old
  | .replaceIfMatch hash old replacement => do
    let _ ← RegionIndex.replaceIfMatch crc hash old replacement
  | .prepareReclaim hash old => do let _ ← RegionIndex.prepareReclaim crc hash old
  | .setActivityCountersEnabled enabled => RegionIndex.setActivityCountersEnabled enabled

/-- Runs operations one after another. -/
def runOps (crc : List UInt8 → BitVec 32) : List IndexOp → IndexM Unit
  | [] => pure ()
  | op :: ops => do
    op.run crc
    runOps crc ops

/-- The entry that an operation may install for a hash. -/
def IndexOp.installs : IndexOp → Option (Hash × IndexEntry)
  | .upsert hash supplied => some (hash, supplied)
  | .replaceIfMatch hash _ replacement => some (hash, replacement)
  | _ => none

section Runs

variable {crc : List UInt8 → BitVec 32} {slotCount : ℕ} {ranges : List IndexPartitionRange}
  {idx : RegionIndex}

/-- Running a computation and dropping its result. -/
private lemma run_drop {α : Type} {f : IndexM α} {a : α} {idx idx' : RegionIndex}
    (h : f idx = .ok a idx') : (do let _ ← f) idx = .ok () idx' := by
  rw [bind_ok h, pure_apply]

/-- **Step.** An operation succeeds, keeps the index intact, and every token it leaves in the
map was there with the same entry or is the one it installed. -/
theorem IndexOp.run_inv (hr : canonicalIndexPartitionRanges slotCount = .ok ranges)
    (h : IndexInv crc slotCount ranges idx) (op : IndexOp) :
    ∃ idx', op.run crc idx = .ok () idx' ∧ IndexInv crc slotCount ranges idx' ∧
      ∀ tok e, Holds idx'.cells tok e → Holds idx.cells tok e ∨
        ∃ hash e₀, op.installs = some (hash, e₀) ∧ tok = tokenOf ranges hash ∧
          e = e₀.quantize := by
  have htoken : ∀ hash, idx.token hash = tokenOf ranges hash := by
    intro hash
    rw [RegionIndex.token, h.repr.ranges_eq]
  -- a removal that happened or not leaves only what was there
  have hremove : ∀ (b : Bool) (idx' : RegionIndex) (tok₀ : Token),
      (b = true → RemoveEffect idx.cells idx'.cells tok₀) → (b = false → idx'.cells = idx.cells) →
      ∀ tok e, Holds idx'.cells tok e → Holds idx.cells tok e := by
    intro b idx' tok₀ htrue hfalse tok e he
    cases b with
    | true => exact ((htrue rfl tok e).1 he).2
    | false => exact hfalse rfl ▸ he
  cases op with
  | lookupRaw hash =>
    obtain ⟨_, idx', hrun, hinv, hsame, -⟩ := lookupRaw_effect hr h hash
    exact ⟨idx', run_drop hrun, hinv, fun tok e he => .inl (hsame ▸ he)⟩
  | upsert hash supplied =>
    obtain ⟨idx', hrun, hinv, evicted, heff, -⟩ := upsert_effect hr h hash supplied
    refine ⟨idx', run_drop hrun, hinv, fun tok e he => ?_⟩
    rcases (heff tok e).1 he with ⟨rfl, rfl⟩ | ⟨-, -, hold⟩
    · exact .inr ⟨hash, supplied, rfl, htoken hash, rfl⟩
    · exact .inl hold
  | tryDelete hash =>
    obtain ⟨b, idx', hrun, hinv, -, htrue, hfalse⟩ := removeMatching_effect hr h hash none
    exact ⟨idx', run_drop hrun, hinv, fun tok e he => .inl (hremove b idx' _ htrue hfalse tok e he)⟩
  | removeIfMatch hash old =>
    obtain ⟨b, idx', hrun, hinv, -, htrue, hfalse⟩ := removeMatching_effect hr h hash (some old)
    exact ⟨idx', run_drop hrun, hinv, fun tok e he => .inl (hremove b idx' _ htrue hfalse tok e he)⟩
  | replaceIfMatch hash old replacement =>
    obtain ⟨b, idx', hrun, hinv, -, htrue, hfalse⟩ := replaceIfMatch_effect hr h hash old
      replacement
    refine ⟨idx', run_drop hrun, hinv, fun tok e he => ?_⟩
    cases b with
    | false => exact .inl (hfalse rfl ▸ he)
    | true =>
      rcases (htrue rfl tok e).1 he with ⟨rfl, rfl⟩ | ⟨-, -, hold⟩
      · exact .inr ⟨hash, replacement, rfl, htoken hash, rfl⟩
      · exact .inl hold
  | prepareReclaim hash old =>
    obtain ⟨action, idx', hrun, hinv, -, htrue, hfalse⟩ := prepareReclaim_effect hr h hash old
    refine ⟨idx', run_drop hrun, hinv, fun tok e he => .inl ?_⟩
    by_cases hact : action = .removed
    · exact ((htrue hact tok e).1 he).2
    · exact hfalse hact ▸ he
  | setActivityCountersEnabled enabled =>
    exact ⟨{ idx with activityCountersEnabled := enabled }, rfl, ⟨h.repr, h.map⟩,
      fun tok e he => .inl he⟩

/-- Every entry in the map was installed, for a hash with its token. -/
def InstalledFrom (ranges : List IndexPartitionRange) (installed : List (Hash × IndexEntry))
    (idx : RegionIndex) : Prop :=
  ∀ tok e, Holds idx.cells tok e →
    ∃ hash e₀, (hash, e₀) ∈ installed ∧ tok = tokenOf ranges hash ∧ e = e₀.quantize

/-- **Run.** A sequence of operations succeeds and keeps the index intact, and what is in the
map afterwards was there before or has been installed. -/
theorem runOps_inv (hr : canonicalIndexPartitionRanges slotCount = .ok ranges) :
    ∀ (ops : List IndexOp) {idx : RegionIndex} {installed : List (Hash × IndexEntry)},
      IndexInv crc slotCount ranges idx → InstalledFrom ranges installed idx →
      ∃ idx', runOps crc ops idx = .ok () idx' ∧ IndexInv crc slotCount ranges idx' ∧
        InstalledFrom ranges (installed ++ ops.filterMap IndexOp.installs) idx' := by
  intro ops
  induction ops with
  | nil =>
    intro idx installed h hi
    exact ⟨idx, rfl, h, by simpa using hi⟩
  | cons op ops ih =>
    intro idx installed h hi
    obtain ⟨idx₁, hrun₁, h₁, hmap⟩ := op.run_inv hr h
    have hi₁ : InstalledFrom ranges (installed ++ op.installs.toList) idx₁ := by
      intro tok e he
      rcases hmap tok e he with hold | ⟨hash, e₀, hop, htok, hq⟩
      · obtain ⟨hash, e₀, hmem, htok, hq⟩ := hi tok e hold
        exact ⟨hash, e₀, List.mem_append_left _ hmem, htok, hq⟩
      · exact ⟨hash, e₀, List.mem_append_right _ (by simp [hop]), htok, hq⟩
    obtain ⟨idx₂, hrun₂, h₂, hi₂⟩ := ih h₁ hi₁
    refine ⟨idx₂, ?_, h₂, ?_⟩
    · rw [runOps, bind_ok hrun₁, hrun₂]
    · rw [List.append_assoc] at hi₂
      cases hop : op.installs with
      | none => simpa [List.filterMap_cons, hop] using hi₂
      | some i => simpa [List.filterMap_cons, hop] using hi₂

end Runs

/-! ## The empty index -/

/-- A new index represents the empty table. -/
lemma anonymous_repr {slotCount : ℕ} {storage : PartitionedIndexStorage}
    (crc : List UInt8 → BitVec 32)
    (h : PartitionedIndexStorage.anonymous slotCount = .ok storage) :
    ∃ ranges, canonicalIndexPartitionRanges slotCount = .ok ranges ∧
      StorageRepr crc slotCount ranges (fun _ => .empty) storage := by
  unfold PartitionedIndexStorage.anonymous at h
  cases hr : canonicalIndexPartitionRanges slotCount with
  | error e => rw [hr] at h; cases h
  | ok ranges =>
    cases hl : ImageLayout.new slotCount with
    | error e => simp only [hr, hl, bind, Except.bind] at h; cases h
    | ok layout =>
      simp only [hr, hl, bind, Except.bind, Except.ok.injEq] at h
      obtain ⟨-, -, himg, -⟩ := canonicalIndexPartitionRanges_chain hr
      obtain ⟨-, hpages, hlen, -⟩ := ImageLayout.of_new hl
      refine ⟨ranges, rfl, ?_⟩
      rw [← h]
      refine ⟨rfl, rfl, ⟨rfl, hpages, himg, ?_, ?_, rfl, fun page hp => .inl ?_,
        fun slot hs => ?_⟩, ?_⟩
      · simp [hlen, hpages]
      · simp [hpages]
      · simp [hpages, hp]
      · have hle := slotByte_add_le hs
        rw [← hpages, ← hlen] at hle
        show (IndexSlot.decode
          (Bytes.slice (List.replicate layout.imageLen 0) _ _)).runtimeState = _
        rw [Bytes.slice_replicate _ hle]
        rfl
      · refine List.map_congr_left fun r _ => ?_
        simp [occupied, IndexSlotState.physicalKind, SlotPhysicalKind.weight,
          IndexPhysicalStats.default]

/-- The empty table satisfies the invariant. -/
lemma mapInv_empty (ranges : List IndexPartitionRange) : MapInv ranges fun _ => .empty := by
  have hcells : cells ranges (fun _ => .empty) = fun _ => none := by
    funext c
    simp only [cells]
    cases ranges[c.1]? with
    | none => rfl
    | some r => simp [IndexPartitionRange.bucket, cellOf]
  refine ⟨⟨?_, ?_⟩, ?_⟩
  · intro p r s _ _ fp d e heq
    cases heq
  · intro p r s _ _
    rfl
  · rw [hcells]
    intro s s' t e e' hs
    cases hs

/-- A new index is intact and holds nothing. -/
lemma fromStorage_inv {slotCount : ℕ} {storage : PartitionedIndexStorage}
    (crc : List UInt8 → BitVec 32)
    (h : PartitionedIndexStorage.anonymous slotCount = .ok storage) :
    ∃ ranges, canonicalIndexPartitionRanges slotCount = .ok ranges ∧
      IndexInv crc slotCount ranges (RegionIndex.fromStorage storage) ∧
      InstalledFrom ranges [] (RegionIndex.fromStorage storage) := by
  obtain ⟨ranges, hr, hrepr⟩ := anonymous_repr crc h
  have hidx : IndexRepr crc slotCount ranges (fun _ => .empty) (RegionIndex.fromStorage storage) :=
    hrepr
  refine ⟨ranges, hr, .of_repr hr hidx (mapInv_empty ranges), ?_⟩
  rintro tok e ⟨c, hc⟩
  rw [hidx.cells_eq hr] at hc
  simp only [cells] at hc
  cases hq : ranges[c.1]? with
  | none => simp only [hq] at hc; cases hc
  | some r => simp [hq, IndexPartitionRange.bucket, cellOf] at hc

/-- **The Region index is a lossy map.** After any sequence of operations on an empty index of
any admitted size, every operation having succeeded:

* no two buckets carry the same token, and each occupied bucket is the candidate, at its stored
  displacement, of a hash whose entry was installed, its home being the hash's home;
* a lookup returns the entry of the hash's token, and nothing else changes;
* an insertion succeeds; the hash is then looked up with its entry, rounded to its size class,
  and every other token keeps its mapping, except at most one, which is evicted only if every
  candidate and every alternate in reach of the one-hop and two-hop searches is occupied;
* a deletion succeeds; the hash is then looked up with nothing and every other token keeps its
  mapping; it reports whether there was a mapping;
* the conditional operations act exactly when the token is mapped to the expected address, and
  change no other token. -/
theorem regionIndex_lossyMap (crc : List UInt8 → BitVec 32) {slotCount : ℕ}
    {storage : PartitionedIndexStorage}
    (h : PartitionedIndexStorage.anonymous slotCount = .ok storage) (ops : List IndexOp) :
    ∃ idx, runOps crc ops (RegionIndex.fromStorage storage) = .ok () idx ∧
      Unique idx.cells ∧
      (∀ (p : ℕ) (r : IndexPartitionRange) (s fp d : ℕ) (e : IndexEntry),
        idx.storage.ranges[p]? = some r → s < r.slotCount → r.bucket idx.table s = .value fp d e →
        ∃ hash e₀, (hash, e₀) ∈ ops.filterMap IndexOp.installs ∧ e = e₀.quantize ∧
          p = indexPartitionFor hash idx.storage.ranges.length ∧ fp = fingerprint hash ∧
          homeFromSlot s d r.slotCount = homeSlot hash r.slotCount ∧
          candidateSlots hash r.slotCount d = s) ∧
      (∀ hash, ∃ result idx', RegionIndex.lookupRaw crc hash idx = .ok result idx' ∧
        idx'.cells = idx.cells ∧ ∀ e, result = some e ↔ Holds idx.cells (idx.token hash) e) ∧
      (∀ hash e, ∃ idx', RegionIndex.upsert crc hash e idx = .ok true idx' ∧
        (∃ idx'', RegionIndex.lookupRaw crc hash idx' = .ok (some e.quantize) idx'') ∧
        ∃ evicted : Option Token,
          InsertEffect idx.cells idx'.cells (idx.token hash) e.quantize evicted ∧
          ∀ tok, evicted = some tok → ∃ r,
            idx.storage.ranges[indexPartitionFor hash idx.storage.ranges.length]? = some r ∧
            SearchFull r (homeSlot hash r.slotCount) idx.table) ∧
      (∀ hash, ∃ deleted idx', RegionIndex.tryDelete crc hash idx = .ok deleted idx' ∧
        (deleted = true ↔ ∃ e, Holds idx.cells (idx.token hash) e) ∧
        (∃ idx'', RegionIndex.lookupRaw crc hash idx' = .ok none idx'') ∧
        RemoveEffect idx.cells idx'.cells (idx.token hash)) ∧
      (∀ hash old, ∃ removed idx', RegionIndex.removeIfMatch crc hash old idx = .ok removed idx' ∧
        (removed = true ↔ MatchesAt idx.cells (idx.token hash) (some old)) ∧
        (removed = true → RemoveEffect idx.cells idx'.cells (idx.token hash)) ∧
        (removed = false → idx'.cells = idx.cells)) ∧
      (∀ hash old e, ∃ replaced idx',
        RegionIndex.replaceIfMatch crc hash old e idx = .ok replaced idx' ∧
        (replaced = true ↔ MatchesAt idx.cells (idx.token hash) (some old)) ∧
        (replaced = true → InsertEffect idx.cells idx'.cells (idx.token hash) e.quantize none) ∧
        (replaced = false → idx'.cells = idx.cells)) ∧
      ∀ hash old, ∃ action idx', RegionIndex.prepareReclaim crc hash old idx = .ok action idx' ∧
        (action ≠ .missing ↔ MatchesAt idx.cells (idx.token hash) (some old)) ∧
        (action = .removed → RemoveEffect idx.cells idx'.cells (idx.token hash)) ∧
        (action ≠ .removed → idx'.cells = idx.cells) := by
  obtain ⟨ranges, hr, h₀, hi₀⟩ := fromStorage_inv crc h
  obtain ⟨idx, hrun, hinv, hinst⟩ := runOps_inv hr ops h₀ hi₀
  have hranges : idx.storage.ranges = ranges := hinv.repr.ranges_eq
  -- the token of a hash does not change while the index is in use
  have htoken : ∀ idx', IndexInv crc slotCount ranges idx' → ∀ hash,
      idx'.token hash = idx.token hash := by
    intro idx' h' hash
    rw [RegionIndex.token, RegionIndex.token, h'.repr.ranges_eq, hranges]
  refine ⟨idx, hrun, ?_, ?_, ?_, ?_, ?_, ?_, ?_, ?_⟩
  · rw [hinv.cells_eq]
    exact hinv.map.unique
  · intro p r s fp d e hp hs hb
    rw [hranges] at hp
    have hcell : idx.cells (p, s) = some (⟨p, homeFromSlot s d r.slotCount, fp⟩, e) := by
      rw [hinv.cells_eq, cells_eq hp hs, hb]
      rfl
    obtain ⟨hash, e₀, hmem, htok, hq⟩ := hinst _ e ⟨_, hcell⟩
    obtain ⟨r', hp', -, -⟩ := hinv.token_eq hr hash
    rw [tokenOf_eq hp', Token.mk.injEq] at htok
    obtain ⟨rfl, hhome, rfl⟩ := htok
    obtain rfl : r' = r := by
      rw [hp, Option.some.injEq] at hp'
      exact hp'.symm
    refine ⟨hash, e₀, by simpa using hmem, hq, by rw [hranges], rfl, hhome, ?_⟩
    rw [candidateSlots, ← hhome, slotFromHome_homeFromSlot d hs]
  · intro hash
    obtain ⟨result, idx', hl, -, hsame, hres⟩ := lookupRaw_effect hr hinv hash
    exact ⟨result, idx', hl, hsame, hres⟩
  · intro hash e
    obtain ⟨idx', hu, hinv', evicted, heff, hev⟩ := upsert_effect hr hinv hash e
    refine ⟨idx', hu, ?_, evicted, heff, fun tok htok => ?_⟩
    · obtain ⟨result, idx'', hl, -, -, hres⟩ := lookupRaw_effect hr hinv' hash
      rw [(hres e.quantize).2] at hl
      · exact ⟨idx'', hl⟩
      · rw [heff, htoken idx' hinv']
        exact .inl ⟨rfl, rfl⟩
    · rw [hranges]
      exact (hev tok htok).2.2
  · intro hash
    obtain ⟨deleted, idx', hd, hinv', hiff, htrue, hfalse⟩ := removeMatching_effect hr hinv hash
      none
    have hiff' : deleted = true ↔ ∃ e, Holds idx.cells (idx.token hash) e := by
      rw [hiff]
      simp [MatchesAt]
    have heff : RemoveEffect idx.cells idx'.cells (idx.token hash) := by
      cases hdel : deleted with
      | true => exact htrue hdel
      | false =>
        intro tok e
        rw [hfalse hdel]
        refine ⟨fun he => ⟨?_, he⟩, fun he => he.2⟩
        rintro rfl
        rw [hiff'.2 ⟨e, he⟩] at hdel
        cases hdel
    refine ⟨deleted, idx', hd, hiff', ?_, heff⟩
    obtain ⟨result, idx'', hl, -, -, hres⟩ := lookupRaw_effect hr hinv' hash
    cases hresult : result with
    | none => exact ⟨idx'', hresult ▸ hl⟩
    | some e =>
      have hheld := (hres e).1 hresult
      rw [heff, htoken idx' hinv'] at hheld
      exact absurd rfl hheld.1
  · intro hash old
    obtain ⟨removed, idx', hd, -, hrest⟩ := removeMatching_effect hr hinv hash (some old)
    exact ⟨removed, idx', hd, hrest⟩
  · intro hash old e
    obtain ⟨replaced, idx', hd, -, hrest⟩ := replaceIfMatch_effect hr hinv hash old e
    exact ⟨replaced, idx', hd, hrest⟩
  · intro hash old
    obtain ⟨action, idx', hd, -, hrest⟩ := prepareReclaim_effect hr hinv hash old
    exact ⟨action, idx', hd, hrest⟩

/-- The smallest index, in which two of the four candidates of a home coincide, after two
insertions. -/
theorem regionIndex_lossyMap_four :
    ∃ storage idx, PartitionedIndexStorage.anonymous 4 = .ok storage ∧
      runOps (fun _ => 0) [.upsert 0 ⟨⟨0⟩⟩, .upsert 1 ⟨⟨1⟩⟩] (RegionIndex.fromStorage storage) =
        .ok () idx ∧ Unique idx.cells := by
  have hnew : PartitionedIndexStorage.anonymous 4 = .ok _ := rfl
  obtain ⟨idx, hrun, hunique, -⟩ := regionIndex_lossyMap (fun _ => 0) hnew
    [.upsert 0 ⟨⟨0⟩⟩, .upsert 1 ⟨⟨1⟩⟩]
  exact ⟨_, idx, hnew, hrun, hunique⟩

end Cache2

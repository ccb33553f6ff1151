import Cache2.Index.WarmImage

set_option relaxedAutoImplicit false
set_option autoImplicit false

/-!
# Index heat is sound

Two bits for each bucket decide whether reclaim keeps a record. They lie in arrays of their own,
64 buckets to a word, and entries move between buckets; so a bucket could pass its heat on to its
next occupant. Here the bits are compared with a count that belongs to the mapping: the lookups
that hit the mapping of a token since it was last installed, relocated, replaced or classified.

## Main definitions

* `Cache2.SlotHeat.seenAt`, `Cache2.SlotHeat.hotAt` — the two bits of a bucket.
* `Cache2.IndexOp.Rewrites`, `Cache2.IndexOp.Classifies`, `Cache2.IndexOp.LooksUp` — what an
  operation does to a bucket.
* `Cache2.HeatRun` — an index in use, with the hits of every mapping.

## Main results

* `Cache2.IndexOp.heat_frame` — how an operation changes the bits of each bucket.
* `Cache2.HeatRun.inv` — the bits of a mapping's bucket are its hits, up to two.
* `Cache2.indexHeat_sound` — both together, and what reclaim answers.
-/

namespace Cache2

open Loop TokenTable

/-! ## Bits -/

/-- The bit of a bucket in a bitmap. -/
def bitAt (words : List (BitVec 64)) (slot : ℕ) : Bool :=
  words[slot / referenceWordBits]?.any fun word =>
    word &&& ((1 : BitVec 64) <<< (slot % referenceWordBits)) ≠ 0

section Bits

variable {words : List (BitVec 64)} {slot g : ℕ}

/-- A masked word is not zero when it has the bit. -/
lemma and_mask_ne_zero (word : BitVec 64) {i : ℕ} (hi : i < 64) :
    (word &&& ((1 : BitVec 64) <<< i) ≠ 0) ↔ word.getLsbD i = true := by
  have h := BitVec.and_twoPow word i
  rw [BitVec.twoPow_eq] at h
  have hne : (1 : BitVec 64) <<< i ≠ 0 := by
    intro hz
    have hbit := BitVec.getLsbD_twoPow (w := 64) i i
    rw [BitVec.twoPow_eq, show (1#64 <<< i) = 0 from hz] at hbit
    simp [hi] at hbit
  rw [show (1 : BitVec 64) = 1#64 from rfl] at hne ⊢
  rw [h]
  by_cases hb : word.getLsbD i = true
  · rw [if_pos hb]
    exact ⟨fun _ => hb, fun _ => hne⟩
  · rw [if_neg hb]
    exact ⟨fun h0 => absurd rfl h0, fun h1 => absurd h1 hb⟩

/-- The bit of a bucket whose word is there. -/
lemma bitAt_of_getElem? {word : BitVec 64} (h : words[slot / 64]? = some word) :
    bitAt words slot = word.getLsbD (slot % 64) := by
  have hmask := and_mask_ne_zero word (Nat.mod_lt slot (by decide : 0 < 64))
  rw [bitAt, referenceWordBits, h, Option.any_some, Bool.eq_iff_iff, decide_eq_true_iff, hmask]

/-- Changing the word of one bucket does not change the bits in other words. -/
lemma bitAt_congr {words' : List (BitVec 64)} (h : words'[slot / 64]? = words[slot / 64]?) :
    bitAt words' slot = bitAt words slot := by
  rw [bitAt, bitAt, referenceWordBits, h]

/-- Two buckets with a common word have different bits in it. -/
lemma mod_ne_of_div_eq (hdiv : g / 64 = slot / 64) (hne : g ≠ slot) : slot % 64 ≠ g % 64 := by
  omega

/-- Setting the bit of a bucket. -/
lemma bitAt_set {word : BitVec 64} (h : words[slot / 64]? = some word) (g : ℕ) :
    bitAt (words.set (slot / 64) (word ||| ((1 : BitVec 64) <<< (slot % 64)))) g =
      (decide (g = slot) || bitAt words g) := by
  obtain ⟨hlt, -⟩ := List.getElem?_eq_some_iff.1 h
  by_cases hdiv : g / 64 = slot / 64
  · have hnew : (words.set (slot / 64) (word ||| ((1 : BitVec 64) <<< (slot % 64))))[g / 64]? =
        some (word ||| BitVec.twoPow 64 (slot % 64)) := by
      rw [hdiv, List.getElem?_set_self hlt, BitVec.twoPow_eq]
      rfl
    rw [bitAt_of_getElem? hnew, bitAt_of_getElem? (hdiv ▸ h), BitVec.getLsbD_or,
      BitVec.getLsbD_twoPow, Bool.or_comm]
    have hmod := Nat.mod_lt slot (by decide : 0 < 64)
    by_cases hg : g = slot
    · simp [hg, hmod]
    · simp [hg, mod_ne_of_div_eq hdiv hg]
  · have hne : g ≠ slot := by
      rintro rfl
      exact hdiv rfl
    rw [bitAt_congr (List.getElem?_set_ne (Ne.symm hdiv))]
    simp [hne]

/-- Clearing the bit of a bucket. -/
lemma bitAt_modify (words : List (BitVec 64)) (slot g : ℕ) :
    bitAt (words.modify (slot / 64) (· &&& ~~~((1 : BitVec 64) <<< (slot % 64)))) g =
      (decide (g ≠ slot) && bitAt words g) := by
  by_cases hdiv : g / 64 = slot / 64
  · cases hw : words[g / 64]? with
    | none =>
      rw [hdiv] at hw
      have hnone : ∀ l : List (BitVec 64), l[g / 64]? = none → bitAt l g = false := by
        intro l hl
        rw [bitAt, referenceWordBits, hl]
        rfl
      rw [hnone _ (by rw [hdiv, List.getElem?_modify, hw]; rfl), hnone _ (hdiv ▸ hw),
        Bool.and_false]
    | some word =>
      have hnew : (words.modify (slot / 64) (· &&& ~~~((1 : BitVec 64) <<< (slot % 64))))[g / 64]? =
          some (word &&& ~~~BitVec.twoPow 64 (slot % 64)) := by
        rw [hdiv, List.getElem?_modify, ← hdiv, hw, BitVec.twoPow_eq]
        simp
      have hlt := Nat.mod_lt g (by decide : 0 < 64)
      rw [bitAt_of_getElem? hnew, bitAt_of_getElem? hw, BitVec.getLsbD_and, BitVec.getLsbD_not,
        BitVec.getLsbD_twoPow]
      have hmod := Nat.mod_lt slot (by decide : 0 < 64)
      by_cases hg : g = slot
      · simp [hg, hmod]
      · simp [hg, hlt, mod_ne_of_div_eq hdiv hg]
  · have hne : g ≠ slot := by
      rintro rfl
      exact hdiv rfl
    have hsame : (words.modify (slot / 64) (· &&& ~~~((1 : BitVec 64) <<< (slot % 64))))[g / 64]? =
        words[g / 64]? := by
      rw [List.getElem?_modify]
      simp [Ne.symm hdiv]
    rw [bitAt_congr hsame]
    simp [hne]

end Bits

namespace SlotHeat

/-- The bucket has been hit. -/
def seenAt (heat : SlotHeat) (slot : ℕ) : Bool := bitAt heat.seen slot

/-- The bucket has been hit again. -/
def hotAt (heat : SlotHeat) (slot : ℕ) : Bool := bitAt heat.hot slot

/-- Both bitmaps have a bit for every bucket. -/
structure Covers (heat : SlotHeat) (slotCount : ℕ) : Prop where
  seen : heat.seen.length = (slotCount + 63) / 64
  hot : heat.hot.length = (slotCount + 63) / 64

variable {heat : SlotHeat} {slot g slotCount : ℕ}

/-- Reclaim asks for the hot bit. -/
lemma takeHot_fst (heat : SlotHeat) (slot : ℕ) : (heat.takeHot slot).1 = heat.hotAt slot := rfl

/-- A bit that is not set need not be cleared. -/
private lemma bitAt_clear (words : List (BitVec 64)) (slot g : ℕ) :
    bitAt (if bitAt words slot then
      words.modify (slot / 64) (· &&& ~~~((1 : BitVec 64) <<< (slot % 64))) else words) g =
      (decide (g ≠ slot) && bitAt words g) := by
  by_cases hbit : bitAt words slot = true
  · rw [if_pos hbit, bitAt_modify]
  · rw [if_neg hbit]
    by_cases hg : g = slot
    · simpa [hg] using hbit
    · simp [hg]

/-- Clearing a bucket clears its seen bit and no other one. -/
@[simp] lemma seenAt_clear (heat : SlotHeat) (slot g : ℕ) :
    (heat.clear slot).seenAt g = (decide (g ≠ slot) && heat.seenAt g) :=
  bitAt_clear heat.seen slot g

/-- Clearing a bucket clears its hot bit and no other one. -/
@[simp] lemma hotAt_clear (heat : SlotHeat) (slot g : ℕ) :
    (heat.clear slot).hotAt g = (decide (g ≠ slot) && heat.hotAt g) :=
  bitAt_clear heat.hot slot g

/-- Clearing keeps the sizes of the bitmaps. -/
lemma Covers.clear (h : heat.Covers slotCount) (slot : ℕ) : (heat.clear slot).Covers slotCount := by
  refine ⟨?_, ?_⟩
  · rw [← h.seen, SlotHeat.clear, takeHot]
    dsimp only
    split_ifs <;> simp
  · rw [← h.hot, SlotHeat.clear, takeHot]
    dsimp only
    split_ifs <;> simp

/-- Clearing several buckets clears their seen bits and no other ones. -/
lemma seenAt_clearAll (heat : SlotHeat) (slots : List ℕ) (g : ℕ) :
    (heat.clearAll slots).seenAt g = (decide (g ∉ slots) && heat.seenAt g) := by
  induction slots generalizing heat with
  | nil => simp [clearAll]
  | cons slot slots ih =>
    rw [clearAll, List.foldl_cons, ← clearAll, ih, seenAt_clear]
    by_cases hg : g = slot <;> by_cases hmem : g ∈ slots <;> simp [hg, hmem]

/-- Clearing several buckets clears their hot bits and no other ones. -/
lemma hotAt_clearAll (heat : SlotHeat) (slots : List ℕ) (g : ℕ) :
    (heat.clearAll slots).hotAt g = (decide (g ∉ slots) && heat.hotAt g) := by
  induction slots generalizing heat with
  | nil => simp [clearAll]
  | cons slot slots ih =>
    rw [clearAll, List.foldl_cons, ← clearAll, ih, hotAt_clear]
    by_cases hg : g = slot <;> by_cases hmem : g ∈ slots <;> simp [hg, hmem]

/-- Clearing several buckets keeps the sizes of the bitmaps. -/
lemma Covers.clearAll (h : heat.Covers slotCount) (slots : List ℕ) :
    (heat.clearAll slots).Covers slotCount := by
  induction slots generalizing heat with
  | nil => exact h
  | cons slot slots ih => exact ih (h.clear slot)

/-- A hit of a bucket whose words are there. -/
lemma mark_eq {seen hot : BitVec 64} (hseen : heat.seen[slot / 64]? = some seen)
    (hhot : heat.hot[slot / 64]? = some hot) :
    heat.mark slot =
      if hot &&& ((1 : BitVec 64) <<< (slot % 64)) ≠ 0 then heat
      else if seen &&& ((1 : BitVec 64) <<< (slot % 64)) = 0 then
        { heat with
          seen := heat.seen.set (slot / 64) (seen ||| ((1 : BitVec 64) <<< (slot % 64))) }
      else
        { heat with
          hot := heat.hot.set (slot / 64) (hot ||| ((1 : BitVec 64) <<< (slot % 64))) } := by
  simp only [mark, referenceWordBits, hseen, hhot]
  rfl

/-- **A hit.** The first hit of a bucket sets its seen bit, the next one its hot bit; other
buckets keep their bits, and the bitmaps their sizes. -/
lemma mark_spec (h : heat.Covers slotCount) (hs : slot < slotCount) :
    (heat.mark slot).Covers slotCount ∧
      (heat.mark slot).seenAt slot = (!heat.hotAt slot || heat.seenAt slot) ∧
      (heat.mark slot).hotAt slot = (heat.hotAt slot || heat.seenAt slot) ∧
      ∀ g ≠ slot, (heat.mark slot).seenAt g = heat.seenAt g ∧
        (heat.mark slot).hotAt g = heat.hotAt g := by
  have hword : slot / 64 < (slotCount + 63) / 64 := by omega
  obtain ⟨seen, hseen⟩ : ∃ seen, heat.seen[slot / 64]? = some seen :=
    ⟨_, List.getElem?_eq_getElem (h.seen ▸ hword)⟩
  obtain ⟨hot, hhot⟩ : ∃ hot, heat.hot[slot / 64]? = some hot :=
    ⟨_, List.getElem?_eq_getElem (h.hot ▸ hword)⟩
  have hmod := Nat.mod_lt slot (by decide : 0 < 64)
  have hseenBit := (and_mask_ne_zero seen hmod).trans (by rw [← bitAt_of_getElem? hseen])
  have hhotBit := (and_mask_ne_zero hot hmod).trans (by rw [← bitAt_of_getElem? hhot])
  have hbits : ∀ g ≠ slot, decide (g = slot) = false := fun g hg => decide_eq_false hg
  rw [mark_eq hseen hhot]
  by_cases hh : heat.hotAt slot = true
  · rw [if_pos (hhotBit.2 hh)]
    exact ⟨h, by simp [hh], by simp [hh], fun g _ => ⟨rfl, rfl⟩⟩
  · rw [if_neg fun hn => hh (hhotBit.1 hn)]
    by_cases hs' : heat.seenAt slot = true
    · rw [if_neg (hseenBit.2 hs')]
      refine ⟨⟨h.seen, by simpa using h.hot⟩, ?_, ?_, fun g hg => ⟨rfl, ?_⟩⟩
      · show heat.seenAt slot = _
        simp [hs']
      · rw [hotAt, bitAt_set hhot]
        simp [hs']
      · rw [hotAt, bitAt_set hhot, hbits g hg, Bool.false_or, hotAt]
    · rw [if_pos (not_not.1 fun hn => hs' (hseenBit.1 hn))]
      refine ⟨⟨by simpa using h.seen, h.hot⟩, ?_, ?_, fun g hg => ⟨?_, rfl⟩⟩
      · rw [seenAt, bitAt_set hseen]
        simp [hh]
      · show heat.hotAt slot = _
        simp [hs']
      · rw [seenAt, bitAt_set hseen, hbits g hg, Bool.false_or, seenAt]

/-- No bucket of a new index has been hit. -/
lemma tryNew_spec (slotCount : ℕ) : (tryNew slotCount).Covers slotCount ∧
    ∀ g, (tryNew slotCount).seenAt g = false ∧ (tryNew slotCount).hotAt g = false := by
  have hzero : ∀ n g, bitAt (List.replicate n (0 : BitVec 64)) g = false := by
    intro n g
    rw [bitAt, List.getElem?_replicate]
    split_ifs <;> simp
  exact ⟨⟨List.length_replicate .., List.length_replicate ..⟩,
    fun g => ⟨hzero _ g, hzero _ g⟩⟩

end SlotHeat

/-! ## What an operation does to a bucket -/

/-- The operation returns the bucket's entry from a lookup. -/
def IndexOp.LooksUp (op : IndexOp) (idx : RegionIndex) (c : ℕ × ℕ) : Prop :=
  match op with
  | .lookupRaw hash => ∃ e, idx.Found (idx.token hash) none c e
  | _ => False

/-- The operation classifies the bucket's entry for reclaim. -/
def IndexOp.Classifies (op : IndexOp) (idx : RegionIndex) (c : ℕ × ℕ) : Prop :=
  match op with
  | .prepareReclaim hash old => ∃ e, idx.Found (idx.token hash) (some old) c e
  | _ => False

/-- The operation writes the entry that it was given into the bucket. -/
def IndexOp.Writes (op : IndexOp) (idx idx' : RegionIndex) (c : ℕ × ℕ) : Prop :=
  match op with
  | .upsert hash e => idx'.cells c = some (idx.token hash, e.quantize)
  | .replaceIfMatch hash old _ => ∃ e, idx.Found (idx.token hash) (some old) c e
  | _ => False

/-- The operation rewrites the bucket: it changes its content, or writes the entry that it was
given, which may be the one that is there. -/
def IndexOp.Rewrites (op : IndexOp) (idx idx' : RegionIndex) (c : ℕ × ℕ) : Prop :=
  idx'.cells c ≠ idx.cells c ∨ op.Writes idx idx' c

/-- The bits of a bucket. -/
def RegionIndex.bits (idx : RegionIndex) (c : ℕ × ℕ) : Bool × Bool :=
  (idx.heat.seenAt (idx.globalSlot c), idx.heat.hotAt (idx.globalSlot c))

/-- A bucket of a partition. -/
def RegionIndex.IsBucket (idx : RegionIndex) (c : ℕ × ℕ) : Prop :=
  ∃ range, idx.storage.ranges[c.1]? = some range ∧ c.2 < range.slotCount

section Frame

variable {crc : List UInt8 → BitVec 32} {slotCount : ℕ} {ranges : List IndexPartitionRange}
  {idx idx' : RegionIndex}

/-- An occupied cell is a bucket. -/
lemma RegionIndex.isBucket_of_cell {c : ℕ × ℕ} {x : Token × IndexEntry}
    (h : idx.cells c = some x) : idx.IsBucket c := by
  simp only [RegionIndex.cells, Cache2.cells] at h
  cases hr : idx.storage.ranges[c.1]? with
  | none => simp only [hr] at h; cases h
  | some range =>
    simp only [hr] at h
    split_ifs at h with hs
    exact ⟨range, hr, hs⟩

/-- Different buckets have different numbers. -/
lemma IndexInv.globalSlot_inj (hr : canonicalIndexPartitionRanges slotCount = .ok ranges)
    (h : IndexInv crc slotCount ranges idx) {c c' : ℕ × ℕ} (hc : idx.IsBucket c)
    (hc' : idx.IsBucket c') (heq : idx.globalSlot c = idx.globalSlot c') : c = c' := by
  obtain ⟨-, -, -, hchain⟩ := canonicalIndexPartitionRanges_chain hr
  obtain ⟨p, s⟩ := c
  obtain ⟨p', s'⟩ := c'
  obtain ⟨range, hp, hs⟩ := hc
  obtain ⟨range', hp', hs'⟩ := hc'
  rw [h.repr.ranges_eq] at hp hp'
  rw [h.globalSlot_eq hp, h.globalSlot_eq hp'] at heq
  obtain ⟨hi, rfl⟩ := List.getElem?_eq_some_iff.1 hp
  obtain ⟨hj, rfl⟩ := List.getElem?_eq_some_iff.1 hp'
  obtain ⟨rfl, rfl⟩ := hchain.slots_disjoint hi hj hs hs' heq
  rfl

/-- The number of a bucket is one of the image. -/
lemma IndexInv.globalSlot_lt (hr : canonicalIndexPartitionRanges slotCount = .ok ranges)
    (h : IndexInv crc slotCount ranges idx) {c : ℕ × ℕ} (hc : idx.IsBucket c) :
    idx.globalSlot c < slotCount := by
  obtain ⟨-, -, -, hchain⟩ := canonicalIndexPartitionRanges_chain hr
  obtain ⟨range, hp, hs⟩ := hc
  rw [h.repr.ranges_eq] at hp
  rw [RegionIndex.globalSlot, h.repr.ranges_eq, List.getD_eq_getElem?_getD, hp, Option.getD_some]
  obtain ⟨hi, rfl⟩ := List.getElem?_eq_some_iff.1 hp
  exact hchain.slot_lt hi hs

/-- The partitions of an index do not change. -/
lemma IndexInv.globalSlot_congr (h : IndexInv crc slotCount ranges idx)
    (h' : IndexInv crc slotCount ranges idx') (c : ℕ × ℕ) :
    idx'.globalSlot c = idx.globalSlot c := by
  rw [RegionIndex.globalSlot, RegionIndex.globalSlot, h.repr.ranges_eq, h'.repr.ranges_eq]

/-- A token is in one bucket only. -/
lemma IndexInv.cell_eq (h : IndexInv crc slotCount ranges idx) {c c' : ℕ × ℕ} {tok : Token}
    {e e' : IndexEntry} (hc : idx.cells c = some (tok, e)) (hc' : idx.cells c' = some (tok, e')) :
    c = c' :=
  h.unique c c' tok e e' hc hc'

/-- The operation forgets the heat of the buckets that it rewrites or classifies, and does nothing
else to the heat. -/
def IndexOp.Clears (op : IndexOp) (idx idx' : RegionIndex) : Prop :=
  ∃ W : List (ℕ × ℕ), idx'.heat = idx.heat.clearAll (W.map idx.globalSlot) ∧
    (∀ c ∈ W, idx.IsBucket c) ∧ ∀ c, c ∈ W ↔ op.Rewrites idx idx' c ∨ op.Classifies idx c

/-- An operation that changes nothing. -/
lemma IndexOp.Clears.of_same {op : IndexOp} (hcells : idx'.cells = idx.cells)
    (hheat : idx'.heat = idx.heat) (hwrites : ∀ c, ¬ op.Writes idx idx' c)
    (hclassifies : ∀ c, ¬ op.Classifies idx c) : op.Clears idx idx' := by
  refine ⟨[], hheat, by simp, fun c => ?_⟩
  simp [IndexOp.Rewrites, hcells, hwrites c, hclassifies c]

/-- What an operation for a token and an address acts on is one bucket. -/
lemma IndexInv.found_unique (h : IndexInv crc slotCount ranges idx) {tok : Token}
    {expected : Option PackedLocation} {c c' : ℕ × ℕ} {e e' : IndexEntry}
    (hc : idx.Found tok expected c e) (hc' : idx.Found tok expected c' e') : c' = c :=
  h.cell_eq hc'.cell hc.cell

/-- Replacing the content of a bucket changes no other one. -/
lemma eq_of_update_ne {f : ℕ × ℕ → Option (Token × IndexEntry)} {c c' : ℕ × ℕ}
    {x : Option (Token × IndexEntry)} (h : Function.update f c x c' ≠ f c') : c' = c := by
  by_contra hne
  exact h (Function.update_of_ne hne ..)

/-- **Steps.** An operation succeeds, and either forgets the heat of the buckets that it rewrites
or classifies, or is a lookup that hits one bucket. -/
theorem IndexOp.run_heat (hr : canonicalIndexPartitionRanges slotCount = .ok ranges)
    (h : IndexInv crc slotCount ranges idx) (op : IndexOp) :
    ∃ idx', op.run crc idx = .ok () idx' ∧ IndexInv crc slotCount ranges idx' ∧
      ((op.Clears idx idx' ∧ ∀ c, ¬ op.LooksUp idx c) ∨
        ∃ c, op.LooksUp idx c ∧ idx.IsBucket c ∧ idx'.cells = idx.cells ∧
          idx'.heat = idx.heat.mark (idx.globalSlot c)) := by
  have hdrop : ∀ {α : Type} {f : IndexM α} {a : α} {idx' : RegionIndex}, f idx = .ok a idx' →
      (do let _ ← f) idx = .ok () idx' := fun hf => by rw [bind_ok hf, pure_apply]
  -- a removal, with or without an expected address
  have hremove : ∀ (op : IndexOp) (hash : Hash) (expected : Option PackedLocation),
      (∀ idx' c, ¬ op.Writes idx idx' c) → (∀ c, ¬ op.Classifies idx c) →
      ∃ removed idx', RegionIndex.removeMatching crc hash expected idx = .ok removed idx' ∧
        IndexInv crc slotCount ranges idx' ∧ op.Clears idx idx' := by
    intro op hash expected hwrites hclassifies
    obtain ⟨removed, idx', hrun, hinv, ⟨-, c, e, hfound, hcells, hheat⟩ | ⟨-, -, hcells, hheat⟩⟩ :=
      removeMatching_cells hr h hash expected
    · refine ⟨removed, idx', hrun, hinv, [c], hheat, ?_, fun c' => ?_⟩
      · intro c' hc'
        rw [List.mem_singleton.1 hc']
        exact RegionIndex.isBucket_of_cell hfound.cell
      · simp only [List.mem_singleton, IndexOp.Rewrites, hcells, hwrites, hclassifies, or_false]
        constructor
        · rintro rfl
          rw [Function.update_self, hfound.cell]
          simp
        · exact eq_of_update_ne
    · exact ⟨removed, idx', hrun, hinv, .of_same hcells hheat (hwrites idx') hclassifies⟩
  cases op with
  | lookupRaw hash =>
    obtain ⟨result, idx', hrun, hinv, hcells, ⟨c, e, hfound, -, hheat⟩ | ⟨hmiss, -, hheat⟩⟩ :=
      lookupRaw_cells hr h hash
    · exact ⟨idx', hdrop hrun, hinv, .inr ⟨c, ⟨e, hfound⟩,
        RegionIndex.isBucket_of_cell hfound.cell, hcells, hheat⟩⟩
    · refine ⟨idx', hdrop hrun, hinv, .inl ⟨.of_same hcells hheat (by simp [IndexOp.Writes])
        (by simp [IndexOp.Classifies]), ?_⟩⟩
      rintro c ⟨e, hfound⟩
      exact hmiss hfound.matchesAt
  | upsert hash e =>
    obtain ⟨idx', W, hrun, hinv, hother, hwritten, ⟨c₁, hmem₁, hnew⟩, hheat⟩ :=
      upsert_cells hr h hash e
    refine ⟨idx', hdrop hrun, hinv, .inl ⟨⟨W, hheat, fun c hc => ?_, fun c => ?_⟩,
      by simp [IndexOp.LooksUp]⟩⟩
    · have hbucket : idx'.IsBucket c := by
        rcases hwritten c hc with hcell | ⟨_, _, _, -, -, hcell⟩
        · exact RegionIndex.isBucket_of_cell hcell
        · exact RegionIndex.isBucket_of_cell hcell
      rw [RegionIndex.IsBucket, h.repr.ranges_eq, ← hinv.repr.ranges_eq]
      exact hbucket
    · simp only [IndexOp.Rewrites, IndexOp.Writes, IndexOp.Classifies, or_false]
      constructor
      · intro hc
        rcases hwritten c hc with hcell | ⟨c₀, tok, e₀, hne, hold, hcell⟩
        · exact .inr hcell
        · left
          intro hsame
          rw [hcell] at hsame
          exact hne (h.cell_eq hold hsame.symm)
      · intro hc
        by_contra hmem
        rcases hc with hchanged | hcell
        · exact hchanged (hother c hmem)
        · rw [hinv.cell_eq hcell hnew] at hmem
          exact hmem hmem₁
  | tryDelete hash =>
    obtain ⟨_, idx', hrun, hinv, hclears⟩ := hremove (.tryDelete hash) hash none
      (by simp [IndexOp.Writes]) (by simp [IndexOp.Classifies])
    exact ⟨idx', hdrop hrun, hinv, .inl ⟨hclears, by simp [IndexOp.LooksUp]⟩⟩
  | removeIfMatch hash old =>
    obtain ⟨_, idx', hrun, hinv, hclears⟩ := hremove (.removeIfMatch hash old) hash (some old)
      (by simp [IndexOp.Writes]) (by simp [IndexOp.Classifies])
    exact ⟨idx', hdrop hrun, hinv, .inl ⟨hclears, by simp [IndexOp.LooksUp]⟩⟩
  | replaceIfMatch hash old replacement =>
    obtain ⟨replaced, idx', hrun, hinv, ⟨-, c, e, hfound, hcells, hheat⟩ |
      ⟨-, hmiss, hcells, hheat⟩⟩ := replaceIfMatch_cells hr h hash old replacement
    · refine ⟨idx', hdrop hrun, hinv, .inl ⟨⟨[c], hheat, ?_, fun c' => ?_⟩,
        by simp [IndexOp.LooksUp]⟩⟩
      · intro c' hc'
        rw [List.mem_singleton.1 hc']
        exact RegionIndex.isBucket_of_cell hfound.cell
      · simp only [List.mem_singleton, IndexOp.Rewrites, IndexOp.Writes, IndexOp.Classifies,
          or_false, hcells]
        constructor
        · rintro rfl
          exact .inr ⟨e, hfound⟩
        · rintro (hchanged | ⟨e', hfound'⟩)
          · exact eq_of_update_ne hchanged
          · exact h.found_unique hfound hfound'
    · refine ⟨idx', hdrop hrun, hinv, .inl ⟨.of_same hcells hheat ?_
        (by simp [IndexOp.Classifies]), by simp [IndexOp.LooksUp]⟩⟩
      rintro c ⟨e, hfound⟩
      exact hmiss hfound.matchesAt
  | prepareReclaim hash old =>
    obtain ⟨action, idx', hrun, hinv, ⟨c, e, hfound, hact⟩ | ⟨-, hmiss, hcells, hheat⟩⟩ :=
      prepareReclaim_cells hr h hash old
    · refine ⟨idx', hdrop hrun, hinv, .inl ⟨?_, by simp [IndexOp.LooksUp]⟩⟩
      have hbucket := RegionIndex.isBucket_of_cell hfound.cell
      have hclassifies : ∀ c', (IndexOp.prepareReclaim hash old).Classifies idx c' ↔ c' = c := by
        intro c'
        constructor
        · rintro ⟨e', hfound'⟩
          exact h.found_unique hfound hfound'
        · rintro rfl
          exact ⟨e, hfound⟩
      rcases hact with ⟨-, -, hcells, hheat⟩ | ⟨-, -, hcells, hheat⟩
      · refine ⟨[c], hheat, by simpa using hbucket, fun c' => ?_⟩
        simp [IndexOp.Rewrites, IndexOp.Writes, hcells, hclassifies]
      · refine ⟨[c, c], hheat, by simpa using hbucket, fun c' => ?_⟩
        simp only [List.mem_cons, List.not_mem_nil, or_false, or_self, IndexOp.Rewrites,
          IndexOp.Writes, hcells, hclassifies]
        exact ⟨.inr, fun hc => hc.elim eq_of_update_ne id⟩
    · refine ⟨idx', hdrop hrun, hinv, .inl ⟨.of_same hcells hheat (by simp [IndexOp.Writes]) ?_,
        by simp [IndexOp.LooksUp]⟩⟩
      rintro c ⟨e, hfound⟩
      exact hmiss hfound.matchesAt
  | setActivityCountersEnabled enabled =>
    exact ⟨{ idx with activityCountersEnabled := enabled }, rfl, ⟨h.repr, h.map⟩,
      .inl ⟨.of_same rfl rfl (by simp [IndexOp.Writes]) (by simp [IndexOp.Classifies]),
        by simp [IndexOp.LooksUp]⟩⟩

/-- **Frame.** The bits of a bucket that an operation rewrites or classifies are clear afterwards;
a bucket that a lookup hit gets its seen bit, or its hot bit if it had been seen; every other
bucket keeps both bits. -/
theorem IndexOp.heat_frame (hr : canonicalIndexPartitionRanges slotCount = .ok ranges)
    (h : IndexInv crc slotCount ranges idx) (hcov : idx.heat.Covers slotCount) (op : IndexOp)
    (hrun : op.run crc idx = .ok () idx') :
    IndexInv crc slotCount ranges idx' ∧ idx'.heat.Covers slotCount ∧
      ∀ c, idx.IsBucket c →
        (op.Rewrites idx idx' c ∨ op.Classifies idx c → idx'.bits c = (false, false)) ∧
        (op.LooksUp idx c → idx'.cells = idx.cells ∧
          idx'.bits c = (!(idx.bits c).2 || (idx.bits c).1, (idx.bits c).2 || (idx.bits c).1)) ∧
        (¬ op.Rewrites idx idx' c → ¬ op.Classifies idx c → ¬ op.LooksUp idx c →
          idx'.bits c = idx.bits c) := by
  obtain ⟨idx₁, hrun₁, hinv, hstep⟩ := op.run_heat hr h
  rw [hrun] at hrun₁
  cases hrun₁
  rcases hstep with ⟨⟨W, hheat, hbuckets, hmem⟩, hno⟩ | ⟨c₀, hlooks, hc₀, hcells, hheat⟩
  · refine ⟨hinv, by rw [hheat]; exact hcov.clearAll _, fun c hc => ?_⟩
    -- a bucket's number is among the cleared ones exactly when the bucket is
    have hiff : idx.globalSlot c ∈ W.map idx.globalSlot ↔ c ∈ W := by
      constructor
      · intro hg
        obtain ⟨c', hc', heq⟩ := List.mem_map.1 hg
        rw [← h.globalSlot_inj hr (hbuckets c' hc') hc heq]
        exact hc'
      · exact List.mem_map_of_mem
    have hbits : idx'.bits c =
        (decide (c ∉ W) && (idx.bits c).1, decide (c ∉ W) && (idx.bits c).2) := by
      simp only [RegionIndex.bits, h.globalSlot_congr hinv, hheat, SlotHeat.seenAt_clearAll,
        SlotHeat.hotAt_clearAll, hiff]
    refine ⟨fun hrew => ?_, fun hlooks => absurd hlooks (hno c), fun hrew hcls _ => ?_⟩
    · rw [hbits]
      simp [(hmem c).2 hrew]
    · have hnot : c ∉ W := fun hc' => ((hmem c).1 hc').elim hrew hcls
      rw [hbits]
      simp [hnot]
  · obtain ⟨hcov', hseen, hhot, hother⟩ := SlotHeat.mark_spec hcov (h.globalSlot_lt hr hc₀)
    -- a lookup rewrites nothing, and what it looks up is one bucket
    have hop : (∀ c, op.LooksUp idx c → c = c₀) ∧ ∀ c, ¬ op.Classifies idx c ∧
        ¬ op.Writes idx idx' c := by
      cases op with
      | lookupRaw hash =>
        obtain ⟨e₀, hfound₀⟩ := hlooks
        refine ⟨?_, fun c => ⟨by simp [IndexOp.Classifies], by simp [IndexOp.Writes]⟩⟩
        rintro c ⟨e, hfound⟩
        exact h.found_unique hfound₀ hfound
      | _ => exact absurd hlooks (by simp [IndexOp.LooksUp])
    refine ⟨hinv, by rw [hheat]; exact hcov', fun c hc => ⟨?_, fun hl => ?_, fun _ _ hl => ?_⟩⟩
    · rintro ((hchanged | hwrites) | hcls)
      · exact absurd (by rw [hcells]) hchanged
      · exact absurd hwrites (hop.2 c).2
      · exact absurd hcls (hop.2 c).1
    · rw [hop.1 c hl]
      refine ⟨hcells, ?_⟩
      simp only [RegionIndex.bits, h.globalSlot_congr hinv, hheat, hseen, hhot]
    · have hne : idx.globalSlot c ≠ idx.globalSlot c₀ := by
        intro heq
        exact hl (h.globalSlot_inj hr hc hc₀ heq ▸ hlooks)
      obtain ⟨hs, hh⟩ := hother _ hne
      simp only [RegionIndex.bits, h.globalSlot_congr hinv, hheat, hs, hh]

end Frame

/-! ## The hits of a mapping -/

/-- The operation installs, replaces, classifies or moves the mapping of the token, or leaves
the token without one. -/
def IndexOp.Renews (op : IndexOp) (idx idx' : RegionIndex) (tok : Token) : Prop :=
  (∀ c e, idx'.cells c = some (tok, e) → idx.cells c ≠ some (tok, e)) ∨
    match op with
    | .upsert hash _ => tok = idx.token hash
    | .replaceIfMatch hash old _ => tok = idx.token hash ∧ MatchesAt idx.cells tok (some old)
    | .prepareReclaim hash old => tok = idx.token hash ∧ MatchesAt idx.cells tok (some old)
    | _ => False

/-- The operation is a lookup that hits the mapping of the token. -/
def IndexOp.HitsToken (op : IndexOp) (idx : RegionIndex) (tok : Token) : Prop :=
  match op with
  | .lookupRaw hash => tok = idx.token hash ∧ MatchesAt idx.cells tok none
  | _ => False

open Classical in
/-- The hits of every mapping after an operation. -/
noncomputable def IndexOp.hitsAfter (op : IndexOp) (idx idx' : RegionIndex) (hits : Token → ℕ) :
    Token → ℕ := fun tok =>
  if op.Renews idx idx' tok then 0
  else if op.HitsToken idx tok then hits tok + 1
  else hits tok

/-- An index in use, from any reachable index none of whose buckets has been hit, with the number
of lookups that hit the mapping of each token since it was last installed, relocated, replaced or
classified. -/
inductive HeatRun (crc : List UInt8 → BitVec 32) (slotCount : ℕ) :
    RegionIndex → (Token → ℕ) → Prop
  | start {idx : RegionIndex} (h : IndexReachable crc slotCount idx)
      (hheat : idx.heat = SlotHeat.tryNew slotCount) : HeatRun crc slotCount idx fun _ => 0
  | op {idx idx' : RegionIndex} {hits : Token → ℕ} (h : HeatRun crc slotCount idx hits)
      (o : IndexOp) (hrun : o.run crc idx = .ok () idx') :
      HeatRun crc slotCount idx' (o.hitsAfter idx idx' hits)
  | write {idx : RegionIndex} {hits : Token → ℕ} {batch : ℕ} {binding : IndexImageBinding}
      {stats : WarmImageStats} {s : WarmImageWrite} (h : HeatRun crc slotCount idx hits)
      (hbatch : 0 < batch)
      (hwrite : writeWarmImage crc batch binding ⟨idx.storage, .new⟩ = .ok stats s) :
      HeatRun crc slotCount { idx with storage := s.storage } hits

/-- The bits of every mapping's bucket are its hits, up to two. -/
structure HeatInv (crc : List UInt8 → BitVec 32) (slotCount : ℕ)
    (ranges : List IndexPartitionRange) (idx : RegionIndex) (hits : Token → ℕ) : Prop where
  index : IndexInv crc slotCount ranges idx
  covers : idx.heat.Covers slotCount
  bits : ∀ c tok e, idx.cells c = some (tok, e) →
    idx.bits c = (decide (1 ≤ hits tok), decide (2 ≤ hits tok))

section Hits

variable {crc : List UInt8 → BitVec 32} {slotCount : ℕ} {ranges : List IndexPartitionRange}
  {idx idx' : RegionIndex} {hits : Token → ℕ}

/-- A mapping whose bucket is rewritten or classified starts anew, and no other one does. -/
lemma IndexOp.renews_iff (hr : canonicalIndexPartitionRanges slotCount = .ok ranges)
    (h : IndexInv crc slotCount ranges idx) (h' : IndexInv crc slotCount ranges idx')
    (op : IndexOp) (hrun : op.run crc idx = .ok () idx') {c : ℕ × ℕ} {tok : Token}
    {e : IndexEntry} (hc : idx'.cells c = some (tok, e)) :
    op.Renews idx idx' tok ↔ op.Rewrites idx idx' c ∨ op.Classifies idx c := by
  have hdrop : ∀ {α : Type} {f : IndexM α} {a : α} {idx₁ : RegionIndex}, f idx = .ok a idx₁ →
      (do let _ ← f) idx = .ok () idx' → idx₁ = idx' := by
    intro α f a idx₁ hf hrun
    rw [bind_ok hf, pure_apply] at hrun
    cases hrun
    rfl
  have hchanged : idx'.cells c ≠ idx.cells c → op.Renews idx idx' tok := by
    intro hne
    refine .inl fun c' e' hc' hold => hne ?_
    rw [h'.cell_eq hc hc', hc', hold]
  have hmoved : (∀ c e, idx'.cells c = some (tok, e) → idx.cells c ≠ some (tok, e)) →
      op.Rewrites idx idx' c ∨ op.Classifies idx c := by
    intro hm
    refine .inl (.inl fun hsame => hm c e hc ?_)
    rw [← hsame, hc]
  cases op with
  | upsert hash supplied =>
    obtain ⟨idx₁, W, hu, -, -, -, ⟨c₁, -, hnew⟩, -⟩ := upsert_cells hr h hash supplied
    obtain rfl := hdrop hu hrun
    constructor
    · rintro (hm | rfl)
      · exact hmoved hm
      · rw [h'.cell_eq hc hnew]
        exact .inl (.inr hnew)
    · rintro ((hne | hwrites) | hcls)
      · exact hchanged hne
      · rw [IndexOp.Writes, hc] at hwrites
        cases hwrites
        exact .inr rfl
      · exact hcls.elim
  | replaceIfMatch hash old replacement =>
    obtain ⟨_, idx₁, hu, -, ⟨-, c₁, e₁, hfound, hcells, -⟩ | ⟨-, hmiss, -, -⟩⟩ :=
      replaceIfMatch_cells hr h hash old replacement
    · obtain rfl := hdrop hu hrun
      have hnew : idx₁.cells c₁ = some (idx.token hash, replacement.quantize) := by
        rw [hcells, Function.update_self]
      constructor
      · rintro (hm | ⟨rfl, -⟩)
        · exact hmoved hm
        · rw [h'.cell_eq hc hnew]
          exact .inl (.inr ⟨e₁, hfound⟩)
      · rintro ((hne | ⟨e₂, hfound₂⟩) | hcls)
        · exact hchanged hne
        · rw [h.found_unique hfound hfound₂, hnew] at hc
          cases hc
          exact .inr ⟨rfl, hfound.matchesAt⟩
        · exact hcls.elim
    · constructor
      · rintro (hm | ⟨rfl, hmatch⟩)
        · exact hmoved hm
        · exact absurd hmatch hmiss
      · rintro ((hne | ⟨e₂, hfound₂⟩) | hcls)
        · exact hchanged hne
        · exact absurd hfound₂.matchesAt hmiss
        · exact hcls.elim
  | prepareReclaim hash old =>
    obtain ⟨_, idx₁, hu, -, ⟨c₁, e₁, hfound, hact⟩ | ⟨-, hmiss, -, -⟩⟩ :=
      prepareReclaim_cells hr h hash old
    · obtain rfl := hdrop hu hrun
      -- the classified mapping is still where it was, or gone
      have hstill : idx₁.cells c₁ = idx.cells c₁ ∨
          idx₁.cells = Function.update idx.cells c₁ none := by
        rcases hact with ⟨-, -, hcells, -⟩ | ⟨-, -, hcells, -⟩
        · exact .inl (by rw [hcells])
        · exact .inr hcells
      constructor
      · rintro (hm | ⟨rfl, -⟩)
        · exact hmoved hm
        · rcases hstill with hsame | hgone
          · rw [h'.cell_eq hc (hsame.trans hfound.cell)]
            exact .inr ⟨e₁, hfound⟩
          · rw [hgone] at hc
            by_cases hcc : c = c₁
            · rw [hcc, Function.update_self] at hc
              cases hc
            · rw [Function.update_of_ne hcc] at hc
              exact absurd (h.cell_eq hc hfound.cell) hcc
      · rintro ((hne | hwrites) | ⟨e₂, hfound₂⟩)
        · exact hchanged hne
        · exact hwrites.elim
        · rw [h.found_unique hfound hfound₂] at hc
          rcases hstill with hsame | hgone
          · rw [hsame, hfound.cell] at hc
            cases hc
            exact .inr ⟨rfl, hfound.matchesAt⟩
          · rw [hgone, Function.update_self] at hc
            cases hc
    · constructor
      · rintro (hm | ⟨rfl, hmatch⟩)
        · exact hmoved hm
        · exact absurd hmatch hmiss
      · rintro ((hne | hwrites) | ⟨e₂, hfound₂⟩)
        · exact hchanged hne
        · exact hwrites.elim
        · exact absurd hfound₂.matchesAt hmiss
  | _ =>
    constructor
    · rintro (hm | hfalse)
      · exact hmoved hm
      · exact hfalse.elim
    · rintro ((hne | hwrites) | hcls)
      · exact hchanged hne
      · exact hwrites.elim
      · exact hcls.elim

/-- **Step.** An operation keeps the bits equal to the hits. -/
theorem HeatInv.step (hr : canonicalIndexPartitionRanges slotCount = .ok ranges)
    (h : HeatInv crc slotCount ranges idx hits) (op : IndexOp)
    (hrun : op.run crc idx = .ok () idx') :
    HeatInv crc slotCount ranges idx' (op.hitsAfter idx idx' hits) := by
  obtain ⟨hinv, hcov, hframe⟩ := op.heat_frame hr h.index h.covers hrun
  refine ⟨hinv, hcov, fun c tok e hc => ?_⟩
  have hbucket : idx.IsBucket c := by
    have hc' := RegionIndex.isBucket_of_cell hc
    rw [RegionIndex.IsBucket, hinv.repr.ranges_eq, ← h.index.repr.ranges_eq] at hc'
    exact hc'
  obtain ⟨hclear, hlook, hkeep⟩ := hframe c hbucket
  have hiff := op.renews_iff hr h.index hinv hrun hc
  by_cases hrenews : op.Renews idx idx' tok
  · rw [hclear (hiff.1 hrenews), IndexOp.hitsAfter, if_pos hrenews]
    rfl
  · obtain ⟨hrew, hcls⟩ := not_or.1 fun hn => hrenews (hiff.2 hn)
    -- the mapping is where it was, so its bits before are its hits before
    have hold : idx.cells c = some (tok, e) := by
      rw [← hc]
      exact (not_not.1 fun hne => hrew (.inl hne)).symm
    have hbits := h.bits c tok e hold
    have hhits : op.HitsToken idx tok ↔ op.LooksUp idx c := by
      cases op with
      | lookupRaw hash =>
        constructor
        · rintro ⟨rfl, -⟩
          exact ⟨e, hold, by simp⟩
        · rintro ⟨e', hfound⟩
          have hcell := hfound.cell
          rw [hold] at hcell
          cases hcell
          exact ⟨rfl, hfound.matchesAt⟩
      | _ => simp [IndexOp.HitsToken, IndexOp.LooksUp]
    rw [IndexOp.hitsAfter, if_neg hrenews]
    by_cases hhit : op.HitsToken idx tok
    · rw [(hlook (hhits.1 hhit)).2, hbits, if_pos hhit]
      -- no hit before, one, or more
      rcases Nat.lt_or_ge (hits tok) 1 with hz | hone
      · simp [Nat.lt_one_iff.1 hz]
      · rcases Nat.lt_or_ge (hits tok) 2 with hlt | htwo
        · simp [Nat.le_antisymm (Nat.le_of_lt_succ hlt) hone]
        · simp [hone, htwo, Nat.le_succ_of_le htwo]
    · rw [hkeep hrew hcls fun hl => hhit (hhits.2 hl), hbits, if_neg hhit]

/-- **Run.** The bits are the hits throughout. -/
theorem HeatRun.inv (h : HeatRun crc slotCount idx hits) :
    ∃ ranges, canonicalIndexPartitionRanges slotCount = .ok ranges ∧
      HeatInv crc slotCount ranges idx hits := by
  induction h with
  | start h hheat =>
    obtain ⟨ranges, hr, hinv⟩ := h.inv
    obtain ⟨hcov, hcold⟩ := SlotHeat.tryNew_spec slotCount
    refine ⟨ranges, hr, hinv, by rw [hheat]; exact hcov, fun c tok e _ => ?_⟩
    simp [RegionIndex.bits, hheat, hcold]
  | op _ o hrun ih =>
    obtain ⟨ranges, hr, hinv⟩ := ih
    exact ⟨ranges, hr, hinv.step hr o hrun⟩
  | @write idx hits _ _ _ s _ hbatch hwrite ih =>
    obtain ⟨ranges, hr, hinv⟩ := ih
    obtain ⟨hrepr, -⟩ := writeWarmImage_repr hr hinv.index.repr hbatch hwrite
    have hinv' : IndexInv crc slotCount ranges { idx with storage := s.storage } :=
      hinv.index.of_storageRepr hr hrepr
    refine ⟨ranges, hr, hinv', hinv.covers, fun c tok e hc => ?_⟩
    have hidx : IndexRepr crc slotCount ranges idx.table { idx with storage := s.storage } := hrepr
    rw [hidx.cells_eq hr, ← hinv.index.cells_eq] at hc
    rw [← hinv.bits c tok e hc]
    simp only [RegionIndex.bits, hinv.index.globalSlot_congr hinv']

/-- **Heat is sound.** In every run of index operations and image writes from a reachable index
without heat:

* reclaim classifies a mapping as one to keep exactly when it is the current mapping of the token
  at the given address and at least two lookups have hit it since it was last installed,
  relocated, replaced or classified;
* an operation clears both bits of every bucket that it rewrites, and of the one it classifies;
* it leaves both bits of every bucket alone that it does not rewrite, classify or look up. -/
theorem indexHeat_sound (h : HeatRun crc slotCount idx hits) :
    (∀ hash old, ∃ action idx', RegionIndex.prepareReclaim crc hash old idx = .ok action idx' ∧
      (action = .reinsert ↔
        MatchesAt idx.cells (idx.token hash) (some old) ∧ 2 ≤ hits (idx.token hash))) ∧
    ∀ op : IndexOp, ∃ idx', op.run crc idx = .ok () idx' ∧ ∀ c, idx.IsBucket c →
      (op.Rewrites idx idx' c ∨ op.Classifies idx c → idx'.bits c = (false, false)) ∧
      (¬ op.Rewrites idx idx' c → ¬ op.Classifies idx c → ¬ op.LooksUp idx c →
        idx'.bits c = idx.bits c) := by
  obtain ⟨ranges, hr, hinv⟩ := h.inv
  refine ⟨fun hash old => ?_, fun op => ?_⟩
  · obtain ⟨action, idx', hrun, -, ⟨c, e, hfound, hact⟩ | ⟨rfl, hmiss, -, -⟩⟩ :=
      prepareReclaim_cells hr hinv.index hash old
    · refine ⟨action, idx', hrun, ?_⟩
      have hhot : (idx.heat.takeHot (idx.globalSlot c)).1 =
          decide (2 ≤ hits (idx.token hash)) := by
        rw [SlotHeat.takeHot_fst]
        exact congrArg Prod.snd (hinv.bits c _ e hfound.cell)
      rcases hact with ⟨rfl, hwas, -, -⟩ | ⟨rfl, hwas, -, -⟩
      · rw [hhot, decide_eq_true_iff] at hwas
        simp [hfound.matchesAt, hwas]
      · rw [hhot, decide_eq_false_iff_not] at hwas
        simp [hwas]
    · exact ⟨.missing, idx', hrun, by simp [hmiss]⟩
  · obtain ⟨idx', hrun, -, -⟩ := op.run_heat hr hinv.index
    obtain ⟨-, -, hframe⟩ := op.heat_frame hr hinv.index hinv.covers hrun
    exact ⟨idx', hrun, fun c hc => ⟨(hframe c hc).1, (hframe c hc).2.2⟩⟩

/-- In the smallest index, a mapping that two lookups have hit is kept. -/
theorem indexHeat_sound_sample :
    ∃ storage idx hits, PartitionedIndexStorage.anonymous 4 = .ok storage ∧
      HeatRun (fun _ => 0) 4 idx hits ∧
      ∃ action idx', RegionIndex.prepareReclaim (fun _ => 0) 0 ⟨0⟩ idx = .ok action idx' ∧
        (action = .reinsert ↔
          MatchesAt idx.cells (idx.token 0) (some ⟨0⟩) ∧ 2 ≤ hits (idx.token 0)) := by
  have hnew : PartitionedIndexStorage.anonymous 4 = .ok _ := rfl
  have h₀ : HeatRun (fun _ => 0) 4 (RegionIndex.fromStorage _) _ := .start (.fresh hnew) rfl
  obtain ⟨idx₁, hrun₁, -⟩ := (indexHeat_sound h₀).2 (.upsert 0 ⟨⟨0⟩⟩)
  have h₁ := h₀.op _ hrun₁
  obtain ⟨idx₂, hrun₂, -⟩ := (indexHeat_sound h₁).2 (.lookupRaw 0)
  have h₂ := h₁.op _ hrun₂
  obtain ⟨idx₃, hrun₃, -⟩ := (indexHeat_sound h₂).2 (.lookupRaw 0)
  have h₃ := h₂.op _ hrun₃
  exact ⟨_, idx₃, _, hnew, h₃, (indexHeat_sound h₃).1 0 ⟨0⟩⟩

end Hits

end Cache2

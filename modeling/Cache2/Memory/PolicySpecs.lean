import Cache2.Memory.Eviction

set_option relaxedAutoImplicit false
set_option autoImplicit false

/-!
# What the eviction policies hold

To the shard a policy is a set of resident slots: slots are inserted, removed, detached and
restored, hits are recorded, and victims are chosen among them. This module says what each operation
of either policy does to the list of slots that its structure holds, and that it leaves the policy
slots of all others alone, which link the shard's free list.

## Main definitions

* `Cache2.EvictionState.Holds` — the structure holds exactly the given slots, each once.
* `Cache2.SlotsKept` — what an operation leaves as it is in the policy slots.

## Main results

* `Cache2.EvictionState.Holds.insert`, `Cache2.EvictionState.Holds.remove`,
  `Cache2.EvictionState.Holds.detach`, `Cache2.EvictionState.Holds.restore`,
  `Cache2.EvictionState.Holds.select` — the operations.
-/

namespace Cache2

open Linked

/-! ## Marks -/

section Marks

/-- Replacing one field of the flags leaves another one alone. -/
lemma replace_and_of_disjoint {flags new mask field : BitVec 8} (hnew : new &&& field = 0#8)
    (hmask : ~~~mask &&& field = field) :
    (flags &&& ~~~mask ||| new) &&& field = flags &&& field := by
  rw [BitVec.and_or_distrib_right, BitVec.and_assoc, hmask, hnew, BitVec.or_zero]

/-- A masked value is outside other fields. -/
lemma and_mask_and_of_disjoint {new mask field : BitVec 8} (h : mask &&& field = 0#8) :
    (new &&& mask) &&& field = 0#8 := by
  rw [BitVec.and_assoc, h, BitVec.and_zero]

lemma PolicySlot.newClock_isResident (hash : BitVec 64) (visited : Bool) (position : ℕ) :
    (newClock hash visited position).isResident = true := by
  have hflags : ∀ visited, (residentBit ||| byteOfBool visited * clockVisitedBit) &&& residentBit !=
      0#8 := by decide
  exact hflags visited

lemma PolicySlot.newS3Fifo_marks (hash : BitVec 64) (kind : QueueKind) (frequency : BitVec 8) :
    (newS3Fifo hash kind frequency).isResident = true ∧
      (newS3Fifo hash kind frequency).s3FifoQueue = kind := by
  have hflags : ∀ field, s3FifoFrequencyMask &&& field = 0#8 →
      (newS3Fifo hash kind frequency).flags &&& field =
        (residentBit ||| byteOfBool (kind = .main) * s3FifoMainBit) &&& field := by
    intro field hfield
    simp only [newS3Fifo, BitVec.and_or_distrib_right, and_mask_and_of_disjoint hfield,
      BitVec.or_zero]
  refine ⟨?_, ?_⟩
  · rw [isResident, hflags _ (by decide)]
    cases kind <;> decide
  · rw [s3FifoQueue, hflags _ (by decide)]
    cases kind <;> decide

lemma PolicySlot.setClockVisited_isResident (slot : PolicySlot) (visited : Bool) :
    (slot.setClockVisited visited).isResident = slot.isResident := by
  unfold isResident setClockVisited
  rw [replace_and_of_disjoint (by cases visited <;> decide) (by decide)]

lemma PolicySlot.incrementS3FifoFrequency_marks (slot : PolicySlot) :
    slot.incrementS3FifoFrequency.isResident = slot.isResident ∧
      slot.incrementS3FifoFrequency.s3FifoQueue = slot.s3FifoQueue := by
  have hflags : ∀ flags : BitVec 8,
      let bumped := flags + byteOfBool ((flags &&& s3FifoFrequencyMask) != s3FifoFrequencyMask) <<<
        s3FifoFrequencyShift
      bumped &&& residentBit = flags &&& residentBit ∧
        bumped &&& s3FifoMainBit = flags &&& s3FifoMainBit := by decide +kernel
  unfold isResident s3FifoQueue incrementS3FifoFrequency
  rw [(hflags slot.flags).1, (hflags slot.flags).2]
  exact ⟨rfl, rfl⟩

lemma PolicySlot.setS3FifoFrequency_marks (slot : PolicySlot) (frequency : BitVec 8) :
    (slot.setS3FifoFrequency frequency).isResident = slot.isResident ∧
      (slot.setS3FifoFrequency frequency).s3FifoQueue = slot.s3FifoQueue := by
  unfold isResident s3FifoQueue setS3FifoFrequency
  rw [replace_and_of_disjoint (and_mask_and_of_disjoint (by decide)) (by decide),
    replace_and_of_disjoint (and_mask_and_of_disjoint (by decide)) (by decide)]
  exact ⟨rfl, rfl⟩

lemma PolicySlot.setS3FifoQueue_main (slot : PolicySlot) :
    (slot.setS3FifoQueue .main).isResident = slot.isResident ∧
      (slot.setS3FifoQueue .main).s3FifoQueue = .main := by
  unfold isResident s3FifoQueue setS3FifoQueue
  rw [replace_and_of_disjoint (by decide) (by decide)]
  refine ⟨rfl, if_neg ?_⟩
  rw [BitVec.and_or_distrib_right, BitVec.and_assoc,
    show ~~~s3FifoMainBit &&& s3FifoMainBit = 0#8 by
    decide, BitVec.and_zero]
  decide

end Marks

/-! ## Policy slots -/

section Slots

variable {slots : List PolicySlot} {i j : ℕ} {new : PolicySlot}

/-- Policy slots after an update. -/
lemma policySlot_set (h : i < slots.length) :
    policySlot (slots.set i new) j = if j = i then new else policySlot slots j := by
  unfold policySlot
  split_ifs with hj
  · subst hj
    simp [List.getD_eq_getElem?_getD, h]
  · simp [List.getD_eq_getElem?_getD, List.getElem?_set_ne (Ne.symm hj)]

/-- An update leaves other policy slots alone. -/
lemma policySlot_set_ne (h : j ≠ i) : policySlot (slots.set i new) j = policySlot slots j := by
  simp [policySlot, List.getD_eq_getElem?_getD, List.getElem?_set_ne (Ne.symm h)]

/-- What an operation on the residents `l` leaves as it is: the hashes of the residents, and every
other policy slot. -/
structure SlotsKept (l : List ℕ) (slots slots' : List PolicySlot) : Prop where
  /-- There are as many. -/
  length : slots'.length = slots.length
  /-- Those of other slots. -/
  outside : ∀ j ∉ l, policySlot slots' j = policySlot slots j
  /-- The hashes of residents. -/
  hash : ∀ j ∈ l, (policySlot slots' j).hash = (policySlot slots j).hash

/-- Nothing changes. -/
lemma SlotsKept.refl (l : List ℕ) (slots : List PolicySlot) : SlotsKept l slots slots :=
  ⟨rfl, fun _ _ => rfl, fun _ _ => rfl⟩

/-- One operation after another. -/
lemma SlotsKept.trans {l : List ℕ} {slots slots' slots'' : List PolicySlot}
    (h : SlotsKept l slots slots') (h' : SlotsKept l slots' slots'') : SlotsKept l slots slots'' :=
  ⟨h'.length.trans h.length, fun j hj => (h'.outside j hj).trans (h.outside j hj),
    fun j hj => (h'.hash j hj).trans (h.hash j hj)⟩

/-- The order of the residents does not matter. -/
lemma SlotsKept.perm {l l' : List ℕ} {slots' : List PolicySlot} (h : SlotsKept l slots slots')
    (hp : l.Perm l') : SlotsKept l' slots slots' :=
  ⟨h.length, fun j hj => h.outside j fun hm => hj (hp.subset hm),
    fun j hj => h.hash j (hp.symm.subset hj)⟩

/-- An update of a resident's marks. -/
lemma SlotsKept.set {l : List ℕ} (hi : i ∈ l) (hhash : new.hash = (policySlot slots i).hash) :
    SlotsKept l slots (slots.set i new) := by
  refine ⟨List.length_set, fun j hj => policySlot_set_ne ?_, fun j hj => ?_⟩
  · rintro rfl
    exact hj hi
  · by_cases hji : j = i
    · subst hji
      by_cases hlt : j < slots.length
      · rw [policySlot_set hlt, if_pos rfl, hhash]
      · rw [List.set_eq_of_length_le (Nat.le_of_not_lt hlt)]
    · rw [policySlot_set_ne hji]

end Slots

/-! ## CLOCK -/

/-- The CLOCK holds the slots `l`, and each of them knows its position. -/
structure ClockState.Holds (c : ClockState) (slots : List PolicySlot) (l : List ℕ) : Prop where
  /-- The residents. -/
  residents : c.residents = l
  /-- No resident occurs twice. -/
  nodup : l.Nodup
  /-- Residents know their positions. -/
  position : ∀ p i, l[p]? = some i → i < slots.length ∧ (policySlot slots i).isResident = true ∧
    (policySlot slots i).clockPosition = p

namespace ClockState

variable {c : ClockState} {slots : List PolicySlot} {l : List ℕ} {i : ℕ}

/-- `swap_remove` of the last element. -/
lemma swapRemove_last (a : List ℕ) (i : ℕ) : swapRemove (a ++ [i]) a.length = a := by
  rw [swapRemove, if_neg (by simp)]
  induction a with
  | nil => rfl
  | cons b a ih => simpa using ih

/-- `swap_remove` of another element puts the last one in its place. -/
lemma swapRemove_middle (a b : List ℕ) (i z : ℕ) :
    swapRemove (a ++ i :: (b ++ [z])) a.length = a ++ z :: b := by
  rw [swapRemove, if_pos (by simp)]
  have hlast : (a ++ i :: (b ++ [z])).getD ((a ++ i :: (b ++ [z])).length - 1) 0 = z := by
    rw [show a ++ i :: (b ++ [z]) = (a ++ i :: b) ++ [z] by simp]
    simp [List.getD_eq_getElem?_getD]
  rw [hlast, List.set_append_right _ _ (Nat.le_refl _), Nat.sub_self, List.set_cons_zero,
    show a ++ z :: (b ++ [z]) = (a ++ z :: b) ++ [z] by simp, List.dropLast_concat]

/-- A new resident at the end. -/
lemma Holds.insert (h : c.Holds slots l) (hi : i ∉ l) (hlt : i < slots.length) (hash : BitVec 64)
    (visited : Bool) :
    (c.insert slots i hash visited).1.Holds (c.insert slots i hash visited).2 (l ++ [i]) := by
  refine ⟨by simp [ClockState.insert, h.residents], ?_, fun p j hj => ?_⟩
  · rw [List.nodup_append]
    refine ⟨h.nodup, List.nodup_singleton i, ?_⟩
    rintro a ha b hb rfl
    exact hi (List.mem_singleton.1 hb ▸ ha)
  · simp only [ClockState.insert, List.length_set, h.residents]
    rw [policySlot_set hlt]
    by_cases hp : p < l.length
    · rw [List.getElem?_append_left hp] at hj
      have hne : j ≠ i := by
        rintro rfl
        exact hi (List.mem_of_getElem? hj)
      rw [if_neg hne]
      exact h.position p j hj
    · rw [List.getElem?_append_right (Nat.le_of_not_lt hp)] at hj
      obtain ⟨hzero, rfl⟩ : p - l.length = 0 ∧ i = j := by
        rcases hq : p - l.length with _ | q
        · rw [hq] at hj
          exact ⟨rfl, Option.some.inj hj⟩
        · rw [hq] at hj
          simp at hj
      rw [if_pos rfl]
      refine ⟨hlt, ?_, ?_⟩
      · exact PolicySlot.newClock_isResident _ _ _
      · show l.length = p
        omega

/-- The CLOCK without one of its residents. -/
lemma Holds.remove (h : c.Holds slots l) (hi : i ∈ l) :
    ∃ l', (c.remove slots i).1.Holds (c.remove slots i).2 l' ∧ l'.Perm (l.erase i) ∧
      SlotsKept (l.erase i) (slots.set i .default) (c.remove slots i).2 := by
  obtain ⟨a, b, rfl⟩ := List.append_of_mem hi
  have hnodup := h.nodup
  have hia : i ∉ a := fun hm => (List.nodup_append.1 hnodup).2.2 i hm i (by simp) rfl
  have hib : i ∉ b := (List.nodup_cons.1 (List.nodup_append.1 hnodup).2.1).1
  have herase : (a ++ i :: b).erase i = a ++ b := by
    rw [List.erase_append_right _ hia, List.erase_cons_head]
  obtain ⟨hlt, hres, hpos⟩ := h.position a.length i (by simp)
  rw [herase]
  rcases List.eq_nil_or_concat b with rfl | ⟨b, z, rfl⟩
  · -- the last resident: nothing moves
    have hremove : (c.remove slots i).2 = slots.set i .default ∧
        (c.remove slots i).1.residents = a := by
      simp [ClockState.remove, hpos, h.residents, swapRemove_last]
    rw [hremove.1, List.append_nil]
    refine ⟨a, ⟨hremove.2, (List.nodup_append.1 hnodup).1, fun p j hj => ?_⟩, .refl _,
      SlotsKept.refl _ _⟩
    have hne : j ≠ i := by
      rintro rfl
      exact hia (List.mem_of_getElem? hj)
    obtain ⟨hp, -⟩ := List.getElem?_eq_some_iff.1 hj
    rw [policySlot_set_ne hne, List.length_set]
    exact h.position p j (by rw [List.getElem?_append_left hp, hj])
  · -- the last resident takes the place
    simp only [List.concat_eq_append] at *
    have hz : z ≠ i := by
      rintro rfl
      exact hib (by simp)
    obtain ⟨hzlt, hzres, -⟩ := h.position (a.length + 1 + b.length) z (by
      rw [List.getElem?_append_right (by omega)]
      simp [show a.length + 1 + b.length - a.length = b.length + 1 by omega])
    have hremove : (c.remove slots i).2 =
        (slots.set z ((policySlot slots z).setClockPosition a.length)).set i .default ∧
        (c.remove slots i).1.residents = a ++ z :: b := by
      simp [ClockState.remove, hpos, h.residents, swapRemove_middle]
    have hperm : (a ++ z :: b).Perm (a ++ (b ++ [z])) :=
      List.Perm.append_left a (List.perm_append_singleton z b).symm
    have hnodup' : (a ++ z :: b).Nodup := by
      refine (hperm.nodup_iff).2 ?_
      exact hnodup.sublist ((List.Sublist.refl a).append (List.sublist_cons_self _ _))
    rw [hremove.1]
    refine ⟨a ++ z :: b, ⟨hremove.2, hnodup', fun p j hj => ?_⟩, hperm, ?_⟩
    · have hji : j ≠ i := by
        rintro rfl
        have := hperm.subset (List.mem_of_getElem? hj)
        simp only [List.mem_append, List.mem_singleton] at this
        rcases this with hm | hm | hm
        · exact hia hm
        · exact hib (by simp [hm])
        · exact hz hm.symm
      rw [policySlot_set_ne hji, policySlot_set hzlt, List.length_set, List.length_set]
      by_cases hjz : j = z
      · subst hjz
        rw [if_pos rfl]
        refine ⟨hzlt, hzres, ?_⟩
        obtain ⟨hp, hpj⟩ := List.getElem?_eq_some_iff.1 hj
        have hat : (a ++ j :: b)[a.length]? = some j := by simp
        obtain ⟨hq, hqj⟩ := List.getElem?_eq_some_iff.1 hat
        exact (List.Nodup.getElem_inj_iff hnodup').1 (hqj.trans hpj.symm)
      · rw [if_neg hjz]
        -- other residents keep their positions
        refine h.position p j ?_
        rcases Nat.lt_trichotomy p a.length with hp | hp | hp
        · rw [List.getElem?_append_left hp] at hj ⊢
          exact hj
        · subst hp
          simp at hj
          exact absurd hj.symm hjz
        · rw [List.getElem?_append_right (Nat.le_of_lt hp)] at hj ⊢
          obtain ⟨q, hq⟩ : ∃ q, p - a.length = q + 1 := ⟨p - a.length - 1, by omega⟩
          rw [hq, List.getElem?_cons_succ] at hj ⊢
          rw [List.getElem?_append_left (List.getElem?_eq_some_iff.1 hj).1]
          exact hj
    · refine ⟨by simp, fun j hj => ?_, fun j hj => ?_⟩
      · have hjz : j ≠ z := by
          rintro rfl
          exact hj (by simp)
        by_cases hji : j = i
        · subst hji
          rw [policySlot_set (by simpa using hlt), policySlot_set hlt, if_pos rfl, if_pos rfl]
        · rw [policySlot_set_ne hji, policySlot_set_ne hji, policySlot_set_ne hjz]
      · have hji : j ≠ i := by
          rintro rfl
          rcases List.mem_append.1 hj with hm | hm
          · exact hia hm
          · exact hib hm
        rw [policySlot_set_ne hji, policySlot_set_ne hji, policySlot_set hzlt]
        split_ifs with hjz
        · subst hjz
          rfl
        · rfl

end ClockState

/-! ## Selection -/

section Select

variable {ε : Type} {canReclaim : ε → ℕ → Bool × ε} {l : List ℕ} {slots slots' : List PolicySlot}
  {env env' : ε} {victim : Option ℕ}

/-- What a selection among the residents `l` does besides moving the hand or the queues: it changes
marks of residents, returns one of them or none, and asks about residents only. -/
structure Selected (canReclaim : ε → ℕ → Bool × ε) (l : List ℕ) (slots : List PolicySlot) (env : ε)
    (victim : Option ℕ) (slots' : List PolicySlot) (env' : ε) : Prop where
  /-- The policy slots. -/
  kept : SlotsKept l slots slots'
  /-- The victim. -/
  mem : ∀ i, victim = some i → i ∈ l
  /-- What every question keeps is kept. -/
  asks : ∀ P : ε → Prop, (∀ e, ∀ i ∈ l, P e → P (canReclaim e i).2) → P env → P env'

/-- No victim was found. -/
lemma Selected.none : Selected canReclaim l slots env none slots env :=
  ⟨SlotsKept.refl l slots, fun _ h => by simp at h, fun _ _ h => h⟩

/-- A resident that can be reclaimed is the victim. -/
lemma Selected.found {i : ℕ} (hi : i ∈ l) :
    Selected canReclaim l slots env (some i) slots (canReclaim env i).2 :=
  ⟨SlotsKept.refl l slots, fun _ h => Option.some.inj h ▸ hi, fun _ h hp => h _ i hi hp⟩

/-- A step that changes marks, before the rest. -/
lemma Selected.mark {slots₁ : List PolicySlot} (hkept : SlotsKept l slots slots₁)
    (h : Selected canReclaim l slots₁ env victim slots' env') :
    Selected canReclaim l slots env victim slots' env' :=
  ⟨hkept.trans h.kept, h.mem, h.asks⟩

/-- A step that asks, before the rest. -/
lemma Selected.ask {i : ℕ} (hi : i ∈ l)
    (h : Selected canReclaim l slots (canReclaim env i).2 victim slots' env') :
    Selected canReclaim l slots env victim slots' env' :=
  ⟨h.kept, h.mem, fun P hP hp => h.asks P hP (hP _ i hi hp)⟩

/-- The order of the residents does not matter. -/
lemma Selected.perm {l' : List ℕ} (h : Selected canReclaim l slots env victim slots' env')
    (hp : l.Perm l') : Selected canReclaim l' slots env victim slots' env' :=
  ⟨h.kept.perm hp, fun i hi => hp.subset (h.mem i hi), fun P hP =>
    h.asks P fun e i hi => hP e i (hp.subset hi)⟩

end Select

namespace ClockState

variable {c : ClockState} {slots : List PolicySlot} {l : List ℕ} {i : ℕ} {ε : Type}

/-- The hand does not matter. -/
lemma Holds.withHand (h : c.Holds slots l) (hand : ℕ) :
    ({ c with hand } : ClockState).Holds slots l := ⟨h.residents, h.nodup, h.position⟩

/-- The marks of a resident change. -/
lemma Holds.mark (h : c.Holds slots l) (visited : Bool) :
    c.Holds (slots.set i ((policySlot slots i).setClockVisited visited)) l := by
  refine ⟨h.residents, h.nodup, fun p j hj => ?_⟩
  obtain ⟨hlt, hresident, hpos⟩ := h.position p j hj
  rw [List.length_set]
  refine ⟨hlt, ?_⟩
  by_cases hji : j = i
  · subst hji
    rw [policySlot_set hlt, if_pos rfl, PolicySlot.setClockVisited_isResident]
    exact ⟨hresident, hpos⟩
  · rw [policySlot_set_ne hji]
    exact ⟨hresident, hpos⟩

/-- A selection keeps the residents. -/
lemma Holds.selectLoop (canReclaim : ε → ℕ → Bool × ε) (steps : ℕ) (h : c.Holds slots l)
    (remaining : ℕ) (env : ε) :
    let result := ClockState.selectLoop canReclaim steps c slots remaining env
    result.2.1.Holds result.2.2.1 l ∧
      Selected canReclaim l slots env result.1 result.2.2.1 result.2.2.2.2 := by
  induction steps generalizing c slots remaining env with
  | zero => exact ⟨h, .none⟩
  | succ steps ih =>
    rw [ClockState.selectLoop]
    by_cases hstop : c.residents.isEmpty ∨ remaining = 0
    · rw [if_pos hstop]
      exact ⟨h, .none⟩
    rw [if_neg hstop]
    have hpos : 0 < c.residents.length := by
      rw [List.length_pos_iff]
      exact fun hnil => hstop (.inl (by simp [hnil]))
    have hmem : c.residents.getD (if c.hand < c.residents.length then c.hand else 0) 0 ∈ l := by
      have hlt : (if c.hand < c.residents.length then c.hand else 0) < c.residents.length := by
        split <;> omega
      rw [← h.residents, List.getD_eq_getElem?_getD, List.getElem?_eq_getElem hlt,
        Option.getD_some]
      exact List.getElem_mem _
    generalize hposition : (if c.hand < c.residents.length then c.hand else 0) = position at hmem ⊢
    generalize hindex : c.residents.getD position 0 = index at hmem ⊢
    have hhand := h.withHand (if position + 1 = c.residents.length then 0 else position + 1)
    simp only [hindex]
    by_cases hvisited : (policySlot slots index).clockVisited
    · rw [if_pos hvisited]
      obtain ⟨hholds, hselected⟩ := ih (hhand.mark (i := index) false) (remaining - 1) env
      exact ⟨hholds, hselected.mark (.set hmem (by rfl))⟩
    · rw [if_neg hvisited]
      by_cases hreclaim : (canReclaim env index).1
      · rw [if_pos hreclaim]
        exact ⟨hhand, .found hmem⟩
      · rw [if_neg hreclaim]
        obtain ⟨hholds, hselected⟩ := ih hhand (remaining - 1) (canReclaim env index).2
        exact ⟨hholds, hselected.ask hmem⟩

/-- The last question of a selection that finds a victim was about the victim. -/
lemma selectLoop_reclaimable (canReclaim : ε → ℕ → Bool × ε) (steps : ℕ) :
    ∀ {c : ClockState} {slots : List PolicySlot} {remaining : ℕ} {env : ε} {i : ℕ},
      (selectLoop canReclaim steps c slots remaining env).1 = some i →
      ∃ asked, canReclaim asked i =
        (true, (selectLoop canReclaim steps c slots remaining env).2.2.2.2) := by
  induction steps with
  | zero => exact fun h => by cases h
  | succ steps ih =>
    intro c slots remaining env i h
    rw [selectLoop] at h ⊢
    by_cases hstop : c.residents.isEmpty ∨ remaining = 0
    · rw [if_pos hstop] at h
      cases h
    rw [if_neg hstop] at h ⊢
    simp only at h ⊢
    generalize (if c.hand < c.residents.length then c.hand else 0) = position at h ⊢
    generalize (if position + 1 = c.residents.length then 0 else position + 1) = hand at h ⊢
    split_ifs at h ⊢ with hvisited hreclaim
    · exact ih h
    · obtain rfl := Option.some.inj h
      exact ⟨env, Prod.ext hreclaim rfl⟩
    · exact ih h

end ClockState

/-! ## Linked queues -/

section Links

variable {links : List S3FifoLink} {i j : ℕ}

/-- The node before, by the links. -/
def previousOf (links : List S3FifoLink) (index : ℕ) : ℕ := (s3FifoLink links index).previous

/-- The node after, by the links. -/
def nextOf (links : List S3FifoLink) (index : ℕ) : ℕ := (s3FifoLink links index).next

/-- Links after an update. -/
lemma s3FifoLink_set (h : i < links.length) (new : S3FifoLink) :
    s3FifoLink (links.set i new) j = if j = i then new else s3FifoLink links j := by
  unfold s3FifoLink
  split_ifs with hj
  · subst hj
    simp [List.getD_eq_getElem?_getD, h]
  · simp [List.getD_eq_getElem?_getD, List.getElem?_set_ne (Ne.symm hj)]

/-- Links after `links[index].next = next`. -/
lemma s3FifoLink_setNext (h : i < links.length) (next : ℕ) :
    s3FifoLink (setNext links i next) j =
      if j = i then { s3FifoLink links i with next } else s3FifoLink links j :=
  s3FifoLink_set h _

/-- Links after `links[index].previous = previous`. -/
lemma s3FifoLink_setPrevious (h : i < links.length) (previous : ℕ) :
    s3FifoLink (setPrevious links i previous) j =
      if j = i then { s3FifoLink links i with previous } else s3FifoLink links j :=
  s3FifoLink_set h _

end Links

section Lists

variable {links : List S3FifoLink} {head tail i : ℕ} {l : List ℕ}

/-- A list of linked nodes. -/
def Links (links : List S3FifoLink) (head tail : ℕ) (l : List ℕ) : Prop :=
  DList (previousOf links) (nextOf links) noPolicySlot head tail l ∧ ∀ i ∈ l, i < links.length

/-- A list only depends on the links of its nodes. -/
lemma Links.congr {links' : List S3FifoLink} (h : Links links head tail l)
    (hlen : links'.length = links.length)
    (heq : ∀ j ∈ l, s3FifoLink links' j = s3FifoLink links j) : Links links' head tail l :=
  ⟨h.1.congr (fun j hj => by rw [nextOf, nextOf, heq j hj])
    (fun j hj => by rw [previousOf, previousOf, heq j hj]), fun j hj => hlen ▸ h.2 j hj⟩

/-- Every link after a node has come to the end of a list. -/
lemma s3FifoLink_linkBack (h : Links links head tail l) (hi : i ∉ l) (hlt : i < links.length)
    (weight j : ℕ) : s3FifoLink (linkBack links tail i weight) j =
      if j = i then ⟨tail, noPolicySlot, weight⟩
      else if j = tail ∧ tail ≠ noPolicySlot then { s3FifoLink links j with next := i }
      else s3FifoLink links j := by
  unfold linkBack
  by_cases hnil : tail = noPolicySlot
  · simp only [hnil, ne_eq, not_true_eq_false, and_false, if_false, if_true]
    rw [s3FifoLink_set hlt]
  · have hmem := h.1.tail_mem hnil
    have htne : tail ≠ i := fun he => hi (he ▸ hmem)
    simp only [hnil, ne_eq, not_false_eq_true, and_true, if_false]
    rw [s3FifoLink_setNext (by simpa using h.2 _ hmem), s3FifoLink_set hlt, if_neg htne,
      s3FifoLink_set hlt]
    by_cases hj : j = tail
    · subst hj
      simp [htne]
    · simp [hj]

@[simp] lemma length_linkBack (links : List S3FifoLink) (tail index weight : ℕ) :
    (linkBack links tail index weight).length = links.length := by
  unfold linkBack
  split_ifs <;> simp [setNext]

@[simp] lemma length_unlinkNode (links : List S3FifoLink) (index : ℕ) :
    (unlinkNode links index).length = links.length := by
  simp only [unlinkNode]
  split_ifs <;> simp [setNext, setPrevious]

/-- A new node at the end. -/
lemma Links.linkBack (h : Links links head tail l) (hi : i ∉ l) (hlt : i < links.length)
    (hne : i ≠ noPolicySlot) (weight : ℕ) :
    Links (linkBack links tail i weight) (if tail = noPolicySlot then i else head) i (l ++ [i]) ∧
      ∀ j ∉ l, j ≠ i → s3FifoLink (Cache2.linkBack links tail i weight) j = s3FifoLink links j := by
  have hlink := s3FifoLink_linkBack h hi hlt weight
  refine ⟨⟨h.1.pushBack hi hne ?_ ?_ ?_ ?_, ?_⟩, fun j hj hji => ?_⟩
  · rw [nextOf, hlink, if_pos rfl]
  · rw [previousOf, hlink, if_pos rfl]
  · intro j hj
    have hji : j ≠ i := fun he => hi (he ▸ hj)
    have hnil : j = tail → tail ≠ noPolicySlot := by
      rintro rfl hn
      exact h.1.nil_notMem (hn ▸ hj)
    rw [nextOf, nextOf, hlink, if_neg hji]
    by_cases hjt : j = tail
    · rw [if_pos ⟨hjt, hnil hjt⟩, if_pos hjt]
    · rw [if_neg (fun hc => hjt hc.1), if_neg hjt]
  · intro j hj
    have hji : j ≠ i := fun he => hi (he ▸ hj)
    rw [previousOf, previousOf, hlink, if_neg hji]
    split_ifs <;> rfl
  · intro j hj
    rw [length_linkBack]
    rcases List.mem_append.1 hj with hj | hj
    · exact h.2 j hj
    · exact List.mem_singleton.1 hj ▸ hlt
  · rw [hlink, if_neg hji, if_neg]
    rintro ⟨rfl, hnil⟩
    exact hj (h.1.tail_mem hnil)

/-- The neighbours of a node are nodes. -/
lemma Links.neighbours {a b : List ℕ} (h : Links links head tail (a ++ i :: b)) :
    (previousOf links i ≠ noPolicySlot → previousOf links i ∈ a) ∧
      (nextOf links i ≠ noPolicySlot → nextOf links i ∈ b) := by
  obtain ⟨k, -, rfl, hnext⟩ := seg_append.1 h.1.forward
  have hback := h.1.backward
  rw [List.reverse_append, List.reverse_cons, List.append_assoc, List.singleton_append] at hback
  obtain ⟨k', -, hk', hprev⟩ := seg_append.1 hback
  obtain rfl : k' = k := hk'
  exact ⟨fun hne => List.mem_reverse.1 (hprev.start_mem hne), fun hne => hnext.start_mem hne⟩

/-- Every link after the neighbours of a node have been linked to each other. -/
lemma s3FifoLink_unlinkNode {a b : List ℕ} (h : Links links head tail (a ++ i :: b)) (j : ℕ) :
    s3FifoLink (unlinkNode links i) j =
      { previous := if j = nextOf links i ∧ nextOf links i ≠ noPolicySlot then previousOf links i
          else previousOf links j
        next := if j = previousOf links i ∧ previousOf links i ≠ noPolicySlot then nextOf links i
          else nextOf links j
        weight := (s3FifoLink links j).weight } := by
  obtain ⟨hp, hn⟩ := h.neighbours
  have hplt : previousOf links i ≠ noPolicySlot → previousOf links i < links.length := fun hne =>
    h.2 _ (List.mem_append_left _ (hp hne))
  have hnlt : nextOf links i ≠ noPolicySlot → nextOf links i < links.length := fun hne =>
    h.2 _ (List.mem_append_right _ (List.mem_cons_of_mem _ (hn hne)))
  have hunlink : unlinkNode links i =
      if nextOf links i = noPolicySlot then
        if previousOf links i = noPolicySlot then links
        else setNext links (previousOf links i) (nextOf links i)
      else setPrevious (if previousOf links i = noPolicySlot then links
        else setNext links (previousOf links i) (nextOf links i)) (nextOf links i)
          (previousOf links i) := rfl
  rw [hunlink]
  generalize hprev : previousOf links i = p at *
  generalize hnext : nextOf links i = n at *
  by_cases hpnil : p = noPolicySlot <;> by_cases hnnil : n = noPolicySlot
  · simp only [hpnil, hnnil, ne_eq, not_true_eq_false, and_false, if_false, if_true]
    rfl
  · simp only [hpnil, hnnil, ne_eq, not_true_eq_false, not_false_eq_true, and_false, and_true,
      if_false, if_true]
    rw [s3FifoLink_setPrevious (hnlt hnnil)]
    split_ifs with hj
    · subst hj
      rfl
    · rfl
  · simp only [hpnil, hnnil, ne_eq, not_true_eq_false, not_false_eq_true, and_false, and_true,
      if_false, if_true]
    rw [s3FifoLink_setNext (hplt hpnil)]
    split_ifs with hj
    · subst hj
      rfl
    · rfl
  · simp only [hpnil, hnnil, ne_eq, not_false_eq_true, and_true, if_false]
    rw [s3FifoLink_setPrevious (by simpa [setNext] using hnlt hnnil),
      s3FifoLink_setNext (hplt hpnil), s3FifoLink_setNext (hplt hpnil)]
    -- the neighbours may be one node, whose links are both set
    by_cases hjn : j = n
    · by_cases hnp : n = p
      · subst hjn hnp
        simp
      · subst hjn
        simp [hnp, nextOf]
    · by_cases hjp : j = p
      · subst hjp
        simp [hjn, previousOf]
      · simp [hjn, hjp, previousOf, nextOf]

/-- The list without one of its nodes. -/
lemma Links.unlinkNode {a b : List ℕ} (h : Links links head tail (a ++ i :: b))
    (new : S3FifoLink) :
    Links ((unlinkNode links i).set i new)
        (if previousOf links i = noPolicySlot then nextOf links i else head)
        (if nextOf links i = noPolicySlot then previousOf links i else tail) (a ++ b) ∧
      ∀ j ∉ a ++ i :: b,
        s3FifoLink ((Cache2.unlinkNode links i).set i new) j = s3FifoLink links j := by
  have hlt : i < links.length := h.2 i (by simp)
  have hnotin : i ∉ a ++ b := by
    have := h.1.nodup
    rw [List.nodup_middle, List.nodup_cons] at this
    exact this.1
  have hnilnot : ∀ j ∈ a ++ b, j ≠ noPolicySlot := by
    rintro j hj rfl
    refine h.1.nil_notMem ?_
    simp only [List.mem_append, List.mem_cons] at hj ⊢
    tauto
  have hlink : ∀ j, j ≠ i → s3FifoLink ((Cache2.unlinkNode links i).set i new) j =
      s3FifoLink (Cache2.unlinkNode links i) j := by
    intro j hj
    rw [s3FifoLink_set (by simpa using hlt), if_neg hj]
  refine ⟨⟨h.1.remove (fun j hj => ?_) (fun j hj => ?_), fun j hj => ?_⟩, fun j hj => ?_⟩
  · have hji : j ≠ i := fun he => hnotin (he ▸ hj)
    rw [nextOf, hlink j hji, s3FifoLink_unlinkNode h]
    by_cases hjp : j = previousOf links i
    · simp [← hjp, hnilnot j hj]
    · simp [hjp]
  · have hji : j ≠ i := fun he => hnotin (he ▸ hj)
    rw [previousOf, hlink j hji, s3FifoLink_unlinkNode h]
    by_cases hjn : j = nextOf links i
    · simp [← hjn, hnilnot j hj]
    · simp [hjn]
  · rw [List.length_set, length_unlinkNode]
    refine h.2 j ?_
    simp only [List.mem_append, List.mem_cons] at hj ⊢
    tauto
  · have hji : j ≠ i := by
      rintro rfl
      exact hj (by simp)
    obtain ⟨hp, hn⟩ := h.neighbours
    rw [hlink j hji, s3FifoLink_unlinkNode h, if_neg, if_neg]
    · rfl
    · rintro ⟨rfl, hne⟩
      exact hj (List.mem_append_left _ (hp hne))
    · rintro ⟨rfl, hne⟩
      exact hj (List.mem_append_right _ (List.mem_cons_of_mem _ (hn hne)))

end Lists

/-! ## S3-FIFO -/

/-- The nodes of both queues. -/
def members (q : QueueKind → List ℕ) : List ℕ := q .small ++ q .main

/-- The queues hold the given nodes. -/
structure S3FifoState.Queues (s : S3FifoState) (q : QueueKind → List ℕ) : Prop where
  /-- Each queue is linked. -/
  links : ∀ kind, Links s.links (s.queue kind).head (s.queue kind).tail (q kind)
  /-- No node is in both. -/
  disjoint : ∀ i k k', i ∈ q k → i ∈ q k' → k = k'

/-- The queues hold the given nodes, and the policy slots know it. -/
structure S3FifoState.Holds (s : S3FifoState) (slots : List PolicySlot) (q : QueueKind → List ℕ) :
    Prop where
  /-- The queues. -/
  queues : s.Queues q
  /-- There is a link for every slot. -/
  length : s.links.length = slots.length
  /-- The marks. -/
  marks : ∀ k, ∀ i ∈ q k,
    (policySlot slots i).isResident = true ∧ (policySlot slots i).s3FifoQueue = k

section Members

variable {q : QueueKind → List ℕ} {kind : QueueKind} {i : ℕ}

lemma mem_members : i ∈ members q ↔ ∃ k, i ∈ q k := by
  rw [members, List.mem_append]
  constructor
  · rintro (h | h)
    · exact ⟨.small, h⟩
    · exact ⟨.main, h⟩
  · rintro ⟨k, h⟩
    cases k
    · exact .inl h
    · exact .inr h

/-- A new node. -/
lemma members_push (q : QueueKind → List ℕ) (kind : QueueKind) (i : ℕ) :
    (members (Function.update q kind (q kind ++ [i]))).Perm (i :: members q) := by
  cases kind with
  | small =>
    simp only [members, Function.update_self, ne_eq, reduceCtorEq, not_false_eq_true,
      Function.update_of_ne, List.append_assoc, List.singleton_append]
    exact List.perm_middle
  | main =>
    simp only [members, Function.update_self, ne_eq, reduceCtorEq, not_false_eq_true,
      Function.update_of_ne, ← List.append_assoc]
    exact List.perm_append_singleton i _

/-- A node fewer. -/
lemma members_erase (hdisjoint : ∀ k, i ∈ q k → k = kind) :
    members (Function.update q kind ((q kind).erase i)) = (members q).erase i := by
  cases kind with
  | small =>
    have hmain : i ∉ q .main := fun h => by cases hdisjoint .main h
    by_cases hsmall : i ∈ q .small
    · simp [members, List.erase_append_left _ hsmall]
    · simp [members, List.erase_append_right _ hsmall, List.erase_of_not_mem, hsmall, hmain]
  | main =>
    have hsmall : i ∉ q .small := fun h => by cases hdisjoint .small h
    simp [members, List.erase_append_right _ hsmall]

end Members

namespace S3FifoState

variable {s : S3FifoState} {slots : List PolicySlot} {q : QueueKind → List ℕ} {kind : QueueKind}
  {i : ℕ}

lemma queue_setQueue (s : S3FifoState) (kind k : QueueKind)
    (updated : PolicyQueue × List S3FifoLink) :
    (s.setQueue kind updated).queue k = if k = kind then updated.1 else s.queue k := by
  cases kind <;> cases k <;> rfl

lemma links_setQueue (s : S3FifoState) (kind : QueueKind)
    (updated : PolicyQueue × List S3FifoLink) : (s.setQueue kind updated).links = updated.2 := by
  cases kind <;> rfl

/-- One of the queues changes, and the links of the other one stay. -/
lemma Queues.setQueue (h : s.Queues q) {updated : PolicyQueue × List S3FifoLink} {l : List ℕ}
    (hl : Links updated.2 updated.1.head updated.1.tail l)
    (hlen : updated.2.length = s.links.length)
    (hsame : ∀ k, k ≠ kind → ∀ j ∈ q k, s3FifoLink updated.2 j = s3FifoLink s.links j)
    (hdis : ∀ j ∈ l, ∀ k, j ∈ q k → k = kind) :
    (s.setQueue kind updated).Queues (Function.update q kind l) := by
  refine ⟨fun k => ?_, fun j k k' hk hk' => ?_⟩
  · rw [queue_setQueue, links_setQueue]
    by_cases hk : k = kind
    · subst hk
      rw [if_pos rfl, Function.update_self]
      exact hl
    · rw [if_neg hk, Function.update_of_ne hk]
      exact (h.links k).congr hlen (hsame k hk)
  · by_cases hkk : k = kind <;> by_cases hkk' : k' = kind
    · rw [hkk, hkk']
    · subst hkk
      rw [Function.update_self] at hk
      rw [Function.update_of_ne hkk'] at hk'
      exact (hdis j hk k' hk').symm
    · subst hkk'
      rw [Function.update_self] at hk'
      rw [Function.update_of_ne hkk] at hk
      exact hdis j hk' k hk
    · rw [Function.update_of_ne hkk] at hk
      rw [Function.update_of_ne hkk'] at hk'
      exact h.disjoint j k k' hk hk'

/-- A new node at the end of a queue. -/
lemma Queues.pushBack (h : s.Queues q) (hi : ∀ k, i ∉ q k) (hlt : i < s.links.length)
    (hne : i ≠ noPolicySlot) (weight : ℕ) :
    (s.pushBack kind i weight).Queues (Function.update q kind (q kind ++ [i])) := by
  obtain ⟨hlinks, hother⟩ := (h.links kind).linkBack (hi kind) hlt hne weight
  refine h.setQueue hlinks (length_linkBack _ _ _ _) (fun k hk j hj => ?_) (fun j hj k hjk => ?_)
  · refine hother j (fun hm => hk (h.disjoint j k kind hj hm)) ?_
    rintro rfl
    exact hi k hj
  · rcases List.mem_append.1 hj with hj | hj
    · exact h.disjoint j k kind hjk hj
    · exact absurd (List.mem_singleton.1 hj ▸ hjk) (hi k)

/-- A queue without one of its nodes. -/
lemma Queues.removeFrom (h : s.Queues q) (hi : i ∈ q kind) :
    (s.removeFrom kind i).2.Queues (Function.update q kind ((q kind).erase i)) := by
  obtain ⟨a, b, hab⟩ := List.append_of_mem hi
  have hlist := h.links kind
  have hnodup := hlist.1.nodup
  rw [hab] at hlist hnodup
  have hia : i ∉ a := fun hm => (List.nodup_append.1 hnodup).2.2 i hm i (by simp) rfl
  have herase : (q kind).erase i = a ++ b := by
    rw [hab, List.erase_append_right _ hia, List.erase_cons_head]
  obtain ⟨hlinks, hother⟩ := hlist.unlinkNode .default
  rw [herase]
  refine h.setQueue hlinks ?_ (fun k hk j hj => ?_) (fun j hj k hjk => ?_)
  · show ((unlinkNode s.links i).set i .default).length = s.links.length
    simp
  · exact hother j fun hm => hk (h.disjoint j k kind hj (hab ▸ hm))
  · refine h.disjoint j k kind hjk ?_
    rw [hab]
    simp only [List.mem_append, List.mem_cons] at hj ⊢
    tauto

lemma length_links_pushBack (s : S3FifoState) (kind : QueueKind) (i weight : ℕ) :
    (s.pushBack kind i weight).links.length = s.links.length := by
  rw [S3FifoState.pushBack, links_setQueue]
  exact length_linkBack _ _ _ _

lemma length_links_removeFrom (s : S3FifoState) (kind : QueueKind) (i : ℕ) :
    (s.removeFrom kind i).2.links.length = s.links.length := by
  show ((s.setQueue kind _).links).length = _
  rw [links_setQueue]
  show ((unlinkNode s.links i).set i .default).length = s.links.length
  simp

/-- The queues do not depend on the hashes that were evicted. -/
lemma Holds.withGhost (h : s.Holds slots q) (ghost : GhostQueue) :
    ({ s with ghost } : S3FifoState).Holds slots q :=
  ⟨⟨fun
      | .small => h.queues.links .small
      | .main => h.queues.links .main, h.queues.disjoint⟩, h.length, h.marks⟩

/-- A new resident at the end of a queue. -/
lemma Holds.push (h : s.Holds slots q) (hi : ∀ k, i ∉ q k) (hlt : i < slots.length)
    (hne : i ≠ noPolicySlot) (weight : ℕ) {new : PolicySlot} (hresident : new.isResident = true)
    (hkind : new.s3FifoQueue = kind) :
    (s.pushBack kind i weight).Holds (slots.set i new)
      (Function.update q kind (q kind ++ [i])) := by
  refine ⟨h.queues.pushBack hi (h.length ▸ hlt) hne weight, ?_, fun k j hj => ?_⟩
  · rw [length_links_pushBack, h.length, List.length_set]
  · rw [policySlot_set hlt]
    by_cases hji : j = i
    · subst hji
      rw [if_pos rfl]
      refine ⟨hresident, ?_⟩
      by_cases hk : k = kind
      · rw [hk, hkind]
      · rw [Function.update_of_ne hk] at hj
        exact absurd hj (hi k)
    · rw [if_neg hji]
      refine h.marks k j ?_
      by_cases hk : k = kind
      · subst hk
        simpa [Function.update_self, hji] using hj
      · rwa [Function.update_of_ne hk] at hj

/-- A resident fewer; its policy slot no longer matters. -/
lemma Holds.take (h : s.Holds slots q) (hi : i ∈ q kind) (new : PolicySlot) :
    (s.removeFrom kind i).2.Holds (slots.set i new)
      (Function.update q kind ((q kind).erase i)) := by
  refine ⟨h.queues.removeFrom hi, ?_, fun k j hj => ?_⟩
  · rw [length_links_removeFrom, h.length, List.length_set]
  · have hmem : j ∈ q k ∧ j ≠ i := by
      by_cases hk : k = kind
      · subst hk
        rw [Function.update_self, (h.queues.links k).1.nodup.mem_erase_iff] at hj
        exact ⟨hj.2, hj.1⟩
      · rw [Function.update_of_ne hk] at hj
        refine ⟨hj, ?_⟩
        rintro rfl
        exact hk (h.queues.disjoint j k kind hj hi)
    rw [policySlot_set_ne hmem.2]
    exact h.marks k j hmem.1

/-- Residents have policy slots, and their indices end no list. -/
lemma Holds.lt (h : s.Holds slots q) (hi : i ∈ q kind) : i < slots.length ∧ i ≠ noPolicySlot := by
  refine ⟨h.length ▸ (h.queues.links kind).2 i hi, ?_⟩
  rintro rfl
  exact (h.queues.links kind).1.nil_notMem hi

/-- A resident is taken out of the queue that its marks name. -/
lemma Holds.takeResident {l : List ℕ} (h : s.Holds slots q)
    (hperm : (members q).Perm l) (hi : i ∈ l) :
    ∃ q', (s.removeFrom (policySlot slots i).s3FifoQueue i).2.Holds (slots.set i .default) q' ∧
      (members q').Perm (l.erase i) := by
  obtain ⟨k, hk⟩ := mem_members.1 (hperm.symm.subset hi)
  rw [(h.marks k i hk).2]
  refine ⟨_, h.take hk .default, ?_⟩
  rw [members_erase fun k' hk' => h.queues.disjoint i k' k hk' hk]
  exact hperm.erase i

/-- Nothing of the taken node remains. -/
lemma notMem_update_erase (h : s.Queues q) (hi : i ∈ q kind) (k : QueueKind) :
    i ∉ Function.update q kind ((q kind).erase i) k := by
  by_cases hk : k = kind
  · subst hk
    rw [Function.update_self, (h.links k).1.nodup.mem_erase_iff]
    exact fun hm => hm.1 rfl
  · rw [Function.update_of_ne hk]
    exact fun hm => hk (h.disjoint i k kind hm hi)

/-- The nodes of both queues, after one of them has been taken and come back. -/
lemma members_erase_push (h : s.Queues q) (hi : i ∈ q kind) (kind' : QueueKind) :
    (members (Function.update (Function.update q kind ((q kind).erase i)) kind'
      (Function.update q kind ((q kind).erase i) kind' ++ [i]))).Perm (members q) := by
  refine (members_push _ _ _).trans ?_
  rw [members_erase fun k hk => h.disjoint i k kind hk hi]
  exact (List.perm_cons_erase (mem_members.2 ⟨kind, hi⟩)).symm

/-- An entry of the small queue is promoted. -/
lemma Holds.promote (h : s.Holds slots q) (hi : i ∈ q .small) :
    ∃ q', (s.promote slots i).1.Holds (s.promote slots i).2 q' ∧
      (members q').Perm (members q) ∧ SlotsKept (members q) slots (s.promote slots i).2 := by
  obtain ⟨hlt, hne⟩ := h.lt hi
  have hmarks := PolicySlot.setS3FifoQueue_main (policySlot slots i)
  refine ⟨_, ?_, members_erase_push h.queues hi .main,
    SlotsKept.set (mem_members.2 ⟨_, hi⟩) rfl⟩
  have hpush := (h.take hi .default).push (notMem_update_erase h.queues hi) (by simpa using hlt) hne
    (s.removeFrom .small i).1 (hmarks.1.trans (h.marks .small i hi).1) hmarks.2
  rwa [List.set_set] at hpush

/-- An entry of the main queue moves to its end. -/
lemma Holds.rotate (h : s.Holds slots q) (hi : i ∈ q .main) :
    ∃ q', (s.rotate i).Holds slots q' ∧ (members q').Perm (members q) := by
  obtain ⟨hlt, hne⟩ := h.lt hi
  by_cases htail : s.main.tail = i
  · refine ⟨q, ?_, .refl _⟩
    rw [S3FifoState.rotate, PolicyQueue.moveToBack, if_pos htail]
    exact h
  · refine ⟨_, ?_, members_erase_push h.queues hi .main⟩
    have hrotate : s.rotate i =
        (s.removeFrom .main i).2.pushBack .main i (s.removeFrom .main i).1 := by
      rw [S3FifoState.rotate, PolicyQueue.moveToBack, if_neg htail]
      rfl
    have hpush := (h.take hi .default).push (notMem_update_erase h.queues hi) (by simpa using hlt)
      hne (s.removeFrom .main i).1 (h.marks .main i hi).1 (h.marks .main i hi).2
    rw [List.set_set, show slots.set i (policySlot slots i) = slots by
      rw [policySlot, List.getD_eq_getElem?_getD, List.getElem?_eq_getElem hlt, Option.getD_some,
        List.set_getElem_self]] at hpush
    rw [hrotate]
    exact hpush

/-- The marks of a resident change. -/
lemma Holds.mark (h : s.Holds slots q) (hi : i ∈ q kind) {new : PolicySlot}
    (hresident : new.isResident = (policySlot slots i).isResident)
    (hkind : new.s3FifoQueue = (policySlot slots i).s3FifoQueue) :
    s.Holds (slots.set i new) q := by
  refine ⟨h.queues, by rw [h.length, List.length_set], fun k j hj => ?_⟩
  rw [policySlot_set (h.lt hi).1]
  split_ifs with hji
  · subst hji
    rw [hresident, hkind]
    exact h.marks k j hj
  · exact h.marks k j hj

/-- The front of a queue is one of its nodes. -/
lemma Queues.front (h : s.Queues q) (hfront : (s.queue kind).front = some i) : i ∈ q kind := by
  rw [PolicyQueue.front] at hfront
  split at hfront
  · cases hfront
  · rename_i hne
    exact Option.some.inj hfront ▸ (h.links kind).1.head_mem hne

/-- A selection keeps the residents, but not their order. -/
lemma Holds.selectLoop {ε : Type} (canReclaim : ε → ℕ → Bool × ε) (steps : ℕ)
    (h : s.Holds slots q) (preferSmall : Bool) (remaining : ℕ) (env : ε) :
    let result := S3FifoState.selectLoop canReclaim steps preferSmall s slots remaining env
    ∃ q', result.2.1.Holds result.2.2.1 q' ∧ (members q').Perm (members q) ∧
      Selected canReclaim (members q) slots env result.1 result.2.2.1 result.2.2.2.2 := by
  induction steps generalizing s slots q preferSmall remaining env with
  | zero => exact ⟨q, h, .refl _, .none⟩
  | succ steps ih =>
    rw [S3FifoState.selectLoop]
    by_cases hstop : remaining = 0
    · rw [if_pos hstop]
      exact ⟨q, h, .refl _, .none⟩
    rw [if_neg hstop]
    -- what follows a step that keeps the residents up to their order
    have hnext : ∀ {s' slots' q'} (preferSmall' : Bool) (env' : ε), s'.Holds slots' q' →
        (members q').Perm (members q) →
        let result := S3FifoState.selectLoop canReclaim steps preferSmall' s' slots'
          (remaining - 1) env'
        ∃ q'', result.2.1.Holds result.2.2.1 q'' ∧ (members q'').Perm (members q) ∧
          Selected canReclaim (members q) slots' env' result.1 result.2.2.1 result.2.2.2.2 := by
      intro s' slots' q' preferSmall' env' hholds hperm
      obtain ⟨q'', hholds', hperm', hselected⟩ := ih hholds preferSmall' (remaining - 1) env'
      exact ⟨q'', hholds', hperm'.trans hperm, hselected.perm hperm⟩
    simp only
    generalize (if (preferSmall && !s.small.isEmpty) = true then QueueKind.small
      else if s.mainCapacityBytes < s.main.bytes ∨ s.small.isEmpty = true then .main
      else .small) = kind
    generalize (preferSmall && !(preferSmall && !s.small.isEmpty)) = preferSmall'
    cases hfront : (s.queue kind).front with
    | none => exact ⟨q, h, .refl _, .none⟩
    | some i =>
      have hi := h.queues.front hfront
      have hmem : i ∈ members q := mem_members.2 ⟨_, hi⟩
      cases kind with
      | small =>
        obtain ⟨q', hpromote, hperm, hkept⟩ := h.promote hi
        simp only
        by_cases hfrequency : s3FifoMoveToMainThreshold ≤ (policySlot slots i).s3FifoFrequency
        · rw [if_pos hfrequency]
          obtain ⟨q'', hholds, hperm', hselected⟩ := hnext preferSmall' env hpromote hperm
          exact ⟨q'', hholds, hperm', hselected.mark hkept⟩
        · rw [if_neg hfrequency]
          by_cases hreclaim : (canReclaim env i).1
          · rw [if_pos hreclaim]
            exact ⟨q, h, .refl _, .found hmem⟩
          · rw [if_neg hreclaim]
            obtain ⟨q'', hholds, hperm', hselected⟩ :=
              hnext preferSmall' (canReclaim env i).2 hpromote hperm
            exact ⟨q'', hholds, hperm', (hselected.mark hkept).ask hmem⟩
      | main =>
        obtain ⟨q', hrotate, hperm⟩ := h.rotate hi
        simp only
        by_cases hfrequency : 0#8 < (policySlot slots i).s3FifoFrequency
        · rw [if_pos hfrequency]
          have hmarks := PolicySlot.setS3FifoFrequency_marks (policySlot slots i)
            ((policySlot slots i).s3FifoFrequency - 1)
          obtain ⟨k, hk⟩ := mem_members.1 (hperm.symm.subset hmem)
          obtain ⟨q'', hholds, hperm', hselected⟩ :=
            hnext preferSmall' env (hrotate.mark hk hmarks.1 hmarks.2) hperm
          exact ⟨q'', hholds, hperm', hselected.mark (.set hmem (by rfl))⟩
        · rw [if_neg hfrequency]
          by_cases hreclaim : (canReclaim env i).1
          · rw [if_pos hreclaim]
            exact ⟨q, h, .refl _, .found hmem⟩
          · rw [if_neg hreclaim]
            obtain ⟨q'', hholds, hperm', hselected⟩ :=
              hnext true (canReclaim env i).2 hrotate hperm
            exact ⟨q'', hholds, hperm', hselected.ask hmem⟩

/-- The last question of a selection that finds a victim was about the victim. -/
lemma selectLoop_reclaimable {ε : Type} (canReclaim : ε → ℕ → Bool × ε) (steps : ℕ) :
    ∀ {preferSmall : Bool} {s : S3FifoState} {slots : List PolicySlot} {remaining : ℕ} {env : ε}
      {i : ℕ}, (selectLoop canReclaim steps preferSmall s slots remaining env).1 = some i →
      ∃ asked, canReclaim asked i =
        (true, (selectLoop canReclaim steps preferSmall s slots remaining env).2.2.2.2) := by
  induction steps with
  | zero => exact fun h => by cases h
  | succ steps ih =>
    intro preferSmall s slots remaining env i h
    rw [selectLoop] at h ⊢
    by_cases hstop : remaining = 0
    · rw [if_pos hstop] at h
      cases h
    rw [if_neg hstop] at h ⊢
    simp only at h ⊢
    generalize (if (preferSmall && !s.small.isEmpty) = true then QueueKind.small
      else if s.mainCapacityBytes < s.main.bytes ∨ s.small.isEmpty = true then .main
      else .small) = kind at h ⊢
    cases hfront : (s.queue kind).front with
    | none =>
      rw [hfront] at h
      cases h
    | some index =>
      rw [hfront] at h
      simp only at h ⊢
      cases kind with
      | small =>
        simp only at h ⊢
        split_ifs at h ⊢ with hfrequency hreclaim
        · exact ih h
        · obtain rfl := Option.some.inj h
          exact ⟨env, Prod.ext hreclaim rfl⟩
        · exact ih h
      | main =>
        simp only at h ⊢
        split_ifs at h ⊢ with hfrequency hreclaim
        · exact ih h
        · obtain rfl := Option.some.inj h
          exact ⟨env, Prod.ext hreclaim rfl⟩
        · exact ih h

end S3FifoState

/-! ## Either policy -/

namespace EvictionState

/-- The policy of a structure. -/
def policy : EvictionState → L1EvictionPolicy
  | .clock _ => .clock
  | .s3Fifo _ => .s3Fifo

/-- The structure holds the given slots, each once; their order is its own matter. -/
def Holds (e : EvictionState) (slots : List PolicySlot) (l : List ℕ) : Prop :=
  match e with
  | .clock c => ∃ residents, c.Holds slots residents ∧ residents.Perm l
  | .s3Fifo s => ∃ q, s.Holds slots q ∧ (members q).Perm l

variable {e : EvictionState} {slots : List PolicySlot} {l l' : List ℕ} {i : ℕ}

/-- The slots are resident, and none occurs twice. -/
lemma Holds.residents (h : e.Holds slots l) :
    l.Nodup ∧ ∀ i ∈ l, i < slots.length ∧ (policySlot slots i).isResident = true := by
  cases e with
  | clock c =>
    obtain ⟨residents, hholds, hperm⟩ := h
    refine ⟨hperm.nodup_iff.1 hholds.nodup, fun i hi => ?_⟩
    obtain ⟨p, hp⟩ := List.getElem?_of_mem (hperm.symm.subset hi)
    obtain ⟨hlt, hresident, -⟩ := hholds.position p i hp
    exact ⟨hlt, hresident⟩
  | s3Fifo s =>
    obtain ⟨q, hholds, hperm⟩ := h
    refine ⟨hperm.nodup_iff.1 ?_, fun i hi => ?_⟩
    · rw [members, List.nodup_append]
      refine ⟨(hholds.queues.links .small).1.nodup, (hholds.queues.links .main).1.nodup, ?_⟩
      rintro a ha b hb rfl
      cases hholds.queues.disjoint a _ _ ha hb
    · obtain ⟨k, hk⟩ := mem_members.1 (hperm.symm.subset hi)
      exact ⟨(hholds.lt hk).1, (hholds.marks k i hk).1⟩

/-- Policy slots of others do not matter. -/
lemma Holds.congr {slots' : List PolicySlot} (h : e.Holds slots l)
    (hlen : slots'.length = slots.length)
    (heq : ∀ i ∈ l, policySlot slots' i = policySlot slots i) : e.Holds slots' l := by
  cases e with
  | clock c =>
    obtain ⟨residents, hholds, hperm⟩ := h
    refine ⟨residents, ⟨hholds.residents, hholds.nodup, fun p i hp => ?_⟩, hperm⟩
    rw [hlen, heq i (hperm.subset (List.mem_of_getElem? hp))]
    exact hholds.position p i hp
  | s3Fifo s =>
    obtain ⟨q, hholds, hperm⟩ := h
    refine ⟨q, ⟨hholds.queues, hholds.length.trans hlen.symm, fun k i hi => ?_⟩, hperm⟩
    rw [heq i (hperm.subset (mem_members.2 ⟨k, hi⟩))]
    exact hholds.marks k i hi

/-- A new structure holds nothing. -/
lemma holds_new (policy : L1EvictionPolicy) (capacityBytes : ℕ) (slots : List PolicySlot) :
    (EvictionState.new policy capacityBytes slots.length).Holds slots [] := by
  cases policy with
  | clock => exact ⟨[], ⟨rfl, List.nodup_nil, fun p i h => by simp at h⟩, .refl _⟩
  | s3Fifo =>
    refine ⟨fun _ => [], ⟨⟨fun kind => ?_, fun i _ _ h => by simp at h⟩, ?_, fun _ i h => by
      simp at h⟩, .refl _⟩
    · cases kind <;> exact ⟨DList.empty, fun i h => by simp at h⟩
    · exact List.length_replicate

/-- A slot that is inserted: only its own policy slot changes, which takes the hash. -/
lemma Holds.insert (h : e.Holds slots l) (hi : i ∉ l) (hlt : i < slots.length)
    (hne : i ≠ noPolicySlot) (hash : BitVec 64) (weight : ℕ) :
    (e.insert slots i hash weight).1.Holds (e.insert slots i hash weight).2 (i :: l) ∧
      ∃ new : PolicySlot, (e.insert slots i hash weight).2 = slots.set i new ∧ new.hash = hash := by
  cases e with
  | clock c =>
    obtain ⟨residents, hholds, hperm⟩ := h
    have hnotin : i ∉ residents := fun hm => hi (hperm.subset hm)
    refine ⟨⟨_, hholds.insert hnotin hlt hash false, ?_⟩, _, rfl, rfl⟩
    exact (List.perm_append_singleton i residents).trans (hperm.cons i)
  | s3Fifo s =>
    obtain ⟨q, hholds, hperm⟩ := h
    have hnotin : ∀ k, i ∉ q k := fun k hm => hi (hperm.subset (mem_members.2 ⟨k, hm⟩))
    have hmarks := PolicySlot.newS3Fifo_marks hash
      (if (s.ghost.take hash).1 then QueueKind.main else .small) 0
    refine ⟨⟨_, (hholds.withGhost (s.ghost.take hash).2).push hnotin hlt hne weight hmarks.1
      hmarks.2, ?_⟩, _, rfl, rfl⟩
    exact (members_push q _ i).trans (hperm.cons i)

/-- A hit on a resident changes its marks. -/
lemma Holds.recordHit (h : e.Holds slots l) (hi : i ∈ l) :
    e.Holds (e.recordHit slots i) l ∧ SlotsKept l slots (e.recordHit slots i) := by
  cases e with
  | clock c =>
    obtain ⟨residents, hholds, hperm⟩ := h
    exact ⟨⟨residents, hholds.mark true, hperm⟩, .set hi (by rfl)⟩
  | s3Fifo s =>
    obtain ⟨q, hholds, hperm⟩ := h
    obtain ⟨k, hk⟩ := mem_members.1 (hperm.symm.subset hi)
    have hmarks := PolicySlot.incrementS3FifoFrequency_marks (policySlot slots i)
    exact ⟨⟨q, hholds.mark hk hmarks.1 hmarks.2, hperm⟩, .set hi (by rfl)⟩

/-- A resident is removed. -/
lemma Holds.remove (h : e.Holds slots l) (hi : i ∈ l) :
    (e.remove slots i).1.Holds (e.remove slots i).2 (l.erase i) ∧
      SlotsKept (l.erase i) (slots.set i .default) (e.remove slots i).2 := by
  have hresident := (h.residents.2 i hi).2
  unfold EvictionState.remove
  rw [hresident, Bool.not_true, if_neg (by simp)]
  cases e with
  | clock c =>
    obtain ⟨residents, hholds, hperm⟩ := h
    obtain ⟨residents', hholds', hperm', hkept⟩ := hholds.remove (hperm.symm.subset hi)
    exact ⟨⟨residents', hholds', hperm'.trans (hperm.erase i)⟩, hkept.perm (hperm.erase i)⟩
  | s3Fifo s =>
    obtain ⟨q, hholds, hperm⟩ := h
    exact ⟨hholds.takeResident hperm hi, SlotsKept.refl _ _⟩

/-- A resident is detached; what is kept of it has its hash. -/
lemma Holds.detach (h : e.Holds slots l) (hi : i ∈ l) (weight : ℕ) :
    let result := e.detachForAdmission slots i weight
    result.2.1.Holds result.2.2 (l.erase i) ∧
      SlotsKept (l.erase i) (slots.set i .default) result.2.2 ∧
      result.1.hash = (policySlot slots i).hash := by
  cases e with
  | clock c =>
    obtain ⟨residents, hholds, hperm⟩ := h
    obtain ⟨residents', hholds', hperm', hkept⟩ := hholds.remove (hperm.symm.subset hi)
    exact ⟨⟨residents', hholds', hperm'.trans (hperm.erase i)⟩, hkept.perm (hperm.erase i), rfl⟩
  | s3Fifo s =>
    obtain ⟨q, hholds, hperm⟩ := h
    exact ⟨hholds.takeResident hperm hi, SlotsKept.refl _ _, rfl⟩

/-- A place fits the structure that it comes from. -/
def Fits (e : EvictionState) (detached : DetachedPolicy) : Prop :=
  match e, detached.kind with
  | .clock _, .clock => True
  | .s3Fifo _, .s3Fifo _ _ => True
  | _, _ => False

lemma fits_congr {e e' : EvictionState} (h : e'.policy = e.policy) (detached : DetachedPolicy) :
    e'.Fits detached ↔ e.Fits detached := by
  obtain ⟨hash, weight, kind⟩ := detached
  cases e <;> cases e' <;> cases kind <;> simp_all [Fits, policy]

lemma fits_detachForAdmission (e : EvictionState) (slots : List PolicySlot) (i weight : ℕ) :
    e.Fits (e.detachForAdmission slots i weight).1 := by
  cases e <;> simp [Fits, detachForAdmission, S3FifoState.detach]

/-- A detached slot comes back: only its own policy slot changes, which takes the hash. -/
lemma Holds.restore (h : e.Holds slots l) (hi : i ∉ l) (hlt : i < slots.length)
    (hne : i ≠ noPolicySlot) {detached : DetachedPolicy} (hfits : e.Fits detached) :
    let result := e.restoreForAdmission slots i detached
    result.1.Holds result.2 (i :: l) ∧
      ∃ new : PolicySlot, result.2 = slots.set i new ∧ new.hash = detached.hash := by
  obtain ⟨hash, weight, kind⟩ := detached
  cases e with
  | clock c =>
    obtain ⟨residents, hholds, hperm⟩ := h
    have hnotin : i ∉ residents := fun hm => hi (hperm.subset hm)
    cases kind with
    | clock =>
      refine ⟨⟨_, hholds.insert hnotin hlt hash true, ?_⟩, _, rfl, rfl⟩
      exact (List.perm_append_singleton i residents).trans (hperm.cons i)
    | s3Fifo queue frequency => exact hfits.elim
  | s3Fifo s =>
    obtain ⟨q, hholds, hperm⟩ := h
    have hnotin : ∀ k, i ∉ q k := fun k hm => hi (hperm.subset (mem_members.2 ⟨k, hm⟩))
    cases kind with
    | clock => exact hfits.elim
    | s3Fifo queue frequency =>
      have hmarks := PolicySlot.newS3Fifo_marks hash queue frequency
      refine ⟨⟨_, hholds.push hnotin hlt hne weight hmarks.1 hmarks.2, ?_⟩, _, rfl, rfl⟩
      exact (members_push q _ i).trans (hperm.cons i)

/-- An eviction that is committed leaves the residents alone. -/
lemma Holds.commit (h : e.Holds slots l) (detached : DetachedPolicy) :
    (e.commitEviction detached).Holds slots l := by
  cases e with
  | clock c => exact h
  | s3Fifo s =>
    obtain ⟨q, hholds, hperm⟩ := h
    obtain ⟨hash, weight, kind⟩ := detached
    cases kind with
    | clock => exact ⟨q, hholds, hperm⟩
    | s3Fifo queue frequency =>
      cases queue with
      | small => exact ⟨q, hholds.withGhost _, hperm⟩
      | main => exact ⟨q, hholds, hperm⟩

/-- A selection keeps the residents. -/
lemma Holds.select {ε : Type} (canReclaim : ε → ℕ → Bool × ε) (h : e.Holds slots l)
    (remaining : ℕ) (env : ε) :
    let result := e.selectVictim canReclaim slots remaining env
    result.2.1.Holds result.2.2.1 l ∧
      Selected canReclaim l slots env result.1 result.2.2.1 result.2.2.2.2 := by
  cases e with
  | clock c =>
    obtain ⟨residents, hholds, hperm⟩ := h
    obtain ⟨hholds', hselected⟩ := hholds.selectLoop canReclaim
      (maximumScanSteps c.residents.length) remaining env
    exact ⟨⟨residents, hholds', hperm⟩, hselected.perm hperm⟩
  | s3Fifo s =>
    obtain ⟨q, hholds, hperm⟩ := h
    obtain ⟨q', hholds', hperm', hselected⟩ := hholds.selectLoop canReclaim
      (maximumScanSteps slots.length) false remaining env
    exact ⟨⟨q', hholds', hperm'.trans hperm⟩, hselected.perm hperm⟩

/-- The last question of a selection that finds a victim was about the victim. -/
lemma selectVictim_reclaimable {ε : Type} {canReclaim : ε → ℕ → Bool × ε} {e : EvictionState}
    {slots : List PolicySlot} {remaining : ℕ} {env : ε} {i : ℕ}
    (h : (e.selectVictim canReclaim slots remaining env).1 = some i) :
    ∃ asked, canReclaim asked i =
      (true, (e.selectVictim canReclaim slots remaining env).2.2.2.2) := by
  cases e with
  | clock c => exact ClockState.selectLoop_reclaimable canReclaim _ h
  | s3Fifo s => exact S3FifoState.selectLoop_reclaimable canReclaim _ h

/-! The policy does not change. -/

section Policy

variable (e : EvictionState) (slots : List PolicySlot) (i : ℕ)

@[simp] lemma policy_insert (hash : BitVec 64) (weight : ℕ) :
    (e.insert slots i hash weight).1.policy = e.policy := by
  cases e <;> rfl

@[simp] lemma policy_remove : (e.remove slots i).1.policy = e.policy := by
  unfold remove
  split
  · rfl
  · cases e <;> rfl

@[simp] lemma policy_detachForAdmission (weight : ℕ) :
    (e.detachForAdmission slots i weight).2.1.policy = e.policy := by
  cases e <;> rfl

@[simp] lemma policy_restoreForAdmission (detached : DetachedPolicy) :
    (e.restoreForAdmission slots i detached).1.policy = e.policy := by
  unfold restoreForAdmission
  split <;> rfl

@[simp] lemma policy_commitEviction (detached : DetachedPolicy) :
    (e.commitEviction detached).policy = e.policy := by
  unfold commitEviction
  split <;> rfl

@[simp] lemma policy_selectVictim {ε : Type} (canReclaim : ε → ℕ → Bool × ε) (remaining : ℕ)
    (env : ε) : (e.selectVictim canReclaim slots remaining env).2.1.policy = e.policy := by
  cases e <;> rfl

end Policy

end EvictionState

end Cache2

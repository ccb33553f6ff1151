import Cache2.Memory.ShardInvariant
import Mathlib.Algebra.Order.BigOperators.Group.List

set_option relaxedAutoImplicit false
set_option autoImplicit false

/-!
# Admissions keep the invariant

Every operation of a shard keeps the representation invariant, whatever the callers that retain
values do while it is under way. An admission detaches entries from the policy and attaches them
again or removes them for good; a failure along the way leaves every structure as it should be.

## Main definitions

* `Cache2.DetachedOk` — what is known of an entry while it is detached.

## Main results

* `Cache2.ShardM.removeSlot_spec` — an entry is removed.
* `Cache2.ShardM.chargeWithEviction_spec` — room is made for an entry.
* `Cache2.ShardM.insert_spec` — an entry is admitted.
-/

namespace Cache2

open Linked Loop

/-! ## Detaching and attaching -/

section Detach

variable {st : ShardState} {hashOf : ℕ → BitVec 64} {detached held : List ℕ} {index : ℕ}
  {e : MemoryEntry} {eviction : EvictionState} {policySlots : List PolicySlot} {l : List ℕ}

/-- Which entries are detached matters, not their order. -/
lemma MemoryInv.detached_congr {detached' : List ℕ} (h : MemoryInv st hashOf detached held)
    (hd : ∀ i, (st.shard.entry i).isSome → (i ∈ detached ↔ i ∈ detached')) :
    MemoryInv st hashOf detached' held := by
  obtain ⟨l, hholds, hmem, hhash⟩ := h.residents
  refine ⟨h.length, h.small, h.free, h.chains, ⟨l, hholds, fun i => ?_, hhash⟩, h.values⟩
  rw [hmem]
  exact and_congr_right fun hi => not_congr (hd i hi)

/-- The order of the values that are held does not matter. -/
lemma MemoryInv.held_perm {held' : List ℕ} (h : MemoryInv st hashOf detached held)
    (hp : held.Perm held') : MemoryInv st hashOf detached held' :=
  ⟨h.length, h.small, h.free, h.chains, h.residents,
    h.values.congr rfl rfl (MemoryHeap.Undisturbed.refl _).contents
      (h.values.counted.perm (hp.append_left _)) ((hp.append_left _).nodup_iff.1 h.values.nodup)⟩

/-- Entries that are gone are no longer detached. -/
lemma MemoryInv.attached (h : MemoryInv st hashOf detached held)
    (hgone : ∀ i ∈ detached, st.shard.entry i = none) : MemoryInv st hashOf [] held :=
  h.detached_congr fun i hi => by
    constructor
    · intro hd
      simp [hgone i hd] at hi
    · intro hd
      cases hd

/-- The entries stay as they are. -/
lemma removes_nil {st' : ShardState} (hslots : st'.shard.slots = st.shard.slots)
    (hf : st.heap.Frame st'.heap)
    (hpolicy : st'.shard.eviction.policy = st.shard.eviction.policy) : Removes st st' [] :=
  ⟨fun _ => by simp [valueOf_eq, hslots], hf, by rw [hslots], hpolicy⟩

/-- The shard stays as it is. -/
lemma removes_heap {heap : MemoryHeap} (hf : st.heap.Frame heap) :
    Removes st { st with heap } [] := removes_nil rfl hf rfl

/-- Nothing of the heap changes. -/
lemma frame_refl (h : MemoryHeap) : h.Frame h := (MemoryHeap.Undisturbed.refl h).toFrame

/-- An entry leaves the policy. -/
lemma MemoryInv.detach (h : MemoryInv st hashOf detached held)
    (hres : Residents st.shard hashOf detached l) (hi : index ∈ l)
    (hholds : eviction.Holds policySlots (l.erase index))
    (hkept : SlotsKept (l.erase index) (st.shard.policySlots.set index .default) policySlots) :
    MemoryInv { st with shard := { st.shard with eviction, policySlots } } hashOf
      (index :: detached) held := by
  have hnodup := hres.holds.residents.1
  have hother : ∀ i, i ≠ index → policySlot (st.shard.policySlots.set index .default) i =
      policySlot st.shard.policySlots i := fun i hne => policySlot_set_ne hne
  refine h.withPolicy ?_ (fun i hnone => ?_) ⟨l.erase index, hholds, fun i => ?_, fun i hm => ?_⟩
  · rw [hkept.length, List.length_set]
  · have hnotin : i ∉ l := fun hm => by simpa [hnone] using ((hres.mem_iff i).1 hm).1
    have hne : i ≠ index := fun he => hnotin (he ▸ hi)
    rw [hkept.outside i fun hm => hnotin (List.mem_of_mem_erase hm), hother i hne]
  · rw [hnodup.mem_erase_iff, hres.mem_iff, List.mem_cons, not_or]
    show _ ↔ (st.shard.entry i).isSome ∧ _
    tauto
  · obtain ⟨hne, hm'⟩ := hnodup.mem_erase_iff.1 hm
    rw [hkept.hash i hm, hother i hne]
    exact hres.hash i hm'

/-- An entry comes back to the policy. -/
lemma MemoryInv.attach {new : PolicySlot} (h : MemoryInv st hashOf (index :: detached) held)
    (hres : Residents st.shard hashOf (index :: detached) l) (hnotin : index ∉ detached)
    (hsome : (st.shard.entry index).isSome) (hholds : eviction.Holds policySlots (index :: l))
    (hset : policySlots = st.shard.policySlots.set index new) (hhash : new.hash = hashOf index) :
    MemoryInv { st with shard := { st.shard with eviction, policySlots } }
      hashOf detached held := by
  obtain ⟨e, he⟩ := Option.isSome_iff_exists.1 hsome
  have hlt : index < st.shard.policySlots.length := by
    rw [h.length]
    exact entry_lt he
  refine h.withPolicy ?_ (fun i hnone => ?_) ⟨index :: l, hholds, fun i => ?_, fun i hm => ?_⟩
  · rw [hset, List.length_set]
  · have hne : i ≠ index := by
      rintro rfl
      simp [hnone] at he
    rw [hset, policySlot_set_ne hne]
  · rw [List.mem_cons, hres.mem_iff, List.mem_cons, not_or]
    show _ ↔ (st.shard.entry i).isSome ∧ _
    by_cases hii : i = index
    · subst hii
      simp [hsome, hnotin]
    · simp [hii]
  · show (policySlot policySlots i).hash = _
    rw [hset, policySlot_set hlt]
    split_ifs with hii
    · rw [hhash, hii]
    · exact hres.hash i ((List.mem_cons.1 hm).resolve_left hii)

/-- What is known of an entry while it is detached. -/
structure DetachedOk (st : ShardState) (hashOf : ℕ → BitVec 64) (d : DetachedAdmissionEntry) :
    Prop where
  /-- It keeps its hash. -/
  hash : d.policy.hash = hashOf d.index
  /-- It has a place in the policy. -/
  fits : st.shard.eviction.Fits d.policy
  /-- It is still there, and no caller retains its value if its charge is to be transferred. -/
  entry : ∃ e, st.shard.entry d.index = some e ∧
    d.weight = (st.heap.inner e.value).chargedBytes ∧
    (d.transfersCharge = true → e.value ∉ st.heap.retained)

/-- Other entries may go. -/
lemma DetachedOk.mono {st' : ShardState} {gone : List ℕ} {d : DetachedAdmissionEntry}
    (h : DetachedOk st hashOf d) (hr : Removes st st' gone) (hd : d.index ∉ gone) :
    DetachedOk st' hashOf d := by
  obtain ⟨e, he, hweight, hretained⟩ := h.entry
  obtain ⟨e', he', hvalue⟩ := hr.remains he hd
  refine ⟨h.hash, (EvictionState.fits_congr hr.policy _).2 h.fits, e', he', ?_, fun ht => ?_⟩
  · rw [hweight, hvalue, (hr.frame.contents.reads _).2.2.2]
  · rw [hvalue]
    exact hr.frame.retained _ (hretained ht)

/-- The entries `ds` are detached. -/
structure Detaching (st : ShardState) (hashOf : ℕ → BitVec 64) (held : List ℕ)
    (ds : List DetachedAdmissionEntry) : Prop where
  /-- The invariant. -/
  inv : MemoryInv st hashOf (ds.map DetachedAdmissionEntry.index) held
  /-- No entry is detached twice. -/
  nodup : (ds.map DetachedAdmissionEntry.index).Nodup
  /-- Each one. -/
  ok : ∀ d ∈ ds, DetachedOk st hashOf d

end Detach

namespace ShardM

variable {st : ShardState} {hashOf : ℕ → BitVec 64} {detached held : List ℕ} {index : ℕ}
  {e : MemoryEntry}

/-! ## Removing entries -/

lemma expectEntry_eq (he : st.shard.entry index = some e) :
    expectEntry index st = .ok e st := by
  rw [expectEntry, bind_ok (get_apply st), he]
  rfl

lemma onHeap_apply {α : Type} (f : MemoryHeap → α × MemoryHeap) (st : ShardState) :
    onHeap f st = .ok (f st.heap).1 { st with heap := (f st.heap).2 } := rfl

lemma modifyHeap_apply (f : MemoryHeap → MemoryHeap) (st : ShardState) :
    modifyHeap f st = .ok () { st with heap := f st.heap } := rfl

lemma modifyShard_apply (f : MemoryShard → MemoryShard) (st : ShardState) :
    modifyShard f st = .ok () { st with shard := f st.shard } := rfl

lemma dropOption_apply (value : Option ℕ) (st : ShardState) :
    dropOption value st = .ok () { st with heap := value.elim st.heap st.heap.dropValue } := rfl

/-- The charge of a value that no caller retains is disarmed. -/
lemma disarmIf_spec (h : MemoryInv st hashOf detached held) (he : st.shard.entry index = some e)
    {transfer : Bool} (htransfer : transfer = true → e.value ∉ st.heap.retained) :
    ∃ heap, disarmIf transfer e.value st = .ok () { st with heap } ∧
      st.heap.Undisturbed heap := by
  cases transfer with
  | false => exact ⟨st.heap, rfl, .refl _⟩
  | true =>
    have hmem : e.value ∈ st.shard.values ++ held :=
      List.mem_append_left _ (mem_values.2 ⟨index, e, he, rfl⟩)
    have hperm := List.perm_cons_erase hmem
    have hnodup := hperm.nodup_iff.1 h.values.nodup
    obtain ⟨heap, hdisarm, hundisturbed⟩ := MemoryHeap.disarmExclusiveCharge_spec
      (h.values.counted.perm hperm) (List.nodup_cons.1 hnodup).1 (htransfer rfl)
    refine ⟨heap, ?_, hundisturbed⟩
    rw [disarmIf, if_pos rfl, bind_ok (get_apply st), hdisarm]
    rfl

/-- **A detached entry is removed**, and its value is held. -/
theorem removeSlotAfterPolicy_spec (h : MemoryInv st hashOf detached held)
    (he : st.shard.entry index = some e) (hdetached : index ∈ detached) (transfer : Bool)
    (htransfer : transfer = true → e.value ∉ st.heap.retained) :
    ∃ st', removeSlotAfterPolicy index (hashOf index) transfer st = .ok (some e.value) st' ∧
      MemoryInv st' hashOf detached (e.value :: held) ∧ Removes st st' [index] := by
  obtain ⟨chains, hchains⟩ := h.chains
  have hmem : index ∈ chains (fixedMapFingerprint (hashOf index)) :=
    (hchains.mem_iff _ _).2 ⟨by simp [he], rfl⟩
  obtain ⟨a, b, hsplit⟩ := List.append_of_mem hmem
  -- the walk finds the entry
  obtain ⟨head, hhead⟩ : ∃ head, (chains (fixedMapFingerprint (hashOf index))).head? = some head :=
    Option.isSome_iff_exists.1 (by rw [hsplit]; cases a <;> rfl)
  obtain ⟨hchain, hsome, -⟩ := hchains.from_head hhead
  have hbounded := hchains.bounded (fixedMapFingerprint (hashOf index))
  rw [hsplit] at hchain hsome hbounded
  have hnotin : index ∉ a := fun hm =>
    (List.nodup_append.1 hchain.nodup).2.2 index hm index (by simp) rfl
  have hwalk : ((st.shard.directory.get (hashOf index)).bind fun head =>
      st.shard.predecessorLoop index maxSameHashEntries head none) = some a.getLast? := by
    rw [hchains.get_eq, hhead, Option.bind_some,
      predecessorLoop_eq hchain hsome hnotin hbounded, Option.or_none]
  obtain ⟨s', hunlink, hunlinked⟩ := unlinkFromChain_spec hchains h.small he hsplit
  obtain ⟨heap, hdisarm, hundisturbed⟩ := disarmIf_spec h he htransfer
  -- the charge is disarmed after the entry has left its chain, which the heap does not see
  have hdisarm' : disarmIf transfer e.value { st with shard := s' } =
      .ok () { shard := s', heap } := by
    unfold disarmIf at hdisarm ⊢
    cases transfer with
    | false =>
      obtain rfl : st.heap = heap := congrArg ShardState.heap (EStateM.Result.ok.inj hdisarm).2
      rfl
    | true =>
      rw [if_pos rfl, bind_ok (get_apply _)] at hdisarm ⊢
      cases hd : st.heap.disarmExclusiveCharge e.value with
      | none =>
        rw [hd] at hdisarm
        cases hdisarm
      | some heap' =>
        rw [hd] at hdisarm
        obtain rfl : heap' = heap := congrArg ShardState.heap (EStateM.Result.ok.inj hdisarm).2
        rfl
  obtain ⟨e', he', hvalue⟩ : ∃ e', s'.entry index = some e' ∧ e'.value = e.value := by
    have : s'.valueOf index = st.shard.valueOf index := by
      rw [valueOf_eq, valueOf_eq, hunlinked.values]
    rw [MemoryShard.valueOf, MemoryShard.valueOf, he, Option.map_some] at this
    exact Option.map_eq_some_iff.1 this
  obtain ⟨hinv, hremoves⟩ := h.freeSlot hchains hsplit he hdetached hunlinked hundisturbed
  refine ⟨_, ?_, hinv, hremoves⟩
  rw [removeSlotAfterPolicy, bind_ok (get_apply st)]
  simp only [hwalk]
  rw [bind_ok (expectEntry_eq he), bind_ok hunlink, bind_ok (get_apply _), bind_ok hdisarm',
    bind_ok (expectEntry_eq he'), bind_ok (modifyShard_apply _ _), hvalue]
  rfl

/-- An entry is taken out, and its value is held. -/
lemma takeSlot_spec (h : MemoryInv st hashOf [] held) (he : st.shard.entry index = some e) :
    ∃ st', takeSlot index st = .ok (some e.value) st' ∧
      MemoryInv st' hashOf [] (e.value :: held) ∧ Removes st st' [index] := by
  obtain ⟨l, hres⟩ := h.residents
  have hmem : index ∈ l := (hres.mem_iff index).2 ⟨by simp [he], List.not_mem_nil⟩
  obtain ⟨hholds, hkept⟩ := hres.holds.remove hmem
  have hinv := h.detach hres hmem hholds hkept
  obtain ⟨st', hrun, hinv', hremoves⟩ := removeSlotAfterPolicy_spec hinv he List.mem_cons_self
    false (fun ht => by cases ht)
  have hremoves₀ : Removes st { st with shard := { st.shard with
      eviction := (st.shard.eviction.remove st.shard.policySlots index).1
      policySlots := (st.shard.eviction.remove st.shard.policySlots index).2 } } [] :=
    removes_nil rfl (frame_refl _) (EvictionState.policy_remove _ _ _)
  have hremoves' := hremoves₀.trans hremoves
  refine ⟨st', ?_, hinv'.attached fun i hi => ?_, hremoves'⟩
  · rw [takeSlot, bind_ok (get_apply st)]
    simp only [he]
    rw [hres.hash index hmem, bind_ok (modifyShard_apply _ _)]
    exact hrun
  · exact hremoves'.gone (by simpa using hi)

/-- A value that is held is dropped, or there is none. -/
lemma dropOption_spec (value : Option ℕ) (h : MemoryInv st hashOf detached (value.toList ++ held)) :
    ∃ st', dropOption value st = .ok () st' ∧ MemoryInv st' hashOf detached held ∧
      Removes st st' [] := by
  cases value with
  | none => exact ⟨st, rfl, h, .refl st⟩
  | some id => exact ⟨_, rfl, h.dropHeld, removes_heap (MemoryHeap.frame_dropValue _ _).1⟩

/-- **An entry is removed.** -/
theorem removeSlot_spec (h : MemoryInv st hashOf [] held) (he : st.shard.entry index = some e) :
    ∃ st', removeSlot index st = .ok () st' ∧ MemoryInv st' hashOf [] held ∧
      Removes st st' [index] := by
  obtain ⟨st₁, htake, hinv₁, hremoves₁⟩ := takeSlot_spec h he
  obtain ⟨st₂, hdrop, hinv₂, hremoves₂⟩ := dropOption_spec (some e.value) hinv₁
  exact ⟨st₂, by rw [removeSlot, bind_ok htake, hdrop], hinv₂, hremoves₁.trans hremoves₂⟩

/-! ## Detaching entries -/

/-- An entry is detached. -/
lemma detachForAdmission_spec {ds : List DetachedAdmissionEntry} (h : Detaching st hashOf held ds)
    (he : st.shard.entry index = some e) (hnotin : index ∉ ds.map DetachedAdmissionEntry.index) :
    ∃ d st', detachForAdmission index st = .ok d st' ∧ d.index = index ∧
      Detaching st' hashOf held (d :: ds) ∧ Removes st st' [] := by
  have htick := MemoryHeap.undisturbed_releasesChargeOnRemove st.heap e.value
  have hinv := h.inv.withHeap htick
  obtain ⟨l, hres⟩ := hinv.residents
  have hmem : index ∈ l := (hres.mem_iff index).2 ⟨by simp [he], hnotin⟩
  obtain ⟨hholds, hkept, hhash⟩ := hres.holds.detach hmem (st.heap.inner e.value).chargedBytes
  have hpolicy := EvictionState.policy_detachForAdmission st.shard.eviction st.shard.policySlots
    index (st.heap.inner e.value).chargedBytes
  have hfits := EvictionState.fits_detachForAdmission st.shard.eviction st.shard.policySlots index
    (st.heap.inner e.value).chargedBytes
  have hinv' := hinv.detach hres hmem hholds hkept
  obtain ⟨policy, eviction, policySlots, hdetach⟩ : ∃ policy eviction policySlots,
      st.shard.eviction.detachForAdmission st.shard.policySlots index
        (st.heap.inner e.value).chargedBytes = (policy, eviction, policySlots) := ⟨_, _, _, rfl⟩
  simp only [hdetach] at hinv' hhash hpolicy hfits
  have hremoves : Removes st ⟨{ st.shard with eviction, policySlots },
      (st.heap.releasesChargeOnRemove e.value).2⟩ [] := removes_nil rfl htick.toFrame hpolicy
  refine ⟨⟨index, policy, (st.heap.inner e.value).chargedBytes,
    (st.heap.releasesChargeOnRemove e.value).1⟩, _, ?_, rfl, ⟨hinv', ?_, ?_⟩, hremoves⟩
  · rw [detachForAdmission, bind_ok (expectEntry_eq he), bind_ok (get_apply _),
      bind_ok (onHeap_apply _ _), bind_ok (get_apply _)]
    simp only [hdetach]
    rw [bind_ok (modifyShard_apply _ _)]
    rfl
  · rw [List.map_cons, List.nodup_cons]
    exact ⟨hnotin, h.nodup⟩
  · intro d hd
    rcases List.mem_cons.1 hd with rfl | hd
    · refine ⟨hhash.trans (hres.hash index hmem),
        (EvictionState.fits_congr hpolicy _).2 hfits, e, he, ?_, fun ht => ?_⟩
      · exact (htick.contents.reads e.value).2.2.2.symm
      · -- the count was one when the entry was detached
        have hvalue : e.value ∈ st.shard.values ++ held :=
          List.mem_append_left _ (mem_values.2 ⟨index, e, he, rfl⟩)
        have hperm := List.perm_cons_erase hvalue
        have hcounted := hinv.values.counted.perm hperm
        refine (hcounted.exclusive ?_).1 (eq_of_beq ht)
        exact (List.nodup_cons.1 (hperm.nodup_iff.1 h.inv.values.nodup)).1
    · exact (h.ok d hd).mono hremoves List.not_mem_nil

/-- A detached entry is put back. -/
lemma restoreDetached_spec {d : DetachedAdmissionEntry} {ds : List DetachedAdmissionEntry}
    (h : Detaching st hashOf held (d :: ds)) :
    ∃ st', restoreDetached d st = .ok () st' ∧ Detaching st' hashOf held ds ∧
      Removes st st' [] := by
  have hnodup := h.nodup
  rw [List.map_cons, List.nodup_cons] at hnodup
  have hd := h.ok d List.mem_cons_self
  obtain ⟨e, he, -⟩ := hd.entry
  obtain ⟨l, hres⟩ := h.inv.residents
  have hnotin : d.index ∉ l := fun hm => ((hres.mem_iff d.index).1 hm).2 (by simp)
  have hlt := entry_lt he
  have hne : d.index ≠ noPolicySlot := by
    have := h.inv.small
    unfold deletedValue at this
    unfold noPolicySlot
    omega
  obtain ⟨hholds, new, hset, hhash⟩ := hres.holds.restore hnotin (h.inv.length ▸ hlt) hne hd.fits
  have hremoves : Removes st { st with shard := { st.shard with
      eviction := (st.shard.eviction.restoreForAdmission st.shard.policySlots d.index d.policy).1
      policySlots :=
        (st.shard.eviction.restoreForAdmission st.shard.policySlots d.index d.policy).2 } } [] :=
    removes_nil rfl (frame_refl _) (EvictionState.policy_restoreForAdmission _ _ _ _)
  refine ⟨_, modifyShard_apply _ _, ⟨?_, hnodup.2, fun d' hd' => ?_⟩, hremoves⟩
  · exact h.inv.attach hres hnodup.1 (by simp [he]) hholds hset (hhash.trans hd.hash)
  · exact (h.ok d' (List.mem_cons_of_mem _ hd')).mono hremoves List.not_mem_nil

/-- All detached entries are put back. -/
lemma restoreAll_spec {ds : List DetachedAdmissionEntry} (h : Detaching st hashOf held ds) :
    ∃ st', restoreAll ds st = .ok () st' ∧ MemoryInv st' hashOf [] held ∧ Removes st st' [] := by
  induction ds generalizing st with
  | nil => exact ⟨st, rfl, h.inv, .refl st⟩
  | cons d ds ih =>
    obtain ⟨st₁, hrun₁, hdetaching, hremoves₁⟩ := restoreDetached_spec h
    obtain ⟨st₂, hrun₂, hinv, hremoves₂⟩ := ih hdetaching
    exact ⟨st₂, by rw [restoreAll, bind_ok hrun₁, hrun₂], hinv, hremoves₁.trans hremoves₂⟩

/-- A victim is selected among the entries that are not detached. -/
lemma selectVictim_spec {ds : List DetachedAdmissionEntry} (h : Detaching st hashOf held ds)
    (exclusive : Bool) (remaining : ℕ) :
    ∃ victim remaining' st', selectVictim exclusive remaining st = .ok (victim, remaining') st' ∧
      Detaching st' hashOf held ds ∧ Removes st st' [] ∧
      ∀ i, victim = some i → ∃ e, st'.shard.entry i = some e ∧
        i ∉ ds.map DetachedAdmissionEntry.index := by
  obtain ⟨l, hres⟩ := h.inv.residents
  obtain ⟨hholds, hselected⟩ := hres.holds.select (canReclaim st.shard exclusive) remaining st.heap
  have hundisturbed : st.heap.Undisturbed (st.shard.eviction.selectVictim
      (canReclaim st.shard exclusive) st.shard.policySlots remaining st.heap).2.2.2.2 := by
    refine hselected.asks (fun heap => st.heap.Undisturbed heap) (fun heap i _ hu => ?_) (.refl _)
    unfold canReclaim
    split
    · split
      · exact hu.trans (MemoryHeap.undisturbed_releasesChargeOnRemove _ _)
      · exact hu
    · exact hu
  have hinv := (h.inv.withKept hres hholds hselected.kept).withHeap hundisturbed
  have hpolicy := EvictionState.policy_selectVictim st.shard.eviction st.shard.policySlots
    (canReclaim st.shard exclusive) remaining st.heap
  obtain ⟨victim, eviction, policySlots, remaining', heap, hselect⟩ :
      ∃ victim eviction policySlots remaining' heap, st.shard.eviction.selectVictim
        (canReclaim st.shard exclusive) st.shard.policySlots remaining st.heap =
          (victim, eviction, policySlots, remaining', heap) := ⟨_, _, _, _, _, rfl⟩
  simp only [hselect] at hinv hundisturbed hpolicy hselected
  have hremoves : Removes st ⟨{ st.shard with eviction, policySlots }, heap⟩ [] :=
    removes_nil rfl hundisturbed.toFrame hpolicy
  refine ⟨victim, remaining', _, ?_, ⟨hinv, h.nodup, fun d hd => (h.ok d hd).mono hremoves
    List.not_mem_nil⟩, hremoves, fun i hi => ?_⟩
  · rw [selectVictim, bind_ok (get_apply st)]
    simp only [hselect]
    rfl
  · obtain ⟨hsome, hnotin⟩ := (hres.mem_iff i).1 (hselected.mem i hi)
    obtain ⟨e, he⟩ := Option.isSome_iff_exists.1 hsome
    exact ⟨e, he, hnotin⟩

/-- Victims are selected and detached. -/
lemma selectVictims_spec {ds : List DetachedAdmissionEntry} (required replacementBytes : ℕ) :
    ∀ {st : ShardState} {victims : List DetachedAdmissionEntry} (room remaining released : ℕ),
      Detaching st hashOf held (victims.reverse ++ ds) →
      ∃ victims' released' st',
        selectVictims required replacementBytes room remaining victims released st =
          .ok (victims', released') st' ∧
        Detaching st' hashOf held (victims'.reverse ++ ds) ∧ Removes st st' [] := by
  intro st victims room
  induction room generalizing st victims with
  | zero =>
    intro remaining released h
    have htick := MemoryHeap.undisturbed_availableBytes st.heap
    refine ⟨victims, released, { st with heap := st.heap.availableBytes.2 }, ?_,
      ⟨h.inv.withHeap htick, h.nodup, fun d hd => (h.ok d hd).mono (removes_heap htick.toFrame)
        List.not_mem_nil⟩, removes_heap htick.toFrame⟩
    rw [selectVictims, bind_ok (onHeap_apply _ _)]
    split <;> rfl
  | succ room ih =>
    intro remaining released h
    have htick := MemoryHeap.undisturbed_availableBytes st.heap
    have hremoves := removes_heap htick.toFrame
    have h₁ : Detaching { st with heap := st.heap.availableBytes.2 } hashOf held
        (victims.reverse ++ ds) :=
      ⟨h.inv.withHeap htick, h.nodup, fun d hd => (h.ok d hd).mono hremoves List.not_mem_nil⟩
    rw [selectVictims, bind_ok (onHeap_apply _ _)]
    split_ifs with hstop
    · exact ⟨victims, released, _, rfl, h₁, hremoves⟩
    obtain ⟨victim, remaining', st₂, hselect, h₂, hremoves₂, hvictim⟩ :=
      selectVictim_spec h₁ true remaining
    cases victim with
    | none =>
      refine ⟨victims, released, st₂, ?_, h₂, hremoves.trans hremoves₂⟩
      rw [bind_ok hselect]
      rfl
    | some candidate =>
      obtain ⟨e, he, hnotin⟩ := hvictim candidate rfl
      obtain ⟨d, st₃, hdetach, -, h₃, hremoves₃⟩ := detachForAdmission_spec h₂ he hnotin
      have h₃' : Detaching st₃ hashOf held ((victims ++ [d]).reverse ++ ds) := by
        rw [List.reverse_append, List.reverse_singleton, List.singleton_append, List.cons_append]
        exact h₃
      obtain ⟨victims', released', st₄, hloop, h₄, hremoves₄⟩ :=
        ih remaining' (Word.saturatingAdd 64 released d.weight) h₃'
      refine ⟨victims', released', st₄, ?_, h₄,
        hremoves.trans (hremoves₂.trans (hremoves₃.trans hremoves₄))⟩
      rw [bind_ok hselect]
      simp only
      rw [bind_ok hdetach, hloop]

/-! ## Removing detached entries -/

/-- A detached entry is removed for good. -/
lemma commitDetached_spec {d : DetachedAdmissionEntry} (h : MemoryInv st hashOf detached held)
    (hd : d.index ∈ detached) (hok : DetachedOk st hashOf d) (recordEviction : Bool) :
    ∃ id st', commitDetached d recordEviction st = .ok (some id) st' ∧
      MemoryInv st' hashOf detached (id :: held) ∧ Removes st st' [d.index] := by
  obtain ⟨e, he, -, hretained⟩ := hok.entry
  obtain ⟨st₁, hrun, hinv, hremoves⟩ := removeSlotAfterPolicy_spec h he hd d.transfersCharge
    hretained
  rw [← hok.hash] at hrun
  cases recordEviction with
  | false =>
    refine ⟨e.value, st₁, ?_, hinv, hremoves⟩
    rw [commitDetached, bind_ok hrun, bind_ok (modifyShard_apply _ _)]
    rfl
  | true =>
    obtain ⟨l, hres⟩ := hinv.residents
    have hinv' := hinv.withKept hres (hres.holds.commit d.policy) (SlotsKept.refl _ _)
    have hremoves' : Removes st₁ { st₁ with shard := { st₁.shard with
        eviction := st₁.shard.eviction.commitEviction d.policy } } [] :=
      removes_nil rfl (frame_refl _) (EvictionState.policy_commitEviction _ _)
    refine ⟨e.value, _, ?_, hinv', hremoves.trans hremoves'⟩
    rw [commitDetached, bind_ok hrun, bind_ok (modifyShard_apply _ _)]
    rfl

/-- Whether a value is kept is a matter of the heap. -/
lemma keepsRecycled_spec (required : ℕ) (recycled : Option ℕ) (st : ShardState) :
    ∃ keeps heap, keepsRecycled required recycled st = .ok keeps { st with heap } ∧
      st.heap.Undisturbed heap := by
  cases recycled with
  | none => exact ⟨false, st.heap, rfl, .refl _⟩
  | some id =>
    rw [keepsRecycled, bind_ok (get_apply st)]
    split_ifs with hrequired
    · exact ⟨false, st.heap, rfl, .refl _⟩
    · exact ⟨_, _, onHeap_apply _ _, MemoryHeap.undisturbed_releasesChargeOnRemove _ _⟩

/-- The victims are removed, and one of the values is left to be recycled. -/
lemma commitVictims_spec (required : ℕ) : ∀ {vs : List DetachedAdmissionEntry} {st : ShardState}
    {recycled : Option ℕ}, MemoryInv st hashOf detached recycled.toList →
      (vs.map DetachedAdmissionEntry.index).Nodup → (∀ d ∈ vs, d.index ∈ detached) →
      (∀ d ∈ vs, DetachedOk st hashOf d) →
      ∃ recycled' st', commitVictims required vs recycled st = .ok recycled' st' ∧
        MemoryInv st' hashOf detached recycled'.toList ∧
        Removes st st' (vs.map DetachedAdmissionEntry.index)
  | [], st, recycled, h, _, _, _ => ⟨recycled, st, rfl, h, .refl st⟩
  | d :: vs, st, recycled, h, hnodup, hmem, hok => by
    rw [List.map_cons, List.nodup_cons] at hnodup
    obtain ⟨id, st₁, hcommit, h₁, hremoves₁⟩ := commitDetached_spec h (hmem d List.mem_cons_self)
      (hok d List.mem_cons_self) true
    obtain ⟨keeps, heap, hkeeps, hu⟩ := keepsRecycled_spec required recycled st₁
    have h₂ := h₁.withHeap hu
    have hremoves₂ := hremoves₁.trans (removes_heap hu.toFrame)
    -- the value that is not kept is dropped, and the other victims are still there
    have hnext : ∀ (dropped kept : Option ℕ),
        (id :: recycled.toList).Perm (dropped.toList ++ kept.toList) →
        ∃ recycled' st', (dropOption dropped >>= fun _ => commitVictims required vs kept)
            { st₁ with heap } = .ok recycled' st' ∧
          MemoryInv st' hashOf detached recycled'.toList ∧
          Removes st st' (d.index :: vs.map DetachedAdmissionEntry.index) := by
      intro dropped kept hperm
      obtain ⟨st₃, hdrop, h₃, hremoves₃⟩ := dropOption_spec dropped (h₂.held_perm hperm)
      have hremoves := hremoves₂.trans hremoves₃
      obtain ⟨recycled', st₄, hrest, h₄, hremoves₄⟩ := commitVictims_spec required h₃ hnodup.2
        (fun d' hd' => hmem d' (List.mem_cons_of_mem _ hd')) (fun d' hd' => by
          refine (hok d' (List.mem_cons_of_mem _ hd')).mono hremoves ?_
          simp only [List.append_nil, List.mem_singleton]
          intro heq
          exact hnodup.1 (heq ▸ List.mem_map_of_mem hd'))
      refine ⟨recycled', st₄, by rw [bind_ok hdrop, hrest], h₄, ?_⟩
      simpa using hremoves.trans hremoves₄
    rw [commitVictims, bind_ok hcommit, bind_ok hkeeps]
    cases keeps with
    | true => exact hnext (some id) recycled (.refl _)
    | false =>
      refine hnext recycled (some id) ?_
      exact (List.perm_append_singleton id recycled.toList).symm

/-! ## Making room -/

/-- What an attempt to charge comes to: nothing is removed, or the entry to be replaced is and a
value may be recycled. -/
def ChargeOutcome (st st' : ShardState) (hashOf : ℕ → BitVec 64) (replacement : Option ℕ) :
    ChargeResult → Prop
  | .rejected _ => MemoryInv st' hashOf [] [] ∧ Removes st st' []
  | .charged _ _ recycled => ∃ gone, MemoryInv st' hashOf [] recycled.toList ∧
      Removes st st' gone ∧ ∀ i, replacement = some i → i ∈ gone

/-- Nothing is detached. -/
lemma detaching_nil (h : MemoryInv st hashOf [] held) : Detaching st hashOf held [] :=
  ⟨h, List.nodup_nil, fun d hd => by cases hd⟩

/-- One entry is evicted for its slot. -/
lemma chargeWithSlotEviction_spec (h : MemoryInv st hashOf [] []) (charge : MemoryCharge) :
    ∃ result st', chargeWithSlotEviction charge st = .ok result st' ∧
      ChargeOutcome st st' hashOf none result := by
  obtain ⟨victim, remaining, st₁, hselect, h₁, hremoves₁, hvictim⟩ :=
    selectVictim_spec (detaching_nil h) false maxPolicyScanSteps
  rw [chargeWithSlotEviction, bind_ok hselect]
  cases victim with
  | none =>
    have hdrop := MemoryHeap.undisturbed_dropCharge st₁.heap charge
    exact ⟨_, _, rfl, h₁.inv.withHeap hdrop, hremoves₁.trans (removes_heap hdrop.toFrame)⟩
  | some candidate =>
    obtain ⟨e, he, hnotin⟩ := hvictim candidate rfl
    obtain ⟨d, st₂, hdetach, hindex, h₂, hremoves₂⟩ := detachForAdmission_spec h₁ he hnotin
    have hok := h₂.ok d List.mem_cons_self
    have hok' : DetachedOk st₂ hashOf { d with transfersCharge := false } := by
      obtain ⟨e', he', hweight, -⟩ := hok.entry
      exact ⟨hok.hash, hok.fits, e', he', hweight, fun ht => by cases ht⟩
    have hmem : DetachedAdmissionEntry.index { d with transfersCharge := false } ∈
        [d].map DetachedAdmissionEntry.index := List.mem_singleton_self _
    obtain ⟨id, st₃, hcommit, h₃, hremoves₃⟩ := commitDetached_spec h₂.inv hmem hok' true
    refine ⟨.charged charge 1 (some id), st₃, ?_, _, h₃.attached fun i hi => ?_,
      hremoves₁.trans (hremoves₂.trans hremoves₃), fun i hi => by cases hi⟩
    · simp only
      rw [bind_ok hdetach, bind_ok hcommit]
      rfl
    · exact hremoves₃.gone (by simpa using hi)

/-- The entry to be replaced is detached. -/
lemma detachReplacement_spec {replacement : Option ℕ} (h : MemoryInv st hashOf [] [])
    (hreplacement : ∀ i, replacement = some i → (st.shard.entry i).isSome) :
    ∃ d st', detachReplacement replacement st = .ok d st' ∧ Detaching st' hashOf [] d.toList ∧
      Removes st st' [] ∧ d.map DetachedAdmissionEntry.index = replacement := by
  cases replacement with
  | none => exact ⟨none, st, rfl, detaching_nil h, .refl st, rfl⟩
  | some i =>
    obtain ⟨e, he⟩ := Option.isSome_iff_exists.1 (hreplacement i rfl)
    obtain ⟨d, st₁, hdetach, hindex, h₁, hremoves₁⟩ :=
      detachForAdmission_spec (detaching_nil h) he (by simp)
    exact ⟨some d, st₁, by rw [detachReplacement, bind_ok hdetach]; rfl, h₁, hremoves₁, by
      rw [Option.map_some, hindex]⟩

/-- The entry to be replaced is removed for good. -/
lemma commitReplacement_spec {d : Option DetachedAdmissionEntry}
    (h : MemoryInv st hashOf detached []) (hmem : ∀ x ∈ d.toList, x.index ∈ detached)
    (hok : ∀ x ∈ d.toList, DetachedOk st hashOf x) :
    ∃ recycled st', commitReplacement d st = .ok recycled st' ∧
      MemoryInv st' hashOf detached recycled.toList ∧
      Removes st st' (d.toList.map DetachedAdmissionEntry.index) := by
  cases d with
  | none => exact ⟨none, st, rfl, h, .refl st⟩
  | some d =>
    obtain ⟨id, st₁, hcommit, h₁, hremoves₁⟩ := commitDetached_spec h (hmem d (by simp))
      (hok d (by simp)) false
    exact ⟨some id, st₁, hcommit, h₁, hremoves₁⟩

/-- Room is made from the charges of victims. -/
lemma chargeByTransfer_spec {replacement : Option ℕ} (h : MemoryInv st hashOf [] [])
    (hreplacement : ∀ i, replacement = some i → (st.shard.entry i).isSome) (required : ℕ) :
    ∃ result st', chargeByTransfer required replacement st = .ok result st' ∧
      ChargeOutcome st st' hashOf replacement result := by
  obtain ⟨d, st₁, hdetach, h₁, hremoves₁, hindex⟩ := detachReplacement_spec h hreplacement
  have h₁' : Detaching st₁ hashOf [] (([] : List DetachedAdmissionEntry).reverse ++ d.toList) := h₁
  obtain ⟨victims, released, st₂, hselect, h₂, hremoves₂⟩ := selectVictims_spec
    required ((d.filter (·.transfersCharge)).elim 0 DetachedAdmissionEntry.weight)
    maxEvictionsPerInsert maxPolicyScanSteps 0 h₁'
  have havailable := MemoryHeap.undisturbed_availableBytes st₂.heap
  have hremoves₃ := hremoves₁.trans (hremoves₂.trans (removes_heap havailable.toFrame))
  have h₃ : Detaching { st₂ with heap := st₂.heap.availableBytes.2 } hashOf []
      (victims.reverse ++ d.toList) :=
    ⟨h₂.inv.withHeap havailable, h₂.nodup, fun x hx =>
      (h₂.ok x hx).mono (removes_heap havailable.toFrame) List.not_mem_nil⟩
  -- an admission that is given up puts everything back
  have hrestore : ∀ {st₄ : ShardState}, Detaching st₄ hashOf [] (victims.reverse ++ d.toList) →
      Removes st st₄ [] → ∃ result st', (restoreAdmission d victims >>= fun _ =>
        pure (ChargeResult.rejected 0)) st₄ = .ok result st' ∧
          ChargeOutcome st st' hashOf replacement result := by
    intro st₄ h₄ hremoves₄
    obtain ⟨st₅, hrun, h₅, hremoves₅⟩ := restoreAll_spec h₄
    refine ⟨.rejected 0, st₅, ?_, h₅, hremoves₄.trans hremoves₅⟩
    rw [restoreAdmission, bind_ok hrun]
    rfl
  rw [chargeByTransfer, bind_ok hdetach]
  simp only
  rw [bind_ok hselect]
  simp only
  rw [bind_ok (onHeap_apply _ _)]
  split_ifs with hshort
  · exact hrestore h₃ hremoves₃
  have htransfer := MemoryHeap.undisturbed_tryTransferCharge st₂.heap.availableBytes.2
    (Word.saturatingAdd 64 ((d.filter (·.transfersCharge)).elim 0 DetachedAdmissionEntry.weight)
      released) required
  rw [bind_ok (onHeap_apply _ _)]
  generalize st₂.heap.availableBytes.2.tryTransferCharge _ required = attempt at htransfer
  obtain ⟨attempt, heap⟩ := attempt
  have hremoves₄ : Removes { st₂ with heap := st₂.heap.availableBytes.2 } { st₂ with heap } [] :=
    removes_heap htransfer.toFrame
  have h₄ : Detaching { st₂ with heap } hashOf [] (victims.reverse ++ d.toList) :=
    ⟨h₃.inv.withHeap htransfer, h₃.nodup, fun x hx => (h₃.ok x hx).mono hremoves₄
      List.not_mem_nil⟩
  cases attempt with
  | full => exact hrestore h₄ (hremoves₃.trans hremoves₄)
  | contended => exact hrestore h₄ (hremoves₃.trans hremoves₄)
  | charged charge =>
    have hnodup := h₄.nodup
    rw [List.map_append, List.nodup_append] at hnodup
    obtain ⟨recycled, st₅, hcommit, h₅, hremoves₅⟩ := commitReplacement_spec h₄.inv
      (fun x hx => List.mem_map_of_mem (List.mem_append_right _ hx))
      (fun x hx => h₄.ok x (List.mem_append_right _ hx))
    have hvictims : (victims.map DetachedAdmissionEntry.index).Nodup := by simpa using hnodup.1
    obtain ⟨recycled', st₆, hcommit', h₆, hremoves₆⟩ := commitVictims_spec required h₅ hvictims
      (fun x hx => List.mem_map_of_mem (List.mem_append_left _ (List.mem_reverse.2 hx)))
      (fun x hx => (h₄.ok x (List.mem_append_left _ (List.mem_reverse.2 hx))).mono hremoves₅
        fun hm => hnodup.2.2 _ (List.mem_map_of_mem (List.mem_reverse.2 hx)) _ hm rfl)
    have hgone := hremoves₅.trans hremoves₆
    refine ⟨.charged charge victims.length recycled', st₆, ?_, _, h₆.attached fun i hi => ?_,
      (hremoves₃.trans hremoves₄).trans hgone, fun i hi => ?_⟩
    · simp only
      rw [bind_ok hcommit, bind_ok hcommit']
      rfl
    · refine hgone.gone ?_
      simp only [List.map_append, List.map_reverse, List.mem_append, List.mem_reverse] at hi ⊢
      exact hi.symm
    · have hmem : i ∈ d.toList.map DetachedAdmissionEntry.index := by
        rw [hi] at hindex
        obtain ⟨x, rfl, rfl⟩ := Option.map_eq_some_iff.1 hindex
        simp
      simp [hmem]

/-- **Room is made for an entry.** -/
theorem chargeWithEviction_spec {replacement : Option ℕ} (h : MemoryInv st hashOf [] [])
    (hreplacement : ∀ i, replacement = some i → (st.shard.entry i).isSome) (required : ℕ) :
    ∃ result st', chargeWithEviction required replacement st = .ok result st' ∧
      ChargeOutcome st st' hashOf replacement result := by
  rw [chargeWithEviction, bind_ok (get_apply st)]
  split_ifs with hcapacity
  · exact ⟨.rejected 0, st, rfl, h, .refl st⟩
  have hcharge := MemoryHeap.undisturbed_tryCharge st.heap required
  rw [bind_ok (onHeap_apply _ _)]
  generalize st.heap.tryCharge required = attempt at hcharge
  obtain ⟨attempt, heap⟩ := attempt
  have h₁ := h.withHeap hcharge
  have hremoves₁ := removes_heap hcharge.toFrame
  cases attempt with
  | contended => exact ⟨.rejected 0, _, rfl, h₁, hremoves₁⟩
  | full =>
    obtain ⟨result, st', hrun, houtcome⟩ := chargeByTransfer_spec h₁ hreplacement required
    refine ⟨result, st', hrun, ?_⟩
    cases result with
    | rejected evictions => exact ⟨houtcome.1, hremoves₁.trans houtcome.2⟩
    | charged charge evictions recycled =>
      obtain ⟨gone, hinv, hremoves, hmem⟩ := houtcome
      exact ⟨gone, hinv, hremoves₁.trans hremoves, hmem⟩
  | charged charge =>
    simp only
    split_ifs with hslot
    · obtain rfl : replacement = none := by
        cases replacement with
        | none => rfl
        | some i => simp at hslot
      obtain ⟨result, st', hrun, houtcome⟩ := chargeWithSlotEviction_spec h₁ charge
      refine ⟨result, st', hrun, ?_⟩
      cases result with
      | rejected evictions => exact ⟨houtcome.1, hremoves₁.trans houtcome.2⟩
      | charged charge evictions recycled =>
        obtain ⟨gone, hinv, hremoves, hmem⟩ := houtcome
        exact ⟨gone, hinv, hremoves₁.trans hremoves, hmem⟩
    · cases replacement with
      | none => exact ⟨.charged charge 0 none, _, rfl, [], h₁, hremoves₁, fun i hi => by cases hi⟩
      | some i =>
        obtain ⟨e, he⟩ := Option.isSome_iff_exists.1 (hreplacement i rfl)
        obtain ⟨st₂, htake, h₂, hremoves₂⟩ := takeSlot_spec h₁ he
        refine ⟨.charged charge 0 (some e.value), st₂, ?_, _, h₂, hremoves₁.trans hremoves₂,
          fun j hj => ?_⟩
        · rw [takeReplacement, bind_ok htake]
          rfl
        · obtain rfl := Option.some.inj hj
          simp

end ShardM

/-! ## Filling a slot -/

section Fill

variable {st : ShardState} {hashOf : ℕ → BitVec 64} {chains : BitVec 32 → List ℕ}
  {key value : List UInt8} {seqno : BitVec 64} {hash : BitVec 64} {index id : ℕ}

/-- The values of a shard after a new one has been made: it is held, and entries do not see it. -/
lemma Values.created {heap : MemoryHeap} {created recycled : Option ℕ}
    (h : Values st hashOf recycled.toList)
    (hc : MemoryHeap.Created st.heap heap created recycled key value seqno st.shard.values) :
    (∀ id ∈ st.shard.values, created ≠ some id) ∧
      Values { st with heap } hashOf created.toList := by
  have hdisjoint := (List.nodup_append.1 h.nodup).2.2
  have hother : ∀ id ∈ st.shard.values, created ≠ some id := by
    intro id hid hcreated
    rcases (hc.origin id hcreated).1 with hrecycled | hnext
    · exact hdisjoint id hid id (by simp [hrecycled]) rfl
    · have hfresh := h.counted.fresh id (Nat.le_of_eq hnext.symm)
      have hcount := h.counted.strong id
      have hpos : 0 < (st.shard.values ++ recycled.toList).count id :=
        List.count_pos_iff.2 (List.mem_append_left _ hid)
      omega
  have hentry : ∀ i e, st.shard.entry i = some e →
      (heap.inner e.value).bytes = (st.heap.inner e.value).bytes ∧
        (heap.inner e.value).keyLength = (st.heap.inner e.value).keyLength := fun i e he =>
    hc.contents _ (hother _ (mem_values.2 ⟨i, e, he, rfl⟩))
  refine ⟨hother, hc.counted.perm List.perm_append_comm, ?_, fun i e he => ?_, fun i e he => ?_,
    fun i j e e' he he' hh hk => ?_, ?_⟩
  · refine List.nodup_append.2 ⟨(List.nodup_append.1 h.nodup).1, ?_, ?_⟩
    · cases created <;> simp
    · rintro id hid id' hid' rfl
      exact hother id hid (by simpa using hid')
  · obtain ⟨key, value, seqno, hcontains⟩ := h.contents i e he
    exact ⟨key, value, seqno, (hentry i e he).1.trans hcontains.bytes,
      (hentry i e he).2.trans hcontains.keyLength⟩
  · rw [MemoryValueInner.chargedBytes, (hentry i e he).1]
    exact h.small i e he
  · refine h.distinct i j e e' he he' hh ?_
    simpa only [MemoryValueInner.key, (hentry i e he).1, (hentry i e he).2, (hentry j e' he').1,
      (hentry j e' he').2] using hk
  · show st.shard.residentBytes = _
    rw [h.bytes]
    refine congrArg List.sum (List.map_congr_left fun id hid => ?_)
    rw [MemoryValueInner.chargedBytes, MemoryValueInner.chargedBytes,
      (hc.contents id (hother id hid)).1]

/-- The bytes of all entries fit a word. -/
lemma Values.bytes_le (h : Values st hashOf [id]) (hsmall : st.shard.slots.length ≤ deletedValue) :
    st.shard.residentBytes ≤ deletedValue * maxL1EntryBytes := by
  have hlength : st.shard.values.length ≤ st.shard.slots.length := by
    rw [MemoryShard.values]
    refine (List.reduceOption_length_le _).trans ?_
    rw [List.length_map]
  have hsum := List.sum_le_card_nsmul
    (st.shard.values.map fun id => (st.heap.inner id).chargedBytes) maxL1EntryBytes fun x hx => by
      obtain ⟨id, hid, rfl⟩ := List.mem_map.1 hx
      obtain ⟨i, e, he, rfl⟩ := mem_values.1 hid
      exact h.small i e he
  rw [List.length_map, ← h.bytes] at hsum
  exact Nat.le_trans hsum (Nat.mul_le_mul_right _ (hlength.trans hsmall))

/-- **A free slot is filled.** -/
lemma MemoryInv.fill {free : List ℕ} {previous : Option ℕ} {directory : FixedPrehashedMap}
    {chargedBytes : ℕ} (h : MemoryInv st hashOf [] [id]) (hchains : Chains st.shard hashOf chains)
    (hfree : FreeList st.shard (index :: free))
    (hroom : (chains (fixedMapFingerprint hash)).length < maxSameHashEntries)
    (hinsert : st.shard.directory.insert hash index = some (previous, directory))
    (hcontains : st.heap.Contains id key value seqno)
    (hnew : ∀ i e, st.shard.entry i = some e → hashOf i = hash →
      (st.heap.inner e.value).key ≠ key)
    (hcharged : chargedBytes = memoryEntryOverheadBytes + key.length + value.length)
    (hbound : chargedBytes ≤ maxL1EntryBytes) :
    MemoryInv ⟨ShardM.fillSlot { st.shard with directory } index hash
      ⟨id, previous.getD noSlotIndex⟩ chargedBytes, st.heap⟩ (Function.update hashOf index hash) []
      [] := by
  obtain ⟨hlt, hnone⟩ := (hfree.mem_iff index).1 List.mem_cons_self
  have hsmall := h.small
  have hdeleted : index < deletedValue := Nat.lt_of_lt_of_le hlt hsmall
  have hne : index ≠ noSlotIndex := by
    unfold noSlotIndex noPolicySlot
    unfold deletedValue at hdeleted
    omega
  obtain ⟨l, hres⟩ := h.residents
  have hnotin : index ∉ l := fun hm => by simpa [hnone] using ((hres.mem_iff index).1 hm).1
  obtain ⟨hholds, newSlot, hset, hhash⟩ := hres.holds.insert hnotin (h.length ▸ hlt) hne hash
    chargedBytes
  obtain ⟨hvalid, -, hprevious, hmaps⟩ := hchains.directory.insert hdeleted hinsert
  rw [hchains.get_eq] at hprevious
  have hentry : ∀ j, (ShardM.fillSlot { st.shard with directory } index hash
      ⟨id, previous.getD noSlotIndex⟩ chargedBytes).entry j =
        if j = index then some ⟨id, previous.getD noSlotIndex⟩ else st.shard.entry j := fun j =>
    getD_set_entry hlt _
  have hold : ∀ {j e}, st.shard.entry j = some e → j ≠ index := by
    rintro j e he rfl
    rw [hnone] at he
    cases he
  have hpolicy : ∀ j, j ≠ index → policySlot
      (st.shard.eviction.insert st.shard.policySlots index hash chargedBytes).2 j =
        policySlot st.shard.policySlots j := fun j hj => by
    rw [hset, policySlot_set_ne hj]
  have hvalues : (ShardM.fillSlot { st.shard with directory } index hash
      ⟨id, previous.getD noSlotIndex⟩ chargedBytes).values.Perm (id :: st.shard.values) :=
    values_set_some hlt hnone _
  refine ⟨?_, ?_, ⟨free, ?_, fun j => ?_, ?_⟩, ?_, ⟨index :: l, hholds, fun j => ?_,
    fun j hj => ?_⟩, ?_⟩
  · show (st.shard.eviction.insert st.shard.policySlots index hash chargedBytes).2.length =
      (st.shard.slots.set index _).length
    rw [hset, List.length_set, List.length_set, h.length]
  · show (st.shard.slots.set index _).length ≤ deletedValue
    rw [List.length_set]
    exact hsmall
  · show Chain (freeNextOf (st.shard.eviction.insert st.shard.policySlots index hash
      chargedBytes).2) noSlotIndex (freeNextOf st.shard.policySlots index) free
    refine hfree.chain.removeHead fun j hj => ?_
    have hji : j ≠ index := by
      rintro rfl
      exact (List.nodup_cons.1 hfree.chain.nodup).1 hj
    rw [freeNextOf, freeNextOf, hpolicy j hji]
  · rw [hentry]
    show _ ↔ j < (st.shard.slots.set index _).length ∧ _
    rw [List.length_set]
    have hmem := hfree.mem_iff j
    by_cases hj : j = index
    · subst hj
      simp [(List.nodup_cons.1 hfree.chain.nodup).1]
    · simpa [hj] using hmem
  · show st.shard.freeCount - 1 = free.length
    rw [hfree.count, List.length_cons, Nat.add_sub_cancel]
  · -- the new entry is the first one of its chain
    refine ⟨Function.update chains (fixedMapFingerprint hash)
      (index :: chains (fixedMapFingerprint hash)), hvalid, fun f v => ?_, fun f => ?_,
      fun f j => ?_, fun f => ?_⟩
    · show directory.Maps f v ↔ _
      rw [hmaps]
      by_cases hf : f = fixedMapFingerprint hash
      · rw [if_pos hf, hf, Function.update_self]
        simp [eq_comm]
      · rw [if_neg hf, Function.update_of_ne hf]
        exact hchains.heads f v
    · have hkeeps : ∀ j, j ≠ index → (ShardM.fillSlot { st.shard with directory } index hash
          ⟨id, previous.getD noSlotIndex⟩ chargedBytes).hashNextOf j = st.shard.hashNextOf j := by
        intro j hj
        rw [MemoryShard.hashNextOf, hentry, if_neg hj]
        rfl
      have hother : ∀ g, ∀ j ∈ chains g, j ≠ index := by
        intro g j hj
        obtain ⟨e, he⟩ := Option.isSome_iff_exists.1 ((hchains.mem_iff g j).1 hj).1
        exact hold he
      by_cases hf : f = fixedMapFingerprint hash
      · subst hf
        rw [Function.update_self]
        refine (hchains.chain _).push (fun hm => hother _ index hm rfl) hne ?_ fun j hj =>
          hkeeps j (hother _ j hj)
        rw [List.headD_cons, MemoryShard.hashNextOf, hentry, if_pos rfl, hprevious,
          List.headD_eq_head?_getD]
        rfl
      · rw [Function.update_of_ne hf]
        exact (hchains.chain f).congr fun j hj => hkeeps j (hother f j hj)
    · rw [hentry]
      by_cases hj : j = index
      · subst hj
        have habsent : j ∉ chains f := fun hm => by
          simpa [hnone] using ((hchains.mem_iff f j).1 hm).1
        by_cases hf : f = fixedMapFingerprint hash
        · subst hf
          simp [Function.update_self]
        · rw [Function.update_of_ne hf]
          simp [habsent, Function.update_self, Ne.symm hf]
      · rw [if_neg hj, Function.update_of_ne hj, ← hchains.mem_iff]
        by_cases hf : f = fixedMapFingerprint hash
        · subst hf
          simp [Function.update_self, hj]
        · rw [Function.update_of_ne hf]
    · by_cases hf : f = fixedMapFingerprint hash
      · subst hf
        rw [Function.update_self, List.length_cons]
        exact hroom
      · rw [Function.update_of_ne hf]
        exact hchains.bounded f
  · rw [List.mem_cons, hres.mem_iff, hentry]
    by_cases hj : j = index
    · simp [hj]
    · simp [hj]
  · show (policySlot (st.shard.eviction.insert st.shard.policySlots index hash
      chargedBytes).2 j).hash = _
    by_cases hji : j = index
    · subst hji
      rw [hset, policySlot_set (h.length ▸ hlt), if_pos rfl, hhash, Function.update_self]
    · rw [hpolicy j hji, Function.update_of_ne hji]
      exact hres.hash j ((List.mem_cons.1 hj).resolve_left hji)
  · have hperm : (st.shard.values ++ [id]).Perm ((ShardM.fillSlot { st.shard with directory } index
        hash ⟨id, previous.getD noSlotIndex⟩ chargedBytes).values ++ []) := by
      rw [List.append_nil]
      exact (List.perm_append_singleton id _).trans hvalues.symm
    obtain ⟨hkey, -, -, hbytes⟩ := hcontains.reads
    refine ⟨h.values.counted.perm hperm, hperm.nodup_iff.1 h.values.nodup, fun i e he => ?_,
      fun i e he => ?_, fun i j e e' he he' hh hk => ?_, ?_⟩
    · rw [hentry] at he
      by_cases hi : i = index
      · rw [if_pos hi] at he
        obtain rfl := Option.some.inj he
        exact ⟨key, value, seqno, hcontains⟩
      · rw [if_neg hi] at he
        exact h.values.contents i e he
    · rw [hentry] at he
      by_cases hi : i = index
      · rw [if_pos hi] at he
        obtain rfl := Option.some.inj he
        show (st.heap.inner id).chargedBytes ≤ maxL1EntryBytes
        rw [hbytes, ← hcharged]
        exact hbound
      · rw [if_neg hi] at he
        exact h.values.small i e he
    · rw [hentry] at he he'
      by_cases hi : i = index <;> by_cases hj : j = index
      · rw [hi, hj]
      · rw [if_pos hi] at he
        rw [if_neg hj] at he'
        obtain rfl := Option.some.inj he
        rw [hi, Function.update_self, Function.update_of_ne hj] at hh
        exact absurd (hk.symm.trans hkey) (hnew j e' he' hh.symm)
      · rw [if_neg hi] at he
        rw [if_pos hj] at he'
        obtain rfl := Option.some.inj he'
        rw [hj, Function.update_self, Function.update_of_ne hi] at hh
        exact absurd (hk.trans hkey) (hnew i e he hh)
      · rw [if_neg hi] at he
        rw [if_neg hj] at he'
        rw [Function.update_of_ne hi, Function.update_of_ne hj] at hh
        exact h.values.distinct i j e e' he he' hh hk
    · show Word.saturatingAdd 64 st.shard.residentBytes chargedBytes = _
      have hfits : st.shard.residentBytes + chargedBytes ≤ 2 ^ 64 - 1 := by
        have := h.values.bytes_le hsmall
        unfold deletedValue at this
        unfold maxL1EntryBytes at this hbound
        omega
      rw [Word.saturatingAdd, Nat.min_eq_left hfits, (hvalues.map _).sum_eq, List.map_cons,
        List.sum_cons, hbytes, ← hcharged, ← h.values.bytes, Nat.add_comm]

end Fill

/-! ## Admitting an entry -/

section Admit

variable {st st' st'' : ShardState} {hashOf hashOf' hashOf'' : ℕ → BitVec 64} {new : Option ℕ}

/-- The slot has an entry with the hash, key, value and sequence number. -/
def ResidentAt (st : ShardState) (hashOf : ℕ → BitVec 64) (index : ℕ) (hash : BitVec 64)
    (key value : List UInt8) (seqno : BitVec 64) : Prop :=
  ∃ e, st.shard.entry index = some e ∧ hashOf index = hash ∧
    st.heap.Contains e.value key value seqno

/-- Entries other than a new one were there before, with the same contents. -/
def Evolves (st st' : ShardState) (hashOf hashOf' : ℕ → BitVec 64) (new : Option ℕ) : Prop :=
  ∀ i hash key value seqno, new ≠ some i → ResidentAt st' hashOf' i hash key value seqno →
    ResidentAt st hashOf i hash key value seqno

/-- An operation that only removes entries. -/
lemma Removes.evolves {gone : List ℕ} (h : Removes st st' gone) :
    Evolves st st' hashOf hashOf none := by
  rintro i hash key value seqno - ⟨e, he, hh, hc⟩
  obtain ⟨-, e₀, he₀, hv⟩ := h.entry he
  have hcontents := h.frame.contents e₀.value
  rw [hv] at hcontents
  exact ⟨e₀, he₀, hh, by rw [hv]; exact hcontents.1.symm.trans hc.bytes, by
    rw [hv]; exact hcontents.2.symm.trans hc.keyLength⟩

lemma Evolves.trans (h : Evolves st st' hashOf hashOf' none)
    (h' : Evolves st' st'' hashOf' hashOf'' new) : Evolves st st'' hashOf hashOf'' new :=
  fun i hash key value seqno hne hres => h i hash key value seqno (by simp)
    (h' i hash key value seqno hne hres)

/-- An entry has one content. -/
lemma ResidentAt.unique {index : ℕ} {hash hash' : BitVec 64} {key key' value value' : List UInt8}
    {seqno seqno' : BitVec 64} (h : ResidentAt st hashOf index hash key value seqno)
    (h' : ResidentAt st hashOf index hash' key' value' seqno') :
    hash = hash' ∧ key = key' ∧ value = value' ∧ seqno = seqno' := by
  obtain ⟨e, he, rfl, hc⟩ := h
  obtain ⟨e', he', rfl, hc'⟩ := h'
  obtain rfl : e = e' := Option.some.inj (he.symm.trans he')
  obtain ⟨hk, hv, hs, -⟩ := hc.reads
  obtain ⟨hk', hv', hs', -⟩ := hc'.reads
  exact ⟨rfl, hk.symm.trans hk', hv.symm.trans hv', hs.symm.trans hs'⟩

end Admit

namespace ShardM

variable {st : ShardState} {hashOf : ℕ → BitVec 64}

/-- What an insertion comes to. -/
def InsertOutcome (st st' : ShardState) (hashOf : ℕ → BitVec 64) (hash : BitVec 64)
    (key value : List UInt8) (seqno : BitVec 64) (slot : Option ℕ) : Prop :=
  ∃ hashOf', MemoryInv st' hashOf' [] [] ∧ Evolves st st' hashOf hashOf' slot ∧
    ∀ i, slot = some i → ResidentAt st' hashOf' i hash key value seqno

/-- An insertion that does not succeed. -/
lemma InsertOutcome.none {st' : ShardState} {hash : BitVec 64} {key value : List UInt8}
    {seqno : BitVec 64} (h : MemoryInv st' hashOf [] [])
    (he : Evolves st st' hashOf hashOf none) :
    InsertOutcome st st' hashOf hash key value seqno none :=
  ⟨hashOf, h, he, fun i hi => by cases hi⟩

/-- The new entry takes the first free slot. -/
lemma admitCharged_spec {recycled : Option ℕ} {hash : BitVec 64} {key value : List UInt8}
    {chargedBytes : ℕ} (h : MemoryInv st hashOf [] recycled.toList)
    (hroom : ∀ chains, Chains st.shard hashOf chains →
      (chains (fixedMapFingerprint hash)).length < maxSameHashEntries)
    (hnew : ∀ i e, st.shard.entry i = some e → hashOf i = hash →
      (st.heap.inner e.value).key ≠ key)
    (hcharged : chargedBytes = memoryEntryOverheadBytes + key.length + value.length)
    (hbound : chargedBytes ≤ maxL1EntryBytes) (seqno : BitVec 64) (charge : MemoryCharge)
    (evictions : ℕ) :
    Ends (admitCharged hash key value seqno chargedBytes charge evictions recycled) st
      (fun result st' => InsertOutcome st st' hashOf hash key value seqno result.slot)
      (fun panic st' => panic = .directoryInsertion ∧
        InsertOutcome st st' hashOf hash key value seqno none) := by
  unfold admitCharged
  refine Ends.bind_ok (get_apply st) ?_
  simp only
  split_ifs with hfull
  · -- no slot is free
    have h₀ : MemoryInv st hashOf [] (recycled.toList ++ []) := by rwa [List.append_nil]
    obtain ⟨st₁, hdrop, h₁, hremoves₁⟩ := dropOption_spec recycled h₀
    have hcharge := MemoryHeap.undisturbed_dropCharge st₁.heap charge
    refine Ends.bind_ok hdrop (Ends.bind_ok (modifyHeap_apply _ _) (Ends.pure ?_))
    exact .none (h₁.withHeap hcharge) (hremoves₁.trans (removes_heap hcharge.toFrame)).evolves
  have hrecycled : ∀ id, recycled = some id → id ∉ st.shard.values := by
    rintro id rfl hid
    exact (List.nodup_append.1 h.values.nodup).2.2 id hid id (by simp) rfl
  have hcreated := MemoryHeap.tryNew_spec (h.values.counted.perm List.perm_append_comm) hrecycled
    key value seqno charge
  refine Ends.bind_ok (onHeap_apply _ _) ?_
  generalize st.heap.tryNew key value seqno charge recycled = made at hcreated
  obtain ⟨made, heap⟩ := made
  obtain ⟨hother, hvalues⟩ := h.values.created hcreated
  have h₁ : MemoryInv { st with heap } hashOf [] made.toList :=
    ⟨h.length, h.small, h.free, h.chains, h.residents, hvalues⟩
  cases made with
  | none =>
    exact Ends.pure (.none h₁ (removes_heap (hcreated.frame rfl)).evolves)
  | some id =>
    -- entries that were there keep their contents
    have hevolves : Evolves st { st with heap } hashOf hashOf none := by
      rintro i hash key value seqno - ⟨e, he, hh, hc⟩
      have hcontents := hcreated.contents e.value (hother _ (mem_values.2 ⟨i, e, he, rfl⟩))
      exact ⟨e, he, hh, hcontents.1.symm.trans hc.bytes, hcontents.2.symm.trans hc.keyLength⟩
    refine Ends.bind_ok (get_apply _) ?_
    simp only
    cases hinsert : st.shard.directory.insert hash st.shard.freeHead with
    | none =>
      obtain ⟨st₂, hdrop, h₂, hremoves₂⟩ := dropOption_spec (some id) h₁
      refine Ends.bind_ok hdrop ?_
      exact ⟨rfl, .none h₂ (hevolves.trans hremoves₂.evolves)⟩
    | some inserted =>
      obtain ⟨previous, directory⟩ := inserted
      obtain ⟨free, hfree⟩ := h₁.free
      obtain ⟨rest, rfl, -⟩ := hfree.chain.exists_cons hfull
      obtain ⟨chains, hchains⟩ := h₁.chains
      have hcontains := (hcreated.origin id rfl).2.2.2
      have hlt := ((hfree.mem_iff _).1 List.mem_cons_self).1
      have hinv := h₁.fill hchains hfree (hroom chains hchains) hinsert hcontains
        (fun i e he hh => by
          have hcontents := hcreated.contents e.value (hother _ (mem_values.2 ⟨i, e, he, rfl⟩))
          rw [MemoryValueInner.key, hcontents.1, hcontents.2]
          exact hnew i e he hh)
        hcharged hbound
      refine Ends.bind_ok (modifyShard_apply _ _) (Ends.pure ⟨_, hinv, ?_, ?_⟩)
      · refine hevolves.trans ?_
        rintro i hash' key' value' seqno' hne ⟨e, he, hh, hc⟩
        have hi : i ≠ st.shard.freeHead := fun hi => hne (by rw [hi])
        have hentry := getD_set_entry hlt (some ⟨id, previous.getD noSlotIndex⟩) (j := i)
        rw [if_neg hi] at hentry
        rw [Function.update_of_ne hi] at hh
        exact ⟨e, hentry.symm.trans he, hh, hc⟩
      · rintro i hi
        obtain rfl : st.shard.freeHead = i := Option.some.inj hi
        have hentry := getD_set_entry hlt (some ⟨id, previous.getD noSlotIndex⟩)
          (j := st.shard.freeHead)
        rw [if_pos rfl] at hentry
        exact ⟨_, hentry, Function.update_self _ _ _, hcontains⟩

/-- **An entry is admitted**, in the place of the one with its hash and key if there is one. -/
theorem insert_spec {hash : BitVec 64} {key value : List UInt8} {chargedBytes : ℕ}
    (h : MemoryInv st hashOf [] [])
    (hcharged : chargedBytes = memoryEntryOverheadBytes + key.length + value.length)
    (hbound : chargedBytes ≤ maxL1EntryBytes) (seqno : BitVec 64) :
    Ends (insert hash key value seqno chargedBytes (st.shard.find st.heap hash key)) st
      (fun result st' => InsertOutcome st st' hashOf hash key value seqno result.slot)
      (fun panic st' => panic = .directoryInsertion ∧
        InsertOutcome st st' hashOf hash key value seqno none) := by
  unfold insert
  refine Ends.bind_ok (get_apply st) ?_
  simp only
  split_ifs with hbypass
  · exact Ends.pure (.none h (Removes.refl st).evolves)
  rw [not_or, not_and] at hbypass
  obtain ⟨result, st₁, hcharge, houtcome⟩ := chargeWithEviction_spec h (fun i hi => by
    obtain ⟨e, he, -⟩ := h.find_eq_some_iff.1 hi
    simp [he]) chargedBytes
  refine Ends.bind_ok hcharge ?_
  cases result with
  | rejected evictions => exact Ends.pure (.none houtcome.1 houtcome.2.evolves)
  | charged charge evictions recycled =>
    obtain ⟨gone, h₁, hremoves, hgone⟩ := houtcome
    refine (admitCharged_spec h₁ ?_ ?_ hcharged hbound seqno charge evictions).mono ?_ ?_
    · intro chains₁ hchains₁
      obtain ⟨chains, hchains⟩ := h.chains
      have hsub : chains₁ (fixedMapFingerprint hash) ⊆ chains (fixedMapFingerprint hash) := by
        intro i hi
        obtain ⟨hsome, hf⟩ := (hchains₁.mem_iff _ i).1 hi
        obtain ⟨e, he⟩ := Option.isSome_iff_exists.1 hsome
        obtain ⟨-, e₀, he₀, -⟩ := hremoves.entry he
        exact (hchains.mem_iff _ i).2 ⟨by simp [he₀], hf⟩
      have hnodup₁ := (hchains₁.chain (fixedMapFingerprint hash)).nodup
      cases hfind : st.shard.find st.heap hash key with
      | none =>
        have hlt := hchains.length_lt (by simpa [hfind] using hbypass.1)
        exact Nat.lt_of_le_of_lt (List.subperm_of_subset hnodup₁ hsub).length_le hlt
      | some i =>
        -- the entry to be replaced has left the chain
        obtain ⟨e, he, hh, -⟩ := h.find_eq_some_iff.1 hfind
        have hmem : i ∈ chains (fixedMapFingerprint hash) :=
          (hchains.mem_iff _ i).2 ⟨by simp [he], by rw [hh]⟩
        have habsent : i ∉ chains₁ (fixedMapFingerprint hash) := fun hm => by
          simpa [hremoves.gone (hgone i hfind)] using ((hchains₁.mem_iff _ i).1 hm).1
        have hsub' : chains₁ (fixedMapFingerprint hash) ⊆
            (chains (fixedMapFingerprint hash)).erase i := by
          intro j hj
          have hji : j ≠ i := by
            rintro rfl
            exact habsent hj
          exact (List.mem_erase_of_ne hji).2 (hsub hj)
        have hlen := (List.subperm_of_subset hnodup₁ hsub').length_le
        rw [List.length_erase_of_mem hmem] at hlen
        have hbounded := hchains.bounded (fixedMapFingerprint hash)
        have := List.length_pos_of_mem hmem
        omega
    · intro i e he hh hk
      obtain ⟨hnotin, e₀, he₀, hv⟩ := hremoves.entry he
      rw [(hremoves.frame.contents.reads _).1, ← hv] at hk
      exact hnotin (hgone i (h.find_eq_some_iff.2 ⟨e₀, he₀, hh, hk⟩))
    · rintro result st' ⟨hashOf', hinv, hevolves, hnew⟩
      exact ⟨hashOf', hinv, hremoves.evolves.trans hevolves, hnew⟩
    · rintro panic st' ⟨hpanic, hashOf', hinv, hevolves, hnew⟩
      exact ⟨hpanic, hashOf', hinv, hremoves.evolves.trans hevolves, hnew⟩

end ShardM

end Cache2

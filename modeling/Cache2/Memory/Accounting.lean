import Cache2.Memory.Ledger
import Cache2.Memory.SequenceOrder

set_option relaxedAutoImplicit false
set_option autoImplicit false

/-!
# Operations keep the books of the budget

Every operation of a shard is a sequence of accesses to the heap, each of which is safe, and ends
with the books in order. An admission transfers the charges of entries that it has detached; no
caller retains their values then, so that no caller can get at them before they are disarmed.

## Main definitions

* `Cache2.MemoryHeap.Booked` — a sequence of safe accesses that ends with the books in order.
* `Cache2.owedValues` — the values whose charges a detached entry gives to the new one.

## Main results

* `Cache2.ShardM.selectVictims_booked` — the charges of victims.
* `Cache2.ShardM.chargeByTransfer_booked` — their transfer.
* `Cache2.ShardM.insert_booked` — admissions.
-/

namespace Cache2

open Loop

/-- The heap comes from `h` to `h'` by safe accesses, and its books are in order. -/
abbrev MemoryHeap.Booked (h h' : MemoryHeap) (held : List ℕ) (pending : ℕ) (owed : List ℕ) : Prop :=
  h'.Ledger held pending owed ∧ MemoryHeap.Path h h'

/-- More happened before. -/
lemma MemoryHeap.Booked.after {h₀ h h' : MemoryHeap} {held owed : List ℕ} {pending : ℕ}
    (hb : h.Booked h' held pending owed) (hpath : MemoryHeap.Path h₀ h) :
    h₀.Booked h' held pending owed := ⟨hb.1, hpath.trans hb.2⟩

section Held

variable {h : MemoryHeap} {held owed : List ℕ} {pending id : ℕ}

/-- One more value is held. -/
lemma MemoryHeap.Ledger.hold (hl : h.Ledger held pending owed) (id : ℕ) :
    h.Ledger (id :: held) pending owed :=
  ⟨hl.capacity, hl.fits, hl.charged, fun j hj ha =>
    ⟨List.mem_cons_of_mem _ (hl.armed j hj ha).1, (hl.armed j hj ha).2⟩, hl.nodup, hl.exclusive,
    hl.balance⟩

/-- The order of the values that are held does not matter. -/
lemma MemoryHeap.Ledger.perm {held' : List ℕ} (hl : h.Ledger held pending owed)
    (hp : held.Perm held') : h.Ledger held' pending owed :=
  ⟨hl.capacity, hl.fits, hl.charged, fun j hj ha =>
    ⟨hp.subset (hl.armed j hj ha).1, (hl.armed j hj ha).2⟩, hl.nodup, hl.exclusive, hl.balance⟩

end Held

/-- The values whose charges a detached entry gives to the new one. -/
def owedValues (s : MemoryShard) (d : DetachedAdmissionEntry) : List ℕ :=
  if d.transfersCharge = true then (s.valueOf d.index).toList else []

/-- The reference of an entry to its value is one of those that are counted, and there is no other
one. -/
lemma MemoryInv.counted_entry {st : ShardState} {hashOf : ℕ → BitVec 64} {detached held : List ℕ}
    (h : MemoryInv st hashOf detached held) {index : ℕ} {e : MemoryEntry}
    (he : st.shard.entry index = some e) :
    ∃ refs, st.heap.Counted (e.value :: refs) ∧ e.value ∉ refs := by
  have hmem : e.value ∈ st.shard.values ++ held :=
    List.mem_append_left _ (mem_values.2 ⟨index, e, he, rfl⟩)
  have hperm := List.perm_cons_erase hmem
  exact ⟨_, h.values.counted.perm hperm,
    (List.nodup_cons.1 (hperm.nodup_iff.1 h.values.nodup)).1⟩

/-- Entries have values of their own. -/
lemma valueOf_injective {s : MemoryShard} (hnodup : s.values.Nodup) {i j id : ℕ}
    (hi : s.valueOf i = some id) (hj : s.valueOf j = some id) : i = j := by
  obtain ⟨e, he, rfl⟩ := Option.map_eq_some_iff.1 hi
  obtain ⟨e', he', hvalue⟩ := Option.map_eq_some_iff.1 hj
  by_contra hne
  -- without the one entry, the list of values still has the value of the other one
  have hperm : s.values.Perm
      (e.value :: ({ s with slots := s.slots.set i none } : MemoryShard).values) :=
    values_set_none he
  have hremains : e.value ∈ ({ s with slots := s.slots.set i none } : MemoryShard).values := by
    refine mem_values.2 ⟨j, e', ?_, hvalue⟩
    rw [MemoryShard.entry, getD_set_entry (entry_lt he), if_neg (Ne.symm hne)]
    exact he'
  exact (List.nodup_cons.1 (hperm.nodup_iff.1 hnodup)).1 hremains

section Detaching

variable {st : ShardState} {hashOf : ℕ → BitVec 64} {ds : List DetachedAdmissionEntry}
  {d : DetachedAdmissionEntry} {pending id : ℕ}

lemma mem_owedValues {s : MemoryShard} :
    id ∈ owedValues s d ↔ d.transfersCharge = true ∧ s.valueOf d.index = some id := by
  unfold owedValues
  split_ifs with htransfers <;> simp [htransfers]

/-- The value of an entry is one of the shard. -/
lemma mem_values_of_valueOf {s : MemoryShard} {i : ℕ} (h : s.valueOf i = some id) :
    id ∈ s.values := by
  obtain ⟨e, he, hvalue⟩ := Option.map_eq_some_iff.1 h
  exact mem_values.2 ⟨i, e, he, hvalue⟩

/-- Other entries may go. -/
lemma owedValues_removes {st' : ShardState} {gone : List ℕ} (h : Removes st st' gone)
    (hd : d.index ∉ gone) : owedValues st'.shard d = owedValues st.shard d := by
  rw [owedValues, owedValues, h.values, if_neg hd]

/-- What is owed for an entry. -/
lemma DetachedOk.owedValues_eq {e : MemoryEntry} (he : st.shard.entry d.index = some e) :
    owedValues st.shard d = if d.transfersCharge = true then [e.value] else [] := by
  rw [owedValues, MemoryShard.valueOf, he]
  rfl

/-- The books of a detached entry: no caller retains the value whose charge is to be transferred,
and the charge is the weight of the entry. -/
lemma DetachedOk.owed {detached : List ℕ} (hok : DetachedOk st hashOf d)
    (h : MemoryInv st hashOf detached []) (hl : st.heap.Ledger [] pending []) :
    st.heap.Exclusive (owedValues st.shard d) ∧
      ((owedValues st.shard d).map st.heap.armedBytes).sum =
        if d.transfersCharge = true then d.weight else 0 := by
  obtain ⟨e, he, hweight, hretained⟩ := hok.entry
  rw [owedValues_eq he]
  by_cases htransfers : d.transfersCharge = true
  · obtain ⟨refs, hcounted, -⟩ := h.counted_entry he
    have hlive : st.heap.strong e.value ≠ 0 := by
      rw [hcounted.strong, List.count_cons_self]
      omega
    have harmed : (st.heap.inner e.value).charge.armed = true := by
      by_contra hf
      exact List.not_mem_nil (hl.armed e.value hlive (by simpa using hf)).1
    rw [if_pos htransfers, if_pos htransfers]
    refine ⟨fun id hid => ?_, ?_⟩
    · obtain rfl := List.mem_singleton.1 hid
      exact ⟨hlive, harmed, hretained htransfers⟩
    · rw [List.map_singleton, List.sum_singleton, MemoryHeap.armedBytes, if_pos ⟨hlive, harmed⟩,
        hl.charged e.value hlive, hweight]
  · rw [if_neg htransfers, if_neg htransfers]
    exact ⟨fun id hid => absurd hid List.not_mem_nil, rfl⟩

/-- The charges of detached entries. -/
lemma Detaching.owed (h : Detaching st hashOf [] ds) (hl : st.heap.Ledger [] pending []) :
    (ds.flatMap (owedValues st.shard)).Nodup ∧
      st.heap.Exclusive (ds.flatMap (owedValues st.shard)) ∧
      ((ds.flatMap (owedValues st.shard)).map st.heap.armedBytes).sum =
        ((ds.filter (·.transfersCharge)).map DetachedAdmissionEntry.weight).sum := by
  have hvalues : st.shard.values.Nodup := (List.nodup_append.1 h.inv.values.nodup).1
  refine ⟨List.nodup_flatMap.2 ⟨fun d hd => ?_, ?_⟩, fun id hid => ?_, ?_⟩
  · obtain ⟨e, he, -⟩ := (h.ok d hd).entry
    rw [DetachedOk.owedValues_eq he]
    split_ifs <;> simp
  · refine (List.pairwise_map.1 h.nodup).imp fun hne id hid hid' => hne ?_
    exact valueOf_injective hvalues (mem_owedValues.1 hid).2 (mem_owedValues.1 hid').2
  · obtain ⟨d, hd, hid⟩ := List.mem_flatMap.1 hid
    exact ((h.ok d hd).owed h.inv hl).1 id hid
  · have hsum : ∀ ds' : List DetachedAdmissionEntry, (∀ d ∈ ds', DetachedOk st hashOf d) →
        ((ds'.flatMap (owedValues st.shard)).map st.heap.armedBytes).sum =
          ((ds'.filter (·.transfersCharge)).map DetachedAdmissionEntry.weight).sum := by
      intro ds' hok
      induction ds' with
      | nil => rfl
      | cons d ds' ih =>
        rw [List.flatMap_cons, List.map_append, List.sum_append, List.filter_cons,
          ih fun d' hd' => hok d' (List.mem_cons_of_mem _ hd'),
          ((hok d List.mem_cons_self).owed h.inv hl).2]
        split_ifs <;> simp
    exact hsum ds h.ok

/-- The heap changes where the shard does not look. -/
lemma Detaching.withHeap {held : List ℕ} {heap : MemoryHeap} (h : Detaching st hashOf held ds)
    (hu : st.heap.Undisturbed heap) : Detaching { st with heap } hashOf held ds :=
  ⟨h.inv.withHeap hu, h.nodup, fun d hd => (h.ok d hd).mono (removes_heap hu.toFrame)
    List.not_mem_nil⟩

/-- The order of the detached entries does not matter. -/
lemma Detaching.perm {held : List ℕ} {ds' : List DetachedAdmissionEntry}
    (h : Detaching st hashOf held ds) (hp : ds.Perm ds') : Detaching st hashOf held ds' := by
  have hindex := hp.map DetachedAdmissionEntry.index
  exact ⟨h.inv.detached_congr fun i _ => hindex.mem_iff, hindex.nodup_iff.1 h.nodup,
    fun d hd => h.ok d (hp.mem_iff.2 hd)⟩

/-- The weights of detached entries whose charges are to be transferred fit the counter. -/
lemma Detaching.weights_le (h : Detaching st hashOf [] ds) (hl : st.heap.Ledger [] 0 []) :
    ((ds.filter (·.transfersCharge)).map DetachedAdmissionEntry.weight).sum ≤
      st.heap.usedBytes := by
  obtain ⟨hnodup, hexclusive, hsum⟩ := h.owed hl
  have hle := MemoryHeap.sum_armedBytes_le hnodup fun j hj =>
    h.inv.values.counted.lt_next (hexclusive j hj).1
  have hbalance := hl.balance
  simp only [List.map_nil, List.sum_nil, Nat.add_zero] at hbalance
  rw [← hsum, hbalance]
  exact hle

end Detaching

namespace ShardM

variable {st st' : ShardState} {hashOf : ℕ → BitVec 64} {detached held owed : List ℕ}
  {index pending : ℕ} {e : MemoryEntry}

/-! ## Removing entries -/

/-- The heap does not see entries leave their chains. -/
lemma unlinkFromChain_heap {hash : BitVec 64} {predecessor : Option ℕ}
    (h : unlinkFromChain hash e predecessor st = .ok () st') : st'.heap = st.heap := by
  cases predecessor with
  | some predecessor =>
    rw [unlinkFromChain, expectEntry, bind_assoc, bind_ok (get_apply st)] at h
    cases hentry : st.shard.entry predecessor with
    | none =>
      rw [hentry] at h
      cases h
    | some before =>
      rw [hentry] at h
      cases h
      rfl
  | none =>
    simp only [unlinkFromChain] at h
    split_ifs at h with hlast
    · cases h
      rfl
    · rw [directoryUpsert, bind_assoc, bind_ok (get_apply st)] at h
      cases hinsert : st.shard.directory.insert hash e.hashNext with
      | none =>
        rw [hinsert] at h
        cases h
      | some inserted =>
        rw [hinsert] at h
        cases h
        rfl

/-- The heap only sees the charge of a value that is disarmed. -/
lemma disarmIf_heap {transfer : Bool} {id : ℕ} (h : disarmIf transfer id st = .ok () st') :
    if transfer = true then st.heap.disarmExclusiveCharge id = some st'.heap
    else st'.heap = st.heap := by
  cases transfer with
  | false =>
    cases h
    rfl
  | true =>
    rw [if_pos rfl]
    rw [disarmIf, if_pos rfl, bind_ok (get_apply st)] at h
    cases hdisarm : st.heap.disarmExclusiveCharge id with
    | none =>
      rw [hdisarm] at h
      cases h
    | some heap =>
      rw [hdisarm] at h
      cases h
      rfl

/-- The same of the removal of an entry. -/
lemma removeSlotAfterPolicy_heap {hash : BitVec 64} {transfer : Bool} {id : ℕ}
    (h : removeSlotAfterPolicy index hash transfer st = .ok (some id) st')
    (he : st.shard.entry index = some e) :
    if transfer = true then st.heap.disarmExclusiveCharge e.value = some st'.heap
    else st'.heap = st.heap := by
  rw [removeSlotAfterPolicy, bind_ok (get_apply st)] at h
  cases hwalk : (st.shard.directory.get hash).bind fun head =>
      st.shard.predecessorLoop index maxSameHashEntries head none with
  | none =>
    simp only [hwalk] at h
    cases h
  | some predecessor =>
    simp only [hwalk] at h
    rw [bind_ok (expectEntry_eq he)] at h
    obtain ⟨⟨⟩, st₁, hunlink, h⟩ := bind_eq_ok.1 h
    rw [bind_ok (get_apply st₁)] at h
    obtain ⟨⟨⟩, st₂, hdisarm, h⟩ := bind_eq_ok.1 h
    obtain ⟨entry, st₃, hentry, h⟩ := bind_eq_ok.1 h
    have hheap : st'.heap = st₂.heap := by
      rw [expectEntry, bind_ok (get_apply st₂)] at hentry
      cases hsome : st₂.shard.entry index with
      | none =>
        rw [hsome] at hentry
        cases hentry
      | some e' =>
        rw [hsome] at hentry
        cases hentry
        cases h
        rfl
    rw [hheap, ← unlinkFromChain_heap hunlink]
    exact disarmIf_heap hdisarm

/-- A removal keeps the books, and a charge that was transferred is disarmed. -/
lemma removeSlotAfterPolicy_booked {transfer : Bool} {value : Option ℕ}
    (h : MemoryInv st hashOf detached held) (he : st.shard.entry index = some e)
    (hdetached : index ∈ detached) (htransfer : transfer = true → e.value ∉ st.heap.retained)
    (hl : st.heap.Ledger held pending (if transfer = true then e.value :: owed else owed))
    (hrun : removeSlotAfterPolicy index (hashOf index) transfer st = .ok value st') :
    st.heap.Booked st'.heap (e.value :: held) pending owed := by
  obtain ⟨st₁, hrun₁, -, -⟩ := removeSlotAfterPolicy_spec h he hdetached transfer htransfer
  obtain ⟨rfl, rfl⟩ := EStateM.Result.ok.inj (hrun₁.symm.trans hrun)
  have hheap := removeSlotAfterPolicy_heap hrun he
  cases transfer with
  | false =>
    rw [show st₁.heap = st.heap from hheap]
    exact ⟨hl.hold e.value, .refl _⟩
  | true =>
    obtain ⟨refs, hcounted, hnotin⟩ := h.counted_entry he
    exact hl.disarm hcounted hnotin hheap

/-- An entry that is taken out of the policy and its chain does not show in the heap. -/
lemma takeSlot_heap {id : ℕ} (h : takeSlot index st = .ok (some id) st')
    (he : st.shard.entry index = some e) : st'.heap = st.heap := by
  rw [takeSlot, bind_ok (get_apply st)] at h
  simp only [he] at h
  rw [bind_ok (modifyShard_apply _ _)] at h
  exact removeSlotAfterPolicy_heap (e := e) h he

/-- A value that is held is dropped, or there is none. -/
lemma dropOption_booked (value : Option ℕ)
    (h : MemoryInv st hashOf detached (value.toList ++ held))
    (hl : st.heap.Ledger (value.toList ++ held) pending owed)
    (howed : ∀ id ∈ owed, id ∈ st.shard.values) :
    st.heap.Booked (value.elim st.heap st.heap.dropValue) held pending owed := by
  cases value with
  | none => exact ⟨hl, .refl _⟩
  | some id =>
    have hperm : (st.shard.values ++ id :: held).Perm (id :: (st.shard.values ++ held)) :=
      List.perm_middle
    have hnotin := (List.nodup_cons.1 (hperm.nodup_iff.1 h.values.nodup)).1
    exact hl.dropValue (h.values.counted.perm hperm) hnotin fun hid =>
      hnotin (List.mem_append_left _ (howed id hid))

/-- An entry is removed. -/
lemma removeSlot_booked (h : MemoryInv st hashOf [] held) (he : st.shard.entry index = some e)
    (hl : st.heap.Ledger held pending [])
    (hrun : removeSlot index st = .ok () st') : st.heap.Booked st'.heap held pending [] := by
  obtain ⟨st₁, htake, h₁, -⟩ := takeSlot_spec h he
  rw [removeSlot, bind_ok htake, dropOption_apply] at hrun
  obtain ⟨-, rfl⟩ := EStateM.Result.ok.inj hrun
  have hheap := takeSlot_heap htake he
  rw [← hheap]
  exact dropOption_booked (some e.value) h₁ (hheap ▸ hl.hold e.value) fun id hid => by
    cases hid

/-! ## Detaching entries -/

/-- An entry is detached; if no caller retains its value, then its charge is to be transferred. -/
lemma detachForAdmission_booked {d : DetachedAdmissionEntry}
    (h : MemoryInv st hashOf detached held) (he : st.shard.entry index = some e)
    (hl : st.heap.Ledger held pending owed) (hrun : detachForAdmission index st = .ok d st') :
    st.heap.Booked st'.heap held pending owed ∧
      (e.value ∉ st.heap.retained → d.transfersCharge = true) := by
  obtain ⟨policy, eviction, policySlots, hdetach⟩ : ∃ policy eviction policySlots,
      st.shard.eviction.detachForAdmission st.shard.policySlots index
        (st.heap.inner e.value).chargedBytes = (policy, eviction, policySlots) := ⟨_, _, _, rfl⟩
  rw [detachForAdmission, bind_ok (expectEntry_eq he), bind_ok (get_apply _),
    bind_ok (onHeap_apply _ _), bind_ok (get_apply _)] at hrun
  simp only [hdetach] at hrun
  rw [bind_ok (modifyShard_apply _ _)] at hrun
  obtain ⟨rfl, rfl⟩ := EStateM.Result.ok.inj hrun
  refine ⟨hl.tick h.values.counted, fun hretained => beq_iff_eq.2 ?_⟩
  obtain ⟨refs, hcounted, hnotin⟩ := h.counted_entry he
  have htick := MemoryHeap.undisturbed_tick st.heap
  exact ((htick.counted _ hcounted).exclusive hnotin).2 (htick.retained _ hretained)

/-- A victim is selected; no caller retains its value, if that was asked for. -/
lemma selectVictim_booked {ds : List DetachedAdmissionEntry} {exclusive : Bool}
    {remaining remaining' : ℕ} {victim : Option ℕ} (h : Detaching st hashOf held ds)
    (hl : st.heap.Ledger held pending owed)
    (hrun : selectVictim exclusive remaining st = .ok (victim, remaining') st') :
    st.heap.Booked st'.heap held pending owed ∧ (exclusive = true → ∀ i, victim = some i →
      ∀ e, st'.shard.entry i = some e → e.value ∉ st'.heap.retained) := by
  obtain ⟨l, hres⟩ := h.inv.residents
  obtain ⟨-, hselected⟩ := hres.holds.select (canReclaim st.shard exclusive) remaining st.heap
  have hasked : ∀ heap : MemoryHeap, ∀ i ∈ l,
      heap.Counted (st.shard.values ++ held) ∧ st.heap.Booked heap held pending owed →
      (canReclaim st.shard exclusive heap i).2.Counted (st.shard.values ++ held) ∧
        st.heap.Booked (canReclaim st.shard exclusive heap i).2 held pending owed := by
    rintro heap i - ⟨hcounted, hbooked⟩
    have htick : heap.tick.2.Counted (st.shard.values ++ held) ∧
        st.heap.Booked heap.tick.2 held pending owed :=
      ⟨(MemoryHeap.undisturbed_tick heap).counted _ hcounted,
        MemoryHeap.Booked.after (hbooked.1.tick hcounted) hbooked.2⟩
    unfold canReclaim
    split
    · split
      · exact htick
      · exact ⟨hcounted, hbooked⟩
    · exact ⟨hcounted, hbooked⟩
  obtain ⟨hcounted, hbooked⟩ := hselected.asks _ hasked ⟨h.inv.values.counted, hl, .refl _⟩
  have hfound : ∀ i, (st.shard.eviction.selectVictim (canReclaim st.shard exclusive)
      st.shard.policySlots remaining st.heap).1 = some i → _ := fun i =>
    EvictionState.selectVictim_reclaimable
  rw [selectVictim, bind_ok (get_apply st)] at hrun
  generalize st.shard.eviction.selectVictim (canReclaim st.shard exclusive) st.shard.policySlots
    remaining st.heap = selected at hrun hcounted hbooked hfound
  obtain ⟨chosen, eviction, policySlots, left, heap⟩ := selected
  obtain ⟨hresult, rfl⟩ := EStateM.Result.ok.inj hrun
  obtain rfl : chosen = victim := congrArg Prod.fst hresult
  refine ⟨hbooked, ?_⟩
  rintro rfl i rfl e he
  obtain ⟨asked, hreclaim⟩ := hfound i rfl
  have he' : st.shard.entry i = some e := he
  rw [canReclaim, if_pos rfl, he'] at hreclaim
  -- the value had one reference after the last question
  obtain ⟨hlast, hheap⟩ := Prod.mk.inj hreclaim
  obtain rfl : asked.tick.2 = heap := hheap
  have hperm := List.perm_cons_erase (List.mem_append_left held
    (mem_values.2 ⟨i, e, he', rfl⟩ : e.value ∈ st.shard.values))
  exact ((hcounted.perm hperm).exclusive
    (List.nodup_cons.1 (hperm.nodup_iff.1 h.inv.values.nodup)).1).1 (beq_iff_eq.1 hlast)

/-- **Victims are selected**: no caller retains their values, and what they release is the sum of
their weights. -/
lemma selectVictims_booked {ds : List DetachedAdmissionEntry} {required replacementBytes : ℕ}
    (room : ℕ) : ∀ {st st' : ShardState} {victims victims' : List DetachedAdmissionEntry}
      {remaining released released' : ℕ}, Detaching st hashOf [] (victims.reverse ++ ds) →
      st.heap.Ledger [] 0 [] → (∀ d ∈ victims, d.transfersCharge = true) →
      released = (victims.map DetachedAdmissionEntry.weight).sum →
      selectVictims required replacementBytes room remaining victims released st =
        .ok (victims', released') st' →
      st.heap.Booked st'.heap [] 0 [] ∧ (∀ d ∈ victims', d.transfersCharge = true) ∧
        released' = (victims'.map DetachedAdmissionEntry.weight).sum ∧
        victims'.length ≤ victims.length + room := by
  induction room with
  | zero =>
    intro st st' victims victims' remaining released released' h hl htransfers hreleased hrun
    rw [selectVictims, bind_ok (onHeap_apply _ _)] at hrun
    have htick := hl.tick h.inv.values.counted
    split at hrun <;>
    · obtain ⟨hresult, rfl⟩ := EStateM.Result.ok.inj hrun
      obtain ⟨rfl, rfl⟩ := Prod.mk.inj hresult
      exact ⟨htick, htransfers, hreleased, le_rfl⟩
  | succ room ih =>
    intro st st' victims victims' remaining released released' h hl htransfers hreleased hrun
    have htick := hl.tick h.inv.values.counted
    have h₁ : Detaching { st with heap := st.heap.availableBytes.2 } hashOf []
        (victims.reverse ++ ds) := h.withHeap (MemoryHeap.undisturbed_availableBytes st.heap)
    rw [selectVictims, bind_ok (onHeap_apply _ _)] at hrun
    split_ifs at hrun with hstop
    · obtain ⟨hresult, rfl⟩ := EStateM.Result.ok.inj hrun
      obtain ⟨rfl, rfl⟩ := Prod.mk.inj hresult
      exact ⟨htick, htransfers, hreleased, Nat.le_add_right _ _⟩
    obtain ⟨victim, remaining', st₂, hselect, h₂, -, hvictim⟩ :=
      selectVictim_spec h₁ true remaining
    obtain ⟨hbooked₂, hexclusive⟩ := selectVictim_booked h₁ htick.1 hselect
    rw [bind_ok hselect] at hrun
    cases victim with
    | none =>
      obtain ⟨hresult, rfl⟩ := EStateM.Result.ok.inj hrun
      obtain ⟨rfl, rfl⟩ := Prod.mk.inj hresult
      exact ⟨hbooked₂.after htick.2, htransfers, hreleased, Nat.le_add_right _ _⟩
    | some candidate =>
      obtain ⟨e, he, hnotin⟩ := hvictim candidate rfl
      obtain ⟨d, st₃, hdetach, -, h₃, -⟩ := detachForAdmission_spec h₂ he hnotin
      obtain ⟨hbooked₃, hd⟩ := detachForAdmission_booked h₂.inv he hbooked₂.1 hdetach
      simp only at hrun
      rw [bind_ok hdetach] at hrun
      have h₃' : Detaching st₃ hashOf [] ((victims ++ [d]).reverse ++ ds) := by
        rw [List.reverse_append, List.reverse_singleton, List.singleton_append, List.cons_append]
        exact h₃
      have htransfers' : ∀ d' ∈ victims ++ [d], d'.transfersCharge = true := by
        intro d' hd'
        rcases List.mem_append.1 hd' with hd' | hd'
        · exact htransfers d' hd'
        · rw [List.mem_singleton.1 hd']
          exact hd (hexclusive rfl candidate rfl e he)
      -- the weights are those of charges that are part of the counter
      have hreleased' : Word.saturatingAdd 64 released d.weight =
          ((victims ++ [d]).map DetachedAdmissionEntry.weight).sum := by
        have hle := h₃'.weights_le hbooked₃.1
        rw [List.filter_append, List.map_append, List.sum_append,
          List.filter_eq_self.2 fun d' hd' => htransfers' d' (List.mem_reverse.1 hd'),
          List.map_reverse, List.sum_reverse] at hle
        have hfits := hbooked₃.1.fits
        have hcapacity := hbooked₃.1.capacity
        have hsum : ((victims ++ [d]).map DetachedAdmissionEntry.weight).sum =
            released + d.weight := by
          rw [List.map_append, List.sum_append, hreleased]
          rfl
        rw [hsum] at hle ⊢
        rw [Word.saturatingAdd]
        omega
      obtain ⟨hbooked', hall, hsum, hlength⟩ := ih h₃' hbooked₃.1 htransfers' hreleased' hrun
      refine ⟨hbooked'.after (htick.2.trans (hbooked₂.2.trans hbooked₃.2)), hall, hsum, ?_⟩
      rw [List.length_append, List.length_singleton] at hlength
      omega

/-! ## Removing detached entries -/

/-- A detached entry is removed for good. -/
lemma commitDetached_booked {d : DetachedAdmissionEntry} {recordEviction : Bool} {id : ℕ}
    (h : MemoryInv st hashOf detached held) (hd : d.index ∈ detached)
    (hok : DetachedOk st hashOf d)
    (hl : st.heap.Ledger held pending (owedValues st.shard d ++ owed))
    (hrun : commitDetached d recordEviction st = .ok (some id) st') :
    st.heap.Booked st'.heap (id :: held) pending owed := by
  obtain ⟨e, he, -, hretained⟩ := hok.entry
  obtain ⟨st₁, hremove, -, -⟩ := removeSlotAfterPolicy_spec h he hd d.transfersCharge hretained
  have hl' : st.heap.Ledger held pending
      (if d.transfersCharge = true then e.value :: owed else owed) := by
    rw [DetachedOk.owedValues_eq he] at hl
    split_ifs at hl ⊢ with htransfers
    · exact hl
    · exact hl
  have hbooked := removeSlotAfterPolicy_booked h he hd hretained hl' hremove
  rw [← hok.hash] at hremove
  rw [commitDetached, bind_ok hremove, bind_ok (modifyShard_apply _ _)] at hrun
  obtain ⟨hid, rfl⟩ := EStateM.Result.ok.inj hrun
  obtain rfl := Option.some.inj hid
  exact hbooked

/-- A value may be asked whether it can be recycled. -/
lemma keepsRecycled_booked {required : ℕ} {recycled : Option ℕ} {keeps : Bool} {refs : List ℕ}
    (hc : st.heap.Counted refs) (hl : st.heap.Ledger held pending owed)
    (hrun : keepsRecycled required recycled st = .ok keeps st') :
    st.heap.Booked st'.heap held pending owed := by
  cases recycled with
  | none =>
    cases hrun
    exact ⟨hl, .refl _⟩
  | some id =>
    rw [keepsRecycled, bind_ok (get_apply st)] at hrun
    split_ifs at hrun with hrequired
    · cases hrun
      exact ⟨hl, .refl _⟩
    · cases hrun
      exact hl.tick hc

/-- **Victims are removed**, and their charges are disarmed one after another. -/
lemma commitVictims_booked (required : ℕ) : ∀ {vs : List DetachedAdmissionEntry}
    {st st' : ShardState} {recycled recycled' : Option ℕ},
    MemoryInv st hashOf detached recycled.toList → (vs.map DetachedAdmissionEntry.index).Nodup →
      (∀ d ∈ vs, d.index ∈ detached) → (∀ d ∈ vs, DetachedOk st hashOf d) →
      st.heap.Ledger recycled.toList pending (vs.flatMap (owedValues st.shard)) →
      commitVictims required vs recycled st = .ok recycled' st' →
      st.heap.Booked st'.heap recycled'.toList pending []
  | [], st, st', recycled, recycled', _, _, _, _, hl, hrun => by
    cases hrun
    exact ⟨hl, .refl _⟩
  | d :: vs, st, st', recycled, recycled', h, hnodup, hmem, hok, hl, hrun => by
    rw [List.map_cons, List.nodup_cons] at hnodup
    obtain ⟨id, st₁, hcommit, h₁, hremoves₁⟩ := commitDetached_spec h (hmem d List.mem_cons_self)
      (hok d List.mem_cons_self) true
    have hbooked₁ := commitDetached_booked h (hmem d List.mem_cons_self) (hok d List.mem_cons_self)
      hl hcommit
    obtain ⟨keeps, heap, hkeeps, hu⟩ := keepsRecycled_spec required recycled st₁
    have h₂ := h₁.withHeap hu
    have hbooked₂ := keepsRecycled_booked h₁.values.counted hbooked₁.1 hkeeps
    have hremoves₂ := hremoves₁.trans (removes_heap hu.toFrame)
    have hnext : ∀ (dropped kept : Option ℕ),
        (id :: recycled.toList).Perm (dropped.toList ++ kept.toList) →
        (dropOption dropped >>= fun _ => commitVictims required vs kept) { st₁ with heap } =
          .ok recycled' st' → st.heap.Booked st'.heap recycled'.toList pending [] := by
      intro dropped kept hperm hrest
      have h₂' := h₂.held_perm hperm
      obtain ⟨st₃, hdrop, h₃, hremoves₃⟩ := dropOption_spec dropped h₂'
      have hremoves := hremoves₂.trans hremoves₃
      have hkept : ∀ d' ∈ vs, d'.index ∉ [d.index] ++ [] ++ [] := by
        intro d' hd'
        simp only [List.append_nil, List.mem_singleton]
        intro heq
        exact hnodup.1 (heq ▸ List.mem_map_of_mem hd')
      have howed : vs.flatMap (owedValues st₃.shard) = vs.flatMap (owedValues st.shard) :=
        List.flatMap_congr fun d' hd' => owedValues_removes hremoves (hkept d' hd')
      have hbooked₃ := dropOption_booked _ h₂' (hbooked₂.1.perm hperm) fun id hid => by
        obtain ⟨d', hd', hid'⟩ := List.mem_flatMap.1 hid
        rw [← owedValues_removes hremoves₂ (hkept d' hd')] at hid'
        exact mem_values_of_valueOf (mem_owedValues.1 hid').2
      rw [bind_ok hdrop] at hrest
      rw [dropOption_apply] at hdrop
      obtain ⟨-, rfl⟩ := EStateM.Result.ok.inj hdrop
      refine (commitVictims_booked required h₃ hnodup.2
        (fun d' hd' => hmem d' (List.mem_cons_of_mem _ hd')) (fun d' hd' =>
          (hok d' (List.mem_cons_of_mem _ hd')).mono hremoves (hkept d' hd'))
        (howed ▸ hbooked₃.1) hrest).after ?_
      exact hbooked₁.2.trans (hbooked₂.2.trans hbooked₃.2)
    rw [commitVictims, bind_ok hcommit, bind_ok hkeeps] at hrun
    cases keeps with
    | true => exact hnext (some id) recycled (.refl _) hrun
    | false =>
      exact hnext recycled (some id) (List.perm_append_singleton id recycled.toList).symm hrun

/-! ## Making room -/

/-- The books after an attempt to charge: nothing is pending, or the charge is. -/
def ChargeBooked (st st' : ShardState) (required : ℕ) : ChargeResult → Prop
  | .rejected _ => st.heap.Booked st'.heap [] 0 []
  | .charged charge _ recycled =>
    charge = ⟨true, required⟩ ∧ st.heap.Booked st'.heap recycled.toList required []

/-- More happened before. -/
lemma ChargeBooked.after {st₀ : ShardState} {required : ℕ} {result : ChargeResult}
    (hb : ChargeBooked st st' required result) (hpath : MemoryHeap.Path st₀.heap st.heap) :
    ChargeBooked st₀ st' required result := by
  cases result with
  | rejected evictions => exact MemoryHeap.Booked.after hb hpath
  | charged charge evictions recycled => exact ⟨hb.1, MemoryHeap.Booked.after hb.2 hpath⟩

/-- One entry is evicted for its slot, and keeps its charge. -/
lemma chargeWithSlotEviction_booked {required : ℕ} {result : ChargeResult}
    (h : MemoryInv st hashOf [] []) (hl : st.heap.Ledger [] required [])
    (hrun : chargeWithSlotEviction ⟨true, required⟩ st = .ok result st') :
    ChargeBooked st st' required result := by
  obtain ⟨victim, remaining, st₁, hselect, h₁, -, hvictim⟩ :=
    selectVictim_spec (detaching_nil h) false maxPolicyScanSteps
  have hbooked₁ := (selectVictim_booked (detaching_nil h) hl hselect).1
  rw [chargeWithSlotEviction, bind_ok hselect] at hrun
  cases victim with
  | none =>
    cases hrun
    rw [← Nat.zero_add required] at hbooked₁
    exact MemoryHeap.Booked.after (hbooked₁.1.dropCharge ⟨true, required⟩
      h₁.inv.values.counted rfl) hbooked₁.2
  | some candidate =>
    obtain ⟨e, he, hnotin⟩ := hvictim candidate rfl
    obtain ⟨d, st₂, hdetach, -, h₂, -⟩ := detachForAdmission_spec h₁ he hnotin
    have hbooked₂ := (detachForAdmission_booked h₁.inv he hbooked₁.1 hdetach).1
    have hok : DetachedOk st₂ hashOf { d with transfersCharge := false } := by
      obtain ⟨e', he', hweight, -⟩ := (h₂.ok d List.mem_cons_self).entry
      exact ⟨(h₂.ok d List.mem_cons_self).hash, (h₂.ok d List.mem_cons_self).fits, e', he',
        hweight, fun ht => by cases ht⟩
    have hmem : DetachedAdmissionEntry.index { d with transfersCharge := false } ∈
        [d].map DetachedAdmissionEntry.index := List.mem_singleton_self _
    obtain ⟨id, st₃, hcommit, -, -⟩ := commitDetached_spec h₂.inv hmem hok true
    have hl₂ : st₂.heap.Ledger [] required
        (owedValues st₂.shard { d with transfersCharge := false } ++ []) := hbooked₂.1
    have hbooked₃ := commitDetached_booked h₂.inv hmem hok hl₂ hcommit
    simp only at hrun
    rw [bind_ok hdetach, bind_ok hcommit] at hrun
    cases hrun
    exact ⟨rfl, hbooked₃.after (hbooked₁.2.trans hbooked₂.2)⟩

/-- The entry to be replaced is detached. -/
lemma detachReplacement_booked {replacement : Option ℕ} {d : Option DetachedAdmissionEntry}
    (h : MemoryInv st hashOf [] [])
    (hreplacement : ∀ i, replacement = some i → (st.shard.entry i).isSome)
    (hl : st.heap.Ledger [] pending []) (hrun : detachReplacement replacement st = .ok d st') :
    st.heap.Booked st'.heap [] pending [] := by
  cases replacement with
  | none =>
    cases hrun
    exact ⟨hl, .refl _⟩
  | some i =>
    obtain ⟨e, he⟩ := Option.isSome_iff_exists.1 (hreplacement i rfl)
    obtain ⟨x, st₁, hdetach, -⟩ := detachForAdmission_spec (detaching_nil h) he (by simp)
    rw [detachReplacement, bind_ok hdetach] at hrun
    cases hrun
    exact (detachForAdmission_booked h he hl hdetach).1

/-- The entry to be replaced is removed for good. -/
lemma commitReplacement_booked {d : Option DetachedAdmissionEntry} {recycled : Option ℕ}
    (h : MemoryInv st hashOf detached []) (hmem : ∀ x ∈ d.toList, x.index ∈ detached)
    (hok : ∀ x ∈ d.toList, DetachedOk st hashOf x)
    (hl : st.heap.Ledger [] pending (d.toList.flatMap (owedValues st.shard) ++ owed))
    (hrun : commitReplacement d st = .ok recycled st') :
    st.heap.Booked st'.heap recycled.toList pending owed := by
  cases d with
  | none =>
    cases hrun
    exact ⟨hl, .refl _⟩
  | some d =>
    obtain ⟨id, st₁, hcommit, -, -⟩ := commitDetached_spec h (hmem d (by simp)) (hok d (by simp))
      false
    rw [Option.toList_some, List.flatMap_singleton] at hl
    have hbooked := commitDetached_booked h (hmem d (by simp)) (hok d (by simp)) hl hcommit
    obtain ⟨rfl, rfl⟩ := EStateM.Result.ok.inj (hcommit.symm.trans hrun)
    exact hbooked

/-- Entries come back without the heap. -/
lemma restoreAll_heap {ds : List DetachedAdmissionEntry} :
    ∀ {st st' : ShardState}, restoreAll ds st = .ok () st' → st'.heap = st.heap := by
  induction ds with
  | nil =>
    intro st st' hrun
    cases hrun
    rfl
  | cons d ds ih =>
    intro st st' hrun
    rw [restoreAll, restoreDetached, bind_ok (modifyShard_apply _ _)] at hrun
    have hrest := ih hrun
    exact hrest

/-- **Room is made from the charges of victims.** -/
lemma chargeByTransfer_booked {replacement : Option ℕ} {required : ℕ} {result : ChargeResult}
    (h : MemoryInv st hashOf [] [])
    (hreplacement : ∀ i, replacement = some i → (st.shard.entry i).isSome)
    (hl : st.heap.Ledger [] 0 [])
    (hrun : chargeByTransfer required replacement st = .ok result st') :
    ChargeBooked st st' required result := by
  obtain ⟨d, st₁, hdetach, h₁, -, -⟩ := detachReplacement_spec h hreplacement
  have hbooked₁ := detachReplacement_booked h hreplacement hl hdetach
  have h₁' : Detaching st₁ hashOf [] (([] : List DetachedAdmissionEntry).reverse ++ d.toList) := h₁
  rw [chargeByTransfer, bind_ok hdetach] at hrun
  simp only at hrun
  generalize hreplaced :
    (d.filter (·.transfersCharge)).elim 0 DetachedAdmissionEntry.weight = replacementBytes at hrun
  obtain ⟨victims, releasedBytes, st₂, hselect, h₂, -⟩ := selectVictims_spec required
    replacementBytes maxEvictionsPerInsert maxPolicyScanSteps 0 h₁'
  obtain ⟨hbooked₂, htransfers, hreleased, -⟩ := selectVictims_booked maxEvictionsPerInsert h₁'
    hbooked₁.1 (fun x hx => by cases hx) rfl hselect
  have h₂' : Detaching st₂ hashOf [] (d.toList ++ victims) :=
    h₂.perm (List.perm_append_comm.trans ((List.reverse_perm victims).append_left d.toList))
  -- the bytes released are those of all that is detached
  have hsum : (((d.toList ++ victims).filter (·.transfersCharge)).map
      DetachedAdmissionEntry.weight).sum = replacementBytes + releasedBytes := by
    rw [List.filter_append, List.map_append, List.sum_append, List.filter_eq_self.2 htransfers,
      ← hreleased, ← hreplaced]
    congr 1
    cases d with
    | none => rfl
    | some d => by_cases hd : d.transfersCharge = true <;> simp [Option.filter, hd]
  have hbytes : Word.saturatingAdd 64 replacementBytes releasedBytes =
      replacementBytes + releasedBytes := by
    have hle := h₂'.weights_le hbooked₂.1
    have hfits := hbooked₂.1.fits
    have hcapacity := hbooked₂.1.capacity
    rw [hsum] at hle
    rw [Word.saturatingAdd]
    omega
  rw [bind_ok hselect] at hrun
  simp only [hbytes] at hrun
  rw [bind_ok (onHeap_apply _ _)] at hrun
  have havailable := MemoryHeap.undisturbed_availableBytes st₂.heap
  have hbooked₃ : st.heap.Booked st₂.heap.availableBytes.2 [] 0 [] :=
    MemoryHeap.Booked.after (hbooked₂.1.tick h₂.inv.values.counted)
      (hbooked₁.2.trans hbooked₂.2)
  -- an admission that is given up only puts entries back
  have hrestore : ∀ {st₄ : ShardState}, st.heap.Booked st₄.heap [] 0 [] →
      (restoreAdmission d victims >>= fun _ => pure (ChargeResult.rejected 0)) st₄ =
        .ok result st' → ChargeBooked st st' required result := by
    intro st₄ hbooked hrest
    obtain ⟨⟨⟩, st₅, hrun₅, hrest⟩ := bind_eq_ok.1 hrest
    cases hrest
    show st.heap.Booked st'.heap [] 0 []
    rwa [restoreAll_heap hrun₅]
  split_ifs at hrun with hshort
  · exact hrestore hbooked₃ hrun
  have h₃ := h₂'.withHeap havailable
  obtain ⟨hnodup, hexclusive, howed⟩ := h₃.owed hbooked₃.1
  have hattempt := hbooked₃.1.tryTransferCharge h₃.inv.values.counted hexclusive hnodup
    (howed.trans hsum) required
  have htransfer := MemoryHeap.undisturbed_tryTransferCharge st₂.heap.availableBytes.2
    (replacementBytes + releasedBytes) required
  rw [bind_ok (onHeap_apply _ _)] at hrun
  generalize st₂.heap.availableBytes.2.tryTransferCharge (replacementBytes + releasedBytes)
    required = attempt at hrun hattempt htransfer
  obtain ⟨attempt, heap⟩ := attempt
  cases attempt with
  | full => exact hrestore ⟨hattempt.refused (by simp), hbooked₃.2.trans hattempt.path⟩ hrun
  | contended => exact hrestore ⟨hattempt.refused (by simp), hbooked₃.2.trans hattempt.path⟩ hrun
  | charged charge =>
    have hl₄ := hattempt.charged ⟨charge, rfl⟩
    have h₄ : Detaching { st₂ with heap } hashOf [] (d.toList ++ victims) := h₃.withHeap htransfer
    have hnodup₄ := h₄.nodup
    rw [List.map_append, List.nodup_append] at hnodup₄
    rw [List.flatMap_append, Nat.zero_add] at hl₄
    obtain ⟨recycled, st₅, hcommit, h₅, hremoves₅⟩ := commitReplacement_spec h₄.inv
      (fun x hx => List.mem_map_of_mem (List.mem_append_left _ hx))
      (fun x hx => h₄.ok x (List.mem_append_left _ hx))
    have hbooked₅ := commitReplacement_booked h₄.inv
      (fun x hx => List.mem_map_of_mem (List.mem_append_left _ hx))
      (fun x hx => h₄.ok x (List.mem_append_left _ hx)) hl₄ hcommit
    have hkept : ∀ x ∈ victims, x.index ∉ d.toList.map DetachedAdmissionEntry.index :=
      fun x hx hm => hnodup₄.2.2 _ hm _ (List.mem_map_of_mem hx) rfl
    have hvictims : victims.flatMap (owedValues st₅.shard) =
        victims.flatMap (owedValues st₂.shard) :=
      List.flatMap_congr fun x hx => by rw [owedValues_removes hremoves₅ (hkept x hx)]
    have hmem : ∀ x ∈ victims,
        x.index ∈ (d.toList ++ victims).map DetachedAdmissionEntry.index := fun x hx =>
      List.mem_map_of_mem (List.mem_append_right _ hx)
    have hok : ∀ x ∈ victims, DetachedOk st₅ hashOf x := fun x hx =>
      (h₄.ok x (List.mem_append_right _ hx)).mono hremoves₅ (hkept x hx)
    obtain ⟨recycled', st₆, hcommit', -, -⟩ := commitVictims_spec required h₅ hnodup₄.2.1 hmem hok
    have hbooked₆ := commitVictims_booked required h₅ hnodup₄.2.1 hmem hok
      (hvictims.symm ▸ hbooked₅.1) hcommit'
    simp only at hrun
    rw [bind_ok hcommit, bind_ok hcommit'] at hrun
    cases hrun
    exact ⟨hattempt.charge charge rfl,
      hbooked₆.after (hbooked₃.2.trans (hattempt.path.trans hbooked₅.2))⟩

/-- **Room is made for an entry.** -/
lemma chargeWithEviction_booked {replacement : Option ℕ} {required : ℕ} {result : ChargeResult}
    (h : MemoryInv st hashOf [] [])
    (hreplacement : ∀ i, replacement = some i → (st.shard.entry i).isSome)
    (hl : st.heap.Ledger [] 0 [])
    (hrun : chargeWithEviction required replacement st = .ok result st') :
    ChargeBooked st st' required result := by
  rw [chargeWithEviction, bind_ok (get_apply st)] at hrun
  split_ifs at hrun with hcapacity
  · cases hrun
    exact ⟨hl, .refl _⟩
  have hattempt := hl.tryCharge h.values.counted required
  have hcharge := MemoryHeap.undisturbed_tryCharge st.heap required
  rw [bind_ok (onHeap_apply _ _)] at hrun
  generalize st.heap.tryCharge required = attempt at hrun hattempt hcharge
  obtain ⟨attempt, heap⟩ := attempt
  have h₁ := h.withHeap hcharge
  cases attempt with
  | contended =>
    cases hrun
    exact ⟨hattempt.refused (by simp), hattempt.path⟩
  | full =>
    exact (chargeByTransfer_booked h₁ hreplacement (hattempt.refused (by simp)) hrun).after
      hattempt.path
  | charged charge =>
    obtain rfl := hattempt.charge charge rfl
    have hl₁ := hattempt.charged ⟨_, rfl⟩
    rw [Nat.zero_add] at hl₁
    simp only at hrun
    split_ifs at hrun with hslot
    · exact (chargeWithSlotEviction_booked h₁ hl₁ hrun).after hattempt.path
    · cases replacement with
      | none =>
        cases hrun
        exact ⟨rfl, hl₁, hattempt.path⟩
      | some i =>
        obtain ⟨e, he⟩ := Option.isSome_iff_exists.1 (hreplacement i rfl)
        obtain ⟨st₂, htake, -, -⟩ := takeSlot_spec h₁ he
        rw [takeReplacement, bind_ok htake] at hrun
        cases hrun
        have hheap := takeSlot_heap htake he
        refine ⟨rfl, ?_⟩
        show st.heap.Booked st'.heap [e.value] required []
        rw [hheap]
        exact ⟨hl₁.hold e.value, hattempt.path⟩

/-! ## Admitting an entry -/

/-- However the operation ends, the heap has come there by safe accesses, and its books are in order
again. The one panic that it may end in is that of the directory. -/
def KeepsBooks {α : Type} (operation : ShardM α) (st : ShardState) : Prop :=
  Ends operation st (fun _ st' => st.heap.Booked st'.heap [] 0 []) fun panic st' =>
    panic = .directoryInsertion ∧ st.heap.Booked st'.heap [] 0 []

/-- More happened before. -/
lemma KeepsBooks.after {α : Type} {operation : ShardM α} {st₀ : ShardState}
    (hk : KeepsBooks operation st) (hpath : MemoryHeap.Path st₀.heap st.heap) :
    Ends operation st (fun _ st' => st₀.heap.Booked st'.heap [] 0 []) fun panic st' =>
      panic = .directoryInsertion ∧ st₀.heap.Booked st'.heap [] 0 [] :=
  Ends.mono hk (fun _ _ hb => MemoryHeap.Booked.after hb hpath) fun _ _ hb =>
    ⟨hb.1, MemoryHeap.Booked.after hb.2 hpath⟩

/-- The new entry takes its charge, or the charge is given up. -/
lemma admitCharged_keepsBooks {recycled : Option ℕ} {hash : BitVec 64} {key value : List UInt8}
    {chargedBytes : ℕ} (h : MemoryInv st hashOf [] recycled.toList)
    (hl : st.heap.Ledger recycled.toList chargedBytes [])
    (hcharged : chargedBytes = memoryEntryOverheadBytes + key.length + value.length)
    (seqno : BitVec 64) (evictions : ℕ) :
    KeepsBooks (admitCharged hash key value seqno chargedBytes ⟨true, chargedBytes⟩ evictions
      recycled) st := by
  unfold admitCharged
  refine Ends.bind_ok (get_apply st) ?_
  simp only
  split_ifs with hfull
  · -- no slot is free
    have h₀ : MemoryInv st hashOf [] (recycled.toList ++ []) := by rwa [List.append_nil]
    obtain ⟨st₁, hdrop, h₁, -⟩ := dropOption_spec recycled h₀
    obtain ⟨hl₁, hpath₁⟩ := dropOption_booked recycled h₀ (by rwa [List.append_nil])
      fun id hid => absurd hid List.not_mem_nil
    refine Ends.bind_ok hdrop (Ends.bind_ok (modifyHeap_apply _ _) (Ends.pure ?_))
    rw [dropOption_apply] at hdrop
    obtain ⟨-, rfl⟩ := EStateM.Result.ok.inj hdrop
    rw [← Nat.zero_add chargedBytes] at hl₁
    exact MemoryHeap.Booked.after (hl₁.dropCharge ⟨true, chargedBytes⟩
      h₁.values.counted rfl) hpath₁
  have hrecycled : ∀ id, recycled = some id → id ∉ st.shard.values := by
    rintro id rfl hid
    exact (List.nodup_append.1 h.values.nodup).2.2 id hid id (by simp) rfl
  have hcounted := h.values.counted.perm List.perm_append_comm
  have hcreated := MemoryHeap.tryNew_spec hcounted hrecycled key value seqno ⟨true, chargedBytes⟩
  have hmade := hl.tryNew ⟨true, chargedBytes⟩ seqno hcounted hrecycled rfl
    hcharged
  refine Ends.bind_ok (onHeap_apply _ _) ?_
  generalize st.heap.tryNew key value seqno ⟨true, chargedBytes⟩ recycled = made at hcreated hmade
  obtain ⟨made, heap⟩ := made
  have h₁ : MemoryInv { st with heap } hashOf [] made.toList :=
    ⟨h.length, h.small, h.free, h.chains, h.residents, (h.values.created hcreated).2⟩
  cases made with
  | none => exact Ends.pure hmade
  | some id =>
    refine Ends.bind_ok (get_apply _) ?_
    simp only
    cases hinsert : st.shard.directory.insert hash st.shard.freeHead with
    | none =>
      have h₁' : MemoryInv { st with heap } hashOf [] ((some id).toList ++ []) := h₁
      obtain ⟨hl₂, hpath₂⟩ := dropOption_booked (some id) h₁'
        (hmade.1.hold id) fun id hid => absurd hid List.not_mem_nil
      exact Ends.bind_ok (dropOption_apply _ _) ⟨rfl, hl₂, hmade.2.trans hpath₂⟩
    | some inserted =>
      obtain ⟨previous, directory⟩ := inserted
      exact Ends.bind_ok (modifyShard_apply _ _) (Ends.pure hmade)

/-- **An entry is admitted**, or not; either way the books are in order. -/
lemma insert_keepsBooks {hash : BitVec 64} {key value : List UInt8} {chargedBytes : ℕ}
    (h : MemoryInv st hashOf [] []) (hl : st.heap.Ledger [] 0 [])
    (hcharged : chargedBytes = memoryEntryOverheadBytes + key.length + value.length)
    (seqno : BitVec 64) :
    KeepsBooks (insert hash key value seqno chargedBytes (st.shard.find st.heap hash key)) st := by
  unfold insert
  refine Ends.bind_ok (get_apply st) ?_
  simp only
  split_ifs with hbypass
  · exact Ends.pure ⟨hl, .refl _⟩
  have hreplacement : ∀ i, st.shard.find st.heap hash key = some i →
      (st.shard.entry i).isSome := fun i hi => by
    obtain ⟨e, he, -⟩ := h.find_eq_some_iff.1 hi
    simp [he]
  obtain ⟨result, st₁, hcharge, houtcome⟩ := chargeWithEviction_spec h hreplacement chargedBytes
  have hbooked := chargeWithEviction_booked h hreplacement hl hcharge
  refine Ends.bind_ok hcharge ?_
  cases result with
  | rejected evictions => exact Ends.pure hbooked
  | charged charge evictions recycled =>
    obtain ⟨gone, h₁, -⟩ := houtcome
    obtain ⟨rfl, hl₁, hpath₁⟩ := hbooked
    exact (admitCharged_keepsBooks h₁ hl₁ hcharged seqno evictions).after hpath₁

/-! ## Operations on a locked shard -/

/-- A reference to the value of an entry goes to a caller. -/
lemma cloneEntry_keepsBooks (h : MemoryInv st hashOf detached held)
    (he : st.shard.entry index = some e) (hl : st.heap.Ledger [] 0 []) :
    KeepsBooks (cloneEntry index) st := by
  obtain ⟨refs, hcounted, -⟩ := h.counted_entry he
  refine Ends.of_ok (cloneEntry_eq he) (hl.retain ?_)
  rw [hcounted.strong, List.count_cons_self]
  omega

/-- A hit. -/
lemma hit_keepsBooks (h : ShardRepr st) (he : st.shard.entry index = some e)
    (hl : st.heap.Ledger [] 0 []) :
    KeepsBooks (recordHit index >>= fun _ => cloneEntry index >>= fun id => pure (some id)) st := by
  obtain ⟨refs, hcounted, -⟩ := h.counted_entry he
  refine Ends.bind_ok (modifyShard_apply _ _) (Ends.bind_ok (cloneEntry_eq (e := e) he)
    (Ends.pure (hl.retain ?_)))
  rw [hcounted.strong, List.count_cons_self]
  omega

end ShardM

/-- **Every operation** keeps the books. -/
theorem ShardOperation.keepsBooks {α : Type} {operation : ShardM α} {st : ShardState}
    (known : ShardOperation operation) (h : ShardRepr st) (hl : st.heap.Ledger [] 0 []) :
    ShardM.KeepsBooks operation st := by
  have hentry : ∀ {hash key i}, st.shard.find st.heap hash key = some i →
      ∃ e, st.shard.entry i = some e := fun {hash key i} hfind => by
    obtain ⟨e, he, -⟩ := MemoryInv.find_eq_some_iff h |>.1 hfind
    exact ⟨e, he⟩
  cases known with
  | @publish hash key value seqno chargedBytes hbytes =>
    unfold ShardM.publish
    refine Ends.bind_ok (get_apply st) ?_
    simp only
    split_ifs with hnewer hlarge
    · exact Ends.pure ⟨hl, .refl _⟩
    · cases hfind : st.shard.find st.heap hash key with
      | none => exact Ends.pure ⟨hl, .refl _⟩
      | some i =>
        obtain ⟨e, he⟩ := hentry hfind
        obtain ⟨st₁, hrun, -⟩ := ShardM.removeSlot_spec h he
        exact Ends.bind_ok (show ShardM.removeExisting (some i) st = _ from hrun)
          (Ends.pure (ShardM.removeSlot_booked h he hl hrun))
    · exact Ends.bind (ShardM.insert_keepsBooks h hl (MemoryStore.memoryEntryBytes_eq hbytes) seqno)
        fun _ _ hb => Ends.pure hb
  | delete hash key seqno =>
    unfold ShardM.delete
    refine Ends.bind_ok (get_apply st) ?_
    cases hfind : st.shard.find st.heap hash key with
    | none => exact Ends.pure ⟨hl, .refl _⟩
    | some i =>
      simp only
      split_ifs with hnewer
      · exact Ends.pure ⟨hl, .refl _⟩
      · obtain ⟨e, he⟩ := hentry hfind
        obtain ⟨st₁, hrun, -⟩ := ShardM.removeSlot_spec h he
        exact Ends.bind_ok hrun (Ends.pure (ShardM.removeSlot_booked h he hl hrun))
  | lookup hash key =>
    unfold ShardM.lookup
    refine Ends.bind_ok (get_apply st) ?_
    cases hfind : st.shard.find st.heap hash key with
    | none => exact Ends.pure ⟨hl, .refl _⟩
    | some i =>
      obtain ⟨e, he⟩ := hentry hfind
      exact ShardM.hit_keepsBooks h he hl
  | @promote hash key value seqno chargedBytes hbytes hsmall =>
    unfold ShardM.promote
    refine Ends.bind_ok (get_apply st) ?_
    simp only
    split
    · next i hi =>
      obtain ⟨e, he⟩ := hentry (Option.filter_eq_some_iff.1 hi).1
      exact ShardM.hit_keepsBooks h he hl
    · have hcharged := MemoryStore.memoryEntryBytes_eq hbytes
      refine (Ends.and (ShardM.insert_spec h hcharged hsmall seqno)
        (ShardM.insert_keepsBooks h hl hcharged seqno)).mono (fun _ _ hr => hr)
        (fun _ _ hr => hr.2) |>.bind fun result st₁ hresult => ?_
      obtain ⟨⟨hashOf', h₁, -, hslot⟩, hl₁, hpath₁⟩ := hresult
      cases hr : result.slot with
      | none => exact Ends.pure ⟨hl₁, hpath₁⟩
      | some i =>
        obtain ⟨e, he, -⟩ := hslot i hr
        exact Ends.bind ((ShardM.cloneEntry_keepsBooks h₁ he hl₁).after hpath₁) fun _ _ hb =>
          Ends.pure hb

/-! ## Runs -/

/-- The turns of an operation are there before it starts. -/
lemma MemoryHeap.Ledger.withTurns {h : MemoryHeap} (hl : h.Ledger [] 0 []) (turns : List Turn) :
    h.Booked { h with turns } [] 0 [] :=
  ⟨hl.congr rfl rfl rfl rfl (fun _ => Iff.rfl) fun _ hj => hj,
    .single (.turn h turns) (MemoryHeap.safe_of_inner hl.fits rfl)⟩

/-- **A step of a shard** keeps its books. -/
theorem MemoryShardStep.booked {st st' : ShardState} (hs : MemoryShardStep st st')
    (h : ShardRepr st) (hl : st.heap.Ledger [] 0 []) : st.heap.Booked st'.heap [] 0 [] := by
  have hturns : ∀ turns, ShardRepr { st with heap := { st.heap with turns } } := fun turns =>
    MemoryInv.withHeap h (MemoryHeap.undisturbed_turns st.heap turns)
  cases hs with
  | idle => exact ⟨hl, .refl _⟩
  | callers actions => exact hl.acts actions h.values.counted
  | returned turns known hrun =>
    obtain ⟨hl₁, hpath₁⟩ := hl.withTurns turns
    have hends := known.keepsBooks (hturns turns) hl₁
    unfold ShardM.KeepsBooks Ends at hends
    rw [hrun] at hends
    exact MemoryHeap.Booked.after hends hpath₁
  | panicked turns known hrun =>
    obtain ⟨hl₁, hpath₁⟩ := hl.withTurns turns
    have hends := known.keepsBooks (hturns turns) hl₁
    unfold ShardM.KeepsBooks Ends at hends
    rw [hrun] at hends
    exact MemoryHeap.Booked.after hends.2 hpath₁

namespace MemoryStore

variable {m : MemoryStore}

/-- The books of every shard are in order. -/
def Balanced (m : MemoryStore) : Prop :=
  ∀ (i : ℕ) (lock : MemoryShardLock), m.shards[i]? = some lock → lock.state.heap.Ledger [] 0 []

/-- The shares of a new store's shards are no more than the whole. -/
lemma balanced_new {capacityBytes entryCapacity shardCount : ℕ} {policy : L1EvictionPolicy}
    (hnew : new capacityBytes entryCapacity shardCount policy = some m)
    (hcapacity : capacityBytes < 2 ^ 64) : m.Balanced := by
  intro i lock hlock
  obtain ⟨hlt, rfl⟩ := shard_new hnew hlock
  refine MemoryHeap.ledger_new (Nat.lt_of_le_of_lt ?_ hcapacity)
  have hmul := Nat.div_add_mod capacityBytes shardCount
  have hquotient : capacityBytes / shardCount ≤ shardCount * (capacityBytes / shardCount) :=
    Nat.le_mul_of_pos_left _ (Nat.zero_lt_of_lt hlt)
  unfold shardShare
  split_ifs <;> omega

/-- **A run** keeps the books of every shard. -/
theorem Balanced.run (hb : m.Balanced) (h : m.Inv) (hempty : ∀ x, ¬ m.Resident x)
    (history : List (Access × MemoryRequest)) : (m.run history).Balanced := by
  induction history using List.reverseRecOn with
  | nil => exact hb
  | append_singleton history request ih =>
    intro i lock' hlock'
    rw [MemoryStore.run, List.foldl_append] at hlock'
    obtain ⟨lock, hlock, hstep⟩ := shardStep_apply hlock'
    exact (hstep.booked ((h.run hempty).1.repr i lock hlock) (ih i lock hlock)).1

end MemoryStore

/-- What a store promises about the budgets of its shards after a run, whatever comes next. -/
structure BudgetKept (m : MemoryStore) (history : List (Access × MemoryRequest)) : Prop where
  /-- The counter of a shard is the sum of the charges of all values that its entries or callers
  refer to, each counted once, and is within the capacity. -/
  accounted : ∀ lock ∈ (m.run history).shards,
    lock.state.heap.usedBytes =
        ∑ id ∈ (lock.state.shard.values ++ lock.state.heap.retained).toFinset,
          (lock.state.heap.inner id).chargedBytes ∧
      lock.state.heap.usedBytes ≤ lock.state.heap.capacityBytes
  /-- Every one of these values has its charge, and has it to release. -/
  armed : ∀ lock ∈ (m.run history).shards,
    ∀ id ∈ lock.state.shard.values ++ lock.state.heap.retained,
      (lock.state.heap.inner id).charge = ⟨true, (lock.state.heap.inner id).chargedBytes⟩
  /-- The next request is a sequence of accesses, none of which raises the counter above the
  capacity or writes to a value that a caller retains. -/
  steps : ∀ access request (i : ℕ) (lock' : MemoryShardLock),
    ((m.run history).apply access request).shards[i]? = some lock' →
    ∃ lock : MemoryShardLock, (m.run history).shards[i]? = some lock ∧
      MemoryHeap.Path lock.state.heap lock'.state.heap
  /-- It never disarms the charge of a value that a caller retains. -/
  exclusive : ∀ access request, (m.run history).panicOf access request ≠ some .gainedOwner

/-- **The byte budget.** If slots have indices that the directory can hold, then the budgets of all
shards are kept along every run. -/
theorem memoryStore_budgetKept {capacityBytes entryCapacity shardCount : ℕ}
    {policy : L1EvictionPolicy} {m : MemoryStore}
    (hnew : MemoryStore.new capacityBytes entryCapacity shardCount policy = some m)
    (hslots : MemoryStore.Representable capacityBytes entryCapacity shardCount)
    (hcapacity : capacityBytes < 2 ^ 64) (history : List (Access × MemoryRequest)) :
    BudgetKept m history := by
  obtain ⟨hinv, hempty⟩ := MemoryStore.inv_new hnew hslots
  have hrepr := (hinv.run hempty).1.repr (m := m.run history)
  have hbalanced := (MemoryStore.balanced_new hnew hcapacity).run hinv hempty history
  refine ⟨fun lock hlock => ?_, fun lock hlock id hid => ?_,
    fun access request i lock' hlock' => ?_, fun access request hpanic => ?_⟩
  · obtain ⟨i, hi⟩ := List.mem_iff_getElem?.1 hlock
    have hl := hbalanced i lock hi
    refine ⟨?_, hl.fits⟩
    have hused := hl.used_eq (hrepr i lock hi).values.counted
    rwa [List.append_nil] at hused
  · obtain ⟨i, hi⟩ := List.mem_iff_getElem?.1 hlock
    have hl := hbalanced i lock hi
    have hlive := (hrepr i lock hi).values.counted.live_of_mem (by rwa [List.append_nil])
    have harmed : (lock.state.heap.inner id).charge.armed = true := by
      by_contra hf
      exact List.not_mem_nil (hl.armed id hlive (by simpa using hf)).1
    exact congrArg₂ MemoryCharge.mk harmed (hl.charged id hlive)
  · obtain ⟨lock, hlock, hstep⟩ := MemoryStore.shardStep_apply hlock'
    exact ⟨lock, hlock, (hstep.booked (hrepr i lock hlock) (hbalanced i lock hlock)).2⟩
  · obtain ⟨α, operation, i, lock, st', known, hlock, hrun⟩ := MemoryStore.panicOf_eq_some hpanic
    have hturns := MemoryInv.withHeap (hrepr i lock hlock)
      (MemoryHeap.undisturbed_turns lock.state.heap access.turns)
    have hends := known.keepsBooks hturns ((hbalanced i lock hlock).withTurns access.turns).1
    unfold ShardM.KeepsBooks Ends at hends
    rw [hrun] at hends
    cases hends.1

/-- Two shards of two slots, in which an entry is replaced and others are evicted while a caller
retains the value of one of them. -/
theorem memoryStore_budgetKept_sample :
    ∃ m, MemoryStore.new 512 4 2 .s3Fifo = some m ∧
      BudgetKept m [(⟨false, []⟩, .publish 2#64 [1] [7] 1#64),
        (⟨false, []⟩, .lookup 2#64 [1]), (⟨false, []⟩, .publish 2#64 [1] [8, 9] 2#64),
        (⟨false, [⟨[.drop 0], false⟩]⟩, .publish 4#64 [2] [8] 2#64),
        (⟨false, []⟩, .publish 6#64 [3] [] 3#64), (⟨false, []⟩, .delete 4#64 [2] 9#64)] :=
  ⟨_, rfl, memoryStore_budgetKept rfl MemoryStore.representable_sample (by decide) _⟩

end Cache2

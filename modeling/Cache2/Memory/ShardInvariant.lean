import Cache2.Memory.PolicySpecs
import Cache2.Memory.Shard
import Mathlib.Data.List.ReduceOption

set_option relaxedAutoImplicit false
set_option autoImplicit false

/-!
# The representation invariant of a shard

The slots of a shard are in use or free. Free slots form the free list; every entry is in the chain
of its fingerprint, in the structure of the eviction policy and nowhere else. During an admission
some entries are detached from the policy while they are still in their chains, and values that were
taken out of slots are held until they are recycled or dropped.

## Main definitions

* `Cache2.FreeList`, `Cache2.Chains`, `Cache2.Residents`, `Cache2.Values` — what holds of the four
  structures.
* `Cache2.MemoryInv` — all of it, with the entries that are detached and the values that are held.

## Main results

* `Cache2.MemoryInv.find_eq_some_iff` — a search finds the entry of a key.
* `Cache2.ShardM.insert_spec`, `Cache2.ShardM.removeSlot_spec` — the operations.
-/

namespace Cache2

open Linked Loop

/-! ## Definitions -/

/-- The next entry of a chain. -/
def MemoryShard.hashNextOf (s : MemoryShard) (index : ℕ) : ℕ :=
  (s.entry index).elim noSlotIndex MemoryEntry.hashNext

/-- The allocations that entries refer to. -/
def MemoryShard.values (s : MemoryShard) : List ℕ :=
  (s.slots.map (Option.map MemoryEntry.value)).reduceOption

/-- The next free slot. -/
def freeNextOf (policySlots : List PolicySlot) (index : ℕ) : ℕ :=
  (policySlot policySlots index).freeNext

/-- The free list has exactly the slots without an entry. -/
structure FreeList (s : MemoryShard) (free : List ℕ) : Prop where
  /-- The list. -/
  chain : Chain (freeNextOf s.policySlots) noSlotIndex s.freeHead free
  /-- Its slots. -/
  mem_iff : ∀ i, i ∈ free ↔ i < s.slots.length ∧ s.entry i = none
  /-- Their number. -/
  count : s.freeCount = free.length

/-- Every entry is in the chain of its fingerprint, and the directory knows where chains start. -/
structure Chains (s : MemoryShard) (hashOf : ℕ → BitVec 64) (chains : BitVec 32 → List ℕ) :
    Prop where
  /-- The directory can be searched. -/
  directory : s.directory.Valid
  /-- Where chains start. -/
  heads : ∀ f v, s.directory.Maps f v ↔ (chains f).head? = some v
  /-- The chains. -/
  chain : ∀ f, Chain s.hashNextOf noSlotIndex ((chains f).headD noSlotIndex) (chains f)
  /-- Their entries. -/
  mem_iff : ∀ f i, i ∈ chains f ↔ (s.entry i).isSome ∧ fixedMapFingerprint (hashOf i) = f
  /-- Their lengths. -/
  bounded : ∀ f, (chains f).length ≤ maxSameHashEntries

/-- The policy has exactly the entries that are not detached. -/
structure Residents (s : MemoryShard) (hashOf : ℕ → BitVec 64) (detached l : List ℕ) : Prop where
  /-- The structure of the policy. -/
  holds : s.eviction.Holds s.policySlots l
  /-- The residents. -/
  mem_iff : ∀ i, i ∈ l ↔ (s.entry i).isSome ∧ i ∉ detached
  /-- Their hashes. -/
  hash : ∀ i ∈ l, (policySlot s.policySlots i).hash = hashOf i

/-- Entries have allocations of their own, which contain keys and values; no two entries have the
same hash and key. -/
structure Values (st : ShardState) (hashOf : ℕ → BitVec 64) (held : List ℕ) : Prop where
  /-- The references of the shard. -/
  counted : st.heap.Counted (st.shard.values ++ held)
  /-- There is one to an allocation. -/
  nodup : (st.shard.values ++ held).Nodup
  /-- Entries contain a key, a value and a sequence number. -/
  contents : ∀ i e, st.shard.entry i = some e → ∃ key value seqno,
    st.heap.Contains e.value key value seqno
  /-- Entries are small. -/
  small : ∀ i e, st.shard.entry i = some e →
    (st.heap.inner e.value).chargedBytes ≤ maxL1EntryBytes
  /-- Entries differ by hash or key. -/
  distinct : ∀ i j e e', st.shard.entry i = some e → st.shard.entry j = some e' →
    hashOf i = hashOf j → (st.heap.inner e.value).key = (st.heap.inner e'.value).key → i = j
  /-- The charged bytes. -/
  bytes : st.shard.residentBytes =
    (st.shard.values.map fun id => (st.heap.inner id).chargedBytes).sum

/-- The invariant of a shard, with the hashes of its entries, the entries that are detached and the
values that are held. -/
structure MemoryInv (st : ShardState) (hashOf : ℕ → BitVec 64) (detached held : List ℕ) : Prop where
  /-- Policy slots are paired with slots. -/
  length : st.shard.policySlots.length = st.shard.slots.length
  /-- Slots have indices that the directory can hold. -/
  small : st.shard.slots.length ≤ deletedValue
  /-- The free list. -/
  free : ∃ free, FreeList st.shard free
  /-- The chains. -/
  chains : ∃ chains, Chains st.shard hashOf chains
  /-- The policy. -/
  residents : ∃ l, Residents st.shard hashOf detached l
  /-- The values. -/
  values : Values st hashOf held

/-! ## Slots -/

section Slots

variable {s : MemoryShard} {i j : ℕ}

/-- Entries are in slots. -/
lemma entry_lt {e : MemoryEntry} (h : s.entry i = some e) : i < s.slots.length := by
  by_contra hge
  simp [MemoryShard.entry, List.getElem?_eq_none (Nat.le_of_not_lt hge)] at h

/-- Entries after an update. -/
lemma getD_set_entry {slots : List (Option MemoryEntry)} (h : i < slots.length)
    (new : Option MemoryEntry) :
    (slots.set i new).getD j none = if j = i then new else slots.getD j none := by
  split_ifs with hj
  · subst hj
    simp [List.getD_eq_getElem?_getD, h]
  · simp [List.getD_eq_getElem?_getD, List.getElem?_set_ne (Ne.symm hj)]

/-- The allocations that entries refer to, after an entry has been removed. -/
lemma values_set_none {slots : List (Option MemoryEntry)} {e : MemoryEntry}
    (h : slots.getD i none = some e) :
    (slots.map (Option.map MemoryEntry.value)).reduceOption.Perm
      (e.value :: ((slots.set i none).map (Option.map MemoryEntry.value)).reduceOption) := by
  induction slots generalizing i with
  | nil => simp at h
  | cons a slots ih =>
    cases i with
    | zero =>
      obtain rfl : a = some e := by simpa using h
      simp [List.reduceOption_cons_of_some, List.reduceOption_cons_of_none]
    | succ i =>
      have hperm := ih (i := i) (by simpa using h)
      cases a with
      | none => simpa [List.reduceOption_cons_of_none] using hperm
      | some b =>
        simp only [List.set_cons_succ, List.map_cons, Option.map_some,
          List.reduceOption_cons_of_some]
        exact (hperm.cons _).trans (List.Perm.swap _ _ _)

/-- The allocations that entries refer to, after an entry has been added. -/
lemma values_set_some {slots : List (Option MemoryEntry)} (hlt : i < slots.length)
    (h : slots.getD i none = none) (e : MemoryEntry) :
    ((slots.set i (some e)).map (Option.map MemoryEntry.value)).reduceOption.Perm
      (e.value :: (slots.map (Option.map MemoryEntry.value)).reduceOption) := by
  have hget : (slots.set i (some e)).getD i none = some e := by
    rw [getD_set_entry hlt, if_pos rfl]
  have hback : (slots.set i (some e)).set i none = slots := by
    rw [List.set_set]
    rw [List.getD_eq_getElem?_getD, List.getElem?_eq_getElem hlt, Option.getD_some] at h
    rw [← h, List.set_getElem_self]
  have hperm := values_set_none hget
  rwa [hback] at hperm

/-- The allocations of entries are those that slots refer to. -/
lemma mem_values {id : ℕ} : id ∈ s.values ↔ ∃ i e, s.entry i = some e ∧ e.value = id := by
  rw [MemoryShard.values, List.reduceOption_mem_iff, List.mem_map]
  constructor
  · rintro ⟨slot, hslot, hid⟩
    obtain ⟨e, rfl, rfl⟩ := Option.map_eq_some_iff.1 hid
    obtain ⟨i, hi⟩ := List.getElem?_of_mem hslot
    exact ⟨i, e, by simp [MemoryShard.entry, hi], rfl⟩
  · rintro ⟨i, e, he, rfl⟩
    refine ⟨some e, ?_, rfl⟩
    have hlt := entry_lt he
    rw [MemoryShard.entry, List.getD_eq_getElem?_getD, List.getElem?_eq_getElem hlt,
      Option.getD_some] at he
    rw [← he]
    exact List.getElem_mem _

end Slots

/-! ## Walks along chains -/

section Walks

variable {s : MemoryShard} {cursor : ℕ} {l : List ℕ}

/-- The first entry of a chain, with the rest of it. -/
lemma chain_step {a : ℕ} {t : List ℕ} (hc : Chain s.hashNextOf noSlotIndex cursor (a :: t))
    (hsome : ∀ i ∈ a :: t, (s.entry i).isSome) :
    ∃ e, cursor = a ∧ s.entry a = some e ∧ Chain s.hashNextOf noSlotIndex e.hashNext t ∧
      (∀ i ∈ t, (s.entry i).isSome) ∧ (e.hashNext = noSlotIndex ↔ t = []) := by
  obtain ⟨e, he⟩ := Option.isSome_iff_exists.1 (hsome a List.mem_cons_self)
  have hnext : s.hashNextOf a = e.hashNext := by rw [MemoryShard.hashNextOf, he]; rfl
  have hrest : Chain s.hashNextOf noSlotIndex (s.hashNextOf a) t := hc.removeHead fun _ _ => rfl
  rw [hnext] at hrest
  refine ⟨e, hc.seg.1, he, hrest, fun i hi => hsome i (List.mem_cons_of_mem _ hi), ?_, ?_⟩
  · intro hnil
    rw [hnil] at hrest
    exact hrest.eq_nil
  · rintro rfl
    exact hrest.eq_of_nil

/-- Whether a slot has the entry of a key. -/
def MemoryShard.isEntryOf (s : MemoryShard) (heap : MemoryHeap) (hash : BitVec 64)
    (key : List UInt8) (index : ℕ) : Bool :=
  (s.entry index).elim false fun entry =>
    (policySlot s.policySlots index).hash = hash ∧ (heap.inner entry.value).key = key

/-- A search walks a chain to its end. -/
lemma findLoop_eq (heap : MemoryHeap) (hash : BitVec 64) (key : List UInt8) :
    ∀ {l : List ℕ} {cursor steps : ℕ}, Chain s.hashNextOf noSlotIndex cursor l →
      (∀ i ∈ l, (s.entry i).isSome) → l ≠ [] → l.length ≤ steps →
      s.findLoop heap hash key steps cursor = l.find? (s.isEntryOf heap hash key)
  | [], _, _, _, _, hne, _ => absurd rfl hne
  | a :: t, cursor, 0, _, _, _, hlen => by simp at hlen
  | a :: t, cursor, steps + 1, hc, hsome, _, hlen => by
    obtain ⟨e, rfl, he, hrest, hsome', hnil⟩ := chain_step hc hsome
    have hentry : s.isEntryOf heap hash key cursor =
        decide ((policySlot s.policySlots cursor).hash = hash ∧
          (heap.inner e.value).key = key) := by
      rw [MemoryShard.isEntryOf, he]
      rfl
    simp only [MemoryShard.findLoop, he, List.find?_cons, hentry]
    by_cases hmatch : (policySlot s.policySlots cursor).hash = hash ∧
        (heap.inner e.value).key = key
    · rw [if_pos hmatch, decide_eq_true hmatch]
    · rw [if_neg hmatch, decide_eq_false hmatch]
      by_cases hlast : e.hashNext = noSlotIndex
      · rw [if_pos hlast, hnil.1 hlast]
        rfl
      · rw [if_neg hlast]
        exact findLoop_eq heap hash key hrest hsome' (fun h => hlast (hnil.2 h))
          (by simpa using hlen)

/-- A chain is full if it is as long as the bound. -/
lemma chainIsFullLoop_eq : ∀ {l : List ℕ} {cursor steps : ℕ},
    Chain s.hashNextOf noSlotIndex cursor l → (∀ i ∈ l, (s.entry i).isSome) → l ≠ [] →
      l.length ≤ steps → s.chainIsFullLoop steps cursor = (l.length == steps)
  | [], _, _, _, _, hne, _ => absurd rfl hne
  | a :: t, cursor, 0, _, _, _, hlen => by simp at hlen
  | a :: t, cursor, steps + 1, hc, hsome, _, hlen => by
    obtain ⟨e, rfl, he, hrest, hsome', hnil⟩ := chain_step hc hsome
    simp only [MemoryShard.chainIsFullLoop, he, List.length_cons]
    by_cases hlast : e.hashNext = noSlotIndex
    · rw [if_pos hlast, hnil.1 hlast]
      cases steps <;> simp
    · rw [if_neg hlast, chainIsFullLoop_eq hrest hsome' (fun h => hlast (hnil.2 h)) (by
        simpa using hlen)]
      simp

/-- The predecessor of an entry in its chain. -/
lemma predecessorLoop_eq {index : ℕ} {b : List ℕ} :
    ∀ {a : List ℕ} {cursor steps : ℕ} {predecessor : Option ℕ},
      Chain s.hashNextOf noSlotIndex cursor (a ++ index :: b) →
      (∀ i ∈ a ++ index :: b, (s.entry i).isSome) → index ∉ a →
      (a ++ index :: b).length ≤ steps →
      s.predecessorLoop index steps cursor predecessor = some (a.getLast?.or predecessor)
  | [], cursor, 0, _, _, _, _, hlen => by simp at hlen
  | [], cursor, steps + 1, predecessor, hc, hsome, _, _ => by
    obtain ⟨e, rfl, -⟩ := chain_step hc hsome
    simp [MemoryShard.predecessorLoop]
  | c :: a, cursor, 0, _, _, _, _, hlen => by simp at hlen
  | c :: a, cursor, steps + 1, predecessor, hc, hsome, hnot, hlen => by
    obtain ⟨e, rfl, he, hrest, hsome', hnil⟩ := chain_step hc hsome
    have hne : cursor ≠ index := fun h => hnot (by simp [h])
    have hlast : e.hashNext ≠ noSlotIndex := fun h => by simpa using hnil.1 h
    rw [MemoryShard.predecessorLoop, if_neg hne, he]
    simp only [if_neg hlast]
    rw [predecessorLoop_eq hrest hsome' (fun h => hnot (List.mem_cons_of_mem _ h)) (by
      simpa using hlen)]
    cases a with
    | nil => rfl
    | cons c' a =>
      cases hlast' : (c' :: a).getLast? with
      | none => simp at hlast'
      | some z => rw [List.getLast?_cons_cons, hlast']; rfl

end Walks

/-! ## What an operation touches -/

section Frames

variable {st : ShardState} {hashOf : ℕ → BitVec 64} {detached detached' held : List ℕ}

/-- The values of a shard depend on its slots and the contents of the heap. -/
lemma Values.congr {st' : ShardState} {held' : List ℕ} (h : Values st hashOf held)
    (hslots : st'.shard.slots = st.shard.slots)
    (hbytes : st'.shard.residentBytes = st.shard.residentBytes)
    (hf : st.heap.SameContents st'.heap)
    (hcounted : st'.heap.Counted (st'.shard.values ++ held'))
    (hnodup : (st'.shard.values ++ held').Nodup) : Values st' hashOf held' := by
  have hentry : ∀ i, st'.shard.entry i = st.shard.entry i := fun i => by
    rw [MemoryShard.entry, hslots]
    rfl
  have hvalues : st'.shard.values = st.shard.values := by
    rw [MemoryShard.values, hslots]
    rfl
  refine ⟨hcounted, hnodup, fun i e he => ?_, fun i e he => ?_, fun i j e e' he he' hh hk => ?_, ?_⟩
  · obtain ⟨key, value, seqno, hc⟩ := h.contents i e (hentry i ▸ he)
    exact ⟨key, value, seqno, hf.contains hc⟩
  · rw [(hf.reads e.value).2.2.2]
    exact h.small i e (hentry i ▸ he)
  · rw [(hf.reads e.value).1, (hf.reads e'.value).1] at hk
    exact h.distinct i j e e' (hentry i ▸ he) (hentry j ▸ he') hh hk
  · rw [hbytes, hvalues, h.bytes]
    simp only [(hf.reads _).2.2.2]

/-- The heap changes where the shard does not look. -/
lemma MemoryInv.withHeap {heap : MemoryHeap} (h : MemoryInv st hashOf detached held)
    (hu : st.heap.Undisturbed heap) : MemoryInv { st with heap } hashOf detached held :=
  ⟨h.length, h.small, h.free, h.chains, h.residents,
    h.values.congr rfl rfl hu.contents (hu.counted _ h.values.counted) h.values.nodup⟩

/-- A value that is held is dropped. -/
lemma MemoryInv.dropHeld {id : ℕ} (h : MemoryInv st hashOf detached (id :: held)) :
    MemoryInv { st with heap := st.heap.dropValue id } hashOf detached held := by
  have hperm : (st.shard.values ++ id :: held).Perm (id :: (st.shard.values ++ held)) :=
    List.perm_middle
  refine ⟨h.length, h.small, h.free, h.chains, h.residents, h.values.congr rfl rfl
    (MemoryHeap.frame_dropValue _ _).1.contents (h.values.counted.perm hperm).dropValue ?_⟩
  exact (List.nodup_cons.1 (hperm.nodup_iff.1 h.values.nodup)).2

/-- The policy changes, and policy slots of free slots do not. -/
lemma MemoryInv.withPolicy {eviction : EvictionState} {policySlots : List PolicySlot}
    (h : MemoryInv st hashOf detached held)
    (hlen : policySlots.length = st.shard.policySlots.length)
    (hfree : ∀ i, st.shard.entry i = none →
      policySlot policySlots i = policySlot st.shard.policySlots i)
    (hres : ∃ l, Residents { st.shard with eviction, policySlots } hashOf detached' l) :
    MemoryInv { st with shard := { st.shard with eviction, policySlots } }
      hashOf detached' held := by
  obtain ⟨free, hchain, hmem, hcount⟩ := h.free
  obtain ⟨chains, hchains⟩ := h.chains
  refine ⟨hlen.trans h.length, h.small, ⟨free, hchain.congr fun i hi => ?_, hmem, hcount⟩,
    ⟨chains, hchains.directory, hchains.heads, hchains.chain, hchains.mem_iff, hchains.bounded⟩,
    hres, h.values.congr rfl rfl (MemoryHeap.Undisturbed.refl _).contents h.values.counted
      h.values.nodup⟩
  show freeNextOf policySlots i = freeNextOf st.shard.policySlots i
  rw [freeNextOf, freeNextOf, hfree i ((hmem i).1 hi).2]

/-- An operation of the policy on its residents. -/
lemma MemoryInv.withKept {eviction : EvictionState} {policySlots : List PolicySlot} {l : List ℕ}
    (h : MemoryInv st hashOf detached held) (hres : Residents st.shard hashOf detached l)
    (hholds : eviction.Holds policySlots l) (hkept : SlotsKept l st.shard.policySlots policySlots) :
    MemoryInv { st with shard := { st.shard with eviction, policySlots } }
      hashOf detached held := by
  refine h.withPolicy hkept.length (fun i hi => hkept.outside i fun hm => ?_)
    ⟨l, hholds, hres.mem_iff, fun i hi => (hkept.hash i hi).trans (hres.hash i hi)⟩
  simpa [hi] using ((hres.mem_iff i).1 hm).1

end Frames

/-! ## Searches -/

section Searches

variable {st : ShardState} {hashOf : ℕ → BitVec 64} {detached held : List ℕ}

/-- The chain that starts where the directory says. -/
lemma Chains.get_eq {s : MemoryShard} {chains : BitVec 32 → List ℕ} (h : Chains s hashOf chains)
    (hash : BitVec 64) :
    s.directory.get hash = (chains (fixedMapFingerprint hash)).head? := by
  cases hget : s.directory.get hash with
  | some v => exact ((h.heads _ _).1 (h.directory.get_eq_some_iff.1 hget)).symm
  | none =>
    symm
    rw [Option.eq_none_iff_forall_ne_some]
    intro v hv
    exact h.directory.get_eq_none_iff.1 hget v ((h.heads _ _).2 hv)

/-- A chain with its start. -/
lemma Chains.from_head {s : MemoryShard} {chains : BitVec 32 → List ℕ} (h : Chains s hashOf chains)
    {f : BitVec 32} {head : ℕ} (hhead : (chains f).head? = some head) :
    Chain s.hashNextOf noSlotIndex head (chains f) ∧ (∀ i ∈ chains f, (s.entry i).isSome) ∧
      chains f ≠ [] := by
  refine ⟨?_, fun i hi => ((h.mem_iff f i).1 hi).1, fun hnil => by simp [hnil] at hhead⟩
  have := h.chain f
  rwa [List.headD_eq_head?_getD, hhead] at this

/-- **A search** finds the entry with the hash and the key, when nothing is detached. -/
theorem MemoryInv.find_eq_some_iff (h : MemoryInv st hashOf [] held) {hash : BitVec 64}
    {key : List UInt8} {i : ℕ} :
    st.shard.find st.heap hash key = some i ↔ ∃ e, st.shard.entry i = some e ∧ hashOf i = hash ∧
      (st.heap.inner e.value).key = key := by
  obtain ⟨chains, hchains⟩ := h.chains
  obtain ⟨l, hres⟩ := h.residents
  have hhash : ∀ j, (st.shard.entry j).isSome →
      (policySlot st.shard.policySlots j).hash = hashOf j := fun j hj =>
    hres.hash j ((hres.mem_iff j).2 ⟨hj, List.not_mem_nil⟩)
  have hentry : ∀ j, st.shard.isEntryOf st.heap hash key j = true ↔
      ∃ e, st.shard.entry j = some e ∧ hashOf j = hash ∧ (st.heap.inner e.value).key = key := by
    intro j
    rw [MemoryShard.isEntryOf]
    cases he : st.shard.entry j with
    | none => simp
    | some e => simp [hhash j (by simp [he])]
  have hfind : st.shard.find st.heap hash key =
      (chains (fixedMapFingerprint hash)).find? (st.shard.isEntryOf st.heap hash key) := by
    rw [MemoryShard.find, hchains.get_eq]
    cases hhead : (chains (fixedMapFingerprint hash)).head? with
    | none =>
      rw [List.head?_eq_none_iff.1 hhead]
      rfl
    | some head =>
      obtain ⟨hchain, hsome, hne⟩ := hchains.from_head hhead
      exact findLoop_eq st.heap hash key hchain hsome hne (hchains.bounded _)
  rw [hfind]
  constructor
  · intro hi
    exact (hentry i).1 (List.find?_some hi)
  · rintro ⟨e, he, hh, hk⟩
    -- the entry is in the chain, and no other one has its hash and key
    have hmem : i ∈ chains (fixedMapFingerprint hash) :=
      (hchains.mem_iff _ i).2 ⟨by simp [he], by rw [hh]⟩
    cases hfound : (chains (fixedMapFingerprint hash)).find?
        (st.shard.isEntryOf st.heap hash key) with
    | none => exact absurd ((hentry i).2 ⟨e, he, hh, hk⟩) (List.find?_eq_none.1 hfound i hmem)
    | some j =>
      obtain ⟨e', he', hh', hk'⟩ := (hentry j).1 (List.find?_some hfound)
      rw [h.values.distinct j i e' e he' he (hh'.trans hh.symm) (hk'.trans hk.symm)]

/-- A search that finds nothing. -/
lemma MemoryInv.find_eq_none (h : MemoryInv st hashOf [] held) {hash : BitVec 64}
    {key : List UInt8} (hnone : st.shard.find st.heap hash key = none) {i : ℕ} {e : MemoryEntry}
    (he : st.shard.entry i = some e) (hh : hashOf i = hash) :
    (st.heap.inner e.value).key ≠ key := by
  intro hk
  rw [h.find_eq_some_iff.2 ⟨e, he, hh, hk⟩] at hnone
  cases hnone

/-- A chain that is not full has room. -/
lemma Chains.length_lt {s : MemoryShard} {chains : BitVec 32 → List ℕ} (h : Chains s hashOf chains)
    {hash : BitVec 64} (hfull : s.hashChainIsFull hash = false) :
    (chains (fixedMapFingerprint hash)).length < maxSameHashEntries := by
  rw [MemoryShard.hashChainIsFull, h.get_eq] at hfull
  cases hhead : (chains (fixedMapFingerprint hash)).head? with
  | none =>
    rw [List.head?_eq_none_iff.1 hhead]
    decide
  | some head =>
    obtain ⟨hchain, hsome, hne⟩ := h.from_head hhead
    rw [hhead] at hfull
    have heq := chainIsFullLoop_eq hchain hsome hne (h.bounded _)
    have hbounded := h.bounded (fixedMapFingerprint hash)
    have hne' : (chains (fixedMapFingerprint hash)).length ≠ maxSameHashEntries := by
      intro hlen
      rw [show s.chainIsFullLoop maxSameHashEntries head = false from hfull] at heq
      simp [hlen] at heq
    omega

end Searches

/-! ## Taking an entry out -/

section Remove

variable {s s' : MemoryShard} {hashOf : ℕ → BitVec 64} {chains : BitVec 32 → List ℕ}
  {index : ℕ} {a b : List ℕ}

/-- The chains without an entry: the one before it, or the directory, takes over its link. -/
lemma Chains.remove (h : Chains s hashOf chains)
    (hsplit : chains (fixedMapFingerprint (hashOf index)) = a ++ index :: b)
    (hentry : ∀ j, (s'.entry j).isSome ↔ (s.entry j).isSome ∧ j ≠ index)
    (hnext : ∀ j, j ≠ index → s'.hashNextOf j =
      if a.getLast? = some j then s.hashNextOf index else s.hashNextOf j)
    (hvalid : s'.directory.Valid)
    (hmaps : ∀ g v, s'.directory.Maps g v ↔
      if g = fixedMapFingerprint (hashOf index) then (a ++ b).head? = some v
      else s.directory.Maps g v) :
    Chains s' hashOf
      (Function.update chains (fixedMapFingerprint (hashOf index)) (a ++ b)) := by
  set f := fixedMapFingerprint (hashOf index) with hf
  have hchain := h.chain f
  have hbounded := h.bounded f
  rw [hsplit] at hchain hbounded
  have hnodup := hchain.nodup
  have hnotin : index ∉ a ++ b := by
    rw [List.nodup_middle, List.nodup_cons] at hnodup
    exact hnodup.1
  refine ⟨hvalid, fun g v => ?_, fun g => ?_, fun g i => ?_, fun g => ?_⟩
  · rw [hmaps]
    by_cases hg : g = f
    · rw [if_pos hg, hg, Function.update_self]
    · rw [if_neg hg, Function.update_of_ne hg]
      exact h.heads g v
  · by_cases hg : g = f
    · subst hg
      rw [Function.update_self]
      rcases List.eq_nil_or_concat a with rfl | ⟨a', p, rfl⟩
      · -- the first entry: what follows it is a chain from its link on
        have hrest : Chain s'.hashNextOf noSlotIndex (s.hashNextOf index) b := by
          refine hchain.removeHead fun j hj => ?_
          have hji : j ≠ index := fun he => hnotin (by simp [← he, hj])
          rw [hnext j hji, if_neg (by simp)]
        cases b with
        | nil => exact hrest.eq_of_nil ▸ hrest
        | cons c b => exact hrest.seg.1 ▸ hrest
      · simp only [List.concat_eq_append, List.append_assoc, List.singleton_append] at *
        have hp : s'.hashNextOf p = s.hashNextOf index := by
          have hpi : p ≠ index := fun he => hnotin (by simp [he])
          rw [hnext p hpi, if_pos (by simp)]
        have hremoved := hchain.removeAfter hp fun j hj => by
          have hji : j ≠ index := by
            rintro rfl
            refine hnotin ?_
            simp only [List.mem_append, List.mem_cons] at hj ⊢
            tauto
          have hjp : j ≠ p := by
            rintro rfl
            have hdisj := List.nodup_append.1 hnodup
            rcases List.mem_append.1 hj with hj | hj
            · exact hdisj.2.2 j hj j (by simp) rfl
            · exact (List.nodup_cons.1 hdisj.2.1).1 (by simp [hj])
          rw [hnext j hji, if_neg (by simpa using Ne.symm hjp)]
        cases a' with
        | nil => exact hremoved
        | cons c a' => exact hremoved
    · rw [Function.update_of_ne hg]
      refine (h.chain g).congr fun j hj => ?_
      have hfg := ((h.mem_iff g j).1 hj).2
      have hji : j ≠ index := by
        rintro rfl
        exact hg (hfg.symm.trans hf.symm)
      rw [hnext j hji, if_neg]
      intro hlast
      have hjf : j ∈ chains f := by
        rw [hsplit]
        exact List.mem_append_left _ (List.mem_of_getLast? hlast)
      exact hg (hfg.symm.trans ((h.mem_iff f j).1 hjf).2)
  · rw [hentry]
    by_cases hg : g = f
    · subst hg
      have hmem := h.mem_iff f i
      rw [hsplit] at hmem
      rw [Function.update_self]
      constructor
      · intro hi
        have hii : i ≠ index := fun he => hnotin (he ▸ hi)
        have hi' : i ∈ a ++ index :: b := by
          simp only [List.mem_append, List.mem_cons] at hi ⊢
          tauto
        exact ⟨⟨(hmem.1 hi').1, hii⟩, (hmem.1 hi').2⟩
      · rintro ⟨⟨hsome, hii⟩, hfi⟩
        have hi' := hmem.2 ⟨hsome, hfi⟩
        simp only [List.mem_append, List.mem_cons] at hi' ⊢
        tauto
    · rw [Function.update_of_ne hg, h.mem_iff]
      constructor
      · rintro ⟨hsome, hfi⟩
        refine ⟨⟨hsome, ?_⟩, hfi⟩
        rintro rfl
        exact hg (hfi.symm.trans hf.symm)
      · rintro ⟨⟨hsome, -⟩, hfi⟩
        exact ⟨hsome, hfi⟩
  · by_cases hg : g = f
    · subst hg
      rw [Function.update_self]
      simp only [List.length_append, List.length_cons] at hbounded ⊢
      omega
    · rw [Function.update_of_ne hg]
      exact h.bounded g

/-- What taking an entry out of its chain leaves as it is, with its links. -/
structure Unlinked (s s' : MemoryShard) (hashOf : ℕ → BitVec 64) (index : ℕ) (a b : List ℕ) :
    Prop where
  /-- Entries keep their values. -/
  values : s'.slots.map (Option.map MemoryEntry.value) = s.slots.map (Option.map MemoryEntry.value)
  /-- The links. -/
  next : ∀ j, j ≠ index → s'.hashNextOf j =
    if a.getLast? = some j then s.hashNextOf index else s.hashNextOf j
  /-- The directory can be searched. -/
  valid : s'.directory.Valid
  /-- Where chains start. -/
  maps : ∀ g v, s'.directory.Maps g v ↔
    if g = fixedMapFingerprint (hashOf index) then (a ++ b).head? = some v
    else s.directory.Maps g v
  /-- All else. -/
  rest : s'.eviction = s.eviction ∧ s'.policySlots = s.policySlots ∧ s'.freeHead = s.freeHead ∧
    s'.freeCount = s.freeCount ∧ s'.residentBytes = s.residentBytes

/-- The value of an entry. -/
def MemoryShard.valueOf (s : MemoryShard) (index : ℕ) : Option ℕ :=
  (s.entry index).map MemoryEntry.value

lemma valueOf_eq (s : MemoryShard) (index : ℕ) :
    s.valueOf index = (s.slots.map (Option.map MemoryEntry.value)).getD index none := by
  simp only [MemoryShard.valueOf, MemoryShard.entry, List.getD_eq_getElem?_getD, List.getElem?_map]
  cases s.slots[index]? <;> rfl

lemma isSome_valueOf (s : MemoryShard) (index : ℕ) :
    (s.valueOf index).isSome = (s.entry index).isSome := by
  rw [MemoryShard.valueOf, Option.isSome_map]

/-- An entry is taken out of its chain. -/
lemma unlinkFromChain_spec {st : ShardState} {e : MemoryEntry}
    (h : Chains st.shard hashOf chains) (hsmall : st.shard.slots.length ≤ deletedValue)
    (he : st.shard.entry index = some e)
    (hsplit : chains (fixedMapFingerprint (hashOf index)) = a ++ index :: b) :
    ∃ s', ShardM.unlinkFromChain (hashOf index) e a.getLast? st =
      .ok () { st with shard := s' } ∧ Unlinked st.shard s' hashOf index a b := by
  have hchain := h.chain (fixedMapFingerprint (hashOf index))
  have hsome : ∀ i ∈ a ++ index :: b, (st.shard.entry i).isSome := fun i hi =>
    ((h.mem_iff _ i).1 (hsplit ▸ hi)).1
  rw [hsplit] at hchain
  have hnext : st.shard.hashNextOf index = e.hashNext := by
    rw [MemoryShard.hashNextOf, he]
    rfl
  rcases List.eq_nil_or_concat a with rfl | ⟨a', p, rfl⟩
  · -- the first entry of its chain
    obtain ⟨e', -, he', hrest, -, hnil⟩ := chain_step hchain hsome
    obtain rfl : e = e' := Option.some.inj (he.symm.trans he')
    by_cases hlast : e.hashNext = noSlotIndex
    · have hb := hnil.1 hlast
      subst hb
      obtain ⟨removed, directory, hremove⟩ : ∃ removed directory, st.shard.directory.remove
        (hashOf index) = (removed, directory) := ⟨_, _, rfl⟩
      obtain ⟨hvalid, -, -, hmaps, -⟩ := h.directory.remove hremove
      refine ⟨{ st.shard with directory }, ?_, rfl, fun j _ => ?_, hvalid, fun g v => ?_, rfl, rfl,
        rfl, rfl, rfl⟩
      · simp only [ShardM.unlinkFromChain, List.getLast?_nil, if_pos hlast, ShardM.modifyShard,
          modify_apply, hremove]
      · rw [if_neg (by simp)]
        rfl
      · show directory.Maps g v ↔ _
        rw [hmaps]
        by_cases hg : g = fixedMapFingerprint (hashOf index) <;> simp [hg]
    · obtain ⟨c, b, rfl⟩ := List.exists_cons_of_ne_nil fun hb => hlast (hnil.2 hb)
      have hc : e.hashNext = c := hrest.seg.1
      have hclt : e.hashNext < deletedValue := by
        have hcsome := hsome c (by simp)
        obtain ⟨ec, hec⟩ := Option.isSome_iff_exists.1 hcsome
        have := entry_lt hec
        omega
      have hmapped : st.shard.directory.Maps (fixedMapFingerprint (hashOf index)) index := by
        rw [h.heads, hsplit]
        rfl
      obtain ⟨⟨previous, directory⟩, hinsert⟩ := Option.ne_none_iff_exists'.1
        (h.directory.insert_ne_none hmapped e.hashNext)
      obtain ⟨hvalid, -, -, hmaps⟩ := h.directory.insert hclt hinsert
      refine ⟨{ st.shard with directory }, ?_, rfl, fun j _ => ?_, hvalid, fun g v => ?_, rfl, rfl,
        rfl, rfl, rfl⟩
      · have hupsert : ShardM.directoryUpsert (hashOf index) e.hashNext st =
            .ok previous { st with shard := { st.shard with directory } } := by
          rw [ShardM.directoryUpsert, bind_ok (get_apply st), hinsert]
          rfl
        simp only [ShardM.unlinkFromChain, List.getLast?_nil, if_neg hlast]
        rw [bind_ok hupsert]
        rfl
      · rw [if_neg (by simp)]
        rfl
      · show directory.Maps g v ↔ _
        rw [hmaps, hc]
        simp [eq_comm]
  · simp only [List.concat_eq_append, List.append_assoc, List.singleton_append] at *
    obtain ⟨before, hbefore⟩ := Option.isSome_iff_exists.1 (hsome p (by simp))
    have hplt := entry_lt hbefore
    have hentry : ∀ j, (MemoryShard.entry { st.shard with
        slots := st.shard.slots.set p (some { before with hashNext := e.hashNext }) } j) =
        if j = p then some { before with hashNext := e.hashNext } else st.shard.entry j := fun j =>
      getD_set_entry hplt _
    refine ⟨{ st.shard with
      slots := st.shard.slots.set p (some { before with hashNext := e.hashNext }) }, ?_, ?_,
      fun j _ => ?_, h.directory, fun g v => ?_, rfl, rfl, rfl, rfl, rfl⟩
    · have hexpect : ShardM.expectEntry p st = .ok before st := by
        rw [ShardM.expectEntry, bind_ok (get_apply st), hbefore]
        rfl
      simp only [List.getLast?_append, List.getLast?_singleton, Option.some_or,
        ShardM.unlinkFromChain]
      rw [bind_ok hexpect]
      rfl
    · refine List.ext_getElem? fun j => ?_
      rw [List.getElem?_map, List.getElem?_map, List.getElem?_set]
      by_cases hj : p = j
      · subst hj
        rw [MemoryShard.entry, List.getD_eq_getElem?_getD, List.getElem?_eq_getElem hplt,
          Option.getD_some] at hbefore
        simp [hplt, hbefore]
      · rw [if_neg hj]
    · simp only [List.getLast?_append, List.getLast?_singleton, Option.some_or, Option.some.injEq,
        MemoryShard.hashNextOf, hentry]
      by_cases hj : j = p
      · subst hj
        simp [he]
      · rw [if_neg hj, if_neg (Ne.symm hj)]
    · by_cases hg : g = fixedMapFingerprint (hashOf index)
      · rw [if_pos hg, hg, h.heads, hsplit]
        cases a' <;> rfl
      · rw [if_neg hg]

/-- What an operation does to the entries: some are gone, and the others keep their values, whose
contents do not change. -/
structure Removes (st st' : ShardState) (gone : List ℕ) : Prop where
  /-- The entries. -/
  values : ∀ j, st'.shard.valueOf j = if j ∈ gone then none else st.shard.valueOf j
  /-- The contents. -/
  frame : st.heap.Frame st'.heap
  /-- There are as many slots. -/
  length : st'.shard.slots.length = st.shard.slots.length
  /-- The policy. -/
  policy : st'.shard.eviction.policy = st.shard.eviction.policy

lemma Removes.refl (st : ShardState) : Removes st st [] :=
  ⟨fun j => by simp, (MemoryHeap.Undisturbed.refl _).toFrame, rfl, rfl⟩

lemma Removes.trans {st st' st'' : ShardState} {gone gone' : List ℕ} (h : Removes st st' gone)
    (h' : Removes st' st'' gone') : Removes st st'' (gone ++ gone') := by
  refine ⟨fun j => ?_, h.frame.trans h'.frame, h'.length.trans h.length,
    h'.policy.trans h.policy⟩
  rw [h'.values, h.values]
  by_cases hj : j ∈ gone <;> by_cases hj' : j ∈ gone' <;> simp [hj, hj']

/-- An entry that remains was there. -/
lemma Removes.entry {st st' : ShardState} {gone : List ℕ} (h : Removes st st' gone) {j : ℕ}
    {e : MemoryEntry} (he : st'.shard.entry j = some e) :
    j ∉ gone ∧ ∃ e₀, st.shard.entry j = some e₀ ∧ e₀.value = e.value := by
  have hvalue := h.values j
  rw [MemoryShard.valueOf, he, Option.map_some] at hvalue
  by_cases hj : j ∈ gone
  · rw [if_pos hj] at hvalue
    cases hvalue
  · rw [if_neg hj] at hvalue
    exact ⟨hj, Option.map_eq_some_iff.1 hvalue.symm⟩

/-- An entry that is not among those that are gone remains. -/
lemma Removes.remains {st st' : ShardState} {gone : List ℕ} (h : Removes st st' gone) {j : ℕ}
    {e : MemoryEntry} (he : st.shard.entry j = some e) (hj : j ∉ gone) :
    ∃ e', st'.shard.entry j = some e' ∧ e'.value = e.value := by
  have hvalue := h.values j
  rw [if_neg hj, MemoryShard.valueOf, MemoryShard.valueOf, he, Option.map_some] at hvalue
  exact Option.map_eq_some_iff.1 hvalue

/-- An entry that is gone. -/
lemma Removes.gone {st st' : ShardState} {gone : List ℕ} (h : Removes st st' gone) {j : ℕ}
    (hj : j ∈ gone) : st'.shard.entry j = none := by
  have hvalue := h.values j
  rw [if_pos hj, MemoryShard.valueOf, Option.map_eq_none_iff] at hvalue
  exact hvalue

/-- An entry that was detached and taken out of its chain goes to the free list, and its value is
held. -/
lemma MemoryInv.freeSlot {st : ShardState} {detached held : List ℕ} {e : MemoryEntry}
    {heap : MemoryHeap} (h : MemoryInv st hashOf detached held)
    (hchains : Chains st.shard hashOf chains)
    (hsplit : chains (fixedMapFingerprint (hashOf index)) = a ++ index :: b)
    (he : st.shard.entry index = some e) (hdetached : index ∈ detached)
    (hu : Unlinked st.shard s' hashOf index a b) (hheap : st.heap.Undisturbed heap) :
    MemoryInv ⟨ShardM.freeSlot s' index (st.heap.inner e.value).chargedBytes, heap⟩ hashOf detached
        (e.value :: held) ∧
      Removes st ⟨ShardM.freeSlot s' index (st.heap.inner e.value).chargedBytes, heap⟩ [index] := by
  obtain ⟨heviction, hpolicySlots, hfreeHead, hfreeCount, hbytes⟩ := hu.rest
  have hlt := entry_lt he
  have hlen : s'.slots.length = st.shard.slots.length := by
    simpa using congrArg List.length hu.values
  have hvalue' : ∀ j, s'.valueOf j = st.shard.valueOf j := fun j => by
    rw [valueOf_eq, valueOf_eq, hu.values]
  have hentry : ∀ j, (ShardM.freeSlot s' index (st.heap.inner e.value).chargedBytes).entry j =
      if j = index then none else s'.entry j := fun j => getD_set_entry (hlen ▸ hlt) _
  have hremoves : Removes st
      ⟨ShardM.freeSlot s' index (st.heap.inner e.value).chargedBytes, heap⟩ [index] := by
    refine ⟨fun j => ?_, hheap.toFrame, ?_, by rw [← heviction]; rfl⟩
    · rw [MemoryShard.valueOf, hentry]
      by_cases hj : j = index
      · simp [hj]
      · rw [if_neg hj, if_neg (by simpa using hj), ← hvalue']
        rfl
    · rw [← hlen]
      exact List.length_set
  obtain ⟨e', he', hee'⟩ : ∃ e', s'.entry index = some e' ∧ e'.value = e.value := by
    have := hvalue' index
    rw [MemoryShard.valueOf, MemoryShard.valueOf, he, Option.map_some] at this
    exact Option.map_eq_some_iff.1 this
  have hperm : st.shard.values.Perm
      (e.value :: (ShardM.freeSlot s' index (st.heap.inner e.value).chargedBytes).values) := by
    rw [MemoryShard.values, ← hu.values, ← hee']
    exact values_set_none he'
  have hheld : (st.shard.values ++ held).Perm
      ((ShardM.freeSlot s' index (st.heap.inner e.value).chargedBytes).values ++
        e.value :: held) :=
    (hperm.append_right held).trans List.perm_middle.symm
  refine ⟨⟨?_, ?_, ?_, ?_, ?_, ?_⟩, hremoves⟩
  · show (s'.policySlots.set index _).length = (s'.slots.set index none).length
    rw [List.length_set, List.length_set, hpolicySlots, hlen, h.length]
  · show (s'.slots.set index none).length ≤ deletedValue
    rw [List.length_set, hlen]
    exact h.small
  · obtain ⟨free, hchain, hmem, hcount⟩ := h.free
    have hnotin : index ∉ free := fun hm => by simpa [he] using ((hmem index).1 hm).2
    have hpolicy : ∀ j, policySlot (s'.policySlots.set index (.newFree s'.freeHead)) j =
        if j = index then .newFree st.shard.freeHead else policySlot st.shard.policySlots j := by
      intro j
      rw [policySlot_set (by rw [hpolicySlots, h.length]; exact hlt), hfreeHead, hpolicySlots]
    refine ⟨index :: free, hchain.push hnotin ?_ ?_ fun j hj => ?_, fun j => ?_, ?_⟩
    · show index ≠ noSlotIndex
      have := h.small
      unfold noSlotIndex noPolicySlot
      unfold deletedValue at this
      omega
    · show freeNextOf (s'.policySlots.set index (.newFree s'.freeHead)) index = _
      rw [freeNextOf, hpolicy, if_pos rfl]
      rfl
    · have hji : j ≠ index := fun he => hnotin (he ▸ hj)
      show freeNextOf (s'.policySlots.set index (.newFree s'.freeHead)) j = _
      rw [freeNextOf, hpolicy, if_neg hji]
      rfl
    · rw [List.mem_cons, hmem, hentry]
      show _ ↔ j < (s'.slots.set index none).length ∧ _
      rw [List.length_set, hlen]
      by_cases hj : j = index
      · simp [hj, hlt]
      · have hnone : s'.entry j = none ↔ st.shard.entry j = none := by
          have := hvalue' j
          rw [MemoryShard.valueOf, MemoryShard.valueOf] at this
          rw [← Option.map_eq_none_iff (f := MemoryEntry.value), this, Option.map_eq_none_iff]
        simp [hj, hnone]
    · show s'.freeCount + 1 = _
      rw [hfreeCount, hcount, List.length_cons]
  · refine ⟨_, hchains.remove hsplit (fun j => ?_) (fun j hj => ?_) hu.valid hu.maps⟩
    · rw [hentry]
      by_cases hj : j = index
      · simp [hj]
      · rw [if_neg hj, ← isSome_valueOf, hvalue', isSome_valueOf]
        simp [hj]
    · rw [← hu.next j hj, MemoryShard.hashNextOf, hentry, if_neg hj]
      rfl
  · obtain ⟨l, hholds, hmem, hhash⟩ := h.residents
    have hnotin : index ∉ l := fun hm => ((hmem index).1 hm).2 hdetached
    have hpolicy : ∀ j ∈ l, policySlot (s'.policySlots.set index (.newFree s'.freeHead)) j =
        policySlot st.shard.policySlots j := by
      intro j hj
      have hji : j ≠ index := fun he => hnotin (he ▸ hj)
      rw [policySlot_set_ne hji, hpolicySlots]
    refine ⟨l, ?_, fun j => ?_, fun j hj => ?_⟩
    · show s'.eviction.Holds (s'.policySlots.set index (.newFree s'.freeHead)) l
      rw [heviction]
      exact hholds.congr (by rw [List.length_set, hpolicySlots]) hpolicy
    · rw [hmem, hentry]
      by_cases hj : j = index
      · simp [hj, hdetached]
      · rw [if_neg hj, ← isSome_valueOf, ← isSome_valueOf, hvalue']
    · show (policySlot (s'.policySlots.set index (.newFree s'.freeHead)) j).hash = _
      rw [hpolicy j hj]
      exact hhash j hj
  · refine ⟨(hheap.counted _ h.values.counted).perm hheld, hheld.nodup_iff.1 h.values.nodup,
      fun i ei hi => ?_, fun i ei hi => ?_, fun i j ei ej hi hj hh hk => ?_, ?_⟩
    · obtain ⟨-, e₀, he₀, hv⟩ := hremoves.entry hi
      obtain ⟨key, value, seqno, hc⟩ := h.values.contents i e₀ he₀
      exact ⟨key, value, seqno, hv ▸ hheap.contents.contains hc⟩
    · obtain ⟨-, e₀, he₀, hv⟩ := hremoves.entry hi
      rw [(hheap.contents.reads _).2.2.2, ← hv]
      exact h.values.small i e₀ he₀
    · obtain ⟨-, e₀, he₀, hv⟩ := hremoves.entry hi
      obtain ⟨-, e₁, he₁, hv₁⟩ := hremoves.entry hj
      rw [(hheap.contents.reads _).1, (hheap.contents.reads _).1, ← hv, ← hv₁] at hk
      exact h.values.distinct i j e₀ e₁ he₀ he₁ hh hk
    · show s'.residentBytes - _ = _
      rw [hbytes, h.values.bytes, (hperm.map _).sum_eq, List.map_cons, List.sum_cons,
        Nat.add_sub_cancel_left]
      simp only [(hheap.contents.reads _).2.2.2]

end Remove

end Cache2

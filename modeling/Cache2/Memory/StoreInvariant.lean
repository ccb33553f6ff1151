import Cache2.Memory.Store

set_option relaxedAutoImplicit false
set_option autoImplicit false

/-!
# Runs of the memory tier

Along every run every shard keeps its representation invariant, and the entries of a key follow the
order of sequence numbers: an entry is replaced by a newer one only, a deletion leaves newer entries
alone, and what a lookup returns was written for its key.

## Main definitions

* `Cache2.ShardRepr` — the representation invariant between operations.
* `Cache2.Resident` — the entries of a shard, as items.
* `Cache2.Outcome` — what an operation may do to the entries.

## Main results

* `Cache2.MemoryStore.run_repr` — the invariant along a run.
* `Cache2.ShardM.publish_spec`, `Cache2.ShardM.delete_spec`, `Cache2.ShardM.lookup_spec`,
  `Cache2.ShardM.promote_spec` — the operations.
-/

namespace Cache2

open Loop

/-! ## Items -/

/-- What is published or promoted. -/
structure MemoryItem where
  /-- The hash of the key. -/
  hash : BitVec 64
  /-- The key. -/
  key : List UInt8
  /-- The value. -/
  value : List UInt8
  /-- The sequence number. -/
  seqno : BitVec 64
  deriving DecidableEq, Repr

/-- The hash that the policy keeps of an entry. -/
def policyHash (st : ShardState) (index : ℕ) : BitVec 64 :=
  (policySlot st.shard.policySlots index).hash

/-- The representation invariant between operations: nothing is detached or held. -/
def ShardRepr (st : ShardState) : Prop := MemoryInv st (policyHash st) [] []

/-- The shard is consistent: free slots are on the free list, entries are in the chain of their
fingerprint and in the policy, and nowhere else, chains are bounded, keys do not repeat, and bytes
are counted. -/
structure ShardConsistent (st : ShardState) : Prop where
  /-- The free list has exactly the slots without an entry. -/
  free : ∃ free, FreeList st.shard free
  /-- Every entry is in the chain of its fingerprint and in no other. -/
  chains : ∃ chains, Chains st.shard (policyHash st) chains
  /-- The policy has every entry once. -/
  residents : ∃ l, Residents st.shard (policyHash st) [] l
  /-- Entries differ by hash or key. -/
  distinct : ∀ i j e e', st.shard.entry i = some e → st.shard.entry j = some e' →
    policyHash st i = policyHash st j →
    (st.heap.inner e.value).key = (st.heap.inner e'.value).key → i = j
  /-- The charged bytes. -/
  bytes : st.shard.residentBytes =
    (st.shard.values.map fun id => (st.heap.inner id).chargedBytes).sum

/-- The item is resident. -/
def Resident (st : ShardState) (x : MemoryItem) : Prop :=
  ∃ i, ResidentAt st (policyHash st) i x.hash x.key x.value x.seqno

section Repr

variable {st st' : ShardState} {hashOf : ℕ → BitVec 64}

/-- The hashes of entries are those that the policy keeps. -/
lemma MemoryInv.policyHash_eq {held : List ℕ} (h : MemoryInv st hashOf [] held) {i : ℕ}
    {e : MemoryEntry} (he : st.shard.entry i = some e) : policyHash st i = hashOf i := by
  obtain ⟨l, hres⟩ := h.residents
  exact hres.hash i ((hres.mem_iff i).2 ⟨by simp [he], List.not_mem_nil⟩)

/-- The invariant with any hashes is the invariant with those that the policy keeps. -/
lemma MemoryInv.repr (h : MemoryInv st hashOf [] []) : ShardRepr st := by
  have heq : ∀ i, (st.shard.entry i).isSome → policyHash st i = hashOf i := by
    intro i hi
    obtain ⟨e, he⟩ := Option.isSome_iff_exists.1 hi
    exact h.policyHash_eq he
  obtain ⟨chains, hchains⟩ := h.chains
  obtain ⟨l, hres⟩ := h.residents
  refine ⟨h.length, h.small, h.free, ⟨chains, hchains.directory, hchains.heads, hchains.chain,
    fun f i => ?_, hchains.bounded⟩, ⟨l, hres.holds, hres.mem_iff, fun i _ => rfl⟩,
    ⟨h.values.counted, h.values.nodup, h.values.contents, h.values.small,
      fun i j e e' he he' hh hk => ?_, h.values.bytes⟩⟩
  · rw [hchains.mem_iff]
    exact and_congr_right fun hi => by rw [heq i hi]
  · rw [heq i (by simp [he]), heq j (by simp [he'])] at hh
    exact h.values.distinct i j e e' he he' hh hk

/-- A shard that satisfies its invariant is consistent. -/
lemma ShardRepr.consistent (h : ShardRepr st) : ShardConsistent st :=
  ⟨h.free, h.chains, h.residents, h.values.distinct, h.values.bytes⟩

/-- An entry is resident with the hash that the policy keeps. -/
lemma MemoryInv.residentAt_iff {held : List ℕ} (h : MemoryInv st hashOf [] held) {i : ℕ}
    {hash : BitVec 64} {key value : List UInt8} {seqno : BitVec 64} :
    ResidentAt st (policyHash st) i hash key value seqno ↔
      ResidentAt st hashOf i hash key value seqno := by
  constructor
  · rintro ⟨e, he, hh, hc⟩
    exact ⟨e, he, (h.policyHash_eq he).symm.trans hh, hc⟩
  · rintro ⟨e, he, hh, hc⟩
    exact ⟨e, he, (h.policyHash_eq he).trans hh, hc⟩

/-- A hash and a key have one item. -/
lemma ShardRepr.unique (h : ShardRepr st) {x y : MemoryItem} (hx : Resident st x)
    (hy : Resident st y) (hhash : x.hash = y.hash) (hkey : x.key = y.key) : x = y := by
  obtain ⟨i, hi⟩ := hx
  obtain ⟨j, hj⟩ := hy
  obtain ⟨e, he, hh, hc⟩ := id hi
  obtain ⟨e', he', hh', hc'⟩ := id hj
  obtain rfl : i = j := h.values.distinct i j e e' he he'
    (hh.trans (hhash.trans hh'.symm)) (hc.reads.1.trans (hkey.trans hc'.reads.1.symm))
  obtain ⟨-, -, hvalue, hseqno⟩ := hi.unique hj
  cases x
  cases y
  simp_all

/-- What a search finds is resident, with the contents of its entry. -/
lemma ShardRepr.find_some (h : ShardRepr st) {hash : BitVec 64} {key : List UInt8} {i : ℕ}
    (hfind : st.shard.find st.heap hash key = some i) :
    ∃ e x, st.shard.entry i = some e ∧ Resident st x ∧ x.hash = hash ∧ x.key = key ∧
      st.heap.Contains e.value x.key x.value x.seqno ∧
      ShardM.residentSeqno st i = some x.seqno := by
  obtain ⟨e, he, hh, hk⟩ := h.find_eq_some_iff.1 hfind
  obtain ⟨key', value, seqno, hc⟩ := h.values.contents i e he
  obtain ⟨hkey, -, hseqno, -⟩ := hc.reads
  obtain rfl : key' = key := hkey.symm.trans hk
  refine ⟨e, ⟨hash, key', value, seqno⟩, he, ⟨i, e, he, hh, hc⟩, rfl, rfl, hc, ?_⟩
  rw [ShardM.residentSeqno, he, Option.map_some, hseqno]

/-- What a search does not find is not resident. -/
lemma ShardRepr.find_none (h : ShardRepr st) {hash : BitVec 64} {key : List UInt8}
    (hfind : st.shard.find st.heap hash key = none) {x : MemoryItem} (hx : Resident st x) :
    ¬ (x.hash = hash ∧ x.key = key) := by
  rintro ⟨rfl, rfl⟩
  obtain ⟨i, e, he, hh, hc⟩ := hx
  exact h.find_eq_none hfind he hh hc.reads.1

/-- What an operation that may write one item does to the entries: the invariant holds, and entries
were there before or are the item, which is newer than what its key had. -/
structure Outcome (st st' : ShardState) (written : Option MemoryItem) : Prop where
  /-- The invariant. -/
  repr : ShardRepr st'
  /-- The entries. -/
  items : ∀ x, Resident st' x → Resident st x ∨ (written = some x ∧
    ∀ y, Resident st y → y.hash = x.hash → y.key = x.key → y.seqno < x.seqno)

/-- Nothing happens. -/
lemma Outcome.refl (h : ShardRepr st) (written : Option MemoryItem) : Outcome st st written :=
  ⟨h, fun _ hx => .inl hx⟩

/-- Entries are only removed. -/
lemma Outcome.of_evolves {hashOf hashOf' : ℕ → BitVec 64} (h : MemoryInv st hashOf [] [])
    (h' : MemoryInv st' hashOf' [] []) (he : Evolves st st' hashOf hashOf' none)
    (written : Option MemoryItem) : Outcome st st' written := by
  refine ⟨h'.repr, fun x ⟨i, hi⟩ => .inl ⟨i, ?_⟩⟩
  exact h.residentAt_iff.2 (he i _ _ _ _ (by simp) (h'.residentAt_iff.1 hi))

end Repr

/-! ## Operations on a locked shard -/

namespace ShardM

variable {st : ShardState}

/-- An entry is inserted in the place of an older one, or not at all. -/
lemma insert_outcome (h : ShardRepr st) {x : MemoryItem} {chargedBytes : ℕ}
    (hcharged : chargedBytes = memoryEntryOverheadBytes + x.key.length + x.value.length)
    (hbound : chargedBytes ≤ maxL1EntryBytes)
    (holder : ∀ y, Resident st y → y.hash = x.hash → y.key = x.key → y.seqno < x.seqno) :
    Ends (insert x.hash x.key x.value x.seqno chargedBytes (st.shard.find st.heap x.hash x.key)) st
      (fun result st' => Outcome st st' (some x) ∧ ∀ i, result.slot = some i →
        ResidentAt st' (policyHash st') i x.hash x.key x.value x.seqno)
      (fun _ st' => Outcome st st' (some x)) := by
  refine (insert_spec h hcharged hbound x.seqno).mono ?_ ?_
  · rintro result st' ⟨hashOf', hinv, hevolves, hnew⟩
    refine ⟨⟨hinv.repr, ?_⟩, fun i hi => hinv.residentAt_iff.2 (hnew i hi)⟩
    rintro y ⟨i, hi⟩
    have hi' := hinv.residentAt_iff.1 hi
    by_cases hslot : result.slot = some i
    · obtain ⟨hhash, hkey, hvalue, hseqno⟩ := (hnew i hslot).unique hi'
      obtain rfl : x = y := by
        cases x
        cases y
        simp_all
      exact .inr ⟨rfl, holder⟩
    · exact .inl ⟨i, hevolves i _ _ _ _ hslot hi'⟩
  · rintro panic st' ⟨-, hashOf', hinv, hevolves, -⟩
    exact Outcome.of_evolves h hinv hevolves _

/-- An entry is removed, and the others stay. -/
lemma removeSlot_outcome (h : ShardRepr st) {i : ℕ} {e : MemoryEntry}
    (he : st.shard.entry i = some e) (written : Option MemoryItem) :
    ∃ st', removeSlot i st = .ok () st' ∧ Outcome st st' written ∧
      ∀ j (x : MemoryItem), ResidentAt st' (policyHash st') j x.hash x.key x.value x.seqno ↔
        j ≠ i ∧ ResidentAt st (policyHash st) j x.hash x.key x.value x.seqno := by
  obtain ⟨st', hrun, hinv, hremoves⟩ := removeSlot_spec h he
  refine ⟨st', hrun, Outcome.of_evolves h hinv hremoves.evolves written, fun j x => ?_⟩
  rw [hinv.residentAt_iff]
  constructor
  · intro hx
    refine ⟨?_, hremoves.evolves j _ _ _ _ (by simp) hx⟩
    obtain ⟨e', he', -⟩ := hx
    simpa using (hremoves.entry he').1
  · rintro ⟨hne, e', he', hh, hc⟩
    obtain ⟨e'', he'', hvalue⟩ := hremoves.remains he' (by simpa using hne)
    refine ⟨e'', he'', hh, ?_⟩
    rw [hvalue]
    exact hremoves.frame.contents.contains hc

/-- **Publication.** After a success the entry of the key is at least as new as the item. -/
theorem publish_spec (h : ShardRepr st) {x : MemoryItem} {chargedBytes : ℕ}
    (hcharged : chargedBytes = memoryEntryOverheadBytes + x.key.length + x.value.length) :
    Ends (publish x.hash x.key x.value x.seqno chargedBytes) st
      (fun published st' => Outcome st st' (some x) ∧ (published = true →
        ∃ y, Resident st' y ∧ y.hash = x.hash ∧ y.key = x.key ∧ x.seqno ≤ y.seqno))
      (fun _ st' => Outcome st st' (some x)) := by
  unfold publish
  refine Ends.bind_ok (get_apply st) ?_
  simp only
  cases hfind : st.shard.find st.heap x.hash x.key with
  | none =>
    simp only [Option.bind_none, Option.any_none, Bool.false_eq_true, if_false]
    split_ifs with hlarge
    · exact Ends.pure ⟨.refl h _, fun hp => by cases hp⟩
    · have hinsert := insert_outcome h hcharged (Nat.le_of_not_lt hlarge)
        fun y hy hhash hkey => (h.find_none hfind hy ⟨hhash, hkey⟩).elim
      rw [hfind] at hinsert
      refine hinsert.bind fun result st' hresult => Ends.pure ⟨hresult.1, fun hp => ?_⟩
      obtain ⟨i, hi⟩ := Option.isSome_iff_exists.1 hp
      exact ⟨x, ⟨i, hresult.2 i hi⟩, rfl, rfl, BitVec.le_refl _⟩
  | some i =>
    obtain ⟨e, y, he, hy, hhash, hkey, -, hseqno⟩ := h.find_some hfind
    simp only [Option.bind_some, hseqno, Option.any_some, decide_eq_true_eq]
    split_ifs with hnewer hlarge
    · exact Ends.pure ⟨.refl h _, fun _ => ⟨y, hy, hhash, hkey, hnewer⟩⟩
    · obtain ⟨st', hrun, houtcome, -⟩ := removeSlot_outcome h he (some x)
      refine Ends.bind_ok (show removeExisting (some i) st = _ from hrun) (Ends.pure ⟨houtcome, ?_⟩)
      exact fun hp => by cases hp
    · have holder : ∀ z, Resident st z → z.hash = x.hash → z.key = x.key → z.seqno < x.seqno := by
        intro z hz hzhash hzkey
        obtain rfl := h.unique hz hy (hzhash.trans hhash.symm) (hzkey.trans hkey.symm)
        exact BitVec.not_le.1 hnewer
      have hinsert := insert_outcome h hcharged (Nat.le_of_not_lt hlarge) holder
      rw [hfind] at hinsert
      refine hinsert.bind fun result st' hresult => Ends.pure ⟨hresult.1, fun hp => ?_⟩
      obtain ⟨j, hj⟩ := Option.isSome_iff_exists.1 hp
      exact ⟨x, ⟨j, hresult.2 j hj⟩, rfl, rfl, BitVec.le_refl _⟩

/-- **Deletion.** What remains of the key is newer, and newer entries remain. -/
theorem delete_spec (h : ShardRepr st) (hash : BitVec 64) (key : List UInt8) (seqno : BitVec 64) :
    ∃ st', delete hash key seqno st = .ok true st' ∧ Outcome st st' none ∧
      (∀ x, Resident st' x → x.hash = hash → x.key = key → seqno < x.seqno) ∧
      ∀ x, Resident st x → (x.hash = hash → x.key = key → seqno < x.seqno) → Resident st' x := by
  unfold delete
  rw [bind_ok (get_apply st)]
  cases hfind : st.shard.find st.heap hash key with
  | none =>
    refine ⟨st, rfl, .refl h _, fun x hx hhash hkey => ?_, fun x hx _ => hx⟩
    exact (h.find_none hfind hx ⟨hhash, hkey⟩).elim
  | some i =>
    obtain ⟨e, y, he, hy, hhash, hkey, hc, hseqno⟩ := h.find_some hfind
    simp only [hseqno, Option.any_some, decide_eq_true_eq]
    split_ifs with hnewer
    · refine ⟨st, rfl, .refl h _, fun x hx hxhash hxkey => ?_, fun x hx _ => hx⟩
      rwa [h.unique hx hy (hxhash.trans hhash.symm) (hxkey.trans hkey.symm)]
    · obtain ⟨st', hrun, houtcome, hkept⟩ := removeSlot_outcome h he none
      obtain ⟨e', he', hh', hk'⟩ := h.find_eq_some_iff.1 hfind
      refine ⟨st', by rw [bind_ok hrun]; rfl, houtcome, ?_, ?_⟩
      · -- the entry that was removed was the only one of the key
        rintro x ⟨j, hj⟩ hxhash hxkey
        obtain ⟨hne, e₀, he₀, hh₀, hc₀⟩ := (hkept j x).1 hj
        exact absurd (h.values.distinct j i e₀ e' he₀ he' (hh₀.trans (hxhash.trans hh'.symm))
          (hc₀.reads.1.trans (hxkey.trans hk'.symm))) hne
      · rintro x ⟨j, hj⟩ holder
        refine ⟨j, (hkept j x).2 ⟨?_, hj⟩⟩
        rintro rfl
        obtain ⟨k, hk⟩ := hy
        obtain ⟨e₀, he₀, hh₀, hc₀⟩ := id hj
        have hxy : x = y := by
          refine h.unique ⟨j, hj⟩ ⟨k, hk⟩ ?_ ?_
          · rw [hhash, ← hh', ← hh₀]
          · obtain rfl : e₀ = e' := Option.some.inj (he₀.symm.trans he')
            rw [hkey, ← hk', hc₀.reads.1]
        rw [hxy] at holder
        exact hnewer (holder hhash hkey)

/-- A reference to the value of an entry. -/
lemma cloneEntry_eq {i : ℕ} {e : MemoryEntry} (he : st.shard.entry i = some e) :
    cloneEntry i st = .ok e.value { st with heap := st.heap.retain e.value } := by
  rw [cloneEntry, bind_ok (expectEntry_eq he), bind_ok (modifyHeap_apply _ _)]
  rfl

/-- A reference that goes to a caller does not matter to the shard. -/
lemma retain_inv {hashOf : ℕ → BitVec 64} {i : ℕ} {e : MemoryEntry}
    (h : MemoryInv st hashOf [] []) (he : st.shard.entry i = some e) :
    MemoryInv { st with heap := st.heap.retain e.value } hashOf [] [] := by
  have hvalue : e.value ∈ st.shard.values ++ [] :=
    List.mem_append_left _ (mem_values.2 ⟨i, e, he, rfl⟩)
  exact ⟨h.length, h.small, h.free, h.chains, h.residents, h.values.congr rfl rfl
    (fun _ => ⟨rfl, rfl⟩) (h.values.counted.retain hvalue) h.values.nodup⟩

/-- A hit changes marks of the policy, and a reference goes to the caller. -/
lemma hit_spec (h : ShardRepr st) {i : ℕ} {e : MemoryEntry} (he : st.shard.entry i = some e) :
    ∃ st', (recordHit i >>= fun _ => cloneEntry i) st = .ok e.value st' ∧ ShardRepr st' ∧
      st'.heap.inner = st.heap.inner ∧ ∀ x, Resident st' x ↔ Resident st x := by
  obtain ⟨l, hres⟩ := h.residents
  have hmem : i ∈ l := (hres.mem_iff i).2 ⟨by simp [he], List.not_mem_nil⟩
  obtain ⟨hholds, hkept⟩ := hres.holds.recordHit hmem
  have h₁ := h.withKept hres hholds hkept
  have h₂ := retain_inv h₁ he
  refine ⟨_, ?_, h₂.repr, rfl, fun x => ⟨?_, ?_⟩⟩
  · rw [recordHit, bind_ok (modifyShard_apply _ _)]
    exact cloneEntry_eq he
  · rintro ⟨j, hj⟩
    obtain ⟨e', he', hh, hc⟩ := h₂.residentAt_iff.1 hj
    exact ⟨j, e', he', hh, hc.bytes, hc.keyLength⟩
  · rintro ⟨j, e', he', hh, hc⟩
    exact ⟨j, h₂.residentAt_iff.2 ⟨e', he', hh, hc.bytes, hc.keyLength⟩⟩

/-- **Lookup.** It returns the value of the key's entry, if there is one. -/
theorem lookup_spec (h : ShardRepr st) (hash : BitVec 64) (key : List UInt8) :
    ∃ found st', lookup hash key st = .ok found st' ∧ Outcome st st' none ∧
      ∀ id, found = some id → ∃ x, Resident st x ∧ x.hash = hash ∧ x.key = key ∧
        st'.heap.Contains id x.key x.value x.seqno := by
  unfold lookup
  rw [bind_ok (get_apply st)]
  cases hfind : st.shard.find st.heap hash key with
  | none => exact ⟨none, st, rfl, .refl h _, fun id hid => by cases hid⟩
  | some i =>
    obtain ⟨e, x, he, hx, hhash, hkey, hc, -⟩ := h.find_some hfind
    obtain ⟨st', hrun, hrepr, hinner, hitems⟩ := hit_spec h he
    refine ⟨some e.value, st', ?_, ⟨hrepr, fun y hy => .inl ((hitems y).1 hy)⟩, ?_⟩
    · obtain ⟨u, st₁, hhit, hclone⟩ := bind_eq_ok.1 hrun
      simp only
      rw [bind_ok hhit, bind_ok hclone]
      rfl
    · rintro id hid
      obtain rfl := Option.some.inj hid
      exact ⟨x, hx, hhash, hkey, by rw [hinner]; exact hc.bytes, by rw [hinner]; exact hc.keyLength⟩

/-- The end of a promotion: the item is inserted, and its value cloned if there was room. -/
def insertAndClone (x : MemoryItem) (chargedBytes : ℕ) (existing : Option ℕ) :
    ShardM (Option ℕ) := do
  let result ← insert x.hash x.key x.value x.seqno chargedBytes existing
  match result.slot with
  | none => pure none
  | some index =>
    let id ← cloneEntry index
    pure (some id)

/-- What a promotion of an item promises when it returns a value or none. -/
def Promoted (st : ShardState) (x : MemoryItem) (promoted : Option ℕ) (st' : ShardState) : Prop :=
  Outcome st st' (some x) ∧
    (∀ y, Resident st y → y.hash = x.hash → y.key = x.key → x.seqno ≤ y.seqno → Resident st' y) ∧
    ∀ id, promoted = some id → ∃ y, Resident st' y ∧ y.hash = x.hash ∧ y.key = x.key ∧
      x.seqno ≤ y.seqno ∧ st'.heap.Contains id y.key y.value y.seqno

/-- What a promotion of an item promises when it fails. -/
def Unpromoted (st : ShardState) (x : MemoryItem) (st' : ShardState) : Prop :=
  Outcome st st' (some x) ∧
    ∀ y, Resident st y → y.hash = x.hash → y.key = x.key → x.seqno ≤ y.seqno → Resident st' y

/-- The end of a promotion, when the entry of the key is older or absent. -/
lemma insertAndClone_spec (h : ShardRepr st) {x : MemoryItem} {chargedBytes : ℕ}
    (hcharged : chargedBytes = memoryEntryOverheadBytes + x.key.length + x.value.length)
    (hbound : chargedBytes ≤ maxL1EntryBytes)
    (holder : ∀ y, Resident st y → y.hash = x.hash → y.key = x.key → y.seqno < x.seqno) :
    Ends (insertAndClone x chargedBytes (st.shard.find st.heap x.hash x.key)) st
      (Promoted st x) fun _ => Unpromoted st x := by
  have hkeeps : ∀ st', ∀ y, Resident st y → y.hash = x.hash → y.key = x.key →
      x.seqno ≤ y.seqno → Resident st' y := fun st' y hy hhash hkey hle =>
    absurd hle (BitVec.not_le.2 (holder y hy hhash hkey))
  refine ((insert_outcome h hcharged hbound holder).mono (fun _ _ hq => hq) fun _ st' he =>
    ⟨he, hkeeps st'⟩).bind fun result st' hresult => ?_
  obtain ⟨houtcome, hslot⟩ := hresult
  cases hr : result.slot with
  | none => exact Ends.pure ⟨houtcome, hkeeps st', fun id hid => by cases hid⟩
  | some i =>
    obtain ⟨e, he, hh, hc⟩ := hslot i hr
    have h' : ShardRepr { st' with heap := st'.heap.retain e.value } :=
      retain_inv houtcome.repr he
    refine Ends.bind_ok (cloneEntry_eq he) (Ends.pure ⟨⟨h', ?_⟩, hkeeps _, ?_⟩)
    · rintro y ⟨j, e', he', hh', hc'⟩
      exact houtcome.items y ⟨j, e', he', hh', hc'.bytes, hc'.keyLength⟩
    · rintro id hid
      obtain rfl := Option.some.inj hid
      exact ⟨x, ⟨i, e, he, hh, hc.bytes, hc.keyLength⟩, rfl, rfl, BitVec.le_refl _, hc.bytes,
        hc.keyLength⟩

/-- **Promotion.** It returns a value that is at least as new as the item, and an entry that is at
least as new stays. -/
theorem promote_spec (h : ShardRepr st) {x : MemoryItem} {chargedBytes : ℕ}
    (hcharged : chargedBytes = memoryEntryOverheadBytes + x.key.length + x.value.length)
    (hbound : chargedBytes ≤ maxL1EntryBytes) :
    Ends (promote x.hash x.key x.value x.seqno chargedBytes) st
      (fun promoted st' => Outcome st st' (some x) ∧
        (∀ y, Resident st y → y.hash = x.hash → y.key = x.key → x.seqno ≤ y.seqno →
          Resident st' y) ∧
        ∀ id, promoted = some id → ∃ y, Resident st' y ∧ y.hash = x.hash ∧ y.key = x.key ∧
          x.seqno ≤ y.seqno ∧ st'.heap.Contains id y.key y.value y.seqno)
      (fun _ st' => Outcome st st' (some x) ∧
        ∀ y, Resident st y → y.hash = x.hash → y.key = x.key → x.seqno ≤ y.seqno →
          Resident st' y) := by
  unfold promote
  refine Ends.bind_ok (get_apply st) ?_
  simp only
  cases hfind : st.shard.find st.heap x.hash x.key with
  | none =>
    simp only [Option.filter_none]
    have hins := insertAndClone_spec h hcharged hbound fun y hy hhash hkey =>
      (h.find_none hfind hy ⟨hhash, hkey⟩).elim
    rw [hfind] at hins
    exact hins
  | some i =>
    obtain ⟨e, y, he, hy, hhash, hkey, hc, hseqno⟩ := h.find_some hfind
    by_cases hnewer : x.seqno ≤ y.seqno
    · obtain ⟨st', hrun, hrepr, hinner, hitems⟩ := hit_spec h he
      obtain ⟨u, st₁, hhit, hclone⟩ := bind_eq_ok.1 hrun
      rw [Option.filter_some, if_pos (by simpa [hseqno] using hnewer)]
      refine Ends.bind_ok hhit (Ends.bind_ok hclone (Ends.pure ⟨⟨hrepr, fun z hz =>
        .inl ((hitems z).1 hz)⟩, fun z hz _ _ _ => (hitems z).2 hz, ?_⟩))
      rintro id hid
      obtain rfl := Option.some.inj hid
      exact ⟨y, (hitems y).2 hy, hhash, hkey, hnewer, by rw [hinner]; exact hc.bytes, by
        rw [hinner]; exact hc.keyLength⟩
    · rw [Option.filter_some, if_neg (by simpa [hseqno] using hnewer)]
      have hins := insertAndClone_spec h hcharged hbound fun z hz hzhash hzkey => by
        rw [h.unique hz hy (hzhash.trans hhash.symm) (hzkey.trans hkey.symm)]
        exact BitVec.not_le.1 hnewer
      rw [hfind] at hins
      exact hins

end ShardM

/-! ## New shards -/

section New

variable {n : ℕ}

/-- The policy slots of a new shard. -/
lemma policySlot_new (capacityBytes : ℕ) (policy : L1EvictionPolicy) {i : ℕ} (hi : i < n) :
    freeNextOf (MemoryShard.new capacityBytes n policy).policySlots i =
      if i + 1 = n then noSlotIndex else i + 1 := by
  simp [freeNextOf, policySlot, MemoryShard.new, List.getD_eq_getElem?_getD, hi,
    PolicySlot.freeNext, PolicySlot.newFree]

lemma entry_new (capacityBytes : ℕ) (policy : L1EvictionPolicy) (i : ℕ) :
    (MemoryShard.new capacityBytes n policy).entry i = none := by
  simp only [MemoryShard.entry, MemoryShard.new, List.getD_eq_getElem?_getD,
    List.getElem?_replicate]
  split <;> rfl

/-- The free list of a new shard has all slots, in their order. -/
lemma freeList_new (capacityBytes : ℕ) (policy : L1EvictionPolicy) (hn : n ≤ deletedValue) :
    FreeList (MemoryShard.new capacityBytes n policy) (List.range n) := by
  have hnil : n ≤ noSlotIndex := by
    unfold deletedValue at hn
    unfold noSlotIndex noPolicySlot
    omega
  refine ⟨Linked.Chain.range hnil fun i hi => policySlot_new capacityBytes policy hi,
    fun i => ?_, ?_⟩
  · rw [List.mem_range, entry_new]
    simp [MemoryShard.new]
  · simp [MemoryShard.new]

/-- **A new shard** satisfies its invariant. -/
theorem shardRepr_new (capacityBytes : ℕ) (policy : L1EvictionPolicy) (hn : n ≤ deletedValue) :
    ShardRepr ⟨.new capacityBytes n policy, .new capacityBytes⟩ := by
  have hentry : ∀ {i e}, (MemoryShard.new capacityBytes n policy).entry i ≠ some e := by
    intro i e he
    rw [entry_new] at he
    cases he
  obtain ⟨hvalid, hmaps⟩ := FixedPrehashedMap.valid_tryNew n
  have hvalues : (MemoryShard.new capacityBytes n policy).values = [] := by
    rw [List.eq_nil_iff_forall_not_mem]
    intro id hid
    obtain ⟨i, e, he, -⟩ := mem_values.1 hid
    exact hentry he
  refine ⟨by simp [MemoryShard.new], by simpa [MemoryShard.new] using hn,
    ⟨_, freeList_new capacityBytes policy hn⟩, ⟨fun _ => [], hvalid, fun f v => ?_,
      fun _ => Linked.Chain.empty, fun f i => ?_, fun _ => Nat.zero_le _⟩,
    ⟨[], ?_, fun i => ?_, ?_⟩,
    ⟨⟨fun id => ?_, fun _ _ => rfl⟩, ?_, fun i e he => (hentry he).elim, fun i e he =>
      (hentry he).elim, fun i j e e' he => (hentry he).elim, ?_⟩⟩
  · exact iff_of_false (hmaps f v) (by simp)
  · simp [entry_new]
  · have := EvictionState.holds_new policy capacityBytes
      (MemoryShard.new capacityBytes n policy).policySlots
    simpa [MemoryShard.new] using this
  · simp [entry_new]
  · intro i hi
    cases hi
  · rw [hvalues]
    rfl
  · rw [hvalues]
    exact List.nodup_nil
  · rw [hvalues]
    rfl

end New

/-! ## Runs -/

namespace MemoryStore

variable {m : MemoryStore}

/-- The item is resident in the shard of its hash. -/
def Resident (m : MemoryStore) (x : MemoryItem) : Prop :=
  ∃ lock, m.shards[m.route x.hash]? = some lock ∧ Cache2.Resident lock.state x

/-- The invariant of a store. -/
structure Inv (m : MemoryStore) : Prop where
  /-- Every shard satisfies its invariant. -/
  repr : ∀ (i : ℕ) (lock : MemoryShardLock), m.shards[i]? = some lock → ShardRepr lock.state
  /-- A store without capacity has no slots. -/
  empty : m.entryCapacity = 0 → ∀ (i : ℕ) (lock : MemoryShardLock), m.shards[i]? = some lock →
    lock.state.shard.slots = []

/-- What a request that may write one item does to a store. -/
structure StoreOutcome (m m' : MemoryStore) (written : Option MemoryItem) : Prop where
  /-- The invariant. -/
  inv : m'.Inv
  /-- There are as many shards. -/
  length : m'.shards.length = m.shards.length
  /-- The items. -/
  items : ∀ x, m'.Resident x → m.Resident x ∨ (written = some x ∧
    ∀ y, m.Resident y → y.hash = x.hash → y.key = x.key → y.seqno < x.seqno)

lemma StoreOutcome.refl (h : m.Inv) (written : Option MemoryItem) : StoreOutcome m m written :=
  ⟨h, rfl, fun _ hx => .inl hx⟩

/-- A hash and a key have one item. -/
lemma Inv.unique (h : m.Inv) {x y : MemoryItem} (hx : m.Resident x) (hy : m.Resident y)
    (hhash : x.hash = y.hash) (hkey : x.key = y.key) : x = y := by
  obtain ⟨lock, hlock, hx⟩ := hx
  obtain ⟨lock', hlock', hy⟩ := hy
  rw [hhash, hlock'] at hlock
  obtain rfl := Option.some.inj hlock
  exact (h.repr _ _ hlock').unique hx hy hhash hkey

/-- Callers that clone and drop values do not change the items. -/
lemma resident_undisturbed {st : ShardState} {heap : MemoryHeap}
    (hu : st.heap.Undisturbed heap) (x : MemoryItem) :
    Cache2.Resident { st with heap } x ↔ Cache2.Resident st x := by
  constructor
  · rintro ⟨i, e, he, hh, hc⟩
    exact ⟨i, e, he, hh, (hu.contents e.value).1.symm.trans hc.bytes,
      (hu.contents e.value).2.symm.trans hc.keyLength⟩
  · rintro ⟨i, e, he, hh, hc⟩
    exact ⟨i, e, he, hh, hu.contents.contains hc⟩

/-- The shard that changed, and the others. -/
lemma getElem?_setShard {shardId : ℕ} {lock : MemoryShardLock}
    (hlock : m.shards[shardId]? = some lock) (new : MemoryShardLock) (j : ℕ) :
    (m.shards.set shardId new)[j]? = if j = shardId then some new else m.shards[j]? := by
  obtain ⟨hlt, -⟩ := List.getElem?_eq_some_iff.1 hlock
  by_cases hj : j = shardId
  · subst hj
    rw [if_pos rfl, List.getElem?_set_self hlt]
  · rw [if_neg hj, List.getElem?_set_ne (Ne.symm hj)]

/-- Requests go to the same shards when one shard changes. -/
lemma route_setShard (shardId : ℕ) (new : MemoryShardLock) (hash : BitVec 64) :
    route { m with shards := m.shards.set shardId new } hash = m.route hash := by
  simp [route]

/-- The items of the shard that changed. -/
lemma resident_setShard {shardId : ℕ} {lock : MemoryShardLock}
    (hlock : m.shards[shardId]? = some lock) (new : MemoryShardLock) {x : MemoryItem}
    (hroute : m.route x.hash = shardId) :
    Resident { m with shards := m.shards.set shardId new } x ↔ Cache2.Resident new.state x := by
  unfold Resident
  rw [route_setShard, getElem?_setShard hlock, if_pos hroute]
  constructor
  · rintro ⟨other, hother, hx⟩
    obtain rfl := Option.some.inj hother
    exact hx
  · exact fun hx => ⟨new, rfl, hx⟩

/-- The items of the other shards. -/
lemma resident_setShard_of_ne {shardId : ℕ} {lock : MemoryShardLock}
    (hlock : m.shards[shardId]? = some lock) (new : MemoryShardLock) {x : MemoryItem}
    (hroute : m.route x.hash ≠ shardId) :
    Resident { m with shards := m.shards.set shardId new } x ↔ m.Resident x := by
  unfold Resident
  rw [route_setShard, getElem?_setShard hlock, if_neg hroute]

/-- The items of a shard. -/
lemma resident_iff {shardId : ℕ} {lock : MemoryShardLock}
    (hlock : m.shards[shardId]? = some lock) {x : MemoryItem} (hroute : m.route x.hash = shardId) :
    m.Resident x ↔ Cache2.Resident lock.state x := by
  subst hroute
  constructor
  · rintro ⟨other, hother, hx⟩
    obtain rfl := Option.some.inj (hlock.symm.trans hother)
    exact hx
  · exact fun hx => ⟨lock, hlock, hx⟩

/-- One shard changes. -/
lemma Inv.setShard (h : m.Inv) {shardId : ℕ} {lock : MemoryShardLock}
    (hlock : m.shards[shardId]? = some lock) {state : ShardState}
    (hcapacity : m.entryCapacity = 0 → state.shard.slots = []) {poisoned : Bool}
    {written : Option MemoryItem} (houtcome : Outcome lock.state state written) :
    StoreOutcome m { m with shards := m.shards.set shardId ⟨state, poisoned⟩ } written := by
  refine ⟨⟨fun j other hj => ?_, fun hzero j other hj => ?_⟩, List.length_set, fun x hx => ?_⟩
  · rw [getElem?_setShard hlock] at hj
    split_ifs at hj with hjs
    · obtain rfl := Option.some.inj hj
      exact houtcome.repr
    · exact h.repr j other hj
  · rw [getElem?_setShard hlock] at hj
    split_ifs at hj with hjs
    · obtain rfl := Option.some.inj hj
      exact hcapacity hzero
    · exact h.empty hzero j other hj
  · by_cases hshard : m.route x.hash = shardId
    · rw [resident_setShard hlock _ hshard] at hx
      rw [resident_iff hlock hshard]
      rcases houtcome.items x hx with hx | ⟨hwritten, holder⟩
      · exact .inl hx
      · refine .inr ⟨hwritten, fun y hy hhash hkey => holder y ?_ hhash hkey⟩
        exact (resident_iff hlock (hhash ▸ hshard)).1 hy
    · exact .inl ((resident_setShard_of_ne hlock _ hshard).1 hx)

/-- An operation on a shard, by what it does on the shard: it is bypassed, or it has run. -/
lemma Inv.withShard {α : Type} (h : m.Inv) (hcapacity : m.entryCapacity ≠ 0) (shardId : ℕ)
    (access : Access) (bypassed : α) {operation : ShardM α} {written : Option MemoryItem}
    (Q : α → ShardState → ShardState → Prop) (E : ShardState → ShardState → Prop)
    (hspec : ∀ st, ShardRepr st → Ends operation st
      (fun a st' => Outcome st st' written ∧ Q a st st') fun _ st' => Outcome st st' written ∧
        E st st') :
    let result := m.withShard shardId access bypassed operation
    StoreOutcome m result.2 written ∧
      ((result.2 = m ∧ (result.1 = none ∨ result.1 = some bypassed)) ∨
        ∃ lock state state' poisoned, m.shards[shardId]? = some lock ∧
          (∀ x, Cache2.Resident state x ↔ Cache2.Resident lock.state x) ∧
          result.2 = { m with shards := m.shards.set shardId ⟨state', poisoned⟩ } ∧
          ((result.1 = none ∧ E state state') ∨ ∃ a, result.1 = some a ∧ Q a state state')) := by
  simp only [MemoryStore.withShard]
  cases hlock : m.shards[shardId]? with
  | none => exact ⟨.refl h _, .inl ⟨rfl, .inl rfl⟩⟩
  | some lock =>
    simp only
    split_ifs with hbypass
    · exact ⟨.refl h _, .inl ⟨rfl, .inr rfl⟩⟩
    have hturns := MemoryHeap.undisturbed_turns lock.state.heap access.turns
    have hitems := resident_undisturbed hturns
    have hrepr : ShardRepr
        { lock.state with heap := { lock.state.heap with turns := access.turns } } :=
      (h.repr _ _ hlock).withHeap hturns
    have hends := hspec _ hrepr
    -- the outcome for the shard with its turns is one for the shard
    have houtcome : ∀ {state}, Outcome
        { lock.state with heap := { lock.state.heap with turns := access.turns } } state written →
        Outcome lock.state state written := by
      intro state ho
      refine ⟨ho.repr, fun x hx => ?_⟩
      rcases ho.items x hx with hx | ⟨hw, holder⟩
      · exact .inl ((hitems x).1 hx)
      · exact .inr ⟨hw, fun y hy => holder y ((hitems y).2 hy)⟩
    unfold Ends at hends
    cases hrun : operation
        { lock.state with heap := { lock.state.heap with turns := access.turns } } with
    | ok a state =>
      rw [hrun] at hends
      exact ⟨h.setShard hlock (fun hzero => (hcapacity hzero).elim) (houtcome hends.1),
        .inr ⟨lock, _, state, false, rfl, hitems, rfl, .inr ⟨a, rfl, hends.2⟩⟩⟩
    | error panic state =>
      rw [hrun] at hends
      exact ⟨h.setShard hlock (fun hzero => (hcapacity hzero).elim) (houtcome hends.1),
        .inr ⟨lock, _, state, true, rfl, hitems, rfl, .inl ⟨rfl, hends.2⟩⟩⟩

/-! ## Requests -/

/-- A store without capacity has no items. -/
lemma Inv.not_resident (h : m.Inv) (hcapacity : m.entryCapacity = 0) (x : MemoryItem) :
    ¬ m.Resident x := by
  rintro ⟨lock, hlock, i, e, he, -⟩
  have hlt := entry_lt he
  rw [h.empty hcapacity _ _ hlock] at hlt
  exact Nat.not_lt_zero _ hlt

/-- The bytes that an entry is charged for. -/
lemma memoryEntryBytes_eq {key value : List UInt8} {chargedBytes : ℕ}
    (h : memoryEntryBytes key value = some chargedBytes) :
    chargedBytes = memoryEntryOverheadBytes + key.length + value.length := by
  unfold memoryEntryBytes at h
  obtain ⟨bytes, hbytes, hsum⟩ := Option.bind_eq_some_iff.1 h
  obtain ⟨-, rfl⟩ := Word.checkedAdd_eq_some.1 hbytes
  obtain ⟨-, rfl⟩ := Word.checkedAdd_eq_some.1 hsum
  rfl

/-- **Publication.** -/
theorem Inv.publish (h : m.Inv) (access : Access) (x : MemoryItem) :
    let result := m.publish access x.hash x.key x.value x.seqno
    StoreOutcome m result.2 (some x) ∧ (result.1 = some true →
      ∃ y, result.2.Resident y ∧ y.hash = x.hash ∧ y.key = x.key ∧ x.seqno ≤ y.seqno) := by
  unfold MemoryStore.publish
  by_cases hcapacity : m.entryCapacity = 0
  · rw [if_pos hcapacity]
    exact ⟨.refl h _, fun hr => by cases hr⟩
  rw [if_neg hcapacity]
  cases hbytes : memoryEntryBytes x.key x.value with
  | none => exact ⟨.refl h _, fun hr => by cases hr⟩
  | some chargedBytes =>
    obtain ⟨houtcome, hresult⟩ := h.withShard hcapacity (m.route x.hash) access false _
      (fun _ _ => True) fun st hst =>
        (ShardM.publish_spec hst (memoryEntryBytes_eq hbytes)).mono (fun _ _ hq => hq)
          fun _ _ he => ⟨he, trivial⟩
    refine ⟨houtcome, fun hr => ?_⟩
    rcases hresult with ⟨-, hnone | hfalse⟩ | ⟨lock, state, state', poisoned, hlock, -, heq, hpost⟩
    · simp [hnone] at hr
    · simp [hfalse] at hr
    · simp only [hr, reduceCtorEq, false_and, Option.some.injEq, exists_eq_left', false_or] at hpost
      obtain ⟨y, hy, hhash, hkey, hseqno⟩ := hpost trivial
      refine ⟨y, ?_, hhash, hkey, hseqno⟩
      simp only [heq]
      exact (resident_setShard hlock _ (by rw [hhash])).2 hy

/-- **Deletion.** -/
theorem Inv.delete (h : m.Inv) (access : Access) (hash : BitVec 64) (key : List UInt8)
    (seqno : BitVec 64) :
    let result := m.delete access hash key seqno
    StoreOutcome m result.2 none ∧ (result.1 = some true →
      (∀ x, result.2.Resident x → x.hash = hash → x.key = key → seqno < x.seqno) ∧
      ∀ x, m.Resident x → (x.hash = hash → x.key = key → seqno < x.seqno) →
        result.2.Resident x) := by
  unfold MemoryStore.delete
  by_cases hcapacity : m.entryCapacity = 0
  · rw [if_pos hcapacity]
    exact ⟨.refl h _, fun _ => ⟨fun x hx => (h.not_resident hcapacity x hx).elim, fun x hx _ => hx⟩⟩
  rw [if_neg hcapacity]
  obtain ⟨houtcome, hresult⟩ := h.withShard hcapacity (m.route hash) access false
    (fun _ st st' => (∀ x, Cache2.Resident st' x → x.hash = hash → x.key = key → seqno < x.seqno) ∧
      ∀ x, Cache2.Resident st x → (x.hash = hash → x.key = key → seqno < x.seqno) →
        Cache2.Resident st' x)
    (fun _ _ => True) fun st hst => by
      obtain ⟨st', hrun, hpost⟩ := ShardM.delete_spec hst hash key seqno
      exact Ends.of_ok hrun hpost
  refine ⟨houtcome, fun hr => ?_⟩
  rcases hresult with ⟨-, hnone | hfalse⟩ | ⟨lock, state, state', poisoned, hlock, hitems, heq,
    hpost⟩
  · simp [hnone] at hr
  · simp [hfalse] at hr
  · simp only [hr, reduceCtorEq, false_and, Option.some.injEq, exists_eq_left', false_or] at hpost
    simp only [heq]
    refine ⟨fun x hx hhash hkey => ?_, fun x hx hnewer => ?_⟩
    · exact hpost.1 x ((resident_setShard hlock _ (by rw [hhash])).1 hx) hhash hkey
    · by_cases hroute : m.route x.hash = m.route hash
      · rw [resident_setShard hlock _ hroute]
        exact hpost.2 x ((hitems x).2 ((resident_iff hlock hroute).1 hx)) hnewer
      · exact (resident_setShard_of_ne hlock _ hroute).2 hx

/-- A value that a request has returned reads as the item. -/
def Reads (m : MemoryStore) (id : ℕ) (x : MemoryItem) : Prop :=
  ∃ lock, m.shards[m.route x.hash]? = some lock ∧
    lock.state.heap.Contains id x.key x.value x.seqno

/-- Values of the shard that changed. -/
lemma reads_setShard {shardId : ℕ} {lock : MemoryShardLock}
    (hlock : m.shards[shardId]? = some lock) {new : MemoryShardLock} {id : ℕ} {x : MemoryItem}
    (hroute : m.route x.hash = shardId)
    (hc : new.state.heap.Contains id x.key x.value x.seqno) :
    Reads { m with shards := m.shards.set shardId new } id x := by
  refine ⟨new, ?_, hc⟩
  rw [route_setShard, getElem?_setShard hlock, if_pos hroute]

/-- **Lookup.** -/
theorem Inv.lookup (h : m.Inv) (access : Access) (hash : BitVec 64) (key : List UInt8) :
    let result := m.lookup access hash key
    StoreOutcome m result.2 none ∧ ∀ id, result.1 = some (some id) →
      ∃ x, m.Resident x ∧ x.hash = hash ∧ x.key = key ∧ result.2.Reads id x := by
  unfold MemoryStore.lookup
  by_cases hcapacity : m.entryCapacity = 0
  · rw [if_pos hcapacity]
    exact ⟨.refl h _, fun id hr => by cases hr⟩
  rw [if_neg hcapacity]
  obtain ⟨houtcome, hresult⟩ := h.withShard hcapacity (m.route hash) access none
    (fun found st st' => ∀ id, found = some id → ∃ x, Cache2.Resident st x ∧ x.hash = hash ∧
      x.key = key ∧ st'.heap.Contains id x.key x.value x.seqno)
    (fun _ _ => True) fun st hst => by
      obtain ⟨found, st', hrun, hpost⟩ := ShardM.lookup_spec hst hash key
      exact Ends.of_ok hrun hpost
  refine ⟨houtcome, fun id hr => ?_⟩
  rcases hresult with ⟨-, hnone | hmiss⟩ | ⟨lock, state, state', poisoned, hlock, hitems, heq,
    hpost⟩
  · simp [hnone] at hr
  · simp [hmiss] at hr
  · simp only [hr, reduceCtorEq, false_and, Option.some.injEq, exists_eq_left', false_or] at hpost
    obtain ⟨x, hx, hhash, hkey, hc⟩ := hpost id rfl
    refine ⟨x, (resident_iff hlock (by rw [hhash])).2 ((hitems x).1 hx), hhash, hkey, ?_⟩
    simp only [heq]
    exact reads_setShard hlock (by rw [hhash]) hc

/-- **Promotion.** -/
theorem Inv.promote (h : m.Inv) (access : Access) (token : ℕ) (x : MemoryItem) :
    let result := m.promote access token x.hash x.key x.value x.seqno
    StoreOutcome m result.2 (some x) ∧
      (∀ y, m.Resident y → y.hash = x.hash → y.key = x.key → x.seqno ≤ y.seqno →
        result.2.Resident y) ∧
      ∀ id, result.1 = some (some id) → ∃ y, result.2.Resident y ∧ y.hash = x.hash ∧
        y.key = x.key ∧ x.seqno ≤ y.seqno ∧ result.2.Reads id y := by
  unfold MemoryStore.promote
  by_cases htoken : token ≠ m.route x.hash
  · rw [if_pos htoken]
    exact ⟨.refl h _, fun y hy _ _ _ => hy, fun id hr => by cases hr⟩
  rw [if_neg htoken]
  obtain rfl := not_not.1 htoken
  by_cases hcapacity : m.entryCapacity = 0
  · rw [if_pos hcapacity]
    exact ⟨.refl h _, fun y hy _ _ _ => hy, fun id hr => by cases hr⟩
  rw [if_neg hcapacity]
  cases hbytes : memoryEntryBytes x.key x.value with
  | none => exact ⟨.refl h _, fun y hy _ _ _ => hy, fun id hr => by cases hr⟩
  | some chargedBytes =>
    by_cases hlarge : maxL1EntryBytes < chargedBytes
    · simp only [if_pos hlarge]
      exact ⟨.refl h _, fun y hy _ _ _ => hy, fun id hr => by cases hr⟩
    simp only [if_neg hlarge]
    obtain ⟨houtcome, hresult⟩ := h.withShard hcapacity (m.route x.hash) access none _ _
      fun st hst => ShardM.promote_spec hst (memoryEntryBytes_eq hbytes) (Nat.le_of_not_lt hlarge)
    refine ⟨houtcome, ?_⟩
    rcases hresult with ⟨hsame, hnone | hmiss⟩ |
      ⟨lock, state, state', poisoned, hlock, hitems, heq, hpost⟩
    · rw [hsame]
      exact ⟨fun y hy _ _ _ => hy, fun id hr => by simp [hnone] at hr⟩
    · rw [hsame]
      exact ⟨fun y hy _ _ _ => hy, fun id hr => by simp [hmiss] at hr⟩
    · simp only [heq]
      refine ⟨fun y hy hhash hkey hseqno => ?_, fun id hr => ?_⟩
      · have hroute : m.route y.hash = m.route x.hash := by rw [hhash]
        rw [resident_setShard hlock _ hroute]
        have hy' := (hitems y).2 ((resident_iff hlock hroute).1 hy)
        rcases hpost with ⟨-, hkept⟩ | ⟨promoted, -, hkept, -⟩
        · exact hkept y hy' hhash hkey hseqno
        · exact hkept y hy' hhash hkey hseqno
      · simp only [hr, reduceCtorEq, false_and, Option.some.injEq, exists_eq_left',
          false_or] at hpost
        obtain ⟨y, hy, hhash, hkey, hseqno, hc⟩ := hpost.2 id rfl
        have hroute : m.route y.hash = m.route x.hash := by rw [hhash]
        exact ⟨y, (resident_setShard hlock _ hroute).2 hy, hhash, hkey, hseqno,
          reads_setShard hlock hroute hc⟩

/-- Callers do not change the items. -/
lemma Inv.callersAct (h : m.Inv) (shardId : ℕ) (actions : List CallerAction) :
    StoreOutcome m (m.callersAct shardId actions) none := by
  unfold MemoryStore.callersAct
  cases hlock : m.shards[shardId]? with
  | none => exact .refl h _
  | some lock =>
    have hacts := MemoryHeap.undisturbed_acts actions lock.state.heap
    have houtcome : Outcome lock.state
        { lock.state with heap := actions.foldl MemoryHeap.act lock.state.heap } none :=
      ⟨(h.repr _ _ hlock).withHeap hacts, fun x hx => .inl ((resident_undisturbed hacts x).1 hx)⟩
    refine h.setShard hlock ?_ houtcome
    exact fun hzero => h.empty hzero _ _ hlock

end MemoryStore

end Cache2

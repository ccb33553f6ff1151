import Cache2.Memory.PolicySpecs
import Cache2.Memory.LastSlot

set_option relaxedAutoImplicit false
set_option autoImplicit false

/-!
# The ghost queue

S3-FIFO remembers the hashes that it evicted lately in a queue of ghost nodes, which a directory of
fingerprints finds. Linked nodes, free nodes and the directory are updated together: a node that is
linked has an entry in the directory, and two hashes with one fingerprint share it, so that the
older of the two nodes is dropped.

The directory takes the last node of the largest ghost queue for a deletion. That node is at the end
of the free list at first and stays there, so that it is only taken when all others are linked,
which needs as many bytes.

## Main definitions

* `Cache2.GhostQueue.Consistent` — linked nodes, free nodes, bytes and directory fit together.
* `Cache2.GhostQueue.Nodes`, `Cache2.GhostQueue.Indexed` — the two halves of the invariant.
* `Cache2.GhostQueue.Spare` — the last node is never taken.

## Main results

* `Cache2.ghostQueue_consistent_iff` — which ghost queues are consistent after every sequence of
  operations.
* `Cache2.lastNode_not_consistent` — the largest ghost queue is not.
-/

namespace Cache2

open Linked

/-! ## Operations -/

/-- An operation of the ghost queue. -/
inductive GhostOp
  | insert (hash : BitVec 64) (weight : ℕ)
  | take (hash : BitVec 64)
  deriving DecidableEq, Repr

namespace GhostQueue

/-- The ghost queue after an operation. -/
def apply (g : GhostQueue) : GhostOp → GhostQueue
  | .insert hash weight => g.insert hash weight
  | .take hash => (g.take hash).2

/-- The ghost queue after some operations. -/
def run (g : GhostQueue) (ops : List GhostOp) : GhostQueue := ops.foldl apply g

/-- The full hash of a node. -/
def hashOf (g : GhostQueue) (index : ℕ) : BitVec 64 := g.hashes.getD index 0

/-- The weight of a node. -/
def weightOf (g : GhostQueue) (index : ℕ) : ℕ := (s3FifoLink g.links index).weight

/-! ## Consistency -/

/-- **The ghost queue is consistent** when its nodes are the linked ones and the free ones, the
bytes are those of the linked nodes, the live entries of the directory are one for every linked
node, and lookups say so. -/
structure Consistent (g : GhostQueue) (linked free : List ℕ) : Prop where
  /-- The linked nodes, in both directions. -/
  queue : Links g.links g.head g.tail linked
  /-- The free nodes. -/
  freeList : Chain (nextOf g.links) noPolicySlot g.freeHead free
  /-- Every node is linked or free, and not both. -/
  partition : (linked ++ free).Perm (List.range g.links.length)
  /-- The number of free nodes. -/
  freeCount : g.freeCount = free.length
  /-- The bytes. -/
  bytes : g.bytes = (linked.map g.weightOf).sum
  /-- The bound on the bytes. -/
  bytes_le : g.bytes ≤ g.capacityBytes
  /-- A live entry of the directory belongs to a linked node with its fingerprint. -/
  entry : ∀ p, g.directory.LiveAt p → (g.directory.slot p).value ∈ linked ∧
    (g.directory.slot p).fingerprint = fixedMapFingerprint (g.hashOf (g.directory.slot p).value)
  /-- A linked node has one live entry. -/
  node : ∀ i ∈ linked, ∃! p, g.directory.LiveAt p ∧ (g.directory.slot p).value = i
  /-- Evicting the head finds its entry. -/
  evict : ∀ i, g.headIndex = some i → (g.directory.remove (g.hashOf i)).1 = some i
  /-- A hash is taken if a node for the full hash is linked. -/
  taken : ∀ hash, (g.take hash).1 = true ↔ ∃ i ∈ linked, g.hashOf i = hash

end GhostQueue

/-! ## Nodes -/

namespace GhostQueue

/-- The nodes are linked or free, and the bytes are counted. -/
structure Nodes (g : GhostQueue) (linked free : List ℕ) : Prop where
  /-- The linked nodes. -/
  queue : Links g.links g.head g.tail linked
  /-- The free nodes. -/
  freeList : Chain (nextOf g.links) noPolicySlot g.freeHead free
  /-- Every node is one of them. -/
  partition : (linked ++ free).Perm (List.range g.links.length)
  /-- The number of free nodes. -/
  freeCount : g.freeCount = free.length
  /-- Weights are not zero and have 32 bits. -/
  weights : ∀ i ∈ linked, 0 < g.weightOf i ∧ g.weightOf i < 2 ^ 32
  /-- The bytes. -/
  bytes : g.bytes = (linked.map g.weightOf).sum
  /-- There is a hash for every node. -/
  hashes : g.hashes.length = g.links.length
  /-- Indices have 32 bits. -/
  length_le : g.links.length ≤ noPolicySlot

section Nodes

variable {g : GhostQueue} {linked free : List ℕ} {i : ℕ}

/-- Nodes are in the array. -/
lemma Nodes.lt (h : g.Nodes linked free) (hi : i ∈ linked ++ free) : i < g.links.length :=
  List.mem_range.1 (h.partition.subset hi)

/-- No node is linked and free. -/
lemma Nodes.nodup (h : g.Nodes linked free) : (linked ++ free).Nodup :=
  h.partition.nodup_iff.2 List.nodup_range

lemma Nodes.length (h : g.Nodes linked free) :
    linked.length + free.length = g.links.length := by
  rw [← List.length_append, h.partition.length_eq, List.length_range]

/-- A sum of bounded weights. -/
lemma sum_map_le {f : ℕ → ℕ} {bound : ℕ} :
    ∀ {l : List ℕ}, (∀ i ∈ l, f i ≤ bound) → (l.map f).sum ≤ l.length * bound
  | [], _ => by simp
  | i :: l, h => by
    have ih := sum_map_le (l := l) fun j hj => h j (List.mem_cons_of_mem _ hj)
    have hi := h i List.mem_cons_self
    rw [List.map_cons, List.sum_cons, List.length_cons, Nat.succ_mul]
    omega

/-- The bytes never saturate, because there are less than `2 ^ 32` weights of 32 bits. -/
lemma Nodes.bytes_lt (h : g.Nodes linked free) {weight : ℕ} (hweight : weight < 2 ^ 32) :
    min (g.bytes + weight) (2 ^ 64 - 1) = g.bytes + weight := by
  have hsum : g.bytes ≤ linked.length * (2 ^ 32 - 1) := by
    rw [h.bytes]
    exact sum_map_le fun i hi => Nat.le_sub_one_of_lt (h.weights i hi).2
  have hlen := h.length
  have hle := h.length_le
  unfold noPolicySlot at hle
  have hmul : linked.length * (2 ^ 32 - 1) ≤ (2 ^ 32 - 1) * (2 ^ 32 - 1) :=
    Nat.mul_le_mul_right _ (by omega)
  omega

/-- Every linked node has a byte. -/
lemma Nodes.length_le_bytes (h : g.Nodes linked free) : linked.length ≤ g.bytes := by
  rw [h.bytes, ← List.length_map (f := g.weightOf)]
  exact List.length_le_sum_of_one_le _ fun w hw => by
    obtain ⟨i, hi, rfl⟩ := List.mem_map.1 hw
    exact (h.weights i hi).1

/-- Unlinking a linked node makes it the first free one. -/
lemma Nodes.unlink (h : g.Nodes linked free) (hi : i ∈ linked) :
    (g.unlink i).Nodes (linked.erase i) (i :: free) ∧
      ∀ j, j ≠ i → (g.unlink i).hashOf j = g.hashOf j := by
  have hnodup := h.nodup
  have hlt : i < g.links.length := h.lt (List.mem_append_left _ hi)
  have hnil : i ≠ noPolicySlot := (hlt.trans_le h.length_le).ne
  have hifree : i ∉ free := fun hm => (List.nodup_append.1 hnodup).2.2 i hi i hm rfl
  obtain ⟨a, b, rfl⟩ := List.append_of_mem hi
  have hnotin : i ∉ a ++ b := by
    have hq := h.queue.1.nodup
    rw [List.nodup_middle, List.nodup_cons] at hq
    exact hq.1
  have herase : (a ++ i :: b).erase i = a ++ b := by
    rw [List.erase_append_right _ fun hm => hnotin (List.mem_append_left _ hm),
      List.erase_cons_head]
  obtain ⟨hqueue, hother⟩ :=
    h.queue.unlinkNode { S3FifoLink.default with next := g.freeHead }
  have hlink : ∀ j, s3FifoLink (g.unlink i).links j =
      if j = i then { S3FifoLink.default with next := g.freeHead }
      else s3FifoLink (unlinkNode g.links i) j := fun j =>
    s3FifoLink_set (by rwa [length_unlinkNode]) _
  have hweight : ∀ j, j ≠ i → (g.unlink i).weightOf j = g.weightOf j := by
    intro j hj
    rw [weightOf, hlink, if_neg hj, s3FifoLink_unlinkNode h.queue]
    rfl
  have hlength : (g.unlink i).links.length = g.links.length := by
    simp [GhostQueue.unlink]
  rw [herase]
  refine ⟨⟨hqueue, ?_, ?_, ?_, fun j hj => ?_, ?_, ?_, ?_⟩, fun j hj => ?_⟩
  · show Chain _ _ i _
    refine h.freeList.push hifree hnil ?_ fun j hj => ?_
    · rw [nextOf, hlink, if_pos rfl]
    · rw [nextOf, nextOf]
      refine congrArg _ (hother j fun hm => ?_)
      exact (List.nodup_append.1 hnodup).2.2 j hm j hj rfl
  · rw [hlength]
    refine List.Perm.trans ?_ h.partition
    rw [List.append_assoc, List.append_assoc]
    refine List.Perm.append_left a ?_
    exact List.perm_middle
  · show g.freeCount + 1 = _
    rw [h.freeCount, List.length_cons]
  · have hji : j ≠ i := fun he => hnotin (he ▸ hj)
    rw [hweight j hji]
    refine h.weights j ?_
    simp only [List.mem_append, List.mem_cons] at hj ⊢
    tauto
  · show g.bytes - g.weightOf i = _
    have hmap : (a ++ b).map (g.unlink i).weightOf = (a ++ b).map g.weightOf :=
      List.map_congr_left fun j hj => hweight j fun he => hnotin (he ▸ hj)
    rw [hmap, h.bytes, List.map_append, List.map_cons, List.sum_append, List.sum_cons,
      List.map_append, List.sum_append]
    omega
  · rw [hlength, ← h.hashes]
    exact List.length_set
  · rw [hlength]
    exact h.length_le
  · show (g.hashes.set i 0).getD j 0 = g.hashes.getD j 0
    rw [List.getD_eq_getElem?_getD, List.getElem?_set_ne (Ne.symm hj), List.getD_eq_getElem?_getD]

/-- The ghost queue with the first free node at the end of its queue. -/
def pushBack (g : GhostQueue) (hash : BitVec 64) (weight : ℕ) : GhostQueue :=
  { g with
    freeHead := nextOf g.links g.freeHead
    freeCount := g.freeCount - 1
    hashes := g.hashes.set g.freeHead hash
    links := linkBack g.links g.tail g.freeHead weight
    head := if g.tail = noPolicySlot then g.freeHead else g.head
    tail := g.freeHead
    bytes := min (g.bytes + weight) (2 ^ 64 - 1) }

/-- A node is linked, and then the directory has its say. -/
lemma link_eq (g : GhostQueue) (hash : BitVec 64) (weight : ℕ) :
    g.link hash weight = match g.directory.insert hash g.freeHead with
      | some (some previous, directory) =>
        { g.pushBack hash weight with directory }.unlink previous
      | some (none, directory) => { g.pushBack hash weight with directory }
      | none => (g.pushBack hash weight).unlink g.freeHead := rfl

/-- The first free node becomes the last linked one. -/
lemma Nodes.pushBack (h : g.Nodes linked (i :: free)) {weight : ℕ} (hpos : 0 < weight)
    (hweight : weight < 2 ^ 32) (hash : BitVec 64) :
    g.freeHead = i ∧ (g.pushBack hash weight).Nodes (linked ++ [i]) free ∧
      (∀ j, (g.pushBack hash weight).hashOf j = if j = i then hash else g.hashOf j) ∧
      (g.pushBack hash weight).bytes = g.bytes + weight := by
  have hnodup := h.nodup
  have hlt : i < g.links.length := h.lt (by simp)
  have hnil : i ≠ noPolicySlot := (hlt.trans_le h.length_le).ne
  have hhead : g.freeHead = i := h.freeList.seg.1
  have hi : i ∉ linked := fun hm =>
    (List.nodup_append.1 hnodup).2.2 i hm i List.mem_cons_self rfl
  obtain ⟨hqueue, hother⟩ := h.queue.linkBack hi hlt hnil weight
  have hlength : (linkBack g.links g.tail i weight).length = g.links.length := length_linkBack ..
  have hweightOf : ∀ j, (g.pushBack hash weight).weightOf j =
      if j = i then weight else g.weightOf j := by
    intro j
    simp only [weightOf, GhostQueue.pushBack, hhead]
    rw [s3FifoLink_linkBack h.queue hi hlt]
    split_ifs <;> rfl
  have hbytes : (g.pushBack hash weight).bytes = g.bytes + weight := h.bytes_lt hweight
  refine ⟨hhead, ⟨?_, ?_, ?_, ?_, fun j hj => ?_, ?_, ?_, ?_⟩, fun j => ?_, hbytes⟩
  · simpa only [GhostQueue.pushBack, hhead] using hqueue
  · simp only [GhostQueue.pushBack, hhead]
    refine h.freeList.removeHead fun j hj => ?_
    rw [nextOf, nextOf, hother j]
    · exact fun hm => (List.nodup_append.1 hnodup).2.2 j hm j (List.mem_cons_of_mem _ hj) rfl
    · rintro rfl
      exact (List.nodup_cons.1 (List.nodup_append.1 hnodup).2.1).1 hj
  · simp only [GhostQueue.pushBack, hhead, hlength]
    rw [List.append_assoc, List.singleton_append]
    exact h.partition
  · show g.freeCount - 1 = _
    rw [h.freeCount, List.length_cons, Nat.add_sub_cancel]
  · rw [hweightOf]
    by_cases hji : j = i
    · rw [if_pos hji]
      exact ⟨hpos, hweight⟩
    · rw [if_neg hji]
      refine h.weights j ?_
      simpa [hji] using hj
  · rw [hbytes, h.bytes, List.map_append, List.sum_append, List.map_singleton, List.sum_singleton,
      hweightOf, if_pos rfl]
    congr 2
    refine List.map_congr_left fun j hj => ?_
    rw [hweightOf, if_neg]
    rintro rfl
    exact hi hj
  · simp [GhostQueue.pushBack, h.hashes]
  · simp only [GhostQueue.pushBack, hhead, hlength]
    exact h.length_le
  · simp only [hashOf, GhostQueue.pushBack, hhead]
    have hlt' : i < g.hashes.length := by rwa [h.hashes]
    by_cases hji : j = i
    · subst hji
      simp [List.getD_eq_getElem?_getD, hlt']
    · simp [List.getD_eq_getElem?_getD, List.getElem?_set_ne (Ne.symm hji), hji]

end Nodes

/-! ## The directory -/

/-- The directory has the linked nodes by their fingerprints. -/
structure Indexed (g : GhostQueue) (linked : List ℕ) : Prop where
  /-- The directory. -/
  valid : g.directory.Valid
  /-- What it maps. -/
  maps : ∀ f v, g.directory.Maps f v ↔ v ∈ linked ∧ fixedMapFingerprint (g.hashOf v) = f

/-- The last node stays free, if the directory would take it for a deletion. -/
def Spare (g : GhostQueue) (free : List ℕ) : Prop :=
  g.links.length ≤ deletedValue ∨
    g.capacityBytes < g.links.length ∧ ∃ t, free = t ++ [g.links.length - 1]

/-- What every operation keeps. -/
structure Invariant (g : GhostQueue) (linked free : List ℕ) : Prop where
  /-- The nodes. -/
  nodes : g.Nodes linked free
  /-- The directory. -/
  indexed : g.Indexed linked
  /-- The bound on the bytes. -/
  bytes_le : g.bytes ≤ g.capacityBytes
  /-- The last node. -/
  spare : g.Spare free

section Invariant

variable {g : GhostQueue} {linked free : List ℕ} {i : ℕ}

/-- A linked node is what the directory has for its hash. -/
lemma Indexed.get_eq_some_iff (h : g.Indexed linked) {hash : BitVec 64} :
    g.directory.get hash = some i ↔
      i ∈ linked ∧ fixedMapFingerprint (g.hashOf i) = fixedMapFingerprint hash := by
  rw [h.valid.get_eq_some_iff, h.maps]

/-- No two linked nodes have one fingerprint. -/
lemma Indexed.unique (h : g.Indexed linked) {j : ℕ} (hi : i ∈ linked) (hj : j ∈ linked)
    (heq : fixedMapFingerprint (g.hashOf i) = fixedMapFingerprint (g.hashOf j)) : i = j :=
  h.valid.maps_unique ((h.maps _ i).2 ⟨hi, heq⟩) ((h.maps _ j).2 ⟨hj, rfl⟩)

/-- A node that the directory does not have is unlinked. -/
lemma Nodes.indexed_unlink (h : g.Nodes linked free) (hi : i ∈ linked)
    (hvalid : g.directory.Valid) (hmaps : ∀ f v, g.directory.Maps f v ↔
      v ≠ i ∧ v ∈ linked ∧ fixedMapFingerprint (g.hashOf v) = f) :
    (g.unlink i).Indexed (linked.erase i) := by
  obtain ⟨-, hhash⟩ := h.unlink hi
  refine ⟨hvalid, fun f v => (hmaps f v).trans ?_⟩
  rw [(List.nodup_append.1 h.nodup).1.mem_erase_iff, and_assoc]
  refine and_congr_right fun hv => ?_
  rw [hhash v hv]

/-- Nodes do not depend on the directory. -/
lemma Nodes.withDirectory (h : g.Nodes linked free) (directory : FixedPrehashedMap) :
    ({ g with directory } : GhostQueue).Nodes linked free :=
  ⟨h.queue, h.freeList, h.partition, h.freeCount, h.weights, h.bytes, h.hashes, h.length_le⟩

/-- Removing a hash from the directory, and the node that the directory had for it. -/
lemma Indexed.remove (h : g.Indexed linked) (hnodes : g.Nodes linked free) {hash : BitVec 64}
    {removed : Option ℕ} {directory : FixedPrehashedMap}
    (hremove : g.directory.remove hash = (removed, directory)) :
    removed = g.directory.get hash ∧ ∀ i, removed = some i →
      (({ g with directory } : GhostQueue).unlink i).Indexed (linked.erase i) := by
  obtain ⟨hvalid, -, hget, hmaps, -⟩ := h.valid.remove hremove
  refine ⟨hget, fun i hi => ?_⟩
  obtain ⟨hlinked, hfp⟩ := h.get_eq_some_iff.1 (hget.symm.trans hi)
  refine (hnodes.withDirectory directory).indexed_unlink hlinked hvalid fun f v => ?_
  rw [hmaps, h.maps]
  constructor
  · rintro ⟨hne, hv, rfl⟩
    refine ⟨?_, hv, rfl⟩
    rintro rfl
    exact hne hfp
  · rintro ⟨hne, hv, rfl⟩
    exact ⟨fun heq => hne (h.unique hv hlinked (heq.trans hfp.symm)), hv, rfl⟩

/-- Unlinking a node leaves the last one where it is. -/
lemma Spare.unlink (h : g.Spare free) (i : ℕ) : (g.unlink i).Spare (i :: free) := by
  have hlength : (g.unlink i).links.length = g.links.length := by simp [GhostQueue.unlink]
  rw [Spare, hlength]
  refine h.imp_right ?_
  rintro ⟨hle, t, rfl⟩
  exact ⟨hle, i :: t, rfl⟩

/-- Unlinking a node that the directory is rid of. -/
lemma Invariant.unlink (h : g.Invariant linked free) {directory : FixedPrehashedMap}
    (hi : i ∈ linked)
    (hindexed : (({ g with directory } : GhostQueue).unlink i).Indexed (linked.erase i)) :
    (({ g with directory } : GhostQueue).unlink i).Invariant (linked.erase i) (i :: free) := by
  refine ⟨((h.nodes.withDirectory directory).unlink hi).1, hindexed, ?_, ?_⟩
  · exact (Nat.sub_le _ _).trans h.bytes_le
  · exact Spare.unlink (g := { g with directory }) h.spare i

/-- **Taking a hash** unlinks the node that the directory has for it. -/
lemma Invariant.take (h : g.Invariant linked free) (hash : BitVec 64) :
    ((g.take hash).1 = true ↔ ∃ i ∈ linked, g.hashOf i = hash) ∧
      ∃ linked' free', (g.take hash).2.Invariant linked' free' := by
  obtain ⟨removed, directory, hremove⟩ :
      ∃ removed directory, g.directory.remove hash = (removed, directory) := ⟨_, _, rfl⟩
  obtain ⟨hget, hindexed⟩ := h.indexed.remove h.nodes hremove
  -- a node for the hash is the one that the directory has
  have hfound : ∀ i ∈ linked, g.hashOf i = hash → removed = some i := by
    rintro i hi rfl
    exact hget.trans (h.indexed.get_eq_some_iff.2 ⟨hi, rfl⟩)
  cases removed with
  | none =>
    have htake : g.take hash = (false, g) := by rw [GhostQueue.take, hremove]
    rw [htake]
    refine ⟨⟨fun hfalse => (Bool.false_ne_true hfalse).elim, ?_⟩, linked, free, h⟩
    rintro ⟨i, hi, heq⟩
    cases hfound i hi heq
  | some i =>
    have htake : g.take hash =
        (g.hashOf i == hash, ({ g with directory } : GhostQueue).unlink i) := by
      rw [GhostQueue.take, hremove]
      rfl
    obtain ⟨hlinked, -⟩ := h.indexed.get_eq_some_iff.1 hget.symm
    rw [htake]
    refine ⟨?_, _, _, h.unlink hlinked (hindexed i rfl)⟩
    rw [beq_iff_eq]
    constructor
    · intro heq
      exact ⟨i, hlinked, heq⟩
    · rintro ⟨j, hj, heq⟩
      obtain rfl := Option.some.inj (hfound j hj heq)
      exact heq

/-- The head, if there is one, is linked. -/
lemma Nodes.head_mem (h : g.Nodes linked free) (hhead : g.headIndex = some i) :
    i = g.head ∧ i ∈ linked := by
  rw [headIndex] at hhead
  split_ifs at hhead with hnil
  obtain rfl := Option.some.inj hhead
  exact ⟨rfl, h.queue.1.head_mem hnil⟩

/-- **Evicting the head** finds its entry in the directory, and makes it the first free node. -/
lemma Invariant.removeHead (h : g.Invariant linked free) (hhead : g.headIndex = some i) :
    (g.directory.remove (g.hashOf i)).1 = some i ∧
      g.removeHead.2.Invariant (linked.erase i) (i :: free) ∧
      g.removeHead.2.bytes = g.bytes - g.weightOf i ∧
      g.removeHead.2.capacityBytes = g.capacityBytes := by
  obtain ⟨removed, directory, hremove⟩ :
      ∃ removed directory, g.directory.remove (g.hashOf i) = (removed, directory) := ⟨_, _, rfl⟩
  obtain ⟨hget, hindexed⟩ := h.indexed.remove h.nodes hremove
  obtain ⟨-, hlinked⟩ := h.nodes.head_mem hhead
  have hsome : removed = some i := hget.trans (h.indexed.get_eq_some_iff.2 ⟨hlinked, rfl⟩)
  have hresult : g.removeHead = (true, ({ g with directory } : GhostQueue).unlink i) := by
    rw [GhostQueue.removeHead, hhead]
    simp only
    rw [show g.hashes.getD i 0 = g.hashOf i from rfl, hremove]
  rw [hremove, hresult]
  exact ⟨hsome, h.unlink hlinked (hindexed i hsome), rfl, rfl⟩

/-- The directory after an insertion: the new node is in it, and the node that shared its
fingerprint is not. -/
lemma Indexed.insert (h : g.Indexed linked) (hi : i ∉ linked) {hash : BitVec 64}
    (hlt : i < deletedValue) {previous : Option ℕ} {directory : FixedPrehashedMap}
    (hinsert : g.directory.insert hash i = some (previous, directory)) {hashOf' : ℕ → BitVec 64}
    (hhash : ∀ j, hashOf' j = if j = i then hash else g.hashOf j) :
    directory.Valid ∧ (∀ p, previous = some p → p ∈ linked) ∧
      ∀ f v, directory.Maps f v ↔ previous ≠ some v ∧ v ∈ linked ++ [i] ∧
        fixedMapFingerprint (hashOf' v) = f := by
  obtain ⟨hvalid, -, hget, hmaps⟩ := h.valid.insert hlt hinsert
  have hprevious : ∀ p, previous = some p ↔
      p ∈ linked ∧ fixedMapFingerprint (g.hashOf p) = fixedMapFingerprint hash := by
    rw [hget]
    exact fun p => h.get_eq_some_iff
  refine ⟨hvalid, fun p hp => ((hprevious p).1 hp).1, fun f v => ?_⟩
  rw [hmaps, hhash, Ne, hprevious, List.mem_append, List.mem_singleton, h.maps]
  by_cases hv : v = i
  · subst hv
    by_cases hf : f = fixedMapFingerprint hash
    · simp [hf, hi]
    · simp [hf, hi, Ne.symm hf]
  · by_cases hf : f = fixedMapFingerprint hash
    · subst hf
      simp only [if_true, hv, if_false, or_false, false_iff]
      tauto
    · simp only [if_neg hf, hv, if_false, or_false]
      refine ⟨?_, And.right⟩
      rintro ⟨hlinked, rfl⟩
      exact ⟨fun hp => hf hp.2, hlinked, rfl⟩

/-- As long as there are bytes for every linked node, the first free node is not the last node. -/
lemma Spare.pushBack (h : g.Spare (i :: free)) (hnodes : g.Nodes linked (i :: free))
    (hroom : linked.length + 1 ≤ g.capacityBytes) (hash : BitVec 64) (weight : ℕ) :
    i < deletedValue ∧ (g.pushBack hash weight).Spare free := by
  have hlt : i < g.links.length := hnodes.lt (by simp)
  have hle := hnodes.length_le
  have hlength := hnodes.length
  have hpushed : (g.pushBack hash weight).links.length = g.links.length := length_linkBack ..
  rw [Spare, hpushed]
  rcases h with hsmall | ⟨hcapacity, t, ht⟩
  · exact ⟨hlt.trans_le hsmall, .inl hsmall⟩
  cases t with
  | nil =>
    obtain ⟨rfl, rfl⟩ := List.cons.inj ht
    simp only [List.length_singleton] at hlength
    omega
  | cons j t =>
    obtain ⟨rfl, rfl⟩ := List.cons.inj ht
    refine ⟨?_, .inr ⟨hcapacity, t, rfl⟩⟩
    have hne : i ≠ g.links.length - 1 := by
      rintro heq
      refine (List.nodup_cons.1 (List.nodup_append.1 hnodes.nodup).2.1).1 ?_
      rw [← heq]
      simp
    unfold noPolicySlot at hle
    unfold deletedValue
    omega

/-- **Linking a new node**: the node that shared its fingerprint is unlinked, and when the directory
is full, so is the new one. -/
lemma Invariant.link (h : g.Invariant linked free) {hash : BitVec 64} {weight : ℕ}
    (hpos : 0 < weight) (hweight : weight < 2 ^ 32) (hfree : g.freeHead ≠ noPolicySlot)
    (hbytes : g.bytes + weight ≤ g.capacityBytes) :
    ∃ linked' free', (g.link hash weight).Invariant linked' free' := by
  obtain ⟨t, rfl, -⟩ := h.nodes.freeList.exists_cons hfree
  obtain ⟨-, hnodes, hhash, hpushed⟩ := h.nodes.pushBack hpos hweight hash
  have hlength := h.nodes.length_le_bytes
  obtain ⟨hlt, hspare⟩ := h.spare.pushBack h.nodes (by omega) hash weight
  have hi : g.freeHead ∉ linked := fun hm =>
    (List.nodup_append.1 h.nodes.nodup).2.2 _ hm _ List.mem_cons_self rfl
  -- the queue with the new node, whatever the directory is
  have hnew : ∀ directory : FixedPrehashedMap,
      ({ g.pushBack hash weight with directory } : GhostQueue).Nodes (linked ++ [g.freeHead]) t :=
    hnodes.withDirectory
  have hle : (g.pushBack hash weight).bytes ≤ g.capacityBytes := hpushed.trans_le hbytes
  rw [link_eq]
  cases hinsert : g.directory.insert hash g.freeHead with
  | none =>
    refine ⟨_, _, (hnodes.unlink (i := g.freeHead) (by simp)).1,
      hnodes.indexed_unlink (by simp) h.indexed.valid fun f v => (h.indexed.maps f v).trans ?_,
      (Nat.sub_le _ _).trans hle, hspare.unlink _⟩
    rw [hhash, List.mem_append, List.mem_singleton]
    by_cases hv : v = g.freeHead
    · simp [hv, hi]
    · simp [hv]
  | some result =>
    obtain ⟨previous, directory⟩ := result
    obtain ⟨hvalid, hmem, hmaps⟩ := h.indexed.insert hi hlt hinsert hhash
    cases previous with
    | none =>
      refine ⟨_, _, hnew directory, ⟨hvalid, fun f v => (hmaps f v).trans ?_⟩, hle, hspare⟩
      exact and_iff_right nofun
    | some p =>
      have hp : p ∈ linked ++ [g.freeHead] := List.mem_append_left _ (hmem p rfl)
      refine ⟨_, _, ((hnew directory).unlink hp).1,
        (hnew directory).indexed_unlink hp hvalid fun f v => (hmaps f v).trans ?_,
        (Nat.sub_le _ _).trans hle,
        Spare.unlink (g := { g.pushBack hash weight with directory }) hspare p⟩
      rw [Ne, Option.some.injEq, eq_comm (a := p)]
      rfl

/-- **Inserting a hash** links a node for it, for which the head may have to leave. -/
lemma Invariant.insert (h : g.Invariant linked free) (hash : BitVec 64) (weight : ℕ) :
    ∃ linked' free', (g.insert hash weight).Invariant linked' free' := by
  rw [GhostQueue.insert]
  by_cases hskip : 2 ^ 32 ≤ weight ∨ weight = 0 ∨ g.capacityBytes < weight ∨
      g.links.isEmpty ∨ g.capacityBytes = 0
  · rw [if_pos hskip]
    exact ⟨linked, free, h⟩
  rw [if_neg hskip]
  rw [not_or, not_or, Nat.not_le] at hskip
  obtain ⟨hweight, hpos, -⟩ := hskip
  replace hpos := Nat.pos_of_ne_zero hpos
  rw [h.nodes.bytes_lt hweight]
  by_cases hfull : g.freeHead = noPolicySlot ∨ g.capacityBytes < g.bytes + weight
  · rw [if_pos hfull]
    cases hhead : g.headIndex with
    | none => exact ⟨linked, free, h⟩
    | some head =>
      obtain ⟨-, hremoved, hbytes, hcapacity⟩ := h.removeHead hhead
      simp only
      by_cases hmixed : g.capacityBytes <
          min (g.bytes - (s3FifoLink g.links head).weight + weight) (2 ^ 64 - 1)
      · rw [if_pos hmixed]
        exact ⟨linked, free, h⟩
      · rw [if_neg hmixed]
        have hsaturate := hremoved.nodes.bytes_lt hweight
        rw [hbytes] at hsaturate
        rw [show (s3FifoLink g.links head).weight = g.weightOf head from rfl, hsaturate] at hmixed
        refine hremoved.link hpos hweight ?_ ?_
        · -- the head is the first free node now
          rw [hremoved.nodes.freeList.seg.1]
          have hlt := hremoved.nodes.lt (i := head) (by simp)
          exact (hlt.trans_le hremoved.nodes.length_le).ne
        · rw [hbytes, hcapacity]
          exact Nat.le_of_not_lt hmixed
  · rw [if_neg hfull]
    rw [not_or, Nat.not_lt] at hfull
    exact h.link hpos hweight hfull.1 hfull.2

/-- Every operation keeps the invariant. -/
lemma Invariant.apply (h : g.Invariant linked free) (op : GhostOp) :
    ∃ linked' free', (g.apply op).Invariant linked' free' := by
  cases op with
  | insert hash weight => exact h.insert hash weight
  | take hash => exact (h.take hash).2

/-- **Every run** keeps the invariant. -/
theorem Invariant.run (ops : List GhostOp) (h : g.Invariant linked free) :
    ∃ linked' free', (g.run ops).Invariant linked' free' := by
  induction ops generalizing g linked free with
  | nil => exact ⟨linked, free, h⟩
  | cons op ops ih =>
    obtain ⟨linked', free', h'⟩ := h.apply op
    exact ih h'

/-- The invariant says that the ghost queue is consistent. -/
theorem Invariant.consistent (h : g.Invariant linked free) : g.Consistent linked free where
  queue := h.nodes.queue
  freeList := h.nodes.freeList
  partition := h.nodes.partition
  freeCount := h.nodes.freeCount
  bytes := h.nodes.bytes
  bytes_le := h.bytes_le
  entry p hp := by
    obtain ⟨hlinked, hfp⟩ := (h.indexed.maps _ _).1 ⟨p, hp, rfl⟩
    exact ⟨hlinked, hfp.symm⟩
  node i hi := by
    obtain ⟨p, hp, hslot⟩ := (h.indexed.maps _ i).2 ⟨hi, rfl⟩
    refine ⟨p, ⟨hp, by rw [hslot]⟩, ?_⟩
    rintro q ⟨hq, rfl⟩
    obtain ⟨-, hfp⟩ := (h.indexed.maps _ _).1 ⟨q, hq, rfl⟩
    exact h.indexed.valid.unique q p hq hp
      (hfp.symm.trans (congrArg FixedMapSlot.fingerprint hslot).symm)
  evict i hi := (h.removeHead hi).1
  taken hash := (h.take hash).1

end Invariant

/-! ## New ghost queues -/

/-- A link of a new ghost queue. -/
lemma s3FifoLink_new {n i : ℕ} (hi : i < n) (capacityBytes : ℕ) :
    s3FifoLink (new n capacityBytes).links i =
      { S3FifoLink.default with next := if i + 1 = n then noPolicySlot else i + 1 } := by
  simp [s3FifoLink, new, List.getD_eq_getElem?_getD, hi]

/-- **A new ghost queue** satisfies the invariant, unless its last node can be taken. -/
theorem invariant_new {n capacityBytes : ℕ} (hn : n ≤ maxPolicySlotIndex + 1)
    (hspare : n ≤ deletedValue ∨ capacityBytes < n) :
    (new n capacityBytes).Invariant [] (List.range n) := by
  have hlength : (new n capacityBytes).links.length = n := by simp [new]
  have hn' : n ≤ noPolicySlot := hn
  obtain ⟨hvalid, hmaps⟩ := FixedPrehashedMap.valid_tryNew n
  refine ⟨⟨⟨.empty, nofun⟩, ?_, ?_, ?_, nofun, rfl, ?_, hlength.trans_le hn'⟩,
    ⟨hvalid, fun f v => ?_⟩, Nat.zero_le _, ?_⟩
  · refine Chain.range hn' fun i hi => ?_
    rw [nextOf, s3FifoLink_new hi]
  · rw [hlength, List.nil_append]
  · exact List.length_range.symm
  · simp [new]
  · exact iff_of_false (hmaps f v) fun h => List.not_mem_nil h.1
  · rw [Spare, hlength]
    refine hspare.imp_right fun hlt => ⟨hlt, List.range (n - 1), ?_⟩
    rw [← List.range_succ]
    congr 1
    omega

end GhostQueue

/-! ## The last node -/

/-- The ghost queue with `n` nodes after `k` insertions of new fingerprints. -/
structure FilledGhost (n k : ℕ) (g : GhostQueue) : Prop where
  /-- The first free node. -/
  freeHead : g.freeHead = if k = n then noPolicySlot else k
  /-- The nodes that are free are linked in their order. -/
  freeNext : ∀ i, k ≤ i → i < n → nextOf g.links i = if i + 1 = n then noPolicySlot else i + 1
  /-- The latest node. -/
  tail : g.tail = if k = 0 then noPolicySlot else k - 1
  /-- The number of nodes. -/
  length : g.links.length = n
  /-- The directory. -/
  directory : Homed n k g.directory
  /-- The bytes. -/
  bytes : g.bytes = k
  /-- There are bytes for all nodes. -/
  capacityBytes : n ≤ g.capacityBytes

/-- A new ghost queue. -/
lemma filledGhost_new {n capacityBytes : ℕ} (hcapacity : n ≤ capacityBytes) :
    FilledGhost n 0 (.new n capacityBytes) where
  freeHead := by simp [GhostQueue.new, eq_comm]
  freeNext i _ hi := by rw [nextOf, GhostQueue.s3FifoLink_new hi]
  tail := rfl
  length := by simp [GhostQueue.new]
  directory := homed_tryNew n
  bytes := rfl
  capacityBytes := hcapacity

/-- Links that do not change when a node comes to the end of a list. -/
lemma nextOf_linkBack {links : List S3FifoLink} {tail index weight j : ℕ} (hj : j ≠ index)
    (htail : j ≠ tail) : nextOf (linkBack links tail index weight) j = nextOf links j := by
  have hset : ∀ (links : List S3FifoLink) {k : ℕ} (new : S3FifoLink), j ≠ k →
      nextOf (links.set k new) j = nextOf links j := by
    intro links k new hk
    simp [nextOf, s3FifoLink, List.getD_eq_getElem?_getD, List.getElem?_set_ne (Ne.symm hk)]
  rw [linkBack]
  by_cases hnil : tail = noPolicySlot
  · rw [if_pos hnil, hset links _ hj]
  · rw [if_neg hnil, setNext, hset _ _ htail, hset links _ hj]

/-- **The next insertion** takes the first free node. -/
lemma FilledGhost.insert {n k : ℕ} {g : GhostQueue} (h : FilledGhost n k g)
    (hn : n ≤ noPolicySlot) (hlarge : 2 ^ 32 ≤ n * 2) (hk : k < n) :
    FilledGhost n (k + 1) (g.insert (hashOfFingerprint k) 1) := by
  have hcapacity := h.capacityBytes
  have hk32 : k < 2 ^ 32 := by
    unfold noPolicySlot at hn
    omega
  have hfree : g.freeHead = k := by rw [h.freeHead, if_neg hk.ne]
  have hinsert : g.directory.insert (hashOfFingerprint k) g.freeHead =
      some (none, g.directory.set (homeOf n k) ⟨BitVec.ofNat 32 k, k⟩) := by
    rw [FixedPrehashedMap.insert, h.directory.findUpsertSlot_eq hlarge hk32, Option.map_some,
      fixedMapFingerprint_hashOfFingerprint, hfree]
  have hlink : g.insert (hashOfFingerprint k) 1 =
      { g.pushBack (hashOfFingerprint k) 1 with
        directory := g.directory.set (homeOf n k) ⟨BitVec.ofNat 32 k, k⟩ } := by
    have hempty : ¬ g.links.isEmpty := by
      rw [List.isEmpty_iff_length_eq_zero, h.length]
      omega
    have hroom : ¬ g.capacityBytes < min (g.bytes + 1) (2 ^ 64 - 1) := by
      rw [h.bytes]
      omega
    have hnil : g.freeHead ≠ noPolicySlot := by omega
    rw [GhostQueue.insert, if_neg, if_neg (not_or.2 ⟨hnil, hroom⟩), GhostQueue.link_eq, hinsert]
    rintro (hweight | hweight | hweight | hweight | hweight)
    · omega
    · omega
    · omega
    · exact hempty hweight
    · omega
  rw [hlink]
  constructor
  case freeHead =>
    show nextOf g.links g.freeHead = _
    rw [hfree, h.freeNext k le_rfl hk]
  case freeNext =>
    intro i hi hin
    rw [← h.freeNext i (by omega) hin]
    refine nextOf_linkBack (by omega) ?_
    rw [h.tail]
    split_ifs
    · omega
    · omega
  case tail => exact hfree
  case length =>
    show (linkBack _ _ _ _).length = n
    rw [length_linkBack, h.length]
  case directory => exact h.directory.set (Nat.zero_lt_of_lt hk)
  case bytes =>
    show min (g.bytes + 1) (2 ^ 64 - 1) = k + 1
    rw [h.bytes]
    omega
  case capacityBytes => exact hcapacity

/-- Insertions of the first fingerprints. -/
def ghostInsertions (k : ℕ) : List GhostOp :=
  (List.range k).map fun j => .insert (hashOfFingerprint j) 1

/-- The ghost queue after these insertions. -/
lemma filledGhost_run {n capacityBytes : ℕ} (hn : n ≤ noPolicySlot) (hlarge : 2 ^ 32 ≤ n * 2)
    (hcapacity : n ≤ capacityBytes) {k : ℕ} (hk : k ≤ n) :
    FilledGhost n k ((GhostQueue.new n capacityBytes).run (ghostInsertions k)) := by
  induction k with
  | zero => exact filledGhost_new hcapacity
  | succ k ih =>
    rw [ghostInsertions, List.range_succ, List.map_append, GhostQueue.run, List.foldl_append]
    exact (ih (by omega)).insert hn hlarge (by omega)

/-- **The largest ghost queue is not consistent** when its last node is linked: what the directory
has for that node is a deletion. -/
theorem lastNode_not_consistent {capacityBytes : ℕ} (hcapacity : largestShard ≤ capacityBytes)
    (linked free : List ℕ) :
    ¬ ((GhostQueue.new largestShard capacityBytes).run (ghostInsertions largestShard)).Consistent
      linked free := by
  intro hconsistent
  have hfilled := filledGhost_run (n := largestShard) le_rfl
    (by unfold largestShard maxPolicySlotIndex; omega) hcapacity le_rfl
  have htail := hfilled.tail
  rw [if_neg (by unfold largestShard; omega)] at htail
  have hlast : deletedValue ∈ linked := by
    have hmem := hconsistent.queue.1.tail_mem (by
      rw [htail]
      unfold largestShard maxPolicySlotIndex noPolicySlot
      omega)
    rwa [htail] at hmem
  obtain ⟨p, ⟨hlive, hvalue⟩, -⟩ := hconsistent.node _ hlast
  exact hlive.2 hvalue

/-! ## Which ghost queues are consistent -/

/-- **The ghost queues that are consistent** after every sequence of operations are those whose last
node the directory can hold, or that have fewer bytes than nodes. -/
theorem ghostQueue_consistent_iff {maximumEntries capacityBytes : ℕ}
    (hentries : maximumEntries ≤ maxPolicySlotIndex + 1) :
    (∀ ops : List GhostOp, ∃ linked free,
        ((GhostQueue.new maximumEntries capacityBytes).run ops).Consistent linked free) ↔
      maximumEntries ≤ maxPolicySlotIndex ∨ capacityBytes < maximumEntries := by
  constructor
  · intro hall
    by_contra hnot
    rw [not_or, Nat.not_le, Nat.not_lt] at hnot
    obtain rfl : maximumEntries = largestShard := Nat.le_antisymm hentries hnot.1
    obtain ⟨linked, free, hconsistent⟩ := hall (ghostInsertions largestShard)
    exact lastNode_not_consistent hnot.2 linked free hconsistent
  · intro hspare ops
    obtain ⟨linked, free, h⟩ := (GhostQueue.invariant_new hentries hspare).run ops
    exact ⟨linked, free, h.consistent⟩

/-- Two hashes with one fingerprint, of which the second is not taken for the first. -/
theorem ghostQueue_consistent_iff_sample :
    ∃ linked free, ((GhostQueue.new 2 100).run
      [.insert 1 10, .insert 2 10, .take (1 <<< 45), .insert 3 10]).Consistent linked free :=
  (ghostQueue_consistent_iff (by decide)).2 (.inl (by decide)) _

/-- The ghost queue of the largest shard, which holds nine tenths of the shard's bytes, is not
consistent after as many insertions as it has nodes. -/
theorem ghostQueue_lastNode :
    ¬ ∃ linked free, ((GhostQueue.new largestShard
      (numberedItemBytes * largestShard - numberedItemBytes * largestShard / 10)).run
        (ghostInsertions largestShard)).Consistent linked free := by
  rintro ⟨linked, free, hconsistent⟩
  refine lastNode_not_consistent ?_ linked free hconsistent
  unfold numberedItemBytes
  omega

end Cache2

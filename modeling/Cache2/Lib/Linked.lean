import Mathlib.Data.List.Basic
import Mathlib.Data.List.Nodup

set_option relaxedAutoImplicit false
set_option autoImplicit false

/-!
# Lists linked through an array

Nodes of intrusive lists live in an array and name each other by index, with one index set aside
to end a list. A singly linked list is a path along `next`; a doubly linked one is a path along
`next` from its head that is, backwards, a path along `prev` from its tail. What an update of a few
links does to a list is said by what it does to the two functions on the nodes of the list.

## Main definitions

* `Linked.Seg` — the nodes of a path; `Linked.Chain` — a list that ends properly.
* `Linked.DList` — a doubly linked list.

## Main results

* `Linked.Chain.push`, `Linked.Chain.removeHead`, `Linked.Chain.removeAfter` — updates of a list.
* `Linked.Chain.range` — a list of consecutive nodes.
* `Linked.DList.pushBack`, `Linked.DList.remove` — updates of a doubly linked list.
-/

namespace Linked

variable {ι : Type*}

/-! ## Paths -/

/-- Following `next` from `h` one meets the nodes `l` and then `m`. -/
def Seg (next : ι → ι) : ι → List ι → ι → Prop
  | h, [], m => h = m
  | h, a :: l, m => h = a ∧ Seg next (next a) l m

section Seg

variable {next next' : ι → ι} {h m a : ι} {l l' : List ι}

@[simp] lemma seg_nil : Seg next h [] m ↔ h = m := Iff.rfl

@[simp] lemma seg_cons : Seg next h (a :: l) m ↔ h = a ∧ Seg next (next a) l m := Iff.rfl

/-- A path through two lists passes from one to the other. -/
lemma seg_append : Seg next h (l ++ l') m ↔ ∃ k, Seg next h l k ∧ Seg next k l' m := by
  induction l generalizing h with
  | nil => simp
  | cons b l ih => simp [ih, and_assoc]

/-- The last node of a path. -/
lemma seg_snoc : Seg next h (l ++ [a]) m ↔ Seg next h l a ∧ next a = m := by
  rw [seg_append]
  constructor
  · rintro ⟨k, hl, rfl, hm⟩
    exact ⟨hl, hm⟩
  · rintro ⟨hl, hm⟩
    exact ⟨a, hl, rfl, hm⟩

/-- A path only depends on the links of its nodes. -/
lemma Seg.congr (hs : Seg next h l m) (heq : ∀ b ∈ l, next' b = next b) : Seg next' h l m := by
  induction l generalizing h with
  | nil => exact hs
  | cons b l ih =>
    obtain ⟨rfl, hs⟩ := hs
    refine ⟨rfl, ih ?_ fun c hc => heq c (List.mem_cons_of_mem _ hc)⟩
    rw [heq h List.mem_cons_self]
    exact hs

/-- Where a path starts. -/
lemma Seg.start_mem (hs : Seg next h l m) (hne : h ≠ m) : h ∈ l := by
  cases l with
  | nil => exact absurd hs hne
  | cons b l => simp [hs.1]

/-- A path whose nodes are not its end is empty if it starts at its end. -/
lemma Seg.eq_nil (hs : Seg next h l h) (hnot : h ∉ l) : l = [] := by
  cases l with
  | nil => rfl
  | cons b l => exact absurd (by simp [hs.1]) hnot

end Seg

/-! ## Singly linked lists -/

/-- A list from `h` on that ends with `nil`. -/
structure Chain (next : ι → ι) (nil h : ι) (l : List ι) : Prop where
  /-- The path. -/
  seg : Seg next h l nil
  /-- No node occurs twice. -/
  nodup : l.Nodup
  /-- The end is not a node. -/
  nil_notMem : nil ∉ l

namespace Chain

variable {next next' : ι → ι} {nil h i : ι} {l a b : List ι}

/-- The empty list. -/
lemma empty : Chain next nil nil [] := ⟨rfl, List.nodup_nil, List.not_mem_nil⟩

/-- A list that starts with its end is empty. -/
lemma eq_nil (hc : Chain next nil nil l) : l = [] := hc.seg.eq_nil hc.nil_notMem

/-- A list that starts with a node. -/
lemma exists_cons (hc : Chain next nil h l) (hne : h ≠ nil) :
    ∃ t, l = h :: t ∧ Chain next nil (next h) t := by
  obtain ⟨hseg, hnodup, hnil⟩ := hc
  cases l with
  | nil => exact absurd hseg hne
  | cons b t =>
    obtain ⟨rfl, hseg⟩ := hseg
    exact ⟨t, rfl, hseg, (List.nodup_cons.1 hnodup).2, fun hm => hnil (List.mem_cons_of_mem _ hm)⟩

/-- The empty list starts with its end. -/
lemma eq_of_nil (hc : Chain next nil h []) : h = nil := hc.seg

/-- A list only depends on the links of its nodes. -/
lemma congr (hc : Chain next nil h l) (heq : ∀ b ∈ l, next' b = next b) : Chain next' nil h l :=
  ⟨hc.seg.congr heq, hc.nodup, hc.nil_notMem⟩

/-- A new node in front. -/
lemma push (hc : Chain next nil h l) (hi : i ∉ l) (hne : i ≠ nil) (hnext : next' i = h)
    (heq : ∀ b ∈ l, next' b = next b) : Chain next' nil i (i :: l) := by
  refine ⟨⟨rfl, ?_⟩, List.nodup_cons.2 ⟨hi, hc.nodup⟩, ?_⟩
  · rw [hnext]
    exact hc.seg.congr heq
  · rw [List.mem_cons, not_or]
    exact ⟨hne.symm, hc.nil_notMem⟩

/-- The list without its first node. -/
lemma removeHead (hc : Chain next nil h (i :: l)) (heq : ∀ b ∈ l, next' b = next b) :
    Chain next' nil (next i) l := by
  obtain ⟨⟨rfl, hseg⟩, hnodup, hnil⟩ := hc
  exact ⟨hseg.congr heq, (List.nodup_cons.1 hnodup).2, fun hm => hnil (List.mem_cons_of_mem _ hm)⟩

/-- The list without a node that comes after `p`. -/
lemma removeAfter {p : ι} (hc : Chain next nil h (a ++ p :: i :: b)) (hp : next' p = next i)
    (heq : ∀ c ∈ a ++ b, next' c = next c) : Chain next' nil h (a ++ p :: b) := by
  obtain ⟨hseg, hnodup, hnil⟩ := hc
  obtain ⟨k, ha, rfl, hpi, hib⟩ := seg_append.1 hseg
  refine ⟨seg_append.2 ⟨k, ha.congr ?_, rfl, ?_⟩, ?_, ?_⟩
  · exact fun c hc => heq c (List.mem_append_left _ hc)
  · rw [hp]
    exact hib.congr fun c hc => heq c (List.mem_append_right _ hc)
  · exact hnodup.sublist
      ((List.Sublist.refl a).append (List.Sublist.cons_cons _ (List.sublist_cons_self _ _)))
  · intro hm
    refine hnil ?_
    simp only [List.mem_append, List.mem_cons] at hm ⊢
    tauto

/-- An array whose nodes are linked in their order. -/
lemma range {next : ℕ → ℕ} {nil n : ℕ} (hn : n ≤ nil)
    (hnext : ∀ i < n, next i = if i + 1 = n then nil else i + 1) :
    Chain next nil (if n = 0 then nil else 0) (List.range n) := by
  have hseg : ∀ k, k ≤ n → Seg next (if k = n then nil else k) (List.range' k (n - k)) nil := by
    intro k hk
    induction hd : n - k generalizing k with
    | zero =>
      rw [if_pos (by omega)]
      rfl
    | succ d ih =>
      rw [if_neg (by omega), List.range'_succ]
      refine ⟨rfl, ?_⟩
      rw [hnext k (by omega)]
      exact ih (k + 1) (by omega) (by omega)
  refine ⟨?_, List.nodup_range, fun hm => ?_⟩
  · simpa [List.range_eq_range', eq_comm] using hseg 0 (Nat.zero_le n)
  · have hlt := List.mem_range.1 hm
    omega

end Chain

/-! ## Doubly linked lists -/

/-- A list from `head` to `tail` that is linked in both directions. -/
structure DList (prev next : ι → ι) (nil head tail : ι) (l : List ι) : Prop where
  /-- The path from the head. -/
  forward : Seg next head l nil
  /-- The path from the tail. -/
  backward : Seg prev tail l.reverse nil
  /-- No node occurs twice. -/
  nodup : l.Nodup
  /-- The end is not a node. -/
  nil_notMem : nil ∉ l

namespace DList

variable {prev prev' next next' : ι → ι} {nil head tail i : ι} {l : List ι}

/-- The empty list. -/
lemma empty : DList prev next nil nil nil [] := ⟨rfl, rfl, List.nodup_nil, List.not_mem_nil⟩

/-- The head of a list that is not empty. -/
lemma head_mem (h : DList prev next nil head tail l) (hne : head ≠ nil) : head ∈ l :=
  h.forward.start_mem hne

/-- The tail of a list that is not empty. -/
lemma tail_mem (h : DList prev next nil head tail l) (hne : tail ≠ nil) : tail ∈ l :=
  List.mem_reverse.1 (h.backward.start_mem hne)

/-- A list without a tail is empty. -/
lemma eq_nil_of_tail (h : DList prev next nil head nil l) : l = [] := by
  have hrev := h.backward.eq_nil (by simpa using h.nil_notMem)
  simpa using hrev

/-- A list only depends on the links of its nodes. -/
lemma congr (h : DList prev next nil head tail l) (hnext : ∀ b ∈ l, next' b = next b)
    (hprev : ∀ b ∈ l, prev' b = prev b) : DList prev' next' nil head tail l :=
  ⟨h.forward.congr hnext, h.backward.congr fun b hb => hprev b (List.mem_reverse.1 hb), h.nodup,
    h.nil_notMem⟩

/-- A new node at the end: it points back to the tail, and the tail to it. -/
theorem pushBack [DecidableEq ι] (h : DList prev next nil head tail l) (hi : i ∉ l) (hne : i ≠ nil)
    (hnexti : next' i = nil) (hprevi : prev' i = tail)
    (hnext : ∀ b ∈ l, next' b = if b = tail then i else next b)
    (hprev : ∀ b ∈ l, prev' b = prev b) :
    DList prev' next' nil (if tail = nil then i else head) i (l ++ [i]) := by
  have hnodup : (l ++ [i]).Nodup := by
    rw [List.nodup_append]
    refine ⟨h.nodup, List.nodup_singleton i, ?_⟩
    rintro b hb c hc rfl
    exact hi (List.mem_singleton.1 hc ▸ hb)
  have hnil : nil ∉ l ++ [i] := by
    simp only [List.mem_append, List.mem_singleton, not_or]
    exact ⟨h.nil_notMem, hne.symm⟩
  refine ⟨?_, ?_, hnodup, hnil⟩
  · rw [seg_snoc]
    refine ⟨?_, hnexti⟩
    by_cases htail : tail = nil
    · subst htail
      rw [h.eq_nil_of_tail, if_pos rfl]
      rfl
    · rw [if_neg htail]
      -- the tail is the last node, and the only one whose link changes
      obtain ⟨a, ha⟩ : ∃ a, l = a ++ [tail] := by
        have hback := h.backward
        rcases List.eq_nil_or_concat l with rfl | ⟨a, b, rfl⟩
        · exact absurd hback htail
        · simp only [List.concat_eq_append, List.reverse_append, List.reverse_cons,
            List.reverse_nil, List.nil_append, List.singleton_append, seg_cons] at hback
          exact ⟨a, by rw [hback.1, List.concat_eq_append]⟩
      subst ha
      have htaila : tail ∉ a := by
        have := (List.nodup_append.1 h.nodup).2.2
        exact fun hm => this tail hm tail (by simp) rfl
      obtain ⟨hfront, -⟩ := seg_snoc.1 h.forward
      rw [seg_snoc]
      refine ⟨hfront.congr fun b hb => ?_, ?_⟩
      · rw [hnext b (List.mem_append_left _ hb), if_neg]
        rintro rfl
        exact htaila hb
      · rw [hnext tail (by simp), if_pos rfl]
  · rw [List.reverse_append, List.reverse_singleton, List.singleton_append]
    refine ⟨rfl, ?_⟩
    rw [hprevi]
    exact h.backward.congr fun b hb => hprev b (List.mem_reverse.1 hb)

/-- A path without one of its nodes, when the node before it takes over its link. -/
lemma seg_remove [DecidableEq ι] {a b : List ι} {p : ι} (h : Seg next head (a ++ i :: b) nil)
    (hnodup : (a ++ i :: b).Nodup) (hnil : nil ∉ a ++ i :: b) (hp : Seg prev p a.reverse nil)
    (hnext : ∀ c ∈ a ++ b, next' c = if c = p then next i else next c) :
    Seg next' (if p = nil then next i else head) (a ++ b) nil := by
  obtain ⟨k, hka, rfl, hib⟩ := seg_append.1 h
  rcases List.eq_nil_or_concat a with rfl | ⟨a', c, rfl⟩
  · obtain rfl : p = nil := hp
    rw [if_pos rfl, List.nil_append]
    refine hib.congr fun c hc => ?_
    rw [hnext c (by simpa using hc), if_neg]
    rintro rfl
    exact hnil (by simp [hc])
  · simp only [List.concat_eq_append, List.append_assoc, List.singleton_append,
      List.reverse_append, List.reverse_cons, List.reverse_nil, List.nil_append, seg_cons] at *
    obtain ⟨rfl, -⟩ := hp
    obtain ⟨hka, hpk⟩ := seg_snoc.1 hka
    have hpnil : p ≠ nil := by
      rintro rfl
      exact hnil (by simp)
    rw [if_neg hpnil]
    have hdisj := List.nodup_append.1 hnodup
    have hpa : ∀ c ∈ a', c ≠ p := fun c hc => hdisj.2.2 c hc p (by simp)
    have hpb : ∀ c ∈ b, c ≠ p := by
      rintro c hc rfl
      have := (List.nodup_cons.1 hdisj.2.1).1
      exact this (by simp [hc])
    refine seg_append.2 ⟨p, hka.congr fun c hc => ?_, rfl, ?_⟩
    · rw [hnext c (by simp [hc]), if_neg (hpa c hc)]
    · rw [hnext p (by simp), if_pos rfl]
      exact hib.congr fun c hc => by rw [hnext c (by simp [hc]), if_neg (hpb c hc)]

/-- The list without one of its nodes: its neighbours, or the ends of the list, point to each
other. -/
theorem remove [DecidableEq ι] {a b : List ι} (h : DList prev next nil head tail (a ++ i :: b))
    (hnext : ∀ c ∈ a ++ b, next' c = if c = prev i then next i else next c)
    (hprev : ∀ c ∈ a ++ b, prev' c = if c = next i then prev i else prev c) :
    DList prev' next' nil (if prev i = nil then next i else head)
      (if next i = nil then prev i else tail) (a ++ b) := by
  obtain ⟨hforward, hbackward, hnodup, hnil⟩ := h
  have hrev : (a ++ i :: b).reverse = b.reverse ++ i :: a.reverse := by simp
  rw [hrev] at hbackward
  obtain ⟨k, -, rfl, hib⟩ := seg_append.1 hforward
  obtain ⟨k', -, hk', hia⟩ := seg_append.1 hbackward
  obtain rfl : k' = k := hk'
  refine ⟨seg_remove hforward hnodup hnil hia hnext, ?_, ?_, ?_⟩
  · rw [List.reverse_append]
    refine seg_remove hbackward ?_ ?_ (by simpa using hib) fun c hc => hprev c ?_
    · rw [← hrev]
      exact List.nodup_reverse.2 hnodup
    · rw [← hrev, List.mem_reverse]
      exact hnil
    · simp only [List.mem_append, List.mem_reverse] at hc ⊢
      exact hc.symm
  · exact hnodup.sublist ((List.Sublist.refl a).append (List.sublist_cons_self _ _))
  · intro hm
    refine hnil ?_
    simp only [List.mem_append, List.mem_cons] at hm ⊢
    tauto

end DList

end Linked

import Mathlib.Algebra.GroupWithZero.Nat
import Mathlib.Logic.Relation
import Mathlib.Data.List.Basic

set_option relaxedAutoImplicit false
set_option autoImplicit false

/-!
# Interleavings of threads over a shared state

A pool is a shared state with a list of threads. A thread's position in the list is its identity;
its entry is all that it keeps to itself. In one step some thread acts on the shared state, or a
new thread comes into being, so a run is an interleaving of the actions of any number of threads.

## Main definitions

* `Interleaving.Program` — how threads start and what one action of a thread does.
* `Interleaving.Step`, `Interleaving.Steps`, `Interleaving.Reachable` — one step, runs, and the
  pools that runs reach.

## Main results

* `Interleaving.Reachable.invariant` — what new threads and actions keep holds in every pool.
* `Interleaving.Reachable.relyGuarantee` — the same for a property of each thread.
* `Interleaving.Pool.CounterAct.count` — a counter that follows the actions is the number of
  threads of a kind.
-/

namespace Interleaving

variable {σ τ : Type*}

/-! ## Pools -/

/-- A shared state and the threads that act on it. -/
structure Pool (σ τ : Type*) where
  /-- What all threads read and write. -/
  shared : σ
  /-- What each thread keeps to itself, its program counter included. -/
  threads : List τ

namespace Pool

variable {c : Pool σ τ} {i j : ℕ} {t t' u : τ} {s' : σ}

/-- The thread `i` stands at `t`. -/
def At (c : Pool σ τ) (i : ℕ) (t : τ) : Prop := c.threads[i]? = some t

/-- The number of threads of a kind. -/
def count (c : Pool σ τ) (p : τ → Bool) : ℕ := c.threads.countP p

/-- The pool with one more thread. -/
def spawn (c : Pool σ τ) (t : τ) : Pool σ τ := ⟨c.shared, c.threads ++ [t]⟩

/-- The pool after the thread `i` has gone to `t'` and the shared state to `s'`. -/
def act (c : Pool σ τ) (i : ℕ) (s' : σ) (t' : τ) : Pool σ τ := ⟨s', c.threads.set i t'⟩

@[simp] lemma spawn_shared : (c.spawn t).shared = c.shared := rfl

@[simp] lemma act_shared : (c.act i s' t').shared = s' := rfl

/-- A thread stands at one place. -/
lemma At.unique (h : c.At i t) (h' : c.At i u) : t = u := Option.some.inj (h.symm.trans h')

/-- The threads after an action: the one that acted, and the others as they were. -/
lemma at_act (h : c.At i t) :
    (c.act i s' t').At j u ↔ (j = i ∧ u = t') ∨ (j ≠ i ∧ c.At j u) := by
  have hi : c.threads[i]? = some t := h
  by_cases hij : i = j
  · subst hij
    simp [At, act, List.getElem?_set_self', hi, eq_comm]
  · simp [At, act, List.getElem?_set_ne hij, Ne.symm hij]

/-- The threads after one has come into being: the others as they were, and the new one. -/
lemma at_spawn : (c.spawn t).At j u ↔ c.At j u ∨ (j = c.threads.length ∧ u = t) := by
  rcases Nat.lt_trichotomy j c.threads.length with hj | hj | hj
  · simp [At, spawn, List.getElem?_append_left hj, Nat.ne_of_lt hj]
  · simp [At, spawn, hj, eq_comm]
  · simp [At, spawn, List.getElem?_append_right (Nat.le_of_lt hj), Nat.ne_of_gt hj,
      List.getElem?_eq_none (Nat.le_of_lt hj), Nat.sub_ne_zero_of_lt hj]

/-- The thread that acted. -/
lemma act_at (h : c.At i t) : (c.act i s' t').At i t' := (at_act h).2 (.inl ⟨rfl, rfl⟩)

/-- Two actions of one thread. -/
lemma act_act {s'' : σ} {t'' : τ} : (c.act i s' t').act i s'' t'' = c.act i s'' t'' := by
  simp only [act, List.set_set]

/-- An action without effect. -/
lemma act_self (h : c.At i t) : c.act i c.shared t = c := by
  obtain ⟨hi, ht⟩ := List.getElem?_eq_some_iff.1 h
  simp only [act, ← ht, List.set_getElem_self]

/-- There is still a thread of a kind after an action that does not take one out of it. -/
lemma exists_at_act {p : τ → Prop} (hi : c.At i t) (ht : p t → p t')
    (h : ∃ j u, c.At j u ∧ p u) : ∃ j u, (c.act i s' t').At j u ∧ p u := by
  obtain ⟨j, u, hj, hu⟩ := h
  by_cases hij : j = i
  · subst hij
    obtain rfl := hi.unique hj
    exact ⟨j, t', (at_act hi).2 (.inl ⟨rfl, rfl⟩), ht hu⟩
  · exact ⟨j, u, (at_act hi).2 (.inr ⟨hij, hj⟩), hu⟩

/-- There is still a thread of a kind after another has come into being. -/
lemma exists_at_spawn {p : τ → Prop} (h : ∃ j u, c.At j u ∧ p u) :
    ∃ j u, (c.spawn t).At j u ∧ p u := by
  obtain ⟨j, u, hj, hu⟩ := h
  exact ⟨j, u, at_spawn.2 (.inl hj), hu⟩

/-- An action moves one thread into or out of a kind of threads. -/
lemma countP_act (p : τ → Bool) (h : c.At i t) (s' : σ) (t' : τ) :
    (c.act i s' t').count p + (if p t then 1 else 0) = c.count p + (if p t' then 1 else 0) := by
  obtain ⟨hi, ht⟩ := List.getElem?_eq_some_iff.1 h
  have hpos : p t = true → 0 < c.threads.countP p := fun hp =>
    List.countP_pos_iff.2 ⟨t, List.mem_of_getElem? h, hp⟩
  simp only [count, act, List.countP_set hi, ht]
  split_ifs <;> grind

/-- A new thread is one more of its kind. -/
lemma count_spawn (p : τ → Bool) : (c.spawn t).count p = c.count p + (if p t then 1 else 0) := by
  simp only [count, spawn, List.countP_append, List.countP_singleton]

/-- No more threads are of a kind than there are. -/
lemma count_le (p : τ → Bool) : c.count p ≤ c.threads.length := List.countP_le_length

/-- What the counter `n` of the threads of a kind has to become when a thread acts: it stays, it is
raised, or it is lowered, as far as a counter of `w` bits can be. -/
def CounterAct (w : ℕ) (p : τ → Bool) (t t' : τ) (n n' : ℕ) : Prop :=
  (p t' = p t ∧ n' = n) ∨
    (p t = false ∧ p t' = true ∧ (n + 1 < 2 ^ w → n' = n + 1)) ∨
    (p t = true ∧ p t' = false ∧ (0 < n → n < 2 ^ w → n' + 1 = n))

/-- A counter that follows every action is the number of threads, if these can be counted. -/
lemma CounterAct.count {w : ℕ} {p : τ → Bool} {n n' : ℕ} (hact : CounterAct w p t t' n n')
    (h : c.At i t) (hlen : c.threads.length < 2 ^ w) (hn : n = c.count p) :
    n' = (c.act i s' t').count p := by
  have hset := countP_act p h s' t'
  have hle := count_le (c := c.act i s' t') p
  have hlen' : (c.act i s' t').threads.length = c.threads.length := by simp [act]
  rcases hact with ⟨hp, hn'⟩ | ⟨hp, hp', hn'⟩ | ⟨hp, hp', hn'⟩
  · rw [hp] at hset
    omega
  · simp only [hp, hp', if_true, Bool.false_eq_true, if_false] at hset
    have := hn' (by omega)
    omega
  · simp only [hp, hp', if_true, Bool.false_eq_true, if_false] at hset
    have hle' := count_le (c := c) p
    have := hn' (by omega) (by omega)
    omega

/-- There is a thread of a kind whose number is positive. -/
lemma count_pos_of_at {p : τ → Bool} (h : c.At i t) (hp : p t = true) : 0 < c.count p :=
  List.countP_pos_iff.2 ⟨t, List.mem_of_getElem? h, hp⟩

/-- What all threads hold together. -/
def total (c : Pool σ τ) (f : τ → ℕ) : ℕ := (c.threads.map f).sum

/-- An action changes the total by what the thread that acts holds. -/
lemma total_act (f : τ → ℕ) (h : c.At i t) (s' : σ) (t' : τ) :
    (c.act i s' t').total f + f t = c.total f + f t' := by
  have hsum : ∀ {l : List τ} {i : ℕ}, l[i]? = some t →
      ((l.set i t').map f).sum + f t = (l.map f).sum + f t' := by
    intro l
    induction l with
    | nil => intro i hi; cases hi
    | cons u l ih =>
      intro i hi
      cases i with
      | zero =>
        obtain rfl := Option.some.inj hi
        simp only [List.set_cons_zero, List.map_cons, List.sum_cons]
        omega
      | succ i =>
        have := ih (show l[i]? = some t from hi)
        simp only [List.set_cons_succ, List.map_cons, List.sum_cons]
        omega
  exact hsum h

/-- A new thread adds what it holds. -/
lemma total_spawn (f : τ → ℕ) : (c.spawn t).total f = c.total f + f t := by
  simp only [total, spawn, List.map_append, List.map_cons, List.map_nil, List.sum_append,
    List.sum_cons, List.sum_nil, Nat.add_zero]

end Pool

/-! ## Runs -/

/-- How threads start, and the actions of the thread with a given identity. -/
structure Program (σ τ : Type*) where
  /-- A thread may start with this entry. -/
  start : τ → Prop
  /-- The thread `i` with entry `t` may take the shared state from `s` to `s'` and its own entry
  to `t'`. -/
  act : ℕ → σ → τ → σ → τ → Prop

/-- One step of a pool. -/
inductive Step (P : Program σ τ) : Pool σ τ → Pool σ τ → Prop
  /-- A thread comes into being. -/
  | spawn (c : Pool σ τ) (t : τ) (h : P.start t) : Step P c (c.spawn t)
  /-- A thread acts. -/
  | act (c : Pool σ τ) (i : ℕ) (t t' : τ) (s' : σ) (hi : c.At i t)
      (h : P.act i c.shared t s' t') : Step P c (c.act i s' t')

/-- Any number of steps. -/
def Steps (P : Program σ τ) : Pool σ τ → Pool σ τ → Prop := Relation.ReflTransGen (Step P)

/-- The pool is reached from the shared state `s₀` without threads. -/
def Reachable (P : Program σ τ) (s₀ : σ) (c : Pool σ τ) : Prop := Steps P ⟨s₀, []⟩ c

variable {P : Program σ τ} {s₀ : σ}

/-- Runs continue. -/
lemma Reachable.steps {c c' : Pool σ τ} (h : Reachable P s₀ c) (hs : Steps P c c') :
    Reachable P s₀ c' :=
  Relation.ReflTransGen.trans h hs

/-- The first pool. -/
lemma Reachable.init : Reachable P s₀ ⟨s₀, []⟩ := Relation.ReflTransGen.refl

/-- A run may continue with a new thread. -/
lemma Reachable.spawn {c : Pool σ τ} (h : Reachable P s₀ c) {t : τ} (ht : P.start t) :
    Reachable P s₀ (c.spawn t) :=
  Relation.ReflTransGen.tail h (.spawn c t ht)

/-- A run may continue with an action. -/
lemma Reachable.act {c : Pool σ τ} (h : Reachable P s₀ c) {i : ℕ} {t t' : τ} {s' : σ}
    (hi : c.At i t) (ha : P.act i c.shared t s' t') : Reachable P s₀ (c.act i s' t') :=
  Relation.ReflTransGen.tail h (.act c i t t' s' hi ha)

/-- A thread goes on while the others stand still. -/
lemma Steps.own {c : Pool σ τ} {i : ℕ} {t t' u : τ} {s s' : σ} (hi : c.At i u)
    (hs : Steps P c (c.act i s t)) (ha : P.act i s t s' t') : Steps P c (c.act i s' t') := by
  have hstep := Step.act (c.act i s t) i t t' s' (Pool.act_at hi) ha
  rw [Pool.act_act] at hstep
  exact Relation.ReflTransGen.tail hs hstep

/-- A property that new threads and actions keep is kept by runs. -/
theorem Steps.keeps {I : Pool σ τ → Prop}
    (hspawn : ∀ c t, I c → P.start t → I (c.spawn t))
    (hact : ∀ c i t t' s', I c → c.At i t → P.act i c.shared t s' t' → I (c.act i s' t'))
    {c c' : Pool σ τ} (hs : Steps P c c') (h : I c) : I c' := by
  induction hs with
  | refl => exact h
  | tail _ hstep ih =>
    cases hstep with
    | spawn t ht => exact hspawn _ t ih ht
    | act i t t' s' hi ha => exact hact _ i t t' s' ih hi ha

/-- A property of the first pool that new threads and actions keep holds in every pool that is
reached. -/
theorem Reachable.invariant {I : Pool σ τ → Prop} (hinit : I ⟨s₀, []⟩)
    (hspawn : ∀ c t, I c → P.start t → I (c.spawn t))
    (hact : ∀ c i t t' s', I c → c.At i t → P.act i c.shared t s' t' → I (c.act i s' t'))
    {c : Pool σ τ} (h : Reachable P s₀ c) : I c :=
  Steps.keeps hspawn hact h hinit

/-- **Rely and guarantee.** When all threads start at one place, a property `I` of the shared state
and one of each thread hold in every pool that is reached, if an action keeps `I`, establishes the
property of its thread, and leaves that of every other thread alone. The property of a thread is
asked of those that are still to come as well. -/
theorem Reachable.relyGuarantee {I : σ → Prop} {T : ℕ → σ → τ → Prop} {t₀ : τ}
    (hstart : ∀ t, P.start t → t = t₀) (hinit : I s₀) (hthreads : ∀ i, T i s₀ t₀)
    (hact : ∀ i s t s' t', I s → T i s t → P.act i s t s' t' →
      I s' ∧ T i s' t' ∧ ∀ j u, j ≠ i → T j s u → T j s' u)
    {c : Pool σ τ} (h : Reachable P s₀ c) :
    I c.shared ∧ ∀ i, T i c.shared (c.threads.getD i t₀) := by
  refine h.invariant (I := fun c => I c.shared ∧ ∀ i, T i c.shared (c.threads.getD i t₀))
    ⟨hinit, fun i => ?_⟩ (fun c t hc ht => ⟨hc.1, fun i => ?_⟩)
    (fun c i t t' s' hc hi ha => ?_)
  · exact hthreads i
  · -- a thread that has not come into being stands where it will start
    obtain rfl := hstart t ht
    have heq : (c.threads ++ [t]).getD i t = c.threads.getD i t := by
      simp only [List.getD_eq_getElem?_getD, List.getElem?_append]
      split_ifs with hlt
      · rfl
      · rw [List.getElem?_eq_none (Nat.le_of_not_lt hlt)]
        cases i - c.threads.length with
        | zero => rfl
        | succ k => rfl
    show T i c.shared ((c.threads ++ [t]).getD i t)
    rw [heq]
    exact hc.2 i
  · have hti : c.threads.getD i t₀ = t := by
      rw [List.getD_eq_getElem?_getD, hi]
      rfl
    obtain ⟨hI, hT, hothers⟩ := hact i c.shared t s' t' hc.1 (hti ▸ hc.2 i) ha
    refine ⟨hI, fun j => ?_⟩
    show T j s' ((c.threads.set i t').getD j t₀)
    by_cases hij : j = i
    · subst hij
      obtain ⟨hlt, -⟩ := List.getElem?_eq_some_iff.1 hi
      have heq : (c.threads.set j t').getD j t₀ = t' := by
        simp [List.getD_eq_getElem?_getD, hlt]
      rw [heq]
      exact hT
    · have heq : (c.threads.set i t').getD j t₀ = c.threads.getD j t₀ := by
        simp [List.getD_eq_getElem?_getD, List.getElem?_set_ne (Ne.symm hij)]
      rw [heq]
      exact hothers j _ hij (hc.2 j)

/-- The property of a thread that has come into being. -/
lemma Pool.At.getD {c : Pool σ τ} {i : ℕ} {t : τ} (h : c.At i t) (t₀ : τ) :
    c.threads.getD i t₀ = t := by
  rw [List.getD_eq_getElem?_getD, h]
  rfl

end Interleaving

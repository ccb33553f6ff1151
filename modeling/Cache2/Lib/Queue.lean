import Mathlib.Data.List.Perm.Basic

set_option relaxedAutoImplicit false
set_option autoImplicit false

/-!
# Moves between lists

When elements move between several lists, the lists together are rearranged, or gain and lose what
one move brings in and takes out. The operations that move elements are stated here up to
permutation, so that counts, lengths and membership all follow.

## Main definitions

* `Queue.swapRemove` — removal of an element by filling its place with the last one.

## Main results

* `Queue.perm_swapRemove` — what `swapRemove` takes out.
* `Queue.filterMap_set_perm`, `Queue.set_perm` — what overwriting one element takes out and brings
  in.
-/

namespace Queue

variable {α β : Type}

/-- Removes the element at `i` and fills its place with the last one. -/
def swapRemove (l : List α) (i : ℕ) : List α :=
  match l.getLast? with
  | some last => (l.set i last).dropLast
  | none => []

/-- Overwriting one element of a list, seen through a filter. -/
lemma filterMap_set_perm (f : α → Option β) {l : List α} {i : ℕ} {x : α} (h : l[i]? = some x)
    (y : α) : ((l.set i y).filterMap f ++ (f x).toList).Perm
      (l.filterMap f ++ (f y).toList) := by
  induction l generalizing i with
  | nil => simp at h
  | cons a t ih =>
    cases i with
    | zero =>
      obtain rfl : a = x := by simpa using h
      rw [List.set_cons_zero]
      have hcons : ∀ z : α, (z :: t).filterMap f = (f z).toList ++ t.filterMap f := by
        intro z
        cases hz : f z <;> simp [hz]
      rw [hcons, hcons]
      calc ((f y).toList ++ t.filterMap f ++ (f a).toList).Perm
            ((f a).toList ++ ((f y).toList ++ t.filterMap f)) := List.perm_append_comm
        List.Perm _ ((f a).toList ++ (t.filterMap f ++ (f y).toList)) :=
          List.Perm.append_left _ List.perm_append_comm
        _ = (f a).toList ++ t.filterMap f ++ (f y).toList := by rw [List.append_assoc]
    | succ j =>
      rw [List.set_cons_succ]
      have htail := ih (by simpa using h)
      cases ha : f a with
      | none => simpa [ha] using htail
      | some b => simpa [ha] using htail

/-- Overwriting one element by another with the same image. -/
lemma filterMap_set_eq (f : α → Option β) {l : List α} {i : ℕ} {x y : α} (h : l[i]? = some x)
    (hxy : f y = f x) : (l.set i y).filterMap f = l.filterMap f := by
  induction l generalizing i with
  | nil => simp at h
  | cons a t ih =>
    cases i with
    | zero =>
      obtain rfl : a = x := by simpa using h
      rw [List.set_cons_zero, List.filterMap_cons, List.filterMap_cons, hxy]
    | succ j =>
      rw [List.set_cons_succ, List.filterMap_cons, List.filterMap_cons, ih (by simpa using h)]

/-- Overwriting one element of a list. -/
lemma set_perm {l : List α} {i : ℕ} {x : α} (h : l[i]? = some x) (y : α) :
    (l.set i y ++ [x]).Perm (l ++ [y]) := by
  have := filterMap_set_perm some h y
  simpa using this

/-- What `swapRemove` takes out. -/
lemma perm_swapRemove {l : List α} {i : ℕ} {x : α} (h : l[i]? = some x) :
    l.Perm (x :: swapRemove l i) := by
  rcases List.eq_nil_or_concat' l with rfl | ⟨init, last, rfl⟩
  · simp at h
  · have hlast : (init ++ [last]).getLast? = some last := by simp
    rw [swapRemove, hlast]
    by_cases hi : i < init.length
    · rw [List.getElem?_append_left hi] at h
      simp only [List.set_append_left _ _ hi, List.dropLast_concat]
      exact (set_perm h last).symm.trans (List.perm_append_singleton _ _)
    · have hi' : i = init.length := by
        have := (List.getElem?_eq_some_iff.1 h).1
        rw [List.length_append, List.length_singleton] at this
        omega
      subst hi'
      rw [List.getElem?_concat_length, Option.some.injEq] at h
      subst h
      simp only [List.set_append_right _ _ (Nat.le_refl _), Nat.sub_self, List.set_cons_zero,
        List.dropLast_concat]
      exact List.perm_append_singleton _ _

end Queue

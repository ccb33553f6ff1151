import Mathlib.Data.List.Basic

set_option relaxedAutoImplicit false
set_option autoImplicit false

/-!
# Tilings of a range

A list of segments tiles a range when the first begins where the range does, each begins where the
one before it ends, and the last ends where the range does. No segment is empty.

## Main definitions

* `Tiling.Tiles` — a list of segments tiles a range.

## Main results

* `Tiling.Tiles.snoc` — one more segment.
* `Tiling.Tiles.pairwise` — the segments of a tiling are ordered and disjoint.
-/

namespace Tiling

/-- The segments of a list tile the range from `a` to `b`. -/
def Tiles : ℕ → List (ℕ × ℕ) → ℕ → Prop
  | a, [], b => a = b
  | a, segment :: rest, b => segment.1 = a ∧ segment.1 < segment.2 ∧ Tiles segment.2 rest b

/-- Tilings of two ranges, one after the other. -/
lemma Tiles.append {xs ys : List (ℕ × ℕ)} {b c : ℕ} (hys : Tiles b ys c) :
    ∀ {a : ℕ}, Tiles a xs b → Tiles a (xs ++ ys) c := by
  induction xs with
  | nil =>
    intro a hxs
    obtain rfl : a = b := hxs
    exact hys
  | cons x xs ih =>
    intro a hxs
    obtain ⟨hstart, hlt, hrest⟩ := hxs
    exact ⟨hstart, hlt, ih hrest⟩

/-- A tiling with one more segment at its end. -/
lemma Tiles.snoc {xs : List (ℕ × ℕ)} {a b c : ℕ} (hxs : Tiles a xs b) (hlt : b < c) :
    Tiles a (xs ++ [(b, c)]) c :=
  Tiles.append (show Tiles b [(b, c)] c from ⟨rfl, hlt, rfl⟩) hxs

/-- A range that is tiled ends after it begins. -/
lemma Tiles.le {xs : List (ℕ × ℕ)} {b : ℕ} : ∀ {a : ℕ}, Tiles a xs b → a ≤ b := by
  induction xs with
  | nil =>
    intro a hxs
    exact Nat.le_of_eq hxs
  | cons x xs ih =>
    intro a hxs
    obtain ⟨hstart, hlt, hrest⟩ := hxs
    have := ih hrest
    omega

/-- The segments of a tiling lie in its range. -/
lemma Tiles.mem_range {xs : List (ℕ × ℕ)} {b : ℕ} {x : ℕ × ℕ} :
    ∀ {a : ℕ}, Tiles a xs b → x ∈ xs → a ≤ x.1 ∧ x.1 < x.2 ∧ x.2 ≤ b := by
  induction xs with
  | nil =>
    intro a _ hx
    cases hx
  | cons y xs ih =>
    intro a hxs hx
    obtain ⟨hstart, hlt, hrest⟩ := hxs
    rcases List.mem_cons.1 hx with rfl | hx
    · exact ⟨Nat.le_of_eq hstart.symm, hlt, hrest.le⟩
    · obtain ⟨h1, h2, h3⟩ := ih hrest hx
      exact ⟨by omega, h2, h3⟩

/-- **Disjointness.** Each segment of a tiling ends before every later one begins. -/
theorem Tiles.pairwise {xs : List (ℕ × ℕ)} {b : ℕ} :
    ∀ {a : ℕ}, Tiles a xs b → xs.Pairwise fun x y => x.2 ≤ y.1 := by
  induction xs with
  | nil =>
    intro a _
    exact .nil
  | cons x xs ih =>
    intro a hxs
    obtain ⟨-, -, hrest⟩ := hxs
    exact .cons (fun y hy => (hrest.mem_range hy).1) (ih hrest)

end Tiling

/-
Intervals cut into pieces.

A piece is given by its start and its length.  Pieces tile an interval when each starts
where the one before it ends.

* `Tiles` — the pieces of an interval, in order;
* `Tiles.countP` — every place of the interval lies in exactly one piece;
* `Tiles.flatMap_slices` — what stands in the pieces is what stands in the interval;
* `Tiles.of_blocks` — an interval in blocks of one size, the last one cut off.
-/
import Mathlib.Tactic

/-- The pieces, one behind the other, lead from `a` to `b`. -/
inductive Tiles : ℕ → List (ℕ × ℕ) → ℕ → Prop
  | nil (a : ℕ) : Tiles a [] a
  | cons {a b n : ℕ} {pieces : List (ℕ × ℕ)} (h : Tiles (a + n) pieces b) :
      Tiles a ((a, n) :: pieces) b

namespace Tiles

/-- A place lies in a piece. -/
def inPiece (x : ℕ) (p : ℕ × ℕ) : Bool := p.1 ≤ x ∧ x < p.1 + p.2

variable {a b n x : ℕ} {pieces : List (ℕ × ℕ)}

theorem le (h : Tiles a pieces b) : a ≤ b := by
  induction h with
  | nil a => exact le_rfl
  | cons h ih => omega

/-- One more piece at the end. -/
theorem snoc (h : Tiles a pieces b) (n : ℕ) : Tiles a (pieces ++ [(b, n)]) (b + n) := by
  induction h with
  | nil a => exact .cons (.nil _)
  | cons h ih => exact .cons ih

/-- The pieces lie inside the interval. -/
theorem inside (h : Tiles a pieces b) : ∀ p ∈ pieces, a ≤ p.1 ∧ p.1 + p.2 ≤ b := by
  induction h with
  | nil a =>
    intro p hp
    cases hp
  | cons h ih =>
    intro p hp
    rcases List.mem_cons.mp hp with rfl | hp
    · exact ⟨le_rfl, h.le⟩
    · have hrest := ih p hp
      exact ⟨by omega, hrest.2⟩

/-- No piece holds a place in front of the interval. -/
theorem countP_eq_zero (h : Tiles a pieces b) (hx : x < a) : pieces.countP (inPiece x) = 0 := by
  rw [List.countP_eq_zero]
  intro p hp
  have hin := h.inside p hp
  simp only [inPiece, decide_eq_true_eq]
  omega

/-- **Every place lies in exactly one piece.** -/
theorem countP (h : Tiles a pieces b) (hge : a ≤ x) (hlt : x < b) :
    pieces.countP (inPiece x) = 1 := by
  induction h with
  | nil a => omega
  | @cons a b n pieces h ih =>
    rw [List.countP_cons]
    by_cases hx : x < a + n
    · rw [h.countP_eq_zero hx, if_pos (by simp only [inPiece, decide_eq_true_eq]; omega)]
    · rw [ih (by omega) hlt, if_neg (by simp only [inPiece, decide_eq_true_eq]; omega)]

/-- **The cells in the pieces**, one piece after the other, are those of the interval. -/
theorem flatMap_slices {α : Type*} (h : Tiles a pieces b) (cells : List α) :
    pieces.flatMap (fun p => (cells.drop p.1).take p.2) = (cells.drop a).take (b - a) := by
  induction h with
  | nil a => simp
  | @cons a b n pieces h ih =>
    have hle := h.le
    rw [List.flatMap_cons, ih, ← List.drop_drop, show b - a = n + (b - (a + n)) by omega,
      List.take_add]

/-- The first `n` blocks of size `c` of an interval of length `len`. -/
def blocks (c len n : ℕ) : List (ℕ × ℕ) := (List.range n).map fun i => (i * c, min c (len - i * c))

/-- Blocks that start inside the interval. -/
theorem blocks_min {c len : ℕ} : ∀ {n : ℕ}, (∀ i < n, i * c ≤ len) →
    Tiles 0 (blocks c len n) (min (n * c) len) := by
  intro n
  induction n with
  | zero =>
    intro _
    rw [Nat.zero_mul, Nat.zero_min]
    exact .nil 0
  | succ n ih =>
    intro hin
    have hn : n * c ≤ len := hin n (Nat.lt_succ_self n)
    have hrest := ih fun i hi => hin i (Nat.lt_succ_of_lt hi)
    have hend : min ((n + 1) * c) len = n * c + min c (len - n * c) := by
      rw [Nat.succ_mul]
      omega
    rw [min_eq_left hn] at hrest
    rw [blocks, List.range_succ, List.map_append, hend]
    exact hrest.snoc _

/-- **The blocks tile the interval**, when there are just enough of them. -/
theorem of_blocks {c len n : ℕ} (henough : len ≤ n * c) (hin : ∀ i < n, i * c ≤ len) :
    Tiles 0 (blocks c len n) len := by
  have h := blocks_min hin
  rwa [min_eq_right henough] at h

end Tiles

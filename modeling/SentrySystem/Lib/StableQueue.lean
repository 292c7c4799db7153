/-
Stable priority queues.

The queue is kept as a list sorted by priority.  What it stands for is the list of what
is pending in the order of arrival: the next element is the earliest one among those of
the highest priority.

* `StableSorted p l pending` — `l` is `pending` sorted by priority, in the order of arrival
  within each priority;
* `StableSorted.insert` — a new element goes behind the last one of no lower priority;
* `StableSorted.first` — the first element is the one to serve next.
-/
import Mathlib.Data.List.DropRight
import Mathlib.Tactic

variable {α : Type}

/-- `l` holds what is pending, sorted by priority and stable. -/
structure StableSorted (p : α → ℕ) (l pending : List α) : Prop where
  sorted : l.Pairwise fun a b => p b ≤ p a
  stable : ∀ k, l.filter (fun a => decide (p a = k)) = pending.filter fun a => decide (p a = k)

namespace StableSorted

variable {p : α → ℕ} {l pending : List α}

theorem nil : StableSorted p ([] : List α) [] := ⟨.nil, fun _ => rfl⟩

/-- Nothing is lost or doubled. -/
theorem perm (h : StableSorted p l pending) : l.Perm pending := by
  classical
  rw [List.perm_iff_count]
  intro a
  -- `a` occurs among the elements of its own priority only
  have hcount : ∀ l' : List α, l'.count a = (l'.filter fun b => decide (p b = p a)).count a := by
    intro l'
    rw [List.count_filter]
    simp
  rw [hcount l, hcount pending, h.stable]

/-- What stands behind the place of `x` has a lower priority. -/
theorem lt_of_mem_rtakeWhile {x y : α}
    (hy : y ∈ l.rtakeWhile fun a => decide (p a < p x)) : p y < p x := by
  have h := List.mem_rtakeWhile_imp hy
  simpa using h

/-- What stands before the place of `x` has no lower priority. -/
theorem le_of_mem_rdropWhile (hl : l.Pairwise fun a b => p b ≤ p a) {x y : α}
    (hy : y ∈ l.rdropWhile fun a => decide (p a < p x)) : p x ≤ p y := by
  have hne : l.rdropWhile (fun a => decide (p a < p x)) ≠ [] := List.ne_nil_of_mem hy
  -- the last one stopped the search, the others are no lower than it
  have hlast := List.rdropWhile_last_not (fun a => decide (p a < p x)) l hne
  have hsorted : (l.rdropWhile fun a => decide (p a < p x)).Pairwise fun a b => p b ≤ p a :=
    hl.sublist (List.rdropWhile_prefix _ _).sublist
  have hle : p (List.getLast _ hne) ≤ p y := by
    rw [← List.dropLast_append_getLast hne, List.pairwise_append] at hsorted
    rw [← List.dropLast_append_getLast hne, List.mem_append, List.mem_singleton] at hy
    rcases hy with hy | hy
    · exact hsorted.2.2 y hy _ (List.mem_singleton_self _)
    · rw [← hy]
  have hx : ¬ p (List.getLast _ hne) < p x := by simpa using hlast
  omega

/-- **Insertion**: a new element goes behind the last one of no lower priority. -/
theorem insert (h : StableSorted p l pending) (x : α) :
    StableSorted p (l.rdropWhile (fun a => decide (p a < p x)) ++
      x :: l.rtakeWhile fun a => decide (p a < p x)) (pending ++ [x]) := by
  set front := l.rdropWhile fun a => decide (p a < p x) with hfront
  set back := l.rtakeWhile fun a => decide (p a < p x) with hback
  have hsplit : front ++ back = l := List.rdropWhile_append_rtakeWhile
  have hlow : ∀ y ∈ back, p y < p x := fun y hy => lt_of_mem_rtakeWhile hy
  have hhigh : ∀ y ∈ front, p x ≤ p y := fun y hy => le_of_mem_rdropWhile h.sorted hy
  have hl := h.sorted
  rw [← hsplit, List.pairwise_append] at hl
  constructor
  · rw [List.pairwise_append, List.pairwise_cons]
    refine ⟨hl.1, ⟨fun y hy => (hlow y hy).le, hl.2.1⟩, ?_⟩
    intro y hy z hz
    rcases List.mem_cons.mp hz with rfl | hz
    · exact hhigh y hy
    · exact hl.2.2 y hy z hz
  · intro k
    rw [List.filter_append, List.filter_cons, List.filter_append, ← h.stable, ← hsplit,
      List.filter_append]
    by_cases hk : p x = k
    · -- nothing of this priority stands behind the new element
      have hnone : back.filter (fun a => decide (p a = k)) = [] := by
        rw [List.filter_eq_nil_iff]
        intro y hy
        have := hlow y hy
        simp
        omega
      rw [hnone]
      simp [hk]
    · simp [hk]

/-- **The first element** is the earliest pending one of the highest priority. -/
theorem first {x : α} {rest : List α} (h : StableSorted p (x :: rest) pending) :
    ∃ before after, pending = before ++ x :: after ∧ (∀ y ∈ before, p y < p x) ∧
      (∀ y ∈ after, p y ≤ p x) ∧ StableSorted p rest (before ++ after) := by
  have hsorted := List.pairwise_cons.mp h.sorted
  have hmax : ∀ y ∈ pending, p y ≤ p x := by
    intro y hy
    rcases List.mem_cons.mp (h.perm.mem_iff.mpr hy) with rfl | hy
    · exact Nat.le_refl _
    · exact hsorted.1 y hy
  have hclass := h.stable (p x)
  rw [List.filter_cons, if_pos (by simp)] at hclass
  obtain ⟨before, after, hpending, hbefore, -, hafter⟩ :=
    List.filter_eq_cons_iff.mp hclass.symm
  refine ⟨before, after, hpending, ?_, ?_, hsorted.2, ?_⟩
  · intro y hy
    have hne : p y ≠ p x := by simpa using hbefore y hy
    have hle := hmax y (by rw [hpending]; simp [hy])
    omega
  · intro y hy
    exact hmax y (by rw [hpending]; simp [hy])
  · intro k
    have hk := h.stable k
    rw [hpending, List.filter_cons, List.filter_append, List.filter_cons] at hk
    rw [List.filter_append]
    by_cases hx : p x = k
    · -- only `x` and what came after it has its priority
      subst hx
      have hnone : before.filter (fun a => decide (p a = p x)) = [] := by
        rw [List.filter_eq_nil_iff]
        exact hbefore
      rw [hnone, List.nil_append, hafter]
    · simpa [hx] using hk

end StableSorted

/-
Transfers in pieces.

A number of items is to be moved from the front of a source.  Every attempt moves some of
those still wanted, asks for another attempt, or ends the transfer.

* `transfer` — the loop over the attempts;
* `transfer_spec` — what was moved is a prefix of the source, and the transfer is complete
  exactly when all that was wanted was moved;
* `transfer_complete` — attempts that keep moving items complete it.
-/
import Mathlib.Tactic

universe u

variable {α : Type u}

/-- What an attempt does: it moves up to `n` items, and ends the transfer if it moves none;
it is to be repeated; it ends the transfer. -/
inductive Attempt
  | upTo (n : ℕ)
  | again
  | stop
  deriving DecidableEq, Repr

/-- How far a transfer came: everything was moved; an attempt ended it; the next attempt is
still awaited. -/
inductive Ending
  | complete
  | stopped
  | blocked
  deriving DecidableEq, Repr

/-- Move `want` items from the front of `source`: the ending, and the items moved. -/
def transfer : List Attempt → ℕ → List α → Ending × List α
  | [], want, _ => (if want = 0 then .complete else .blocked, [])
  | a :: as, want, source =>
    if want = 0 then (.complete, [])
    else
      match a with
      | .again => transfer as want source
      | .stop => (.stopped, [])
      | .upTo n =>
        let piece := source.take (min n want)
        if piece = [] then (.stopped, [])
        else
          let rest := transfer as (want - piece.length) (source.drop piece.length)
          (rest.1, piece ++ rest.2)

@[simp] theorem transfer_zero (as : List Attempt) (source : List α) :
    transfer as 0 source = (.complete, []) := by
  cases as with
  | nil => rfl
  | cons a as =>
    unfold transfer
    exact if_pos rfl

theorem transfer_nil {want : ℕ} (h : want ≠ 0) (source : List α) :
    transfer [] want source = (.blocked, []) := by
  rw [transfer, if_neg h]

theorem transfer_again {want : ℕ} (h : want ≠ 0) (as : List Attempt) (source : List α) :
    transfer (.again :: as) want source = transfer as want source := by
  rw [transfer, if_neg h]

theorem transfer_stop {want : ℕ} (h : want ≠ 0) (as : List Attempt) (source : List α) :
    transfer (.stop :: as) want source = (.stopped, []) := by
  rw [transfer, if_neg h]

/-- An attempt that finds nothing to move ends the transfer. -/
theorem transfer_upTo_nil {want n : ℕ} {source : List α} (h : want ≠ 0)
    (hpiece : source.take (min n want) = []) (as : List Attempt) :
    transfer (.upTo n :: as) want source = (.stopped, []) := by
  rw [transfer, if_neg h]
  exact if_pos hpiece

theorem transfer_upTo {want n : ℕ} {source piece : List α} (h : want ≠ 0)
    (hpiece : source.take (min n want) = piece) (hne : piece ≠ []) (as : List Attempt) :
    transfer (.upTo n :: as) want source =
      ((transfer as (want - piece.length) (source.drop piece.length)).1,
        piece ++ (transfer as (want - piece.length) (source.drop piece.length)).2) := by
  subst hpiece
  rw [transfer, if_neg h]
  exact if_neg hne

/-- **What was moved is a prefix of the source**, and all of what was wanted exactly when the
transfer is complete. -/
theorem transfer_spec (as : List Attempt) : ∀ (want : ℕ) (source : List α),
    (transfer as want source).2 <+: source ∧ (transfer as want source).2.length ≤ want ∧
      ((transfer as want source).1 = .complete ↔ (transfer as want source).2.length = want) := by
  induction as with
  | nil =>
    intro want source
    by_cases hzero : want = 0
    · subst hzero
      simp
    · rw [transfer_nil hzero]
      simp [Ne.symm hzero]
  | cons a as ih =>
    intro want source
    by_cases hzero : want = 0
    · subst hzero
      simp
    cases a with
    | again =>
      rw [transfer_again hzero]
      exact ih want source
    | stop =>
      rw [transfer_stop hzero]
      simp [Ne.symm hzero]
    | upTo n =>
      by_cases hpiece : source.take (min n want) = []
      · rw [transfer_upTo_nil hzero hpiece]
        simp [Ne.symm hzero]
      · rw [transfer_upTo hzero rfl hpiece]
        have hlen : (source.take (min n want)).length ≤ want :=
          (List.length_take_le _ _).trans (min_le_right _ _)
        obtain ⟨⟨rest, hrest⟩, hle, hcomplete⟩ := ih (want - (source.take (min n want)).length)
          (source.drop (source.take (min n want)).length)
        refine ⟨⟨rest, ?_⟩, ?_, ?_⟩
        · rw [List.append_assoc, hrest, List.prefix_iff_eq_append.mp (List.take_prefix _ _)]
        · rw [List.length_append]
          omega
        · rw [hcomplete, List.length_append]
          omega

/-- The number of items an attempt can move. -/
def Attempt.room : Attempt → ℕ
  | upTo n => n
  | _ => 0

/-- **Attempts that keep moving items complete the transfer**, if together they have room for
what is wanted. -/
theorem transfer_complete {as : List Attempt} : ∀ {want : ℕ} {source : List α},
    want ≤ source.length → (∀ a ∈ as, a ≠ .stop ∧ a ≠ .upTo 0) →
    want ≤ (as.map Attempt.room).sum → (transfer as want source).1 = .complete := by
  induction as with
  | nil =>
    intro want source _ _ hroom
    obtain rfl : want = 0 := Nat.le_zero.mp hroom
    rw [transfer_zero]
  | cons a as ih =>
    intro want source hsource hgood hroom
    have hrest : ∀ b ∈ as, b ≠ .stop ∧ b ≠ .upTo 0 :=
      fun b hb => hgood b (List.mem_cons_of_mem _ hb)
    by_cases hzero : want = 0
    · rw [hzero, transfer_zero]
    rw [List.map_cons, List.sum_cons] at hroom
    cases a with
    | again =>
      rw [transfer_again hzero]
      exact ih hsource hrest (by simpa [Attempt.room] using hroom)
    | stop => exact absurd rfl (hgood .stop List.mem_cons_self).1
    | upTo n =>
      have hn : n ≠ 0 := fun hn => (hgood _ List.mem_cons_self).2 (hn ▸ rfl)
      have hlen : (source.take (min n want)).length = min n want := by
        rw [List.length_take]
        omega
      have hpiece : source.take (min n want) ≠ [] := by
        intro hnil
        rw [hnil, List.length_nil] at hlen
        omega
      rw [transfer_upTo hzero rfl hpiece]
      refine ih ?_ hrest ?_
      · rw [List.length_drop]
        omega
      · rw [hlen]
        simp only [Attempt.room] at hroom
        omega

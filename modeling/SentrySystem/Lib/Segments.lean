/-
Segments of a trace.

A trace grows at its end.  A segment starts behind an event and runs on until an
event that closes it; it is open as long as none has.

* `OpenSegment`, `ClosedSegment` — the segments of a trace;
* `openSegment_snoc`, `closedSegment_snoc` — what one more event does to them: the
  induction rules for statements about all segments of a growing trace.
-/
import Mathlib.Tactic

universe u

variable {α : Type u}

/-- `mid` is all that followed an event `x` of the trace, and nothing in it closes. -/
def OpenSegment (closes : α → Prop) (tr : List α) (x : α) (mid : List α) : Prop :=
  ∃ pre, tr = pre ++ x :: mid ∧ ∀ e ∈ mid, ¬ closes e

/-- `mid` is what followed an event `x` of the trace until `y`, the first event behind
`x` that closes. -/
def ClosedSegment (closes : α → Prop) (tr : List α) (x : α) (mid : List α) (y : α) : Prop :=
  ∃ pre post, tr = pre ++ x :: (mid ++ y :: post) ∧ (∀ e ∈ mid, ¬ closes e) ∧ closes y

theorem not_openSegment_nil {closes : α → Prop} {x : α} {mid : List α} :
    ¬ OpenSegment closes [] x mid := by
  rintro ⟨pre, h, -⟩
  simp at h

theorem not_closedSegment_nil {closes : α → Prop} {x y : α} {mid : List α} :
    ¬ ClosedSegment closes [] x mid y := by
  rintro ⟨pre, post, h, -⟩
  simp at h

/-- The end of a trace, found in a split of it. -/
theorem append_singleton_eq {tr pre mid : List α} {e x : α} (h : tr ++ [e] = pre ++ x :: mid) :
    (mid = [] ∧ tr = pre ∧ e = x) ∨ ∃ mid', mid = mid' ++ [e] ∧ tr = pre ++ x :: mid' := by
  -- the last event of the trace is `x` itself, or the last of `mid`
  rcases List.eq_nil_or_concat mid with rfl | ⟨mid', b, rfl⟩
  · have hlast := List.append_inj' h rfl
    exact .inl ⟨rfl, hlast.1, by simpa using hlast.2⟩
  · have hassoc : pre ++ x :: (mid' ++ [b]) = (pre ++ x :: mid') ++ [b] := by simp
    rw [List.concat_eq_append, hassoc] at h
    have hlast := List.append_inj' h rfl
    have hb : e = b := by simpa using hlast.2
    exact .inr ⟨mid', by rw [List.concat_eq_append, hb], hlast.1⟩

/-- **An open segment of a longer trace** starts with the new event or was open before. -/
theorem openSegment_snoc {closes : α → Prop} {tr mid : List α} {e x : α}
    (h : OpenSegment closes (tr ++ [e]) x mid) :
    (mid = [] ∧ e = x) ∨
      ∃ mid', mid = mid' ++ [e] ∧ ¬ closes e ∧ OpenSegment closes tr x mid' := by
  obtain ⟨pre, h, hmid⟩ := h
  rcases append_singleton_eq h with ⟨hnil, -, he⟩ | ⟨mid', rfl, htr⟩
  · exact .inl ⟨hnil, he⟩
  · exact .inr ⟨mid', rfl, hmid e (by simp), pre, htr,
      fun b hb => hmid b (List.mem_append_left _ hb)⟩

/-- **A closed segment of a longer trace** was closed before, or was open and is closed
by the new event. -/
theorem closedSegment_snoc {closes : α → Prop} {tr mid : List α} {e x y : α}
    (h : ClosedSegment closes (tr ++ [e]) x mid y) :
    ClosedSegment closes tr x mid y ∨ (e = y ∧ closes e ∧ OpenSegment closes tr x mid) := by
  obtain ⟨pre, post, h, hmid, hy⟩ := h
  have hassoc : pre ++ x :: (mid ++ y :: post) = (pre ++ x :: mid) ++ y :: post := by simp
  rw [hassoc] at h
  rcases append_singleton_eq h with ⟨rfl, htr, rfl⟩ | ⟨post', rfl, htr⟩
  · exact .inr ⟨rfl, hy, pre, htr, hmid⟩
  · exact .inl ⟨pre, post', by rw [htr]; simp, hmid, hy⟩

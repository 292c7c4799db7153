/-
A mailbox with one slot, and requests that must be followed by an answer.

A letter is posted into the slot, over whatever is there; one reader takes the letter
out of the slot into its hand and serves it later.

* `Mailbox.InOrder` — every letter posted is served once and in order, but for the
  one in hand and the one in the slot;
* `InOrder.step` — kept as long as nobody posts into a full slot;
* `not_inOrder_post` — and lost with the first letter posted into one;
* `Followed`, `owed` — every request in a history has a later answer, or one is due.
-/
import SentrySystem.Lib.Transition

universe u

/-! ### One slot -/

/-- A mailbox: its slot, the reader's hand, the letters posted, the letters served. -/
structure Mailbox (α : Type u) where
  slot : Option α
  hand : Option α
  posted : List α
  served : List α

namespace Mailbox

variable {α : Type u}

/-- The moves of the senders and of the reader. -/
inductive Action (α : Type u)
  | post (a : α)
  | take
  | serve

/-- One move. -/
def step (m : Mailbox α) : Action α → Option (Mailbox α)
  | .post a => some { m with slot := some a, posted := m.posted ++ [a] }
  | .take =>
    match m.slot, m.hand with
    | some a, none => some { m with slot := none, hand := some a }
    | _, _ => none
  | .serve => m.hand.map fun a => { m with hand := none, served := m.served ++ [a] }

/-- The mailbox from the start. -/
def system (α : Type u) : TransitionSystem (Mailbox α) (Action α) := ⟨⟨none, none, [], []⟩, step⟩

/-- The letters not served yet. -/
def outstanding (m : Mailbox α) : List α := m.hand.toList ++ m.slot.toList

/-- Every letter posted is served once, in order, or is outstanding. -/
def InOrder (m : Mailbox α) : Prop := m.posted = m.served ++ m.outstanding

/-- Everything a move can do. -/
inductive Moved (m : Mailbox α) : Action α → Mailbox α → Prop
  | post (a : α) : Moved m (.post a) { m with slot := some a, posted := m.posted ++ [a] }
  | take (a : α) (hslot : m.slot = some a) (hhand : m.hand = none) :
      Moved m .take { m with slot := none, hand := some a }
  | serve (a : α) (hhand : m.hand = some a) :
      Moved m .serve { m with hand := none, served := m.served ++ [a] }

theorem step_cases {m n : Mailbox α} {x : Action α} (h : m.step x = some n) : Moved m x n := by
  cases x with
  | post a =>
    rw [step, Option.some_inj] at h
    exact h ▸ .post a
  | take =>
    rw [step] at h
    split at h
    · next a hslot hhand =>
      rw [Option.some_inj] at h
      exact h ▸ .take a hslot hhand
    · simp at h
  | serve =>
    rw [step, Option.map_eq_some_iff] at h
    obtain ⟨a, hhand, rfl⟩ := h
    exact .serve a hhand

/-- **Nothing is lost while nobody posts into a full slot.** -/
theorem InOrder.step {m n : Mailbox α} {x : Action α} (h : m.InOrder)
    (hfree : ∀ a, x = .post a → m.slot = none) (hstep : m.step x = some n) : n.InOrder := by
  unfold InOrder outstanding at h ⊢
  cases step_cases hstep with
  | post a =>
    rw [hfree a rfl] at h
    simp [h]
  | take a hslot hhand =>
    rw [hslot, hhand] at h
    simp [h]
  | serve a hhand =>
    rw [hhand] at h
    simp [h]

/-- No letter is served or outstanding that was not posted. -/
theorem length_le_of_reachable {m : Mailbox α} (hm : (system α).Reachable m) :
    m.served.length + m.outstanding.length ≤ m.posted.length := by
  refine hm.invariant (P := fun m => m.served.length + m.outstanding.length ≤ m.posted.length)
    le_rfl ?_
  intro m x n ih _ hstep
  unfold outstanding at ih ⊢
  rw [List.length_append] at ih ⊢
  cases step_cases hstep with
  | post a =>
    simp only [Option.toList_some, List.length_append, List.length_singleton]
    omega
  | take a hslot hhand =>
    simp only [hslot, hhand, Option.toList_some, Option.toList_none, List.length_singleton,
      List.length_nil] at ih ⊢
    omega
  | serve a hhand =>
    simp only [hhand, Option.toList_some, Option.toList_none, List.length_append,
      List.length_singleton, List.length_nil] at ih ⊢
    omega

/-- **A letter posted into a full slot costs one.** -/
theorem not_inOrder_post {m n : Mailbox α} (hm : (system α).Reachable m) {a : α}
    (hfull : m.slot ≠ none) (hstep : m.step (.post a) = some n) : ¬ n.InOrder := by
  intro h
  have hle := length_le_of_reachable hm
  obtain ⟨b, hb⟩ := Option.ne_none_iff_exists'.mp hfull
  cases step_cases hstep with
  | post a =>
    have hlen := congrArg List.length h
    simp only [outstanding, hb, List.length_append, Option.toList_some, List.length_singleton]
      at hle hlen
    omega

end Mailbox

/-! ### Requests and answers -/

section Followed

variable {ε : Type u} [DecidableEq ε]

/-- Every request in the history is followed by an answer, or one is due. -/
def Followed (req ans : ε) (due : Prop) (events : List ε) : Prop :=
  ∀ before after, events = before ++ req :: after → ans ∈ after ∨ due

/-- The last of the requests and answers in the history is a request. -/
def owed (req ans : ε) (events : List ε) : Bool :=
  events.foldl (fun o e => if e = ans then false else if e = req then true else o) false

@[simp] theorem owed_append_ans (req ans : ε) (events : List ε) :
    owed req ans (events ++ [ans]) = false := by
  simp [owed]

@[simp] theorem owed_append_req {req ans : ε} (hne : req ≠ ans) (events : List ε) :
    owed req ans (events ++ [req]) = true := by
  simp [owed, hne]

theorem owed_append_other {req ans e : ε} (hreq : e ≠ req) (hans : e ≠ ans) (events : List ε) :
    owed req ans (events ++ [e]) = owed req ans events := by
  simp [owed, hreq, hans]

/-- An answer is owed exactly if some request has no answer behind it. -/
theorem owed_iff {req ans : ε} (hne : req ≠ ans) (events : List ε) :
    owed req ans events = true ↔
      ∃ before after, events = before ++ req :: after ∧ ans ∉ after := by
  induction events using List.reverseRecOn with
  | nil => simp [owed]
  | append_singleton events e ih =>
    by_cases hans : e = ans
    · subst hans
      rw [owed_append_ans]
      refine iff_of_false (by simp) ?_
      rintro ⟨before, after, heq, hnot⟩
      -- the answer at the end is behind every request
      rcases List.eq_nil_or_concat' after with rfl | ⟨after, x, rfl⟩
      · exact hne (List.append_inj_right' heq rfl |> List.singleton_inj.mp).symm
      · have hlast : e = x := by
          rw [← List.cons_append, ← List.append_assoc] at heq
          exact List.singleton_inj.mp (List.append_inj_right' heq rfl)
        exact hnot (hlast ▸ List.mem_append_right _ (List.mem_singleton_self _))
    · by_cases hreq : e = req
      · subst hreq
        rw [owed_append_req hne]
        exact iff_of_true rfl ⟨events, [], rfl, List.not_mem_nil⟩
      · rw [owed_append_other hreq hans, ih]
        constructor
        · rintro ⟨before, after, rfl, hnot⟩
          refine ⟨before, after ++ [e], by simp, ?_⟩
          simpa [hnot] using fun h => hans h.symm
        · rintro ⟨before, after, heq, hnot⟩
          rcases List.eq_nil_or_concat' after with rfl | ⟨after, x, rfl⟩
          · exact absurd (List.singleton_inj.mp (List.append_inj_right' heq rfl)) hreq
          · rw [← List.cons_append, ← List.append_assoc] at heq
            refine ⟨before, after, List.append_inj_left' heq rfl, ?_⟩
            intro hmem
            exact hnot (List.mem_append_left _ hmem)

theorem followed_iff {req ans : ε} (hne : req ≠ ans) {due : Prop} (events : List ε) :
    Followed req ans due events ↔ (owed req ans events = true → due) := by
  rw [owed_iff hne]
  constructor
  · rintro h ⟨before, after, heq, hnot⟩
    exact (h before after heq).resolve_left hnot
  · intro h before after heq
    by_cases hmem : ans ∈ after
    · exact .inl hmem
    · exact .inr (h ⟨before, after, heq, hmem⟩)

end Followed

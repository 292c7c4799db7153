/-
The queue of the `MSG_ENABLE_PRIORITY` build.

Calls of `msg_send` and `msg_receive` in any order, each between taking and giving back
the queue's lock; what the messages are about does not matter here, so any message can be
sent at any time.

* `queueSystem` — the calls on the queue, with the messages received so far;
* `Pending` — the array is the messages accepted and not yet received, sorted by priority
  and stable;
* `priorityQueue_stable` — nothing is lost or doubled, and what is received is the earliest
  message of the highest priority.
-/
import SentrySystem.MsgDeliver
import SentrySystem.Lib.StableQueue

namespace Sentry

open MsgQueue

/-- The value `msg_queue_push` compares. -/
def Entry.rank (e : Entry) : ℕ := e.queued.priority.code

/-- The queue's module and the messages received so far. -/
structure QueueCalls where
  msgs : MsgState
  received : List Entry

/-- A call on the queue. -/
inductive QueueAction
  | msgSend (msg : CommonMsg) (bytes : List UInt8)
  | msgReceive

/-- One call. -/
def queueStep (s : QueueCalls) : QueueAction → Option QueueCalls
  | .msgSend msg bytes =>
    some { s with msgs := Sentry.msgSend .msgEnablePriority s.msgs msg bytes }
  | .msgReceive =>
    (Sentry.msgReceive s.msgs).map fun t =>
      { msgs := t, received := s.received ++ t.current.toList.map Prod.snd }

/-- The calls on the queue. -/
def queueSystem : TransitionSystem QueueCalls QueueAction := ⟨⟨.init, []⟩, queueStep⟩

/-- Everything a call can do. -/
inductive QueueStep (s : QueueCalls) : QueueAction → QueueCalls → Prop
  | accept (msg : CommonMsg) (bytes : List UInt8) (e : Entry) (t : MsgState)
      (he : e.call = s.msgs.nextCall)
      (hitems : t.queue.items = s.msgs.queue.items.rdropWhile (fun x => decide (x.rank < e.rank)) ++
        e :: s.msgs.queue.items.rtakeWhile fun x => decide (x.rank < e.rank))
      (haccepted : t.accepted = s.msgs.accepted ++ [e])
      (hnext : t.nextCall = s.msgs.nextCall + 1) :
      QueueStep s (.msgSend msg bytes) { s with msgs := t }
  | refuse (msg : CommonMsg) (bytes : List UInt8) (t : MsgState)
      (hitems : t.queue.items = s.msgs.queue.items) (haccepted : t.accepted = s.msgs.accepted)
      (hnext : t.nextCall = s.msgs.nextCall + 1) :
      QueueStep s (.msgSend msg bytes) { s with msgs := t }
  | receive (e : Entry) (t : MsgState) (hitems : s.msgs.queue.items = e :: t.queue.items)
      (haccepted : t.accepted = s.msgs.accepted) (hnext : t.nextCall = s.msgs.nextCall) :
      QueueStep s .msgReceive ⟨t, s.received ++ [e]⟩

theorem queueStep_cases {s t : QueueCalls} {a : QueueAction} (h : queueStep s a = some t) :
    QueueStep s a t := by
  cases a with
  | msgSend msg bytes =>
    simp only [queueStep, Option.some_inj] at h
    subst h
    by_cases hroom : s.msgs.queue.count < maxMsgQueueSize
    · refine .accept msg bytes (acceptedEntry s.msgs msg bytes) _ rfl ?_ ?_ ?_
      · rw [msgSend, dif_pos hroom]
        exact items_push_priority Entry.rank _ _ hroom
      · rw [msgSend, dif_pos hroom]
        rfl
      · rw [msgSend, dif_pos hroom]
    · refine .refuse msg bytes _ ?_ ?_ ?_ <;> rw [msgSend, dif_neg hroom]
  | msgReceive =>
    simp only [queueStep, msgReceive, Option.map_map, Option.map_eq_some_iff] at h
    obtain ⟨⟨e, q⟩, hq, rfl⟩ := h
    exact .receive e _ (items_pop hq) rfl rfl

/-! ### What is pending -/

/-- The array is `pending`, sorted by priority and stable, and `pending` is what was
accepted and not yet received, in the order of the calls. -/
structure Pending (s : QueueCalls) (pending : List Entry) : Prop where
  stable : StableSorted Entry.rank s.msgs.queue.items pending
  ordered : pending.Pairwise fun a b => a.call < b.call
  numbered : s.msgs.accepted.Pairwise fun a b => a.call < b.call
  lt_nextCall : ∀ e ∈ s.msgs.accepted, e.call < s.msgs.nextCall
  conserved : (s.received ++ pending).Perm s.msgs.accepted

theorem Pending.init : Pending queueSystem.init [] where
  stable := .nil
  ordered := .nil
  numbered := .nil
  lt_nextCall := fun _ he => nomatch he
  conserved := .nil

theorem Pending.mem_accepted {s : QueueCalls} {pending : List Entry} (h : Pending s pending)
    {e : Entry} (he : e ∈ pending) : e ∈ s.msgs.accepted :=
  h.conserved.mem_iff.mp (List.mem_append_right _ he)

theorem Pending.step {s t : QueueCalls} {a : QueueAction} {pending : List Entry}
    (h : Pending s pending) (hstep : queueStep s a = some t) : ∃ pending', Pending t pending' := by
  rcases queueStep_cases hstep with
    ⟨msg, bytes, e, t, he, hitems, haccepted, hnext⟩ | ⟨msg, bytes, t, hitems, haccepted, hnext⟩ |
    ⟨e, t, hitems, haccepted, hnext⟩
  · -- a message accepted is the latest one
    have hlt : ∀ x ∈ s.msgs.accepted, x.call < e.call := by
      intro x hx
      rw [he]
      exact h.lt_nextCall x hx
    refine ⟨pending ++ [e], ?_, ?_, ?_, ?_, ?_⟩
    · show StableSorted Entry.rank t.queue.items _
      rw [hitems]
      exact h.stable.insert e
    · rw [List.pairwise_append]
      refine ⟨h.ordered, List.pairwise_singleton _ _, ?_⟩
      intro x hx y hy
      rw [List.mem_singleton] at hy
      subst hy
      exact hlt x (h.mem_accepted hx)
    · show t.accepted.Pairwise _
      rw [haccepted, List.pairwise_append]
      refine ⟨h.numbered, List.pairwise_singleton _ _, ?_⟩
      intro x hx y hy
      rw [List.mem_singleton] at hy
      subst hy
      exact hlt x hx
    · intro x hx
      show x.call < t.nextCall
      rw [hnext]
      rcases List.mem_append.mp (haccepted ▸ hx) with hx | hx
      · exact Nat.lt_succ_of_lt (h.lt_nextCall x hx)
      · rw [List.mem_singleton.mp hx, he]
        exact Nat.lt_succ_self _
    · show (s.received ++ (pending ++ [e])).Perm t.accepted
      rw [haccepted, ← List.append_assoc]
      exact h.conserved.append_right [e]
  · -- a message refused leaves the queue alone
    refine ⟨pending, hitems ▸ h.stable, h.ordered, haccepted ▸ h.numbered, ?_,
      haccepted ▸ h.conserved⟩
    intro x hx
    show x.call < t.nextCall
    rw [hnext]
    exact Nat.lt_succ_of_lt (h.lt_nextCall x (haccepted ▸ hx))
  · -- the earliest message of the highest priority is received
    obtain ⟨before, after, rfl, -, -, hrest⟩ := (hitems ▸ h.stable).first
    have hordered := h.ordered
    refine ⟨before ++ after, hrest, ?_, haccepted ▸ h.numbered, ?_, ?_⟩
    · exact hordered.sublist ((List.Sublist.refl before).append (List.sublist_cons_self e after))
    · intro x hx
      show x.call < t.nextCall
      rw [hnext]
      exact h.lt_nextCall x (haccepted ▸ hx)
    · show (s.received ++ [e] ++ (before ++ after)).Perm t.accepted
      rw [haccepted, List.append_assoc]
      have hmiddle : (e :: (before ++ after)).Perm (before ++ e :: after) :=
        List.perm_middle.symm
      exact (hmiddle.append_left s.received).trans h.conserved

theorem exists_pending {s : QueueCalls} (h : queueSystem.Reachable s) :
    ∃ pending, Pending s pending :=
  TransitionSystem.Via.invariant (P := fun s => ∃ pending, Pending s pending) ⟨[], .init⟩
    (fun _ _ _ ⟨_, hp⟩ _ hstep => hp.step hstep) h

/-- **The queue of the priority build is a stable priority queue**: its array is sorted by
priority, the messages received and those in the array are the accepted ones, each once,
and a call of `msg_receive` returns, among the messages of the highest priority in the
array, the one accepted first. -/
theorem priorityQueue_stable (as : List QueueAction) {s : QueueCalls}
    (h : queueSystem.run queueSystem.init as = some s) :
    s.msgs.queue.items.Pairwise (fun a b => b.rank ≤ a.rank) ∧
      (s.received ++ s.msgs.queue.items).Perm s.msgs.accepted ∧
      s.msgs.accepted.Pairwise (fun a b => a.call < b.call) ∧
      ∀ t, queueSystem.step s .msgReceive = some t → ∃ e, t.received = s.received ++ [e] ∧
        s.msgs.queue.items = e :: t.msgs.queue.items ∧
        ∀ x ∈ s.msgs.queue.items, x.rank < e.rank ∨ (x.rank = e.rank ∧ e.call ≤ x.call) := by
  obtain ⟨pending, hp⟩ := exists_pending (.of_run h)
  refine ⟨hp.stable.sorted, ?_, hp.numbered, ?_⟩
  · exact (List.Perm.append_left _ hp.stable.perm).trans hp.conserved
  · intro t ht
    have hstep : QueueStep s .msgReceive t := queueStep_cases ht
    cases hstep with
    | receive e t hitems =>
      refine ⟨e, rfl, hitems, ?_⟩
      intro x hx
      obtain ⟨before, after, hpending, hbefore, hafter, -⟩ := (hitems ▸ hp.stable).first
      have hmem := hp.stable.perm.mem_iff.mp hx
      have hordered := hp.ordered
      rw [hpending, List.pairwise_append, List.pairwise_cons] at hordered
      rw [hpending, List.mem_append, List.mem_cons] at hmem
      rcases hmem with hmem | rfl | hmem
      · exact .inl (hbefore x hmem)
      · exact .inr ⟨rfl, Nat.le_refl _⟩
      · rcases Nat.lt_or_eq_of_le (hafter x hmem) with hlt | heq
        · exact .inl hlt
        · exact .inr ⟨heq, (hordered.2.1.1 x hmem).le⟩

/-- Four messages, two of them urgent, and three receives. -/
def urgentOvertakes : List QueueAction :=
  [.msgSend ⟨.v4l2, .alarm, 0, .image, .low, .null⟩ [],
    .msgSend ⟨.tcpRecv, .command, 0, .command, .urgent, .null⟩ [],
    .msgSend ⟨.v4l2, .alarm, 0, .image, .low, .null⟩ [],
    .msgSend ⟨.tcpRecv, .command, 0, .command, .urgent, .null⟩ [],
    .msgReceive, .msgReceive, .msgReceive]

theorem priorityQueue_stable_urgent : ∃ s, queueSystem.run queueSystem.init urgentOvertakes = some s ∧
    s.received.map Entry.call = [1, 3, 0] ∧
    (s.received ++ s.msgs.queue.items).Perm s.msgs.accepted := by
  refine ⟨_, rfl, rfl, ?_⟩
  have hrun : queueSystem.run queueSystem.init urgentOvertakes = some _ := rfl
  exact (priorityQueue_stable urgentOvertakes hrun).2.1

end Sentry

/-
A bounded queue in front of a single server.

Items arrive at a queue of limited capacity; the server fetches the oldest one,
serves it, and then lets it go.  The capacity is a field of the queue, so no
operation can exceed it.

* `BoundedFifo` — the queue, with `enqueue` and `dequeue`;
* `Server` — the queue, the item the server holds, and the history of arrivals,
  of items served and of items done;
* `Server.Law` — first in, first out, each item once; `Server.law` says that it
  holds in every state the server can reach.
-/
import SentrySystem.Lib.Transition

universe u

/-- A queue of at most `cap` items, the oldest first. -/
structure BoundedFifo (α : Type u) (cap : ℕ) where
  items : List α
  bound : items.length ≤ cap

namespace BoundedFifo

variable {α : Type u} {cap : ℕ}

@[ext] theorem ext {q q' : BoundedFifo α cap} (h : q.items = q'.items) : q = q' := by
  cases q
  cases q'
  congr

/-- The queue without items. -/
def empty : BoundedFifo α cap := ⟨[], Nat.zero_le _⟩

/-- Append an item, `none` when the queue is full. -/
def enqueue (q : BoundedFifo α cap) (x : α) : Option (BoundedFifo α cap) :=
  if h : q.items.length < cap then some ⟨q.items ++ [x], by simpa using h⟩ else none

/-- Take the oldest item off, `none` when there is none. -/
def dequeue (q : BoundedFifo α cap) : Option (α × BoundedFifo α cap) :=
  match h : q.items with
  | [] => none
  | x :: xs => some (x, ⟨xs, by have := q.bound; rw [h, List.length_cons] at this; omega⟩)

theorem enqueue_eq_some {q q' : BoundedFifo α cap} {x : α} :
    q.enqueue x = some q' ↔ q.items.length < cap ∧ q'.items = q.items ++ [x] := by
  rw [enqueue]
  split_ifs with h
  · rw [Option.some_inj]
    constructor
    · rintro rfl
      exact ⟨h, rfl⟩
    · rintro ⟨-, hq⟩
      exact ext hq.symm
  · simp [h]

theorem dequeue_eq_some {q q' : BoundedFifo α cap} {x : α} :
    q.dequeue = some (x, q') ↔ q.items = x :: q'.items := by
  obtain ⟨items, hb⟩ := q
  rcases items with _ | ⟨y, ys⟩
  · simp [dequeue]
  · simp only [dequeue, Option.some_inj, Prod.mk.injEq, List.cons.injEq]
    constructor
    · rintro ⟨rfl, rfl⟩
      exact ⟨rfl, rfl⟩
    · rintro ⟨rfl, hq⟩
      exact ⟨rfl, ext hq⟩

end BoundedFifo

/-- What the server is doing with the item it holds. -/
inductive Phase
  | fetched
  | serving
  | leaving
  deriving DecidableEq, Repr

/-- The queue, the item held by the server, and the history: the items that
arrived, those whose service has begun, and those the server is done with. -/
structure Server (α : Type u) (cap : ℕ) where
  queue : BoundedFifo α cap
  current : Option (Phase × α)
  arrived : List α
  served : List α
  done : List α

namespace Server

variable {α : Type u} {cap : ℕ}

/-- What can happen: an arrival, and the four steps of the server. -/
inductive Action (α : Type u)
  | arrive (x : α)
  | fetch
  | serve
  | finish
  | leave

/-- An idle server in front of an empty queue. -/
def idle : Server α cap := ⟨.empty, none, [], [], []⟩

/-- One step; an arrival at a full queue is disabled. -/
def step (s : Server α cap) : Action α → Option (Server α cap)
  | .arrive x => (s.queue.enqueue x).map fun q => { s with queue := q, arrived := s.arrived ++ [x] }
  -- one item at a time
  | .fetch =>
    match s.current with
    | none => s.queue.dequeue.map fun r => { s with queue := r.2, current := some (.fetched, r.1) }
    | some _ => none
  | .serve =>
    match s.current with
    | some (.fetched, x) => some { s with current := some (.serving, x), served := s.served ++ [x] }
    | _ => none
  | .finish =>
    match s.current with
    | some (.serving, x) => some { s with current := some (.leaving, x) }
    | _ => none
  | .leave =>
    match s.current with
    | some (.leaving, x) => some { s with current := none, done := s.done ++ [x] }
    | _ => none

/-- The server as a transition system. -/
def system (α : Type u) (cap : ℕ) : TransitionSystem (Server α cap) (Action α) := ⟨idle, step⟩

/-- The item fetched but not yet served. -/
def fetchedItem (s : Server α cap) : List α :=
  match s.current with
  | some (.fetched, x) => [x]
  | _ => []

/-- The item being served or on its way out. -/
def inService (s : Server α cap) : List α :=
  match s.current with
  | some (.serving, x) => [x]
  | some (.leaving, x) => [x]
  | _ => []

/-- First in, first out: what arrived is what was served, then what is waiting,
in the order of arrival; what was served is done or still held. -/
structure Law (s : Server α cap) : Prop where
  order : s.arrived = s.served ++ (s.fetchedItem ++ s.queue.items)
  served_eq : s.served = s.done ++ s.inService

/-- Everything a step can do: an item arrives at a queue with room, or the item the
server holds moves on by one phase. -/
theorem step_cases {s t : Server α cap} {a : Action α} (ht : s.step a = some t) :
    (∃ x q, a = .arrive x ∧ s.queue.items.length < cap ∧
      BoundedFifo.items q = s.queue.items ++ [x] ∧
      t = { s with queue := q, arrived := s.arrived ++ [x] }) ∨
    (∃ x q, a = .fetch ∧ s.current = none ∧ s.queue.items = x :: BoundedFifo.items q ∧
      t = { s with queue := q, current := some (.fetched, x) }) ∨
    (∃ x, a = .serve ∧ s.current = some (.fetched, x) ∧
      t = { s with current := some (.serving, x), served := s.served ++ [x] }) ∨
    (∃ x, a = .finish ∧ s.current = some (.serving, x) ∧
      t = { s with current := some (.leaving, x) }) ∨
    ∃ x, a = .leave ∧ s.current = some (.leaving, x) ∧
      t = { s with current := none, done := s.done ++ [x] } := by
  cases a with
  | arrive x =>
    simp only [Server.step, Option.map_eq_some_iff] at ht
    obtain ⟨q, hq, rfl⟩ := ht
    rw [BoundedFifo.enqueue_eq_some] at hq
    exact .inl ⟨x, q, rfl, hq.1, hq.2, rfl⟩
  | fetch =>
    simp only [Server.step] at ht
    split at ht
    · next hc =>
      rw [Option.map_eq_some_iff] at ht
      obtain ⟨⟨x, q⟩, hq, rfl⟩ := ht
      rw [BoundedFifo.dequeue_eq_some] at hq
      exact .inr (.inl ⟨x, q, rfl, hc, hq, rfl⟩)
    · simp at ht
  | serve =>
    simp only [Server.step] at ht
    split at ht
    · next x hc => exact .inr (.inr (.inl ⟨x, rfl, hc, (Option.some_inj.mp ht).symm⟩))
    · simp at ht
  | finish =>
    simp only [Server.step] at ht
    split at ht
    · next x hc => exact .inr (.inr (.inr (.inl ⟨x, rfl, hc, (Option.some_inj.mp ht).symm⟩)))
    · simp at ht
  | leave =>
    simp only [Server.step] at ht
    split at ht
    · next x hc => exact .inr (.inr (.inr (.inr ⟨x, rfl, hc, (Option.some_inj.mp ht).symm⟩)))
    · simp at ht

theorem Law.step {s t : Server α cap} {a : Action α} (h : s.Law) (ht : s.step a = some t) :
    t.Law := by
  obtain ⟨horder, hserved⟩ := h
  rcases step_cases ht with ⟨x, q, -, -, hq, rfl⟩ | ⟨x, q, -, hc, hq, rfl⟩ | ⟨x, -, hc, rfl⟩ |
    ⟨x, -, hc, rfl⟩ | ⟨x, -, hc, rfl⟩
  · constructor
    · show s.arrived ++ [x] = s.served ++ (s.fetchedItem ++ BoundedFifo.items q)
      rw [hq, horder, List.append_assoc, List.append_assoc]
    · exact hserved
  -- the other steps move the item from one part of the law to the next
  · simp only [fetchedItem, inService, hc] at horder hserved
    exact ⟨by simp [fetchedItem, horder, hq], by simp [inService, hserved]⟩
  · simp only [fetchedItem, inService, hc] at horder hserved
    exact ⟨by simp [fetchedItem, horder], by simp [inService, hserved]⟩
  · simp only [fetchedItem, inService, hc] at horder hserved
    exact ⟨by simp [fetchedItem, horder], by simp [inService, hserved]⟩
  · simp only [fetchedItem, inService, hc] at horder hserved
    exact ⟨by simp [fetchedItem, horder], by simp [inService, hserved]⟩

/-- **The law of the server** holds in every state it reaches. -/
theorem law {s : Server α cap} (h : (system α cap).Reachable s) : s.Law :=
  h.invariant ⟨rfl, rfl⟩ fun _ _ _ hs _ ht => hs.step ht

/-- The items the server is not done with: the one it holds and those waiting. -/
def live (s : Server α cap) : List α := s.current.toList.map Prod.snd ++ s.queue.items

/-- What a step does to the items the server is not done with: one arrives, the one
held leaves, or they stay. -/
theorem live_step {s t : Server α cap} {a : Action α} (ht : s.step a = some t) :
    match a with
    | .arrive x => t.live = s.live ++ [x]
    | .leave => ∃ x, s.current = some (.leaving, x) ∧ s.live = x :: t.live
    | _ => t.live = s.live := by
  rcases step_cases ht with ⟨x, q, rfl, -, hq, rfl⟩ | ⟨x, q, rfl, hc, hq, rfl⟩ | ⟨x, rfl, hc, rfl⟩ |
    ⟨x, rfl, hc, rfl⟩ | ⟨x, rfl, hc, rfl⟩
  · simp [live, hq]
  · simp [live, hc, hq]
  · simp [live, hc]
  · simp [live, hc]
  · exact ⟨x, hc, by simp [live, hc]⟩

/-- Everything that arrived is done, held or waiting. -/
theorem Law.arrived_eq {s : Server α cap} (h : s.Law) :
    s.arrived = s.done ++ s.live := by
  rw [h.order, h.served_eq, List.append_assoc]
  rcases hc : s.current with _ | ⟨_ | _ | _, x⟩ <;> simp [fetchedItem, inService, live, hc]

end Server

/-
The array behind the message queue (`src/msg/msg_deliver.c`).

`msg_queue_push` and `msg_queue_pop` work on the first `count` cells of an array of
32.  The push of the `MSG_ENABLE_PRIORITY` build moves the messages of lower priority
up by one cell.

* `MsgQueue.items` — the messages in the queue, the next one first;
* `items_push_default`, `items_push_priority`, `items_pop` — the operations on
  the array, as operations on this list;
* `toFifo_push`, `toFifo_pop` — the default build is a bounded first-in first-out
  queue.
-/
import Mathlib.Data.List.DropRight
import SentrySystem.Lib.Buffer
import SentrySystem.Lib.BoundedServer

namespace Sentry

/-- `MAX_MSG_QUEUE_SIZE`. -/
def maxMsgQueueSize : ℕ := 32

/-- `msg_buffer` and `count` of `Msg_Queue_t`. -/
structure MsgQueue (α : Type) where
  msgBuffer : List α
  count : ℕ
  size_eq : msgBuffer.length = maxMsgQueueSize
  count_le : count ≤ maxMsgQueueSize

namespace MsgQueue

variable {α : Type}

/-- The messages in the queue. -/
def items (q : MsgQueue α) : List α := q.msgBuffer.take q.count

@[simp] theorem length_items (q : MsgQueue α) : q.items.length = q.count := by
  rw [items, List.length_take, q.size_eq, min_eq_left q.count_le]

/-- The zeroed queue. -/
def init (zero : α) : MsgQueue α :=
  ⟨List.replicate maxMsgQueueSize zero, 0, List.length_replicate, Nat.zero_le _⟩

@[simp] theorem items_init (zero : α) : (init zero).items = [] := rfl

/-! ### The code -/

/-- The `while` loop of the priority push: the buffer and `insert_at`. -/
def moveBack (outranks : α → Bool) : List α → ℕ → List α × ℕ
  | buf, 0 => (buf, 0)
  | buf, insertAt + 1 =>
    match buf[insertAt]? with
    | some x =>
      if outranks x then moveBack outranks (buf.set (insertAt + 1) x) insertAt
      else (buf, insertAt + 1)
    | none => (buf, insertAt + 1)

theorem length_moveBack (outranks : α → Bool) (buf : List α) (n : ℕ) :
    (moveBack outranks buf n).1.length = buf.length := by
  induction n generalizing buf with
  | zero => rfl
  | succ n ih =>
    rw [moveBack]
    split
    · split_ifs
      · rw [ih, List.length_set]
      · rfl
    · rfl

/-- `msg_queue_push` into a queue that is not full; `priority` is `none` in the default
build. -/
def msgQueuePush (priority : Option (α → ℕ)) (q : MsgQueue α) (msg : α)
    (h : q.count < maxMsgQueueSize) : MsgQueue α :=
  match priority with
  | none =>
    ⟨q.msgBuffer.set q.count msg, q.count + 1, by rw [List.length_set, q.size_eq], h⟩
  | some p =>
    let r := moveBack (fun x => decide (p x < p msg)) q.msgBuffer q.count
    ⟨r.1.set r.2 msg, q.count + 1,
      by rw [List.length_set, length_moveBack, q.size_eq], h⟩

/-- What `msg_queue_pop` leaves of a queue that is not empty. -/
def afterPop (q : MsgQueue α) (h : 0 < q.count) : MsgQueue α :=
  let remaining := q.count - 1
  ⟨if 0 < remaining then memmove q.msgBuffer 0 1 remaining else q.msgBuffer, remaining,
    by
      have hle := q.count_le
      split_ifs
      · rw [length_memmove (by rw [q.size_eq]; omega) (by rw [q.size_eq]; omega), q.size_eq]
      · exact q.size_eq,
    le_trans (Nat.sub_le _ _) q.count_le⟩

/-- `msg_queue_pop`: the message and the queue left, `none` for -1. -/
def msgQueuePop (q : MsgQueue α) : Option (α × MsgQueue α) :=
  if h : 0 < q.count then
    some (q.msgBuffer.get ⟨0, by rw [q.size_eq]; exact lt_of_lt_of_le h q.count_le⟩, q.afterPop h)
  else none

/-! ### The operations on the messages in the queue -/

theorem take_succ_set {buf : List α} {n : ℕ} (hn : n < buf.length) (msg : α) :
    (buf.set n msg).take (n + 1) = buf.take n ++ [msg] := by
  have hn' : n < (buf.set n msg).length := by rwa [List.length_set]
  rw [List.take_succ_eq_append_getElem hn', List.take_set_of_le le_rfl, List.getElem_set_self]

theorem items_push_default (q : MsgQueue α) (msg : α) (h : q.count < maxMsgQueueSize) :
    (msgQueuePush none q msg h).items = q.items ++ [msg] :=
  take_succ_set (by rw [q.size_eq]; exact h) msg

theorem moveBack_snd_le (outranks : α → Bool) (buf : List α) (n : ℕ) :
    (moveBack outranks buf n).2 ≤ n := by
  induction n generalizing buf with
  | zero => exact le_rfl
  | succ n ih =>
    rw [moveBack]
    split
    · split_ifs
      · exact le_trans (ih _) (Nat.le_succ n)
      · exact le_rfl
    · exact le_rfl

/-- Only cells up to the first free one are written. -/
theorem getElem?_moveBack (outranks : α → Bool) (buf : List α) {n k : ℕ} (hk : n < k) :
    (moveBack outranks buf n).1[k]? = buf[k]? := by
  induction n generalizing buf with
  | zero => rfl
  | succ n ih =>
    rw [moveBack]
    split
    · split_ifs
      · rw [ih _ (by omega), List.getElem?_set_ne (by omega)]
      · rfl
    · rfl

/-- The loop finds the place behind the last message that is not outranked, and moves
the ones behind it up. -/
theorem take_set_moveBack (outranks : α → Bool) (msg : α) (buf : List α) {n : ℕ}
    (hn : n < buf.length) :
    ((moveBack outranks buf n).1.set (moveBack outranks buf n).2 msg).take (n + 1) =
      (buf.take n).rdropWhile outranks ++ msg :: (buf.take n).rtakeWhile outranks := by
  induction n generalizing buf with
  | zero =>
    rw [moveBack, take_succ_set hn]
    rfl
  | succ n ih =>
    have hx : buf[n]? = some buf[n] := List.getElem?_eq_getElem (by omega)
    have htake : buf.take (n + 1) = buf.take n ++ [buf[n]] :=
      List.take_succ_eq_append_getElem (by omega)
    rw [moveBack, hx]
    dsimp only
    by_cases hlow : outranks buf[n] = true
    · -- the last message moves up, the place is further down
      rw [if_pos hlow, htake, List.rdropWhile_concat_pos _ _ _ hlow,
        List.rtakeWhile_concat_pos _ _ _ hlow]
      set buf' := buf.set (n + 1) buf[n] with hbuf'
      have hlen : n < buf'.length := by rw [hbuf', List.length_set]; omega
      have hfront : buf'.take n = buf.take n := List.take_set_of_le (by omega)
      have hplace : (moveBack outranks buf' n).2 ≤ n := moveBack_snd_le outranks buf' n
      have hcell : ((moveBack outranks buf' n).1.set (moveBack outranks buf' n).2 msg)[n + 1]? =
          some buf[n] := by
        rw [List.getElem?_set_ne (by omega), getElem?_moveBack outranks buf' (by omega), hbuf',
          List.getElem?_set_self (by omega)]
      rw [List.take_add_one, hcell, ih buf' hlen, hfront]
      simp
    · -- the place is behind the last message
      rw [if_neg hlow, take_succ_set hn, htake, List.rdropWhile_concat_neg _ _ _ hlow,
        List.rtakeWhile_concat_neg _ _ _ hlow]

/-- **The priority push** puts the message behind the last one of no lower priority. -/
theorem items_push_priority (p : α → ℕ) (q : MsgQueue α) (msg : α)
    (h : q.count < maxMsgQueueSize) :
    (msgQueuePush (some p) q msg h).items =
      q.items.rdropWhile (fun x => decide (p x < p msg)) ++
        msg :: q.items.rtakeWhile (fun x => decide (p x < p msg)) :=
  take_set_moveBack _ msg _ (by rw [q.size_eq]; exact h)

/-- Both pushes add the message to those in the queue. -/
theorem perm_items_push (priority : Option (α → ℕ)) (q : MsgQueue α) (msg : α)
    (h : q.count < maxMsgQueueSize) :
    (msgQueuePush priority q msg h).items.Perm (msg :: q.items) := by
  cases priority with
  | none =>
    rw [items_push_default]
    exact List.perm_append_singleton msg q.items
  | some p =>
    rw [items_push_priority]
    refine List.perm_middle.trans (List.Perm.cons msg ?_)
    rw [List.rdropWhile_append_rtakeWhile]

theorem items_afterPop (q : MsgQueue α) (h : 0 < q.count) :
    (q.afterPop h).items = q.items.tail := by
  have hle := q.count_le
  have htail : q.items.tail = (q.msgBuffer.drop 1).take (q.count - 1) := by
    rw [items, ← List.drop_one, List.drop_take]
  show (if 0 < q.count - 1 then memmove q.msgBuffer 0 1 (q.count - 1)
    else q.msgBuffer).take (q.count - 1) = _
  rw [htail]
  -- with one message left there is nothing to move
  split_ifs with hrest
  · exact take_memmove_one (by rw [q.size_eq]; omega)
  · have hzero : q.count - 1 = 0 := by omega
    rw [hzero, List.take_zero, List.take_zero]

/-- **The pop** takes the first message off. -/
theorem items_pop {q q' : MsgQueue α} {msg : α} (h : msgQueuePop q = some (msg, q')) :
    q.items = msg :: q'.items := by
  rw [msgQueuePop] at h
  split_ifs at h with hpos
  simp only [Option.some_inj, Prod.mk.injEq] at h
  obtain ⟨rfl, rfl⟩ := h
  obtain ⟨x, xs, hbuf⟩ : ∃ x xs, q.msgBuffer = x :: xs := by
    refine List.exists_cons_of_length_pos ?_
    rw [q.size_eq]
    decide
  obtain ⟨n, hn⟩ : ∃ n, q.count = n + 1 := Nat.exists_eq_succ_of_ne_zero hpos.ne'
  rw [items_afterPop, items, hn]
  simp [hbuf]

/-! ### The default build is a first-in first-out queue -/

/-- The queue without its array. -/
def toFifo (q : MsgQueue α) : BoundedFifo α maxMsgQueueSize :=
  ⟨q.items, by rw [length_items]; exact q.count_le⟩

theorem toFifo_push (q : MsgQueue α) (msg : α) (h : q.count < maxMsgQueueSize) :
    q.toFifo.enqueue msg = some (msgQueuePush none q msg h).toFifo :=
  BoundedFifo.enqueue_eq_some.mpr ⟨by rwa [toFifo, length_items], items_push_default q msg h⟩

theorem toFifo_pop {q q' : MsgQueue α} {msg : α} (h : msgQueuePop q = some (msg, q')) :
    q.toFifo.dequeue = some (msg, q'.toFifo) :=
  BoundedFifo.dequeue_eq_some.mpr (items_pop h)

end MsgQueue

end Sentry

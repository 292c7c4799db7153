/-
Incremental parsers of a byte stream.

A `StreamParser` works in rounds on a buffer: a round either waits for more
input or consumes some of it, changes the parser's state and emits outputs.
Its two laws are part of the structure, so that what follows holds of every
parser that can be written down.

* `drain` — rounds until the parser waits;
* `drain_append` — input that arrives in two parts is drained in two goes;
* `feeds_eq_feed` — however the input is cut into chunks, state, outputs and
  buffer are the same as when it arrives in one;
* `drain_skip` — rounds that only drop one item each emit nothing;
* `Consumes` — the parser reads a piece of input away, whatever follows it, with
  its rules for one round and for pieces in a row.
-/
import Mathlib.Tactic

universe u v w

/-- A parser with state `σ`, reading items `β` and emitting `ο`: `step s buf` is the
next state, the outputs and the buffer left by one round, `none` when the round
needs more input. -/
structure StreamParser (σ : Type u) (β : Type v) (ο : Type w) where
  step : σ → List β → Option (σ × List ο × List β)
  /-- A round consumes something. -/
  progress : ∀ {s s' buf os rest}, step s buf = some (s', os, rest) → rest.length < buf.length
  /-- What comes behind the buffer does not matter to a round that did not wait. -/
  stable : ∀ {s s' buf os rest}, step s buf = some (s', os, rest) → ∀ more,
    step s (buf ++ more) = some (s', os, rest ++ more)

namespace StreamParser

variable {σ : Type u} {β : Type v} {ο : Type w} (P : StreamParser σ β ο)

/-- Rounds until the parser waits: the final state, all outputs and the buffer left. -/
def drain (s : σ) (buf : List β) : σ × List ο × List β :=
  match _h : P.step s buf with
  | none => (s, [], buf)
  | some (s', os, rest) =>
    let r := drain s' rest
    (r.1, os ++ r.2.1, r.2.2)
  termination_by buf.length
  decreasing_by exact P.progress (by assumption)

variable {P} {s s' : σ} {buf rest : List β} {os : List ο}

theorem drain_of_none (h : P.step s buf = none) : P.drain s buf = (s, [], buf) := by
  rw [drain, h]

theorem drain_of_some (h : P.step s buf = some (s', os, rest)) :
    P.drain s buf = ((P.drain s' rest).1, os ++ (P.drain s' rest).2.1, (P.drain s' rest).2.2) := by
  rw [drain, h]

/-- **Input in two parts**: what is left of the first part is drained again with the
second behind it. -/
theorem drain_append (s : σ) (buf more : List β) :
    P.drain s (buf ++ more) =
      ((P.drain (P.drain s buf).1 ((P.drain s buf).2.2 ++ more)).1,
        (P.drain s buf).2.1 ++ (P.drain (P.drain s buf).1 ((P.drain s buf).2.2 ++ more)).2.1,
        (P.drain (P.drain s buf).1 ((P.drain s buf).2.2 ++ more)).2.2) := by
  -- along the rounds on the first part alone: each of them is a round on both parts
  induction s, buf using drain.induct P with
  | case1 s buf h => rw [drain_of_none h, List.nil_append]
  | case2 s buf s' os rest h ih =>
    rw [drain_of_some h, drain_of_some (P.stable h more), ih]
    simp only [List.append_assoc]

variable (P) in
/-- One chunk of input arrives behind the buffer and is drained. -/
def feed (c : σ × List ο × List β) (chunk : List β) : σ × List ο × List β :=
  let r := P.drain c.1 (c.2.2 ++ chunk)
  (r.1, c.2.1 ++ r.2.1, r.2.2)

theorem feed_append (c : σ × List ο × List β) (chunk more : List β) :
    P.feed (P.feed c chunk) more = P.feed c (chunk ++ more) := by
  simp only [feed]
  rw [← List.append_assoc c.2.2, drain_append c.1 (c.2.2 ++ chunk) more, List.append_assoc]

/-- **Segmentation does not matter**: one or more chunks act as their concatenation. -/
theorem feeds_eq_feed (c : σ × List ο × List β) (chunk : List β) (chunks : List (List β)) :
    (chunk :: chunks).foldl P.feed c = P.feed c (chunk :: chunks).flatten := by
  induction chunks generalizing chunk with
  | nil => simp
  | cons more chunks ih =>
    have h := ih (chunk ++ more)
    rw [List.foldl_cons, ← feed_append, ← List.foldl_cons] at h
    rw [List.foldl_cons, List.foldl_cons, ← List.foldl_cons, h]
    simp [List.append_assoc]

/-- Rounds that drop the first item of their buffer and do nothing else lead past
a prefix without an output. -/
theorem drain_skip {skip buf : List β}
    (h : ∀ k < skip.length,
      P.step s ((skip ++ buf).drop k) = some (s, [], (skip ++ buf).drop (k + 1))) :
    P.drain s (skip ++ buf) = P.drain s buf := by
  induction skip with
  | nil => rfl
  | cons b skip ih =>
    have hfirst : P.step s (b :: skip ++ buf) = some (s, [], skip ++ buf) := by
      simpa using h 0 (by simp)
    rw [drain_of_some hfirst, ih, List.nil_append]
    intro k hk
    simpa using h (k + 1) (by simpa using hk)

variable (P) in
/-- From state `s` the parser reads `bytes` away, emits `os` and is in state `s'`,
whatever follows. -/
def Consumes (s : σ) (bytes : List β) (s' : σ) (os : List ο) : Prop :=
  ∀ rest, P.drain s (bytes ++ rest) =
    ((P.drain s' rest).1, os ++ (P.drain s' rest).2.1, (P.drain s' rest).2.2)

theorem Consumes.nil (s : σ) : P.Consumes s [] s [] := fun _ => rfl

/-- The rule for one round. -/
theorem Consumes.of_step {bytes : List β} (h : P.step s bytes = some (s', os, [])) :
    P.Consumes s bytes s' os :=
  fun rest => drain_of_some (P.stable h rest)

/-- The rule for two pieces in a row. -/
theorem Consumes.append {s'' : σ} {bytes bytes' : List β} {os' : List ο}
    (h : P.Consumes s bytes s' os) (h' : P.Consumes s' bytes' s'' os') :
    P.Consumes s (bytes ++ bytes') s'' (os ++ os') := by
  intro rest
  rw [List.append_assoc, h, h']
  simp only [List.append_assoc]

/-- A piece that is the whole input leaves what the empty input leaves. -/
theorem Consumes.drain {bytes : List β} (h : P.Consumes s bytes s' os)
    (hend : P.step s' [] = none) : P.drain s bytes = (s', os, []) := by
  have hall := h []
  rwa [List.append_nil, drain_of_none hend, List.append_nil] at hall

end StreamParser

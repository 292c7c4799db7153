/-
Readers of a byte stream that may forget what they have read.

A `StreamReader` works in rounds on a buffer, as an incremental parser does, but what a
round does may depend on how much of the stream has arrived.

* `drain`, `receive` — rounds until the reader waits, and chunk after chunk;
* `receive_append` — chunks in two goes;
* `Due.receive_eq` — the rule for all ways to cut a stream: a relation between the state,
  the bytes to come and the outputs still due, which every round keeps;
* `Silent.receive` — the rule for a reader that emits nothing any more.
-/
import Mathlib.Tactic

universe u v w

/-- A reader with state `σ`, reading items `β` and emitting `ο`: `step s buf` is the next state,
the outputs and the buffer left by one round, `none` when the reader waits. -/
structure StreamReader (σ : Type u) (β : Type v) (ο : Type w) where
  step : σ → List β → Option (σ × List ο × List β)
  /-- A round consumes something. -/
  progress : ∀ {s s' buf os rest}, step s buf = some (s', os, rest) → rest.length < buf.length

namespace StreamReader

variable {σ : Type u} {β : Type v} {ο : Type w} (P : StreamReader σ β ο)

/-- Rounds until the reader waits: the final state, all outputs and the buffer left. -/
def drain (s : σ) (buf : List β) : σ × List ο × List β :=
  match _h : P.step s buf with
  | none => (s, [], buf)
  | some (s', os, rest) =>
    let r := drain s' rest
    (r.1, os ++ r.2.1, r.2.2)
  termination_by buf.length
  decreasing_by exact P.progress (by assumption)

/-- Chunk after chunk: the final state, all outputs and the buffer left. -/
def receive (s : σ) (buf : List β) : List (List β) → σ × List ο × List β
  | [] => (s, [], buf)
  | chunk :: chunks =>
    let r := P.drain s (buf ++ chunk)
    let rest := receive r.1 r.2.2 chunks
    (rest.1, r.2.1 ++ rest.2.1, rest.2.2)

variable {P} {s s' : σ} {buf rest : List β} {os : List ο}

theorem drain_of_none (h : P.step s buf = none) : P.drain s buf = (s, [], buf) := by
  rw [drain, h]

theorem drain_of_some (h : P.step s buf = some (s', os, rest)) :
    P.drain s buf = ((P.drain s' rest).1, os ++ (P.drain s' rest).2.1, (P.drain s' rest).2.2) := by
  rw [drain, h]

/-- A round behind which the reader waits. -/
theorem drain_of_last (h : P.step s buf = some (s', os, rest)) (hlast : P.step s' rest = none) :
    P.drain s buf = (s', os, rest) := by
  rw [drain_of_some h, drain_of_none hlast, List.append_nil]

theorem receive_append (chunks chunks' : List (List β)) : ∀ (s : σ) (buf : List β),
    P.receive s buf (chunks ++ chunks') =
      ((P.receive (P.receive s buf chunks).1 (P.receive s buf chunks).2.2 chunks').1,
        (P.receive s buf chunks).2.1 ++
          (P.receive (P.receive s buf chunks).1 (P.receive s buf chunks).2.2 chunks').2.1,
        (P.receive (P.receive s buf chunks).1 (P.receive s buf chunks).2.2 chunks').2.2) := by
  induction chunks with
  | nil =>
    intro s buf
    rfl
  | cons chunk chunks ih =>
    intro s buf
    rw [List.cons_append, receive, ih, receive]
    simp only [List.append_assoc]

/-- A relation between the state, the bytes to come and the outputs due that every round keeps,
whatever part of the bytes has arrived. -/
structure Due (P : StreamReader σ β ο) (R : σ → List β → List ο → Prop) : Prop where
  step : ∀ {s s' buf buf' rest os os'}, R s (buf ++ rest) os →
    P.step s buf = some (s', os', buf') → ∃ os'', os = os' ++ os'' ∧ R s' (buf' ++ rest) os''
  /-- A reader that waits with nothing to come owes nothing. -/
  last : ∀ {s buf os}, R s buf os → P.step s buf = none → os = []

variable {R : σ → List β → List ο → Prop}

/-- What rounds leave: outputs emitted, and a reader that waits. -/
theorem Due.drain (h : P.Due R) {s : σ} {buf rest : List β} {os : List ο}
    (hR : R s (buf ++ rest) os) :
    ∃ os', os = (P.drain s buf).2.1 ++ os' ∧
      R (P.drain s buf).1 ((P.drain s buf).2.2 ++ rest) os' ∧
      P.step (P.drain s buf).1 (P.drain s buf).2.2 = none := by
  induction s, buf using drain.induct P generalizing os with
  | case1 s buf hnone =>
    rw [drain_of_none hnone]
    exact ⟨os, rfl, hR, hnone⟩
  | case2 s buf s' os₁ buf' hsome ih =>
    obtain ⟨os₂, rfl, hR'⟩ := h.step hR hsome
    obtain ⟨os', rfl, hrest⟩ := ih hR'
    rw [drain_of_some hsome]
    exact ⟨os', (List.append_assoc _ _ _).symm, hrest⟩

/-- **However the stream is cut**, the reader emits what is due. -/
theorem Due.receive_eq (h : P.Due R) (chunks : List (List β)) :
    ∀ {s : σ} {buf : List β} {os : List ο}, R s (buf ++ chunks.flatten) os →
      P.step s buf = none → (P.receive s buf chunks).2.1 = os := by
  induction chunks with
  | nil =>
    intro s buf os hR hwait
    rw [List.flatten_nil, List.append_nil] at hR
    exact (h.last hR hwait).symm
  | cons chunk chunks ih =>
    intro s buf os hR _
    rw [List.flatten_cons, ← List.append_assoc] at hR
    obtain ⟨os', rfl, hR', hwait⟩ := h.drain hR
    rw [receive, ih hR' hwait]

/-! ### Readers that emit nothing -/

/-- A set of states that every round keeps, emitting nothing. -/
def Silent (P : StreamReader σ β ο) (I : σ → Prop) : Prop :=
  ∀ {s s' buf buf' os}, I s → P.step s buf = some (s', os, buf') → I s' ∧ os = []

variable {I : σ → Prop}

theorem Silent.drain (h : P.Silent I) {s : σ} (hs : I s) (buf : List β) :
    I (P.drain s buf).1 ∧ (P.drain s buf).2.1 = [] := by
  induction s, buf using drain.induct P with
  | case1 s buf hnone =>
    rw [drain_of_none hnone]
    exact ⟨hs, rfl⟩
  | case2 s buf s' os buf' hsome ih =>
    obtain ⟨hs', rfl⟩ := h hs hsome
    rw [drain_of_some hsome, List.nil_append]
    exact ih hs'

/-- However the stream goes on, nothing more is emitted. -/
theorem Silent.receive (h : P.Silent I) (chunks : List (List β)) :
    ∀ {s : σ}, I s → ∀ buf : List β, (P.receive s buf chunks).2.1 = [] := by
  induction chunks with
  | nil =>
    intro s _ buf
    rfl
  | cons chunk chunks ih =>
    intro s hs buf
    obtain ⟨hs', hos⟩ := h.drain hs (buf ++ chunk)
    rw [StreamReader.receive, hos, List.nil_append]
    exact ih hs' _

end StreamReader

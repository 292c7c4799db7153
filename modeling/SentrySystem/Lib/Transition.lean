/-
Labelled transition systems with deterministic, possibly disabled steps.

A `TransitionSystem` has one initial state and a partial step function: the label names
the party that moves and the choices its environment makes, so an interleaving
is nothing but a list of labels.

* `Via good` — the states reached by runs all of whose steps are `good`;
* `Via.invariant` — a property of the initial state kept by every good step
  holds along every good run;
* `Via.mono` — fewer runs satisfy a stronger step condition;
* `Via.map` — the simulation rule: if a map of states sends every good step to
  a good step or to a stutter, reachable states map to reachable states;
* `run_eq_runVia` — the runs that keep to a step condition are those that do not end in
  a spoilt state, if a step against the condition spoils the state for good;
* `throughout_eq_runVia` — the same for a property of every state along the run;
* `Via.of_run`, `Reachable.of_run` — a computed run, its steps checked to be good,
  witnesses reachability, which is how a trace is turned into a statement about
  reachable states.
-/
import Mathlib.Tactic

universe u v

/-- A transition system: an initial state and a step function, `none` where the
label is disabled. -/
structure TransitionSystem (σ : Type u) (α : Type v) where
  init : σ
  step : σ → α → Option σ

namespace TransitionSystem

variable {σ τ : Type u} {α β : Type v}

/-- Execute a list of labels; `none` as soon as one of them is disabled. -/
def run (S : TransitionSystem σ α) : σ → List α → Option σ
  | s, [] => some s
  | s, a :: as => (S.step s a).bind fun t => S.run t as

@[simp] theorem run_nil (S : TransitionSystem σ α) (s : σ) : S.run s [] = some s := rfl

@[simp] theorem run_cons (S : TransitionSystem σ α) (s : σ) (a : α) (as : List α) :
    S.run s (a :: as) = (S.step s a).bind fun t => S.run t as := rfl

theorem run_cons_of_step {S : TransitionSystem σ α} {s t : σ} {a : α} (h : S.step s a = some t)
    (as : List α) : S.run s (a :: as) = S.run t as := by
  rw [run_cons, h, Option.bind_some]

theorem run_append (S : TransitionSystem σ α) (as bs : List α) (s : σ) :
    S.run s (as ++ bs) = (S.run s as).bind fun t => S.run t bs := by
  induction as generalizing s with
  | nil => rfl
  | cons a as ih =>
    rw [List.cons_append, run_cons, run_cons]
    cases S.step s a with
    | none => rfl
    | some m => exact ih m

/-- The states reached from the initial one by steps that all satisfy `good`
in the state they are taken in. -/
inductive Via (S : TransitionSystem σ α) (good : σ → α → Prop) : σ → Prop
  | init : Via S good S.init
  | step {s t : σ} {a : α} : Via S good s → good s a → S.step s a = some t → Via S good t

/-- The states reached by any run. -/
abbrev Reachable (S : TransitionSystem σ α) : σ → Prop := S.Via fun _ _ => True

variable {S : TransitionSystem σ α} {good : σ → α → Prop}

/-- **The invariant rule**: what holds initially and is kept by every good step
holds in every state a good run reaches. -/
theorem Via.invariant {P : σ → Prop} (h0 : P S.init)
    (hstep : ∀ s a t, P s → good s a → S.step s a = some t → P t) :
    ∀ {s : σ}, S.Via good s → P s := by
  intro s hs
  induction hs with
  | init => exact h0
  | step _ hg ht ih => exact hstep _ _ _ ih hg ht

/-- A weaker step condition admits more runs. -/
theorem Via.mono {good' : σ → α → Prop} (h : ∀ s a, good s a → good' s a) :
    ∀ {s : σ}, S.Via good s → S.Via good' s := by
  intro s hs
  induction hs with
  | init => exact .init
  | step _ hg ht ih => exact .step ih (h _ _ hg) ht

theorem Via.reachable {s : σ} (hs : S.Via good s) : S.Reachable s :=
  hs.mono fun _ _ _ => trivial

/-- **The simulation rule**: a map of states that sends every good step of `S`
to a good step of `T`, or leaves the image where it is, sends states reached by
good runs to states reached by good runs. -/
theorem Via.map {T : TransitionSystem τ β} {good' : τ → β → Prop} (f : σ → τ)
    (h0 : f S.init = T.init)
    (hstep : ∀ s a t, S.Via good s → good s a → S.step s a = some t →
      f t = f s ∨ ∃ b, good' (f s) b ∧ T.step (f s) b = some (f t)) :
    ∀ {s : σ}, S.Via good s → T.Via good' (f s) := by
  intro s hs
  induction hs with
  | init => rw [h0]; exact .init
  | @step s t a hs hg ht ih =>
    rcases hstep s a t hs hg ht with hst | ⟨b, hb, htb⟩
    · rw [hst]
      exact ih
    · exact .step ih hb htb

/-- Execute a list of labels, checking that each of them is good. -/
def runVia (S : TransitionSystem σ α) (good : σ → α → Prop) [∀ s a, Decidable (good s a)] :
    σ → List α → Option σ
  | s, [] => some s
  | s, a :: as => if good s a then (S.step s a).bind fun t => S.runVia good t as else none

/-- A checked run from a state reached by a good run ends in such a state. -/
theorem Via.of_run_from [∀ s a, Decidable (good s a)] : ∀ {as : List α} {s t : σ},
    S.Via good s → S.runVia good s as = some t → S.Via good t := by
  intro as
  induction as with
  | nil =>
    intro s t hs h
    rw [runVia, Option.some_inj] at h
    exact h ▸ hs
  | cons a as ih =>
    intro s t hs h
    rw [runVia] at h
    split_ifs at h with hgood
    rw [Option.bind_eq_some_iff] at h
    obtain ⟨m, hm, h⟩ := h
    exact ih (.step hs hgood hm) h

/-- A checked run witnesses a good run. -/
theorem Via.of_run [∀ s a, Decidable (good s a)] {as : List α} {t : σ}
    (h : S.runVia good S.init as = some t) : S.Via good t :=
  Via.of_run_from .init h

/-- A run from a reachable state ends in a reachable state. -/
theorem Reachable.of_run_from : ∀ {as : List α} {s t : σ},
    S.Reachable s → S.run s as = some t → S.Reachable t := by
  intro as
  induction as with
  | nil =>
    intro s t hs h
    rw [run_nil, Option.some_inj] at h
    exact h ▸ hs
  | cons a as ih =>
    intro s t hs h
    rw [run_cons, Option.bind_eq_some_iff] at h
    obtain ⟨m, hm, h⟩ := h
    exact ih (.step hs trivial hm) h

/-- A computed run witnesses reachability. -/
theorem Reachable.of_run {as : List α} {t : σ} (h : S.run S.init as = some t) :
    S.Reachable t :=
  Reachable.of_run_from .init h

/-- What every step keeps, every run keeps. -/
theorem run_invariant {P : σ → Prop}
    (hstep : ∀ s a t, S.Reachable s → P s → S.step s a = some t → P t) :
    ∀ {as : List α} {s t : σ}, S.Reachable s → P s → S.run s as = some t → P t := by
  intro as
  induction as with
  | nil =>
    intro s t _ hP h
    rw [run_nil, Option.some_inj] at h
    exact h ▸ hP
  | cons a as ih =>
    intro s t hs hP h
    rw [run_cons, Option.bind_eq_some_iff] at h
    obtain ⟨m, hm, h⟩ := h
    exact ih (.step hs trivial hm) (hstep s a m hs hP hm) h

/-- If a step against the condition spoils the state, and no step mends it, then a run that
does not end in a spoilt state kept to the condition. -/
theorem runVia_of_run {Spoilt : σ → Prop} [∀ s a, Decidable (good s a)]
    (hbad : ∀ s a t, S.Reachable s → ¬ good s a → S.step s a = some t → Spoilt t)
    (hkeep : ∀ s a t, S.Reachable s → Spoilt s → S.step s a = some t → Spoilt t) :
    ∀ {as : List α} {s t : σ}, S.Reachable s → S.run s as = some t → ¬ Spoilt t →
      S.runVia good s as = some t := by
  intro as
  induction as with
  | nil =>
    intro s t _ h _
    exact h
  | cons a as ih =>
    intro s t hs h ht
    rw [run_cons, Option.bind_eq_some_iff] at h
    obtain ⟨m, hm, h⟩ := h
    have hreach : S.Reachable m := .step hs trivial hm
    by_cases hgood : good s a
    · rw [runVia, if_pos hgood, hm]
      exact ih hreach h ht
    · exact absurd (run_invariant hkeep hreach (hbad s a m hs hgood hm) h) ht

/-- A checked run is a run. -/
theorem run_of_runVia [∀ s a, Decidable (good s a)] : ∀ {as : List α} {s t : σ},
    S.runVia good s as = some t → S.run s as = some t := by
  intro as
  induction as with
  | nil =>
    intro s t h
    exact h
  | cons a as ih =>
    intro s t h
    rw [runVia] at h
    split_ifs at h with hgood
    rw [Option.bind_eq_some_iff] at h
    obtain ⟨m, hm, h⟩ := h
    rw [run_cons, hm]
    exact ih h

/-- **Exactly the runs that keep to the condition end well**, if good steps lead to states
where the law holds and the others spoil the state for good. -/
theorem run_eq_runVia {Law : σ → Prop} (Spoilt : σ → Prop) [∀ s a, Decidable (good s a)]
    (hlaw : ∀ s, S.Via good s → Law s) (hspoilt : ∀ s, Law s → ¬ Spoilt s)
    (hbad : ∀ s a t, S.Reachable s → ¬ good s a → S.step s a = some t → Spoilt t)
    (hkeep : ∀ s a t, S.Reachable s → Spoilt s → S.step s a = some t → Spoilt t)
    {as : List α} {t : σ} (h : S.run S.init as = some t) :
    Law t ↔ S.runVia good S.init as = some t := by
  constructor
  · intro ht
    exact runVia_of_run hbad hkeep .init h (hspoilt t ht)
  · intro hvia
    exact hlaw t (.of_run hvia)

/-- A property holds in every state along a run. -/
def Throughout (S : TransitionSystem σ α) (P : σ → Prop) : σ → List α → Prop
  | s, [] => P s
  | s, a :: as => P s ∧ ∀ t, S.step s a = some t → S.Throughout P t as

theorem throughout_of_runVia {P : σ → Prop} [∀ s a, Decidable (good s a)]
    (hP : ∀ s, S.Via good s → P s) : ∀ {as : List α} {s t : σ},
    S.Via good s → S.runVia good s as = some t → S.Throughout P s as := by
  intro as
  induction as with
  | nil =>
    intro s t hs _
    exact hP s hs
  | cons a as ih =>
    intro s t hs h
    rw [runVia] at h
    split_ifs at h with hgood
    refine ⟨hP s hs, ?_⟩
    intro m hm
    rw [hm] at h
    exact ih (.step hs hgood hm) h

theorem runVia_of_throughout {P : σ → Prop} [∀ s a, Decidable (good s a)]
    (hbad : ∀ s a t, S.Via good s → ¬ good s a → S.step s a = some t → ¬ P t) :
    ∀ {as : List α} {s t : σ}, S.Via good s → S.run s as = some t → S.Throughout P s as →
      S.runVia good s as = some t := by
  intro as
  induction as with
  | nil =>
    intro s t _ h _
    exact h
  | cons a as ih =>
    intro s t hs h hP
    rw [run_cons, Option.bind_eq_some_iff] at h
    obtain ⟨m, hm, h⟩ := h
    have hPm : S.Throughout P m as := hP.2 m hm
    have hnow : P m := by
      cases as with
      | nil => exact hPm
      | cons => exact hPm.1
    by_cases hgood : good s a
    · rw [runVia, if_pos hgood, hm]
      exact ih (.step hs hgood hm) h hPm
    · exact absurd hnow (hbad s a m hs hgood hm)

/-- **A property holds all along exactly the runs that keep to the condition**, if it holds
wherever good steps lead and fails behind the first other one. -/
theorem throughout_eq_runVia {P : σ → Prop} [∀ s a, Decidable (good s a)]
    (hP : ∀ s, S.Via good s → P s)
    (hbad : ∀ s a t, S.Via good s → ¬ good s a → S.step s a = some t → ¬ P t)
    {as : List α} {t : σ} (h : S.run S.init as = some t) :
    S.Throughout P S.init as ↔ S.runVia good S.init as = some t := by
  constructor
  · intro hall
    exact runVia_of_throughout hbad .init h hall
  · intro hvia
    exact throughout_of_runVia hP .init hvia

end TransitionSystem

/-
Calls that may fail, leave their memory, or go on for ever.

A `Checked σ α` works on a state `σ` as a C function does on what its arguments point to: it
returns, returns a failure, or is caught outside its memory or out of fuel.

* `Checked` — the calls, a monad;
* `Checked.Ends` — the total triple: the call returns or fails, with what holds behind it;
* `Ends.bind`, `Ends.imp` — its rules;
* `bind_of_ok` — symbolic execution, one call at a time.
-/
import Mathlib.Tactic

universe u

/-- How a call ends. -/
inductive Outcome (σ α : Type u)
  | ok (a : α) (s : σ)
  | fail (s : σ)
  /-- The call reads or writes outside its memory. -/
  | fault
  | outOfFuel
  deriving DecidableEq

/-- A call on a state. -/
def Checked (σ α : Type u) : Type u := σ → Outcome σ α

namespace Checked

variable {σ α β : Type u}

/-- One call, then the next. -/
def andThen (m : Checked σ α) (f : α → Checked σ β) : Checked σ β := fun s =>
  match m s with
  | .ok a t => f a t
  | .fail t => .fail t
  | .fault => .fault
  | .outOfFuel => .outOfFuel

instance : Monad (Checked σ) where
  pure a := fun s => .ok a s
  bind := andThen

/-- `return false`. -/
def fail : Checked σ α := fun s => .fail s

/-- An access outside the memory. -/
def fault : Checked σ α := fun _ => .fault

/-- The recursion is cut off. -/
def outOfFuel : Checked σ α := fun _ => .outOfFuel

/-- The state. -/
def get : Checked σ σ := fun s => .ok s s

/-- The state is changed. -/
def modify (f : σ → σ) : Checked σ PUnit := fun s => .ok ⟨⟩ (f s)

@[simp] theorem pure_apply (a : α) (s : σ) : (pure a : Checked σ α) s = .ok a s := rfl

@[simp] theorem fail_apply (s : σ) : (fail : Checked σ α) s = .fail s := rfl

@[simp] theorem get_apply (s : σ) : (get : Checked σ σ) s = .ok s s := rfl

@[simp] theorem modify_apply (f : σ → σ) (s : σ) : modify f s = .ok ⟨⟩ (f s) := rfl

/-- A call that returns, and the rest. -/
theorem bind_of_ok {m : Checked σ α} {s t : σ} {a : α} (h : m s = .ok a t)
    (f : α → Checked σ β) : (m >>= f) s = f a t := by
  show andThen m f s = f a t
  rw [andThen, h]

/-- Two calls, then a third. -/
theorem andThen_assoc {γ : Type u} (m : Checked σ α) (f : α → Checked σ β) (g : β → Checked σ γ) :
    m >>= f >>= g = m >>= fun a => f a >>= g := by
  funext s
  show andThen (andThen m f) g s = andThen m (fun a => andThen (f a) g) s
  cases hm : m s with
  | ok a t => simp only [andThen, hm]
  | fail t => simp only [andThen, hm]
  | fault => simp only [andThen, hm]
  | outOfFuel => simp only [andThen, hm]

theorem bind_get (f : σ → Checked σ β) (s : σ) : ((get : Checked σ σ) >>= f) s = f s s := rfl

theorem bind_modify (g : σ → σ) (f : PUnit → Checked σ β) (s : σ) :
    (modify g >>= f) s = f ⟨⟩ (g s) := rfl

/-- The call ends: where it returns `Q` holds, where it fails `R`. -/
def Ends (m : Checked σ α) (s : σ) (Q : α → σ → Prop) (R : σ → Prop) : Prop :=
  match m s with
  | .ok a t => Q a t
  | .fail t => R t
  | .fault => False
  | .outOfFuel => False

namespace Ends

variable {m : Checked σ α} {s : σ} {Q Q' : α → σ → Prop} {R R' : σ → Prop}

theorem of_ok {a : α} {t : σ} (h : m s = .ok a t) (hQ : Q a t) : Ends m s Q R := by
  rw [Ends, h]
  exact hQ

theorem of_fail {t : σ} (h : m s = .fail t) (hR : R t) : Ends m s Q R := by
  rw [Ends, h]
  exact hR

/-- The consequence rule. -/
theorem imp (h : Ends m s Q R) (hQ : ∀ a t, Q a t → Q' a t) (hR : ∀ t, R t → R' t) :
    Ends m s Q' R' := by
  rw [Ends] at h ⊢
  split at h
  · exact hQ _ _ h
  · exact hR _ h
  · exact h
  · exact h

/-- The rule of composition. -/
theorem bind {f : α → Checked σ β} {Q'' : β → σ → Prop} (h : Ends m s Q R)
    (hf : ∀ a t, Q a t → Ends (f a) t Q'' R) : Ends (m >>= f) s Q'' R := by
  rw [Ends] at h
  show match andThen m f s with
    | .ok a t => Q'' a t
    | .fail t => R t
    | .fault => False
    | .outOfFuel => False
  rw [andThen]
  split at h
  · exact hf _ _ h
  · exact h
  · exact h
  · exact h

/-- A call that returns, and the rest. -/
theorem bind_ok {f : α → Checked σ β} {Q : β → σ → Prop} {a : α} {t : σ} (h : m s = .ok a t)
    (hf : Ends (f a) t Q R) : Ends (m >>= f) s Q R := by
  rw [Ends, bind_of_ok h]
  exact hf

/-- What holds behind a call that returned. -/
theorem ok {a : α} {t : σ} (h : Ends m s Q R) (hm : m s = .ok a t) : Q a t := by
  rw [Ends, hm] at h
  exact h

/-- The call returns or fails. -/
theorem cases (h : Ends m s Q R) :
    (∃ a t, m s = .ok a t ∧ Q a t) ∨ ∃ t, m s = .fail t ∧ R t := by
  rw [Ends] at h
  split at h
  · exact .inl ⟨_, _, by assumption, h⟩
  · exact .inr ⟨_, by assumption, h⟩
  · exact h.elim
  · exact h.elim

end Ends

end Checked

/-
Calls that allocate, and what they leave behind.

Any allocation may fail, and the blocks that live are counted: a block given back twice, or never,
shows in the balance, unless one call does both.

* `Heap`, `HeapM` — the count, and the calls, a monad;
* `HeapM.allocate`, `HeapM.release` — one block, and some given back;
* `HeapM.Accounts` — the triple: what a call returns, and what it costs;
* `Accounts.bind`, `Accounts.imp` — its rules.
-/
import Mathlib.Tactic

universe u

/-- The allocations so far, and how many blocks live. -/
structure Heap where
  calls : ℕ
  live : ℤ

/-- A call. -/
def HeapM (α : Type u) : Type u := Heap → α × Heap

namespace HeapM

variable {α β : Type u}

instance : Monad HeapM where
  pure a := fun h => (a, h)
  bind m f := fun h => f (m h).1 (m h).2

/-- One allocation, which may fail. -/
def allocate (malloc : ℕ → Bool) : HeapM Bool := fun h =>
  (malloc h.calls, ⟨h.calls + 1, h.live + if malloc h.calls then 1 else 0⟩)

/-- Blocks given back. -/
def release (n : ℕ) : HeapM PUnit := fun h => (⟨⟩, { h with live := h.live - n })

/-- What the call returns satisfies `P`, and it leaves `cost` of it. -/
def Accounts (m : HeapM α) (P : α → Prop) (cost : α → ℤ) : Prop :=
  ∀ h, P (m h).1 ∧ (m h).2.live = h.live + cost (m h).1

namespace Accounts

variable {m : HeapM α} {f : α → HeapM β} {P P' : α → Prop} {Q : β → Prop} {cost cost' : α → ℤ}
variable {total : β → ℤ}

theorem ret {a : α} (hP : P a) (hcost : cost a = 0) : Accounts (pure a) P cost := by
  intro h
  exact ⟨hP, by show h.live = h.live + cost a; omega⟩

theorem bind (hm : Accounts m P cost)
    (hf : ∀ a, P a → Accounts (f a) Q fun b => total b - cost a) :
    Accounts (m >>= f) Q total := by
  intro h
  obtain ⟨hP, hlive⟩ := hm h
  obtain ⟨hQ, htotal⟩ := hf _ hP (m h).2
  dsimp only at htotal
  refine ⟨hQ, ?_⟩
  show (f (m h).1 (m h).2).2.live = h.live + total (f (m h).1 (m h).2).1
  omega

/-- The consequence rule. -/
theorem imp (hm : Accounts m P cost) (hP : ∀ a, P a → P' a)
    (hcost : ∀ a, P a → cost a = cost' a) : Accounts m P' cost' := by
  intro h
  obtain ⟨ha, hlive⟩ := hm h
  exact ⟨hP _ ha, by rw [hlive, hcost _ ha]⟩

theorem allocate (malloc : ℕ → Bool) :
    Accounts (allocate malloc) (fun ok => (∀ n, malloc n = true) → ok = true)
      fun ok => if ok then 1 else 0 := by
  intro h
  exact ⟨fun hall => hall _, rfl⟩

theorem release (n : ℕ) : Accounts (release n) (fun _ => True) fun _ => -(n : ℤ) := by
  intro h
  exact ⟨trivial, sub_eq_add_neg _ _⟩

end Accounts

end HeapM

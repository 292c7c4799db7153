/-
Ownership of numbered resources.

A resource is issued once, to a holder.  Holders hand resources on without the ledger
noticing; what it sees is that a resource is released, which ends its life, or
dropped, after which nobody holds it and nobody will release it.

* `Ledger` — the resources issued, held and released, with the three moves;
* `Ledger.law` — nothing is held twice, released twice, or held and released;
* `Ledger.law_of_not_drop` — if nothing is dropped, what was not released is held.
-/
import SentrySystem.Lib.Transition

universe u

/-- The resources issued, those held, each as often as it is held, and those released. -/
structure Ledger (α : Type u) where
  issued : Multiset α
  held : Multiset α
  released : Multiset α

namespace Ledger

variable {α : Type u}

/-- Each resource is issued once, and held or released at most once, not both. -/
structure Law (L : Ledger α) : Prop where
  issued_nodup : L.issued.Nodup
  accounted : L.held + L.released ≤ L.issued

theorem Law.released_nodup {L : Ledger α} (h : L.Law) : L.released.Nodup :=
  Multiset.nodup_of_le ((Multiset.le_add_left _ _).trans h.accounted) h.issued_nodup

theorem Law.issued_of_held {L : Ledger α} (h : L.Law) {x : α} (hx : x ∈ L.held) :
    x ∈ L.issued :=
  Multiset.mem_of_le h.accounted (Multiset.mem_add.mpr (.inl hx))

/-- What is held was not released. -/
theorem Law.not_released {L : Ledger α} (h : L.Law) {x : α} (hx : x ∈ L.held) :
    x ∉ L.released := by
  have hnodup : (L.held + L.released).Nodup := Multiset.nodup_of_le h.accounted h.issued_nodup
  exact Multiset.disjoint_left.mp (Multiset.nodup_add.mp hnodup).2.2 hx

/-! ### What can happen -/

variable [DecidableEq α]

/-- What can happen to a resource. -/
inductive Action (α : Type u)
  | issue (x : α)
  | release (x : α)
  | drop (x : α)

/-- Whether an action loses a resource. -/
def Action.isDrop : Action α → Bool
  | drop _ => true
  | _ => false

/-- One step: only a new resource is issued, only a held one is released or dropped. -/
def step (L : Ledger α) : Action α → Option (Ledger α)
  | .issue x =>
    if x ∈ L.issued then none else some ⟨x ::ₘ L.issued, x ::ₘ L.held, L.released⟩
  | .release x =>
    if x ∈ L.held then some ⟨L.issued, L.held.erase x, x ::ₘ L.released⟩ else none
  | .drop x => if x ∈ L.held then some ⟨L.issued, L.held.erase x, L.released⟩ else none

/-- The ledger, with nothing issued at first. -/
def system (α : Type u) [DecidableEq α] : TransitionSystem (Ledger α) (Action α) :=
  ⟨⟨0, 0, 0⟩, step⟩

/-! ### Steps read off the holders -/

theorem step_issue {L : Ledger α} {x : α} {held : Multiset α} (hnew : x ∉ L.issued)
    (hheld : held = x ::ₘ L.held) :
    L.step (.issue x) = some ⟨x ::ₘ L.issued, held, L.released⟩ := by
  rw [step, if_neg hnew, hheld]

theorem step_release {L : Ledger α} {x : α} {held : Multiset α} (hheld : L.held = x ::ₘ held) :
    L.step (.release x) = some ⟨L.issued, held, x ::ₘ L.released⟩ := by
  rw [step, hheld, if_pos (Multiset.mem_cons_self x held), Multiset.erase_cons_head]

theorem step_drop {L : Ledger α} {x : α} {held : Multiset α} (hheld : L.held = x ::ₘ held) :
    L.step (.drop x) = some ⟨L.issued, held, L.released⟩ := by
  rw [step, hheld, if_pos (Multiset.mem_cons_self x held), Multiset.erase_cons_head]

/-! ### The law holds -/

theorem Law.step {L L' : Ledger α} {a : Action α} (h : L.Law) (ht : L.step a = some L') :
    L'.Law := by
  obtain ⟨hnodup, hle⟩ := h
  cases a with
  | issue x =>
    simp only [Ledger.step] at ht
    split_ifs at ht with hnew
    rw [Option.some_inj] at ht
    subst ht
    refine ⟨Multiset.nodup_cons.mpr ⟨hnew, hnodup⟩, ?_⟩
    rw [Multiset.cons_add]
    exact Multiset.cons_le_cons x hle
  | release x =>
    simp only [Ledger.step] at ht
    split_ifs at ht with hmem
    rw [Option.some_inj] at ht
    subst ht
    refine ⟨hnodup, ?_⟩
    show L.held.erase x + x ::ₘ L.released ≤ L.issued
    rwa [Multiset.add_cons, ← Multiset.cons_add, Multiset.cons_erase hmem]
  | drop x =>
    simp only [Ledger.step] at ht
    split_ifs at ht with hmem
    rw [Option.some_inj] at ht
    subst ht
    exact ⟨hnodup, (add_le_add_left (Multiset.erase_le x L.held) L.released).trans hle⟩

/-- **The law of the ledger** holds in every state it reaches. -/
theorem law {L : Ledger α} (h : (system α).Reachable L) : L.Law :=
  h.invariant ⟨Multiset.nodup_zero, le_refl _⟩ fun _ _ _ hL _ ht => hL.step ht

/-- **If nothing is dropped, everything issued is held or released.** -/
theorem law_of_not_drop {L : Ledger α}
    (h : (system α).Via (fun _ a => a.isDrop = false) L) : L.held + L.released = L.issued := by
  refine h.invariant (P := fun L => L.held + L.released = L.issued) rfl ?_
  intro L a L' hL hgood ht
  cases a with
  | issue x =>
    simp only [system, step] at ht
    split_ifs at ht with hnew
    rw [Option.some_inj] at ht
    subst ht
    show x ::ₘ L.held + L.released = x ::ₘ L.issued
    rw [Multiset.cons_add, hL]
  | release x =>
    simp only [system, step] at ht
    split_ifs at ht with hmem
    rw [Option.some_inj] at ht
    subst ht
    show L.held.erase x + x ::ₘ L.released = L.issued
    rw [Multiset.add_cons, ← Multiset.cons_add, Multiset.cons_erase hmem, hL]
  | drop x => simp [Action.isDrop] at hgood

end Ledger

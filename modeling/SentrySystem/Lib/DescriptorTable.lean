/-
A table of numbered descriptors.

A number is free or stands for an open object; a new object gets the lowest free
number, so a number that was closed comes back.

* `allocate`, `close`, `update`, `get` — the operations;
* `get_allocate_self`, `get_allocate_of_ne`, `get_close_self`, `get_close_of_ne` — what they
  do to each number;
* `count_allocate`, `count_close`, `count_update` — what they do to the number of open objects.
-/
import Mathlib.Tactic

universe u

/-- The objects open under the numbers from 0 on, `none` where the number is free. -/
structure DescriptorTable (α : Type u) where
  slots : List (Option α)

namespace DescriptorTable

variable {α : Type u}

/-- The object open under a number. -/
def get (t : DescriptorTable α) (n : ℕ) : Option α := t.slots[n]?.join

/-- The lowest free number. -/
def lowestFree (t : DescriptorTable α) : ℕ := t.slots.findIdx Option.isNone

/-- An object is opened under the lowest free number. -/
def allocate (t : DescriptorTable α) (x : α) : DescriptorTable α :=
  if t.lowestFree < t.slots.length then ⟨t.slots.set t.lowestFree (some x)⟩
  else ⟨t.slots ++ [some x]⟩

/-- A number is closed; one that is free stays so. -/
def close (t : DescriptorTable α) (n : ℕ) : DescriptorTable α := ⟨t.slots.set n none⟩

theorem lowestFree_le (t : DescriptorTable α) : t.lowestFree ≤ t.slots.length :=
  List.findIdx_le_length

@[simp] theorem get_lowestFree (t : DescriptorTable α) : t.get t.lowestFree = none := by
  rcases lt_or_eq_of_le t.lowestFree_le with hlt | heq
  · have hnone : t.slots[t.lowestFree].isNone = true := List.findIdx_getElem (w := hlt)
    rw [get, List.getElem?_eq_getElem hlt, Option.isNone_iff_eq_none.mp hnone]
    rfl
  · rw [get, heq, List.getElem?_eq_none le_rfl]
    rfl

@[simp] theorem get_allocate_self (t : DescriptorTable α) (x : α) :
    (t.allocate x).get t.lowestFree = some x := by
  rw [allocate]
  split_ifs with hlt
  · rw [get, List.getElem?_set_self hlt]
    rfl
  · have heq : t.lowestFree = t.slots.length := le_antisymm t.lowestFree_le (Nat.not_lt.mp hlt)
    rw [get, heq, List.getElem?_append_right le_rfl, Nat.sub_self]
    rfl

theorem get_allocate_of_ne (t : DescriptorTable α) (x : α) {n : ℕ} (h : n ≠ t.lowestFree) :
    (t.allocate x).get n = t.get n := by
  rw [allocate]
  split_ifs with hlt
  · rw [get, List.getElem?_set_ne h.symm]
    rfl
  · have heq : t.lowestFree = t.slots.length := le_antisymm t.lowestFree_le (Nat.not_lt.mp hlt)
    rcases Nat.lt_or_ge n t.slots.length with hin | hout
    · rw [get, List.getElem?_append_left hin]
      rfl
    · rw [get, List.getElem?_append_right hout, List.getElem?_eq_none (by simp; omega), get,
        List.getElem?_eq_none hout]

@[simp] theorem get_close_self (t : DescriptorTable α) (n : ℕ) : (t.close n).get n = none := by
  rw [close, get]
  rcases Nat.lt_or_ge n t.slots.length with hin | hout
  · rw [List.getElem?_set_self hin]
    rfl
  · rw [List.getElem?_eq_none (by rw [List.length_set]; exact hout)]
    rfl

theorem get_close_of_ne (t : DescriptorTable α) {m n : ℕ} (h : m ≠ n) :
    (t.close n).get m = t.get m := by
  rw [close, get, List.getElem?_set_ne h.symm]
  rfl

/-- The object under a number is replaced. -/
def update (t : DescriptorTable α) (n : ℕ) (x : α) : DescriptorTable α := ⟨t.slots.set n (some x)⟩

/-- The number of open objects. -/
def count (t : DescriptorTable α) : ℕ := t.slots.countP Option.isSome

/-- An open number. -/
theorem lt_of_get {t : DescriptorTable α} {n : ℕ} {x : α} (h : t.get n = some x) :
    ∃ hlt : n < t.slots.length, t.slots[n] = some x := by
  rcases Nat.lt_or_ge n t.slots.length with hlt | hge
  · rw [get, List.getElem?_eq_getElem hlt] at h
    exact ⟨hlt, h⟩
  · rw [get, List.getElem?_eq_none hge] at h
    cases h

@[simp] theorem get_update_self {t : DescriptorTable α} {n : ℕ} {x : α} (h : t.get n = some x)
    (y : α) : (t.update n y).get n = some y := by
  obtain ⟨hlt, -⟩ := lt_of_get h
  rw [update, get, List.getElem?_set_self hlt]
  rfl

theorem count_update {t : DescriptorTable α} {n : ℕ} {x : α} (h : t.get n = some x) (y : α) :
    (t.update n y).count = t.count := by
  obtain ⟨hlt, hget⟩ := lt_of_get h
  have hpos : 0 < t.slots.countP Option.isSome :=
    List.countP_pos_iff.mpr ⟨_, List.getElem_mem hlt, by rw [hget]; rfl⟩
  rw [update, count, count, List.countP_set hlt, hget]
  simp only [Option.isSome_some, if_true]
  omega

theorem count_close {t : DescriptorTable α} {n : ℕ} {x : α} (h : t.get n = some x) :
    (t.close n).count + 1 = t.count := by
  obtain ⟨hlt, hget⟩ := lt_of_get h
  have hpos : 0 < t.slots.countP Option.isSome :=
    List.countP_pos_iff.mpr ⟨_, List.getElem_mem hlt, by rw [hget]; rfl⟩
  rw [close, count, count, List.countP_set hlt, hget]
  simp only [Option.isSome_some, Option.isSome_none, if_true, Bool.false_eq_true, if_false]
  omega

theorem count_allocate (t : DescriptorTable α) (x : α) : (t.allocate x).count = t.count + 1 := by
  rw [allocate]
  split_ifs with hlt
  · have hfree : t.slots[t.lowestFree] = none :=
      Option.isNone_iff_eq_none.mp (List.findIdx_getElem (w := hlt))
    rw [count, count, List.countP_set hlt, hfree]
    simp
  · rw [count, count, List.countP_append]
    rfl

end DescriptorTable

/-
The entries of a finite map, counted.

* `Submap` — the map with entries removed;
* `size_le_of_keys`, `le_size_of_keys`, `Submap.size_le` — what bounds its size;
* `exists_mem_of_size` — a map as large as the numbers its keys may stand for has a
  key for each of them;
* `getElem?_foldl_erase` — a loop over the keys that erases some of them.
-/
import Mathlib

universe u v

namespace MapSize

open Std

variable {α : Type u} {β : Type v} [Ord α] [TransOrd α]

theorem mem_of_getElem? {m : ExtTreeMap α β} {k : α} {v : β} (h : m[k]? = some v) : k ∈ m := by
  rw [ExtTreeMap.mem_iff_isSome_getElem?, h]
  rfl

theorem getElem?_of_mem {m : ExtTreeMap α β} {k : α} (h : k ∈ m) : ∃ v, m[k]? = some v := by
  rw [ExtTreeMap.mem_iff_isSome_getElem?] at h
  exact Option.isSome_iff_exists.mp h

theorem getElem?_of_not_mem {m : ExtTreeMap α β} {k : α} (h : k ∉ m) : m[k]? = none := by
  rw [ExtTreeMap.mem_iff_isSome_getElem?, Bool.not_eq_true, Option.isSome_eq_false_iff] at h
  exact Option.isNone_iff_eq_none.mp h

/-- Every entry of `s` is an entry of `t`. -/
def Submap (s t : ExtTreeMap α β) : Prop := ∀ (k : α) (v : β), s[k]? = some v → t[k]? = some v

namespace Submap

variable {s t u : ExtTreeMap α β}

theorem trans (h : Submap s t) (h' : Submap t u) : Submap s u := fun k v hk => h' k v (h k v hk)

theorem mem (h : Submap s t) {k : α} (hk : k ∈ s) : k ∈ t := by
  obtain ⟨v, hv⟩ := getElem?_of_mem hk
  exact mem_of_getElem? (h k v hv)

theorem erase_left (s : ExtTreeMap α β) (k : α) : Submap (s.erase k) s := by
  intro j v hj
  rw [ExtTreeMap.getElem?_erase] at hj
  split_ifs at hj
  exact hj

theorem erase (h : Submap s t) (k : α) : Submap (s.erase k) (t.erase k) := by
  intro j v hj
  rw [ExtTreeMap.getElem?_erase] at hj ⊢
  split_ifs at hj ⊢
  exact h j v hj

/-- A key that is erased may have been replaced before. -/
theorem erase_insert (s : ExtTreeMap α β) (k : α) (v : β) :
    Submap ((s.insert k v).erase k) (s.erase k) := by
  intro j w hj
  rw [ExtTreeMap.getElem?_erase, ExtTreeMap.getElem?_insert] at hj
  rw [ExtTreeMap.getElem?_erase]
  split_ifs at hj ⊢
  exact hj

end Submap

/-- Listed keys with the property go. -/
theorem getElem?_foldl_erase_of_mem {p : α → Prop} [DecidablePred p] {j : α} (hj : p j)
    (l : List α) : ∀ m : ExtTreeMap α β, j ∈ l ∨ m[j]? = none →
      (l.foldl (fun m k => if p k then m.erase k else m) m)[j]? = none := by
  induction l with
  | nil =>
    intro m hm
    exact hm.resolve_left List.not_mem_nil
  | cons k l ih =>
    intro m hm
    rw [List.foldl_cons]
    refine ih _ ?_
    by_cases hkj : k = j
    · subst hkj
      rw [if_pos hj]
      exact .inr ExtTreeMap.getElem?_erase_self
    rcases hm with hm | hm
    · exact .inl ((List.mem_cons.mp hm).resolve_left (Ne.symm hkj))
    · refine .inr ?_
      split_ifs
      · rw [ExtTreeMap.getElem?_erase, hm, ite_self]
      · exact hm

variable [LawfulEqOrd α]

/-- A map with keys from a list has no more entries than the list. -/
theorem size_le_of_keys {m : ExtTreeMap α β} {l : List α} (h : ∀ k ∈ m, k ∈ l) :
    m.size ≤ l.length := by
  rw [← ExtTreeMap.length_keys]
  refine (List.Nodup.subperm ExtTreeMap.nodup_keys ?_).length_le
  intro k hk
  exact h k (ExtTreeMap.mem_keys.mp hk)

/-- A map has at least as many entries as a list of different keys of it. -/
theorem le_size_of_keys {m : ExtTreeMap α β} {l : List α} (hl : l.Nodup) (h : ∀ k ∈ l, k ∈ m) :
    l.length ≤ m.size := by
  rw [← ExtTreeMap.length_keys]
  refine (hl.subperm ?_).length_le
  intro k hk
  exact ExtTreeMap.mem_keys.mpr (h k hk)

theorem Submap.size_le {s t : ExtTreeMap α β} (h : Submap s t) : s.size ≤ t.size := by
  rw [← @ExtTreeMap.length_keys α β compare t]
  exact size_le_of_keys fun k hk => ExtTreeMap.mem_keys.mpr (h.mem hk)

/-- If the keys of a map stand for different numbers below `n`, and there are `n` of them, each
number below `n` has its key. -/
theorem exists_mem_of_size {m : ExtTreeMap α β} {f : α → ℕ} (hf : Function.Injective f) {n : ℕ}
    (hlt : ∀ k ∈ m, f k < n) (hsize : m.size = n) {i : ℕ} (hi : i < n) : ∃ k ∈ m, f k = i := by
  have hnodup : (m.keys.map f).Nodup := (List.nodup_map_iff hf).mpr ExtTreeMap.nodup_keys
  have hsub : (m.keys.map f) ⊆ List.range n := by
    intro j hj
    obtain ⟨k, hk, rfl⟩ := List.mem_map.mp hj
    exact List.mem_range.mpr (hlt k (ExtTreeMap.mem_keys.mp hk))
  have hlength : (List.range n).length ≤ (m.keys.map f).length := by
    rw [List.length_range, List.length_map, ExtTreeMap.length_keys, hsize]
  have hperm : (m.keys.map f).Perm (List.range n) :=
    (hnodup.subperm hsub).perm_of_length_le hlength
  obtain ⟨k, hk, hki⟩ := List.mem_map.mp (hperm.mem_iff.mpr (List.mem_range.mpr hi))
  exact ⟨k, ExtTreeMap.mem_keys.mp hk, hki⟩

/-- Keys without the property stay. -/
theorem getElem?_foldl_erase_of_not {p : α → Prop} [DecidablePred p] {j : α} (hj : ¬ p j)
    (l : List α) : ∀ m : ExtTreeMap α β,
      (l.foldl (fun m k => if p k then m.erase k else m) m)[j]? = m[j]? := by
  induction l with
  | nil =>
    intro m
    rfl
  | cons k l ih =>
    intro m
    rw [List.foldl_cons, ih]
    split_ifs with hk
    · have hne : k ≠ j := by
        rintro rfl
        exact hj hk
      rw [ExtTreeMap.getElem?_erase, if_neg (by simpa using hne)]
    · rfl

/-- **The loop that erases the keys with a property.** -/
theorem getElem?_foldl_erase (p : α → Prop) [DecidablePred p] (m : ExtTreeMap α β) (j : α) :
    (m.keys.foldl (fun m k => if p k then m.erase k else m) m)[j]? =
      if p j then none else m[j]? := by
  split_ifs with hj
  · refine getElem?_foldl_erase_of_mem hj _ m ?_
    by_cases hm : j ∈ m
    · exact .inl (ExtTreeMap.mem_keys.mpr hm)
    · exact .inr (getElem?_of_not_mem hm)
  · exact getElem?_foldl_erase_of_not hj _ m

end MapSize

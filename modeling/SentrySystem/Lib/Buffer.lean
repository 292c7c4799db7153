/-
Copies into a buffer, as operations on the list of its cells.

* `memmove` — a block of the buffer copied to another place of it;
* `writeAt` — new cells stored at an offset;
* `take_memmove_one` — what a block moved down by one cell leaves in front;
* `FixedBuffer`, `FixedBuffer.memcpy` — a buffer of a fixed size, and a copy to it, which may leave
  the buffer or its source;
* `storeAt`, `load` — cells stored to and loaded from the memory at a pointer, which has no end;
* `copyTo` — a copy from one memory to another, with the offsets it reads.
-/
import Mathlib.Tactic

universe u

variable {α : Type u}

/-- `memmove(buf + dst, buf + src, n)`. -/
def memmove (buf : List α) (dst src n : ℕ) : List α :=
  buf.take dst ++ ((buf.drop src).take n ++ buf.drop (dst + n))

/-- Storing `cells` at `buf + off`. -/
def writeAt (buf : List α) (off : ℕ) (cells : List α) : List α :=
  buf.take off ++ (cells ++ buf.drop (off + cells.length))

theorem length_memmove {buf : List α} {dst src n : ℕ} (hdst : dst + n ≤ buf.length)
    (hsrc : src + n ≤ buf.length) : (memmove buf dst src n).length = buf.length := by
  simp only [memmove, List.length_append, List.length_take, List.length_drop]
  omega

theorem length_writeAt {buf : List α} {off : ℕ} {cells : List α}
    (h : off + cells.length ≤ buf.length) : (writeAt buf off cells).length = buf.length := by
  simp only [writeAt, List.length_append, List.length_take, List.length_drop]
  omega

/-- Behind a move down by one cell stands what stood one cell up. -/
theorem take_memmove_one {buf : List α} {n : ℕ} (h : n + 1 ≤ buf.length) :
    (memmove buf 0 1 n).take n = (buf.drop 1).take n := by
  have hlen : ((buf.drop 1).take n).length = n := by
    simp only [List.length_take, List.length_drop]
    omega
  rw [memmove, List.take_zero, List.nil_append, List.take_left' hlen]

/-- A buffer of `n` cells. -/
structure FixedBuffer (α : Type u) (n : ℕ) where
  cells : List α
  length_eq : cells.length = n

namespace FixedBuffer

variable {n : ℕ}

/-- `memcpy(dst, src, k)`; `none` if it leaves one of the two. -/
def memcpy (dst : FixedBuffer α n) (src : List α) (k : ℕ) : Option (FixedBuffer α n) :=
  if h : k ≤ n ∧ k ≤ src.length then
    some
      { cells := writeAt dst.cells 0 (src.take k)
        length_eq := by
          rw [length_writeAt, dst.length_eq]
          rw [Nat.zero_add, dst.length_eq, List.length_take]
          exact (min_le_left _ _).trans h.1 }
  else none

theorem isSome_memcpy (dst : FixedBuffer α n) (src : List α) (k : ℕ) :
    (dst.memcpy src k).isSome ↔ k ≤ n ∧ k ≤ src.length := by
  rw [memcpy]
  split_ifs with h
  · simp [h]
  · simp [h]

/-- The buffer starts with what was copied. -/
theorem take_memcpy {dst dst' : FixedBuffer α n} {src : List α} {k : ℕ}
    (h : dst.memcpy src k = some dst') : dst'.cells.take k = src.take k := by
  rw [memcpy] at h
  split_ifs at h with hk
  have hlen : (src.take k).length = k := by
    rw [List.length_take]
    exact min_eq_left hk.2
  rw [← Option.some_inj.mp h]
  show (dst.cells.take 0 ++ (src.take k ++ _)).take k = src.take k
  rw [List.take_zero, List.nil_append, List.take_left' hlen]

end FixedBuffer

/-- The memory at a pointer, after cells were stored at an offset. -/
def storeAt (mem : ℕ → α) (off : ℕ) (cells : List α) (i : ℕ) : α :=
  if off ≤ i then cells[i - off]?.getD (mem i) else mem i

/-- The `n` cells at an offset. -/
def load (mem : ℕ → α) (off n : ℕ) : List α := (List.range n).map fun i => mem (off + i)

@[simp] theorem length_load (mem : ℕ → α) (off n : ℕ) : (load mem off n).length = n := by
  rw [load, List.length_map, List.length_range]

@[simp] theorem storeAt_nil (mem : ℕ → α) (off : ℕ) : storeAt mem off [] = mem := by
  funext i
  simp [storeAt]

/-- Cells stored behind one another. -/
theorem storeAt_append (mem : ℕ → α) (off : ℕ) (cells more : List α) :
    storeAt (storeAt mem off cells) (off + cells.length) more =
      storeAt mem off (cells ++ more) := by
  funext i
  simp only [storeAt]
  by_cases hmore : off + cells.length ≤ i
  · rw [if_pos hmore, if_pos (by omega), if_pos (by omega),
      List.getElem?_append_right (by omega), List.getElem?_eq_none (l := cells) (by omega),
      Nat.sub_sub]
    rfl
  · rw [if_neg hmore]
    by_cases hcells : off ≤ i
    · rw [if_pos hcells, if_pos hcells, List.getElem?_append_left (by omega)]
    · rw [if_neg hcells, if_neg hcells]

/-- What was stored is loaded. -/
theorem load_storeAt (mem : ℕ → α) (off : ℕ) (cells : List α) {k n : ℕ}
    (h : k + n ≤ cells.length) :
    load (storeAt mem off cells) (off + k) n = (cells.drop k).take n := by
  refine List.ext_getElem (by simp; omega) ?_
  intro i hi hi'
  rw [length_load] at hi
  have hbound : k + i < cells.length := by omega
  have hcell : cells[off + k + i - off]? = some cells[k + i] := by
    rw [show off + k + i - off = k + i by omega]
    exact List.getElem?_eq_getElem _
  simp only [load, List.getElem_map, List.getElem_range, List.getElem_take, List.getElem_drop]
  rw [storeAt, if_pos (by omega), hcell]
  rfl

/-- A store elsewhere. -/
theorem load_storeAt_self (mem : ℕ → α) (off : ℕ) (cells : List α) :
    load (storeAt mem off cells) off cells.length = cells := by
  have hload := load_storeAt mem off cells (k := 0) (n := cells.length) (Nat.zero_add _).le
  rwa [Nat.add_zero, List.drop_zero, List.take_length] at hload

theorem load_storeAt_of_disjoint (mem : ℕ → α) {off off' n : ℕ} {cells : List α}
    (h : off' + n ≤ off ∨ off + cells.length ≤ off') :
    load (storeAt mem off cells) off' n = load mem off' n := by
  refine List.map_congr_left ?_
  intro i hi
  rw [List.mem_range] at hi
  rw [storeAt]
  split_ifs with hoff
  · rw [List.getElem?_eq_none (by omega)]
    rfl
  · rfl

/-- Cells loaded in two parts. -/
theorem load_add (mem : ℕ → α) (off k n : ℕ) :
    load mem off (k + n) = load mem off k ++ load mem (off + k) n := by
  rw [load, List.range_add, List.map_append, List.map_map, load, load]
  congr 1
  refine List.map_congr_left fun i _ => ?_
  rw [Function.comp_apply, Nat.add_assoc]

/-- A part of what was loaded. -/
theorem take_drop_load (mem : ℕ → α) (off : ℕ) {k n m : ℕ} (h : k + n ≤ m) :
    ((load mem off m).drop k).take n = load mem (off + k) n := by
  obtain ⟨r, rfl⟩ := Nat.exists_eq_add_of_le h
  rw [Nat.add_assoc, load_add, List.drop_left' (length_load _ _ _), load_add,
    List.take_left' (length_load _ _ _)]

/-- Cells that are there already. -/
theorem storeAt_load (mem : ℕ → α) (off n : ℕ) : storeAt mem off (load mem off n) = mem := by
  funext i
  rw [storeAt]
  split_ifs with hoff
  · by_cases hin : i - off < n
    · have hcell : (load mem off n)[i - off]? = some (mem i) := by
        rw [List.getElem?_eq_getElem (by rw [length_load]; exact hin)]
        simp only [load, List.getElem_map, List.getElem_range]
        rw [Nat.add_sub_cancel' hoff]
      rw [hcell]
      rfl
    · rw [List.getElem?_eq_none (by rw [length_load]; omega)]
      rfl
  · rfl

/-- `memcpy(mem + off, src, n)`: the memory behind it, and the offsets read at `src`. -/
def copyTo (mem : ℕ → α) (off : ℕ) (src : ℕ → α) (n : ℕ) : (ℕ → α) × List ℕ :=
  (storeAt mem off (load src 0 n), List.range n)

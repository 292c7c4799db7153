/-
Most-significant-bit-first cyclic redundancy checks, over a register of any
width.

* `MsbCrc.shift1 p` — one clock of the register with feedback polynomial `p`;
* `shift1_xor`, `shifts_xor` — clocking is linear in exclusive or;
* `shifts_of_clear` — a register whose top `k` bits are clear is only shifted
  by `k` clocks;
* `shifts_byte` — **table-driven = bit by bit**: eight clocks of the register
  with a byte fed into its top are the table entry of (top byte `^` byte),
  exclusive-ored with the register moved up one byte.
-/
import Mathlib.Tactic

namespace MsbCrc

variable {w : ℕ}

/-- One clock of the register: shift up, feeding `p` back when a bit falls out. -/
def shift1 (p x : BitVec w) : BitVec w :=
  if x.msb then (x <<< 1) ^^^ p else x <<< 1

/-- `n` clocks of the register. -/
def shifts (p : BitVec w) : ℕ → BitVec w → BitVec w
  | 0, x => x
  | n + 1, x => shift1 p (shifts p n x)

theorem shift1_xor (p x y : BitVec w) :
    shift1 p (x ^^^ y) = shift1 p x ^^^ shift1 p y := by
  rw [shift1, shift1, shift1, BitVec.msb_xor, BitVec.shiftLeft_xor_distrib]
  cases x.msb <;> cases y.msb <;> simp
  · ac_rfl
  · ac_rfl
  · -- the feedback of the two summands cancels
    rw [BitVec.xor_assoc, BitVec.xor_comm p, BitVec.xor_assoc, BitVec.xor_self, BitVec.xor_zero]

/-- Clocking the register is linear. -/
theorem shifts_xor (p : BitVec w) : ∀ (n : ℕ) (x y : BitVec w),
    shifts p n (x ^^^ y) = shifts p n x ^^^ shifts p n y := by
  intro n
  induction n with
  | zero =>
    intro x y
    rfl
  | succ n ih =>
    intro x y
    rw [shifts, shifts, shifts, ih, shift1_xor]

/-- While the top bits are clear nothing is fed back. -/
theorem shifts_of_clear (p : BitVec w) : ∀ (k : ℕ) (x : BitVec w), k ≤ w →
    (∀ i, w - k ≤ i → x.getLsbD i = false) → shifts p k x = x <<< k := by
  intro k
  induction k with
  | zero =>
    intro x _ _
    simp [shifts]
  | succ k ih =>
    intro x hk hclear
    have hmsb : (x <<< k).msb = false := by
      rw [BitVec.msb_eq_getLsbD_last, BitVec.getLsbD_shiftLeft, hclear _ (by omega),
        Bool.and_false]
    rw [shifts, ih x (by omega) (fun i hi => hclear i (by omega)), shift1,
      if_neg (by simp [hmsb]), ← BitVec.shiftLeft_add]

/-- A byte placed in the top eight bits of the register. -/
def topByte (w : ℕ) (b : BitVec 8) : BitVec w := b.setWidth w <<< (w - 8)

theorem topByte_xor (a b : BitVec 8) : topByte w (a ^^^ b) = topByte w a ^^^ topByte w b := by
  rw [topByte, topByte, topByte, BitVec.setWidth_xor, BitVec.shiftLeft_xor_distrib]

/-- Clearing the top byte of a register leaves its top eight bits clear. -/
theorem clear_top (hw : 8 ≤ w) (x : BitVec w) :
    ∀ i, w - 8 ≤ i →
      (x ^^^ topByte w ((x >>> (w - 8)).setWidth 8)).getLsbD i = false := by
  intro i hi
  by_cases hlt : i < w
  · simp only [topByte, BitVec.getLsbD_xor, BitVec.getLsbD_shiftLeft, BitVec.getLsbD_setWidth,
      BitVec.getLsbD_ushiftRight]
    have hadd : w - 8 + (i - (w - 8)) = i := by omega
    have h8 : i - (w - 8) < 8 := by omega
    have hw' : i - (w - 8) < w := by omega
    have hge : ¬ i < w - 8 := by omega
    simp [hadd, h8, hw', hlt, hge]
  · exact BitVec.getLsbD_of_ge _ _ (by omega)

/-- The top byte falls out of the register when it is shifted up by eight. -/
theorem topByte_shiftLeft (hw : 8 ≤ w) (b : BitVec 8) : topByte w b <<< 8 = 0#w := by
  apply BitVec.eq_of_getLsbD_eq
  intro i hi
  simp only [topByte, BitVec.getLsbD_shiftLeft, BitVec.getLsbD_setWidth, BitVec.getLsbD_zero]
  by_cases h1 : i < 8
  · simp [h1]
  · have h2 : i - 8 < w - 8 := by omega
    simp [h2]

/-- **Table-driven = bit by bit.**  Feeding a byte into the top of the register
and clocking it eight times looks up the eight-clock remainder of the top byte
exclusive-ored with the new one. -/
theorem shifts_byte (hw : 8 ≤ w) (p x : BitVec w) (b : BitVec 8) :
    shifts p 8 (x ^^^ topByte w b) =
      (x <<< 8) ^^^ shifts p 8 (topByte w ((x >>> (w - 8)).setWidth 8 ^^^ b)) := by
  set t : BitVec 8 := (x >>> (w - 8)).setWidth 8 with ht
  have hsplit : x ^^^ topByte w b = (x ^^^ topByte w t) ^^^ topByte w (t ^^^ b) := by
    rw [topByte_xor, BitVec.xor_assoc, ← BitVec.xor_assoc (topByte w t), BitVec.xor_self,
      BitVec.zero_xor]
  -- the part below the top byte is only moved up
  have hlow : shifts p 8 (x ^^^ topByte w t) = x <<< 8 := by
    rw [shifts_of_clear p 8 _ hw (clear_top hw x), BitVec.shiftLeft_xor_distrib,
      topByte_shiftLeft hw, BitVec.xor_zero]
  rw [hsplit, shifts_xor, hlow]

end MsbCrc

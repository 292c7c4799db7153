/-
Little-endian fixed-width byte encodings of naturals.

* `leBytes w n` — the `w` low bytes of `n`, least significant first;
* `leNat bs` — the natural a byte string denotes;
* `leNat_leBytes` — reading back what was written gives `n % 256 ^ w`;
* `leNat_leBytes_append` — reading a field off the front of a longer buffer.
-/
import Mathlib.Tactic

/-- The `w` little-endian bytes of `n`; higher bytes are dropped. -/
def leBytes : ℕ → ℕ → List UInt8
  | 0, _ => []
  | w + 1, n => UInt8.ofNat n :: leBytes w (n / 256)

/-- The natural number with the given little-endian bytes. -/
def leNat : List UInt8 → ℕ
  | [] => 0
  | b :: bs => b.toNat + 256 * leNat bs

@[simp] theorem length_leBytes (w n : ℕ) : (leBytes w n).length = w := by
  induction w generalizing n with
  | zero => rfl
  | succ w ih => simp [leBytes, ih]

theorem leNat_leBytes (w n : ℕ) : leNat (leBytes w n) = n % 256 ^ w := by
  induction w generalizing n with
  | zero => simp [leBytes, leNat, Nat.mod_one]
  | succ w ih =>
    have hmod : n % 256 ^ (w + 1) = n % 256 + 256 * (n / 256 % 256 ^ w) := by
      rw [pow_succ', Nat.mod_mul]
    rw [leBytes, leNat, ih, UInt8.toNat_ofNat', hmod]

theorem leNat_leBytes_of_lt {w n : ℕ} (h : n < 256 ^ w) : leNat (leBytes w n) = n := by
  rw [leNat_leBytes, Nat.mod_eq_of_lt h]

/-- A field written at the front of a buffer is read back from its first bytes. -/
theorem leNat_leBytes_append {w n : ℕ} (h : n < 256 ^ w) (rest : List UInt8) :
    leNat ((leBytes w n ++ rest).take w) = n := by
  rw [List.take_append_of_le_length (by simp), List.take_of_length_le (by simp),
    leNat_leBytes_of_lt h]

/-- Skipping a field written at the front of a buffer. -/
theorem drop_leBytes_append (w n k : ℕ) (rest : List UInt8) :
    (leBytes w n ++ rest).drop (w + k) = rest.drop k := by
  rw [List.drop_append, List.drop_of_length_le (by simp), length_leBytes,
    Nat.add_sub_cancel_left, List.nil_append]

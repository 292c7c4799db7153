/-
Rationals as 64-bit floating point numbers, rounded to nearest, ties to even.

The value of a number is a rational or an infinity: the two zeros are one, and there is no NaN.

* `Binary64.ofRat` — the number next to a rational;
* `Binary64.ofRat_of_representable` — numbers are fixed;
* `Binary64.abs_rounded_sub_le`, `Binary64.exists_ofRat` — how far from the rational it is;
* `Binary64.ofRat_intCast` — so are the integers below `2 ^ 53`;
* `Binary64.toInt` — the conversion to an integer of 32 bits, with saturation;
* `Binary64.toInt_intCast` — such an integer is kept;
* `Binary64.toInt_ofRat_intCast` — any integer, through its rounding.
-/
import Mathlib.Data.Int.Log
import Mathlib.Tactic

/-- The integer next to a rational, the even one of two. -/
def roundEven (q : ℚ) : ℤ :=
  if Int.fract q < 1 / 2 then ⌊q⌋
  else if 1 / 2 < Int.fract q then ⌊q⌋ + 1
  else if ⌊q⌋ % 2 = 0 then ⌊q⌋
  else ⌊q⌋ + 1

theorem roundEven_intCast (n : ℤ) : roundEven n = n := by
  rw [roundEven, Int.fract_intCast, if_pos (by norm_num), Int.floor_intCast]

theorem abs_roundEven_sub_le (q : ℚ) : |(roundEven q : ℚ) - q| ≤ 1 / 2 := by
  have hfract := Int.self_sub_floor q
  have hnonneg := Int.fract_nonneg q
  have hlt := Int.fract_lt_one q
  rw [roundEven]
  split_ifs with hlow hhigh heven
  all_goals
    push_cast
    rw [abs_le]
    constructor <;> linarith

/-- The value of a number. -/
inductive Binary64
  | infinity (negative : Bool)
  | finite (q : ℚ)
  deriving DecidableEq

namespace Binary64

/-- The exponent of the last place at a rational: 53 bits, and none below `2 ^ (-1074)`. -/
def lastPlace (q : ℚ) : ℤ := max (Int.log 2 |q| - 52) (-1074)

/-- The number next to a rational. -/
def ofRat (q : ℚ) : Binary64 :=
  let r : ℚ := roundEven (q / 2 ^ lastPlace q) * 2 ^ lastPlace q
  if 2 ^ 1024 ≤ |r| then .infinity (decide (q < 0)) else .finite r

theorem ofRat_zero : ofRat 0 = .finite 0 := by
  have hround : roundEven (0 / 2 ^ lastPlace 0) = 0 := by
    rw [zero_div]
    exact_mod_cast roundEven_intCast 0
  simp only [ofRat, hround, Int.cast_zero, zero_mul, abs_zero]
  rw [if_neg (by norm_num)]

/-- The last place of a number of 53 bits is none of its bits. -/
theorem lastPlace_le {m e : ℤ} (hne : m ≠ 0) (hm : |m| < 2 ^ 53) (he : -1074 ≤ e) :
    lastPlace (m * 2 ^ e) ≤ e := by
  refine max_le ?_ he
  have habs : |(m * 2 ^ e : ℚ)| = |(m : ℚ)| * 2 ^ e := by
    rw [abs_mul, abs_of_pos (zpow_pos (by norm_num : (0 : ℚ) < 2) e)]
  have hm' : |(m : ℚ)| < 2 ^ (53 : ℤ) := by exact_mod_cast hm
  have hpos : 0 < |(m * 2 ^ e : ℚ)| := abs_pos.mpr (by positivity)
  have hlog : (2 : ℚ) ^ Int.log 2 |(m * 2 ^ e : ℚ)| < 2 ^ (53 + e) := by
    calc (2 : ℚ) ^ Int.log 2 |(m * 2 ^ e : ℚ)|
        ≤ |(m * 2 ^ e : ℚ)| := Int.zpow_log_le_self (by norm_num) hpos
      _ = |(m : ℚ)| * 2 ^ e := habs
      _ < 2 ^ (53 : ℤ) * 2 ^ e := mul_lt_mul_of_pos_right hm' (zpow_pos (by norm_num) e)
      _ = 2 ^ (53 + e) := (zpow_add₀ (by norm_num) 53 e).symm
  have hlt := (zpow_lt_zpow_iff_right₀ (by norm_num : (1 : ℚ) < 2)).mp hlog
  omega

/-- A number of 53 bits is its own rounding. -/
theorem ofRat_of_representable {m e : ℤ} (hm : |m| < 2 ^ 53) (he : -1074 ≤ e)
    (hlt : |(m * 2 ^ e : ℚ)| < 2 ^ 1024) : ofRat (m * 2 ^ e) = .finite (m * 2 ^ e) := by
  rcases eq_or_ne m 0 with rfl | hne
  · rw [Int.cast_zero, zero_mul, ofRat_zero]
  obtain ⟨k, hk⟩ := Int.le.dest (lastPlace_le hne hm he)
  -- the number is an integer of last places
  have hscaled : (m * 2 ^ e : ℚ) = ((m * 2 ^ k : ℤ) : ℚ) * 2 ^ lastPlace (m * 2 ^ e) := by
    have hsplit : (2 : ℚ) ^ e = 2 ^ lastPlace (m * 2 ^ e) * 2 ^ k := by
      rw [← zpow_natCast, ← zpow_add₀ (by norm_num), hk]
    push_cast
    rw [mul_assoc, mul_comm ((2 : ℚ) ^ k), ← hsplit]
  have hdiv : (m * 2 ^ e : ℚ) / 2 ^ lastPlace (m * 2 ^ e) = ((m * 2 ^ k : ℤ) : ℚ) :=
    (div_eq_iff (zpow_ne_zero _ (by norm_num))).mpr hscaled
  simp only [ofRat, hdiv, roundEven_intCast, ← hscaled]
  rw [if_neg (not_le.mpr hlt)]

/-- So is an integer below `2 ^ 53`. -/
theorem ofRat_intCast {n : ℤ} (h : |n| < 2 ^ 53) : ofRat n = .finite n := by
  have hlt : |(n * 2 ^ (0 : ℤ) : ℚ)| < 2 ^ 1024 := by
    rw [zpow_zero, mul_one]
    have hn : |(n : ℚ)| < 2 ^ 53 := by exact_mod_cast h
    exact hn.trans (pow_lt_pow_right₀ (by norm_num) (by norm_num))
  have hn := ofRat_of_representable h (by norm_num) hlt
  rwa [zpow_zero, mul_one] at hn

/-- The last place below a power of two. -/
theorem lastPlace_le_of_lt {q : ℚ} {k : ℤ} (hq : q ≠ 0) (hk : |q| < 2 ^ k) (hmin : -1021 ≤ k) :
    lastPlace q ≤ k - 53 := by
  have hlog := (Int.lt_zpow_iff_log_lt (b := 2) (by norm_num) (abs_pos.mpr hq)).mp
    (by exact_mod_cast hk)
  refine max_le ?_ (by omega)
  omega

/-- **The error of a rounding** is half the last place. -/
theorem abs_rounded_sub_le (q : ℚ) :
    |roundEven (q / 2 ^ lastPlace q) * 2 ^ lastPlace q - q| ≤ 1 / 2 * 2 ^ lastPlace q := by
  have hpos : (0 : ℚ) < 2 ^ lastPlace q := zpow_pos (by norm_num) _
  have hscaled : roundEven (q / 2 ^ lastPlace q) * 2 ^ lastPlace q - q =
      (roundEven (q / 2 ^ lastPlace q) - q / 2 ^ lastPlace q) * 2 ^ lastPlace q := by
    rw [sub_mul, div_mul_cancel₀ _ hpos.ne']
  rw [hscaled, abs_mul, abs_of_pos hpos]
  exact mul_le_mul_of_nonneg_right (abs_roundEven_sub_le _) hpos.le

/-- The number next to one below a power of two. -/
theorem exists_ofRat {q : ℚ} {k : ℤ} (hq : q ≠ 0) (hk : |q| < 2 ^ k) (hmin : -1021 ≤ k)
    (hmax : k ≤ 1023) : ∃ r, ofRat q = .finite r ∧ |r - q| ≤ 2 ^ (k - 54) := by
  set r : ℚ := roundEven (q / 2 ^ lastPlace q) * 2 ^ lastPlace q with hr
  have hle : (2 : ℚ) ^ lastPlace q ≤ 2 ^ (k - 53) :=
    zpow_le_zpow_right₀ (by norm_num) (lastPlace_le_of_lt hq hk hmin)
  have herror : |r - q| ≤ 2 ^ (k - 54) := by
    calc |r - q| ≤ 1 / 2 * 2 ^ lastPlace q := abs_rounded_sub_le q
      _ ≤ 1 / 2 * 2 ^ (k - 53) := mul_le_mul_of_nonneg_left hle (by norm_num)
      _ = 2 ^ (k - 54) := by
          rw [show k - 53 = k - 54 + 1 by omega, zpow_add₀ (by norm_num)]
          ring
  refine ⟨r, if_neg (not_le.mpr ?_), herror⟩
  calc |r| = |q + (r - q)| := by rw [add_sub_cancel]
    _ ≤ |q| + |r - q| := abs_add_le _ _
    _ < 2 ^ k + 2 ^ (k - 54) := add_lt_add_of_lt_of_le hk herror
    _ ≤ 2 ^ k + 2 ^ k := by
        gcongr
        · norm_num
        · omega
    _ = 2 ^ (k + 1) := by rw [zpow_add₀ (by norm_num)]; ring
    _ ≤ 2 ^ (1024 : ℤ) := zpow_le_zpow_right₀ (by norm_num) (by omega)
    _ = 2 ^ 1024 := zpow_ofNat 2 1024

/-- The conversion to an `int`: the fraction is cut off, what is too large saturates. -/
def toInt : Binary64 → ℤ
  | .infinity negative => if negative then -2 ^ 31 else 2 ^ 31 - 1
  | .finite q =>
    if 2 ^ 31 - 1 ≤ q then 2 ^ 31 - 1
    else if q ≤ -2 ^ 31 then -2 ^ 31
    else if q < 0 then ⌈q⌉
    else ⌊q⌋

/-- An `int` is kept. -/
theorem toInt_intCast {n : ℤ} (hmin : -2 ^ 31 ≤ n) (hmax : n ≤ 2 ^ 31 - 1) :
    toInt (.finite n) = n := by
  rw [toInt]
  split_ifs with hge hle hneg
  · refine le_antisymm ?_ hmax
    exact_mod_cast hge
  · refine le_antisymm hmin ?_
    exact_mod_cast hle
  · exact Int.ceil_intCast _
  · exact Int.floor_intCast _

theorem toInt_of_le {q : ℚ} (h : 2 ^ 31 - 1 ≤ q) : toInt (.finite q) = 2 ^ 31 - 1 := if_pos h

theorem toInt_of_ge {q : ℚ} (h : q ≤ -2 ^ 31) : toInt (.finite q) = -2 ^ 31 := by
  rw [toInt, if_neg (by linarith), if_pos h]

/-- Above one, a last place is no more than the number. -/
theorem zpow_lastPlace_le {q : ℚ} (h : 1 ≤ |q|) : 2 ^ lastPlace q ≤ |q| := by
  have hpos : 0 < |q| := lt_of_lt_of_le one_pos h
  have hlog := (Int.zpow_le_iff_le_log (b := 2) (by norm_num) hpos).mp
    (show ((2 : ℕ) : ℚ) ^ (0 : ℤ) ≤ |q| by rwa [zpow_zero])
  have hplace : lastPlace q ≤ Int.log 2 |q| := max_le (by omega) (by omega)
  calc (2 : ℚ) ^ lastPlace q ≤ 2 ^ Int.log 2 |q| := zpow_le_zpow_right₀ (by norm_num) hplace
    _ ≤ |q| := Int.zpow_log_le_self (by norm_num) hpos

/-- **An integer as an `int`**, through its rounding: what does not fit saturates. -/
theorem toInt_ofRat_intCast (n : ℤ) :
    (ofRat n).toInt = max (-2 ^ 31) (min n (2 ^ 31 - 1)) := by
  rcases lt_or_ge |n| (2 ^ 53) with hsmall | hlarge
  · -- the rounding is the integer itself
    rw [ofRat_intCast hsmall]
    rcases lt_or_ge n (-2 ^ 31) with hlow | hlow
    · rw [toInt_of_ge (by exact_mod_cast hlow.le)]
      omega
    · rcases le_or_gt n (2 ^ 31 - 1) with hhigh | hhigh
      · rw [toInt_intCast hlow hhigh]
        omega
      · rw [toInt_of_le (by exact_mod_cast hhigh.le)]
        omega
  · -- the rounding has the sign of the integer, and at least half its size
    have habs : (2 ^ 53 : ℚ) ≤ |(n : ℚ)| := by exact_mod_cast hlarge
    have herror : |(roundEven (n / 2 ^ lastPlace n) : ℚ) * 2 ^ lastPlace n - n| ≤
        1 / 2 * |(n : ℚ)| :=
      (abs_rounded_sub_le n).trans (mul_le_mul_of_nonneg_left
        (zpow_lastPlace_le (le_trans (by norm_num) habs)) (by norm_num))
    rw [abs_le] at herror
    rw [ofRat]
    rcases le_abs.mp hlarge with hpos | hneg
    · have hn : (2 ^ 53 : ℚ) ≤ n := by exact_mod_cast hpos
      rw [abs_of_nonneg (le_trans (by norm_num) hn)] at herror
      have hsat : max (-2 ^ 31) (min n (2 ^ 31 - 1)) = 2 ^ 31 - 1 := by omega
      split_ifs
      · rw [decide_eq_false (by linarith), hsat]
        rfl
      · rw [toInt_of_le (by linarith [herror.1]), hsat]
    · have hn : (n : ℚ) ≤ -2 ^ 53 := by
        have hn : n ≤ -2 ^ 53 := by omega
        exact_mod_cast hn
      rw [abs_of_nonpos (le_trans hn (by norm_num))] at herror
      have hsat : max (-2 ^ 31) (min n (2 ^ 31 - 1)) = -2 ^ 31 := by omega
      split_ifs
      · rw [decide_eq_true (by linarith), hsat]
        rfl
      · rw [toInt_of_ge (by linarith [herror.2]), hsat]

end Binary64

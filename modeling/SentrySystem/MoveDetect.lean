/-
The detection of motion (`src/alarm/image_process.cpp`, `process_image_thread` of
`src/alarm/alarm.cpp`).

The decoder and the conversion to gray are a parameter, the other functions of OpenCV are modelled.

* `moveDetect` — `Move_Detect`, with the quotient of `double`s that is compared;
* `processImages` — what the thread dispatches for the frames it is given;
* `movement_iff` — the comparison is exact;
* `processImages_eq` — the statuses and the log of a whole run.
-/
import Mathlib.Data.List.Destutter
import SentrySystem.AlarmStatus
import SentrySystem.Lib.Binary64

namespace Sentry

/-! ### The code -/

/-- A gray `Mat`. -/
structure GrayMat where
  rows : ℕ
  cols : ℕ
  pixels : List UInt8
  length_pixels : pixels.length = rows * cols

/-- A `Mat` that nothing was assigned to. -/
def GrayMat.empty : GrayMat := ⟨0, 0, [], rfl⟩

/-- `absdiff`, of two images of one size. -/
def absdiff (a b : List UInt8) : List UInt8 := List.zipWith (fun x y => if x < y then y - x else x - y) a b

/-- `threshold` at 25, to 255. -/
def threshold (src : List UInt8) : List UInt8 := src.map fun v => if 25 < v then 255 else 0

/-- `countNonZero`. -/
def countNonZero (src : List UInt8) : ℕ := src.countP fun v => decide (v ≠ 0)

/-- `0.1f`. -/
def tenth : ℚ := 13421773 / 2 ^ 27

/-- `movement_percentage > 0.1f`. -/
def exceedsTenth : Binary64 → Bool
  | .finite q => decide (tenth < q)
  | .infinity negative => !negative

/-- The static variables of `Move_Detect` and `alarm_data_diff`. -/
structure MoveData where
  isFirstFrame : Bool
  prevFrameGray : GrayMat
  diffData : AlarmLevel

/-- The variables at the start. -/
def MoveData.init : MoveData := ⟨true, .empty, .safe⟩

/-- `Move_Detect`; `absdiff` throws where the sizes differ. -/
def moveDetect (d : MoveData) (currentFrameGray : GrayMat) : Option (AlarmLevel × MoveData) :=
  if d.isFirstFrame then
    some (.safe, { d with prevFrameGray := currentFrameGray, isFirstFrame := false })
  else if currentFrameGray.rows ≠ d.prevFrameGray.rows ∨
      currentFrameGray.cols ≠ d.prevFrameGray.cols then none
  else
    let thresh := threshold (absdiff currentFrameGray.pixels d.prevFrameGray.pixels)
    let movementPercentage : Binary64 :=
      .ofRat ((countNonZero thresh : ℚ) / (currentFrameGray.rows * currentFrameGray.cols : ℕ))
    let status := if exceedsTenth movementPercentage then AlarmLevel.moved else .safe
    some (status, { d with prevFrameGray := currentFrameGray })

/-- `"Status changed to" + to_string(alarm_data.status)`. -/
def statusText : AlarmLevel → String
  | .safe => "Status changed to0"
  | .moved => "Status changed to1"

/-- What the thread dispatches for a frame: the status for the storage, and before it the text for
the log, if it logs one. -/
structure ImageDispatch where
  alarm : AlarmLevel
  log : Option String
  deriving DecidableEq

/-- `alarm_data_diff`, and what is dispatched. -/
def dispatchStatus (d : MoveData) (status : AlarmLevel) : ImageDispatch × MoveData :=
  if d.diffData ≠ status then (⟨status, some (statusText status)⟩, { d with diffData := status })
  else (⟨status, none⟩, d)

/-- The loop of `process_image_thread` over the frames; `none` if an exception leaves it.  `decode`
is `imdecode` and `cvtColor`, `none` where the image is empty. -/
def processImages (decode : List UInt8 → Option GrayMat) (d : MoveData) :
    List (List UInt8) → Option (List ImageDispatch)
  | [] => some []
  | frame :: frames =>
    match decode frame with
    | none => processImages decode d frames
    | some img =>
      (moveDetect d img).bind fun r =>
        let sent := dispatchStatus r.2 r.1
        (processImages decode sent.2 frames).map (sent.1 :: ·)

/-! ### The comparison -/

/-- How many pixels differ by more than 25. -/
def differing (a b : GrayMat) : ℕ :=
  (a.pixels.zip b.pixels).countP fun p => decide (25 < |(p.1.toNat : ℤ) - p.2.toNat|)

/-- What the difference of two pixels becomes. -/
theorem thresholded_iff (x y : UInt8) :
    (if 25 < (if x < y then y - x else x - y) then (255 : UInt8) else 0) ≠ 0 ↔
      25 < |(x.toNat : ℤ) - y.toNat| := by
  have hbyte : ∀ v : UInt8, ((if 25 < v then (255 : UInt8) else 0) ≠ 0) ↔ 25 < v.toNat := by
    intro v
    split_ifs with h
    · exact iff_of_true (by decide) (UInt8.lt_iff_toNat_lt.mp h)
    · exact iff_of_false (by decide) fun hlt => h (UInt8.lt_iff_toNat_lt.mpr hlt)
  have habs : ((if x < y then y - x else x - y).toNat : ℤ) = |(x.toNat : ℤ) - y.toNat| := by
    split_ifs with hlt
    · have hnat := UInt8.lt_iff_toNat_lt.mp hlt
      rw [UInt8.toNat_sub_of_le _ _ (UInt8.le_of_lt hlt), Nat.cast_sub hnat.le, abs_sub_comm,
        abs_of_nonneg (by omega)]
    · have hle := UInt8.not_lt.mp hlt
      have hnat := UInt8.le_iff_toNat_le.mp hle
      rw [UInt8.toNat_sub_of_le _ _ hle, Nat.cast_sub hnat, abs_of_nonneg (by omega)]
  rw [hbyte, ← habs]
  exact Nat.cast_lt.symm

theorem countNonZero_eq (a b : GrayMat) :
    countNonZero (threshold (absdiff a.pixels b.pixels)) = differing a b := by
  rw [countNonZero, threshold, absdiff, differing, List.countP_map, ← List.map_uncurry_zip_eq_zipWith,
    List.countP_map]
  refine List.countP_congr fun p _ => ?_
  simp only [Function.comp_apply, decide_eq_true_eq]
  exact thresholded_iff p.1 p.2

theorem differing_le (a b : GrayMat) : differing a b ≤ a.rows * a.cols := by
  rw [← a.length_pixels]
  refine List.countP_le_length.trans ?_
  rw [List.length_zip]
  exact min_le_left _ _

/-- **The comparison is exact**, for images of less than 2 ^ 26 pixels: the rounded quotient exceeds
`0.1f` where more than a tenth of the pixels are counted. -/
theorem movement_iff {c n : ℕ} (hn : 0 < n) (hlt : n < 2 ^ 26) (hc : c ≤ n) :
    exceedsTenth (.ofRat ((c : ℚ) / n)) = true ↔ n < 10 * c := by
  rcases Nat.eq_zero_or_pos c with rfl | hpos
  · rw [Nat.cast_zero, zero_div, Binary64.ofRat_zero, exceedsTenth, decide_eq_true_eq]
    exact iff_of_false (by norm_num [tenth]) (by omega)
  have hn' : (0 : ℚ) < n := by exact_mod_cast hn
  have hquot : (0 : ℚ) < c / n := div_pos (by exact_mod_cast hpos) hn'
  have hmax : (n : ℚ) + 1 ≤ 2 ^ 26 := by exact_mod_cast hlt
  by_cases heighth : 8 * c < n
  · have hsmall : |(c : ℚ) / n| < 2 ^ (-3 : ℤ) := by
      rw [abs_of_pos hquot, div_lt_iff₀ hn']
      have hcast : (8 * c : ℚ) < n := by exact_mod_cast heighth
      norm_num
      linarith
    obtain ⟨r, hr, herror⟩ := Binary64.exists_ofRat hquot.ne' hsmall (by norm_num) (by norm_num)
    obtain ⟨hlow, hhigh⟩ := abs_le.mp herror
    rw [hr, exceedsTenth, decide_eq_true_eq, tenth]
    constructor
    · intro hr'
      by_contra hle
      have hcast : (10 * c : ℚ) ≤ n := by exact_mod_cast Nat.not_lt.mp hle
      have hquotient : (c : ℚ) / n ≤ 1 / 10 := by
        rw [div_le_iff₀ hn']
        linarith
      norm_num at hhigh hr'
      linarith
    · intro hlt'
      have hcast : (n : ℚ) + 1 ≤ 10 * c := by exact_mod_cast hlt'
      have hquotient : (13421773 / 2 ^ 27 + 2 ^ (-3 - 54 : ℤ) : ℚ) < c / n := by
        rw [lt_div_iff₀ hn']
        norm_num
        linarith
      linarith
  · have hlarge : |(c : ℚ) / n| < 2 ^ (1 : ℤ) := by
      rw [abs_of_pos hquot, div_lt_iff₀ hn']
      have hcast : (c : ℚ) ≤ n := by exact_mod_cast hc
      norm_num
      linarith
    obtain ⟨r, hr, herror⟩ := Binary64.exists_ofRat hquot.ne' hlarge (by norm_num) (by norm_num)
    have hlow := (abs_le.mp herror).1
    have hquotient : (1 / 8 : ℚ) ≤ c / n := by
      rw [le_div_iff₀ hn']
      have hcast : (n : ℚ) ≤ 8 * c := by exact_mod_cast Nat.not_lt.mp heighth
      linarith
    rw [hr, exceedsTenth, decide_eq_true_eq, tenth]
    constructor
    · intro _
      omega
    · intro _
      norm_num at hlow
      norm_num
      linarith

/-! ### A whole run -/

/-- More than a tenth of the pixels differ. -/
def Moved (prev current : GrayMat) : Prop :=
  current.rows * current.cols < 10 * differing current prev

instance (prev current : GrayMat) : Decidable (Moved prev current) :=
  inferInstanceAs (Decidable (_ < _))

/-- The status of an image behind another. -/
def statusOf (prev current : GrayMat) : AlarmLevel := if Moved prev current then .moved else .safe

/-- The statuses of images, one behind the other. -/
def statuses : List GrayMat → List AlarmLevel
  | [] => []
  | img :: imgs => .safe :: List.zipWith statusOf (img :: imgs) imgs

/-- Images of one size, not empty, of less than 2 ^ 26 pixels. -/
def OfSize (rows cols : ℕ) (img : GrayMat) : Prop :=
  img.rows = rows ∧ img.cols = cols ∧ 0 < rows * cols ∧ rows * cols < 2 ^ 26

theorem moveDetect_next {rows cols : ℕ} {prev img : GrayMat} (hprev : OfSize rows cols prev)
    (himg : OfSize rows cols img) (diffData : AlarmLevel) :
    moveDetect ⟨false, prev, diffData⟩ img = some (statusOf prev img, ⟨false, img, diffData⟩) := by
  obtain ⟨hrows, hcols, hpos, hlt⟩ := himg
  have hcount := differing_le img prev
  rw [hrows, hcols] at hcount
  have hmoved : exceedsTenth (.ofRat ((differing img prev : ℚ) / (img.rows * img.cols : ℕ))) = true ↔
      Moved prev img := by
    rw [Moved, hrows, hcols]
    exact movement_iff hpos hlt hcount
  rw [moveDetect, if_neg Bool.false_ne_true, if_neg (by simp [hrows, hcols, hprev.1, hprev.2.1])]
  simp only [countNonZero_eq, hmoved]
  rfl

theorem moveDetect_first {img : GrayMat} (diffData : AlarmLevel) (prev : GrayMat) :
    moveDetect ⟨true, prev, diffData⟩ img = some (.safe, ⟨false, img, diffData⟩) := rfl

/-- What is dispatched for statuses, the last one known being given. -/
def statusDispatches (diffData : AlarmLevel) : List AlarmLevel → List ImageDispatch
  | [] => []
  | status :: rest =>
    ⟨status, if diffData ≠ status then some (statusText status) else none⟩ ::
      statusDispatches status rest

theorem dispatchStatus_eq (d : MoveData) (status : AlarmLevel) :
    dispatchStatus d status =
      (⟨status, if d.diffData ≠ status then some (statusText status) else none⟩,
        { d with diffData := status }) := by
  rw [dispatchStatus]
  split_ifs with h
  · rfl
  · obtain rfl := not_not.mp h
    rfl

theorem alarms_statusDispatches (diffData : AlarmLevel) (l : List AlarmLevel) :
    (statusDispatches diffData l).map ImageDispatch.alarm = l := by
  induction l generalizing diffData with
  | nil => rfl
  | cons status rest ih => exact congrArg (status :: ·) (ih status)

/-- The log tells the changes. -/
theorem logs_statusDispatches (diffData : AlarmLevel) (l : List AlarmLevel) :
    statusText diffData :: (statusDispatches diffData l).filterMap ImageDispatch.log =
      (l.destutter' (· ≠ ·) diffData).map statusText := by
  induction l generalizing diffData with
  | nil => rfl
  | cons status rest ih =>
    rw [statusDispatches]
    by_cases h : diffData = status
    · obtain rfl := h
      rw [List.destutter'_cons_neg _ (by simp), ← ih, List.filterMap_cons_none (by simp)]
    · rw [List.destutter'_cons_pos _ h, List.map_cons, ← ih, if_pos h]
      rfl

section Run

variable {decode : List UInt8 → Option GrayMat} {rows cols : ℕ}

/-- Behind an image. -/
theorem processImages_next {prev : GrayMat} (hprev : OfSize rows cols prev) :
    ∀ (frames : List (List UInt8)) (diffData : AlarmLevel),
      (∀ frame ∈ frames, ∀ img ∈ decode frame, OfSize rows cols img) →
      processImages decode ⟨false, prev, diffData⟩ frames =
        some (statusDispatches diffData
          (List.zipWith statusOf (prev :: frames.filterMap decode) (frames.filterMap decode))) := by
  intro frames
  induction frames generalizing prev with
  | nil =>
    intro diffData _
    rfl
  | cons frame frames ih =>
    intro diffData hsize
    have hrest : ∀ frame ∈ frames, ∀ img ∈ decode frame, OfSize rows cols img :=
      fun f hf => hsize f (List.mem_cons_of_mem _ hf)
    rw [processImages]
    cases hdecode : decode frame with
    | none =>
      rw [List.filterMap_cons_none hdecode]
      exact ih hprev diffData hrest
    | some img =>
      have himg := hsize frame List.mem_cons_self img hdecode
      rw [List.filterMap_cons_some hdecode]
      simp only [moveDetect_next hprev himg, Option.bind_some, dispatchStatus_eq]
      rw [ih himg _ hrest]
      rfl

/-- **The motion of a run**: for frames that decode to images of one size, one status is dispatched
for each image.  It is MOVED where more than a tenth of the pixels differ by more than 25 from the
image before; the log has a status for each change, and no other. -/
theorem processImages_eq {frames : List (List UInt8)}
    (hsize : ∀ frame ∈ frames, ∀ img ∈ decode frame, OfSize rows cols img) :
    ∃ sent, processImages decode .init frames = some sent ∧
      sent.map ImageDispatch.alarm = statuses (frames.filterMap decode) ∧
      sent.filterMap ImageDispatch.log =
        ((.safe :: statuses (frames.filterMap decode)).destutter (· ≠ ·)).tail.map statusText := by
  have hrun : processImages decode .init frames =
      some (statusDispatches .safe (statuses (frames.filterMap decode))) := by
    induction frames with
    | nil => rfl
    | cons frame frames ih =>
      have hrest : ∀ frame ∈ frames, ∀ img ∈ decode frame, OfSize rows cols img :=
        fun f hf => hsize f (List.mem_cons_of_mem _ hf)
      rw [processImages]
      cases hdecode : decode frame with
      | none =>
        rw [List.filterMap_cons_none hdecode]
        exact ih hrest
      | some img =>
        have himg := hsize frame List.mem_cons_self img hdecode
        rw [List.filterMap_cons_some hdecode]
        simp only [MoveData.init, moveDetect_first, Option.bind_some, dispatchStatus_eq]
        rw [processImages_next himg frames _ hrest]
        rfl
  refine ⟨_, hrun, alarms_statusDispatches _ _, ?_⟩
  have hlogs := logs_statusDispatches .safe (statuses (frames.filterMap decode))
  rw [List.destutter_cons', List.map_tail, ← hlogs, List.tail_cons]

end Run

/-- Frames of two pixels. -/
def decodeTwo : List UInt8 → Option GrayMat
  | [a, b] => some ⟨1, 2, [a, b], rfl⟩
  | _ => none

/-- A frame that cannot be decoded, behind it motion that stays. -/
theorem processImages_eq_moved :
    ∃ sent, processImages decodeTwo .init [[0, 0], [], [0, 25], [0, 51], [26, 51]] = some sent ∧
      sent.map ImageDispatch.alarm = [.safe, .safe, .moved, .moved] ∧
      sent.filterMap ImageDispatch.log = ["Status changed to1"] := by
  have hsize : ∀ frame img, img ∈ decodeTwo frame → OfSize 1 2 img := by
    intro frame img himg
    unfold decodeTwo at himg
    split at himg
    · obtain rfl := Option.some_inj.mp himg
      exact ⟨rfl, rfl, by decide, by decide⟩
    · cases himg
  exact processImages_eq fun frame _ img himg => hsize frame img himg

end Sentry

import Mathlib.Algebra.Order.Floor.Semiring
import Mathlib.Data.Rat.Floor
import Mathlib.Tactic.Linarith
import Mathlib.Tactic.NormNum

/-!
# Screenshots of whole pages

A page is scrolled one viewport at a time, and what is visible is drawn onto a canvas. A plan says
how many slices are taken. What is drawn covers the plan when a viewport is at least one pixel
high and the cap on the slices an integer.
-/

namespace FullPage

/-- The geometry of a page, in CSS pixels. -/
structure PageMetrics where
  viewportW : ℚ
  viewportH : ℚ
  fullH : ℚ
  dpr : ℚ

structure CapturePlan where
  slices : ℚ
  /-- The size of the canvas, in device pixels. -/
  canvasW : ℤ
  canvasH : ℤ
  /-- The height of the page that the plan covers, in CSS pixels. -/
  capturedCssHeight : ℚ
  isPartial : Bool

structure CaptureLimits where
  maxSlices : ℚ
  /-- The cap on the height of the canvas, in device pixels. -/
  maxDeviceHeight : ℚ

def DEFAULT_LIMITS : CaptureLimits := ⟨20, 16384⟩

/-- `Math.round` -/
def mathRound (x : ℚ) : ℤ := ⌊x + 1 / 2⌋

namespace PageMetrics

variable (metrics : PageMetrics)

/-- The ratio that is used, also in `captureFullPage`. -/
def ratio : ℚ := if 0 < metrics.dpr then metrics.dpr else 1

/-- The height of a viewport that a plan reckons with. -/
def planViewportH : ℚ := max 1 metrics.viewportH

def neededSlices : ℤ := max 1 ⌈metrics.fullH / metrics.planViewportH⌉

def slicesByHeight (maxDeviceHeight : ℚ) : ℤ :=
  let sliceDeviceH := metrics.planViewportH * metrics.ratio
  max 1 ⌊maxDeviceHeight / sliceDeviceH⌋

end PageMetrics

def planFullPageCapture (metrics : PageMetrics) (limits : CaptureLimits) : CapturePlan :=
  let slices := min (min (metrics.neededSlices : ℚ) limits.maxSlices)
    (metrics.slicesByHeight limits.maxDeviceHeight)
  let capturedCssHeight := min metrics.fullH (slices * metrics.planViewportH)
  { slices
    canvasW := mathRound (metrics.viewportW * metrics.ratio)
    canvasH := mathRound (capturedCssHeight * metrics.ratio)
    capturedCssHeight
    isPartial := slices < metrics.neededSlices }

/-! ### Slices -/

/-- A slice that has been drawn: where the page was scrolled to, and where on the canvas it is. -/
structure Slice where
  actualY : ℚ
  drawnAt : ℤ

/-- Where `scrollTo` scrolls to: the end of the page stops it. -/
def scrollTo (metrics : PageMetrics) (y : ℚ) : ℚ :=
  max 0 (min y (metrics.fullH - metrics.viewportH))

/-- One round of the loop of `captureFullPage`. -/
def captureSlice (metrics : PageMetrics) (i : ℕ) : Slice :=
  let actualY := scrollTo metrics (i * metrics.viewportH)
  { actualY
    drawnAt := mathRound (actualY * metrics.ratio) }

/-- The loop of `captureFullPage`, as long as `i < plan.slices`. -/
def captureSlices (metrics : PageMetrics) (plan : CapturePlan) : List Slice :=
  (List.range ⌈plan.slices⌉₊).map (captureSlice metrics)

/-- A row of the page is visible in a slice. -/
def Slice.Shows (metrics : PageMetrics) (slice : Slice) (y : ℚ) : Prop :=
  slice.actualY ≤ y ∧ y < slice.actualY + metrics.viewportH

/-- What a plan and the slices that are taken for it are expected to be. -/
structure Faithful (metrics : PageMetrics) (limits : CaptureLimits) (plan : CapturePlan)
    (slices : List Slice) : Prop where
  covered : ∀ y, 0 ≤ y → y < plan.capturedCssHeight → ∃ slice ∈ slices, slice.Shows metrics y
  atLeastOne : 1 ≤ slices.length
  atMost : (slices.length : ℚ) ≤ limits.maxSlices
  fits : ∀ maxDeviceHeight : ℤ, limits.maxDeviceHeight = maxDeviceHeight →
    plan.canvasH ≤ maxDeviceHeight ∨ (maxDeviceHeight : ℚ) < metrics.viewportH * metrics.dpr
  isPartial : plan.isPartial = true ↔ plan.capturedCssHeight < metrics.fullH

/-! ### Rounding -/

theorem mathRound_le {x : ℚ} {n : ℤ} (h : x ≤ n) :
  mathRound x ≤ n
  := by
  have hlt : x + 1 / 2 < (n + 1 : ℤ) := by
    push_cast
    linarith
  apply Int.lt_add_one_iff.mp
  rw [mathRound, Int.floor_lt]
  apply hlt

/-! ### The number of slices -/

section Plan

variable {metrics : PageMetrics} {limits : CaptureLimits}

theorem PageMetrics.ratio_eq (h : 0 < metrics.dpr) :
  metrics.ratio = metrics.dpr
  := if_pos h

theorem PageMetrics.planViewportH_eq (h : 1 ≤ metrics.viewportH) :
  metrics.planViewportH = metrics.viewportH
  := max_eq_right h

/-- The slices that are needed reach the end of the page, and one less would not. -/
theorem PageMetrics.neededSlices_bounds (hheight : 0 < metrics.fullH)
    (hviewport : 1 ≤ metrics.viewportH) :
  ((metrics.neededSlices : ℚ) - 1) * metrics.viewportH < metrics.fullH ∧
    metrics.fullH ≤ metrics.neededSlices * metrics.viewportH
  := by
  have hpos : 0 < metrics.viewportH := by linarith
  have hceil : metrics.neededSlices = ⌈metrics.fullH / metrics.viewportH⌉ := by
    rw [neededSlices, planViewportH_eq hviewport]
    apply max_eq_right
    apply Int.one_le_ceil_iff.mpr
    apply div_pos hheight hpos
  constructor
  · rw [← lt_div_iff₀ hpos, hceil]
    have hlt := Int.ceil_lt_add_one (metrics.fullH / metrics.viewportH)
    linarith
  · rw [← div_le_iff₀ hpos, hceil]
    apply Int.le_ceil

/-- A plan takes a whole number of slices. -/
theorem exists_slices (metrics : PageMetrics) (hmax : 1 ≤ limits.maxSlices)
    (hinteger : ∃ maxSlices : ℤ, limits.maxSlices = maxSlices) :
  ∃ n : ℕ, (planFullPageCapture metrics limits).slices = n ∧ 1 ≤ n
  := by
  obtain ⟨maxSlices, heq⟩ := hinteger
  let slices : ℤ := min (min metrics.neededSlices maxSlices)
    (metrics.slicesByHeight limits.maxDeviceHeight)
  have hslices : (planFullPageCapture metrics limits).slices = slices := by
    simp only [planFullPageCapture, heq, slices]
    push_cast
    rfl
  have hone : 1 ≤ slices := by
    apply le_min
    · apply le_min
      · apply le_max_left
      · rw [heq] at hmax
        exact_mod_cast hmax
    · apply le_max_left
  obtain ⟨n, hn⟩ := Int.eq_ofNat_of_zero_le (by omega : 0 ≤ slices)
  use n
  constructor
  · rw [hslices, hn]
    rfl
  · omega

theorem length_captureSlices {plan : CapturePlan} {n : ℕ} (h : plan.slices = n) :
  (captureSlices metrics plan).length = n
  := by
  rw [captureSlices, List.length_map, List.length_range, h, Nat.ceil_natCast]

/-- Slices of a viewport each show the rows of the page in front of the last one's end. -/
theorem exists_shows {plan : CapturePlan} {n : ℕ} (hn : plan.slices = n)
    (hviewport : 0 < metrics.viewportH) {y : ℚ} (hy : 0 ≤ y) (hend : y < metrics.fullH)
    (hlast : y < n * metrics.viewportH) :
  ∃ slice ∈ captureSlices metrics plan, slice.Shows metrics y
  := by
  let i := ⌊y / metrics.viewportH⌋₊
  have hle : i * metrics.viewportH ≤ y := by
    rw [← le_div_iff₀ hviewport]
    apply Nat.floor_le
    apply div_nonneg hy hviewport.le
  have hlt : y < (i + 1) * metrics.viewportH := by
    rw [← div_lt_iff₀ hviewport]
    apply Nat.lt_floor_add_one
  have hi : i < n := by
    apply (Nat.floor_lt (div_nonneg hy hviewport.le)).mpr
    rw [div_lt_iff₀ hviewport]
    apply hlast
  use captureSlice metrics i
  constructor
  · rw [captureSlices, hn, Nat.ceil_natCast]
    apply List.mem_map_of_mem
    apply List.mem_range.mpr hi
  · -- The end of the page stops the last slice, which then shows the end.
    have hmul : 0 ≤ i * metrics.viewportH := mul_nonneg (Nat.cast_nonneg i) hviewport.le
    simp only [Slice.Shows, captureSlice, scrollTo]
    rcases le_total (i * metrics.viewportH) (metrics.fullH - metrics.viewportH) with hin | hout
    · rw [min_eq_left hin, max_eq_right hmul]
      constructor
      · apply hle
      · linarith
    · rw [min_eq_right hout]
      constructor
      · apply max_le hy
        linarith
      · have hmax := le_max_right 0 (metrics.fullH - metrics.viewportH)
        linarith

end Plan

/-- What is drawn for a page covers the plan, within its limits, when a viewport is at least one
pixel high and the cap on the slices an integer. -/
theorem faithful_of_whole (metrics : PageMetrics) (limits : CaptureLimits)
    (hheight : 0 < metrics.fullH) (hviewport : 1 ≤ metrics.viewportH) (hdpr : 0 < metrics.dpr)
    (hmax : 1 ≤ limits.maxSlices) (hinteger : ∃ maxSlices : ℤ, limits.maxSlices = maxSlices) :
  Faithful metrics limits (planFullPageCapture metrics limits)
    (captureSlices metrics (planFullPageCapture metrics limits))
  := by
  obtain ⟨n, hn, hone⟩ := exists_slices metrics hmax hinteger
  have hpos : 0 < metrics.viewportH := by linarith
  have hcaptured : (planFullPageCapture metrics limits).capturedCssHeight =
      min metrics.fullH (n * metrics.viewportH) := by
    rw [← hn, ← PageMetrics.planViewportH_eq hviewport]
    rfl
  obtain ⟨hless, henough⟩ := PageMetrics.neededSlices_bounds hheight hviewport
  constructor
  · intro y hy hcaught
    rw [hcaptured] at hcaught
    apply exists_shows hn hpos hy
    · apply lt_of_lt_of_le hcaught (min_le_left _ _)
    · apply lt_of_lt_of_le hcaught (min_le_right _ _)
  · rw [length_captureSlices hn]
    apply hone
  · rw [length_captureSlices hn, ← hn]
    apply le_trans (min_le_left _ _) (min_le_right _ _)
  · intro maxDeviceHeight hlimit
    by_cases hlarge : (maxDeviceHeight : ℚ) < metrics.viewportH * metrics.dpr
    · exact .inr hlarge
    · left
      rw [not_lt] at hlarge
      have hdevice : 0 < metrics.viewportH * metrics.dpr := mul_pos hpos hdpr
      have hby : metrics.slicesByHeight limits.maxDeviceHeight =
          ⌊(maxDeviceHeight : ℚ) / (metrics.viewportH * metrics.dpr)⌋ := by
        simp only [PageMetrics.slicesByHeight, PageMetrics.planViewportH_eq hviewport,
          PageMetrics.ratio_eq hdpr, hlimit]
        apply max_eq_right
        apply Int.le_floor.mpr
        rw [Int.cast_one, one_le_div hdevice]
        apply hlarge
      have hslices : (n : ℚ) * (metrics.viewportH * metrics.dpr) ≤ maxDeviceHeight := by
        rw [← le_div_iff₀ hdevice]
        calc (n : ℚ)
          _ ≤ metrics.slicesByHeight limits.maxDeviceHeight := by
              rw [← hn]
              apply min_le_right
          _ ≤ maxDeviceHeight / (metrics.viewportH * metrics.dpr) := by
              rw [hby]
              apply Int.floor_le
      have hround : (planFullPageCapture metrics limits).canvasH =
          mathRound ((planFullPageCapture metrics limits).capturedCssHeight * metrics.ratio) := rfl
      rw [hround]
      apply mathRound_le
      rw [hcaptured, PageMetrics.ratio_eq hdpr]
      calc min metrics.fullH (n * metrics.viewportH) * metrics.dpr
        _ ≤ n * metrics.viewportH * metrics.dpr := by
            apply mul_le_mul_of_nonneg_right (min_le_right _ _) hdpr.le
        _ = n * (metrics.viewportH * metrics.dpr) := mul_assoc _ _ _
        _ ≤ maxDeviceHeight := hslices
  · have hshort : (planFullPageCapture metrics limits).isPartial = true ↔
        (n : ℚ) < metrics.neededSlices := by
      rw [← hn]
      apply decide_eq_true_iff
    rw [hshort, hcaptured, min_lt_iff]
    constructor
    · intro hfewer
      right
      have hle : (n : ℚ) ≤ metrics.neededSlices - 1 := by
        have hint : (n : ℤ) < metrics.neededSlices := by exact_mod_cast hfewer
        have hint' : (n : ℤ) ≤ metrics.neededSlices - 1 := by omega
        exact_mod_cast hint'
      calc n * metrics.viewportH
        _ ≤ (metrics.neededSlices - 1) * metrics.viewportH :=
            mul_le_mul_of_nonneg_right hle hpos.le
        _ < metrics.fullH := hless
    · rintro (hself | hshort)
      · apply absurd hself (lt_irrefl _)
      · have hlt := lt_of_lt_of_le hshort henough
        apply lt_of_mul_lt_mul_right hlt hpos.le

/-- A page of three viewports and a half, on a screen with two device pixels for each pixel. -/
theorem faithful_of_long_page :
  Faithful ⟨1280, 800, 2800, 2⟩ DEFAULT_LIMITS
    (planFullPageCapture ⟨1280, 800, 2800, 2⟩ DEFAULT_LIMITS)
    (captureSlices ⟨1280, 800, 2800, 2⟩
      (planFullPageCapture ⟨1280, 800, 2800, 2⟩ DEFAULT_LIMITS))
  := by
  apply faithful_of_whole
  · norm_num
  · norm_num
  · norm_num
  · norm_num [DEFAULT_LIMITS]
  · use 20
    norm_num [DEFAULT_LIMITS]

/-- Viewports of half a pixel leave a gap, and a cap of one slice and a half is exceeded. -/
theorem not_faithful_of_fractions :
  ¬ Faithful ⟨1280, 1 / 2, 10, 1⟩ DEFAULT_LIMITS
      (planFullPageCapture ⟨1280, 1 / 2, 10, 1⟩ DEFAULT_LIMITS)
      (captureSlices ⟨1280, 1 / 2, 10, 1⟩
        (planFullPageCapture ⟨1280, 1 / 2, 10, 1⟩ DEFAULT_LIMITS)) ∧
    ¬ Faithful ⟨1280, 800, 1000, 1⟩ ⟨3 / 2, 16384⟩
      (planFullPageCapture ⟨1280, 800, 1000, 1⟩ ⟨3 / 2, 16384⟩)
      (captureSlices ⟨1280, 800, 1000, 1⟩
        (planFullPageCapture ⟨1280, 800, 1000, 1⟩ ⟨3 / 2, 16384⟩))
  := by
  constructor
  · intro h
    have hgap : ∀ slice ∈ captureSlices ⟨1280, 1 / 2, 10, 1⟩
        (planFullPageCapture ⟨1280, 1 / 2, 10, 1⟩ DEFAULT_LIMITS),
        ¬ (9 : ℚ) < slice.actualY + 1 / 2 := by
      decide +kernel
    have hrow : (9 : ℚ) <
        (planFullPageCapture ⟨1280, 1 / 2, 10, 1⟩ DEFAULT_LIMITS).capturedCssHeight := by
      decide +kernel
    obtain ⟨slice, hmem, -, hshown⟩ := h.covered 9 (by norm_num) hrow
    apply hgap slice hmem hshown
  · intro h
    have hmore : ¬ ((captureSlices ⟨1280, 800, 1000, 1⟩
        (planFullPageCapture ⟨1280, 800, 1000, 1⟩ ⟨3 / 2, 16384⟩)).length : ℚ) ≤ 3 / 2 := by
      decide +kernel
    apply hmore h.atMost

end FullPage

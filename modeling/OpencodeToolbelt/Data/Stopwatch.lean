import Mathlib.MeasureTheory.Measure.Lebesgue.Basic

/-!
# Stopwatches

A stopwatch is started and stopped at times that never decrease. What it shows is the measure of
the union of the intervals that reach from a start to the stop that comes next.
-/

/-- What is done to a stopwatch. -/
inductive Mark where
  | start
  | stop
  | other
  deriving DecidableEq

/-- A stopwatch: since when it has been running, if it is, and the time before that. -/
structure Stopwatch where
  since : Option ℚ
  total : ℚ

namespace Stopwatch

def initial : Stopwatch := ⟨none, 0⟩

/-- A stopwatch that is running keeps running when it is started. -/
def press (w : Stopwatch) (e : ℚ × Mark) : Stopwatch :=
  match e.2 with
  | .start => { w with since := some (w.since.getD e.1) }
  | .stop => ⟨none, w.total + (w.since.map fun t => max 0 (e.1 - t)).getD 0⟩
  | .other => w

def run (l : List (ℚ × Mark)) : Stopwatch := l.foldl press initial

/-- The starts after the last stop. -/
def Running (l : List (ℚ × Mark)) (t : ℚ) : Prop :=
  ∃ before between, l = before ++ (t, .start) :: between ∧ ∀ e ∈ between, e.2 ≠ .stop

/-- The times between a start and the next stop. -/
def covered (l : List (ℚ × Mark)) : Set ℝ :=
  {x | ∃ (before after : List (ℚ × Mark)) (t t' : ℚ), l = before ++ (t', .stop) :: after ∧
    Running before t ∧ (t : ℝ) ≤ x ∧ x ≤ t'}

/-- The times never decrease. -/
def InOrder (l : List (ℚ × Mark)) : Prop := (l.map Prod.fst).Pairwise (· ≤ ·)

variable {l : List (ℚ × Mark)} {e : ℚ × Mark} {t : ℚ}

theorem run_append (l : List (ℚ × Mark)) (e : ℚ × Mark) :
  run (l ++ [e]) = (run l).press e
  := List.foldl_concat _ _ _ _

theorem InOrder.of_append (h : InOrder (l ++ [e])) :
  InOrder l ∧ ∀ e' ∈ l, e'.1 ≤ e.1
  := by
  simp only [InOrder, List.map_append, List.pairwise_append] at h
  obtain ⟨hl, -, hlast⟩ := h
  use hl
  intro e' he'
  apply hlast
  · apply List.mem_map_of_mem he'
  · simp

theorem Running.mem (h : Running l t) :
  (t, .start) ∈ l
  := by
  obtain ⟨before, between, rfl, -⟩ := h
  simp

/-- The starts after the last stop, where something more is done. -/
theorem running_append_iff :
  Running (l ++ [e]) t ↔ (e = (t, .start)) ∨ (e.2 ≠ .stop ∧ Running l t)
  := by
  constructor
  · rintro ⟨before, between, heq, hbetween⟩
    rcases List.eq_nil_or_concat between with rfl | ⟨between, e', rfl⟩
    · left
      apply (List.append_inj' heq rfl).2 |> List.head_eq_of_cons_eq
    · right
      rw [List.concat_eq_append] at heq hbetween
      have happend : l ++ [e] = (before ++ (t, .start) :: between) ++ [e'] := by
        rw [heq, List.append_assoc, List.cons_append]
      obtain ⟨rfl, he⟩ := List.append_inj' happend rfl
      cases he
      constructor
      · apply hbetween
        simp
      · use before, between, rfl
        intro e' he'
        apply hbetween
        apply List.mem_append_left _ he'
  · rintro (rfl | ⟨hne, before, between, rfl, hbetween⟩)
    · use l, [], rfl
      simp
    · use before, between ++ [e]
      constructor
      · rw [List.append_assoc, List.cons_append]
      · intro e' he'
        rcases List.mem_append.mp he' with he' | he'
        · apply hbetween e' he'
        · rw [List.mem_singleton.mp he']
          apply hne

/-- A stop covers the times since the starts before it. -/
theorem covered_append :
  covered (l ++ [e]) = covered l ∪ {x | e.2 = .stop ∧ ∃ t, Running l t ∧ (t : ℝ) ≤ x ∧ x ≤ e.1}
  := by
  ext x
  constructor
  · rintro ⟨before, after, t, t', heq, hrunning, ht, ht'⟩
    rcases List.eq_nil_or_concat after with rfl | ⟨after, e', rfl⟩
    · right
      obtain ⟨rfl, he⟩ := List.append_inj' heq rfl
      cases he
      exact ⟨rfl, t, hrunning, ht, ht'⟩
    · left
      rw [List.concat_eq_append] at heq
      have happend : l ++ [e] = (before ++ (t', .stop) :: after) ++ [e'] := by
        rw [heq, List.append_assoc, List.cons_append]
      obtain ⟨rfl, -⟩ := List.append_inj' happend rfl
      exact ⟨before, after, t, t', rfl, hrunning, ht, ht'⟩
  · rintro (⟨before, after, t, t', rfl, hrunning, ht, ht'⟩ | ⟨hstop, t, hrunning, ht, ht'⟩)
    · refine ⟨before, after ++ [e], t, t', ?_, hrunning, ht, ht'⟩
      rw [List.append_assoc, List.cons_append]
    · refine ⟨l, [], t, e.1, ?_, hrunning, ht, ht'⟩
      rw [← hstop]

theorem not_running_nil (t : ℚ) :
  ¬ Running [] t
  := by
  intro h
  cases h.mem

theorem covered_nil :
  covered [] = ∅
  := by
  ext x
  constructor
  · rintro ⟨before, after, t, t', heq, -⟩
    cases before <;> cases heq
  · rintro ⟨⟩

/-- The stopwatch shows what is covered. -/
structure Shows (l : List (ℚ × Mark)) (w : Stopwatch) : Prop where
  stopped : w.since = none → ∀ t, ¬ Running l t
  running : ∀ t, w.since = some t → Running l t ∧ ∀ t', Running l t' → t ≤ t'
  past : ∀ x ∈ covered l, (∃ e ∈ l, x ≤ e.1) ∧ ∀ t, w.since = some t → x ≤ t
  nonneg : 0 ≤ w.total
  volume_eq : MeasureTheory.volume (covered l) = ENNReal.ofReal w.total

theorem shows_initial :
  Shows [] initial
  := by
  constructor
  · intro _
    apply not_running_nil
  · rintro t ⟨⟩
  · intro x hx
    rw [covered_nil] at hx
    cases hx
  · apply le_refl
  · simp [covered_nil, initial]

/-- What is covered does not change unless the stopwatch is stopped. -/
theorem covered_append_of_ne (hne : e.2 ≠ .stop) :
  covered (l ++ [e]) = covered l
  := by
  rw [covered_append, Set.union_eq_left]
  rintro x ⟨hstop, -⟩
  apply absurd hstop hne

theorem Shows.other {w : Stopwatch} (h : Shows l w) (he : e.2 = .other) :
  Shows (l ++ [e]) w
  := by
  have hne : e.2 ≠ .stop := by simp [he]
  have hrunning : ∀ t, Running (l ++ [e]) t ↔ Running l t := by
    intro t
    rw [running_append_iff]
    constructor
    · rintro (rfl | ⟨-, h⟩)
      · cases he
      · apply h
    · intro h
      apply Or.inr ⟨hne, h⟩
  constructor
  · intro hnone t
    rw [hrunning]
    apply h.stopped hnone
  · intro t hsome
    simp only [hrunning]
    apply h.running t hsome
  · rw [covered_append_of_ne hne]
    intro x hx
    obtain ⟨⟨e', he', hle⟩, hbefore⟩ := h.past x hx
    use ⟨e', List.mem_append_left _ he', hle⟩
  · apply h.nonneg
  · rw [covered_append_of_ne hne]
    apply h.volume_eq

theorem Shows.start {w : Stopwatch} (h : Shows l w) (hlast : ∀ e' ∈ l, e'.1 ≤ e.1)
    (he : e.2 = .start) :
  Shows (l ++ [e]) { w with since := some (w.since.getD e.1) }
  := by
  have hne : e.2 ≠ .stop := by simp [he]
  have hrunning : ∀ t, Running (l ++ [e]) t ↔ e.1 = t ∨ Running l t := by
    intro t
    rw [running_append_iff]
    simp [Prod.ext_iff, he]
  constructor
  · rintro ⟨⟩
  · intro t hsome
    obtain rfl := Option.some.inj hsome
    simp only [hrunning]
    cases hsince : w.since with
    | none =>
        use Or.inl rfl
        rintro t' (rfl | ht')
        · apply le_refl
        · apply absurd ht' (h.stopped hsince t')
    | some t =>
        obtain ⟨ht, hmin⟩ := h.running t hsince
        use Or.inr ht
        rintro t' (rfl | ht')
        · apply hlast _ ht.mem
        · apply hmin t' ht'
  · rw [covered_append_of_ne hne]
    intro x hx
    obtain ⟨⟨e', he', hle⟩, hbefore⟩ := h.past x hx
    use ⟨e', List.mem_append_left _ he', hle⟩
    intro t hsome
    obtain rfl := Option.some.inj hsome
    cases hsince : w.since with
    | none =>
        apply hle.trans
        exact_mod_cast hlast e' he'
    | some t => apply hbefore t hsince
  · apply h.nonneg
  · rw [covered_append_of_ne hne]
    apply h.volume_eq

/-- What comes after the start of a running stopwatch adds to what was covered before it. -/
theorem volume_union_Icc {A : Set ℝ} {a b : ℝ} (h : ∀ x ∈ A, x ≤ a) :
  MeasureTheory.volume (A ∪ Set.Icc a b) = MeasureTheory.volume A + ENNReal.ofReal (b - a)
  := by
  rw [MeasureTheory.measure_union₀ measurableSet_Icc.nullMeasurableSet, Real.volume_Icc]
  apply MeasureTheory.measure_mono_null _ (Real.volume_singleton (a := a))
  rintro x ⟨hx, hax, -⟩
  apply le_antisymm (h x hx) hax

theorem Shows.stop {w : Stopwatch} (h : Shows l w) (hlast : ∀ e' ∈ l, e'.1 ≤ e.1)
    (he : e.2 = .stop) :
  Shows (l ++ [e]) ⟨none, w.total + (w.since.map fun t => max 0 (e.1 - t)).getD 0⟩
  := by
  have hstopped : ∀ t, ¬ Running (l ++ [e]) t := by
    intro t
    rw [running_append_iff]
    rintro (rfl | ⟨hne, -⟩)
    · cases he
    · apply hne he
  have hpast : ∀ x ∈ covered (l ++ [e]), x ≤ e.1 := by
    rw [covered_append]
    rintro x (hx | ⟨-, t, -, -, hle⟩)
    · obtain ⟨⟨e', he', hle⟩, -⟩ := h.past x hx
      apply hle.trans
      exact_mod_cast hlast e' he'
    · apply hle
  constructor
  · intro _
    apply hstopped
  · rintro t ⟨⟩
  · intro x hx
    constructor
    · use e, List.mem_append_right _ (List.mem_singleton_self e)
      apply hpast x hx
    · rintro t ⟨⟩
  · cases w.since with
    | none => simpa using h.nonneg
    | some t => exact add_nonneg h.nonneg (le_max_left _ _)
  · cases hsince : w.since with
    | none =>
        have hcovered : covered (l ++ [e]) = covered l := by
          rw [covered_append, Set.union_eq_left]
          rintro x ⟨-, t, ht, -⟩
          apply absurd ht (h.stopped hsince t)
        rw [hcovered]
        simpa using h.volume_eq
    | some t =>
        obtain ⟨ht, hmin⟩ := h.running t hsince
        have hle : t ≤ e.1 := hlast _ ht.mem
        have hcovered : covered (l ++ [e]) = covered l ∪ Set.Icc (t : ℝ) e.1 := by
          rw [covered_append]
          congr 1
          ext x
          constructor
          · rintro ⟨-, t', ht', hx⟩
            use le_trans (by exact_mod_cast hmin t' ht') hx.1, hx.2
          · intro hx
            exact ⟨he, t, ht, hx⟩
        rw [hcovered, volume_union_Icc fun x hx => (h.past x hx).2 t hsince, h.volume_eq,
          ← ENNReal.ofReal_add (by exact_mod_cast h.nonneg) (by exact_mod_cast sub_nonneg.mpr hle)]
        simp [max_eq_right (sub_nonneg.mpr hle)]

theorem shows_run (h : InOrder l) :
  Shows l (run l)
  := by
  induction l using List.reverseRecOn with
  | nil => apply shows_initial
  | append_singleton l e ih =>
      obtain ⟨hl, hlast⟩ := h.of_append
      rw [run_append, press]
      cases he : e.2 with
      | start => apply (ih hl).start hlast he
      | stop => apply (ih hl).stop hlast he
      | other => apply (ih hl).other he

/-- A stopwatch shows the measure of the times between its starts and its stops. -/
theorem total_eq_volume (h : InOrder l) :
  ((run l).total : ℝ) = (MeasureTheory.volume (covered l)).toReal
  := by
  have hshows := shows_run h
  rw [hshows.volume_eq, ENNReal.toReal_ofReal]
  exact_mod_cast hshows.nonneg

/-- A stopwatch that is running has been started. -/
theorem exists_start_of_since (h : InOrder l) (hsince : (run l).since = some t) :
  (t, .start) ∈ l
  := ((shows_run h).running t hsince).1.mem

end Stopwatch

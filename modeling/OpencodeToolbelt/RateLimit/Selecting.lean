import OpencodeToolbelt.RateLimit.Config
import Mathlib.Data.List.Perm.Subperm
import Mathlib.Order.WithBot

/-!
# Selecting tiers

The tier that is selected for a reset, in terms of the tiers in the order of the configuration:
the first one with the least bound that reaches the reset, or else the first one without a bound.
-/

/-! ### Sorted lists -/

section Sorted

variable {α : Type} {le : α → α → Bool}

/-- Elements that are in order in a list are in this order in the sorted list. -/
theorem filter_mergeSort (htrans : ∀ a b c, le a b → le b c → le a c)
    (htotal : ∀ a b, le a b || le b a) {l : List α} {q : α → Bool}
    (hq : ∀ a ∈ l, ∀ b ∈ l, q a → q b → le a b) :
  (l.mergeSort le).filter q = l.filter q
  := by
  have hsublist : (l.filter q).Sublist (l.mergeSort le) := by
    apply List.sublist_mergeSort htrans htotal _ List.filter_sublist
    apply List.pairwise_of_forall_mem_list
    intro a ha b hb
    rw [List.mem_filter] at ha hb
    apply hq a ha.1 b hb.1 ha.2 hb.2
  have hfilter := hsublist.filter q
  rw [List.filter_filter] at hfilter
  simp only [Bool.and_self] at hfilter
  apply (hfilter.eq_of_length _).symm
  apply List.Perm.length_eq
  apply ((List.mergeSort_perm l le).filter q).symm

/-- The first element of a sorted list with a property is the first of the least ones in the list
as it was. -/
theorem find?_mergeSort (htrans : ∀ a b c, le a b → le b c → le a c)
    (htotal : ∀ a b, le a b || le b a) {l : List α} {p : α → Bool} {a : α}
    (h : (l.mergeSort le).find? p = some a) :
  (∀ b ∈ l, p b → le a b) ∧ l.find? (fun b => p b && le b a) = some a
  := by
  have hrefl : le a a := by simpa using htotal a a
  obtain ⟨hp, before, behind, heq, hbefore⟩ := List.find?_eq_some_iff_append.mp h
  have hleast : ∀ b ∈ l, p b → le a b := by
    intro b hb hpb
    have hmem : b ∈ l.mergeSort le := List.mem_mergeSort.mpr hb
    rw [heq] at hmem
    rcases List.mem_append.mp hmem with hmem | hmem
    · have hnot := hbefore b hmem
      rw [hpb] at hnot
      cases hnot
    · rcases List.mem_cons.mp hmem with rfl | hmem
      · apply hrefl
      · have hpairwise := List.pairwise_mergeSort htrans htotal l
        rw [heq] at hpairwise
        apply (List.pairwise_cons.mp (List.pairwise_append.mp hpairwise).2.1).1 b hmem
  use hleast
  have hfilter : (l.mergeSort le).filter (fun b => p b && le b a) =
      l.filter fun b => p b && le b a := by
    apply filter_mergeSort htrans htotal
    intro b _ c hmem hb hc
    rw [Bool.and_eq_true] at hb hc
    apply htrans b a c hb.2 (hleast c hmem hc.1)
  rw [← List.head?_filter, ← hfilter, List.head?_filter, List.find?_eq_some_iff_append]
  refine ⟨by rw [hp, hrefl]; rfl, before, behind, heq, ?_⟩
  intro b hb
  have hnot := hbefore b hb
  rw [Bool.not_eq_true'] at hnot ⊢
  rw [hnot, Bool.false_and]

end Sorted

namespace RateLimit

/-! ### Selection by numbers -/

namespace RateLimitTier

/-- `tier.maxResetSeconds === null || reset <= tier.maxResetSeconds` -/
def reaches (tier : RateLimitTier) (reset : ℚ) : Bool :=
  tier.maxResetSeconds.all fun bound : ℕ => reset ≤ (bound : ℚ)

/-- The bound of a tier, infinite where it takes every reset. -/
def bound (tier : RateLimitTier) : WithTop ℕ := tier.maxResetSeconds.elim ⊤ fun bound => (bound : ℕ)

end RateLimitTier

namespace RateLimitOptions

variable (opts : RateLimitOptions)

/-- The tier for a reset that may be any number. -/
def selectTierFor (resetSeconds : Option ℚ) : RateLimitTier :=
  (opts.tiers.find? fun tier => tier.reaches (resetSeconds.getD 0)).getD
    (opts.tiers.getLast opts.tiers_ne_nil)

theorem selectTier_eq_selectTierFor (resetSeconds : Option ℤ) :
  opts.selectTier resetSeconds = opts.selectTierFor (resetSeconds.map fun (r : ℤ) => (r : ℚ))
  := by
  have hcovers : ∀ tier : RateLimitTier, tier.covers (resetSeconds.getD 0) =
      tier.reaches ((resetSeconds.map fun (r : ℤ) => (r : ℚ)).getD 0) := by
    intro tier
    have hcast : (resetSeconds.map fun (r : ℤ) => (r : ℚ)).getD 0 =
        ((resetSeconds.getD 0 : ℤ) : ℚ) := by
      cases resetSeconds with
      | none => rfl
      | some r => rfl
    rw [hcast]
    unfold RateLimitTier.covers RateLimitTier.reaches
    cases tier.maxResetSeconds with
    | none => rfl
    | some bound =>
        change decide (resetSeconds.getD 0 ≤ (bound : ℤ)) = decide (_ ≤ (bound : ℚ))
        rw [decide_eq_decide]
        norm_cast
  simp only [selectTier, selectTierFor, hcovers]

end RateLimitOptions

/-! ### Configured tiers -/

/-- `meta.rateLimit` of the options of a provider. -/
def rateLimitOf (providerOptions : Option JsObject) : Option JsObject := do
  let options ← providerOptions
  let metadata ← asRecord (options.get "meta")
  asRecord (metadata.get "rateLimit")

/-- The tiers in the order of the configuration. A flat one has one tier that takes every reset. -/
def configuredTiers (providerOptions : Option JsObject) : List RateLimitTier :=
  match rateLimitOf providerOptions with
  | none => []
  | some rateLimit =>
      match rateLimit.get "tiers" with
      | .array (item :: items) =>
          (item :: items).map fun raw => parseTier ((asRecord raw).getD [])
      | _ => [flatTier rateLimit]

/-- The tier is the first one with the least bound that reaches the reset, or else the first one
without a bound. -/
def IsSelected (configured : List RateLimitTier) (reset : ℚ) (tier : RateLimitTier) : Prop :=
  (∃ bound : ℕ, tier.maxResetSeconds = some bound ∧ reset ≤ bound ∧
    (∀ other ∈ configured, ∀ bound' : ℕ, other.maxResetSeconds = some bound' → reset ≤ bound' →
      bound ≤ bound') ∧
    configured.find? (fun other => other.maxResetSeconds = some bound) = some tier) ∨
  ((∀ other ∈ configured, ∀ bound' : ℕ, other.maxResetSeconds = some bound' → ¬ reset ≤ bound') ∧
    tier = (configured.find? fun other => other.maxResetSeconds = none).getD fallbackTier)

theorem tierBefore_trans (a b c : RateLimitTier) (hab : tierBefore a b) (hbc : tierBefore b c) :
  tierBefore a c
  := by
  unfold tierBefore at *
  cases ha : a.maxResetSeconds with
  | none =>
      cases hb : b.maxResetSeconds with
      | none =>
          rw [hb] at hbc
          cases hc : c.maxResetSeconds with
          | none => rfl
          | some n =>
              rw [hc] at hbc
              cases hbc
      | some m =>
          rw [ha, hb] at hab
          cases hab
  | some l =>
      cases hc : c.maxResetSeconds with
      | none => rfl
      | some n =>
          cases hb : b.maxResetSeconds with
          | none =>
              rw [hb, hc] at hbc
              cases hbc
          | some m =>
              rw [ha, hb] at hab
              rw [hb, hc] at hbc
              simp only [decide_eq_true_eq] at hab hbc ⊢
              omega

theorem tierBefore_total (a b : RateLimitTier) :
  (tierBefore a b || tierBefore b a) = true
  := by
  unfold tierBefore
  cases a.maxResetSeconds with
  | none =>
      cases b.maxResetSeconds with
      | none => rfl
      | some n => rfl
  | some m =>
      cases b.maxResetSeconds with
      | none => rfl
      | some n => simp [Nat.le_total]

theorem find?_congr {α : Type} {p q : α → Bool} {l : List α} (h : ∀ a ∈ l, p a = q a) :
  l.find? p = l.find? q
  := by
  rw [← List.head?_filter, ← List.head?_filter, List.filter_congr h]

/-- The first tier of the normalized ones that reaches a reset is the selected one. -/
theorem isSelected_normalizeTiers (configured : List RateLimitTier) (reset : ℚ)
    {fallback : RateLimitTier} :
  IsSelected configured reset
    (((normalizeTiers configured).find? fun tier => tier.reaches reset).getD fallback)
  := by
  have hsorted : ∀ tier,
      (configured.mergeSort tierBefore).find? (fun tier => tier.reaches reset) = some tier →
      IsSelected configured reset tier := by
    intro tier hfind
    obtain ⟨hleast, hfirst⟩ := find?_mergeSort tierBefore_trans tierBefore_total hfind
    have hreaches := List.find?_some hfind
    cases hbound : tier.maxResetSeconds with
    | some bound =>
        left
        refine ⟨bound, hbound, ?_, ?_, ?_⟩
        · simpa [RateLimitTier.reaches, hbound] using hreaches
        · intro other hother bound' hbound' hle
          have hbefore := hleast other hother (by simp [RateLimitTier.reaches, hbound', hle])
          simpa [tierBefore, hbound, hbound'] using hbefore
        · rw [← hfirst]
          apply find?_congr
          intro other hother
          rw [Bool.eq_iff_iff, decide_eq_true_eq, Bool.and_eq_true]
          constructor
          · intro heq
            constructor
            · rw [RateLimitTier.reaches, heq, ← hbound]
              apply hreaches
            · simp [tierBefore, heq, hbound]
          · rintro ⟨hother', hbefore⟩
            have hbefore' := hleast other hother hother'
            unfold tierBefore at hbefore hbefore'
            cases heq : other.maxResetSeconds with
            | none =>
                rw [heq, hbound] at hbefore
                cases hbefore
            | some bound' =>
                rw [heq, hbound] at hbefore hbefore'
                simp only [decide_eq_true_eq] at hbefore hbefore'
                congr 1
                omega
    | none =>
        right
        constructor
        · intro other hother bound' hbound' hle
          have hbefore := hleast other hother (by simp [RateLimitTier.reaches, hbound', hle])
          simp [tierBefore, hbound, hbound'] at hbefore
        · have hnone : configured.find? (fun other => other.maxResetSeconds = none) = some tier := by
            rw [← hfirst]
            apply find?_congr
            intro other hother
            rw [Bool.eq_iff_iff, decide_eq_true_eq, Bool.and_eq_true]
            constructor
            · intro heq
              constructor
              · simp [RateLimitTier.reaches, heq]
              · simp [tierBefore, heq, hbound]
            · rintro ⟨hother', _⟩
              have hbefore := hleast other hother hother'
              cases heq : other.maxResetSeconds with
              | none => rfl
              | some bound' => simp [tierBefore, heq, hbound] at hbefore
          rw [hnone, Option.getD_some]
  unfold normalizeTiers
  dsimp only
  split
  · next hany =>
      cases hfind : (configured.mergeSort tierBefore).find? fun tier => tier.reaches reset with
      | some tier => apply hsorted tier hfind
      | none =>
          obtain ⟨tier, hmem, hbound⟩ := List.any_eq_true.mp hany
          have hnot := List.find?_eq_none.mp hfind tier hmem
          rw [Option.isNone_iff_eq_none] at hbound
          simp [RateLimitTier.reaches, hbound] at hnot
  · next hany =>
      rw [List.find?_append]
      cases hfind : (configured.mergeSort tierBefore).find? fun tier => tier.reaches reset with
      | some tier => apply hsorted tier hfind
      | none =>
          have hlast : ([fallbackTier].find? fun tier => tier.reaches reset) =
              some fallbackTier := rfl
          rw [Option.none_or, hlast, Option.getD_some]
          right
          constructor
          · intro other hother bound' hbound' hle
            have hnot := List.find?_eq_none.mp hfind other (List.mem_mergeSort.mpr hother)
            simp [RateLimitTier.reaches, hbound', hle] at hnot
          · have hnone : configured.find? (fun other => other.maxResetSeconds = none) = none := by
              rw [List.find?_eq_none]
              intro other hother hnone
              apply hany
              apply List.any_eq_true.mpr
              use other, List.mem_mergeSort.mpr hother
              simpa using hnone
            rw [hnone, Option.getD_none]

theorem isSelected_flatTier (rateLimit : JsObject) (reset : ℚ) :
  IsSelected [flatTier rateLimit] reset (flatTier rateLimit)
  := by
  right
  constructor
  · intro other hother bound' hbound'
    rw [List.mem_singleton.mp hother] at hbound'
    cases hbound'
  · rfl

/-- The selected tier does not depend on the way its tiers are ordered and completed. -/
theorem isSelected_selectTierFor {providerOptions : Option JsObject} {opts : RateLimitOptions}
    (h : parseRateLimitOptions providerOptions = some opts) (reset : Option ℚ) :
  IsSelected (configuredTiers providerOptions) (reset.getD 0) (opts.selectTierFor reset)
  := by
  have htiers : ∃ rateLimit, rateLimitOf providerOptions = some rateLimit ∧
      opts.tiers = readTiers rateLimit := by
    unfold parseRateLimitOptions at h
    simp only [Option.bind_eq_bind, Option.bind_eq_some_iff] at h
    obtain ⟨options, rfl, metadata, hmetadata, rateLimit, hrateLimit, h⟩ := h
    split at h
    · obtain rfl := Option.some.inj h
      use rateLimit
      constructor
      · simp only [rateLimitOf, Option.bind_eq_bind, Option.bind_some, hmetadata, hrateLimit]
      · rfl
    · cases h
  obtain ⟨rateLimit, hrateLimit, htiers⟩ := htiers
  unfold RateLimitOptions.selectTierFor configuredTiers
  rw [hrateLimit]
  generalize opts.tiers.getLast opts.tiers_ne_nil = fallback
  rw [htiers, readTiers]
  dsimp only
  generalize rateLimit.get "tiers" = tiers
  cases tiers with
  | array items =>
      cases items with
      | nil => apply isSelected_flatTier
      | cons item items => apply isSelected_normalizeTiers
  | _ => apply isSelected_flatTier

/-- A reset that is farther away is for a tier with a bound that is no less. -/
theorem bound_le_of_isSelected {configured : List RateLimitTier} {reset reset' : ℚ}
    {tier tier' : RateLimitTier} (h : IsSelected configured reset tier)
    (h' : IsSelected configured reset' tier') (hle : reset ≤ reset') :
  tier.bound ≤ tier'.bound
  := by
  rcases h' with ⟨bound', hbound', hle', -, hfirst'⟩ | ⟨-, rfl⟩
  · have hmem := List.mem_of_find?_eq_some hfirst'
    rcases h with ⟨bound, hbound, -, hleast, -⟩ | ⟨hnone, -⟩
    · have hbounds := hleast tier' hmem bound' hbound' (hle.trans hle')
      simp only [RateLimitTier.bound, hbound, hbound', Option.elim_some]
      exact_mod_cast hbounds
    · apply absurd (hle.trans hle') (hnone tier' hmem bound' hbound')
  · have htop : ((configured.find? fun other => other.maxResetSeconds = none).getD
        fallbackTier).maxResetSeconds = none := by
      cases hfind : configured.find? fun other => other.maxResetSeconds = none with
      | none => rfl
      | some other => simpa using List.find?_some hfind
    rw [RateLimitTier.bound, RateLimitTier.bound, htop, Option.elim_none]
    apply le_top

/-- The tier for a reset is the selected one among those of the configuration, and its bound does
not fall with the reset. -/
theorem selectTierFor_spec {providerOptions : Option JsObject} {opts : RateLimitOptions}
    (h : parseRateLimitOptions providerOptions = some opts) :
  (∀ reset, IsSelected (configuredTiers providerOptions) (reset.getD 0)
    (opts.selectTierFor reset)) ∧
  ∀ reset reset' : ℚ, reset ≤ reset' →
    (opts.selectTierFor (some reset)).bound ≤ (opts.selectTierFor (some reset')).bound
  := by
  constructor
  · apply isSelected_selectTierFor h
  · intro reset reset'
    apply bound_le_of_isSelected
    · apply isSelected_selectTierFor h (some reset)
    · apply isSelected_selectTierFor h (some reset')

/-- Two tiers with one bound, and one that takes every reset. -/
def sampleOptions : JsObject :=
  [("meta", .object [("rateLimit", .object [("tiers", .array
    [.object [("action", .string "error")],
      .object [("maxResetSeconds", .number (121 / 2)), ("maxRetries", .number 1)],
      .object [("maxResetSeconds", .number 60), ("maxRetries", .number 2)]])])])]

theorem selectTierFor_spec_sample :
  ∃ opts, parseRateLimitOptions (some sampleOptions) = some opts ∧
    IsSelected (configuredTiers (some sampleOptions)) 60 (opts.selectTierFor (some 60))
  := by
  have hparse : (parseRateLimitOptions (some sampleOptions)).isSome = true := by
    decide +kernel
  obtain ⟨opts, hopts⟩ := Option.isSome_iff_exists.mp hparse
  use opts, hopts
  apply (selectTierFor_spec hopts).1 (some 60)

end RateLimit

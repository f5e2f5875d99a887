import Mathlib.Data.Nat.Notation
import Mathlib.Data.List.Nodup

/-!
# Reports that are remembered

Keys are reported, each with an owner, and remembered, so that a report counts only when its
key is not remembered. The keys of an owner are forgotten together. A key is counted once
if and only if it is not reported again after its owner has been forgotten.
-/

inductive Memo (K S : Type) where
  | report (key : K) (owner : S)
  | forget (owner : S)
  /-- Something that has nothing to do with the reports. -/
  | other

namespace Memo

variable {K S : Type} [DecidableEq K] [DecidableEq S] {k : K} {o : Option S} {owner : S}

/-- The owner under which a key is remembered, after one more memo. -/
def remembered (k : K) (o : Option S) : Memo K S → Option S
  | .report k' owner => if k' = k then o.or (some owner) else o
  | .forget owner => o.filter (· ≠ owner)
  | .other => o

/-- Whether a memo is a report of the key. -/
def reports (k : K) : Memo K S → Bool
  | .report k' _ => k' = k
  | _ => false

/-- How often a key counts in a list of memos. -/
def counted (k : K) : Option S → List (Memo K S) → ℕ
  | _, [] => 0
  | o, m :: ms => (if m.reports k && o.isNone then 1 else 0) + counted k (m.remembered k o) ms

omit [DecidableEq S] in
theorem reports_iff {m : Memo K S} :
  m.reports k = true ↔ ∃ owner, m = .report k owner
  := by
  cases m with
  | report k' owner => simp [reports]
  | forget owner => simp [reports]
  | other => simp [reports]

omit [DecidableEq S] in
theorem not_reports {m : Memo K S} (h : ∀ owner, m ≠ .report k owner) :
  m.reports k = false
  := by
  rw [Bool.eq_false_iff]
  intro hr
  obtain ⟨owner, rfl⟩ := reports_iff.mp hr
  exact h owner rfl

/-- A key that is not remembered stays so as long as it is not reported. -/
theorem remembered_none {m : Memo K S} (h : m.reports k = false) :
  m.remembered k none = none
  := by
  cases m with
  | report k' owner =>
      simp only [reports, decide_eq_false_iff_not] at h
      rw [remembered, if_neg h]
  | forget owner => rfl
  | other => rfl

/-- A key is remembered under its owner until that is forgotten. -/
theorem remembered_some {m : Memo K S} (h : m ≠ .forget owner) :
  m.remembered k (some owner) = some owner
  := by
  cases m with
  | report k' owner' =>
      rw [remembered]
      split <;> rfl
  | forget owner' =>
      have hne : owner ≠ owner' := by
        rintro rfl
        exact h rfl
      simp [remembered, hne]
  | other => rfl

theorem remembered_forget (k : K) (owner : S) :
  (Memo.forget owner).remembered k (some owner) = none
  := by
  simp [remembered]

/-! ### Counting once -/

/-- A key is not reported again after the owner of its first report has been forgotten. -/
def Retained (k : K) (ms : List (Memo K S)) : Prop :=
  ∀ pre owner mid owner' post,
    ms = pre ++ .report k owner :: (mid ++ .report k owner' :: post) →
      (∀ m ∈ pre, m.reports k = false) → .forget owner ∉ mid

/-- The same, once the key has been reported. -/
def RetainedFrom (k : K) (owner : S) (ms : List (Memo K S)) : Prop :=
  ∀ mid owner' post, ms = mid ++ .report k owner' :: post → .forget owner ∉ mid

/-- A key that is not remembered counts when it is reported. -/
theorem counted_none_eq_zero {ms : List (Memo K S)} :
  counted k none ms = 0 ↔ ∀ m ∈ ms, m.reports k = false
  := by
  induction ms with
  | nil => simp [counted]
  | cons m ms ih =>
      rw [List.forall_mem_cons]
      cases hm : m.reports k with
      | true => simp [counted, hm]
      | false => simp [counted, hm, remembered_none hm, ih]

omit [DecidableEq K] [DecidableEq S] in
theorem retainedFrom_cons {m : Memo K S} {ms : List (Memo K S)} (h : m ≠ .forget owner) :
  RetainedFrom k owner (m :: ms) ↔ RetainedFrom k owner ms
  := by
  constructor
  · rintro hms mid owner' post rfl
    have hnot := hms (m :: mid) owner' post rfl
    exact fun hmem => hnot (List.mem_cons_of_mem _ hmem)
  · intro hms mid owner' post heq hmem
    cases mid with
    | nil => cases hmem
    | cons m' mid =>
        obtain ⟨rfl, htail⟩ := List.cons.inj heq
        obtain hmem | hmem := List.mem_cons.mp hmem
        · exact h hmem.symm
        · exact hms mid owner' post htail hmem

omit [DecidableEq S] in
theorem retainedFrom_forget {ms : List (Memo K S)} :
  RetainedFrom k owner (.forget owner :: ms) ↔ ∀ m ∈ ms, m.reports k = false
  := by
  constructor
  · intro hms m hm
    apply not_reports
    rintro owner' rfl
    obtain ⟨mid, post, rfl⟩ := List.append_of_mem hm
    apply hms (.forget owner :: mid) owner' post rfl
    apply List.mem_cons_self
  · intro hms mid owner' post heq hmem
    cases mid with
    | nil => cases hmem
    | cons m' mid =>
        obtain ⟨-, rfl⟩ := List.cons.inj heq
        have hnot := hms (.report k owner') (by simp)
        simp [reports] at hnot

/-- A key that is remembered counts again if it is reported after its owner was forgotten. -/
theorem counted_some_eq_zero {ms : List (Memo K S)} :
  counted k (some owner) ms = 0 ↔ RetainedFrom k owner ms
  := by
  induction ms with
  | nil =>
      simp only [counted, true_iff]
      intro mid owner' post heq
      simp at heq
  | cons m ms ih =>
      have hzero : counted k (some owner) (m :: ms) = counted k (m.remembered k (some owner)) ms := by
        simp [counted]
      rw [hzero]
      by_cases h : m = .forget owner
      · subst h
        rw [remembered_forget, counted_none_eq_zero, retainedFrom_forget]
      · rw [remembered_some h, ih, retainedFrom_cons h]

/-- What comes before the first report of a key does not matter. -/
theorem counted_append {pre ms : List (Memo K S)} (h : ∀ m ∈ pre, m.reports k = false) :
  counted k none (pre ++ ms) = counted k none ms
  := by
  induction pre with
  | nil => rfl
  | cons m pre ih =>
      rw [List.forall_mem_cons] at h
      rw [List.cons_append, counted, remembered_none h.1, ih h.2, h.1]
      simp

omit [DecidableEq S] in
/-- There is only one first report of a key. -/
theorem first_report {pre pre' ms ms' : List (Memo K S)} {owner owner' : S}
    (h : ∀ m ∈ pre, m.reports k = false) (h' : ∀ m ∈ pre', m.reports k = false)
    (heq : pre ++ .report k owner :: ms = pre' ++ .report k owner' :: ms') :
  owner = owner' ∧ ms = ms'
  := by
  induction pre generalizing pre' with
  | nil =>
      cases pre' with
      | nil =>
          obtain ⟨hm, rfl⟩ := List.cons.inj heq
          obtain ⟨-, rfl⟩ := Memo.report.inj hm
          exact ⟨rfl, rfl⟩
      | cons m' pre' =>
          obtain ⟨rfl, -⟩ := List.cons.inj heq
          have hnot := h' _ List.mem_cons_self
          simp [reports] at hnot
  | cons m pre ih =>
      rw [List.forall_mem_cons] at h
      cases pre' with
      | nil =>
          obtain ⟨rfl, -⟩ := List.cons.inj heq
          simp [reports] at h
      | cons m' pre' =>
          rw [List.forall_mem_cons] at h'
          apply ih h.2 h'.2 (List.cons.inj heq).2

omit [DecidableEq S] in
theorem exists_first_report {ms : List (Memo K S)} (h : ¬ ∀ m ∈ ms, m.reports k = false) :
  ∃ pre owner rest, ms = pre ++ .report k owner :: rest ∧ ∀ m ∈ pre, m.reports k = false
  := by
  induction ms with
  | nil => simp at h
  | cons m ms ih =>
      cases hm : m.reports k with
      | true =>
          obtain ⟨owner, rfl⟩ := reports_iff.mp hm
          use [], owner, ms, rfl
          simp
      | false =>
          obtain ⟨pre, owner, rest, rfl, hpre⟩ := ih (by simpa [hm] using h)
          use m :: pre, owner, rest, rfl
          rw [List.forall_mem_cons]
          exact ⟨hm, hpre⟩

/-- A key is counted at most once if and only if it is not reported again after the owner of
its first report has been forgotten. -/
theorem counted_le_one_iff {ms : List (Memo K S)} :
  counted k none ms ≤ 1 ↔ Retained k ms
  := by
  by_cases hnone : ∀ m ∈ ms, m.reports k = false
  · have hzero := counted_none_eq_zero.mpr hnone
    constructor
    · rintro - pre owner mid owner' post rfl
      have hnot := hnone (.report k owner) (by simp)
      simp [reports] at hnot
    · intro _
      omega
  · obtain ⟨pre, owner, rest, rfl, hpre⟩ := exists_first_report hnone
    have hcount : counted k none (pre ++ .report k owner :: rest) =
        1 + counted k (some owner) rest := by
      rw [counted_append hpre]
      simp [counted, reports, remembered]
    have hretained : Retained k (pre ++ .report k owner :: rest) ↔ RetainedFrom k owner rest := by
      constructor
      · rintro h mid owner' post rfl
        apply h pre owner mid owner' post rfl hpre
      · intro h pre' owner₁ mid owner' post heq hpre'
        obtain ⟨rfl, hrest⟩ := first_report hpre hpre' heq
        apply h mid owner' post hrest
    rw [hcount, hretained, ← counted_some_eq_zero]
    omega

/-! ### Systems that tally reports -/

section Tally

variable {State Event L : Type} (next : State → Event → State)
  (memo : State → Event → Memo K S)

/-- What the events of a run are to the reports. -/
def memos : State → List Event → List (Memo K S)
  | _, [] => []
  | s, e :: es => memo s e :: memos (next s e) es

/-- A state remembers the keys that are reported, and tallies those that count: each adds
entries to a list, among them one that is always the same. -/
structure Tallies (remembered : State → K → Option S) (tally : K → State → List L) (k : K)
    (x : L) : Prop where
  remembers : ∀ s e, remembered (next s e) k = (memo s e).remembered k (remembered s k)
  adds : ∀ s e, ∃ new, tally k (next s e) = new ++ tally k s ∧
    if (memo s e).reports k && (remembered s k).isNone then new.Nodup ∧ x ∈ new else new = []

variable {next memo} {remembered : State → K → Option S} {tally : K → State → List L} {x : L}

/-- What a run adds to the entries of a key. -/
theorem Tallies.run (h : Tallies next memo remembered tally k x) (s : State) (es : List Event) :
  ∃ new : List (List L), tally k (es.foldl next s) = new.flatten ++ tally k s ∧
    new.length = counted k (remembered s k) (memos next memo s es) ∧
      ∀ l ∈ new, l.Nodup ∧ x ∈ l
  := by
  induction es generalizing s with
  | nil =>
      use []
      simp [memos, counted]
  | cons e es ih =>
      obtain ⟨rest, hrest, hlength, hall⟩ := ih (next s e)
      obtain ⟨new, hnew, hcounts⟩ := h.adds s e
      rw [h.remembers] at hlength
      rw [List.foldl_cons, hrest, hnew, memos, counted]
      split at hcounts
      · next hreported =>
          use rest ++ [new]
          rw [if_pos hreported]
          constructor
          · simp
          · constructor
            · rw [List.length_append, hlength, List.length_singleton, Nat.add_comm]
            · intro l hl
              obtain hl | hl := List.mem_append.mp hl
              · apply hall l hl
              · obtain rfl := List.mem_singleton.mp hl
                apply hcounts
      · next hreported =>
          subst hcounts
          use rest
          rw [if_neg hreported, Nat.zero_add]
          exact ⟨rfl, hlength, hall⟩

/-- The entries of a key are distinct if and only if it counts at most once. -/
theorem Tallies.nodup_iff (h : Tallies next memo remembered tally k x) {s : State}
    (hs : remembered s k = none) (htally : tally k s = []) (es : List Event) :
  (tally k (es.foldl next s)).Nodup ↔ Retained k (memos next memo s es)
  := by
  obtain ⟨new, hnew, hlength, hall⟩ := h.run s es
  rw [htally, List.append_nil] at hnew
  rw [hs] at hlength
  rw [← counted_le_one_iff, ← hlength, hnew]
  cases new with
  | nil => simp
  | cons l rest =>
      obtain ⟨hl, hrest⟩ := List.forall_mem_cons.mp hall
      cases rest with
      | nil => simpa using hl.1
      | cons l' rest =>
          obtain ⟨hl', -⟩ := List.forall_mem_cons.mp hrest
          constructor
          · intro hnodup
            have hdisjoint := List.disjoint_of_nodup_append hnodup
            apply absurd _ (hdisjoint hl.2)
            simp [hl'.2]
          · intro hle
            simp at hle

end Tally

end Memo

import OpencodeToolbelt.Extension.CdpSession

/-!
# Attaching and detaching

Once all calls of a session have settled, its set has the tabs that the browser has attached, as
long as no call to the browser overtakes another one for its tab.
-/

namespace Extension

namespace CdpSession

/-! ### Calls in order -/

/-- Whether an event finds what the session takes for granted: one call at a time attaches a tab,
`detachAll` comes while none does, a tab is attached after the detaching that was asked for
before, its domains are enabled as long as it is in the set, and it is detached when the browser
is asked to. -/
def Undisturbed (s : CdpSession) : CdpEvent → Prop
  | .attach tabId => ∀ c ∈ s.calls.values, c ≠ .attaching tabId
  | .detachAll => ∀ c ∈ s.calls.values, c.isAttaching = false
  | .settle i ok =>
      match s.calls.get i with
      | some (.attaching tabId) => ∀ c ∈ s.calls.values, c ≠ .detaching tabId
      | some (.enabling tabId _ _) =>
          ok = true ∨ s.attached.has tabId = false ∨
            (s.browser.get tabId).all (fun debuggee => debuggee.attachedBy ≠ i) = true
      | some (.detaching tabId) => ok = true ∨ s.browser.has tabId = false
      | none => True
  | _ => True

instance (s : CdpSession) (e : CdpEvent) :
  Decidable (s.Undisturbed e)
  :=
  match e with
  | .attach tabId => inferInstanceAs (Decidable (∀ c ∈ s.calls.values, c ≠ .attaching tabId))
  | .detach _ => inferInstanceAs (Decidable True)
  | .detachAll => inferInstanceAs (Decidable (∀ c ∈ s.calls.values, c.isAttaching = false))
  | .dismissed _ => inferInstanceAs (Decidable True)
  | .settle i ok => by
      dsimp only [Undisturbed]
      cases s.calls.get i with
      | none => exact inferInstanceAs (Decidable True)
      | some c => cases c <;> exact inferInstance

/-- What holds between the events of a run that is not disturbed. -/
structure Kept (s : CdpSession) : Prop where
  fresh : ∀ i c, s.calls.get i = some c → i < s.callSeq
  inBrowser : ∀ tabId, s.attached.has tabId = true → s.browser.has tabId = true
  leaving : ∀ tabId, s.browser.has tabId = true → s.attached.has tabId = true ∨
    ∃ i, s.calls.get i = some (.detaching tabId)
  detaching : ∀ i tabId, s.calls.get i = some (.detaching tabId) → s.attached.has tabId = false
  attaching : ∀ i tabId, s.calls.get i = some (.attaching tabId) →
    s.attached.has tabId = false ∧ ∀ j, s.calls.get j = some (.attaching tabId) → j = i
  domains : ∀ tabId debuggee, s.attached.has tabId = true →
    s.browser.get tabId = some debuggee → (∀ domain, domain ∈ debuggee.domains) ∨
      ∃ next rest, s.calls.get debuggee.attachedBy = some (.enabling tabId next rest) ∧
        ∀ domain, domain ∈ debuggee.domains ∨ domain = next ∨ domain ∈ rest

theorem kept_initial :
  initial.Kept
  := by
  constructor
  · rintro i c ⟨⟩
  · rintro tabId ⟨⟩
  · rintro tabId ⟨⟩
  · rintro i tabId ⟨⟩
  · rintro i tabId ⟨⟩
  · rintro tabId debuggee ⟨⟩

theorem get_call (s : CdpSession) (c : DebuggerCall) (i : ℕ) :
  (s.call c).calls.get i = if i = s.callSeq then some c else s.calls.get i
  := by
  rw [call, JsMap.get_set]

theorem has_delete_iff {V : Type} (m : JsMap ℕ V) (k k' : ℕ) :
  (m.delete k).has k' = true ↔ k' ≠ k ∧ m.has k' = true
  := by
  rw [JsMap.has, JsMap.get_delete, JsMap.has]
  by_cases heq : k' = k
  · simp [heq]
  · simp [heq]

/-- A tab that is not in a set is in none with fewer. -/
theorem has_delete_of_false {V : Type} {m : JsMap ℕ V} {k' : ℕ} (h : m.has k' = false) (k : ℕ) :
  (m.delete k).has k' = false
  := by
  rw [← Bool.not_eq_true, has_delete_iff, h]
  simp

theorem has_delete_self {V : Type} (m : JsMap ℕ V) (k : ℕ) :
  (m.delete k).has k = false
  := by
  rw [JsMap.has, JsMap.get_delete_self]
  rfl

namespace Kept

variable {s : CdpSession}

/-- The calls before a new one are as they were. -/
theorem get_call_of_some (h : s.Kept) (c : DebuggerCall) {i : ℕ} {c' : DebuggerCall}
    (hget : s.calls.get i = some c') :
  (s.call c).calls.get i = some c'
  := by
  rw [get_call, if_neg (Nat.ne_of_lt (h.fresh i c' hget)), hget]

theorem fresh_call (h : s.Kept) (c : DebuggerCall) {i : ℕ} {c' : DebuggerCall}
    (hget : (s.call c).calls.get i = some c') :
  i < s.callSeq + 1
  := by
  rw [get_call] at hget
  split at hget
  · next heq =>
      rw [heq]
      apply Nat.lt_succ_self
  · apply Nat.lt_succ_of_lt (h.fresh i c' hget)

theorem attach (h : s.Kept) (tabId : ℕ) (hfree : ∀ c ∈ s.calls.values, c ≠ .attaching tabId) :
  (s.attach tabId).Kept
  := by
  rw [CdpSession.attach]
  split
  · apply h
  · next hnot =>
      have hfree' : ∀ i, s.calls.get i ≠ some (.attaching tabId) := by
        intro i hget
        apply hfree _ (JsMap.mem_values.mpr ⟨i, hget⟩) rfl
      constructor
      · apply h.fresh_call
      · apply h.inBrowser
      · intro tabId' hbrowser
        apply (h.leaving tabId' hbrowser).imp_right
        rintro ⟨i, hget⟩
        use i, h.get_call_of_some _ hget
      · intro i tabId' hget
        rw [get_call] at hget
        split at hget
        · cases hget
        · apply h.detaching i tabId' hget
      · intro i tabId' hget
        rw [get_call] at hget
        split at hget
        · next heq =>
            cases hget
            constructor
            · rw [← Bool.not_eq_true]
              apply hnot
            · intro j hj
              rw [get_call] at hj
              split at hj
              · next heq' => rw [heq, heq']
              · apply absurd hj (hfree' j)
        · obtain ⟨hattached, hunique⟩ := h.attaching i tabId' hget
          use hattached
          intro j hj
          rw [get_call] at hj
          split at hj
          · cases hj
            apply absurd hget (hfree' i)
          · apply hunique j hj
      · intro tabId' debuggee hattached hbrowser
        apply (h.domains tabId' debuggee hattached hbrowser).imp_right
        rintro ⟨next, rest, hget, hall⟩
        use next, rest, h.get_call_of_some _ hget

theorem detach (h : s.Kept) (tabId : ℕ) :
  (s.detach tabId).Kept
  := by
  rw [CdpSession.detach]
  split
  · constructor
    · apply h.fresh_call
    · intro tabId' hattached
      apply h.inBrowser tabId' ((has_delete_iff _ _ _).mp hattached).2
    · intro tabId' hbrowser
      by_cases heq : tabId' = tabId
      · right
        use s.callSeq
        rw [heq]
        apply JsMap.get_set_self
      · apply (h.leaving tabId' hbrowser).imp
        · intro hattached
          apply (has_delete_iff _ _ _).mpr ⟨heq, hattached⟩
        · rintro ⟨i, hget⟩
          use i, h.get_call_of_some _ hget
    · intro i tabId' hget
      rw [get_call] at hget
      split at hget
      · cases hget
        apply has_delete_self
      · apply has_delete_of_false (h.detaching i tabId' hget)
    · intro i tabId' hget
      rw [get_call] at hget
      split at hget
      · cases hget
      · obtain ⟨hattached, hunique⟩ := h.attaching i tabId' hget
        use has_delete_of_false hattached tabId
        intro j hj
        rw [get_call] at hj
        split at hj
        · cases hj
        · apply hunique j hj
    · intro tabId' debuggee hattached hbrowser
      apply (h.domains tabId' debuggee ((has_delete_iff _ _ _).mp hattached).2 hbrowser).imp_right
      rintro ⟨next, rest, hget, hall⟩
      use next, rest, h.get_call_of_some _ hget
  · apply h

theorem detachAll (h : s.Kept) :
  s.detachAll.Kept
  := by
  rw [CdpSession.detachAll]
  apply List.foldlRecOn (motive := Kept)
  · apply h
  · intro s h tabId _
    apply h.detach

theorem onDetach (h : s.Kept) (tabId : ℕ) :
  (s.onDetach tabId).Kept
  := by
  constructor
  · apply h.fresh
  · intro tabId' hattached
    obtain ⟨hne, hattached⟩ := (has_delete_iff _ _ _).mp hattached
    apply (has_delete_iff _ _ _).mpr ⟨hne, h.inBrowser tabId' hattached⟩
  · intro tabId' hbrowser
    obtain ⟨hne, hbrowser⟩ := (has_delete_iff _ _ _).mp hbrowser
    apply (h.leaving tabId' hbrowser).imp_left
    intro hattached
    apply (has_delete_iff _ _ _).mpr ⟨hne, hattached⟩
  · intro i tabId' hget
    apply has_delete_of_false (h.detaching i tabId' hget)
  · intro i tabId' hget
    apply (h.attaching i tabId' hget).imp_left
    intro hattached
    apply has_delete_of_false hattached
  · intro tabId' debuggee hattached hbrowser
    apply h.domains tabId' debuggee ((has_delete_iff _ _ _).mp hattached).2
    apply JsMap.get_of_get_delete hbrowser

/-- A call is over that no tab needs any more. -/
theorem ended (h : s.Kept) {i : ℕ} {c : DebuggerCall} (hcall : s.calls.get i = some c)
    (hdetaching : ∀ tabId, c = .detaching tabId → s.browser.has tabId = false)
    (henabling : ∀ tabId next rest debuggee, c = .enabling tabId next rest →
      s.attached.has tabId = true → s.browser.get tabId = some debuggee →
      debuggee.attachedBy = i → ∀ domain, domain ∈ debuggee.domains) :
  (s.ended i).Kept
  := by
  constructor
  · intro j c' hget
    apply h.fresh j c' (JsMap.get_of_get_delete hget)
  · apply h.inBrowser
  · intro tabId hbrowser
    apply (h.leaving tabId hbrowser).imp_right
    rintro ⟨j, hget⟩
    have hne : j ≠ i := by
      rintro rfl
      rw [hcall] at hget
      have hfalse := hdetaching tabId (Option.some.inj hget)
      rw [← Bool.not_eq_true] at hfalse
      apply hfalse hbrowser
    use j
    rw [CdpSession.ended, JsMap.get_delete_of_ne _ hne, hget]
  · intro j tabId hget
    apply h.detaching j tabId (JsMap.get_of_get_delete hget)
  · intro j tabId hget
    apply (h.attaching j tabId (JsMap.get_of_get_delete hget)).imp_right
    intro hunique j' hj'
    apply hunique j' (JsMap.get_of_get_delete hj')
  · intro tabId debuggee hattached hbrowser
    obtain hall | ⟨next, rest, hget, hall⟩ := h.domains tabId debuggee hattached hbrowser
    · exact .inl hall
    · by_cases heq : debuggee.attachedBy = i
      · left
        rw [heq, hcall] at hget
        apply henabling tabId next rest debuggee (Option.some.inj hget) hattached hbrowser heq
      · right
        use next, rest
        rw [CdpSession.ended, JsMap.get_delete_of_ne _ heq, hget]
        exact ⟨rfl, hall⟩

/-- A call goes on with another one to the browser. -/
theorem get_set_iff {i j : ℕ} {c c' : DebuggerCall} (hne : c' ≠ c) :
  (s.calls.set i c).get j = some c' ↔ j ≠ i ∧ s.calls.get j = some c'
  := by
  rw [JsMap.get_set]
  split
  · next heq =>
      constructor
      · intro hget
        apply absurd (Option.some.inj hget).symm hne
      · intro hget
        apply absurd heq hget.1
  · next hne' =>
      constructor
      · intro hget
        exact ⟨hne', hget⟩
      · intro hget
        apply hget.2

theorem fresh_set (h : s.Kept) {i : ℕ} {c : DebuggerCall} (hcall : s.calls.get i = some c)
    (c' : DebuggerCall) {j : ℕ} {c'' : DebuggerCall} (hget : (s.calls.set i c').get j = some c'') :
  j < s.callSeq
  := by
  rw [JsMap.get_set] at hget
  split at hget
  · next heq =>
      rw [heq]
      apply h.fresh i c hcall
  · apply h.fresh j c'' hget

theorem added (h : s.Kept) {i tabId : ℕ} (hcall : s.calls.get i = some (.attaching tabId))
    (horder : ∀ j, s.calls.get j ≠ some (.detaching tabId)) :
  (s.added i tabId).Kept
  := by
  have hset : ∀ tabId', (s.attached.set tabId ()).has tabId' = true ↔
      tabId' = tabId ∨ s.attached.has tabId' = true := by
    intro tabId'
    apply JsMap.has_set_iff
  constructor
  · intro j c hget
    apply h.fresh_set hcall _ hget
  · intro tabId' hattached
    rw [CdpSession.added, JsMap.has_set_iff]
    apply ((hset tabId').mp hattached).imp_right
    apply h.inBrowser
  · intro tabId' hbrowser
    obtain heq | hbrowser := (JsMap.has_set_iff _ _ _ _).mp hbrowser
    · left
      apply (hset tabId').mpr (.inl heq)
    · apply (h.leaving tabId' hbrowser).imp
      · intro hattached
        apply (hset tabId').mpr (.inr hattached)
      · rintro ⟨j, hget⟩
        use j
        apply (get_set_iff (by simp)).mpr
        use fun heq => by simp [heq, hcall] at hget
  · intro j tabId' hget
    obtain ⟨-, hbefore⟩ := (get_set_iff (by simp)).mp hget
    rw [← Bool.not_eq_true, CdpSession.added, hset, h.detaching j tabId' hbefore]
    rintro (rfl | hfalse)
    · apply horder j hbefore
    · cases hfalse
  · intro j tabId' hget
    obtain ⟨hne, hbefore⟩ := (get_set_iff (by simp)).mp hget
    obtain ⟨hattached, hunique⟩ := h.attaching j tabId' hbefore
    constructor
    · rw [← Bool.not_eq_true, CdpSession.added, hset, hattached]
      rintro (rfl | hfalse)
      · apply hne ((h.attaching i tabId' hcall).2 j hbefore)
      · cases hfalse
    · intro j' hj'
      apply hunique j' ((get_set_iff (by simp)).mp hj').2
  · intro tabId' debuggee hattached hbrowser
    rw [CdpSession.added, JsMap.get_set] at hbrowser
    split at hbrowser
    · next heq =>
        cases hbrowser
        right
        use .page, LATER_DOMAINS
        constructor
        · rw [heq]
          apply JsMap.get_set_self
        · intro domain
          cases domain <;> simp [LATER_DOMAINS]
    · next hne =>
        have hattached' := ((hset tabId').mp hattached).resolve_left hne
        apply (h.domains tabId' debuggee hattached' hbrowser).imp_right
        rintro ⟨next, rest, hget, hall⟩
        use next, rest
        constructor
        · rw [CdpSession.added, JsMap.get_set_of_ne, hget]
          intro heq
          rw [heq, hcall] at hget
          cases hget
        · apply hall

/-- The next domain is enabled once one is. -/
theorem goesOn (h : s.Kept) {i tabId : ℕ} {domain domain' : CdpDomain} {rest : List CdpDomain}
    (hcall : s.calls.get i = some (.enabling tabId domain (domain' :: rest)))
    (hdone : ∀ debuggee, s.browser.get tabId = some debuggee → domain ∈ debuggee.domains) :
  Kept { s with calls := s.calls.set i (.enabling tabId domain' rest) }
  := by
  constructor
  · intro j c hget
    apply h.fresh_set hcall _ hget
  · apply h.inBrowser
  · intro tabId' hbrowser
    apply (h.leaving tabId' hbrowser).imp_right
    rintro ⟨j, hget⟩
    use j
    apply (get_set_iff (by simp)).mpr
    use fun heq => by simp [heq, hcall] at hget
  · intro j tabId' hget
    apply h.detaching j tabId' ((get_set_iff (by simp)).mp hget).2
  · intro j tabId' hget
    apply (h.attaching j tabId' ((get_set_iff (by simp)).mp hget).2).imp_right
    intro hunique j' hj'
    apply hunique j' ((get_set_iff (by simp)).mp hj').2
  · intro tabId' debuggee hattached hbrowser
    apply (h.domains tabId' debuggee hattached hbrowser).imp_right
    rintro ⟨next, rest', hget, hall⟩
    by_cases heq : debuggee.attachedBy = i
    · rw [heq, hcall] at hget
      cases hget
      use domain', rest
      constructor
      · rw [heq]
        apply JsMap.get_set_self
      · intro d
        obtain hmem | rfl | hmem := hall d
        · exact .inl hmem
        · exact .inl (hdone debuggee hbrowser)
        · exact .inr (List.mem_cons.mp hmem)
    · use next, rest'
      constructor
      · rw [JsMap.get_set_of_ne _ heq, hget]
      · apply hall

theorem enabled (h : s.Kept) {i tabId : ℕ} {domain : CdpDomain} {rest : List CdpDomain}
    (hcall : s.calls.get i = some (.enabling tabId domain rest)) {debuggee : Debuggee}
    (hbrowser : s.browser.get tabId = some debuggee) :
  (s.enabled i tabId debuggee domain rest).Kept
  := by
  -- The domain is enabled, and the call still stands for it.
  have hhas : ∀ tabId', (s.browser.set tabId
      { debuggee with domains := domain :: debuggee.domains }).has tabId' = true ↔
      s.browser.has tabId' = true := by
    intro tabId'
    rw [JsMap.has_set_iff, or_iff_right_iff_imp]
    rintro rfl
    apply JsMap.has_of_get hbrowser
  have hset : Kept { s with
      browser := s.browser.set tabId { debuggee with domains := domain :: debuggee.domains } } := by
    constructor
    · apply h.fresh
    · intro tabId' hattached
      apply (hhas tabId').mpr (h.inBrowser tabId' hattached)
    · intro tabId' hbrowser'
      apply h.leaving tabId' ((hhas tabId').mp hbrowser')
    · apply h.detaching
    · apply h.attaching
    · intro tabId' debuggee' hattached hbrowser'
      rw [JsMap.get_set] at hbrowser'
      split at hbrowser'
      · next heq =>
          cases hbrowser'
          rw [heq] at hattached ⊢
          apply (h.domains tabId debuggee hattached hbrowser).imp
          · intro hall domain'
            apply List.mem_cons_of_mem _ (hall domain')
          · rintro ⟨next, rest', hget, hall⟩
            use next, rest', hget
            intro domain'
            apply (hall domain').imp_left
            apply List.mem_cons_of_mem
      · apply h.domains tabId' debuggee' hattached hbrowser'
  cases rest with
  | nil =>
      apply hset.ended hcall
      · rintro tabId' ⟨⟩
      · rintro tabId' next rest debuggee' ⟨⟩ hattached hbrowser' hby domain'
        cases (JsMap.get_set_self _ _ _).symm.trans hbrowser'
        obtain hall | ⟨next, rest', hget, hall⟩ := h.domains tabId debuggee hattached hbrowser
        · apply List.mem_cons_of_mem _ (hall domain')
        · rw [show debuggee.attachedBy = i from hby, hcall] at hget
          cases hget
          obtain hmem | rfl | hmem := hall domain'
          · apply List.mem_cons_of_mem _ hmem
          · apply List.mem_cons_self
          · cases hmem
  | cons domain' rest =>
      apply hset.goesOn hcall
      intro debuggee' hbrowser'
      cases (JsMap.get_set_self _ _ _).symm.trans hbrowser'
      apply List.mem_cons_self

/-- The browser detaches a tab that is out of the set. -/
theorem gone (h : s.Kept) {tabId : ℕ} (hleft : s.attached.has tabId = false) :
  Kept { s with browser := s.browser.delete tabId }
  := by
  constructor
  · apply h.fresh
  · intro tabId' hattached
    apply (has_delete_iff _ _ _).mpr ⟨_, h.inBrowser tabId' hattached⟩
    rintro rfl
    rw [hleft] at hattached
    cases hattached
  · intro tabId' hbrowser
    apply h.leaving tabId' ((has_delete_iff _ _ _).mp hbrowser).2
  · apply h.detaching
  · apply h.attaching
  · intro tabId' debuggee hattached hbrowser
    apply h.domains tabId' debuggee hattached (JsMap.get_of_get_delete hbrowser)

theorem settle (h : s.Kept) {i : ℕ} {ok : Bool} (hundisturbed : s.Undisturbed (.settle i ok)) :
  (s.settle i ok).Kept
  := by
  rw [CdpSession.settle]
  rw [Undisturbed] at hundisturbed
  cases hcall : s.calls.get i with
  | none => apply h
  | some c =>
      rw [hcall] at hundisturbed
      cases c with
      | attaching tabId =>
          dsimp only at hundisturbed ⊢
          split
          · apply h.added hcall
            intro j hget
            apply hundisturbed _ (JsMap.mem_values.mpr ⟨j, hget⟩) rfl
          · apply h.ended hcall
            · rintro tabId' ⟨⟩
            · rintro tabId' next rest debuggee ⟨⟩
      | enabling tabId domain rest =>
          dsimp only at hundisturbed ⊢
          split
          · next debuggee hbrowser => apply h.enabled hcall hbrowser
          · next hfails =>
              apply h.ended hcall
              · rintro tabId' ⟨⟩
              · rintro tabId' next rest' debuggee ⟨⟩ hattached hbrowser hby
                obtain rfl | hfalse | hother := hundisturbed
                · apply absurd hbrowser (hfails debuggee rfl)
                · rw [hfalse] at hattached
                  cases hattached
                · rw [hbrowser, Option.all_some, decide_eq_true_eq] at hother
                  apply absurd hby hother
      | detaching tabId =>
          dsimp only at hundisturbed ⊢
          have hleft := h.detaching i tabId hcall
          split
          · apply (h.gone hleft).ended hcall
            · rintro tabId' ⟨⟩
              apply has_delete_self
            · rintro tabId' next rest debuggee ⟨⟩
          · next hfails =>
              apply h.ended hcall
              · rintro tabId' ⟨⟩
                apply hundisturbed.resolve_left hfails
              · rintro tabId' next rest debuggee ⟨⟩

theorem handle (h : s.Kept) {e : CdpEvent} (hundisturbed : s.Undisturbed e) :
  (s.handle e).Kept
  := by
  cases e with
  | attach tabId => apply h.attach tabId hundisturbed
  | detach tabId => apply h.detach
  | detachAll => apply h.detachAll
  | dismissed tabId => apply h.onDetach
  | settle i ok => apply h.settle hundisturbed

/-- No tab is attached that the browser is asked to attach. -/
theorem not_clashes (h : s.Kept) {e : CdpEvent} (hundisturbed : s.Undisturbed e)
    (before : History) :
  ¬ Clashes before s e
  := by
  rintro ⟨i, ok, tabId, rfl, hcall, hbrowser, -⟩
  rw [Undisturbed, hcall] at hundisturbed
  obtain hattached | ⟨j, hget⟩ := h.leaving tabId hbrowser
  · rw [(h.attaching i tabId hcall).1] at hattached
    cases hattached
  · apply hundisturbed _ (JsMap.mem_values.mpr ⟨j, hget⟩) rfl

end Kept

/-! ### Detaching all tabs -/

/-- No tab is in the set, and no call is about to add one. -/
structure Cleared (s : CdpSession) : Prop where
  attached : ∀ tabId, s.attached.has tabId = false
  calls : ∀ i tabId, s.calls.get i ≠ some (.attaching tabId)

theorem attaching_of_detach {s : CdpSession} {tabId i tabId' : ℕ}
    (h : (s.detach tabId).calls.get i = some (.attaching tabId')) :
  s.calls.get i = some (.attaching tabId')
  := by
  rw [detach] at h
  split at h
  · rw [get_call] at h
    split at h
    · cases h
    · apply h
  · apply h

theorem attached_of_detach {s : CdpSession} {tabId tabId' : ℕ}
    (h : (s.detach tabId).attached.has tabId' = true) :
  s.attached.has tabId' = true ∧ tabId' ≠ tabId
  := by
  rw [detach] at h
  split at h
  · apply ((has_delete_iff _ _ _).mp h).symm
  · next hnot =>
      use h
      rintro rfl
      apply hnot h

/-- No tab of a list is left in the set. -/
theorem attached_of_foldl {s : CdpSession} {tabIds : List ℕ} {tabId : ℕ}
    (h : (tabIds.foldl detach s).attached.has tabId = true) :
  s.attached.has tabId = true ∧ tabId ∉ tabIds
  := by
  induction tabIds generalizing s with
  | nil => simpa using h
  | cons first tabIds ih =>
      obtain ⟨hfirst, hnot⟩ := ih h
      obtain ⟨hattached, hne⟩ := attached_of_detach hfirst
      use hattached
      simp [hne, hnot]

theorem cleared_detachAll {s : CdpSession} (h : s.Undisturbed .detachAll) :
  s.detachAll.Cleared
  := by
  constructor
  · intro tabId
    rw [← Bool.not_eq_true]
    intro hattached
    obtain ⟨hbefore, hnot⟩ := attached_of_foldl hattached
    apply hnot (JsMap.has_eq_true.mp hbefore)
  · rw [detachAll]
    apply List.foldlRecOn (motive := fun s : CdpSession => ∀ i tabId,
      s.calls.get i ≠ some (.attaching tabId))
    · intro i tabId hget
      have hfree := h _ (JsMap.mem_values.mpr ⟨i, hget⟩)
      cases hfree
    · intro s ih tabId _ i tabId' hget
      apply ih i tabId' (attaching_of_detach hget)

namespace Cleared

variable {s : CdpSession}

theorem detach (h : s.Cleared) (tabId : ℕ) :
  (s.detach tabId).Cleared
  := by
  constructor
  · intro tabId'
    rw [← Bool.not_eq_true]
    intro hattached
    apply absurd (attached_of_detach hattached).1
    rw [h.attached tabId', Bool.not_eq_true]
  · intro i tabId' hget
    apply h.calls i tabId' (attaching_of_detach hget)

theorem settle (h : s.Cleared) (i : ℕ) (ok : Bool) :
  (s.settle i ok).Cleared
  := by
  have hended : ∀ t : CdpSession, t.attached = s.attached → t.calls = s.calls →
      (t.ended i).Cleared := by
    intro t hattached hcalls
    constructor
    · intro tabId
      rw [ended, hattached, h.attached]
    · intro j tabId hget
      rw [ended, hcalls] at hget
      apply h.calls j tabId (JsMap.get_of_get_delete hget)
  rw [CdpSession.settle]
  cases hcall : s.calls.get i with
  | none => apply h
  | some c =>
      cases c with
      | attaching tabId => apply absurd hcall (h.calls i tabId)
      | enabling tabId domain rest =>
          dsimp only
          split
          · next debuggee _ =>
              cases rest with
              | nil =>
                  let debuggee' := { debuggee with domains := domain :: debuggee.domains }
                  apply hended { s with browser := s.browser.set tabId debuggee' } rfl rfl
              | cons domain' rest =>
                  use h.attached
                  intro j tabId' hget
                  apply h.calls j tabId' ((Kept.get_set_iff (by simp)).mp hget).2
          · apply hended s rfl rfl
      | detaching tabId =>
          dsimp only
          split
          · apply hended { s with browser := s.browser.delete tabId } rfl rfl
          · apply hended s rfl rfl

theorem handle (h : s.Cleared) {e : CdpEvent} (hother : ∀ tabId, e ≠ .attach tabId) :
  (s.handle e).Cleared
  := by
  cases e with
  | attach tabId => apply absurd rfl (hother tabId)
  | detach tabId => apply h.detach
  | detachAll =>
      apply List.foldlRecOn (motive := Cleared)
      · apply h
      · intro s h tabId _
        apply h.detach
  | dismissed tabId =>
      use fun tabId' => has_delete_of_false (h.attached tabId') tabId
      apply h.calls
  | settle i ok => apply h.settle

end Cleared

/-! ### Runs -/

theorem kept_of_run {before : History} {s : CdpSession}
    (h : (system.restrict Undisturbed).Run initial before s) :
  s.Kept ∧ ∀ step ∈ before, step.1.Kept ∧ step.1.Undisturbed step.2
  := by
  have hstep : ∀ s e, Kept s → (system.restrict Undisturbed).enabled s e →
      Kept ((system.restrict Undisturbed).next s e) :=
    fun s e hkept henabled => hkept.handle henabled.2
  use h.preserves hstep kept_initial
  intro step hmem
  apply (h.preserves_steps hstep kept_initial step hmem).imp_right
  intro henabled
  apply henabled.2

/-- A run that is not disturbed leaves the session as the browser has it. -/
theorem agrees_of_undisturbed {before : History} {s : CdpSession}
    (h : (system.restrict Undisturbed).Run initial before s) :
  Agrees before s
  := by
  obtain ⟨hkept, hsteps⟩ := kept_of_run h
  constructor
  · intro hrest tabId
    rw [Bool.eq_iff_iff]
    constructor
    · apply hkept.inBrowser
    · intro hbrowser
      apply (hkept.leaving tabId hbrowser).resolve_right
      rintro ⟨i, hget⟩
      rw [hrest i] at hget
      cases hget
  · intro hrest tabId debuggee hattached hbrowser
    apply (hkept.domains tabId debuggee hattached hbrowser).resolve_right
    rintro ⟨next, rest, hget, -⟩
    rw [hrest] at hget
    cases hget
  · rintro earlier t e later rfl
    obtain ⟨ht, hundisturbed⟩ := hsteps (t, e) (List.mem_append_right _ List.mem_cons_self)
    apply ht.not_clashes hundisturbed
  · rintro hrest earlier t later rfl hlater tabId
    obtain ⟨-, hdetachAll, hrun⟩ := h.split
    have hstep : ∀ s e, Cleared s → (system.restrict Undisturbed).enabled s e →
        (¬ ∃ tabId, e = .attach tabId) → Cleared ((system.restrict Undisturbed).next s e) :=
      fun s e hcleared _ hother => hcleared.handle (not_exists.mp hother)
    obtain hcleared | ⟨step, hmem, tabId', hattach⟩ :=
      hrun.preserves_until hstep (cleared_detachAll hdetachAll.2)
    · rw [← Bool.not_eq_true]
      intro hbrowser
      obtain hattached | ⟨i, hget⟩ := hkept.leaving tabId hbrowser
      · rw [hcleared.attached] at hattached
        cases hattached
      · rw [hrest i] at hget
        cases hget
    · apply absurd hattach (hlater step hmem tabId')

/-- A tab is attached by one call while another finds it attached, and all are detached. -/
theorem agrees_after_release :
  ∃ before s, (system.restrict Undisturbed).Run initial before s ∧ s.AtRest ∧ s.callSeq = 2 ∧
    Agrees before s
  := by
  obtain ⟨before, s, hrun, hs⟩ := (system.restrict Undisturbed).exists_run_of_play
    [.attach 7, .settle 0 true, .settle 0 true, .attach 7, .settle 0 true, .settle 0 true,
      .settle 0 true, .settle 0 true, .detachAll, .settle 1 true] initial
    (fun s => s.calls.entries.isEmpty && s.callSeq == 2) (by decide)
  rw [Bool.and_eq_true, List.isEmpty_iff, beq_iff_eq] at hs
  have hrest : s.AtRest := by
    intro i
    rw [JsMap.get, hs.1]
    rfl
  use before, s, hrun, hrest, hs.2
  apply agrees_of_undisturbed hrun

/-- Two calls for one tab both ask the browser to attach it, and it refuses the second. -/
theorem clashes_when_concurrent :
  ¬ ∀ before s, system.Run initial before s → Agrees before s
  := by
  intro h
  let es : List CdpEvent := [.attach 7, .attach 7, .settle 0 true, .settle 1 true]
  have hplay : (system.play es initial).isSome = true := by decide
  obtain ⟨s, hs⟩ := Option.isSome_iff_exists.mp hplay
  apply (h _ s (system.run_of_play hs)).clashes (system.steps (es.take 3) initial)
    (system.next (system.next (system.next initial (.attach 7)) (.attach 7)) (.settle 0 true))
    (.settle 1 true) [] rfl
  use 1, true, 7, rfl, by decide, by decide
  use (system.next (system.next initial (.attach 7)) (.attach 7), .settle 0 true)
  constructor
  · apply List.mem_append_left
    apply List.mem_cons_of_mem
    apply List.mem_cons_of_mem
    apply List.mem_cons_self
  · constructor
    · left
      decide
    · use 0, by decide
      left
      decide

end CdpSession

end Extension

import OpencodeToolbelt.Async.RelyGuarantee
import OpencodeToolbelt.AuthCore.Host
import OpencodeToolbelt.AuthCore.OAuthClient

/-!
# Watching one call

A history is kept of what one thread does, while all the others run whatever they like. What
is known at a point of the watched call is a predicate of its history and of the clock which
the passing of time preserves.
-/

/-- The host with a history of the thread `i`. -/
@[reducible]
def watch {H : Type} (i : ℕ) (u : H → World → (o : Op) → Ans o → H) :
    Machine Op Ans (World × H) ℕ :=
  host.instrument fun h j w o a => if j = i then u h w o a else h

/-- The watched thread relies on its own history, and on the clock. -/
def watchDiscipline {H : Type} (i : ℕ) (J : H → Prop) : Discipline (World × H) where
  Inv w := J w.2
  Rely j w w' := w.1.now ≤ w'.1.now ∧ (j = i → w.2 = w'.2)
  refl _ _ := ⟨Nat.le_refl _, fun _ => rfl⟩
  trans h h' := ⟨Nat.le_trans h.1 h'.1, fun hj => (h.2 hj).trans (h'.2 hj)⟩

/-- A predicate of a time and a history which holds on as time passes. -/
def Lasting {H : Type} (φ : ℕ → H → Prop) : Prop := ∀ t t' h, t ≤ t' → φ t h → φ t' h

/-- A predicate of the time and the history, as one of worlds. -/
def Known {H : Type} (φ : ℕ → H → Prop) (w : World × H) : Prop := φ w.1.now w.2

/-- How the watched call may settle. -/
def Outcome {H α : Type} (ψ : Except AuthError α → ℕ → H → Prop)
    (r : Except AuthError α) (w : World × H) : Prop :=
  ψ r w.1.now w.2

theorem host_now_le (i : ℕ) (w : World) (o : Op) (a : Ans o) :
  w.now ≤ (host.post i w o a).now
  := by
  apply Nat.le_of_eq
  cases o with
  | save loc entry => cases a <;> rfl
  | remove loc => cases a <;> rfl
  | openLock path => cases a <;> rfl
  | writeLock path inode acquiredAt =>
      cases a with
      | true =>
          simp only [host, hostPost, World.writeLock]
          split
          · rfl
          · split <;> rfl
      | false => rfl
  | unlinkLock path reason => cases a <;> rfl
  | claimFlight slot => cases a <;> rfl
  | clearSlot slot flight =>
      simp only [host, hostPost]
      split <;> rfl
  | claimMigration runtime => cases a <;> rfl
  | _ => rfl

section Watch

variable {H : Type} {i : ℕ} {u : H → World → (o : Op) → Ans o → H} {J : H → Prop} {α : Type}

theorem Lasting.stable {φ : ℕ → H → Prop} (h : Lasting φ) :
  (watchDiscipline i J).Stable i (Known φ)
  := by
  rintro w w' - - ⟨hnow, hhist⟩ hφ
  simp only [Known, ← hhist rfl]
  apply h _ _ _ hnow hφ

/-- Whatever another thread does is no concern of the watched one. -/
theorem triple_unwatched {j : ℕ} (hj : j ≠ i) (p : Auth α) :
  (watchDiscipline i J).Triple (watch i u) j (fun _ => True) p (fun _ _ => True)
  := by
  induction p with
  | done a => exact fun _ _ _ => trivial
  | fail e => exact fun _ _ _ => trivial
  | call o k ih =>
      apply Discipline.Triple.call (Discipline.Stable.const True) (R := fun _ _ => True)
      · intro w a hw _ _
        constructor
        · constructor
          · simpa [watchDiscipline, Machine.instrument, hj] using hw
          · intro j' hj'
            constructor
            · apply host_now_le
            · intro _
              simp [Machine.instrument, hj]
        · trivial
      · exact ih

/-- An operation of the watched call. -/
theorem triple_watched {φ : ℕ → H → Prop} {o : Op} {f : Ans o → Auth α}
    {ρ : Ans o → ℕ → H → Prop} {Q : Except AuthError α → World × H → Prop} (hφ : Lasting φ)
    (hstep : ∀ w h a, J h → φ w.now h → hostAllows w o a →
      J (u h w o a) ∧ ρ a (host.post i w o a).now (u h w o a))
    (hf : ∀ a, (watchDiscipline i J).Triple (watch i u) i (Known (ρ a)) (f a) Q) :
  (watchDiscipline i J).Triple (watch i u) i (Known φ) ((Auth.perform o).bind f) Q
  := by
  apply Discipline.Triple.perform_bind hφ.stable _ hf
  intro w a hw hφw ha
  obtain ⟨hJ, hρ⟩ := hstep w.1 w.2 a hw hφw ha
  constructor
  · constructor
    · simpa [watchDiscipline, Machine.instrument] using hJ
    · intro j hj
      constructor
      · apply host_now_le
      · intro heq
        exact (hj heq).elim
  · simpa [Known, Machine.instrument] using hρ

/-- The operations in `C` of the watched call preserve what is known. -/
def Preserves (u : H → World → (o : Op) → Ans o → H) (J : H → Prop) (φ : ℕ → H → Prop)
    (C : Op → Prop) : Prop :=
  ∀ o, C o → ∀ t h w a, J h → φ t h → J (u h w o a) ∧ φ t (u h w o a)

/-- Operations that leave the history alone. -/
theorem preserves_of_neutral {C : Op → Prop} {φ : ℕ → H → Prop}
    (hC : ∀ o, C o → ∀ h w a, u h w o a = h) :
  Preserves u J φ C
  := by
  intro o ho t h w a hJ hφ
  rw [hC o ho]
  exact ⟨hJ, hφ⟩

/-- A part of the watched call whose operations preserve what is known. -/
theorem triple_within {C : Op → Prop} {R : Except AuthError α → Prop} {p : Auth α}
    {φ : ℕ → H → Prop} (hφ : Lasting φ) (hp : p.Within C R) (hC : Preserves u J φ C) :
  (watchDiscipline i J).Triple (watch i u) i (Known φ) p
    (Outcome fun r t h => R r ∧ φ t h)
  := by
  induction p with
  | done a => exact fun _ _ h => ⟨hp, h⟩
  | fail e => exact fun _ _ h => ⟨hp, h⟩
  | call o k ih =>
      apply triple_watched (ρ := fun _ => φ) hφ
      · intro w h a hJ hφw _
        obtain ⟨hJ', hφ'⟩ := hC o hp.1 w.now h w a hJ hφw
        exact ⟨hJ', hφ _ _ _ (host_now_le i w o a) hφ'⟩
      · exact fun a => ih a (hp.2 a)

/-- A part of the watched call that preserves what is known, and what follows it. -/
theorem triple_within_bind {β : Type} {C : Op → Prop} {R : Except AuthError α → Prop}
    {p : Auth α} {f : α → Auth β} {φ : ℕ → H → Prop}
    {Q : Except AuthError β → World × H → Prop} (hφ : Lasting φ) (hp : p.Within C R)
    (hC : Preserves u J φ C)
    (hf : ∀ a, R (.ok a) → (watchDiscipline i J).Triple (watch i u) i (Known φ) (f a) Q)
    (he : ∀ e w, R (.error e) → J w.2 → Known φ w → Q (.error e) w) :
  (watchDiscipline i J).Triple (watch i u) i (Known φ) (p.bind f) Q
  := by
  apply Discipline.Triple.bind (triple_within hφ hp hC)
  · rintro a w hw ⟨hR, hφw⟩
    apply hf a hR w hw hφw
  · rintro e w hw ⟨hR, hφw⟩
    apply he e w hR hw hφw

/-- What holds from a time on holds after any part of the watched call. -/
theorem triple_since {φ : ℕ → H → Prop} {ψ : Except AuthError α → ℕ → H → Prop} {p : Auth α}
    {since : ℕ → Prop} (hsince : ∀ t t', t ≤ t' → since t → since t')
    (hp : (watchDiscipline i J).Triple (watch i u) i (Known φ) p (Outcome ψ)) :
  (watchDiscipline i J).Triple (watch i u) i (Known fun t h => φ t h ∧ since t) p
    (Outcome fun r t h => ψ r t h ∧ since t)
  := by
  apply hp.frame (F := fun w => since w.1.now)
  · exact fun w w' _ _ hr hs => hsince _ _ hr.1 hs
  · exact fun w o a _ hs _ => hsince _ _ (host_now_le i w.1 o a) hs

/-- The watched call reads the clock to tell whether a token is valid. What was known when it
did so is known of a valid token. -/
theorem triple_validToken {client : OAuthClient} {token : Option TokenSet}
    {f : Option TokenSet → Auth α} {φ : ℕ → H → Prop}
    {Q : Except AuthError α → World × H → Prop} (hφ : Lasting φ)
    (hu : ∀ h w a, u h w .now a = h)
    (hsome : ∀ t, token = some t →
      (watchDiscipline i J).Triple (watch i u) i
        (Known fun now h => φ now h ∧ ∃ now', φ now' h ∧ client.isTokenValid now' t = true)
        (f (some t)) Q)
    (hnone : (watchDiscipline i J).Triple (watch i u) i
      (Known fun now h => φ now h ∧ ∀ t, token = some t → client.isTokenValid now t = false)
      (f none) Q) :
  (watchDiscipline i J).Triple (watch i u) i (Known φ) ((client.validToken token).bind f) Q
  := by
  apply triple_watched (o := Op.now)
    (ρ := fun (now : ℕ) t h => now ≤ t ∧ φ t h ∧ φ now h) hφ
  · rintro w h now hJ hφw rfl
    rw [hu]
    exact ⟨hJ, Nat.le_refl _, hφw, hφw⟩
  · intro now
    cases hvalid : token.filter (client.isTokenValid now) with
    | some t =>
        obtain ⟨htoken, hv⟩ := Option.filter_eq_some_iff.mp hvalid
        apply (hsome t htoken).weaken
        rintro w - ⟨-, hφw, hφnow⟩
        exact ⟨hφw, now, hφnow, hv⟩
    | none =>
        apply hnone.weaken
        rintro w - ⟨hle, hφw, -⟩
        use hφw
        rintro t rfl
        by_contra hne
        have hearlier := OAuthClient.isTokenValid_of_le hle (Bool.of_not_eq_false hne)
        simp [Option.filter, hearlier] at hvalid

/-- The invariant of the history of a watched call, and how the call settles. -/
theorem watched_of_run {φ : ℕ → H → Prop} {ψ : Except AuthError α → ℕ → H → Prop}
    (hψ : ∀ r, Lasting (ψ r)) {c c' : Config Op Ans AuthError α (World × H)}
    (hcall : (watchDiscipline i J).Triple (watch i u) i (Known φ) (c.pool i) (Outcome ψ))
    (hJ : J c.world.2) (hφ : φ c.world.1.now c.world.2) (hrun : (watch i u).Run c c') :
  J c'.world.2 ∧ ∀ r, c'.pool i = .settle r → ψ r c'.world.1.now c'.world.2
  := by
  have hpool : ∀ j, (watchDiscipline i J).Triple (watch i u) j
      (fun w => j = i → Known φ w) (c.pool j) (fun r w => j = i → Outcome ψ r w) := by
    intro j
    by_cases hj : j = i
    · subst hj
      simpa using hcall
    · apply ((triple_unwatched hj (c.pool j)).weaken fun _ _ _ => trivial).strengthen
      intro _ _ _ _ heq
      exact (hj heq).elim
  have hstable : ∀ j r, (watchDiscipline i J).Stable j (fun w => j = i → Outcome ψ r w) := by
    intro j r w w' hw hw' hr hQ heq
    subst heq
    apply (hψ r).stable w w' hw hw' hr (hQ rfl)
  have henv : ∀ w ms, (watchDiscipline i J).Inv w → (watch i u).envAllows w ms →
      (watchDiscipline i J).Inv ((watch i u).envPost w ms) ∧
        ∀ j, (watchDiscipline i J).Rely j w ((watch i u).envPost w ms) :=
    fun w ms hw _ => ⟨hw, fun _ => ⟨Nat.le_add_right _ _, fun _ => rfl⟩⟩
  obtain ⟨hinv, hsettled⟩ := Discipline.settled_of_run hpool hstable henv hJ
    (fun j _ => hφ) hrun
  exact ⟨hinv, fun r hr => hsettled i r hr rfl⟩

end Watch

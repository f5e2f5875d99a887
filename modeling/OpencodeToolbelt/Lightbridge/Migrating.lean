import OpencodeToolbelt.Async.RelyGuarantee
import OpencodeToolbelt.TokenStores

/-!
# The migration among other writers

The migration looks for a shared state, reads the legacy file and the clock, and writes. What
another process writes between the look and the write is replaced.
-/

namespace LightbridgeRuntime

variable (l : LightbridgeRuntime)

def sharedLoc : Loc := ⟨l.sharedDirectory, l.serverId⟩

def legacyLoc : Loc := ⟨l.cacheRoot ++ "/" ++ OLD_ROOT_CACHE_NAMESPACE, OLD_ROOT_KEY⟩

/-- The state that a content of the shared file is read as. -/
def stateOf (entry : Option Entry) : Option CachedServerState :=
  entry.bind (Entry.toServerState l.serverId)

/-- The token that is adopted from a content of the legacy file. -/
def usableToken (entry : Option Entry) : Option TokenSet :=
  (entry.map Entry.toTokenSet).filter hasUsableTokenShape

def sharedState (w : World) : Option CachedServerState := l.stateOf (w.entries.get l.sharedLoc)

def legacyToken (w : World) : Option TokenSet := usableToken (w.entries.get l.legacyLoc)

theorem legacyLoc_ne_sharedLoc :
  l.legacyLoc ≠ l.sharedLoc
  := by
  intro h
  have hdir : l.cacheRoot ++ "/" ++ OLD_ROOT_CACHE_NAMESPACE = l.sharedDirectory :=
    congrArg Loc.dir h
  rw [sharedDirectory] at hdir
  simp only [String.append_assoc, String.append_right_inj] at hdir
  revert hdir
  decide +kernel

/-! ### The history of a migration -/

/-- What has happened so far to the files of a migration. -/
structure MigrationHistory where
  /-- How many files the migration has written. -/
  writes : ℕ
  /-- Another process has written the shared file since the migration looked at it. -/
  since : Bool
  /-- The migration has written over a shared state. -/
  replaced : Bool
  /-- The migration has written after another process had, since its look. -/
  overtaken : Bool

def MigrationHistory.empty : MigrationHistory := ⟨0, false, false, false⟩

/-- The history of the migration in the thread `i` after an operation. -/
def afterMigration (i : ℕ) (h : MigrationHistory) (j : ℕ) (w : World) :
    (o : Op) → Ans o → MigrationHistory
  | .load loc, _ => if j = i ∧ loc = l.sharedLoc then { h with since := false } else h
  | .save loc _, true =>
      if j = i then
        { h with
          writes := h.writes + 1
          replaced := h.replaced || (loc = l.sharedLoc && (l.sharedState w).isSome)
          overtaken := h.overtaken || h.since }
      else if loc = l.sharedLoc then { h with since := true }
      else h
  | _, _ => h

/-- The other processes write states of the server to the shared file, and leave the legacy file
alone. -/
def OthersWrite (i j : ℕ) : Op → Prop
  | .save loc entry =>
      j ≠ i → loc ≠ l.legacyLoc ∧ (loc = l.sharedLoc → (l.stateOf (some entry)).isSome)
  | .remove loc => j ≠ i → loc ≠ l.legacyLoc ∧ loc ≠ l.sharedLoc
  | _ => True

/-- The migration sees the state and the token that are there. -/
def SeesFiles (i j : ℕ) (w : World) : (o : Op) → Ans o → Prop
  | .load loc, entry =>
      j = i → (loc = l.sharedLoc → l.stateOf entry = l.sharedState w) ∧
        (loc = l.legacyLoc → usableToken entry = l.legacyToken w)
  | _, _ => True

/-- The machine on which the thread `i` migrates. -/
def migrating (i : ℕ) : Machine Op Ans (World × MigrationHistory) ℕ :=
  (host.restrict (fun j w o a => l.OthersWrite i j o ∧ l.SeesFiles i j w o a)
    fun _ _ => True).instrument (l.afterMigration i)

/-- No state was replaced, the legacy file is as it was, and to run the migration again writes
nothing. -/
structure MigratesSafely (i : ℕ) (c c' : Config Op Ans AuthError Unit (World × MigrationHistory)) :
    Prop where
  kept : c'.world.2.replaced = false
  legacy : c'.world.1.entries.get l.legacyLoc = c.world.1.entries.get l.legacyLoc
  again : c'.pool i = .done () → ∀ c'',
    (l.migrating i).Run ⟨c'.world, Function.update c'.pool i l.migrateRootTokenIfNeeded⟩ c'' →
      c''.world.2.writes = c'.world.2.writes

/-! ### The steps of the others -/

variable {l} {i : ℕ}

/-- What the steps of the other threads preserve. -/
structure LeavesMigration (l : LightbridgeRuntime) (w w' : World × MigrationHistory) : Prop where
  legacy : w'.1.entries.get l.legacyLoc = w.1.entries.get l.legacyLoc
  present : (l.sharedState w.1).isSome = true → (l.sharedState w'.1).isSome = true
  since : (l.sharedState w.1).isSome = w.2.since → (l.sharedState w'.1).isSome = w'.2.since
  writes : w'.2.writes = w.2.writes
  replaced : w'.2.replaced = w.2.replaced
  overtaken : w'.2.overtaken = w.2.overtaken

/-- Both files, and the history, are as they were. -/
theorem LeavesMigration.of_same {w w' : World × MigrationHistory}
    (hlegacy : w'.1.entries.get l.legacyLoc = w.1.entries.get l.legacyLoc)
    (hshared : w'.1.entries.get l.sharedLoc = w.1.entries.get l.sharedLoc) (hhistory : w'.2 = w.2) :
  LeavesMigration l w w'
  := by
  constructor <;> simp [sharedState, hlegacy, hshared, hhistory]

/-- Another process has written a state. -/
theorem LeavesMigration.of_written {w w' : World × MigrationHistory} {entry : Entry}
    (hstate : (l.stateOf (some entry)).isSome = true)
    (hlegacy : w'.1.entries.get l.legacyLoc = w.1.entries.get l.legacyLoc)
    (hshared : w'.1.entries.get l.sharedLoc = some entry)
    (hhistory : w'.2 = { w.2 with since := true }) :
  LeavesMigration l w w'
  := by
  constructor <;> simp [sharedState, hlegacy, hshared, hhistory, hstate]

/-- The operations other than a write or a removal leave the files alone. -/
theorem entries_hostPost {o : Op} (hsave : ∀ loc entry, o ≠ .save loc entry)
    (hremove : ∀ loc, o ≠ .remove loc) (j : ℕ) (w : World) (a : Ans o) :
  (hostPost j w o a).entries = w.entries
  := by
  cases o with
  | save loc entry => apply absurd rfl (hsave loc entry)
  | remove loc => apply absurd rfl (hremove loc)
  | openLock path => cases a <;> rfl
  | writeLock path inode acquiredAt =>
      cases a with
      | true =>
          simp only [hostPost, World.writeLock]
          split
          · rfl
          · split <;> rfl
      | false => rfl
  | unlinkLock path reason => cases a <;> rfl
  | claimFlight slot => cases a <;> rfl
  | clearSlot slot flight =>
      simp only [hostPost]
      split <;> rfl
  | claimMigration runtime => cases a <;> rfl
  | _ => rfl

/-- Only the looks and the writes of the migration, and the writes of others to the shared file,
count in its history. -/
theorem afterMigration_other {j : ℕ} (hj : j ≠ i) {o : Op}
    (hsave : ∀ entry, o ≠ .save l.sharedLoc entry) (h : MigrationHistory) (w : World) (a : Ans o) :
  l.afterMigration i h j w o a = h
  := by
  cases o with
  | save loc entry =>
      have hloc : loc ≠ l.sharedLoc := by
        rintro rfl
        apply hsave entry rfl
      cases a <;> simp [afterMigration, hj, hloc]
  | load loc => simp [afterMigration, hj]
  | _ => rfl

theorem leavesMigration_of_other {j : ℕ} (hj : j ≠ i) {w : World × MigrationHistory} {o : Op}
    {a : Ans o} (ha : (l.migrating i).allows j w o a) :
  LeavesMigration l w ((l.migrating i).post j w o a)
  := by
  obtain ⟨-, hwrite, -⟩ := ha
  cases o with
  | save loc entry =>
      obtain ⟨hlegacy, hstate⟩ := hwrite hj
      cases a with
      | false => apply LeavesMigration.of_same <;> rfl
      | true =>
          by_cases hloc : loc = l.sharedLoc
          · subst hloc
            apply LeavesMigration.of_written (hstate rfl)
            · apply JsMap.get_set_of_ne _ hlegacy.symm
            · apply JsMap.get_set_self
            · simp [migrating, Machine.instrument, afterMigration, hj]
          · apply LeavesMigration.of_same
            · apply JsMap.get_set_of_ne _ hlegacy.symm
            · apply JsMap.get_set_of_ne _ (Ne.symm hloc)
            · apply afterMigration_other (l := l) (o := .save loc entry) hj _ w.2 w.1 true
              rintro _ ⟨⟩
              apply hloc rfl
  | remove loc =>
      obtain ⟨hlegacy, hshared⟩ := hwrite hj
      cases a with
      | false => apply LeavesMigration.of_same <;> rfl
      | true =>
          apply LeavesMigration.of_same
          · apply JsMap.get_delete_of_ne _ hlegacy.symm
          · apply JsMap.get_delete_of_ne _ hshared.symm
          · rfl
  | _ =>
      have hentries := entries_hostPost (by simp) (by simp) j w.1 a
      apply LeavesMigration.of_same
      · change (hostPost j w.1 _ a).entries.get _ = _
        rw [hentries]
      · change (hostPost j w.1 _ a).entries.get _ = _
        rw [hentries]
      · apply afterMigration_other (l := l) hj (by simp) w.2 w.1 a

/-! ### The migration -/

/-- The migration relies on what the others preserve. -/
def migrationDiscipline (l : LightbridgeRuntime) (i : ℕ) (J : World × MigrationHistory → Prop) :
    Discipline (World × MigrationHistory) where
  Inv := J
  Rely j w w' := j = i → LeavesMigration l w w'
  refl _ _ _ := LeavesMigration.of_same rfl rfl rfl
  trans h h' hj :=
    { legacy := (h' hj).legacy.trans (h hj).legacy
      present := (h' hj).present ∘ (h hj).present
      since := (h' hj).since ∘ (h hj).since
      writes := (h' hj).writes.trans (h hj).writes
      replaced := (h' hj).replaced.trans (h hj).replaced
      overtaken := (h' hj).overtaken.trans (h hj).overtaken }

/-- What the steps of the others preserve. -/
def OthersPreserve (l : LightbridgeRuntime) (J : World × MigrationHistory → Prop) : Prop :=
  ∀ w w', LeavesMigration l w w' → J w → J w'

/-- There is a shared state, or nothing to adopt. -/
def Migrated (l : LightbridgeRuntime) (w : World) : Prop :=
  (l.sharedState w).isSome = true ∨ l.legacyToken w = none

theorem migrated_of_leaves {w w' : World × MigrationHistory} (hleaves : LeavesMigration l w w')
    (h : Migrated l w.1) :
  Migrated l w'.1
  := by
  rcases h with hpresent | hnone
  · left
    apply hleaves.present hpresent
  · right
    rw [legacyToken, hleaves.legacy]
    apply hnone

/-- While the migration runs: it has written over a state if and only if it was overtaken, and
the legacy file is as it was. -/
def Migrating (l : LightbridgeRuntime) (legacy : Option Entry) (w : World × MigrationHistory) :
    Prop :=
  w.2.replaced = w.2.overtaken ∧ w.1.entries.get l.legacyLoc = legacy

/-- After the migration: nothing is left to do, and nothing more is written. -/
def Resting (l : LightbridgeRuntime) (writes : ℕ) (w : World × MigrationHistory) : Prop :=
  Migrated l w.1 ∧ w.2.writes = writes

theorem othersPreserve_migrating (legacy : Option Entry) :
  OthersPreserve l (Migrating l legacy)
  := by
  rintro w w' hleaves ⟨hover, hlegacy⟩
  rw [Migrating, hleaves.replaced, hleaves.overtaken, hleaves.legacy]
  exact ⟨hover, hlegacy⟩

theorem othersPreserve_resting (writes : ℕ) :
  OthersPreserve l (Resting l writes)
  := by
  rintro w w' hleaves ⟨hmigrated, hwrites⟩
  rw [Resting, hleaves.writes]
  exact ⟨migrated_of_leaves hleaves hmigrated, hwrites⟩

variable {J : World × MigrationHistory → Prop} {α : Type}

/-- Whatever another thread does is no concern of the migration. -/
theorem triple_other (hJ : OthersPreserve l J) {j : ℕ} (hj : j ≠ i) (p : Auth α) :
  (migrationDiscipline l i J).Triple (l.migrating i) j (fun _ => True) p (fun _ _ => True)
  := by
  induction p with
  | done a =>
      intro _ _ _
      trivial
  | fail e =>
      intro _ _ _
      trivial
  | call o k ih =>
      apply Discipline.Triple.call (Discipline.Stable.const True) (R := fun _ _ => True)
      · intro w a hw _ ha
        have hleaves := leavesMigration_of_other hj ha
        constructor
        · constructor
          · apply hJ _ _ hleaves hw
          · intro _ _ _
            apply hleaves
        · trivial
      · apply ih

/-- A step of the migration that keeps the invariant. -/
theorem keeps_of_inv {w w' : World × MigrationHistory} (h : J w') :
  (migrationDiscipline l i J).Keeps i w w'
  := by
  constructor
  · apply h
  · intro j hj heq
    apply absurd heq hj

/-- A predicate that the steps of the others preserve is stable. -/
theorem stable_of_preserve {P : World × MigrationHistory → Prop} (hP : OthersPreserve l P) :
  (migrationDiscipline l i J).Stable i P
  := by
  intro w w' _ _ hrely h
  apply hP w w' (hrely rfl) h

/-- What a read of the migration does. -/
theorem post_load (w : World × MigrationHistory) (loc : Loc) (entry : Option Entry) :
  (l.migrating i).post i w (.load loc) entry =
    (w.1, if loc = l.sharedLoc then { w.2 with since := false } else w.2)
  := by
  simp [migrating, Machine.instrument, Machine.restrict, host, hostPost, afterMigration]

/-- What a write of the migration does to the shared file. -/
theorem post_save (w : World × MigrationHistory) (entry : Entry) :
  (l.migrating i).post i w (.save l.sharedLoc entry) true =
    (w.1.setEntry l.sharedLoc entry,
      { w.2 with
        writes := w.2.writes + 1
        replaced := w.2.replaced || (l.sharedState w.1).isSome
        overtaken := w.2.overtaken || w.2.since })
  := by
  simp [migrating, Machine.instrument, Machine.restrict, host, hostPost, afterMigration]

/-- Until it has written, the migration has been overtaken exactly when there is a state. -/
def Exposed (l : LightbridgeRuntime) (w : World × MigrationHistory) : Prop :=
  (l.sharedState w.1).isSome = w.2.since

theorem othersPreserve_exposed :
  OthersPreserve l (Exposed l)
  := by
  intro w w' hleaves h
  apply hleaves.since h

theorem othersPreserve_migrated :
  OthersPreserve l fun w => Migrated l w.1
  := by
  intro w w' hleaves h
  apply migrated_of_leaves hleaves h

theorem stateOf_migrated (updatedAt : ℕ) (token : TokenSet) :
  (l.stateOf (some (.ofState
    { serverId := l.serverId
      updatedAt
      lastSyncAt := none
      models := []
      rawModels := []
      token := some token }))).isSome = true
  := by simp [stateOf, Entry.toServerState]

/-- An operation of the migration other than its write. -/
theorem triple_read {P : World × MigrationHistory → Prop} {o : Op} {f : Ans o → Auth α}
    {R : Ans o → World × MigrationHistory → Prop} {Q : Except AuthError α → World × MigrationHistory → Prop}
    (hP : OthersPreserve l P)
    (hJ : ∀ w a, J w → J ((l.migrating i).post i w o a))
    (hstep : ∀ w a, J w → P w → (l.migrating i).allows i w o a → R a ((l.migrating i).post i w o a))
    (hf : ∀ a, (migrationDiscipline l i J).Triple (l.migrating i) i (R a) (f a) Q) :
  (migrationDiscipline l i J).Triple (l.migrating i) i P ((Auth.perform o).bind f) Q
  := by
  apply Discipline.Triple.perform_bind (stable_of_preserve hP) _ hf
  intro w a hw hPw ha
  constructor
  · apply keeps_of_inv (hJ w a hw)
  · apply hstep w a hw hPw ha

theorem othersPreserve_const (p : Prop) :
  OthersPreserve l fun _ => p
  := by
  intro _ _ _ h
  apply h

theorem migrating_load {legacy : Option Entry} {w : World × MigrationHistory} (loc : Loc)
    (entry : Option Entry) (h : Migrating l legacy w) :
  Migrating l legacy ((l.migrating i).post i w (.load loc) entry)
  := by
  rw [post_load]
  split
  · apply h
  · apply h

/-- The write of the migration. -/
theorem triple_save (legacy : Option Entry) (updatedAt : ℕ) (token : TokenSet) :
  (migrationDiscipline l i (Migrating l legacy)).Triple (l.migrating i) i (Exposed l)
    (saveServerState l.sharedDirectory
      { serverId := l.serverId
        updatedAt
        lastSyncAt := none
        models := []
        rawModels := []
        token := some token })
    fun r w => r = .ok () → Migrated l w.1
  := by
  apply Discipline.Triple.perform_bind (o := Op.save l.sharedLoc _)
    (stable_of_preserve othersPreserve_exposed)
    (R := fun (saved : Bool) w => saved = true → Migrated l w.1)
  · rintro w saved ⟨hover, hlegacy⟩ hexposed ha
    cases saved with
    | false =>
        constructor
        · apply keeps_of_inv ⟨hover, hlegacy⟩
        · rintro ⟨⟩
    | true =>
        rw [post_save]
        constructor
        · apply keeps_of_inv
          constructor
          · simp only [hover, hexposed.symm]
          · rw [← hlegacy]
            apply JsMap.get_set_of_ne _ l.legacyLoc_ne_sharedLoc
        · intro _
          left
          rw [sharedState, World.setEntry, JsMap.get_set_self]
          apply stateOf_migrated
  · intro saved
    cases saved with
    | false =>
        apply Discipline.Triple.fail
        rintro _ _ _ ⟨⟩
    | true =>
        apply Discipline.Triple.done
        intro w _ hmigrated _
        apply hmigrated rfl

theorem triple_migrateRootTokenIfNeeded (legacy : Option Entry) :
  (migrationDiscipline l i (Migrating l legacy)).Triple (l.migrating i) i (fun _ => True)
    l.migrateRootTokenIfNeeded fun r w => r = .ok () → Migrated l w.1
  := by
  apply triple_read (o := .load l.sharedLoc) (othersPreserve_const True)
    (R := fun (entry : Option Entry) w =>
      (l.stateOf entry).elim (Exposed l w) fun _ => Migrated l w.1)
  · intro w entry hw
    apply migrating_load _ entry hw
  · intro w entry _ _ ha
    have hsees : l.stateOf entry = l.sharedState w.1 := (ha.2.2 rfl).1 rfl
    rw [post_load, if_pos rfl]
    cases hstate : l.stateOf entry with
    | some state =>
        left
        rw [← hsees, hstate]
        rfl
    | none =>
        change (l.sharedState w.1).isSome = false
        rw [← hsees, hstate]
        rfl
  · intro entry
    rcases hstate : l.stateOf entry with - | state
    · have hnone : entry.bind (Entry.toServerState l.serverId) = none := hstate
      rw [hnone]
      apply triple_read (o := .load l.legacyLoc) othersPreserve_exposed
        (R := fun (entry : Option Entry) w =>
          (usableToken entry).elim (Migrated l w.1) fun _ => Exposed l w)
      · intro w entry hw
        apply migrating_load _ entry hw
      · intro w entry _ hexposed ha
        have hsees : usableToken entry = l.legacyToken w.1 := (ha.2.2 rfl).2 rfl
        rw [post_load, if_neg l.legacyLoc_ne_sharedLoc]
        cases husable : usableToken entry with
        | some token => apply hexposed
        | none =>
            right
            rw [← hsees, husable]
      · intro entry
        rcases husable : usableToken entry with - | token
        · have hunusable : (entry.map Entry.toTokenSet).filter hasUsableTokenShape = none :=
            husable
          rw [hunusable]
          apply Discipline.Triple.done
          intro w _ hmigrated _
          apply hmigrated
        · have husable' : (entry.map Entry.toTokenSet).filter hasUsableTokenShape = some token :=
            husable
          rw [husable']
          apply triple_read (o := .now) othersPreserve_exposed (R := fun _ => Exposed l)
          · intro _ _ hw
            apply hw
          · intro _ _ _ hexposed _
            apply hexposed
          · intro now
            apply triple_save
    · have hsome : entry.bind (Entry.toServerState l.serverId) = some state := hstate
      rw [hsome]
      apply Discipline.Triple.done
      intro w _ hmigrated _
      apply hmigrated

/-! ### The migration again -/

theorem resting_load {writes : ℕ} {w : World × MigrationHistory} (loc : Loc)
    (entry : Option Entry) (h : Resting l writes w) :
  Resting l writes ((l.migrating i).post i w (.load loc) entry)
  := by
  rw [post_load]
  split
  · apply h
  · apply h

/-- Nothing is left to adopt. -/
def NoLegacy (l : LightbridgeRuntime) (w : World × MigrationHistory) : Prop :=
  l.legacyToken w.1 = none

theorem othersPreserve_noLegacy :
  OthersPreserve l (NoLegacy l)
  := by
  intro w w' hleaves h
  rw [NoLegacy, legacyToken, hleaves.legacy]
  apply h

/-- A migration after which nothing is left to do writes nothing. -/
theorem triple_again (writes : ℕ) :
  (migrationDiscipline l i (Resting l writes)).Triple (l.migrating i) i (fun _ => True)
    l.migrateRootTokenIfNeeded fun _ _ => True
  := by
  apply triple_read (o := .load l.sharedLoc) (othersPreserve_const True)
    (R := fun (entry : Option Entry) w => l.stateOf entry = none → NoLegacy l w)
  · intro w entry hw
    apply resting_load _ entry hw
  · intro w entry hw _ ha hnone
    have hsees : l.stateOf entry = l.sharedState w.1 := (ha.2.2 rfl).1 rfl
    rw [post_load, if_pos rfl]
    rcases hw.1 with hpresent | hlegacy
    · rw [← hsees, hnone] at hpresent
      cases hpresent
    · apply hlegacy
  · intro entry
    rcases hstate : l.stateOf entry with - | state
    · have hnone : entry.bind (Entry.toServerState l.serverId) = none := hstate
      rw [hnone]
      apply (triple_read (o := .load l.legacyLoc) othersPreserve_noLegacy
        (R := fun (entry : Option Entry) _ => usableToken entry = none) _ _ _).weaken
      · intro w _ h
        apply h rfl
      · intro w entry hw
        apply resting_load _ entry hw
      · intro w entry _ hlegacy ha
        rw [← hlegacy]
        apply (ha.2.2 rfl).2 rfl
      · intro entry
        rcases husable : usableToken entry with - | token
        · have hunusable : (entry.map Entry.toTokenSet).filter hasUsableTokenShape = none :=
            husable
          rw [hunusable]
          apply Discipline.Triple.done
          intro _ _ _
          trivial
        · apply Discipline.Triple.absurd
          rintro _ _ ⟨⟩
    · have hsome : entry.bind (Entry.toServerState l.serverId) = some state := hstate
      rw [hsome]
      apply Discipline.Triple.done
      intro _ _ _
      trivial

/-! ### Runs -/

/-- What a run of the migration among the others leaves. -/
theorem inv_of_run (hJ : OthersPreserve l J) {Q : Except AuthError Unit → World × MigrationHistory → Prop}
    (hQ : ∀ r, OthersPreserve l (Q r))
    (hmigration : (migrationDiscipline l i J).Triple (l.migrating i) i (fun _ => True)
      l.migrateRootTokenIfNeeded Q)
    {c c' : Config Op Ans AuthError Unit (World × MigrationHistory)}
    (hcall : c.pool i = l.migrateRootTokenIfNeeded) (hstart : J c.world)
    (hrun : (l.migrating i).Run c c') :
  J c'.world ∧ ∀ r, c'.pool i = .settle r → Q r c'.world
  := by
  have hpool : ∀ j, (migrationDiscipline l i J).Triple (l.migrating i) j (fun _ => True)
      (c.pool j) fun r w => j = i → Q r w := by
    intro j
    by_cases hj : j = i
    · subst hj
      rw [hcall]
      apply hmigration.strengthen
      intro r w _ h _
      apply h
    · apply (triple_other hJ hj (c.pool j)).strengthen
      intro _ _ _ _ heq
      apply absurd heq hj
  have hstable : ∀ j r, (migrationDiscipline l i J).Stable j fun w => j = i → Q r w := by
    intro j r w w' _ _ hrely h heq
    apply hQ r w w' (hrely heq) (h heq)
  have henv : ∀ w ms, (migrationDiscipline l i J).Inv w → (l.migrating i).envAllows w ms →
      (migrationDiscipline l i J).Inv ((l.migrating i).envPost w ms) ∧
        ∀ j, (migrationDiscipline l i J).Rely j w ((l.migrating i).envPost w ms) := by
    intro w ms hw _
    have hleaves : LeavesMigration l w ((l.migrating i).envPost w ms) :=
      LeavesMigration.of_same rfl rfl rfl
    constructor
    · apply hJ _ _ hleaves hw
    · intro _ _
      apply hleaves
  obtain ⟨hinv, hsettled⟩ := Discipline.settled_of_run hpool hstable henv hstart
    (fun _ => trivial) hrun
  constructor
  · apply hinv
  · intro r hr
    apply hsettled i r hr rfl

/-- The migration is safe if and only if it has not written after another process wrote the
shared file since its look. -/
theorem migratesSafely_iff (l : LightbridgeRuntime) (i : ℕ)
    (c c' : Config Op Ans AuthError Unit (World × MigrationHistory))
    (hcall : c.pool i = l.migrateRootTokenIfNeeded) (hstart : c.world.2 = .empty)
    (hrun : (l.migrating i).Run c c') :
  l.MigratesSafely i c c' ↔ c'.world.2.overtaken = false
  := by
  have hbefore : Migrating l (c.world.1.entries.get l.legacyLoc) c.world := by
    rw [Migrating, hstart]
    exact ⟨rfl, rfl⟩
  have hmigrated : ∀ r : Except AuthError Unit,
      OthersPreserve l fun w => r = .ok () → Migrated l w.1 := by
    intro r w w' hleaves h hr
    apply migrated_of_leaves hleaves (h hr)
  obtain ⟨⟨hover, hlegacy⟩, hsettled⟩ := inv_of_run (othersPreserve_migrating _) hmigrated
    (triple_migrateRootTokenIfNeeded _) hcall hbefore hrun
  constructor
  · intro hsafe
    rw [← hover]
    apply hsafe.kept
  · intro hnot
    constructor
    · rw [hover, hnot]
    · apply hlegacy
    · intro hdone c'' hagain
      have hrest : Resting l c'.world.2.writes c'.world := ⟨hsettled (.ok ()) hdone rfl, rfl⟩
      obtain ⟨⟨-, hwrites⟩, -⟩ := inv_of_run
        (c := ⟨c'.world, Function.update c'.pool i l.migrateRootTokenIfNeeded⟩)
        (othersPreserve_resting _) (fun _ => othersPreserve_const True) (triple_again _)
        (Function.update_self _ _ _) hrest hagain
      apply hwrites

/-! ### Two runs -/

instance (l : LightbridgeRuntime) (i j : ℕ) (o : Op) : Decidable (l.OthersWrite i j o) :=
  match o with
  | .save loc entry =>
      inferInstanceAs (Decidable (j ≠ i → loc ≠ l.legacyLoc ∧
        (loc = l.sharedLoc → (l.stateOf (some entry)).isSome)))
  | .remove loc => inferInstanceAs (Decidable (j ≠ i → loc ≠ l.legacyLoc ∧ loc ≠ l.sharedLoc))
  | .load _ | .now | .sleepUntil _ | .listKeys _ _ | .mkdirLocks _ | .openLock _
  | .writeLock _ _ _ | .closeLock _ | .readLock _ | .statLock _ | .unlinkLock _ _
  | .proceedUnlocked _ | .postToken _ _ | .resolveSubjectToken _ | .promptLogin _
  | .awaitLogin _ | .fetchModels _ _ | .claimFlight _ | .joinFlight _ | .publishFlight _ _
  | .clearSlot _ _ | .peekState _ | .adoptState _ _ | .assignState _ _ | .claimMigration _
  | .awaitMigration _ | .endMigration _ | .spin => isTrue trivial

instance (l : LightbridgeRuntime) (i j : ℕ) (w : World) (o : Op) (a : Ans o) :
    Decidable (l.SeesFiles i j w o a) :=
  match o, a with
  | .load loc, entry =>
      inferInstanceAs (Decidable (j = i →
        (loc = l.sharedLoc → l.stateOf entry = l.sharedState w) ∧
          (loc = l.legacyLoc → usableToken entry = l.legacyToken w)))
  | .save _ _, _ | .remove _, _ | .now, _ | .sleepUntil _, _ | .listKeys _ _, _
  | .mkdirLocks _, _ | .openLock _, _ | .writeLock _ _ _, _ | .closeLock _, _ | .readLock _, _
  | .statLock _, _ | .unlinkLock _ _, _ | .proceedUnlocked _, _ | .postToken _ _, _
  | .resolveSubjectToken _, _ | .promptLogin _, _ | .awaitLogin _, _ | .fetchModels _ _, _
  | .claimFlight _, _ | .joinFlight _, _ | .publishFlight _ _, _ | .clearSlot _ _, _
  | .peekState _, _ | .adoptState _ _, _ | .assignState _ _, _ | .claimMigration _, _
  | .awaitMigration _, _ | .endMigration _, _ | .spin, _ => isTrue trivial

instance (l : LightbridgeRuntime) (i j : ℕ) (w : World × MigrationHistory) (o : Op) (a : Ans o) :
    Decidable ((l.migrating i).allows j w o a) :=
  inferInstanceAs (Decidable (hostAllows w.1 o a ∧ l.OthersWrite i j o ∧ l.SeesFiles i j w.1 o a))

instance (l : LightbridgeRuntime) (i : ℕ) (w : World × MigrationHistory) (ms : ℕ) :
    Decidable ((l.migrating i).envAllows w ms) :=
  inferInstanceAs (Decidable (True ∧ True))

def sampleLightbridge : LightbridgeRuntime where
  instanceId := 0
  rootInstance := 1
  exchangeInstance := 2
  client := { server := sampleServer, tokenExpirySkewMs := DEFAULT_TOKEN_EXPIRY_SKEW_MS }
  projectId := none
  exchange := false
  cacheRoot := "cache"
  tokensDirectory := "tokens"
  hashCacheKey := fun value => value
  passes := 3

/-- A machine with a legacy token, on which one process migrates while another stores the token
of a login. -/
def migrationStart : Config Op Ans AuthError Unit (World × MigrationHistory) where
  world :=
    ({ World.blank 1000000 with
        entries := JsMap.empty.set sampleLightbridge.legacyLoc
          (.ofToken (sampleToken "access-1" "refresh-1" 1)) },
      .empty)
  pool i :=
    if i = 0 then sampleLightbridge.migrateRootTokenIfNeeded
    else sampleLightbridge.setCachedRoot (sampleToken "access-2" "refresh-2" 2)

theorem migratesSafely_alone :
  ∃ c', (sampleLightbridge.migrating 0).Run migrationStart c' ∧ c'.world.2.writes = 1 ∧
    sampleLightbridge.MigratesSafely 0 migrationStart c'
  := by
  obtain ⟨c', hrun, hc'⟩ := Machine.exists_run_of_play (sampleLightbridge.migrating 0)
    (proceed 0 4) migrationStart (fun c' => c'.world.2.writes = 1 ∧ c'.world.2.overtaken = false)
    (by decide +kernel)
  obtain ⟨hwrites, hnot⟩ := of_decide_eq_true hc'
  use c', hrun, hwrites
  apply (migratesSafely_iff sampleLightbridge 0 migrationStart c' rfl rfl hrun).mpr hnot

/-- A login stored after the migration has looked is written over with the legacy token. -/
theorem migration_replaces_login :
  ¬∀ (l : LightbridgeRuntime) (i : ℕ)
    (c c' : Config Op Ans AuthError Unit (World × MigrationHistory)),
    c.pool i = l.migrateRootTokenIfNeeded → c.world.2 = .empty → (l.migrating i).Run c c' →
      l.MigratesSafely i c c'
  := by
  intro h
  obtain ⟨c', hrun, hc'⟩ := Machine.exists_run_of_play (sampleLightbridge.migrating 0)
    (proceed 0 3 ++ proceed 1 3 ++ proceed 0 1) migrationStart
    (fun c' => c'.world.2.replaced = true) (by decide +kernel)
  have hkept := (h sampleLightbridge 0 migrationStart c' rfl rfl hrun).kept
  rw [of_decide_eq_true hc'] at hkept
  cases hkept

end LightbridgeRuntime

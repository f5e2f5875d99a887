import OpencodeToolbelt.AuthCore.LockHistory

/-!
# Which lock files are removed, and by whom

A process breaks a lock by unlinking whatever is at its path, some time after it has read
the age of what was there; and it gives its lock back by unlinking whatever is at the path.
So a file that is younger, or that another process holds, may be removed in its place. Both
are excluded as long as the file that is unlinked is the one that was meant.
-/

variable {path : Loc} {staleMs : ℕ}

def humanLock : Loc := ⟨"tokens/locks", "human.lock"⟩

/-- Processes about to take a lock with the default options. -/
def contenders (w : World) : Config Op Ans AuthError Unit (World × LockHistory) where
  world := (w, .empty)
  pool _ :=
    Auth.withFileLock 3 humanLock
      { staleMs := none
        pollIntervalMs := none
        maxWaitMs := none }

/-- A lock file was left 40 seconds ago by a process that is gone. -/
def abandonedLock : World :=
  { World.blank 40000 with
    locks := fun path =>
      if path = humanLock then
        some
          { inode := 0
            creator := 1000
            createdAt := 0
            acquiredAt := some 0
            mtime := 0 }
      else none
    nextInode := 1 }

/-! ### Breaking a lock -/

/-- No process removes the file of another one that is younger than `staleMs`, and at most
one holds a file it created less than `staleMs` ago. -/
structure YoungFilesSafe (staleMs : ℕ) (w : World × LockHistory) : Prop where
  removed : ∀ r ∈ w.2.removals, r.file.creator ≠ r.process →
    r.file.createdAt + staleMs ≤ r.time
  exclusive : ∀ i j file file', (i, file) ∈ w.2.holders → (j, file') ∈ w.2.holders →
    w.1.now < file.createdAt + staleMs → w.1.now < file'.createdAt + staleMs → i = j

/-- The step removes the file that the process means to remove: when it breaks a lock, the
one whose age it has read; when it releases its lock, the one it created. -/
def RemovesMeant (i : ℕ) (w : World × LockHistory) : (o : Op) → Ans o → Prop
  | .unlinkLock path .stale, true =>
      (w.1.locks path).map LockFile.inode = (w.2.seen i).map LockFile.inode
  | .unlinkLock path .release, true =>
      ∃ h ∈ w.2.holders, h.1 = i ∧ (w.1.locks path).map LockFile.inode = some h.2.inode
  | _, _ => True

instance (i : ℕ) (w : World × LockHistory) (o : Op) (a : Ans o) :
  Decidable (RemovesMeant i w o a)
  := by
  unfold RemovesMeant
  split <;> infer_instance

/-- The files that were created less than `staleMs` ago, and that their creators have not
removed, are at the path. -/
def YoungInPlace (path : Loc) (staleMs : ℕ) (w : World × LockHistory) : Prop :=
  ∀ i file, (i, file) ∈ w.2.holders → w.1.now < file.createdAt + staleMs →
    ∃ file', w.1.locks path = some file' ∧ file'.inode = file.inode

theorem YoungInPlace.keep {w w' : World × LockHistory} (h : YoungInPlace path staleMs w)
    (hnow : w.1.now ≤ w'.1.now) (hholders : ∀ e ∈ w'.2.holders, e ∈ w.2.holders)
    (hlocks : ∀ file, w.1.locks path = some file →
      ∃ file', w'.1.locks path = some file' ∧ file'.inode = file.inode) :
  YoungInPlace path staleMs w'
  := by
  intro i file hi hyoung
  obtain ⟨f, hf, hinode⟩ := h i file (hholders _ hi) (by omega)
  obtain ⟨f', hf', hinode'⟩ := hlocks f hf
  use f', hf', hinode'.trans hinode

theorem YoungInPlace.create {w : World × LockHistory} (h : YoungInPlace path staleMs w)
    (hnone : w.1.locks path = none) (i : ℕ) :
  YoungInPlace path staleMs
    (w.1.createLock i path w.1.nextInode, w.2.hold i (w.1.createdFile i w.1.nextInode))
  := by
  intro j file hj hyoung
  obtain heq | hj := List.mem_cons.mp hj
  · obtain ⟨rfl, rfl⟩ := Prod.mk.inj heq
    exact ⟨_, Function.update_self _ _ _, rfl⟩
  · obtain ⟨f, hf, -⟩ := h j file hj hyoung
    rw [hnone] at hf
    cases hf

theorem YoungInPlace.write {w : World × LockHistory} (h : YoungInPlace path staleMs w)
    (inode acquiredAt : ℕ) :
  YoungInPlace path staleMs (w.1.writeLock path inode acquiredAt, w.2)
  := by
  unfold World.writeLock
  split
  · apply h
  · next f hf =>
      split
      · apply h.keep
        · apply Nat.le_refl
        · exact fun _ he => he
        · intro file hfile
          obtain rfl := Option.some.inj (hf.symm.trans hfile)
          exact ⟨_, Function.update_self _ _ _, rfl⟩
      · apply h

/-- The lock at the path is not held by a process that took it less than `staleMs` ago. -/
theorem YoungInPlace.unlink {w : World × LockHistory} {file : LockFile}
    (hfile : w.1.locks path = some file)
    (h : YoungInPlace path staleMs w) {g : LockHistory}
    (hholders : ∀ j f, (j, f) ∈ g.holders → (j, f) ∈ w.2.holders ∧
      (f.inode = file.inode → f.createdAt + staleMs ≤ w.1.now)) :
  YoungInPlace path staleMs (w.1.setLock path none, g)
  := by
  intro j f hj hyoung
  obtain ⟨hj, hold⟩ := hholders j f hj
  obtain ⟨f', hf', hinode⟩ := h j f hj hyoung
  obtain rfl := Option.some.inj (hfile.symm.trans hf')
  have hle := hold hinode.symm
  simp only [World.setLock] at hyoung
  omega

/-- The removals of other processes' files were of files that were old. -/
def OldRemoved (staleMs : ℕ) (w : World × LockHistory) : Prop :=
  ∀ r ∈ w.2.removals, r.file.creator ≠ r.process → r.file.createdAt + staleMs ≤ r.time

theorem OldRemoved.add {w : World × LockHistory} (h : OldRemoved staleMs w) {i : ℕ}
    {reason : UnlinkReason} {file : LockFile} (w' : World)
    (hold : file.creator ≠ i → file.createdAt + staleMs ≤ w.1.now) :
  OldRemoved staleMs (w', w.2.addRemoval i reason (some file) w.1.now)
  := by
  intro r hr
  obtain rfl | hr := List.mem_cons.mp hr
  · apply hold
  · apply h r hr

theorem keepsLockInvariant_young :
  KeepsLockInvariant path staleMs RemovesMeant
    (fun w => YoungInPlace path staleMs w ∧ OldRemoved staleMs w)
  := by
  rintro i w o a ho hready hcoh ⟨hyoung, hold⟩ ha hC
  have hkept : ∀ g : LockHistory, (∀ e ∈ g.holders, e ∈ w.2.holders) →
      YoungInPlace path staleMs (w.1, g) := by
    intro g hg j file hj hlt
    apply hyoung j file (hg _ hj) hlt
  have hquit : ∀ e ∈ (w.2.quit i).holders, e ∈ w.2.holders :=
    fun _ he => (LockHistory.mem_quit.mp he).1
  cases o with
  | now => exact ⟨hyoung, hold⟩
  | sleepUntil t => exact ⟨hyoung, hold⟩
  | mkdirLocks p => exact ⟨hyoung, hold⟩
  | openLock p =>
      subst ho
      cases a with
      | created inode =>
          obtain ⟨hnone, rfl⟩ := ha
          exact ⟨hyoung.create hnone i, hold⟩
      | «exists» => exact ⟨hyoung, hold⟩
      | failed => exact ⟨hyoung, hold⟩
  | writeLock p inode acquiredAt =>
      subst ho
      cases a with
      | true => exact ⟨hyoung.write inode acquiredAt, hold⟩
      | false => exact ⟨hkept _ hquit, hold⟩
  | closeLock inode =>
      cases a with
      | true => exact ⟨hyoung, hold⟩
      | false => exact ⟨hkept _ hquit, hold⟩
  | readLock p =>
      cases a with
      | missing => exact ⟨hyoung, hold⟩
      | failed => exact ⟨hyoung, hold⟩
      | content c => exact ⟨hkept _ fun _ he => he, hold⟩
  | statLock p =>
      cases a with
      | missing => exact ⟨hyoung, hold⟩
      | failed => exact ⟨hkept _ fun _ he => he, hold⟩
      | mtime t => exact ⟨hkept _ fun _ he => he, hold⟩
  | unlinkLock p reason =>
      subst ho
      cases a with
      | false =>
          cases reason with
          | stale => exact ⟨hyoung, hold⟩
          | release => exact ⟨hkept _ hquit, hold⟩
      | true =>
          obtain ⟨file, hfile⟩ := Option.ne_none_iff_exists'.mp (ha rfl)
          have hknown : KnownFile p w file := .inl hfile
          cases reason with
          | stale =>
              -- The file is the one whose age was read, so it is as old as it was judged.
              have hinode : some file.inode = (w.2.seen i).map LockFile.inode := by
                simpa [RemovesMeant, hfile] using hC
              obtain ⟨s, hs, hinode⟩ := Option.map_eq_some_iff.mp hinode.symm
              have hage := hready s hs
              obtain ⟨-, hcreated⟩ := hcoh.same s file (.inr (.inl ⟨i, hs⟩)) hknown hinode
              have hfileAge : file.createdAt + staleMs ≤ w.1.now := by omega
              constructor
              · apply hyoung.unlink hfile
                intro j f hj
                use hj
                intro heq
                obtain ⟨-, hc⟩ := hcoh.same f file (.inr (.inr ⟨j, hj⟩)) hknown heq
                omega
              · simp only [Machine.instrument, LockHistory.after, hfile]
                apply hold.add w.1
                exact fun _ => hfileAge
          | release =>
              -- The file is the one this process created, so it is no other process's.
              obtain ⟨⟨_, own⟩, hown, rfl, hinode⟩ := hC
              have hinode : file.inode = own.inode := by
                simpa [hfile] using hinode
              obtain ⟨hcreator, -⟩ := hcoh.same file own hknown (.inr (.inr ⟨_, hown⟩)) hinode
              rw [hcoh.own _ own hown] at hcreator
              constructor
              · apply hyoung.unlink hfile
                intro j f hj
                obtain ⟨hj, hne⟩ := LockHistory.mem_quit.mp hj
                use hj
                intro heq
                obtain ⟨hc, -⟩ := hcoh.same f file (.inr (.inr ⟨j, hj⟩)) hknown heq
                rw [hcoh.own j f hj, hcreator] at hc
                exact (hne hc).elim
              · simp only [Machine.instrument, LockHistory.after, hfile]
                apply hold.add w.1
                exact fun hne => (hne hcreator).elim
  | spin => cases a
  | _ => cases ho

theorem YoungInPlace.exclusive {w : World × LockHistory} (h : YoungInPlace path staleMs w)
    (hcoh : Coherent path w) (i j : ℕ) (file file' : LockFile) (hi : (i, file) ∈ w.2.holders)
    (hj : (j, file') ∈ w.2.holders) (hyoung : w.1.now < file.createdAt + staleMs)
    (hyoung' : w.1.now < file'.createdAt + staleMs) :
  i = j
  := by
  obtain ⟨f, hf, hinode⟩ := h i file hi hyoung
  obtain ⟨f', hf', hinode'⟩ := h j file' hj hyoung'
  obtain rfl := Option.some.inj (hf.symm.trans hf')
  obtain ⟨hcreator, -⟩ := hcoh.same file file' (.inr (.inr ⟨i, hi⟩)) (.inr (.inr ⟨j, hj⟩))
    (hinode.symm.trans hinode')
  rw [← hcoh.own i file hi, ← hcoh.own j file' hj, hcreator]

/-- Runs in which every file that is unlinked is the one that was meant. -/
@[reducible]
def meantRemovals : Machine Op Ans (World × LockHistory) ℕ :=
  lockHost.restrict RemovesMeant (fun _ _ => True)

/-- As long as every file that is unlinked is the one that was meant, no process removes a
young file of another one, and at most one holds a young file. -/
theorem young_files_safe (path : Loc) (staleMs : ℕ) (passes : ℕ → ℕ)
    (options : ℕ → Auth.FileLockOptions)
    (hstale : ∀ i,
      staleMs ≤ Auth.positiveOr (options i).staleMs Auth.DEFAULT_LOCK_STALE_MS)
    (c c' : Config Op Ans AuthError Unit (World × LockHistory))
    (hpool : ∀ i, c.pool i = Auth.withFileLock (passes i) path (options i))
    (hstart : LockStart path c.world) (hrun : meantRemovals.Run c c') :
  YoungFilesSafe staleMs c'.world
  := by
  have hinit : YoungInPlace path staleMs c.world ∧ OldRemoved staleMs c.world := by
    constructor
    · intro i file hi
      rw [hstart.history] at hi
      cases hi
    · intro r hr
      rw [hstart.history] at hr
      cases hr
  obtain ⟨hcoh, hyoung, hold⟩ := lockInvariant_of_run keepsLockInvariant_young
    (fun w g ms h => ⟨h.1.keep (Nat.le_add_right _ _) (fun _ he => he)
      fun file hfile => ⟨file, hfile, rfl⟩, h.2⟩)
    hstale hpool hstart.coherent hinit hrun
  exact ⟨hold, hyoung.exclusive hcoh⟩

/-- Two processes take the lock of a free path, one after the other. -/
theorem young_files_safe_relay :
  ∃ c', meantRemovals.Run (contenders (.blank 0)) c' ∧ c'.world.2.removals.length = 1 ∧
    YoungFilesSafe 30000 c'.world
  := by
  obtain ⟨c', hrun, hc'⟩ := Machine.exists_run_of_play meantRemovals
    (proceed 0 7 ++ proceed 1 2 ++ wait 75 ++ proceed 1 4)
    (contenders (.blank 0))
    (fun c' => c'.world.2.removals.length = 1)
    (by decide)
  use c', hrun, of_decide_eq_true hc'
  apply young_files_safe humanLock 30000 (fun _ => 3) _ (fun _ => Nat.le_refl _) _ c'
    (fun _ => rfl) _ hrun
  constructor
  · rfl
  · rintro file ⟨⟩
  · rintro file ⟨⟩

/-- Two processes judge the same abandoned file; the first replaces it, the second removes
the replacement, and both hold the lock. -/
theorem young_files_unsafe :
  ¬ ∀ c', lockHost.Run (contenders abandonedLock) c' →
    YoungFilesSafe Auth.DEFAULT_LOCK_STALE_MS c'.world
  := by
  intro h
  obtain ⟨c', hrun, hc'⟩ := Machine.exists_run_of_play lockHost
    (proceed 0 5 ++ proceed 1 5 ++ proceed 0 6 ++ proceed 1 3)
    (contenders abandonedLock)
    (fun c' => ∃ e ∈ c'.world.2.holders, ∃ e' ∈ c'.world.2.holders, e.1 ≠ e'.1 ∧
      c'.world.1.now < e.2.createdAt + 30000 ∧ c'.world.1.now < e'.2.createdAt + 30000)
    (by decide)
  obtain ⟨e, he, e', he', hne, hyoung, hyoung'⟩ := of_decide_eq_true hc'
  apply hne
  apply (h c' hrun).exclusive e.1 e'.1 e.2 e'.2 he he' hyoung hyoung'

/-! ### Releasing a lock -/

/-- Every file that a release has removed is the one which the process created. -/
def ReleasesOwn (w : World × LockHistory) : Prop :=
  ∀ r ∈ w.2.removals, r.reason = .release → r.file.creator = r.process

/-- The step does not create the lock while an earlier holder is still to release it. -/
def CreatesAlone (_ : ℕ) (w : World × LockHistory) : (o : Op) → Ans o → Prop
  | .openLock _, .created _ => w.2.holders = []
  | _, _ => True

instance (i : ℕ) (w : World × LockHistory) (o : Op) (a : Ans o) :
  Decidable (CreatesAlone i w o a)
  := by
  unfold CreatesAlone
  split <;> infer_instance

/-- At most one process is still to release a lock, and no other file is at the path. -/
structure SingleHolder (path : Loc) (w : World × LockHistory) : Prop where
  single : ∀ e ∈ w.2.holders, ∀ e' ∈ w.2.holders, e = e'
  inPlace : ∀ e ∈ w.2.holders, ∀ file, w.1.locks path = some file → file.inode = e.2.inode

theorem SingleHolder.keep {w w' : World × LockHistory} (h : SingleHolder path w)
    (hholders : ∀ e ∈ w'.2.holders, e ∈ w.2.holders)
    (hlocks : ∀ file', w'.1.locks path = some file' →
      ∃ file, w.1.locks path = some file ∧ file'.inode = file.inode) :
  SingleHolder path w'
  := by
  constructor
  · intro e he e' he'
    apply h.single e (hholders e he) e' (hholders e' he')
  · intro e he file' hfile'
    obtain ⟨file, hfile, hinode⟩ := hlocks file' hfile'
    rw [hinode]
    apply h.inPlace e (hholders e he) file hfile

theorem SingleHolder.create {w : World × LockHistory} (hnone : w.2.holders = []) (i : ℕ)
    (inode : ℕ) :
  SingleHolder path (w.1.createLock i path inode, w.2.hold i (w.1.createdFile i inode))
  := by
  have hmem : ∀ e ∈ (w.2.hold i (w.1.createdFile i inode)).holders,
      e = (i, w.1.createdFile i inode) := by
    intro e he
    simpa [LockHistory.hold, hnone] using he
  constructor
  · intro e he e' he'
    rw [hmem e he, hmem e' he']
  · intro e he file hfile
    rw [hmem e he]
    have hcreated := (World.locks_createLock _ _ _ _).symm.trans hfile
    rw [Option.some.inj hcreated]

theorem SingleHolder.write {w : World × LockHistory} (h : SingleHolder path w)
    (inode acquiredAt : ℕ) :
  SingleHolder path (w.1.writeLock path inode acquiredAt, w.2)
  := by
  unfold World.writeLock
  split
  · apply h
  · next f hf =>
      split
      · apply SingleHolder.keep h
        · exact fun _ he => he
        · intro file' hfile'
          obtain rfl := Option.some.inj ((World.locks_setLock _ _ _).symm.trans hfile')
          use f, hf
      · apply h

theorem ReleasesOwn.add {w : World × LockHistory} (h : ReleasesOwn w) {i : ℕ}
    {reason : UnlinkReason} {file : LockFile} (w' : World)
    (hown : reason = .release → file.creator = i) :
  ReleasesOwn (w', w.2.addRemoval i reason (some file) w.1.now)
  := by
  intro r hr
  obtain rfl | hr := List.mem_cons.mp hr
  · apply hown
  · apply h r hr

theorem keepsLockInvariant_single :
  KeepsLockInvariant path staleMs CreatesAlone
    (fun w => SingleHolder path w ∧ ReleasesOwn w)
  := by
  rintro i w o a ho hready hcoh ⟨hsingle, hown⟩ ha hC
  have hkept : ∀ g : LockHistory, (∀ e ∈ g.holders, e ∈ w.2.holders) →
      SingleHolder path (w.1, g) :=
    fun g hg => hsingle.keep hg fun file hfile => ⟨file, hfile, rfl⟩
  have hgone : ∀ g : LockHistory, (∀ e ∈ g.holders, e ∈ w.2.holders) →
      SingleHolder path (w.1.setLock path none, g) := by
    intro g hg
    apply SingleHolder.keep hsingle hg
    intro file hfile
    cases (World.locks_setLock _ _ _).symm.trans hfile
  have hquit : ∀ e ∈ (w.2.quit i).holders, e ∈ w.2.holders :=
    fun _ he => (LockHistory.mem_quit.mp he).1
  cases o with
  | now => exact ⟨hsingle, hown⟩
  | sleepUntil t => exact ⟨hsingle, hown⟩
  | mkdirLocks p => exact ⟨hsingle, hown⟩
  | openLock p =>
      subst ho
      cases a with
      | created inode => exact ⟨SingleHolder.create hC i inode, hown⟩
      | «exists» => exact ⟨hsingle, hown⟩
      | failed => exact ⟨hsingle, hown⟩
  | writeLock p inode acquiredAt =>
      subst ho
      cases a with
      | true => exact ⟨hsingle.write inode acquiredAt, hown⟩
      | false => exact ⟨hkept _ hquit, hown⟩
  | closeLock inode =>
      cases a with
      | true => exact ⟨hsingle, hown⟩
      | false => exact ⟨hkept _ hquit, hown⟩
  | readLock p =>
      cases a with
      | missing => exact ⟨hsingle, hown⟩
      | failed => exact ⟨hsingle, hown⟩
      | content c => exact ⟨hkept _ fun _ he => he, hown⟩
  | statLock p =>
      cases a with
      | missing => exact ⟨hsingle, hown⟩
      | failed => exact ⟨hkept _ fun _ he => he, hown⟩
      | mtime t => exact ⟨hkept _ fun _ he => he, hown⟩
  | unlinkLock p reason =>
      subst ho
      cases a with
      | false =>
          cases reason with
          | stale => exact ⟨hsingle, hown⟩
          | release => exact ⟨hkept _ hquit, hown⟩
      | true =>
          obtain ⟨file, hfile⟩ := Option.ne_none_iff_exists'.mp (ha rfl)
          cases reason with
          | stale =>
              constructor
              · exact hgone (w.2.addRemoval i .stale (w.1.locks p) w.1.now) fun _ he => he
              · simp only [Machine.instrument, LockHistory.after, hfile]
                apply hown.add w.1
                rintro ⟨⟩
          | release =>
              -- The process holds a file, so the one at the path is its own.
              obtain ⟨own, hmem⟩ := hready
              have hinode : file.inode = own.inode := hsingle.inPlace _ hmem file hfile
              obtain ⟨hcreator, -⟩ :=
                hcoh.same file own (.inl hfile) (.inr (.inr ⟨i, hmem⟩)) hinode
              constructor
              · exact hgone ((w.2.addRemoval i .release (w.1.locks p) w.1.now).quit i) hquit
              · simp only [Machine.instrument, LockHistory.after, hfile]
                apply hown.add w.1
                rw [hcreator, hcoh.own i own hmem]
                exact fun _ => rfl
  | spin => cases a
  | _ => cases ho

/-- Runs in which no process takes the lock while an earlier holder is still to release
it. -/
@[reducible]
def loneHolders : Machine Op Ans (World × LockHistory) ℕ :=
  lockHost.restrict CreatesAlone (fun _ _ => True)

/-- As long as no process takes the lock while an earlier holder is still to release it,
every release removes the file that the holder created. -/
theorem releases_own (path : Loc) (passes : ℕ → ℕ) (options : ℕ → Auth.FileLockOptions)
    (c c' : Config Op Ans AuthError Unit (World × LockHistory))
    (hpool : ∀ i, c.pool i = Auth.withFileLock (passes i) path (options i))
    (hstart : LockStart path c.world) (hrun : loneHolders.Run c c') :
  ReleasesOwn c'.world
  := by
  have hinit : SingleHolder path c.world ∧ ReleasesOwn c.world := by
    constructor
    · constructor <;> simp [hstart.history, LockHistory.empty]
    · simp [ReleasesOwn, hstart.history, LockHistory.empty]
  obtain ⟨-, -, hown⟩ := lockInvariant_of_run
    (keepsLockInvariant_single : KeepsLockInvariant path 0 _ _)
    (fun w g ms h => ⟨h.1.keep (fun _ he => he) fun file hfile => ⟨file, hfile, rfl⟩, h.2⟩)
    (fun _ => Nat.zero_le _) hpool hstart.coherent hinit hrun
  apply hown

/-- A process takes the lock and releases it. -/
theorem releases_own_once :
  ∃ c', loneHolders.Run (contenders (.blank 0)) c' ∧ c'.world.2.removals.length = 1 ∧
    ReleasesOwn c'.world
  := by
  obtain ⟨c', hrun, hc'⟩ := Machine.exists_run_of_play loneHolders
    (proceed 0 7)
    (contenders (.blank 0))
    (fun c' => c'.world.2.removals.length = 1)
    (by decide)
  use c', hrun, of_decide_eq_true hc'
  apply releases_own humanLock (fun _ => 3) _ _ c' (fun _ => rfl) _ hrun
  constructor
  · rfl
  · rintro file ⟨⟩
  · rintro file ⟨⟩

/-- A holder is slow, its lock is broken and taken by another process, and its late release
removes the lock of that process. -/
theorem releases_other :
  ¬ ∀ c', lockHost.Run (contenders (.blank 0)) c' → ReleasesOwn c'.world
  := by
  intro h
  obtain ⟨c', hrun, hc'⟩ := Machine.exists_run_of_play lockHost
    (proceed 0 6 ++ wait 31000 ++ proceed 1 11 ++ proceed 0 1)
    (contenders (.blank 0))
    (fun c' => ∃ r ∈ c'.world.2.removals, r.reason = .release ∧ r.file.creator ≠ r.process)
    (by decide)
  obtain ⟨r, hr, hreason, hother⟩ := of_decide_eq_true hc'
  apply hother
  apply h c' hrun r hr hreason

import OpencodeToolbelt.Async.RelyGuarantee
import OpencodeToolbelt.AuthCore.Host
import OpencodeToolbelt.AuthCore.Lock

/-!
# The history of a lock file

Processes take one lock file and give it back. The history of a run tells which file a
process saw when it last read the age of the lock, which processes hold a file they have
created, and which files were removed by whom.
-/

/-- The removal of a lock file. -/
structure Removal where
  process : ℕ
  reason : UnlinkReason
  file : LockFile
  time : ℕ

/-- What happened to the lock files of a path. -/
structure LockHistory where
  /-- The file whose age a process last read, if it could be told. -/
  seen : ℕ → Option LockFile
  /-- The processes that have created a file and are still to remove it. -/
  holders : List (ℕ × LockFile)
  removals : List Removal

namespace LockHistory

def empty : LockHistory := ⟨fun _ => none, [], []⟩

def see (g : LockHistory) (i : ℕ) (file : Option LockFile) : LockHistory :=
  { g with seen := Function.update g.seen i file }

def hold (g : LockHistory) (i : ℕ) (file : LockFile) : LockHistory :=
  { g with holders := (i, file) :: g.holders }

def quit (g : LockHistory) (i : ℕ) : LockHistory :=
  { g with holders := g.holders.filter fun h => h.1 ≠ i }

def addRemoval (g : LockHistory) (i : ℕ) (reason : UnlinkReason) (file : Option LockFile)
    (time : ℕ) : LockHistory :=
  { g with
    removals :=
      file.elim g.removals fun file =>
        { process := i
          reason
          file
          time } :: g.removals }

theorem seen_see {g : LockHistory} {i : ℕ} {file : Option LockFile} :
  (g.see i file).seen i = file
  := Function.update_self _ _ _

/-- The history after an operation. -/
def after (g : LockHistory) (i : ℕ) (w : World) : (o : Op) → Ans o → LockHistory
  | .readLock path, .content _ => g.see i (w.locks path)
  | .statLock path, .mtime _ => g.see i (w.locks path)
  | .statLock _, .failed => g.see i none
  | .openLock _, .created inode => g.hold i (w.createdFile i inode)
  | .writeLock _ _ _, false => g.quit i
  | .closeLock _, false => g.quit i
  | .unlinkLock path .stale, true => g.addRemoval i .stale (w.locks path) w.now
  | .unlinkLock path .release, true => (g.addRemoval i .release (w.locks path) w.now).quit i
  | .unlinkLock _ .release, false => g.quit i
  | _, _ => g

end LockHistory

/-- The host with the history of its lock files. -/
@[reducible]
def lockHost : Machine Op Ans (World × LockHistory) ℕ :=
  host.instrument LockHistory.after

namespace Auth

/-- A process that takes the lock and gives it back. How long it keeps it is up to the
scheduler. -/
def withFileLock (passes : ℕ) (path : Loc) (options : FileLockOptions) : Auth Unit := do
  let lock ← acquireFileLock passes path options
  lock.release

end Auth

/-! ### What is known of a file -/

open Auth (LockOp)

variable {path : Loc}

/-- The times in a file are not before its creation, which is past. -/
structure LockFile.Dated (file : LockFile) (now : ℕ) : Prop where
  created : file.createdAt ≤ now
  acquired : ∀ t, file.acquiredAt = some t → file.createdAt ≤ t
  modified : file.createdAt ≤ file.mtime

theorem LockFile.Dated.later {file : LockFile} {now now' : ℕ} (h : file.Dated now)
    (hle : now ≤ now') :
  file.Dated now'
  := ⟨Nat.le_trans h.created hle, h.acquired, h.modified⟩

/-- The files which are at the path, or which a process has seen or holds. -/
def KnownFile (path : Loc) (w : World × LockHistory) (file : LockFile) : Prop :=
  w.1.locks path = some file ∨ (∃ i, w.2.seen i = some file) ∨ ∃ i, (i, file) ∈ w.2.holders

/-- The inode of a file determines who created it and when. -/
structure Coherent (path : Loc) (w : World × LockHistory) : Prop where
  fresh : ∀ file, KnownFile path w file → file.inode < w.1.nextInode
  dated : ∀ file, KnownFile path w file → file.Dated w.1.now
  same : ∀ file file', KnownFile path w file → KnownFile path w file' →
    file.inode = file'.inode → file.creator = file'.creator ∧ file.createdAt = file'.createdAt
  own : ∀ i file, (i, file) ∈ w.2.holders → file.creator = i

theorem Coherent.mono {w w' : World × LockHistory} (h : Coherent path w)
    (hknown : ∀ file, KnownFile path w' file → KnownFile path w file)
    (hinode : w.1.nextInode ≤ w'.1.nextInode) (hnow : w.1.now ≤ w'.1.now)
    (hown : ∀ i file, (i, file) ∈ w'.2.holders → (i, file) ∈ w.2.holders) :
  Coherent path w'
  := by
  constructor
  · intro file hf
    apply Nat.lt_of_lt_of_le (h.fresh file (hknown file hf)) hinode
  · intro file hf
    apply (h.dated file (hknown file hf)).later hnow
  · intro file file' hf hf'
    apply h.same file file' (hknown file hf) (hknown file' hf')
  · intro i file hf
    apply h.own i file (hown i file hf)

/-- A file becomes known that was not, or that replaces one with its inode. -/
theorem Coherent.extend {w w' : World × LockHistory} (h : Coherent path w) (new : LockFile)
    (hknown : ∀ file, KnownFile path w' file → file = new ∨ KnownFile path w file)
    (hinode : w.1.nextInode ≤ w'.1.nextInode) (hnow : w.1.now ≤ w'.1.now)
    (hown : ∀ i file, (i, file) ∈ w'.2.holders → (i, file) ∈ w.2.holders ∨
      file = new ∧ new.creator = i)
    (hfresh : new.inode < w'.1.nextInode) (hdated : new.Dated w'.1.now)
    (hsame : ∀ file, KnownFile path w file → file.inode = new.inode →
      file.creator = new.creator ∧ file.createdAt = new.createdAt) :
  Coherent path w'
  := by
  constructor
  · intro file hf
    obtain rfl | hf := hknown file hf
    · apply hfresh
    · apply Nat.lt_of_lt_of_le (h.fresh file hf) hinode
  · intro file hf
    obtain rfl | hf := hknown file hf
    · apply hdated
    · apply (h.dated file hf).later hnow
  · intro file file' hf hf' heq
    obtain rfl | hf := hknown file hf
    · obtain rfl | hf' := hknown file' hf'
      · exact ⟨rfl, rfl⟩
      · obtain ⟨hc, ht⟩ := hsame file' hf' heq.symm
        exact ⟨hc.symm, ht.symm⟩
    · obtain rfl | hf' := hknown file' hf'
      · apply hsame file hf heq
      · apply h.same file file' hf hf' heq
  · intro i file hf
    obtain hf | ⟨rfl, hi⟩ := hown i file hf
    · apply h.own i file hf
    · apply hi

/-! ### What the program knows before an operation -/

/-- The process could not tell the age of a file, or it saw one older than `staleMs`. -/
def Judged (staleMs i : ℕ) (w : World × LockHistory) : Prop :=
  ∀ file, w.2.seen i = some file → file.createdAt + staleMs < w.1.now

/-- What a process knows before an operation of `acquireFileLock` and of its `release`. -/
def Ready (staleMs : ℕ) (i : ℕ) (w : World × LockHistory) : Op → Prop
  | .writeLock _ inode acquiredAt =>
      ∃ file, (i, file) ∈ w.2.holders ∧ file.inode = inode ∧ file.createdAt ≤ acquiredAt
  | .unlinkLock _ .stale => Judged staleMs i w
  | .unlinkLock _ .release => ∃ file, (i, file) ∈ w.2.holders
  | _ => True

/-- Nothing is known of the lock, and a file that lies at its path is older than the run. -/
structure LockStart (path : Loc) (w : World × LockHistory) : Prop where
  history : w.2 = .empty
  fresh : ∀ file, w.1.locks path = some file → file.inode < w.1.nextInode
  dated : ∀ file, w.1.locks path = some file → file.Dated w.1.now

theorem LockStart.coherent {w : World × LockHistory} (h : LockStart path w) :
  Coherent path w
  := by
  have hknown : ∀ file, KnownFile path w file → w.1.locks path = some file := by
    rintro file (hf | ⟨i, hi⟩ | ⟨i, hi⟩)
    · apply hf
    · rw [h.history] at hi
      cases hi
    · rw [h.history] at hi
      cases hi
  constructor
  · exact fun file hf => h.fresh file (hknown file hf)
  · exact fun file hf => h.dated file (hknown file hf)
  · intro file file' hf hf' _
    obtain rfl := Option.some.inj ((hknown file hf).symm.trans (hknown file' hf'))
    exact ⟨rfl, rfl⟩
  · intro i file hi
    rw [h.history] at hi
    cases hi

/-! ### The steps of the lock -/

theorem knownFile_setLock {w : World × LockHistory} {file : LockFile} {f : Option LockFile}
    {g : LockHistory} (h : KnownFile path (w.1.setLock path f, g) file) :
  f = some file ∨ (∃ i, g.seen i = some file) ∨ ∃ i, (i, file) ∈ g.holders
  := by
  simpa [KnownFile, World.setLock] using h

theorem Coherent.see {w : World × LockHistory} (h : Coherent path w) (i : ℕ)
    (file : Option LockFile) (hfile : file = w.1.locks path ∨ file = none) :
  Coherent path (w.1, w.2.see i file)
  := by
  apply h.mono
  · rintro f (hf | ⟨j, hj⟩ | hf)
    · left
      apply hf
    · simp only [LockHistory.see] at hj
      by_cases hij : j = i
      · subst hij
        rw [Function.update_self] at hj
        obtain rfl | rfl := hfile
        · left
          apply hj
        · cases hj
      · right; left
        use j
        rwa [Function.update_of_ne hij] at hj
    · right; right
      apply hf
  · apply Nat.le_refl
  · apply Nat.le_refl
  · exact fun _ _ hf => hf

theorem LockHistory.mem_quit {g : LockHistory} {i j : ℕ} {file : LockFile} :
  (j, file) ∈ (g.quit i).holders ↔ (j, file) ∈ g.holders ∧ j ≠ i
  := by
  simp [LockHistory.quit]

theorem Coherent.quit {w : World × LockHistory} (h : Coherent path w) (i : ℕ) :
  Coherent path (w.1, w.2.quit i)
  := by
  apply h.mono
  · rintro f (hf | hf | ⟨j, hj⟩)
    · left
      apply hf
    · right; left
      apply hf
    · right; right
      use j
      apply (LockHistory.mem_quit.mp hj).1
  · apply Nat.le_refl
  · apply Nat.le_refl
  · exact fun _ _ hf => (LockHistory.mem_quit.mp hf).1

theorem Coherent.addRemoval {w : World × LockHistory} (h : Coherent path w) (i : ℕ)
    (reason : UnlinkReason) (file : Option LockFile) (time : ℕ) :
  Coherent path (w.1, w.2.addRemoval i reason file time)
  := by
  apply h.mono
  · exact fun _ hf => hf
  · apply Nat.le_refl
  · apply Nat.le_refl
  · exact fun _ _ hf => hf

theorem Coherent.unlink {w : World × LockHistory} (h : Coherent path w) :
  Coherent path (w.1.setLock path none, w.2)
  := by
  apply h.mono
  · intro f hf
    obtain hf | hf := knownFile_setLock hf
    · cases hf
    · right
      apply hf
  · apply Nat.le_refl
  · apply Nat.le_refl
  · exact fun _ _ hf => hf

theorem Coherent.create {w : World × LockHistory} (h : Coherent path w) (i : ℕ) :
  Coherent path
    (w.1.createLock i path w.1.nextInode, w.2.hold i (w.1.createdFile i w.1.nextInode))
  := by
  apply h.extend (w.1.createdFile i w.1.nextInode)
  · rintro f (hf | hf | ⟨j, hj⟩)
    · left
      simp only [World.createLock, World.setLock, Function.update_self, Option.some.injEq] at hf
      apply hf.symm
    · right; right; left
      apply hf
    · obtain heq | hj := List.mem_cons.mp hj
      · left
        apply (Prod.mk.inj heq).2
      · right; right; right
        use j
  · simp [World.createLock]
  · apply Nat.le_refl
  · intro j f hj
    obtain heq | hj := List.mem_cons.mp hj
    · obtain ⟨rfl, rfl⟩ := Prod.mk.inj heq
      right
      exact ⟨rfl, rfl⟩
    · left
      apply hj
  · simp [World.createLock, World.createdFile]
  · constructor
    · apply Nat.le_refl
    · rintro t ⟨⟩
    · apply Nat.le_refl
  · intro f hf heq
    have hlt := h.fresh f hf
    simp only [World.createdFile] at heq
    omega

theorem Coherent.write {w : World × LockHistory} (h : Coherent path w) (inode acquiredAt : ℕ)
    (hholder : ∃ i file, (i, file) ∈ w.2.holders ∧ file.inode = inode ∧
      file.createdAt ≤ acquiredAt) :
  Coherent path (w.1.writeLock path inode acquiredAt, w.2)
  := by
  obtain ⟨i, file, hi, rfl, hle⟩ := hholder
  have hfile : KnownFile path w file := Or.inr (Or.inr ⟨i, hi⟩)
  unfold World.writeLock
  split
  · apply h
  · next f hf =>
      have hknown : KnownFile path w f := Or.inl hf
      split
      · next heq =>
          obtain ⟨-, hcreated⟩ := h.same f file hknown hfile heq
          have hdated := h.dated f hknown
          apply h.extend { f with acquiredAt := some acquiredAt, mtime := w.1.now }
          · intro f' hf'
            obtain hf' | hf' := knownFile_setLock hf'
            · left
              apply (Option.some.inj hf').symm
            · right; right
              apply hf'
          · apply Nat.le_refl
          · apply Nat.le_refl
          · intro j f' hf'
            left
            apply hf'
          · apply h.fresh f hknown
          · constructor
            · apply hdated.created
            · rintro t ⟨⟩
              simpa [hcreated] using hle
            · apply hdated.created
          · intro f' hf' heq'
            apply h.same f' f hf' hknown heq'
      · apply h

/-- Every step of a process that is ready for it keeps what is known of the files. -/
theorem Coherent.step {w : World × LockHistory} (h : Coherent path w) {staleMs i : ℕ} {o : Op}
    (ho : LockOp path o) (a : Ans o) (ha : lockHost.allows i w o a)
    (hready : Ready staleMs i w o) :
  Coherent path (lockHost.post i w o a)
  := by
  cases o with
  | now => apply h
  | sleepUntil t => apply h
  | mkdirLocks p => apply h
  | openLock p =>
      subst ho
      cases a with
      | created inode =>
          obtain ⟨-, rfl⟩ := ha
          apply h.create
      | «exists» => apply h
      | failed => apply h
  | writeLock p inode acquiredAt =>
      subst ho
      cases a with
      | true => apply h.write inode acquiredAt ⟨i, hready⟩
      | false => apply h.quit
  | closeLock inode =>
      cases a with
      | true => apply h
      | false => apply h.quit
  | readLock p =>
      subst ho
      cases a with
      | missing => apply h
      | failed => apply h
      | content c => apply h.see i _ (.inl rfl)
  | statLock p =>
      subst ho
      cases a with
      | missing => apply h
      | failed => apply h.see i _ (.inr rfl)
      | mtime t => apply h.see i _ (.inl rfl)
  | unlinkLock p reason =>
      subst ho
      cases reason with
      | stale =>
          cases a with
          | true => apply h.unlink.addRemoval
          | false => apply h
      | release =>
          cases a with
          | true => apply (h.unlink.addRemoval _ _ _ _).quit
          | false => apply h.quit
  | spin => cases a
  | _ => cases ho

/-! ### Processes that take the lock -/

/-- A condition on the steps of processes keeps an invariant of the runs of the lock. -/
def KeepsLockInvariant (path : Loc) (staleMs : ℕ)
    (C : ℕ → World × LockHistory → (o : Op) → Ans o → Prop)
    (I : World × LockHistory → Prop) : Prop :=
  ∀ i w o a, LockOp path o → Ready staleMs i w o → Coherent path w → I w →
    lockHost.allows i w o a → C i w o a → I (lockHost.post i w o a)

/-- Other processes leave alone what a process saw and which files it holds. -/
def lockDiscipline (path : Loc) (I : World × LockHistory → Prop) :
    Discipline (World × LockHistory) where
  Inv w := Coherent path w ∧ I w
  Rely i w w' := w.1.now ≤ w'.1.now ∧ w.2.seen i = w'.2.seen i ∧
    ∀ file, (i, file) ∈ w.2.holders → (i, file) ∈ w'.2.holders
  refl _ _ := ⟨Nat.le_refl _, rfl, fun _ h => h⟩
  trans h h' :=
    ⟨Nat.le_trans h.1 h'.1, h.2.1.trans h'.2.1, fun file hf => h'.2.2 file (h.2.2 file hf)⟩

section Processes

variable {staleMs : ℕ} {C : ℕ → World × LockHistory → (o : Op) → Ans o → Prop}
  {E : World × LockHistory → ℕ → Prop} {I : World × LockHistory → Prop} {i : ℕ}

theorem lockDiscipline_others {w : World × LockHistory} {o : Op} (ho : LockOp path o)
    (a : Ans o) (ha : lockHost.allows i w o a) {j : ℕ} (hj : j ≠ i) :
  (lockDiscipline path I).Rely j w (lockHost.post i w o a)
  := by
  cases o with
  | openLock p =>
      cases a with
      | created inode => exact ⟨Nat.le_refl _, rfl, fun file hf => List.mem_cons_of_mem _ hf⟩
      | «exists» => apply Discipline.refl
      | failed => apply Discipline.refl
  | writeLock p inode acquiredAt =>
      cases a with
      | true =>
          refine ⟨?_, rfl, fun file hf => hf⟩
          apply Nat.le_of_eq
          simp only [Machine.instrument, host, hostPost, World.writeLock]
          split
          · rfl
          · split <;> rfl
      | false => exact ⟨Nat.le_refl _, rfl, fun file hf => LockHistory.mem_quit.mpr ⟨hf, hj⟩⟩
  | closeLock inode =>
      cases a with
      | true => apply Discipline.refl
      | false => exact ⟨Nat.le_refl _, rfl, fun file hf => LockHistory.mem_quit.mpr ⟨hf, hj⟩⟩
  | readLock p =>
      cases a with
      | missing => apply Discipline.refl
      | failed => apply Discipline.refl
      | content c =>
          exact ⟨Nat.le_refl _, (Function.update_of_ne hj _ _).symm, fun file hf => hf⟩
  | statLock p =>
      cases a with
      | missing => apply Discipline.refl
      | failed => exact ⟨Nat.le_refl _, (Function.update_of_ne hj _ _).symm, fun file hf => hf⟩
      | mtime t => exact ⟨Nat.le_refl _, (Function.update_of_ne hj _ _).symm, fun file hf => hf⟩
  | unlinkLock p reason =>
      cases reason with
      | stale =>
          cases a with
          | true => exact ⟨Nat.le_refl _, rfl, fun file hf => hf⟩
          | false => apply Discipline.refl
      | release =>
          cases a with
          | true => exact ⟨Nat.le_refl _, rfl, fun file hf => LockHistory.mem_quit.mpr ⟨hf, hj⟩⟩
          | false => exact ⟨Nat.le_refl _, rfl, fun file hf => LockHistory.mem_quit.mpr ⟨hf, hj⟩⟩
  | spin => cases a
  | now => apply Discipline.refl
  | sleepUntil t => apply Discipline.refl
  | mkdirLocks p => apply Discipline.refl
  | _ => cases ho

theorem lockDiscipline_keeps (hI : KeepsLockInvariant path staleMs C I)
    {w : World × LockHistory} {o : Op} (ho : LockOp path o) (a : Ans o)
    (hw : (lockDiscipline path I).Inv w) (ha : (lockHost.restrict C E).allows i w o a)
    (hready : Ready staleMs i w o) :
  (lockDiscipline path I).Keeps i w (lockHost.post i w o a)
  := by
  constructor
  · constructor
    · apply hw.1.step ho a ha.1 hready
    · apply hI i w o a ho hready hw.1 hw.2 ha.1 ha.2
  · intro j hj
    apply lockDiscipline_others ho a ha.1 hj

theorem stable_judged :
  (lockDiscipline path I).Stable i (Judged staleMs i)
  := by
  rintro w w' - - ⟨hnow, hseen, -⟩ hj file hfile
  have hlt := hj file (hseen.trans hfile)
  omega

/-- A process is ready for an operation that needs nothing. -/
theorem triple_lockOp (hI : KeepsLockInvariant path staleMs C I) {o : Op}
    (ho : LockOp path o) (hready : ∀ w, Ready staleMs i w o) {α : Type} {f : Ans o → Auth α}
    {P : World × LockHistory → Prop} {Q : Except AuthError α → World × LockHistory → Prop}
    {R : Ans o → World × LockHistory → Prop} (hP : (lockDiscipline path I).Stable i P)
    (hR : ∀ w a, Coherent path w → P w → hostAllows w.1 o a → R a (lockHost.post i w o a))
    (hf : ∀ a, (lockDiscipline path I).Triple (lockHost.restrict C E) i (R a) (f a) Q) :
  (lockDiscipline path I).Triple (lockHost.restrict C E) i P ((Program.perform o).bind f) Q
  := by
  apply Discipline.Triple.perform_bind hP _ hf
  intro w a hw hPw ha
  constructor
  · apply lockDiscipline_keeps hI ho a hw ha (hready w)
  · apply hR w a hw.1 hPw ha.1

/-- What is known of the age of a lock file. -/
def AgeJudged (staleMs i : ℕ) :
    Except AuthError (Option Auth.LockAge) → World × LockHistory → Prop
  | .ok (some age), w => age.exceeds staleMs = true → Judged staleMs i w
  | .ok none, _ => True
  | .error _, _ => False

/-- The age computed from a time that is not before the creation of the file. -/
theorem triple_ageFrom (hI : KeepsLockInvariant path staleMs C I) (t : ℕ) :
  (lockDiscipline path I).Triple (lockHost.restrict C E) i
    (fun w => ∀ file, w.2.seen i = some file → file.createdAt ≤ t)
    (do
      let now ← Auth.now
      pure (some (Auth.LockAge.ms (now - t))))
    (AgeJudged staleMs i)
  := by
  apply triple_lockOp (o := .now) hI trivial (fun _ => trivial)
    (R := fun (now : ℕ) w => now = w.1.now ∧
      ∀ file, w.2.seen i = some file → file.createdAt ≤ t)
  · rintro w w' - - ⟨-, hseen, -⟩ hw file hfile
    apply hw file (hseen.trans hfile)
  · intro w now _ hw hnow
    exact ⟨hnow, hw⟩
  · intro now
    apply Discipline.Triple.done
    rintro w - ⟨rfl, hw⟩ hexceeds file hfile
    have hle := hw file hfile
    simp only [Auth.LockAge.exceeds, decide_eq_true_eq] at hexceeds
    omega

/-- What is known of the file whose modification time has been read. -/
def StatKnown (i : ℕ) : StatResult → World × LockHistory → Prop
  | .missing, _ => True
  | .failed, w => w.2.seen i = none
  | .mtime t, w => ∀ file, w.2.seen i = some file → file.createdAt ≤ t

theorem triple_lockAgeFromStat (hI : KeepsLockInvariant path staleMs C I) :
  (lockDiscipline path I).Triple (lockHost.restrict C E) i (fun _ => True)
    (Auth.lockAgeFromStat path) (AgeJudged staleMs i)
  := by
  apply triple_lockOp (o := .statLock path) hI rfl (fun _ => trivial)
    (Discipline.Stable.const True)
    (R := StatKnown i)
  · intro w a hw _ ha
    cases a with
    | missing => trivial
    | failed => apply Function.update_self
    | mtime t =>
        intro file hfile
        obtain ⟨f, hf, rfl⟩ := Option.map_eq_some_iff.mp ha
        have hseen : w.1.locks path = some file := LockHistory.seen_see.symm.trans hfile
        obtain rfl := Option.some.inj (hf.symm.trans hseen)
        apply (hw.dated f (.inl hf)).modified
  · intro a
    cases a with
    | missing => apply Discipline.Triple.done (fun _ _ _ => trivial)
    | failed =>
        apply Discipline.Triple.done
        intro w _ hw _ file hfile
        rw [hw] at hfile
        cases hfile
    | mtime t => apply triple_ageFrom hI

/-- What is known of the file whose payload has been read. -/
def ReadKnown (i : ℕ) : ReadResult → World × LockHistory → Prop
  | .content (some t), w => ∀ file, w.2.seen i = some file → file.createdAt ≤ t
  | _, _ => True

theorem triple_lockAgeMs (hI : KeepsLockInvariant path staleMs C I) :
  (lockDiscipline path I).Triple (lockHost.restrict C E) i (fun _ => True)
    (Auth.lockAgeMs path) (AgeJudged staleMs i)
  := by
  apply triple_lockOp (o := .readLock path) hI rfl (fun _ => trivial)
    (Discipline.Stable.const True)
    (R := ReadKnown i)
  · intro w a hw _ ha
    cases a with
    | missing => trivial
    | failed => trivial
    | content c =>
        cases c with
        | none => trivial
        | some t =>
            intro file hfile
            obtain ⟨f, hf, ht⟩ := Option.map_eq_some_iff.mp ha
            have hseen : w.1.locks path = some file := LockHistory.seen_see.symm.trans hfile
            obtain rfl := Option.some.inj (hf.symm.trans hseen)
            apply (hw.dated f (.inl hf)).acquired t ht
  · intro a
    cases a with
    | missing => apply Discipline.Triple.done (fun _ _ _ => trivial)
    | failed => apply (triple_lockAgeFromStat hI).weaken (fun _ _ _ => trivial)
    | content c =>
        cases c with
        | none => apply (triple_lockAgeFromStat hI).weaken (fun _ _ _ => trivial)
        | some t => apply triple_ageFrom hI

/-! ### The loop -/

/-- The process holds a file with the inode. -/
def HoldsInode (i inode : ℕ) (w : World × LockHistory) : Prop :=
  ∃ file, (i, file) ∈ w.2.holders ∧ file.inode = inode

/-- What is known after an exclusive create. -/
def OpenKnown (i : ℕ) : OpenResult → World × LockHistory → Prop
  | .created inode, w => HoldsInode i inode w
  | _, _ => True

theorem stable_holdsInode {inode : ℕ} :
  (lockDiscipline path I).Stable i (HoldsInode i inode)
  := by
  rintro w w' - - ⟨-, -, hkeep⟩ ⟨file, hf, hinode⟩
  use file, hkeep file hf, hinode

/-- A lock that was not taken has nothing to release, one that was taken is held. -/
def LockTaken (path : Loc) (i : ℕ) : Except AuthError Auth.FileLock → World × LockHistory → Prop
  | .ok lock, w =>
      (lock.release = .done () ∨
        lock.release = Auth.releaseLock path ∧ ∃ inode, HoldsInode i inode w)
  | .error _, _ => False

theorem triple_unavailable (reason : LockUnavailable) {P : World × LockHistory → Prop} :
  (lockDiscipline path I).Triple (lockHost.restrict C E) i P
    (.done (Auth.unavailable reason)) (LockTaken path i)
  := Discipline.Triple.done fun _ _ _ => .inl rfl

theorem triple_writePayload (hI : KeepsLockInvariant path staleMs C I) (inode : ℕ) :
  (lockDiscipline path I).Triple (lockHost.restrict C E) i (HoldsInode i inode)
    (Auth.writePayload path inode) (LockTaken path i)
  := by
  apply triple_lockOp (o := .now) hI trivial (fun _ => trivial) stable_holdsInode
    (R := fun (t : ℕ) w =>
      ∃ file, (i, file) ∈ w.2.holders ∧ file.inode = inode ∧ file.createdAt ≤ t)
  · rintro w t hw ⟨file, hf, hinode⟩ rfl
    use file, hf, hinode
    apply (hw.dated file (.inr (.inr ⟨i, hf⟩))).created
  · intro acquiredAt
    apply Discipline.Triple.perform_bind (o := Op.writeLock path inode acquiredAt)
      (R := fun (written : Bool) w => written = true → HoldsInode i inode w)
    · rintro w w' - - ⟨-, -, hkeep⟩ ⟨file, hf, hrest⟩
      use file, hkeep file hf
    · intro w written hw hready ha
      constructor
      · apply lockDiscipline_keeps (o := .writeLock path inode acquiredAt) hI rfl written hw ha
          hready
      · rintro rfl
        obtain ⟨file, hf, hinode, -⟩ := hready
        use file, hf
    · intro written
      apply triple_lockOp (o := .closeLock inode) hI trivial (fun _ => trivial)
        stable_holdsInode.imp
        (R := fun (closed : Bool) w => written && closed → HoldsInode i inode w)
      · intro w closed _ hholds _ hboth
        obtain ⟨rfl, rfl⟩ := Bool.and_eq_true_iff.mp hboth
        apply hholds rfl
      · intro closed
        cases hboth : written && closed with
        | false => apply triple_unavailable
        | true =>
            apply Discipline.Triple.done
            intro w _ hholds
            right
            exact ⟨rfl, inode, hholds rfl⟩

/-- The clock is read, whatever comes of it. -/
theorem triple_now (hI : KeepsLockInvariant path staleMs C I) {α : Type} {f : ℕ → Auth α}
    {Q : Except AuthError α → World × LockHistory → Prop}
    (hf : ∀ t, (lockDiscipline path I).Triple (lockHost.restrict C E) i (fun _ => True) (f t) Q) :
  (lockDiscipline path I).Triple (lockHost.restrict C E) i (fun _ => True) (Auth.now.bind f) Q
  := triple_lockOp (o := .now) hI trivial (fun _ => trivial) (Discipline.Stable.const True)
    (fun _ _ _ _ _ => trivial) hf

theorem triple_sleep (hI : KeepsLockInvariant path staleMs C I) (ms : ℕ) {α : Type}
    {p : Auth α} {Q : Except AuthError α → World × LockHistory → Prop}
    (hp : (lockDiscipline path I).Triple (lockHost.restrict C E) i (fun _ => True) p Q) :
  (lockDiscipline path I).Triple (lockHost.restrict C E) i (fun _ => True)
    ((Auth.sleep ms).bind fun _ => p) Q
  := by
  apply triple_now hI
  intro start
  apply triple_lockOp (o := .sleepUntil (start + ms)) hI trivial (fun _ => trivial)
    (Discipline.Stable.const True) (R := fun _ _ => True) (fun _ _ _ _ _ => trivial)
  exact fun _ => hp

theorem triple_acquireLoop (hI : KeepsLockInvariant path staleMs C I)
    (passes pollIntervalMs deadline : ℕ) :
  (lockDiscipline path I).Triple (lockHost.restrict C E) i (fun _ => True)
    (Auth.acquireLoop passes path staleMs pollIntervalMs deadline) (LockTaken path i)
  := by
  induction passes with
  | zero =>
      apply triple_lockOp (o := .spin) hI trivial (fun _ => trivial)
        (Discipline.Stable.const True) (R := fun _ _ => True) (fun _ _ _ _ _ => trivial)
      intro a
      cases a
  | succ passes ih =>
      -- After a pass that has not ended the loop: the deadline, then another pass.
      have hagain : ∀ again : Auth Auth.FileLock,
          (lockDiscipline path I).Triple (lockHost.restrict C E) i (fun _ => True) again
            (LockTaken path i) →
          (lockDiscipline path I).Triple (lockHost.restrict C E) i (fun _ => True)
            (Auth.now.bind fun t =>
              if deadline ≤ t then .done (Auth.unavailable .timeout) else again)
            (LockTaken path i) := by
        intro again h
        apply triple_now hI
        intro t
        split
        · apply triple_unavailable
        · apply h
      apply triple_lockOp (o := .openLock path) hI rfl (fun _ => trivial)
        (Discipline.Stable.const True)
        (R := OpenKnown i)
      · intro w a _ _ _
        cases a with
        | created inode => exact ⟨_, List.mem_cons_self, rfl⟩
        | «exists» => trivial
        | failed => trivial
      · intro a
        cases a with
        | created inode => apply triple_writePayload hI
        | failed => apply triple_unavailable
        | «exists» =>
            apply Discipline.Triple.bind (triple_lockAgeMs hI)
            · intro age
              cases age with
              | none =>
                  apply (hagain _ ih).weaken
                  exact fun _ _ _ => trivial
              | some age =>
                  cases hexceeds : age.exceeds staleMs with
                  | false =>
                      simp only [hexceeds, Bool.false_eq_true, if_false]
                      apply (hagain _ (triple_sleep hI pollIntervalMs ih)).weaken
                      exact fun _ _ _ => trivial
                  | true =>
                      simp only [hexceeds, if_true]
                      apply Discipline.Triple.perform_bind (o := Op.unlinkLock path .stale)
                        (R := fun _ _ => True)
                      · apply Discipline.Stable.imp stable_judged
                      · intro w removed hw hjudged ha
                        constructor
                        · apply lockDiscipline_keeps (o := .unlinkLock path .stale) hI rfl
                            removed hw ha (hjudged hexceeds)
                        · trivial
                      · intro removed
                        cases removed with
                        | true => apply hagain _ ih
                        | false => apply hagain _ (triple_sleep hI pollIntervalMs ih)
            · exact fun _ _ _ h => h.elim

/-- A condition that keeps an invariant for a shorter delay keeps it for a longer one. -/
theorem KeepsLockInvariant.mono {longer : ℕ} (hI : KeepsLockInvariant path staleMs C I)
    (hle : staleMs ≤ longer) :
  KeepsLockInvariant path longer C I
  := by
  intro i w o a ho hready
  apply hI i w o a ho
  cases o with
  | unlinkLock p reason =>
      cases reason with
      | stale =>
          intro file hfile
          have hlt := hready file hfile
          omega
      | release => apply hready
  | _ => apply hready

theorem triple_releaseLock (hI : KeepsLockInvariant path staleMs C I) {inode : ℕ} :
  (lockDiscipline path I).Triple (lockHost.restrict C E) i (HoldsInode i inode)
    (Auth.releaseLock path) (fun _ _ => True)
  := by
  apply Discipline.Triple.perform_bind (o := Op.unlinkLock path .release) (R := fun _ _ => True)
    stable_holdsInode
  · rintro w removed hw ⟨file, hf, -⟩ ha
    constructor
    · apply lockDiscipline_keeps (o := .unlinkLock path .release) hI rfl removed hw ha
      use file
    · trivial
  · intro _
    apply Discipline.Triple.done (fun _ _ _ => trivial)

theorem triple_withFileLock (hI : KeepsLockInvariant path staleMs C I) (passes : ℕ)
    (options : Auth.FileLockOptions)
    (hstale : staleMs ≤ Auth.positiveOr options.staleMs Auth.DEFAULT_LOCK_STALE_MS) :
  (lockDiscipline path I).Triple (lockHost.restrict C E) i (fun _ => True)
    (Auth.withFileLock passes path options) (fun _ _ => True)
  := by
  have hI' := hI.mono hstale
  have hloop : (lockDiscipline path I).Triple (lockHost.restrict C E) i (fun _ => True)
      (Auth.acquireFileLock passes path options) (LockTaken path i) := by
    apply triple_now hI'
    intro start
    apply triple_lockOp (o := .mkdirLocks path) hI' trivial (fun _ => trivial)
      (Discipline.Stable.const True) (R := fun _ _ => True) (fun _ _ _ _ _ => trivial)
    intro created
    cases created with
    | true => apply triple_acquireLoop hI'
    | false => apply triple_unavailable
  apply Discipline.Triple.bind hloop
  · intro lock w hw htaken
    obtain hnone | ⟨hrelease, inode, hholds⟩ := htaken
    · rw [hnone]
      trivial
    · rw [hrelease]
      apply triple_releaseLock hI w hw hholds
  · exact fun _ _ _ h => h.elim

/-- In every run of processes that take the lock, a condition on their steps that keeps an
invariant keeps it. -/
theorem lockInvariant_of_run (hI : KeepsLockInvariant path staleMs C I)
    (htick : ∀ (w : World) (g : LockHistory) (ms : ℕ), I (w, g) →
      I ({ w with now := w.now + ms }, g))
    {passes : ℕ → ℕ} {options : ℕ → Auth.FileLockOptions}
    (hstale : ∀ i,
      staleMs ≤ Auth.positiveOr (options i).staleMs Auth.DEFAULT_LOCK_STALE_MS)
    {c c' : Config Op Ans AuthError Unit (World × LockHistory)}
    (hpool : ∀ i, c.pool i = Auth.withFileLock (passes i) path (options i))
    (hcoherent : Coherent path c.world) (hc : I c.world)
    (hrun : (lockHost.restrict C E).Run c c') :
  Coherent path c'.world ∧ I c'.world
  := by
  have htriple : ∀ i, (lockDiscipline path I).Triple (lockHost.restrict C E) i (fun _ => True)
      (c.pool i) (fun _ _ => True) := by
    intro i
    rw [hpool i]
    apply triple_withFileLock hI (passes i) (options i) (hstale i)
  have henv : ∀ w ms, (lockDiscipline path I).Inv w → (lockHost.restrict C E).envAllows w ms →
      (lockDiscipline path I).Inv ((lockHost.restrict C E).envPost w ms) ∧
        ∀ i, (lockDiscipline path I).Rely i w ((lockHost.restrict C E).envPost w ms) := by
    rintro ⟨w, g⟩ ms ⟨hcoh, hIw⟩ -
    constructor
    · constructor
      · apply hcoh.mono
        · exact fun _ h => h
        · apply Nat.le_refl
        · apply Nat.le_add_right
        · exact fun _ _ h => h
      · apply htick w g ms hIw
    · intro i
      exact ⟨Nat.le_add_right _ _, rfl, fun _ h => h⟩
  have hsettled := Discipline.settled_of_run htriple
    (fun _ _ => Discipline.Stable.const True) henv ⟨hcoherent, hc⟩ (fun _ => trivial) hrun
  apply hsettled.1

end Processes

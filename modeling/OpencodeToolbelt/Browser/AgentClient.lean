import OpencodeToolbelt.Async.EventSystem
import OpencodeToolbelt.Data.JsMap
import OpencodeToolbelt.Data.WebSocket
import Mathlib.Algebra.Order.Ring.Unbundled.Rat

/-!
# The client of an agent

A client sends the commands of its agent over a connection to the broker of another process. A
command first waits until the connection is ready, and then for its result.
-/

namespace Browser

/-- How the promise of a call of `send` has been settled. -/
inductive SendOutcome where
  | resolved
  | rejected (code : Option String)
  deriving DecidableEq

/-- Where a call of `send` is. -/
inductive SendStage where
  /-- It is among the `readyWaiters`. -/
  | waiting
  /-- The wait is over, and the call is about to go on. -/
  | going
  /-- It is among the `pending`. -/
  | pending
  | over
  deriving DecidableEq

/-- A call of `send`. -/
structure AgentSend where
  stage : SendStage
  /-- Whether its signal has been aborted, if it has one. -/
  aborted : Option Bool
  /-- The delay of its timer; there is none for zero. -/
  localTimeout : ℚ
  outcomes : List SendOutcome

/-- The state of a client, with its connections and the calls of `send`. -/
structure AgentClient where
  socket : Option ℕ
  ready : Bool
  closed : Bool
  connections : JsMap ℕ SocketState
  connectionSeq : ℕ
  sends : JsMap ℕ AgentSend
  sendSeq : ℕ
  /-- A socket has closed, or `stop` has been called. -/
  ended : Bool

inductive AgentClientEvent where
  | connect
  | stop
  /-- `send` is called, with a signal or without. -/
  | send (aborted : Option Bool) (timeoutMs : Option ℚ)
  /-- A call goes on after its wait. The socket may throw. -/
  | goOn (call : ℕ) (throws : Bool)
  | abort (call : ℕ)
  | timeout (call : ℕ)
  | socketOpen (connection : ℕ)
  | ready (connection : ℕ)
  /-- The result of a command arrives. -/
  | result (connection call : ℕ) (outcome : SendOutcome)
  | socketClose (connection : ℕ)

namespace AgentSend

/-- The promise of a call is settled. -/
def settle (outcome : SendOutcome) (c : AgentSend) : AgentSend :=
  { c with stage := .over, outcomes := c.outcomes ++ [outcome] }

/-- The call, where `rejectAllPending` is called. -/
def rejectPending (outcome : SendOutcome) (c : AgentSend) : AgentSend :=
  if c.stage = .pending then c.settle outcome else c

/-- The call, where the `readyWaiters` are woken. -/
def wake (c : AgentSend) : AgentSend := if c.stage = .waiting then { c with stage := .going } else c

end AgentSend

namespace AgentClient

/-- The local timer comes after that of the broker. -/
def AGENT_TIMEOUT_GRACE_MS : ℚ := 5000

def initial : AgentClient where
  socket := none
  ready := false
  closed := false
  connections := .empty
  connectionSeq := 0
  sends := .empty
  sendSeq := 0
  ended := false

/-- The options of a client. -/
structure Options where
  timeoutMs : ℚ

def Options.localTimeout (options : Options) (timeoutMs : Option ℚ) : ℚ :=
  let requested := timeoutMs.getD options.timeoutMs
  if 0 < requested then requested + AGENT_TIMEOUT_GRACE_MS else 0

variable (options : Options) (s : AgentClient)

def setSend (call : ℕ) (c : AgentSend) : AgentClient := { s with sends := s.sends.set call c }

def rejectAllPending (code : String) : AgentClient :=
  { s with sends := s.sends.mapValues fun _ => AgentSend.rejectPending (.rejected (some code)) }

/-- A new call of `send`, up to its wait if there is one. -/
def enter (aborted : Option Bool) (timeoutMs : Option ℚ) : AgentSend :=
  let c : AgentSend :=
    { stage := .waiting, aborted, localTimeout := options.localTimeout timeoutMs, outcomes := [] }
  if aborted = some true then c.settle (.rejected (some "aborted"))
  else if s.ready then { c with stage := .going }
  else if s.closed ∨ s.socket = none then c.settle (.rejected (some "disconnected"))
  else c

def send (aborted : Option Bool) (timeoutMs : Option ℚ) : AgentClient :=
  { s.setSend s.sendSeq (s.enter options aborted timeoutMs) with sendSeq := s.sendSeq + 1 }

/-- A call goes on after its wait. -/
def goOn (call : ℕ) (c : AgentSend) (throws : Bool) : AgentClient :=
  if s.socket = none then s.setSend call (c.settle (.rejected (some "disconnected")))
  else if throws then s.setSend call (c.settle (.rejected (some "send_failed")))
  else s.setSend call { c with stage := .pending }

/-- The signal of a call is aborted. -/
def abort (call : ℕ) (c : AgentSend) : AgentClient :=
  let c := { c with aborted := some true }
  if c.stage = .waiting ∨ c.stage = .pending then
    s.setSend call (c.settle (.rejected (some "aborted")))
  else s.setSend call c

/-- The handler of a closed socket. -/
def onSocketClose (connection : ℕ) : AgentClient :=
  { { s with ready := false }.rejectAllPending "disconnected" with
    socket := none
    connections := s.connections.set connection .closed
    ended := true }

def stop : AgentClient :=
  { s.rejectAllPending "stopped" with
    closed := true
    connections := s.socket.elim s.connections fun x =>
      (s.connections.get x).elim s.connections fun socket => s.connections.set x socket.close
    socket := none
    ended := true }

/-- The state with what a call becomes, if there is such a call. -/
def withSend (call : ℕ) (f : AgentSend → AgentClient) : AgentClient := (s.sends.get call).elim s f

def handle : AgentClientEvent → AgentClient
  | .connect =>
      { s with
        socket := some s.connectionSeq
        connections := s.connections.set s.connectionSeq .connecting
        connectionSeq := s.connectionSeq + 1 }
  | .stop => s.stop
  | .send aborted timeoutMs => s.send options aborted timeoutMs
  | .goOn call throws => s.withSend call fun c => s.goOn call c throws
  | .abort call => s.withSend call (s.abort call)
  | .timeout call => s.withSend call fun c =>
      s.setSend call (c.settle (.rejected (some "timeout")))
  | .socketOpen x => { s with connections := s.connections.set x .open }
  | .ready _ => { s with ready := true, sends := s.sends.mapValues fun _ => AgentSend.wake }
  | .result _ call outcome => s.withSend call fun c =>
      if c.stage = .pending then s.setSend call (c.settle outcome) else s
  | .socketClose x => s.onSocketClose x

/-- A connection may still bring frames. -/
def alive (x : ℕ) : Bool := (s.connections.get x).any (· ≠ .closed)

/-- Which events may occur. -/
def enabled : AgentClientEvent → Bool
  | .goOn call _ => (s.sends.get call).any fun c => c.stage = .going
  | .abort call => (s.sends.get call).any fun c => c.aborted = some false
  | .timeout call => (s.sends.get call).any fun c => c.stage = .pending && 0 < c.localTimeout
  | .socketOpen x => s.connections.get x = some .connecting
  | .ready x => s.alive x
  | .result x _ _ => s.alive x
  | .socketClose x => s.alive x
  | _ => true

def system : EventSystem AgentClient AgentClientEvent where
  enabled s e := s.enabled e = true
  next s e := s.handle options e

instance (s : AgentClient) (e : AgentClientEvent) : Decidable ((system options).enabled s e) :=
  inferInstanceAs (Decidable (s.enabled e = true))

/-! ### Calls that are settled -/

/-- No promise is settled twice, and none is blocked once a socket has closed or `stop` has been
called. -/
structure Drained (s : AgentClient) : Prop where
  once : ∀ call c, s.sends.get call = some c → c.outcomes.length ≤ 1
  settled : s.ended = true → ∀ call c, s.sends.get call = some c →
    c.outcomes ≠ [] ∨ c.stage = .going

/-- No call is waiting for a connection. -/
def NoneWaiting (s : AgentClient) : Prop :=
  ∀ call c, s.sends.get call = some c → c.stage ≠ .waiting

instance : Decidable s.NoneWaiting :=
  decidable_of_iff (∀ record ∈ s.sends.entries, record.2.stage ≠ .waiting) (by
    simp only [NoneWaiting, JsMap.get_eq_some, Prod.forall])

/-- Whether an event leaves no call blocked: none is waiting when a socket closes or `stop` is
called, and from then on none finds a socket to be sent over. -/
def Sheltered (s : AgentClient) : AgentClientEvent → Prop
  | .socketClose _ => s.NoneWaiting
  | .stop => s.NoneWaiting
  | .send aborted _ => s.ended = true → aborted = some true ∨ s.ready = true ∨ s.closed = true ∨
      s.socket = none
  | .goOn _ throws => s.ended = true → s.socket = none ∨ throws = true
  | _ => True

instance (s : AgentClient) (e : AgentClientEvent) : Decidable (s.Sheltered e) := by
  cases e <;> unfold Sheltered <;> infer_instance

end AgentClient

/-! ### Steps -/

namespace AgentSend

/-- A call is over once its promise has been settled. -/
structure Tidy (c : AgentSend) : Prop where
  settled : c.stage = .over → c.outcomes.length = 1
  unsettled : c.stage ≠ .over → c.outcomes = []

variable {c : AgentSend}

theorem Tidy.ne_nil_iff (h : c.Tidy) :
  c.outcomes ≠ [] ↔ c.stage = .over
  := by
  constructor
  · intro hne
    by_contra hopen
    apply hne (h.unsettled hopen)
  · intro hover hnil
    have hlength := h.settled hover
    rw [hnil] at hlength
    cases hlength

theorem Tidy.once (h : c.Tidy) :
  c.outcomes.length ≤ 1
  := by
  by_cases hover : c.stage = .over
  · apply Nat.le_of_eq (h.settled hover)
  · rw [h.unsettled hover]
    apply Nat.zero_le

theorem Tidy.settle (h : c.Tidy) (hopen : c.stage ≠ .over) (outcome : SendOutcome) :
  (c.settle outcome).Tidy
  := by
  constructor
  · intro _
    rw [AgentSend.settle, h.unsettled hopen]
    rfl
  · intro hne
    cases hne rfl

theorem Tidy.of_stage (h : c.Tidy) (hopen : c.stage ≠ .over) {stage : SendStage}
    (hstage : stage ≠ .over) (aborted : Option Bool) :
  Tidy { c with stage, aborted }
  where
  settled hover := absurd hover hstage
  unsettled _ := h.unsettled hopen

theorem Tidy.rejectPending (h : c.Tidy) (outcome : SendOutcome) :
  (c.rejectPending outcome).Tidy
  := by
  unfold AgentSend.rejectPending
  split
  · next hpending =>
      apply h.settle
      rw [hpending]
      decide
  · apply h

theorem Tidy.wake (h : c.Tidy) :
  c.wake.Tidy
  := by
  unfold AgentSend.wake
  split
  · next hwaiting =>
      apply h.of_stage
      · rw [hwaiting]
        decide
      · decide
  · apply h

/-- A call that is over, or about to go on. -/
def Quiet (c : AgentSend) : Prop := c.stage = .over ∨ c.stage = .going

theorem quiet_rejectPending_iff (outcome : SendOutcome) :
  (c.rejectPending outcome).Quiet ↔ c.stage ≠ .waiting
  := by
  unfold AgentSend.rejectPending Quiet
  cases hstage : c.stage <;> simp [hstage, settle]

theorem quiet_wake (h : c.Quiet) :
  c.wake.Quiet
  := by
  unfold AgentSend.wake Quiet
  split
  · apply Or.inr rfl
  · apply h

end AgentSend

namespace AgentClient

variable {options : Options} {s : AgentClient}

/-- Every call has a property. -/
def All (s : AgentClient) (p : AgentSend → Prop) : Prop :=
  ∀ call c, s.sends.get call = some c → p c

theorem All.set {p : AgentSend → Prop} (h : s.All p) {call : ℕ} {c : AgentSend} (hc : p c) :
  (s.setSend call c).All p
  := by
  intro other c' hget
  change (s.sends.set call c).get other = some c' at hget
  rw [JsMap.get_set] at hget
  split at hget
  · rw [← Option.some.inj hget]
    apply hc
  · apply h other c' hget

/-- What all calls are after a change, the changed call is. -/
theorem All.of_set {p : AgentSend → Prop} {call : ℕ} {c : AgentSend}
    (h : (s.setSend call c).All p) :
  p c
  := by
  apply h call c
  apply JsMap.get_set_self

theorem all_mapValues_iff {s' : AgentClient} {f : AgentSend → AgentSend}
    (hs' : s'.sends = s.sends.mapValues fun _ => f) (p : AgentSend → Prop) :
  s'.All p ↔ s.All fun c => p (f c)
  := by
  constructor
  · intro h call c hget
    apply h call
    rw [hs', JsMap.get_mapValues, hget]
    rfl
  · intro h call c hget
    rw [hs', JsMap.get_mapValues] at hget
    obtain ⟨c, hold, rfl⟩ := Option.map_eq_some_iff.mp hget
    apply h call c hold

theorem drained_iff_quiet (h : s.All AgentSend.Tidy) :
  s.Drained ↔ (s.ended = true → s.All AgentSend.Quiet)
  := by
  constructor
  · intro hdrained hended call c hget
    rw [AgentSend.Quiet, ← (h call c hget).ne_nil_iff]
    apply hdrained.settled hended call c hget
  · intro hquiet
    constructor
    · intro call c hget
      apply (h call c hget).once
    · intro hended call c hget
      rw [(h call c hget).ne_nil_iff]
      apply hquiet hended call c hget

/-- Where no call is blocked, none is after a call has changed when this one is not. -/
theorem quiet_setSend_iff {call : ℕ} {c : AgentSend} (h : s.ended = true → s.All AgentSend.Quiet) :
  (s.ended = true → (s.setSend call c).All AgentSend.Quiet) ↔ (s.ended = true → c.Quiet)
  := by
  constructor
  · intro hset hended
    apply All.of_set (hset hended)
  · intro hc hended
    apply All.set (h hended) (hc hended)

/-! ### One event -/

theorem tidy_enter (aborted : Option Bool) (timeoutMs : Option ℚ) :
  (s.enter options aborted timeoutMs).Tidy
  := by
  simp only [enter]
  split_ifs
  · constructor <;> simp [AgentSend.settle]
  · constructor <;> simp
  · constructor <;> simp [AgentSend.settle]
  · constructor <;> simp

theorem quiet_enter_iff (aborted : Option Bool) (timeoutMs : Option ℚ) :
  (s.enter options aborted timeoutMs).Quiet
    ↔ aborted = some true ∨ s.ready = true ∨ s.closed = true ∨ s.socket = none
  := by
  simp only [enter, AgentSend.Quiet]
  split_ifs with haborted hready hclosed
  · simp [haborted, AgentSend.settle]
  · simp [hready]
  · simp [hclosed, AgentSend.settle]
  · simp [haborted, hready, hclosed]

/-- A change of one call, if there is such a call, keeps what it keeps of every call. -/
theorem withSend_keeps {p : AgentClient → Prop} {call : ℕ} {f : AgentSend → AgentClient}
    (hs : p s) (hf : ∀ c, s.sends.get call = some c → p (f c)) :
  p (s.withSend call f)
  := by
  unfold withSend
  cases hget : s.sends.get call with
  | none => apply hs
  | some c => apply hf c hget

theorem withSend_eq {call : ℕ} {f : AgentSend → AgentClient} {c : AgentSend}
    (hget : s.sends.get call = some c) :
  s.withSend call f = f c
  := by
  rw [withSend, hget]
  rfl

theorem all_tidy_handle {e : AgentClientEvent} (h : s.All AgentSend.Tidy)
    (he : s.enabled e = true) :
  (s.handle options e).All AgentSend.Tidy
  := by
  cases e with
  | connect => apply h
  | socketOpen => apply h
  | stop =>
      rw [all_mapValues_iff rfl]
      intro call c hget
      apply (h call c hget).rejectPending
  | socketClose =>
      rw [all_mapValues_iff rfl]
      intro call c hget
      apply (h call c hget).rejectPending
  | ready =>
      rw [all_mapValues_iff rfl]
      intro call c hget
      apply (h call c hget).wake
  | send aborted timeoutMs =>
      apply All.set h
      apply tidy_enter
  | goOn call throws =>
      apply withSend_keeps (p := fun t => t.All AgentSend.Tidy) h
      intro c hget
      have hgoing : c.stage = .going := by simpa [enabled, hget] using he
      have hopen : c.stage ≠ .over := by simp [hgoing]
      unfold goOn
      split_ifs
      · apply All.set h ((h call c hget).settle hopen _)
      · apply All.set h ((h call c hget).settle hopen _)
      · apply All.set h
        apply (h call c hget).of_stage hopen
        decide
  | abort call =>
      apply withSend_keeps (p := fun t => t.All AgentSend.Tidy) h
      intro c hget
      have hc : AgentSend.Tidy { c with aborted := some true } :=
        ⟨(h call c hget).settled, (h call c hget).unsettled⟩
      simp only [abort]
      split
      · next hstage =>
          apply All.set h (hc.settle _ _)
          rcases hstage with hstage | hstage <;> simp [hstage]
      · apply All.set h hc
  | timeout call =>
      apply withSend_keeps (p := fun t => t.All AgentSend.Tidy) h
      intro c hget
      have hpending : c.stage = .pending := by
        simp [enabled, hget] at he
        apply he.1
      apply All.set h ((h call c hget).settle _ _)
      simp [hpending]
  | result connection call outcome =>
      apply withSend_keeps (p := fun t => t.All AgentSend.Tidy) h
      intro c hget
      split
      · next hpending =>
          apply All.set h ((h call c hget).settle _ _)
          simp [hpending]
      · apply h

/-- What an event keeps of the calls: where none was blocked none is, if the event is sheltered
and only then. -/
theorem all_quiet_handle_iff {e : AgentClientEvent} (h : s.ended = true → s.All AgentSend.Quiet)
    (he : s.enabled e = true) :
  ((s.handle options e).ended = true → (s.handle options e).All AgentSend.Quiet)
    ↔ s.Sheltered e
  := by
  cases e with
  | connect => exact iff_of_true h trivial
  | socketOpen => exact iff_of_true h trivial
  | stop =>
      have hnone : s.stop.All AgentSend.Quiet ↔ s.NoneWaiting := by
        rw [all_mapValues_iff rfl]
        simp only [AgentSend.quiet_rejectPending_iff]
        rfl
      apply Iff.trans _ hnone
      apply imp_iff_right rfl
  | socketClose connection =>
      have hnone : (s.onSocketClose connection).All AgentSend.Quiet ↔ s.NoneWaiting := by
        rw [all_mapValues_iff rfl]
        simp only [AgentSend.quiet_rejectPending_iff]
        rfl
      apply Iff.trans _ hnone
      apply imp_iff_right rfl
  | ready =>
      apply iff_of_true _ trivial
      intro hended
      rw [all_mapValues_iff rfl]
      intro call c hget
      apply AgentSend.quiet_wake (h hended call c hget)
  | send aborted timeoutMs =>
      apply Iff.trans (quiet_setSend_iff h)
      simp only [quiet_enter_iff]
      rfl
  | goOn call throws =>
      obtain ⟨c, hget, -⟩ := (Option.any_eq_true _ _).mp he
      have hnext : s.handle options (.goOn call throws) = s.goOn call c throws := withSend_eq hget
      rw [hnext]
      unfold goOn
      split_ifs with hsocket hthrows
      · apply Iff.trans (quiet_setSend_iff h)
        simp [AgentSend.Quiet, AgentSend.settle, Sheltered, hsocket]
      · apply Iff.trans (quiet_setSend_iff h)
        simp [AgentSend.Quiet, AgentSend.settle, Sheltered, hthrows]
      · apply Iff.trans (quiet_setSend_iff h)
        simp [AgentSend.Quiet, Sheltered, hsocket, hthrows]
  | abort call =>
      apply iff_of_true _ trivial
      obtain ⟨c, hget, -⟩ := (Option.any_eq_true _ _).mp he
      have hnext : s.handle options (.abort call) = s.abort call c := withSend_eq hget
      rw [hnext]
      simp only [abort]
      split_ifs with hstage
      · apply (quiet_setSend_iff h).mpr
        intro _
        apply Or.inl rfl
      · apply (quiet_setSend_iff h).mpr
        intro hended
        apply h hended call c hget
  | timeout call =>
      apply iff_of_true _ trivial
      obtain ⟨c, hget, -⟩ := (Option.any_eq_true _ _).mp he
      have hnext : s.handle options (.timeout call)
          = s.setSend call (c.settle (.rejected (some "timeout"))) := withSend_eq hget
      rw [hnext]
      apply (quiet_setSend_iff h).mpr
      intro _
      apply Or.inl rfl
  | result connection call outcome =>
      apply iff_of_true _ trivial
      apply withSend_keeps (p := fun t => t.ended = true → t.All AgentSend.Quiet) h
      intro c _
      split
      · apply (quiet_setSend_iff h).mpr
        intro _
        apply Or.inl rfl
      · apply h

/-- The states between events: what is settled is over, and no call is blocked. -/
structure Settled (s : AgentClient) : Prop where
  tidy : s.All AgentSend.Tidy
  drained : s.Drained

theorem settled_handle_iff {e : AgentClientEvent} (h : s.Settled) (he : s.enabled e = true) :
  (s.handle options e).Drained ↔ s.Sheltered e
  := by
  rw [drained_iff_quiet (all_tidy_handle h.tidy he)]
  apply all_quiet_handle_iff _ he
  apply (drained_iff_quiet h.tidy).mp h.drained

theorem settled_initial :
  initial.Settled
  := by
  have hnone : ∀ p : AgentSend → Prop, initial.All p := by
    intro p call c hget
    change (JsMap.empty : JsMap ℕ AgentSend).get call = some c at hget
    rw [JsMap.get_empty] at hget
    cases hget
  constructor
  · apply hnone
  · apply (drained_iff_quiet (hnone _)).mpr
    intro _
    apply hnone

/-! ### Runs -/

theorem drained_iff_of_run {s' : AgentClient} {steps : List (AgentClient × AgentClientEvent)}
    (hrun : (system options).Run s steps s') (h : s.Settled) :
  (∀ step ∈ steps, (step.1.handle options step.2).Drained)
    ↔ ∀ step ∈ steps, step.1.Sheltered step.2
  := by
  induction hrun with
  | nil => simp
  | cons he _ ih =>
      have hstep : (handle options _ _).Drained ↔ _ := settled_handle_iff h he
      rw [List.forall_mem_cons, List.forall_mem_cons]
      constructor
      · rintro ⟨hdrained, hrest⟩
        use hstep.mp hdrained
        apply (ih ⟨all_tidy_handle h.tidy he, hdrained⟩).mp hrest
      · rintro ⟨hsheltered, hrest⟩
        have hdrained := hstep.mpr hsheltered
        use hdrained
        apply (ih ⟨all_tidy_handle h.tidy he, hdrained⟩).mpr hrest

/-- In a run of a client every call is settled once a socket has closed or `stop` has been called,
and never twice, exactly when none waits for a connection whenever that happens, and none finds a
connection from then on. -/
theorem every_send_settled_iff (options : Options) {s' : AgentClient}
    {steps : List (AgentClient × AgentClientEvent)}
    (hrun : (system options).Run initial steps s') :
  (∀ step ∈ steps, (step.1.handle options step.2).Drained)
    ↔ ∀ step ∈ steps, step.1.Sheltered step.2
  := drained_iff_of_run hrun settled_initial

/-- A call gets its result, another is sent when the client is stopped, and a third after that. -/
theorem every_send_settled_stopped :
  ∃ steps s', (system ⟨30000⟩).Run initial steps s' ∧ s'.ended = true ∧ s'.sends.size = 3 ∧
    ∀ step ∈ steps, (step.1.handle ⟨30000⟩ step.2).Drained
  := by
  let events : List AgentClientEvent :=
    [.connect, .socketOpen 0, .ready 0, .send none none, .goOn 0 false, .result 0 0 .resolved,
      .send (some false) none, .goOn 1 false, .stop, .send none (some 50), .goOn 2 false]
  have hplay : ((system ⟨30000⟩).play events initial).any
      (fun s => s.ended = true ∧ s.sends.size = 3) = true := by
    decide
  obtain ⟨s', hs', hend⟩ := (Option.any_eq_true _ _).mp hplay
  obtain ⟨hended, hsize⟩ := of_decide_eq_true hend
  have hrun := (system ⟨30000⟩).run_of_play hs'
  use (system ⟨30000⟩).steps events initial, s', hrun, hended, hsize
  apply (every_send_settled_iff ⟨30000⟩ hrun).mpr
  decide

/-- A call waits for the connection when its socket closes, and stays blocked. -/
theorem blocked_after_close :
  ¬ ∀ s', (system ⟨30000⟩).Reaches initial s' → s'.Drained
  := by
  intro h
  obtain ⟨s', hs', hend⟩ := EventSystem.exists_reaches_of_play (system ⟨30000⟩)
    [.connect, .send none none, .socketClose 0] initial
    (fun s => s.ended = true ∧ (s.sends.get 0).any
      fun c => c.outcomes = [] ∧ c.stage = .waiting) (by decide)
  obtain ⟨hended, hany⟩ := of_decide_eq_true hend
  obtain ⟨c, hget, hc⟩ := (Option.any_eq_true _ _).mp hany
  obtain ⟨hnone, hstage⟩ := of_decide_eq_true hc
  obtain hsome | hgoing := (h s' hs').settled hended 0 c hget
  · apply hsome hnone
  · rw [hstage] at hgoing
    cases hgoing

end AgentClient

end Browser

import OpencodeToolbelt.Browser.Endpoint

/-!
# Shutting an endpoint down

What an endpoint has created is in the hands of `shutdown`, except for what an election in
progress still waits for. An election that wins the port or the connection after the shutdown
keeps it.
-/

namespace Browser

/-- An endpoint that has been shut down holds nothing once its elections have settled. -/
def Endpoint.Released (s : Endpoint) : Prop :=
  s.closed = true → s.elections.keys = [] →
    (∀ x, s.transports.get x ≠ some .listening) ∧
      (∀ x c, s.clients.get x = some c → c.socket.live = false) ∧ s.reelectTimer = false

/-- Whether an election that goes on after the shutdown has lost: it has neither bound the port
nor been connected. -/
def Endpoint.Lost (s : Endpoint) : EndpointEvent → Prop
  | .goOn x _ =>
      s.closed = true → s.elections.get x ≠ some .bindWon ∧ s.elections.get x ≠ some .connected
  | _ => True

instance (s : Endpoint) (e : EndpointEvent) : Decidable (s.Lost e) :=
  match e with
  | .goOn _ _ => inferInstanceAs (Decidable (_ → _ ≠ _ ∧ _ ≠ _))
  | .create _ _ | .timer _ _ | .listening _ | .bindFails _ | .socketOpen _ | .ready _
  | .socketClose _ | .shutdown => .isTrue trivial

namespace Endpoint

/-- What becomes of a socket that has not closed: the endpoint has it for its guest connection,
an election is about to, or it has been stopped. -/
def Held (s : Endpoint) (x : ℕ) (c : AgentConnection) : Prop :=
  if c.closed then s.closed = true ∧ c.socket.live = false ∧ c.settled = true
  else c.socket.live = true ∧
    (s.agentClient = some x ∧ s.closed = false ∧ c.settled = true ∨
      s.elections.get x = some .connecting ∧ c.settled = false ∨
      s.elections.get x = some .connected ∧ c.settled = true)

/-- The invariant of an endpoint. -/
structure Tidy (s : Endpoint) : Prop where
  unborn : s.electionSeq = 0 → s = .initial
  solo : ∀ x y e e', s.elections.get x = some e → s.elections.get y = some e' → x = y
  electing : ∀ x e, s.elections.get x = some e → s.broker = none ∧ s.agentClient = none
  apart : ∀ b, s.broker = some b → s.agentClient = none
  timer : s.reelectTimer = true → s.closed = false ∧ s.broker = none ∧ s.agentClient = none ∧
    ∀ x e, s.elections.get x = some e → e = .connectFailed
  transports : ∀ x, s.transports.get x = some .listening →
    s.broker = some x ∧ s.closed = false ∨ s.elections.get x = some .bindWon
  clients : ∀ x c, s.clients.get x = some c → c.socket ≠ .closed → s.Held x c

theorem waits_of_calm {s : Endpoint} {x : ℕ} {e : Election} (h : s.calm = true)
    (hx : s.elections.get x = some e) :
  Election.waits e = true
  := List.all_eq_true.mp h e (JsMap.mem_values.mpr ⟨x, hx⟩)

namespace Tidy

variable {s : Endpoint}

theorem initial :
  Endpoint.initial.Tidy
  := by
  constructor
  · exact fun _ => rfl
  · exact fun x y e e' h => by cases h
  · exact fun x e h => by cases h
  · exact fun b h => by cases h
  · exact fun h => by cases h
  · exact fun x h => by cases h
  · exact fun x c h => by cases h

/-- An election begins or comes to another place, there being no other. -/
theorem ofElection {x : ℕ} {e : Election} {mode : EndpointMode} {timer : Bool} {seq : ℕ}
    {transports : JsMap ℕ TransportState} {clients : JsMap ℕ AgentConnection}
    (honly : ∀ y e', s.elections.get y = some e' → y = x)
    (hidle : s.broker = none ∧ s.agentClient = none) (hseq : seq ≠ 0)
    (htimer : timer = true → s.closed = false ∧ e = .connectFailed)
    (htransports : ∀ y, transports.get y = some .listening → y = x ∧ e = .bindWon)
    (hclients : ∀ y c, clients.get y = some c → c.socket ≠ .closed →
      Held { s with elections := s.elections.set x e } y c) :
  Tidy
    { s with
      mode, transports, clients
      reelectTimer := timer
      electionSeq := seq
      elections := s.elections.set x e }
  := by
  have hget : ∀ y e', (s.elections.set x e).get y = some e' → y = x ∧ e' = e := by
    intro y e' hy
    rw [JsMap.get_set] at hy
    split at hy
    · next heq => exact ⟨heq, (Option.some.inj hy).symm⟩
    · next hne => exact (hne (honly y e' hy)).elim
  constructor
  · exact fun h => (hseq h).elim
  · intro y z e₁ e₂ hy hz
    rw [(hget y e₁ hy).1, (hget z e₂ hz).1]
  · exact fun y e' hy => hidle
  · exact fun b _ => hidle.2
  · intro harmed
    obtain ⟨hopen, hfailed⟩ := htimer harmed
    refine ⟨hopen, hidle.1, hidle.2, ?_⟩
    intro y e' hy
    rw [(hget y e' hy).2, hfailed]
  · intro y hy
    obtain ⟨rfl, rfl⟩ := htransports y hy
    right
    apply JsMap.get_set_self
  · apply hclients

/-- Without a guest connection, a socket that has not closed is that of an election in progress,
or has been stopped. -/
theorem held_of_idle (hs : s.Tidy) {x : ℕ} {e : Election}
    (honly : ∀ y e', s.elections.get y = some e' → y = x ∧ e' = e)
    (hidle : s.agentClient = none) (he : e ≠ .connecting ∧ e ≠ .connected) {y : ℕ}
    {c : AgentConnection} (hy : s.clients.get y = some c) (hc : c.socket ≠ .closed) :
  c.closed = true ∧ s.closed = true ∧ c.socket.live = false ∧ c.settled = true
  := by
  have hheld := hs.clients y c hy hc
  unfold Held at hheld
  split at hheld
  · next hclosed => exact ⟨hclosed, hheld⟩
  · obtain ⟨-, ⟨hguest, -⟩ | ⟨hconnecting, -⟩ | ⟨hconnected, -⟩⟩ := hheld
    · rw [hidle] at hguest
      cases hguest
    · exact (he.1 (honly y _ hconnecting).2.symm).elim
    · exact (he.2 (honly y _ hconnected).2.symm).elim

theorem held_of_stopped {s' : Endpoint} {x : ℕ} {c : AgentConnection}
    (h : c.closed = true ∧ s.closed = true ∧ c.socket.live = false ∧ c.settled = true)
    (hclosed : s'.closed = s.closed) :
  s'.Held x c
  := by
  obtain ⟨hc, hrest⟩ := h
  unfold Held
  rw [if_pos hc, hclosed]
  apply hrest

/-- An election creates its client. -/
theorem joinAsGuest (hs : s.Tidy) {x : ℕ} {e : Election} (socketThrows : Bool)
    (honly : ∀ y e', s.elections.get y = some e' → y = x ∧ e' = e)
    (hidle : s.broker = none ∧ s.agentClient = none) (he : e ≠ .connecting ∧ e ≠ .connected)
    (htimer : s.reelectTimer = false) (hseq : s.electionSeq ≠ 0)
    (htransports : ∀ y, s.transports.get y ≠ some .listening) :
  (s.joinAsGuest x socketThrows).Tidy
  := by
  have hstopped := fun y c => hs.held_of_idle (y := y) (c := c) honly hidle.2 he
  have hunarmed : ∀ e' : Election,
      s.reelectTimer = true → s.closed = false ∧ e' = .connectFailed := by
    intro e' h
    rw [htimer] at h
    cases h
  unfold Endpoint.joinAsGuest
  split
  · apply ofElection (fun y e' hy => (honly y e' hy).1) hidle hseq (hunarmed _)
    · exact fun y hy => (htransports y hy).elim
    · intro y c hy hc
      apply held_of_stopped (hstopped y c hy hc)
      rfl
  · apply ofElection (fun y e' hy => (honly y e' hy).1) hidle hseq (hunarmed _)
    · exact fun y hy => (htransports y hy).elim
    · intro y c hy hc
      rw [JsMap.get_set] at hy
      split at hy
      · next heq =>
          obtain rfl := Option.some.inj hy
          rw [heq]
          simp [Held, SocketState.live]
      · apply held_of_stopped (hstopped y c hy hc)
        rfl

theorem unarmed (hs : s.Tidy) {x : ℕ} {e : Election} (hx : s.elections.get x = some e)
    (he : e ≠ .connectFailed) :
  s.reelectTimer = false
  := by
  rw [← Bool.not_eq_true]
  intro h
  obtain ⟨-, -, -, hall⟩ := hs.timer h
  apply he (hall x e hx)

theorem seq_ne_zero (hs : s.Tidy) (h : s ≠ .initial) :
  s.electionSeq ≠ 0
  := fun hzero => h (hs.unborn hzero)

theorem ne_initial_of_get {x : ℕ} {e : Election} (hx : s.elections.get x = some e) :
  s ≠ .initial
  := by
  rintro rfl
  cases hx

/-- No server listens while an election is in progress that has not won. -/
theorem transports_of_get (hs : s.Tidy) {x : ℕ} {e : Election} (hx : s.elections.get x = some e)
    (he : e ≠ .bindWon) (y : ℕ) :
  s.transports.get y ≠ some .listening
  := by
  intro hy
  obtain ⟨hbroker, -⟩ | hwon := hs.transports y hy
  · rw [(hs.electing x e hx).1] at hbroker
    cases hbroker
  · obtain rfl := hs.solo x y e _ hx hwon
    rw [hx] at hwon
    exact he (Option.some.inj hwon)

/-- The election in progress is the only one. -/
theorem only (hs : s.Tidy) {x : ℕ} {e : Election} (hx : s.elections.get x = some e) (y : ℕ)
    (e' : Election) (hy : s.elections.get y = some e') :
  y = x ∧ e' = e
  := by
  obtain rfl := hs.solo x y e e' hx hy
  rw [hx] at hy
  exact ⟨rfl, (Option.some.inj hy).symm⟩

/-- An election begins. -/
theorem elect (hs : s.Tidy) (hnone : ∀ x, s.elections.get x = none)
    (hidle : s.broker = none ∧ s.agentClient = none) (htimer : s.reelectTimer = false)
    (transportThrows socketThrows : Bool) :
  (s.elect transportThrows socketThrows).Tidy
  := by
  have hnot : ∀ y e', s.elections.get y ≠ some e' := by
    intro y e' hy
    rw [hnone] at hy
    cases hy
  have htransports : ∀ y, s.transports.get y = some .listening → s.closed = false ∧ False := by
    intro y hy
    obtain ⟨hbroker, -⟩ | hwon := hs.transports y hy
    · rw [hidle.1] at hbroker
      cases hbroker
    · exact (hnot y _ hwon).elim
  have hclients : ∀ y c, s.clients.get y = some c → c.socket ≠ .closed →
      c.closed = true ∧ s.closed = true ∧ c.socket.live = false ∧ c.settled = true := by
    intro y c hy hc
    apply hs.held_of_idle (x := y) (e := .binding) _ hidle.2 ⟨by decide, by decide⟩ hy hc
    exact fun z e' hz => (hnot z e' hz).elim
  unfold Endpoint.elect
  split
  · apply hs
  · split
    · have hnext : Tidy { s with mode := .electing, electionSeq := s.electionSeq + 1 } := by
        constructor
        · exact fun h => (Nat.succ_ne_zero _ h).elim
        · apply hs.solo
        · apply hs.electing
        · apply hs.apart
        · apply hs.timer
        · apply hs.transports
        · apply hs.clients
      apply hnext.joinAsGuest (e := .binding) socketThrows _ hidle ⟨by decide, by decide⟩ htimer
        (Nat.succ_ne_zero _)
      · exact fun y hy => (htransports y hy).2
      · exact fun y e' hy => (hnot y e' hy).elim
    · apply ofElection _ hidle (Nat.succ_ne_zero _)
      · intro h
        change s.reelectTimer = true at h
        rw [htimer] at h
        cases h
      · intro y hy
        rw [JsMap.get_set] at hy
        split at hy
        · cases hy
        · exact (htransports y hy).2.elim
      · intro y c hy hc
        apply held_of_stopped (hclients y c hy hc)
        rfl
      · exact fun y e' hy => (hnot y e' hy).elim

/-- The elections are over, and the endpoint has what they have ended with. -/
theorem ofSettled {s' : Endpoint} (hseq : s'.electionSeq ≠ 0)
    (hnone : ∀ x, s'.elections.get x = none) (hapart : s'.broker = none ∨ s'.agentClient = none)
    (htimer : s'.reelectTimer = true →
      s'.closed = false ∧ s'.broker = none ∧ s'.agentClient = none)
    (htransports : ∀ x, s'.transports.get x = some .listening →
      s'.broker = some x ∧ s'.closed = false)
    (hclients : ∀ x c, s'.clients.get x = some c → c.socket ≠ .closed → s'.Held x c) :
  s'.Tidy
  := by
  have hnot : ∀ y e', s'.elections.get y ≠ some e' := by
    intro y e' hy
    rw [hnone] at hy
    cases hy
  constructor
  · exact fun h => (hseq h).elim
  · exact fun x y e e' hx => (hnot x e hx).elim
  · exact fun x e hx => (hnot x e hx).elim
  · intro b hb
    apply hapart.resolve_left
    rw [hb]
    apply Option.some_ne_none
  · intro h
    obtain ⟨hclosed, hidle⟩ := htimer h
    exact ⟨hclosed, hidle.1, hidle.2, fun x e hx => (hnot x e hx).elim⟩
  · exact fun x hx => .inl (htransports x hx)
  · apply hclients

theorem get_delete_only (hs : s.Tidy) {x : ℕ} {e : Election} (hx : s.elections.get x = some e)
    (y : ℕ) :
  (s.elections.delete x).get y = none
  := by
  rw [JsMap.get_delete]
  split
  · rfl
  · next hne =>
      rw [Option.eq_none_iff_forall_ne_some]
      intro e' hy
      exact hne (hs.only hx y e' hy).1

/-- A call of `elect` goes on, and has lost if the endpoint is closed. -/
theorem goOn (hs : s.Tidy) {x : ℕ} {e : Election} (hx : s.elections.get x = some e)
    (socketThrows : Bool)
    (hlost : s.closed = true → e ≠ .bindWon ∧ e ≠ .connected) :
  (s.goOn x e socketThrows).Tidy
  := by
  have hseq := hs.seq_ne_zero (ne_initial_of_get hx)
  obtain ⟨hnobroker, hnoclient⟩ := hs.electing x e hx
  have hnone := hs.get_delete_only hx
  cases e with
  | binding => apply hs
  | connecting => apply hs
  | bindWon =>
      have hopen : s.closed = false := by
        rw [← Bool.not_eq_true]
        exact fun h => (hlost h).1 rfl
      apply ofSettled
      · apply hseq
      · apply hnone
      · exact .inr hnoclient
      · intro h
        change s.reelectTimer = true at h
        rw [hs.unarmed hx (by decide)] at h
        cases h
      · intro y hy
        obtain ⟨hbroker, -⟩ | hwon := hs.transports y hy
        · rw [hnobroker] at hbroker
          cases hbroker
        · rw [(hs.only hx y _ hwon).1]
          exact ⟨rfl, hopen⟩
      · intro y c hy hc
        apply held_of_stopped (hs.held_of_idle (hs.only hx) hnoclient ⟨by decide, by decide⟩ hy hc)
        rfl
  | bindLost =>
      have hstopped : Tidy { s with transports := s.transports.set x .stopped } := by
        constructor
        · exact fun h => (hseq h).elim
        · apply hs.solo
        · apply hs.electing
        · apply hs.apart
        · apply hs.timer
        · intro y hy
          rw [JsMap.get_set] at hy
          split at hy
          · cases hy
          · apply hs.transports y hy
        · apply hs.clients
      apply hstopped.joinAsGuest socketThrows (hs.only hx) ⟨hnobroker, hnoclient⟩
        ⟨by decide, by decide⟩ (hs.unarmed hx (by decide)) hseq
      intro y hy
      rw [JsMap.get_set] at hy
      split at hy
      · cases hy
      · apply hs.transports_of_get hx (by decide) y hy
  | connected =>
      have hopen : s.closed = false := by
        rw [← Bool.not_eq_true]
        exact fun h => (hlost h).2 rfl
      apply ofSettled
      · apply hseq
      · apply hnone
      · exact .inl hnobroker
      · intro h
        change s.reelectTimer = true at h
        rw [hs.unarmed hx (by decide)] at h
        cases h
      · exact fun y hy => (hs.transports_of_get hx (by decide) y hy).elim
      · intro y c hy hc
        have hheld := hs.clients y c hy hc
        unfold Held at hheld ⊢
        split at hheld
        · next hclosed =>
            rw [if_pos hclosed]
            apply hheld
        · next hclosed =>
            rw [if_neg hclosed]
            obtain ⟨hlive, ⟨hguest, -⟩ | ⟨hconnecting, -⟩ | ⟨hconnected, hsettled⟩⟩ := hheld
            · rw [hnoclient] at hguest
              cases hguest
            · cases (hs.only hx y _ hconnecting).2
            · use hlive
              rw [(hs.only hx y _ hconnected).1]
              exact .inl ⟨rfl, hopen, hsettled⟩
  | connectFailed =>
      apply ofSettled
      · apply hseq
      · apply hnone
      · exact .inl rfl
      · intro h
        refine ⟨?_, rfl, rfl⟩
        obtain harmed | hopen := Bool.or_eq_true_iff.mp h
        · apply (hs.timer harmed).1
        · apply (Bool.not_eq_true' _).mp hopen
      · exact fun y hy => (hs.transports_of_get hx (by decide) y hy).elim
      · intro y c hy hc
        apply held_of_stopped (hs.held_of_idle (hs.only hx) hnoclient ⟨by decide, by decide⟩ hy hc)
        rfl

/-- A client changes, and nothing else. -/
theorem setClient (hs : s.Tidy) (hne : s ≠ .initial) {x : ℕ} {c : AgentConnection}
    (hc : c.socket ≠ .closed → s.Held x c) :
  Tidy { s with clients := s.clients.set x c }
  := by
  constructor
  · exact fun h => (hs.seq_ne_zero hne h).elim
  · apply hs.solo
  · apply hs.electing
  · apply hs.apart
  · apply hs.timer
  · apply hs.transports
  · intro y c' hy
    rw [JsMap.get_set] at hy
    split at hy
    · next heq =>
        obtain rfl := Option.some.inj hy
        rw [heq]
        apply hc
    · apply hs.clients y c' hy

theorem ne_initial_of_client {x : ℕ} {c : AgentConnection} (hx : s.clients.get x = some c) :
  s ≠ .initial
  := by
  rintro rfl
  cases hx

/-- Other clients are stopped or closed while an election connects. -/
theorem others (hs : s.Tidy) {x : ℕ} (hx : s.elections.get x = some .connecting) {y : ℕ}
    {c : AgentConnection} (hy : s.clients.get y = some c) (hc : c.socket ≠ .closed)
    (hne : y ≠ x) :
  c.closed = true ∧ s.closed = true ∧ c.socket.live = false ∧ c.settled = true
  := by
  have hheld := hs.clients y c hy hc
  unfold Held at hheld
  split at hheld
  · next hclosed => exact ⟨hclosed, hheld⟩
  · obtain ⟨-, ⟨hguest, -⟩ | ⟨hconnecting, -⟩ | ⟨hconnected, -⟩⟩ := hheld
    · rw [(hs.electing x _ hx).2] at hguest
      cases hguest
    · exact (hne (hs.only hx y _ hconnecting).1).elim
    · exact (hne (hs.only hx y _ hconnected).1).elim

theorem onReady (hs : s.Tidy) {x : ℕ} {c : AgentConnection} (hx : s.clients.get x = some c)
    (hsocket : c.socket = .open) :
  (s.onReady x c).Tidy
  := by
  have hlive : c.socket.live = true := by rw [hsocket]; rfl
  have hheld := hs.clients x c hx (by rw [hsocket]; decide)
  have hne := ne_initial_of_client hx
  unfold Held at hheld
  split at hheld
  · rw [hlive] at hheld
    cases hheld.2.1
  · next hclosed =>
      have hsettled (h : c.settled = true) : (s.onReady x c).Tidy := by
        unfold Endpoint.onReady
        rw [if_pos h]
        apply hs.setClient hne
        intro
        unfold Held
        rw [if_neg hclosed]
        use hlive
        obtain ⟨-, hguest | ⟨-, hnot⟩ | hconnected⟩ := hheld
        · exact .inl ⟨hguest.1, hguest.2.1, rfl⟩
        · rw [h] at hnot
          cases hnot
        · exact .inr (.inr ⟨hconnected.1, rfl⟩)
      obtain ⟨-, hguest | ⟨hconnecting, hnot⟩ | hconnected⟩ := hheld
      · apply hsettled hguest.2.2
      · unfold Endpoint.onReady
        rw [hnot, if_neg Bool.false_ne_true]
        apply ofElection (fun y e' hy => (hs.only hconnecting y e' hy).1)
          (hs.electing x _ hconnecting) (hs.seq_ne_zero hne)
        · intro h
          rw [hs.unarmed hconnecting (by decide)] at h
          cases h
        · exact fun y hy => (hs.transports_of_get hconnecting (by decide) y hy).elim
        · intro y c' hy hc'
          rw [JsMap.get_set] at hy
          split at hy
          · next heq =>
              obtain rfl := Option.some.inj hy
              unfold Held
              rw [if_neg hclosed, heq]
              use hlive
              right
              right
              constructor
              · apply JsMap.get_set_self
              · rfl
          · next hother =>
              apply held_of_stopped (hs.others hconnecting hy hc' hother)
              rfl
      · apply hsettled hconnected.2

/-- The endpoint elects again. -/
theorem scheduleReelect (hs : s.Tidy) (hne : s ≠ .initial) (hopen : s.closed = false)
    (helections : ∀ x e, s.elections.get x = some e → e = .connectFailed)
    (htransports : ∀ x, s.transports.get x ≠ some .listening)
    (hclients : ∀ x c, s.clients.get x = some c → c.socket = .closed) :
  s.scheduleReelect.Tidy
  := by
  constructor
  · exact fun h => (hs.seq_ne_zero hne h).elim
  · apply hs.solo
  · exact fun x e _ => ⟨rfl, rfl⟩
  · exact fun b _ => rfl
  · exact fun _ => ⟨hopen, rfl, rfl, helections⟩
  · exact fun x hx => (htransports x hx).elim
  · exact fun x c hx hc => (hc (hclients x c hx)).elim

theorem onSocketClose (hs : s.Tidy) (hcalm : s.calm = true) {x : ℕ} {c : AgentConnection}
    (hx : s.clients.get x = some c) (hc : c.socket ≠ .closed) :
  (s.onSocketClose x c).Tidy
  := by
  have hne := ne_initial_of_client hx
  have hheld := hs.clients x c hx hc
  unfold Held at hheld
  unfold Endpoint.onSocketClose
  dsimp only
  split at hheld
  · next hclosed =>
      rw [if_pos hclosed, if_pos hheld.2.2]
      apply hs.setClient hne
      exact fun h => (h rfl).elim
  · next hclosed =>
      rw [if_neg hclosed]
      unfold Endpoint.onClose
      obtain ⟨-, ⟨hguest, hopen, hsettled⟩ | ⟨hconnecting, hsettled⟩ | ⟨hconnected, -⟩⟩ := hheld
      · rw [if_pos hsettled]
        have hnone : ∀ y e, s.elections.get y ≠ some e := by
          intro y e hy
          rw [(hs.electing y e hy).2] at hguest
          cases hguest
        have hset : Tidy
            { s with
              clients := s.clients.set x
                { c with socket := .closed, ready := false, settled := true } } := by
          apply hs.setClient hne
          exact fun h => (h rfl).elim
        split
        · apply hset
        apply hset.scheduleReelect
        · intro h
          have hseq := congrArg Endpoint.electionSeq h
          exact hs.seq_ne_zero hne hseq
        · apply hopen
        · exact fun y e hy => (hnone y e hy).elim
        · intro y hy
          obtain ⟨hbroker, -⟩ | hwon := hs.transports y hy
          · rw [hs.apart y hbroker] at hguest
            cases hguest
          · exact hnone y _ hwon
        · intro y c' hy
          rw [JsMap.get_set] at hy
          split at hy
          · obtain rfl := Option.some.inj hy
            rfl
          · next hother =>
              by_contra hc'
              have hheld := hs.clients y c' hy hc'
              unfold Held at hheld
              split at hheld
              · rw [hopen] at hheld
                cases hheld.1
              · obtain ⟨-, ⟨hguest', -⟩ | ⟨hconnecting, -⟩ | ⟨hconnected, -⟩⟩ := hheld
                · rw [hguest] at hguest'
                  exact hother (Option.some.inj hguest').symm
                · exact hnone y _ hconnecting
                · exact hnone y _ hconnected
      · have hunsettled : ¬ c.settled = true := by
          rw [hsettled]
          exact Bool.false_ne_true
        rw [if_neg hunsettled]
        have hset : Tidy
            { s with
              clients := s.clients.set x
                { c with socket := .closed, ready := false, settled := true }
              elections := s.elections.set x .connectFailed } := by
          apply ofElection (fun y e' hy => (hs.only hconnecting y e' hy).1)
            (hs.electing x _ hconnecting) (hs.seq_ne_zero hne)
          · intro h
            rw [hs.unarmed hconnecting (by decide)] at h
            cases h
          · exact fun y hy => (hs.transports_of_get hconnecting (by decide) y hy).elim
          · intro y c' hy hc'
            rw [JsMap.get_set] at hy
            split at hy
            · obtain rfl := Option.some.inj hy
              exact (hc' rfl).elim
            · next hother =>
                apply held_of_stopped (hs.others hconnecting hy hc' hother)
                rfl
        split
        · apply hset
        · next hopen =>
            apply hset.scheduleReelect
            · intro h
              have hseq := congrArg Endpoint.electionSeq h
              exact hs.seq_ne_zero hne hseq
            · apply (Bool.not_eq_true _).mp hopen
            · intro y e hy
              rw [JsMap.get_set] at hy
              split at hy
              · apply (Option.some.inj hy).symm
              · next hother => exact (hother (hs.only hconnecting y e hy).1).elim
            · exact fun y hy => hs.transports_of_get hconnecting (by decide) y hy
            · intro y c' hy
              rw [JsMap.get_set] at hy
              split at hy
              · obtain rfl := Option.some.inj hy
                rfl
              · next hother =>
                  by_contra hc'
                  exact hopen (hs.others hconnecting hy hc' hother).2.1
      · cases waits_of_calm hcalm hconnected

/-- What the endpoint has is stopped. -/
theorem shutdown (hs : s.Tidy) (hseq : s.electionSeq ≠ 0) :
  s.shutdown.Tidy
  := by
  have hother : ∀ y c, s.clients.get y = some c → c.socket ≠ .closed → s.agentClient ≠ some y →
      s.shutdown.Held y c := by
    intro y c hy hc hguest
    have hheld := hs.clients y c hy hc
    unfold Held at hheld ⊢
    split at hheld
    · next hclosed =>
        rw [if_pos hclosed]
        exact ⟨rfl, hheld.2⟩
    · next hclosed =>
        rw [if_neg hclosed]
        obtain ⟨hlive, ⟨hguest', -⟩ | hconnecting | hconnected⟩ := hheld
        · exact (hguest hguest').elim
        · exact ⟨hlive, .inr (.inl hconnecting)⟩
        · exact ⟨hlive, .inr (.inr hconnected)⟩
  constructor
  · exact fun h => (hseq h).elim
  · apply hs.solo
  · apply hs.electing
  · apply hs.apart
  · exact fun h => by cases h
  · intro y hy
    right
    simp only [Endpoint.shutdown] at hy
    cases hbroker : s.broker with
    | none =>
        rw [hbroker] at hy
        obtain ⟨hbroker', -⟩ | hwon := hs.transports y hy
        · rw [hbroker] at hbroker'
          cases hbroker'
        · apply hwon
    | some b =>
        simp only [hbroker, Option.elim_some, JsMap.get_set] at hy
        split at hy
        · cases hy
        · next hne =>
            obtain ⟨hbroker', -⟩ | hwon := hs.transports y hy
            · rw [hbroker] at hbroker'
              exact (hne (Option.some.inj hbroker').symm).elim
            · apply hwon
  · intro y c hy hc
    simp only [Endpoint.shutdown] at hy
    cases hclient : s.agentClient with
    | none =>
        rw [hclient] at hy
        apply hother y c hy hc
        rw [hclient]
        apply (Option.some_ne_none _).symm
    | some a =>
        simp only [hclient, Option.elim_some] at hy
        cases ha : s.clients.get a with
        | none =>
            rw [ha] at hy
            apply hother y c hy hc
            rintro hguest
            rw [hclient] at hguest
            obtain rfl := Option.some.inj hguest
            rw [Option.elim_none, ha] at hy
            cases hy
        | some guest =>
            rw [ha, Option.elim_some, JsMap.get_set] at hy
            split at hy
            · next heq =>
                obtain rfl := Option.some.inj hy
                have hheld := hs.clients a guest ha (mt SocketState.close_eq_closed.mpr hc)
                have hsettled : guest.settled = true := by
                  unfold Held at hheld
                  split at hheld
                  · apply hheld.2.2
                  · obtain ⟨-, hguest | ⟨hconnecting, -⟩ | hconnected⟩ := hheld
                    · apply hguest.2.2
                    · rw [(hs.electing a _ hconnecting).2] at hclient
                      cases hclient
                    · apply hconnected.2
                have hclosed : guest.stop.closed = true := rfl
                unfold Held
                rw [if_pos hclosed]
                exact ⟨rfl, guest.socket.live_close, hsettled⟩
            · next hne =>
                apply hother y c hy hc
                rw [hclient]
                exact fun h => hne (Option.some.inj h).symm

theorem handle (hs : s.Tidy) {event : EndpointEvent} (henabled : s.enabled event = true)
    (hlost : s.Lost event) :
  (s.handle event).Tidy
  := by
  cases event with
  | create transportThrows socketThrows =>
      obtain rfl := hs.unborn (of_decide_eq_true henabled)
      apply hs.elect (fun x => rfl) ⟨rfl, rfl⟩ rfl
  | timer transportThrows socketThrows =>
      obtain ⟨hcalm, harmed⟩ := Bool.and_eq_true_iff.mp henabled
      obtain ⟨hopen, hnobroker, hnoclient, hfailed⟩ := hs.timer harmed
      have hnone : ∀ x, s.elections.get x = none := by
        intro x
        rw [Option.eq_none_iff_forall_ne_some]
        intro e hx
        have hwaits := waits_of_calm hcalm hx
        rw [hfailed x e hx] at hwaits
        cases hwaits
      have hfired : Tidy { s with reelectTimer := false } := by
        constructor
        · intro h
          have hinitial := hs.unborn h
          rw [hinitial] at harmed
          cases harmed
        · apply hs.solo
        · apply hs.electing
        · apply hs.apart
        · exact fun h => by cases h
        · apply hs.transports
        · apply hs.clients
      apply hfired.elect hnone ⟨hnobroker, hnoclient⟩ rfl
  | listening x =>
      have hx : s.elections.get x = some .binding :=
        of_decide_eq_true (Bool.and_eq_true_iff.mp henabled).2
      apply ofElection (fun y e' hy => (hs.only hx y e' hy).1) (hs.electing x _ hx)
        (hs.seq_ne_zero (ne_initial_of_get hx))
      · intro h
        rw [hs.unarmed hx (by decide)] at h
        cases h
      · intro y hy
        rw [JsMap.get_set] at hy
        split at hy
        · next heq => exact ⟨heq, rfl⟩
        · exact (hs.transports_of_get hx (by decide) y hy).elim
      · intro y c hy hc
        apply held_of_stopped
        · apply hs.held_of_idle (hs.only hx) (hs.electing x _ hx).2 ⟨by decide, by decide⟩ hy hc
        · rfl
  | bindFails x =>
      have hx : s.elections.get x = some .binding :=
        of_decide_eq_true (Bool.and_eq_true_iff.mp henabled).2
      apply ofElection (fun y e' hy => (hs.only hx y e' hy).1) (hs.electing x _ hx)
        (hs.seq_ne_zero (ne_initial_of_get hx))
      · intro h
        rw [hs.unarmed hx (by decide)] at h
        cases h
      · exact fun y hy => (hs.transports_of_get hx (by decide) y hy).elim
      · intro y c hy hc
        apply held_of_stopped
        · apply hs.held_of_idle (hs.only hx) (hs.electing x _ hx).2 ⟨by decide, by decide⟩ hy hc
        · rfl
  | goOn x socketThrows =>
      obtain ⟨e, hx, -⟩ := (Option.any_eq_true _ _).mp henabled
      simp only [Endpoint.handle, hx, Option.elim_some]
      apply hs.goOn hx
      intro hclosed
      have hnot := hlost hclosed
      rw [hx] at hnot
      exact ⟨fun h => hnot.1 (congrArg some h), fun h => hnot.2 (congrArg some h)⟩
  | socketOpen x =>
      obtain ⟨-, hany⟩ := Bool.and_eq_true_iff.mp henabled
      obtain ⟨c, hx, hconnecting⟩ := (Option.any_eq_true _ _).mp hany
      simp only [Endpoint.handle, hx, Option.elim_some]
      apply hs.setClient (ne_initial_of_client hx)
      intro
      have hsocket : c.socket = .connecting := of_decide_eq_true hconnecting
      have hlive : c.socket.live = true := by rw [hsocket]; rfl
      have hheld := hs.clients x c hx (by rw [hsocket]; decide)
      unfold Held at hheld ⊢
      split at hheld
      · rw [hlive] at hheld
        cases hheld.2.1
      · next hclosed =>
          rw [if_neg hclosed]
          exact ⟨rfl, hheld.2⟩
  | ready x =>
      obtain ⟨-, hany⟩ := Bool.and_eq_true_iff.mp henabled
      obtain ⟨c, hx, hopen⟩ := (Option.any_eq_true _ _).mp hany
      simp only [Endpoint.handle, hx, Option.elim_some]
      apply hs.onReady hx (of_decide_eq_true hopen)
  | socketClose x =>
      obtain ⟨hcalm, hany⟩ := Bool.and_eq_true_iff.mp henabled
      obtain ⟨c, hx, hnot⟩ := (Option.any_eq_true _ _).mp hany
      simp only [Endpoint.handle, hx, Option.elim_some]
      apply hs.onSocketClose hcalm hx
      intro h
      rw [h] at hnot
      cases hnot
  | shutdown =>
      apply hs.shutdown
      apply Nat.ne_of_gt
      apply of_decide_eq_true (Bool.and_eq_true_iff.mp henabled).1

theorem released (hs : s.Tidy) :
  s.Released
  := by
  intro hclosed hsettled
  have hnone : ∀ x e, s.elections.get x ≠ some e := by
    intro x e hx
    have hmem : x ∈ s.elections.keys := JsMap.mem_keys.mpr ⟨e, hx⟩
    rw [hsettled] at hmem
    cases hmem
  constructor
  · intro x hx
    obtain ⟨-, hopen⟩ | hwon := hs.transports x hx
    · rw [hclosed] at hopen
      cases hopen
    · exact hnone x _ hwon
  · constructor
    · intro x c hx
      by_contra hlive
      rw [Bool.not_eq_false] at hlive
      have hheld := hs.clients x c hx (SocketState.ne_closed_of_live hlive)
      unfold Held at hheld
      split at hheld
      · rw [hlive] at hheld
        cases hheld.2.1
      · obtain ⟨-, ⟨-, hopen, -⟩ | ⟨hconnecting, -⟩ | ⟨hconnected, -⟩⟩ := hheld
        · rw [hclosed] at hopen
          cases hopen
        · exact hnone x _ hconnecting
        · exact hnone x _ hconnected
    · rw [← Bool.not_eq_true]
      intro harmed
      have hopen := (hs.timer harmed).1
      rw [hclosed] at hopen
      cases hopen

end Tidy

/-- In every run in which the elections that go on after the shutdown have lost, nothing is held
after it. -/
theorem released_of_lost (s : Endpoint) (h : (system.restrict Lost).Reaches .initial s) :
  s.Released
  := by
  apply Tidy.released
  apply h.preserves _ Tidy.initial
  exact fun s event hs henabled => hs.handle henabled.1 henabled.2

/-- A guest loses its host and elects again. -/
def sampleReelection : List EndpointEvent :=
  [.create false false, .bindFails 0, .goOn 0 false, .socketOpen 0, .ready 0, .goOn 0 false,
    .socketClose 0, .timer false false]

/-- The endpoint is shut down when the election is over. -/
theorem released_of_lost_hosting :
  ∃ s, (system.restrict Lost).Reaches .initial s ∧ s.broker = some 1 ∧ s.closed = true ∧
    s.Released
  := by
  obtain ⟨s, hs, hany⟩ := EventSystem.exists_reaches_of_play (system.restrict Lost)
    (sampleReelection ++ [.listening 1, .goOn 1 false, .shutdown]) .initial
    (fun s => s.broker = some 1 ∧ s.closed = true) (by decide)
  obtain ⟨hbroker, hclosed⟩ := of_decide_eq_true hany
  use s, hs, hbroker, hclosed
  apply released_of_lost s hs

/-- The endpoint is shut down while it binds the port, and keeps it. -/
theorem hosting_after_shutdown :
  ¬ ∀ s, system.Reaches .initial s → s.Released
  := by
  intro h
  obtain ⟨s, hs, hany⟩ := EventSystem.exists_reaches_of_play system
    (sampleReelection ++ [.shutdown, .listening 1, .goOn 1 false]) .initial
    (fun s => s.closed = true ∧ s.elections.keys = [] ∧ s.transports.get 1 = some .listening)
    (by decide)
  obtain ⟨hclosed, hsettled, hlistening⟩ := of_decide_eq_true hany
  apply (h s hs hclosed hsettled).1 1 hlistening

end Endpoint

end Browser

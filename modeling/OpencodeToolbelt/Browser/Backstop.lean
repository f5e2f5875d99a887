import OpencodeToolbelt.Browser.AgentClient
import OpencodeToolbelt.Browser.Broker
import Mathlib.Tactic.Linarith

/-!
# The timers of forwarded commands

A guest sets a timer of its own for a command that it forwards to the broker of another process.
It is a backstop when it comes after the timer of the broker. The two agree on the timeout that
the command asks for, but not on the one that they fall back on.
-/

namespace Browser

/-- The delay of a timer that is only set for a positive one. -/
def armed (delay : ℚ) : Option ℚ := if 0 < delay then some delay else none

/-- The timer of the guest. -/
def AgentClient.Options.delay (guest : AgentClient.Options) (override : Option ℚ) : Option ℚ :=
  armed (guest.localTimeout override)

/-- The ceiling of the timeouts of commands. -/
def BrokerOptions.ceiling (host : BrokerOptions) : ℚ :=
  host.maxCommandMs.getD DEFAULT_MAX_COMMAND_MS

/-- The timer of the broker. -/
def BrokerOptions.delay (host : BrokerOptions) (override : Option ℚ) : Option ℚ :=
  armed (Broker.timeoutFor host override)

/-- The longest delay that a timer takes: longer ones fire at once. -/
def MAX_DELAY_MS : ℚ := 2147483647

/-- The timer of a guest comes after that of the broker, and does without only if the broker does
without. -/
structure IsBackstop (guest broker : Option ℚ) : Prop where
  absent : guest = none → broker = none
  later : ∀ delay, guest = some delay → ∃ first, broker = some first ∧ first < delay
  fits : ∀ delay, guest = some delay → delay ≤ MAX_DELAY_MS

/-- The broker sets a timer for a command where it has a delay for it. -/
theorem Broker.setTimer_isSome (b : Broker) (host : BrokerOptions) (cmd : Command)
    (reqId : String) :
  (b.setTimer host cmd reqId).2.isSome = (host.delay cmd.timeoutMs).isSome
  := by
  unfold setTimer BrokerOptions.delay armed
  dsimp only
  split
  · rfl
  · rfl

/-- The guest and the host fall back on timeouts in the right order, and what is asked for is
within range. -/
def InOrder (guest : AgentClient.Options) (host : BrokerOptions) : Option ℚ → Prop
  | some override =>
      0 < override →
        0 < host.ceiling ∧ override + AgentClient.AGENT_TIMEOUT_GRACE_MS ≤ MAX_DELAY_MS
  | none =>
      if 0 < guest.timeoutMs then
        0 < host.timeoutMs ∧ 0 < host.ceiling ∧
          min host.timeoutMs host.ceiling <
            guest.timeoutMs + AgentClient.AGENT_TIMEOUT_GRACE_MS ∧
          guest.timeoutMs + AgentClient.AGENT_TIMEOUT_GRACE_MS ≤ MAX_DELAY_MS
      else host.timeoutMs ≤ 0 ∨ host.ceiling ≤ 0

section Delays

variable (guest : AgentClient.Options) (host : BrokerOptions) (override : Option ℚ)

theorem AgentClient.Options.delay_of_pos (h : 0 < override.getD guest.timeoutMs) :
  guest.delay override = some (override.getD guest.timeoutMs + AGENT_TIMEOUT_GRACE_MS)
  := by
  have hgrace : 0 < AGENT_TIMEOUT_GRACE_MS := by norm_num [AGENT_TIMEOUT_GRACE_MS]
  simp only [delay, localTimeout, armed, if_pos h]
  rw [if_pos (by linarith)]

theorem AgentClient.Options.delay_of_nonpos (h : ¬ 0 < override.getD guest.timeoutMs) :
  guest.delay override = none
  := by
  simp only [delay, localTimeout, armed, if_neg h, lt_irrefl, if_false]

theorem BrokerOptions.delay_of_pos (h : 0 < override.getD host.timeoutMs)
    (hceiling : 0 < host.ceiling) :
  host.delay override = some (min (override.getD host.timeoutMs) host.ceiling)
  := by
  simp only [delay, Broker.timeoutFor, armed, if_neg (not_le.mpr h)]
  apply if_pos (lt_min h hceiling)

theorem BrokerOptions.delay_eq_none :
  host.delay override = none ↔ override.getD host.timeoutMs ≤ 0 ∨ host.ceiling ≤ 0
  := by
  constructor
  · intro hnone
    by_contra! hpos
    rw [host.delay_of_pos override hpos.1 hpos.2] at hnone
    cases hnone
  · intro h
    simp only [delay, Broker.timeoutFor, armed]
    split
    · apply if_neg (lt_irrefl _)
    · next hpos =>
        apply if_neg
        rw [not_lt]
        apply min_le_of_right_le (h.resolve_left hpos)

/-- A guest with a timer comes behind the broker where the broker has one. -/
theorem isBackstop_of_pos (h : 0 < override.getD guest.timeoutMs) :
  IsBackstop (guest.delay override) (host.delay override) ↔
    (0 < override.getD host.timeoutMs ∧ 0 < host.ceiling ∧
      min (override.getD host.timeoutMs) host.ceiling <
        override.getD guest.timeoutMs + AgentClient.AGENT_TIMEOUT_GRACE_MS ∧
      override.getD guest.timeoutMs + AgentClient.AGENT_TIMEOUT_GRACE_MS ≤ MAX_DELAY_MS)
  := by
  have hguest := guest.delay_of_pos override h
  constructor
  · intro hbackstop
    obtain ⟨first, hfirst, hlt⟩ := hbackstop.later _ hguest
    have hboth : 0 < override.getD host.timeoutMs ∧ 0 < host.ceiling := by
      by_contra hnot
      rw [not_and_or, not_lt, not_lt] at hnot
      rw [(host.delay_eq_none override).mpr hnot] at hfirst
      cases hfirst
    rw [host.delay_of_pos override hboth.1 hboth.2] at hfirst
    obtain rfl := Option.some.inj hfirst
    exact ⟨hboth.1, hboth.2, hlt, hbackstop.fits _ hguest⟩
  · rintro ⟨hhost, hceiling, hlt, hle⟩
    rw [hguest, host.delay_of_pos override hhost hceiling]
    constructor
    · intro hnone
      cases hnone
    · intro delay hdelay
      obtain rfl := Option.some.inj hdelay
      exact ⟨_, rfl, hlt⟩
    · intro delay hdelay
      obtain rfl := Option.some.inj hdelay
      apply hle

/-- A guest without a timer leaves the command to a broker without one. -/
theorem isBackstop_of_nonpos (h : ¬ 0 < override.getD guest.timeoutMs) :
  IsBackstop (guest.delay override) (host.delay override) ↔
    override.getD host.timeoutMs ≤ 0 ∨ host.ceiling ≤ 0
  := by
  rw [guest.delay_of_nonpos override h, ← host.delay_eq_none override]
  constructor
  · intro hbackstop
    apply hbackstop.absent rfl
  · intro hnone
    rw [hnone]
    constructor
    · intro _
      rfl
    · intro delay hdelay
      cases hdelay
    · intro delay hdelay
      cases hdelay

end Delays

/-- The timer of a guest is a backstop exactly when the options of the guest and of the host are
in order. -/
theorem isBackstop_iff_inOrder (guest : AgentClient.Options) (host : BrokerOptions)
    (override : Option ℚ) :
  IsBackstop (guest.delay override) (host.delay override) ↔ InOrder guest host override
  := by
  cases override with
  | none =>
      by_cases h : 0 < guest.timeoutMs
      · rw [InOrder, if_pos h]
        apply isBackstop_of_pos guest host none h
      · rw [InOrder, if_neg h]
        apply isBackstop_of_nonpos guest host none h
  | some override =>
      by_cases h : 0 < override
      · rw [isBackstop_of_pos guest host (some override) h]
        constructor
        · intro hbackstop _
          exact ⟨hbackstop.2.1, hbackstop.2.2.2⟩
        · intro horder
          obtain ⟨hceiling, hle⟩ := horder h
          refine ⟨h, hceiling, ?_, hle⟩
          apply lt_of_le_of_lt (min_le_left _ _)
          norm_num [AgentClient.AGENT_TIMEOUT_GRACE_MS]
      · rw [isBackstop_of_nonpos guest host (some override) h]
        constructor
        · intro _ hpos
          apply absurd hpos h
        · intro _
          apply Or.inl (not_lt.mp h)

/-- A guest with a timeout of one second gives up long before a host with one of thirty. -/
theorem guest_gives_up_first :
  ¬ IsBackstop (AgentClient.Options.delay ⟨1000⟩ none)
    (BrokerOptions.delay ⟨none, 30000, none⟩ none)
  := by
  rw [isBackstop_iff_inOrder]
  unfold InOrder
  norm_num [BrokerOptions.ceiling, DEFAULT_MAX_COMMAND_MS, AgentClient.AGENT_TIMEOUT_GRACE_MS]

end Browser

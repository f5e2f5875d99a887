import OpencodeToolbelt.AuthCore.DeviceCode
import Mathlib.Tactic.Linarith

/-!
# The pace of polling

The waits between the polls grow as the token endpoint asks, except that a transport failure cuts
an interval of more than a minute down to one. The deadline ends the polling.
-/

namespace DeviceCode

variable {auth : DeviceAuthorizationResponse} {start : ℚ} {polls : ℕ → Poll}

/-! ### Rounds -/

/-- A round in which the loop goes on: there was time left, and the answer of the poll asks to
poll again. -/
structure GoesOn (auth : DeviceAuthorizationResponse) (start : ℚ) (polls : ℕ → Poll) (made : ℕ)
    (s s' : PollState) : Prop where
  timeLeft : 0 < remainingMs auth start s
  now : s'.now = answeredAt auth start s (polls made)
  again : react s (polls made).answer =
    .again s'.intervalSeconds s'.consecutiveTransientFailures

theorem goesOn_of_round {made : ℕ} {s s' : PollState}
    (h : round auth start polls made s = .inl s') :
  GoesOn auth start polls made s s'
  := by
  rw [round] at h
  split at h
  · cases h
  · next htime =>
      dsimp only at h
      split at h
      · next intervalSeconds failures hreact =>
          rw [← Sum.inl.inj h]
          apply GoesOn.mk (not_le.mp htime) rfl hreact
      · cases h

theorem goesOn_of_stateAt {made : ℕ} {s s' : PollState}
    (h : stateAt auth start polls made = some s)
    (h' : stateAt auth start polls (made + 1) = some s') :
  GoesOn auth start polls made s s'
  := by
  rw [stateAt, h, Option.bind_some, Sum.getLeft?_eq_some_iff] at h'
  apply goesOn_of_round h'

theorem exists_stateAt {made : ℕ} {s' : PollState}
    (h : stateAt auth start polls (made + 1) = some s') :
  ∃ s, stateAt auth start polls made = some s ∧ GoesOn auth start polls made s s'
  := by
  obtain ⟨s, hs, -⟩ := Option.bind_eq_some_iff.mp h
  exact ⟨s, hs, goesOn_of_stateAt hs h⟩

/-- The answer asks to poll less often. -/
def PollAnswer.slowsDown : PollAnswer → Bool
  | .refused status body =>
      decide (400 ≤ status ∧ status < 500) &&
        match errorCode body with
        | .ok (.string "slow_down") => true
        | _ => false
  | _ => false

theorem stateAt_succ {made : ℕ} {s : PollState} (h : stateAt auth start polls made = some s)
    (htime : 0 < remainingMs auth start s) {intervalSeconds failures : ℕ}
    (hagain : react s (polls made).answer = .again intervalSeconds failures) :
  stateAt auth start polls (made + 1) =
    some ⟨answeredAt auth start s (polls made), intervalSeconds, failures⟩
  := by
  rw [stateAt, h, Option.bind_some, round, if_neg (not_le.mpr htime)]
  dsimp only
  rw [hagain]
  rfl

/-- How an answer changes the interval. -/
inductive Changes (intervalSeconds : ℕ) (answer : PollAnswer) : ℕ → Prop where
  | transport (h : answer = .transport) :
      Changes intervalSeconds answer
        (min (intervalSeconds + SLOW_DOWN_INCREMENT_SECONDS) MAX_POLL_INTERVAL_SECONDS)
  | pending (h : answer.slowsDown = false) (ht : answer ≠ .transport) :
      Changes intervalSeconds answer intervalSeconds
  | slowDown (h : answer.slowsDown = true) :
      Changes intervalSeconds answer (intervalSeconds + SLOW_DOWN_INCREMENT_SECONDS)

theorem changes_of_react {s : PollState} {answer : PollAnswer} {intervalSeconds failures : ℕ}
    (h : react s answer = .again intervalSeconds failures) :
  Changes s.intervalSeconds answer intervalSeconds
  := by
  cases answer with
  | typeError => cases h
  | transport =>
      cases h
      apply Changes.transport rfl
  | success payload receivedAt =>
      cases payload with
      | none => cases h
      | some payload => cases h
  | refused status body =>
      rw [react] at h
      split at h
      · next hstatus =>
          split at h
          · cases h
          · next hcode =>
              cases h
              apply Changes.pending
              · simp [PollAnswer.slowsDown, hcode]
              · simp
          · next hcode =>
              cases h
              apply Changes.slowDown
              simp [PollAnswer.slowsDown, hcode, hstatus]
          · cases h
          · cases h
          · cases h
      · cases h

/-! ### Waits -/

/-- The interval that the server has last required: the initial one, and more for every answer
that has asked for it. -/
def requiredSeconds (auth : DeviceAuthorizationResponse) (polls : ℕ → Poll) (made : ℕ) : ℕ :=
  initialInterval auth + SLOW_DOWN_INCREMENT_SECONDS *
    (List.range made).countP fun k => (polls k).answer.slowsDown

theorem requiredSeconds_succ (auth : DeviceAuthorizationResponse) (polls : ℕ → Poll)
    (made : ℕ) :
  requiredSeconds auth polls (made + 1) = requiredSeconds auth polls made +
    if (polls made).answer.slowsDown then SLOW_DOWN_INCREMENT_SECONDS else 0
  := by
  rw [requiredSeconds, requiredSeconds, List.range_succ, List.countP_append,
    List.countP_singleton]
  split <;> ring

theorem waitAt_eq_some {made : ℕ} {wait : ℚ} :
  waitAt auth start polls made = some wait ↔
    ∃ s, stateAt auth start polls made = some s ∧ 0 < remainingMs auth start s ∧
      wait = waitMs auth start s
  := by
  rw [waitAt, Option.bind_eq_some_iff]
  apply exists_congr
  intro s
  apply and_congr_right
  intro _
  split
  · next h => simp [not_lt.mpr h]
  · next h => simp [not_le.mp h, eq_comm]

/-- No time is left after a wait that the deadline has cut short. -/
theorem remainingMs_of_cut {made : ℕ} {s s' : PollState} (h : GoesOn auth start polls made s s')
    (hcut : waitMs auth start s = remainingMs auth start s) :
  remainingMs auth start s' ≤ 0
  := by
  have hlate := (polls made).late_nonneg
  have hduration := (polls made).duration_nonneg
  rw [remainingMs, h.now, answeredAt, hcut, remainingMs]
  linarith

theorem waitAt_succ_of_cut {made : ℕ} {s : PollState}
    (h : stateAt auth start polls made = some s)
    (hcut : waitMs auth start s = remainingMs auth start s) :
  waitAt auth start polls (made + 1) = none
  := by
  rw [Option.eq_none_iff_forall_ne_some]
  intro wait hwait
  obtain ⟨s', hs', htime, -⟩ := waitAt_eq_some.mp hwait
  have hover := remainingMs_of_cut (goesOn_of_stateAt h hs') hcut
  apply absurd htime (not_lt.mpr hover)

/-- Every wait is at least as long as the one before it and as the server requires, except for a
last one that the deadline cuts short. -/
def Paced (auth : DeviceAuthorizationResponse) (start : ℚ) (polls : ℕ → Poll) : Prop :=
  ∀ made s wait, stateAt auth start polls made = some s →
    waitAt auth start polls made = some wait →
    ((∀ before previous, made = before + 1 → waitAt auth start polls before = some previous →
        previous ≤ wait) ∧
      requiredSeconds auth polls made * 1000 ≤ wait) ∨
    (wait = remainingMs auth start s ∧ waitAt auth start polls (made + 1) = none)

/-- No poll fails in transport at an interval of more than a minute with more than a minute left
when it has failed. -/
def FailsInTime (auth : DeviceAuthorizationResponse) (start : ℚ) (polls : ℕ → Poll) : Prop :=
  ∀ made s, stateAt auth start polls made = some s → 0 < remainingMs auth start s →
    (polls made).answer = .transport → MAX_POLL_INTERVAL_SECONDS < s.intervalSeconds →
    deadlineMs auth start - answeredAt auth start s (polls made) ≤
      MAX_POLL_INTERVAL_SECONDS * 1000

theorem cut_of_le {s : PollState} (h : remainingMs auth start s ≤ s.intervalSeconds * 1000) :
  waitMs auth start s = remainingMs auth start s
  := min_eq_right h

theorem cut_of_over {s : PollState} (h : remainingMs auth start s ≤ 0) :
  waitMs auth start s = remainingMs auth start s
  := by
  apply cut_of_le (h.trans _)
  positivity

/-- After a poll the interval has not become shorter, unless the deadline cuts the next wait
short. -/
theorem interval_le (hfails : FailsInTime auth start polls) {made : ℕ} {s s' : PollState}
    (hs : stateAt auth start polls made = some s) (h : GoesOn auth start polls made s s') :
  s.intervalSeconds ≤ s'.intervalSeconds ∨ waitMs auth start s' = remainingMs auth start s'
  := by
  have hchange := changes_of_react h.again
  generalize hseconds : s'.intervalSeconds = seconds at hchange ⊢
  cases hchange with
  | transport htransport =>
      by_cases hlong : MAX_POLL_INTERVAL_SECONDS < s.intervalSeconds
      · right
        have hleft := hfails made s hs h.timeLeft htransport hlong
        have hmin : s'.intervalSeconds = MAX_POLL_INTERVAL_SECONDS := by
          rw [hseconds]
          apply min_eq_right
          apply Nat.le_add_right_of_le hlong.le
        apply cut_of_le
        rw [remainingMs, h.now, hmin]
        apply hleft
      · left
        apply le_min (Nat.le_add_right _ _) (not_lt.mp hlong)
  | pending _ _ =>
      left
      apply le_rfl
  | slowDown _ =>
      left
      apply Nat.le_add_right

/-- The interval is what the server requires, unless the deadline cuts the next wait short. -/
theorem required_le (hfails : FailsInTime auth start polls) {made : ℕ} {s : PollState}
    (hs : stateAt auth start polls made = some s) :
  requiredSeconds auth polls made ≤ s.intervalSeconds ∨
    waitMs auth start s = remainingMs auth start s
  := by
  induction made generalizing s with
  | zero =>
      left
      rw [← Option.some.inj hs]
      apply le_of_eq
      rfl
  | succ made ih =>
      obtain ⟨before, hbefore, h⟩ := exists_stateAt hs
      rcases ih hbefore with hle | hcut
      · have hchange := changes_of_react h.again
        rcases interval_le hfails hbefore h with hgrows | hcut
        · left
          rw [requiredSeconds_succ]
          generalize s.intervalSeconds = seconds at hchange hgrows
          cases hchange with
          | transport htransport =>
              rw [htransport]
              apply hle.trans hgrows
          | pending hslow _ =>
              rw [hslow]
              apply hle
          | slowDown hslow =>
              rw [hslow, if_pos rfl]
              apply Nat.add_le_add_right hle
        · right
          apply hcut
      · right
        apply cut_of_over (remainingMs_of_cut h hcut)

theorem paced_of_failsInTime (h : FailsInTime auth start polls) :
  Paced auth start polls
  := by
  intro made s wait hs hwait
  obtain ⟨s', hs', htime, rfl⟩ := waitAt_eq_some.mp hwait
  obtain rfl := Option.some.inj (hs.symm.trans hs')
  by_cases hcut : waitMs auth start s = remainingMs auth start s
  · right
    use hcut, waitAt_succ_of_cut hs hcut
  · left
    have hfull : waitMs auth start s = s.intervalSeconds * 1000 := by
      apply min_eq_left
      apply le_of_not_ge fun hle => hcut (cut_of_le hle)
    constructor
    · intro before previous hmade hprevious
      subst hmade
      obtain ⟨s₀, hs₀, -, rfl⟩ := waitAt_eq_some.mp hprevious
      have hle := (interval_le h hs₀ (goesOn_of_stateAt hs₀ hs)).resolve_right hcut
      apply (min_le_left _ _).trans
      rw [hfull]
      gcongr
    · have hle := (required_le h hs).resolve_right hcut
      rw [hfull]
      gcongr

/-- A poll that fails in transport at a longer interval is followed by a shorter wait. -/
theorem failsInTime_of_paced (h : Paced auth start polls) :
  FailsInTime auth start polls
  := by
  intro made s hs htime htransport hlong
  by_contra hleft
  rw [not_le] at hleft
  have hagain : react s (polls made).answer = .again MAX_POLL_INTERVAL_SECONDS
      (s.consecutiveTransientFailures + 1) := by
    rw [htransport, react, min_eq_right (Nat.le_add_right_of_le hlong.le)]
  have hs' := stateAt_succ hs htime hagain
  have hgoes := goesOn_of_stateAt hs hs'
  have hminute : (0 : ℚ) < MAX_POLL_INTERVAL_SECONDS * 1000 := by
    rw [MAX_POLL_INTERVAL_SECONDS]
    norm_num
  have hwait' := waitAt_eq_some.mpr ⟨_, hs', hminute.trans hleft, rfl⟩
  have hshort : waitMs auth start ⟨answeredAt auth start s (polls made),
      MAX_POLL_INTERVAL_SECONDS, s.consecutiveTransientFailures + 1⟩ =
      MAX_POLL_INTERVAL_SECONDS * 1000 := min_eq_left hleft.le
  have hfull : waitMs auth start s = s.intervalSeconds * 1000 := by
    apply min_eq_left
    apply le_of_not_ge
    intro hle
    have hover := remainingMs_of_cut hgoes (cut_of_le hle)
    apply absurd (hminute.trans hleft) (not_lt.mpr hover)
  have hgrew : (MAX_POLL_INTERVAL_SECONDS : ℚ) * 1000 < s.intervalSeconds * 1000 := by
    gcongr
  rcases h (made + 1) _ _ hs' hwait' with ⟨hmono, -⟩ | ⟨hcut, -⟩
  · have hle := hmono made _ rfl (waitAt_eq_some.mpr ⟨s, hs, htime, rfl⟩)
    rw [hshort, hfull] at hle
    apply absurd hgrew (not_lt.mpr hle)
  · rw [hshort] at hcut
    apply absurd hcut hleft.ne

/-- The waits are paced if and only if no poll fails in transport at an interval of more than a
minute with more than a minute left. -/
theorem paced_iff (auth : DeviceAuthorizationResponse) (start : ℚ) (polls : ℕ → Poll) :
  Paced auth start polls ↔ FailsInTime auth start polls
  := by
  constructor
  · apply failsInTime_of_paced
  · apply paced_of_failsInTime

/-- An answer that never comes. -/
def unreachable : Poll where
  late := 0
  answer := .transport
  duration := 0
  late_nonneg := le_rfl
  duration_nonneg := le_rfl

/-- An authorization for half an hour, to be polled for every ninety seconds. -/
def sampleAuthorization : DeviceAuthorizationResponse where
  deviceCode := "device"
  userCode := "user"
  verificationUri := "https://idp/device"
  verificationUriComplete := none
  expiresIn := 1800
  interval := some 90
  expiresIn_pos := by norm_num
  interval_pos := by
    rintro _ ⟨⟩
    norm_num

/-- The wait after a transport failure is a minute, although the server requires ninety seconds. -/
theorem shortens_interval :
  ¬∀ (auth : DeviceAuthorizationResponse) (start : ℚ) (polls : ℕ → Poll), Paced auth start polls
  := by
  intro h
  have hpaced := h sampleAuthorization 0 fun _ => unreachable
  have hleft := failsInTime_of_paced hpaced 0 ⟨0, 90, 0⟩ rfl (by decide +kernel) rfl (by decide)
  revert hleft
  decide +kernel

/-! ### The end of the polling -/

theorem finishAt_eq_some {made : ℕ} {finish : Finish}
    (h : finishAt auth start polls made = some finish) :
  ∃ s, stateAt auth start polls made = some s ∧
    (remainingMs auth start s ≤ 0 ∧ finish = ⟨.error .deviceCodeExpired, s.now, made⟩ ∨
      0 < remainingMs auth start s ∧ ∃ result, react s (polls made).answer = .finish result ∧
        finish = ⟨result, answeredAt auth start s (polls made), made + 1⟩)
  := by
  obtain ⟨s, hs, hround⟩ := Option.bind_eq_some_iff.mp h
  rw [Sum.getRight?_eq_some_iff, round] at hround
  use s, hs
  split at hround
  · next htime =>
      left
      use htime
      apply (Sum.inr.inj hround).symm
  · next htime =>
      right
      use not_le.mp htime
      dsimp only at hround
      split at hround
      · cases hround
      · next result hreact =>
          use result, hreact
          apply (Sum.inr.inj hround).symm

/-- The loop has ended within some rounds or starts over once more. -/
theorem finishes_or_starts (auth : DeviceAuthorizationResponse) (start : ℚ) (polls : ℕ → Poll)
    (made : ℕ) :
  (∃ earlier < made, ∃ finish, finishAt auth start polls earlier = some finish) ∨
    ∃ s, stateAt auth start polls made = some s
  := by
  induction made with
  | zero =>
      right
      use ⟨start, initialInterval auth, 0⟩
      rfl
  | succ made ih =>
      rcases ih with ⟨earlier, hlt, hfinish⟩ | ⟨s, hs⟩
      · left
        use earlier, hlt.trans (Nat.lt_succ_self made)
      · cases hround : round auth start polls made s with
        | inl s' =>
            right
            use s'
            rw [stateAt, hs, Option.bind_some, hround, Sum.getLeft?_inl]
        | inr finish =>
            left
            use made, Nat.lt_succ_self made, finish
            rw [finishAt, hs, Option.bind_some, hround, Sum.getRight?_inr]

/-- No interval is shorter than this. -/
def shortestSeconds (auth : DeviceAuthorizationResponse) : ℕ :=
  min (initialInterval auth) MAX_POLL_INTERVAL_SECONDS

theorem shortestSeconds_pos (auth : DeviceAuthorizationResponse) :
  0 < shortestSeconds auth
  := by
  apply lt_min
  · rw [initialInterval]
    cases hinterval : auth.interval with
    | none =>
        rw [Option.getD_none, DEFAULT_POLL_INTERVAL_SECONDS]
        norm_num
    | some seconds => apply auth.interval_pos seconds hinterval
  · rw [MAX_POLL_INTERVAL_SECONDS]
    norm_num

theorem shortestSeconds_le {made : ℕ} {s : PollState}
    (hs : stateAt auth start polls made = some s) :
  shortestSeconds auth ≤ s.intervalSeconds
  := by
  induction made generalizing s with
  | zero =>
      rw [← Option.some.inj hs]
      apply min_le_left
  | succ made ih =>
      obtain ⟨before, hbefore, h⟩ := exists_stateAt hs
      have hle := ih hbefore
      have hchange := changes_of_react h.again
      generalize s.intervalSeconds = seconds at hchange ⊢
      cases hchange with
      | transport _ =>
          apply le_min (hle.trans (Nat.le_add_right _ _))
          apply min_le_right
      | pending _ _ => apply hle
      | slowDown _ => apply hle.trans (Nat.le_add_right _ _)

/-- Every poll before the deadline has taken a whole interval. -/
theorem elapsed_le {made : ℕ} {s : PollState} (hs : stateAt auth start polls made = some s)
    (htime : 0 < remainingMs auth start s) :
  start + made * (shortestSeconds auth * 1000) ≤ s.now
  := by
  induction made generalizing s with
  | zero =>
      rw [← Option.some.inj hs]
      simp
  | succ made ih =>
      obtain ⟨before, hbefore, h⟩ := exists_stateAt hs
      have hle := ih hbefore h.timeLeft
      have hfull : waitMs auth start before = before.intervalSeconds * 1000 := by
        apply min_eq_left
        apply le_of_not_ge
        intro hcut
        apply absurd htime (not_lt.mpr (remainingMs_of_cut h (cut_of_le hcut)))
      have hinterval : (shortestSeconds auth : ℚ) ≤ before.intervalSeconds :=
        Nat.cast_le.mpr (shortestSeconds_le hbefore)
      have hlate := (polls made).late_nonneg
      have hduration := (polls made).duration_nonneg
      rw [h.now, answeredAt, hfull]
      push_cast
      linarith

/-- How many polls there is time for. -/
def maxPolls (auth : DeviceAuthorizationResponse) : ℕ :=
  ⌈auth.expiresIn / shortestSeconds auth⌉₊

theorem made_lt {made : ℕ} {s : PollState} (hs : stateAt auth start polls made = some s)
    (htime : 0 < remainingMs auth start s) :
  made < maxPolls auth
  := by
  have hle := elapsed_le hs htime
  have hpos : (0 : ℚ) < shortestSeconds auth := Nat.cast_pos.mpr (shortestSeconds_pos auth)
  rw [maxPolls, Nat.lt_ceil, lt_div_iff₀ hpos]
  rw [remainingMs, deadlineMs] at htime
  linarith

/-- A request that starts by the deadline is answered as long after it as the request takes. -/
theorem answeredAt_le {s : PollState} {poll : Poll} (hexact : poll.late = 0) :
  answeredAt auth start s poll ≤ deadlineMs auth start + poll.duration
  := by
  have hwait : waitMs auth start s ≤ deadlineMs auth start - s.now := min_le_right _ _
  rw [answeredAt, hexact]
  linarith

/-- The loop ends with the answer of a poll that was made by the deadline, or behind one. -/
structure EndsInTime (auth : DeviceAuthorizationResponse) (start : ℚ) (polls : ℕ → Poll)
    (finish : Finish) : Prop where
  polls_le : finish.polls ≤ ⌈auth.expiresIn / min (initialInterval auth : ℚ) 60⌉₊ + 1
  time : ∃ last, finish.polls = last + 1 ∧
    finish.time ≤ deadlineMs auth start + (polls last).duration
  token : ∀ token, finish.result = .ok token → ∃ last payload receivedAt,
    finish.polls = last + 1 ∧ (polls last).answer = .success (some payload) receivedAt ∧
      nonEmpty payload.accessToken = some token.accessToken ∧
      nonEmpty payload.refreshToken = token.refreshToken ∧ token.refreshToken.isSome

theorem maxPolls_eq (auth : DeviceAuthorizationResponse) :
  maxPolls auth = ⌈auth.expiresIn / min (initialInterval auth : ℚ) 60⌉₊
  := by
  rw [maxPolls, shortestSeconds, MAX_POLL_INTERVAL_SECONDS]
  push_cast
  rfl

/-- A token set made without a fallback carries the tokens of the response. -/
theorem tokens_of_toTokenSet {payload : TokenPayload} {now : ℕ} {token : TokenSet}
    (h : toTokenSet payload none true now = .ok token) :
  nonEmpty payload.accessToken = some token.accessToken ∧
    nonEmpty payload.refreshToken = token.refreshToken ∧ token.refreshToken.isSome
  := by
  rw [toTokenSet] at h
  split at h
  · cases h
  · next accessToken haccess =>
      dsimp only at h
      rw [Option.or_none] at h
      split at h
      · cases h
      · next hrefresh =>
          cases h
          use haccess, rfl
          cases hpayload : nonEmpty payload.refreshToken with
          | none =>
              rw [hpayload] at hrefresh
              simp [nonEmpty] at hrefresh
          | some refreshToken => rfl

theorem success_of_react {s : PollState} {answer : PollAnswer} {token : TokenSet}
    (h : react s answer = .finish (.ok token)) :
  ∃ payload receivedAt, answer = .success (some payload) receivedAt ∧
    toTokenSet payload none true receivedAt = .ok token
  := by
  cases answer with
  | typeError => cases h
  | transport => cases h
  | success payload receivedAt =>
      cases payload with
      | none => cases h
      | some payload =>
          use payload, receivedAt, rfl
          rw [react, PollStep.finish.injEq] at h
          cases htokens : toTokenSet payload none true receivedAt with
          | error e =>
              rw [htokens] at h
              cases h
          | ok token' =>
              rw [htokens] at h
              cases h
              rfl
  | refused status body =>
      rw [react] at h
      split at h
      · split at h <;> cases h
      · cases h

theorem endsInTime_of_finish (hexact : ∀ k, (polls k).late = 0) {made : ℕ} {finish : Finish}
    (hmade : made ≤ maxPolls auth) (h : finishAt auth start polls made = some finish) :
  EndsInTime auth start polls finish
  := by
  obtain ⟨s, hs, ⟨htime, rfl⟩ | ⟨htime, result, hreact, rfl⟩⟩ := finishAt_eq_some h
  · cases made with
    | zero =>
        rw [← Option.some.inj hs, remainingMs, deadlineMs] at htime
        have hpos := auth.expiresIn_pos
        dsimp only at htime
        linarith
    | succ last =>
        obtain ⟨before, -, hgoes⟩ := exists_stateAt hs
        constructor
        · rw [← maxPolls_eq]
          apply hmade.trans (Nat.le_succ _)
        · use last, rfl
          dsimp only
          rw [hgoes.now]
          apply answeredAt_le (hexact last)
        · intro token htoken
          cases htoken
  · constructor
    · rw [← maxPolls_eq]
      apply Nat.succ_le_succ hmade
    · use made, rfl
      apply answeredAt_le (hexact made)
    · intro token htoken
      dsimp only at htoken
      rw [htoken] at hreact
      obtain ⟨payload, receivedAt, hanswer, htokens⟩ := success_of_react hreact
      use made, payload, receivedAt, rfl, hanswer
      apply tokens_of_toTokenSet htokens

/-- With sleeps of exactly the length asked for, the loop ends, and in time. -/
theorem ends_in_time (auth : DeviceAuthorizationResponse) (start : ℚ) (polls : ℕ → Poll)
    (hexact : ∀ k, (polls k).late = 0) :
  ∃ made finish, finishAt auth start polls made = some finish ∧
    EndsInTime auth start polls finish
  := by
  rcases finishes_or_starts auth start polls (maxPolls auth) with
    ⟨made, hlt, finish, hfinish⟩ | ⟨s, hs⟩
  · exact ⟨made, finish, hfinish, endsInTime_of_finish hexact hlt.le hfinish⟩
  · have hover : remainingMs auth start s ≤ 0 := by
      apply le_of_not_gt
      intro htime
      apply lt_irrefl _ (made_lt hs htime)
    have hfinish : finishAt auth start polls (maxPolls auth) =
        some ⟨.error .deviceCodeExpired, s.now, maxPolls auth⟩ := by
      rw [finishAt, hs, Option.bind_some, round, if_pos hover]
      rfl
    exact ⟨_, _, hfinish, endsInTime_of_finish hexact le_rfl hfinish⟩

theorem ends_in_time_unreachable :
  ∃ made finish, finishAt sampleAuthorization 0 (fun _ => unreachable) made = some finish ∧
    EndsInTime sampleAuthorization 0 (fun _ => unreachable) finish
  := ends_in_time sampleAuthorization 0 (fun _ => unreachable) fun _ => rfl

end DeviceCode

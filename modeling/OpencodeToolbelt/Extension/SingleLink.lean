import OpencodeToolbelt.Extension.BridgeClient

/-!
# One socket at a time

The client has one socket at a time, and none after `disconnect`, as long as no opening is
overtaken on the way to its socket.
-/

namespace Extension

/-- What the client keeps to along a run: no two of its sockets are open or about to be, and
after a `disconnect` that is the last word nothing is opened, armed or executed. -/
structure SingleLink (steps : List (BridgeClient × BridgeEvent)) (s : BridgeClient) : Prop where
  single : ∀ k k' state state', s.sockets.get k = some state → s.sockets.get k' = some state' →
    state.live = true → state'.live = true → k = k'
  disconnected : ∀ before t after, steps = before ++ (t, .disconnect) :: after →
    (∀ step ∈ after, step.2 ≠ .connect ∧ step.2 ≠ .reconnect) →
      s.socketSeq = t.socketSeq ∧ (∀ timer, s.timers.has timer = false) ∧ s.executed = t.executed

namespace BridgeClient

/-- No socket is open or about to be. -/
def Alone (s : BridgeClient) : Prop :=
  ∀ k state, s.sockets.get k = some state → state.live = false

def alone (s : BridgeClient) : Bool := s.sockets.values.all fun state => !state.live

/-- Whether an event neither dials beside a socket nor lets an opening that has been overtaken
create its socket or arm a timer. -/
def Undisturbed (s : BridgeClient) : BridgeEvent → Prop
  | .connect => s.alone = true
  | .status i written urlValid =>
      ((s.openings.get i).all fun opening => !(opening.overtaken && written && urlValid)) = true
  | .settle i written =>
      ((s.openings.get i).all fun opening =>
        !(opening.overtaken && opening.await = .fail && written && !s.stopped)) = true
  | _ => True

instance (s : BridgeClient) (e : BridgeEvent) : Decidable (s.Undisturbed e) :=
  match e with
  | .connect | .status _ _ _ | .settle _ _ => inferInstanceAs (Decidable (_ = true))
  | .disconnect | .reconnect | .config _ _ | .timer _ | .socketOpen _ | .frame _ _
  | .socketClose _ => .isTrue trivial

theorem alone_iff {s : BridgeClient} :
  s.alone = true ↔ s.Alone
  := by
  simp only [alone, List.all_eq_true, Bool.not_eq_true']
  constructor
  · intro h k state hk
    apply h state (JsMap.mem_values.mpr ⟨k, hk⟩)
  · intro h state hmem
    obtain ⟨k, hk⟩ := JsMap.mem_values.mp hmem
    apply h k state hk

/-- The invariant of the client. -/
structure Linked (s : BridgeClient) : Prop where
  armed : ∀ t, s.timers.has t = true → s.reconnectTimer = some t ∧ s.stopped = false ∧ s.Alone
  live : ∀ k state, s.sockets.get k = some state → state.live = true → s.ws = some k
  ws : ∀ k, s.ws = some k → s.sockets.get k ≠ some .closing
  fresh : ∀ i opening, s.openings.get i = some opening → opening.overtaken = false →
    s.stopped = false ∧ (∀ t, s.timers.has t = false) ∧ s.Alone ∧
      ∀ j opening', s.openings.get j = some opening' → opening'.overtaken = false → j = i

section Steps

variable {s : BridgeClient}

theorem has_clearReconnect (h : ∀ t, s.timers.has t = true → s.reconnectTimer = some t) (t : ℕ) :
  s.clearReconnect.timers.has t = false
  := by
  rw [← Bool.not_eq_true]
  intro ht
  unfold clearReconnect at ht
  cases htimer : s.reconnectTimer with
  | none =>
      simp only [htimer, Option.elim_none] at ht
      have hnone := h t ht
      rw [htimer] at hnone
      cases hnone
  | some t' =>
      simp only [htimer, Option.elim_some, JsMap.has, JsMap.get_delete] at ht
      split at ht
      · cases ht
      · next hne =>
          have hsome := h t ht
          rw [htimer] at hsome
          exact hne (Option.some.inj hsome).symm

theorem overtaken_of_overtake {i : ℕ} {opening : Opening}
    (h : s.overtake.openings.get i = some opening) :
  opening.overtaken = true
  := by
  change (s.openings.mapValues _).get i = some opening at h
  rw [JsMap.get_mapValues, Option.map_eq_some_iff] at h
  obtain ⟨opening', -, rfl⟩ := h
  rfl

/-- The socket of the client is closed, and it has no other. -/
theorem Linked.alone_closeSocket (hs : s.Linked) :
  s.closeSocket.Alone
  := by
  intro k state hk
  change (s.sockets.mapValues _).get k = some state at hk
  rw [JsMap.get_mapValues, Option.map_eq_some_iff] at hk
  obtain ⟨state', hk', rfl⟩ := hk
  split
  · apply SocketState.live_close
  · next hne =>
      rw [← Bool.not_eq_true]
      exact fun hlive => hne (hs.live k state' hk' hlive)

namespace Linked

theorem initial :
  BridgeClient.initial.Linked
  := by
  constructor
  · exact fun t h => by cases h
  · exact fun k state h => by cases h
  · exact fun k h => by cases h
  · exact fun i opening h => by cases h

theorem closeSocket (hs : s.Linked) :
  s.closeSocket.Linked
  := by
  have halone := hs.alone_closeSocket
  constructor
  · intro t ht
    obtain ⟨htimer, hrunning, -⟩ := hs.armed t ht
    exact ⟨htimer, hrunning, halone⟩
  · intro k state hk hlive
    rw [halone k state hk] at hlive
    cases hlive
  · exact fun k h => by cases h
  · intro i opening hi hfresh
    obtain ⟨hrunning, hunarmed, -, honly⟩ := hs.fresh i opening hi hfresh
    exact ⟨hrunning, hunarmed, halone, honly⟩

theorem connect (hs : s.Linked) (halone : s.Alone) :
  s.connect.Linked
  := by
  have hunarmed : ∀ t, s.connect.timers.has t = false := by
    apply has_clearReconnect
    intro t ht
    apply (hs.armed t ht).1
  have hopening : ∀ i opening, s.connect.openings.get i = some opening →
      opening.overtaken = false → i = s.openingSeq := by
    intro i opening hi hfresh
    change (s.overtake.openings.set s.openingSeq _).get i = some opening at hi
    rw [JsMap.get_set] at hi
    split at hi
    · next heq => exact heq
    · rw [overtaken_of_overtake hi] at hfresh
      cases hfresh
  constructor
  · intro t ht
    rw [hunarmed] at ht
    cases ht
  · apply hs.live
  · apply hs.ws
  · intro i opening hi hfresh
    refine ⟨rfl, hunarmed, halone, ?_⟩
    intro j opening' hj hfresh'
    rw [hopening i opening hi hfresh, hopening j opening' hj hfresh']

theorem disconnect (hs : s.Linked) :
  s.disconnect.Linked
  := by
  have hunarmed : ∀ t, s.disconnect.timers.has t = false := by
    apply has_clearReconnect
    intro t ht
    apply (hs.armed t ht).1
  have halone : s.disconnect.Alone := hs.alone_closeSocket
  constructor
  · intro t ht
    rw [hunarmed] at ht
    cases ht
  · intro k state hk hlive
    rw [halone k state hk] at hlive
    cases hlive
  · exact fun k h => by cases h
  · intro i opening hi hfresh
    rw [overtaken_of_overtake hi] at hfresh
    cases hfresh

/-- An opening awaits something else, or is over. -/
theorem setOpenings (hs : s.Linked) {openings : JsMap ℕ Opening}
    (h : ∀ i opening, openings.get i = some opening →
      ∃ opening', s.openings.get i = some opening' ∧ opening'.overtaken = opening.overtaken) :
  Linked { s with openings }
  := by
  constructor
  · apply hs.armed
  · apply hs.live
  · apply hs.ws
  · intro i opening hi hfresh
    obtain ⟨opening', hi', heq⟩ := h i opening hi
    rw [← heq] at hfresh
    obtain ⟨hrunning, hunarmed, halone, honly⟩ := hs.fresh i opening' hi' hfresh
    refine ⟨hrunning, hunarmed, halone, ?_⟩
    intro j opening₂ hj hfresh₂
    obtain ⟨opening₂', hj', heq₂⟩ := h j opening₂ hj
    rw [← heq₂] at hfresh₂
    apply honly j opening₂' hj' hfresh₂

theorem awaits (hs : s.Linked) {i : ℕ} {opening : Opening} (hi : s.openings.get i = some opening)
    (await : OpeningAwait) :
  (s.awaits i opening await).Linked
  := by
  apply hs.setOpenings
  intro j opening' hj
  rw [JsMap.get_set] at hj
  split at hj
  · next heq =>
      obtain rfl := Option.some.inj hj
      rw [heq]
      use opening, hi
  · use opening', hj

theorem returns (hs : s.Linked) (i : ℕ) :
  (s.returns i).Linked
  := by
  apply hs.setOpenings
  intro j opening hj
  use opening, JsMap.get_of_get_delete hj

/-- No opening is left that has not been overtaken once the only one has returned. -/
theorem overtaken_of_returns (hs : s.Linked) {i : ℕ} {opening : Opening}
    (hi : s.openings.get i = some opening) (hfresh : opening.overtaken = false) {j : ℕ}
    {opening' : Opening} (hj : (s.returns i).openings.get j = some opening') :
  opening'.overtaken = true
  := by
  change (s.openings.delete i).get j = some opening' at hj
  rw [JsMap.get_delete] at hj
  split at hj
  · cases hj
  · next hne =>
      rw [← Bool.not_eq_false]
      intro hfresh'
      obtain ⟨-, -, -, honly⟩ := hs.fresh i opening hi hfresh
      exact hne (honly j opening' hj hfresh')

theorem createSocket (hs : s.Linked) {i : ℕ} {opening : Opening}
    (hi : s.openings.get i = some opening) (hfresh : opening.overtaken = false) :
  (s.returns i).createSocket.Linked
  := by
  obtain ⟨hrunning, hunarmed, halone, -⟩ := hs.fresh i opening hi hfresh
  constructor
  · intro t ht
    change s.timers.has t = true at ht
    rw [hunarmed] at ht
    cases ht
  · intro k state hk hlive
    change (s.sockets.set s.socketSeq _).get k = some state at hk
    rw [JsMap.get_set] at hk
    split at hk
    · next heq =>
        rw [heq]
        rfl
    · rw [halone k state hk] at hlive
      cases hlive
  · intro k hk
    obtain rfl := Option.some.inj hk
    change (s.sockets.set s.socketSeq _).get s.socketSeq ≠ _
    rw [JsMap.get_set_self]
    decide
  · intro j opening' hj hfresh'
    rw [hs.overtaken_of_returns hi hfresh hj] at hfresh'
    cases hfresh'

/-- A timer is armed while there is nothing else. -/
theorem setReconnect (hs : s.Linked) (hrunning : s.stopped = false) (halone : s.Alone)
    (hunarmed : ∀ t, s.timers.has t = false)
    (hopenings : ∀ i opening, s.openings.get i = some opening → opening.overtaken = true)
    (delay : ℕ) :
  (s.setReconnect delay).Linked
  := by
  constructor
  · intro t ht
    refine ⟨?_, hrunning, halone⟩
    change (s.timers.set s.timerSeq delay).has t = true at ht
    rw [JsMap.has, JsMap.get_set] at ht
    split at ht
    · next heq =>
        rw [heq]
        rfl
    · rw [← JsMap.has, hunarmed] at ht
      cases ht
  · apply hs.live
  · apply hs.ws
  · intro i opening hi hfresh
    rw [hopenings i opening hi] at hfresh
    cases hfresh

theorem scheduleReconnect (hs : s.Linked) (hrunning : s.stopped = false) (halone : s.Alone)
    (hopenings : ∀ i opening, s.openings.get i = some opening → opening.overtaken = true) :
  s.scheduleReconnect.Linked
  := by
  have hunarmed : ∀ t, s.clearReconnect.timers.has t = false := by
    apply has_clearReconnect
    intro t ht
    apply (hs.armed t ht).1
  have hcleared : ∀ backoff, Linked { s.clearReconnect with backoff } := by
    intro backoff
    constructor
    · intro t ht
      rw [hunarmed] at ht
      cases ht
    · apply hs.live
    · apply hs.ws
    · intro i opening hi hfresh
      rw [hopenings i opening hi] at hfresh
      cases hfresh
  unfold BridgeClient.scheduleReconnect
  dsimp only
  split
  · apply (hcleared s.backoff).setReconnect hrunning halone hunarmed hopenings
  · have hdoubled := hcleared (min (s.clearReconnect.backoff * 2) MAX_BACKOFF_MS)
    apply hdoubled.setReconnect hrunning halone hunarmed hopenings

theorem onClose (hs : s.Linked) {k : ℕ} {state : SocketState} (hk : s.sockets.get k = some state)
    (hopen : state ≠ .closed) :
  (BridgeClient.onClose { s with sockets := s.sockets.set k .closed } k).Linked
  := by
  have hget : ∀ j state', (s.sockets.set k .closed).get j = some state' →
      state' = .closed ∨ s.sockets.get j = some state' := by
    intro j state' hj
    rw [JsMap.get_set] at hj
    split at hj
    · exact .inl (Option.some.inj hj).symm
    · exact .inr hj
  have halone : s.Alone → Alone { s with sockets := s.sockets.set k .closed } := by
    intro halone j state' hj
    obtain rfl | hold := hget j state' hj
    · rfl
    · apply halone j state' hold
  have hclosed : Linked { s with sockets := s.sockets.set k .closed } := by
    constructor
    · intro t ht
      obtain ⟨htimer, hrunning, hno⟩ := hs.armed t ht
      exact ⟨htimer, hrunning, halone hno⟩
    · intro j state' hj hlive
      obtain rfl | hold := hget j state' hj
      · cases hlive
      · apply hs.live j state' hold hlive
    · intro j hj hclosing
      obtain hnot | hold := hget j _ hclosing
      · cases hnot
      · apply hs.ws j hj hold
    · intro i opening hi hfresh
      obtain ⟨hrunning, hunarmed, hno, honly⟩ := hs.fresh i opening hi hfresh
      exact ⟨hrunning, hunarmed, halone hno, honly⟩
  unfold BridgeClient.onClose
  split
  · next hws =>
      have hlive : state.live = true := by
        have hnot := hs.ws k hws
        cases state with
        | connecting => rfl
        | «open» => rfl
        | closing => exact (hnot hk).elim
        | closed => exact (hopen rfl).elim
      have hquiet : Linked
          { s with sockets := s.sockets.set k .closed, heartbeatTimer := false } := by
        constructor
        · apply hclosed.armed
        · apply hclosed.live
        · apply hclosed.ws
        · apply hclosed.fresh
      dsimp only
      split
      · apply hquiet
      · next hrunning =>
          apply hquiet.scheduleReconnect
          · apply (Bool.not_eq_true _).mp hrunning
          · intro j state' hj
            obtain rfl | hold := hget j state' hj
            · rfl
            · rw [← Bool.not_eq_true]
              intro hlive'
              have hsame := hs.live j state' hold hlive'
              change s.ws = some k at hws
              rw [hws] at hsame
              obtain rfl := Option.some.inj hsame
              change (s.sockets.set k .closed).get k = some state' at hj
              rw [JsMap.get_set_self] at hj
              obtain rfl := Option.some.inj hj
              cases hlive'
          · intro i opening hi
            rw [← Bool.not_eq_false]
            intro hfresh
            obtain ⟨-, -, hno, -⟩ := hs.fresh i opening hi hfresh
            rw [hno k state hk] at hlive
            cases hlive
  · apply hclosed

/-- A change of what the invariant does not speak of. -/
theorem of_same (hs : s.Linked) {s' : BridgeClient} (htimers : s'.timers = s.timers)
    (htimer : s'.reconnectTimer = s.reconnectTimer) (hstopped : s'.stopped = s.stopped)
    (hws : s'.ws = s.ws) (hsockets : s'.sockets = s.sockets)
    (hopenings : s'.openings = s.openings) :
  s'.Linked
  := by
  constructor
  · rw [htimers, htimer, hstopped]
    unfold Alone
    rw [hsockets]
    apply hs.armed
  · rw [hsockets, hws]
    apply hs.live
  · rw [hsockets, hws]
    apply hs.ws
  · rw [htimers, hstopped, hopenings]
    unfold Alone
    rw [hsockets]
    apply hs.fresh

theorem onMessage (hs : s.Linked) (k : ℕ) (frame : BridgeFrame) :
  (s.onMessage k frame).Linked
  := by
  unfold BridgeClient.onMessage
  split
  · cases frame with
    | ready => apply hs.of_same <;> rfl
    | command id => apply hs.of_same <;> rfl
    | rejected => apply hs.of_same <;> rfl
    | other => apply hs
  · apply hs

theorem handle (hs : s.Linked) {event : BridgeEvent} (henabled : s.enabled event = true)
    (hundisturbed : s.Undisturbed event) :
  (s.handle event).Linked
  := by
  cases event with
  | connect => apply hs.connect (alone_iff.mp hundisturbed)
  | disconnect => apply hs.disconnect
  | reconnect => apply hs.closeSocket.connect hs.alone_closeSocket
  | config i result =>
      obtain ⟨opening, hi, -⟩ := (Option.any_eq_true _ _).mp henabled
      simp only [BridgeClient.handle, withOpening, hi, Option.elim_some]
      cases result with
      | error => apply hs.awaits hi
      | noToken => apply hs.awaits hi
      | token => apply hs.awaits hi
  | status i written urlValid =>
      obtain ⟨opening, hi, -⟩ := (Option.any_eq_true _ _).mp henabled
      simp only [Undisturbed, hi, Option.all_some] at hundisturbed
      simp only [BridgeClient.handle, withOpening, hi, Option.elim_some]
      split
      · apply hs.returns
      · next hwritten =>
          rw [Bool.not_eq_true', Bool.not_eq_false] at hwritten
          split
          · next hvalid =>
              apply hs.createSocket hi
              simpa [hwritten, hvalid] using hundisturbed
          · apply hs.awaits hi
  | settle i written =>
      obtain ⟨opening, hi, -⟩ := (Option.any_eq_true _ _).mp henabled
      simp only [Undisturbed, hi, Option.all_some] at hundisturbed
      simp only [BridgeClient.handle, withOpening, hi, Option.elim_some]
      split
      · next hfail =>
          obtain ⟨hawait, hwritten, hrunning⟩ := hfail
          rw [Bool.not_eq_true'] at hrunning
          have hfresh : opening.overtaken = false := by
            simpa [hawait, hwritten, hrunning] using hundisturbed
          obtain ⟨-, -, halone, -⟩ := hs.fresh i opening hi hfresh
          apply (hs.returns i).scheduleReconnect hrunning halone
          exact fun j opening' hj => hs.overtaken_of_returns hi hfresh hj
      · apply hs.returns
  | timer t =>
      obtain ⟨htimer, hrunning, halone⟩ := hs.armed t henabled
      have hunarmed : ∀ t', (s.timers.delete t).has t' = false := by
        intro t'
        rw [← Bool.not_eq_true, JsMap.has, JsMap.get_delete]
        split
        · exact Bool.false_ne_true
        · next hne =>
            intro ht'
            have hsame := (hs.armed t' ht').1
            rw [htimer] at hsame
            exact hne (Option.some.inj hsame).symm
      have hovertaken : ∀ i opening, s.openings.get i = some opening →
          opening.overtaken = true := by
        intro i opening hi
        rw [← Bool.not_eq_false]
        intro hfresh
        obtain ⟨-, hno, -⟩ := hs.fresh i opening hi hfresh
        change s.timers.has t = true at henabled
        rw [hno] at henabled
        cases henabled
      have hopenings : ∀ i opening,
          (s.openings.set s.openingSeq { await := .getConfig, overtaken := false }).get i =
            some opening → opening.overtaken = false → i = s.openingSeq := by
        intro i opening hi hfresh
        rw [JsMap.get_set] at hi
        split at hi
        · next heq => exact heq
        · rw [hovertaken i opening hi] at hfresh
          cases hfresh
      constructor
      · intro t' ht'
        change (s.timers.delete t).has t' = true at ht'
        rw [hunarmed] at ht'
        cases ht'
      · apply hs.live
      · apply hs.ws
      · intro i opening hi hfresh
        refine ⟨hrunning, hunarmed, halone, ?_⟩
        intro j opening' hj hfresh'
        rw [hopenings i opening hi hfresh, hopenings j opening' hj hfresh']
  | socketOpen k =>
      have hk : s.sockets.get k = some .connecting := of_decide_eq_true henabled
      have hbusy : ¬ s.Alone := by
        intro halone
        cases halone k _ hk
      constructor
      · intro t ht
        exact (hbusy (hs.armed t ht).2.2).elim
      · intro j state hj hlive
        change (s.sockets.set k .open).get j = some state at hj
        rw [JsMap.get_set] at hj
        split at hj
        · next heq =>
            rw [heq]
            apply hs.live k _ hk rfl
        · apply hs.live j state hj hlive
      · intro j hj
        change (s.sockets.set k .open).get j ≠ _
        rw [JsMap.get_set]
        split
        · decide
        · apply hs.ws j hj
      · intro i opening hi hfresh
        obtain ⟨-, -, halone, -⟩ := hs.fresh i opening hi hfresh
        exact (hbusy halone).elim
  | frame k frame => apply hs.onMessage
  | socketClose k =>
      obtain ⟨state, hk, hnot⟩ := (Option.any_eq_true _ _).mp henabled
      apply hs.onClose hk
      rintro rfl
      cases hnot

end Linked

/-- A client that has been disconnected for good, as it was then. -/
structure Disconnected (socketSeq : ℕ) (executed : List ℕ) (s : BridgeClient) : Prop where
  stopped : s.stopped = true
  ws : s.ws = none
  timers : ∀ t, s.timers.has t = false
  openings : ∀ i opening, s.openings.get i = some opening → opening.overtaken = true
  socketSeq_eq : s.socketSeq = socketSeq
  executed_eq : s.executed = executed

namespace Disconnected

variable {socketSeq : ℕ} {executed : List ℕ}

theorem of_disconnect (hs : s.Linked) :
  Disconnected s.socketSeq s.executed s.disconnect
  := by
  constructor
  · rfl
  · rfl
  · apply has_clearReconnect
    intro t ht
    apply (hs.armed t ht).1
  · exact fun i opening hi => overtaken_of_overtake hi
  · rfl
  · rfl

theorem ws_ne (hs : Disconnected socketSeq executed s) (k : ℕ) :
  s.ws ≠ some k
  := by
  rw [hs.ws]
  intro h
  cases h

theorem setOpenings (hs : Disconnected socketSeq executed s) {openings : JsMap ℕ Opening}
    (h : ∀ i opening, openings.get i = some opening → opening.overtaken = true) :
  Disconnected socketSeq executed { s with openings }
  := by
  constructor
  · apply hs.stopped
  · apply hs.ws
  · apply hs.timers
  · apply h
  · apply hs.socketSeq_eq
  · apply hs.executed_eq

theorem setSockets (hs : Disconnected socketSeq executed s) (sockets : JsMap ℕ SocketState) :
  Disconnected socketSeq executed { s with sockets }
  := by
  constructor
  · apply hs.stopped
  · apply hs.ws
  · apply hs.timers
  · apply hs.openings
  · apply hs.socketSeq_eq
  · apply hs.executed_eq

theorem awaits (hs : Disconnected socketSeq executed s) {i : ℕ} {opening : Opening}
    (hi : s.openings.get i = some opening) (await : OpeningAwait) :
  Disconnected socketSeq executed (s.awaits i opening await)
  := by
  apply hs.setOpenings
  intro j opening' hj
  rw [JsMap.get_set] at hj
  split at hj
  · obtain rfl := Option.some.inj hj
    apply hs.openings i opening hi
  · apply hs.openings j opening' hj

theorem returns (hs : Disconnected socketSeq executed s) (i : ℕ) :
  Disconnected socketSeq executed (s.returns i)
  := by
  apply hs.setOpenings
  intro j opening hj
  apply hs.openings j opening (JsMap.get_of_get_delete hj)

theorem handle (hs : Disconnected socketSeq executed s) (hlinked : s.Linked) {event : BridgeEvent}
    (henabled : s.enabled event = true) (hundisturbed : s.Undisturbed event)
    (hnot : ¬ (event = .connect ∨ event = .reconnect)) :
  Disconnected socketSeq executed (s.handle event)
  := by
  cases event with
  | connect => exact (hnot (.inl rfl)).elim
  | reconnect => exact (hnot (.inr rfl)).elim
  | disconnect =>
      rw [← hs.socketSeq_eq, ← hs.executed_eq]
      apply of_disconnect hlinked
  | config i result =>
      obtain ⟨opening, hi, -⟩ := (Option.any_eq_true _ _).mp henabled
      simp only [BridgeClient.handle, withOpening, hi, Option.elim_some]
      cases result with
      | error => apply hs.awaits hi
      | noToken => apply hs.awaits hi
      | token => apply hs.awaits hi
  | status i written urlValid =>
      obtain ⟨opening, hi, -⟩ := (Option.any_eq_true _ _).mp henabled
      simp only [Undisturbed, hi, Option.all_some] at hundisturbed
      simp only [BridgeClient.handle, withOpening, hi, Option.elim_some]
      split
      · apply hs.returns
      · next hwritten =>
          rw [Bool.not_eq_true', Bool.not_eq_false] at hwritten
          split
          · next hvalid => simp [hs.openings i opening hi, hwritten, hvalid] at hundisturbed
          · apply hs.awaits hi
  | settle i written =>
      obtain ⟨opening, hi, -⟩ := (Option.any_eq_true _ _).mp henabled
      simp only [BridgeClient.handle, withOpening, hi, Option.elim_some]
      split
      · next hfail =>
          rw [hs.stopped] at hfail
          cases hfail.2.2
      · apply hs.returns
  | timer t =>
      change s.timers.has t = true at henabled
      rw [hs.timers] at henabled
      cases henabled
  | socketOpen k => apply hs.setSockets
  | frame k frame =>
      change Disconnected socketSeq executed (s.onMessage k frame)
      unfold BridgeClient.onMessage
      rw [if_neg (hs.ws_ne k)]
      apply hs
  | socketClose k =>
      change Disconnected socketSeq executed
        (BridgeClient.onClose { s with sockets := s.sockets.set k .closed } k)
      unfold BridgeClient.onClose
      rw [if_neg]
      · apply hs.setSockets
      · apply hs.ws_ne

end Disconnected

end Steps

/-- In every run in which no opening is overtaken on the way to its socket, the client has one
socket at a time, and none after it has been disconnected. -/
theorem singleLink_of_undisturbed (steps : List (BridgeClient × BridgeEvent)) (s : BridgeClient)
    (h : (system.restrict Undisturbed).Run .initial steps s) :
  SingleLink steps s
  := by
  have hnext : ∀ s event, Linked s → (system.restrict Undisturbed).enabled s event →
      Linked ((system.restrict Undisturbed).next s event) :=
    fun s event hs henabled => hs.handle henabled.1 henabled.2
  constructor
  · intro k k' state state' hk hk' hlive hlive'
    have hs := h.preserves hnext Linked.initial
    have hws := hs.live k state hk hlive
    rw [hs.live k' state' hk' hlive'] at hws
    apply (Option.some.inj hws).symm
  · rintro before t after rfl hlast
    obtain ⟨hbefore, -, hafter⟩ := h.split
    have ht := hbefore.preserves hnext Linked.initial
    have hstep : ∀ s event, Linked s ∧ Disconnected t.socketSeq t.executed s →
        (system.restrict Undisturbed).enabled s event →
          ¬ (event = .connect ∨ event = .reconnect) →
            Linked (s.handle event) ∧ Disconnected t.socketSeq t.executed (s.handle event) :=
      fun s event hs henabled hnot => ⟨hnext s event hs.1 henabled,
        hs.2.handle hs.1 henabled.1 henabled.2 hnot⟩
    obtain ⟨-, hs⟩ | ⟨step, hmem, hends⟩ := hafter.preserves_until hstep
      ⟨ht.disconnect, Disconnected.of_disconnect ht⟩
    · exact ⟨hs.socketSeq_eq, hs.timers, hs.executed_eq⟩
    · obtain ⟨hconnect, hreconnect⟩ := hlast step hmem
      exact (hends.elim hconnect hreconnect).elim

/-- The client connects and executes a command. -/
def sampleLink : List BridgeEvent :=
  [.connect, .config 0 .token, .status 0 true true, .socketOpen 0, .frame 0 .ready,
    .frame 0 (.command 7)]

/-- The link is lost and taken up again, and the client is disconnected. -/
theorem singleLink_of_undisturbed_disconnected :
  ∃ steps s, (system.restrict Undisturbed).Run .initial steps s ∧ s.socketSeq = 2 ∧
    s.executed = [7] ∧ SingleLink steps s
  := by
  obtain ⟨steps, s, hrun, hs⟩ := EventSystem.exists_run_of_play (system.restrict Undisturbed)
    (sampleLink ++ [.socketClose 0, .timer 0, .config 1 .token, .status 1 true true,
      .disconnect, .socketClose 1]) .initial (fun s => s.socketSeq = 2 ∧ s.executed = [7])
    (by decide)
  obtain ⟨hseq, hexecuted⟩ := of_decide_eq_true hs
  use steps, s, hrun, hseq, hexecuted
  apply singleLink_of_undisturbed steps s hrun

/-- The client is disconnected while it writes its status, opens its socket after that and
executes what it receives. -/
theorem executes_after_disconnect :
  ¬ ∀ steps s, system.Run .initial steps s → SingleLink steps s
  := by
  intro h
  have hplay : (system.play [.connect, .config 0 .token, .disconnect, .status 0 true true,
      .socketOpen 0, .frame 0 (.command 7)] .initial).any
      (fun s => s.executed = [7]) = true := by
    decide
  obtain ⟨s, hs, hexecuted⟩ := (Option.any_eq_true _ _).mp hplay
  have hlink := h _ s (system.run_of_play hs)
  obtain ⟨-, -, hnone⟩ := hlink.disconnected (system.steps [.connect, .config 0 .token] .initial)
    _ (system.steps [.status 0 true true, .socketOpen 0, .frame 0 (.command 7)] _) rfl (by
      intro step hmem
      have hevent := system.event_mem_of_mem_steps hmem
      rw [List.mem_cons, List.mem_cons, List.mem_singleton] at hevent
      obtain heq | heq | heq := hevent <;> rw [heq] <;> exact ⟨by decide, by decide⟩)
  rw [of_decide_eq_true hexecuted] at hnone
  cases hnone

end BridgeClient

end Extension

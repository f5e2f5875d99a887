import OpencodeToolbelt.Telemetry.TokenSource
import OpencodeToolbelt.Async.EventSystem

/-!
# The credential of an export

The exporters share one token source. An export waits for its gate, which asks the source for
a credential, and is skipped when there is none. The transport asks again for every request
that it makes.
-/

namespace Telemetry

inductive SignalName where
  | traces
  | metrics
  | logs
  deriving DecidableEq

/-- How far an export has got. -/
inductive ExportStage where
  /-- The gate has asked for the headers. -/
  | gate (call : HeadersCall)
  | skipped
  /-- The exporter has the items, and makes no request at present. -/
  | delivered
  /-- The transport has asked for the headers of a request. -/
  | request (call : HeadersCall)
  | sent
  deriving DecidableEq

structure Export where
  signal : SignalName
  stage : ExportStage
  /-- Whether the export has succeeded, once that is known. -/
  result : Option Bool

/-- A request that has reached the network. -/
structure ExportRequest where
  exportId : ℕ
  headers : JsMap String String

/-- The configuration of the exporters. -/
structure ExportConfig where
  headers : JsMap String String
  options : TokenSourceOptions

/-- The exporters, the token source they share, and what has been sent. -/
structure Exporting where
  source : TokenSource
  now : ℚ
  exports : JsMap ℕ Export
  exportSeq : ℕ
  consecutiveFailures : SignalName → ℕ
  requests : List ExportRequest
  /-- The tokens that the helper has printed. -/
  issued : List String

inductive ExportEvent where
  /-- `export` is called on the wrapped exporter of a signal. -/
  | exportItems (signal : SignalName)
  /-- The headers of the gate arrive. -/
  | gate (x : ℕ)
  /-- The transport calls the `headers` function of `otlpArgs`. -/
  | headers (x : ℕ)
  /-- The transport sends its request. -/
  | send (x : ℕ)
  /-- The transport makes another request for the same items. -/
  | retry (x : ℕ)
  /-- A call of `headers` goes on after its wait. -/
  | resume (x : ℕ)
  /-- The exporter reports its result. -/
  | report (x : ℕ) (success : Bool)
  | ran (r : ℕ) (outcome : RunOutcome)
  | settle (r : ℕ)
  | invalidate
  | clock (now : ℚ)

namespace ExportStage

/-- The call of `headers` that is in progress. -/
def call : ExportStage → Option HeadersCall
  | .gate call => some call
  | .request call => some call
  | _ => none

/-- Whether the exporter has the items. -/
def past : ExportStage → Bool
  | .gate _ => false
  | .skipped => false
  | _ => true

end ExportStage

/-- The refresh that an export waits for, with what becomes of it when the wait is over. -/
def Export.waits (e : Export) : Option (ℕ × (Option TokenHeader → ExportStage)) :=
  match e.stage with
  | .gate (.awaiting r) => some (r, fun headers => .gate (.resolved headers))
  | .request (.awaiting r) => some (r, fun headers => .request (.resolved headers))
  | _ => none

/-- Whether a request of an export waits for its headers. -/
def Export.building (e : Export) : Bool :=
  match e.stage with
  | .request (.awaiting _) => true
  | _ => false

namespace ExportConfig

variable (config : ExportConfig)

/-- `{ ...config.headers, ...headers }` -/
def requestHeaders (headers : Option TokenHeader) : JsMap String String :=
  headers.elim config.headers fun header => config.headers.set header.1 header.2

end ExportConfig

namespace Exporting

def initial (now : ℚ) : Exporting where
  source := createTokenSource
  now
  exports := .empty
  exportSeq := 0
  consecutiveFailures _ := 0
  requests := []
  issued := []

variable (config : ExportConfig) (s : Exporting)

def setStage (x : ℕ) (e : Export) (stage : ExportStage) : Exporting :=
  { s with exports := s.exports.set x { e with stage } }

/-- `tokenSource.headers()` is called for an export. -/
def callHeaders (x : ℕ) (e : Export) (stage : HeadersCall → ExportStage) : Exporting :=
  let (source, call) := s.source.headers config.options s.now
  { s with source }.setStage x e (stage call)

def skip (x : ℕ) (e : Export) : Exporting :=
  { s with exports := s.exports.set x { e with stage := .skipped, result := some false } }

/-- The callback that `deliver` passes to the exporter. -/
def report (x : ℕ) (e : Export) (success : Bool) : Exporting :=
  let s := { s with exports := s.exports.set x { e with result := some success } }
  if success then
    { s with consecutiveFailures := Function.update s.consecutiveFailures e.signal 0 }
  else
    { s with
      consecutiveFailures := Function.update s.consecutiveFailures e.signal
        (s.consecutiveFailures e.signal + 1)
      source := s.source.invalidate }

/-- The state with what an export becomes, if there is such an export. -/
def withExport (x : ℕ) (f : Export → Exporting) : Exporting := (s.exports.get x).elim s f

def handle : ExportEvent → Exporting
  | .exportItems signal =>
      let e : Export := { signal, stage := .delivered, result := none }
      { s with exportSeq := s.exportSeq + 1 }.callHeaders config s.exportSeq e .gate
  | .gate x => s.withExport x fun e =>
      match e.stage with
      | .gate (.resolved none) => s.skip x e
      | .gate (.resolved (some _)) => s.setStage x e .delivered
      | _ => s
  | .headers x => s.withExport x fun e => s.callHeaders config x e .request
  | .send x => s.withExport x fun e =>
      match e.stage with
      | .request (.resolved headers) =>
          let request : ExportRequest := { exportId := x, headers := config.requestHeaders headers }
          { s with requests := s.requests ++ [request] }.setStage x e .sent
      | _ => s
  | .retry x => s.withExport x fun e => s.setStage x e .delivered
  | .resume x => s.withExport x fun e =>
      e.waits.elim s fun (_, stage) =>
        let (source, headers) := s.source.present config.options s.now
        { s with source }.setStage x e (stage headers)
  | .report x success => s.withExport x fun e => s.report x e success
  | .ran r outcome =>
      { s with
        source := s.source.ran config.options s.now r outcome
        issued := s.issued ++ (TokenSource.printed outcome).toList }
  | .settle r => { s with source := s.source.settle r }
  | .invalidate => { s with source := s.source.invalidate }
  | .clock now => { s with now }

/-- Which events may occur. -/
def enabled : ExportEvent → Bool
  | .gate x => (s.exports.get x).any fun e =>
      match e.stage with
      | .gate (.resolved _) => true
      | _ => false
  | .headers x => (s.exports.get x).any fun e => e.stage = .delivered
  | .send x => (s.exports.get x).any fun e =>
      match e.stage with
      | .request (.resolved _) => true
      | _ => false
  | .retry x => (s.exports.get x).any fun e => e.stage = .sent
  | .resume x => (s.exports.get x).any fun e =>
      e.waits.any fun wait => !s.source.refreshes.has wait.1
  | .report x success => (s.exports.get x).any fun e =>
      e.result.isNone && if success then e.stage = .sent else e.stage.past
  | .ran r _ => s.source.refreshes.get r = some true
  | .settle r => s.source.refreshes.get r = some false
  | _ => true

def system : EventSystem Exporting ExportEvent where
  enabled s e := s.enabled e = true
  next s e := s.handle config e

instance (s : Exporting) (e : ExportEvent) : Decidable ((system config).enabled s e) :=
  inferInstanceAs (Decidable (s.enabled e = true))

/-! ### Requests and their credentials -/

/-- What an export keeps to: every request that has reached the network carries a token of the
helper, and an export that was denied a credential has made none and ends as failed. -/
structure Guarded (s : Exporting) : Prop where
  carries : ∀ request ∈ s.requests, ∃ token ∈ s.issued,
    request.headers.get config.options.header = some (config.options.tokenPrefix ++ token)
  denied : ∀ x e, s.exports.get x = some e →
    e.stage = .gate (.resolved none) ∨ e.stage = .request (.resolved none) ∨ e.stage = .skipped →
      (∀ request ∈ s.requests, request.exportId ≠ x) ∧
        (e.result = some false ∨ s.enabled (.gate x) = true ∧
          ((s.handle config (.gate x)).exports.get x).map Export.result = some (some false))

/-- Whether an event leaves no request without a token: the wait of a request for its headers
ends with one that can be used. -/
def Renewed (s : Exporting) : ExportEvent → Prop
  | .resume x => ((s.exports.get x).all fun e => !e.building || s.source.usable s.now) = true
  | _ => True

instance (s : Exporting) (event : ExportEvent) : Decidable (s.Renewed event) :=
  match event with
  | .resume _ => inferInstanceAs (Decidable (_ = true))
  | .exportItems _ | .gate _ | .headers _ | .send _ | .retry _ | .report _ _ | .ran _ _
  | .settle _ | .invalidate | .clock _ => .isTrue trivial

/-- A header that carries a token of the helper. -/
def Issued (s : Exporting) (header : TokenHeader) : Prop :=
  ∃ token ∈ s.issued, header = (config.options.header, config.options.tokenPrefix ++ token)

/-- What holds of an export in every state. -/
structure Proper (s : Exporting) (x : ℕ) (e : Export) : Prop where
  issued : ∀ header, e.stage.call = some (.resolved (some header)) → s.Issued config header
  request : e.stage ≠ .request (.resolved none)
  past : e.stage.past = false → ∀ request ∈ s.requests, request.exportId ≠ x
  skipped : e.stage = .skipped → e.result = some false

/-- The invariant of the exporters. -/
structure Credentialed (s : Exporting) : Prop where
  token : ∀ token, s.source.token = some token → token ∈ s.issued
  exports : ∀ x e, s.exports.get x = some e → s.Proper config x e
  carries : ∀ request ∈ s.requests, ∃ token ∈ s.issued,
    request.headers.get config.options.header = some (config.options.tokenPrefix ++ token)
  known : ∀ request ∈ s.requests, request.exportId < s.exportSeq
  fresh : ∀ x e, s.exports.get x = some e → x < s.exportSeq

section Steps

variable {config : ExportConfig} {s s' : Exporting}

theorem Issued.mono {header : TokenHeader} (h : s.Issued config header)
    (hissued : s.issued ⊆ s'.issued) :
  s'.Issued config header
  := by
  obtain ⟨token, htoken, heq⟩ := h
  use token, hissued htoken, heq

theorem Proper.mono {x : ℕ} {e : Export} (h : s.Proper config x e)
    (hissued : s.issued ⊆ s'.issued) (hrequests : s'.requests = s.requests) :
  s'.Proper config x e
  := by
  constructor
  · intro header hcall
    apply (h.issued header hcall).mono hissued
  · apply h.request
  · rw [hrequests]
    apply h.past
  · apply h.skipped

namespace Credentialed

/-- A change of the source that sends nothing. -/
theorem of_source (hs : s.Credentialed config) (hexports : s'.exports = s.exports)
    (hrequests : s'.requests = s.requests) (hseq : s'.exportSeq = s.exportSeq)
    (hissued : s.issued ⊆ s'.issued)
    (htoken : ∀ token, s'.source.token = some token → token ∈ s'.issued) :
  s'.Credentialed config
  := by
  constructor
  · apply htoken
  · intro x e he
    rw [hexports] at he
    apply (hs.exports x e he).mono hissued hrequests
  · intro request hrequest
    rw [hrequests] at hrequest
    obtain ⟨token, hmem, hget⟩ := hs.carries request hrequest
    use token, hissued hmem, hget
  · intro request hrequest
    rw [hrequests] at hrequest
    rw [hseq]
    apply hs.known request hrequest
  · intro x e he
    rw [hexports] at he
    rw [hseq]
    apply hs.fresh x e he

/-- An export changes that is known. -/
theorem set (hs : s.Credentialed config) {x : ℕ} {e : Export} (hx : x < s.exportSeq)
    (hproper : s.Proper config x e) :
  Credentialed config { s with exports := s.exports.set x e }
  := by
  constructor
  · apply hs.token
  · intro y e' he'
    change (s.exports.set x e).get y = some e' at he'
    rw [JsMap.get_set] at he'
    split at he'
    · next heq =>
        obtain rfl := Option.some.inj he'
        rw [heq]
        apply hproper.mono
        · apply List.Subset.refl
        · rfl
    · apply (hs.exports y e' he').mono
      · apply List.Subset.refl
      · rfl
  · apply hs.carries
  · apply hs.known
  · intro y e' he'
    change (s.exports.set x e).get y = some e' at he'
    rw [JsMap.get_set] at he'
    split at he'
    · next heq =>
        rw [heq]
        apply hx
    · apply hs.fresh y e' he'

/-- The token that a source holds comes from the helper, after a change that issues none. -/
theorem withSource (hs : s.Credentialed config) {source : TokenSource}
    (htoken : ∀ token, source.token = some token → s.source.token = some token) :
  Credentialed config { s with source }
  := by
  apply hs.of_source
  · rfl
  · rfl
  · rfl
  · apply List.Subset.refl
  · intro token h
    apply hs.token token (htoken token h)

theorem initial (now : ℚ) :
  (Exporting.initial now).Credentialed config
  := by
  constructor
  · exact fun token h => by cases h
  · exact fun x e h => by cases h
  · exact fun request h => (List.not_mem_nil h).elim
  · exact fun request h => (List.not_mem_nil h).elim
  · exact fun x e h => by cases h

/-- An export asks for headers, for its gate or for a request. -/
theorem callHeaders (hs : s.Credentialed config) {x : ℕ} {e : Export} (hx : x < s.exportSeq)
    {stage : HeadersCall → ExportStage} (hcall : ∀ call, (stage call).call = some call)
    (hpast : ∀ call, (stage call).past = false → ∀ request ∈ s.requests, request.exportId ≠ x) :
  (s.callHeaders config x e stage).Credentialed config
  := by
  have hsource : Credentialed config
      { s with source := (s.source.headers config.options s.now).1 } := by
    apply hs.withSource
    intro token h
    apply s.source.token_of_headers config.options h
  have hpresent {headers : Option TokenHeader}
      (h : (s.source.headers config.options s.now).2 = .resolved headers) :=
    s.source.isSome_of_headers config.options h
  apply hsource.set hx
  constructor
  · intro header h
    change (stage (s.source.headers config.options s.now).2).call = _ at h
    rw [hcall] at h
    obtain ⟨header', token, heq, htoken, header⟩ := hpresent (Option.some.inj h)
    obtain rfl := Option.some.inj heq
    use token, hs.token token htoken, header
  · intro h
    change stage (s.source.headers config.options s.now).2 = _ at h
    have hnone := hcall (s.source.headers config.options s.now).2
    rw [h] at hnone
    obtain ⟨header', token, heq, -⟩ := hpresent (Option.some.inj hnone).symm
    cases heq
  · apply hpast
  · intro h
    change stage (s.source.headers config.options s.now).2 = _ at h
    have hnone := hcall (s.source.headers config.options s.now).2
    rw [h] at hnone
    cases hnone

/-- The wait of a call of `headers` ends. -/
theorem resume (hs : s.Credentialed config) {x r : ℕ} {e : Export}
    {stage : Option TokenHeader → ExportStage} (he : s.exports.get x = some e)
    (hwaits : e.waits = some (r, stage))
    (hrenewed : e.stage = .request (.awaiting r) → s.source.usable s.now = true) :
  Credentialed config
    { s with
      source := (s.source.present config.options s.now).1
      exports := s.exports.set x
        { e with stage := stage (s.source.present config.options s.now).2 } }
  := by
  have hsource : Credentialed config
      { s with source := (s.source.present config.options s.now).1 } := by
    apply hs.withSource
    intro token h
    apply s.source.token_of_present config.options h
  have hpresent : ∀ header, (s.source.present config.options s.now).2 = some header →
      s.Issued config header := by
    intro header h
    obtain ⟨token, htoken, heq⟩ := s.source.eq_of_present config.options h
    use token, hs.token token htoken, heq
  have hpast := (hs.exports x e he).past
  apply hsource.set (hs.fresh x e he)
  unfold Export.waits at hwaits
  split at hwaits
  · next hstage =>
      obtain ⟨rfl, rfl⟩ := Prod.mk.inj (Option.some.inj hwaits)
      constructor
      · intro header h
        apply hpresent header (HeadersCall.resolved.inj (Option.some.inj h))
      · exact fun h => by cases h
      · intro
        apply hpast
        rw [hstage]
        rfl
      · exact fun h => by cases h
  · next hstage =>
      obtain ⟨rfl, rfl⟩ := Prod.mk.inj (Option.some.inj hwaits)
      constructor
      · intro header h
        apply hpresent header (HeadersCall.resolved.inj (Option.some.inj h))
      · intro h
        have hsome := s.source.isSome_present config.options (hrenewed hstage)
        rw [HeadersCall.resolved.inj (ExportStage.request.inj h)] at hsome
        cases hsome
      · exact fun h => by cases h
      · exact fun h => by cases h
  · cases hwaits

/-- A request is sent. -/
theorem send (hs : s.Credentialed config) {x : ℕ} {e : Export} {headers : Option TokenHeader}
    (he : s.exports.get x = some e) (hstage : e.stage = .request (.resolved headers)) :
  Credentialed config
    { s with
      exports := s.exports.set x { e with stage := .sent }
      requests := s.requests ++ [⟨x, config.requestHeaders headers⟩] }
  := by
  have hproper := hs.exports x e he
  constructor
  · apply hs.token
  · intro y e' he'
    change (s.exports.set x _).get y = some e' at he'
    rw [JsMap.get_set] at he'
    split at he'
    · obtain rfl := Option.some.inj he'
      constructor
      · exact fun header h => by cases h
      · exact fun h => by cases h
      · exact fun h => by cases h
      · exact fun h => by cases h
    · next hne =>
        have hother := hs.exports y e' he'
        constructor
        · apply hother.issued
        · apply hother.request
        · intro hpast request hrequest
          obtain hold | hnew := List.mem_append.mp hrequest
          · apply hother.past hpast request hold
          · obtain rfl := List.mem_singleton.mp hnew
            exact fun heq => hne heq.symm
        · apply hother.skipped
  · intro request hrequest
    obtain hold | hnew := List.mem_append.mp hrequest
    · apply hs.carries request hold
    · obtain rfl := List.mem_singleton.mp hnew
      cases headers with
      | none => exact (hproper.request hstage).elim
      | some header =>
          obtain ⟨token, htoken, rfl⟩ := hproper.issued header (by rw [hstage]; rfl)
          use token, htoken
          apply JsMap.get_set_self
  · intro request hrequest
    obtain hold | hnew := List.mem_append.mp hrequest
    · apply hs.known request hold
    · obtain rfl := List.mem_singleton.mp hnew
      apply hs.fresh x e he
  · intro y e' he'
    change (s.exports.set x _).get y = some e' at he'
    rw [JsMap.get_set] at he'
    split at he'
    · next heq =>
        rw [heq]
        apply hs.fresh x e he
    · apply hs.fresh y e' he'

/-- The exporter reports its result. -/
theorem report (hs : s.Credentialed config) {x : ℕ} {e : Export} (success : Bool)
    (he : s.exports.get x = some e) (hpast : e.stage.past = true) :
  (s.report x e success).Credentialed config
  := by
  have hproper := hs.exports x e he
  have hset : Credentialed config
      { s with exports := s.exports.set x { e with result := some success } } := by
    apply hs.set (hs.fresh x e he)
    constructor
    · apply hproper.issued
    · apply hproper.request
    · apply hproper.past
    · intro h
      change e.stage = _ at h
      rw [h] at hpast
      cases hpast
  unfold Exporting.report
  split
  · apply hset.of_source
    · rfl
    · rfl
    · rfl
    · apply List.Subset.refl
    · apply hset.token
  · apply hset.of_source
    · rfl
    · rfl
    · rfl
    · apply List.Subset.refl
    · exact fun token h => by cases h

theorem handle (hs : s.Credentialed config) {event : ExportEvent}
    (henabled : s.enabled event = true) (hrenewed : s.Renewed event) :
  (s.handle config event).Credentialed config
  := by
  cases event with
  | exportItems signal =>
      have hfresh : ∀ request ∈ s.requests, request.exportId ≠ s.exportSeq :=
        fun request hrequest => (hs.known request hrequest).ne
      have hgrown : Credentialed config { s with exportSeq := s.exportSeq + 1 } := by
        constructor
        · apply hs.token
        · intro x e he
          apply (hs.exports x e he).mono
          · apply List.Subset.refl
          · rfl
        · apply hs.carries
        · exact fun request hrequest => (hs.known request hrequest).trans (Nat.lt_succ_self _)
        · exact fun x e he => (hs.fresh x e he).trans (Nat.lt_succ_self _)
      apply hgrown.callHeaders (Nat.lt_succ_self _) (fun call => rfl)
      exact fun call _ => hfresh
  | gate x =>
      obtain ⟨e, he, hstage⟩ := (Option.any_eq_true _ _).mp henabled
      have hproper := hs.exports x e he
      simp only [Exporting.handle, withExport, he, Option.elim_some]
      split
      · next hnone =>
          apply hs.set (hs.fresh x e he)
          constructor
          · exact fun header h => by cases h
          · exact fun h => by cases h
          · intro
            apply hproper.past
            rw [hnone]
            rfl
          · exact fun _ => rfl
      · apply hs.set (hs.fresh x e he)
        constructor
        · exact fun header h => by cases h
        · exact fun h => by cases h
        · exact fun h => by cases h
        · exact fun h => by cases h
      · apply hs
  | headers x =>
      obtain ⟨e, he, -⟩ := (Option.any_eq_true _ _).mp henabled
      simp only [Exporting.handle, withExport, he, Option.elim_some]
      apply hs.callHeaders (hs.fresh x e he) (fun call => rfl)
      exact fun call h => by cases h
  | send x =>
      obtain ⟨e, he, -⟩ := (Option.any_eq_true _ _).mp henabled
      simp only [Exporting.handle, withExport, he, Option.elim_some]
      split
      · next hstage => apply hs.send he hstage
      · apply hs
  | retry x =>
      obtain ⟨e, he, -⟩ := (Option.any_eq_true _ _).mp henabled
      simp only [Exporting.handle, withExport, he, Option.elim_some]
      apply hs.set (hs.fresh x e he)
      constructor
      · exact fun header h => by cases h
      · exact fun h => by cases h
      · exact fun h => by cases h
      · exact fun h => by cases h
  | resume x =>
      obtain ⟨e, he, hany⟩ := (Option.any_eq_true _ _).mp henabled
      obtain ⟨⟨r, stage⟩, hwaits, -⟩ := (Option.any_eq_true _ _).mp hany
      simp only [Exporting.handle, withExport, he, hwaits, Option.elim_some]
      apply hs.resume he hwaits
      intro hstage
      simpa [Renewed, he, Export.building, hstage] using hrenewed
  | report x success =>
      obtain ⟨e, he, hany⟩ := (Option.any_eq_true _ _).mp henabled
      simp only [Exporting.handle, withExport, he, Option.elim_some]
      apply hs.report success he
      obtain ⟨-, hstage⟩ := Bool.and_eq_true_iff.mp hany
      split at hstage
      · rw [of_decide_eq_true hstage]
        rfl
      · apply hstage
  | ran r outcome =>
      apply hs.of_source
      · rfl
      · rfl
      · rfl
      · exact List.subset_append_left _ _
      · intro token h
        obtain hold | hnew := s.source.token_of_ran config.options h
        · apply List.mem_append_left _ (hs.token token hold)
        · apply List.mem_append_right
          rw [hnew]
          apply List.mem_singleton_self
  | settle r =>
      apply hs.withSource
      exact fun token h => h
  | invalidate =>
      apply hs.withSource
      exact fun token h => by cases h
  | clock now =>
      apply hs.of_source
      · rfl
      · rfl
      · rfl
      · apply List.Subset.refl
      · apply hs.token

theorem guarded (hs : s.Credentialed config) :
  s.Guarded config
  := by
  constructor
  · apply hs.carries
  · intro x e he hdenied
    have hproper := hs.exports x e he
    obtain hgate | hrequest | hskipped := hdenied
    · constructor
      · apply hproper.past
        rw [hgate]
        rfl
      · right
        simp [Exporting.enabled, Exporting.handle, withExport, Exporting.skip, he, hgate]
    · exact (hproper.request hrequest).elim
    · constructor
      · apply hproper.past
        rw [hskipped]
        rfl
      · left
        apply hproper.skipped hskipped

end Credentialed

end Steps

/-- A request whose wait ends without a token that can be used goes out without one. -/
theorem send_of_not_usable {config : ExportConfig} {s : Exporting} {x r : ℕ} {e : Export}
    (he : s.exports.get x = some e) (hstage : e.stage = .request (.awaiting r))
    (h : s.source.usable s.now = false) :
  ((s.handle config (.resume x)).handle config (.send x)).requests =
    s.requests ++ [⟨x, config.headers⟩]
  := by
  have hnone := s.source.present_of_not_usable config.options h
  have hwaits : e.waits = some (r, fun headers => .request (.resolved headers)) := by
    simp only [Export.waits, hstage]
  have hresume : s.handle config (.resume x) =
      { s with source := (s.source.present config.options s.now).1 }.setStage x e
        (.request (.resolved none)) := by
    simp only [handle, withExport, he, hwaits, Option.elim_some, hnone]
  have hget : (s.handle config (.resume x)).exports.get x =
      some { e with stage := .request (.resolved none) } := by
    rw [hresume]
    apply JsMap.get_set_self
  rw [handle, withExport, hget, Option.elim_some]
  simp only [hresume]
  rfl

/-- A helper without a token whose runs end, and no other headers. -/
def sampleConfig : ExportConfig where
  headers := .empty
  options := { readJwtExpiry := fun _ => none }

/-- An export is sent, and the collector rejects it. -/
def sampleExport : List ExportEvent :=
  [.exportItems .traces, .ran 0 (.result 0 "token"), .settle 0, .resume 0, .gate 0,
    .exportItems .metrics, .gate 1, .headers 1, .send 1]

end Exporting

end Telemetry

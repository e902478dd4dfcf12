import Mathlib
import Reconcile.Proofs.Calls
import Reconcile.Proofs.Deciding
import Reconcile.Proofs.Writing

/-!
# Durations that cannot be used

A duration is declared as text and read only when it is needed. Observing and
updating need all of them: both plan the tokens before anything is compared, sent
or written, and planning reads the durations of one spec after the other. So it
does not matter what else there is to be found in the live project. As soon as it
has been fetched, the first spec that fails ends the operation.
-/

namespace Reconcile

/-! ## Specs with a bad duration -/

/-- The text is not a duration, or it is one that is too long. -/
def Unusable [DurationReader] (value : String) : Prop :=
  (∃ fault, DurationReader.read value = .error fault) ∨
    ∃ d, DurationReader.read value = .ok d ∧ Duration.longest.nanos < d.toSpan.nanos

/-- What a spec says in one of its durations. -/
def TokenSpec.said (s : TokenSpec) : DurationField → Option String
  | .expiresIn => s.expiresIn
  | .renewBefore => s.renewBefore
  | .renewAfter => s.renewAfter

/-- How reading a span fails. The last step is a parameter here, since the bound
in `Duration.toSpan?` is a number too large to compute with. -/
theorem exists_error_iff {field : DurationField} {value : String}
    {toSpan? : Duration → Option Span} {reading : Except DurationFault Duration} :
    (∃ failure : Failure, (match reading with
      | .error fault => .error (.unreadableDuration field value fault)
      | .ok d =>
        match toSpan? d with
        | some span => .ok span
        | none => .error (.durationOutOfRange field value)) = Except.error failure) ↔
      (∃ fault, reading = .error fault) ∨ ∃ d, reading = .ok d ∧ toSpan? d = none := by
  cases reading with
  | error fault => simp
  | ok d =>
      dsimp only
      cases hspan : toSpan? d with
      | none => simp [hspan]
      | some span => simp [hspan]

theorem toSpan?_eq_none {d : Duration} :
    d.toSpan? = none ↔ Duration.longest.nanos < d.toSpan.nanos := by
  rw [Duration.toSpan?, ite_eq_right_iff]
  constructor
  · intro none
    by_contra short
    cases none (not_lt.mp short)
  · intro long short
    exact absurd short (not_le.mpr long)

/-- A text is refused by every field, or by none. -/
theorem exists_span_error_iff [DurationReader] {field : DurationField} {value : String} :
    (∃ failure, field.span value = .error failure) ↔ Unusable value := by
  rw [DurationField.span, Unusable]
  simp only [← toSpan?_eq_none]
  exact exists_error_iff

theorem not_unusable_of_span? [DurationReader] {field : DurationField} {value? : Option String}
    {span? : Option Span} (h : field.span? value? = .ok span?) {value : String}
    (said : value? = some value) : ¬ Unusable value := by
  intro unusable
  obtain ⟨failure, hfailure⟩ := exists_span_error_iff.mpr unusable
  exact not_refuses h ⟨value, said, hfailure⟩

/-- **A spec cannot be read exactly if one of its durations cannot be used.** -/
theorem exists_unreadable_iff [DurationReader] {s : TokenSpec} :
    (∃ failure, s.Unreadable failure) ↔
      ∃ field value, s.said field = some value ∧ Unusable value := by
  constructor
  · have refused : ∀ {field : DurationField} {value? : Option String} {failure : Failure},
        field.Refuses value? failure → ∃ value, value? = some value ∧ Unusable value := by
      rintro field value? failure ⟨value, said, hfailure⟩
      exact ⟨value, said, exists_span_error_iff.mp ⟨failure, hfailure⟩⟩
    rintro ⟨failure, bad | ⟨_, bad⟩ | ⟨_, _, bad⟩⟩
    · exact ⟨.expiresIn, refused bad⟩
    · exact ⟨.renewBefore, refused bad⟩
    · exact ⟨.renewAfter, refused bad⟩
  · rintro ⟨field, value, said, unusable⟩
    by_contra fine
    obtain ⟨terms, hterms⟩ := readable_iff.mp (not_exists.mp fine)
    simp only [TokenSpec.terms, bind_eq_ok] at hterms
    obtain ⟨_, hexpiresIn, _, hrenewBefore, _, hrenewAfter, _⟩ := hterms
    cases field with
    | expiresIn => exact not_unusable_of_span? hexpiresIn said unusable
    | renewBefore => exact not_unusable_of_span? hrenewBefore said unusable
    | renewAfter => exact not_unusable_of_span? hrenewAfter said unusable

/-- With one such spec among the declared ones, planning fails. -/
theorem planTokens_of_unusable [DurationReader] {project : String} {roles : List Role}
    {observation : Observation} {now : Instant} {slot : String × TokenSpec}
    (hslot : slot ∈ specsOf roles) {field : DurationField} {value : String}
    (said : slot.2.said field = some value) (unusable : Unusable value) :
    ∃ failure, planTokens project roles observation now = .error failure := by
  obtain ⟨bad, hbad⟩ := exists_unreadable_iff.mpr ⟨field, value, said, unusable⟩
  cases planned : planTokens project roles observation now with
  | error failure => exact ⟨failure, rfl⟩
  | ok plan =>
      exact absurd (.unreadable hbad) ((followsRule_of_planned planned).fine slot hslot bad)

/-! ## Operations that end after the fetch -/

/-- The operation fetches the project and looks at the clock, and then it fails.
The fetch is its only call, and it leaves the resource as it was. -/
structure InPlace.FailsOnceFetched {σ α : Type} (operation : InPlace α) (h : Host σ)
    (p : Project) (s : σ) (name : String) (live : Live.Project) (now : Instant)
    (failure : Failure) : Prop where
  result : (h.run (operation.run.run p) s).1 = some (.error failure, p)
  steps : h.steps (operation.run.run p) s =
    [.asked (.get name) (some (.ok live)), .looked now]
  calls : requestsIn (h.steps (operation.run.run p) s) = [.get name]

section Fetched

variable {σ α : Type} {h : Host σ} {p : Project} {s : σ} {name : String}
  {live : Live.Project} {now : Instant} {failure : Failure}

/-- An operation that begins with the fetch, goes on with a look at the clock and
has nothing but a failure left then. -/
theorem Host.Shows.failsOnceFetched (shows : h.Shows name live now s)
    {operation : InPlace α} {next : Option (Request.get name).Answer →
      Program (Except Failure α × Project)}
    {look : Instant → Program (Except Failure α × Project)}
    (fetches : operation.run.run p = .ask (.get name) next)
    (looks : next (some (.ok live)) = .look look)
    (ends : look now = .done (.error failure, p)) :
    operation.FailsOnceFetched h p s name live now failure := by
  obtain ⟨s', hserve, htime⟩ := shows.serve
  have hsteps : h.steps (operation.run.run p) s =
      [.asked (.get name) (some (.ok live)), .looked now] := by
    rw [fetches, h.steps_ask shows.wanted hserve, looks, Host.steps, htime, ends]
    rfl
  refine ⟨?_, hsteps, ?_⟩
  · rw [fetches, h.run_ask shows.wanted hserve, looks, Host.run, htime, ends]
    rfl
  · rw [hsteps]
    rfl

/-- An observation that cannot judge what it has fetched. -/
theorem observeInPlace_failsOnceFetched [DurationReader] (shows : h.Shows name live now s)
    (named : p.externalName = some name)
    (failed : p.parameters.evaluate name live live.observation now = .error failure) :
    Project.observeInPlace.FailsOnceFetched h p s name live now failure := by
  have fetches := observeInPlace_run p
  rw [Project.observe, named] at fetches
  dsimp only at fetches
  rw [Attempt.run_call_bind] at fetches
  refine shows.failsOnceFetched fetches rfl ?_
  show (ExceptT.run (Attempt.settled (p.parameters.evaluate name live live.observation now) >>=
    _)).bind _ = _
  rw [failed]
  rfl

/-- An update that cannot plan the tokens of what it has fetched. -/
theorem updateInPlace_failsOnceFetched [DurationReader] (shows : h.Shows name live now s)
    (named : p.externalName = some name)
    (failed : planTokens name p.parameters.roles live.observation now = .error failure) :
    Project.updateInPlace.FailsOnceFetched h p s name live now failure := by
  have fetches : Project.updateInPlace.run.run p =
      p.update.run.bind fun result => .done (result, p) := rfl
  rw [Project.update, named] at fetches
  dsimp only at fetches
  rw [Attempt.run_call_bind] at fetches
  refine shows.failsOnceFetched fetches rfl ?_
  show (ExceptT.run (Attempt.settled (planTokens name p.parameters.roles live.observation now)
    >>= _)).bind _ = _
  rw [failed]
  rfl

end Fetched

/-- **A duration that cannot be used is never passed over.** Let a resource have a
name, let the fetch of its project be answered, with whatever project and at
whatever time, and let any token of any of its roles be declared with a duration
that is none or that is too long. Then observing and updating both fail over a
duration, with the failure of the first declared token that fails. The fetch is
the only call they make, and the resource is as it was. -/
theorem unusable_duration_is_told [DurationReader] {σ : Type} (h : Host σ) (p : Project) (s : σ)
    {name : String} {live : Live.Project} {now : Instant}
    (named : p.externalName = some name) (shows : h.Shows name live now s)
    {r : Role} (hr : r ∈ p.parameters.roles) {spec : TokenSpec} (hspec : spec ∈ r.tokens)
    {field : DurationField} {value : String} (said : spec.said field = some value)
    (unusable : Unusable value) :
    ∃ slot failure,
      FirstFailing live.observation now (specsOf p.parameters.roles) slot failure ∧
      failure.AboutDuration ∧
      Project.observeInPlace.FailsOnceFetched h p s name live now failure ∧
      Project.updateInPlace.FailsOnceFetched h p s name live now failure := by
  have hslot : (r.name, spec) ∈ specsOf p.parameters.roles :=
    mem_specsOf.mpr ⟨r, hr, rfl, hspec⟩
  obtain ⟨failure, failed⟩ : ∃ failure,
      planTokens name p.parameters.roles live.observation now = .error failure :=
    planTokens_of_unusable hslot said unusable
  obtain ⟨slot, hfirst⟩ := planTokens_eq_error.mp failed
  exact ⟨slot, failure, hfirst, planTokens_error failed,
    observeInPlace_failsOnceFetched shows named (evaluate_eq_error_iff.mpr failed),
    updateInPlace_failsOnceFetched shows named failed⟩

/-- A resource with work to do in every role before the one that is told of, and a
second bad duration after it. -/
def quarry : Project :=
  (Project.declare "quarry" {
    description := some "slate"
    roles := [{ name := "ci", tokens := [{ id := "deploy", expiresIn := some "1h" }] },
      { name := "ops", tokens := [{ id := "audit" }, { id := "page", expiresIn := some "soon" }] },
      { name := "qa", tokens := [{ id := "nightly", renewBefore := some "1fortnight" }] }]
    }).setExternalName "quarry"

/-- Its live project, with another description, a token that has expired, and two
roles that are missing. -/
def quarryLive : Live.Project where
  name := "quarry"
  version := "1"
  spec := { description := "marble", roles := [{ name := "ci", tokens := [⟨"deploy", 0, 3600⟩] }] }
  tokensByRole := (∅ : Dict (List Live.Token)).insert "ci" [⟨"deploy", 0, 3600⟩]

def quarryStage : Rehearsal where
  plane := ({} : ControlPlane).insert quarryLive
  clock := 86400
  tail := "x"

theorem unusable_duration_is_told_at_quarry :
    Project.observeInPlace.FailsOnceFetched Rehearsal.host quarry quarryStage "quarry"
        quarryLive (instantOfTimestamp 86400)
        (.unreadableDuration .expiresIn "soon" (.numberExpected 0)) ∧
      Project.updateInPlace.FailsOnceFetched Rehearsal.host quarry quarryStage "quarry"
        quarryLive (instantOfTimestamp 86400)
        (.unreadableDuration .expiresIn "soon" (.numberExpected 0)) := by
  have named : quarry.externalName = some "quarry" := by decide +kernel
  have shows : Rehearsal.host.Shows "quarry" quarryLive (instantOfTimestamp 86400)
      quarryStage := by
    constructor
    · decide +kernel
    · decide +kernel
    · decide +kernel
  have said : TokenSpec.said { id := "nightly", renewBefore := some "1fortnight" }
      .renewBefore = some "1fortnight" := rfl
  have unusable : Unusable "1fortnight" :=
    Or.inl ⟨.unknownUnit "fortnight", by decide +kernel⟩
  -- The theorem is about the last spec, and the first one that fails is another.
  obtain ⟨_, failure, _, _, observing, updating⟩ :=
    unusable_duration_is_told Rehearsal.host quarry quarryStage named shows
      (.tail _ (.tail _ (.head _))) (.head _) said unusable
  have told : ((Rehearsal.host.run (Project.observeInPlace.run.run quarry)
      quarryStage).1.map Prod.fst) =
        some (.error (.unreadableDuration .expiresIn "soon" (.numberExpected 0))) := by
    decide +kernel
  rw [observing.result] at told
  obtain rfl : failure = .unreadableDuration .expiresIn "soon" (.numberExpected 0) := by
    simpa using told
  exact ⟨observing, updating⟩

end Reconcile

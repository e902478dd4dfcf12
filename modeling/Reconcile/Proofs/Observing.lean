import Mathlib
import Reconcile.Proofs.Passes
import Reconcile.Proofs.Run
import Reconcile.Rehearsal

/-!
# Observing in place

An observation writes what it has learned into the resource: fields that were
open, the tokens that were seen, and a condition. It is told here as it happens
to a resource that is changed in place. The declared parameters are copied, the
copy is filled in before it is judged, and the judgement may fail with the copy
already filled. `observeInPlace_run` says that this comes to the same as an
observation that hands back a new resource in the end: either all is written or
nothing is.

What is written is final. Filling in leaves no gap behind, and a condition that
says nothing new is not recorded again. So an observation that sees the same
project at the same time finds everything in place.
-/

namespace Reconcile

/-! ## Operations in place -/

/-- An operation on a resource in place. The resource is left behind in success
and in failure. -/
abbrev InPlace (α : Type) : Type := ExceptT Failure (StateT Project Program) α

namespace InPlace

/-- Steps that leave the resource alone. -/
def leave {α : Type} (a : Attempt α) : InPlace α :=
  ExceptT.mk fun p => a.run.bind fun result => .done (result, p)

section Laws

variable {α β : Type} (p : Project)

theorem run_get_bind (f : Project → InPlace α) :
    (get >>= f).run.run p = (f p).run.run p := rfl

theorem run_leave_call_bind (r : Request) (f : r.Answer → InPlace α) :
    (leave (.call r) >>= f).run.run p = .ask r fun
      | some answer => (f answer).run.run p
      | none => .done (.error .cancelled, p) := by
  change Program.ask r _ = _
  congr 1
  funext answer
  cases answer <;> rfl

theorem run_leave_now_bind (f : Instant → InPlace α) :
    (leave .now >>= f).run.run p = .look fun t => (f t).run.run p := rfl

theorem run_leave_settled_bind (a : Except Failure β) (f : β → InPlace α) :
    (leave (.settled a) >>= f).run.run p =
      match a with
      | .ok b => (f b).run.run p
      | .error failure => .done (.error failure, p) := by
  cases a <;> rfl

end Laws

end InPlace

/-- Judging parameters in place. They are filled in first, and stay so if
something then fails. -/
def Parameters.evaluateInPlace [DurationReader] (project : String) (live : Live.Project)
    (observation : Observation) (now : Instant) :
    ExceptT Failure (StateM Parameters) Verdict := do
  let filledIn := (← get).hasGaps live
  modify (·.fillFrom live)
  let verdict := (← get).judge filledIn project live observation now
  ExceptT.mk (pure verdict)

theorem evaluateInPlace_run [DurationReader] (p : Parameters) (project : String)
    (live : Live.Project) (observation : Observation) (now : Instant) :
    (Parameters.evaluateInPlace project live observation now).run.run p =
      (p.evaluate project live observation now, p.fillFrom live) := rfl

/-- Observing in place. A copy of the parameters is judged, and the resource is
written once that has succeeded. -/
def Project.observeInPlace [DurationReader] : InPlace Sighting := do
  let p ← get
  match p.externalName with
  | none => return {}
  | some name =>
    match ← InPlace.leave (.call (.get name)) with
    | .error refusal =>
      if refusal.isNotFound then return {} else throw (.get refusal)
    | .ok live =>
      let now ← InPlace.leave .now
      let (verdict, parameters) :=
        (Parameters.evaluateInPlace name live live.observation now).run.run
          p.parameters
      let verdict ← InPlace.leave (.settled verdict)
      modify ({ · with parameters })
      modify ({ · with observation := live.observation })
      modify (·.setCondition (.available now))
      return ⟨true, verdict.upToDate, verdict.lateInitialized⟩

/-- What becomes of a resource when an operation hands back a new one in the
end, or fails. -/
def Project.leftBy {α : Type} (p : Project) :
    Except Failure (α × Project) → Except Failure α × Project
  | .ok (a, q) => (.ok a, q)
  | .error failure => (.error failure, p)

/-- **All is written or nothing.** Observing in place leaves the resource that
an observation hands back, and the old one if it fails. -/
theorem observeInPlace_run [DurationReader] (p : Project) :
    Project.observeInPlace.run.run p =
      p.observe.run.bind fun result => .done (p.leftBy result) := by
  rw [Project.observeInPlace, InPlace.run_get_bind, Project.observe]
  cases p.externalName with
  | none => rfl
  | some name =>
      dsimp only
      rw [InPlace.run_leave_call_bind, Attempt.run_call_bind]
      refine congrArg (Program.ask _) (funext fun answer => ?_)
      rcases answer with _ | refusal | live
      · rfl
      · dsimp only
        split <;> rfl
      · dsimp only
        rw [InPlace.run_leave_now_bind, Attempt.run_now_bind]
        refine congrArg Program.look (funext fun now => ?_)
        rw [evaluateInPlace_run]
        dsimp only
        rw [InPlace.run_leave_settled_bind]
        cases p.parameters.evaluate name live live.observation now <;> rfl

/-! ## The ways through an observation -/

/-- The ways that an observation of a resource can go. -/
inductive ObservePath [DurationReader] (p : Project) :
    List Step → Option (Except Failure (Sighting × Project)) → Prop where
  /-- There is no name to look for. -/
  | unnamed (unnamed : p.externalName = none) :
      ObservePath p [] (some (.ok ({}, p)))
  /-- The call is not answered. -/
  | unfetched {name : String} {steps : List Step}
      {outcome : Option (Except Failure (Sighting × Project))}
      (named : p.externalName = some name)
      (stop : Interrupted (.get name) steps outcome) :
      ObservePath p steps outcome
  | missing {name : String} {refusal : Refusal}
      (named : p.externalName = some name) (missing : refusal.isNotFound = true) :
      ObservePath p [.asked (.get name) (some (.error refusal))]
        (some (.ok ({}, p)))
  | refused {name : String} {refusal : Refusal}
      (named : p.externalName = some name) :
      ObservePath p [.asked (.get name) (some (.error refusal))]
        (some (.error (.get refusal)))
  /-- The fetched project cannot be judged. -/
  | unjudged {name : String} {live : Live.Project} {now : Instant}
      {failure : Failure} (named : p.externalName = some name)
      (failed : p.parameters.evaluate name live live.observation now =
        .error failure) :
      ObservePath p [.asked (.get name) (some (.ok live)), .looked now]
        (some (.error failure))
  | judged {name : String} {live : Live.Project} {now : Instant}
      {verdict : Verdict} (named : p.externalName = some name)
      (judged : p.parameters.evaluate name live live.observation now =
        .ok verdict) :
      ObservePath p [.asked (.get name) (some (.ok live)), .looked now]
        (some (.ok (⟨true, verdict.upToDate, verdict.lateInitialized⟩,
          p.seeing live now)))

theorem observePath_of_path [DurationReader] {p : Project} {steps : List Step}
    {outcome : Option (Except Failure (Sighting × Project))}
    (path : p.observe.run.Path steps outcome) : ObservePath p steps outcome := by
  rw [Project.observe] at path
  cases named : p.externalName with
  | none =>
      rw [named] at path
      obtain ⟨rfl, rfl⟩ := Attempt.path_done path
      exact .unnamed named
  | some name =>
      rw [named] at path
      rcases Attempt.path_call_bind path with stop | ⟨answer, _, rfl, fetched⟩
      · exact .unfetched named stop
      cases answer with
      | error refusal =>
          dsimp only at fetched
          by_cases hmissing : refusal.isNotFound = true
          · rw [if_pos hmissing] at fetched
            obtain ⟨rfl, rfl⟩ := Attempt.path_done fetched
            exact .missing named hmissing
          · rw [if_neg hmissing] at fetched
            obtain ⟨rfl, rfl⟩ := Attempt.path_done fetched
            exact .refused named
      | ok live =>
          obtain ⟨now, _, rfl, looked⟩ := Attempt.path_now_bind fetched
          rcases Attempt.path_settled_bind looked with
            ⟨failure, failed, rfl, rfl⟩ | ⟨verdict, judged, onward⟩
          · exact .unjudged named failed
          · obtain ⟨rfl, rfl⟩ := Attempt.path_done onward
            exact .judged named judged

/-! ## Filling in once and for all -/

section FilledIn

variable (p : Parameters) (live : Live.Project)

theorem filled_filled {α : Type} (declared live : List α) :
    Parameters.filled (Parameters.filled declared live) live =
      Parameters.filled declared live := by
  unfold Parameters.filled
  by_cases h : declared = []
  · simp [h]
  · simp [h]

/-- **Filling in a second time changes nothing.** -/
theorem fillFrom_fillFrom : (p.fillFrom live).fillFrom live = p.fillFrom live := by
  obtain ⟨description, labels⟩ := p
  simp only [Parameters.fillFrom, filled_filled, Parameters.mk.injEq, and_true]
  constructor
  · rcases description with _ | text
    · by_cases h : live.spec.description = ""
      · simp [h]
      · simp [h]
    · rfl
  · by_cases h : labels = ∅
    · simp [h]
    · simp [h]

theorem isEmpty_filled {α : Type} (declared live : List α) :
    ((Parameters.filled declared live).isEmpty && !live.isEmpty) = false := by
  unfold Parameters.filled
  by_cases h : declared = []
  · simp [h]
  · simp [h]

/-- Filling in leaves no gap behind. -/
theorem hasGaps_fillFrom : (p.fillFrom live).hasGaps live = false := by
  have hdestinations := isEmpty_filled p.destinations
    (live.spec.destinations.map Destination.ofLive)
  rw [List.isEmpty_map] at hdestinations
  have hdescription : ((p.fillFrom live).description.isNone &&
      live.spec.description != "") = false := by
    unfold Parameters.fillFrom
    by_cases h : live.spec.description = ""
    · simp [h]
    · cases p.description with
      | none => simp [h]
      | some text => simp
  have hlabels : ((p.fillFrom live).labels.isEmpty && !live.labels.isEmpty) =
      false := by
    unfold Parameters.fillFrom
    by_cases h : p.labels = ∅
    · simp [h]
    · simp [h, Std.ExtTreeMap.isEmpty_iff]
  unfold Parameters.hasGaps
  rw [hdescription, hlabels]
  simp only [Parameters.fillFrom, isEmpty_filled, hdestinations, Bool.or_false]

/-- Parameters that were filled in are judged as before, with nothing left to
fill. -/
theorem evaluate_fillFrom [DurationReader] (project : String) (observation : Observation)
    (now : Instant) :
    (p.fillFrom live).evaluate project live observation now =
      (p.evaluate project live observation now).map
        ({ · with lateInitialized := false }) := by
  unfold Parameters.evaluate
  rw [fillFrom_fillFrom, hasGaps_fillFrom]
  unfold Parameters.judge
  cases planTokens project (p.fillFrom live).roles observation now with
  | error failure => rfl
  | ok plan =>
      simp only [ok_bind]
      by_cases hempty : plan.isEmpty = true
      · simp only [hempty, if_true]
        cases (p.fillFrom live).isUpToDate live observation now <;> rfl
      · simp only [hempty]
        rfl

end FilledIn

theorem agrees_self (c : Condition) : c.agrees c = true := by
  simp [Condition.agrees]

/-- A condition that is in place is not put there again. -/
theorem place_place (c : Condition) (conditions : List Condition) :
    c.place (c.place conditions) = c.place conditions := by
  induction conditions with
  | nil => simp [Condition.place, agrees_self]
  | cons d rest ih =>
      by_cases hkind : d.kind = c.kind
      · by_cases hagrees : d.agrees c = true
        · simp [Condition.place, hkind, hagrees]
        · simp [Condition.place, hkind, hagrees, agrees_self]
      · rw [Condition.place, if_neg hkind, Condition.place, if_neg hkind, ih]

theorem seeing_seeing (p : Project) (live : Live.Project) (now : Instant) :
    (p.seeing live now).seeing live now = p.seeing live now := by
  simp [Project.seeing, Project.setCondition, fillFrom_fillFrom, place_place]

/-! ## Observing again -/

/-- The host answers a fetch of the name with this project, and its clock then
shows this time. -/
structure Host.Shows {σ : Type} (h : Host σ) (name : String) (live : Live.Project)
    (now : Instant) (s : σ) : Prop where
  wanted : h.isCancelled s = false
  fetched : (h.serve (.get name) s).1 = some (.ok live)
  time : h.clock (h.serve (.get name) s).2 = now

section Again

variable {σ : Type} {h : Host σ} {p q : Project} {s : σ} {name : String}
  {live : Live.Project} {now : Instant}

theorem Host.Shows.serve (shows : h.Shows name live now s) :
    ∃ s', h.serve (.get name) s = (some (.ok live), s') ∧ h.clock s' = now :=
  ⟨_, Prod.ext shows.fetched rfl, shows.time⟩

/-- Where a project is shown, an observation in place judges it. -/
theorem run_observeInPlace_of_shows [DurationReader] (shows : h.Shows name live now s)
    (named : p.externalName = some name) {verdict : Verdict}
    (judged : p.parameters.evaluate name live live.observation now = .ok verdict) :
    (h.run (Project.observeInPlace.run.run p) s).1 =
      some (.ok ⟨true, verdict.upToDate, verdict.lateInitialized⟩,
        p.seeing live now) := by
  obtain ⟨s', hserve, htime⟩ := shows.serve
  rw [observeInPlace_run, h.run_bind, Project.observe, named]
  dsimp only
  rw [h.run_call_bind shows.wanted hserve]
  dsimp only
  rw [Attempt.run_now_bind, Host.run, htime, judged]
  rfl

/-- An observation in place goes one of the ways of an observation, and leaves
behind what this hands back. -/
theorem observePath_of_run [DurationReader] {result : Except Failure Sighting}
    (hrun : (h.run (Project.observeInPlace.run.run p) s).1 = some (result, q)) :
    ∃ outcome, (result, q) = p.leftBy outcome ∧
      ObservePath p (h.steps (Project.observeInPlace.run.run p) s) (some outcome) := by
  have hpath := observePath_of_path (h.path p.observe.run s)
  rw [observeInPlace_run, h.run_bind] at hrun
  rw [observeInPlace_run, h.steps_bind]
  generalize h.run p.observe.run s = finished at hrun hpath ⊢
  obtain ⟨outcome, s'⟩ := finished
  cases outcome with
  | none => cases hrun
  | some outcome =>
      refine ⟨outcome, (Option.some.inj hrun).symm, ?_⟩
      show ObservePath p (h.steps p.observe.run s ++ []) (some outcome)
      rw [List.append_nil]
      exact hpath

/-- **An observation writes all or nothing, and writes it for good.** Under every
host, an observation that fails or finds no project leaves the resource as it
was. Otherwise it leaves the metadata and the roles alone and records the tokens
of the project that it fetched. An observation of this resource that is shown the
same project at the same time comes to the same verdict, fills in nothing, and
leaves the resource as it is. -/
theorem observing_again_changes_nothing [DurationReader] (h : Host σ) (p : Project) (s : σ)
    (result : Except Failure Sighting) (q : Project)
    (observed : (h.run (Project.observeInPlace.run.run p) s).1 = some (result, q)) :
    (∀ failure, result = .error failure → q = p) ∧
    ∀ sighting, result = .ok sighting →
      (sighting.found = false → q = p) ∧
      (sighting.found = true →
        q.metadata = p.metadata ∧ q.parameters.roles = p.parameters.roles ∧
        ∃ name live now,
          h.steps (Project.observeInPlace.run.run p) s =
            [.asked (.get name) (some (.ok live)), .looked now] ∧
          q.observation = live.observation ∧
          ∀ {τ : Type} (h' : Host τ) (s' : τ), h'.Shows name live now s' →
            (h'.run (Project.observeInPlace.run.run q) s').1 =
              some (.ok ⟨true, sighting.upToDate, false⟩, q)) := by
  obtain ⟨outcome, hleft, path⟩ := observePath_of_run observed
  generalize h.steps (Project.observeInPlace.run.run p) s = steps at path ⊢
  cases outcome with
  | error failure =>
      obtain ⟨rfl, rfl⟩ := Prod.mk.inj hleft
      exact ⟨fun _ _ => rfl, nofun⟩
  | ok seen =>
      obtain ⟨sighting, seen⟩ := seen
      obtain ⟨rfl, rfl⟩ := Prod.mk.inj hleft
      refine ⟨nofun, ?_⟩
      rintro _ ⟨⟩
      cases path with
      | unnamed _ => exact ⟨fun _ => rfl, nofun⟩
      | unfetched _ stop => rcases stop.outcome_eq with hnone | hnone <;> cases hnone
      | missing _ _ => exact ⟨fun _ => rfl, nofun⟩
      | @judged name live now verdict named judged =>
          refine ⟨nofun, fun _ => ⟨rfl, rfl, name, live, now, rfl, rfl, ?_⟩⟩
          intro τ h' s' shows
          have hagain : (p.seeing live now).parameters.evaluate name live
              live.observation now =
                .ok { verdict with lateInitialized := false } := by
            show (p.parameters.fillFrom live).evaluate _ _ _ _ = _
            rw [evaluate_fillFrom, judged]
            rfl
          have hnamed : (p.seeing live now).externalName = some name := named
          rw [run_observeInPlace_of_shows shows hnamed hagain, seeing_seeing]

end Again

/-- A resource that leaves nearly all fields open, and says of itself twice that
it is not ready. -/
def mooring : Project :=
  { (Project.declare "shop" { roles := [{ name := "ci" }] }).setExternalName "shop" with
    conditions := [⟨.ready, false, .unavailable, ⟨.epoch, false⟩⟩,
      ⟨.ready, false, .unavailable, ⟨.epoch, false⟩⟩] }

/-- Its live project, with something to fill in. -/
def mooringLive : Live.Project where
  name := "shop"
  version := "1"
  spec := {
    description := "docks"
    destinations := [⟨"https://10.0.0.1", "apps", ""⟩]
    roles := [{ name := "ci" }] }

def mooringStage : Rehearsal where
  plane := ({} : ControlPlane).insert mooringLive
  clock := 0
  tail := "x"

theorem observing_again_on_mooring :
    ∃ q, (Rehearsal.host.run (Project.observeInPlace.run.run mooring)
        mooringStage).1 = some (.ok ⟨true, true, true⟩, q) ∧
      q ≠ mooring ∧ q.metadata = mooring.metadata ∧
      (Rehearsal.host.run (Project.observeInPlace.run.run q) mooringStage).1 =
        some (.ok ⟨true, true, false⟩, q) := by
  have hresult : ((Rehearsal.host.run (Project.observeInPlace.run.run mooring)
      mooringStage).1.map Prod.fst) = some (.ok ⟨true, true, true⟩) := by
    decide +kernel
  obtain ⟨⟨_, q⟩, hrun, rfl⟩ := Option.map_eq_some_iff.mp hresult
  have hsteps : Rehearsal.host.steps (Project.observeInPlace.run.run mooring)
      mooringStage = [.asked (.get "shop") (some (.ok mooringLive)),
        .looked .epoch] := by
    decide +kernel
  obtain ⟨hmetadata, _, name, live, now, hseen, hobservation, hagain⟩ :=
    ((observing_again_changes_nothing Rehearsal.host mooring mooringStage _ q
      hrun).2 _ rfl).2 rfl
  rw [hsteps] at hseen
  cases hseen
  have hchanged : ((Rehearsal.host.run (Project.observeInPlace.run.run mooring)
      mooringStage).1.map Prod.snd) ≠ some mooring := by
    decide +kernel
  refine ⟨q, hrun, ?_, hmetadata, hagain Rehearsal.host mooringStage ⟨?_, ?_, ?_⟩⟩
  · rintro rfl
    rw [hrun] at hchanged
    exact hchanged rfl
  · decide +kernel
  · decide +kernel
  · decide +kernel

end Reconcile

import Mathlib
import Reconcile.Proofs.Session

/-!
# What operations write

A resource belongs to the user, and the operations write into it. Here they do
so in place, one after the other, each on what the last has left behind, in
success and in failure. `performInPlace_run` says that this comes to the same as
handing on a new resource after each operation that succeeds.

`Project.Written` lists the writes. An observation that finds the live project
fills in what was left open and records what it saw, a creation that succeeds
records the name, and there is nothing else. So what the user has set stays for
good, however long the session, and whatever answers, times and withdrawals it
meets.
-/

namespace Reconcile

namespace Project

/-! ## Operations in place -/

/-- Creating in place. The name is written once the call has succeeded. -/
def createInPlace : InPlace Unit := do
  let p ← get
  let name := p.externalName.getD p.metadata.name
  match ← InPlace.leave (.call (.create (p.parameters.toLive name ∅) false)) with
  | .error refusal => throw (.create refusal)
  | .ok created =>
    modify (·.setExternalName created.name)
    InPlace.leave (.note (.created created.name))

/-- Updating in place. The resource is read, and that is all. -/
def updateInPlace [DurationReader] : InPlace Secrets := do
  let p ← get
  InPlace.leave p.update

/-- Deleting in place. The resource is read, and that is all. -/
def deleteInPlace : InPlace Unit := do
  let p ← get
  InPlace.leave p.delete

/-- Performs an operation in place, and tells what it ended in. -/
def performInPlace [DurationReader] : Task → StateT Project Program Report
  | .observe => do return .observed (← observeInPlace.run)
  | .create => do return .created (← createInPlace.run)
  | .update => do return .updated (← updateInPlace.run)
  | .delete => do return .deleted (← deleteInPlace.run)

/-- Performs operations in place and in turn, with a copy of the resource taken
after each of them. -/
def sessionInPlace [DurationReader] : List Task → StateT Project Program (List (Report × Project))
  | [] => return []
  | task :: rest => do
    let report ← performInPlace task
    let left ← get
    return (report, left) :: (← sessionInPlace rest)

/-- Creating in place leaves the resource that a creation hands back, and the
old one if it fails. -/
theorem createInPlace_run (p : Project) :
    createInPlace.run.run p = p.create.run.bind fun result =>
      .done (p.leftBy (result.map fun created => ((), created))) := by
  rw [createInPlace, InPlace.run_get_bind, Project.create]
  dsimp only
  rw [InPlace.run_leave_call_bind, Attempt.run_call_bind]
  refine congrArg (Program.ask _) (funext fun answer => ?_)
  rcases answer with _ | refusal | created <;> rfl

/-- **An operation in place leaves what it would hand on.** -/
theorem performInPlace_run [DurationReader] (p : Project) (task : Task) :
    (performInPlace task).run p = p.perform task := by
  cases task with
  | observe =>
      show (observeInPlace.run.run p).bind _ = _
      rw [observeInPlace_run, Program.bind_bind]
      rfl
  | create =>
      show (createInPlace.run.run p).bind _ = _
      rw [createInPlace_run, Program.bind_bind]
      rfl
  | update =>
      show (p.update.run.bind _).bind _ = _
      rw [Program.bind_bind]
      rfl
  | delete =>
      show (p.delete.run.bind _).bind _ = _
      rw [Program.bind_bind]
      rfl

theorem sessionInPlace_run_cons [DurationReader] (p : Project) (task : Task) (rest : List Task) :
    (sessionInPlace (task :: rest)).run p =
      (p.perform task).bind fun entry =>
        ((sessionInPlace rest).run entry.2).bind fun later =>
          .done (entry :: later.1, later.2) := by
  rw [← performInPlace_run]
  rfl

end Project

/-! ## All that is written -/

/-- What an operation has made of a resource. -/
inductive Project.Written (p : Project) : Task → Report → Project → Prop where
  | nothing (task : Task) (report : Report) : Written p task report p
  /-- An observation has found the live project, and what it saw is recorded. -/
  | seen {sighting : Sighting} (found : sighting.found = true) (live : Live.Project)
      (now : Instant) :
      Written p .observe (.observed (.ok sighting)) (p.seeing live now)
  /-- A creation has succeeded, and the name is recorded. -/
  | named (name : String) :
      Written p .create (.created (.ok ())) (p.setExternalName name)

theorem ObservePath.written [DurationReader] {p : Project} {steps : List Step}
    {result : Except Failure (Sighting × Project)}
    (path : ObservePath p steps (some result)) :
    p.Written .observe (.observed (p.leftBy result).1) (p.leftBy result).2 := by
  cases path with
  | unnamed _ => exact .nothing _ _
  | unfetched _ stop =>
      obtain rfl := stop.result_eq
      exact .nothing _ _
  | missing _ _ => exact .nothing _ _
  | refused _ => exact .nothing _ _
  | unjudged _ _ => exact .nothing _ _
  | @judged _ live now _ _ _ => exact .seen rfl live now

theorem Project.written_of_create (p : Project) (result : Except Failure Project)
    {steps : List Step} (path : p.create.run.Path steps (some result)) :
    p.Written .create
      (.created (p.leftBy (result.map fun created => ((), created))).1)
      (p.leftBy (result.map fun created => ((), created))).2 := by
  rw [Project.create] at path
  rcases Attempt.path_call_bind path with stop | ⟨answer, _, rfl, onward⟩
  · obtain rfl := stop.result_eq
    exact .nothing _ _
  · cases answer with
    | error refusal =>
        obtain ⟨_, hresult⟩ := Attempt.path_done onward
        cases hresult
        exact .nothing _ _
    | ok created =>
        obtain ⟨_, _, noted⟩ := Attempt.path_note_bind onward
        obtain ⟨_, hresult⟩ := Attempt.path_done noted
        cases hresult
        exact .named created.name

section Hosts

variable {σ : Type} {h : Host σ} {p q : Project} {s : σ}

/-- **There is nothing else that an operation writes.** -/
theorem Project.written_of_perform [DurationReader] {task : Task} {report : Report}
    (ran : (h.run (p.perform task) s).1 = some (report, q)) :
    p.Written task report q := by
  cases task with
  | observe =>
      obtain ⟨result, s', hrun, hdone⟩ := h.exists_of_run_bind ran
      have path := h.path p.observe.run s
      rw [hrun] at path
      cases hdone
      exact (observePath_of_path path).written
  | create =>
      obtain ⟨result, s', hrun, hdone⟩ := h.exists_of_run_bind ran
      have path := h.path p.create.run s
      rw [hrun] at path
      cases hdone
      exact p.written_of_create result path
  | update =>
      obtain ⟨result, s', hrun, hdone⟩ := h.exists_of_run_bind ran
      cases hdone
      exact .nothing _ _
  | delete =>
      obtain ⟨result, s', hrun, hdone⟩ := h.exists_of_run_bind ran
      cases hdone
      exact .nothing _ _

end Hosts

/-! ## What the user has set -/

/-- What is set in the parameters stays as it is set: the roles always, and
every other field from the moment that it says something. -/
structure Parameters.KeptBy (p q : Parameters) : Prop where
  roles : q.roles = p.roles
  description : p.description ≠ none → q.description = p.description
  labels : p.labels ≠ ∅ → q.labels = p.labels
  sourceRepos : p.sourceRepos ≠ [] → q.sourceRepos = p.sourceRepos
  sourceNamespaces : p.sourceNamespaces ≠ [] → q.sourceNamespaces = p.sourceNamespaces
  destinations : p.destinations ≠ [] → q.destinations = p.destinations
  clusterWhitelist : p.clusterWhitelist ≠ [] → q.clusterWhitelist = p.clusterWhitelist
  namespaceBlacklist :
    p.namespaceBlacklist ≠ [] → q.namespaceBlacklist = p.namespaceBlacklist

/-- What belongs to the user in a resource: what it is called, how it is marked,
the recorded name aside, and what is set in its parameters. -/
structure Project.KeptBy (p q : Project) : Prop where
  name : q.metadata.name = p.metadata.name
  labels : q.metadata.labels = p.metadata.labels
  annotations : ∀ key ≠ Project.externalNameKey,
    q.metadata.annotations[key]? = p.metadata.annotations[key]?
  parameters : p.parameters.KeptBy q.parameters

/-- A field that is kept from the moment that it says something is kept for
good. -/
theorem kept_trans {α : Type} (IsSet : α → Prop) {a b c : α} (first : IsSet a → b = a)
    (second : IsSet b → c = b) (isSet : IsSet a) : c = a := by
  have hb := first isSet
  have hc : IsSet b := hb.symm ▸ isSet
  exact (second hc).trans hb

namespace Parameters.KeptBy

theorem refl (p : Parameters) : p.KeptBy p :=
  ⟨rfl, fun _ => rfl, fun _ => rfl, fun _ => rfl, fun _ => rfl, fun _ => rfl,
    fun _ => rfl, fun _ => rfl⟩

theorem trans {p q r : Parameters} (first : p.KeptBy q) (second : q.KeptBy r) :
    p.KeptBy r where
  roles := second.roles.trans first.roles
  description := kept_trans (· ≠ none) first.description second.description
  labels := kept_trans (· ≠ ∅) first.labels second.labels
  sourceRepos := kept_trans (· ≠ []) first.sourceRepos second.sourceRepos
  sourceNamespaces := kept_trans (· ≠ []) first.sourceNamespaces second.sourceNamespaces
  destinations := kept_trans (· ≠ []) first.destinations second.destinations
  clusterWhitelist := kept_trans (· ≠ []) first.clusterWhitelist second.clusterWhitelist
  namespaceBlacklist := kept_trans (· ≠ []) first.namespaceBlacklist second.namespaceBlacklist

theorem filled_of_ne_nil {α : Type} {declared : List α} (hne : declared ≠ [])
    (live : List α) : Parameters.filled declared live = declared :=
  if_neg hne

/-- **Filling in overwrites nothing.** -/
theorem fillFrom (p : Parameters) (live : Live.Project) :
    p.KeptBy (p.fillFrom live) where
  roles := rfl
  description := by
    intro hsome
    obtain ⟨text, htext⟩ := Option.ne_none_iff_exists'.mp hsome
    simp only [Parameters.fillFrom, htext]
  labels hne := if_neg hne
  sourceRepos hne := filled_of_ne_nil hne _
  sourceNamespaces hne := filled_of_ne_nil hne _
  destinations hne := filled_of_ne_nil hne _
  clusterWhitelist hne := filled_of_ne_nil hne _
  namespaceBlacklist hne := filled_of_ne_nil hne _

end Parameters.KeptBy

namespace Project.KeptBy

theorem trans {p q r : Project} (first : p.KeptBy q) (second : q.KeptBy r) :
    p.KeptBy r where
  name := second.name.trans first.name
  labels := second.labels.trans first.labels
  annotations key hkey :=
    (second.annotations key hkey).trans (first.annotations key hkey)
  parameters := first.parameters.trans second.parameters

theorem of_written {p q : Project} {task : Task} {report : Report}
    (written : p.Written task report q) : p.KeptBy q := by
  cases written with
  | nothing => exact ⟨rfl, rfl, fun _ _ => rfl, .refl _⟩
  | seen found live now => exact ⟨rfl, rfl, fun _ _ => rfl, .fillFrom _ live⟩
  | named name =>
      refine ⟨rfl, rfl, fun key hkey => ?_, .refl _⟩
      show (p.metadata.annotations.insert externalNameKey name)[key]? = _
      rw [Std.ExtTreeMap.getElem?_insert, if_neg]
      simpa using hkey.symm

end Project.KeptBy

/-- The occasions for a change of a resource. -/
structure Project.ChangedOnlyBy (p : Project) (task : Task) (report : Report)
    (q : Project) : Prop where
  /-- The recorded name changes only in a creation that succeeds. -/
  recorded : q.metadata.annotations[externalNameKey]? ≠
      p.metadata.annotations[externalNameKey]? →
    task = .create ∧ report = .created (.ok ())
  /-- The parameters and the status change only in an observation that finds the
  live project. -/
  observed : q.parameters ≠ p.parameters ∨ q.conditions ≠ p.conditions ∨
      q.observation ≠ p.observation →
    task = .observe ∧ ∃ sighting, report = .observed (.ok sighting) ∧
      sighting.found = true
  idle : task = .update ∨ task = .delete → q = p

theorem Project.ChangedOnlyBy.of_written {p q : Project} {task : Task}
    {report : Report} (written : p.Written task report q) :
    p.ChangedOnlyBy task report q := by
  cases written with
  | nothing => exact ⟨fun h => absurd rfl h, by simp, fun _ => rfl⟩
  | seen found live now =>
      exact ⟨fun h => absurd rfl h, fun _ => ⟨rfl, _, rfl, found⟩, by simp⟩
  | named name =>
      exact ⟨fun _ => ⟨rfl, rfl⟩, by simp [setExternalName], by simp⟩

/-! ## Sessions -/

/-- Each operation of a session relates the resource before it to the one after
it. -/
def EachStep (R : Project → Task → Report → Project → Prop) :
    Project → List Task → List (Report × Project) → Prop
  | _, [], [] => True
  | p, task :: tasks, (report, q) :: entries => R p task report q ∧ EachStep R q tasks entries
  | _, _, _ => False

theorem EachStep.imp {R S : Project → Task → Report → Project → Prop}
    (weaker : ∀ {p task report q}, R p task report q → S p task report q) {p : Project}
    {tasks : List Task} {entries : List (Report × Project)}
    (each : EachStep R p tasks entries) : EachStep S p tasks entries := by
  induction tasks generalizing p entries with
  | nil =>
      cases entries with
      | nil => trivial
      | cons entry entries => cases each
  | cons task tasks ih =>
      cases entries with
      | nil => cases each
      | cons entry entries => exact ⟨weaker each.1, ih each.2⟩

/-- What every operation keeps is kept from every stage of a session to every
later one. -/
theorem EachStep.pairwise {R : Project → Task → Report → Project → Prop}
    {Kept : Project → Project → Prop}
    (trans : ∀ {p q r}, Kept p q → Kept q r → Kept p r)
    (step : ∀ {p task report q}, R p task report q → Kept p q) {p : Project}
    {tasks : List Task} {entries : List (Report × Project)}
    (each : EachStep R p tasks entries) :
    (p :: entries.map Prod.snd).Pairwise Kept := by
  induction tasks generalizing p entries with
  | nil =>
      cases entries with
      | nil => exact List.pairwise_singleton _ p
      | cons entry entries => cases each
  | cons task tasks ih =>
      cases entries with
      | nil => cases each
      | cons entry entries =>
          obtain ⟨hstep, hrest⟩ := each
          have hlater := ih hrest
          have hfirst := step hstep
          refine List.pairwise_cons.mpr ⟨fun q hq => ?_, hlater⟩
          rcases List.mem_cons.mp hq with rfl | hq
          · exact hfirst
          · exact trans hfirst ((List.pairwise_cons.mp hlater).1 q hq)

section Sessions

variable {σ : Type} {h : Host σ} {p q : Project} {tasks : List Task} {s : σ}
  {entries : List (Report × Project)}

/-- A session is a row of operations that write as they can. -/
theorem eachStep_written_of_session [DurationReader]
    (ran : (h.run ((Project.sessionInPlace tasks).run p) s).1 = some (entries, q)) :
    EachStep Project.Written p tasks entries := by
  induction tasks generalizing p s entries with
  | nil =>
      cases ran
      trivial
  | cons task rest ih =>
      rw [Project.sessionInPlace_run_cons] at ran
      obtain ⟨entry, s', hfirst, hrest⟩ := h.exists_of_run_bind ran
      obtain ⟨later, s'', hlater, hdone⟩ := h.exists_of_run_bind hrest
      cases hdone
      have hrest : (h.run ((Project.sessionInPlace rest).run entry.2) s').1 =
          some (later.1, later.2) := by
        rw [hlater]
      have hperform : (h.run (p.perform task) s).1 = some (entry.1, entry.2) := by
        rw [hfirst]
      exact ⟨Project.written_of_perform hperform, ih hrest⟩

/-- **What the user has set is never overwritten.** Take any session of
operations on a resource, under any host, so with any answers, any times and any
withdrawals. From every stage of it to every later one, the name, the labels, the
annotations other than the recorded name and the roles are kept, and so is every
other parameter that is set. Each operation changes the recorded name only as a
creation that succeeds, and the parameters and the status only as an observation
that finds the live project; an update or a deletion changes nothing. -/
theorem what_is_set_stays [DurationReader] (h : Host σ) (p : Project) (tasks : List Task) (s : σ)
    (ran : (h.run ((Project.sessionInPlace tasks).run p) s).1 = some (entries, q)) :
    (p :: entries.map Prod.snd).Pairwise Project.KeptBy ∧
    EachStep Project.ChangedOnlyBy p tasks entries := by
  have each := eachStep_written_of_session ran
  exact ⟨each.pairwise .trans .of_written, each.imp .of_written⟩

end Sessions

/-- A resource with a mark and a repository of its user's. -/
def slipway : Project where
  metadata := {
    name := "shop"
    annotations := Std.ExtTreeMap.ofList [("team", "docks")] }
  parameters := {
    sourceRepos := ["https://git.example/ours"]
    roles := [{ name := "ci", tokens := [{ id := "a" }] }] }

/-- The live project as somebody else leaves it. -/
def slipwayLive : Live.Project where
  name := "shop"
  spec := {
    description := "theirs"
    sourceRepos := ["https://git.example/theirs"] }

/-- An empty control plane. Somebody else puts a project there before it is
fetched for the first time, and the work is withdrawn once a token has been
issued. -/
def slipwayStage : Rehearsal where
  clock := 1700000000
  hooks := [
    { operation := .get, action := .insert slipwayLive },
    { operation := .issue, point := .after, action := .cancel }]
  tail := "x"

def slipwayTasks : List Task := [.observe, .create, .observe, .update, .delete]

theorem what_is_set_stays_on_slipway :
    ∃ entries q, (Rehearsal.host.run ((Project.sessionInPlace slipwayTasks).run slipway)
        slipwayStage).1 = some (entries, q) ∧
      entries.map Prod.fst = [.observed (.ok {}), .created (.ok ()),
        .observed (.ok ⟨true, false, true⟩),
        .updated (.ok (Secrets.file ∅ [(⟨"ci", "a"⟩, "jwt.shop.ci.a.x")])),
        .deleted (.error .cancelled)] ∧
      q.parameters.description = some "theirs" ∧
      (slipway :: entries.map Prod.snd).Pairwise Project.KeptBy ∧
      EachStep Project.ChangedOnlyBy slipway slipwayTasks entries := by
  have hresult : ((Rehearsal.host.run ((Project.sessionInPlace slipwayTasks).run slipway)
      slipwayStage).1.map fun ended =>
        (ended.1.map Prod.fst, ended.2.parameters.description)) =
      some ([.observed (.ok {}), .created (.ok ()),
        .observed (.ok ⟨true, false, true⟩),
        .updated (.ok (Secrets.file ∅ [(⟨"ci", "a"⟩, "jwt.shop.ci.a.x")])),
        .deleted (.error .cancelled)], some "theirs") := by
    decide +kernel
  obtain ⟨⟨entries, q⟩, hrun, hended⟩ := Option.map_eq_some_iff.mp hresult
  obtain ⟨hreports, hdescription⟩ := Prod.mk.inj hended
  exact ⟨entries, q, hrun, hreports, hdescription,
    what_is_set_stays Rehearsal.host slipway slipwayTasks slipwayStage hrun⟩

end Reconcile

import Mathlib
import Reconcile.Proofs.Keeping
import Reconcile.Proofs.Ordering
import Reconcile.Proofs.Storing

/-!
# Updating what is up to date

An update rebuilds the live project, its roles from the declaration and their
tokens from what was seen. The comparison looks at the project in declared form
and never at what would be sent. Here the two are held against each other for a
project that is up to date: everything that is written has been compared, so the
update stores the project that was there, under a new version, and asks for no
token.

It takes a project whose index is that of its roles, since the comparison reads
the index and the update writes the roles, and whose timestamps can be read,
since only these come back as they were.
-/

namespace Reconcile

open ControlPlane

/-- No two roles share a name, and no two tokens of a role share an id. -/
structure Live.DistinctTokens (roles : List Live.Role) : Prop where
  names : (roles.map (·.name)).Nodup
  ids : ∀ r ∈ roles, (r.tokens.map (·.id)).Nodup

instance (roles : List Live.Role) : Decidable (Live.DistinctTokens roles) :=
  decidable_of_iff (_ ∧ _) ⟨fun h => ⟨h.1, h.2⟩, fun h => ⟨h.names, h.ids⟩⟩

/-! ## What has been compared -/

/-- The role is the declared one, and its observed tokens are those declared. -/
def Agrees [DurationReader]
    (observation : Observation) (now : Instant) (r : Role) (stored : Live.Role) :
    Prop :=
  r.matches stored = true ∧
    tokensAgree r.tokens (observation[r.name]?.getD []) now = .ok true

section Compared

variable {observation : Observation} {now : Instant} {roles : List Role}
  {lives : List Live.Role}

/-- Roles that match agree one by one. -/
theorem forall₂_of_rolesMatch [DurationReader]
    (h : rolesMatch observation now roles lives = .ok true) :
    List.Forall₂ (Agrees observation now) roles lives := by
  induction roles generalizing lives with
  | nil =>
      cases lives with
      | nil => exact .nil
      | cons stored lives => cases h
  | cons r roles ih =>
      cases lives with
      | nil => cases h
      | cons stored lives =>
          cases matched : r.matches stored with
          | false =>
              rw [rolesMatch, matched] at h
              cases h
          | true =>
              rw [rolesMatch, matched] at h
              obtain ⟨agree, hagree, h⟩ := bind_eq_ok.mp h
              cases agree with
              | false => cases h
              | true => exact .cons ⟨matched, hagree⟩ (ih h)

/-- Two lists are mapped to one if their members are, pair by pair. -/
theorem map_eq_of_forall₂ {α β γ : Type} {R : α → β → Prop} {as : List α} {bs : List β}
    {f : α → γ} {g : β → γ} (h : List.Forall₂ R as bs)
    (pair : ∀ a ∈ as, ∀ b ∈ bs, R a b → f a = g b) : as.map f = bs.map g := by
  induction h with
  | nil => rfl
  | cons hab _ ih =>
      rw [List.map_cons, List.map_cons,
        pair _ List.mem_cons_self _ List.mem_cons_self hab,
        ih fun a ha b hb => pair a (List.mem_cons_of_mem _ ha) b
          (List.mem_cons_of_mem _ hb)]

theorem Agrees.name_eq [DurationReader] {r : Role} {stored : Live.Role}
    (h : Agrees observation now r stored) : r.name = stored.name := by
  have hbare := matches_eq_true_iff.mp h.1
  rw [toLive_empty] at hbare
  exact (congrArg Live.Role.name hbare).symm

end Compared

/-- **What is known of a project that is up to date**: nothing is planned for
it, and everything else is as it would be sent. -/
theorem compared_of_upToDate [DurationReader] {p : Parameters} {name : String} {live : Live.Project}
    {now : Instant} {verdict : Verdict}
    (judged : p.evaluate name live live.observation now = .ok verdict)
    (upToDate : verdict.upToDate = true) :
    planTokens name p.roles live.observation now = .ok ∅ ∧
      AsSent (p.fillFrom live) live ∧
      List.Forall₂ (Agrees live.observation now) p.roles live.spec.roles := by
  obtain ⟨hplan, hempty⟩ := planned_of_evaluate judged
  rw [hempty upToDate] at hplan
  have hcompared : (p.fillFrom live).isUpToDate live live.observation now = .ok true := by
    rw [Parameters.evaluate, Parameters.judge] at judged
    obtain ⟨plan, _, judged⟩ := bind_eq_ok.mp judged
    dsimp only at judged
    split at judged
    · obtain ⟨compared, hcompared, judged⟩ := bind_eq_ok.mp judged
      cases judged
      cases upToDate
      exact hcompared
    · cases judged
      cases upToDate
  refine ⟨hplan, ?_⟩
  rw [Parameters.isUpToDate] at hcompared
  split at hcompared
  · cases hcompared
  · rename_i hfields
    split at hcompared
    · cases hcompared
    · rw [Bool.not_eq_true', Bool.not_eq_false] at hfields
      exact ⟨(fieldsMatch_eq_true_iff.mp hfields).1, forall₂_of_rolesMatch hcompared⟩

/-! ## Roles that are rebuilt -/

section Rebuilt

variable {live : Live.Project} {now : Instant} {roles : List Role}
  (indexed : live.tokensByRole = Live.tokenIndex live.spec.roles)

include indexed

/-- The tokens listed for a role are those it has. -/
theorem listed_of_indexed (names : (live.spec.roles.map (·.name)).Nodup)
    {stored : Live.Role} (hstored : stored ∈ live.spec.roles) :
    live.tokensByRole[stored.name]?.getD [] = stored.tokens := by
  rw [indexed, Live.getElem?_tokenIndex names, Live.tokensIn_of_mem names hstored]

variable [DurationReader]

/-- The tokens of a role that agrees have the declared ids, one by one. -/
theorem Agrees.ids_eq {r : Role} {stored : Live.Role}
    (h : Agrees live.observation now r stored)
    (names : (live.spec.roles.map (·.name)).Nodup)
    (hstored : stored ∈ live.spec.roles) :
    r.tokens.map (·.id) = stored.tokens.map (·.id) := by
  have hagree := h.2
  rw [tokensAgree] at hagree
  split at hagree
  · rename_i hlength
    have hids := ids_eq_of_tokensMatch hlength hagree
    rw [Live.Project.getElem?_observation, h.name_eq,
      listed_of_indexed indexed names hstored, List.map_map] at hids
    exact hids.symm
  · cases hagree

variable (agree : List.Forall₂ (Agrees live.observation now) roles live.spec.roles)

omit indexed in
include agree in
theorem names_eq_of_agree : roles.map (·.name) = live.spec.roles.map (·.name) :=
  map_eq_of_forall₂ agree fun _ _ _ _ h => h.name_eq

include agree

/-- Declaration and project have distinct names and ids together. -/
theorem distinctTokens_of_agree :
    DistinctTokens roles ↔ Live.DistinctTokens live.spec.roles := by
  have hnames := names_eq_of_agree agree
  have hids (names : (live.spec.roles.map (·.name)).Nodup) :
      (∀ r ∈ roles, (r.tokens.map (·.id)).Nodup) ↔
        ∀ r ∈ live.spec.roles, (r.tokens.map (·.id)).Nodup := by
    have hmap : roles.map (·.tokens.map (·.id)) =
        live.spec.roles.map (·.tokens.map (·.id)) :=
      map_eq_of_forall₂ agree fun _ _ _ hstored h => h.ids_eq indexed names hstored
    rw [← List.forall_mem_map (P := List.Nodup), hmap, List.forall_mem_map]
  constructor
  · rintro ⟨names, ids⟩
    rw [hnames] at names
    exact ⟨names, (hids names).mp ids⟩
  · rintro ⟨names, ids⟩
    exact ⟨hnames ▸ names, (hids names).mpr ids⟩

/-- **The roles that are sent are those that are there.** -/
theorem toLive_eq_of_agree (readable : live.unrepresentable = [])
    (distinct : Live.DistinctTokens live.spec.roles) :
    roles.map (·.toLive live.observation) = live.spec.roles := by
  have hpair : roles.map (·.toLive live.observation) = live.spec.roles.map id := by
    apply map_eq_of_forall₂ agree
    intro r _ stored hstored h
    have hids := h.ids_eq indexed distinct.names hstored
    have hlisted := listed_of_indexed indexed distinct.names hstored
    have hseen : live.observation[r.name]?.getD [] =
        stored.tokens.map ObservedToken.ofLive := by
      rw [Live.Project.getElem?_observation, h.name_eq, hlisted]
    have hkept : r.keptTokens live.observation =
        stored.tokens.map ObservedToken.ofLive := by
      rw [← hseen]
      apply keptTokens_of_ids
      · rw [hids]
        exact distinct.ids stored hstored
      · rw [hseen, List.map_map, hids]
        rfl
    -- whatever is listed can be read, so it comes back as it was
    have hback : (stored.tokens.map ObservedToken.ofLive).map ObservedToken.toLive =
        stored.tokens := by
      rw [List.map_map]
      refine (List.map_congr_left fun t _ => toLive_ofLive_eq t).trans ?_
      rw [map_sentBack_eq_iff]
      intro t ht
      cases hindex : live.tokensByRole[stored.name]? with
      | none =>
          rw [hindex, Option.getD_none] at hlisted
          rw [← hlisted] at ht
          cases ht
      | some tokens =>
          rw [hindex, Option.getD_some] at hlisted
          exact Live.Project.unrepresentable_of_listed readable hindex (hlisted ▸ ht)
    have hbare := matches_eq_true_iff.mp h.1
    obtain ⟨name, description, policies, groups, tokens⟩ := stored
    rw [toLive_empty, Live.Role.bare, Live.Role.mk.injEq] at hbare
    obtain ⟨rfl, rfl, rfl, rfl, _⟩ := hbare
    rw [Role.toLive, hkept, hback, id]
  rw [hpair, List.map_id]

end Rebuilt

/-! ## The update -/

section Update

variable {p : Project} {name : String} {live : Live.Project} {now : Instant}

/-- **What is sent for a project that is up to date is this project**, without
its index. -/
theorem updated_eq_of_upToDate [DurationReader] {verdict : Verdict}
    (judged : p.parameters.evaluate name live live.observation now = .ok verdict)
    (upToDate : verdict.upToDate = true) (own : live.name = name)
    (indexed : live.tokensByRole = Live.tokenIndex live.spec.roles)
    (readable : live.unrepresentable = [])
    (distinct : DistinctTokens p.parameters.roles ∨
      Live.DistinctTokens live.spec.roles) :
    (p.seeing live now).updated name live = { live with tokensByRole := ∅ } := by
  obtain ⟨_, sent, agree⟩ := compared_of_upToDate judged upToDate
  have hdistinct : Live.DistinctTokens live.spec.roles := by
    rcases distinct with distinct | distinct
    · exact (distinctTokens_of_agree indexed agree).mp distinct
    · exact distinct
  have hroles := toLive_eq_of_agree indexed agree readable hdistinct
  show Live.Project.mk name (p.parameters.fillFrom live).labels live.version
    { description := (p.parameters.fillFrom live).description.getD ""
      sourceRepos := (p.parameters.fillFrom live).sourceRepos
      sourceNamespaces := (p.parameters.fillFrom live).sourceNamespaces
      destinations := (p.parameters.fillFrom live).destinations.map Destination.toLive
      clusterWhitelist := (p.parameters.fillFrom live).clusterWhitelist
      namespaceBlacklist := (p.parameters.fillFrom live).namespaceBlacklist
      roles := p.parameters.roles.map (·.toLive live.observation) } ∅ =
    { live with tokensByRole := ∅ }
  rw [← sent.labels, ← sent.description, ← sent.sourceRepos, ← sent.sourceNamespaces,
    ← sent.destinations, ← sent.clusterWhitelist, ← sent.namespaceBlacklist, hroles, own]

/-- The control plane once a project was fetched and stored again. -/
def ControlPlane.storedAgain (cp : ControlPlane) (p : Live.Project) : ControlPlane :=
  (((cp.recorded (.get p.name)).recorded (.update p)).store p).2

/-- An update for which nothing is planned fetches the project and sends it. -/
theorem run_update_of_empty_plan [DurationReader] {cp : ControlPlane} (tail : ControlPlane → String)
    (named : p.externalName = some name) (held : cp.project? name = some live)
    (served : cp.failures .get = none) (sending : cp.failures .update = none)
    (planned : planTokens name p.parameters.roles live.observation now = .ok ∅) :
    (undisturbed now tail).run p.update.run cp =
      (some (.ok ∅), cp.storedAgain (p.updated name live)) := by
  obtain ⟨_, hcompared⟩ := isUpToDate_isOk_of_planned planned live
  have hfetched : (cp.recorded (.get name)).project? (p.updated name live).name =
      some live := held
  have hserve := serve_update_current hfetched rfl sending
  rw [Project.update, named]
  dsimp only
  rw [run_call_bind (serve_get held served _)]
  dsimp only
  rw [run_now_bind, run_settled_bind planned, run_settled_bind hcompared,
    run_call_bind (hserve _), toList_empty]
  rfl

/-- **Updating an up-to-date project changes nothing but its version.** Let a
project be stored with the index of its roles and with timestamps that can be
read, and let roles and tokens be told apart by their names and ids. If an
observation finds it up to date, then an update of the resource as observed, at
the same time and without a failure, goes through with no secrets. It makes two
calls: it fetches the project, and sends it as it is. Afterwards this project is
stored under a new version, with all else that it had, and every other project
is as it was. -/
theorem updating_up_to_date_changes_version_only [DurationReader] (events : List Event) (n : Nat)
    (tail : ControlPlane → String) {q : Project} {sighting : Sighting}
    {seen : ControlPlane} (named : p.externalName = some name)
    (held : (standing events n).project? name = some live)
    (indexed : live.tokensByRole = Live.tokenIndex live.spec.roles)
    (readable : live.unrepresentable = [])
    (distinct : DistinctTokens p.parameters.roles ∨
      Live.DistinctTokens live.spec.roles)
    (observed : (undisturbed now tail).run p.observe.run (standing events n) =
      (some (.ok (sighting, q)), seen))
    (upToDate : sighting.upToDate = true) (sending : seen.failures .update = none) :
    ∃ after, (undisturbed now tail).run q.update.run seen = (some (.ok ∅), after) ∧
      after.calls = seen.calls ++
        [.get name, .update { live with tokensByRole := ∅ }] ∧
      after.project? name =
        some { live with version := toString (seen.version + 1) } ∧
      ∀ other, other ≠ name → after.project? other = seen.project? other := by
  rcases observe_cases observed with
    ⟨rfl, _, _⟩ | ⟨name', live', verdict, named', held', served, judged, rfl, rfl, rfl⟩
  · cases upToDate
  · obtain rfl := Option.some.inj (named.symm.trans named')
    obtain rfl := Option.some.inj (held.symm.trans held')
    have own := named_standing events n name live held
    have hsent := updated_eq_of_upToDate judged upToDate own indexed readable distinct
    have hplan := (compared_of_upToDate judged upToDate).1
    refine ⟨_, run_update_of_empty_plan tail named held served sending hplan, ?_⟩
    rw [hsent]
    generalize (standing events n).recorded (.get name) = seen
    -- what is sent is stored with the index of its roles, which is the old one
    have hstored : (seen.storedAgain { live with tokensByRole := ∅ }).projects =
        seen.projects.insert name
          { live with version := toString (seen.version + 1) } := by
      rw [← own, indexed]
      rfl
    refine ⟨?_, ?_, ?_⟩
    · rw [← own]
      simp [storedAgain, store, recorded]
    · rw [project?, hstored, Std.ExtTreeMap.getElem?_insert_self]
    · intro other hother
      rw [project?, hstored, Std.ExtTreeMap.getElem?_insert,
        if_neg (by simpa using Ne.symm hother)]
      rfl

end Update

/-- A project that wants two tokens, and leaves its description open. -/
def ferry : Project :=
  (Project.declare "ferry" { roles := [
    { name := "ci", groups := ["crew"], tokens := [
      { id := "sail", expiresIn := some "1h" }, { id := "dock" }] }]
    }).setExternalName "ferry"

/-- It is created with a description, beside another project, and its tokens are
issued in the order in which they are declared. -/
def crossing : List Event := [
  .insert { name := "shop", labels := (∅ : Dict String).insert "team" "shore" },
  .call 0 ⟨1700000000, "x"⟩ (.create
    { name := "ferry", spec.description := "boats", spec.roles := [
      { name := "ci", groups := ["crew"] }] } false) true,
  .call 0 ⟨1700000000, "x"⟩ (.issue
    { project := "ferry", role := "ci", id := "sail", expiresIn := 3600 }) true,
  .call 0 ⟨1700000000, "x"⟩ (.issue
    { project := "ferry", role := "ci", id := "dock" }) true]

/-- What is stored for it in the end. -/
def ferryLive : Live.Project :=
  Live.Project.reindex { name := "ferry", version := "4", spec := {
    description := "boats", roles := [
      { name := "ci", groups := ["crew"], tokens := [
        ⟨"sail", 1700000000, 1700003600⟩, ⟨"dock", 1700000000, 0⟩] }] } }

theorem updating_up_to_date_ferry :
    ∃ q sighting seen after,
      (undisturbed (instantOfTimestamp 1700000000) fun _ => "y").run ferry.observe.run
        (standing crossing 4) = (some (.ok (sighting, q)), seen) ∧
      sighting = ⟨true, true, true⟩ ∧ q.parameters.description = some "boats" ∧
      (undisturbed (instantOfTimestamp 1700000000) fun _ => "y").run q.update.run seen =
        (some (.ok ∅), after) ∧
      after.count .issue = 2 ∧
      after.project? "ferry" = some { ferryLive with version := "5" } ∧
      after.project? "shop" = seen.project? "shop" := by
  have named : ferry.externalName = some "ferry" := by decide +kernel
  have held : (standing crossing 4).project? "ferry" = some ferryLive := by
    decide +kernel
  have judged : ferry.parameters.evaluate "ferry" ferryLive ferryLive.observation
      (instantOfTimestamp 1700000000) = .ok ⟨true, true, ∅⟩ := by decide +kernel
  have observed : (undisturbed (instantOfTimestamp 1700000000) fun _ => "y").run
      ferry.observe.run (standing crossing 4) = _ := run_observe_held _ named held rfl
  rw [judged] at observed
  obtain ⟨after, hrun, hcalls, hstored, hother⟩ :=
    updating_up_to_date_changes_version_only crossing 4 (fun _ => "y") named held rfl
      (by decide +kernel) (.inr (by decide +kernel)) observed rfl rfl
  refine ⟨_, _, _, after, observed, rfl, by decide +kernel, hrun, ?_, hstored,
    hother "shop" (by decide)⟩
  rw [ControlPlane.count, hcalls]
  decide +kernel

end Reconcile

import Mathlib
import Reconcile.Lifecycle
import Reconcile.Proofs.Lookup
import Reconcile.Proofs.Performing

/-!
# What a control plane does with a token

A control plane refuses to issue a token or grants it. A refusal leaves every
project alone, and a granted token is put into its role. Some granted requests
together are followed through the roles by `Live.grantAll`, and what a control
plane holds of a project is told by `ControlPlane.Holds`: the project with given
roles, their tokens indexed, under a version that nobody has to know.
-/

namespace Reconcile

namespace ControlPlane

/-! ## Granted and refused tokens -/

/-- Why the control plane refuses to issue a token, if it does. -/
def refusal? (cp : ControlPlane) (key : TokenKey) : Option Refusal :=
  (cp.failures .issue).or (cp.tokenFailures key)

/-- The planned tokens that the control plane does not refuse. -/
def granted (cp : ControlPlane) (plan : TokenPlan) : TokenPlan :=
  plan.filter fun key _ => (cp.refusal? key).isNone

/-- The entries that it does not refuse. -/
def admitted (cp : ControlPlane) (entries : List (TokenKey × TokenRequest)) :
    List (TokenKey × TokenRequest) :=
  entries.filter fun entry => (cp.refusal? entry.1).isNone

theorem toList_granted (cp : ControlPlane) (plan : TokenPlan) :
    (cp.granted plan).toList = cp.admitted plan.toList :=
  Std.ExtTreeMap.toList_filter

theorem getElem?_granted (cp : ControlPlane) (plan : TokenPlan) (key : TokenKey) :
    (cp.granted plan)[key]? =
      plan[key]?.filter fun _ => (cp.refusal? key).isNone :=
  Std.ExtTreeMap.getElem?_filter'

/-- The tokens that it does refuse, with its reasons. -/
def refused (cp : ControlPlane) (entries : List (TokenKey × TokenRequest)) :
    List TokenFailure :=
  entries.filterMap fun entry => (cp.refusal? entry.1).map (TokenFailure.mk entry.1)

section Entries

variable {cp : ControlPlane} {entry : TokenKey × TokenRequest}
  (rest : List (TokenKey × TokenRequest))

theorem refused_cons_of_some {refusal : Refusal}
    (h : cp.refusal? entry.1 = some refusal) :
    cp.refused (entry :: rest) = ⟨entry.1, refusal⟩ :: cp.refused rest := by
  rw [refused, List.filterMap_cons, h]
  rfl

theorem refused_cons_of_none (h : cp.refusal? entry.1 = none) :
    cp.refused (entry :: rest) = cp.refused rest := by
  rw [refused, List.filterMap_cons, h]
  rfl

theorem admitted_cons_of_some {refusal : Refusal}
    (h : cp.refusal? entry.1 = some refusal) :
    cp.admitted (entry :: rest) = cp.admitted rest := by
  rw [admitted, List.filter_cons, h]
  rfl

theorem admitted_cons_of_none (h : cp.refusal? entry.1 = none) :
    cp.admitted (entry :: rest) = entry :: cp.admitted rest := by
  rw [admitted, List.filter_cons, h]
  rfl

end Entries

/-- Where no key is refused, no entry is. -/
theorem refused_eq_nil {cp : ControlPlane} (h : ∀ key, cp.refusal? key = none)
    (entries : List (TokenKey × TokenRequest)) : cp.refused entries = [] := by
  rw [refused, List.filterMap_eq_nil_iff]
  intro entry _
  rw [h]
  rfl

/-- Where nothing planned is refused, all that is planned is granted. -/
theorem getElem?_granted_of_refused_eq_nil {cp : ControlPlane} {plan : TokenPlan}
    (h : cp.refused plan.toList = []) (key : TokenKey) :
    (cp.granted plan)[key]? = plan[key]? := by
  rw [getElem?_granted]
  cases ht : plan[key]? with
  | none => rfl
  | some t =>
      have hentry : (key, t) ∈ plan.toList :=
        Std.ExtTreeMap.mem_toList_iff_getElem?_eq_some.mpr ht
      have hmade := List.filterMap_eq_nil_iff.mp h (key, t) hentry
      rw [Option.filter_some, Option.map_eq_none_iff.mp hmade]
      rfl

namespace SameFaults

variable {cp cp' : ControlPlane}

theorem refusal?_eq (h : cp.SameFaults cp') : cp'.refusal? = cp.refusal? := by
  funext key
  rw [refusal?, refusal?, h.failures, h.tokenFailures]

theorem refused_eq (h : cp.SameFaults cp') : cp'.refused = cp.refused := by
  funext entries
  rw [refused, refused, h.refusal?_eq]

theorem admitted_eq (h : cp.SameFaults cp') : cp'.admitted = cp.admitted := by
  funext entries
  rw [admitted, admitted, h.refusal?_eq]

end SameFaults

end ControlPlane

/-! ## Granted tokens in their roles -/

/-- The roles once a request is granted at a time. -/
def Live.grant (seconds : Int) (roles : List Live.Role) (t : TokenRequest) :
    List Live.Role :=
  ((ControlPlane.tokenFor seconds t).putInRole? t.role roles).getD roles

/-- The roles once some requests are granted, one after the other. -/
def Live.grantAll (seconds : Int) (roles : List Live.Role)
    (requests : List TokenRequest) : List Live.Role :=
  requests.foldl (Live.grant seconds) roles

/-- A request that was granted, and the time at which it was. -/
structure Grant where
  seconds : Int
  request : TokenRequest
deriving DecidableEq, Repr

namespace Grant

/-- The key of the granted token. -/
def key (g : Grant) : TokenKey :=
  g.request.key

/-- The granted token. -/
def token (g : Grant) : Live.Token :=
  ControlPlane.tokenFor g.seconds g.request

end Grant

/-- The roles once some tokens are granted, each at its own time. -/
def Live.grantEach (roles : List Live.Role) (grants : List Grant) : List Live.Role :=
  grants.foldl (fun roles g => Live.grant g.seconds roles g.request) roles

theorem Live.grantAll_eq_grantEach (seconds : Int) (roles : List Live.Role)
    (requests : List TokenRequest) :
    Live.grantAll seconds roles requests =
      Live.grantEach roles (requests.map (Grant.mk seconds)) := by
  rw [Live.grantAll, Live.grantEach, List.foldl_map]

theorem Live.bare_grant (seconds : Int) (roles : List Live.Role)
    (t : TokenRequest) :
    (Live.grant seconds roles t).map Live.Role.bare = roles.map Live.Role.bare := by
  rw [Live.grant]
  cases h : (ControlPlane.tokenFor seconds t).putInRole? t.role roles with
  | none => rfl
  | some roles' => exact Live.bare_putInRole? h

/-- Granting tokens leaves everything else about the roles alone. -/
theorem Live.bare_grantEach (grants : List Grant) (roles : List Live.Role) :
    (Live.grantEach roles grants).map Live.Role.bare = roles.map Live.Role.bare := by
  induction grants generalizing roles with
  | nil => rfl
  | cons g rest ih => exact (ih _).trans (Live.bare_grant g.seconds roles g.request)

theorem Live.names_grantEach (grants : List Grant) (roles : List Live.Role) :
    (Live.grantEach roles grants).map (·.name) = roles.map (·.name) :=
  Live.names_eq_of_bare_eq (Live.bare_grantEach grants roles)

theorem Live.bare_grantAll (seconds : Int) (requests : List TokenRequest)
    (roles : List Live.Role) :
    (Live.grantAll seconds roles requests).map Live.Role.bare =
      roles.map Live.Role.bare := by
  rw [Live.grantAll_eq_grantEach, Live.bare_grantEach]

theorem Live.names_grantAll (seconds : Int) (requests : List TokenRequest)
    (roles : List Live.Role) :
    (Live.grantAll seconds roles requests).map (·.name) = roles.map (·.name) := by
  rw [Live.grantAll_eq_grantEach, Live.names_grantEach]

/-- **The token of a key is the one last granted for it**, or else the one that
was there. -/
theorem Live.tokenIn_grantAll (seconds : Int) (requests : List TokenRequest)
    {roles : List Live.Role} {key : TokenKey}
    (hrole : key.role ∈ roles.map (·.name)) :
    Live.tokenIn (Live.grantAll seconds roles requests) key =
      ((requests.reverse.find? (·.key = key)).map (ControlPlane.tokenFor seconds)).or
        (Live.tokenIn roles key) := by
  -- the last request counts, so requests are added at the end
  induction requests using List.reverseRecOn with
  | nil => rfl
  | append_singleton requests t ih =>
      have happend : Live.grantAll seconds roles (requests ++ [t]) =
          Live.grant seconds (Live.grantAll seconds roles requests) t := by
        rw [Live.grantAll, List.foldl_append]
        rfl
      rw [happend, Live.grant, List.reverse_append, List.reverse_singleton,
        List.singleton_append, List.find?_cons]
      by_cases hkey : t.key = key
      · subst hkey
        have hmem : t.role ∈ (Live.grantAll seconds roles requests).map (·.name) := by
          rw [Live.names_grantAll]
          exact hrole
        obtain ⟨roles', hput⟩ := Live.exists_putInRole?
          (ControlPlane.tokenFor seconds t) hmem
        have hkey : t.key = ⟨t.role, (ControlPlane.tokenFor seconds t).id⟩ := rfl
        rw [hput, Option.getD_some, Live.tokenIn_putInRole? hput, if_pos hkey]
        simp
      · simp only [hkey, decide_false]
        rw [← ih]
        cases hput : (ControlPlane.tokenFor seconds t).putInRole? t.role
            (Live.grantAll seconds roles requests) with
        | none => rfl
        | some roles' =>
            rw [Option.getD_some, Live.tokenIn_putInRole? hput,
              if_neg fun h => hkey h.symm]

namespace ControlPlane

/-! ## Single calls -/

/-- Under a name there is a given project, with given roles, under some
version and with its tokens indexed. -/
def Holds (cp : ControlPlane) (name : String) (base : Live.Project)
    (roles : List Live.Role) : Prop :=
  ∃ version, cp.project? name =
    some { base with version := version, spec.roles := roles }.reindex

theorem Holds.recorded {cp : ControlPlane} {name : String} {base : Live.Project}
    {roles : List Live.Role} (held : cp.Holds name base roles) (r : Request) :
    (cp.recorded r).Holds name base roles := held

theorem holds_store (cp : ControlPlane) (p : Live.Project) :
    (cp.store p).2.Holds p.name p p.spec.roles :=
  ⟨toString (cp.version + 1), cp.project?_store p⟩

/-- A refused token changes nothing but the record of calls. -/
theorem serve_issue_refused {cp : ControlPlane} {t : TokenRequest}
    {refusal : Refusal} (h : cp.refusal? t.key = some refusal) (m : Moment) :
    cp.serve m (.issue t) = (.error refusal, cp.recorded (.issue t)) := by
  unfold refusal? at h
  cases hall : cp.failures .issue with
  | some r =>
      rw [hall, Option.some_or] at h
      cases h
      simp only [serve, recorded, Request.operation, hall]
  | none =>
      rw [hall, Option.none_or] at h
      simp only [serve, recorded, perform, issue, Request.operation, hall, h]

/-- A granted token is put into its role. -/
theorem serve_issue_granted {cp : ControlPlane} {t : TokenRequest}
    {base : Live.Project} {roles : List Live.Role}
    (h : cp.refusal? t.key = none) (held : cp.Holds t.project base roles)
    (hrole : t.role ∈ roles.map (·.name)) (m : Moment) :
    ∃ cp', cp.serve m (.issue t) = (.ok (secretFor m.tail t), cp') ∧
      cp'.Holds t.project base (Live.grant m.seconds roles t) ∧
      cp.SameFaults cp' := by
  obtain ⟨version, hproject⟩ := held
  -- neither calls of this kind nor this very token are set to fail
  rw [refusal?, Option.or_eq_none_iff] at h
  obtain ⟨roles', hput⟩ := Live.exists_putInRole? (tokenFor m.seconds t) hrole
  have hgrant : Live.grant m.seconds roles t = roles' := by
    rw [Live.grant, hput, Option.getD_some]
  unfold project? at hproject
  simp only [serve, perform, issue, project?, Request.operation, h.1, h.2,
    hproject, Live.Project.reindex, hput]
  refine ⟨_, rfl, ⟨toString (cp.version + 1), ?_⟩, ⟨rfl, rfl⟩⟩
  rw [hgrant, project?, Std.ExtTreeMap.getElem?_insert_self]
  rfl

section Stored

variable {cp : ControlPlane} {name : String} {live : Live.Project}

/-- An update under the stored version is stored. -/
theorem serve_update_current {p : Live.Project} (held : cp.project? p.name = some live)
    (current : p.version = live.version) (hserved : cp.failures .update = none)
    (m : Moment) : cp.serve m (.update p) = (cp.recorded (.update p)).store p := by
  unfold project? at held
  simp only [serve, perform, update, recorded, project?, Request.operation, hserved,
    held, current, ne_eq, not_true_eq_false, if_false]

/-- An update of the stored version is stored. -/
theorem serve_update (p : Project) (held : cp.project? name = some live)
    (hserved : cp.failures .update = none) (m : Moment) :
    ∃ stored cp', cp.serve m (.update (p.updated name live)) = (.ok stored, cp') ∧
      cp'.Holds name (p.parameters.toLive name live.observation)
        (p.parameters.roles.map (·.toLive live.observation)) ∧
      cp.SameFaults cp' := by
  have hsent : cp.project? (p.updated name live).name = some live := held
  have hversion : (p.updated name live).version = live.version := rfl
  rw [serve_update_current hsent hversion hserved m]
  exact ⟨_, _, rfl, (cp.recorded _).holds_store (p.updated name live), ⟨rfl, rfl⟩⟩

/-- Fetching changes nothing but the record of calls. -/
theorem serve_get (held : cp.project? name = some live)
    (hserved : cp.failures .get = none) (m : Moment) :
    cp.serve m (.get name) = (.ok live, cp.recorded (.get name)) := by
  unfold project? at held
  simp only [serve, recorded, perform, project?, Request.operation, hserved, held]

/-- Nothing is found where nothing is stored. -/
theorem serve_get_missing (missing : cp.project? name = none)
    (hserved : cp.failures .get = none) (m : Moment) :
    cp.serve m (.get name) = (.error (noProject name), cp.recorded (.get name)) := by
  unfold project? at missing
  simp only [serve, recorded, perform, project?, Request.operation, hserved, missing]

/-- A project is created only where there is none. -/
theorem holds_of_created {p created : Live.Project} {cp' : ControlPlane} {m : Moment}
    (h : cp.serve m (.create p false) = (.ok created, cp')) :
    cp.project? p.name = none ∧ created.name = p.name ∧
      cp'.Holds p.name p p.spec.roles := by
  have hserved := cp.served m (.create p false)
  rw [h] at hserved
  cases hserved with
  | created free =>
      rw [project?_recorded] at free
      exact ⟨by simpa using free, rfl, (cp.recorded _).holds_store p⟩

end Stored

/-- What a pass sees of a project that is held: the tokens of its roles. -/
theorem Holds.current {cp : ControlPlane} {name : String} {base : Live.Project}
    {roles : List Live.Role} (held : cp.Holds name base roles)
    (distinct : (roles.map (·.name)).Nodup) :
    ∃ after, cp.project? name = some after ∧
      ∀ role id, after.observation.current role id =
        (Live.tokenIn roles ⟨role, id⟩).map ObservedToken.ofLive := by
  obtain ⟨version, hproject⟩ := held
  exact ⟨_, hproject, fun role id => Live.Project.current_reindex distinct role id⟩

end ControlPlane

end Reconcile

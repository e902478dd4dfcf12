import Mathlib
import Reconcile.Proofs.Comparing

/-!
# Fields as they are sent

What is declared is sent to the control plane, and later compared with what the
control plane holds. The two use opposite translations: going out, an absent
part of a destination becomes empty, and for the comparison an empty part of a
live destination becomes absent. They fit together as long as no declared part
is present but empty. Everything else compares equal to what was sent.
-/

namespace Reconcile

/-! ## Destinations -/

/-- No part of the destination is present but empty. -/
def Destination.Filled (d : Destination) : Prop :=
  d.server ≠ some "" ∧ d.namespaceName ≠ some "" ∧ d.name ≠ some ""

instance (d : Destination) : Decidable d.Filled :=
  inferInstanceAs (Decidable (_ ∧ _ ∧ _))

/-- A destination without empty parts comes back as it was declared. -/
theorem Destination.ofLive_toLive {d : Destination} (h : d.Filled) :
    Destination.ofLive d.toLive = d := by
  have hpart : ∀ part : Option String, part ≠ some "" →
      (if part.getD "" = "" then none else some (part.getD "")) = part := by
    intro part hpart
    cases part with
    | none => rfl
    | some text =>
        have hne : text ≠ "" := fun he => hpart (congrArg some he)
        rw [Option.getD_some, if_neg hne]
  obtain ⟨hserver, hnamespace, hname⟩ := h
  obtain ⟨server, namespaceName, name⟩ := d
  rw [Destination.toLive, Destination.ofLive]
  dsimp only
  rw [hpart server hserver, hpart namespaceName hnamespace, hpart name hname]

theorem map_ofLive_toLive {destinations : List Destination}
    (h : ∀ d ∈ destinations, d.Filled) :
    (destinations.map Destination.toLive).map Destination.ofLive = destinations := by
  rw [List.map_map]
  refine (List.map_congr_left ?_).trans (List.map_id _)
  exact fun d hd => Destination.ofLive_toLive (h d hd)

theorem Destination.filled_ofLive (d : Live.Destination) :
    (Destination.ofLive d).Filled := by
  have hpart : ∀ text : String,
      (if text = "" then none else some text) ≠ some "" := by
    intro text h
    split at h
    · cases h
    · rename_i hne
      exact hne (Option.some.inj h)
  exact ⟨hpart d.server, hpart d.namespaceName, hpart d.name⟩

theorem Destination.toLive_ofLive (d : Live.Destination) :
    (Destination.ofLive d).toLive = d := by
  have hpart : ∀ text : String,
      (if text = "" then none else some text).getD "" = text := by
    intro text
    split
    · rename_i hempty
      exact hempty.symm
    · rfl
  obtain ⟨server, namespaceName, name⟩ := d
  rw [Destination.ofLive, Destination.toLive]
  dsimp only
  rw [hpart, hpart, hpart]

/-- **Destinations compare equal exactly to those they are sent as**, as long as
none of them has an empty part. With an empty part they compare equal to
nothing. -/
theorem eq_map_ofLive_iff {declared : List Destination}
    {lives : List Live.Destination} :
    declared = lives.map Destination.ofLive ↔
      lives = declared.map Destination.toLive ∧ ∀ d ∈ declared, d.Filled := by
  constructor
  · rintro rfl
    constructor
    · rw [List.map_map]
      refine ((List.map_congr_left ?_).trans (List.map_id _)).symm
      exact fun d _ => Destination.toLive_ofLive d
    · intro d hd
      obtain ⟨live, _, rfl⟩ := List.mem_map.mp hd
      exact Destination.filled_ofLive live
  · rintro ⟨rfl, filled⟩
    exact (map_ofLive_toLive filled).symm

/-! ## Fields as they were sent -/

/-- Everything but the roles of the live project is as the parameters send
it. -/
structure AsSent (p : Parameters) (live : Live.Project) : Prop where
  labels : live.labels = p.labels
  description : live.spec.description = p.description.getD ""
  sourceRepos : live.spec.sourceRepos = p.sourceRepos
  sourceNamespaces : live.spec.sourceNamespaces = p.sourceNamespaces
  destinations : live.spec.destinations = p.destinations.map Destination.toLive
  clusterWhitelist : live.spec.clusterWhitelist = p.clusterWhitelist
  namespaceBlacklist : live.spec.namespaceBlacklist = p.namespaceBlacklist

section AsSent

variable {p : Parameters} {live : Live.Project}

/-- What was sent leaves no gap to fill: an open field was sent empty. -/
theorem AsSent.hasGaps_eq_false (h : AsSent p live) : p.hasGaps live = false := by
  have hlist : ∀ {α : Type} (l : List α), (l.isEmpty && !l.isEmpty) = false := by
    intro α l
    cases l <;> rfl
  rw [Parameters.hasGaps, h.labels, h.description, h.sourceRepos, h.sourceNamespaces,
    h.destinations, h.clusterWhitelist, h.namespaceBlacklist, List.isEmpty_map]
  simp only [hlist, Bool.and_not_self, Bool.or_false]
  cases p.description <;> rfl

theorem filled_self {α : Type} (l : List α) : Parameters.filled l l = l := by
  rw [Parameters.filled]
  split
  · rfl
  · rfl

/-- Filling in from what was sent changes nothing. -/
theorem AsSent.fillFrom_eq (h : AsSent p live)
    (filled : ∀ d ∈ p.destinations, d.Filled) : p.fillFrom live = p := by
  rw [Parameters.fillFrom, h.labels, h.description, h.sourceRepos,
    h.sourceNamespaces, h.destinations, h.clusterWhitelist, h.namespaceBlacklist,
    map_ofLive_toLive filled]
  simp only [filled_self, ite_self]
  obtain ⟨description⟩ := p
  cases description <;> rfl

/-- **The fields match exactly if they are as they were sent** and no
destination has an empty part. -/
theorem fieldsMatch_eq_true_iff :
    p.fieldsMatch live = true ↔
      AsSent p live ∧ ∀ d ∈ p.destinations, d.Filled := by
  simp only [Parameters.fieldsMatch, Bool.and_eq_true, decide_eq_true_eq,
    eq_map_ofLive_iff]
  constructor
  · rintro ⟨⟨⟨⟨⟨⟨hdescription, hlabels⟩, hrepos⟩, hnamespaces⟩,
      hdestinations, filled⟩, hwhitelist⟩, hblacklist⟩
    exact ⟨⟨hlabels.symm, hdescription.symm, hrepos.symm, hnamespaces.symm,
      hdestinations, hwhitelist.symm, hblacklist.symm⟩, filled⟩
  · rintro ⟨sent, filled⟩
    exact ⟨⟨⟨⟨⟨⟨sent.description.symm, sent.labels.symm⟩, sent.sourceRepos.symm⟩,
      sent.sourceNamespaces.symm⟩, sent.destinations, filled⟩,
      sent.clusterWhitelist.symm⟩, sent.namespaceBlacklist.symm⟩

theorem AsSent.fieldsMatch_eq_true (h : AsSent p live)
    (filled : ∀ d ∈ p.destinations, d.Filled) : p.fieldsMatch live = true :=
  fieldsMatch_eq_true_iff.mpr ⟨h, filled⟩

end AsSent

/-! ## Roles as they were sent -/

theorem matches_toLive (r : Role) (observation : Observation) :
    r.matches (r.toLive observation) = true := by
  simp [Role.matches, Role.toLive]

/-- Roles as they were sent compare equal, if their tokens agree. -/
theorem rolesMatch_toLive [DurationReader] {seen sent : Observation} {now : Instant}
    {roles : List Role}
    (h : ∀ r ∈ roles, tokensAgree r.tokens (seen[r.name]?.getD []) now = .ok true) :
    rolesMatch seen now roles (roles.map (·.toLive sent)) = .ok true := by
  induction roles with
  | nil => rfl
  | cons r roles ih =>
      rw [List.map_cons, rolesMatch_cons (h r List.mem_cons_self),
        matches_toLive, Bool.and_self, if_pos rfl]
      exact ih fun x hx => h x (List.mem_cons_of_mem _ hx)

end Reconcile

import Mathlib
import Reconcile.Proofs.Observing
import Reconcile.Proofs.Unchanged

/-!
# Judging field by field

A judgement fills in what the user left open, plans the tokens, and compares the
rest only if nothing is planned. Here it is told without this order. Each field
speaks for itself: it is in line with the live project if it says the same, or
says nothing. That a field which says nothing was filled in first makes no
difference, and neither does the comparison that was passed over, since all that
could fail in it has been read by then.

Filling in is told field by field as well. It happens before anything can fail,
and a second time there is nothing left to fill.
-/

namespace Reconcile

/-! ## Tokens and roles, pair by pair -/

/-- The token is the one that a spec declares, and it has not expired. -/
structure TokenSpec.MetBy [DurationReader]
    (now : Instant) (s : TokenSpec) (t : ObservedToken) : Prop where
  id : s.id = t.id
  /-- The lifetimes are the same in whole seconds, or there is none to either. -/
  lifetime : ∃ terms, s.terms = .ok terms ∧
    terms.expiresIn.map Span.wholeSeconds = t.lifetime.map Span.wholeSeconds
  live : t.isExpired now = false

theorem lifetimeMatches_eq_true_iff {terms : TokenTerms} {t : ObservedToken} :
    terms.lifetimeMatches t = true ↔
      terms.expiresIn.map Span.wholeSeconds = t.lifetime.map Span.wholeSeconds := by
  rw [TokenTerms.lifetimeMatches]
  cases terms.expiresIn <;> cases t.lifetime <;> simp

section Tokens

variable [DurationReader] {now : Instant} {s : TokenSpec} {specs : List TokenSpec}
  {t : ObservedToken}
  {tokens : List ObservedToken}

/-- The test of a pair, once the durations of its spec are read. -/
theorem pair_eq_true_iff {terms : TokenTerms} (hterms : s.terms = .ok terms) :
    (s.id = t.id && terms.lifetimeMatches t && !t.isExpired now) = true ↔
      s.MetBy now t := by
  simp only [Bool.and_eq_true, decide_eq_true_eq, Bool.not_eq_true',
    lifetimeMatches_eq_true_iff]
  constructor
  · rintro ⟨⟨hid, hlifetime⟩, hlive⟩
    exact ⟨hid, ⟨terms, hterms, hlifetime⟩, hlive⟩
  · rintro ⟨hid, ⟨read, hread, hlifetime⟩, hlive⟩
    cases hterms.symm.trans hread
    exact ⟨⟨hid, hlifetime⟩, hlive⟩

/-- A pair of tokens is passed exactly if they are in line. -/
theorem tokensMatch_cons_eq_true_iff :
    tokensMatch now (s :: specs) (t :: tokens) = .ok true ↔
      s.MetBy now t ∧ tokensMatch now specs tokens = .ok true := by
  cases hterms : s.terms with
  | error failure =>
      rw [tokensMatch, hterms]
      constructor
      · rintro ⟨⟩
      · rintro ⟨⟨_, ⟨terms, hread, _⟩, _⟩, _⟩
        rw [hterms] at hread
        cases hread
  | ok terms =>
      rw [tokensMatch_cons hterms, ← pair_eq_true_iff hterms]
      split
      · rename_i hpair
        exact (and_iff_right hpair).symm
      · rename_i hpair
        constructor
        · rintro ⟨⟩
        · rintro ⟨h, _⟩
          exact absurd h hpair

/-- **Tokens agree exactly if they are in line one by one.** -/
theorem tokensAgree_eq_true_iff :
    tokensAgree specs tokens now = .ok true ↔
      List.Forall₂ (TokenSpec.MetBy now) specs tokens := by
  induction specs generalizing tokens with
  | nil =>
      cases tokens with
      | nil => simp [tokensAgree, tokensMatch]
      | cons t tokens => simp [tokensAgree]
  | cons s specs ih =>
      cases tokens with
      | nil => simp [tokensAgree]
      | cons t tokens =>
          rw [List.forall₂_cons, ← ih, tokensAgree, tokensAgree]
          by_cases hlength : specs.length = tokens.length
          · have hcons : (s :: specs).length = (t :: tokens).length := congrArg _ hlength
            rw [if_pos hlength, if_pos hcons]
            exact tokensMatch_cons_eq_true_iff
          · have hcons : (s :: specs).length ≠ (t :: tokens).length :=
              fun h => hlength (Nat.succ.inj h)
            rw [if_neg hlength, if_neg hcons]
            simp

end Tokens

/-- The role is as it is declared, and so are its tokens. -/
structure Role.MetBy [DurationReader] (observation : Observation) (now : Instant) (r : Role)
    (stored : Live.Role) : Prop where
  name : r.name = stored.name
  /-- No description is the empty one. -/
  description : r.description.getD "" = stored.description
  policies : r.policies = stored.policies
  groups : r.groups = stored.groups
  tokens : List.Forall₂ (TokenSpec.MetBy now) r.tokens (observation[r.name]?.getD [])

section Roles

variable [DurationReader] {observation : Observation} {now : Instant} {roles : List Role}
  {lives : List Live.Role}

theorem agrees_iff_metBy {r : Role} {stored : Live.Role} :
    Agrees observation now r stored ↔ r.MetBy observation now stored := by
  rw [Agrees, tokensAgree_eq_true_iff]
  simp only [Role.matches, Bool.and_eq_true, decide_eq_true_eq]
  constructor
  · rintro ⟨⟨⟨⟨hname, hdescription⟩, hpolicies⟩, hgroups⟩, htokens⟩
    exact ⟨hname, hdescription, hpolicies, hgroups, htokens⟩
  · rintro ⟨hname, hdescription, hpolicies, hgroups, htokens⟩
    exact ⟨⟨⟨⟨hname, hdescription⟩, hpolicies⟩, hgroups⟩, htokens⟩

/-- Roles that agree one by one match. -/
theorem rolesMatch_of_forall₂ (h : List.Forall₂ (Agrees observation now) roles lives) :
    rolesMatch observation now roles lives = .ok true := by
  induction h with
  | nil => rfl
  | cons hpair _ ih => rw [rolesMatch_cons hpair.2, hpair.1, Bool.and_self, if_pos rfl, ih]

/-- **Roles match exactly if they are as declared one by one.** -/
theorem rolesMatch_eq_true_iff :
    rolesMatch observation now roles lives = .ok true ↔
      List.Forall₂ (Role.MetBy observation now) roles lives := by
  have hpair : Role.MetBy observation now = Agrees observation now :=
    funext₂ fun _ _ => propext agrees_iff_metBy.symm
  rw [hpair]
  exact ⟨forall₂_of_rolesMatch, rolesMatch_of_forall₂⟩

end Roles

/-! ## Filling in, field by field -/

/-- A field holds the live value if it was open and there is one; otherwise it
holds what it held. -/
def FieldFilled {α : Type} (isOpen isGiven : Prop) (old live new : α) : Prop :=
  (isOpen ∧ isGiven → new = live) ∧ (¬ (isOpen ∧ isGiven) → new = old)

/-- What is left of parameters once they were filled in from a live project. -/
structure Parameters.FilledFrom (p : Parameters) (live : Live.Project) (q : Parameters) :
    Prop where
  description : FieldFilled (p.description = none) (live.spec.description ≠ "")
    p.description (some live.spec.description) q.description
  labels : FieldFilled (p.labels = ∅) (live.labels ≠ ∅) p.labels live.labels q.labels
  sourceRepos : FieldFilled (p.sourceRepos = []) (live.spec.sourceRepos ≠ [])
    p.sourceRepos live.spec.sourceRepos q.sourceRepos
  sourceNamespaces : FieldFilled (p.sourceNamespaces = []) (live.spec.sourceNamespaces ≠ [])
    p.sourceNamespaces live.spec.sourceNamespaces q.sourceNamespaces
  destinations : FieldFilled (p.destinations = []) (live.spec.destinations ≠ [])
    p.destinations (live.spec.destinations.map Destination.ofLive) q.destinations
  clusterWhitelist : FieldFilled (p.clusterWhitelist = []) (live.spec.clusterWhitelist ≠ [])
    p.clusterWhitelist live.spec.clusterWhitelist q.clusterWhitelist
  namespaceBlacklist :
    FieldFilled (p.namespaceBlacklist = []) (live.spec.namespaceBlacklist ≠ [])
      p.namespaceBlacklist live.spec.namespaceBlacklist q.namespaceBlacklist
  roles : q.roles = p.roles

section Filling

variable (p : Parameters) (live : Live.Project)

theorem fieldFilled_filled {α : Type} (declared live : List α) :
    FieldFilled (declared = []) (live ≠ []) declared live
      (Parameters.filled declared live) := by
  rw [Parameters.filled]
  constructor
  · rintro ⟨hopen, _⟩
    exact if_pos hopen
  · intro h
    split
    · -- open, but there is nothing to fill it with
      rename_i hopen
      rw [hopen]
      exact not_not.mp fun hgiven => h ⟨hopen, hgiven⟩
    · rfl

theorem filledFrom_fillFrom : p.FilledFrom live (p.fillFrom live) where
  description := by
    constructor
    · rintro ⟨hopen, hgiven⟩
      simp only [Parameters.fillFrom, hopen, if_neg hgiven]
    · intro h
      simp only [Parameters.fillFrom]
      split
      · rename_i hset
        rw [hset]
      · rename_i hopen
        rw [hopen]
        exact if_pos (not_not.mp fun hgiven => h ⟨hopen, hgiven⟩)
  labels := by
    constructor
    · rintro ⟨hopen, _⟩
      exact if_pos hopen
    · intro h
      simp only [Parameters.fillFrom]
      split
      · rename_i hopen
        rw [hopen]
        exact not_not.mp fun hgiven => h ⟨hopen, hgiven⟩
      · rfl
  sourceRepos := fieldFilled_filled _ _
  sourceNamespaces := fieldFilled_filled _ _
  destinations := by
    have h := fieldFilled_filled p.destinations
      (live.spec.destinations.map Destination.ofLive)
    rwa [ne_eq, List.map_eq_nil_iff] at h
  clusterWhitelist := fieldFilled_filled _ _
  namespaceBlacklist := fieldFilled_filled _ _
  roles := rfl

variable {p live}

/-- There is a gap where a field is open and the live project has something for
it. -/
theorem hasGaps_eq_true_iff :
    p.hasGaps live = true ↔
      (p.description = none ∧ live.spec.description ≠ "") ∨
      (p.labels = ∅ ∧ live.labels ≠ ∅) ∨
      (p.sourceRepos = [] ∧ live.spec.sourceRepos ≠ []) ∨
      (p.sourceNamespaces = [] ∧ live.spec.sourceNamespaces ≠ []) ∨
      (p.destinations = [] ∧ live.spec.destinations ≠ []) ∨
      (p.clusterWhitelist = [] ∧ live.spec.clusterWhitelist ≠ []) ∨
      (p.namespaceBlacklist = [] ∧ live.spec.namespaceBlacklist ≠ []) := by
  have hlabels (d : Dict String) : (!d.isEmpty) = true ↔ d ≠ ∅ := by
    rw [Bool.not_eq_true', ← Bool.not_eq_true, Std.ExtTreeMap.isEmpty_iff]
  simp only [Parameters.hasGaps, Bool.or_eq_true, Bool.and_eq_true, hlabels, bne_iff_ne,
    Option.isNone_iff_eq_none, List.isEmpty_iff, Std.ExtTreeMap.isEmpty_iff,
    Bool.not_eq_true', List.isEmpty_eq_false_iff, or_assoc]

/-- Where there is no gap, nothing is filled in. -/
theorem fillFrom_eq_self (full : p.hasGaps live = false) : p.fillFrom live = p := by
  have filled := filledFrom_fillFrom p live
  rw [← Bool.not_eq_true, hasGaps_eq_true_iff] at full
  simp only [not_or] at full
  obtain ⟨hdescription, hlabels, hrepos, hnamespaces, hdestinations, hwhitelist,
    hblacklist⟩ := full
  generalize p.fillFrom live = q at filled ⊢
  cases p
  cases q
  rw [Parameters.mk.injEq]
  exact ⟨filled.description.2 hdescription, filled.labels.2 hlabels,
    filled.sourceRepos.2 hrepos, filled.sourceNamespaces.2 hnamespaces,
    filled.destinations.2 hdestinations, filled.clusterWhitelist.2 hwhitelist,
    filled.namespaceBlacklist.2 hblacklist, filled.roles⟩

/-- **Parameters change exactly if there is something to fill in.** -/
theorem hasGaps_eq_true_iff_changed :
    p.hasGaps live = true ↔ p.fillFrom live ≠ p := by
  constructor
  · intro gaps same
    have hfull := hasGaps_fillFrom p live
    rw [same, gaps] at hfull
    cases hfull
  · intro changed
    rw [← Bool.not_eq_false]
    exact fun full => changed (fillFrom_eq_self full)

end Filling

/-! ## The verdict -/

/-- Nothing that the parameters say differs from the live project. A field that
says nothing is in line with anything. -/
structure Parameters.MetBy [DurationReader] (p : Parameters) (live : Live.Project)
    (observation : Observation) (now : Instant) : Prop where
  description : p.description = none ∨ p.description = some live.spec.description
  labels : p.labels = ∅ ∨ p.labels = live.labels
  sourceRepos : p.sourceRepos = [] ∨ p.sourceRepos = live.spec.sourceRepos
  sourceNamespaces :
    p.sourceNamespaces = [] ∨ p.sourceNamespaces = live.spec.sourceNamespaces
  destinations :
    p.destinations = [] ∨ p.destinations = live.spec.destinations.map Destination.ofLive
  clusterWhitelist :
    p.clusterWhitelist = [] ∨ p.clusterWhitelist = live.spec.clusterWhitelist
  namespaceBlacklist :
    p.namespaceBlacklist = [] ∨ p.namespaceBlacklist = live.spec.namespaceBlacklist
  roles : List.Forall₂ (Role.MetBy observation now) p.roles live.spec.roles

section Verdict

variable {p : Parameters} {project : String} {live : Live.Project}
  {observation : Observation} {now : Instant}

theorem filled_eq_iff {α : Type} {declared live : List α} :
    Parameters.filled declared live = live ↔ declared = [] ∨ declared = live := by
  rw [Parameters.filled]
  by_cases h : declared = []
  · simp [h]
  · simp [h]

/-- What was open has been filled in, and so is in line. -/
theorem fieldsMatch_fillFrom_eq_true_iff :
    (p.fillFrom live).fieldsMatch live = true ↔
      (p.description = none ∨ p.description = some live.spec.description) ∧
      (p.labels = ∅ ∨ p.labels = live.labels) ∧
      (p.sourceRepos = [] ∨ p.sourceRepos = live.spec.sourceRepos) ∧
      (p.sourceNamespaces = [] ∨ p.sourceNamespaces = live.spec.sourceNamespaces) ∧
      (p.destinations = [] ∨
        p.destinations = live.spec.destinations.map Destination.ofLive) ∧
      (p.clusterWhitelist = [] ∨ p.clusterWhitelist = live.spec.clusterWhitelist) ∧
      (p.namespaceBlacklist = [] ∨ p.namespaceBlacklist = live.spec.namespaceBlacklist) := by
  have hdescription : (p.fillFrom live).description.getD "" = live.spec.description ↔
      p.description = none ∨ p.description = some live.spec.description := by
    cases h : p.description with
    | none =>
        simp only [Parameters.fillFrom, h, true_or, iff_true]
        split
        · rename_i hempty
          exact hempty.symm
        · rfl
    | some text => simp [Parameters.fillFrom, h]
  have hlabels : (p.fillFrom live).labels = live.labels ↔
      p.labels = ∅ ∨ p.labels = live.labels := by
    rw [Parameters.fillFrom]
    by_cases h : p.labels = ∅
    · simp [h]
    · simp [h]
  simp only [Parameters.fieldsMatch, Bool.and_eq_true, decide_eq_true_eq, hdescription,
    hlabels, and_assoc]
  simp only [Parameters.fillFrom, filled_eq_iff]

/-- **Filled-in parameters are up to date exactly if nothing that was said
differs.** -/
theorem isUpToDate_fillFrom_eq_true_iff [DurationReader] :
    (p.fillFrom live).isUpToDate live observation now = .ok true ↔
      p.MetBy live observation now := by
  have hroles : (p.fillFrom live).isUpToDate live observation now = .ok true ↔
      (p.fillFrom live).fieldsMatch live = true ∧
        rolesMatch observation now p.roles live.spec.roles = .ok true := by
    rw [Parameters.isUpToDate]
    cases (p.fillFrom live).fieldsMatch live with
    | false => simp
    | true =>
        simp only [Bool.not_true, Bool.false_eq_true, if_false, true_and]
        split
        · -- roles that differ in number do not match
          rename_i hlength
          constructor
          · rintro ⟨⟩
          · intro hmatch
            exact absurd (rolesMatch_eq_true_iff.mp hmatch).length_eq hlength
        · rfl
  rw [hroles, fieldsMatch_fillFrom_eq_true_iff, rolesMatch_eq_true_iff]
  constructor
  · rintro ⟨⟨hdescription, hlabels, hrepos, hnamespaces, hdestinations, hwhitelist,
      hblacklist⟩, hroles⟩
    exact ⟨hdescription, hlabels, hrepos, hnamespaces, hdestinations, hwhitelist,
      hblacklist, hroles⟩
  · rintro ⟨hdescription, hlabels, hrepos, hnamespaces, hdestinations, hwhitelist,
      hblacklist, hroles⟩
    exact ⟨⟨hdescription, hlabels, hrepos, hnamespaces, hdestinations, hwhitelist,
      hblacklist⟩, hroles⟩

/-- A verdict of up to date means that nothing is planned, and that nothing that
was said differs. -/
theorem upToDate_iff_of_evaluate [DurationReader] {verdict : Verdict}
    (judged : p.evaluate project live observation now = .ok verdict) :
    verdict.upToDate = true ↔ verdict.plan = ∅ ∧ p.MetBy live observation now := by
  rw [← isUpToDate_fillFrom_eq_true_iff]
  rw [Parameters.evaluate, Parameters.judge] at judged
  obtain ⟨plan, _, judged⟩ := bind_eq_ok.mp judged
  dsimp only at judged
  split at judged
  · rename_i hempty
    obtain ⟨compared, hcompared, judged⟩ := bind_eq_ok.mp judged
    cases judged
    simp [hcompared, Std.ExtTreeMap.isEmpty_iff.mp hempty]
  · rename_i hplanned
    cases judged
    simp [← Std.ExtTreeMap.isEmpty_iff, hplanned]

theorem lateInitialized_of_evaluate [DurationReader] {verdict : Verdict}
    (judged : p.evaluate project live observation now = .ok verdict) :
    verdict.lateInitialized = p.hasGaps live := by
  rw [Parameters.evaluate, Parameters.judge] at judged
  obtain ⟨plan, _, judged⟩ := bind_eq_ok.mp judged
  dsimp only at judged
  split at judged
  · obtain ⟨compared, _, judged⟩ := bind_eq_ok.mp judged
    cases judged
    rfl
  · cases judged
    rfl

end Verdict

/-- What judging parameters comes to: its result, and what it leaves of them. -/
structure Parameters.Judged [DurationReader]
    (p : Parameters) (project : String) (live : Live.Project)
    (observation : Observation) (now : Instant) (result : Except Failure Verdict)
    (left : Parameters) : Prop where
  /-- It fails as the planning for the declared roles fails. -/
  fails : ∀ failure, result = .error failure ↔
    planTokens project p.roles observation now = .error failure
  planned : ∀ verdict, result = .ok verdict →
    planTokens project p.roles observation now = .ok verdict.plan
  upToDate : ∀ verdict, result = .ok verdict →
    (verdict.upToDate = true ↔ verdict.plan = ∅ ∧ p.MetBy live observation now)
  /-- Whether it has succeeded or not. -/
  filled : p.FilledFrom live left
  lateInitialized : ∀ verdict, result = .ok verdict →
    (verdict.lateInitialized = true ↔ left ≠ p)
  /-- Filling in again tells of no gap and changes nothing. -/
  again : left.hasGaps live = false ∧ left.fillFrom live = left

/-- **A judgement decides field by field.** Take any parameters, any live project,
any observed tokens and any time, and judge the parameters in place. This fails
exactly if no tokens can be planned for the declared roles, and then in the same
way. Otherwise the project is up to date exactly if no token is planned and no
field that says something says anything else than the live project. Fields that
were open are filled in from it in either case, the others stay as they are, and it
is told exactly whether there were any. Nothing is left to fill in then. -/
theorem judged_field_by_field [DurationReader]
    (p : Parameters) (project : String) (live : Live.Project)
    (observation : Observation) (now : Instant) :
    p.Judged project live observation now
      ((Parameters.evaluateInPlace project live observation now).run.run p).1
      ((Parameters.evaluateInPlace project live observation now).run.run p).2 := by
  rw [evaluateInPlace_run]
  refine ⟨fun failure => evaluate_eq_error_iff, fun verdict judged => ?_,
    fun verdict judged => upToDate_iff_of_evaluate judged, filledFrom_fillFrom p live,
    fun verdict judged => ?_, hasGaps_fillFrom p live, fillFrom_fillFrom p live⟩
  · exact (planned_of_evaluate judged).1
  · rw [lateInitialized_of_evaluate judged]
    exact hasGaps_eq_true_iff_changed

end Reconcile

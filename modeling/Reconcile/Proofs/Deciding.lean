import Mathlib
import Reconcile.Proofs.Renewal

/-!
# The rule of the plan

The planner reads the durations of a spec in one go, asks one policy after
the other and files what it decides by key, while the rule it follows speaks
of declared texts and of the observed token alone. Here the rule is written
down that way: when a spec fails and with what, when its token is due, and
what is then asked for. The plan is the rule, visited in the order of the
declaration: the first spec that fails decides the error, and if none does,
the last due spec of each key decides the request.
-/

namespace Reconcile

/-! ## Durations as they are declared -/

/-- The field is given and stands for a span. -/
def DurationField.Gives [DurationReader] (field : DurationField) (value? : Option String)
    (span : Span) : Prop :=
  ∃ value, value? = some value ∧ field.span value = .ok span

/-- The field is given and cannot be used. -/
def DurationField.Refuses [DurationReader] (field : DurationField) (value? : Option String)
    (failure : Failure) : Prop :=
  ∃ value, value? = some value ∧ field.span value = .error failure

section Fields

variable [DurationReader] {field : DurationField} {value? : Option String} {failure : Failure}

theorem span?_eq_error :
    field.span? value? = .error failure ↔ field.Refuses value? failure := by
  cases value? with
  | none =>
      constructor
      · intro h
        cases h
      · rintro ⟨_, h, _⟩
        cases h
  | some value =>
      rw [DurationField.span?, DurationField.Refuses]
      cases h : field.span value with
      | error e =>
          constructor
          · rintro ⟨⟩
            exact ⟨value, rfl, h⟩
          · rintro ⟨_, ⟨⟩, hf⟩
            rw [h] at hf
            cases hf
            rfl
      | ok span =>
          constructor
          · rintro ⟨⟩
          · rintro ⟨_, ⟨⟩, hf⟩
            rw [h] at hf
            cases hf

theorem gives_iff {span? : Option Span} (h : field.span? value? = .ok span?)
    {span : Span} : field.Gives value? span ↔ span? = some span := by
  cases value? with
  | none =>
      cases h
      constructor
      · rintro ⟨_, hv, _⟩
        cases hv
      · rintro ⟨⟩
  | some value =>
      rw [DurationField.span?, map_eq_ok] at h
      obtain ⟨read, hread, rfl⟩ := h
      constructor
      · rintro ⟨_, ⟨⟩, hspan⟩
        rw [hread] at hspan
        cases hspan
        rfl
      · rintro ⟨⟩
        exact ⟨value, rfl, hread⟩

theorem not_refuses {span? : Option Span} (h : field.span? value? = .ok span?) :
    ¬ field.Refuses value? failure := by
  rw [← span?_eq_error, h]
  rintro ⟨⟩

end Fields

/-- **The first duration that cannot be used**, in the order lifetime, renewal
before expiry, renewal after issuance. -/
inductive TokenSpec.Unreadable [DurationReader] (s : TokenSpec) (failure : Failure) : Prop
  | expiresIn (bad : DurationField.expiresIn.Refuses s.expiresIn failure)
  | renewBefore
      (lifetime : ∀ f, ¬ DurationField.expiresIn.Refuses s.expiresIn f)
      (bad : DurationField.renewBefore.Refuses s.renewBefore failure)
  | renewAfter
      (lifetime : ∀ f, ¬ DurationField.expiresIn.Refuses s.expiresIn f)
      (lead : ∀ f, ¬ DurationField.renewBefore.Refuses s.renewBefore f)
      (bad : DurationField.renewAfter.Refuses s.renewAfter failure)

theorem terms_eq_error [DurationReader] {s : TokenSpec} {failure : Failure} :
    s.terms = .error failure ↔ s.Unreadable failure := by
  simp only [TokenSpec.terms, bind_eq_error, pure, Except.pure, reduceCtorEq,
    and_false, exists_false, or_false]
  constructor
  · rintro (h | ⟨_, hlife, h | ⟨_, hlead, h⟩⟩)
    · exact .expiresIn (span?_eq_error.mp h)
    · exact .renewBefore (fun _ => not_refuses hlife) (span?_eq_error.mp h)
    · exact .renewAfter (fun _ => not_refuses hlife) (fun _ => not_refuses hlead)
        (span?_eq_error.mp h)
  · have reads : ∀ {field : DurationField} {value? : Option String},
        (∀ f, ¬ field.Refuses value? f) →
          ∃ span?, field.span? value? = .ok span? := by
      intro field value? fine
      cases h : field.span? value? with
      | error f => exact absurd (span?_eq_error.mp h) (fine f)
      | ok span? => exact ⟨span?, rfl⟩
    rintro (bad | ⟨lifetime, bad⟩ | ⟨lifetime, lead, bad⟩)
    · exact Or.inl (span?_eq_error.mpr bad)
    · obtain ⟨span?, hlife⟩ := reads lifetime
      exact Or.inr ⟨span?, hlife, Or.inl (span?_eq_error.mpr bad)⟩
    · obtain ⟨span?, hlife⟩ := reads lifetime
      obtain ⟨lead?, hlead⟩ := reads lead
      exact Or.inr ⟨span?, hlife, Or.inr ⟨lead?, hlead, span?_eq_error.mpr bad⟩⟩

/-- A spec is read where none of its durations is in the way. -/
theorem readable_iff [DurationReader] {s : TokenSpec} :
    (∀ failure, ¬ s.Unreadable failure) ↔ ∃ terms, s.terms = .ok terms := by
  simp only [← terms_eq_error]
  cases s.terms with
  | error failure => simp
  | ok terms => simp

/-- The terms are what the fields of the spec give. -/
structure TokenSpec.Offers [DurationReader] (s : TokenSpec) (terms : TokenTerms) : Prop where
  expiresIn : ∀ span, DurationField.expiresIn.Gives s.expiresIn span ↔
    terms.expiresIn = some span
  renewBefore : ∀ span, DurationField.renewBefore.Gives s.renewBefore span ↔
    terms.renewBefore = some span
  renewAfter : ∀ span, DurationField.renewAfter.Gives s.renewAfter span ↔
    terms.renewAfter = some span

theorem offers_of_terms [DurationReader] {s : TokenSpec} {terms : TokenTerms}
    (h : s.terms = .ok terms) : s.Offers terms := by
  simp only [TokenSpec.terms, bind_eq_ok] at h
  obtain ⟨_, he, _, hb, _, ha, h⟩ := h
  cases h
  exact ⟨fun _ => gives_iff he, fun _ => gives_iff hb, fun _ => gives_iff ha⟩

/-! ## The rule for one spec -/

/-- So many nanoseconds after the epoch there is an instant. -/
def Representable (nanos : Int) : Prop :=
  firstNanos ≤ nanos ∧ nanos ≤ lastNanos

theorem ofNanos?_eq_none {n : Int} :
    Instant.ofNanos? n = none ↔ ¬ Representable n := by
  rw [Instant.ofNanos?]
  split
  · rename_i h
    constructor
    · rintro ⟨⟩
    · intro hn
      exact absurd h hn
  · rename_i h
    exact ⟨fun _ => h, fun _ => rfl⟩

/-- The token expires, and it has by now. -/
def ObservedToken.Over (t : ObservedToken) (now : Instant) : Prop :=
  ∃ expiry, t.expiresAt = some expiry ∧ expiry ≤ now

theorem isExpired_iff {t : ObservedToken} {now : Instant} :
    t.isExpired now = true ↔ t.Over now := by
  rw [ObservedToken.isExpired, Option.any_eq_true]
  constructor
  · rintro ⟨expiry, he, hle⟩
    exact ⟨expiry, he, of_decide_eq_true hle⟩
  · rintro ⟨expiry, he, hle⟩
    exact ⟨expiry, he, decide_eq_true hle⟩

/-- The lead of the spec reaches from the token's expiry back to now. -/
def TokenSpec.DueBefore [DurationReader] (s : TokenSpec) (t : ObservedToken) (now : Instant) :
    Prop :=
  ∃ expiry lead, t.expiresAt = some expiry ∧
    DurationField.renewBefore.Gives s.renewBefore lead ∧
    expiry.nanos - lead.nanos ≤ now.nanos

/-- The token is as old as the spec lets it become. -/
def TokenSpec.DueAfter [DurationReader] (s : TokenSpec) (t : ObservedToken) (now : Instant) :
    Prop :=
  ∃ age, DurationField.renewAfter.Gives s.renewAfter age ∧
    t.issuedAt.nanos + age.nanos ≤ now.nanos

/-- **When the token of a spec is due**: it is missing, it has expired, or one
of the renewal policies has come. -/
inductive TokenSpec.Due [DurationReader] (s : TokenSpec) (now : Instant) :
    Option ObservedToken → Prop
  | missing : s.Due now none
  | expired {t} (ended : t.Over now) : s.Due now (some t)
  | before {t} (due : s.DueBefore t now) : s.Due now (some t)
  | after {t} (due : s.DueAfter t now) : s.Due now (some t)

/-- **How a spec fails.** A duration cannot be used; or the instant a renewal
policy waits for lies beyond all dates, and the policy is reached. -/
inductive TokenSpec.Fails [DurationReader] (s : TokenSpec) (now : Instant) :
    Option ObservedToken → Failure → Prop
  | unreadable {current failure} (bad : s.Unreadable failure) :
      s.Fails now current failure
  | lead {t expiry value lead} (readable : ∀ f, ¬ s.Unreadable f)
      (live : ¬ t.Over now) (expires : t.expiresAt = some expiry)
      (given : s.renewBefore = some value)
      (asked : DurationField.renewBefore.span value = .ok lead)
      (beyond : ¬ Representable (expiry.nanos - lead.nanos)) :
      s.Fails now (some t) (.durationOutOfRange .renewBefore value)
  | age {t value age} (readable : ∀ f, ¬ s.Unreadable f)
      (live : ¬ t.Over now)
      (reached : ∀ expiry lead, t.expiresAt = some expiry →
        DurationField.renewBefore.Gives s.renewBefore lead →
        Representable (expiry.nanos - lead.nanos))
      (early : ¬ s.DueBefore t now)
      (given : s.renewAfter = some value)
      (asked : DurationField.renewAfter.span value = .ok age)
      (beyond : ¬ Representable (t.issuedAt.nanos + age.nanos)) :
      s.Fails now (some t) (.durationOutOfRange .renewAfter value)

/-- The request made for a spec: the lifetime in whole seconds, 0 if the token
is not to expire. -/
structure TokenSpec.Asks [DurationReader] (s : TokenSpec) (project role : String)
    (request : TokenRequest) : Prop where
  project : request.project = project
  role : request.role = role
  id : request.id = s.id
  description : request.description = s.description
  lifetime : ∀ span, DurationField.expiresIn.Gives s.expiresIn span →
    request.expiresIn = span.wholeSeconds
  unbounded : s.expiresIn = none → request.expiresIn = 0

/-! ## The decision follows the rule -/

section Decision

variable {s : TokenSpec} {terms : TokenTerms} {t : ObservedToken}
  {now : Instant} {failure : Failure}

/-- A policy asked in vain: none before it applied, and its own instant is
beyond all dates. -/
theorem issueReason_eq_error :
    s.issueReason terms (some t) now = .error failure ↔
      t.isExpired now = false ∧ (s.dueBeforeExpiry terms t = .error failure ∨
        ∃ before, s.dueBeforeExpiry terms t = .ok before ∧
          before.any (· ≤ now) = false ∧
          s.dueAfterIssue terms t = .error failure) := by
  rw [TokenSpec.issueReason]
  cases t.isExpired now with
  | true =>
      simp only [if_true, reduceCtorEq, Bool.true_eq_false, false_and]
  | false =>
      simp only [Bool.false_eq_true, if_false, bind_eq_error, true_and]
      refine or_congr_right (exists_congr fun before => and_congr_right fun _ => ?_)
      cases before.any (· ≤ now) with
      | true =>
          simp only [if_true, pure, Except.pure, reduceCtorEq,
            Bool.true_eq_false, false_and]
      | false =>
          simp only [Bool.false_eq_true, if_false, bind_eq_error, true_and]
          constructor
          · rintro (h | ⟨after, _, h⟩)
            · exact h
            · split at h
              · cases h
              · cases h
          · exact Or.inl

/-- The lead leads beyond all dates, and its failure quotes it as declared. -/
theorem dueBeforeExpiry_eq_error [DurationReader] (offers : s.Offers terms) :
    s.dueBeforeExpiry terms t = .error failure ↔
      ∃ expiry value lead, t.expiresAt = some expiry ∧
        s.renewBefore = some value ∧
        DurationField.renewBefore.span value = .ok lead ∧
        ¬ Representable (expiry.nanos - lead.nanos) ∧
        failure = .durationOutOfRange .renewBefore value := by
  rw [TokenSpec.dueBeforeExpiry]
  constructor
  · intro h
    cases hlead : terms.renewBefore with
    | none => simp only [hlead, reduceCtorEq] at h
    | some lead =>
        cases hexpiry : t.expiresAt with
        | none => simp only [hlead, hexpiry, reduceCtorEq] at h
        | some expiry =>
            simp only [hlead, hexpiry] at h
            cases hdue : expiry.minus? lead with
            | some due => simp only [hdue, reduceCtorEq] at h
            | none =>
                obtain ⟨value, given, asked⟩ := (offers.renewBefore lead).mpr hlead
                simp only [hdue, given, Option.getD_some, Except.error.injEq] at h
                exact ⟨expiry, value, lead, rfl, given, asked,
                  ofNanos?_eq_none.mp hdue, h.symm⟩
  · rintro ⟨expiry, value, lead, hexpiry, given, asked, beyond, rfl⟩
    have hlead := (offers.renewBefore lead).mp ⟨value, given, asked⟩
    have hdue : expiry.minus? lead = none := ofNanos?_eq_none.mpr beyond
    simp only [hlead, hexpiry, hdue, given, Option.getD_some]

/-- The same for the age that is allowed. -/
theorem dueAfterIssue_eq_error [DurationReader] (offers : s.Offers terms) :
    s.dueAfterIssue terms t = .error failure ↔
      ∃ value age, s.renewAfter = some value ∧
        DurationField.renewAfter.span value = .ok age ∧
        ¬ Representable (t.issuedAt.nanos + age.nanos) ∧
        failure = .durationOutOfRange .renewAfter value := by
  rw [TokenSpec.dueAfterIssue]
  constructor
  · intro h
    cases hage : terms.renewAfter with
    | none => simp only [hage, reduceCtorEq] at h
    | some age =>
        simp only [hage] at h
        cases hdue : t.issuedAt.plus? age with
        | some due => simp only [hdue, reduceCtorEq] at h
        | none =>
            obtain ⟨value, given, asked⟩ := (offers.renewAfter age).mpr hage
            simp only [hdue, given, Option.getD_some, Except.error.injEq] at h
            exact ⟨value, age, given, asked, ofNanos?_eq_none.mp hdue, h.symm⟩
  · rintro ⟨value, age, given, asked, beyond, rfl⟩
    have hage := (offers.renewAfter age).mp ⟨value, given, asked⟩
    have hdue : t.issuedAt.plus? age = none := ofNanos?_eq_none.mpr beyond
    simp only [hage, hdue, given, Option.getD_some]

/-- Where the instant of the first policy exists, the policy is due by it as
it is due by counting. -/
theorem any_dueBeforeExpiry [DurationReader] (offers : s.Offers terms) {before : Option Instant}
    (h : s.dueBeforeExpiry terms t = .ok before) :
    before.any (· ≤ now) = true ↔ s.DueBefore t now := by
  simp only [TokenSpec.DueBefore, offers.renewBefore]
  rw [TokenSpec.dueBeforeExpiry] at h
  cases hlead : terms.renewBefore with
  | none =>
      rw [hlead] at h
      cases h
      simp only [Option.any_none, Bool.false_eq_true, reduceCtorEq, false_and,
        and_false, exists_false]
  | some lead =>
      cases hexpiry : t.expiresAt with
      | none =>
          rw [hlead, hexpiry] at h
          cases h
          simp only [Option.any_none, Bool.false_eq_true, reduceCtorEq,
            false_and, exists_false]
      | some expiry =>
          simp only [hlead, hexpiry] at h
          cases hdue : expiry.minus? lead with
          | none => simp only [hdue, reduceCtorEq] at h
          | some due =>
              simp only [hdue, Except.ok.injEq] at h
              subst h
              have hnanos := Instant.nanos_of_minus? hdue
              simp only [Option.any_some, decide_eq_true_eq, Instant.le_def,
                hnanos, Option.some.injEq]
              constructor
              · intro hle
                exact ⟨expiry, lead, rfl, rfl, hle⟩
              · rintro ⟨_, _, rfl, rfl, hle⟩
                exact hle

theorem any_dueAfterIssue [DurationReader] (offers : s.Offers terms) {after : Option Instant}
    (h : s.dueAfterIssue terms t = .ok after) :
    after.any (· ≤ now) = true ↔ s.DueAfter t now := by
  simp only [TokenSpec.DueAfter, offers.renewAfter]
  rw [TokenSpec.dueAfterIssue] at h
  cases hage : terms.renewAfter with
  | none =>
      rw [hage] at h
      cases h
      simp only [Option.any_none, Bool.false_eq_true, reduceCtorEq, false_and,
        exists_false]
  | some age =>
      simp only [hage] at h
      cases hdue : t.issuedAt.plus? age with
      | none => simp only [hdue, reduceCtorEq] at h
      | some due =>
          simp only [hdue, Except.ok.injEq] at h
          subst h
          have hnanos := Instant.nanos_of_plus? hdue
          simp only [Option.any_some, decide_eq_true_eq, Instant.le_def, hnanos,
            Option.some.injEq, exists_eq_left']

/-- **A reason is found exactly for a due token.** -/
theorem isSome_issueReason [DurationReader] {current : Option ObservedToken}
    {reason : Option IssueReason} (offers : s.Offers terms)
    (h : s.issueReason terms current now = .ok reason) :
    reason.isSome = true ↔ s.Due now current := by
  cases current with
  | none =>
      cases h
      exact ⟨fun _ => .missing, fun _ => rfl⟩
  | some t =>
      rcases issueReason_eq_ok.mp h with
        ⟨hover, rfl⟩ | ⟨hlive, before, hbefore, h⟩
      · exact ⟨fun _ => .expired (isExpired_iff.mp hover), fun _ => rfl⟩
      · have hbefore' : before.any (· ≤ now) = true ↔ s.DueBefore t now :=
          any_dueBeforeExpiry offers hbefore
        rcases h with ⟨hdue, rfl⟩ | ⟨hearly, after, hafter, rfl⟩
        · exact ⟨fun _ => .before (hbefore'.mp hdue), fun _ => rfl⟩
        · have hafter' : after.any (· ≤ now) = true ↔ s.DueAfter t now :=
            any_dueAfterIssue offers hafter
          constructor
          · intro hsome
            split at hsome
            · rename_i hlate
              exact .after (hafter'.mp hlate)
            · cases hsome
          · rintro (_ | ended | due | due)
            · rw [isExpired_iff.mpr ended] at hlive
              cases hlive
            · rw [hbefore'.mpr due] at hearly
              cases hearly
            · rw [if_pos (hafter'.mpr due)]
              rfl

end Decision

section Slot

variable [DurationReader] {project : String} {observation : Observation} {now : Instant}
  {slot : String × TokenSpec} {failure : Failure}

/-- The rule for a declared spec fails, given what was observed of its
token. -/
def SlotFails (observation : Observation) (now : Instant)
    (slot : String × TokenSpec) (failure : Failure) : Prop :=
  slot.2.Fails now (observation.current slot.1 slot.2.id) failure

/-- The token of a declared spec is due, given what was observed of it. -/
def SlotDue (observation : Observation) (now : Instant)
    (slot : String × TokenSpec) : Prop :=
  slot.2.Due now (observation.current slot.1 slot.2.id)

/-- For a readable spec the rule fails where no reason can be found. -/
theorem fails_iff_of_terms {s : TokenSpec} {terms : TokenTerms}
    {current : Option ObservedToken} (hterms : s.terms = .ok terms) :
    s.Fails now current failure ↔
      s.issueReason terms current now = .error failure := by
  have offers := offers_of_terms hterms
  have readable : ∀ f, ¬ s.Unreadable f := readable_iff.mpr ⟨terms, hterms⟩
  cases current with
  | none =>
      constructor
      · rintro ⟨bad⟩
        exact absurd bad (readable _)
      · rintro ⟨⟩
  | some t =>
      rw [issueReason_eq_error, Bool.eq_false_iff, Ne, isExpired_iff]
      constructor
      · rintro (bad | ⟨_, live, expires, given, asked, beyond⟩ |
          ⟨_, live, reached, early, given, asked, beyond⟩)
        · exact absurd bad (readable _)
        · exact ⟨live, Or.inl ((dueBeforeExpiry_eq_error offers).mpr
            ⟨_, _, _, expires, given, asked, beyond, rfl⟩)⟩
        · refine ⟨live, Or.inr ?_⟩
          have hafter := (dueAfterIssue_eq_error offers).mpr
            ⟨_, _, given, asked, beyond, rfl⟩
          cases hbefore : s.dueBeforeExpiry terms t with
          | error e =>
              obtain ⟨expiry, _, lead, hexpiry, hgiven, hasked, hbeyond, _⟩ :=
                (dueBeforeExpiry_eq_error offers).mp hbefore
              exact absurd (reached expiry lead hexpiry ⟨_, hgiven, hasked⟩)
                hbeyond
          | ok before =>
              refine ⟨before, rfl, ?_, hafter⟩
              rw [Bool.eq_false_iff, Ne, any_dueBeforeExpiry offers hbefore]
              exact early
      · rintro ⟨live, hbefore | ⟨before, hbefore, hearly, hafter⟩⟩
        · obtain ⟨expiry, value, lead, hexpiry, given, asked, beyond, rfl⟩ :=
            (dueBeforeExpiry_eq_error offers).mp hbefore
          exact .lead readable live hexpiry given asked beyond
        · rw [Bool.eq_false_iff, Ne, any_dueBeforeExpiry offers hbefore] at hearly
          have reached : ∀ expiry lead, t.expiresAt = some expiry →
              DurationField.renewBefore.Gives s.renewBefore lead →
              Representable (expiry.nanos - lead.nanos) := by
            rintro expiry lead hexpiry ⟨value, given, asked⟩
            by_contra beyond
            have hfail := (dueBeforeExpiry_eq_error offers).mpr
              ⟨expiry, value, lead, hexpiry, given, asked, beyond, rfl⟩
            rw [hbefore] at hfail
            cases hfail
          obtain ⟨value, age, given, asked, beyond, rfl⟩ :=
            (dueAfterIssue_eq_error offers).mp hafter
          exact .age readable live reached hearly given asked beyond

/-- **A spec cannot be decided exactly when the rule fails for it**, and with
the same failure. -/
theorem decideIssue_eq_error :
    decideIssue project observation now slot = .error failure ↔
      SlotFails observation now slot failure := by
  obtain ⟨role, s⟩ := slot
  rw [SlotFails]
  simp only [decideIssue, bind_eq_error, pure, Except.pure, reduceCtorEq,
    and_false, exists_false, or_false]
  generalize observation.current role s.id = current
  cases hterms : s.terms with
  | error e =>
      have bad := terms_eq_error.mp hterms
      constructor
      · rintro (⟨⟨⟩⟩ | ⟨_, ⟨⟩, _⟩)
        exact .unreadable bad
      · intro h
        refine Or.inl ?_
        cases h with
        | unreadable bad' => rw [← hterms, terms_eq_error.mpr bad']
        | lead readable => exact absurd bad (readable e)
        | age readable => exact absurd bad (readable e)
  | ok terms =>
      rw [fails_iff_of_terms hterms]
      constructor
      · rintro (⟨⟨⟩⟩ | ⟨_, ⟨⟩, h⟩)
        exact h
      · intro h
        exact Or.inr ⟨terms, rfl, h⟩

theorem isSome_of_decideIssue {issue : Option TokenIssue}
    (h : decideIssue project observation now slot = .ok issue) :
    issue.isSome = true ↔ SlotDue observation now slot := by
  obtain ⟨terms, reason, hterms, hreason, rfl⟩ := decideIssue_eq_ok.mp h
  rw [Option.isSome_map]
  exact isSome_issueReason (offers_of_terms hterms) hreason

theorem asks_request {s : TokenSpec} {terms : TokenTerms}
    (hterms : s.terms = .ok terms) (project role : String) :
    s.Asks project role (s.request terms project role) := by
  have offers := offers_of_terms hterms
  refine ⟨rfl, rfl, rfl, rfl, ?_, ?_⟩
  · intro span hspan
    change (terms.expiresIn.map Span.wholeSeconds).getD 0 = _
    rw [(offers.expiresIn span).mp hspan]
    rfl
  · intro hnone
    change (terms.expiresIn.map Span.wholeSeconds).getD 0 = _
    cases he : terms.expiresIn with
    | none => rfl
    | some span =>
        obtain ⟨value, hvalue, _⟩ := (offers.expiresIn span).mpr he
        rw [hnone] at hvalue
        cases hvalue

/-- Nothing is left open about the request of a readable spec. -/
theorem asks_iff {s : TokenSpec} {terms : TokenTerms}
    (hterms : s.terms = .ok terms) {role : String} {request : TokenRequest} :
    s.Asks project role request ↔ request = s.request terms project role := by
  constructor
  · intro h
    have h' := asks_request hterms project role
    have hlife : request.expiresIn =
        (s.request terms project role).expiresIn := by
      cases he : s.expiresIn with
      | none => rw [h.unbounded he, h'.unbounded he]
      | some value =>
          cases hspan : DurationField.expiresIn.span value with
          | error f =>
              have bad : s.Unreadable f := .expiresIn ⟨value, he, hspan⟩
              exact absurd bad (readable_iff.mpr ⟨terms, hterms⟩ f)
          | ok span =>
              rw [h.lifetime span ⟨value, he, hspan⟩,
                h'.lifetime span ⟨value, he, hspan⟩]
    obtain ⟨project', role', id', expiresIn', description'⟩ := request
    rw [TokenSpec.request, TokenRequest.mk.injEq]
    exact ⟨h.project, h.role, h.id, hlife, h.description⟩
  · rintro rfl
    exact asks_request hterms project role

theorem asks_of_decideIssue {issue : TokenIssue} {request : TokenRequest}
    (h : decideIssue project observation now slot = .ok (some issue)) :
    slot.2.Asks project slot.1 request ↔ request = issue.request := by
  obtain ⟨terms, reason, hterms, _, hissue⟩ := decideIssue_eq_ok.mp h
  rw [asks_iff hterms]
  cases reason with
  | none => cases hissue
  | some reason =>
      cases hissue
      rfl

end Slot

/-! ## The declaration, in its order -/

section Rows

variable [DurationReader] {project : String} {observation : Observation} {now : Instant}

/-- The first spec of a row that fails, and its failure. -/
def FirstFailing (observation : Observation) (now : Instant)
    (slots : List (String × TokenSpec)) (slot : String × TokenSpec)
    (failure : Failure) : Prop :=
  ∃ before after, slots = before ++ slot :: after ∧
    (∀ earlier ∈ before, ∀ f, ¬ SlotFails observation now earlier f) ∧
    SlotFails observation now slot failure

/-- The last spec of a key whose token is due. -/
def LastDue (observation : Observation) (now : Instant)
    (slots : List (String × TokenSpec)) (key : TokenKey)
    (slot : String × TokenSpec) : Prop :=
  ∃ before after, slots = before ++ slot :: after ∧
    (slotKey slot = key ∧ SlotDue observation now slot) ∧
    ∀ later ∈ after, ¬ (slotKey later = key ∧ SlotDue observation now later)

section Members

variable {slots : List (String × TokenSpec)} {slot : String × TokenSpec}

theorem FirstFailing.mem {failure : Failure}
    (h : FirstFailing observation now slots slot failure) : slot ∈ slots := by
  obtain ⟨before, after, rfl, _⟩ := h
  exact List.mem_append_right _ List.mem_cons_self

theorem FirstFailing.fails {failure : Failure}
    (h : FirstFailing observation now slots slot failure) :
    SlotFails observation now slot failure := by
  obtain ⟨_, _, _, _, hslot⟩ := h
  exact hslot

theorem LastDue.mem {key : TokenKey} (h : LastDue observation now slots key slot) :
    slot ∈ slots := by
  obtain ⟨before, after, rfl, _⟩ := h
  exact List.mem_append_right _ List.mem_cons_self

theorem LastDue.due {key : TokenKey} (h : LastDue observation now slots key slot) :
    slotKey slot = key ∧ SlotDue observation now slot := by
  obtain ⟨_, _, _, hslot, _⟩ := h
  exact hslot

end Members

/-- Deciding a row ends at its first spec that fails. -/
theorem issuesOf_eq_error {slots : List (String × TokenSpec)}
    {failure : Failure} :
    issuesOf project observation now slots = .error failure ↔
      ∃ slot, FirstFailing observation now slots slot failure := by
  induction slots with
  | nil =>
      constructor
      · rintro ⟨⟩
      · rintro ⟨_, before, _, hsplit, _⟩
        cases before <;> cases hsplit
  | cons first rest ih =>
      simp only [issuesOf, bind_eq_error, pure, Except.pure, reduceCtorEq,
        and_false, exists_false, or_false, ih, decideIssue_eq_error]
      constructor
      · rintro (hfirst | ⟨issue, hissue, slot, before, after, rfl, hbefore, hslot⟩)
        · exact ⟨first, [], rest, rfl, fun _ hmem => absurd hmem List.not_mem_nil, hfirst⟩
        · refine ⟨slot, first :: before, after, rfl, ?_, hslot⟩
          intro earlier hmem f
          rcases List.mem_cons.mp hmem with rfl | hmem
          · intro hfails
            have hrefused : decideIssue project observation now earlier = .error f :=
              decideIssue_eq_error.mpr hfails
            rw [hissue] at hrefused
            cases hrefused
          · exact hbefore earlier hmem f
      · rintro ⟨slot, before, after, hsplit, hbefore, hslot⟩
        cases before with
        | nil =>
            cases hsplit
            exact Or.inl hslot
        | cons head before =>
            cases hsplit
            refine Or.inr ?_
            cases hissue : decideIssue project observation now first with
            | error f =>
                exact absurd (decideIssue_eq_error.mp hissue)
                  (hbefore first List.mem_cons_self f)
            | ok issue =>
                exact ⟨issue, rfl, slot, before, after, rfl,
                  fun earlier hmem => hbefore earlier
                    (List.mem_cons_of_mem _ hmem), hslot⟩

/-- **The plan of a row**: under each key the request of the last due spec. -/
theorem getElem?_ofIssues_decided {slots : List (String × TokenSpec)}
    (decidable : ∀ slot ∈ slots,
      ∃ issue, decideIssue project observation now slot = .ok issue)
    {key : TokenKey} {request : TokenRequest} :
    (TokenPlan.ofIssues
        (slots.filterMap (decided project observation now)))[key]? =
          some request ↔
      ∃ slot, LastDue observation now slots key slot ∧
        slot.2.Asks project slot.1 request := by
  have filed : ∀ slot ∈ slots,
      ((decided project observation now slot).any
        fun issue => decide (issue.request.key = key)) = true ↔
          slotKey slot = key ∧ SlotDue observation now slot := by
    intro slot hslot
    obtain ⟨issue, hissue⟩ := decidable slot hslot
    rw [decided_eq hissue, ← isSome_of_decideIssue hissue]
    cases issue with
    | none =>
        simp only [Option.any_none, Option.isSome_none, Bool.false_eq_true,
          and_false]
    | some issue =>
        rw [Option.any_some, decide_eq_true_eq, key_of_decideIssue hissue,
          Option.isSome_some]
        exact (and_iff_left rfl).symm
  rw [getElem?_ofIssues, ← List.filterMap_reverse, List.find?_filterMap,
    Option.map_eq_some_iff]
  simp only [Option.bind_eq_some_iff, List.find?_eq_some_iff_append]
  constructor
  · rintro ⟨issue, ⟨slot, ⟨hslot, after, before, hsplit, hafter⟩, hdecided⟩, rfl⟩
    have hsplit' : slots = before.reverse ++ slot :: after.reverse := by
      rw [← List.reverse_reverse slots, hsplit]
      simp only [List.reverse_append, List.reverse_cons, List.append_assoc,
        List.singleton_append]
    have hmem : slot ∈ slots := by
      rw [hsplit']
      exact List.mem_append_right _ List.mem_cons_self
    refine ⟨slot, ⟨_, _, hsplit', (filed slot hmem).mp hslot, ?_⟩, ?_⟩
    · intro later hlater
      have hmem' : later ∈ slots := by
        rw [hsplit']
        exact List.mem_append_right _ (List.mem_cons_of_mem _ hlater)
      rw [← filed later hmem']
      simpa using hafter later (List.mem_reverse.mp hlater)
    · obtain ⟨decision, hdecision⟩ := decidable slot hmem
      rw [decided_eq hdecision] at hdecided
      subst hdecided
      exact (asks_of_decideIssue hdecision).mpr rfl
  · rintro ⟨slot, ⟨before, after, rfl, hslot, hafter⟩, hasks⟩
    have hmem : slot ∈ before ++ slot :: after :=
      List.mem_append_right _ List.mem_cons_self
    obtain ⟨decision, hdecision⟩ := decidable slot hmem
    obtain ⟨issue, rfl⟩ := Option.isSome_iff_exists.mp
      ((isSome_of_decideIssue hdecision).mpr hslot.2)
    refine ⟨issue, ⟨slot, ⟨(filed slot hmem).mpr hslot, after.reverse,
      before.reverse, ?_, ?_⟩, decided_eq hdecision⟩,
      ((asks_of_decideIssue hdecision).mp hasks).symm⟩
    · simp only [List.reverse_append, List.reverse_cons, List.append_assoc,
        List.singleton_append]
    · intro later hlater
      have hlater' := List.mem_reverse.mp hlater
      have hmem' : later ∈ before ++ slot :: after :=
        List.mem_append_right _ (List.mem_cons_of_mem _ hlater')
      rw [Bool.not_eq_true', Bool.eq_false_iff, Ne, filed later hmem']
      exact hafter later hlater'

/-- A key with a due spec has a last one. -/
theorem exists_lastDue_iff {slots : List (String × TokenSpec)}
    {key : TokenKey} :
    (∃ slot, LastDue observation now slots key slot) ↔
      ∃ slot ∈ slots, slotKey slot = key ∧ SlotDue observation now slot := by
  constructor
  · rintro ⟨slot, hlast⟩
    exact ⟨slot, hlast.mem, hlast.due⟩
  · intro h
    induction slots with
    | nil =>
        obtain ⟨_, hmem, _⟩ := h
        cases hmem
    | cons first rest ih =>
        by_cases hrest : ∃ later ∈ rest,
            slotKey later = key ∧ SlotDue observation now later
        · obtain ⟨slot, before, after, rfl, hslot⟩ := ih hrest
          exact ⟨slot, first :: before, after, rfl, hslot⟩
        · obtain ⟨slot, hmem, hslot⟩ := h
          rcases List.mem_cons.mp hmem with rfl | hmem
          · exact ⟨slot, [], rest, rfl, hslot,
              fun later hlater hdue => hrest ⟨later, hlater, hdue⟩⟩
          · exact absurd ⟨slot, hmem, hslot⟩ hrest

end Rows

/-! ## The plan is the rule -/

section Plan

variable [DurationReader] {project : String} {roles : List Role} {observation : Observation}
  {now : Instant}

theorem planTokens_eq_error {failure : Failure} :
    planTokens project roles observation now = .error failure ↔
      ∃ slot, FirstFailing observation now (specsOf roles) slot failure := by
  have hrow : issuesOf project observation now (specsOf roles) = .error failure ↔ _ :=
    issuesOf_eq_error
  rw [← hrow, planTokens]
  cases issuesOf project observation now (specsOf roles) with
  | error e =>
      constructor
      · rintro ⟨⟩
        rfl
      · rintro ⟨⟩
        rfl
  | ok issues =>
      constructor
      · rintro ⟨⟩
      · rintro ⟨⟩

/-- What a plan has to be by the rule: no spec fails, a key is in the plan if
one of its specs is due, and it holds what the last of these asks for. -/
structure TokenPlan.FollowsRule (plan : TokenPlan) (project : String)
    (roles : List Role) (observation : Observation) (now : Instant) :
    Prop where
  fine : ∀ slot ∈ specsOf roles, ∀ failure,
    ¬ SlotFails observation now slot failure
  keys : ∀ key, key ∈ plan ↔
    ∃ slot ∈ specsOf roles, slotKey slot = key ∧ SlotDue observation now slot
  requests : ∀ key request, plan[key]? = some request ↔
    ∃ slot, LastDue observation now (specsOf roles) key slot ∧
      slot.2.Asks project slot.1 request

theorem decidable_of_fine
    (fine : ∀ slot ∈ specsOf roles, ∀ failure,
      ¬ SlotFails observation now slot failure) :
    ∀ slot ∈ specsOf roles,
      ∃ issue, decideIssue project observation now slot = .ok issue := by
  intro slot hslot
  cases hissue : decideIssue project observation now slot with
  | error f => exact absurd (decideIssue_eq_error.mp hissue) (fine slot hslot f)
  | ok issue => exact ⟨issue, rfl⟩

theorem followsRule_of_planned {plan : TokenPlan}
    (h : planTokens project roles observation now = .ok plan) :
    plan.FollowsRule project roles observation now := by
  obtain ⟨decidable, rfl⟩ := planTokens_eq_ok_iff.mp h
  have requests : ∀ key request, _ ↔ _ := fun key request =>
    @getElem?_ofIssues_decided _ _ _ _ _ decidable key request
  refine ⟨?_, ?_, requests⟩
  · intro slot hslot failure hfails
    obtain ⟨issue, hissue⟩ := decidable slot hslot
    have hrefused : decideIssue project observation now slot = .error failure :=
      decideIssue_eq_error.mpr hfails
    rw [hissue] at hrefused
    cases hrefused
  · intro key
    rw [← exists_lastDue_iff, Std.ExtTreeMap.mem_iff_isSome_getElem?,
      Option.isSome_iff_exists]
    constructor
    · rintro ⟨request, hrequest⟩
      obtain ⟨slot, hlast, _⟩ := (requests key request).mp hrequest
      exact ⟨slot, hlast⟩
    · rintro ⟨slot, hlast⟩
      obtain ⟨decision, hdecision⟩ := decidable slot hlast.mem
      obtain ⟨issue, rfl⟩ := Option.isSome_iff_exists.mp
        ((isSome_of_decideIssue hdecision).mpr hlast.due.2)
      exact ⟨issue.request, (requests key issue.request).mpr
        ⟨slot, hlast, (asks_of_decideIssue hdecision).mpr rfl⟩⟩

/-- Two plans that follow the rule are one plan. -/
theorem TokenPlan.FollowsRule.eq {plan plan' : TokenPlan}
    (h : plan.FollowsRule project roles observation now)
    (h' : plan'.FollowsRule project roles observation now) : plan = plan' := by
  apply Std.ExtTreeMap.ext_getElem?
  intro key
  apply Option.ext
  intro request
  rw [h.requests, h'.requests]

/-- **The planner computes its rule.** It fails exactly if the rule fails for
some declared spec, and then with the failure of the first such spec;
otherwise its plan is the one that follows the rule. -/
theorem planTokens_by_rule (project : String) (roles : List Role)
    (observation : Observation) (now : Instant) :
    ((∃ failure, planTokens project roles observation now = .error failure) ↔
      ∃ slot ∈ specsOf roles, ∃ failure, SlotFails observation now slot failure) ∧
    (∀ failure, planTokens project roles observation now = .error failure ↔
      ∃ slot, FirstFailing observation now (specsOf roles) slot failure) ∧
    ∀ plan, planTokens project roles observation now = .ok plan ↔
      plan.FollowsRule project roles observation now := by
  have succeeds : ∀ plan, planTokens project roles observation now = .ok plan ↔
      plan.FollowsRule project roles observation now := by
    intro plan
    refine ⟨followsRule_of_planned, fun h => ?_⟩
    have computed : planTokens project roles observation now = .ok _ :=
      planTokens_eq_ok_iff.mpr ⟨decidable_of_fine h.fine, rfl⟩
    rw [computed, h.eq (followsRule_of_planned computed)]
  refine ⟨?_, fun _ => planTokens_eq_error, succeeds⟩
  constructor
  · rintro ⟨failure, h⟩
    obtain ⟨slot, hfirst⟩ := planTokens_eq_error.mp h
    exact ⟨slot, hfirst.mem, failure, hfirst.fails⟩
  · rintro ⟨slot, hmem, failure, hslot⟩
    cases h : planTokens project roles observation now with
    | error f => exact ⟨f, rfl⟩
    | ok plan => exact absurd hslot (((succeeds plan).mp h).fine slot hmem failure)

end Plan

end Reconcile

import Mathlib
import Reconcile.Proofs.Outcomes
import Reconcile.Token.Plan

/-!
# The plan, spec by spec

Planning visits every token spec and keeps its request by key. Here the plan
is read off spec by spec: planning succeeds exactly when every spec can be
decided, and if no two specs share a key, the plan holds under a spec's key
exactly the request that was decided for this spec. A decision looks at the
observed tokens only through the current token of its spec, so observations
that agree on those give one plan.
-/

namespace Reconcile

/-! ## Declared specs and their keys -/

/-- The key of a declared spec. -/
def slotKey (slot : String × TokenSpec) : TokenKey :=
  ⟨slot.1, slot.2.id⟩

/-- No two roles share a name, and no two specs of a role share an id. -/
structure DistinctTokens (roles : List Role) : Prop where
  names : (roles.map (·.name)).Nodup
  ids : ∀ r ∈ roles, (r.tokens.map (·.id)).Nodup

theorem mem_specsOf {roles : List Role} {slot : String × TokenSpec} :
    slot ∈ specsOf roles ↔
      ∃ r ∈ roles, r.name = slot.1 ∧ slot.2 ∈ r.tokens := by
  obtain ⟨name, s⟩ := slot
  simp only [specsOf, List.mem_flatMap, List.mem_map, Prod.mk.injEq]
  constructor
  · rintro ⟨r, hr, s', hs, rfl, rfl⟩
    exact ⟨r, hr, rfl, hs⟩
  · rintro ⟨r, hr, rfl, hs⟩
    exact ⟨r, hr, s, hs, rfl, rfl⟩

/-- Distinct names and ids make the keys of all specs distinct. -/
theorem DistinctTokens.slotKeys_nodup {roles : List Role}
    (h : DistinctTokens roles) : ((specsOf roles).map slotKey).Nodup := by
  rw [specsOf, List.map_flatMap, List.nodup_flatMap]
  constructor
  · intro r hr
    rw [List.map_map]
    have hids := h.ids r hr
    rw [show (slotKey ∘ fun s : TokenSpec => (r.name, s)) =
      (TokenKey.mk r.name) ∘ (·.id) from rfl, ← List.map_map]
    exact hids.map fun a b hab => (TokenKey.mk.inj hab).2
  · have hnames := List.pairwise_map.mp h.names
    refine hnames.imp ?_
    intro a b hab k ha hb
    simp only [List.map_map, List.mem_map] at ha hb
    obtain ⟨s, _, rfl⟩ := ha
    obtain ⟨s', _, hk⟩ := hb
    exact hab (congrArg TokenKey.role hk).symm

theorem slot_eq_of_slotKey_eq {roles : List Role} (h : DistinctTokens roles)
    {a b : String × TokenSpec} (ha : a ∈ specsOf roles)
    (hb : b ∈ specsOf roles) (hab : slotKey a = slotKey b) : a = b :=
  List.inj_on_of_nodup_map h.slotKeys_nodup ha hb hab

/-! ## Decisions -/

section Decisions

variable [DurationReader] {project : String} {observation : Observation} {now : Instant}

theorem decideIssue_eq_ok {slot : String × TokenSpec}
    {issue : Option TokenIssue} :
    decideIssue project observation now slot = .ok issue ↔
      ∃ terms reason, slot.2.terms = .ok terms ∧
        slot.2.issueReason terms (observation.current slot.1 slot.2.id) now =
          .ok reason ∧
        issue = reason.map fun reason =>
          ⟨reason, slot.2.request terms project slot.1⟩ := by
  obtain ⟨role, s⟩ := slot
  simp only [decideIssue, bind_eq_ok, pure, Except.pure, Except.ok.injEq]
  constructor
  · rintro ⟨terms, ht, reason, hr, rfl⟩
    exact ⟨terms, reason, ht, hr, rfl⟩
  · rintro ⟨terms, reason, ht, hr, rfl⟩
    exact ⟨terms, ht, reason, hr, rfl⟩

/-- Only the current token of a spec enters the decision for it. -/
theorem decideIssue_congr {observation' : Observation}
    {slot : String × TokenSpec}
    (h : observation.current slot.1 slot.2.id =
      observation'.current slot.1 slot.2.id) :
    decideIssue project observation now slot =
      decideIssue project observation' now slot := by
  obtain ⟨role, s⟩ := slot
  change observation.current role s.id = observation'.current role s.id at h
  simp only [decideIssue, h]

/-- The request decided for a spec is filed under the key of the spec. -/
theorem key_of_decideIssue {slot : String × TokenSpec} {issue : TokenIssue}
    (h : decideIssue project observation now slot = .ok (some issue)) :
    issue.request.key = slotKey slot := by
  obtain ⟨terms, reason, _, _, he⟩ := decideIssue_eq_ok.mp h
  cases reason with
  | none => cases he
  | some reason =>
      cases he
      rfl

theorem project_of_decideIssue {slot : String × TokenSpec} {issue : TokenIssue}
    (h : decideIssue project observation now slot = .ok (some issue)) :
    issue.request.project = project := by
  obtain ⟨terms, reason, _, _, he⟩ := decideIssue_eq_ok.mp h
  cases reason with
  | none => cases he
  | some reason =>
      cases he
      rfl

/-- What is decided for a spec, if it can be decided. -/
def decided (project : String) (observation : Observation) (now : Instant)
    (slot : String × TokenSpec) : Option TokenIssue :=
  match decideIssue project observation now slot with
  | .ok issue => issue
  | .error _ => none

theorem decided_eq {slot : String × TokenSpec} {issue : Option TokenIssue}
    (h : decideIssue project observation now slot = .ok issue) :
    decided project observation now slot = issue := by
  rw [decided, h]

/-- A row of specs is decided exactly if each of them is. -/
theorem issuesOf_eq_ok_iff {slots : List (String × TokenSpec)}
    {issues : List TokenIssue} :
    issuesOf project observation now slots = .ok issues ↔
      (∀ slot ∈ slots,
        ∃ issue, decideIssue project observation now slot = .ok issue) ∧
      issues = slots.filterMap (decided project observation now) := by
  induction slots generalizing issues with
  | nil =>
      simp [issuesOf, eq_comm]
  | cons slot rest ih =>
      simp only [issuesOf, bind_eq_ok, ih, pure, Except.pure, Except.ok.injEq]
      constructor
      · rintro ⟨issue, hi, more, ⟨hrest, rfl⟩, rfl⟩
        constructor
        · intro x hx
          rcases List.mem_cons.mp hx with rfl | hx
          · exact ⟨issue, hi⟩
          · exact hrest x hx
        · rw [List.filterMap_cons, decided_eq hi]
          cases issue <;> rfl
      · rintro ⟨hall, rfl⟩
        obtain ⟨issue, hi⟩ := hall slot List.mem_cons_self
        refine ⟨issue, hi, _,
          ⟨fun x hx => hall x (List.mem_cons_of_mem _ hx), rfl⟩, ?_⟩
        rw [List.filterMap_cons, decided_eq hi]
        cases issue <;> rfl

end Decisions

/-! ## Planning fails over durations only -/

/-- The failure is about a duration: it cannot be read, or it leads out of
range. -/
def Failure.AboutDuration (failure : Failure) : Prop :=
  ∃ field value, (∃ fault, failure = .unreadableDuration field value fault) ∨
    failure = .durationOutOfRange field value

/-- How reading a span ends. The last step is a parameter here, since the
bound in `Duration.toSpan?` is a number too large to compute with. -/
theorem span_cases {field : DurationField} {value : String}
    {toSpan? : Duration → Option Span}
    {reading : Except DurationFault Duration} {result : Except Failure Span}
    (h : (match reading with
      | .error fault => .error (.unreadableDuration field value fault)
      | .ok d =>
        match toSpan? d with
        | some span => .ok span
        | none => .error (.durationOutOfRange field value)) = result) :
    (∃ failure : Failure, failure.AboutDuration ∧ result = .error failure) ∨
      ∃ d span, reading = .ok d ∧ toSpan? d = some span ∧
        result = .ok span := by
  subst h
  cases reading with
  | error fault =>
      exact Or.inl ⟨_, ⟨field, value, Or.inl ⟨fault, rfl⟩⟩, rfl⟩
  | ok d =>
      dsimp only
      cases hspan : toSpan? d with
      | none => exact Or.inl ⟨_, ⟨field, value, Or.inr rfl⟩, rfl⟩
      | some span => exact Or.inr ⟨d, span, rfl, hspan, rfl⟩

theorem span_error [DurationReader] {field : DurationField} {value : String}
    {failure : Failure} (h : field.span value = .error failure) :
    failure.AboutDuration := by
  rw [DurationField.span] at h
  rcases span_cases h with ⟨_, about, he⟩ | ⟨_, _, _, _, he⟩
  · cases he
    exact about
  · cases he

/-- A span that has been read is not negative. -/
theorem span_nonneg [DurationReader] {field : DurationField} {value : String} {span : Span}
    (h : field.span value = .ok span) : 0 ≤ span.nanos := by
  rw [DurationField.span] at h
  rcases span_cases h with ⟨_, _, he⟩ | ⟨d, _, _, hspan, he⟩
  · cases he
  · cases he
    rw [Duration.toSpan?, Option.ite_none_right_eq_some] at hspan
    rw [← Option.some.inj hspan.2]
    exact Int.natCast_nonneg _

theorem span?_error [DurationReader] {field : DurationField} {value : Option String}
    {failure : Failure} (h : field.span? value = .error failure) :
    failure.AboutDuration := by
  cases value with
  | none => cases h
  | some value =>
      rw [DurationField.span?] at h
      cases hs : field.span value with
      | error e =>
          rw [hs] at h
          cases h
          exact span_error hs
      | ok span =>
          rw [hs] at h
          cases h

theorem terms_error [DurationReader] {s : TokenSpec} {failure : Failure}
    (h : s.terms = .error failure) : failure.AboutDuration := by
  simp only [TokenSpec.terms, bind_eq_error] at h
  rcases h with h | ⟨_, _, h | ⟨_, _, h | ⟨_, _, h⟩⟩⟩
  · exact span?_error h
  · exact span?_error h
  · exact span?_error h
  · cases h

theorem issueReason_error {s : TokenSpec} {terms : TokenTerms}
    {current : Option ObservedToken} {now : Instant} {failure : Failure}
    (h : s.issueReason terms current now = .error failure) :
    failure.AboutDuration := by
  cases current with
  | none => cases h
  | some t =>
      rw [TokenSpec.issueReason] at h
      split at h
      · cases h
      · rcases bind_eq_error.mp h with h | ⟨before, _, h⟩
        · rw [TokenSpec.dueBeforeExpiry] at h
          split at h
          · split at h
            · cases h
            · cases h
              exact ⟨_, _, Or.inr rfl⟩
          · cases h
        · split at h
          · cases h
          · rcases bind_eq_error.mp h with h | ⟨after, _, h⟩
            · rw [TokenSpec.dueAfterIssue] at h
              split at h
              · split at h
                · cases h
                · cases h
                  exact ⟨_, _, Or.inr rfl⟩
              · cases h
            · split at h <;> cases h

theorem decideIssue_error [DurationReader] {project : String} {observation : Observation}
    {now : Instant} {slot : String × TokenSpec} {failure : Failure}
    (h : decideIssue project observation now slot = .error failure) :
    failure.AboutDuration := by
  obtain ⟨role, s⟩ := slot
  rcases bind_eq_error.mp h with h | ⟨terms, _, h⟩
  · exact terms_error h
  · rcases bind_eq_error.mp h with h | ⟨_, _, h⟩
    · exact issueReason_error h
    · cases h

theorem issuesOf_error [DurationReader] {project : String} {observation : Observation}
    {now : Instant} {slots : List (String × TokenSpec)} {failure : Failure}
    (h : issuesOf project observation now slots = .error failure) :
    failure.AboutDuration := by
  induction slots with
  | nil => cases h
  | cons slot rest ih =>
      rw [issuesOf] at h
      rcases bind_eq_error.mp h with h | ⟨_, _, h⟩
      · exact decideIssue_error h
      · rcases bind_eq_error.mp h with h | ⟨_, _, h⟩
        · exact ih h
        · cases h

/-- **Planning fails over a duration, or not at all.** -/
theorem planTokens_error [DurationReader] {project : String} {roles : List Role}
    {observation : Observation} {now : Instant} {failure : Failure}
    (h : planTokens project roles observation now = .error failure) :
    failure.AboutDuration := by
  rw [planTokens] at h
  cases hi : issuesOf project observation now (specsOf roles) with
  | error e =>
      rw [hi] at h
      cases h
      exact issuesOf_error hi
  | ok issues =>
      rw [hi] at h
      cases h

/-! ## From decisions to the plan -/

theorem ofIssues_concat (issues : List TokenIssue) (issue : TokenIssue) :
    TokenPlan.ofIssues (issues ++ [issue]) =
      (TokenPlan.ofIssues issues).insert issue.request.key issue.request := by
  rw [TokenPlan.ofIssues, List.foldl_append]
  rfl

/-- **The plan keeps the last request of each key.** -/
theorem getElem?_ofIssues (issues : List TokenIssue) (key : TokenKey) :
    (TokenPlan.ofIssues issues)[key]? =
      (issues.reverse.find? (·.request.key = key)).map (·.request) := by
  induction issues using List.reverseRecOn with
  | nil => exact Std.ExtTreeMap.getElem?_empty
  | append_singleton issues issue ih =>
      rw [ofIssues_concat, Std.ExtTreeMap.getElem?_insert, ih,
        List.reverse_append, List.reverse_singleton, List.singleton_append,
        List.find?_cons]
      by_cases h : issue.request.key = key
      · simp [h]
      · simp [h]

theorem key_of_getElem?_ofIssues {issues : List TokenIssue} {key : TokenKey}
    {request : TokenRequest}
    (h : (TokenPlan.ofIssues issues)[key]? = some request) :
    request.key = key := by
  rw [getElem?_ofIssues, Option.map_eq_some_iff] at h
  obtain ⟨issue, hi, rfl⟩ := h
  simpa using List.find?_some hi

section Planning

variable [DurationReader] {project : String} {roles : List Role} {observation : Observation}
  {now : Instant} {plan : TokenPlan}

/-- **Planning succeeds exactly when every spec can be decided.** -/
theorem planTokens_eq_ok_iff :
    planTokens project roles observation now = .ok plan ↔
      (∀ slot ∈ specsOf roles,
        ∃ issue, decideIssue project observation now slot = .ok issue) ∧
      plan = TokenPlan.ofIssues
        ((specsOf roles).filterMap (decided project observation now)) := by
  simp only [planTokens, map_eq_ok, issuesOf_eq_ok_iff]
  constructor
  · rintro ⟨issues, ⟨hall, rfl⟩, rfl⟩
    exact ⟨hall, rfl⟩
  · rintro ⟨hall, rfl⟩
    exact ⟨_, ⟨hall, rfl⟩, rfl⟩

/-- A planned request is filed under its own key. -/
theorem key_of_planned (h : planTokens project roles observation now = .ok plan)
    {key : TokenKey} {request : TokenRequest}
    (hk : plan[key]? = some request) : request.key = key := by
  obtain ⟨_, rfl⟩ := planTokens_eq_ok_iff.mp h
  exact key_of_getElem?_ofIssues hk

/-- Only declared specs have a place in the plan. -/
theorem exists_slot_of_planned
    (h : planTokens project roles observation now = .ok plan)
    {key : TokenKey} {request : TokenRequest}
    (hk : plan[key]? = some request) :
    ∃ slot ∈ specsOf roles, ∃ issue,
      decideIssue project observation now slot = .ok (some issue) ∧
        slotKey slot = key ∧ issue.request = request := by
  obtain ⟨hall, rfl⟩ := planTokens_eq_ok_iff.mp h
  rw [getElem?_ofIssues, Option.map_eq_some_iff] at hk
  obtain ⟨issue, hi, rfl⟩ := hk
  have hkey : issue.request.key = key := by simpa using List.find?_some hi
  have hmem := List.mem_of_find?_eq_some hi
  rw [List.mem_reverse, List.mem_filterMap] at hmem
  obtain ⟨slot, hslot, hd⟩ := hmem
  obtain ⟨decision, hdec⟩ := hall slot hslot
  rw [decided_eq hdec] at hd
  subst hd
  exact ⟨slot, hslot, issue, hdec, (key_of_decideIssue hdec).symm.trans hkey, rfl⟩

/-- Nothing is planned under a key that no spec has. -/
theorem getElem?_eq_none_of_undeclared
    (h : planTokens project roles observation now = .ok plan) {key : TokenKey}
    (undeclared : ∀ slot ∈ specsOf roles, slotKey slot ≠ key) :
    plan[key]? = none := by
  cases hget : plan[key]? with
  | none => rfl
  | some request =>
      obtain ⟨slot, hslot, _, _, hkey, _⟩ := exists_slot_of_planned h hget
      exact absurd hkey (undeclared slot hslot)

/-- **With distinct keys every spec has its own place.** The plan holds under
the key of a spec the request decided for it, and nothing if none was. -/
theorem getElem?_slotKey_of_planned
    (h : planTokens project roles observation now = .ok plan)
    (distinct : DistinctTokens roles) {slot : String × TokenSpec}
    (hslot : slot ∈ specsOf roles) {issue : Option TokenIssue}
    (hi : decideIssue project observation now slot = .ok issue) :
    plan[slotKey slot]? = issue.map (·.request) := by
  cases hp : plan[slotKey slot]? with
  | some request =>
      obtain ⟨other, hother, issue', hi', hkey, rfl⟩ :=
        exists_slot_of_planned h hp
      obtain rfl := slot_eq_of_slotKey_eq distinct hother hslot hkey
      rw [hi] at hi'
      cases hi'
      rfl
  | none =>
      cases issue with
      | none => rfl
      | some issue =>
          exfalso
          obtain ⟨_, rfl⟩ := planTokens_eq_ok_iff.mp h
          rw [getElem?_ofIssues, Option.map_eq_none_iff,
            List.find?_eq_none] at hp
          refine hp issue ?_ (by simpa using key_of_decideIssue hi)
          rw [List.mem_reverse, List.mem_filterMap]
          exact ⟨slot, hslot, decided_eq hi⟩

/-- The request planned for a spec, read off its terms. -/
theorem request_of_planned
    (h : planTokens project roles observation now = .ok plan)
    (distinct : DistinctTokens roles) {slot : String × TokenSpec}
    (hslot : slot ∈ specsOf roles) {request : TokenRequest}
    (hk : plan[slotKey slot]? = some request) :
    ∃ terms, slot.2.terms = .ok terms ∧
      request = slot.2.request terms project slot.1 := by
  obtain ⟨issue, hissue⟩ := (planTokens_eq_ok_iff.mp h).1 slot hslot
  rw [getElem?_slotKey_of_planned h distinct hslot hissue] at hk
  obtain ⟨terms, reason, hterms, _, rfl⟩ := decideIssue_eq_ok.mp hissue
  cases reason with
  | none => cases hk
  | some reason =>
      cases hk
      exact ⟨terms, hterms, rfl⟩

/-- **What is not planned is there**, and no rule asks for another one. -/
theorem left_alone_of_planned
    (h : planTokens project roles observation now = .ok plan)
    (distinct : DistinctTokens roles) {slot : String × TokenSpec}
    (hslot : slot ∈ specsOf roles) (hk : plan[slotKey slot]? = none) :
    ∃ terms t, slot.2.terms = .ok terms ∧
      observation.current slot.1 slot.2.id = some t ∧
      slot.2.issueReason terms (some t) now = .ok none := by
  obtain ⟨issue, hissue⟩ := (planTokens_eq_ok_iff.mp h).1 slot hslot
  rw [getElem?_slotKey_of_planned h distinct hslot hissue] at hk
  obtain ⟨terms, reason, hterms, hreason, rfl⟩ := decideIssue_eq_ok.mp hissue
  cases reason with
  | some reason => cases hk
  | none =>
      cases hcurrent : observation.current slot.1 slot.2.id with
      | none =>
          rw [hcurrent] at hreason
          cases hreason
      | some t =>
          rw [hcurrent] at hreason
          exact ⟨terms, t, hterms, rfl, hreason⟩

/-- If no spec needs its token issued, nothing is planned. -/
theorem planTokens_eq_empty
    (h : ∀ slot ∈ specsOf roles,
      decideIssue project observation now slot = .ok none) :
    planTokens project roles observation now = .ok ∅ := by
  rw [planTokens_eq_ok_iff]
  refine ⟨fun slot hslot => ⟨none, h slot hslot⟩, ?_⟩
  have hnil : (specsOf roles).filterMap (decided project observation now) =
      [] := by
    rw [List.filterMap_eq_nil_iff]
    exact fun slot hslot => decided_eq (h slot hslot)
  rw [hnil]
  rfl

end Planning

end Reconcile

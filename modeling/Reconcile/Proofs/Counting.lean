import Mathlib
import Reconcile.Proofs.Lifetimes
import Reconcile.Proofs.Unusable

/-!
# Counts that fit

A pass adds up numbers that nobody has checked for it. Durations come as text of
the declaration and timestamps as numbers of the control plane, and they meet
under three limits: what is read is counted in 64 bits, a span in milliseconds
of 64 bits with a sign, and an instant in the years that a date can have. Here
these limits are shown to fit into one another. What has been read is no longer
than a span can be, and its seconds leave room for every time on a clock. Two
instants are never further apart than a span can be. Only the dates of the
renewal policies can be left, and where they are, planning says so. So neither an
observation nor an update ends without a result for want of room.
-/

namespace Reconcile

/-! ## The limits -/

/-- The number fits 64 bits with a sign. -/
def Word.Signed (n : Int) : Prop :=
  -(limit63 : Int) ≤ n ∧ n < limit63

instance (n : Int) : Decidable (Word.Signed n) :=
  inferInstanceAs (Decidable (_ ∧ _))

theorem Word.signed_iff {n : Int} :
    Signed n ↔ -9223372036854775808 ≤ n ∧ n < 9223372036854775808 := by
  unfold Signed limit63 twoTo
  norm_num

/-- The span is one that can be kept: its milliseconds fit 64 bits with a sign,
the least of these numbers aside. -/
def Span.Kept (s : Span) : Prop :=
  -Duration.longest.nanos ≤ s.nanos ∧ s.nanos ≤ Duration.longest.nanos

theorem Duration.longest_nanos : longest.nanos = 9223372036854775807000000 := by
  rw [longest]
  norm_num

theorem Instant.nanos_bounds (t : Instant) :
    -8334601228800000000000 ≤ t.nanos ∧ t.nanos ≤ 8210266876799999999999 := by
  have hrange := t.inRange
  unfold firstNanos lastNanos nanosPerSecond at hrange
  omega

/-- **Instants are never too far apart.** -/
theorem Instant.kept_since (t earlier : Instant) : (t.since earlier).Kept := by
  have ht := t.nanos_bounds
  have hearlier := earlier.nanos_bounds
  have hlongest := Duration.longest_nanos
  show -_ ≤ t.nanos - earlier.nanos ∧ t.nanos - earlier.nanos ≤ _
  omega

/-! ## Durations that have been read -/

section Spans

variable {field : DurationField} {value : String} {span : Span}

theorem kept_of_span [DurationReader] (h : field.span value = .ok span) : span.Kept := by
  have hnonneg := span_nonneg h
  have hlongest := Duration.longest_nanos
  refine ⟨by omega, ?_⟩
  rw [DurationField.span] at h
  rcases span_cases h with ⟨_, _, he⟩ | ⟨d, _, _, hspan, he⟩
  · cases he
  · cases he
    rw [Duration.toSpan?, Option.ite_none_right_eq_some] at hspan
    obtain ⟨short, hsome⟩ := hspan
    rw [← Option.some.inj hsome]
    exact short

theorem wholeSeconds_le_of_span [DurationReader] (h : field.span value = .ok span) :
    span.wholeSeconds ≤ 9223372036854775 := by
  have hshort := (kept_of_span h).2
  rw [Duration.longest_nanos] at hshort
  rw [Span.wholeSeconds, Int.tdiv_eq_ediv_of_nonneg (span_nonneg h), nanosPerSecond]
  omega

end Spans

/-! ## Requests that leave room -/

/-- The lifetime asked for is a number of seconds that a span can have, and so it
can be added to every time on a clock. -/
structure TokenRequest.Fits (request : TokenRequest) : Prop where
  nonneg : 0 ≤ request.expiresIn
  short : request.expiresIn ≤ 9223372036854775
  room : ∀ clock : Instant, Word.Signed (clock.seconds + request.expiresIn)

theorem fits_of_bounds {request : TokenRequest} (nonneg : 0 ≤ request.expiresIn)
    (short : request.expiresIn ≤ 9223372036854775) : request.Fits := by
  refine ⟨nonneg, short, fun clock => ?_⟩
  have hclock := clock.nanos_bounds
  rw [Word.signed_iff, Instant.seconds, nanosPerSecond]
  omega

/-- **Whatever is planned leaves room.** -/
theorem fits_of_planned [DurationReader]
    {project : String} {roles : List Role} {observation : Observation}
    {now : Instant} {plan : TokenPlan}
    (planned : planTokens project roles observation now = .ok plan)
    {key : TokenKey} {request : TokenRequest} (hrequest : plan[key]? = some request) :
    request.Fits := by
  obtain ⟨slot, _, issue, hissue, _, rfl⟩ := exists_slot_of_planned planned hrequest
  obtain ⟨terms, _, hterms, _, hmade⟩ := decideIssue_eq_ok.mp hissue
  obtain ⟨_, _, rfl⟩ := Option.map_eq_some_iff.mp hmade.symm
  have hseconds := expiresIn_request slot.2 terms project slot.1
  refine fits_of_bounds ?_ ?_
  · rw [hseconds]
    exact seconds_nonneg (terms_nonneg hterms)
  · rw [hseconds, TokenTerms.seconds]
    cases hspan : terms.expiresIn with
    | none => decide
    | some span =>
        obtain ⟨_, _, hread⟩ := ((offers_of_terms hterms).expiresIn span).mpr hspan
        exact wholeSeconds_le_of_span hread

/-! ## Dates that are left -/

/-- **The date that a spec works out** for a token that is there, as nanoseconds
after the epoch, with the duration that it counts with. A spec that cannot be
read works out nothing, and a renewal policy is asked only if nothing before it
applies. -/
inductive TokenSpec.WorksOut [DurationReader] (s : TokenSpec) (now : Instant) (t : ObservedToken) :
    DurationField → String → Int → Prop
  | lead {expiry value lead} (readable : ∀ f, ¬ s.Unreadable f)
      (live : ¬ t.Over now) (expires : t.expiresAt = some expiry)
      (given : s.renewBefore = some value)
      (asked : DurationField.renewBefore.span value = .ok lead) :
      s.WorksOut now t .renewBefore value (expiry.nanos - lead.nanos)
  | age {value age} (readable : ∀ f, ¬ s.Unreadable f)
      (live : ¬ t.Over now)
      (reached : ∀ expiry lead, t.expiresAt = some expiry →
        DurationField.renewBefore.Gives s.renewBefore lead →
        Representable (expiry.nanos - lead.nanos))
      (early : ¬ s.DueBefore t now)
      (given : s.renewAfter = some value)
      (asked : DurationField.renewAfter.span value = .ok age) :
      s.WorksOut now t .renewAfter value (t.issuedAt.nanos + age.nanos)

theorem TokenSpec.WorksOut.fails [DurationReader]
    {s : TokenSpec} {now : Instant} {t : ObservedToken}
    {field : DurationField} {value : String} {nanos : Int}
    (h : s.WorksOut now t field value nanos) (beyond : ¬ Representable nanos) :
    s.Fails now (some t) (.durationOutOfRange field value) := by
  cases h with
  | lead readable live expires given asked =>
      exact .lead readable live expires given asked beyond
  | age readable live reached early given asked =>
      exact .age readable live reached early given asked beyond

/-- Planning for a resource comes to a declared spec that works out a date beyond
all dates, with a duration of this field. -/
def Project.LeavesDates [DurationReader] (p : Project) (live : Live.Project) (now : Instant)
    (field : DurationField) (value : String) : Prop :=
  ∃ before slot after t nanos, specsOf p.parameters.roles = before ++ slot :: after ∧
    (∀ earlier ∈ before, ∀ f, ¬ SlotFails live.observation now earlier f) ∧
    live.observation.current slot.1 slot.2.id = some t ∧
    slot.2.WorksOut now t field value nanos ∧ ¬ Representable nanos

/-- **A date that is left is told.** -/
theorem planTokens_of_leavesDates [DurationReader]
    {p : Project} {live : Live.Project} {now : Instant}
    {field : DurationField} {value : String} (h : p.LeavesDates live now field value)
    (name : String) :
    planTokens name p.parameters.roles live.observation now =
      .error (.durationOutOfRange field value) := by
  obtain ⟨before, slot, after, t, nanos, hsplit, hbefore, hcurrent, works, beyond⟩ := h
  refine planTokens_eq_error.mpr ⟨slot, before, after, hsplit, hbefore, ?_⟩
  rw [SlotFails, hcurrent]
  exact works.fails beyond

/-- **All that is counted for a resource and a live project fits**, or is told. -/
structure Project.CountsFit [DurationReader]
    (p : Project) (live : Live.Project) (now : Instant) : Prop where
  /-- Texts are read within the limits of reading. -/
  reading : ∀ value d, DurationReader.read value = .ok d →
    d.seconds < Word.limit64 ∧ d.nanos < nanosPerSecond
  /-- Durations that are accepted are at most 9223372036854775.807 seconds. -/
  durations : ∀ (field : DurationField) value span, field.span value = .ok span →
    0 ≤ span.nanos ∧ span.nanos ≤ 9223372036854775807000000
  requests : ∀ name plan,
    planTokens name p.parameters.roles live.observation now = .ok plan →
      ∀ (key : TokenKey) request, plan[key]? = some request → request.Fits
  lifetimes : ∀ (role : String), ∀ t ∈ live.observation[role]?.getD [],
    ∀ span, t.lifetime = some span → span.Kept
  dates : ∀ field value, p.LeavesDates live now field value → ∀ name,
    planTokens name p.parameters.roles live.observation now =
        .error (.durationOutOfRange field value) ∧
      p.parameters.evaluate name live live.observation now =
        .error (.durationOutOfRange field value)

theorem Project.countsFit [DurationReader] (p : Project) (live : Live.Project) (now : Instant) :
    p.CountsFit live now := by
  constructor
  · intro value d _
    exact ⟨d.fits, d.below⟩
  · intro field value span h
    have hshort := (kept_of_span h).2
    rw [Duration.longest_nanos] at hshort
    exact ⟨span_nonneg h, hshort⟩
  · intro name plan planned key request hrequest
    exact fits_of_planned planned hrequest
  · intro role t _ span hspan
    obtain ⟨expiry, _, rfl⟩ := Option.map_eq_some_iff.mp hspan
    exact expiry.kept_since t.issuedAt
  · intro field value leaves name
    have failed := planTokens_of_leavesDates leaves name
    exact ⟨failed, evaluate_eq_error_iff.mpr failed⟩

/-! ## Hosts that count -/

/-- The call asks for a token whose expiry, counted from this clock, does not fit
64 bits with a sign. No other call makes a control plane count. -/
def Request.Overflows (clock : Instant) : Request → Prop
  | .issue t => ¬ Word.Signed (ControlPlane.tokenFor clock.seconds t).expiry
  | _ => False

instance (clock : Instant) (r : Request) : Decidable (r.Overflows clock) :=
  match r with
  | .issue _ => inferInstanceAs (Decidable (¬ _))
  | .get _ | .create _ _ | .update _ | .delete _ => inferInstanceAs (Decidable False)

/-- The host leaves no call open but for want of room. -/
def Host.AnswersInRange {σ : Type} (h : Host σ) (clock : σ → Instant) : Prop :=
  ∀ (r : Request) s, ¬ r.Overflows (clock s) → (h.serve r s).1.isSome

/-- A control plane that counts in 64 bits: it is stopped for good by a call whose
expiry does not fit. -/
def ControlPlane.counting (clock : Instant) (tail : String) : Host ControlPlane where
  isCancelled _ := false
  clock _ := clock
  serve r cp :=
    if r.Overflows clock then (none, cp.recorded r)
    else
      let (answer, cp) := cp.serve ⟨clock.seconds, tail⟩ r
      (some answer, cp)
  note _ cp := cp
  pause _ cp := cp

theorem answersInRange_counting (clock : Instant) (tail : String) :
    (ControlPlane.counting clock tail).AnswersInRange fun _ => clock := by
  intro r cp fits
  show (ite _ _ _ : Option r.Answer × ControlPlane).1.isSome
  rw [if_neg fits]
  rfl

/-- What the call asks for leaves room. -/
def Request.Fits : Request → Prop
  | .issue t => t.Fits
  | _ => True

theorem Request.Fits.not_overflows {r : Request} (h : r.Fits) (clock : Instant) :
    ¬ r.Overflows clock := by
  cases r with
  | issue t =>
      refine not_not.mpr ?_
      show Word.Signed (if 0 < t.expiresIn then clock.seconds + t.expiresIn else 0)
      split
      · exact TokenRequest.Fits.room h clock
      · decide
  | get name => exact id
  | create project upsert => exact id
  | update project => exact id
  | delete name => exact id

/-- The call that is made at this step leaves room. -/
def Step.Fits : Step → Prop
  | .asked r _ => r.Fits
  | _ => True

/-- A run without a result has made a call that was left open. -/
theorem Host.exists_open {σ α : Type} {h : Host σ} {program : Program α} {s : σ}
    (stuck : (h.run program s).1 = none) :
    ∃ r s', .asked r none ∈ h.steps program s ∧ (h.serve r s').1 = none := by
  induction program generalizing s with
  | done a => cases stuck
  | ask r next ih =>
      rw [Host.run] at stuck
      rw [Host.steps]
      by_cases hc : h.isCancelled s
      · rw [if_pos hc] at stuck ⊢
        obtain ⟨r', s', hmem, hopen⟩ := ih none stuck
        exact ⟨r', s', List.mem_cons_of_mem _ hmem, hopen⟩
      · rw [if_neg hc] at stuck ⊢
        cases hserve : h.serve r s with
        | mk answer s' =>
            rw [hserve] at stuck
            cases answer with
            | some answer =>
                obtain ⟨r', s'', hmem, hopen⟩ := ih (some answer) stuck
                exact ⟨r', s'', List.mem_cons_of_mem _ hmem, hopen⟩
            | none =>
                -- the work may be withdrawn by now, but the call was open either way
                exact ⟨r, s, List.mem_cons_self, by rw [hserve]⟩
  | look next ih =>
      obtain ⟨r, s', hmem, hopen⟩ := ih _ stuck
      exact ⟨r, s', List.mem_cons_of_mem _ hmem, hopen⟩
  | note e next ih =>
      obtain ⟨r, s', hmem, hopen⟩ := ih stuck
      exact ⟨r, s', List.mem_cons_of_mem _ hmem, hopen⟩

/-- **A run whose calls leave room comes to its result.** -/
theorem Host.AnswersInRange.ends {σ α : Type} {h : Host σ} {clock : σ → Instant}
    (answers : h.AnswersInRange clock) {program : Program α} {s : σ}
    (fits : ∀ step ∈ h.steps program s, step.Fits) :
    ∃ a, (h.run program s).1 = some a := by
  cases hrun : (h.run program s).1 with
  | some a => exact ⟨a, rfl⟩
  | none =>
      obtain ⟨r, s', hmem, hopen⟩ := h.exists_open hrun
      have hfits : r.Fits := fits _ hmem
      have hanswered := answers r s' (hfits.not_overflows (clock s'))
      rw [hopen] at hanswered
      cases hanswered

/-! ## The calls of a pass -/

theorem Interrupted.fits {α : Type} {r : Request} {steps : List Step}
    {outcome : Option (Except Failure α)} (h : Interrupted r steps outcome) (fits : r.Fits) :
    ∀ step ∈ steps, step.Fits := by
  rcases h with ⟨rfl, _⟩ | ⟨rfl, _⟩
  · exact List.forall_mem_singleton.mpr trivial
  · exact List.forall_mem_singleton.mpr fits

namespace Project

theorem fits_of_observe_path [DurationReader] {p : Project} {steps : List Step}
    {outcome : Option (Except Failure (Sighting × Project))}
    (path : p.observe.run.Path steps outcome) : ∀ step ∈ steps, step.Fits := by
  cases observePath_of_path path with
  | unnamed _ => exact List.forall_mem_nil _
  | unfetched _ stop => exact stop.fits trivial
  | missing _ _ => exact List.forall_mem_singleton.mpr trivial
  | refused _ => exact List.forall_mem_singleton.mpr trivial
  | unjudged _ _ =>
      exact List.forall_mem_cons.mpr ⟨trivial, List.forall_mem_singleton.mpr trivial⟩
  | judged _ _ =>
      exact List.forall_mem_cons.mpr ⟨trivial, List.forall_mem_singleton.mpr trivial⟩

/-- Tokens that leave room are asked for one after the other. -/
theorem fits_of_issueTokens_path {name : String}
    {entries : List (TokenKey × TokenRequest)} {issued : Secrets}
    {failures : List TokenFailure} {steps : List Step}
    {outcome : Option (Except Failure Secrets)}
    (fits : ∀ entry ∈ entries, entry.2.Fits)
    (path : (issueTokens name entries issued failures).run.Path steps outcome) :
    ∀ step ∈ steps, step.Fits := by
  induction entries generalizing issued failures steps with
  | nil =>
      obtain ⟨rfl, _⟩ := issueTokens_nil_path path
      exact List.forall_mem_nil _
  | cons entry rest ih =>
      obtain ⟨key, request⟩ := entry
      obtain ⟨hrequest, hrest⟩ := List.forall_mem_cons.mp fits
      rcases issueTokens_cons_path path with
        stop | ⟨secret, more, rfl, onward⟩ | ⟨refusal, more, rfl, onward⟩
      · exact stop.fits hrequest
      · exact List.forall_mem_cons.mpr
          ⟨hrequest, List.forall_mem_cons.mpr ⟨trivial, ih hrest onward⟩⟩
      · exact List.forall_mem_cons.mpr ⟨hrequest, ih hrest onward⟩

/-- An update asks for nothing but what it has planned. -/
theorem fits_of_update_path [DurationReader] {p : Project} {steps : List Step}
    {outcome : Option (Except Failure Secrets)}
    (path : p.update.run.Path steps outcome) : ∀ step ∈ steps, step.Fits := by
  have fetched : ∀ {name live now} {rest : List Step}, (∀ step ∈ rest, step.Fits) →
      ∀ step ∈ .asked (.get name) (some (.ok live)) :: .looked now :: rest, step.Fits :=
    fun hrest => List.forall_mem_cons.mpr ⟨trivial, List.forall_mem_cons.mpr ⟨trivial, hrest⟩⟩
  cases updatePath_of_path path with
  | unnamed _ => exact List.forall_mem_nil _
  | unfetched _ stop => exact stop.fits trivial
  | fetchRefused _ _ => exact List.forall_mem_singleton.mpr trivial
  | unplanned _ _ => exact fetched (List.forall_mem_nil _)
  | unsent _ _ stop => exact fetched (stop.fits trivial)
  | updateRefused _ _ _ => exact fetched (List.forall_mem_singleton.mpr trivial)
  | @issuing _ _ _ _ plan _ _ _ planned onward =>
      have hplan : ∀ entry ∈ plan.toList, entry.2.Fits := by
        rintro ⟨key, request⟩ hentry
        exact fits_of_planned planned
          (Std.ExtTreeMap.mem_toList_iff_getElem?_eq_some.mp hentry)
      exact fetched (List.forall_mem_cons.mpr ⟨trivial,
        List.forall_mem_cons.mpr ⟨trivial, fits_of_issueTokens_path hplan onward⟩⟩)

end Project

/-- **No pass overflows.** Let a host answer every call but one that asks for a
token whose expiry does not fit 64 bits, by whatever clock it goes. Then it
answers every call of a pass, so observing and updating come to a result or a
failure, whatever is declared and whatever is fetched. All numbers that are
counted on the way fit, and a date of a renewal policy that is left is told as a
duration out of range, by the plan and by whoever planned. -/
theorem no_pass_overflows [DurationReader] {σ : Type} (h : Host σ) (clock : σ → Instant)
    (answers : h.AnswersInRange clock) (p : Project) (s : σ) :
    (∀ live now, p.CountsFit live now) ∧
      (∀ name live now field value, p.externalName = some name → h.Shows name live now s →
        p.LeavesDates live now field value →
          Project.observeInPlace.FailsOnceFetched h p s name live now
              (.durationOutOfRange field value) ∧
            Project.updateInPlace.FailsOnceFetched h p s name live now
              (.durationOutOfRange field value)) ∧
      (∃ seen, (h.run p.observe.run s).1 = some seen) ∧
      ∃ updated, (h.run p.update.run s).1 = some updated := by
  refine ⟨p.countsFit, ?_, ?_, ?_⟩
  · intro name live now field value named shows leaves
    obtain ⟨unplanned, unjudged⟩ := (p.countsFit live now).dates field value leaves name
    exact ⟨observeInPlace_failsOnceFetched shows named unjudged,
      updateInPlace_failsOnceFetched shows named unplanned⟩
  · exact answers.ends (Project.fits_of_observe_path (h.path p.observe.run s))
  · exact answers.ends (Project.fits_of_update_path (h.path p.update.run s))

/-- The last instant there is. -/
def lastInstant : Instant := ⟨lastNanos, by decide, le_rfl⟩

/-- A token that is to live as long as can be asked for, and to be renewed when
it is older than any date after the epoch. -/
def weirSpec : TokenSpec where
  id := "deploy"
  expiresIn := some "9223372036854775s 807ms"
  renewAfter := some "8210266876800s"

def weirAge : Span := ⟨8210266876800 * nanosPerSecond⟩

def weirTerms : TokenTerms :=
  ⟨some Duration.longest, none, some weirAge⟩

def weir : Project :=
  (Project.declare "weir" {
    roles := [{ name := "ci", tokens := [weirSpec] }] }).setExternalName "weir"

/-- Its live project, with these tokens. -/
def weirLive (tokens : List Live.Token) : Live.Project :=
  Live.Project.reindex {
    name := "weir"
    version := "1"
    spec := { roles := [{ name := "ci", tokens }] } }

def weirPlane (tokens : List Live.Token) : ControlPlane :=
  ({} : ControlPlane).insert (weirLive tokens)

/-- A token that was issued at the epoch, and for ever. -/
def weirToken : Live.Token := ⟨"deploy", 0, 0⟩

def weirHost : Host ControlPlane :=
  ControlPlane.counting lastInstant "x"

theorem leavesDates_weir :
    weir.LeavesDates (weirLive [weirToken]) lastInstant .renewAfter "8210266876800s" := by
  have read : weirSpec.terms = .ok weirTerms := by decide +kernel
  have asked : DurationField.renewAfter.span "8210266876800s" = .ok weirAge := by
    decide +kernel
  have works : weirSpec.WorksOut lastInstant ⟨"deploy", .epoch, none⟩ .renewAfter
      "8210266876800s" (Instant.epoch.nanos + weirAge.nanos) := by
    refine .age (readable_iff.mpr ⟨weirTerms, read⟩) ?_ ?_ ?_ rfl asked
    · rintro ⟨_, hexpiry, _⟩
      cases hexpiry
    · intro expiry lead hexpiry
      cases hexpiry
    · rintro ⟨_, _, hexpiry, _⟩
      cases hexpiry
  refine ⟨[], ("ci", weirSpec), [], _, _, rfl, ?_, ?_, works, ?_⟩
  · intro earlier hmem
    cases hmem
  · decide +kernel
  · unfold Representable
    decide +kernel

/-- With the token missing, the longest lifetime is requested at the last instant
and issued. With the token there, its date of renewal is told to be left. -/
theorem no_pass_overflows_at_weir :
    weirHost.AnswersInRange (fun _ => lastInstant) ∧
      (weirSpec.request weirTerms "weir" "ci").expiresIn = 9223372036854775 ∧
      (weirSpec.request weirTerms "weir" "ci").Fits ∧
      (∃ updated, (weirHost.run weir.update.run (weirPlane [])).1 = some updated) ∧
      Project.updateInPlace.FailsOnceFetched weirHost weir (weirPlane [weirToken]) "weir"
        (weirLive [weirToken]) lastInstant
        (.durationOutOfRange .renewAfter "8210266876800s") := by
  have answers : weirHost.AnswersInRange fun _ => lastInstant :=
    answersInRange_counting lastInstant "x"
  obtain ⟨fits, _, _, updated⟩ := no_pass_overflows weirHost _ answers weir (weirPlane [])
  obtain ⟨_, told, _⟩ := no_pass_overflows weirHost _ answers weir (weirPlane [weirToken])
  have planned : planTokens "weir" weir.parameters.roles (weirLive []).observation
      lastInstant = .ok (TokenPlan.ofIssues
        [⟨.missing, weirSpec.request weirTerms "weir" "ci"⟩]) := by
    decide +kernel
  have hrequest : (TokenPlan.ofIssues [⟨.missing, weirSpec.request weirTerms "weir" "ci"⟩])[
      (⟨"ci", "deploy"⟩ : TokenKey)]? = some (weirSpec.request weirTerms "weir" "ci") := by
    decide +kernel
  have shows : weirHost.Shows "weir" (weirLive [weirToken]) lastInstant
      (weirPlane [weirToken]) := by
    constructor
    · rfl
    · decide +kernel
    · rfl
  have named : weir.externalName = some "weir" := by decide +kernel
  refine ⟨answers, by decide +kernel, ?_, updated, ?_⟩
  · exact (fits _ _).requests _ _ planned _ _ hrequest
  · exact (told _ _ _ _ _ named shows leavesDates_weir).2

end Reconcile

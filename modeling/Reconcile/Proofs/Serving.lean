import Mathlib
import Reconcile.Proofs.Granting
import Reconcile.Proofs.Secrets

/-!
# A control plane with one client

A host serves a program with a control plane if it answers every call, with what
the control plane says, and if nothing else writes to the control plane. What
the clock shows to the program is left open, and so is the moment at which a
call is served: both may be anything at every step.

What an update leaves behind then depends on the moments of its grants.
`grantsIn` reads them off the run, and `Host.Serves.run_update` says that the
project is stored as it was sent, with each granted token put in place at its
own time.
-/

namespace Reconcile

/-- The host answers every call with what a control plane says at some moment,
and nothing but these calls changes the control plane. -/
structure Host.Serves {σ : Type} (h : Host σ) (plane : σ → ControlPlane)
    (moment : σ → Moment) : Prop where
  wanted : ∀ s, h.isCancelled s = false
  answered : ∀ r s, (h.serve r s).1 = some ((plane s).serve (moment s) r).1
  moved : ∀ r s, plane (h.serve r s).2 = ((plane s).serve (moment s) r).2
  noted : ∀ e s, plane (h.note e s) = plane s

/-! ## Going on as another program -/

/-- After some steps the run of a program goes on as that of another one. -/
structure Host.Reaches {σ α : Type} (h : Host σ) (program : Program α) (s : σ)
    (passed : List (σ × Step)) (next : Program α) (s' : σ) : Prop where
  run : h.run program s = h.run next s'
  trace : h.trace program s = passed ++ h.trace next s'

section Reaching

variable {σ α β : Type} {h : Host σ} {s s' s'' : σ} {a b c : Program α}
  {passed more : List (σ × Step)}

theorem Host.Reaches.trans (first : h.Reaches a s passed b s')
    (second : h.Reaches b s' more c s'') : h.Reaches a s (passed ++ more) c s'' where
  run := first.run.trans second.run
  trace := by rw [first.trace, second.trace, List.append_assoc]

theorem Host.reaches_now (f : Instant → Attempt α) :
    h.Reaches (Attempt.now >>= f).run s [(s, .looked (h.clock s))]
      (f (h.clock s)).run s := ⟨rfl, rfl⟩

theorem Host.reaches_note (e : AuditEvent) (f : Unit → Attempt α) :
    h.Reaches (Attempt.note e >>= f).run s [(s, .noted e)] (f ()).run (h.note e s) :=
  ⟨rfl, rfl⟩

theorem Host.reaches_settled {a : Except Failure β} {b : β} (hok : a = .ok b)
    (f : β → Attempt α) :
    h.Reaches (Attempt.settled a >>= f).run s [] (f b).run s := by
  subst hok
  exact ⟨rfl, rfl⟩

/-- A call is answered by the control plane, and the run goes on with this. -/
theorem Host.Serves.reaches_call {plane : σ → ControlPlane} {moment : σ → Moment}
    (serves : h.Serves plane moment) {r : Request} {answer : r.Answer}
    {cp : ControlPlane} (hserve : (plane s).serve (moment s) r = (answer, cp))
    (f : r.Answer → Attempt α) :
    h.Reaches (Attempt.call r >>= f).run s [(s, .asked r (some answer))]
      (f answer).run (h.serve r s).2 := by
  have hanswer := serves.answered r s
  rw [hserve] at hanswer
  generalize hhost : h.serve r s = served at hanswer
  obtain ⟨heard, s'⟩ := served
  dsimp only at hanswer
  subst hanswer
  refine ⟨h.run_call_bind (serves.wanted s) hhost f, ?_⟩
  rw [Attempt.run_call_bind, h.trace_ask (serves.wanted s) hhost]
  rfl

theorem Host.Serves.failures_serve {plane : σ → ControlPlane} {moment : σ → Moment}
    (serves : h.Serves plane moment) (r : Request) (s : σ) :
    (plane (h.serve r s).2).failures = (plane s).failures := by
  rw [serves.moved]
  exact ((plane s).sameFaults_serve (moment s) r).failures

theorem Host.Serves.plane_serve {plane : σ → ControlPlane} {moment : σ → Moment}
    (serves : h.Serves plane moment) {r : Request} {answer : r.Answer}
    {cp : ControlPlane} (hserve : (plane s).serve (moment s) r = (answer, cp)) :
    plane (h.serve r s).2 = cp := by
  rw [serves.moved, hserve]

end Reaching

/-! ## The grants of a run -/

/-- What a step brought, if it was granted a token, at the time of its moment. -/
def grantAt {σ : Type} (moment : σ → Moment) : σ × Step → Option Grant
  | (s, .asked (.issue t) (some (.ok _))) => some ⟨(moment s).seconds, t⟩
  | _ => none

/-- The tokens that a run was granted, in the order of the grants. -/
def grantsIn {σ : Type} (moment : σ → Moment) (trace : List (σ × Step)) : List Grant :=
  trace.filterMap (grantAt moment)

section Grants

variable {σ : Type} (moment : σ → Moment)

theorem grantsIn_append (before after : List (σ × Step)) :
    grantsIn moment (before ++ after) = grantsIn moment before ++ grantsIn moment after :=
  List.filterMap_append

/-- Where the time of all moments is one, it is that of all grants. -/
theorem grantsIn_of_seconds {moment : σ → Moment} {seconds : Int}
    (fixed : ∀ s, (moment s).seconds = seconds) (trace : List (σ × Step)) :
    grantsIn moment trace =
      ((grantsIn moment trace).map Grant.request).map (Grant.mk seconds) := by
  rw [List.map_map]
  refine ((List.map_congr_left ?_).trans (List.map_id _)).symm
  intro g hg
  obtain ⟨⟨s, step⟩, _, hgrant⟩ := List.mem_filterMap.mp hg
  unfold grantAt at hgrant
  split at hgrant
  · rename_i heq
    cases heq
    cases hgrant
    simp [fixed]
  · cases hgrant

end Grants

/-! ## Issuing the planned tokens -/

/-- Planned tokens belong to the project, and to roles that are sent. -/
theorem ControlPlane.placed_of_planned [DurationReader] {p : Project} {name : String}
    {live : Live.Project} {now : Instant} {plan : TokenPlan}
    (planned : planTokens name p.parameters.roles live.observation now = .ok plan) :
    ∀ entry ∈ plan.toList, entry.2.key = entry.1 ∧ entry.2.project = name ∧
      entry.1.role ∈
        (p.parameters.roles.map (·.toLive live.observation)).map (·.name) := by
  rintro ⟨key, request⟩ he
  have hget := Std.ExtTreeMap.mem_toList_iff_getElem?_eq_some.mp he
  obtain ⟨slot, hslot, issue, hissue, rfl, rfl⟩ := exists_slot_of_planned planned hget
  obtain ⟨r, hr, hname, _⟩ := mem_specsOf.mp hslot
  refine ⟨key_of_decideIssue hissue, project_of_decideIssue hissue, ?_⟩
  rw [names_toLive]
  exact List.mem_map.mpr ⟨r, hr, hname⟩

/-- The time at which an update plans, once it has fetched the project. -/
def Host.planningTime {σ : Type} (h : Host σ) (name : String) (s : σ) : Instant :=
  h.clock (h.serve (.get name) s).2

namespace Host.Serves

open ControlPlane

variable {σ : Type} {h : Host σ} {plane : σ → ControlPlane} {moment : σ → Moment}
  (serves : h.Serves plane moment) {name : String}

include serves

section Issuing

variable {base : Live.Project}

section Single

variable (name : String) (key : TokenKey) (rest : List (TokenKey × TokenRequest))
  (issued : Secrets) (failures : List TokenFailure) {t : TokenRequest} {s : σ}
  {cp : ControlPlane}

/-- A refused token is left for the report. -/
theorem reaches_refused {refusal : Refusal}
    (hserve : (plane s).serve (moment s) (.issue t) = (.error refusal, cp)) :
    h.Reaches (Project.issueTokens name ((key, t) :: rest) issued failures).run s
      [(s, .asked (.issue t) (some (.error refusal)))]
      (Project.issueTokens name rest issued (failures ++ [⟨key, refusal⟩])).run
      (h.serve (.issue t) s).2 := by
  rw [Project.issueTokens]
  exact serves.reaches_call hserve _

/-- The secret of a granted token is kept. -/
theorem reaches_granted {secret : String}
    (hserve : (plane s).serve (moment s) (.issue t) = (.ok secret, cp)) :
    h.Reaches (Project.issueTokens name ((key, t) :: rest) issued failures).run s
      [(s, .asked (.issue t) (some (.ok secret))),
        ((h.serve (.issue t) s).2, .noted (.tokenIssued name key))]
      (Project.issueTokens name rest (issued.insert key.text secret) failures).run
      (h.note (.tokenIssued name key) (h.serve (.issue t) s).2) := by
  rw [Project.issueTokens]
  exact (serves.reaches_call hserve _).trans (Host.reaches_note _ _)

end Single

/-- **What issuing leaves behind.** The tokens that are not refused are granted
and put into their roles, each at its own time. Their secrets are kept, and the
refused tokens are reported. -/
theorem run_issueTokens (entries : List (TokenKey × TokenRequest)) {s : σ}
    {roles : List Live.Role} (issued : Secrets) (failures : List TokenFailure)
    (held : (plane s).Holds name base roles)
    (placed : ∀ entry ∈ entries, entry.2.key = entry.1 ∧
      entry.2.project = name ∧ entry.1.role ∈ roles.map (·.name)) :
    ∃ brought grants s',
      h.run (Project.issueTokens name entries issued failures).run s =
        (some (Project.concluded (failures ++ (plane s).refused entries)
          (issued.file brought)), s') ∧
      grantsIn moment
        (h.trace (Project.issueTokens name entries issued failures).run s) = grants ∧
      brought.map Prod.fst = ((plane s).admitted entries).map Prod.fst ∧
      grants.map Grant.request = ((plane s).admitted entries).map Prod.snd ∧
      (plane s').Holds name base (Live.grantEach roles grants) ∧
      (plane s).SameFaults (plane s') := by
  induction entries generalizing s roles issued failures with
  | nil =>
      rw [Project.run_issueTokens_nil, refused, List.filterMap_nil, List.append_nil]
      exact ⟨[], [], s, rfl, rfl, rfl, rfl, held, SameFaults.refl (plane s)⟩
  | cons entry rest ih =>
      obtain ⟨key, t⟩ := entry
      obtain ⟨hkey, hproject, hrole⟩ := placed _ List.mem_cons_self
      have hrest := fun e he => placed e (List.mem_cons_of_mem _ he)
      change t.key = key at hkey
      change t.project = name at hproject
      subst hkey hproject
      cases hrefusal : (plane s).refusal? t.key with
      | some refusal =>
          -- the refusal is noted, and the roles stay as they are
          have hserve := serve_issue_refused hrefusal (moment s)
          have hplane := serves.plane_serve hserve
          have onward := serves.reaches_refused t.project t.key rest issued failures
            hserve
          have hfaults := (plane s).sameFaults_recorded (.issue t)
          obtain ⟨brought, grants, s', hrun, hgrants, hbrought, hrequests, hheld,
            hfaults'⟩ := ih issued (failures ++ [⟨t.key, refusal⟩])
              (hplane ▸ held.recorded (.issue t)) hrest
          rw [hplane, hfaults.refused_eq, List.append_assoc] at hrun
          rw [hplane, hfaults.admitted_eq] at hbrought hrequests
          rw [hplane] at hfaults'
          rw [refused_cons_of_some rest hrefusal, admitted_cons_of_some rest hrefusal]
          refine ⟨brought, grants, s', onward.run.trans hrun, ?_, hbrought, hrequests,
            hheld, hfaults.trans hfaults'⟩
          rw [onward.trace]
          exact hgrants
      | none =>
          -- the secret is kept, and the token is in its role from now on
          obtain ⟨cp, hserve, hplaced, hfaults⟩ :=
            serve_issue_granted hrefusal held hrole (moment s)
          have hplane := (serves.noted (.tokenIssued t.project t.key) _).trans
            (serves.plane_serve hserve)
          have onward := serves.reaches_granted t.project t.key rest issued failures
            hserve
          have hnames : ∀ e ∈ rest, e.2.key = e.1 ∧ e.2.project = t.project ∧
              e.1.role ∈ (Live.grant (moment s).seconds roles t).map (·.name) := by
            rw [Live.names_eq_of_bare_eq (Live.bare_grant _ roles t)]
            exact hrest
          obtain ⟨brought, grants, s', hrun, hgrants, hbrought, hrequests, hheld,
            hfaults'⟩ := ih (issued.insert t.key.text (secretFor (moment s).tail t))
              failures (hplane ▸ hplaced) hnames
          rw [hplane, hfaults.refused_eq] at hrun
          rw [hplane, hfaults.admitted_eq] at hbrought hrequests
          rw [hplane] at hfaults'
          rw [refused_cons_of_none rest hrefusal, admitted_cons_of_none rest hrefusal]
          refine ⟨(t.key, secretFor (moment s).tail t) :: brought,
            ⟨(moment s).seconds, t⟩ :: grants, s', onward.run.trans hrun, ?_, ?_, ?_,
            hheld, hfaults.trans hfaults'⟩
          · rw [onward.trace, grantsIn_append]
            exact congrArg (_ :: ·) hgrants
          · rw [List.map_cons, List.map_cons, hbrought]
          · rw [List.map_cons, List.map_cons, hrequests]

end Issuing

/-! ## The whole update -/

section Update

variable [DurationReader] {p : Project} {s : σ} {live : Live.Project} {plan : TokenPlan}
  (named : p.externalName = some name) (held : (plane s).project? name = some live)

include named held

/-- An update that is planned and let through goes on with the planned tokens,
once the project is stored as it was sent. -/
theorem reaches_issuing (hget : (plane s).failures .get = none)
    (hupdate : (plane s).failures .update = none)
    (planned : planTokens name p.parameters.roles live.observation
      (h.planningTime name s) = .ok plan) :
    ∃ passed s₁ stored,
      h.Reaches p.update.run s passed
        (Project.issueTokens name plan.toList ∅ []).run s₁ ∧
      grantsIn moment passed = [] ∧
      passed.map Prod.snd = [.asked (.get name) (some (.ok live)),
        .looked (h.planningTime name s),
        .asked (.update (p.updated name live)) (some (.ok stored)),
        .noted (.updated name)] ∧
      (plane s₁).Holds name (p.parameters.toLive name live.observation)
        (p.parameters.roles.map (·.toLive live.observation)) ∧
      (plane s).SameFaults (plane s₁) := by
  have hfetch := serve_get held hget (moment s)
  have hfetched := serves.plane_serve hfetch
  have hlooked : h.planningTime name s = h.clock (h.serve (.get name) s).2 := rfl
  have onward (f : Except Refusal Live.Project → Attempt Secrets) :=
    serves.reaches_call hfetch f
  rw [hlooked] at planned ⊢
  generalize (h.serve (.get name) s).2 = fetched at hfetched planned onward ⊢
  have hheld : (plane fetched).project? name = some live := hfetched ▸ held
  have hsending : (plane fetched).failures .update = none := hfetched ▸ hupdate
  obtain ⟨stored, cp, hserve, hstored, hfaults⟩ :=
    serve_update p hheld hsending (moment fetched)
  have hsame := (plane s).sameFaults_recorded (.get name)
  rw [← hfetched] at hsame
  have hsent := (serves.noted (.updated name) _).trans (serves.plane_serve hserve)
  -- what the comparison says plays no part, but it must say something
  obtain ⟨upToDate, hcompared⟩ := isUpToDate_isOk_of_planned planned live
  refine ⟨[(s, .asked (.get name) (some (.ok live))), (fetched, .looked (h.clock fetched)),
    (fetched, .asked (.update (p.updated name live)) (some (.ok stored))),
    ((h.serve (.update (p.updated name live)) fetched).2, .noted (.updated name))], _,
    stored, ?_, rfl, rfl, hsent ▸ hstored, hsent ▸ hsame.trans hfaults⟩
  rw [Project.update, named]
  refine (onward _).trans ?_
  refine (Host.reaches_now _).trans ?_
  refine (Host.reaches_settled planned _).trans ?_
  refine (Host.reaches_settled hcompared _).trans ?_
  exact (serves.reaches_call hserve _).trans (Host.reaches_note _ _)

/-- **What an update leaves behind.** The project is as it was sent, with each
granted token put into its role at its own time, and the refused tokens are
reported. -/
theorem run_update (hget : (plane s).failures .get = none)
    (hupdate : (plane s).failures .update = none)
    (planned : planTokens name p.parameters.roles live.observation
      (h.planningTime name s) = .ok plan) :
    ∃ brought grants s',
      h.run p.update.run s = (some (Project.concluded ((plane s).refused plan.toList)
        (Secrets.file ∅ brought)), s') ∧
      p.planAlong (h.steps p.update.run s) = some plan ∧
      grantsIn moment (h.trace p.update.run s) = grants ∧
      brought.map Prod.fst = ((plane s).granted plan).keys ∧
      grants.map Grant.request = ((plane s).granted plan).toList.map Prod.snd ∧
      (plane s').Holds name (p.parameters.toLive name live.observation)
        (Live.grantEach (p.parameters.roles.map (·.toLive live.observation)) grants) ∧
      (plane s).SameFaults (plane s') := by
  obtain ⟨passed, s₁, stored, onward, hpassed, hsteps, hheld, hfaults⟩ :=
    serves.reaches_issuing named held hget hupdate planned
  obtain ⟨brought, grants, s', hrun, hgrants, hbrought, hrequests, hheld', hfaults'⟩ :=
    serves.run_issueTokens plan.toList ∅ [] hheld (placed_of_planned planned)
  rw [hfaults.refused_eq, List.nil_append] at hrun
  rw [hfaults.admitted_eq, ← toList_granted] at hbrought hrequests
  rw [Std.ExtTreeMap.map_fst_toList_eq_keys] at hbrought
  refine ⟨brought, grants, s', onward.run.trans hrun, ?_, ?_, hbrought, hrequests,
    hheld', hfaults.trans hfaults'⟩
  · rw [← Host.map_snd_trace, onward.trace, List.map_append, hsteps]
    exact Project.planAlong_eq planned _
  · rw [onward.trace, grantsIn_append, hpassed, List.nil_append]
    exact hgrants

/-- **An update that hands back secrets was let through.** Neither the fetch nor
the update was refused, and the tokens could be planned. -/
theorem sent_of_handedBack {result : Except Failure Secrets} {s' : σ}
    (ran : h.run p.update.run s = (some result, s'))
    (ended : (handedBack? result).isSome) :
    (plane s).failures .get = none ∧ (plane s).failures .update = none ∧
      ∃ plan, planTokens name p.parameters.roles live.observation
        (h.planningTime name s) = .ok plan := by
  rw [Project.update, named] at ran
  cases hget : (plane s).failures .get with
  | some refusal =>
      have hserve := serve_refused (r := .get name) hget (moment s)
      rw [(serves.reaches_call hserve _).run] at ran
      cases ran
      cases ended
  | none =>
      have hfetch := serve_get held hget (moment s)
      have hfetched := serves.plane_serve hfetch
      rw [(serves.reaches_call hfetch _).run] at ran
      dsimp only at ran
      rw [(Host.reaches_now _).run] at ran
      cases hplan : planTokens name p.parameters.roles live.observation
          (h.planningTime name s) with
      | error failure =>
          rw [planningTime] at hplan
          rw [hplan, Attempt.run_settled_bind_error] at ran
          cases ran
          rw [(planTokens_error hplan).handedBack?_eq] at ended
          cases ended
      | ok plan =>
          obtain ⟨_, hcompared⟩ := isUpToDate_isOk_of_planned hplan live
          cases hupdate : (plane s).failures .update with
          | none => exact ⟨rfl, rfl, plan, rfl⟩
          | some refusal =>
              rw [planningTime] at hplan hcompared
              have hrefused : (plane (h.serve (.get name) s).2).failures
                  (Request.update (p.updated name live)).operation = some refusal := by
                rw [hfetched]
                exact hupdate
              rw [(Host.reaches_settled hplan _).run,
                (Host.reaches_settled hcompared _).run,
                (serves.reaches_call (serve_refused hrefused (moment _)) _).run] at ran
              cases ran
              cases ended

end Update

end Host.Serves

end Reconcile

import Mathlib
import Reconcile.Proofs.Serving
import Reconcile.Proofs.Timestamps

/-!
# A control plane left alone

Here a program is the only client of a control plane in memory: nobody else
writes to it, the work is never withdrawn, and the clock stands still. An
update then has one course, and this module says what it leaves behind: the
project as it was sent, with all granted tokens put into their roles at the one
time that there is.
-/

namespace Reconcile

namespace ControlPlane

/-! ## The host -/

/-- A control plane that serves one program, at a time that does not pass. What
makes its secrets unguessable is left open. -/
def undisturbed (now : Instant) (tail : ControlPlane → String) :
    Host ControlPlane where
  isCancelled _ := false
  clock _ := now
  serve r cp :=
    let (answer, cp') := cp.serve ⟨now.seconds, tail cp⟩ r
    (some answer, cp')
  note _ cp := cp
  pause _ cp := cp

section Laws

variable {now : Instant} {tail : ControlPlane → String} {cp : ControlPlane}
  {α β : Type}

/-- A call is always answered, by the control plane. -/
theorem run_call_bind {r : Request} {f : r.Answer → Attempt α}
    {answer : r.Answer} {cp' : ControlPlane}
    (h : cp.serve ⟨now.seconds, tail cp⟩ r = (answer, cp')) :
    (undisturbed now tail).run (Attempt.call r >>= f).run cp =
      (undisturbed now tail).run (f answer).run cp' := by
  apply Host.run_call_bind _ rfl
  simp only [undisturbed, h]

theorem run_now_bind (f : Instant → Attempt α) :
    (undisturbed now tail).run (Attempt.now >>= f).run cp =
      (undisturbed now tail).run (f now).run cp := rfl

theorem run_note_bind (e : AuditEvent) (f : Unit → Attempt α) :
    (undisturbed now tail).run (Attempt.note e >>= f).run cp =
      (undisturbed now tail).run (f ()).run cp := rfl

theorem run_settled_bind {a : Except Failure β} {b : β} (h : a = .ok b)
    (f : β → Attempt α) :
    (undisturbed now tail).run (Attempt.settled a >>= f).run cp =
      (undisturbed now tail).run (f b).run cp := by
  subst h
  rfl

end Laws

/-! ## Rehearsals without hooks -/

theorem passPoint_nil {r : Request} (point : HookPoint)
    (call : Rehearsal.Underway r) {w : Rehearsal} (unhooked : w.hooks = []) :
    Rehearsal.passPoint point call w = (some call, w) := by
  obtain ⟨plane, clock, cancelled, hooks, audit, tail⟩ := w
  change hooks = [] at unhooked
  subst unhooked
  rfl

/-- Without hooks a call goes straight to the control plane. -/
theorem rehearsal_serve {r : Request} {w : Rehearsal}
    (unhooked : w.hooks = []) :
    Rehearsal.serve r w = (some (w.plane.serve w.moment r).1,
      { w with plane := (w.plane.serve w.moment r).2 }) := by
  rw [Rehearsal.serve, passPoint_nil .before _ unhooked]
  dsimp only
  obtain ⟨answer, plane⟩ := w.plane.serve w.moment r
  cases answer with
  | error refusal => rfl
  | ok reply =>
      have hafter : ({ w with plane := plane } : Rehearsal).hooks = [] := unhooked
      dsimp only
      rw [passPoint_nil .after _ hafter]
      rfl

/-- **A rehearsal without hooks leaves its control plane alone.** Whatever a
program does there, it does with the control plane alone, to the same
effect. -/
theorem rehearsal_run {α : Type} (program : Program α) {w : Rehearsal}
    (unhooked : w.hooks = []) (wanted : w.cancelled = false)
    (readable : (Instant.ofSeconds? w.clock).isSome) :
    (Rehearsal.host.run program w).1 =
        ((undisturbed (instantOfTimestamp w.clock) fun _ => w.tail).run program
          w.plane).1 ∧
      (Rehearsal.host.run program w).2.plane =
        ((undisturbed (instantOfTimestamp w.clock) fun _ => w.tail).run program
          w.plane).2 := by
  induction program generalizing w with
  | done a => exact ⟨rfl, rfl⟩
  | ask r next ih =>
      have hmoment : w.moment =
          ⟨(instantOfTimestamp w.clock).seconds, w.tail⟩ := by
        rw [seconds_instantOfTimestamp readable]
        rfl
      have hserve : Rehearsal.host.serve r w = _ := rehearsal_serve unhooked
      rw [hmoment] at hserve
      have hwanted : Rehearsal.host.isCancelled w = false := wanted
      rw [Host.run, Host.run, hserve, hwanted]
      exact ih _ unhooked wanted readable
  | look next ih => exact ih _ unhooked wanted readable
  | note e next ih => exact ih unhooked wanted readable

/-! ## The whole update -/

section Update

variable {now : Instant} {cp : ControlPlane} {p : Project} {name : String}
  {live : Live.Project} {plan : TokenPlan}

/-- The roles that an update leaves behind. -/
def rolesAfter (cp : ControlPlane) (p : Project) (live : Live.Project)
    (now : Instant) (plan : TokenPlan) : List Live.Role :=
  Live.grantAll now.seconds (p.parameters.roles.map (·.toLive live.observation))
    ((cp.granted plan).toList.map (·.2))

/-- At a time that does not pass the control plane serves its one program. -/
theorem undisturbed_serves (now : Instant) (tail : ControlPlane → String) :
    (undisturbed now tail).Serves id fun cp => ⟨now.seconds, tail cp⟩ :=
  ⟨fun _ => rfl, fun _ _ => rfl, fun _ _ => rfl, fun _ _ => rfl⟩

/-- **What an update leaves behind.** The project is as it was sent, with the
granted tokens in their roles, and the refused tokens are reported. -/
theorem run_update [DurationReader] (tail : ControlPlane → String)
    (named : p.externalName = some name) (held : cp.project? name = some live)
    (hget : cp.failures .get = none) (hupdate : cp.failures .update = none)
    (planned : planTokens name p.parameters.roles live.observation now = .ok plan) :
    ∃ brought cp',
      (undisturbed now tail).run p.update.run cp =
        (some (Project.concluded (cp.refused plan.toList)
          (Secrets.file ∅ brought)), cp') ∧
      brought.map Prod.fst = (cp.granted plan).keys ∧
      cp'.Holds name (p.parameters.toLive name live.observation)
        (cp.rolesAfter p live now plan) ∧
      cp.SameFaults cp' := by
  obtain ⟨brought, grants, cp', hrun, _, hgrants, hbrought, hrequests, hheld, hfaults⟩ :=
    (undisturbed_serves now tail).run_update named held hget hupdate planned
  -- every token was granted at the one time that there is
  have htimes : grants = ((cp.granted plan).toList.map (·.2)).map (Grant.mk now.seconds) := by
    have hfixed : grants = (grants.map Grant.request).map (Grant.mk now.seconds) := by
      rw [← hgrants]
      apply grantsIn_of_seconds
      exact fun _ => rfl
    rw [hrequests] at hfixed
    exact hfixed
  rw [htimes, ← Live.grantAll_eq_grantEach] at hheld
  exact ⟨brought, cp', hrun, hbrought, hheld, hfaults⟩

/-- The planned request of a key, found among all of them. -/
theorem find?_request
    (keyed : ∀ entry ∈ plan.toList, entry.2.key = entry.1) (key : TokenKey) :
    (plan.toList.map (·.2)).reverse.find? (·.key = key) = plan[key]? := by
  cases hfind : (plan.toList.map (·.2)).reverse.find? (·.key = key) with
  | some t =>
      have hkey : t.key = key := by simpa using List.find?_some hfind
      have hmem := List.mem_of_find?_eq_some hfind
      rw [List.mem_reverse, List.mem_map] at hmem
      obtain ⟨⟨other, t'⟩, he, rfl⟩ := hmem
      rw [keyed _ he] at hkey
      subst hkey
      exact (Std.ExtTreeMap.mem_toList_iff_getElem?_eq_some.mp he).symm
  | none =>
      cases hget : plan[key]? with
      | none => rfl
      | some t =>
          exfalso
          have he := Std.ExtTreeMap.mem_toList_iff_getElem?_eq_some.mpr hget
          rw [List.find?_eq_none] at hfind
          refine hfind t ?_ (by simpa using keyed _ he)
          rw [List.mem_reverse]
          exact List.mem_map.mpr ⟨_, he, rfl⟩

theorem names_rolesAfter :
    (cp.rolesAfter p live now plan).map (·.name) = p.parameters.roles.map (·.name) := by
  rw [rolesAfter, Live.names_grantAll, names_toLive]

/-- **The tokens after an update.** A declared spec has the token that was
granted for it, or else the one that was seen, as it travelled. -/
theorem tokenIn_rolesAfter [DurationReader]
    (distinct : (p.parameters.roles.map (·.name)).Nodup)
    (planned : planTokens name p.parameters.roles live.observation now = .ok plan)
    {slot : String × TokenSpec} (hslot : slot ∈ specsOf p.parameters.roles) :
    Live.tokenIn (cp.rolesAfter p live now plan) (slotKey slot) =
      ((cp.granted plan)[slotKey slot]?.map (tokenFor now.seconds)).or
        ((live.observation.current slot.1 slot.2.id).map ObservedToken.toLive) := by
  obtain ⟨r, hr, hname, _⟩ := mem_specsOf.mp hslot
  have hrole : (slotKey slot).role ∈
      (p.parameters.roles.map (·.toLive live.observation)).map (·.name) := by
    rw [names_toLive]
    exact List.mem_map.mpr ⟨r, hr, hname⟩
  have hkeyed : ∀ entry ∈ (cp.granted plan).toList, entry.2.key = entry.1 := by
    intro entry he
    rw [toList_granted] at he
    exact (placed_of_planned planned entry (List.mem_of_mem_filter he)).1
  rw [rolesAfter, Live.tokenIn_grantAll _ _ hrole, find?_request hkeyed,
    tokenIn_toLive distinct hslot]

end Update

end ControlPlane

end Reconcile

import Mathlib
import Reconcile.Proofs.Granting

/-!
# Tokens put in place, one after the other

A control plane puts a token in the place of the one with its id, and behind the
others if there is none. So a row of tokens with distinct ids takes the places
of those that it replaces, and the rest of it follows behind in its own order.
The tokens of a role after any grants are told by this, whatever it held before.
-/

namespace Reconcile.Live

/-! ## One token -/

/-- A token with a new id goes to the end. -/
theorem putIn_of_forall_ne {t : Token} {tokens : List Token}
    (h : ∀ u ∈ tokens, u.id ≠ t.id) : t.putIn tokens = tokens ++ [t] := by
  induction tokens with
  | nil => rfl
  | cons u rest ih =>
      have hu : u.id ≠ t.id := h u List.mem_cons_self
      have hrest : ∀ v ∈ rest, v.id ≠ t.id :=
        fun v hv => h v (List.mem_cons_of_mem u hv)
      rw [Token.putIn, if_neg hu, ih hrest]
      rfl

/-- A token takes the place of the one with its id, if only one has it. -/
theorem putIn_of_mem {t : Token} {tokens : List Token}
    (distinct : (tokens.map (·.id)).Nodup) (h : t.id ∈ tokens.map (·.id)) :
    t.putIn tokens = tokens.map fun u => if u.id = t.id then t else u := by
  induction tokens with
  | nil => cases h
  | cons u rest ih =>
      rw [List.map_cons, List.nodup_cons] at distinct
      rw [List.map_cons, List.mem_cons] at h
      rw [Token.putIn, List.map_cons]
      by_cases hu : u.id = t.id
      · -- no other token has the id, so the rest stays as it is
        have hrest : rest.map (fun v => if v.id = t.id then t else v) = rest := by
          refine (List.map_congr_left ?_).trans (List.map_id rest)
          intro v hv
          have hne : v.id ≠ t.id := by
            intro heq
            exact distinct.1 (hu.trans heq.symm ▸ List.mem_map.mpr ⟨v, hv, rfl⟩)
          rw [if_neg hne, id]
        rw [if_pos hu, if_pos hu, hrest]
      · rw [if_neg hu, if_neg hu, ih distinct.2 (h.resolve_left (Ne.symm hu))]

/-! ## A row of tokens -/

/-- What stands in the place of a token: the one among the tokens that has its
id, or itself. -/
def Token.replacedBy (tokens : List Token) (u : Token) : Token :=
  (tokens.find? (·.id = u.id)).getD u

theorem replacedBy_cons (t : Token) (tokens : List Token) (u : Token) :
    u.replacedBy (t :: tokens) = if t.id = u.id then t else u.replacedBy tokens := by
  rw [Token.replacedBy, List.find?_cons]
  by_cases h : t.id = u.id
  · simp [h]
  · simp [h, Token.replacedBy]

/-- A token stays where none of the others has its id. -/
theorem replacedBy_of_forall_ne {tokens : List Token} {u : Token}
    (h : ∀ v ∈ tokens, v.id ≠ u.id) : u.replacedBy tokens = u := by
  have hnone : tokens.find? (·.id = u.id) = none := by
    rw [List.find?_eq_none]
    intro v hv
    simpa using h v hv
  rw [Token.replacedBy, hnone, Option.getD_none]

/-- Taking the place of a token with the same id changes no id. -/
theorem ids_replace (t : Token) (old : List Token) :
    (old.map fun u => if u.id = t.id then t else u).map (·.id) = old.map (·.id) := by
  rw [List.map_map]
  refine List.map_congr_left ?_
  intro u _
  by_cases hu : u.id = t.id
  · simp [hu]
  · simp [hu]

theorem nodup_ids_concat {t : Token} {old : List Token} (hold : (old.map (·.id)).Nodup)
    (hnew : t.id ∉ old.map (·.id)) : ((old ++ [t]).map (·.id)).Nodup := by
  rw [List.map_append, List.map_singleton, ← List.concat_eq_append]
  exact hold.concat hnew

/-- **Each token of a row takes the place of its predecessor, or follows behind
all others.** -/
theorem foldl_putIn {tokens old : List Token} (distinct : (tokens.map (·.id)).Nodup)
    (hold : (old.map (·.id)).Nodup) :
    tokens.foldl (fun placed t => t.putIn placed) old =
      old.map (Token.replacedBy tokens) ++
        tokens.filter fun t => t.id ∉ old.map (·.id) := by
  induction tokens generalizing old with
  | nil =>
      rw [List.foldl_nil, List.filter_nil, List.append_nil]
      exact (List.map_id old).symm
  | cons t tokens ih =>
      rw [List.map_cons, List.nodup_cons] at distinct
      obtain ⟨hnew, hrest⟩ := distinct
      -- among the following tokens none has the id of this one
      have hne : ∀ v ∈ tokens, v.id ≠ t.id := by
        intro v hv heq
        exact hnew (heq ▸ List.mem_map.mpr ⟨v, hv, rfl⟩)
      have hself : t.replacedBy tokens = t := replacedBy_of_forall_ne hne
      rw [List.foldl_cons]
      by_cases hmem : t.id ∈ old.map (·.id)
      · have hids := ids_replace t old
        rw [putIn_of_mem hold hmem, ih hrest (hids ▸ hold), hids, List.map_map,
          List.filter_cons_of_neg (by simpa using hmem)]
        congr 1
        refine List.map_congr_left ?_
        intro u _
        rw [Function.comp_apply, replacedBy_cons]
        by_cases hu : u.id = t.id
        · rw [if_pos hu, if_pos hu.symm, hself]
        · rw [if_neg hu, if_neg (Ne.symm hu)]
      · have hold' : ∀ u ∈ old, u.id ≠ t.id := by
          intro u hu heq
          exact hmem (heq ▸ List.mem_map.mpr ⟨u, hu, rfl⟩)
        rw [putIn_of_forall_ne hold', ih hrest (nodup_ids_concat hold hmem), List.map_append,
          List.map_singleton, hself, List.append_assoc, List.singleton_append,
          List.filter_cons_of_pos (by simpa using hmem)]
        congr 1
        · refine List.map_congr_left ?_
          intro u hu
          rw [replacedBy_cons, if_neg (Ne.symm (hold' u hu))]
        · congr 1
          refine List.filter_congr ?_
          intro v hv
          have hv' := hne v hv
          simp [hv']

theorem replacedBy_id (tokens : List Token) (u : Token) :
    (u.replacedBy tokens).id = u.id := by
  rw [Token.replacedBy]
  cases hfind : tokens.find? (·.id = u.id) with
  | none => rfl
  | some t => simpa using List.find?_some hfind

/-- Where ids were told apart they still are. -/
theorem ids_foldl_putIn_nodup {tokens old : List Token}
    (distinct : (tokens.map (·.id)).Nodup) (hold : (old.map (·.id)).Nodup) :
    ((tokens.foldl (fun placed t => t.putIn placed) old).map (·.id)).Nodup := by
  have hreplaced : (old.map (Token.replacedBy tokens)).map (·.id) = old.map (·.id) := by
    rw [List.map_map]
    exact List.map_congr_left fun u _ => replacedBy_id tokens u
  rw [foldl_putIn distinct hold, List.map_append, hreplaced, List.nodup_append]
  refine ⟨hold, distinct.sublist (List.filter_sublist.map _), ?_⟩
  intro id hid _ hnew heq
  obtain ⟨t, ht, rfl⟩ := List.mem_map.mp hnew
  have hnot := of_decide_eq_true (List.mem_filter.mp ht).2
  exact hnot (heq ▸ hid)

/-! ## Grants -/

/-- A granted token changes the tokens of its own role only. -/
theorem tokensIn_grant {seconds : Int} {roles : List Role} {t : TokenRequest}
    (hrole : t.role ∈ roles.map (·.name)) (name : String) :
    tokensIn (grant seconds roles t) name =
      if name = t.role then
        (ControlPlane.tokenFor seconds t).putIn (tokensIn roles t.role)
      else tokensIn roles name := by
  obtain ⟨roles', hput⟩ := exists_putInRole? (ControlPlane.tokenFor seconds t) hrole
  rw [grant, hput, Option.getD_some, tokensIn_putInRole? hput]

/-- The tokens granted for a role, in the order of the grants. -/
def grantsFor (name : String) (grants : List Grant) : List Token :=
  (grants.filter (·.request.role = name)).map Grant.token

/-- The tokens of a role are those that its grants put in place. -/
theorem tokensIn_grantEach_eq_foldl {grants : List Grant} {roles : List Role}
    (declared : ∀ g ∈ grants, g.request.role ∈ roles.map (·.name)) (name : String) :
    tokensIn (grantEach roles grants) name =
      (grantsFor name grants).foldl (fun placed t => t.putIn placed)
        (tokensIn roles name) := by
  induction grants generalizing roles with
  | nil => rfl
  | cons g grants ih =>
      have hrole := declared g List.mem_cons_self
      have hrest : ∀ f ∈ grants, f.request.role ∈
          (grant g.seconds roles g.request).map (·.name) := by
        rw [names_eq_of_bare_eq (bare_grant g.seconds roles g.request)]
        exact fun f hf => declared f (List.mem_cons_of_mem _ hf)
      have hstep : grantEach roles (g :: grants) =
          grantEach (grant g.seconds roles g.request) grants := rfl
      rw [hstep, ih hrest, tokensIn_grant hrole, grantsFor, grantsFor]
      by_cases hname : name = g.request.role
      · subst hname
        rw [if_pos rfl, List.filter_cons_of_pos (by simp), List.map_cons,
          List.foldl_cons]
        rfl
      · rw [if_neg hname, List.filter_cons_of_neg (by simpa using Ne.symm hname)]

/-- Grants with distinct keys put distinct ids into a role. -/
theorem ids_grantsFor_nodup {grants : List Grant}
    (distinct : (grants.map Grant.key).Nodup) (name : String) :
    ((grantsFor name grants).map (·.id)).Nodup := by
  have hrole : ((grants.filter (·.request.role = name)).map Grant.key).Nodup :=
    distinct.sublist (List.filter_sublist.map _)
  have hkeys : (grants.filter (·.request.role = name)).map Grant.key =
      ((grantsFor name grants).map (·.id)).map (TokenKey.mk name) := by
    rw [grantsFor, List.map_map, List.map_map]
    refine List.map_congr_left ?_
    intro g hg
    have hname : g.request.role = name := of_decide_eq_true (List.mem_filter.mp hg).2
    rw [← hname]
    rfl
  rw [hkeys] at hrole
  exact List.Nodup.of_map _ hrole

/-- **The tokens of a role after some grants.** Those that were there are in
their places, or the ones that were granted for their ids; the other granted
tokens follow in the order of the grants. -/
theorem tokensIn_grantEach {grants : List Grant} {roles : List Role} {name : String}
    (distinct : (grants.map Grant.key).Nodup)
    (declared : ∀ g ∈ grants, g.request.role ∈ roles.map (·.name))
    (old : ((tokensIn roles name).map (·.id)).Nodup) :
    tokensIn (grantEach roles grants) name =
      (tokensIn roles name).map (Token.replacedBy (grantsFor name grants)) ++
        (grantsFor name grants).filter
          fun t => t.id ∉ (tokensIn roles name).map (·.id) := by
  rw [tokensIn_grantEach_eq_foldl declared,
    foldl_putIn (ids_grantsFor_nodup distinct name) old]

end Reconcile.Live

import Mathlib
import Reconcile.ControlPlane
import Reconcile.Exchange
import Reconcile.Proofs.Planning

/-!
# Finding tokens

A control plane keeps tokens in two places, the roles of a project and an
index beside them, and a pass reads the index. Tokens are found by role and id
in each of them, and the first one counts. Here the two ways of finding a token
are related: in the index, among the tokens that an update sends, and after a
token has been put in place. As long as no two roles share a name, all of them
say the same.
-/

namespace Reconcile

/-- Where no two members share a key, each is found by its own. -/
theorem find?_key_of_mem {α β : Type} [DecidableEq β] {key : α → β} {l : List α}
    (distinct : (l.map key).Nodup) {a : α} (ha : a ∈ l) :
    l.find? (key · = key a) = some a := by
  cases hfind : l.find? (key · = key a) with
  | none =>
      rw [List.find?_eq_none] at hfind
      exact absurd (decide_eq_true rfl) (hfind a ha)
  | some b =>
      have hkey : key b = key a := by simpa using List.find?_some hfind
      rw [List.inj_on_of_nodup_map distinct (List.mem_of_find?_eq_some hfind) ha hkey]

namespace Live

/-! ## Tokens by role and id -/

/-- The tokens of a role; of several roles with its name the first counts. -/
def tokensIn (roles : List Role) (name : String) : List Token :=
  ((roles.find? (·.name = name)).map (·.tokens)).getD []

/-- The token of a key; of several the first counts. -/
def tokenIn (roles : List Role) (key : TokenKey) : Option Token :=
  (tokensIn roles key.role).find? (·.id = key.id)

theorem tokensIn_cons_self (r : Role) (roles : List Role) :
    tokensIn (r :: roles) r.name = r.tokens := by
  simp [tokensIn]

theorem tokensIn_cons_of_ne {r : Role} {name : String} (h : r.name ≠ name)
    (roles : List Role) : tokensIn (r :: roles) name = tokensIn roles name := by
  simp [tokensIn, h]

/-- Where no two roles share a name, every role is the one found. -/
theorem tokensIn_of_mem {roles : List Role}
    (distinct : (roles.map (·.name)).Nodup) {r : Role} (hr : r ∈ roles) :
    tokensIn roles r.name = r.tokens := by
  induction roles with
  | nil => cases hr
  | cons first rest ih =>
      rw [List.map_cons, List.nodup_cons] at distinct
      rcases List.mem_cons.mp hr with rfl | hr
      · exact tokensIn_cons_self r rest
      · have hne : first.name ≠ r.name := by
          intro heq
          exact distinct.1 (heq ▸ List.mem_map.mpr ⟨r, hr, rfl⟩)
        rw [tokensIn_cons_of_ne hne]
        exact ih distinct.2 hr

/-! ## The index -/

/-- One role entered into an index. -/
def enter (index : Dict (List Token)) (r : Role) : Dict (List Token) :=
  if r.tokens = [] then index else index.insert r.name r.tokens

theorem getElem?_enter_of_ne {r : Role} {name : String} (h : r.name ≠ name)
    (index : Dict (List Token)) : (enter index r)[name]? = index[name]? := by
  rw [enter]
  split
  · rfl
  · rw [Std.ExtTreeMap.getElem?_insert, if_neg (by simpa using h)]

theorem getElem?_foldl_enter_of_not_mem {roles : List Role} {name : String}
    (h : name ∉ roles.map (·.name)) (index : Dict (List Token)) :
    (roles.foldl enter index)[name]? = index[name]? := by
  induction roles generalizing index with
  | nil => rfl
  | cons r rest ih =>
      rw [List.map_cons, List.mem_cons, not_or] at h
      rw [List.foldl_cons, ih h.2, getElem?_enter_of_ne (Ne.symm h.1)]

theorem getElem?_foldl_enter {roles : List Role}
    (distinct : (roles.map (·.name)).Nodup) {index : Dict (List Token)}
    {name : String} (hnew : index[name]? = none) :
    (roles.foldl enter index)[name]?.getD [] = tokensIn roles name := by
  -- the name is new to the index until its role is entered, and no role after
  -- that one has it
  induction roles generalizing index with
  | nil =>
      rw [List.foldl_nil, hnew]
      rfl
  | cons r rest ih =>
      rw [List.map_cons, List.nodup_cons] at distinct
      rw [List.foldl_cons]
      by_cases hname : r.name = name
      · subst hname
        rw [getElem?_foldl_enter_of_not_mem distinct.1, tokensIn_cons_self, enter]
        split
        · rename_i hnil
          rw [hnew, hnil]
          rfl
        · rw [Std.ExtTreeMap.getElem?_insert_self]
          rfl
      · rw [tokensIn_cons_of_ne hname]
        exact ih distinct.2 ((getElem?_enter_of_ne hname index).trans hnew)

/-- **The index says what the roles say**, if no two of them share a name. -/
theorem getElem?_tokenIndex {roles : List Role}
    (distinct : (roles.map (·.name)).Nodup) (name : String) :
    (tokenIndex roles)[name]?.getD [] = tokensIn roles name :=
  getElem?_foldl_enter distinct Std.ExtTreeMap.getElem?_empty

/-- What a pass sees of a role is what is listed for it. -/
theorem Project.getElem?_observation (p : Live.Project) (name : String) :
    p.observation[name]?.getD [] =
      (p.tokensByRole[name]?.getD []).map ObservedToken.ofLive := by
  rw [Live.Project.observation, Std.ExtTreeMap.getElem?_map]
  cases p.tokensByRole[name]? <;> rfl

/-- What a pass sees of a role whose tokens are indexed. -/
theorem Project.observation_reindex {p : Live.Project}
    (distinct : (p.spec.roles.map (·.name)).Nodup) (name : String) :
    p.reindex.observation[name]?.getD [] =
      (tokensIn p.spec.roles name).map ObservedToken.ofLive := by
  rw [← getElem?_tokenIndex distinct]
  exact Project.getElem?_observation p.reindex name

/-- The current token of a key, where tokens are indexed. -/
theorem Project.current_reindex {p : Live.Project}
    (distinct : (p.spec.roles.map (·.name)).Nodup) (role id : String) :
    p.reindex.observation.current role id =
      (tokenIn p.spec.roles ⟨role, id⟩).map ObservedToken.ofLive := by
  rw [Observation.current, Project.observation_reindex distinct, List.find?_map]
  rfl

/-! ## Putting a token in place -/

theorem find?_putIn (t : Token) (tokens : List Token) (id : String) :
    (t.putIn tokens).find? (·.id = id) =
      if t.id = id then some t else tokens.find? (·.id = id) := by
  induction tokens with
  | nil =>
      rw [Token.putIn, List.find?_cons]
      by_cases h : t.id = id <;> simp [h]
  | cons u rest ih =>
      rw [Token.putIn]
      by_cases hu : u.id = t.id
      · rw [if_pos hu, List.find?_cons]
        by_cases h : t.id = id
        · simp [h]
        · simp [h, hu]
      · rw [if_neg hu, List.find?_cons, List.find?_cons, ih]
        by_cases h : u.id = id
        · have hne : t.id ≠ id := fun heq => hu (h.trans heq.symm)
          simp [h, hne]
        · simp [h]

theorem exists_putInRole? (t : Token) {role : String} {roles : List Role}
    (h : role ∈ roles.map (·.name)) :
    ∃ roles', t.putInRole? role roles = some roles' := by
  induction roles with
  | nil => cases h
  | cons r rest ih =>
      rw [Token.putInRole?]
      by_cases hr : r.name = role
      · exact ⟨_, if_pos hr⟩
      · rw [List.map_cons, List.mem_cons] at h
        obtain ⟨rest', hrest⟩ := ih (h.resolve_left (Ne.symm hr))
        exact ⟨r :: rest', by rw [if_neg hr, hrest, Option.map_some]⟩

/-- A role with its tokens left out. -/
def Role.bare (r : Role) : Role :=
  { r with tokens := [] }

/-- Only tokens change when a token is put in place. -/
theorem bare_putInRole? {t : Token} {role : String} {roles roles' : List Role}
    (h : t.putInRole? role roles = some roles') :
    roles'.map Role.bare = roles.map Role.bare := by
  induction roles generalizing roles' with
  | nil => cases h
  | cons r rest ih =>
      rw [Token.putInRole?] at h
      split at h
      · cases h
        rfl
      · obtain ⟨rest', hrest, rfl⟩ := Option.map_eq_some_iff.mp h
        rw [List.map_cons, List.map_cons, ih hrest]

theorem names_eq_of_bare_eq {roles roles' : List Role}
    (h : roles'.map Role.bare = roles.map Role.bare) :
    roles'.map (·.name) = roles.map (·.name) := by
  have hnames := congrArg (List.map (·.name)) h
  rwa [List.map_map, List.map_map] at hnames

/-- Roles are told by what they are without tokens, and by the tokens that each
of them has. -/
theorem eq_of_bare_eq {roles roles' : List Role}
    (distinct : (roles.map (·.name)).Nodup)
    (bare : roles'.map Role.bare = roles.map Role.bare)
    (tokens : ∀ r ∈ roles, tokensIn roles' r.name = r.tokens) : roles' = roles := by
  induction roles generalizing roles' with
  | nil => exact List.map_eq_nil_iff.mp bare
  | cons r rest ih =>
      cases roles' with
      | nil => cases bare
      | cons r' rest' =>
          rw [List.map_cons, List.map_cons, List.cons.injEq] at bare
          rw [List.map_cons, List.nodup_cons] at distinct
          obtain ⟨hbare, hrest⟩ := bare
          have hname : r'.name = r.name := congrArg (·.name) hbare
          have htokens := tokens r List.mem_cons_self
          rw [← hname, tokensIn_cons_self] at htokens
          have hfirst : r' = r := by
            obtain ⟨name, description, policies, groups, held⟩ := r
            obtain ⟨name', description', policies', groups', held'⟩ := r'
            rw [Role.bare, Role.bare, Role.mk.injEq] at hbare
            obtain ⟨rfl, rfl, rfl, rfl, _⟩ := hbare
            subst htokens
            rfl
          rw [hfirst, ih distinct.2 hrest ?_]
          intro x hx
          have hne : r'.name ≠ x.name := by
            intro heq
            exact distinct.1 (hname ▸ heq ▸ List.mem_map.mpr ⟨x, hx, rfl⟩)
          rw [← tokensIn_cons_of_ne hne]
          exact tokens x (List.mem_cons_of_mem r hx)

/-- The role of a token gets it, and the other roles keep what they have. -/
theorem tokensIn_putInRole? {t : Token} {role : String}
    {roles roles' : List Role} (h : t.putInRole? role roles = some roles')
    (name : String) :
    tokensIn roles' name =
      if name = role then t.putIn (tokensIn roles role) else tokensIn roles name := by
  induction roles generalizing roles' with
  | nil => cases h
  | cons r rest ih =>
      rw [Token.putInRole?] at h
      split at h
      · rename_i hr
        cases h
        subst hr
        by_cases hname : name = r.name
        · subst hname
          rw [if_pos rfl, tokensIn_cons_self r]
          exact tokensIn_cons_self { r with tokens := t.putIn r.tokens } rest
        · have hne : r.name ≠ name := Ne.symm hname
          have hput : ({ r with tokens := t.putIn r.tokens } : Role).name ≠ name :=
            hne
          rw [if_neg hname, tokensIn_cons_of_ne hne, tokensIn_cons_of_ne hput]
      · rename_i hr
        obtain ⟨rest', hrest, rfl⟩ := Option.map_eq_some_iff.mp h
        by_cases hname : r.name = name
        · subst hname
          rw [if_neg hr, tokensIn_cons_self, tokensIn_cons_self]
        · rw [tokensIn_cons_of_ne hname, tokensIn_cons_of_ne hname,
            tokensIn_cons_of_ne hr]
          exact ih hrest

/-- **A token put in place is the one of its key**, and every other key keeps
its own. -/
theorem tokenIn_putInRole? {t : Token} {role : String}
    {roles roles' : List Role} (h : t.putInRole? role roles = some roles')
    (key : TokenKey) :
    tokenIn roles' key =
      if key = ⟨role, t.id⟩ then some t else tokenIn roles key := by
  obtain ⟨name, id⟩ := key
  rw [tokenIn, tokensIn_putInRole? h]
  by_cases hname : name = role
  · subst hname
    rw [if_pos rfl, find?_putIn]
    by_cases hid : t.id = id
    · subst hid
      rw [if_pos rfl, if_pos rfl]
    · rw [if_neg hid, if_neg fun hk => hid (TokenKey.mk.inj hk).2.symm]
      rfl
  · rw [if_neg hname, if_neg fun hk => hname (TokenKey.mk.inj hk).1]
    rfl

end Live

/-! ## The tokens that an update sends -/

/-- Among the tokens kept for a role, the one of a declared spec is the one
that was seen. -/
theorem find?_keptTokens {r : Role} {s : TokenSpec} (hs : s ∈ r.tokens)
    (observation : Observation) :
    (r.keptTokens observation).find? (·.id = s.id) =
      observation.current r.name s.id := by
  rw [Role.keptTokens, List.find?_filterMap]
  change _ = (observation[r.name]?.getD []).find? (·.id = s.id)
  -- a spec gives a token of its own id, so only specs with the id of `s` matter
  have hid : ∀ a : TokenSpec, ∀ t,
      (observation[r.name]?.getD []).find? (·.id = a.id) = some t → t.id = a.id := by
    intro a t ht
    simpa using List.find?_some ht
  cases hseen : (observation[r.name]?.getD []).find? (·.id = s.id) with
  | none =>
      rw [Option.bind_eq_none_iff]
      intro a ha
      have hany := List.find?_some ha
      cases ht : (observation[r.name]?.getD []).find? (·.id = a.id) with
      | none => rfl
      | some t =>
          exfalso
          simp only [ht, Option.any_some, decide_eq_true_eq] at hany
          rw [← hid a t ht, hany, hseen] at ht
          cases ht
  | some t =>
      cases hfirst : r.tokens.find? fun a =>
          ((observation[r.name]?.getD []).find? (·.id = a.id)).any (·.id = s.id) with
      | none =>
          exfalso
          have hnot := List.find?_eq_none.mp hfirst s hs
          rw [hseen, Option.any_some] at hnot
          exact hnot (by simpa using hid s t hseen)
      | some a =>
          have hany := List.find?_some hfirst
          rw [Option.bind_some]
          cases ht : (observation[r.name]?.getD []).find? (·.id = a.id) with
          | none =>
              rw [ht] at hany
              cases hany
          | some u =>
              simp only [ht, Option.any_some, decide_eq_true_eq] at hany
              rw [← hid a u ht, hany, hseen] at ht
              exact ht.symm

theorem names_toLive (roles : List Role) (observation : Observation) :
    (roles.map (·.toLive observation)).map (·.name) = roles.map (·.name) := by
  rw [List.map_map]
  rfl

/-- What is sent for a declared role is what is kept for it. -/
theorem tokensIn_toLive {roles : List Role}
    (distinct : (roles.map (·.name)).Nodup) {r : Role} (hr : r ∈ roles)
    (observation : Observation) :
    Live.tokensIn (roles.map (·.toLive observation)) r.name =
      (r.keptTokens observation).map ObservedToken.toLive := by
  have hnames := names_toLive roles observation
  exact Live.tokensIn_of_mem (hnames ▸ distinct)
    (List.mem_map.mpr ⟨r, hr, rfl⟩)

/-- **The token sent for a declared spec is the current one.** -/
theorem tokenIn_toLive {roles : List Role}
    (distinct : (roles.map (·.name)).Nodup) {slot : String × TokenSpec}
    (hslot : slot ∈ specsOf roles) (observation : Observation) :
    Live.tokenIn (roles.map (·.toLive observation)) (slotKey slot) =
      (observation.current slot.1 slot.2.id).map ObservedToken.toLive := by
  obtain ⟨r, hr, hname, hs⟩ := mem_specsOf.mp hslot
  rw [Live.tokenIn, slotKey, ← hname, tokensIn_toLive distinct hr, List.find?_map]
  exact congrArg _ (find?_keptTokens hs observation)

end Reconcile

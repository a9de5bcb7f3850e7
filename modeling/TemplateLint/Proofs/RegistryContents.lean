import TemplateLint.Proofs.DottedNames
import TemplateLint.Proofs.Registration

/-!
# What a registry holds

Each rule by itself says whether it is at fault and what would be registered for it. A list of rules
is refused with the first fault; without one, the registry holds the entries of the rules in the
order given, and its index lists the places of the listening rules in ascending order.
-/

namespace TemplateLint

variable {σ : Type}

namespace RuleInstance

/-- The identifier of a rule, unless it is ignored. -/
def id? (context : Context) (given : RuleInstance σ) : Option RuleId :=
  match RuleId.ofQualifiedName given.name with
  | .ok id => if context.isRuleIgnored id.text then none else some id
  | .error _ => none

/-- What is wrong with a rule: its name gives no identifier, or it is about single files, is not
ignored and listens for nothing. -/
def fault? (context : Context) (given : RuleInstance σ) : Option LintError :=
  match RuleId.ofQualifiedName given.name with
  | .error _ => some (.invalidRuleName given.name)
  | .ok id =>
      match given with
      | .file rule =>
          if !context.isRuleIgnored id.text && rule.listens.isEmpty then
            some (.emptyRegistration id.text)
          else none
      | .multiFile _ => none

/-- What is registered for a rule about single files. -/
def fileRule? (context : Context) (given : RuleInstance σ) : Option (RegisteredRule σ) :=
  match given with
  | .file rule => (given.id? context).map fun id => ⟨id, rule.listens.eraseDups, rule⟩
  | .multiFile _ => none

/-- What is registered for a rule about all files. -/
def multiFileRule? (context : Context) (given : RuleInstance σ) :
    Option (RegisteredMultiFileRule σ) :=
  match given with
  | .file _ => none
  | .multiFile rule => (given.id? context).map fun id => ⟨id, rule⟩

end RuleInstance

namespace Registry

theorem distinct_append_singleton (types : List TokenType) (t : TokenType) :
    distinct (types ++ [t]) =
      if (distinct types).contains t then distinct types else distinct types ++ [t] := by
  rw [distinct, List.foldl_append]
  rfl

theorem distinct_eq_eraseDups (types : List TokenType) : distinct types = types.eraseDups := by
  induction types using List.reverseRecOn with
  | nil => rfl
  | append_singleton types t ih =>
      rw [distinct_append_singleton, List.eraseDups_append, ← ih]
      by_cases ht : t ∈ types
      · simp [mem_distinct, ht, List.removeAll]
      · simp [mem_distinct, ht, List.removeAll, List.eraseDups_cons]

section Adding

variable {context : Context} {given : RuleInstance σ}

theorem add_of_name {id : RuleId} (r : Registry σ) : RuleId.ofQualifiedName given.name = .ok id →
    add context r given =
      if context.isRuleIgnored id.text then .ok r
      else
        match given with
        | .file rule => r.addFileRule id rule
        | .multiFile rule =>
            .ok { r with multiFileRules := r.multiFileRules ++ [⟨id, rule⟩] } := by
  intro hid
  rw [add, hid]
  rfl

theorem add_of_fault {e : LintError} (h : given.fault? context = some e) (r : Registry σ) :
    add context r given = .error e := by
  cases hid : RuleId.ofQualifiedName given.name with
  | error e' =>
      simp only [RuleInstance.fault?, hid, Option.some.injEq] at h
      rw [add, hid, RuleId.eq_of_ofQualifiedName_error hid, h]
      rfl
  | ok id =>
      cases given with
      | file rule =>
          simp only [RuleInstance.fault?, hid, Option.ite_none_right_eq_some, Bool.and_eq_true,
            Bool.not_eq_true', List.isEmpty_iff, Option.some.injEq] at h
          obtain ⟨⟨hignored, hlistens⟩, rfl⟩ := h
          simp [add_of_name r hid, hignored, addFileRule, hlistens, distinct]
      | multiFile rule => simp [RuleInstance.fault?, hid] at h

/-- What adding a rule that is not at fault does. -/
theorem add_of_sound (h : given.fault? context = none) (r : Registry σ) :
    ∃ r', add context r given = .ok r' ∧
      r'.fileRules = r.fileRules ++ (given.fileRule? context).toList ∧
      r'.multiFileRules = r.multiFileRules ++ (given.multiFileRule? context).toList := by
  cases hid : RuleId.ofQualifiedName given.name with
  | error e => simp [RuleInstance.fault?, hid] at h
  | ok id =>
      have hactive : given.id? context =
          if context.isRuleIgnored id.text then none else some id := by
        simp only [RuleInstance.id?, hid]
      rw [add_of_name r hid]
      by_cases hignored : context.isRuleIgnored id.text
      · rw [if_pos hignored]
        refine ⟨r, rfl, ?_⟩
        cases given <;>
          simp [RuleInstance.fileRule?, RuleInstance.multiFileRule?, hactive, hignored]
      · rw [if_neg hignored]
        cases given with
        | file rule =>
            have hne : rule.listens.eraseDups ≠ [] := by
              have hlistens : rule.listens ≠ [] := by
                simpa [RuleInstance.fault?, hid, hignored] using h
              obtain ⟨t, ht⟩ := List.exists_mem_of_ne_nil _ hlistens
              exact List.ne_nil_of_mem (List.mem_eraseDups.2 ht)
            simp [addFileRule, hne, RuleInstance.fileRule?, RuleInstance.multiFileRule?, hactive,
              hignored, distinct_eq_eraseDups]
        | multiFile rule =>
            simp [RuleInstance.fileRule?, RuleInstance.multiFileRule?, hactive, hignored]

variable {rules : List (RuleInstance σ)}

theorem foldlM_add_of_fault {e : LintError}
    (h : rules.findSome? (·.fault? context) = some e) (r : Registry σ) :
    rules.foldlM (add context) r = .error e := by
  induction rules generalizing r with
  | nil => simp at h
  | cons given rules ih =>
      rw [List.foldlM_cons]
      cases hfault : given.fault? context with
      | some e' =>
          rw [List.findSome?_cons_of_isSome (by simp [hfault]), hfault] at h
          rw [add_of_fault hfault, Option.some.inj h]
          rfl
      | none =>
          obtain ⟨next, hadd, -⟩ := add_of_sound hfault r
          rw [hadd]
          exact ih (by simpa [hfault] using h) next

theorem foldlM_add_of_sound (h : rules.findSome? (·.fault? context) = none) (r : Registry σ) :
    ∃ r', rules.foldlM (add context) r = .ok r' ∧
      r'.fileRules = r.fileRules ++ rules.filterMap (·.fileRule? context) ∧
      r'.multiFileRules = r.multiFileRules ++ rules.filterMap (·.multiFileRule? context) := by
  induction rules generalizing r with
  | nil => exact ⟨r, rfl, by simp⟩
  | cons given rules ih =>
      rw [List.findSome?_eq_none_iff, List.forall_mem_cons] at h
      obtain ⟨next, hadd, hfile, hmulti⟩ := add_of_sound h.1 r
      obtain ⟨r', hrest, hfiles, hmultis⟩ := ih (List.findSome?_eq_none_iff.2 h.2) next
      refine ⟨r', ?_, ?_, ?_⟩
      · rw [List.foldlM_cons, hadd]
        exact hrest
      · rw [hfiles, hfile, List.append_assoc, List.filterMap_cons]
        cases given.fileRule? context <;> rfl
      · rw [hmultis, hmulti, List.append_assoc, List.filterMap_cons]
        cases given.multiFileRule? context <;> rfl

end Adding

section Index

variable {r : Registry σ}

theorem Indexed.pairwise_listeners (h : r.Indexed) (t : TokenType) :
    (r.listeners t).Pairwise (· < ·) := by
  rw [h t]
  exact List.pairwise_lt_range.filter _

theorem Indexed.mem_listeners_iff (h : r.Indexed) (t : TokenType) (i : Nat) :
    i ∈ r.listeners t ↔ ∃ hi : i < r.fileRules.length, t ∈ r.fileRules[i].tokenTypes := by
  rw [h t, List.mem_filter, List.mem_range]
  constructor
  · rintro ⟨hi, ht⟩
    exact ⟨hi, by simpa [hi] using ht⟩
  · rintro ⟨hi, ht⟩
    exact ⟨hi, by simpa [hi] using ht⟩

/-- Every index that is looked up is the place of a rule. -/
theorem Indexed.map_getElem?_listeners (h : r.Indexed) (t : TokenType) :
    (r.listeners t).map (r.fileRules[·]?) = (r.listening t).map some := by
  have hsome : ∀ i ∈ r.listeners t, (r.fileRules[i]?).isSome := by
    intro i hi
    obtain ⟨hlt, -⟩ := (h.mem_listeners_iff t i).1 hi
    simpa using hlt
  rw [listening, List.map_filterMap]
  generalize r.listeners t = indices at hsome
  induction indices with
  | nil => rfl
  | cons i indices ih =>
      rw [List.forall_mem_cons] at hsome
      obtain ⟨e, he⟩ := Option.isSome_iff_exists.1 hsome.1
      simp [he, ih hsome.2]

end Index

end Registry

/-- Rules are refused with the fault of the first rule that has one. Otherwise the registry holds
the entries of the rules that are not ignored, in the order given, and the index lists for each type
of token the places of the rules that listen for it, in ascending order: every place that is looked
up is that of a rule. -/
theorem ofRules_contents (rules : List (RuleInstance σ)) (context : Context) :
    (∀ e, rules.findSome? (·.fault? context) = some e →
      Registry.ofRules rules context = .error e) ∧
    (rules.findSome? (·.fault? context) = none →
      ∃ r, Registry.ofRules rules context = .ok r ∧
        r.fileRules = rules.filterMap (·.fileRule? context) ∧
        r.multiFileRules = rules.filterMap (·.multiFileRule? context) ∧
        ∀ t, (r.listeners t).Pairwise (· < ·) ∧
          (∀ i, i ∈ r.listeners t ↔
            ∃ hi : i < r.fileRules.length, t ∈ r.fileRules[i].tokenTypes) ∧
          (r.listeners t).map (r.fileRules[·]?) = (r.listening t).map some) := by
  constructor
  · intro e h
    exact Registry.foldlM_add_of_fault h Registry.empty
  · intro h
    obtain ⟨r, hr, hfile, hmulti⟩ := Registry.foldlM_add_of_sound h Registry.empty
    have hindexed : r.Indexed := (Registry.wellFormed_ofRules hr).indexed
    refine ⟨r, hr, by simpa [Registry.empty] using hfile, by simpa [Registry.empty] using hmulti,
      fun t => ?_⟩
    exact ⟨hindexed.pairwise_listeners t, hindexed.mem_listeners_iff t,
      hindexed.map_getElem?_listeners t⟩

example :
    let rule (name : String) (types : List TokenType) : RuleInstance Unit :=
      .file ⟨name.toList, types, fun world _ _ => ⟨world, [], .done⟩⟩
    let rules := [rule "R.A.One" [.tab, .space, .tab], rule "R.B.Two" [], rule "R.C.Three" [.space]]
    let context : Context := ⟨{ ignoreRules := ["B".toList] }, .standard, []⟩
    ((Registry.ofRules rules context).toOption.map fun r =>
        (r.fileRules.map RegisteredRule.tokenTypes, r.listeners .space)) =
      some ([[.tab, .space], [.space]], [0, 1]) := by
  cbv

end TemplateLint

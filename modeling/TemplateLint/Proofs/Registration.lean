import Mathlib.Data.List.Basic
import Mathlib.Data.List.Induction
import TemplateLint.Rules.Builtin

/-!
# Registration

The index of a registry lists, for each token type, the places of exactly the rules that listen for
it. So the registry of the rules that come with the linter is known from the list of those rules
that the configuration does not ignore.
-/

namespace TemplateLint

variable {σ : Type}

theorem exists_of_bind_eq_ok {ε α β : Type} {x : Except ε α} {f : α → Except ε β} {b : β}
    (h : x >>= f = .ok b) : ∃ a, x = .ok a ∧ f a = .ok b := by
  cases x with
  | error e => exact absurd h (by simp [bind, Except.bind])
  | ok a => exact ⟨a, rfl, h⟩

def RuleInstance.isFile : RuleInstance σ → Bool
  | file _ => true
  | multiFile _ => false

/-- Whether the configuration ignores a rule. -/
def Context.ignores (context : Context) (given : RuleInstance σ) : Bool :=
  match RuleId.ofQualifiedName given.name with
  | .ok id => context.isRuleIgnored id.text
  | .error _ => false

/-- Whether an entry is what registering its rule leads to, if the rule is not ignored. -/
structure RegisteredRule.IsEntry (e : RegisteredRule σ) : Prop where
  id_eq : RuleId.ofQualifiedName e.rule.name = .ok e.id
  tokenTypes_eq : e.tokenTypes = Registry.distinct e.rule.listens
  tokenTypes_ne_nil : e.tokenTypes ≠ []

namespace Registry

/-- The registry with one more rule about single files. -/
def push (r : Registry σ) (e : RegisteredRule σ) : Registry σ :=
  { r with
    fileRules := r.fileRules ++ [e]
    listeners := fun t =>
      if e.tokenTypes.contains t then r.listeners t ++ [r.fileRules.length] else r.listeners t }

/-- The registry with the given entries and no rules about all files. -/
def ofEntries (es : List (RegisteredRule σ)) : Registry σ := es.foldl push empty

/-- Whether the index lists, for each type, the places of exactly the rules that listen for it. -/
def Indexed (r : Registry σ) : Prop :=
  ∀ t, r.listeners t = (List.range r.fileRules.length).filter fun i =>
    (r.fileRules[i]?).any fun e => e.tokenTypes.contains t

theorem ofEntries_append_singleton (es : List (RegisteredRule σ)) (e : RegisteredRule σ) :
    ofEntries (es ++ [e]) = (ofEntries es).push e := by
  rw [ofEntries, List.foldl_append]
  rfl

theorem fileRules_ofEntries (es : List (RegisteredRule σ)) : (ofEntries es).fileRules = es := by
  induction es using List.reverseRecOn with
  | nil => rfl
  | append_singleton es e ih =>
      rw [ofEntries_append_singleton, push, ih]

theorem multiFileRules_ofEntries (es : List (RegisteredRule σ)) :
    (ofEntries es).multiFileRules = [] := by
  induction es using List.reverseRecOn with
  | nil => rfl
  | append_singleton es e ih =>
      rw [ofEntries_append_singleton, push, ih]

theorem indexed_push {r : Registry σ} (h : r.Indexed) (e : RegisteredRule σ) :
    (r.push e).Indexed := by
  intro t
  have hold : (List.range r.fileRules.length).filter (fun i =>
      ((r.fileRules ++ [e])[i]?).any fun e => e.tokenTypes.contains t) = r.listeners t := by
    rw [h t]
    apply List.filter_congr
    intro i hi
    rw [List.getElem?_append_left (List.mem_range.1 hi)]
  have hlen : (r.push e).fileRules.length = r.fileRules.length + 1 := by simp [push]
  rw [hlen, List.range_succ, List.filter_append]
  change _ = (List.range r.fileRules.length).filter (fun i =>
      ((r.fileRules ++ [e])[i]?).any fun e => e.tokenTypes.contains t) ++
    [r.fileRules.length].filter (fun i =>
      ((r.fileRules ++ [e])[i]?).any fun e => e.tokenTypes.contains t)
  rw [hold, List.filter_cons, List.getElem?_concat_length, Option.any_some]
  change (if e.tokenTypes.contains t then r.listeners t ++ [r.fileRules.length]
    else r.listeners t) = _
  by_cases ht : e.tokenTypes.contains t
  · rw [if_pos ht, if_pos ht, List.filter_nil]
  · rw [if_neg ht, if_neg ht, List.filter_nil, List.append_nil]

theorem indexed_ofEntries (es : List (RegisteredRule σ)) : (ofEntries es).Indexed := by
  induction es using List.reverseRecOn with
  | nil => intro t; rfl
  | append_singleton es e ih =>
      rw [ofEntries_append_singleton]
      exact indexed_push ih e

private theorem filterMap_filter_range {α : Type} (l : List α) (p : α → Bool) :
    ((List.range l.length).filter fun i => (l[i]?).any p).filterMap
        (fun i => (l[i]?).map (i, ·)) = (l.zipIdx.filter fun a => p a.1).map Prod.swap := by
  induction l using List.reverseRecOn with
  | nil => rfl
  | append_singleton l a ih =>
      have hold : ((List.range l.length).filter fun i => ((l ++ [a])[i]?).any p).filterMap
          (fun i => ((l ++ [a])[i]?).map (i, ·)) =
            (l.zipIdx.filter fun a => p a.1).map Prod.swap := by
        rw [← ih]
        have hget (i : Nat) (hi : i ∈ List.range l.length) : (l ++ [a])[i]? = l[i]? :=
          List.getElem?_append_left (List.mem_range.1 hi)
        rw [List.filter_congr fun i hi => by rw [hget i hi]]
        apply List.filterMap_congr
        intro i hi
        rw [hget i (List.mem_of_mem_filter hi)]
      rw [List.length_append, List.length_singleton, List.range_succ, List.filter_append,
        List.filterMap_append, hold, List.zipIdx_append, List.filter_append, List.map_append]
      by_cases ha : p a
      · simp [ha]
      · simp [ha]

/-- The rules that listen for a type, each with its place among the registered rules. -/
def listeningAt (r : Registry σ) (t : TokenType) : List (Nat × RegisteredRule σ) :=
  (r.listeners t).filterMap fun index => (r.fileRules[index]?).map (index, ·)

theorem listening_eq_map (r : Registry σ) (t : TokenType) :
    r.listening t = (r.listeningAt t).map Prod.snd := by
  rw [listening, listeningAt, List.map_filterMap]
  congr 1
  funext index
  rw [Option.map_map]
  exact Option.map_id'.symm

/-- With a correct index, the rules that are called are those that listen, in order. -/
theorem listeningAt_eq {r : Registry σ} (h : r.Indexed) (t : TokenType) :
    r.listeningAt t =
      (r.fileRules.zipIdx.filter fun a => a.1.tokenTypes.contains t).map Prod.swap := by
  rw [listeningAt, h t]
  exact filterMap_filter_range r.fileRules _

theorem listening_ofEntries (es : List (RegisteredRule σ)) (t : TokenType) :
    (ofEntries es).listening t = es.filter fun e => e.tokenTypes.contains t := by
  rw [listening_eq_map, listeningAt_eq (indexed_ofEntries es), fileRules_ofEntries, List.map_map]
  nth_rewrite 2 [← List.zipIdx_map_fst 0 es]
  rw [List.filter_map]
  rfl

theorem add_file (context : Context) (r : Registry σ) {e : RegisteredRule σ} (h : e.IsEntry) :
    add context r (.file e.rule) =
      .ok (if context.isRuleIgnored e.id.text then r else r.push e) := by
  have hadd : r.addFileRule e.id e.rule = .ok (r.push e) := by
    rw [addFileRule, ← h.tokenTypes_eq, if_neg h.tokenTypes_ne_nil]
    rfl
  rw [add]
  change (RuleId.ofQualifiedName e.rule.name >>= _) = _
  rw [h.id_eq]
  change (if context.isRuleIgnored e.id.text then pure r else r.addFileRule e.id e.rule) = _
  by_cases hi : context.isRuleIgnored e.id.text
  · rw [if_pos hi, if_pos hi]
    rfl
  · rw [if_neg hi, if_neg hi, hadd]

theorem mem_distinct (types : List TokenType) (t : TokenType) :
    t ∈ distinct types ↔ t ∈ types := by
  induction types using List.reverseRecOn with
  | nil => rfl
  | append_singleton types a ih =>
      rw [distinct, List.foldl_append, List.foldl_cons, List.foldl_nil, ← distinct,
        List.mem_append, ← ih, List.mem_singleton]
      split
      next ha =>
        have hmem : a ∈ distinct types := List.contains_iff_mem.1 ha
        constructor
        · exact Or.inl
        · rintro (h | rfl)
          · exact h
          · exact hmem
      next => rw [List.mem_append, List.mem_singleton]

/-- What adding a rule can come to if it is not refused. -/
theorem add_eq_ok {context : Context} {r r' : Registry σ} {given : RuleInstance σ}
    (h : add context r given = .ok r') :
    (context.ignores given = true ∧ r' = r) ∨
      (context.ignores given = false ∧
        ((∃ e : RegisteredRule σ, e.IsEntry ∧ given = .file e.rule ∧ r' = r.push e) ∨
          ∃ e : RegisteredMultiFileRule σ, given = .multiFile e.rule ∧
            r' = { r with multiFileRules := r.multiFileRules ++ [e] })) := by
  rw [add] at h
  rw [Context.ignores]
  cases hid : RuleId.ofQualifiedName given.name with
  | error e =>
      rw [hid] at h
      exact absurd h (by simp [bind, Except.bind])
  | ok id =>
      rw [hid] at h
      simp only [bind, Except.bind] at h
      split at h
      next hignored => exact Or.inl ⟨hignored, (Except.ok.inj h).symm⟩
      next hignored =>
        refine Or.inr ⟨Bool.eq_false_iff.2 hignored, ?_⟩
        cases given with
        | file rule =>
            change r.addFileRule id rule = .ok r' at h
            rw [addFileRule] at h
            split at h
            next => exact absurd h (by simp)
            next hne =>
              exact Or.inl ⟨⟨id, distinct rule.listens, rule⟩, ⟨hid, rfl, hne⟩, rfl,
                (Except.ok.inj h).symm⟩
        | multiFile rule => exact Or.inr ⟨⟨id, rule⟩, rfl, (Except.ok.inj h).symm⟩

/-- Whether the index is right and every entry is what registering its rule leads to. -/
structure WellFormed (r : Registry σ) : Prop where
  indexed : r.Indexed
  isEntry : ∀ e ∈ r.fileRules, e.IsEntry

theorem WellFormed.add {context : Context} {r r' : Registry σ} {given : RuleInstance σ}
    (hr : r.WellFormed) (h : add context r given = .ok r') : r'.WellFormed := by
  rcases add_eq_ok h with ⟨-, rfl⟩ | ⟨-, ⟨e, he, -, rfl⟩ | ⟨e, -, rfl⟩⟩
  · exact hr
  · refine ⟨indexed_push hr.indexed e, ?_⟩
    intro e' he'
    rcases List.mem_append.1 he' with he' | he'
    · exact hr.isEntry e' he'
    · rw [List.mem_singleton.1 he']
      exact he
  · exact ⟨hr.indexed, hr.isEntry⟩

/-- Rules that are not refused are added one by one. -/
theorem foldlM_add_cons {context : Context} {r r' : Registry σ} {given : RuleInstance σ}
    {rules : List (RuleInstance σ)} (h : (given :: rules).foldlM (add context) r = .ok r') :
    ∃ next, add context r given = .ok next ∧ rules.foldlM (add context) next = .ok r' := by
  rw [List.foldlM_cons] at h
  exact exists_of_bind_eq_ok h

theorem WellFormed.foldlM {context : Context} {rules : List (RuleInstance σ)}
    {r r' : Registry σ} (hr : r.WellFormed) (h : rules.foldlM (Registry.add context) r = .ok r') :
    r'.WellFormed := by
  induction rules generalizing r with
  | nil =>
      rw [← Except.ok.inj h]
      exact hr
  | cons given rules ih =>
      obtain ⟨next, hadd, hrest⟩ := foldlM_add_cons h
      exact ih (hr.add hadd) hrest

theorem wellFormed_ofRules {context : Context} {rules : List (RuleInstance σ)} {r : Registry σ}
    (h : ofRules rules context = .ok r) : r.WellFormed := by
  have hempty : (empty : Registry σ).WellFormed := ⟨indexed_ofEntries [], by simp [empty]⟩
  exact hempty.foldlM h

/-- The rules of a registry as they were given, those about single files. -/
def givenFileRules (r : Registry σ) : List (RuleInstance σ) :=
  r.fileRules.map fun e => .file e.rule

/-- The rules of a registry as they were given, those about all files. -/
def givenMultiFileRules (r : Registry σ) : List (RuleInstance σ) :=
  r.multiFileRules.map fun e => .multiFile e.rule

theorem foldlM_add_given {context : Context} {rules : List (RuleInstance σ)} {r r' : Registry σ}
    (h : rules.foldlM (add context) r = .ok r') :
    r'.givenFileRules =
        r.givenFileRules ++ rules.filter (fun given => given.isFile && !context.ignores given) ∧
      r'.givenMultiFileRules = r.givenMultiFileRules ++
        rules.filter (fun given => !given.isFile && !context.ignores given) := by
  induction rules generalizing r with
  | nil =>
      rw [← Except.ok.inj h]
      simp
  | cons given rules ih =>
      obtain ⟨next, hadd, hrest⟩ := foldlM_add_cons h
      obtain ⟨hfile, hmulti⟩ := ih hrest
      rw [hfile, hmulti]
      rcases add_eq_ok hadd with ⟨hi, rfl⟩ | ⟨hi, ⟨e, -, rfl, rfl⟩ | ⟨e, rfl, rfl⟩⟩
      · simp [hi]
      · simp [hi, RuleInstance.isFile, givenFileRules, givenMultiFileRules, push]
      · simp [hi, RuleInstance.isFile, givenFileRules, givenMultiFileRules]

/-- The rules of a registry are the given ones that are not ignored, in the order given. -/
theorem given_ofRules {context : Context} {rules : List (RuleInstance σ)} {r : Registry σ}
    (h : ofRules rules context = .ok r) :
    r.givenFileRules = rules.filter (fun given => given.isFile && !context.ignores given) ∧
      r.givenMultiFileRules =
        rules.filter (fun given => !given.isFile && !context.ignores given) := by
  simpa [empty, givenFileRules, givenMultiFileRules] using foldlM_add_given h

theorem ofRules_map_file (context : Context) {es : List (RegisteredRule σ)}
    (h : ∀ e ∈ es, e.IsEntry) :
    ofRules (es.map fun e => .file e.rule) context =
      .ok (ofEntries (es.filter fun e => !context.isRuleIgnored e.id.text)) := by
  have hfold (r : Registry σ) : (es.map fun e => RuleInstance.file e.rule).foldlM (add context) r =
      .ok ((es.filter fun e => !context.isRuleIgnored e.id.text).foldl push r) := by
    induction es generalizing r with
    | nil => rfl
    | cons e es ih =>
        rw [List.map_cons, List.foldlM_cons, add_file context r (h e List.mem_cons_self)]
        change ((es.map fun e => RuleInstance.file e.rule).foldlM (add context) _) = _
        rw [ih fun e' he' => h e' (List.mem_cons_of_mem _ he')]
        by_cases hi : context.isRuleIgnored e.id.text
        · simp [hi]
        · simp [hi]
  exact hfold empty

end Registry

/-- The rules that come with the linter as they are registered if none is ignored. -/
def builtinEntries : List (RegisteredRule σ) :=
  [⟨⟨"Commenting".toList, "FileNoComment".toList⟩, [.newLine], Rules.fileNoComment⟩,
    ⟨⟨"Commenting".toList, "Fixme".toList⟩, [.comment, .docComment, .htmlComment], Rules.fixme⟩,
    ⟨⟨"Commenting".toList, "NoHTMLComment".toList⟩, [.htmlComment], Rules.noHtmlComment⟩,
    ⟨⟨"Commenting".toList, "Todo".toList⟩, [.comment, .docComment], Rules.todo⟩,
    ⟨⟨"Files".toList, "EndFileNewline".toList⟩, [.newLine], Rules.endFileNewline⟩,
    ⟨⟨"Files".toList, "LineEndings".toList⟩, [.newLine], Rules.lineEndings⟩,
    ⟨⟨"Indent".toList, "DisallowTabIndent".toList⟩, [.tab], Rules.disallowTabIndent⟩,
    ⟨⟨"Whitespace".toList, "SuperfluousWhitespace".toList⟩, [.newLine],
      Rules.superfluousWhitespace⟩,
    ⟨⟨"Whitespace".toList, "TagsWhitespace".toList⟩, [.tag], Rules.tagsWhitespace⟩]

theorem builtinRules_eq : (builtinRules : List (RuleInstance σ)) =
    builtinEntries.map fun e => .file e.rule := rfl

theorem isEntry_of_mem_builtinEntries {e : RegisteredRule σ} (h : e ∈ builtinEntries) :
    e.IsEntry := by
  simp only [builtinEntries, List.mem_cons, List.not_mem_nil, or_false] at h
  rcases h with rfl | rfl | rfl | rfl | rfl | rfl | rfl | rfl | rfl <;>
    exact ⟨by cbv, rfl, by simp⟩

/-- The entries of the rules that come with the linter and are not ignored. -/
def Context.builtinEntries (context : Context) : List (RegisteredRule σ) :=
  TemplateLint.builtinEntries.filter fun e => !context.isRuleIgnored e.id.text

/-- The linter that a valid configuration leads to. -/
def Context.builtinLinter (context : Context) : Linter Unit where
  context := context
  registry := .ofEntries context.builtinEntries
  world := ()
  files := []
  failures := []

theorem withBuiltinRules_eq (config : Config) :
    Linter.withBuiltinRules config = (Context.ofConfig config).map Context.builtinLinter := by
  rw [Linter.withBuiltinRules, Linter.ofRules, builtinRules_eq]
  cases Context.ofConfig config with
  | error e => rfl
  | ok context =>
      change (Registry.ofRules _ context >>= _) = _
      rw [Registry.ofRules_map_file context fun e => isEntry_of_mem_builtinEntries]
      rfl

theorem Config.delimiters_of_markup {config : Config} {m : Markup} (h : config.markup = .ok m) :
    m.left = config.leftDelimiter ∧ m.right = config.rightDelimiter := by
  rw [markup, Delimiters.ofTexts] at h
  split at h
  · exact absurd h (by simp [bind, Except.bind])
  · split at h
    · exact absurd h (by simp [bind, Except.bind])
    · rw [← Except.ok.inj h]
      exact ⟨rfl, rfl⟩

theorem Context.ofConfig_eq_ok {config : Config} {compiles : Text → Bool} {c : Context}
    (h : ofConfig config compiles = .ok c) :
    config.markup = .ok c.markup ∧
      IgnorePatterns.ofScopes config.ignorePatterns compiles = .ok c.patterns ∧
      c.config = config := by
  rw [ofConfig] at h
  obtain ⟨markup, hmarkup, h⟩ := exists_of_bind_eq_ok h
  obtain ⟨patterns, hpatterns, h⟩ := exists_of_bind_eq_ok h
  rw [← Except.ok.inj h]
  exact ⟨hmarkup, hpatterns, rfl⟩

/-- A linter starts with the rules that were accepted and has nothing to report. -/
theorem Linter.ofRules_eq_ok {config : Config} {rules : List (RuleInstance σ)} {world : σ}
    {l : Linter σ} (h : ofRules config rules world = .ok l) :
    Registry.ofRules rules l.context = .ok l.registry ∧ l.files = [] ∧ l.failures = [] := by
  rw [ofRules] at h
  obtain ⟨context, -, h⟩ := exists_of_bind_eq_ok h
  obtain ⟨registry, hregistry, h⟩ := exists_of_bind_eq_ok h
  rw [← Except.ok.inj h]
  exact ⟨hregistry, rfl, rfl⟩

section Compilers

variable {compiles : Text → Bool}

theorem IgnorePatterns.ofScopes_of_compiles {scopes : SortedMap Text (List Text)}
    {ps : IgnorePatterns} (h : ofScopes scopes compiles = .ok ps) : ofScopes scopes = .ok ps := by
  rw [ofScopes] at h ⊢
  generalize scopes.flatMap (fun a => a.2.map fun pattern => (a.1, pattern)) = pairs at h
  induction pairs generalizing ps with
  | nil => exact h
  | cons a pairs ih =>
      rw [List.mapM_cons] at h ⊢
      obtain ⟨p, hp, h⟩ := exists_of_bind_eq_ok h
      obtain ⟨rest, hrest, h⟩ := exists_of_bind_eq_ok h
      dsimp only at hp
      rw [IgnorePattern.ofText] at hp
      split at hp
      · rw [ih hrest, ← h, ← Except.ok.inj hp]
        rfl
      · exact absurd hp (by simp)

/-- Whatever is too large to be compiled, a configuration that is accepted gives the linter that it
gives if nothing is. So what holds of that linter holds under every limit. -/
theorem Linter.ofRules_of_compiles {config : Config} {rules : List (RuleInstance σ)} {world : σ}
    {l : Linter σ} (h : ofRules config rules world compiles = .ok l) :
    ofRules config rules world = .ok l := by
  rw [ofRules] at h ⊢
  obtain ⟨context, hcontext, h⟩ := exists_of_bind_eq_ok h
  have haccepted : Context.ofConfig config = .ok context := by
    rw [Context.ofConfig] at hcontext ⊢
    obtain ⟨markup, hmarkup, hcontext⟩ := exists_of_bind_eq_ok hcontext
    obtain ⟨patterns, hpatterns, hcontext⟩ := exists_of_bind_eq_ok hcontext
    rw [hmarkup, IgnorePatterns.ofScopes_of_compiles hpatterns, ← hcontext]
    rfl
  rw [haccepted, ← h]
  rfl

end Compilers

/-- The linter with the rules that come with it is known from the context of its configuration. -/
theorem exists_context_of_withBuiltinRules {config : Config} {l : Linter Unit}
    (h : Linter.withBuiltinRules config = .ok l) :
    ∃ c, Context.ofConfig config = .ok c ∧ l = c.builtinLinter := by
  rw [withBuiltinRules_eq] at h
  cases hc : Context.ofConfig config with
  | error e =>
      rw [hc] at h
      exact absurd h (by simp [Except.map])
  | ok c =>
      rw [hc] at h
      exact ⟨c, rfl, (Except.ok.inj h).symm⟩

end TemplateLint

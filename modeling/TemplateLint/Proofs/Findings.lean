import TemplateLint.Proofs.DottedNames
import TemplateLint.Proofs.LineNumbers
import TemplateLint.Proofs.Reporters

/-!
# Findings

What reporters find in a file is a list that depends on the file alone. Checking the file comes to
that list, less what is suppressed; the places where suppression is looked at (the rule that is
passed over, the diagnostic that is dropped) never disagree. A run reports this for every file.
-/

namespace TemplateLint

variable {σ : Type}

section Scopes

/-- A scope that covers a rule covers everything that the rule reports. -/
theorem scopeCovers_sourceFor {scope : Text} {id : RuleId} (h : scopeCovers scope id.text)
    (code : Text) : scopeCovers scope (id.sourceFor code) := by
  have hown := id.scopeCovers_text_sourceFor code
  rw [scopeCovers_iff_dottedParts] at *
  exact h.trans hown

theorem Context.isRuleIgnored_sourceFor {c : Context} {id : RuleId} (h : c.isRuleIgnored id.text)
    (code : Text) : c.isRuleIgnored (id.sourceFor code) := by
  obtain ⟨scope, hmem, hcovers⟩ := List.any_eq_true.1 h
  exact List.any_eq_true.2 ⟨scope, hmem, scopeCovers_sourceFor hcovers code⟩

theorem IgnorePatterns.suppresses_sourceFor {ps : IgnorePatterns} {path : Text} {id : RuleId}
    (h : ps.suppresses path id.text) (code : Text) : ps.suppresses path (id.sourceFor code) := by
  obtain ⟨p, hmem, hp⟩ := List.any_eq_true.1 h
  refine List.any_eq_true.2 ⟨p, hmem, ?_⟩
  simp only [IgnorePattern.appliesTo, Bool.and_eq_true, Bool.or_eq_true] at hp ⊢
  refine ⟨?_, hp.2⟩
  rcases hp.1 with hglobal | hcovers
  · exact Or.inl hglobal
  · exact Or.inr (scopeCovers_sourceFor hcovers code)

theorem Context.isSuppressed_sourceFor {c : Context} {path : Text} {id : RuleId}
    (h : c.isSuppressed path id.text) (code : Text) : c.isSuppressed path (id.sourceFor code) := by
  rw [Context.isSuppressed, Bool.or_eq_true] at h ⊢
  rcases h with h | h
  · exact Or.inl (c.isRuleIgnored_sourceFor h code)
  · exact Or.inr (IgnorePatterns.suppresses_sourceFor h code)

end Scopes

namespace RegisteredRule

variable {e : RegisteredRule σ} {f g : CheckedFile}

/-- What a rule reports at a position if nothing is suppressed. -/
def findings (e : RegisteredRule σ) (world : σ) (f : CheckedFile) (position : Nat) :
    List Diagnostic :=
  let entered := f.setActiveRule (some e.id)
  (e.rule.process world entered position).changes.filterMap (FileChange.diagnostic? entered)

/-- What a rule without memory finds is what it reports of the tokens. -/
theorem findings_ofTokens {name : Text} {listens : List TokenType}
    {check : CheckedFile → TokenStream → Nat → List FileOp × Ending}
    (hrule : e.rule = .ofTokens name listens check) {tokens : TokenStream}
    (htokens : f.tokens = some tokens) (world : σ) (i : Nat) :
    e.findings world f i =
      (check (f.setActiveRule (some e.id)) tokens i).1.filterMap
        (FileOp.diagnostic? (f.setActiveRule (some e.id))) := by
  have hrequire : (f.setActiveRule (some e.id)).requireTokens = .ok tokens := by
    simp only [CheckedFile.requireTokens, CheckedFile.setActiveRule, htokens]
  simp only [findings, hrule, FileRule.ofTokens, hrequire,
    FileChange.filterMap_diagnostic?_map_edit]

theorem findings_congr (he : e.rule.IsReporter) (h : f.SameView g) (world : σ) (position : Nat) :
    e.findings world f position = e.findings world g position := by
  have hview := h.setActiveRule (some e.id)
  rw [findings, findings, he.process_congr world _ _ position hview]
  congr 1
  funext change
  exact FileChange.diagnostic?_congr hview rfl change

theorem source_of_mem_findings (he : e.rule.IsReporter) {world : σ} {position : Nat}
    {d : Diagnostic} (h : d ∈ e.findings world f position) :
    ∃ code, d.source = e.id.sourceFor code := by
  obtain ⟨change, hchange, hd⟩ := List.mem_filterMap.1 h
  exact (he.isReport world _ position change hchange).source rfl hd

/-- A rule whose identifier is suppressed has only suppressed findings. -/
theorem kept_findings_eq_nil (he : e.rule.IsReporter) {c : Context} {path : Text}
    (h : c.isSuppressed path e.id.text) (world : σ) (f : CheckedFile) (position : Nat) :
    c.kept path (e.findings world f position) = [] := by
  rw [Context.kept, List.filter_eq_nil_iff]
  intro d hd
  obtain ⟨code, hsource⟩ := source_of_mem_findings he hd
  rw [hsource, c.isSuppressed_sourceFor h code]
  simp

end RegisteredRule

/-- Whether a file is about to be checked: no rule is at work, and the tokens are kept and on lines
that do not descend. -/
structure CheckedFile.Ready (f : CheckedFile) (tokens : TokenStream) : Prop where
  activeRule : f.activeRule = none
  tokens_eq : f.tokens = some tokens
  lines : tokens.Pairwise fun t u => t.line ≤ u.line

section Dispatch

variable {f : CheckedFile} {tokens : TokenStream} {position : Nat}

/-- A call appends the findings that are not suppressed to the log. -/
theorem RegisteredRule.call_withLog {e : RegisteredRule σ} (he : e.rule.IsReporter)
    (hf : f.Ready tokens) (hposition : position < tokens.length) (world : σ)
    (log : List Diagnostic) :
    e.call position world (f.withLog log) =
      ⟨world, f.withLog (log ++ f.kept (e.findings world f position)), .done⟩ := by
  let entered := f.setActiveRule (some e.id)
  have hprocess : e.rule.process world (entered.withLog log) position =
      e.rule.process world entered position :=
    he.process_congr world _ _ position (entered.sameView_withLog log)
  have hending := he.ending_eq world entered position tokens hf.tokens_eq hf.lines hposition
  have hchanges := FileChange.applyAll_withLog entered log _ (he.isReport world entered position)
  have hleave (log : List Diagnostic) : (entered.withLog log).setActiveRule none =
      f.withLog log := by
    rw [CheckedFile.setActiveRule_withLog]
    change ({ f with activeRule := none } : CheckedFile).withLog log = _
    rw [← hf.activeRule]
  have henter : (f.withLog log).setActiveRule (some e.id) = entered.withLog log :=
    f.setActiveRule_withLog log _
  unfold RegisteredRule.call
  dsimp only
  rw [henter, hprocess, hending]
  dsimp only
  rw [hchanges, he.world_eq, hleave]
  rfl

/-- Passing over a rule that is suppressed loses nothing: its findings would be dropped. -/
theorem callAll_withLog {es : List (RegisteredRule σ)} (hes : ∀ e ∈ es, e.rule.IsReporter)
    (hf : f.Ready tokens) (hposition : position < tokens.length) (world : σ)
    (log : List Diagnostic) :
    callAll position es world (f.withLog log) =
      ⟨world, f.withLog (log ++ f.kept (es.flatMap fun e => e.findings world f position)),
        .done⟩ := by
  induction es generalizing log with
  | nil => simp [callAll, CheckedFile.kept, Context.kept]
  | cons e es ih =>
      have he := hes e List.mem_cons_self
      have htail := fun log => ih (fun e' he' => hes e' (List.mem_cons_of_mem _ he')) log
      rw [callAll, List.flatMap_cons, CheckedFile.kept_append]
      by_cases hsup : f.context.patterns.suppresses f.path e.id.text
      · have hnil : f.kept (e.findings world f position) = [] := by
          apply RegisteredRule.kept_findings_eq_nil he
          rw [Context.isSuppressed, hsup, Bool.or_true]
        rw [hnil, List.nil_append, ← htail log]
        exact if_pos hsup
      · rw [RegisteredRule.call_withLog he hf hposition world log, ← List.append_assoc, ← htail]
        exact if_neg hsup

namespace Registry

/-- What the rules of a registry report about tokens, the first of which is at `position`, if
nothing is suppressed and no token opts out. -/
def findings (r : Registry σ) (world : σ) (f : CheckedFile) : Nat → TokenStream → List Diagnostic
  | _, [] => []
  | position, t :: rest =>
      ((r.listening t.type).flatMap fun e => e.findings world f position) ++
        r.findings world f (position + 1) rest

/-- Whatever is found is found by a rule at a token that it listens for. -/
theorem exists_getElem?_of_mem_findings {r : Registry σ} {world : σ} {d : Diagnostic}
    (h : d ∈ r.findings world f position tokens) :
    ∃ i t, tokens[i]? = some t ∧
      ∃ e ∈ r.listening t.type, d ∈ e.findings world f (position + i) := by
  induction tokens generalizing position with
  | nil => exact absurd h List.not_mem_nil
  | cons t rest ih =>
      rw [findings] at h
      rcases List.mem_append.1 h with h | h
      · exact ⟨0, t, rfl, List.mem_flatMap.1 h⟩
      · obtain ⟨i, u, hu, e, he, hd⟩ := ih h
        rw [Nat.add_assoc, Nat.add_comm 1 i] at hd
        exact ⟨i + 1, u, hu, e, he, hd⟩

/-- The walk appends what it finds, token by token, unless a token opts out. -/
theorem walk_withLog {r : Registry σ} (hr : ∀ t, ∀ e ∈ r.listening t, e.rule.IsReporter)
    (hf : f.Ready tokens) (world : σ) (rest : TokenStream) (log : List Diagnostic)
    (hrest : tokens.drop position = rest) :
    r.walk position rest world (f.withLog log) =
      ⟨world, f.withLog (if rest.any Token.optsOut then []
        else log ++ f.kept (r.findings world f position rest)), .done⟩ := by
  induction rest generalizing position log with
  | nil => simp [walk, findings, CheckedFile.kept, Context.kept]
  | cons t rest ih =>
      have hposition : position < tokens.length := by
        have hlen := congrArg List.length hrest
        simp only [List.length_drop, List.length_cons] at hlen
        omega
      have hdrop : tokens.drop (position + 1) = rest := by
        rw [← List.drop_drop, hrest]
        rfl
      rw [walk, List.any_cons]
      by_cases ht : t.optsOut
      · rw [if_pos ht, CheckedFile.clearDiagnostics_withLog, ht]
        rfl
      · rw [if_neg ht, callAll_withLog (hr t.type) hf hposition world log]
        dsimp only
        rw [ih _ hdrop, List.append_assoc, ← CheckedFile.kept_append, Bool.eq_false_iff.2 ht]
        rfl

theorem dispatch_withLog {r : Registry σ} (hr : ∀ t, ∀ e ∈ r.listening t, e.rule.IsReporter)
    (hf : f.Ready tokens) (world : σ) (log : List Diagnostic) :
    r.dispatch world (f.withLog log) =
      ⟨world, f.withLog (if tokens.any Token.optsOut then []
        else log ++ f.kept (r.findings world f 0 tokens)), .done⟩ := by
  have htokens : (f.withLog log).requireTokens = .ok tokens := by
    simp only [CheckedFile.requireTokens, CheckedFile.withLog, hf.tokens_eq]
  rw [dispatch, htokens]
  exact walk_withLog hr hf world tokens log rfl

end Registry

end Dispatch

end TemplateLint

import TemplateLint.Proofs.Runs

/-!
# Suppression is a filter

Ignoring rules and paths does to a report what filtering it afterwards would do, although it is
looked at in four places: before a file is opened, when rules are registered, before a rule is
called, and when a diagnostic is reported.
-/

namespace TemplateLint

/-- The settings with nothing ignored. -/
def Config.withoutIgnores (c : Config) : Config :=
  { c with ignoreRules := [], ignorePatterns := [] }

namespace Context

/-- The context with nothing ignored. -/
def withoutIgnores (c : Context) : Context :=
  { c with config := c.config.withoutIgnores, patterns := [] }

theorem ofConfig_withoutIgnores {config : Config} {c : Context} (h : ofConfig config = .ok c) :
    ofConfig config.withoutIgnores = .ok c.withoutIgnores := by
  obtain ⟨hmarkup, -, hconfig⟩ := ofConfig_eq_ok h
  have hsame : config.withoutIgnores.markup = .ok c.markup := hmarkup
  rw [ofConfig, hsame, withoutIgnores, hconfig]
  rfl

theorem kept_withoutIgnores (c : Context) (path : Text) (ds : List Diagnostic) :
    c.withoutIgnores.kept path ds = ds := by
  rw [kept, List.filter_eq_self]
  intro d _
  rfl

theorem builtinEntries_withoutIgnores (c : Context) :
    (c.withoutIgnores.builtinEntries : List (RegisteredRule Unit)) =
      TemplateLint.builtinEntries := by
  rw [builtinEntries, List.filter_eq_self]
  intro e _
  rfl

/-- A file looks the same to reporters whether or not anything is ignored. -/
theorem sameView_opened_withoutIgnores (c : Context) (path contents : Text) :
    (c.builtinLinter.opened path contents).SameView
      (c.withoutIgnores.builtinLinter.opened path contents) :=
  ⟨rfl, rfl, rfl, rfl, rfl⟩

end Context

variable {σ : Type}

/-- Leaving ignored rules out drops only findings that are suppressed. -/
theorem kept_flatMap_findings_filter (c : Context) (path : Text) {es : List (RegisteredRule σ)}
    (hes : ∀ e ∈ es, e.rule.IsReporter) {f g : CheckedFile} (hview : f.SameView g) (world : σ)
    (position : Nat) :
    c.kept path ((es.filter fun e => !c.isRuleIgnored e.id.text).flatMap fun e =>
        e.findings world f position) =
      c.kept path (es.flatMap fun e => e.findings world g position) := by
  induction es with
  | nil => rfl
  | cons e es ih =>
      have he := hes e List.mem_cons_self
      have htail := ih fun e' he' => hes e' (List.mem_cons_of_mem _ he')
      rw [List.flatMap_cons, Context.kept_append]
      by_cases hi : c.isRuleIgnored e.id.text
      · have hsup : c.isSuppressed path e.id.text := by
          rw [Context.isSuppressed, hi, Bool.true_or]
        have hnil := RegisteredRule.kept_findings_eq_nil he hsup world g position
        rw [List.filter_cons_of_neg (by simp [hi]), hnil, List.nil_append, htail]
      · rw [List.filter_cons_of_pos (by simp [hi]), List.flatMap_cons, Context.kept_append,
          RegisteredRule.findings_congr he hview, htail]

namespace Context

theorem kept_registry_findings (c : Context) (path : Text) {f g : CheckedFile}
    (hview : f.SameView g) (tokens : TokenStream) (position : Nat) :
    c.kept path (c.builtinLinter.registry.findings () f position tokens) =
      c.kept path (c.withoutIgnores.builtinLinter.registry.findings () g position tokens) := by
  induction tokens generalizing position with
  | nil => rfl
  | cons t tokens ih =>
      have hlistening : c.builtinLinter.registry.listening t.type =
          (c.withoutIgnores.builtinLinter.registry.listening t.type).filter fun e =>
            !c.isRuleIgnored e.id.text := by
        rw [builtinLinter, builtinLinter, Registry.listening_ofEntries,
          Registry.listening_ofEntries, builtinEntries_withoutIgnores, builtinEntries,
          List.filter_filter, List.filter_filter]
        congr 1
        funext e
        exact Bool.and_comm _ _
      have hhead := kept_flatMap_findings_filter c path
        ((onlyReports_builtinLinter c.withoutIgnores).isReporter t.type) hview () position
      rw [← hlistening] at hhead
      rw [Registry.findings, Registry.findings, kept_append, kept_append, hhead, ih]

theorem kept_findings_withoutIgnores (c : Context) (path contents : Text) :
    c.kept path (c.builtinLinter.findings path contents) =
      c.kept path (c.withoutIgnores.builtinLinter.findings path contents) := by
  have hregistry := c.kept_registry_findings path
    (c.sameView_opened_withoutIgnores path contents) (c.markup.tokenize contents) 0
  have hmixed : c.builtinLinter.mixedFindings path contents =
      c.withoutIgnores.builtinLinter.mixedFindings path contents := rfl
  change c.kept path (if (c.markup.tokenize contents).any Token.optsOut then [] else
      c.builtinLinter.mixedFindings path contents ++ _) =
    c.kept path (if (c.markup.tokenize contents).any Token.optsOut then [] else
      c.withoutIgnores.builtinLinter.mixedFindings path contents ++ _)
  by_cases hout : (c.markup.tokenize contents).any Token.optsOut
  · rw [if_pos hout, if_pos hout]
  · rw [if_neg hout, if_neg hout, hmixed, kept_append, kept_append]
    exact congrArg _ hregistry

/-- What is left of a report about a file when it is filtered afterwards. -/
def restrict (c : Context) (r : FileReport) : FileReport :=
  .ofDiagnostics r.path (r.diagnostics.filter fun d => !c.isSuppressed r.path d.source)

theorem restrict_ofDiagnostics (c : Context) (path : Text) (ds : List Diagnostic) :
    c.restrict (.ofDiagnostics path (inReportOrder ds)) =
      .ofDiagnostics path (inReportOrder (c.kept path ds)) := by
  rw [restrict, kept, ← filter_inReportOrder]
  rfl

theorem map_kept_found? (c : Context) {source : SourceFile}
    (h : ¬ c.builtinLinter.context.patterns.isGloballyIgnored source.path) :
    (c.builtinLinter.found? source).map (c.kept source.path) =
      (c.withoutIgnores.builtinLinter.found? source).map (c.kept source.path) := by
  have hnone : ¬ c.withoutIgnores.builtinLinter.context.patterns.isGloballyIgnored source.path :=
    Bool.false_ne_true
  rw [Linter.found?, Linter.found?, if_neg h, if_neg hnone]
  cases source.contents with
  | none => rfl
  | some contents =>
      dsimp only
      by_cases hskip : optsOut contents
      · rw [if_pos hskip, if_pos hskip]
      · rw [if_neg hskip, if_neg hskip, Option.map_some, Option.map_some,
          kept_findings_withoutIgnores]

/-- A file is reported under the ignores exactly if it is reported without them and not ignored as
a whole, and its report is then the restricted one. -/
theorem fileReport?_builtinLinter (c : Context) (source : SourceFile) :
    c.builtinLinter.fileReport? source =
      ((c.withoutIgnores.builtinLinter.fileReport? source).filter fun r =>
        !c.patterns.isGloballyIgnored r.path).map c.restrict := by
  have hleft : c.builtinLinter.fileReport? source =
      ((c.builtinLinter.found? source).map (c.kept source.path)).map fun ds =>
        .ofDiagnostics source.path (inReportOrder ds) := by
    rw [Linter.fileReport?, Option.map_map]
    rfl
  have hright : c.withoutIgnores.builtinLinter.fileReport? source =
      (c.withoutIgnores.builtinLinter.found? source).map fun ds =>
        .ofDiagnostics source.path (inReportOrder ds) := by
    rw [Linter.fileReport?]
    congr 1
    funext ds
    exact congrArg (fun ds => FileReport.ofDiagnostics source.path (inReportOrder ds))
      (c.kept_withoutIgnores source.path ds)
  by_cases hglobal : c.builtinLinter.context.patterns.isGloballyIgnored source.path
  · have hnone : c.builtinLinter.found? source = none := by
      rw [Linter.found?, if_pos hglobal]
    rw [hleft, hright, hnone]
    cases c.withoutIgnores.builtinLinter.found? source with
    | none => rfl
    | some ds =>
        rw [Option.map_none, Option.map_none, Option.map_some, Option.filter_some_neg,
          Option.map_none]
        simpa [FileReport.ofDiagnostics, builtinLinter] using hglobal
  · rw [hleft, hright, c.map_kept_found? hglobal]
    cases c.withoutIgnores.builtinLinter.found? source with
    | none => rfl
    | some ds =>
        rw [Option.map_some, Option.map_some, Option.map_some, Option.filter_some_pos,
          Option.map_some, restrict_ofDiagnostics]
        simpa [FileReport.ofDiagnostics, builtinLinter] using hglobal

end Context

/-- A run reports what it would report with nothing ignored, less the files that are ignored as a
whole, and in each file less the diagnostics that are suppressed; the numbers are counted from what
is left. -/
theorem run_suppression {config : Config} {l : Linter Unit}
    (h : Linter.withBuiltinRules config = .ok l) (sources : List SourceFile) :
    ∃ l₀, Linter.withBuiltinRules config.withoutIgnores = .ok l₀ ∧
      (l.run sources).1 =
        { files := ((l₀.run sources).1.files.filter fun r =>
            !l.context.patterns.isGloballyIgnored r.path).map fun r =>
              .ofDiagnostics r.path (r.diagnostics.filter fun d =>
                !l.context.isSuppressed r.path d.source)
          failures := (l₀.run sources).1.failures } := by
  obtain ⟨c, hc, rfl⟩ := exists_context_of_withBuiltinRules h
  refine ⟨c.withoutIgnores.builtinLinter, ?_, ?_⟩
  · rw [withBuiltinRules_eq, Context.ofConfig_withoutIgnores hc]
    rfl
  · rw [Linter.run_eq (onlyReports_builtinLinter c) rfl,
      Linter.run_eq (onlyReports_builtinLinter c.withoutIgnores) rfl, List.filter_filterMap,
      List.map_filterMap]
    congr 1
    apply List.filterMap_congr
    intro source _
    exact c.fileReport?_builtinLinter source

/-- A category that is ignored, and one rule that is ignored below a directory. -/
theorem run_suppression_category_and_pattern :
    let config : Config :=
      { ignoreRules := ["Files".toList]
        ignorePatterns := [("Commenting.Todo".toList, ["vendor".toList])] }
    let sources : List SourceFile :=
      [⟨"vendor/a.tpl".toList, some "\x7b* todo: x *\x7d\n\t".toList⟩]
    ∃ l l₀, Linter.withBuiltinRules config = .ok l ∧
      Linter.withBuiltinRules config.withoutIgnores = .ok l₀ ∧
      ((l₀.run sources).1.files.map fun r => (r.errors, r.warnings)) = [(2, 1)] ∧
      (l.run sources).1 =
        { files := ((l₀.run sources).1.files.filter fun r =>
            !l.context.patterns.isGloballyIgnored r.path).map fun r =>
              .ofDiagnostics r.path (r.diagnostics.filter fun d =>
                !l.context.isSuppressed r.path d.source)
          failures := (l₀.run sources).1.failures } := by
  intro config sources
  let c : Context := ⟨config, .standard, [⟨"Commenting.Todo".toList, "vendor".toList⟩]⟩
  have hl : Linter.withBuiltinRules config = .ok c.builtinLinter := by
    rw [withBuiltinRules_eq]
    rfl
  have hl₀ : Linter.withBuiltinRules config.withoutIgnores =
      .ok c.withoutIgnores.builtinLinter := by
    rw [withBuiltinRules_eq]
    rfl
  obtain ⟨l₀, h₀, hrun⟩ := run_suppression hl sources
  have hsame : l₀ = c.withoutIgnores.builtinLinter := Except.ok.inj (h₀.symm.trans hl₀)
  refine ⟨c.builtinLinter, l₀, hl, h₀, ?_, hrun⟩
  rw [hsame]
  decide +kernel

end TemplateLint

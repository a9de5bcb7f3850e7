import TemplateLint.Proofs.BreakBlindness
import TemplateLint.Proofs.Runs

/-!
# Reports do not depend on line endings

A template without CR and the same template with every line feed written as CRLF or as CR lead to
the same report, apart from what the rule about line endings says.
-/

namespace TemplateLint

variable {σ : Type} {b : LineBreak} {f g : CheckedFile} {tokens : TokenStream}

/-- The source of the reports on a line ending that is not the expected one. -/
def invalidEolSource : Text := "Files.LineEndings.InvalidEOLChar".toList

/-- The diagnostics that are not about the line ending of the file. -/
def apartFromEol (ds : List Diagnostic) : List Diagnostic :=
  ds.filter fun d => d.source != invalidEolSource

theorem apartFromEol_append (ds es : List Diagnostic) :
    apartFromEol (ds ++ es) = apartFromEol ds ++ apartFromEol es :=
  List.filter_append ..

theorem apartFromEol_kept (c : Context) (path : Text) (ds : List Diagnostic) :
    apartFromEol (c.kept path ds) = c.kept path (apartFromEol ds) := by
  rw [apartFromEol, apartFromEol, Context.kept, Context.kept, List.filter_filter,
    List.filter_filter]
  congr 1
  funext d
  exact Bool.and_comm _ _

theorem apartFromEol_inReportOrder (ds : List Diagnostic) :
    apartFromEol (inReportOrder ds) = inReportOrder (apartFromEol ds) :=
  filter_inReportOrder _ ds

namespace RegisteredRule

theorem findings_rewrite {e : RegisteredRule σ} (he : e.rule.BlindToBreaks e.tokenTypes)
    (h : f.RewrittenAs b g tokens) {position : Nat} {t : Token} (ht : tokens[position]? = some t)
    (htype : t.type ∈ e.tokenTypes) (world : σ) :
    e.findings world g position = e.findings world f position := by
  have hentered := h.setActiveRule (some e.id)
  rw [findings, findings, he world _ b _ tokens position t hentered ht htype]
  congr 1
  funext change
  exact FileChange.diagnostic?_rewrite hentered change

/-- The rule about line endings says nothing else. -/
theorem apartFromEol_findings_lineEndings {e : RegisteredRule σ}
    (hrule : e.rule = Rules.lineEndings)
    (hid : e.id = ⟨"Files".toList, "LineEndings".toList⟩) (world : σ) (f : CheckedFile)
    (position : Nat) : apartFromEol (e.findings world f position) = [] := by
  rw [apartFromEol, List.filter_eq_nil_iff]
  intro d hd
  cases htokens : f.tokens with
  | none => simp [findings, hrule, Rules.lineEndings, FileRule.ofTokens, CheckedFile.requireTokens,
      CheckedFile.setActiveRule, htokens] at hd
  | some tokens =>
      rw [findings_ofTokens hrule htokens] at hd
      obtain ⟨op, hop, hdiagnostic⟩ := List.mem_filterMap.1 hd
      have hsource : (f.setActiveRule (some e.id)).sourceFor "InvalidEOLChar".toList =
          invalidEolSource := by
        rw [hid]
        rfl
      rw [eq_of_mem_check hop] at hdiagnostic
      rw [← Option.some.inj hdiagnostic]
      simpa [CheckedFile.diagnosticFor] using hsource

end RegisteredRule

theorem apartFromEol_findings_rewrite {e : RegisteredRule σ} (he : e ∈ builtinEntries)
    (h : f.RewrittenAs b g tokens) {position : Nat} {t : Token} (ht : tokens[position]? = some t)
    (htype : t.type ∈ e.tokenTypes) (world : σ) :
    apartFromEol (e.findings world g position) = apartFromEol (e.findings world f position) := by
  have hblind (he' : e.rule.BlindToBreaks e.tokenTypes) :
      apartFromEol (e.findings world g position) = apartFromEol (e.findings world f position) := by
    rw [RegisteredRule.findings_rewrite he' h ht htype]
  simp only [builtinEntries, List.mem_cons, List.not_mem_nil, or_false] at he
  rcases he with rfl | rfl | rfl | rfl | rfl | rfl | rfl | rfl | rfl
  · exact hblind Rules.blindToBreaks_fileNoComment
  · exact hblind Rules.blindToBreaks_fixme
  · exact hblind Rules.blindToBreaks_noHtmlComment
  · exact hblind Rules.blindToBreaks_todo
  · exact hblind Rules.blindToBreaks_endFileNewline
  · rw [RegisteredRule.apartFromEol_findings_lineEndings rfl rfl,
      RegisteredRule.apartFromEol_findings_lineEndings rfl rfl]
  · exact hblind Rules.blindToBreaks_disallowTabIndent
  · exact hblind Rules.blindToBreaks_superfluousWhitespace
  · exact hblind Rules.blindToBreaks_tagsWhitespace

theorem apartFromEol_flatMap_findings_rewrite {es : List (RegisteredRule σ)}
    (hes : ∀ e ∈ es, e ∈ builtinEntries) (h : f.RewrittenAs b g tokens) {position : Nat}
    {t : Token} (ht : tokens[position]? = some t) (htype : ∀ e ∈ es, t.type ∈ e.tokenTypes)
    (world : σ) :
    apartFromEol (es.flatMap fun e => e.findings world g position) =
      apartFromEol (es.flatMap fun e => e.findings world f position) := by
  induction es with
  | nil => rfl
  | cons e es ih =>
      have hhead := apartFromEol_findings_rewrite (hes e List.mem_cons_self) h ht
        (htype e List.mem_cons_self) world
      have htail := ih (fun e' he' => hes e' (List.mem_cons_of_mem _ he'))
        fun e' he' => htype e' (List.mem_cons_of_mem _ he')
      rw [List.flatMap_cons, List.flatMap_cons, apartFromEol_append, apartFromEol_append, hhead,
        htail]

namespace Context

theorem apartFromEol_registry_findings (c : Context) (h : f.RewrittenAs b g tokens)
    {position : Nat} {rest : TokenStream} (hrest : tokens.drop position = rest) :
    apartFromEol (c.builtinLinter.registry.findings () g position (rest.map (Token.rewrite b))) =
      apartFromEol (c.builtinLinter.registry.findings () f position rest) := by
  induction rest generalizing position with
  | nil => rfl
  | cons t rest ih =>
      have ht : tokens[position]? = some t := by
        rw [← List.head?_drop, hrest]
        rfl
      have hdrop : tokens.drop (position + 1) = rest := by
        rw [← List.drop_drop, hrest]
        rfl
      have hentries : ∀ e ∈ c.builtinLinter.registry.listening t.type,
          e ∈ TemplateLint.builtinEntries := fun e he => (mem_of_mem_listening he).1
      have htypes : ∀ e ∈ c.builtinLinter.registry.listening t.type,
          t.type ∈ e.tokenTypes := fun e he => (mem_of_mem_listening he).2
      have hhead := apartFromEol_flatMap_findings_rewrite hentries h ht htypes ()
      rw [List.map_cons, Registry.findings, Registry.findings, apartFromEol_append,
        apartFromEol_append, ih hdrop, ← hhead]
      rfl

end Context

namespace Context

variable {c : Context} {s : Text}

theorem rewrittenAs_opened (hl : Unbroken c.markup.left) (hr : Unbroken c.markup.right)
    (h : '\r' ∉ s) (hn : '\n' ∈ s) (path : Text) :
    (c.builtinLinter.opened path s).RewrittenAs b
      (c.builtinLinter.opened path (b.rewrite s)) (c.markup.tokenize s) where
  context := rfl
  activeRule := rfl
  eol := by
    change (detectLineBreak s).text = _
    rw [detectLineBreak_of_cr_not_mem h]
  eol_rewrite := by
    change (detectLineBreak (b.rewrite s)).text = _
    rw [detectLineBreak_rewrite b h hn]
  tokens_eq := rfl
  tokens_rewrite := by
    change some (c.markup.tokenize (b.rewrite s)) = _
    rw [Markup.tokenize_rewrite b hl hr h]
  feedsOnly t ht := Markup.feedsOnly_of_mem_tokenize h ht

theorem mixedFindings_rewrite (h : '\r' ∉ s) (hn : '\n' ∈ s) (path : Text) :
    c.builtinLinter.mixedFindings path (b.rewrite s) = [] := by
  rw [Linter.mixedFindings, detectLineBreak_rewrite b h hn, hasMixedLineBreaks_rewrite b h]
  rfl

/-- What is found in a rewritten file is what was found before, apart from its line ending. -/
theorem apartFromEol_findings (hl : Unbroken c.markup.left) (hr : Unbroken c.markup.right)
    (h : '\r' ∉ s) (path : Text) :
    apartFromEol (c.builtinLinter.findings path (b.rewrite s)) =
      apartFromEol (c.builtinLinter.findings path s) := by
  -- Without a line feed the text is left as it is, and its line ending is the default one.
  by_cases hn : '\n' ∈ s
  · have htokens : c.builtinLinter.context.markup.tokenize (b.rewrite s) =
        (c.builtinLinter.context.markup.tokenize s).map (Token.rewrite b) :=
      Markup.tokenize_rewrite b hl hr h
    have hout : ((c.builtinLinter.context.markup.tokenize s).map (Token.rewrite b)).any
        Token.optsOut = (c.builtinLinter.context.markup.tokenize s).any Token.optsOut := by
      rw [List.any_map]
      congr 1
      funext t
      exact t.optsOut_rewrite b
    have hmixed : c.builtinLinter.mixedFindings path s = [] := by
      have hlf := mixedFindings_rewrite (b := .lf) (c := c) h hn path
      rw [rewrite_lf_eq] at hlf
      exact hlf
    rw [Linter.findings, Linter.findings, htokens, hout, mixedFindings_rewrite h hn, hmixed]
    split
    · rfl
    · exact c.apartFromEol_registry_findings (c.rewrittenAs_opened hl hr h hn path) rfl
  · rw [b.rewrite_of_lf_not_mem hn]

theorem map_apartFromEol_found? (hl : Unbroken c.markup.left) (hr : Unbroken c.markup.right)
    (h : '\r' ∉ s) (path : Text) :
    (c.builtinLinter.found? ⟨path, some (b.rewrite s)⟩).map apartFromEol =
      (c.builtinLinter.found? ⟨path, some s⟩).map apartFromEol := by
  rw [Linter.found?, Linter.found?]
  dsimp only
  rw [optsOut_rewrite b h]
  by_cases hglobal : c.builtinLinter.context.patterns.isGloballyIgnored path
  · rw [if_pos hglobal, if_pos hglobal]
  · rw [if_neg hglobal, if_neg hglobal]
    by_cases hout : optsOut s
    · rw [if_pos hout, if_pos hout]
    · rw [if_neg hout, if_neg hout, Option.map_some, Option.map_some,
        apartFromEol_findings hl hr h]

theorem run_rewrite (hl : Unbroken c.markup.left) (hr : Unbroken c.markup.right) (h : '\r' ∉ s)
    (path : Text) :
    ((c.builtinLinter.processFile ⟨path, some s⟩).1 = .skipped ∧
      (c.builtinLinter.processFile ⟨path, some (b.rewrite s)⟩).1 = .skipped) ∨
    ∃ r r', (c.builtinLinter.run [⟨path, some s⟩]).1.files = [r] ∧
      (c.builtinLinter.run [⟨path, some (b.rewrite s)⟩]).1.files = [r'] ∧
      r.path = path ∧ r'.path = path ∧
      apartFromEol r'.diagnostics = apartFromEol r.diagnostics := by
  have hreports := onlyReports_builtinLinter c
  have hfound := map_apartFromEol_found? (b := b) hl hr h path
  rw [Linter.processFile_eq hreports, Linter.processFile_eq hreports, Linter.run_eq hreports rfl,
    Linter.run_eq hreports rfl]
  cases hold : c.builtinLinter.found? ⟨path, some s⟩ with
  | none =>
      rw [hold, Option.map_none, Option.map_eq_none_iff] at hfound
      left
      rw [Linter.checkedFile?, Linter.checkedFile?, hold, hfound]
      exact ⟨rfl, rfl⟩
  | some ds =>
      rw [hold, Option.map_some, Option.map_eq_some_iff] at hfound
      obtain ⟨ds', hnew, hsame⟩ := hfound
      right
      refine ⟨.ofDiagnostics path (inReportOrder (c.kept path ds)),
        .ofDiagnostics path (inReportOrder (c.kept path ds')), ?_, ?_, rfl, rfl, ?_⟩
      · rw [List.filterMap_cons, Linter.fileReport?, hold]
        rfl
      · rw [List.filterMap_cons, Linter.fileReport?, hnew]
        rfl
      · change apartFromEol (inReportOrder _) = apartFromEol (inReportOrder _)
        rw [apartFromEol_inReportOrder, apartFromEol_inReportOrder, apartFromEol_kept,
          apartFromEol_kept, hsame]

end Context

/-- For delimiters without breaks, a template without CR and the same template with every line feed
written as `b` have the same tokens, up to the breaks in their contents, and both are skipped or
both are reported with the same diagnostics apart from those on the line ending. -/
theorem lineEnding_independence {config : Config} (hl : Unbroken config.leftDelimiter)
    (hr : Unbroken config.rightDelimiter) {s : Text} (h : '\r' ∉ s) (path : Text) (b : LineBreak) :
    (∀ m, config.markup = .ok m →
      m.tokenize (b.rewrite s) =
        (m.tokenize s).map fun t => { t with content := b.rewrite t.content }) ∧
    ∀ l, Linter.withBuiltinRules config = .ok l →
      ((l.processFile ⟨path, some s⟩).1 = .skipped ∧
        (l.processFile ⟨path, some (b.rewrite s)⟩).1 = .skipped) ∨
      ∃ r r', (l.run [⟨path, some s⟩]).1.files = [r] ∧
        (l.run [⟨path, some (b.rewrite s)⟩]).1.files = [r'] ∧ r.path = path ∧ r'.path = path ∧
        (r'.diagnostics.filter fun d => d.source != "Files.LineEndings.InvalidEOLChar".toList) =
          r.diagnostics.filter fun d => d.source != "Files.LineEndings.InvalidEOLChar".toList := by
  constructor
  · intro m hm
    obtain ⟨hleft, hright⟩ := Config.delimiters_of_markup hm
    rw [← hleft] at hl
    rw [← hright] at hr
    exact Markup.tokenize_rewrite b hl hr h
  · intro l hlinter
    obtain ⟨c, hc, rfl⟩ := exists_context_of_withBuiltinRules hlinter
    obtain ⟨hleft, hright⟩ := Config.delimiters_of_markup (Context.ofConfig_eq_ok hc).1
    rw [← hleft] at hl
    rw [← hright] at hr
    exact Context.run_rewrite hl hr h path

/-- A task on the second line of a comment, found in a file with CRLF as well, where the line
ending is reported besides. -/
theorem lineEnding_independence_task_in_comment :
    let s := "\x7b* a\n todo: x *\x7d\n".toList
    let s' := "\x7b* a\r\n todo: x *\x7d\r\n".toList
    LineBreak.crlf.rewrite s = s' ∧
    ∃ l, Linter.withBuiltinRules {} = .ok l ∧ ∃ r r',
      (l.run [⟨[], some s⟩]).1.files = [r] ∧ (l.run [⟨[], some s'⟩]).1.files = [r'] ∧
      (r.errors, r.warnings) = (0, 1) ∧ (r'.errors, r'.warnings) = (1, 1) ∧
      (r'.diagnostics.filter fun d => d.source != "Files.LineEndings.InvalidEOLChar".toList) =
        r.diagnostics.filter fun d => d.source != "Files.LineEndings.InvalidEOLChar".toList := by
  intro s s'
  have hrewrite : LineBreak.crlf.rewrite s = s' := by decide
  let c : Context := ⟨{}, .standard, []⟩
  have hl : Linter.withBuiltinRules {} = .ok c.builtinLinter := by
    rw [withBuiltinRules_eq]
    rfl
  have hleft : Unbroken ({} : Config).leftDelimiter := by decide
  have hright : Unbroken ({} : Config).rightDelimiter := by decide
  have hcr : '\r' ∉ s := by decide
  have hindependent := (lineEnding_independence hleft hright hcr [] .crlf).2 _ hl
  rw [hrewrite] at hindependent
  refine ⟨hrewrite, c.builtinLinter, hl, ?_⟩
  rcases hindependent with ⟨hskipped, -⟩ | ⟨r, r', hr, hr', -, -, hsame⟩
  · exact absurd hskipped (by decide +kernel)
  · have hcounts : ((c.builtinLinter.run [⟨[], some s⟩]).1.files.map fun r =>
        (r.errors, r.warnings)) = [(0, 1)] := by decide +kernel
    have hcounts' : ((c.builtinLinter.run [⟨[], some s'⟩]).1.files.map fun r =>
        (r.errors, r.warnings)) = [(1, 1)] := by decide +kernel
    rw [hr] at hcounts
    rw [hr'] at hcounts'
    exact ⟨r, r', hr, hr', (List.cons.inj hcounts).1, (List.cons.inj hcounts').1, hsame⟩

end TemplateLint

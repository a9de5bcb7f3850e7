import TemplateLint.Proofs.Placeholders
import TemplateLint.Proofs.TaskLines
import TemplateLint.Proofs.TokenSearch

/-!
# What one rule reports

Of the diagnostics of a file, those in the name of one rule are what that rule finds at the tokens
that it listens for, in the order of a report. The other rules add nothing to them, because the
scope of one rule never covers what another one reports. What a rule says is the template of its
message with the arguments put in as they are.
-/

namespace TemplateLint

variable {σ : Type}

section Messages

variable {template before after : Text}

theorem formatMessage_of_not_mem (args : List Text) (h : '\x7b' ∉ template) :
    formatMessage template args = template := by
  rw [formatMessage, fillFrom_of_not_mem args 0 h, ite_self]

/-- A pair of braces takes the argument as it is, whatever braces that has. -/
theorem formatMessage_placeholder (hbefore : '\x7b' ∉ before) (hafter : '\x7b' ∉ after)
    (arg : Text) :
    formatMessage (before ++ '\x7b' :: '\x7d' :: after) [arg] = before ++ arg ++ after := by
  have hfill := fillFrom_placeholder_append [arg] 0 ⟨before, [], hbefore, by simp⟩ after
  rw [fillFrom_of_not_mem _ _ hafter] at hfill
  simpa [formatMessage, Placeholder.text, Placeholder.braces, Placeholder.shown,
    Placeholder.asked?] using hfill

end Messages

namespace Linter

/-- The diagnostics of a file with the given contents after its tokens were walked. -/
def diagnosticsOf (l : Linter σ) (path s : Text) : List Diagnostic :=
  (l.checkContents (CheckedFile.new path l.context) s).2.diagnostics

/-- Whether nothing keeps a rule from reporting about a file: no token ends the walk before the
others are reached, and nothing in the name of the rule is suppressed. -/
structure Unhindered (l : Linter σ) (id : RuleId) (path s : Text) : Prop where
  to_end : ∀ t ∈ l.context.markup.tokenize s, t.optsOut = false
  admitted : ∀ code, l.context.isSuppressed path (id.sourceFor code) = false

theorem diagnosticsOf_eq {l : Linter σ} (hl : l.OnlyReports) (path s : Text) :
    l.diagnosticsOf path s = inReportOrder (l.context.kept path (l.findings path s)) := by
  rw [diagnosticsOf, checkContents_eq hl, CheckedFile.diagnostics_withLog]

theorem findings_of_unhindered {l : Linter σ} {id : RuleId} {path s : Text}
    (h : l.Unhindered id path s) :
    l.findings path s = l.mixedFindings path s ++
      l.registry.findings l.world (l.opened path s) 0 (l.context.markup.tokenize s) := by
  have hany : (l.context.markup.tokenize s).any Token.optsOut = false := by
    simpa using h.to_end
  rw [findings, hany]
  rfl

end Linter

theorem Registry.findings_eq_flatMap (r : Registry σ) (world : σ) (f : CheckedFile)
    (position : Nat) (tokens : TokenStream) :
    r.findings world f position tokens = (tokens.zipIdx position).flatMap fun a =>
      (r.listening a.1.type).flatMap fun e => e.findings world f a.2 := by
  induction tokens generalizing position with
  | nil => rfl
  | cons t rest ih => simp [findings, ih]

section OneRule

theorem nodup_builtinEntries : (builtinEntries : List (RegisteredRule σ)).Nodup :=
  nodup_ids_builtinEntries.of_map

/-- A list in which only one member has an image. -/
theorem flatMap_of_nodup {α β : Type} {l : List α} (hl : l.Nodup) {b : α} (hb : b ∈ l)
    {g : α → List β} (hg : ∀ a ∈ l, a ≠ b → g a = []) : l.flatMap g = g b := by
  obtain ⟨front, back, rfl⟩ := List.append_of_mem hb
  rw [List.nodup_middle, List.nodup_cons, List.mem_append, not_or] at hl
  have hfront : front.flatMap g = [] := by
    rw [List.flatMap_eq_nil_iff]
    intro a ha
    exact hg a (by simp [ha]) fun h => hl.1.1 (h ▸ ha)
  have hback : back.flatMap g = [] := by
    rw [List.flatMap_eq_nil_iff]
    intro a ha
    exact hg a (by simp [ha]) fun h => hl.1.2 (h ▸ ha)
  simp [hfront, hback]

variable {c : Context} {e : RegisteredRule Unit} {path s : Text} {p : Diagnostic → Bool}

/-- Nobody but the rule itself finds anything in its name. -/
theorem filter_findings_of_ne {e' : RegisteredRule Unit} (he : e ∈ builtinEntries)
    (he' : e' ∈ builtinEntries) (hne : e' ≠ e) (hp : ∀ d, p d → scopeCovers e.id.text d.source)
    (f : CheckedFile) (i : Nat) : (e'.findings () f i).filter p = [] := by
  rw [List.filter_eq_nil_iff]
  intro d hd hpd
  obtain ⟨code, hsource⟩ :=
    RegisteredRule.source_of_mem_findings (isReporter_of_mem_builtinEntries he') hd
  have hcovers := hp d hpd
  rw [hsource] at hcovers
  exact hne (eq_of_scopeCovers he' he hcovers)

theorem Context.mem_listening_iff (he : e ∈ TemplateLint.builtinEntries)
    (hid : c.isRuleIgnored e.id.text = false) (type : TokenType) :
    e ∈ c.builtinLinter.registry.listening type ↔ e.tokenTypes.contains type := by
  rw [builtinLinter, Registry.listening_ofEntries, List.mem_filter, builtinEntries, List.mem_filter]
  simp [he, hid]

theorem Context.filter_listening (he : e ∈ TemplateLint.builtinEntries)
    (hid : c.isRuleIgnored e.id.text = false) (hp : ∀ d, p d → scopeCovers e.id.text d.source)
    (f : CheckedFile) (type : TokenType) (i : Nat) :
    ((c.builtinLinter.registry.listening type).flatMap fun e' => e'.findings () f i).filter p =
      if e.tokenTypes.contains type then (e.findings () f i).filter p else [] := by
  have hother : ∀ e' ∈ c.builtinLinter.registry.listening type, e' ≠ e →
      (e'.findings () f i).filter p = [] := by
    intro e' he' hne
    exact filter_findings_of_ne he (mem_of_mem_listening he').1 hne hp f i
  rw [List.filter_flatMap]
  split
  next htype =>
    have hmem := (mem_listening_iff he hid type).2 htype
    have hnodup : (c.builtinLinter.registry.listening type).Nodup := by
      rw [builtinLinter, Registry.listening_ofEntries]
      exact (nodup_builtinEntries.filter _).filter _
    exact flatMap_of_nodup hnodup hmem hother
  next htype =>
    rw [List.flatMap_eq_nil_iff]
    intro e' he'
    apply hother e' he'
    rintro rfl
    exact htype ((mem_listening_iff he hid type).1 he')

/-- The report on mixed line endings is in the name of no rule. -/
theorem Context.filter_mixedFindings (he : e ∈ TemplateLint.builtinEntries)
    (hp : ∀ d, p d → scopeCovers e.id.text d.source) :
    (c.builtinLinter.mixedFindings path s).filter p = [] := by
  rw [List.filter_eq_nil_iff]
  intro d hd hpd
  rw [Linter.mixedFindings] at hd
  have hcovers := hp d hpd
  rw [eq_of_mem_ite hd] at hcovers
  have hprefix : e.id.text <+: "Internal.LineEndings.Mixed".toList := prefix_of_scopeCovers hcovers
  revert hprefix
  simp only [TemplateLint.builtinEntries, List.mem_cons, List.not_mem_nil, or_false] at he
  rcases he with rfl | rfl | rfl | rfl | rfl | rfl | rfl | rfl | rfl <;> decide

/-- What is reported about a file in the name of a rule that nothing hinders. -/
theorem Context.filter_diagnosticsOf (he : e ∈ TemplateLint.builtinEntries)
    (h : c.builtinLinter.Unhindered e.id path s)
    (hp : ∀ d, p d → scopeCovers e.id.text d.source) :
    (c.builtinLinter.diagnosticsOf path s).filter p =
      inReportOrder ((c.markup.tokenize s).zipIdx.flatMap fun a =>
        if e.tokenTypes.contains a.1.type then
          (e.findings () (c.builtinLinter.opened path s) a.2).filter p
        else []) := by
  have hid : c.isRuleIgnored e.id.text = false := by
    have hsource := h.admitted []
    rw [RuleId.sourceFor, if_pos rfl, isSuppressed, Bool.or_eq_false_iff] at hsource
    exact hsource.1
  have hkept : (c.kept path (c.builtinLinter.findings path s)).filter p =
      (c.builtinLinter.findings path s).filter p := by
    rw [kept, List.filter_filter]
    apply List.filter_congr
    intro d hd
    by_cases hpd : p d
    · -- What passes `p` was reported by the rule, so it is not suppressed.
      have hcovers := hp d hpd
      rcases Linter.mem_findings_cases hd with hmixed | ⟨i, t, -, e', he', hd⟩
      · have hnil : (c.builtinLinter.mixedFindings path s).filter p = [] :=
          filter_mixedFindings he hp
        exact absurd hpd (List.filter_eq_nil_iff.1 hnil d hmixed)
      · have hbuiltin := (mem_of_mem_listening he').1
        obtain ⟨code, hsource⟩ :=
          RegisteredRule.source_of_mem_findings (isReporter_of_mem_builtinEntries hbuiltin) hd
        rw [hsource] at hcovers
        obtain rfl := eq_of_scopeCovers hbuiltin he hcovers
        have hadmitted : c.isSuppressed path d.source = false := by
          rw [hsource]
          exact h.admitted code
        simp [hadmitted, hpd]
    · simp [hpd]
  rw [Linter.diagnosticsOf_eq (onlyReports_builtinLinter c), filter_inReportOrder]
  change inReportOrder ((c.kept path (c.builtinLinter.findings path s)).filter p) = _
  rw [hkept, Linter.findings_of_unhindered h, List.filter_append, filter_mixedFindings he hp,
    List.nil_append, Registry.findings_eq_flatMap, List.filter_flatMap]
  congr 2
  funext a
  exact filter_listening he hid hp _ _ _

theorem Context.filter_scopeCovers_diagnosticsOf (he : e ∈ TemplateLint.builtinEntries)
    (h : c.builtinLinter.Unhindered e.id path s) :
    (c.builtinLinter.diagnosticsOf path s).filter (fun d => scopeCovers e.id.text d.source) =
      inReportOrder ((c.markup.tokenize s).zipIdx.flatMap fun a =>
        if e.tokenTypes.contains a.1.type then e.findings () (c.builtinLinter.opened path s) a.2
        else []) := by
  have hself (i : Nat) : (e.findings () (c.builtinLinter.opened path s) i).filter
      (fun d => scopeCovers e.id.text d.source) =
        e.findings () (c.builtinLinter.opened path s) i := by
    rw [List.filter_eq_self]
    intro d hd
    obtain ⟨code, hsource⟩ :=
      RegisteredRule.source_of_mem_findings (isReporter_of_mem_builtinEntries he) hd
    rw [hsource]
    exact RuleId.scopeCovers_text_sourceFor _ code
  simp only [filter_diagnosticsOf he h fun _ hd => hd, hself]

end OneRule

/-- A rule about a file as a whole reports what it finds at the first line break. -/
theorem Context.filter_wholeFile {c : Context} {e : RegisteredRule Unit} {path s name : Text}
    {applies : TokenStream → Bool} {act : TokenStream → Nat → List FileOp × Ending}
    (he : e ∈ TemplateLint.builtinEntries) (h : c.builtinLinter.Unhindered e.id path s)
    (htypes : e.tokenTypes = [.newLine])
    (hrule : e.rule = .ofTokens name [.newLine] fun _ tokens position =>
      if isFirstNewLine tokens position && applies tokens then act tokens position
      else ([], .done))
    {front back : TokenStream} {first : Token}
    (htokens : c.markup.tokenize s = front ++ first :: back)
    (hfront : ∀ t ∈ front, t.type ≠ .newLine) (hfirst : first.type = .newLine) :
    (c.builtinLinter.diagnosticsOf path s).filter (fun d => scopeCovers e.id.text d.source) =
      inReportOrder (if applies (c.markup.tokenize s) then
        (act (c.markup.tokenize s) front.length).1.filterMap (FileOp.diagnostic?
          ((c.builtinLinter.opened path s).setActiveRule (some e.id)))
      else []) := by
  have hopened : (c.builtinLinter.opened path s).tokens = some (c.markup.tokenize s) := rfl
  have honce := flatMap_isFirstNewLine hfront hfirst back fun position =>
    if applies (c.markup.tokenize s) then
      (act (c.markup.tokenize s) position).1.filterMap (FileOp.diagnostic?
        ((c.builtinLinter.opened path s).setActiveRule (some e.id)))
    else []
  rw [← htokens] at honce
  rw [filter_scopeCovers_diagnosticsOf he h, ← honce]
  refine congrArg inReportOrder (List.flatMap_congr fun a _ => ?_)
  rw [RegisteredRule.findings_ofTokens hrule hopened, htypes]
  by_cases htype : a.1.type = .newLine <;>
    by_cases hat : isFirstNewLine (c.markup.tokenize s) a.2 <;>
      by_cases happlies : applies (c.markup.tokenize s) <;> simp [htype, hat, happlies]

theorem CheckedFile.lineOf_token {f : CheckedFile} {tokens : TokenStream}
    (htokens : f.tokens = some tokens) {i : Nat} {t : Token} (ht : tokens[i]? = some t) :
    f.lineOf (.token i) = t.line := by
  rw [lineOf, htokens, Option.bind_some, ht]
  rfl

@[simp]
theorem inReportOrder_nil : inReportOrder [] = [] := List.mergeSort_nil

/-- Diagnostics of one severity whose lines do not descend are in the order of a report. -/
theorem inReportOrder_of_lines (severity : Severity) {ds : List Diagnostic}
    (hplace : ∀ d ∈ ds, d.column = 1 ∧ d.severity = severity)
    (hlines : ds.Pairwise fun a b => a.line ≤ b.line) : inReportOrder ds = ds := by
  apply List.mergeSort_of_pairwise
  apply hlines.imp_of_mem
  intro a b ha hb hab
  obtain ⟨hacolumn, haseverity⟩ := hplace a ha
  obtain ⟨hbcolumn, hbseverity⟩ := hplace b hb
  simp only [Diagnostic.notAfter, hacolumn, hbcolumn, haseverity, hbseverity, Bool.or_eq_true,
    Bool.and_eq_true, decide_eq_true_eq, beq_iff_eq, Nat.le_refl, and_self, or_true, and_true]
  exact Nat.lt_or_eq_of_le hab

/-- What an error says that a rule at work reports. -/
theorem diagnostic?_reportError {f : CheckedFile} {id : RuleId} (hid : f.activeRule = some id)
    (message : String) (position : Position) {code : String}
    (hcode : internalStart.isPrefixOf code.toList = false) (args : List Text) :
    (reportError message position code args).diagnostic? f =
      some ⟨f.lineOf position, 1, .error, formatMessage message.toList args,
        id.sourceFor code.toList⟩ := by
  rw [reportError, FileOp.diagnostic?, CheckedFile.diagnosticFor, CheckedFile.sourceFor, hid, hcode]
  rfl

theorem inReportOrder_reportError {f : CheckedFile} {id : RuleId} (hid : f.activeRule = some id)
    {tokens : TokenStream} (htokens : f.tokens = some tokens) {i : Nat} {t : Token}
    (ht : tokens[i]? = some t) (message : String) {code : String}
    (hcode : internalStart.isPrefixOf code.toList = false) (args : List Text) :
    inReportOrder ([reportError message (.token i) code args].filterMap (FileOp.diagnostic? f)) =
      [⟨t.line, 1, .error, formatMessage message.toList args, id.sourceFor code.toList⟩] := by
  have hdiagnostic := diagnostic?_reportError hid message (.token i) hcode args
  rw [CheckedFile.lineOf_token htokens ht] at hdiagnostic
  rw [List.filterMap_cons_some hdiagnostic, List.filterMap_nil, inReportOrder,
    List.mergeSort_singleton]

end TemplateLint

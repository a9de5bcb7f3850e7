import TemplateLint.Proofs.DiagnosticLog
import TemplateLint.Proofs.Registration

/-!
# Rules that only report

A reporter looks at a few things in a file, never at what was reported before, and does nothing but
report in its own name. So a call of it appends its findings to the log, less what is suppressed,
and a rule whose identifier is suppressed has only suppressed findings. All rules that come with the
linter are reporters.
-/

namespace TemplateLint

variable {σ : Type}

/-- Whether two files look the same to a reporter. -/
structure CheckedFile.SameView (f g : CheckedFile) : Prop where
  path : f.path = g.path
  eol : f.eol = g.eol
  tokens : f.tokens = g.tokens
  markup : f.context.markup = g.context.markup
  expectedEol : f.context.config.expectedEol = g.context.config.expectedEol

theorem CheckedFile.SameView.setActiveRule {f g : CheckedFile} (h : f.SameView g)
    (rule : Option RuleId) : (f.setActiveRule rule).SameView (g.setActiveRule rule) :=
  ⟨h.path, h.eol, h.tokens, h.markup, h.expectedEol⟩

theorem CheckedFile.sameView_withLog (f : CheckedFile) (log : List Diagnostic) :
    (f.withLog log).SameView f :=
  ⟨rfl, rfl, rfl, rfl, rfl⟩

namespace FileOp

/-- Whether an operation reports in the name of the rule that is at work. -/
def IsReport : FileOp → Prop
  | add _ _ _ code _ => internalStart.isPrefixOf code = false
  | _ => False

/-- What an operation reports if nothing is suppressed. -/
def diagnostic? (f : CheckedFile) : FileOp → Option Diagnostic
  | add severity template position code args =>
      some (f.diagnosticFor severity template position code args)
  | _ => none

theorem applyAll_withLog (f : CheckedFile) (log : List Diagnostic) (ops : List FileOp)
    (h : ∀ op ∈ ops, op.IsReport) :
    applyAll (f.withLog log) ops = f.withLog (log ++ f.kept (ops.filterMap (diagnostic? f))) := by
  induction ops generalizing log with
  | nil => simp [applyAll, CheckedFile.kept, Context.kept]
  | cons op ops ih =>
      have hop := h op List.mem_cons_self
      have htail := fun log => ih log fun op' hop' => h op' (List.mem_cons_of_mem _ hop')
      cases op with
      | add severity template position code args =>
          rw [applyAll, List.foldl_cons, apply, CheckedFile.add_withLog, ← applyAll, htail]
          simp only [List.filterMap_cons, diagnostic?]
          rw [List.append_assoc, ← CheckedFile.kept_append]
          rfl
      | _ => exact False.elim hop

/-- A report has a source below the identifier of the rule that is at work. -/
theorem IsReport.source {op : FileOp} (h : op.IsReport) {f : CheckedFile} {id : RuleId}
    (hid : f.activeRule = some id) {d : Diagnostic} (hd : op.diagnostic? f = some d) :
    ∃ code, d.source = id.sourceFor code := by
  cases op with
  | add severity template position code args =>
      have hcode : internalStart.isPrefixOf code = false := h
      simp only [diagnostic?, Option.some.injEq] at hd
      refine ⟨code, ?_⟩
      rw [← hd, CheckedFile.diagnosticFor, CheckedFile.sourceFor, hcode, hid]
      rfl
  | _ => exact False.elim h

theorem diagnostic?_congr {f g : CheckedFile} (h : f.SameView g)
    (hrule : f.activeRule = g.activeRule) (op : FileOp) : op.diagnostic? f = op.diagnostic? g := by
  cases op with
  | add severity template position code args =>
      have hline : f.lineOf position = g.lineOf position := by
        cases position with
        | token index => rw [CheckedFile.lineOf, CheckedFile.lineOf, h.tokens]
        | _ => rfl
      have hsource : f.sourceFor code = g.sourceFor code := by
        rw [CheckedFile.sourceFor, CheckedFile.sourceFor, hrule]
      rw [diagnostic?, diagnostic?, CheckedFile.diagnosticFor, CheckedFile.diagnosticFor, hline,
        hsource]
  | _ => rfl

end FileOp

namespace FileChange

def IsReport : FileChange → Prop
  | edit op => op.IsReport
  | replace _ _ => False

def diagnostic? (f : CheckedFile) : FileChange → Option Diagnostic
  | edit op => op.diagnostic? f
  | replace _ _ => none

theorem filterMap_diagnostic?_map_edit (f : CheckedFile) (ops : List FileOp) :
    (ops.map edit).filterMap (diagnostic? f) = ops.filterMap (FileOp.diagnostic? f) := by
  rw [List.filterMap_map]
  rfl

theorem exists_map_edit_of_isReport {changes : List FileChange}
    (h : ∀ change ∈ changes, change.IsReport) :
    ∃ ops : List FileOp, changes = ops.map edit ∧ ∀ op ∈ ops, op.IsReport := by
  induction changes with
  | nil => exact ⟨[], rfl, by simp⟩
  | cons change changes ih =>
      obtain ⟨ops, rfl, hops⟩ := ih fun c hc => h c (List.mem_cons_of_mem _ hc)
      have hfirst := h change List.mem_cons_self
      cases change with
      | edit op => exact ⟨op :: ops, rfl, List.forall_mem_cons.2 ⟨hfirst, hops⟩⟩
      | replace path context => exact False.elim hfirst

theorem applyAll_withLog (f : CheckedFile) (log : List Diagnostic) (changes : List FileChange)
    (h : ∀ change ∈ changes, change.IsReport) :
    applyAll (f.withLog log) changes =
      f.withLog (log ++ f.kept (changes.filterMap (diagnostic? f))) := by
  obtain ⟨ops, rfl, hops⟩ := exists_map_edit_of_isReport h
  rw [applyAll_map_edit, filterMap_diagnostic?_map_edit, FileOp.applyAll_withLog f log ops hops]

theorem IsReport.source {change : FileChange} (h : change.IsReport) {f : CheckedFile} {id : RuleId}
    (hid : f.activeRule = some id) {d : Diagnostic} (hd : change.diagnostic? f = some d) :
    ∃ code, d.source = id.sourceFor code := by
  cases change with
  | edit op => exact FileOp.IsReport.source h hid hd
  | replace path context => exact False.elim h

theorem diagnostic?_congr {f g : CheckedFile} (h : f.SameView g)
    (hrule : f.activeRule = g.activeRule) (change : FileChange) :
    change.diagnostic? f = change.diagnostic? g := by
  cases change with
  | edit op => exact FileOp.diagnostic?_congr h hrule op
  | replace path context => rfl

end FileChange

/-- A rule without memory that does nothing but report, whatever was reported before, and that ends
well on tokens whose lines do not descend. -/
structure FileRule.IsReporter (r : FileRule σ) : Prop where
  process_congr : ∀ world f g position, f.SameView g →
    r.process world f position = r.process world g position
  world_eq : ∀ world f position, (r.process world f position).world = world
  isReport : ∀ world f position, ∀ change ∈ (r.process world f position).changes, change.IsReport
  ending_eq : ∀ world f position tokens, f.tokens = some tokens →
    tokens.Pairwise (fun t u => t.line ≤ u.line) → position < tokens.length →
      (r.process world f position).ending = .done

theorem FileRule.isReporter_ofTokens {name : Text} {listens : List TokenType}
    {check : CheckedFile → TokenStream → Nat → List FileOp × Ending}
    (hcongr : ∀ f g tokens position, f.SameView g →
      check f tokens position = check g tokens position)
    (hreport : ∀ f tokens position, ∀ op ∈ (check f tokens position).1, op.IsReport)
    (hending : ∀ f tokens position, tokens.Pairwise (fun t u => t.line ≤ u.line) →
      position < tokens.length → (check f tokens position).2 = .done) :
    (FileRule.ofTokens name listens check : FileRule σ).IsReporter where
  process_congr world f g position h := by
    have hrequire : f.requireTokens = g.requireTokens := by
      rw [CheckedFile.requireTokens, CheckedFile.requireTokens, h.tokens, h.path]
    simp only [ofTokens, hrequire, hcongr f g _ position h]
  world_eq world f position := by
    simp only [ofTokens]
    cases f.requireTokens <;> rfl
  isReport world f position := by
    simp only [ofTokens]
    cases f.requireTokens with
    | error e => simp
    | ok tokens => exact List.forall_mem_map.2 (hreport f tokens position)
  ending_eq world f position tokens htokens hlines hposition := by
    simp only [ofTokens, CheckedFile.requireTokens, htokens]
    exact hending f tokens position hlines hposition

theorem isReport_reportError (message : String) (position : Position) {code : String}
    (args : List Text) (h : internalStart.isPrefixOf code.toList = false) :
    (reportError message position code args).IsReport := h

theorem isReport_reportWarning (message : Text) (position : Position) {code : String}
    (h : internalStart.isPrefixOf code.toList = false) :
    (reportWarning message position code).IsReport := h

theorem eq_of_mem_ite {α : Type} {c : Prop} [Decidable c] {a b : α}
    (h : a ∈ if c then [b] else []) : a = b := by
  by_cases hc : c
  · rw [if_pos hc] at h
    exact List.mem_singleton.1 h
  · rw [if_neg hc] at h
    exact absurd h List.not_mem_nil

/-- Checks that come to one report or to none. -/
theorem eq_of_mem_check {c : Prop} [Decidable c] {report op : FileOp}
    (hop : op ∈ (if c then ([report], Ending.done) else ([], .done)).1) : op = report := by
  rw [apply_ite Prod.fst] at hop
  exact eq_of_mem_ite hop

theorem isReport_of_mem_ite {c : Prop} [Decidable c] {report op : FileOp} (h : report.IsReport)
    (hop : op ∈ if c then [report] else []) : op.IsReport := by
  rw [eq_of_mem_ite hop]
  exact h

theorem isReport_of_mem_check {c : Prop} [Decidable c] {report op : FileOp} (h : report.IsReport)
    (hop : op ∈ (if c then ([report], Ending.done) else ([], .done)).1) : op.IsReport := by
  rw [eq_of_mem_check hop]
  exact h

namespace Rules

theorem isReporter_fileNoComment : (fileNoComment : FileRule σ).IsReporter := by
  apply FileRule.isReporter_ofTokens
  · intro f g tokens position _
    rfl
  · intro f tokens position op hop
    exact isReport_of_mem_check (isReport_reportError _ _ _ (by decide)) hop
  · intro f tokens position _ _
    split <;> rfl

/-- Both reports on a task are in the name of the rule. -/
theorem isReport_reportTask (severity : Severity) (label task : Text) (position : Position) :
    (reportTask severity label task position).IsReport := by
  rw [reportTask]
  split
  · change internalStart.isPrefixOf "CommentFound".toList = false
    decide
  · change internalStart.isPrefixOf "TaskFound".toList = false
    decide

/-- A report on a task is about a piece of the comment at hand. -/
theorem exists_of_mem_reportTasks {severity : Severity} {keyword label : Text}
    {file : CheckedFile} {tokens : TokenStream} {position : Nat} {op : FileOp}
    (h : op ∈ reportTasks severity keyword label file tokens position) :
    ∃ t, tokens[position]? = some t ∧ ∃ j piece task,
      (t.physicalLines file.eol)[j]? = some piece ∧
      taskOf? keyword file.context.markup.right piece = some task ∧
      op = reportTask severity label task (.line t.firstLine j) := by
  rw [reportTasks] at h
  split at h
  · simp at h
  next t ht =>
    obtain ⟨⟨piece, j⟩, hpiece, hop⟩ := List.mem_filterMap.1 h
    obtain ⟨task, htask, rfl⟩ := Option.map_eq_some_iff.1 hop
    exact ⟨t, ht, j, piece, task, List.mem_zipIdx_iff_getElem?.1 hpiece, htask, rfl⟩

theorem isReport_of_mem_reportTasks {severity : Severity} {keyword label : Text}
    {file : CheckedFile} {tokens : TokenStream} {position : Nat} {op : FileOp}
    (h : op ∈ reportTasks severity keyword label file tokens position) : op.IsReport := by
  obtain ⟨t, -, j, piece, task, -, -, rfl⟩ := exists_of_mem_reportTasks h
  exact isReport_reportTask _ _ _ _

theorem reportTasks_congr (severity : Severity) (keyword label : Text) {f g : CheckedFile}
    (h : f.SameView g) (tokens : TokenStream) (position : Nat) :
    reportTasks severity keyword label f tokens position =
      reportTasks severity keyword label g tokens position := by
  rw [reportTasks, reportTasks, h.eol, h.markup]

theorem isReporter_fixme : (fixme : FileRule σ).IsReporter := by
  apply FileRule.isReporter_ofTokens
  · intro f g tokens position h
    rw [reportTasks_congr _ _ _ h]
  · intro f tokens position op hop
    exact isReport_of_mem_reportTasks hop
  · intro f tokens position _ _
    rfl

theorem isReporter_todo : (todo : FileRule σ).IsReporter := by
  apply FileRule.isReporter_ofTokens
  · intro f g tokens position h
    rw [reportTasks_congr _ _ _ h]
  · intro f tokens position op hop
    exact isReport_of_mem_reportTasks hop
  · intro f tokens position _ _
    rfl

theorem isReporter_noHtmlComment : (noHtmlComment : FileRule σ).IsReporter := by
  apply FileRule.isReporter_ofTokens
  · intro f g tokens position h
    rw [h.markup]
  · intro f tokens position op hop
    split at hop
    · simp at hop
    · rw [List.mem_singleton.1 hop]
      exact isReport_reportWarning _ _ (by decide)
  · intro f tokens position _ _
    split <;> rfl

/-- No token is on a later line than the last one. -/
theorem line_le_last {tokens : TokenStream} (h : tokens.Pairwise fun t u => t.line ≤ u.line)
    {i : Nat} {t final : Token} (ht : tokens[i]? = some t)
    (hfinal : tokens[tokens.length - 1]? = some final) : t.line ≤ final.line := by
  obtain ⟨hilt, rfl⟩ := List.getElem?_eq_some_iff.1 ht
  obtain ⟨hllt, rfl⟩ := List.getElem?_eq_some_iff.1 hfinal
  rcases Nat.lt_or_ge i (tokens.length - 1) with hlt | hge
  · exact List.pairwise_iff_getElem.1 h i _ hilt hllt hlt
  · have hsame : i = tokens.length - 1 := by omega
    simp [hsame]

/-- The check on the end of a file never subtracts below zero. -/
theorem checkEnding_done {tokens : TokenStream} (h : tokens.Pairwise fun t u => t.line ≤ u.line) :
    (checkEnding tokens (tokens.length - 1)).2 = .done := by
  rw [checkEnding]
  split
  · rfl
  next final hfinal =>
    split
    · rfl
    · split
      · rfl
      next index content hcontent =>
        obtain ⟨i, -, hi⟩ := Option.bind_eq_some_iff.1 hcontent
        obtain ⟨t, ht, heq⟩ := Option.map_eq_some_iff.1 hi
        obtain ⟨rfl, rfl⟩ := Prod.mk.inj heq
        rw [if_neg (Nat.not_lt.2 (line_le_last h ht hfinal))]
        split <;> rfl

/-- The check on the end of a file reports at tokens. -/
theorem exists_of_mem_checkEnding {tokens : TokenStream} {last : Nat} {op : FileOp}
    (h : op ∈ (checkEnding tokens last).1) :
    ∃ message index code args, op = reportError message (.token index) code args ∧
      internalStart.isPrefixOf code.toList = false := by
  rw [checkEnding] at h
  split at h
  · simp at h
  · split at h
    · exact ⟨_, _, _, _, List.mem_singleton.1 h, by decide⟩
    · split at h
      · simp at h
      · split at h
        · simp at h
        · split at h
          · simp at h
          · exact ⟨_, _, _, _, List.mem_singleton.1 h, by decide⟩

theorem isReport_of_mem_checkEnding {tokens : TokenStream} {last : Nat} {op : FileOp}
    (h : op ∈ (checkEnding tokens last).1) : op.IsReport := by
  obtain ⟨message, index, code, args, rfl, hcode⟩ := exists_of_mem_checkEnding h
  exact isReport_reportError message _ args hcode

theorem isReporter_endFileNewline : (endFileNewline : FileRule σ).IsReporter := by
  apply FileRule.isReporter_ofTokens
  · intro f g tokens position _
    rfl
  · intro f tokens position op hop
    split at hop
    · exact isReport_of_mem_checkEnding hop
    · simp at hop
  · intro f tokens position hlines _
    split
    · exact checkEnding_done hlines
    · rfl

theorem isReporter_lineEndings : (lineEndings : FileRule σ).IsReporter := by
  apply FileRule.isReporter_ofTokens
  · intro f g tokens position h
    rw [h.eol, h.expectedEol]
  · intro f tokens position op hop
    exact isReport_of_mem_check (isReport_reportError _ _ _ (by decide)) hop
  · intro f tokens position _ _
    dsimp only
    split <;> rfl

theorem isReporter_disallowTabIndent : (disallowTabIndent : FileRule σ).IsReporter := by
  apply FileRule.isReporter_ofTokens
  · intro f g tokens position _
    rfl
  · intro f tokens position op hop
    exact isReport_of_mem_check (isReport_reportError _ _ _ (by decide)) hop
  · intro f tokens position _ _
    split <;> rfl

theorem isReporter_superfluousWhitespace : (superfluousWhitespace : FileRule σ).IsReporter := by
  have htrailing {tokens : TokenStream} {position : Nat} {op : FileOp}
      (hop : op ∈ reportTrailing tokens position) : op.IsReport := by
    exact isReport_of_mem_ite (isReport_reportError _ _ _ (by decide)) hop
  have hempty {position count : Nat} {op : FileOp} (hop : op ∈ reportEmptyLines position count) :
      op.IsReport := by
    exact isReport_of_mem_ite (isReport_reportError _ _ _ (by decide)) hop
  apply FileRule.isReporter_ofTokens
  · intro f g tokens position _
    rfl
  · intro f tokens position op hop
    dsimp only at hop
    split at hop
    · rcases List.mem_append.1 hop with hop | hop
      · exact htrailing hop
      · exact hempty hop
    · exact htrailing hop
  · intro f tokens position _ hposition
    rw [if_pos (Nat.le_of_lt hposition)]

theorem isReporter_tagsWhitespace : (tagsWhitespace : FileRule σ).IsReporter := by
  apply FileRule.isReporter_ofTokens
  · intro f g tokens position h
    rw [h.markup]
  · intro f tokens position op hop
    exact isReport_of_mem_check (isReport_reportError _ _ _ (by decide)) hop
  · intro f tokens position _ _
    dsimp only
    split <;> rfl

end Rules

theorem isReporter_of_mem_builtinEntries {e : RegisteredRule σ} (h : e ∈ builtinEntries) :
    e.rule.IsReporter := by
  simp only [builtinEntries, List.mem_cons, List.not_mem_nil, or_false] at h
  rcases h with rfl | rfl | rfl | rfl | rfl | rfl | rfl | rfl | rfl
  · exact Rules.isReporter_fileNoComment
  · exact Rules.isReporter_fixme
  · exact Rules.isReporter_noHtmlComment
  · exact Rules.isReporter_todo
  · exact Rules.isReporter_endFileNewline
  · exact Rules.isReporter_lineEndings
  · exact Rules.isReporter_disallowTabIndent
  · exact Rules.isReporter_superfluousWhitespace
  · exact Rules.isReporter_tagsWhitespace

end TemplateLint

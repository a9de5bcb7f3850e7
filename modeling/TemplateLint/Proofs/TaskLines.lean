import Mathlib.Data.List.Nodup
import Mathlib.Data.Option.Basic
import TemplateLint.Proofs.DiagnosticLines

/-!
# Tasks are reported on their lines

A rule about tasks looks at the pieces of a comment one by one and counts lines from the first line
of the comment. In a file with one line ending the pieces are parts of the lines of the file, so the
line that is reported is the one that mentions the task.
-/

namespace TemplateLint

variable {σ : Type}

/-- Whether line `k` of a template holds a keyword, in upper or lower case, inside a token of one of
the given kinds. -/
def Markup.HoldsKeyword (m : Markup) (s : Text) (types : List TokenType) (keyword : Text)
    (k : Nat) : Prop :=
  ∃ t ∈ m.tokenize s, t.type ∈ types ∧ ∃ j piece line word,
    k = t.firstLine + j ∧ (t.physicalLines (detectLineBreak s).text)[j]? = some piece ∧
      lineAt? s k = some line ∧ piece <:+: line ∧ word <:+: piece ∧ asciiLower word = keyword

namespace Rules

variable {keyword s rest : Text}

theorem exists_word_of_keywordHere? (h : keywordHere? keyword s = some rest) :
    ∃ word, word <+: s ∧ asciiLower word = keyword := by
  refine ⟨s.take keyword.length, List.take_prefix _ _, ?_⟩
  rw [keywordHere?] at h
  simp only [Option.ite_none_right_eq_some, Bool.and_eq_true, beq_iff_eq] at h
  exact h.1.1

theorem exists_word_of_afterKeyword? {previous : Option Char}
    (h : afterKeyword? keyword previous s = some rest) :
    ∃ word, word <:+: s ∧ asciiLower word = keyword := by
  induction s generalizing previous with
  | nil => simp [afterKeyword?] at h
  | cons c s ih =>
      rw [afterKeyword?] at h
      rcases (Option.orElse_eq_some _ _ _).1 h with hhere | ⟨-, hlater⟩
      · simp only [Option.ite_none_right_eq_some] at hhere
        obtain ⟨word, hword, hlower⟩ := exists_word_of_keywordHere? hhere.2
        exact ⟨word, hword.isInfix, hlower⟩
      · obtain ⟨word, hword, hlower⟩ := ih hlater
        exact ⟨word, hword.trans (List.suffix_cons c s).isInfix, hlower⟩

/-- A line that mentions a task holds the keyword. -/
theorem exists_word_of_taskOf? {right line task : Text}
    (h : taskOf? keyword right line = some task) :
    ∃ word, word <:+: line ∧ asciiLower word = keyword := by
  obtain ⟨rest, hrest, -⟩ := Option.map_eq_some_iff.1 h
  exact exists_word_of_afterKeyword? hrest

theorem line_of_reportTask {f : CheckedFile} {severity : Severity} {label task : Text}
    {position : Position} {d : Diagnostic}
    (h : (reportTask severity label task position).diagnostic? f = some d) :
    d.line = f.lineOf position := by
  rw [reportTask] at h
  split at h <;> rw [← Option.some.inj h] <;> rfl

end Rules

section Scopes

theorem prefix_of_scopeCovers {scope source : Text} (h : scopeCovers scope source) :
    scope <+: source := by
  by_contra hnot
  rw [scopeCovers, dropLeading?_eq_none_iff.2 hnot] at h
  exact Bool.false_ne_true h

theorem nodup_ids_builtinEntries :
    ((builtinEntries : List (RegisteredRule σ)).map RegisteredRule.id).Nodup := by
  simp only [builtinEntries, List.map_cons, List.map_nil]
  decide

/-- A rule that comes with the linter reports under no name but its own. -/
theorem eq_of_scopeCovers {e e' : RegisteredRule σ} (he : e ∈ builtinEntries)
    (he' : e' ∈ builtinEntries) {code : Text}
    (h : scopeCovers e'.id.text (e.id.sourceFor code)) : e = e' := by
  have hid := (isEntry_of_mem_builtinEntries he).id_eq
  have hid' := (isEntry_of_mem_builtinEntries he').id_eq
  have hsame := (RuleId.scopeCovers_sourceFor_iff hid' hid code).1 h
  exact List.inj_on_of_nodup_map nodup_ids_builtinEntries he he' hsame.symm

end Scopes

section Tasks

variable {types : List TokenType} {severity : Severity} {name keyword label path s : Text}

/-- What a rule about tasks finds at a token is on a line that holds the keyword inside it. -/
theorem RegisteredRule.holdsKeyword_of_mem_findings {e : RegisteredRule σ}
    (hrule : e.rule = .ofTokens name types fun file tokens position =>
      (Rules.reportTasks severity keyword label file tokens position, .done))
    (htypes : .newLine ∉ types) {l : Linter σ} (hl : Unbroken l.context.markup.left)
    (hr : Unbroken l.context.markup.right)
    (hmixed : hasMixedLineBreaks s (detectLineBreak s).text = false) {i : Nat} {t : Token}
    (ht : (l.context.markup.tokenize s)[i]? = some t) (htype : t.type ∈ types) {world : σ}
    {d : Diagnostic} (hd : d ∈ e.findings world (l.opened path s) i) :
    l.context.markup.HoldsKeyword s types keyword d.line := by
  rw [findings_ofTokens hrule (show (l.opened path s).tokens = _ from rfl)] at hd
  obtain ⟨op, hop, hdiagnostic⟩ := List.mem_filterMap.1 hd
  obtain ⟨u, hu, j, piece, task, hpiece, htask, rfl⟩ := Rules.exists_of_mem_reportTasks hop
  obtain rfl : t = u := Option.some.inj (ht.symm.trans hu)
  have hmem := List.mem_of_getElem? ht
  have hnew : t.type ≠ .newLine := fun h => htypes (h ▸ htype)
  obtain ⟨-, line, hline, hinfix⟩ :=
    Markup.exists_lineAt?_of_piece hl hr hmixed hmem hnew hpiece
  obtain ⟨word, hword, hlower⟩ := Rules.exists_word_of_taskOf? htask
  have hk : d.line = t.firstLine + j := Rules.line_of_reportTask hdiagnostic
  rw [← hk] at hline
  exact ⟨t, hmem, htype, j, piece, line, word, hk, hpiece, hline, hinfix, hword, hlower⟩

theorem Context.holdsKeyword_of_mem_findings {c : Context} (hl : Unbroken c.markup.left)
    (hr : Unbroken c.markup.right)
    (hmixed : hasMixedLineBreaks s (detectLineBreak s).text = false) {id : RuleId}
    (hentry : ⟨id, types, .ofTokens name types fun file tokens position =>
      (Rules.reportTasks severity keyword label file tokens position, .done)⟩ ∈
        (TemplateLint.builtinEntries : List (RegisteredRule Unit)))
    (htypes : .newLine ∉ types) {d : Diagnostic} (h : d ∈ c.builtinLinter.findings path s)
    (hcovers : scopeCovers id.text d.source) : c.markup.HoldsKeyword s types keyword d.line := by
  rcases Linter.mem_findings_cases h with h | ⟨i, t, ht, e, he, hd⟩
  · simp [Linter.mixedFindings, hmixed] at h
  · obtain ⟨hbuiltin, htype⟩ := mem_of_mem_listening he
    obtain ⟨code, hsource⟩ :=
      RegisteredRule.source_of_mem_findings (isReporter_of_mem_builtinEntries hbuiltin) hd
    rw [hsource] at hcovers
    obtain rfl := eq_of_scopeCovers hbuiltin hentry hcovers
    exact RegisteredRule.holdsKeyword_of_mem_findings (l := c.builtinLinter) rfl htypes hl hr hmixed
      ht htype hd

end Tasks

/-- For delimiters without breaks and templates with one line ending, a token of several lines has
as many pieces as lines, and its pieces are parts of these lines of the template. So a run reports a
task only on a line of the file that holds the keyword inside a comment. -/
theorem tasks_on_their_lines {config : Config} {l : Linter Unit}
    (h : Linter.withBuiltinRules config = .ok l) (hl : Unbroken config.leftDelimiter)
    (hr : Unbroken config.rightDelimiter) :
    (∀ s, hasMixedLineBreaks s (detectLineBreak s).text = false →
      ∀ t ∈ l.context.markup.tokenize s, t.isMultiLine →
        let pieces := t.physicalLines (detectLineBreak s).text
        t.firstLine ≤ t.line ∧ pieces.length = t.line - t.firstLine + 1 ∧
        ∀ j piece, pieces[j]? = some piece →
          Unbroken piece ∧ ∃ line, lineAt? s (t.firstLine + j) = some line ∧ piece <:+: line) ∧
    ∀ sources, List.Forall₂ (fun source r =>
        r.path = source.path ∧ ∀ s, source.contents = some s → ∀ d ∈ r.diagnostics,
          hasMixedLineBreaks s (detectLineBreak s).text = false →
          (scopeCovers "Commenting.Fixme".toList d.source → l.context.markup.HoldsKeyword s
            [.comment, .docComment, .htmlComment] "fixme".toList d.line) ∧
          (scopeCovers "Commenting.Todo".toList d.source → l.context.markup.HoldsKeyword s
            [.comment, .docComment] "todo".toList d.line))
      (sources.filter fun source => !l.skips source) (l.run sources).1.files := by
  obtain ⟨c, hc, rfl⟩ := exists_context_of_withBuiltinRules h
  obtain ⟨hleft, hright⟩ := Config.delimiters_of_markup (Context.ofConfig_eq_ok hc).1
  rw [← hleft] at hl
  rw [← hright] at hr
  constructor
  · intro s hmixed t ht hmulti
    exact Markup.pieces_of_isMultiLine hl hr hmixed ht hmulti
  · apply Linter.forall₂_run (onlyReports_builtinLinter c) rfl
    intro path s d hd hmixed
    constructor
    · intro hcovers
      have hfixme : ⟨⟨"Commenting".toList, "Fixme".toList⟩, [.comment, .docComment, .htmlComment],
          Rules.fixme⟩ ∈ (builtinEntries : List (RegisteredRule Unit)) := by simp [builtinEntries]
      exact c.holdsKeyword_of_mem_findings hl hr hmixed hfixme (by decide) hd hcovers
    · intro hcovers
      have htodo : ⟨⟨"Commenting".toList, "Todo".toList⟩, [.comment, .docComment],
          Rules.todo⟩ ∈ (builtinEntries : List (RegisteredRule Unit)) := by simp [builtinEntries]
      exact c.holdsKeyword_of_mem_findings hl hr hmixed htodo (by decide) hd hcovers

/-- Tasks on the second line of one comment and on the third line of another, in files with CRLF. -/
theorem tasks_on_their_lines_crlf :
    let s := "\x7b*\r\n FIXME a\r\n*\x7d\r\n".toList
    let s' := "\x7b*\r\n b\r\n todo: c *\x7d\r\n".toList
    let config : Config := { eolChar := "crlf".toList }
    Unbroken config.leftDelimiter ∧ Unbroken config.rightDelimiter ∧
    ∃ l, Linter.withBuiltinRules config = .ok l ∧
      (∃ t ∈ l.context.markup.tokenize s, t.isMultiLine ∧ (t.firstLine, t.line) = (1, 3) ∧
        (t.physicalLines (detectLineBreak s).text).length = t.line - t.firstLine + 1) ∧
      ∃ r r', (l.run [⟨[], some s⟩, ⟨[], some s'⟩]).1.files = [r, r'] ∧
        r.diagnostics.map (fun d => (d.line, d.source)) =
          [(2, "Commenting.Fixme.TaskFound".toList)] ∧
        r'.diagnostics.map (fun d => (d.line, d.source)) =
          [(3, "Commenting.Todo.TaskFound".toList)] ∧
        l.context.markup.HoldsKeyword s [.comment, .docComment, .htmlComment] "fixme".toList 2 ∧
        l.context.markup.HoldsKeyword s' [.comment, .docComment] "todo".toList 3 := by
  intro s s' config
  let c : Context := ⟨config, .standard, []⟩
  have hl : Linter.withBuiltinRules config = .ok c.builtinLinter := by
    rw [withBuiltinRules_eq]
    rfl
  have hleft : Unbroken config.leftDelimiter := by decide
  have hright : Unbroken config.rightDelimiter := by decide
  have hs : hasMixedLineBreaks s (detectLineBreak s).text = false := by decide
  have hs' : hasMixedLineBreaks s' (detectLineBreak s').text = false := by decide
  obtain ⟨hpieces, hrun⟩ := tasks_on_their_lines hl hleft hright
  replace hrun := hrun [⟨[], some s⟩, ⟨[], some s'⟩]
  have hkept : [⟨[], some s⟩, ⟨[], some s'⟩].filter
      (fun source => !c.builtinLinter.skips source) = [⟨[], some s⟩, ⟨[], some s'⟩] := by
    decide +kernel
  rw [hkept, List.forall₂_cons_left_iff] at hrun
  obtain ⟨r, rest, ⟨-, hr⟩, hrest, hfiles⟩ := hrun
  rw [List.forall₂_cons_left_iff] at hrest
  obtain ⟨r', rest, ⟨-, hr'⟩, hrest, rfl⟩ := hrest
  rw [List.forall₂_nil_left_iff.1 hrest] at hfiles
  have hfound : ((c.builtinLinter.run [⟨[], some s⟩, ⟨[], some s'⟩]).1.files.map fun r =>
      r.diagnostics.map fun d => (d.line, d.source)) =
        [[(2, "Commenting.Fixme.TaskFound".toList)],
          [(3, "Commenting.Todo.TaskFound".toList)]] := by decide +kernel
  simp only [hfiles, List.map_cons, List.map_nil, List.cons.injEq, and_true] at hfound
  obtain ⟨hfixme, htodo⟩ := hfound
  refine ⟨hleft, hright, c.builtinLinter, hl, ?_, r, r', hfiles, hfixme, htodo, ?_, ?_⟩
  · let t : Token := ⟨.docComment, "\x7b*\r\n FIXME a\r\n*\x7d".toList, 3, some 1⟩
    have ht : t ∈ c.builtinLinter.context.markup.tokenize s := by decide +kernel
    exact ⟨t, ht, rfl, rfl, (hpieces s hs t ht rfl).2.1⟩
  · obtain ⟨d, hd, hline⟩ := List.mem_map.1 (hfixme ▸ List.mem_cons_self)
    obtain ⟨hk, hsource⟩ := Prod.mk.inj hline
    have hcovers : scopeCovers "Commenting.Fixme".toList d.source := by
      rw [hsource]
      decide
    rw [← hk]
    exact (hr s rfl d hd hs).1 hcovers
  · obtain ⟨d, hd, hline⟩ := List.mem_map.1 (htodo ▸ List.mem_cons_self)
    obtain ⟨hk, hsource⟩ := Prod.mk.inj hline
    have hcovers : scopeCovers "Commenting.Todo".toList d.source := by
      rw [hsource]
      decide
    rw [← hk]
    exact (hr' s' rfl d hd hs').2 hcovers

end TemplateLint

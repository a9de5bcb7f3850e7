import TemplateLint.Proofs.RunOrder
import TemplateLint.Proofs.Runs
import TemplateLint.Proofs.TokenLines

/-!
# Diagnostics stay inside their file

A rule points at a token or at one of the pieces into which the line ending of the file cuts a
token. A token has at most as many pieces as lines, whichever breaks are in it, so what is reported
is on a line of the file.
-/

namespace TemplateLint

variable {σ : Type}

namespace Linter

variable {l : Linter σ}

theorem fileReport?_eq_none_iff (l : Linter σ) (source : SourceFile) :
    l.fileReport? source = none ↔ l.skips source := by
  obtain ⟨path, contents⟩ := source
  rw [fileReport?, Option.map_eq_none_iff, found?, skips, Bool.or_eq_true]
  by_cases hglobal : l.context.patterns.isGloballyIgnored path
  · simp [hglobal]
  · cases contents <;> simp [hglobal]

/-- What is reported about a file was found in it. -/
theorem mem_findings_of_fileReport? {path s : Text} {r : FileReport}
    (h : l.fileReport? ⟨path, some s⟩ = some r) {d : Diagnostic} (hd : d ∈ r.diagnostics) :
    d ∈ l.findings path s := by
  obtain ⟨ds, hfound, rfl⟩ := Option.map_eq_some_iff.1 h
  have hkept : d ∈ l.context.kept path ds := List.mem_mergeSort.1 hd
  rw [found?] at hfound
  split at hfound
  · simp at hfound
  · simp only [Option.ite_none_left_eq_some, Option.some.injEq] at hfound
    rw [hfound.2]
    exact List.mem_of_mem_filter hkept

theorem path_of_fileReport? {source : SourceFile} {r : FileReport}
    (h : l.fileReport? source = some r) : r.path = source.path := by
  obtain ⟨ds, -, rfl⟩ := Option.map_eq_some_iff.1 h
  rfl

/-- A run reports on the files that are not skipped, one by one. -/
theorem forall₂_run_fileReport? (hl : l.OnlyReports) (hfiles : l.files = [])
    (sources : List SourceFile) :
    List.Forall₂ (fun source r => l.fileReport? source = some r)
      (sources.filter fun source => !l.skips source) (l.run sources).1.files := by
  rw [run_eq hl hfiles]
  induction sources with
  | nil => exact .nil
  | cons source sources ih =>
      cases hreport : l.fileReport? source with
      | none =>
          have hskip := (l.fileReport?_eq_none_iff source).1 hreport
          simpa [hreport, hskip] using ih
      | some r =>
          have hkeep : l.skips source = false := by
            rw [← Bool.not_eq_true, ← fileReport?_eq_none_iff, hreport]
            simp
          simp only [List.filterMap_cons, hreport, hkeep, Bool.not_false, List.filter_cons_of_pos]
          exact .cons hreport ih

/-- What holds of every finding in a file holds of what a run reports about it. -/
theorem forall₂_run (hl : l.OnlyReports) (hfiles : l.files = []) {P : Text → Diagnostic → Prop}
    (hfindings : ∀ path s, ∀ d ∈ l.findings path s, P s d) (sources : List SourceFile) :
    List.Forall₂ (fun source r =>
        r.path = source.path ∧ ∀ s, source.contents = some s → ∀ d ∈ r.diagnostics, P s d)
      (sources.filter fun source => !l.skips source) (l.run sources).1.files := by
  refine (forall₂_run_fileReport? hl hfiles sources).imp fun source r hreport => ?_
  refine ⟨path_of_fileReport? hreport, fun s hs d hd => ?_⟩
  have hsource : source = ⟨source.path, some s⟩ := by rw [← hs]
  rw [hsource] at hreport
  exact hfindings _ s d (mem_findings_of_fileReport? hreport hd)

end Linter

/-- Whether a position does not leave the tokens: a line inside a token is one to which the breaks
of the token lead. -/
def Position.IsInside (tokens : TokenStream) : Position → Prop
  | wholeFile => True
  | token _ => True
  | line base offset => ∃ t ∈ tokens, base = t.firstLine ∧ offset ≤ countLineBreaks t.content

/-- Whether an operation reports nothing outside the tokens. -/
def FileOp.PointsInside (tokens : TokenStream) : FileOp → Prop
  | add _ _ position _ _ => position.IsInside tokens
  | _ => True

def FileChange.PointsInside (tokens : TokenStream) : FileChange → Prop
  | edit op => op.PointsInside tokens
  | replace _ _ => True

/-- Whether a rule reports nothing outside the tokens of a file, whichever line ending the file is
said to have. -/
def FileRule.PointsInside (r : FileRule σ) : Prop :=
  ∀ world (f : CheckedFile) tokens position (b : LineBreak), f.tokens = some tokens →
    f.eol = b.text →
      ∀ change ∈ (r.process world f position).changes, change.PointsInside tokens

theorem FileRule.pointsInside_ofTokens {name : Text} {listens : List TokenType}
    {check : CheckedFile → TokenStream → Nat → List FileOp × Ending}
    (hcheck : ∀ f tokens position (b : LineBreak), f.eol = b.text →
      ∀ op ∈ (check f tokens position).1, op.PointsInside tokens) :
    (FileRule.ofTokens name listens check : FileRule σ).PointsInside := by
  intro world f tokens position b htokens heol
  simp only [ofTokens, CheckedFile.requireTokens, htokens]
  exact List.forall_mem_map.2 (hcheck f tokens position b heol)

/-- A rule that comes to one report or to none points inside if the report does. -/
theorem FileRule.pointsInside_of_check {name : Text} {listens : List TokenType}
    {p : CheckedFile → TokenStream → Nat → Bool}
    {report : CheckedFile → TokenStream → Nat → FileOp}
    (hreport : ∀ f tokens position, (report f tokens position).PointsInside tokens) :
    (FileRule.ofTokens name listens fun f tokens position =>
      if p f tokens position then ([report f tokens position], .done) else ([], .done) :
        FileRule σ).PointsInside := by
  apply pointsInside_ofTokens
  intro f tokens position _ _ op hop
  rw [eq_of_mem_check hop]
  exact hreport f tokens position

namespace Rules

/-- A rule about tasks points at the pieces of a comment. -/
theorem pointsInside_reportTasks {name : Text} {listens : List TokenType} {severity : Severity}
    {keyword label : Text} :
    (FileRule.ofTokens name listens fun file tokens position =>
      (reportTasks severity keyword label file tokens position, .done) :
        FileRule σ).PointsInside := by
  apply FileRule.pointsInside_ofTokens
  intro f tokens position b heol op hop
  obtain ⟨t, ht, j, piece, task, hpiece, -, rfl⟩ := exists_of_mem_reportTasks hop
  have hj := (List.getElem?_eq_some_iff.1 hpiece).1
  rw [heol] at hj
  have hpieces := t.length_physicalLines_le b
  have hinside : (Position.line t.firstLine j).IsInside tokens :=
    ⟨t, List.mem_of_getElem? ht, rfl, by omega⟩
  rw [reportTask]
  split <;> exact hinside

theorem pointsInside_noHtmlComment : (noHtmlComment : FileRule σ).PointsInside := by
  apply FileRule.pointsInside_ofTokens
  intro f tokens position _ _ op hop
  split at hop
  · simp at hop
  next t ht =>
    rw [List.mem_singleton.1 hop]
    exact ⟨t, List.mem_of_getElem? ht, rfl, Nat.zero_le _⟩

theorem pointsInside_endFileNewline : (endFileNewline : FileRule σ).PointsInside := by
  apply FileRule.pointsInside_ofTokens
  intro f tokens position _ _ op hop
  split at hop
  · obtain ⟨message, index, code, args, rfl, -⟩ := exists_of_mem_checkEnding hop
    trivial
  · simp at hop

theorem pointsInside_superfluousWhitespace :
    (superfluousWhitespace : FileRule σ).PointsInside := by
  have htrailing {tokens : TokenStream} {position : Nat} {op : FileOp}
      (hop : op ∈ reportTrailing tokens position) : op.PointsInside tokens := by
    rw [eq_of_mem_ite hop]
    trivial
  have hempty {tokens : TokenStream} {position count : Nat} {op : FileOp}
      (hop : op ∈ reportEmptyLines position count) : op.PointsInside tokens := by
    rw [eq_of_mem_ite hop]
    by_cases h : count ≤ position
    · rw [if_pos h]
      trivial
    · rw [if_neg h]
      trivial
  apply FileRule.pointsInside_ofTokens
  intro f tokens position _ _ op hop
  dsimp only at hop
  split at hop
  · rcases List.mem_append.1 hop with hop | hop
    · exact htrailing hop
    · exact hempty hop
  · exact htrailing hop

end Rules

theorem pointsInside_of_mem_builtinEntries {e : RegisteredRule σ} (h : e ∈ builtinEntries) :
    e.rule.PointsInside := by
  simp only [builtinEntries, List.mem_cons, List.not_mem_nil, or_false] at h
  rcases h with rfl | rfl | rfl | rfl | rfl | rfl | rfl | rfl | rfl
  · exact FileRule.pointsInside_of_check fun _ _ _ => trivial
  · exact Rules.pointsInside_reportTasks
  · exact Rules.pointsInside_noHtmlComment
  · exact Rules.pointsInside_reportTasks
  · exact Rules.pointsInside_endFileNewline
  · exact FileRule.pointsInside_of_check fun _ _ _ => trivial
  · exact FileRule.pointsInside_of_check fun _ _ _ => trivial
  · exact Rules.pointsInside_superfluousWhitespace
  · exact FileRule.pointsInside_of_check fun _ _ _ => trivial

/-- Whether a diagnostic is at the start of a line of a template. -/
structure Diagnostic.IsInside (d : Diagnostic) (s : Text) : Prop where
  column_eq : d.column = 1
  one_le_line : 1 ≤ d.line
  line_le : d.line ≤ 1 + countLineBreaks s

section Lines

variable {m : Markup} {s : Text} {f : CheckedFile}

theorem Position.IsInside.lineOf_mem (hl : Unbroken m.left) (hr : Unbroken m.right)
    (htokens : f.tokens = some (m.tokenize s)) {p : Position} (hp : p.IsInside (m.tokenize s)) :
    1 ≤ f.lineOf p ∧ f.lineOf p ≤ 1 + countLineBreaks s := by
  cases p with
  | wholeFile => exact ⟨Nat.le_refl _, Nat.le_add_right _ _⟩
  | token index =>
      rw [CheckedFile.lineOf, htokens, Option.bind_some]
      cases ht : (m.tokenize s)[index]? with
      | none => exact ⟨Nat.le_refl _, Nat.le_add_right _ _⟩
      | some t =>
          obtain ⟨before, after, hs, hstands⟩ :=
            Markup.exists_standsBetween hl hr (List.mem_of_getElem? ht)
          have hlow := hstands.startsOn.le_line
          have hhigh := hstands.startsOn.line_le
          have hinside := hstands.firstLine_add_le
          rw [hstands.startsOn.first, ← hs] at hinside
          simp only [Option.map_some, Option.getD_some]
          omega
  | line base offset =>
      obtain ⟨t, ht, rfl, hoffset⟩ := hp
      obtain ⟨before, after, hs, hstands⟩ := Markup.exists_standsBetween hl hr ht
      have hlow := hstands.firstLine_pos
      have hinside := hstands.firstLine_add_le
      rw [← hs] at hinside
      rw [CheckedFile.lineOf]
      omega

/-- Line numbers that are added in 64 bits come out the same, unless the template has more lines
than can be counted with them. -/
theorem Position.IsInside.lineOf_mod (hl : Unbroken m.left) (hr : Unbroken m.right)
    (htokens : f.tokens = some (m.tokenize s)) (hs : 1 + countLineBreaks s < UInt64.size)
    {p : Position} (hp : p.IsInside (m.tokenize s)) : f.lineOf p % UInt64.size = f.lineOf p :=
  Nat.mod_eq_of_lt ((hp.lineOf_mem hl hr htokens).2.trans_lt hs)

theorem FileOp.PointsInside.isInside (hl : Unbroken m.left) (hr : Unbroken m.right)
    (htokens : f.tokens = some (m.tokenize s)) {op : FileOp} (hop : op.PointsInside (m.tokenize s))
    {d : Diagnostic} (hd : op.diagnostic? f = some d) : d.IsInside s := by
  cases op with
  | add severity template position code args =>
      obtain ⟨hlow, hhigh⟩ := Position.IsInside.lineOf_mem hl hr htokens hop
      rw [← Option.some.inj hd]
      exact ⟨rfl, hlow, hhigh⟩
  | _ => simp [diagnostic?] at hd

theorem FileChange.PointsInside.isInside (hl : Unbroken m.left) (hr : Unbroken m.right)
    (htokens : f.tokens = some (m.tokenize s)) {change : FileChange}
    (hchange : change.PointsInside (m.tokenize s)) {d : Diagnostic}
    (hd : change.diagnostic? f = some d) : d.IsInside s := by
  cases change with
  | edit op => exact FileOp.PointsInside.isInside hl hr htokens hchange hd
  | replace path context => simp [diagnostic?] at hd

end Lines

theorem Context.isInside_of_mem_findings {c : Context} (hl : Unbroken c.markup.left)
    (hr : Unbroken c.markup.right) {path s : Text} {d : Diagnostic}
    (h : d ∈ c.builtinLinter.findings path s) : d.IsInside s := by
  rcases Linter.mem_findings_cases h with h | ⟨i, t, ht, e, he, hd⟩
  · have hpoints : FileOp.PointsInside (c.markup.tokenize s) (.add .error
        "File has mixed line endings; this may cause incorrect results".toList (.token 0)
        "Internal.LineEndings.Mixed".toList []) := trivial
    rw [Linter.mixedFindings] at h
    rw [eq_of_mem_ite h]
    exact hpoints.isInside hl hr rfl rfl
  · obtain ⟨change, hchange, hdiagnostic⟩ := List.mem_filterMap.1 hd
    have hpoints := pointsInside_of_mem_builtinEntries (mem_of_mem_listening he).1
    have hinside := hpoints _ _ _ i (detectLineBreak s) rfl rfl change hchange
    exact hinside.isInside hl hr rfl hdiagnostic

/-- With the rules that come with the linter and delimiters without breaks, a run reports on the
files that are not skipped, each in its place, and every diagnostic is in column 1 of a line of its
file. -/
theorem diagnostics_inside_file {config : Config} {l : Linter Unit}
    (h : Linter.withBuiltinRules config = .ok l) (hl : Unbroken config.leftDelimiter)
    (hr : Unbroken config.rightDelimiter) (sources : List SourceFile) :
    List.Forall₂ (fun source r =>
        r.path = source.path ∧ ∀ s, source.contents = some s → ∀ d ∈ r.diagnostics, d.IsInside s)
      (sources.filter fun source => !l.skips source) (l.run sources).1.files := by
  obtain ⟨c, hc, rfl⟩ := exists_context_of_withBuiltinRules h
  obtain ⟨hleft, hright⟩ := Config.delimiters_of_markup (Context.ofConfig_eq_ok hc).1
  rw [← hleft] at hl
  rw [← hright] at hr
  apply Linter.forall₂_run (onlyReports_builtinLinter c) rfl
  intro path s d hd
  exact c.isInside_of_mem_findings hl hr hd

/-- Two tasks in a comment whose breaks are written in three ways. -/
theorem diagnostics_inside_file_mixed_endings :
    let s := "\x7b*\n todo: a\r\n\r todo: b *\x7d\n".toList
    Unbroken ({} : Config).leftDelimiter ∧ Unbroken ({} : Config).rightDelimiter ∧
    ∃ l, Linter.withBuiltinRules {} = .ok l ∧ ∃ r, (l.run [⟨[], some s⟩]).1.files = [r] ∧
      (r.errors, r.warnings, r.lines) = (1, 2, 3) ∧ countLineBreaks s = 4 ∧
      ∀ d ∈ r.diagnostics, d.IsInside s := by
  intro s
  let c : Context := ⟨{}, .standard, []⟩
  have hl : Linter.withBuiltinRules {} = .ok c.builtinLinter := by
    rw [withBuiltinRules_eq]
    rfl
  have hleft : Unbroken ({} : Config).leftDelimiter := by decide
  have hright : Unbroken ({} : Config).rightDelimiter := by decide
  have hrun := diagnostics_inside_file hl hleft hright [⟨[], some s⟩]
  have hkept : [⟨[], some s⟩].filter (fun source => !c.builtinLinter.skips source) =
      [⟨[], some s⟩] := by decide +kernel
  rw [hkept, List.forall₂_cons_left_iff] at hrun
  obtain ⟨r, rest, ⟨-, hinside⟩, hrest, hfiles⟩ := hrun
  rw [List.forall₂_nil_left_iff.1 hrest] at hfiles
  have hcounts : ((c.builtinLinter.run [⟨[], some s⟩]).1.files.map fun r =>
      (r.errors, r.warnings, r.lines)) = [(1, 2, 3)] := by decide +kernel
  rw [hfiles] at hcounts
  exact ⟨hleft, hright, c.builtinLinter, hl, r, hfiles, (List.cons.inj hcounts).1, by decide,
    hinside s rfl⟩

end TemplateLint

import TemplateLint.Proofs.Findings

/-!
# Runs of reporters

A linter whose rules are reporters treats every file by itself: a run reports, file by file, what
was found and not suppressed, in the order of a report.
-/

namespace TemplateLint

namespace Linter

variable {σ : Type}

/-- Whether all rules of a linter are reporters. -/
structure OnlyReports (l : Linter σ) : Prop where
  isReporter : ∀ t, ∀ e ∈ l.registry.listening t, e.rule.IsReporter
  multiFileRules : l.registry.multiFileRules = []

/-- A file with the given contents before any rule is called. -/
def opened (l : Linter σ) (path contents : Text) : CheckedFile :=
  ((CheckedFile.new path l.context).setEol (detectLineBreak contents).text).setTokens
    (l.context.markup.tokenize contents)

/-- What is said about line endings that differ inside a file. -/
def mixedFindings (l : Linter σ) (path contents : Text) : List Diagnostic :=
  if hasMixedLineBreaks contents (detectLineBreak contents).text then
    [(l.opened path contents).diagnosticFor .error
      "File has mixed line endings; this may cause incorrect results".toList (.token 0)
      "Internal.LineEndings.Mixed".toList []]
  else []

/-- What is found in a file with the given contents if nothing is suppressed. -/
def findings (l : Linter σ) (path contents : Text) : List Diagnostic :=
  if (l.context.markup.tokenize contents).any Token.optsOut then []
  else
    l.mixedFindings path contents ++
      l.registry.findings l.world (l.opened path contents) 0 (l.context.markup.tokenize contents)

/-- A finding is about mixed line endings, or a rule reported it at a token that it listens for. -/
theorem mem_findings_cases {l : Linter σ} {path s : Text} {d : Diagnostic}
    (h : d ∈ l.findings path s) :
    d ∈ l.mixedFindings path s ∨
      ∃ i t, (l.context.markup.tokenize s)[i]? = some t ∧
        ∃ e ∈ l.registry.listening t.type, d ∈ e.findings l.world (l.opened path s) i := by
  rw [findings] at h
  split at h
  · exact absurd h List.not_mem_nil
  · rcases List.mem_append.1 h with h | h
    · exact Or.inl h
    · obtain ⟨i, t, ht, e, he, hd⟩ := Registry.exists_getElem?_of_mem_findings h
      rw [Nat.zero_add] at hd
      exact Or.inr ⟨i, t, ht, e, he, hd⟩

theorem ready_opened (l : Linter σ) (path contents : Text) :
    (l.opened path contents).Ready (l.context.markup.tokenize contents) :=
  ⟨rfl, rfl, Lexeme.pairwise_line_place 1 _⟩

theorem opened_withLog_nil (l : Linter σ) (path contents : Text) :
    (l.opened path contents).withLog [] = l.opened path contents := rfl

/-- The report on mixed line endings stands in the log before any rule is called. -/
theorem opened_mixed (l : Linter σ) (path contents : Text) :
    (if hasMixedLineBreaks contents (detectLineBreak contents).text then
      (l.opened path contents).add .error
        "File has mixed line endings; this may cause incorrect results".toList (.token 0)
        "Internal.LineEndings.Mixed".toList []
      else l.opened path contents) =
        (l.opened path contents).withLog
          ((l.opened path contents).kept (l.mixedFindings path contents)) := by
  by_cases h : hasMixedLineBreaks contents (detectLineBreak contents).text
  · rw [if_pos h, mixedFindings, if_pos h]
    nth_rewrite 1 [← l.opened_withLog_nil path contents]
    rw [CheckedFile.add_withLog, List.nil_append]
  · rw [if_neg h, mixedFindings, if_neg h]
    exact (l.opened_withLog_nil path contents).symm

/-- Checking contents comes to the findings that are not suppressed. No rule fails. -/
theorem checkContents_eq {l : Linter σ} (hl : l.OnlyReports) (path contents : Text) :
    l.checkContents (CheckedFile.new path l.context) contents =
      (l.world, (l.opened path contents).releaseTokens.withLog
        (l.context.kept path (l.findings path contents))) := by
  have hdispatch := Registry.dispatch_withLog hl.isReporter (l.ready_opened path contents) l.world
    ((l.opened path contents).kept (l.mixedFindings path contents))
  rw [← CheckedFile.kept_append] at hdispatch
  have hkept : (if (l.context.markup.tokenize contents).any Token.optsOut then []
      else (l.opened path contents).kept (l.mixedFindings path contents ++
        l.registry.findings l.world (l.opened path contents) 0
          (l.context.markup.tokenize contents))) =
        l.context.kept path (l.findings path contents) := by
    rw [findings]
    split
    · rfl
    · rfl
  rw [hkept] at hdispatch
  have hmulti : l.registry.hasMultiFileRules = false := by
    rw [Registry.hasMultiFileRules, hl.multiFileRules]
    rfl
  unfold checkContents
  dsimp only
  rw [show ((CheckedFile.new path l.context).setEol (detectLineBreak contents).text).setTokens
    (l.context.markup.tokenize contents) = l.opened path contents from rfl, opened_mixed, hdispatch,
    hmulti]
  rfl

/-- What is said about a file that could not be read. -/
def unreadableFinding (l : Linter σ) (path : Text) : Diagnostic :=
  (CheckedFile.new path l.context).diagnosticFor .error
    "Error opening file; could not auto-detect line endings".toList .wholeFile
    "Internal.DetectLineEndings".toList []

/-- What is found in a file if nothing is suppressed, unless the file is skipped. -/
def found? (l : Linter σ) (source : SourceFile) : Option (List Diagnostic) :=
  if l.context.patterns.isGloballyIgnored source.path then none
  else
    match source.contents with
    | none => some [l.unreadableFinding source.path]
    | some contents => if optsOut contents then none else some (l.findings source.path contents)

/-- The report about one file, unless it is skipped. -/
def fileReport? (l : Linter σ) (source : SourceFile) : Option FileReport :=
  (l.found? source).map fun ds =>
    .ofDiagnostics source.path (inReportOrder (l.context.kept source.path ds))

/-- A file as it is kept after it was checked, unless it is skipped. -/
def checkedFile? (l : Linter σ) (source : SourceFile) : Option CheckedFile :=
  (l.found? source).map fun ds =>
    (match source.contents with
      | none => CheckedFile.new source.path l.context
      | some contents => (l.opened source.path contents).releaseTokens).withLog
        (l.context.kept source.path ds)

theorem map_ofFile_checkedFile? (l : Linter σ) (source : SourceFile) :
    (l.checkedFile? source).map FileReport.ofFile = l.fileReport? source := by
  rw [checkedFile?, fileReport?, Option.map_map]
  congr 1
  funext ds
  rw [Function.comp_apply, FileReport.ofFile_withLog]
  split <;> rfl

theorem processFile_eq {l : Linter σ} (hl : l.OnlyReports) (source : SourceFile) :
    l.processFile source =
      match l.checkedFile? source with
      | none => (.skipped, l)
      | some file => l.keep l.world file := by
  obtain ⟨path, contents⟩ := source
  rw [checkedFile?, found?, processFile]
  by_cases hglobal : l.context.patterns.isGloballyIgnored path
  · rw [if_pos hglobal, if_pos hglobal]
    rfl
  · rw [if_neg hglobal, if_neg hglobal]
    cases contents with
    | none =>
        have hadd := CheckedFile.add_withLog (CheckedFile.new path l.context) [] .error
          "Error opening file; could not auto-detect line endings".toList .wholeFile
          "Internal.DetectLineEndings".toList []
        rw [CheckedFile.new_withLog_nil, List.nil_append] at hadd
        dsimp only
        rw [hadd]
        rfl
    | some contents =>
        dsimp only
        by_cases hskip : optsOut contents
        · rw [if_pos hskip, if_pos hskip]
          rfl
        · rw [if_neg hskip, if_neg hskip, checkContents_eq hl]
          rfl

/-- The linter with more files. -/
def withMoreFiles (l : Linter σ) (files : List CheckedFile) : Linter σ :=
  { l with files := l.files ++ files }

/-- Files are checked one by one, each as if it were the only one. -/
theorem foldl_processFile {l : Linter σ} (hl : l.OnlyReports) (sources : List SourceFile) :
    sources.foldl (fun l source => (l.processFile source).2) l =
      l.withMoreFiles (sources.filterMap l.checkedFile?) := by
  induction sources generalizing l with
  | nil => simp [withMoreFiles]
  | cons source sources ih =>
      rw [List.foldl_cons, processFile_eq hl, List.filterMap_cons]
      cases h : l.checkedFile? source with
      | none => exact ih hl
      | some file =>
          have hmore : (l.withMoreFiles [file]).OnlyReports :=
            ⟨hl.isReporter, hl.multiFileRules⟩
          change sources.foldl _ (l.withMoreFiles [file]) = _
          rw [ih hmore]
          simp only [withMoreFiles, List.append_assoc, List.singleton_append]
          rfl

theorem processMultiFileRules_of_nil {l : Linter σ} (h : l.registry.multiFileRules = []) :
    l.processMultiFileRules = { l with files := l.files.map CheckedFile.releaseTokens } := by
  rw [processMultiFileRules, Registry.dispatchMulti, h]
  simp

/-- The report of a run, file by file. -/
theorem run_eq {l : Linter σ} (hl : l.OnlyReports) (hfiles : l.files = [])
    (sources : List SourceFile) :
    (l.run sources).1 =
      { files := sources.filterMap l.fileReport?, failures := l.failures } := by
  have hreports : (sources.filterMap l.checkedFile?).map FileReport.ofFile =
      sources.filterMap l.fileReport? := by
    rw [List.map_filterMap]
    congr 1
    funext source
    exact l.map_ofFile_checkedFile? source
  have hrelease (files : List CheckedFile) :
      (files.map CheckedFile.releaseTokens).map FileReport.ofFile =
        files.map FileReport.ofFile := by
    rw [List.map_map]
    rfl
  have hmulti : (l.withMoreFiles (sources.filterMap l.checkedFile?)).registry.multiFileRules = [] :=
    hl.multiFileRules
  rw [run, foldl_processFile hl]
  split
  · rw [processMultiFileRules_of_nil hmulti]
    change Report.mk (((l.files ++ _).map CheckedFile.releaseTokens).map FileReport.ofFile) _ = _
    rw [hrelease, hfiles, List.nil_append, hreports]
    rfl
  · change Report.mk ((l.files ++ _).map FileReport.ofFile) l.failures = _
    rw [hfiles, List.nil_append, hreports]

end Linter

theorem Context.mem_of_mem_listening {c : Context} {type : TokenType} {e : RegisteredRule Unit}
    (he : e ∈ c.builtinLinter.registry.listening type) :
    e ∈ TemplateLint.builtinEntries ∧ type ∈ e.tokenTypes := by
  rw [builtinLinter, Registry.listening_ofEntries] at he
  obtain ⟨hentry, htype⟩ := List.mem_filter.1 he
  exact ⟨List.mem_of_mem_filter hentry, List.contains_iff_mem.1 htype⟩

theorem onlyReports_builtinLinter (context : Context) : context.builtinLinter.OnlyReports where
  isReporter _ _ he := isReporter_of_mem_builtinEntries (Context.mem_of_mem_listening he).1
  multiFileRules := Registry.multiFileRules_ofEntries _

end TemplateLint

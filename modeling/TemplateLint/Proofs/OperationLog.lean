import TemplateLint.Proofs.DiagnosticLog

/-!
# Files against a plain log

Beside a file a plain log is kept of the operations that are carried out on it: a report is appended
unless its source is suppressed, clearing empties the log, and an abort leaves one error in it.
After any operations the file shows what the log holds: in the order of a report, counted by
severity and by line.
-/

namespace TemplateLint

/-- What decides the place and the source of a report, and the reports so far in their order. -/
structure FileLog where
  tokens : Option TokenStream := none
  activeRule : Option RuleId := none
  entries : List Diagnostic := []
  deriving DecidableEq, Repr

namespace FileLog

def lineOf (l : FileLog) : Position → Nat
  | .wholeFile => 1
  | .token index => (l.tokens.getD [])[index]?.elim 1 Token.line
  | .line base offset => base + offset

def sourceFor (l : FileLog) (code : Text) : Text :=
  if internalStart <+: code then code
  else l.activeRule.elim unknownSource fun rule => rule.sourceFor code

/-- A report as it is written into the log. -/
def diagnosticFor (l : FileLog) (severity : Severity) (template : Text) (position : Position)
    (code : Text) (args : List Text) : Diagnostic where
  line := l.lineOf position
  column := 1
  severity := severity
  message := formatMessage template args
  source := l.sourceFor code

/-- What one operation does to the log of the file at `path`. -/
def step (context : Context) (path : Text) (l : FileLog) : FileOp → FileLog
  | .setTokens tokens => { l with tokens := some tokens }
  | .releaseTokens => { l with tokens := none }
  | .setEol _ => l
  | .setActiveRule rule => { l with activeRule := rule }
  | .add severity template position code args =>
      if context.isSuppressed path (l.sourceFor code) then l
      else
        { l with entries := l.entries ++ [l.diagnosticFor severity template position code args] }
  | .clearDiagnostics => { l with entries := [] }
  | .recordAbort reason => { l with entries := [.aborted reason] }

/-- The log of operations on a new file. -/
def ofOps (context : Context) (path : Text) (ops : List FileOp) : FileLog :=
  ops.foldl (step context path) {}

theorem ofOps_append_singleton (context : Context) (path : Text) (ops : List FileOp) (op : FileOp) :
    ofOps context path (ops ++ [op]) = (ofOps context path ops).step context path op := by
  rw [ofOps, List.foldl_append]
  rfl

theorem column_of_mem_ofOps (context : Context) (path : Text) (ops : List FileOp) :
    ∀ d ∈ (ofOps context path ops).entries, d.column = 1 := by
  induction ops using List.reverseRecOn with
  | nil => simp [ofOps]
  | append_singleton ops op ih =>
      rw [ofOps_append_singleton]
      cases op with
      | add severity template position code args =>
          intro d hd
          rw [step] at hd
          split at hd
          · exact ih d hd
          · rcases List.mem_append.1 hd with hd | hd
            · exact ih d hd
            · rw [List.mem_singleton.1 hd]
              rfl
      | clearDiagnostics => simp [step]
      | recordAbort reason => simp [step, Diagnostic.aborted]
      | _ => exact ih

end FileLog

namespace CheckedFile

/-- Whether a file has the settings of a log, and its diagnostics and counts are of its entries. -/
structure Shows (f : CheckedFile) (l : FileLog) : Prop where
  tokens_eq : f.tokens = l.tokens
  activeRule_eq : f.activeRule = l.activeRule
  withLog_eq : f.withLog l.entries = f

variable {f : CheckedFile} {l : FileLog}

theorem Shows.lineOf_eq (h : f.Shows l) (position : Position) :
    f.lineOf position = l.lineOf position := by
  cases position with
  | token index =>
      rw [lineOf, FileLog.lineOf, h.tokens_eq]
      cases l.tokens with
      | none => rfl
      | some tokens =>
          change ((tokens[index]?).map Token.line).getD 1 = (tokens[index]?).elim 1 Token.line
          cases tokens[index]? <;> rfl
  | _ => rfl

theorem Shows.sourceFor_eq (h : f.Shows l) (code : Text) : f.sourceFor code = l.sourceFor code := by
  rw [sourceFor, FileLog.sourceFor, h.activeRule_eq]
  by_cases hcode : internalStart <+: code
  · rw [if_pos hcode, if_pos (List.isPrefixOf_iff_prefix.2 hcode)]
  · rw [if_neg hcode, if_neg (mt List.isPrefixOf_iff_prefix.1 hcode)]
    cases l.activeRule <;> rfl

theorem Shows.suppresses_eq (h : f.Shows l) (code : Text) :
    f.suppresses code = f.context.isSuppressed f.path (l.sourceFor code) := by
  rw [suppresses, h.sourceFor_eq]

/-- One operation does the same to the file and to the log. -/
theorem Shows.apply (h : f.Shows l) (op : FileOp) :
    (op.apply f).Shows (l.step f.context f.path op) := by
  cases op with
  | setTokens tokens =>
      exact ⟨rfl, h.activeRule_eq, congrArg (setTokens · tokens) h.withLog_eq⟩
  | releaseTokens => exact ⟨rfl, h.activeRule_eq, congrArg releaseTokens h.withLog_eq⟩
  | setEol eol => exact ⟨h.tokens_eq, h.activeRule_eq, congrArg (setEol · eol) h.withLog_eq⟩
  | setActiveRule rule =>
      exact ⟨h.tokens_eq, rfl, congrArg (setActiveRule · rule) h.withLog_eq⟩
  | add severity template position code args =>
      have hsup := h.suppresses_eq code
      rw [FileLog.step, ← hsup, FileOp.apply, add, tryAdd]
      by_cases hcode : f.suppresses code
      · rw [if_pos hcode, if_pos hcode]
        exact h
      · have hinsert := insert_withLog f l.entries (f.lineOf position) 1
          { message := formatMessage template args, source := f.sourceFor code, severity }
        rw [h.withLog_eq, h.lineOf_eq, h.sourceFor_eq] at hinsert
        rw [if_neg hcode, if_neg hcode, h.lineOf_eq, h.sourceFor_eq, hinsert]
        exact ⟨h.tokens_eq, h.activeRule_eq, rfl⟩
  | clearDiagnostics => exact ⟨h.tokens_eq, h.activeRule_eq, rfl⟩
  | recordAbort reason =>
      rw [FileOp.apply, recordAbort_eq_withLog]
      exact ⟨h.tokens_eq, h.activeRule_eq, rfl⟩

theorem shows_applyAll_new (context : Context) (path : Text) (ops : List FileOp) :
    (FileOp.applyAll (new path context) ops).Shows (.ofOps context path ops) := by
  induction ops using List.reverseRecOn with
  | nil => exact ⟨rfl, rfl, rfl⟩
  | append_singleton ops op ih =>
      have hframe := FileOp.applyAll_frame (new path context) ops
      have hstep := ih.apply op
      rw [hframe.1, hframe.2] at hstep
      rw [FileLog.ofOps_append_singleton, FileOp.applyAll, List.foldl_append]
      exact hstep

/-- What a file shows of its log. -/
theorem Shows.isStableSort (h : f.Shows l) :
    IsStableSort Diagnostic.notAfter l.entries f.diagnostics := by
  rw [← h.withLog_eq, diagnostics_withLog]
  exact isStableSort_mergeSort Diagnostic.notAfter_trans Diagnostic.notAfter_total _

theorem Shows.counts (h : f.Shows l) :
    f.errorCount = l.entries.countP (Diagnostic.hasSeverity .error) ∧
      f.warningCount = l.entries.countP (Diagnostic.hasSeverity .warning) ∧
      f.linesAffected = (l.entries.map Diagnostic.line).dedup.length := by
  rw [List.countP_eq_length_filter, List.countP_eq_length_filter, ← linesAffected_withLog f,
    h.withLog_eq]
  exact ⟨(congrArg errorCount h.withLog_eq).symm, (congrArg warningCount h.withLog_eq).symm, rfl⟩

end CheckedFile

/-- After any operations on a new file, its diagnostics are the log sorted stably by line, column
and severity, its counts are those of the log, a report is answered with whether the log grew by it,
and a report that is refused leaves the file as it was. -/
theorem applyAll_new_shows_log (context : Context) (path : Text) (ops : List FileOp) :
    let f := FileOp.applyAll (CheckedFile.new path context) ops
    let log := FileLog.ofOps context path ops
    IsStableSort Diagnostic.notAfter log.entries f.diagnostics ∧
      (∀ d ∈ log.entries, d.column = 1) ∧
      f.errorCount = log.entries.countP (Diagnostic.hasSeverity .error) ∧
      f.warningCount = log.entries.countP (Diagnostic.hasSeverity .warning) ∧
      f.linesAffected = (log.entries.map Diagnostic.line).dedup.length ∧
      ∀ severity template position code args,
        let report := FileOp.add severity template position code args
        let answer := f.tryAdd severity template position code args
        answer.2 = FileOp.applyAll (CheckedFile.new path context) (ops ++ [report]) ∧
          (answer.1 = true ↔ (FileLog.ofOps context path (ops ++ [report])).entries =
            log.entries ++ [log.diagnosticFor severity template position code args]) ∧
          (answer.1 = false → answer.2 = f) := by
  intro f log
  have hshows := CheckedFile.shows_applyAll_new context path ops
  have hframe := FileOp.applyAll_frame (CheckedFile.new path context) ops
  refine ⟨hshows.isStableSort, FileLog.column_of_mem_ofOps context path ops, hshows.counts.1,
    hshows.counts.2.1, hshows.counts.2.2, ?_⟩
  intro severity template position code args report answer
  have hlast : FileOp.applyAll (CheckedFile.new path context) (ops ++ [report]) = answer.2 := by
    rw [FileOp.applyAll, List.foldl_append]
    rfl
  have hsup : f.suppresses code = context.isSuppressed path (log.sourceFor code) := by
    rw [hshows.suppresses_eq, hframe.1, hframe.2]
    rfl
  refine ⟨hlast.symm, ?_⟩
  rw [FileLog.ofOps_append_singleton, FileLog.step, ← hsup]
  by_cases h : f.suppresses code
  · simp [answer, CheckedFile.tryAdd, h, log]
  · simp [answer, CheckedFile.tryAdd, h, log]

end TemplateLint

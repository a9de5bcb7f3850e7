import Mathlib.Data.List.Dedup
import TemplateLint.Proofs.LineMaps
import TemplateLint.Proofs.StableSort
import TemplateLint.Report

/-!
# The log behind a file

The two maps and the two counts of a file are what a log of diagnostics makes of them. What can be
done to the file is then appending to the log or replacing it, and a report about the file shows
the log in the order of a report.
-/

namespace TemplateLint

/-- Whether a diagnostic has the given severity. -/
def Diagnostic.hasSeverity (severity : Severity) (d : Diagnostic) : Bool := d.severity == severity

/-- The error that says that checking a file was aborted, and why. -/
def Diagnostic.aborted (reason : Text) : Diagnostic where
  line := 1
  column := 1
  severity := .error
  message :=
    ("An error occurred during processing; checking has been aborted. The error " ++
      "message was: ").toList ++ reason
  source := abortSource

/-- The diagnostics of a list that are not suppressed for the file at `path`. -/
def Context.kept (c : Context) (path : Text) (ds : List Diagnostic) : List Diagnostic :=
  ds.filter fun d => !c.isSuppressed path d.source

theorem Context.kept_append (c : Context) (path : Text) (ds es : List Diagnostic) :
    c.kept path (ds ++ es) = c.kept path ds ++ c.kept path es := List.filter_append ..

namespace CheckedFile

/-- The file with the diagnostics of a log, whatever it had before. -/
def withLog (f : CheckedFile) (log : List Diagnostic) : CheckedFile :=
  { f with
    errors := .ofLog (log.filter (Diagnostic.hasSeverity .error))
    warnings := .ofLog (log.filter (Diagnostic.hasSeverity .warning))
    errorCount := (log.filter (Diagnostic.hasSeverity .error)).length
    warningCount := (log.filter (Diagnostic.hasSeverity .warning)).length }

/-- What is reported by `add` unless it is suppressed. -/
def diagnosticFor (f : CheckedFile) (severity : Severity) (template : Text) (position : Position)
    (code : Text) (args : List Text) : Diagnostic where
  line := f.lineOf position
  column := 1
  severity := severity
  message := formatMessage template args
  source := f.sourceFor code

/-- The diagnostics of a list that the configuration does not suppress for the file. -/
def kept (f : CheckedFile) (ds : List Diagnostic) : List Diagnostic := f.context.kept f.path ds

theorem kept_append (f : CheckedFile) (ds es : List Diagnostic) :
    f.kept (ds ++ es) = f.kept ds ++ f.kept es := f.context.kept_append f.path ds es

theorem new_withLog_nil (path : Text) (context : Context) :
    (new path context).withLog [] = new path context := rfl

theorem setActiveRule_withLog (f : CheckedFile) (log : List Diagnostic) (rule : Option RuleId) :
    (f.withLog log).setActiveRule rule = (f.setActiveRule rule).withLog log := rfl

theorem clearDiagnostics_withLog (f : CheckedFile) (log : List Diagnostic) :
    (f.withLog log).clearDiagnostics = f.withLog [] := rfl

theorem insert_withLog (f : CheckedFile) (log : List Diagnostic) (line column : Nat) (e : Entry) :
    (f.withLog log).insert line column e = f.withLog (log ++ [e.at line column]) := by
  obtain ⟨message, source, severity⟩ := e
  cases severity with
  | error =>
      have herror : (log ++ [Entry.at line column ⟨message, source, .error⟩]).filter
          (Diagnostic.hasSeverity .error) =
            log.filter (Diagnostic.hasSeverity .error) ++
              [⟨line, column, .error, message, source⟩] :=
        List.filter_append ..
      have hwarning : (log ++ [Entry.at line column ⟨message, source, .error⟩]).filter
          (Diagnostic.hasSeverity .warning) = log.filter (Diagnostic.hasSeverity .warning) := by
        rw [List.filter_append]
        exact List.append_nil _
      rw [insert, withLog, withLog, herror, hwarning, LineMap.ofLog_append_singleton,
        List.length_append]
      rfl
  | warning =>
      have herror : (log ++ [Entry.at line column ⟨message, source, .warning⟩]).filter
          (Diagnostic.hasSeverity .error) = log.filter (Diagnostic.hasSeverity .error) := by
        rw [List.filter_append]
        exact List.append_nil _
      have hwarning : (log ++ [Entry.at line column ⟨message, source, .warning⟩]).filter
          (Diagnostic.hasSeverity .warning) =
            log.filter (Diagnostic.hasSeverity .warning) ++
              [⟨line, column, .warning, message, source⟩] :=
        List.filter_append ..
      rw [insert, withLog, withLog, herror, hwarning, LineMap.ofLog_append_singleton,
        List.length_append]
      rfl

theorem add_withLog (f : CheckedFile) (log : List Diagnostic) (severity : Severity)
    (template : Text) (position : Position) (code : Text) (args : List Text) :
    (f.withLog log).add severity template position code args =
      f.withLog (log ++ f.kept [f.diagnosticFor severity template position code args]) := by
  by_cases h : f.suppresses code
  · have hkept : f.kept [f.diagnosticFor severity template position code args] = [] := by
      rw [kept, Context.kept, List.filter_cons_of_neg]
      · rfl
      · simpa [diagnosticFor, suppresses] using h
    rw [hkept, List.append_nil, add, tryAdd, if_pos]
    exact h
  · have hkept : f.kept [f.diagnosticFor severity template position code args] =
        [f.diagnosticFor severity template position code args] := by
      rw [kept, Context.kept, List.filter_cons_of_pos]
      · rfl
      · simpa [diagnosticFor, suppresses] using h
    rw [hkept, add, tryAdd, if_neg]
    · exact insert_withLog f log _ _ _
    · exact h

theorem recordAbort_eq_withLog (f : CheckedFile) (reason : Text) :
    f.recordAbort reason = f.withLog [.aborted reason] :=
  insert_withLog f [] 1 1 _

/-- The two maps together hold the log, up to the order between things that are no ties. -/
theorem diagnostics_withLog (f : CheckedFile) (log : List Diagnostic) :
    (f.withLog log).diagnostics = inReportOrder log := by
  apply mergeSort_eq_of_filter_tied_eq Diagnostic.notAfter_trans Diagnostic.notAfter_total
  intro a
  have htied : tied Diagnostic.notAfter a =
      fun d => Diagnostic.hasSeverity a.severity d && Diagnostic.isAt a.line a.column d := by
    funext d
    rw [Bool.eq_iff_iff, Diagnostic.tied_notAfter_iff]
    simp only [Diagnostic.hasSeverity, Diagnostic.isAt, Bool.and_eq_true, beq_iff_eq]
    constructor
    · rintro ⟨hline, hcolumn, hseverity⟩
      exact ⟨hseverity.symm, hline.symm, hcolumn.symm⟩
    · rintro ⟨hseverity, hline, hcolumn⟩
      exact ⟨hline.symm, hcolumn.symm, hseverity.symm⟩
  have hmap (severity : Severity) :
      (LineMap.ofLog (log.filter (Diagnostic.hasSeverity severity))).diagnostics.filter
          (tied Diagnostic.notAfter a) =
        (log.filter (tied Diagnostic.notAfter a)).filter (Diagnostic.hasSeverity severity) := by
    rw [htied, ← List.filter_filter, LineMap.filter_isAt_diagnostics_ofLog, List.filter_filter,
      List.filter_filter, List.filter_filter]
    congr 1
    funext d
    cases Diagnostic.hasSeverity a.severity d <;> cases Diagnostic.isAt a.line a.column d <;>
      cases Diagnostic.hasSeverity severity d <;> rfl
  rw [List.filter_append, withLog, hmap, hmap]
  -- One of the two maps has the severity of the class, the other has nothing of it.
  have hclass : ∀ d ∈ log.filter (tied Diagnostic.notAfter a), d.severity = a.severity := by
    intro d hd
    exact ((Diagnostic.tied_notAfter_iff a d).1 (List.mem_filter.1 hd).2).2.2.symm
  have hown (severity : Severity) (h : a.severity = severity) :
      (log.filter (tied Diagnostic.notAfter a)).filter (Diagnostic.hasSeverity severity) =
        log.filter (tied Diagnostic.notAfter a) := by
    rw [List.filter_eq_self]
    intro d hd
    simp [Diagnostic.hasSeverity, hclass d hd, h]
  have hother (severity : Severity) (h : a.severity ≠ severity) :
      (log.filter (tied Diagnostic.notAfter a)).filter (Diagnostic.hasSeverity severity) = [] := by
    rw [List.filter_eq_nil_iff]
    intro d hd
    simp [Diagnostic.hasSeverity, hclass d hd, h]
  cases hseverity : a.severity with
  | error => rw [hown .error hseverity, hother .warning (by simp [hseverity]), List.append_nil]
  | warning => rw [hother .error (by simp [hseverity]), hown .warning hseverity, List.nil_append]

theorem linesAffected_withLog (f : CheckedFile) (log : List Diagnostic) :
    (f.withLog log).linesAffected = (log.map Diagnostic.line).dedup.length := by
  apply List.Perm.length_eq
  rw [List.perm_ext_iff_of_nodup (nodup_sortedSet _) (List.nodup_dedup _)]
  intro line
  rw [mem_sortedSet, List.mem_dedup, List.mem_append, withLog, LineMap.mem_lines_ofLog,
    LineMap.mem_lines_ofLog]
  constructor
  · rintro (h | h)
    · exact List.map_subset _ List.filter_sublist.subset h
    · exact List.map_subset _ List.filter_sublist.subset h
  · intro h
    obtain ⟨d, hd, rfl⟩ := List.mem_map.1 h
    cases hseverity : d.severity with
    | error =>
        have hmem : d ∈ log.filter (Diagnostic.hasSeverity .error) :=
          List.mem_filter.2 ⟨hd, by simp [Diagnostic.hasSeverity, hseverity]⟩
        exact Or.inl (List.mem_map_of_mem hmem)
    | warning =>
        have hmem : d ∈ log.filter (Diagnostic.hasSeverity .warning) :=
          List.mem_filter.2 ⟨hd, by simp [Diagnostic.hasSeverity, hseverity]⟩
        exact Or.inr (List.mem_map_of_mem hmem)

end CheckedFile

/-- The report about a file with the given diagnostics, all numbers counted from them. -/
def FileReport.ofDiagnostics (path : Text) (ds : List Diagnostic) : FileReport where
  path := path
  errors := ds.countP (Diagnostic.hasSeverity .error)
  warnings := ds.countP (Diagnostic.hasSeverity .warning)
  lines := (ds.map Diagnostic.line).dedup.length
  diagnostics := ds

theorem FileReport.ofFile_withLog (f : CheckedFile) (log : List Diagnostic) :
    FileReport.ofFile (f.withLog log) = FileReport.ofDiagnostics f.path (inReportOrder log) := by
  have hperm : (inReportOrder log).Perm log := List.mergeSort_perm _ _
  have herrors : (f.withLog log).errorCount =
      (inReportOrder log).countP (Diagnostic.hasSeverity .error) := by
    rw [hperm.countP_eq, List.countP_eq_length_filter]
    rfl
  have hwarnings : (f.withLog log).warningCount =
      (inReportOrder log).countP (Diagnostic.hasSeverity .warning) := by
    rw [hperm.countP_eq, List.countP_eq_length_filter]
    rfl
  have hlines : (f.withLog log).linesAffected =
      ((inReportOrder log).map Diagnostic.line).dedup.length := by
    rw [CheckedFile.linesAffected_withLog, (hperm.map Diagnostic.line).dedup.length_eq]
  rw [FileReport.ofFile, FileReport.ofDiagnostics, herrors, hwarnings, hlines,
    CheckedFile.diagnostics_withLog]
  rfl

end TemplateLint

import TemplateLint.Dispatch

/-!
# Reports

What a run comes to: the diagnostics of each file that was checked, and the rules that failed.
-/

namespace TemplateLint

structure FileReport where
  path : Text
  errors : Nat
  warnings : Nat
  lines : Nat
  diagnostics : List Diagnostic
  deriving DecidableEq, Repr

def FileReport.ofFile (f : CheckedFile) : FileReport where
  path := f.path
  errors := f.errorCount
  warnings := f.warningCount
  lines := f.linesAffected
  diagnostics := f.diagnostics

/-- Numbers are added in 64 bits: a sum that does not fit starts again at zero. -/
def addCounts (m n : Nat) : Nat := (m + n) % UInt64.size

def FileReport.hasProblems (f : FileReport) : Bool := addCounts f.errors f.warnings > 0

structure Report where
  files : List FileReport
  failures : List RuleFailure
  deriving DecidableEq, Repr

namespace Report

def totalErrors (r : Report) : Nat := r.files.foldl (fun n f => addCounts n f.errors) 0

def totalWarnings (r : Report) : Nat := r.files.foldl (fun n f => addCounts n f.warnings) 0

def hasErrors (r : Report) : Bool := r.totalErrors > 0

def problemFiles (r : Report) : List FileReport := r.files.filter FileReport.hasProblems

end Report

end TemplateLint

import TemplateLint.Render.Style
import TemplateLint.Report

/-!
# Reports to be read

A listing of the files in which something was found, with one row per diagnostic, the rules that
failed, and a summary.
-/

namespace TemplateLint

def lineOfText (s : Text) : Text := s ++ ['\n']

namespace FileReport

def ruler : Text := List.replicate 80 '-'

def numberWidth (f : FileReport) : Nat :=
  (f.diagnostics.map fun d => (decimal d.line).length).foldl max 1

def row (width : Nat) (useColor : Bool) (d : Diagnostic) : Text :=
  lineOfText (' ' :: padLeft width (decimal d.line) ++ " | ".toList ++
    (Style.ofSeverity d.severity).paint useColor (padRight 7 d.severity.label) ++ " | ".toList ++
    d.message ++ " (".toList ++ d.source ++ ")".toList)

def renderText (f : FileReport) (useColor : Bool) : Text :=
  lineOfText [] ++ lineOfText ("FILE: ".toList ++ f.path) ++ lineOfText ruler ++
    lineOfText ("FOUND ".toList ++ decimal f.errors ++ " ERROR(S) AND ".toList ++
      decimal f.warnings ++ " WARNING(S) AFFECTING ".toList ++ decimal f.lines ++
      " LINE(S)".toList) ++
    lineOfText ruler ++ f.diagnostics.flatMap (row f.numberWidth useColor) ++ lineOfText ruler

end FileReport

def RuleFailure.describe (f : RuleFailure) : Text :=
  "multi-file rule `".toList ++ f.rule ++ "` failed: ".toList ++ f.message

namespace Report

def summary (r : Report) : Text :=
  if addCounts r.totalErrors r.totalWarnings = 0 then
    "No problems found in ".toList ++ decimal r.files.length ++ " file(s).".toList
  else
    "Found ".toList ++ decimal r.totalErrors ++ " error(s) and ".toList ++
      decimal r.totalWarnings ++ " warning(s) in ".toList ++ decimal r.files.length ++
      " file(s).".toList

def renderText (r : Report) (useColor : Bool) : Text :=
  r.problemFiles.flatMap (·.renderText useColor) ++
    r.failures.flatMap (fun f => lineOfText
      ((Style.ofSeverity .warning).paint useColor "warning:".toList ++ ' ' :: f.describe)) ++
    lineOfText r.summary

end Report

end TemplateLint

import TemplateLint.Render.Listing

/-!
# Reports as workflow commands

One command per diagnostic, by which GitHub shows it beside the line that it is about.
-/

namespace TemplateLint

def Diagnostic.workflowCommand (path : Text) (d : Diagnostic) : Text :=
  "::".toList ++ d.severity.name ++ " file=".toList ++ path ++ ",line=".toList ++
    decimal d.line ++ ",col=".toList ++ decimal d.column ++ "::".toList ++ d.message ++
    " (".toList ++ d.source ++ ")".toList

def RuleFailure.workflowCommand (f : RuleFailure) : Text := "::warning::".toList ++ f.describe

namespace Report

def renderWorkflowCommands (r : Report) : Text :=
  r.files.flatMap (fun f => f.diagnostics.flatMap fun d => lineOfText (d.workflowCommand f.path)) ++
    r.failures.flatMap fun f => lineOfText f.workflowCommand

def totals (r : Report) : Text :=
  decimal r.totalErrors ++ " error(s), ".toList ++ decimal r.totalWarnings ++
    " warning(s) in ".toList ++ decimal r.files.length ++ " file(s)".toList

end Report

end TemplateLint

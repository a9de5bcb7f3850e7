import TemplateLint.Json
import TemplateLint.Report

/-!
# Reports as JSON
-/

namespace TemplateLint

def Diagnostic.toJson (d : Diagnostic) : JsonValue :=
  .record [("line".toList, .number d.line), ("column".toList, .number d.column),
    ("severity".toList, .text d.severity.name), ("message".toList, .text d.message),
    ("source".toList, .text d.source)]

def FileReport.toJson (f : FileReport) : JsonValue :=
  .record [("path".toList, .text f.path), ("errors".toList, .number f.errors),
    ("warnings".toList, .number f.warnings), ("lines".toList, .number f.lines),
    ("diagnostics".toList, .list (f.diagnostics.map Diagnostic.toJson))]

def RuleFailure.toJson (f : RuleFailure) : JsonValue :=
  .record [("rule".toList, .text f.rule), ("message".toList, .text f.message)]

namespace Report

def toJson (r : Report) : JsonValue :=
  .record [("files".toList, .list (r.files.map FileReport.toJson)),
    ("failures".toList, .list (r.failures.map RuleFailure.toJson))]

def renderJson (r : Report) : Text := r.toJson.pretty 0

end Report

end TemplateLint

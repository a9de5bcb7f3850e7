import TemplateLint.Proofs.JsonReader
import TemplateLint.Render.Data

/-!
# Reports read back from JSON

The JSON text of a report is a document, and whoever reads it gets the report back, whatever its
texts hold.
-/

namespace TemplateLint

namespace JsonValue

@[simp] def number? : JsonValue → Option Nat
  | number n => some n
  | _ => none

@[simp] def text? : JsonValue → Option Text
  | text s => some s
  | _ => none

def listOf? {α : Type} (item? : JsonValue → Option α) : JsonValue → Option (List α)
  | list vs => vs.mapM item?
  | _ => none

/-- The value of the first field with the given key. -/
@[simp] def field? (key : Text) : JsonValue → Option JsonValue
  | record fs => fs.lookup key
  | _ => none

theorem listOf?_list_map {α : Type} {toJson : α → JsonValue} {ofJson? : JsonValue → Option α}
    (h : ∀ a, ofJson? (toJson a) = some a) (as : List α) :
    (list (as.map toJson)).listOf? ofJson? = some as := by
  induction as with
  | nil => rfl
  | cons a as ih =>
    simp only [listOf?] at ih
    simp [listOf?, h, ih]

end JsonValue

def Severity.ofName? (s : Text) : Option Severity :=
  if s = Severity.error.name then some .error
  else if s = Severity.warning.name then some .warning
  else none

def Diagnostic.ofJson? (v : JsonValue) : Option Diagnostic := do
  return {
    line := ← (← v.field? "line".toList).number?
    column := ← (← v.field? "column".toList).number?
    severity := ← Severity.ofName? (← (← v.field? "severity".toList).text?)
    message := ← (← v.field? "message".toList).text?
    source := ← (← v.field? "source".toList).text? }

def FileReport.ofJson? (v : JsonValue) : Option FileReport := do
  return {
    path := ← (← v.field? "path".toList).text?
    errors := ← (← v.field? "errors".toList).number?
    warnings := ← (← v.field? "warnings".toList).number?
    lines := ← (← v.field? "lines".toList).number?
    diagnostics := ← (← v.field? "diagnostics".toList).listOf? Diagnostic.ofJson? }

def RuleFailure.ofJson? (v : JsonValue) : Option RuleFailure := do
  return {
    rule := ← (← v.field? "rule".toList).text?
    message := ← (← v.field? "message".toList).text? }

def Report.ofJson? (v : JsonValue) : Option Report := do
  return {
    files := ← (← v.field? "files".toList).listOf? FileReport.ofJson?
    failures := ← (← v.field? "failures".toList).listOf? RuleFailure.ofJson? }

theorem Severity.ofName?_name (s : Severity) : Severity.ofName? s.name = some s := by
  cases s <;> decide

theorem Diagnostic.ofJson?_toJson (d : Diagnostic) : Diagnostic.ofJson? d.toJson = some d := by
  simp [Diagnostic.ofJson?, Diagnostic.toJson, List.lookup_cons, Severity.ofName?_name]

theorem RuleFailure.ofJson?_toJson (f : RuleFailure) : RuleFailure.ofJson? f.toJson = some f := by
  simp [RuleFailure.ofJson?, RuleFailure.toJson, List.lookup_cons]

theorem FileReport.ofJson?_toJson (f : FileReport) : FileReport.ofJson? f.toJson = some f := by
  have hdiagnostics := JsonValue.listOf?_list_map Diagnostic.ofJson?_toJson f.diagnostics
  simp [FileReport.ofJson?, FileReport.toJson, List.lookup_cons, hdiagnostics]

namespace Report

theorem ofJson?_toJson (r : Report) : Report.ofJson? r.toJson = some r := by
  have hfiles := JsonValue.listOf?_list_map FileReport.ofJson?_toJson r.files
  have hfailures := JsonValue.listOf?_list_map RuleFailure.ofJson?_toJson r.failures
  simp [Report.ofJson?, toJson, List.lookup_cons, hfiles, hfailures]

theorem isDocument_renderJson (r : Report) : JsonValue.IsDocument r.renderJson r.toJson :=
  ⟨[], _, [], by simp [renderJson], JsonValue.isSpaces_nil, JsonValue.isSpaces_nil,
    JsonValue.spells_pretty 0 r.toJson⟩

theorem ofJson?_read?_renderJson (r : Report) :
    (JsonValue.read? r.renderJson).bind Report.ofJson? = some r := by
  rw [JsonValue.read?_eq_some r.isDocument_renderJson]
  exact r.ofJson?_toJson

/-- The JSON text of a report is a document for one value only, from which the report is read back,
so no other report has that text. -/
theorem renderJson_reads_back (r : Report) :
    (∀ v, JsonValue.IsDocument r.renderJson v ↔ v = r.toJson) ∧
      (JsonValue.read? r.renderJson).bind Report.ofJson? = some r ∧
      ∀ other : Report, other ≠ r → other.renderJson ≠ r.renderJson := by
  refine ⟨fun v => ⟨fun hv => hv.unique r.isDocument_renderJson, ?_⟩,
    r.ofJson?_read?_renderJson, fun other hne heq => hne ?_⟩
  · rintro rfl
    exact r.isDocument_renderJson
  · have hother := other.ofJson?_read?_renderJson
    rw [heq, r.ofJson?_read?_renderJson] at hother
    exact (Option.some.inj hother).symm

/-- A new line in a message is told from the two characters that stand for it in the text. -/
theorem renderJson_reads_back_new_line :
    let broken : Report := ⟨[], [⟨"a".toList, "\n".toList⟩]⟩
    let escaped : Report := ⟨[], [⟨"a".toList, "\\n".toList⟩]⟩
    JsonValue.IsDocument broken.renderJson broken.toJson ∧
      (JsonValue.read? broken.renderJson).bind Report.ofJson? = some broken ∧
      escaped ≠ broken ∧ escaped.renderJson ≠ broken.renderJson := by
  intro broken escaped
  obtain ⟨hvalues, hread, hothers⟩ := renderJson_reads_back broken
  have hne : escaped ≠ broken := by decide
  exact ⟨(hvalues _).2 rfl, hread, hne, hothers escaped hne⟩

end Report

end TemplateLint

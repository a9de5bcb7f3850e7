import TemplateLint.Config
import TemplateLint.Toml.Document

/-!
# Configuration files

A configuration is read from a TOML document. Settings that are missing keep their defaults and
keys that are not known are ignored; a setting of the wrong type is an error, and so is a number
under an ignored key that cannot be held.
-/

namespace TemplateLint.Config

open Toml (Value Entries)

def stringOf? : Value → Option Text
  | .string s => some s
  | _ => none

def stringsOf? : Value → Option (List Text)
  | .array elements => elements.mapM stringOf?
  | .tables [] => some []
  | _ => none

def booleanOf? : Value → Option Bool
  | .boolean b => some b
  | _ => none

def patternsOf? : Value → Option (SortedMap Text (List Text))
  | .table _ entries =>
      entries.foldlM (fun m (scope, value) =>
        (stringsOf? value).map fun patterns => SortedMap.alter scope (fun _ => patterns) m) []
  | _ => none

/-- Whether the entries whose keys are not known can be read, so that they can be ignored. -/
def restFits (known : List String) (entries : Entries) : Bool :=
  entries.all fun (key, value) => known.any (·.toList = key) || value.fits

/-- The expected line ending from the settings of single rules, which are a table or the list of
their values, of which only the first counts. A date counts as a table without known keys. -/
def eolOf? (standard : Text) : Value → Option Text
  | .table _ entries =>
      if restFits ["eol_char"] entries then
        match entries.lookup "eol_char".toList with
        | none => some standard
        | some value => stringOf? value
      else none
  | .array [] => some standard
  | .array (value :: _) => stringOf? value
  | .datetime _ => some standard
  | _ => none

def settingOf? {α : Type} (entries : Entries) (key : String) (standard : α)
    (read : Value → Option α) : Except LintError α :=
  match entries.lookup key.toList with
  | none => .ok standard
  | some value =>
      match read value with
      | some a => .ok a
      | none => .error (.configParse ("invalid value for `".toList ++ key.toList ++ "`".toList))

def keys : List String :=
  ["left_delimiter", "right_delimiter", "auto_literal", "extensions", "ignore_rules",
    "ignore_patterns", "rules"]

def ofEntries (entries : Entries) : Except LintError Config := do
  let standard : Config := {}
  unless restFits keys entries do
    throw (.configParse "a number is too large".toList)
  return {
    leftDelimiter := ← settingOf? entries "left_delimiter" standard.leftDelimiter stringOf?
    rightDelimiter := ← settingOf? entries "right_delimiter" standard.rightDelimiter stringOf?
    autoLiteral := ← settingOf? entries "auto_literal" standard.autoLiteral booleanOf?
    extensions := ← settingOf? entries "extensions" standard.extensions stringsOf?
    ignoreRules := sortedSet (← settingOf? entries "ignore_rules" standard.ignoreRules stringsOf?)
    ignorePatterns :=
      ← settingOf? entries "ignore_patterns" standard.ignorePatterns patternsOf?
    eolChar := ← settingOf? entries "rules" standard.eolChar (eolOf? standard.eolChar) }

def ofToml (source : Text) : Except LintError Config :=
  match Toml.parse? source with
  | none => .error (.configParse "not a TOML document".toList)
  | some entries => ofEntries entries

end TemplateLint.Config

import TemplateLint.IgnorePattern
import TemplateLint.Markup
import TemplateLint.Text.LineBreak

/-!
# Configuration

What a user can set: how tags are written, which files are checked, what is ignored, and which line
ending is expected.
-/

namespace TemplateLint

structure Config where
  leftDelimiter : Text := ['\x7b']
  rightDelimiter : Text := ['\x7d']
  autoLiteral : Bool := true
  extensions : List Text := ["tpl".toList, "smarty".toList]
  /-- The rules and sources that never report, in ascending order. -/
  ignoreRules : List Text := []
  ignorePatterns : SortedMap Text (List Text) := []
  eolChar : Text := ['\n']
  deriving DecidableEq, Repr

namespace Config

/-- The expected line ending: `lf`, `crlf` and `cr`, in upper or lower case, and their escapes are
names; anything else stands for itself. -/
def expectedEol (c : Config) : Text :=
  let name := asciiLower c.eolChar
  if name = "lf".toList ∨ name = "\\n".toList then LineBreak.lf.text
  else if name = "crlf".toList ∨ name = "\\r\\n".toList then LineBreak.crlf.text
  else if name = "cr".toList ∨ name = "\\r".toList then LineBreak.cr.text
  else c.eolChar

def markup (c : Config) : Except LintError Markup := do
  let delimiters ← Delimiters.ofTexts c.leftDelimiter c.rightDelimiter
  return { delimiters, autoLiteral := c.autoLiteral }

def addIgnoreRules (c : Config) (rules : List Text) : Config :=
  { c with ignoreRules := rules.foldl (fun set rule => insertSorted rule set) c.ignoreRules }

def addIgnorePattern (c : Config) (scope pattern : Text) : Config :=
  { c with
    ignorePatterns := c.ignorePatterns.alter scope fun ps => ps.getD [] ++ [pattern] }

end Config

end TemplateLint

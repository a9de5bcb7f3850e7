import TemplateLint.Error

/-!
# Rule identifiers

A rule has a qualified name such as `Rules.Commenting.FixmeRule`. Its identifier has the second
part of that name as its category and the third part, without a final `Rule`, as its name.
-/

namespace TemplateLint

structure RuleId where
  category : Text
  name : Text
  deriving DecidableEq, Repr

namespace RuleId

def isSeparator (c : Char) : Bool := c == '.' || c == '_' || c == '\\' || c == ':'

/-- The parts of a qualified name. Separators next to each other count as one. -/
def nameParts (qualified : Text) : List Text :=
  (qualified.splitOnP isSeparator).filter fun part => part != []

def nameEnding : Text := "Rule".toList

def ofQualifiedName (qualified : Text) : Except LintError RuleId :=
  match nameParts qualified with
  | _ :: category :: rule :: _ =>
      let name := (dropTrailing? nameEnding rule).getD rule
      if name = [] then .error (.invalidRuleName qualified) else .ok { category, name }
  | _ => .error (.invalidRuleName qualified)

def text (id : RuleId) : Text := id.category ++ '.' :: id.name

def sourceFor (id : RuleId) (code : Text) : Text :=
  if code = [] then id.text else id.text ++ '.' :: code

end RuleId

end TemplateLint

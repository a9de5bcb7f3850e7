import TemplateLint.Text.Basic

/-!
# Scopes

The source of a diagnostic is a dotted name such as `Commenting.Fixme.TaskFound`. A scope is a
dotted name that stands for itself and for all names below it.
-/

namespace TemplateLint

/-- Whether `scope` is `source` or one of its dotted parents. -/
def scopeCovers (scope source : Text) : Bool :=
  match dropLeading? scope source with
  | some [] => true
  | some (c :: _) => c == '.'
  | none => false

end TemplateLint

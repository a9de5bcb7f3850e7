import TemplateLint.Error
import TemplateLint.Glob.Nesting
import TemplateLint.Glob.Parser
import TemplateLint.Path
import TemplateLint.Text.Blank

/-!
# File extensions

Which files of a directory are checked. An extension may have several parts, may be given with or
without the dot before it, and may be a glob.
-/

namespace TemplateLint

abbrev ExtensionSet := List (List GlobToken)

namespace ExtensionSet

def normalize (extension : Text) : Text := (trim extension).dropWhile (· == '.')

def globOf (extension : Text) : Except LintError (List GlobToken) :=
  match parseGlob false ('*' :: '.' :: extension) with
  | .ok glob => .ok glob
  | .error e =>
      .error (.configParse ("invalid extension `".toList ++ extension ++ "`: ".toList ++ e.message))

/-- The set of a list of extensions. Those that are empty do not count, and none may be nested too
deep. -/
def ofExtensions (extensions : List Text) : Except LintError ExtensionSet := do
  let globs ← ((extensions.map normalize).filter (· != [])).mapM globOf
  if globs.any (GlobToken.isTooDeep false) then
    throw (.configParse "invalid extension list: nested too deep".toList)
  return globs

def allowsName (set : ExtensionSet) (name : Text) : Bool :=
  set.any fun glob => GlobToken.isMatch false glob (Utf8.encode name)

def allows (set : ExtensionSet) (path : Text) : Bool := (Path.fileName? path).any set.allowsName

end ExtensionSet

end TemplateLint

import TemplateLint.Error
import TemplateLint.Scope
import TemplateLint.SortedMap
import TemplateLint.Text.CaseFold

/-!
# Ignore patterns

A pattern excludes the paths in which it occurs. In a pattern a star stands for any characters of
one line, a comma may be written with a backslash before it, and every other character stands for
itself in upper or lower case. A pattern has a scope: it excludes whole files if that is `global`,
and the diagnostics that the scope covers otherwise.
-/

namespace TemplateLint

inductive PatternPart where
  /-- Any run of characters without a line feed. -/
  | wildcard
  | literal (c : Char)
  deriving DecidableEq, Repr

namespace PatternPart

def ofText : Text → List PatternPart
  | [] => []
  | '\\' :: ',' :: s => .literal ',' :: ofText s
  | '*' :: s => .wildcard :: ofText s
  | c :: s => .literal c :: ofText s

def regexOperators : Text := "\\.+*?()|[]\x7b\x7d^$#&-~".toList

def regex : PatternPart → Text
  | wildcard => ['.', '*']
  | literal c => if regexOperators.contains c then ['\\', c] else [c]

def folded : PatternPart → PatternPart
  | wildcard => wildcard
  | literal c => literal (CaseFold.fold c)

/-- Given for each tail of the pattern whether it matches at the next place, whether it matches at
a place where the character `c` stands. The last entry is for the empty tail. -/
def stepBack (c : Char) : List PatternPart → List Bool → List Bool
  | [], _ => [true]
  | .literal d :: parts, _ :: later =>
      let rest := stepBack c parts later
      (c == d && later.headD false) :: rest
  | .wildcard :: parts, here :: later =>
      let rest := stepBack c parts later
      (rest.headD false || (c != '\n' && here)) :: rest
  | _ :: parts, [] => false :: stepBack c parts []

def atEnd : List PatternPart → List Bool
  | [] => [true]
  | .literal _ :: parts => false :: atEnd parts
  | .wildcard :: parts =>
      let rest := atEnd parts
      rest.headD false :: rest

/-- For each tail of the pattern, whether a text starts with a match of it; and whether the whole
pattern matches somewhere in the text. -/
def matchRow (parts : List PatternPart) : Text → List Bool × Bool
  | [] => (atEnd parts, (atEnd parts).headD false)
  | c :: s =>
      let (row, found) := matchRow parts s
      let row := stepBack c parts row
      (row, found || row.headD false)

end PatternPart

def patternRegex (pattern : Text) : Text := (PatternPart.ofText pattern).flatMap PatternPart.regex

def globalScope : Text := "global".toList

structure IgnorePattern where
  scope : Text
  pattern : Text
  deriving DecidableEq, Repr

namespace IgnorePattern

def sizeLimit : Nat := 10485760

/-- A pattern, unless its regular expression is too large to be compiled. How much it takes is left
to `compiles`. -/
def ofText (scope pattern : Text) (compiles : Text → Bool := fun _ => true) :
    Except LintError IgnorePattern :=
  if compiles (patternRegex pattern) then .ok { scope, pattern }
  else
    .error (.invalidIgnorePattern pattern
      ("Compiled regex exceeds size limit of ".toList ++ decimal sizeLimit ++ " bytes.".toList))

def isGlobal (p : IgnorePattern) : Bool := p.scope == globalScope

def isMatch (p : IgnorePattern) (path : Text) : Bool :=
  (PatternPart.matchRow ((PatternPart.ofText p.pattern).map PatternPart.folded)
    (path.map CaseFold.fold)).2

def appliesTo (p : IgnorePattern) (source : Text) : Bool :=
  p.isGlobal || scopeCovers p.scope source

end IgnorePattern

abbrev IgnorePatterns := List IgnorePattern

namespace IgnorePatterns

def ofScopes (scopes : SortedMap Text (List Text)) (compiles : Text → Bool := fun _ => true) :
    Except LintError IgnorePatterns :=
  (scopes.flatMap fun (scope, patterns) => patterns.map fun pattern => (scope, pattern)).mapM
    fun (scope, pattern) => IgnorePattern.ofText scope pattern compiles

def isGloballyIgnored (ps : IgnorePatterns) (path : Text) : Bool :=
  ps.any fun p => p.isGlobal && p.isMatch path

def suppresses (ps : IgnorePatterns) (path source : Text) : Bool :=
  ps.any fun p => p.appliesTo source && p.isMatch path

end IgnorePatterns

end TemplateLint

import TemplateLint.Glob.Basic

/-!
# How deep globs are nested

Every wildcard, class, group and choice is a level of its own, and so is a row of more than one
part. A glob with too many levels is refused, together with all globs that it is used with.
-/

namespace TemplateLint.GlobToken

def maxNesting : Nat := 250

/-- The number of parts that a token has in a row. A character has one for each of its bytes. -/
def width : GlobToken → Nat
  | literal c => (String.utf8EncodeChar c).length
  | everythingBelow => 2
  | alternates branches => if allVoid branches then 0 else 1
  | _ => 1

def widthOfSequence (ts : List GlobToken) : Nat := ts.foldl (fun n t => n + t.width) 0

/-- The level of several things next to each other; one thing needs none. -/
def joint (count : Nat) : Nat := if 1 < count then 1 else 0

mutual

/-- The levels of a token. If `inName` holds, wildcards are classes without the slash. -/
def nesting (inName : Bool) : GlobToken → Nat
  | literal _ => 0
  | any => if inName then 1 else 0
  | zeroOrMore => if inName then 2 else 1
  | leadingDirectories => 4
  | everythingBelow => 1
  | innerDirectories => 4
  | oneOf _ ranges => 1 + joint (ranges.flatMap byteRanges).length
  | alternates branches =>
      if allVoid branches then 0
      else
        1 + joint (branches.filter fun ts => !isVoidSequence ts).length +
          nestingOfAny inName branches

def nestingOfAll (inName : Bool) : List GlobToken → Nat
  | [] => 0
  | t :: ts => max (nesting inName t) (nestingOfAll inName ts)

def nestingOfAny (inName : Bool) : List (List GlobToken) → Nat
  | [] => 0
  | ts :: tss =>
      max (joint (widthOfSequence ts) + nestingOfAll inName ts) (nestingOfAny inName tss)

end

def isTooDeep (inName : Bool) (glob : List GlobToken) : Bool :=
  maxNesting < 1 + nestingOfAll inName glob

end TemplateLint.GlobToken

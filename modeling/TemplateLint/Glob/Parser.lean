import TemplateLint.Glob.Basic

/-!
# Reading globs

A star stands for any bytes and a question mark for one, brackets for one byte of a class, braces
for alternatives with commas between them, and a backslash takes away the meaning of the next
character. Two stars stand for directories where they are a whole part of a path.
-/

namespace TemplateLint

inductive GlobError where
  | unclosedClass
  | invalidRange (lo hi : Char)
  | unopenedAlternates
  | unclosedAlternates
  | danglingEscape
  deriving DecidableEq, Repr

def GlobError.message : GlobError → Text
  | unclosedClass => "unclosed character class; missing ']'".toList
  | invalidRange lo hi =>
      "invalid character range; '".toList ++ lo :: "' > '".toList ++ hi :: "'".toList
  | unopenedAlternates => "unopened alternate group; missing '\x7b'".toList
  | unclosedAlternates => "unclosed alternate group; missing '\x7d'".toList
  | danglingEscape => "dangling '\\'".toList

structure GlobClass where
  negated : Bool := false
  ranges : List (Char × Char) := []
  opening : Bool := true
  /-- No member has been read yet, so that a bracket is a member. -/
  first : Bool := true
  inRange : Bool := false

namespace GlobClass

def push (k : GlobClass) (c : Char) : Except GlobError GlobClass :=
  if k.opening && (c = '!' || c = '^') then .ok { k with negated := true, opening := false }
  else if c = '-' && !k.first && !k.inRange then .ok { k with inRange := true }
  else
    let k := { k with opening := false, first := false }
    match k.inRange, k.ranges with
    | true, (lo, _) :: rest =>
        if c < lo then .error (.invalidRange lo c)
        else .ok { k with ranges := (lo, c) :: rest, inRange := false }
    | _, ranges => .ok { k with ranges := (c, c) :: ranges, inRange := false }

def isEnd (k : GlobClass) (c : Char) : Bool := c == ']' && !k.first

/-- Whether a class ends in the text that follows. A range that is invalid before the end is an
error. -/
def closes (k : GlobClass) : Text → Except GlobError Bool
  | [] => .ok false
  | c :: s =>
      if k.isEnd c then .ok true
      else
        match k.push c with
        | .error e => .error e
        | .ok k => closes k s

def token (k : GlobClass) : GlobToken :=
  .oneOf k.negated (if k.inRange then ('-', '-') :: k.ranges else k.ranges).reverse

end GlobClass

structure GlobState where
  previous : Option Char := none
  tokens : List GlobToken := []
  /-- The open groups: the branches before the present one, and the tokens before the group. -/
  groups : List (List (List GlobToken) × List GlobToken) := []
  inClass : Option GlobClass := none
  plainBrackets : Bool := false

namespace GlobState

def push (st : GlobState) (previous : Char) (t : GlobToken) : GlobState :=
  { st with previous := some previous, tokens := t :: st.tokens }

def startsPart (st : GlobState) : Bool :=
  st.previous == some '/' ||
    (!st.groups.isEmpty && (st.previous == some ',' || st.previous == some '\x7b'))

def pushStars (st : GlobState) (previous : Char) (t : GlobToken) : GlobState :=
  match st.tokens with
  | .leadingDirectories :: _ => { st with previous := some previous }
  | .everythingBelow :: _ => { st with previous := some previous }
  | _ :: rest => { st with previous := some previous, tokens := t :: rest }
  | [] => { st with previous := some previous, tokens := [t] }

def pushPlainStars (st : GlobState) : GlobState :=
  { st with previous := some '*', tokens := .zeroOrMore :: .zeroOrMore :: st.tokens }

/-- Take two stars before the rest `s` of the glob. The answer tells whether a slash at the start of
the rest goes with them. -/
def stars (st : GlobState) (s : Text) : GlobState × Bool :=
  let slashNext := s.head? = some '/'
  if st.tokens.isEmpty then
    if s.isEmpty || slashNext then
      (st.push (if slashNext then '/' else '*') .leadingDirectories, slashNext)
    else (st.pushPlainStars, false)
  else if !st.startsPart then (st.pushPlainStars, false)
  else if slashNext then (st.pushStars '/' .innerDirectories, true)
  else if s.isEmpty || (!st.groups.isEmpty && (s.head? = some ',' || s.head? = some '\x7d')) then
    (st.pushStars '*' .everythingBelow, false)
  else (st.pushPlainStars, false)

def closeGroup (st : GlobState) : Except GlobError GlobState :=
  match st.groups with
  | [] => .error .unopenedAlternates
  | (branches, outer) :: groups =>
      .ok { st with
        previous := some '\x7d'
        tokens := .alternates (st.tokens.reverse :: branches).reverse :: outer
        groups }

def comma (st : GlobState) : GlobState :=
  match st.groups with
  | [] => st.push ',' (.literal ',')
  | (branches, outer) :: groups =>
      { st with
        previous := some ','
        tokens := []
        groups := (st.tokens.reverse :: branches, outer) :: groups }

end GlobState

/-- Read the rest of a glob. A class without an end is an error, or its bracket stands for itself if
`lenient` holds. -/
def readGlob (lenient : Bool) (st : GlobState) : Text → Except GlobError (List GlobToken)
  | [] =>
      if st.inClass.isSome then .error .unclosedClass
      else if st.groups.isEmpty then .ok st.tokens.reverse
      else .error .unclosedAlternates
  | c :: s =>
      match st.inClass with
      | some k =>
          if k.isEnd c then
            readGlob lenient { st.push ']' k.token with inClass := none } s
          else
            match k.push c with
            | .error e => .error e
            | .ok k => readGlob lenient { st with previous := some c, inClass := some k } s
      | none =>
          match c, s with
          | '?', s => readGlob lenient (st.push '?' .any) s
          | '*', '*' :: s =>
              match st.stars s, s with
              | (st, true), _ :: s => readGlob lenient st s
              | (st, _), s => readGlob lenient st s
          | '*', s => readGlob lenient (st.push '*' .zeroOrMore) s
          | '[', s =>
              if st.plainBrackets then readGlob lenient (st.push '[' (.literal '[')) s
              else
                match GlobClass.closes {} s, lenient with
                | .error e, _ => .error e
                | .ok false, true =>
                    readGlob lenient { st.push '[' (.literal '[') with plainBrackets := true } s
                | _, _ => readGlob lenient { st with inClass := some {} } s
          | '\x7b', s =>
              readGlob lenient
                { st with
                  previous := some '\x7b', tokens := [], groups := ([], st.tokens) :: st.groups } s
          | '\x7d', s =>
              match st.closeGroup with
              | .error e => .error e
              | .ok st => readGlob lenient st s
          | ',', s => readGlob lenient st.comma s
          | '\\', [] => .error .danglingEscape
          | '\\', c :: s => readGlob lenient (st.push c (.literal c)) s
          | c, s => readGlob lenient (st.push c (.literal c)) s

def parseGlob (lenient : Bool) (glob : Text) : Except GlobError (List GlobToken) :=
  readGlob lenient {} glob

end TemplateLint

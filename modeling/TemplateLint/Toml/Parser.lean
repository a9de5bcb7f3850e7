import TemplateLint.Toml.Scalar

/-!
# Reading TOML

Strings, keys, values and statements. Every reader takes a text and answers with what it read and
the rest. Readers of nested values count down a number that starts above twice the length of the
document, which no document can use up.
-/

namespace TemplateLint.Toml

def isForbidden (c : Char) : Bool := (c.toNat < 0x20 && c != '\t') || c.toNat == 0x7F

def isWhite (c : Char) : Bool := c == ' ' || c == '\t'

def skipWhite (s : Text) : Text := s.dropWhile isWhite

def skipFiller (inComment : Bool) : Text → Option Text
  | [] => some []
  | '\r' :: '\n' :: s => skipFiller false s
  | '\n' :: s => skipFiller false s
  | c :: s =>
      if inComment then if isForbidden c then none else skipFiller true s
      else if isWhite c then skipFiller false s
      else if c = '#' then skipFiller true s
      else some (c :: s)

def skipLineEnd (inComment : Bool) : Text → Option Text
  | [] => some []
  | '\r' :: '\n' :: s => some s
  | '\n' :: s => some s
  | c :: s =>
      if inComment then if isForbidden c then none else skipLineEnd true s
      else if isWhite c then skipLineEnd false s
      else if c = '#' then skipLineEnd true s
      else none

def shortEscape? (c : Char) : Option Char :=
  match c with
  | 'b' => some (Char.ofNat 0x08)
  | 't' => some '\t'
  | 'n' => some '\n'
  | 'f' => some (Char.ofNat 0x0C)
  | 'r' => some '\r'
  | 'e' => some (Char.ofNat 0x1B)
  | '"' => some '"'
  | '\\' => some '\\'
  | _ => none

def hexChar? (digits : Text) : Option Char :=
  let n := ofDigits 16 digits
  if digits.all isHexDigit && n.isValidChar then some (Char.ofNat n) else none

def push (c : Char) : Option (Text × Text) → Option (Text × Text) :=
  Option.map fun (s, rest) => (c :: s, rest)

def basicString : Text → Option (Text × Text)
  | [] => none
  | '"' :: s => some ([], s)
  | '\\' :: 'x' :: a :: b :: s => (hexChar? [a, b]).bind fun c => push c (basicString s)
  | '\\' :: 'u' :: a :: b :: c :: d :: s =>
      (hexChar? [a, b, c, d]).bind fun c => push c (basicString s)
  | '\\' :: 'U' :: a :: b :: c :: d :: e :: f :: g :: h :: s =>
      (hexChar? [a, b, c, d, e, f, g, h]).bind fun c => push c (basicString s)
  | '\\' :: c :: s => (shortEscape? c).bind fun c => push c (basicString s)
  | c :: s => if isForbidden c then none else push c (basicString s)

def literalString : Text → Option (Text × Text)
  | [] => none
  | '\x27' :: s => some ([], s)
  | c :: s => if isForbidden c then none else push c (literalString s)

def isBlankLine (s : Text) : Bool :=
  match skipWhite s with
  | '\n' :: _ => true
  | '\r' :: '\n' :: _ => true
  | _ => false

/-- A string of several lines up to its three closing double quotes, before which up to two quotes
belong to it. A backslash at the end of a line skips all white space after it. -/
def basicLines (skipping : Bool) : Text → Option (Text × Text)
  | [] => none
  | '"' :: '"' :: '"' :: '"' :: '"' :: s => some (['"', '"'], s)
  | '"' :: '"' :: '"' :: '"' :: s => some (['"'], s)
  | '"' :: '"' :: '"' :: s => some ([], s)
  | '\\' :: 'x' :: a :: b :: s => (hexChar? [a, b]).bind fun c => push c (basicLines false s)
  | '\\' :: 'u' :: a :: b :: c :: d :: s =>
      (hexChar? [a, b, c, d]).bind fun c => push c (basicLines false s)
  | '\\' :: 'U' :: a :: b :: c :: d :: e :: f :: g :: h :: s =>
      (hexChar? [a, b, c, d, e, f, g, h]).bind fun c => push c (basicLines false s)
  | '\\' :: c :: s =>
      match shortEscape? c with
      | some c => push c (basicLines false s)
      | none => if isBlankLine (c :: s) then basicLines true (c :: s) else none
  | '\r' :: '\n' :: s =>
      if skipping then basicLines true s else push '\r' (push '\n' (basicLines false s))
  | '\n' :: s => if skipping then basicLines true s else push '\n' (basicLines false s)
  | c :: s =>
      if skipping && isWhite c then basicLines true s
      else if isForbidden c then none
      else push c (basicLines false s)

def literalLines : Text → Option (Text × Text)
  | [] => none
  | '\x27' :: '\x27' :: '\x27' :: '\x27' :: '\x27' :: s => some (['\x27', '\x27'], s)
  | '\x27' :: '\x27' :: '\x27' :: '\x27' :: s => some (['\x27'], s)
  | '\x27' :: '\x27' :: '\x27' :: s => some ([], s)
  | '\r' :: '\n' :: s => push '\r' (push '\n' (literalLines s))
  | '\n' :: s => push '\n' (literalLines s)
  | c :: s => if isForbidden c then none else push c (literalLines s)

def dropFirstBreak : Text → Text
  | '\n' :: s => s
  | '\r' :: '\n' :: s => s
  | s => s

def string? : Text → Option (Text × Text)
  | '"' :: '"' :: '"' :: s => basicLines false (dropFirstBreak s)
  | '\x27' :: '\x27' :: '\x27' :: s => literalLines (dropFirstBreak s)
  | '"' :: s => basicString s
  | '\x27' :: s => literalString s
  | _ => none

def isBareKey (c : Char) : Bool := c.isAlphanum || c == '_' || c == '-'

def keyPart? : Text → Option (Text × Text)
  | '"' :: s => basicString s
  | '\x27' :: s => literalString s
  | s =>
      let (part, rest) := s.span isBareKey
      if part = [] then none else some (part, rest)

def maxKeyParts : Nat := 80

def keyWithin? : Nat → Text → Option (List Text × Text)
  | 0, _ => none
  | limit + 1, s =>
      (keyPart? s).bind fun (part, rest) =>
        match skipWhite rest with
        | '.' :: rest =>
            (keyWithin? limit (skipWhite rest)).map fun (parts, rest) => (part :: parts, rest)
        | rest => some ([part], rest)

def key? (s : Text) : Option (List Text × Text) := keyWithin? maxKeyParts s

def isScalarChar (c : Char) : Bool :=
  c.isAlphanum || c == '_' || c == '-' || c == '+' || c == '.' || c == ':'

/-- The text of a scalar without quotes. A space may stand between a date and a time. -/
def scalarText (s : Text) : Text × Text :=
  let (first, rest) := s.span isScalarChar
  match rest with
  | ' ' :: c :: more =>
      if isDate first && c.isDigit then
        let (second, rest) := (c :: more).span isScalarChar
        (first ++ ' ' :: second, rest)
      else (first, rest)
  | _ => (first, rest)

def replaceEntry (entries : Entries) (key : Text) (value : Value) : Entries :=
  entries.map fun (k, v) => if k = key then (k, value) else (k, v)

/-- The entries of a table with one more under a dotted key. The tables on the way are made, or came
about on the way to something else. The way may also lead through the last element of an array of
tables, but not end there. -/
def addDotted (key : Text) (value : Value) : List Text → Entries → Option Entries
  | [], entries =>
      if (entries.lookup key).isSome then none else some (entries ++ [(key, value)])
  | part :: path, entries =>
      match entries.lookup part with
      | none =>
          (addDotted key value path []).map fun inner => entries ++ [(part, .table .dotted inner)]
      | some (.table kind inner) =>
          if kind.isOnTheWay then
            (addDotted key value path inner).map fun inner =>
              replaceEntry entries part (.table kind inner)
          else none
      | some (.tables elements) =>
          match elements.getLast? with
          | some (.table kind inner) =>
              if path = [] then none
              else
                (addDotted key value path inner).map fun inner =>
                  replaceEntry entries part (.tables (elements.dropLast ++ [.table kind inner]))
          | _ => none
      | some _ => none

def addEntry (entries : Entries) (parts : List Text) (value : Value) : Option Entries :=
  parts.getLast?.bind fun key => addDotted key value parts.dropLast entries

/-- The key of an entry of a table in braces, and what follows its equals sign. Line breaks and
comments may stand on both sides of the sign. -/
def innerAssignment? (s : Text) : Option (List Text × Text) :=
  (key? s).bind fun (parts, rest) =>
    match skipFiller false rest with
    | some ('=' :: rest) => (skipFiller false rest).map fun rest => (parts, rest)
    | _ => none

def maxDepth : Nat := 80

mutual

/-- A value; `depth` counts the arrays and tables in braces around it. -/
def value? (fuel depth : Nat) (s : Text) : Option (Value × Text) :=
  match fuel with
  | 0 => none
  | fuel + 1 =>
      match s with
      | '[' :: s =>
          if depth < maxDepth then
            (elements? fuel (depth + 1) s).map fun (vs, rest) => (.array vs, rest)
          else none
      | '\x7b' :: s =>
          if depth < maxDepth then
            (entries? fuel (depth + 1) [] s).map fun (es, rest) => (.table .inline es, rest)
          else none
      | s =>
          if s.head? = some '"' || s.head? = some '\x27' then
            (string? s).map fun (s, rest) => (.string s, rest)
          else (scalar? (scalarText s).1).map fun v => (v, (scalarText s).2)

def elements? (fuel depth : Nat) (s : Text) : Option (List Value × Text) :=
  match fuel with
  | 0 => none
  | fuel + 1 =>
      match skipFiller false s with
      | none => none
      | some (']' :: rest) => some ([], rest)
      | some s =>
          match value? fuel depth s with
          | none => none
          | some (v, rest) =>
              match skipFiller false rest with
              | some (',' :: rest) =>
                  (elements? fuel depth rest).map fun (vs, rest) => (v :: vs, rest)
              | some (']' :: rest) => some ([v], rest)
              | _ => none

def entries? (fuel depth : Nat) (before : Entries) (s : Text) : Option (Entries × Text) :=
  match fuel with
  | 0 => none
  | fuel + 1 =>
      match skipFiller false s with
      | none => none
      | some ('\x7d' :: rest) => some (before, rest)
      | some s =>
          match innerAssignment? s with
          | none => none
          | some (parts, s) =>
              match value? fuel depth s with
              | none => none
              | some (v, rest) =>
                  (addEntry before parts v).bind fun entries =>
                    match skipFiller false rest with
                    | some (',' :: rest) => entries? fuel depth entries rest
                    | some ('\x7d' :: rest) => some (entries, rest)
                    | _ => none

end

inductive Statement where
  | header (path : List Text)
  | arrayHeader (path : List Text)
  | assign (parts : List Text) (value : Value)

def statement? (fuel : Nat) : Text → Option (Statement × Text)
  | '[' :: '[' :: s =>
      match key? (skipWhite s) with
      | some (path, ']' :: ']' :: rest) => some (.arrayHeader path, rest)
      | _ => none
  | '[' :: s =>
      match key? (skipWhite s) with
      | some (path, ']' :: rest) => some (.header path, rest)
      | _ => none
  | s =>
      match key? s with
      | some (parts, '=' :: rest) =>
          (value? fuel 0 (skipWhite rest)).map fun (v, rest) => (.assign parts v, rest)
      | _ => none

def statements? (fuel : Nat) (s : Text) : Option (List Statement) :=
  match fuel with
  | 0 => none
  | fuel + 1 =>
      match skipFiller false s with
      | none => none
      | some [] => some []
      | some s =>
          (statement? (2 * s.length + 2) s).bind fun (statement, rest) =>
            (skipLineEnd false rest).bind fun rest =>
              (statements? fuel rest).map (statement :: ·)

end TemplateLint.Toml

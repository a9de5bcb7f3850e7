import TemplateLint.Text.Basic

/-!
# JSON documents

Documents of numbers, texts, lists and records, and their layout over several lines: two spaces per
level, an empty list or record on one line.
-/

namespace TemplateLint

/-- A JSON document. Records keep the order of their fields. -/
inductive JsonValue where
  | number (n : Nat)
  | text (s : Text)
  | list (elements : List JsonValue)
  | record (fields : List (Text × JsonValue))
  deriving Repr

namespace JsonValue

def hexByte (n : Nat) : Text := [Nat.digitChar (n / 16), Nat.digitChar (n % 16)]

def escapeChar (c : Char) : Text :=
  if c = '"' then ['\\', '"']
  else if c = '\\' then ['\\', '\\']
  else if c = '\n' then ['\\', 'n']
  else if c = '\r' then ['\\', 'r']
  else if c = '\t' then ['\\', 't']
  else if c.toNat = 0x08 then ['\\', 'b']
  else if c.toNat = 0x0C then ['\\', 'f']
  else if c.toNat < 0x20 then ['\\', 'u', '0', '0'] ++ hexByte c.toNat
  else [c]

def quote (s : Text) : Text := '"' :: s.flatMap escapeChar ++ ['"']

def newLine (level : Nat) : Text := '\n' :: List.replicate (2 * level) ' '

mutual

def pretty (level : Nat) : JsonValue → Text
  | number n => decimal n
  | text s => quote s
  | list [] => ['[', ']']
  | list (e :: es) =>
      '[' :: newLine (level + 1) ++ pretty (level + 1) e ++ prettyElements (level + 1) es ++
        newLine level ++ [']']
  | record [] => ['\x7b', '\x7d']
  | record (f :: fs) =>
      '\x7b' :: newLine (level + 1) ++ prettyField (level + 1) f ++ prettyFields (level + 1) fs ++
        newLine level ++ ['\x7d']

def prettyElements (level : Nat) : List JsonValue → Text
  | [] => []
  | e :: es => ',' :: newLine level ++ pretty level e ++ prettyElements level es

def prettyField (level : Nat) : Text × JsonValue → Text
  | (key, value) => quote key ++ [':', ' '] ++ pretty level value

def prettyFields (level : Nat) : List (Text × JsonValue) → Text
  | [] => []
  | f :: fs => ',' :: newLine level ++ prettyField level f ++ prettyFields level fs

end

end JsonValue

end TemplateLint

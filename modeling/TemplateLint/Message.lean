import TemplateLint.Text.Basic

/-!
# Message templates

A template has placeholders in braces: an empty pair takes the next argument, a number the argument
with that index. A placeholder without an argument stays as it is.
-/

namespace TemplateLint

def indexLimit : Nat := 18446744073709551616

/-- An index written in decimal, with an optional plus sign, that fits in 64 bits. -/
def index? (s : Text) : Option Nat :=
  let digits := if s.head? = some '+' then s.tail else s
  if digits != [] && digits.all Char.isDigit then
    let n := digits.foldl (fun n c => n * 10 + (c.toNat - '0'.toNat)) 0
    if n < indexLimit then some n else none
  else none

def fillFrom (args : List Text) (next : Nat) (s : Text) : Text :=
  match _ho : breakAt ['\x7b'] s with
  | none => s
  | some (before, inside) =>
      match _hc : breakAt ['\x7d'] inside with
      | none => s
      | some (inner, after) =>
          let index := if inner = [] then some next else index? inner
          let shown := (index.bind (args[·]?)).getD ('\x7b' :: inner ++ ['\x7d'])
          before ++ shown ++ fillFrom args (if inner = [] then next + 1 else next) after
termination_by s.length
decreasing_by
  have h₁ := length_lt_of_breakAt (by simp) _ho
  have h₂ := length_lt_of_breakAt (by simp) _hc
  omega

/-- The text of a template with its arguments. Without arguments it is taken as it is. -/
def formatMessage (template : Text) (args : List Text) : Text :=
  if args = [] then template else fillFrom args 0 template

end TemplateLint

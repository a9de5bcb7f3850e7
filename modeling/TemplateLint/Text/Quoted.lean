import TemplateLint.Text.Basic
import TemplateLint.Text.Unprintable

/-!
# Quoted texts

A text between double quotes, in which quotes, backslashes and characters that cannot be seen are
escaped.
-/

namespace TemplateLint

def quoteChar (c : Char) : Text :=
  if c = '"' then ['\\', '"']
  else if c = '\\' then ['\\', '\\']
  else if c = '\n' then ['\\', 'n']
  else if c = '\r' then ['\\', 'r']
  else if c = '\t' then ['\\', 't']
  else if c.toNat = 0 then ['\\', '0']
  else if isUnprintable c then
    ['\\', 'u', '\x7b'] ++ Nat.toDigits 16 c.toNat ++ ['\x7d']
  else [c]

def quoted (s : Text) : Text := '"' :: s.flatMap quoteChar ++ ['"']

end TemplateLint

import TemplateLint.Diagnostic

/-!
# Colours

Text is coloured by escape sequences around it. Colours can be switched off.
-/

namespace TemplateLint

inductive Style where
  | red
  | yellow
  | bold
  deriving DecidableEq, Repr

namespace Style

def on : Style → Text
  | red => "31".toList
  | yellow => "33".toList
  | bold => "1".toList

def off : Style → Text
  | red => "39".toList
  | yellow => "39".toList
  | bold => "0".toList

def escape : Char := Char.ofNat 0x1B

def sequence (code : Text) : Text := escape :: '[' :: code ++ ['m']

def ofSeverity : Severity → Style
  | .error => red
  | .warning => yellow

def paint (s : Style) (useColor : Bool) (t : Text) : Text :=
  if useColor then sequence s.on ++ t ++ sequence s.off else t

end Style

end TemplateLint

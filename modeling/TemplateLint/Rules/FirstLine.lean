import TemplateLint.Rule

/-!
# Rules about a file as a whole

Such rules act once, at the first line break of a file.
-/

namespace TemplateLint

def isFirstNewLine (tokens : TokenStream) (position : Nat) : Bool :=
  position == 0 ||
    (TokenStream.findPrevious? tokens { types := [.newLine] } (position - 1)).isNone

def reportError (message : String) (position : Position) (code : String)
    (args : List Text := []) : FileOp :=
  .add .error message.toList position code.toList args

def reportWarning (message : Text) (position : Position) (code : String) : FileOp :=
  .add .warning message position code.toList []

end TemplateLint

import TemplateLint.Lexeme

/-!
# Scanning

A template becomes tokens by numbering the lines of its lexemes. Scanning cannot fail. The module
also has the marker by which a template opts out of being checked.
-/

namespace TemplateLint

/-- Number the lines of lexemes, the first of which starts on `line`. -/
def Lexeme.place (line : Nat) : List Lexeme → TokenStream
  | [] => []
  | l :: rest =>
      let breaks := countLineBreaks l.content
      if l.type = .newLine then ⟨l.type, l.content, line, none⟩ :: place (line + breaks) rest
      else if breaks = 0 then ⟨l.type, l.content, line, none⟩ :: place line rest
      else ⟨l.type, l.content, line + breaks, some line⟩ :: place (line + breaks) rest

namespace Markup

def tokenize (m : Markup) (source : Text) : TokenStream :=
  Lexeme.place 1 (m.lexemes false (m.split source))

end Markup

def optOutMarker : Text := "@noSmartyLint".toList

def hasOptOutMarker (s : Text) : Bool := hasSlice optOutMarker s

def optsOut (source : Text) : Bool :=
  ((splitAtSlices (detectLineBreak source).text source).take 2).any hasOptOutMarker

end TemplateLint

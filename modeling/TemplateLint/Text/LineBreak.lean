import TemplateLint.Text.Basic

/-!
# Line breaks

A line ends in LF, in CR, or in CR followed by LF, which is one break and not two. The first
break of a text decides its line ending.
-/

namespace TemplateLint

inductive LineBreak where
  | lf
  | cr
  | crlf
  deriving DecidableEq, Repr

namespace LineBreak

def text : LineBreak → Text
  | lf => ['\n']
  | cr => ['\r']
  | crlf => ['\r', '\n']

end LineBreak

/-- The line breaks of a text in order. CR directly followed by LF is one break. -/
def lineBreaks : Text → List LineBreak
  | [] => []
  | '\r' :: '\n' :: s => .crlf :: lineBreaks s
  | '\r' :: s => .cr :: lineBreaks s
  | '\n' :: s => .lf :: lineBreaks s
  | _ :: s => lineBreaks s

def countLineBreaks (s : Text) : Nat := (lineBreaks s).length

/-- The line ending of a text: its first break, and LF if it has none. -/
def detectLineBreak (s : Text) : LineBreak := (lineBreaks s).headD .lf

def hasMixedLineBreaks (s eol : Text) : Bool := (lineBreaks s).any fun b => b.text != eol

def showLineBreaks (s : Text) : Text :=
  s.flatMap fun c => if c = '\n' then ['\\', 'n'] else if c = '\r' then ['\\', 'r'] else [c]

end TemplateLint

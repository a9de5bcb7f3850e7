import TemplateLint.Text.Basic
import TemplateLint.Text.LineBreak

/-!
# Tokens

A template is a sequence of tokens. A token has a type, the exact text that it covers and the line
on which it ends; a token that runs over several lines also has the line on which it starts.
-/

namespace TemplateLint

inductive TokenType where
  | newLine
  | tab
  | space
  | htmlText
  | htmlComment
  | tag
  | comment
  /-- The first template comment of a file. -/
  | docComment
  deriving DecidableEq, Repr

namespace TokenType

def all : List TokenType :=
  [newLine, tab, space, htmlText, htmlComment, tag, comment, docComment]

def name : TokenType → Text
  | newLine => "NEW_LINE".toList
  | tab => "TAB".toList
  | space => "SPACE".toList
  | htmlText => "HTML_TEXT".toList
  | htmlComment => "HTML_COMMENT".toList
  | tag => "SMARTY".toList
  | comment => "SMARTY_COMMENT".toList
  | docComment => "SMARTY_DOC_COMMENT".toList

def ofName? (s : Text) : Option TokenType := all.find? fun t => asciiLower t.name == asciiLower s

def unknownMessage (s : Text) : Text := "unknown token type: ".toList ++ s

def isTemplateComment : TokenType → Bool
  | comment => true
  | docComment => true
  | _ => false

theorem mem_all (t : TokenType) : t ∈ all := by cases t <;> decide

end TokenType

structure Token where
  type : TokenType
  content : Text
  /-- The line on which the token ends. -/
  line : Nat
  start : Option Nat
  deriving DecidableEq, Repr

namespace Token

def isMultiLine (t : Token) : Bool := t.start.isSome

def firstLine (t : Token) : Nat := t.start.getD t.line

/-- The lines of the token's text. A token on a single line is one piece whatever `eol` is. -/
def physicalLines (t : Token) (eol : Text) : List Text :=
  if t.isMultiLine then splitAtSlices eol t.content else [t.content]

end Token

abbrev TokenStream := List Token

namespace TokenStream

def source (ts : TokenStream) : Text := ts.flatMap Token.content

def hasType (ts : TokenStream) (type : TokenType) : Bool := ts.any fun t => t.type == type

end TokenStream

structure TokenQuery where
  types : List TokenType
  /-- Look for the kinds that are not listed instead. -/
  exclude : Bool := false
  value : Option Text := none
  deriving DecidableEq, Repr

namespace TokenQuery

def accepts (q : TokenQuery) (t : Token) : Bool :=
  (q.types.contains t.type != q.exclude) && q.value.all fun v => t.content == v

def acceptsAt (q : TokenQuery) (ts : TokenStream) (position : Nat) : Bool :=
  (ts[position]?).any q.accepts

end TokenQuery

namespace TokenStream

/-- Walk back from `start`, or from the last token if that comes first, down to `stop`; the first
position that is accepted. -/
def findPrevious? (ts : TokenStream) (q : TokenQuery) (start : Nat) (stop : Nat := 0) :
    Option Nat :=
  if ts = [] then none
  else
    let upper := min start (ts.length - 1)
    ((List.range' stop (upper + 1 - stop)).reverse).find? (q.acceptsAt ts)

/-- Walk forward from `start` up to but not including `stop` or the end, whichever comes first; the
first position that is accepted. -/
def findNext? (ts : TokenStream) (q : TokenQuery) (start : Nat) (stop : Option Nat := none) :
    Option Nat :=
  let upper := min (stop.getD ts.length) ts.length
  (List.range' start (upper - start)).find? (q.acceptsAt ts)

end TokenStream

end TemplateLint

import TemplateLint.Rules.FirstLine

/-!
# Rules about white space

White space at the end of lines, empty lines in a row, and spaces before the end of a tag.
-/

namespace TemplateLint.Rules

variable {σ : Type}

def maxNewLines : Nat := 3

def reportTrailing (tokens : TokenStream) (position : Nat) : List FileOp :=
  let previous := if position = 0 then none else tokens[position - 1]?
  if previous.any fun t => t.type == .tab || t.type == .space then
    [reportError "Whitespace found at end of line" (.token position) "EndLine"]
  else []

def newLinesUpTo (tokens : TokenStream) (position : Nat) : Nat :=
  1 + ((tokens.take position).reverse.takeWhile fun t => t.type == .newLine).length

/-- The report on a run of `count` line breaks that ends at `position`. It points at the token
before the run. -/
def reportEmptyLines (position count : Nat) : List FileOp :=
  if count > maxNewLines then
    [reportError "Found \x7b\x7d empty lines in a row."
      (if count ≤ position then .token (position - count) else .wholeFile) "EmptyLines"
      [decimal count]]
  else []

/-- White space at the end of lines and runs of empty lines. A position after the end of the tokens
is a crash. -/
def superfluousWhitespace : FileRule σ :=
  .ofTokens "Rules.Whitespace.SuperfluousWhitespaceRule".toList [.newLine]
    fun _ tokens position =>
      let trailing := reportTrailing tokens position
      if position ≤ tokens.length then
        (trailing ++ reportEmptyLines position (newLinesUpTo tokens position), .done)
      else
        (trailing, .crashed (some ("range end index ".toList ++ decimal position ++
          " out of range for slice of length ".toList ++ decimal tokens.length)))

def tagsWhitespace : FileRule σ :=
  .ofTokens "Rules.Whitespace.TagsWhitespaceRule".toList [.tag]
    fun file tokens position =>
      let padded := (tokens[position]?).any fun t =>
        !t.isMultiLine && (dropTrailing? file.context.markup.right t.content).any fun body =>
          body.getLast? == some ' '
      if padded then
        ([reportError "Whitespace found before end of one line smarty tag" (.token position)
            "Smarty"], .done)
      else ([], .done)

end TemplateLint.Rules

import TemplateLint.Rules.FirstLine

/-!
# Rules about the lines of a file

A file ends in exactly one line break, and its line ending is the one that is expected.
-/

namespace TemplateLint.Rules

variable {σ : Type}

def lastContent? (tokens : TokenStream) (last : Nat) : Option Nat :=
  TokenStream.findPrevious? tokens { types := [.newLine, .space, .tab], exclude := true } last

/-- The report on the end of a file whose last token has the index `last`. Line numbers that
descend are a crash. -/
def checkEnding (tokens : TokenStream) (last : Nat) : List FileOp × Ending :=
  match tokens[last]? with
  | none => ([], .done)
  | some final =>
      if final.type ≠ .newLine then
        ([reportError "Expected 1 newline at end of file; 0 found" (.token last) "NoneFound"],
          .done)
      else
        match (lastContent? tokens last).bind fun i => (tokens[i]?).map fun t => (i, t) with
        | none => ([], .done)
        | some (index, content) =>
            if final.line < content.line then
              ([], .crashed (some "attempt to subtract with overflow".toList))
            else if final.line = content.line then ([], .done)
            else
              ([reportError "Expected 1 blank line at end of file; \x7b\x7d found" (.token index)
                "TooMany" [decimal (final.line - content.line + 1)]], .done)

def endFileNewline : FileRule σ :=
  .ofTokens "Rules.Files.EndFileNewlineRule".toList [.newLine]
    fun _ tokens position =>
      if isFirstNewLine tokens position && tokens != [] then
        checkEnding tokens (tokens.length - 1)
      else ([], .done)

def lineEndings : FileRule σ :=
  .ofTokens "Rules.Files.LineEndingsRule".toList [.newLine]
    fun file tokens position =>
      let expected := file.context.config.expectedEol
      if isFirstNewLine tokens position && file.eol != expected then
        ([reportError
            "End of line character is invalid; expected \"\x7b\x7d\" but found \"\x7b\x7d\""
            (.token position) "InvalidEOLChar"
            [showLineBreaks expected, showLineBreaks file.eol]], .done)
      else ([], .done)

end TemplateLint.Rules

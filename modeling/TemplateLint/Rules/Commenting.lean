import TemplateLint.Rules.FirstLine

/-!
# Rules about comments

Open tasks in comments, HTML comments, and files that no comment documents.
-/

namespace TemplateLint.Rules

variable {σ : Type}

/-- The letters next to which a keyword is part of a longer word. The class has the two characters
that fold to `s` and `k` besides the letters `A` to `Z` and `a` to `z`. -/
def isTaskLetter (c : Char) : Bool := c.isAlpha || c.toNat == 0x17F || c.toNat == 0x212A

/-- What follows `keyword` at the start of `s` in upper or lower case, if no letter follows it
directly and something does. -/
def keywordHere? (keyword s : Text) : Option Text :=
  let rest := s.drop keyword.length
  if asciiLower (s.take keyword.length) == keyword && rest.head?.any (!isTaskLetter ·) then
    some rest
  else none

/-- What follows the first keyword in `s` that stands between characters that are no letters;
`previous` is the character before `s`. -/
def afterKeyword? (keyword : Text) (previous : Option Char) : Text → Option Text
  | [] => none
  | c :: s =>
      let here := if previous.any (!isTaskLetter ·) then keywordHere? keyword (c :: s) else none
      here <|> afterKeyword? keyword (some c) s

def isTaskTrim (right : Text) (c : Char) : Bool :=
  isBlank c || "[]().*".toList.contains c || right.contains c

def taskOf? (keyword right line : Text) : Option Text :=
  (afterKeyword? keyword none line).map fun rest =>
    trimWhile (isTaskTrim right) ((rest.dropWhile (!isTaskLetter ·)).takeWhile (· != '\n'))

def reportTask (severity : Severity) (label task : Text) (position : Position) : FileOp :=
  let message := "Comment refers to a ".toList ++ label ++ " task".toList
  if task = [] then .add severity message position "CommentFound".toList [task]
  else .add severity (message ++ " \"\x7b\x7d\"".toList) position "TaskFound".toList [task]

def reportTasks (severity : Severity) (keyword label : Text) (file : CheckedFile)
    (tokens : TokenStream) (position : Nat) : List FileOp :=
  match tokens[position]? with
  | none => []
  | some token =>
      (token.physicalLines file.eol).zipIdx.filterMap fun (line, offset) =>
        (taskOf? keyword file.context.markup.right line).map fun task =>
          reportTask severity label task (.line token.firstLine offset)

def fixme : FileRule σ :=
  .ofTokens "Rules.Commenting.FixmeRule".toList [.comment, .docComment, .htmlComment]
    fun file tokens position =>
      (reportTasks .error "fixme".toList "FIXME".toList file tokens position, .done)

def todo : FileRule σ :=
  .ofTokens "Rules.Commenting.TodoRule".toList [.comment, .docComment]
    fun file tokens position =>
      (reportTasks .warning "todo".toList "TODO".toList file tokens position, .done)

def noHtmlComment : FileRule σ :=
  .ofTokens "Rules.Commenting.NoHTMLCommentRule".toList [.htmlComment]
    fun file tokens position =>
      match tokens[position]? with
      | none => ([], .done)
      | some token =>
          let message := "Don't use HTML Comments. Use smarty comments ".toList ++
            file.context.markup.left ++ "* *".toList ++ file.context.markup.right
          ([reportWarning message (.line token.firstLine 0) "HTMLCommentFound"], .done)

def fileNoComment : FileRule σ :=
  .ofTokens "Rules.Commenting.FileNoCommentRule".toList [.newLine]
    fun _ tokens position =>
      if isFirstNewLine tokens position && !TokenStream.hasType tokens .docComment then
        ([reportError "Missing file doc comment" (.token position) "Missing"], .done)
      else ([], .done)

end TemplateLint.Rules

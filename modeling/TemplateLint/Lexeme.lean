import TemplateLint.Segment
import TemplateLint.Token.Basic

/-!
# Lexemes

The text between tags is read as line breaks, tabs, runs of spaces, HTML comments and runs of
anything else; a tag is one lexeme. A lexeme is a token that does not yet know its line.
-/

namespace TemplateLint

structure Lexeme where
  type : TokenType
  content : Text
  deriving DecidableEq, Repr

namespace Lexeme

def commentOpener : Text := "<!--".toList

def commentCloser : Text := "-->".toList

def endsTextRun : Text → Bool
  | [] => true
  | c :: s => c == ' ' || c == '\t' || c == '\r' || c == '\n' || commentOpener.isPrefixOf (c :: s)

def textRun : Text → Text × Text
  | [] => ([], [])
  | c :: s =>
      if endsTextRun (c :: s) then ([], c :: s)
      else (c :: (textRun s).1, (textRun s).2)

/-- The HTML comment at the start of `s`, which opens one, and what follows it. The dashes of the
opener may belong to the closer as well; a comment that is never closed takes the whole text. -/
def htmlComment (s : Text) : Text × Text :=
  match breakAt commentCloser (s.drop 2) with
  | some (inner, after) => (s.take 2 ++ inner ++ commentCloser, after)
  | none => (s, [])

def next (c : Char) (s : Text) : Lexeme × Text :=
  if c = '\r' then
    match s with
    | '\n' :: rest => (⟨.newLine, ['\r', '\n']⟩, rest)
    | _ => (⟨.newLine, ['\r']⟩, s)
  else if c = '\n' then (⟨.newLine, ['\n']⟩, s)
  else if c = '\t' then (⟨.tab, ['\t']⟩, s)
  else if c = ' ' then (⟨.space, ' ' :: s.takeWhile (· == ' ')⟩, s.dropWhile (· == ' '))
  else if commentOpener.isPrefixOf (c :: s) then
    (⟨.htmlComment, (htmlComment (c :: s)).1⟩, (htmlComment (c :: s)).2)
  else (⟨.htmlText, c :: (textRun s).1⟩, (textRun s).2)

theorem textRun_append (s : Text) : (textRun s).1 ++ (textRun s).2 = s := by
  induction s with
  | nil => rfl
  | cons c s ih =>
      rw [textRun]
      split
      · rfl
      · simp [ih]

theorem htmlComment_append (s : Text) : (htmlComment s).1 ++ (htmlComment s).2 = s := by
  rw [htmlComment]
  split
  next inner after h =>
    have := eq_of_breakAt h
    calc
      s.take 2 ++ inner ++ commentCloser ++ after
          = s.take 2 ++ (inner ++ commentCloser ++ after) := by simp
      _ = s.take 2 ++ s.drop 2 := by rw [← this]
      _ = s := List.take_append_drop 2 s
  · simp

theorem next_append (c : Char) (s : Text) :
    (next c s).1.content ++ (next c s).2 = c :: s := by
  unfold next
  split
  · subst c
    split <;> rfl
  · split
    · simp_all
    · split
      · simp_all
      · split
        · subst c
          simp [List.takeWhile_append_dropWhile]
        · split
          · exact htmlComment_append _
          · simp [textRun_append]

theorem next_content_ne_nil (c : Char) (s : Text) : (next c s).1.content ≠ [] := by
  unfold next
  split
  · split <;> simp
  · split
    · simp
    · split
      · simp
      · split
        · simp
        · split
          · rw [htmlComment]
            split <;> simp [commentCloser]
          · simp

theorem length_next_lt (c : Char) (s : Text) : (next c s).2.length < (c :: s).length := by
  have h₁ := congrArg List.length (next_append c s)
  have h₂ := List.length_pos_iff.2 (next_content_ne_nil c s)
  simp only [List.length_append] at h₁
  omega

def ofText : Text → List Lexeme
  | [] => []
  | c :: s => (next c s).1 :: ofText (next c s).2
termination_by s => s.length
decreasing_by exact length_next_lt c s

end Lexeme

namespace Markup

def isCommentTag (m : Markup) (tag : Text) : Bool :=
  ((tag.drop m.left.length).dropWhile isBlank).head? == some '*'

/-- The lexemes of the segments of a template. The first comment of the template, unless one was
`seen` before, documents it. -/
def lexemes (m : Markup) (seen : Bool) : List Segment → List Lexeme
  | [] => []
  | .text s :: rest => Lexeme.ofText s ++ m.lexemes seen rest
  | .tag s :: rest =>
      if m.isCommentTag s then
        ⟨if seen then .comment else .docComment, s⟩ :: m.lexemes true rest
      else ⟨.tag, s⟩ :: m.lexemes seen rest

end Markup

end TemplateLint

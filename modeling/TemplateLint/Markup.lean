import TemplateLint.Error

/-!
# Markup

How tags are written in a template: between which delimiters, and whether a delimiter next to
white space is literal text.
-/

namespace TemplateLint

structure Delimiters where
  left : Text
  right : Text
  left_ne_nil : left ≠ []
  right_ne_nil : right ≠ []
  deriving DecidableEq, Repr

namespace Delimiters

def braces : Delimiters where
  left := ['\x7b']
  right := ['\x7d']
  left_ne_nil := by decide
  right_ne_nil := by decide

/-- The delimiters with the given texts. The left one is looked at first. -/
def ofTexts (left right : Text) : Except LintError Delimiters :=
  if hl : left = [] then .error (.invalidDelimiter .left)
  else if hr : right = [] then .error (.invalidDelimiter .right)
  else .ok { left, right, left_ne_nil := hl, right_ne_nil := hr }

end Delimiters

structure Markup where
  delimiters : Delimiters
  /-- A left delimiter before white space, and inside a tag a right one after it, is literal. -/
  autoLiteral : Bool
  deriving DecidableEq, Repr

namespace Markup

def standard : Markup where
  delimiters := .braces
  autoLiteral := true

def left (m : Markup) : Text := m.delimiters.left

def right (m : Markup) : Text := m.delimiters.right

theorem left_ne_nil (m : Markup) : m.left ≠ [] := m.delimiters.left_ne_nil

theorem right_ne_nil (m : Markup) : m.right ≠ [] := m.delimiters.right_ne_nil

def isLiteralSpace (c : Char) : Bool := c == ' ' || c == '\t' || c == '\r' || c == '\n'

def isLiteralBeside (m : Markup) (c : Option Char) : Bool := m.autoLiteral && c.any isLiteralSpace

end Markup

end TemplateLint

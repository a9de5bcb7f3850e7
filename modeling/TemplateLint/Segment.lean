import TemplateLint.Markup
import TemplateLint.Text.Blank

/-!
# Segments

A template is cut into text and tags. A tag runs from a left delimiter to the right delimiter that
balances it; a tag that starts with a star is a comment and runs to the first star that a right
delimiter follows. A tag that is never closed, and everything after it, is text, and so is a tag
that holds nothing but blanks.
-/

namespace TemplateLint

inductive Segment where
  | text (content : Text)
  | tag (content : Text)
  deriving DecidableEq, Repr

def Segment.content : Segment → Text
  | text s => s
  | tag s => s

def Segment.ofText (s : Text) : List Segment := if s = [] then [] else [.text s]

namespace Markup

/-- Find the right delimiter that balances a tag which is open. `s` is what is left of the
template and `previous` the character before it; `depth` counts the tags and `literal` the literal
left delimiters that were opened inside. The answer is the text before that right delimiter and
the text after it. -/
def closeNested (m : Markup) (previous : Option Char) (depth literal : Nat) (s : Text) :
    Option (Text × Text) :=
  match _hr : dropLeading? m.right s with
  | some rest =>
      if literal > 0 && m.isLiteralBeside previous then
        (m.closeNested m.right.getLast? depth (literal - 1) rest).map fun (body, after) =>
          (m.right ++ body, after)
      else
        match depth with
        | 0 => some ([], rest)
        | depth + 1 =>
            (m.closeNested m.right.getLast? depth literal rest).map fun (body, after) =>
              (m.right ++ body, after)
  | none =>
      match _hl : dropLeading? m.left s with
      | some rest =>
          if m.isLiteralBeside rest.head? then
            (m.closeNested m.left.getLast? depth (literal + 1) rest).map fun (body, after) =>
              (m.left ++ body, after)
          else
            (m.closeNested m.left.getLast? (depth + 1) literal rest).map fun (body, after) =>
              (m.left ++ body, after)
      | none =>
          match s with
          | [] => none
          | c :: rest =>
              (m.closeNested (some c) depth literal rest).map fun (body, after) =>
                (c :: body, after)
termination_by s.length
decreasing_by
  · exact length_lt_of_dropLeading? m.right_ne_nil _hr
  · exact length_lt_of_dropLeading? m.right_ne_nil _hr
  · exact length_lt_of_dropLeading? m.left_ne_nil _hl
  · exact length_lt_of_dropLeading? m.left_ne_nil _hl
  · simp

def closeTag (m : Markup) (s : Text) : Option (Text × Text) :=
  if s.head? = some '*' then
    (breakAt ('*' :: m.right) s).map fun (body, after) => (body ++ ['*'], after)
  else m.closeNested m.left.getLast? 0 0 s

theorem eq_of_closeNested {m : Markup} {previous : Option Char} {depth literal : Nat}
    {s body after : Text} (h : m.closeNested previous depth literal s = some (body, after)) :
    s = body ++ m.right ++ after := by
  fun_induction closeNested m previous depth literal s generalizing body with
  | case1 previous depth literal s rest hr _ ih =>
      obtain ⟨⟨b, a⟩, hb, heq⟩ := Option.map_eq_some_iff.1 h
      simp only [Prod.mk.injEq] at heq
      obtain ⟨rfl, rfl⟩ := heq
      rw [eq_append_of_dropLeading? hr, ih hb]
      simp
  | case2 previous literal s rest hr _ =>
      simp only [Option.some.injEq, Prod.mk.injEq] at h
      obtain ⟨rfl, rfl⟩ := h
      simp [eq_append_of_dropLeading? hr]
  | case3 previous literal s rest hr _ depth ih =>
      obtain ⟨⟨b, a⟩, hb, heq⟩ := Option.map_eq_some_iff.1 h
      simp only [Prod.mk.injEq] at heq
      obtain ⟨rfl, rfl⟩ := heq
      rw [eq_append_of_dropLeading? hr, ih hb]
      simp
  | case4 previous depth literal s hr rest hl _ ih =>
      obtain ⟨⟨b, a⟩, hb, heq⟩ := Option.map_eq_some_iff.1 h
      simp only [Prod.mk.injEq] at heq
      obtain ⟨rfl, rfl⟩ := heq
      rw [eq_append_of_dropLeading? hl, ih hb]
      simp
  | case5 previous depth literal s hr rest hl _ ih =>
      obtain ⟨⟨b, a⟩, hb, heq⟩ := Option.map_eq_some_iff.1 h
      simp only [Prod.mk.injEq] at heq
      obtain ⟨rfl, rfl⟩ := heq
      rw [eq_append_of_dropLeading? hl, ih hb]
      simp
  | case6 => simp at h
  | case7 previous depth literal c rest _ _ ih =>
      obtain ⟨⟨b, a⟩, hb, heq⟩ := Option.map_eq_some_iff.1 h
      simp only [Prod.mk.injEq] at heq
      obtain ⟨rfl, rfl⟩ := heq
      rw [ih hb]
      simp

theorem eq_of_closeTag {m : Markup} {s body after : Text}
    (h : m.closeTag s = some (body, after)) : s = body ++ m.right ++ after := by
  rw [closeTag] at h
  split at h
  · obtain ⟨⟨b, a⟩, hb, heq⟩ := Option.map_eq_some_iff.1 h
    simp only [Prod.mk.injEq] at heq
    obtain ⟨rfl, rfl⟩ := heq
    rw [eq_of_breakAt hb]
    simp
  · exact eq_of_closeNested h

/-- The segments of `s`, when the text `pending` before it belongs to no tag. -/
def segmentsAfter (m : Markup) (pending s : Text) : List Segment :=
  match _ho : breakAt m.left s with
  | none => Segment.ofText (pending ++ s)
  | some (before, inside) =>
      if m.isLiteralBeside inside.head? then
        m.segmentsAfter (pending ++ before ++ m.left) inside
      else
        match _hc : m.closeTag inside with
        | none => Segment.ofText (pending ++ s)
        | some (body, after) =>
            if (trim body).isEmpty then
              m.segmentsAfter (pending ++ before ++ m.left ++ body ++ m.right) after
            else
              Segment.ofText (pending ++ before) ++
                .tag (m.left ++ body ++ m.right) :: m.segmentsAfter [] after
termination_by s.length
decreasing_by
  · exact length_lt_of_breakAt m.left_ne_nil _ho
  · have h₁ := length_lt_of_breakAt m.left_ne_nil _ho
    have h₂ := congrArg List.length (eq_of_closeTag _hc)
    simp only [List.length_append] at h₂
    omega
  · have h₁ := length_lt_of_breakAt m.left_ne_nil _ho
    have h₂ := congrArg List.length (eq_of_closeTag _hc)
    simp only [List.length_append] at h₂
    omega

def split (m : Markup) (s : Text) : List Segment := m.segmentsAfter [] s

end Markup

end TemplateLint

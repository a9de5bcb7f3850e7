import TemplateLint.Proofs.TagSegments
import TemplateLint.Proofs.TextGrammar

/-!
# Raw lexemes

The text between tags can be read in smaller steps: an angle bracket that opens no comment is a
piece of its own, and so is the text up to the next one. The pieces are put together again as they
come: text is joined to the last lexeme if that is text as well. This gives the lexemes of the text,
and for segment after segment those of the template, since no two texts follow each other.
-/

namespace TemplateLint

theorem Lexeme.not_endsTextRun_cons_iff {c : Char} {s : Text} :
    ¬ endsTextRun (c :: s) ↔
      c ≠ ' ' ∧ c ≠ '\t' ∧ c ≠ '\r' ∧ c ≠ '\n' ∧ ¬ commentOpener.isPrefixOf (c :: s) := by
  rw [endsTextRun_cons_iff, ← List.isPrefixOf_iff_prefix]
  simp only [not_or]

inductive RawKind where
  | newLine
  | tab
  | space
  | htmlComment
  | angle
  | text
  deriving DecidableEq, Repr

def RawKind.type : RawKind → TokenType
  | newLine => .newLine
  | tab => .tab
  | space => .space
  | htmlComment => .htmlComment
  | angle => .htmlText
  | text => .htmlText

structure RawLexeme where
  kind : RawKind
  content : Text
  deriving DecidableEq, Repr

namespace RawLexeme

open Lexeme (commentOpener endsTextRun textRun htmlComment)

def isPlain (c : Char) : Bool := c != ' ' && c != '\t' && c != '\r' && c != '\n' && c != '<'

/-- The longest piece at the start of the text `c :: s`, and what follows it. -/
def next (c : Char) (s : Text) : RawLexeme × Text :=
  if c = '\r' then
    match s with
    | '\n' :: rest => (⟨.newLine, ['\r', '\n']⟩, rest)
    | _ => (⟨.newLine, ['\r']⟩, s)
  else if c = '\n' then (⟨.newLine, ['\n']⟩, s)
  else if c = '\t' then (⟨.tab, ['\t']⟩, s)
  else if c = ' ' then (⟨.space, ' ' :: s.takeWhile (· == ' ')⟩, s.dropWhile (· == ' '))
  else if commentOpener.isPrefixOf (c :: s) then
    (⟨.htmlComment, (htmlComment (c :: s)).1⟩, (htmlComment (c :: s)).2)
  else if c = '<' then (⟨.angle, ['<']⟩, s)
  else (⟨.text, c :: s.takeWhile isPlain⟩, s.dropWhile isPlain)

/-- The lexeme that a piece makes by itself. -/
def lexeme (r : RawLexeme) : Lexeme := ⟨r.kind.type, r.content⟩

theorem next_of_not_endsTextRun {c : Char} {s : Text} (h : ¬ endsTextRun (c :: s)) :
    next c s = if c = '<' then (⟨.angle, ['<']⟩, s)
      else (⟨.text, c :: s.takeWhile isPlain⟩, s.dropWhile isPlain) := by
  obtain ⟨hspace, htab, hcr, hlf, hopen⟩ := Lexeme.not_endsTextRun_cons_iff.1 h
  unfold next
  rw [if_neg hcr, if_neg hlf, if_neg htab, if_neg hspace, if_neg hopen]

/-- A piece that is no text is a lexeme. -/
theorem next_of_endsTextRun {c : Char} {s : Text} (h : endsTextRun (c :: s)) :
    (next c s).1.lexeme = (Lexeme.next c s).1 ∧ (next c s).2 = (Lexeme.next c s).2 ∧
      (next c s).1.kind.type ≠ .htmlText := by
  rw [Lexeme.endsTextRun_cons_iff, ← List.isPrefixOf_iff_prefix] at h
  unfold next Lexeme.next
  by_cases hcr : c = '\r'
  · simp only [if_pos hcr]
    rcases s with _ | ⟨d, s⟩
    · simp [lexeme, RawKind.type]
    by_cases hlf : d = '\n'
    · simp [hlf, lexeme, RawKind.type]
    · simp [hlf, lexeme, RawKind.type]
  by_cases hlf : c = '\n'
  · simp [hlf, lexeme, RawKind.type]
  by_cases htab : c = '\t'
  · simp [htab, lexeme, RawKind.type]
  by_cases hspace : c = ' '
  · simp [hspace, lexeme, RawKind.type]
  have hopen : commentOpener.isPrefixOf (c :: s) := by simpa [hcr, hlf, htab, hspace] using h
  simp [hcr, hlf, htab, hspace, hopen, lexeme, RawKind.type]

theorem textRun_append_of_plain {x : Text} (hx : ∀ c ∈ x, isPlain c) (rest : Text) :
    textRun (x ++ rest) = (x ++ (textRun rest).1, (textRun rest).2) := by
  induction x with
  | nil => rfl
  | cons c x ih =>
      have hc := hx c List.mem_cons_self
      simp only [isPlain, Bool.and_eq_true, bne_iff_ne] at hc
      obtain ⟨⟨⟨⟨hspace, htab⟩, hcr⟩, hlf⟩, hangle⟩ := hc
      have hopen : ¬ commentOpener.isPrefixOf (c :: (x ++ rest)) := by
        rw [List.isPrefixOf_iff_prefix, Lexeme.commentOpener_eq, List.cons_prefix_cons]
        exact fun h => hangle h.1.symm
      have hnot := Lexeme.not_endsTextRun_cons_iff.2 ⟨hspace, htab, hcr, hlf, hopen⟩
      rw [List.cons_append, textRun, if_neg hnot, ih fun d hd => hx d (List.mem_cons_of_mem _ hd)]
      rfl

/-- A run of text starts with the piece and goes on behind it. -/
theorem textRun_of_not_endsTextRun {c : Char} {s : Text} (h : ¬ endsTextRun (c :: s)) :
    (next c s).1.kind.type = .htmlText ∧
      textRun (c :: s) =
        ((next c s).1.content ++ (textRun (next c s).2).1, (textRun (next c s).2).2) := by
  rw [next_of_not_endsTextRun h]
  by_cases hangle : c = '<'
  · rw [if_pos hangle, textRun, if_neg h, hangle]
    exact ⟨rfl, rfl⟩
  · rw [if_neg hangle]
    refine ⟨rfl, ?_⟩
    have hplain := textRun_append_of_plain (x := s.takeWhile isPlain)
      (fun d hd => List.mem_takeWhile_imp hd) (s.dropWhile isPlain)
    rw [List.takeWhile_append_dropWhile] at hplain
    rw [textRun, if_neg h, hplain]
    rfl

theorem length_next_lt (c : Char) (s : Text) : (next c s).2.length < (c :: s).length := by
  by_cases h : endsTextRun (c :: s)
  · rw [(next_of_endsTextRun h).2.1]
    exact Lexeme.length_next_lt c s
  · rw [next_of_not_endsTextRun h]
    split
    · exact Nat.lt_succ_self _
    · exact Nat.lt_succ_of_le (List.dropWhile_suffix _).length_le

def ofText : Text → List RawLexeme
  | [] => []
  | c :: s => (next c s).1 :: ofText (next c s).2
termination_by s => s.length
decreasing_by exact length_next_lt c s

end RawLexeme

namespace Lexeme

/-- Join text to the last lexeme if that is text, and put it on as a lexeme otherwise. -/
def pushHtmlText (built : List Lexeme) (slice : Text) : List Lexeme :=
  match built.getLast? with
  | some ⟨.htmlText, content⟩ => built.dropLast ++ [⟨.htmlText, content ++ slice⟩]
  | _ => built ++ [⟨.htmlText, slice⟩]

def pushRaw (built : List Lexeme) (r : RawLexeme) : List Lexeme :=
  if r.kind.type = .htmlText then pushHtmlText built r.content else built ++ [r.lexeme]

def pushText (built : List Lexeme) (s : Text) : List Lexeme :=
  (RawLexeme.ofText s).foldl pushRaw built

/-- Whether text that is put on next makes a lexeme of its own. -/
def NoTextLast (built : List Lexeme) : Prop := ∀ l ∈ built.getLast?, l.type ≠ .htmlText

theorem noTextLast_nil : NoTextLast [] := by simp [NoTextLast]

theorem noTextLast_append {l : Lexeme} (h : l.type ≠ .htmlText) (built : List Lexeme) :
    NoTextLast (built ++ [l]) := by simpa [NoTextLast] using h

theorem pushHtmlText_of_noTextLast {built : List Lexeme} (h : NoTextLast built) (slice : Text) :
    pushHtmlText built slice = built ++ [⟨.htmlText, slice⟩] := by
  rw [pushHtmlText]
  split
  next content hlast => exact absurd rfl (h _ hlast)
  next => rfl

theorem pushHtmlText_append (built : List Lexeme) (content slice : Text) :
    pushHtmlText (built ++ [⟨.htmlText, content⟩]) slice =
      built ++ [⟨.htmlText, content ++ slice⟩] := by
  simp [pushHtmlText]

theorem next_of_not_endsTextRun {c : Char} {s : Text} (h : ¬ endsTextRun (c :: s)) :
    next c s = (⟨.htmlText, (textRun (c :: s)).1⟩, (textRun (c :: s)).2) := by
  have hrun : textRun (c :: s) = (c :: (textRun s).1, (textRun s).2) := by rw [textRun, if_neg h]
  obtain ⟨hspace, htab, hcr, hlf, hopen⟩ := not_endsTextRun_cons_iff.1 h
  unfold next
  rw [if_neg hcr, if_neg hlf, if_neg htab, if_neg hspace, if_neg hopen, hrun]

/-- Behind a lexeme that is no text, the pieces of a text make its lexemes; behind text, they first
go on with that. The two cases call each other at every change between text and the rest. -/
theorem pushText_eq (s : Text) :
    (∀ built, NoTextLast built → pushText built s = built ++ ofText s) ∧
      ∀ built content, pushText (built ++ [⟨.htmlText, content⟩]) s =
        built ++ ⟨.htmlText, content ++ (textRun s).1⟩ :: ofText (textRun s).2 := by
  fun_induction RawLexeme.ofText s with
  | case1 => simp [pushText, RawLexeme.ofText, ofText, textRun]
  | case2 c s ih =>
      obtain ⟨ihNo, ihText⟩ := ih
      have hstep (built : List Lexeme) : pushText built (c :: s) =
          pushText (pushRaw built (RawLexeme.next c s).1) (RawLexeme.next c s).2 := by
        rw [pushText, RawLexeme.ofText]
        rfl
      by_cases hends : endsTextRun (c :: s)
      · obtain ⟨hlexeme, hrest, htype⟩ := RawLexeme.next_of_endsTextRun hends
        have hno (built : List Lexeme) : pushText built (c :: s) = built ++ ofText (c :: s) := by
          rw [hstep, pushRaw, if_neg htype, ihNo _ (noTextLast_append htype built), hrest, hlexeme,
            List.append_assoc, ofText]
          rfl
        refine ⟨fun built _ => hno built, fun built content => ?_⟩
        rw [hno, textRun, if_pos hends, List.append_nil, List.append_assoc]
        rfl
      · obtain ⟨htype, hrun⟩ := RawLexeme.textRun_of_not_endsTextRun hends
        constructor
        · intro built hlast
          rw [hstep, pushRaw, if_pos htype, pushHtmlText_of_noTextLast hlast, ihText, ofText,
            next_of_not_endsTextRun hends, hrun]
        · intro built content
          rw [hstep, pushRaw, if_pos htype, pushHtmlText_append, ihText, hrun, List.append_assoc]

/-- The pieces of a text, put together, are its lexemes. -/
theorem pushText_nil (s : Text) : pushText [] s = ofText s :=
  (pushText_eq s).1 [] noTextLast_nil

end Lexeme

namespace Markup

/-- Put on segment after segment. -/
def pushSegments (m : Markup) (seen : Bool) (built : List Lexeme) : List Segment → List Lexeme
  | [] => built
  | .text s :: rest => m.pushSegments seen (Lexeme.pushText built s) rest
  | .tag s :: rest =>
      if m.isCommentTag s then
        m.pushSegments true (built ++ [⟨if seen then .comment else .docComment, s⟩]) rest
      else m.pushSegments seen (built ++ [⟨.tag, s⟩]) rest

theorem pushSegments_eq {m : Markup} {seen : Bool} {built : List Lexeme} {gs : List Segment}
    (hgs : gs.IsChain fun g h => g.tag?.isSome ∨ h.tag?.isSome)
    (hlast : ∀ s rest, gs = .text s :: rest → Lexeme.NoTextLast built) :
    m.pushSegments seen built gs = built ++ m.lexemes seen gs := by
  fun_induction pushSegments m seen built gs with
  | case1 => exact (List.append_nil _).symm
  | case2 seen built s gs ih =>
      -- Behind a text there is nothing or a tag.
      have hnext (t : Text) (rest : List Segment) : gs ≠ .text t :: rest := by
        rintro rfl
        simpa [Segment.tag?] using (List.isChain_cons_cons.1 hgs).1
      rw [ih hgs.tail fun t rest heq => absurd heq (hnext t rest),
        (Lexeme.pushText_eq s).1 built (hlast s gs rfl), lexemes, List.append_assoc]
  | case3 seen built s gs hcomment ih =>
      have hno := Lexeme.noTextLast_append (l := ⟨if seen then .comment else .docComment, s⟩)
        (by cases seen <;> exact TokenType.noConfusion) built
      rw [ih hgs.tail fun _ _ _ => hno, lexemes, if_pos hcomment, List.append_assoc]
      rfl
  | case4 seen built s gs hcomment ih =>
      have hno := Lexeme.noTextLast_append (l := ⟨.tag, s⟩) TokenType.noConfusion built
      rw [ih hgs.tail fun _ _ _ => hno, lexemes, if_neg hcomment, List.append_assoc]
      rfl

/-- The tokens of a template are its pieces, put together and numbered. -/
theorem place_pushSegments (m : Markup) (source : Text) :
    Lexeme.place 1 (m.pushSegments false [] (m.split source)) = m.tokenize source := by
  have hsegments : (m.split source).IsChain fun g h => g.tag?.isSome ∨ h.tag?.isSome :=
    m.isChain_segmentsAfter [] source
  rw [pushSegments_eq hsegments fun _ _ _ => Lexeme.noTextLast_nil, List.nil_append, tokenize]

end Markup

end TemplateLint

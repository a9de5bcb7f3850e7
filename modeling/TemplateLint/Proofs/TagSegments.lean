import Mathlib.Data.List.Chain
import TemplateLint.Proofs.RoundTrip
import TemplateLint.Proofs.SplitSteps

/-!
# Tags and comments

What the splitter makes a tag, and what the tokens say about it. Texts and tags alternate as far as
two texts never meet; a tag has a body that is more than blanks, and a tag that opens as a comment
ends with the first star that the right delimiter follows. The tokens of tag types are these tags,
and of those that are comments the first one, and only that, documents the template.
-/

namespace TemplateLint

/-- The tag that a segment is, if it is one. -/
def Segment.tag? : Segment → Option Text
  | text _ => none
  | tag s => some s

/-- Whether tokens of a type are tags. -/
def TokenType.isTagType (t : TokenType) : Bool := t == .tag || t.isTemplateComment

namespace Markup

/-- The bodies that a tag can have. -/
structure IsTagBody (m : Markup) (body : Text) : Prop where
  not_blank : trim body ≠ []
  not_literal : m.autoLiteral → ∀ c ∈ body.head?, isLiteralSpace c = false
  /-- A body that starts with a star ends with one, and before that no star has the right delimiter
  after it. -/
  closed_once : body.head? = some '*' → ∃ inner, body = inner ++ ['*'] ∧
    ∀ u v, body ++ m.right = u ++ '*' :: m.right ++ v → inner.length ≤ u.length

variable {m : Markup}

theorem isChain_segmentsAfter (m : Markup) (pending s : Text) :
    (m.segmentsAfter pending s).IsChain fun g h => g.tag?.isSome ∨ h.tag?.isSome := by
  have hlast (t : Text) : (Segment.ofText t).IsChain fun g h => g.tag?.isSome ∨ h.tag?.isSome := by
    by_cases ht : t = []
    · simp [Segment.ofText, ht]
    · simp [Segment.ofText, ht]
  fun_induction segmentsAfter m pending s with
  | case1 | case3 => exact hlast _
  | case2 _ _ _ _ _ _ ih => exact ih
  | case4 _ _ _ _ _ _ _ _ _ _ ih => exact ih
  | case5 pending s before inside _ _ body after _ _ ih =>
      rw [List.isChain_append, List.isChain_cons]
      refine ⟨hlast _, ⟨fun g _ => Or.inl rfl, ih⟩, fun g _ h hh => ?_⟩
      obtain rfl : .tag (m.left ++ body ++ m.right) = h := by simpa using hh
      exact Or.inr rfl

/-- A comment ends with the first star that the right delimiter follows, counting the star that
opens it. -/
theorem closed_once_of_closeTag {s body after : Text} (hc : m.closeTag s = some (body, after))
    (hstar : body.head? = some '*') :
    ∃ inner, body = inner ++ ['*'] ∧
      ∀ u v, body ++ m.right = u ++ '*' :: m.right ++ v → inner.length ≤ u.length := by
  have hs := eq_of_closeTag hc
  have hhead : s.head? = some '*' := by
    rw [hs, List.append_assoc, List.head?_append, hstar]
    rfl
  rw [closeTag, if_pos hhead] at hc
  obtain ⟨⟨inner, rest⟩, hb, heq⟩ := Option.map_eq_some_iff.1 hc
  simp only [Prod.mk.injEq] at heq
  obtain ⟨rfl, rfl⟩ := heq
  refine ⟨inner, rfl, fun u v huv => length_le_of_breakAt hb (v := v ++ rest) ?_⟩
  rw [hs, huv, List.append_assoc]

theorem isTagBody_of_closeTag {s body after : Text} (hc : m.closeTag s = some (body, after))
    (hliteral : ¬ m.isLiteralBeside s.head?) (hblank : ¬ (trim body).isEmpty) :
    m.IsTagBody body := by
  refine ⟨by simpa using hblank, fun hauto c hcm => ?_, closed_once_of_closeTag hc⟩
  have hhead : s.head? = some c := by
    rw [eq_of_closeTag hc, List.append_assoc, List.head?_append, Option.mem_def.1 hcm]
    rfl
  simpa [isLiteralBeside, hauto, hhead] using hliteral

theorem exists_body_of_tag_mem_segmentsAfter {pending s t : Text}
    (h : .tag t ∈ m.segmentsAfter pending s) :
    ∃ body, t = m.left ++ body ++ m.right ∧ m.IsTagBody body := by
  have hlast (u : Text) : .tag t ∉ Segment.ofText u := by
    by_cases hu : u = []
    · simp [Segment.ofText, hu]
    · simp [Segment.ofText, hu]
  fun_induction segmentsAfter m pending s with
  | case1 | case3 => exact absurd h (hlast _)
  | case2 _ _ _ _ _ _ ih => exact ih h
  | case4 _ _ _ _ _ _ _ _ _ _ ih => exact ih h
  | case5 pending s before inside _ hliteral body after hc hblank ih =>
      rcases List.mem_append.1 h with h | h
      · exact absurd h (hlast _)
      · rcases List.mem_cons.1 h with h | h
        · obtain rfl := Segment.tag.inj h
          exact ⟨body, rfl, isTagBody_of_closeTag hc hliteral hblank⟩
        · exact ih h

theorem isCommentTag_iff {body : Text} (hbody : trim body ≠ []) :
    m.isCommentTag (m.left ++ body ++ m.right) ↔
      (body.dropWhile isBlank).head? = some '*' := by
  have hne : ¬ (body.dropWhile isBlank).isEmpty := by
    rw [List.isEmpty_iff, List.dropWhile_eq_nil_iff]
    exact fun h => hbody ((trim_eq_nil_iff body).2 h)
  have hdrop : (m.left ++ body ++ m.right).drop m.left.length = body ++ m.right := by
    rw [List.append_assoc, List.drop_left]
  have hhead : ((body ++ m.right).dropWhile isBlank).head? = (body.dropWhile isBlank).head? := by
    rw [List.dropWhile_append, if_neg hne, List.head?_append_of_ne_nil]
    simpa using hne
  rw [isCommentTag, hdrop, hhead, beq_iff_eq]

end Markup

namespace Lexeme

theorem isTagType_next (c : Char) (s : Text) : (next c s).1.type.isTagType = false := by
  unfold next
  split
  · split <;> rfl
  · split
    · rfl
    · split
      · rfl
      · split
        · rfl
        · split <;> rfl

theorem isTagType_of_mem_ofText {s : Text} {l : Lexeme} (h : l ∈ ofText s) :
    l.type.isTagType = false := by
  fun_induction ofText s with
  | case1 => simp at h
  | case2 c s ih =>
      rcases List.mem_cons.1 h with rfl | h
      · exact isTagType_next c s
      · exact ih h

end Lexeme

namespace Markup

variable {m : Markup}

/-- The lexemes of tag types are the tags in order. -/
theorem filter_isTagType_lexemes (m : Markup) (seen : Bool) (gs : List Segment) :
    ((m.lexemes seen gs).filter fun l => l.type.isTagType).map Lexeme.content =
      gs.filterMap Segment.tag? := by
  fun_induction lexemes m seen gs with
  | case1 => rfl
  | case2 seen s gs ih =>
      have htext : (Lexeme.ofText s).filter (fun l => l.type.isTagType) = [] := by
        rw [List.filter_eq_nil_iff]
        intro l hl
        simp [Lexeme.isTagType_of_mem_ofText hl]
      rw [List.filter_append, htext, List.nil_append, ih]
      rfl
  | case3 seen s gs _ ih =>
      rw [List.filter_cons_of_pos (by cases seen <;> rfl), List.map_cons, ih]
      rfl
  | case4 seen s gs _ ih =>
      rw [List.filter_cons_of_pos rfl, List.map_cons, ih]
      rfl

theorem isTemplateComment_iff_of_mem_lexemes {seen : Bool} {gs : List Segment} {l : Lexeme}
    (h : l ∈ m.lexemes seen gs) (htag : l.type.isTagType) :
    .tag l.content ∈ gs ∧ (l.type.isTemplateComment ↔ m.isCommentTag l.content) := by
  fun_induction lexemes m seen gs with
  | case1 => simp at h
  | case2 seen s gs ih =>
      rcases List.mem_append.1 h with h | h
      · rw [Lexeme.isTagType_of_mem_ofText h] at htag
        exact Bool.noConfusion htag
      · exact ⟨List.mem_cons_of_mem _ (ih h).1, (ih h).2⟩
  | case3 seen s gs hcomment ih =>
      rcases List.mem_cons.1 h with rfl | h
      · refine ⟨List.mem_cons_self, iff_of_true ?_ hcomment⟩
        cases seen <;> rfl
      · exact ⟨List.mem_cons_of_mem _ (ih h).1, (ih h).2⟩
  | case4 seen s gs hcomment ih =>
      rcases List.mem_cons.1 h with rfl | h
      · exact ⟨List.mem_cons_self, iff_of_false Bool.false_ne_true hcomment⟩
      · exact ⟨List.mem_cons_of_mem _ (ih h).1, (ih h).2⟩

/-- Only a comment that no comment comes before documents the template. -/
theorem docComment_iff_of_lexemes {seen : Bool} {gs : List Segment} {i : Nat} {l : Lexeme}
    (h : (m.lexemes seen gs)[i]? = some l) :
    l.type = .docComment ↔ l.type.isTemplateComment ∧ seen = false ∧
      ∀ k ∈ (m.lexemes seen gs).take i, ¬ k.type.isTemplateComment := by
  fun_induction lexemes m seen gs generalizing i with
  | case1 => simp at h
  | case2 seen s gs ih =>
      have htext {k : Lexeme} (hk : k ∈ Lexeme.ofText s) : ¬ k.type.isTemplateComment := by
        intro hcomment
        have hplain := Lexeme.isTagType_of_mem_ofText hk
        rw [TokenType.isTagType, hcomment, Bool.or_true] at hplain
        exact Bool.noConfusion hplain
      rw [List.getElem?_append] at h
      split at h
      next hi =>
        have hl := htext (List.mem_of_getElem? h)
        exact iff_of_false (fun hdoc => hl (by rw [hdoc]; rfl)) fun hr => hl hr.1
      next hi =>
        have htake : (Lexeme.ofText s).take i = Lexeme.ofText s :=
          List.take_of_length_le (Nat.le_of_not_lt hi)
        rw [ih h, List.take_append, htake, List.forall_mem_append,
          and_iff_right fun k hk => htext hk]
  | case3 seen s gs _ ih =>
      cases i with
      | zero =>
          obtain rfl := Option.some.inj h
          cases seen <;> simp [TokenType.isTemplateComment]
      | succ i =>
          -- The comment in front is enough for `seen`, and for what is claimed of those before.
          have hnot := ih h
          have hcomment : (if seen then TokenType.comment else .docComment).isTemplateComment := by
            cases seen <;> rfl
          refine iff_of_false (fun hdoc => by simpa using (hnot.1 hdoc).2.1) fun hr => ?_
          exact hr.2.2 _ (by rw [List.take_succ_cons]; exact List.mem_cons_self) hcomment
  | case4 seen s gs _ ih =>
      cases i with
      | zero =>
          obtain rfl := Option.some.inj h
          simp [TokenType.isTemplateComment]
      | succ i =>
          have htag : ¬ (⟨.tag, s⟩ : Lexeme).type.isTemplateComment := Bool.false_ne_true
          rw [ih h, List.take_succ_cons, List.forall_mem_cons, and_iff_right htag]

theorem map_lexeme_tokenize (m : Markup) (s : Text) :
    (m.tokenize s).map (fun t => (⟨t.type, t.content⟩ : Lexeme)) = m.lexemes false (m.split s) :=
  Lexeme.map_lexeme_place 1 _

theorem filter_isTagType_tokenize (m : Markup) (s : Text) :
    ((m.tokenize s).filter fun t => t.type.isTagType).map Token.content =
      (m.split s).filterMap Segment.tag? := by
  rw [← m.filter_isTagType_lexemes false (m.split s), ← map_lexeme_tokenize, List.filter_map,
    List.map_map]
  rfl

/-- The tag that a token of a tag type covers, and whether the token is a comment. -/
theorem exists_tagBody_of_mem_tokenize {s : Text} {t : Token} (h : t ∈ m.tokenize s)
    (htag : t.type.isTagType) :
    ∃ body, t.content = m.left ++ body ++ m.right ∧ m.IsTagBody body ∧
      (t.type.isTemplateComment ↔ (body.dropWhile isBlank).head? = some '*') := by
  have hl : (⟨t.type, t.content⟩ : Lexeme) ∈ m.lexemes false (m.split s) := by
    rw [← map_lexeme_tokenize]
    exact List.mem_map_of_mem h
  obtain ⟨hmem, hcomment⟩ := isTemplateComment_iff_of_mem_lexemes hl htag
  obtain ⟨body, hcontent, hbody⟩ := exists_body_of_tag_mem_segmentsAfter hmem
  refine ⟨body, hcontent, hbody, hcomment.trans ?_⟩
  change m.isCommentTag t.content ↔ _
  rw [show t.content = _ from hcontent, isCommentTag_iff hbody.not_blank]

theorem exists_body_of_mem_tokenize {s : Text} {t : Token} (h : t ∈ m.tokenize s)
    (htag : t.type.isTagType) :
    ∃ body, t.content = m.left ++ body ++ m.right ∧
      (t.type.isTemplateComment ↔ (body.dropWhile isBlank).head? = some '*') := by
  obtain ⟨body, hcontent, -, hcomment⟩ := exists_tagBody_of_mem_tokenize h htag
  exact ⟨body, hcontent, hcomment⟩

theorem docComment_iff_first_comment {s : Text} {i : Nat} {t : Token}
    (h : (m.tokenize s)[i]? = some t) :
    t.type = .docComment ↔ t.type.isTemplateComment ∧
      ∀ u ∈ (m.tokenize s).take i, ¬ u.type.isTemplateComment := by
  have hl : (m.lexemes false (m.split s))[i]? = some ⟨t.type, t.content⟩ := by
    rw [← map_lexeme_tokenize, List.getElem?_map, h]
    rfl
  have hiff := docComment_iff_of_lexemes hl
  rw [← map_lexeme_tokenize, ← List.map_take, List.forall_mem_map, and_iff_right rfl] at hiff
  exact hiff

/-- Segments are never empty, of two neighbours one is a tag, and a tag has a body between its
delimiters that is not blank, does not start with literal white space, and as a comment closes once.
The tokens of tag types are the tags in order; such a token is a comment exactly when its body
starts with a star behind blanks, and the first comment of the template is the one token that
documents it. -/
theorem split_tags_and_comments (m : Markup) (s : Text) :
    (∀ g ∈ m.split s, g.content ≠ []) ∧
      ((m.split s).IsChain fun g h => g.tag?.isSome ∨ h.tag?.isSome) ∧
      (∀ t, .tag t ∈ m.split s → ∃ body, t = m.left ++ body ++ m.right ∧ m.IsTagBody body) ∧
      ((m.tokenize s).filter fun t => t.type.isTagType).map Token.content =
        (m.split s).filterMap Segment.tag? ∧
      (∀ t ∈ m.tokenize s, t.type.isTagType → ∃ body, t.content = m.left ++ body ++ m.right ∧
        (t.type.isTemplateComment ↔ (body.dropWhile isBlank).head? = some '*')) ∧
      ∀ i t, (m.tokenize s)[i]? = some t →
        (t.type = .docComment ↔ t.type.isTemplateComment ∧
          ∀ u ∈ (m.tokenize s).take i, ¬ u.type.isTemplateComment) :=
  ⟨fun _ => m.content_ne_nil_of_mem_split s, m.isChain_segmentsAfter [] s,
    fun _ => exists_body_of_tag_mem_segmentsAfter, m.filter_isTagType_tokenize s,
    fun _ => exists_body_of_mem_tokenize, fun _ _ => docComment_iff_first_comment⟩

/-- The right delimiter is part of the left one, and the star that opens a comment closes it. -/
theorem split_tags_and_comments_one_star :
    let m : Markup := ⟨⟨"%]".toList, "]".toList, by decide, by decide⟩, true⟩
    let s := "a%]*]%]b]".toList
    let t : Token := ⟨.docComment, "%]*]".toList, 1, none⟩
    .tag t.content ∈ m.split s ∧ (m.tokenize s)[1]? = some t ∧
      (∃ body, t.content = m.left ++ body ++ m.right ∧ m.IsTagBody body) ∧
      (∃ body, t.content = m.left ++ body ++ m.right ∧
        (t.type.isTemplateComment ↔ (body.dropWhile isBlank).head? = some '*')) ∧
      (t.type = .docComment ↔ t.type.isTemplateComment ∧
        ∀ u ∈ (m.tokenize s).take 1, ¬ u.type.isTemplateComment) := by
  intro m s t
  have hmem : .tag t.content ∈ m.split s := by decide +kernel
  have htoken : (m.tokenize s)[1]? = some t := by decide +kernel
  obtain ⟨-, -, htags, -, hcomments, hdoc⟩ := m.split_tags_and_comments s
  exact ⟨hmem, htoken, htags _ hmem, hcomments t (List.mem_of_getElem? htoken) rfl,
    hdoc 1 t htoken⟩

end Markup

end TemplateLint

import TemplateLint.Proofs.TagSegments

/-!
# What a comment token covers

The splitter takes a tag for a comment if a star stands directly behind the left delimiter; the
tokens call a tag a comment also if blanks stand between the two. So only a comment without such
blanks is sure to end with a star, and a star by itself is both ends of a comment.
-/

namespace TemplateLint

namespace Markup

variable {m : Markup} {body : Text}

theorem exists_blanks_of_head?_dropWhile (h : (body.dropWhile isBlank).head? = some '*') :
    ∃ blanks rest, body = blanks ++ '*' :: rest ∧ ∀ c ∈ blanks, isBlank c := by
  obtain ⟨rest, hrest⟩ := List.head?_eq_some_iff.1 h
  refine ⟨body.takeWhile isBlank, rest, ?_, fun c => List.mem_takeWhile_imp⟩
  rw [← hrest, List.takeWhile_append_dropWhile]

theorem head?_dropWhile_isBlank (h : ∀ c ∈ body.head?, ¬ isBlank c) :
    (body.dropWhile isBlank).head? = body.head? := by
  cases body with
  | nil => rfl
  | cons c body =>
      have hc : ¬ isBlank c := h c rfl
      rw [List.dropWhile_cons_of_neg hc]

/-- A star that is not alone behind the left delimiter has a second one to close it. -/
theorem IsTagBody.exists_closing_star {rest : Text} (h : m.IsTagBody ('*' :: rest))
    (hrest : rest ≠ []) : ∃ inner, rest = inner ++ ['*'] := by
  obtain ⟨inner, heq, -⟩ := h.closed_once rfl
  cases inner with
  | nil => simp [hrest] at heq
  | cons c inner => exact ⟨inner, by simpa using (List.cons.inj heq).2⟩

theorem exists_parts_of_comment {s : Text} {t : Token} (ht : t ∈ m.tokenize s)
    (hcomment : t.type.isTemplateComment) : ∃ blanks rest,
      t.content = m.left ++ (blanks ++ '*' :: rest) ++ m.right ∧ (∀ c ∈ blanks, isBlank c) ∧
      m.IsTagBody (blanks ++ '*' :: rest) := by
  have htag : t.type.isTagType := by simp [TokenType.isTagType, hcomment]
  obtain ⟨body, hcontent, hbody, hiff⟩ := exists_tagBody_of_mem_tokenize ht htag
  obtain ⟨blanks, rest, rfl, hblanks⟩ := exists_blanks_of_head?_dropWhile (hiff.1 hcomment)
  exact ⟨blanks, rest, hcontent, hblanks, hbody⟩

/-- A comment token covers the left delimiter, blanks, a star, the rest and the right delimiter.
The blanks do not start with white space that makes a left delimiter literal. If there are none and
the star is not alone, the token ends with another star before the right delimiter. On a tag without
blanks in front, the splitter and the tokens agree on whether it is a comment. -/
theorem comment_token_content (m : Markup) (s : Text) :
    (∀ t ∈ m.tokenize s, t.type = .comment ∨ t.type = .docComment → ∃ blanks rest,
      t.content = m.left ++ (blanks ++ '*' :: rest) ++ m.right ∧ (∀ c ∈ blanks, isBlank c) ∧
      (m.autoLiteral → ∀ c ∈ blanks.head?, c ∉ [' ', '\t', '\r', '\n']) ∧
      (blanks = [] → rest ≠ [] →
        ∃ inner, t.content = m.left ++ ['*'] ++ inner ++ ['*'] ++ m.right)) ∧
    ∀ t ∈ m.tokenize s, ∀ body, t.type.isTagType → t.content = m.left ++ body ++ m.right →
      (∀ c ∈ body.head?, ¬ isBlank c) → (t.type.isTemplateComment ↔ body.head? = some '*') := by
  constructor
  · intro t ht htype
    have hcomment : t.type.isTemplateComment := by
      rcases htype with h | h <;> rw [h] <;> rfl
    obtain ⟨blanks, rest, hcontent, hblanks, hbody⟩ := exists_parts_of_comment ht hcomment
    refine ⟨blanks, rest, hcontent, hblanks, ?_, ?_⟩
    · intro hauto c hc
      have hhead : c ∈ (blanks ++ '*' :: rest).head? := by
        rw [Option.mem_def] at hc ⊢
        simp [List.head?_append, hc]
      simpa [isLiteralSpace, and_assoc] using hbody.not_literal hauto c hhead
    · rintro rfl hrest
      obtain ⟨inner, rfl⟩ := hbody.exists_closing_star hrest
      exact ⟨inner, by simp [hcontent]⟩
  · intro t ht body htag hcontent hblank
    obtain ⟨body', hcontent', -, hiff⟩ := exists_tagBody_of_mem_tokenize ht htag
    have hsame : body' = body := by
      rw [hcontent'] at hcontent
      simpa using hcontent
    rw [hiff, hsame, head?_dropWhile_isBlank hblank]

/-- A comment between two stars, and one with a no-break space before its only star. -/
theorem comment_token_content_no_break_space :
    let s := "\x7b* a *\x7d\x7b\u00a0*b\x7d".toList
    let whole : Token := ⟨.docComment, "\x7b* a *\x7d".toList, 1, none⟩
    let spaced : Token := ⟨.comment, "\x7b\u00a0*b\x7d".toList, 1, none⟩
    whole ∈ Markup.standard.tokenize s ∧ spaced ∈ Markup.standard.tokenize s ∧
      (whole.type.isTemplateComment ↔ "* a *".toList.head? = some '*') ∧
      ∃ blanks rest, spaced.content = "\x7b".toList ++ (blanks ++ '*' :: rest) ++ "\x7d".toList ∧
        (∀ c ∈ blanks, isBlank c) ∧ ∀ c ∈ blanks.head?, c ∉ [' ', '\t', '\r', '\n'] := by
  intro s whole spaced
  have hwhole : whole ∈ Markup.standard.tokenize s := by decide +kernel
  have hspaced : spaced ∈ Markup.standard.tokenize s := by decide +kernel
  obtain ⟨hcontent, hagree⟩ := comment_token_content Markup.standard s
  obtain ⟨blanks, rest, hparts, hblanks, hliteral, -⟩ := hcontent spaced hspaced (Or.inl rfl)
  refine ⟨hwhole, hspaced, ?_, blanks, rest, hparts, hblanks, hliteral rfl⟩
  apply hagree whole hwhole "* a *".toList rfl rfl
  intro c hc
  obtain rfl : '*' = c := Option.some.inj hc
  decide

/-- Two comment tokens that do not run from a star to another one: with a space before the star,
where delimiters are never literal, and with one star for both ends. -/
theorem comment_token_not_whole :
    (let m := Markup.mk .braces false
      let t : Token := ⟨.docComment, "\x7b * a\x7d".toList, 1, none⟩
      t ∈ m.tokenize "\x7b * a\x7d".toList ∧
        ¬ ∃ inner, t.content = m.left ++ ['*'] ++ inner ++ ['*'] ++ m.right) ∧
    (let m := Markup.standard
      let t : Token := ⟨.docComment, "\x7b*\x7d".toList, 1, none⟩
      t ∈ m.tokenize "\x7b*\x7d".toList ∧
        ¬ ∃ inner, t.content = m.left ++ ['*'] ++ inner ++ ['*'] ++ m.right) := by
  refine ⟨⟨by decide +kernel, ?_⟩, by decide +kernel, ?_⟩
  · rintro ⟨inner, h⟩
    have hsecond := congrArg (fun s => s[1]?) h
    simp [left, Delimiters.braces] at hsecond
  · rintro ⟨inner, h⟩
    have hlen := congrArg List.length h
    simp [left, right, standard, Delimiters.braces] at hlen

end Markup

end TemplateLint

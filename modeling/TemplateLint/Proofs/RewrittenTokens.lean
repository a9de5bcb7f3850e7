import TemplateLint.Proofs.BreakRewriting
import TemplateLint.Proofs.LineNumbers

/-!
# Scanning a text with other line endings

Where the delimiters have no breaks in them, a tag opens and closes at the same places however
breaks are written: beside a delimiter CR and LF are literal alike, and both are blank. So a
rewritten template has the tokens of the template, with their contents rewritten.
-/

namespace TemplateLint

/-- The segment with every line feed written as the break `b`. -/
def Segment.rewrite (b : LineBreak) : Segment → Segment
  | text s => .text (b.rewrite s)
  | tag s => .tag (b.rewrite s)

/-- The lexeme with every line feed written as the break `b`. -/
def Lexeme.rewrite (b : LineBreak) (l : Lexeme) : Lexeme :=
  { l with content := b.rewrite l.content }

/-- The token with every line feed written as the break `b`. -/
def Token.rewrite (b : LineBreak) (t : Token) : Token :=
  { t with content := b.rewrite t.content }

theorem LineBreak.rewrite_eq_nil_iff (b : LineBreak) (s : Text) : b.rewrite s = [] ↔ s = [] := by
  cases s with
  | nil => simp
  | cons c s =>
      by_cases hc : c = '\n'
      · rw [hc, b.rewrite_lf]
        cases b <;> simp [LineBreak.text]
      · rw [b.rewrite_cons hc]
        simp

theorem Segment.ofText_rewrite (b : LineBreak) (s : Text) :
    ofText (b.rewrite s) = (ofText s).map (Segment.rewrite b) := by
  rw [ofText, ofText]
  by_cases hs : s = []
  · rw [if_pos hs, if_pos ((b.rewrite_eq_nil_iff s).2 hs)]
    rfl
  · rw [if_neg hs, if_neg fun h => hs ((b.rewrite_eq_nil_iff s).1 h)]
    rfl

theorem head?_rewrite (b : LineBreak) {c : Char} (hr : c ≠ '\r') (hn : c ≠ '\n') (s : Text) :
    (b.rewrite s).head? = some c ↔ s.head? = some c := by
  cases s with
  | nil => rfl
  | cons a s =>
      by_cases ha : a = '\n'
      · rw [ha, b.rewrite_lf]
        cases b <;> simp [LineBreak.text, hr.symm, hn.symm]
      · rw [b.rewrite_cons ha]
        rfl

namespace Markup

variable {m : Markup} (b : LineBreak)

theorem isLiteralBeside_break (c d : Char) (hc : c = '\r' ∨ c = '\n') (hd : d = '\r' ∨ d = '\n') :
    m.isLiteralBeside (some c) = m.isLiteralBeside (some d) := by
  rcases hc with rfl | rfl <;> rcases hd with rfl | rfl <;> rfl

theorem isLiteralBeside_head?_rewrite (s : Text) :
    m.isLiteralBeside (b.rewrite s).head? = m.isLiteralBeside s.head? := by
  cases s with
  | nil => rfl
  | cons c s =>
      by_cases hc : c = '\n'
      · rw [hc, b.rewrite_lf]
        cases b with
        | lf => rfl
        | cr | crlf => exact m.isLiteralBeside_break _ _ (Or.inl rfl) (Or.inr rfl)
      · rw [b.rewrite_cons hc]
        rfl

section CloseNested

variable {previous : Option Char} {depth literal : Nat} {s rest : Text}

/-- A break inside a tag opens and closes nothing. -/
theorem closeNested_break (hl : Unbroken m.left) (hr : Unbroken m.right) {c : Char}
    (hc : c = '\r' ∨ c = '\n') (s : Text) :
    m.closeNested previous depth literal (c :: s) =
      (m.closeNested (some c) depth literal s).map fun p => (c :: p.1, p.2) :=
  closeNested_cons (dropLeading?_break hr m.right_ne_nil hc s)
    (dropLeading?_break hl m.left_ne_nil hc s)

theorem closeNested_text_append (hl : Unbroken m.left) (hr : Unbroken m.right) (s : Text) :
    m.closeNested previous depth literal (b.text ++ s) =
      (m.closeNested b.text.getLast? depth literal s).map fun p => (b.text ++ p.1, p.2) := by
  cases b with
  | lf => exact closeNested_break hl hr (Or.inr rfl) s
  | cr => exact closeNested_break hl hr (Or.inl rfl) s
  | crlf =>
      have hcr : m.closeNested previous depth literal ('\r' :: '\n' :: s) = _ :=
        closeNested_break hl hr (Or.inl rfl) ('\n' :: s)
      rw [closeNested_break hl hr (Or.inr rfl), Option.map_map] at hcr
      exact hcr

/-- A tag is balanced at the same right delimiter. The character before matters only if it makes a
delimiter literal, and all breaks do. -/
theorem closeNested_rewrite (hl : Unbroken m.left) (hr : Unbroken m.right)
    {previous' : Option Char} (hp : m.isLiteralBeside previous' = m.isLiteralBeside previous) :
    m.closeNested previous' depth literal (b.rewrite s) =
      (m.closeNested previous depth literal s).map (Prod.map b.rewrite b.rewrite) := by
  have hright := b.rewrite_unbroken hr
  have hleft := b.rewrite_unbroken hl
  have hdropRight (s : Text) := dropLeading?_rewrite b hr s
  have hdropLeft (s : Text) := dropLeading?_rewrite b hl s
  fun_induction closeNested m previous depth literal s generalizing previous' with
  | case1 previous depth literal s rest h hlit ih =>
      rw [closeNested_right (by rw [hdropRight, h]; rfl), hp, if_pos hlit, ih rfl]
      exact map_append_rewrite b hright _
  | case2 previous literal s rest h hlit =>
      rw [closeNested_right (by rw [hdropRight, h]; rfl), hp, if_neg hlit]
      rfl
  | case3 previous literal s rest h hlit depth ih =>
      rw [closeNested_right (by rw [hdropRight, h]; rfl), hp, if_neg hlit]
      dsimp only
      rw [ih rfl]
      exact map_append_rewrite b hright _
  | case4 previous depth literal s h rest h' hlit ih =>
      rw [closeNested_left (by rw [hdropRight, h]; rfl) (by rw [hdropLeft, h']; rfl),
        isLiteralBeside_head?_rewrite, if_pos hlit, ih rfl]
      exact map_append_rewrite b hleft _
  | case5 previous depth literal s h rest h' hlit ih =>
      rw [closeNested_left (by rw [hdropRight, h]; rfl) (by rw [hdropLeft, h']; rfl),
        isLiteralBeside_head?_rewrite, if_neg hlit, ih rfl]
      exact map_append_rewrite b hleft _
  | case6 previous depth literal _ _ =>
      rw [b.rewrite_nil, closeNested_nil]
      rfl
  | case7 previous depth literal c rest h h' ih =>
      by_cases hc : c = '\n'
      · -- The last character of the break need not be a line feed, but it is literal like one.
        have hbeside : m.isLiteralBeside b.text.getLast? = m.isLiteralBeside (some c) := by
          rw [hc]
          cases b <;> rfl
        rw [hc, b.rewrite_lf, closeNested_text_append b hl hr, ih hbeside, hc]
        exact map_append_rewrite b b.rewrite_singleton_lf _
      · have hr' := hdropRight (c :: rest)
        have hl' := hdropLeft (c :: rest)
        rw [b.rewrite_cons hc, h] at hr'
        rw [b.rewrite_cons hc, h'] at hl'
        rw [b.rewrite_cons hc, closeNested_cons hr' hl', ih rfl]
        exact map_append_rewrite b (b.rewrite_singleton hc) _

end CloseNested

theorem closeTag_rewrite (hl : Unbroken m.left) (hr : Unbroken m.right) (s : Text) :
    m.closeTag (b.rewrite s) = (m.closeTag s).map (Prod.map b.rewrite b.rewrite) := by
  rw [closeTag, closeTag]
  by_cases hs : s.head? = some '*'
  · have hcloser : Unbroken ('*' :: m.right) := by
      intro c hc
      rcases List.mem_cons.1 hc with rfl | hc
      · decide
      · exact hr c hc
    rw [if_pos hs, if_pos ((head?_rewrite b (by decide) (by decide) s).2 hs),
      breakAt_rewrite b hcloser (List.cons_ne_nil _ _), Option.map_map, Option.map_map]
    congr 1
    funext p
    exact Prod.ext (b.rewrite_append p.1 ['*']).symm rfl
  · rw [if_neg hs, if_neg fun h => hs ((head?_rewrite b (by decide) (by decide) s).1 h)]
    exact closeNested_rewrite b hl hr rfl

theorem segmentsAfter_rewrite (hl : Unbroken m.left) (hr : Unbroken m.right) (pending s : Text) :
    m.segmentsAfter (b.rewrite pending) (b.rewrite s) =
      (m.segmentsAfter pending s).map (Segment.rewrite b) := by
  have hbreak (s : Text) := breakAt_rewrite b hl m.left_ne_nil s
  have hclose (s : Text) := closeTag_rewrite b hl hr s
  have hleft := b.rewrite_unbroken hl
  have hright := b.rewrite_unbroken hr
  fun_induction segmentsAfter m pending s with
  | case1 pending s ho =>
      rw [segmentsAfter_eq, hbreak, ho, Option.map_none]
      dsimp only
      rw [← b.rewrite_append, Segment.ofText_rewrite]
  | case2 pending s before inside ho hlit ih =>
      rw [segmentsAfter_eq, hbreak, ho, Option.map_some, Prod.map_apply]
      dsimp only
      rw [isLiteralBeside_head?_rewrite, if_pos hlit, ← ih, b.rewrite_append, b.rewrite_append,
        hleft]
  | case3 pending s before inside ho hlit hc =>
      rw [segmentsAfter_eq, hbreak, ho, Option.map_some, Prod.map_apply]
      dsimp only
      rw [isLiteralBeside_head?_rewrite, if_neg hlit, hclose, hc, Option.map_none]
      dsimp only
      rw [← b.rewrite_append, Segment.ofText_rewrite]
  | case4 pending s before inside ho hlit body after hc hblank ih =>
      rw [segmentsAfter_eq, hbreak, ho, Option.map_some, Prod.map_apply]
      dsimp only
      rw [isLiteralBeside_head?_rewrite, if_neg hlit, hclose, hc, Option.map_some, Prod.map_apply]
      dsimp only
      rw [isEmpty_trim_rewrite, if_pos hblank, ← ih]
      simp only [b.rewrite_append, hleft, hright]
  | case5 pending s before inside ho hlit body after hc hblank ih =>
      rw [segmentsAfter_eq, hbreak, ho, Option.map_some, Prod.map_apply]
      dsimp only
      rw [isLiteralBeside_head?_rewrite, if_neg hlit, hclose, hc, Option.map_some, Prod.map_apply]
      dsimp only
      rw [b.rewrite_nil] at ih
      rw [isEmpty_trim_rewrite, if_neg hblank, ih, List.map_append, List.map_cons,
        ← b.rewrite_append, Segment.ofText_rewrite, Segment.rewrite]
      simp only [b.rewrite_append, hleft, hright]

theorem split_rewrite (hl : Unbroken m.left) (hr : Unbroken m.right) (s : Text) :
    m.split (b.rewrite s) = (m.split s).map (Segment.rewrite b) :=
  segmentsAfter_rewrite b hl hr [] s

end Markup

namespace Lexeme

variable (b : LineBreak)

theorem unbroken_commentOpener : Unbroken commentOpener := by decide

theorem unbroken_commentCloser : Unbroken commentCloser := by decide

theorem endsTextRun_rewrite (s : Text) : endsTextRun (b.rewrite s) = endsTextRun s := by
  cases s with
  | nil => rfl
  | cons c s =>
      by_cases hc : c = '\n'
      · rw [hc, b.rewrite_lf]
        cases b <;> rfl
      · have hopen := isPrefixOf_rewrite b unbroken_commentOpener (c :: s)
        rw [b.rewrite_cons hc] at hopen ⊢
        rw [endsTextRun, endsTextRun, hopen]

private theorem textRun_of_endsTextRun {s : Text} (h : endsTextRun s) : textRun s = ([], s) := by
  cases s with
  | nil => rfl
  | cons c s => rw [textRun, if_pos h]

theorem textRun_rewrite (s : Text) :
    textRun (b.rewrite s) = Prod.map b.rewrite b.rewrite (textRun s) := by
  induction s with
  | nil => rfl
  | cons c s ih =>
      have hends := endsTextRun_rewrite b (c :: s)
      by_cases h : endsTextRun (c :: s)
      · rw [textRun_of_endsTextRun h, textRun_of_endsTextRun (hends.trans h)]
        rfl
      · have hc : c ≠ '\n' := by
          intro hc
          apply h
          rw [hc]
          rfl
        rw [b.rewrite_cons hc] at hends ⊢
        rw [← hends] at h
        rw [textRun, if_neg h, ih, textRun, if_neg (hends ▸ h)]
        exact Prod.ext (b.rewrite_cons hc _).symm rfl

theorem htmlComment_rewrite {s : Text} (h : commentOpener.isPrefixOf s) :
    htmlComment (b.rewrite s) = Prod.map b.rewrite b.rewrite (htmlComment s) := by
  obtain ⟨t, rfl⟩ := List.isPrefixOf_iff_prefix.1 h
  have hhead : b.rewrite (commentOpener ++ t) = commentOpener ++ b.rewrite t := by
    rw [b.rewrite_append, b.rewrite_unbroken unbroken_commentOpener]
  have hdrop : (b.rewrite (commentOpener ++ t)).drop 2 =
      b.rewrite ((commentOpener ++ t).drop 2) := by
    rw [hhead]
    exact (b.rewrite_append ['-', '-'] t).symm
  have htake : (b.rewrite (commentOpener ++ t)).take 2 = (commentOpener ++ t).take 2 := by
    rw [hhead]
    rfl
  have hopen : b.rewrite ((commentOpener ++ t).take 2) = (commentOpener ++ t).take 2 := rfl
  rw [htmlComment, htmlComment, hdrop, htake,
    breakAt_rewrite b unbroken_commentCloser (by decide)]
  cases breakAt commentCloser ((commentOpener ++ t).drop 2) with
  | none => rfl
  | some p =>
      refine Prod.ext ?_ rfl
      change (commentOpener ++ t).take 2 ++ b.rewrite p.1 ++ commentCloser =
        b.rewrite ((commentOpener ++ t).take 2 ++ p.1 ++ commentCloser)
      rw [b.rewrite_append ((commentOpener ++ t).take 2 ++ p.1), b.rewrite_append, hopen,
        b.rewrite_unbroken unbroken_commentCloser]

theorem takeWhile_space_rewrite (s : Text) :
    (b.rewrite s).takeWhile (· == ' ') = b.rewrite (s.takeWhile (· == ' ')) ∧
      (b.rewrite s).dropWhile (· == ' ') = b.rewrite (s.dropWhile (· == ' ')) := by
  induction s with
  | nil => exact ⟨rfl, rfl⟩
  | cons c s ih =>
      by_cases hn : c = '\n'
      · rw [hn, b.rewrite_lf]
        cases b <;> exact ⟨rfl, rfl⟩
      · rw [b.rewrite_cons hn, List.takeWhile_cons, List.takeWhile_cons, List.dropWhile_cons,
          List.dropWhile_cons]
        by_cases hc : (c == ' ') = true
        · rw [if_pos hc, if_pos hc, if_pos hc, if_pos hc, b.rewrite_cons hn, ih.1]
          exact ⟨rfl, ih.2⟩
        · rw [if_neg hc, if_neg hc, if_neg hc, if_neg hc, b.rewrite_cons hn]
          exact ⟨rfl, rfl⟩

/-- Apart from breaks, a lexeme ends at the same place. -/
theorem next_rewrite {c : Char} (hr : c ≠ '\r') (hn : c ≠ '\n') (s : Text) :
    next c (b.rewrite s) = Prod.map (Lexeme.rewrite b) b.rewrite (next c s) := by
  unfold next
  rw [if_neg hr, if_neg hr, if_neg hn, if_neg hn]
  by_cases htab : c = '\t'
  · rw [if_pos htab, if_pos htab]
    rfl
  rw [if_neg htab, if_neg htab]
  by_cases hspace : c = ' '
  · rw [if_pos hspace, if_pos hspace, (takeWhile_space_rewrite b s).1,
      (takeWhile_space_rewrite b s).2]
    rfl
  rw [if_neg hspace, if_neg hspace]
  have hopen := isPrefixOf_rewrite b unbroken_commentOpener (c :: s)
  rw [b.rewrite_cons hn] at hopen
  rw [hopen]
  by_cases hcomment : commentOpener.isPrefixOf (c :: s)
  · have hhtml := htmlComment_rewrite b hcomment
    rw [b.rewrite_cons hn] at hhtml
    rw [if_pos hcomment, if_pos hcomment, hhtml]
    rfl
  · rw [if_neg hcomment, if_neg hcomment, textRun_rewrite]
    refine Prod.ext ?_ rfl
    exact congrArg (Lexeme.mk _) (b.rewrite_cons hn _).symm

theorem ofText_text_append {s : Text} :
    ofText (b.text ++ b.rewrite s) = ⟨.newLine, b.text⟩ :: ofText (b.rewrite s) := by
  cases b with
  | lf => rw [LineBreak.text, List.cons_append, ofText]; rfl
  | crlf => rw [LineBreak.text, List.cons_append, List.cons_append, ofText]; rfl
  | cr =>
      have hnext : next '\r' (LineBreak.cr.rewrite s) =
          (⟨.newLine, ['\r']⟩, LineBreak.cr.rewrite s) := by
        unfold next
        rw [if_pos rfl]
        split
        next rest heq =>
          have hmem : '\n' ∈ LineBreak.cr.rewrite s := by
            rw [heq]
            exact List.mem_cons_self
          exact absurd hmem (lf_not_mem_rewrite_cr s)
        next => rfl
      rw [LineBreak.text, List.cons_append, List.nil_append, ofText, hnext]

theorem ofText_rewrite {s : Text} (h : '\r' ∉ s) :
    ofText (b.rewrite s) = (ofText s).map (Lexeme.rewrite b) := by
  fun_induction ofText s with
  | case1 => rw [b.rewrite_nil, ofText, List.map_nil]
  | case2 c s ih =>
      have hr : c ≠ '\r' := fun he => h (by simp [he])
      have hrest : '\r' ∉ (next c s).2 := by
        intro hm
        apply h
        rw [← next_append c s]
        exact List.mem_append_right _ hm
      have htail := ih hrest
      by_cases hn : c = '\n'
      · have hnext : next '\n' s = (⟨.newLine, ['\n']⟩, s) := rfl
        rw [hn] at htail ⊢
        rw [hnext] at htail ⊢
        rw [b.rewrite_lf, ofText_text_append, htail, List.map_cons]
        cases b <;> rfl
      · rw [b.rewrite_cons hn, ofText, next_rewrite b hr hn, List.map_cons, ← htail]
        rfl

theorem place_rewrite {ls : List Lexeme} (h : ∀ l ∈ ls, '\r' ∉ l.content) (line : Nat) :
    place line (ls.map (Lexeme.rewrite b)) = (place line ls).map (Token.rewrite b) := by
  induction ls generalizing line with
  | nil => rfl
  | cons l ls ih =>
      have hcount := countLineBreaks_rewrite b (h l List.mem_cons_self)
      have htail := ih fun l' hl' => h l' (List.mem_cons_of_mem _ hl')
      rw [List.map_cons, place, place]
      change (if l.type = .newLine then _ else if countLineBreaks (b.rewrite l.content) = 0 then _
        else _) = _
      dsimp only [Lexeme.rewrite]
      rw [hcount, htail, htail]
      split
      · rfl
      · split <;> rfl

end Lexeme

namespace Markup

variable {m : Markup} (b : LineBreak)

theorem exists_left_append_of_mem_segmentsAfter {pending s t : Text}
    (h : Segment.tag t ∈ m.segmentsAfter pending s) : ∃ body, t = m.left ++ body := by
  have htext {u : Text} : Segment.tag t ∉ Segment.ofText u := by
    rw [Segment.ofText]
    split <;> simp
  fun_induction segmentsAfter m pending s with
  | case1 | case3 => exact absurd h htext
  | case2 _ _ _ _ _ _ ih => exact ih h
  | case4 _ _ _ _ _ _ _ _ _ _ ih => exact ih h
  | case5 _ _ _ _ _ _ body _ _ _ ih =>
      rcases List.mem_append.1 h with h | h
      · exact absurd h htext
      · rcases List.mem_cons.1 h with h | h
        · refine ⟨body ++ m.right, ?_⟩
          rw [Segment.tag.inj h, List.append_assoc]
        · exact ih h

theorem isCommentTag_rewrite (hl : Unbroken m.left) (body : Text) :
    m.isCommentTag (b.rewrite (m.left ++ body)) = m.isCommentTag (m.left ++ body) := by
  rw [isCommentTag, isCommentTag, b.rewrite_append, b.rewrite_unbroken hl, List.drop_left,
    List.drop_left, dropWhile_isBlank_rewrite, Bool.eq_iff_iff, beq_iff_eq, beq_iff_eq]
  exact head?_rewrite b (by decide) (by decide) _

theorem lexemes_rewrite (hl : Unbroken m.left) {gs : List Segment}
    (hgs : ∀ t, Segment.tag t ∈ gs → ∃ body, t = m.left ++ body)
    (hcr : ∀ g ∈ gs, '\r' ∉ g.content) (seen : Bool) :
    m.lexemes seen (gs.map (Segment.rewrite b)) =
      (m.lexemes seen gs).map (Lexeme.rewrite b) := by
  induction gs generalizing seen with
  | nil => rfl
  | cons g gs ih =>
      have htail := ih (fun t ht => hgs t (List.mem_cons_of_mem _ ht))
        fun g' hg' => hcr g' (List.mem_cons_of_mem _ hg')
      cases g with
      | text s =>
          have hs : '\r' ∉ s := hcr (.text s) List.mem_cons_self
          rw [List.map_cons, Segment.rewrite, lexemes, lexemes, List.map_append, htail,
            Lexeme.ofText_rewrite b hs]
      | tag s =>
          obtain ⟨body, rfl⟩ := hgs s List.mem_cons_self
          rw [List.map_cons, Segment.rewrite, lexemes, lexemes, isCommentTag_rewrite b hl]
          by_cases hcomment : m.isCommentTag (m.left ++ body)
          · rw [if_pos hcomment, if_pos hcomment, htail]
            rfl
          · rw [if_neg hcomment, if_neg hcomment, htail]
            rfl

theorem cr_not_mem_of_mem_split {s : Text} (h : '\r' ∉ s) {g : Segment} (hg : g ∈ m.split s) :
    '\r' ∉ g.content := by
  intro hm
  apply h
  rw [← m.flatMap_content_split s]
  exact List.mem_flatMap_of_mem hg hm

theorem cr_not_mem_of_mem_lexemes {s : Text} (h : '\r' ∉ s) {l : Lexeme}
    (hl : l ∈ m.lexemes false (m.split s)) : '\r' ∉ l.content := by
  intro hm
  apply h
  rw [← m.flatMap_content_split s, ← m.flatMap_content_lexemes false]
  exact List.mem_flatMap_of_mem hl hm

/-- A template with other line endings has the tokens of the template, of the same types, on the
same lines, with the same breaks rewritten in their contents. -/
theorem tokenize_rewrite (hl : Unbroken m.left) (hr : Unbroken m.right) {s : Text}
    (h : '\r' ∉ s) : m.tokenize (b.rewrite s) = (m.tokenize s).map (Token.rewrite b) := by
  have hlexemes : m.lexemes false ((m.split s).map (Segment.rewrite b)) =
      (m.lexemes false (m.split s)).map (Lexeme.rewrite b) := by
    apply lexemes_rewrite b hl
    · intro t ht
      exact exists_left_append_of_mem_segmentsAfter ht
    · intro g hg
      exact cr_not_mem_of_mem_split h hg
  rw [tokenize, tokenize, split_rewrite b hl hr, hlexemes]
  apply Lexeme.place_rewrite
  intro l hl'
  exact cr_not_mem_of_mem_lexemes h hl'

end Markup

end TemplateLint

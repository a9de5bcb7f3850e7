import Mathlib.Data.List.Chain
import TemplateLint.Proofs.LineNumbers
import TemplateLint.Proofs.Occurrences

/-!
# The grammar of the text between tags

What the lexemes of a text are, said without reading it: which contents each type has and which
lexemes may stand next to each other. Every text has exactly one such sequence of lexemes, and that
is the one that is read. One step of reading is characterised first: it takes a lexeme off a text
exactly when the lexeme is well formed and could not have been longer.
-/

namespace TemplateLint

namespace Lexeme

/-- Whether the first closer of a comment, looked for behind `<!`, is at its end. -/
def ClosesAtEnd (s : Text) : Prop :=
  ∃ u, 2 ≤ u.length ∧ s = u ++ commentCloser ∧
    ∀ v w, 2 ≤ v.length → s = v ++ commentCloser ++ w → u.length ≤ v.length

/-- Whether there is no closer behind `<!`. -/
def NeverCloses (s : Text) : Prop := ∀ v w, 2 ≤ v.length → s ≠ v ++ commentCloser ++ w

/-- What a lexeme of a text between tags is by itself. -/
inductive WellFormed : Lexeme → Prop where
  | newLine (b : LineBreak) : WellFormed ⟨.newLine, b.text⟩
  | tab : WellFormed ⟨.tab, ['\t']⟩
  | space {s : Text} (hne : s ≠ []) (hspace : ∀ c ∈ s, c = ' ') : WellFormed ⟨.space, s⟩
  | htmlText {s : Text} (hne : s ≠ [])
      (hplain : ∀ c ∈ s, c ≠ ' ' ∧ c ≠ '\t' ∧ c ≠ '\r' ∧ c ≠ '\n')
      (hopen : ¬ commentOpener <:+: s) : WellFormed ⟨.htmlText, s⟩
  | htmlComment {s : Text} (hopen : commentOpener <+: s) (hclose : ClosesAtEnd s ∨ NeverCloses s) :
      WellFormed ⟨.htmlComment, s⟩

/-- Which lexeme may stand directly before which. -/
structure MayPrecede (a b : Lexeme) : Prop where
  cr_lf : ¬ (a = ⟨.newLine, ['\r']⟩ ∧ b = ⟨.newLine, ['\n']⟩)
  spaces : ¬ (a.type = .space ∧ b.type = .space)
  texts : ¬ (a.type = .htmlText ∧ b.type = .htmlText)
  /-- A comment that never closes is the last lexeme. -/
  comment_closed : ¬ (a.type = .htmlComment ∧ NeverCloses a.content)

/-- The sequences of lexemes that a text can be read as. -/
structure IsReading (s : Text) (ls : List Lexeme) : Prop where
  covers : ls.flatMap Lexeme.content = s
  wellFormed : ∀ l ∈ ls, l.WellFormed
  neighbours : ls.IsChain MayPrecede

/-- Whether a lexeme ends before `rest` because it cannot take more of it. -/
def EndsBefore (l : Lexeme) (rest : Text) : Prop :=
  match l.type with
  | .newLine => l.content = ['\r'] → rest.head? ≠ some '\n'
  | .space => rest.head? ≠ some ' '
  | .htmlText => endsTextRun rest
  | .htmlComment => NeverCloses l.content → rest = []
  | _ => True

section TextRuns

theorem commentOpener_eq : commentOpener = ['<', '!', '-', '-'] := by simp [commentOpener]

theorem endsTextRun_cons_iff {c : Char} {s : Text} : endsTextRun (c :: s) ↔
    c = ' ' ∨ c = '\t' ∨ c = '\r' ∨ c = '\n' ∨ commentOpener <+: c :: s := by
  simp [endsTextRun, List.isPrefixOf_iff_prefix, or_assoc]

theorem endsTextRun_textRun (s : Text) : endsTextRun (textRun s).2 := by
  induction s with
  | nil => rfl
  | cons c s ih =>
      rw [textRun]
      split
      next h => exact h
      next => exact ih

/-- What ends a run of text is not the rest of an opener that starts in the run. -/
theorem not_opens_append {c : Char} {s rest : Text} (hopen : ¬ commentOpener <:+: c :: s)
    (hend : endsTextRun rest) : ¬ commentOpener <+: c :: s ++ rest := by
  intro hpre
  rcases List.prefix_or_prefix_of_prefix hpre (List.prefix_append _ rest) with h | ⟨more, hmore⟩
  · exact hopen h.isInfix
  · rw [← hmore, List.prefix_append_right_inj] at hpre
    cases more with
    | nil =>
        rw [List.append_nil] at hmore
        exact hopen (hmore ▸ List.infix_rfl)
    | cons e more =>
        have he : e ∈ commentOpener.tail := by
          rw [← hmore]
          simp
        obtain ⟨tail, rfl⟩ := hpre
        rw [List.cons_append, endsTextRun_cons_iff, commentOpener_eq] at hend
        rw [commentOpener_eq] at he
        rcases List.mem_cons.1 he with rfl | he
        · simp at hend
        · obtain rfl : e = '-' := by simpa using he
          simp at hend

theorem endsTextRun_text_append {c : Char} {s rest : Text}
    (hplain : ∀ d ∈ c :: s, d ≠ ' ' ∧ d ≠ '\t' ∧ d ≠ '\r' ∧ d ≠ '\n')
    (hopen : ¬ commentOpener <:+: c :: s) (hend : endsTextRun rest) :
    ¬ endsTextRun (c :: s ++ rest) := by
  have hc := hplain c List.mem_cons_self
  have hpre := not_opens_append hopen hend
  rw [List.cons_append] at hpre
  rw [List.cons_append, endsTextRun_cons_iff]
  simp [hc, hpre]

theorem textRun_append_eq {s rest : Text}
    (hplain : ∀ d ∈ s, d ≠ ' ' ∧ d ≠ '\t' ∧ d ≠ '\r' ∧ d ≠ '\n')
    (hopen : ¬ commentOpener <:+: s) (hend : endsTextRun rest) :
    textRun (s ++ rest) = (s, rest) := by
  induction s with
  | nil =>
      cases rest with
      | nil => rfl
      | cons d rest => rw [List.nil_append, textRun, if_pos hend]
  | cons c s ih =>
      have hs := ih (fun d hd => hplain d (List.mem_cons_of_mem _ hd))
        fun h => hopen (h.trans (List.suffix_cons c s).isInfix)
      have hnot := endsTextRun_text_append hplain hopen hend
      rw [List.cons_append] at hnot
      rw [List.cons_append, textRun, if_neg hnot, hs]

theorem not_opener_mem_textRun {c : Char} {s : Text} (h : ¬ commentOpener <+: c :: s) :
    ¬ commentOpener <:+: c :: (textRun s).1 := by
  induction s generalizing c with
  | nil =>
      intro hinfix
      exact absurd hinfix.length_le (by simp [textRun, commentOpener])
  | cons d s ih =>
      rw [textRun]
      split
      · intro hinfix
        exact absurd hinfix.length_le (by simp [commentOpener])
      next hd =>
        rw [List.infix_cons_iff]
        rintro (hpre | hinfix)
        · apply h
          rw [← textRun_append s, ← List.cons_append, ← List.cons_append]
          exact hpre.trans (List.prefix_append _ _)
        · have hd' : ¬ commentOpener <+: d :: s := fun hpre =>
            hd (endsTextRun_cons_iff.2 (by simp [hpre]))
          exact ih hd' hinfix

end TextRuns

section Comments

/-- Taking the two characters before which no closer is looked for off both sides. -/
theorem drop_two_eq {s v w : Text} (hv : 2 ≤ v.length) (h : s = v ++ commentCloser ++ w) :
    s.drop 2 = v.drop 2 ++ commentCloser ++ w := by
  rw [h, List.append_assoc, List.drop_append_of_le_length hv, List.append_assoc]

theorem htmlComment_wellFormed {s : Text} (hopen : commentOpener <+: s) :
    WellFormed ⟨.htmlComment, (htmlComment s).1⟩ ∧
      (NeverCloses (htmlComment s).1 → (htmlComment s).2 = []) := by
  have hlen : 4 ≤ s.length := Nat.le_trans (by simp [commentOpener]) hopen.length_le
  have hall := htmlComment_append s
  rw [htmlComment] at hall ⊢
  split
  next inner after h =>
    have hu : 2 ≤ (s.take 2 ++ inner).length := by simp; omega
    rw [h] at hall
    have hopen' : commentOpener <+: s.take 2 ++ inner ++ commentCloser :=
      List.prefix_of_prefix_length_le hopen ⟨after, hall⟩ (by
        simp [commentOpener, commentCloser]
        omega)
    refine ⟨.htmlComment hopen' (Or.inl ⟨s.take 2 ++ inner, hu, rfl, fun v w hv hvw => ?_⟩),
      fun hnever => absurd (List.append_nil _).symm (hnever _ [] hu)⟩
    have hs : s = v ++ commentCloser ++ (w ++ after) := by
      rw [← List.append_assoc, ← hvw]
      exact hall.symm
    have hle := length_le_of_breakAt h (drop_two_eq hv hs)
    simp only [List.length_append, List.length_take, List.length_drop] at hle ⊢
    omega
  next h =>
    refine ⟨.htmlComment hopen (Or.inr fun v w hv hvw => ?_), fun _ => rfl⟩
    exact breakAt_eq_none_iff.1 h ⟨v.drop 2, w, (drop_two_eq hv hvw).symm⟩

theorem htmlComment_closed_append {s : Text} (hclose : ClosesAtEnd s) (rest : Text) :
    htmlComment (s ++ rest) = (s, rest) := by
  obtain ⟨u, hu, rfl, hfirst⟩ := hclose
  have hbreak : breakAt commentCloser ((u ++ commentCloser ++ rest).drop 2) =
      some (u.drop 2, rest) := by
    refine breakAt_eq_some_iff.2 ⟨drop_two_eq hu rfl, fun v w hvw => ?_⟩
    by_contra hlt
    -- An earlier closer ends inside the comment, which then closes before its end.
    have hs : u.take 2 ++ v ++ commentCloser ++ w = u ++ commentCloser ++ rest := by
      rw [List.append_assoc, List.append_assoc, ← List.append_assoc v, ← hvw, drop_two_eq hu rfl,
        ← List.append_assoc, ← List.append_assoc, List.take_append_drop]
    have hlen : (u.take 2 ++ v).length < u.length := by
      simp only [List.length_append, List.length_take, List.length_drop] at hlt ⊢
      omega
    have hpre : u.take 2 ++ v ++ commentCloser <+: u ++ commentCloser :=
      List.prefix_of_prefix_length_le ⟨w, hs⟩ (List.prefix_append _ rest) (by
        simp only [List.length_append] at hlen ⊢
        omega)
    obtain ⟨w', hw'⟩ := hpre
    have hle := hfirst (u.take 2 ++ v) w' (by simp; omega) hw'.symm
    omega
  rw [htmlComment, hbreak]
  dsimp only
  rw [List.append_assoc u, List.take_append_of_le_length hu, List.take_append_drop]

theorem htmlComment_of_neverCloses {s : Text} (hopen : commentOpener <+: s)
    (hnever : NeverCloses s) : htmlComment s = (s, []) := by
  have hlen : 2 ≤ s.length := Nat.le_trans (by simp [commentOpener]) hopen.length_le
  have hnone : breakAt commentCloser (s.drop 2) = none := by
    rw [breakAt_eq_none_iff]
    rintro ⟨v, w, hvw⟩
    refine hnever (s.take 2 ++ v) w (by simp; omega) ?_
    calc
      s = s.take 2 ++ s.drop 2 := (List.take_append_drop 2 s).symm
      _ = s.take 2 ++ v ++ commentCloser ++ w := by rw [← hvw]; simp
  rw [htmlComment, hnone]

end Comments

section OneLexeme

/-- What is taken off a text is a well-formed lexeme that cannot take more. -/
theorem next_wellFormed (c : Char) (s : Text) :
    (next c s).1.WellFormed ∧ (next c s).1.EndsBefore (next c s).2 := by
  unfold next
  split
  · split
    next rest => exact ⟨.newLine .crlf, by simp [EndsBefore]⟩
    next hs =>
      refine ⟨.newLine .cr, fun _ hhead => ?_⟩
      obtain ⟨rest, rfl⟩ := List.head?_eq_some_iff.1 hhead
      exact hs rest rfl
  next hcr =>
    split
    · exact ⟨.newLine .lf, by simp [EndsBefore]⟩
    next hlf =>
      split
      · exact ⟨.tab, trivial⟩
      next htab =>
        split
        · refine ⟨.space (by simp) fun d hd => ?_, fun hhead => ?_⟩
          · rcases List.mem_cons.1 hd with rfl | hd
            · rfl
            · simpa using List.mem_takeWhile_imp hd
          · have hnot := List.head?_dropWhile_not (· == ' ') s
            rw [hhead] at hnot
            simp at hnot
        next hspace =>
          split
          next hopen => exact htmlComment_wellFormed (List.isPrefixOf_iff_prefix.1 hopen)
          next hopen =>
            rw [List.isPrefixOf_iff_prefix] at hopen
            refine ⟨.htmlText (by simp) (fun d hd => ?_) (not_opener_mem_textRun hopen),
              endsTextRun_textRun s⟩
            rcases List.mem_cons.1 hd with rfl | hd
            · exact ⟨hspace, htab, hcr, hlf⟩
            · exact ne_of_mem_textRun hd

/-- A well-formed lexeme that cannot take more of a text is taken off it. -/
theorem next_append_eq {l : Lexeme} (hl : l.WellFormed) {rest : Text} (hrest : l.EndsBefore rest)
    {c : Char} {s : Text} (hs : c :: s = l.content ++ rest) : next c s = (l, rest) := by
  cases hl with
  | newLine b =>
      cases b with
      | lf =>
          obtain ⟨rfl, rfl⟩ := List.cons.inj hs
          rfl
      | cr =>
          obtain ⟨rfl, rfl⟩ := List.cons.inj hs
          unfold next
          rw [if_pos rfl]
          split
          · exact absurd rfl (hrest rfl)
          · rfl
      | crlf =>
          obtain ⟨rfl, rfl⟩ := List.cons.inj hs
          rfl
  | tab =>
      obtain ⟨rfl, rfl⟩ := List.cons.inj hs
      rfl
  | @space spaces hne hspace =>
      obtain ⟨d, spaces, rfl⟩ := List.exists_cons_of_ne_nil hne
      obtain ⟨rfl, rfl⟩ : c = d ∧ s = spaces ++ rest := List.cons.inj hs
      obtain rfl := hspace c List.mem_cons_self
      have hall : ∀ d ∈ spaces, (d == ' ') = true := fun d hd => by
        simp [hspace d (List.mem_cons_of_mem _ hd)]
      have hstop : rest.takeWhile (· == ' ') = [] ∧ rest.dropWhile (· == ' ') = rest := by
        cases rest with
        | nil => exact ⟨rfl, rfl⟩
        | cons d rest =>
            have hd : (d == ' ') = false := by
              rw [beq_eq_false_iff_ne]
              rintro rfl
              exact hrest rfl
            simp [hd]
      unfold next
      rw [if_neg (by decide), if_neg (by decide), if_neg (by decide), if_pos rfl,
        List.takeWhile_append_of_pos hall, List.dropWhile_append_of_pos hall, hstop.1, hstop.2,
        List.append_nil]
  | @htmlText t hne hplain hopen =>
      obtain ⟨d, t, rfl⟩ := List.exists_cons_of_ne_nil hne
      obtain ⟨rfl, rfl⟩ : c = d ∧ s = t ++ rest := List.cons.inj hs
      have hc := hplain c List.mem_cons_self
      have hpre := not_opens_append hopen hrest
      have hrun := textRun_append_eq (fun d hd => hplain d (List.mem_cons_of_mem _ hd))
        (fun h => hopen (h.trans (List.suffix_cons c t).isInfix)) hrest
      rw [List.cons_append, ← List.isPrefixOf_iff_prefix] at hpre
      unfold next
      rw [if_neg hc.2.2.1, if_neg hc.2.2.2, if_neg hc.2.1, if_neg hc.1, if_neg hpre, hrun]
  | @htmlComment t hopen hclose =>
      have hpre : commentOpener <+: c :: s := by
        rw [hs]
        exact hopen.trans (List.prefix_append t rest)
      have hread : htmlComment (c :: s) = (t, rest) := by
        rw [hs]
        rcases hclose with hclose | hnever
        · exact htmlComment_closed_append hclose rest
        · obtain rfl := hrest hnever
          rw [List.append_nil]
          exact htmlComment_of_neverCloses hopen hnever
      obtain rfl : c = '<' := by
        rw [commentOpener_eq, List.cons_prefix_cons] at hpre
        exact hpre.1.symm
      rw [← List.isPrefixOf_iff_prefix] at hpre
      unfold next
      rw [if_neg (by decide), if_neg (by decide), if_neg (by decide), if_neg (by decide),
        if_pos hpre, hread]

end OneLexeme

section Sequences

variable {a b l : Lexeme} {more : Text}

theorem WellFormed.content_ne_nil (h : l.WellFormed) : l.content ≠ [] := by
  cases h with
  | newLine b => cases b <;> simp [LineBreak.text]
  | tab => simp
  | space hne _ => exact hne
  | htmlText hne _ _ => exact hne
  | htmlComment hopen _ =>
      rintro rfl
      simp [commentOpener_eq] at hopen

theorem head?_eq_of_opens {s : Text} (h : commentOpener <+: s) : s.head? = some '<' := by
  obtain ⟨t, rfl⟩ := h
  rw [commentOpener_eq]
  rfl

/-- Only a line break starts with LF. -/
theorem WellFormed.eq_lf (h : l.WellFormed) (hhead : l.content.head? = some '\n') :
    l = ⟨.newLine, ['\n']⟩ := by
  cases h with
  | newLine b =>
      cases b with
      | lf => rfl
      | cr => simp [LineBreak.text] at hhead
      | crlf => simp [LineBreak.text] at hhead
  | tab => simp at hhead
  | space _ hspace => simpa using hspace _ (List.mem_of_head? hhead)
  | htmlText _ hplain _ => exact absurd rfl (hplain _ (List.mem_of_head? hhead)).2.2.2
  | htmlComment hopen _ => simp [head?_eq_of_opens hopen] at hhead

/-- Spaces, and nothing else, start with a space. -/
theorem WellFormed.type_eq_space_iff (h : l.WellFormed) :
    l.type = .space ↔ l.content.head? = some ' ' := by
  cases h with
  | newLine b => cases b <;> simp [LineBreak.text]
  | tab => simp
  | space hne hspace =>
      obtain ⟨c, s, rfl⟩ := List.exists_cons_of_ne_nil hne
      simp [hspace c List.mem_cons_self]
  | htmlText _ hplain _ =>
      refine iff_of_false (by simp) fun hhead => ?_
      exact (hplain _ (List.mem_of_head? hhead)).1 rfl
  | htmlComment hopen _ => simp [head?_eq_of_opens hopen]

/-- Whatever is no text ends a run of text. -/
theorem WellFormed.endsTextRun_append (h : l.WellFormed) (htype : l.type ≠ .htmlText)
    (more : Text) : endsTextRun (l.content ++ more) := by
  cases h with
  | newLine b => cases b <;> rfl
  | tab => rfl
  | space hne hspace =>
      obtain ⟨c, s, rfl⟩ := List.exists_cons_of_ne_nil hne
      rw [hspace c List.mem_cons_self]
      rfl
  | htmlText => exact absurd rfl htype
  | @htmlComment s hopen _ =>
      obtain ⟨t, rfl⟩ := hopen
      rw [commentOpener_eq]
      exact endsTextRun_cons_iff.2 (by simp [commentOpener_eq])

theorem endsBefore_nil (l : Lexeme) : l.EndsBefore [] := by
  unfold EndsBefore
  split <;> simp [endsTextRun]

/-- A lexeme ends before another one that may stand behind it. -/
theorem endsBefore_of_mayPrecede (h : MayPrecede a b) (hb : b.WellFormed) (more : Text) :
    a.EndsBefore (b.content ++ more) := by
  obtain ⟨type, content⟩ := a
  have hhead : (b.content ++ more).head? = b.content.head? :=
    List.head?_append_of_ne_nil _ hb.content_ne_nil
  cases type with
  | newLine =>
      rintro rfl hlf
      exact h.cr_lf ⟨rfl, hb.eq_lf (hhead.symm.trans hlf)⟩
  | space => exact fun hsp => h.spaces ⟨rfl, hb.type_eq_space_iff.2 (hhead.symm.trans hsp)⟩
  | htmlText => exact hb.endsTextRun_append (fun htext => h.texts ⟨rfl, htext⟩) more
  | htmlComment => exact fun hnever => absurd ⟨rfl, hnever⟩ h.comment_closed
  | _ => trivial

/-- A lexeme may stand before another one if it ends there. -/
theorem mayPrecede_of_endsBefore (ha : a.EndsBefore (b.content ++ more)) (hb : b.WellFormed)
    (hmore : b.EndsBefore more) : MayPrecede a b := by
  have hhead : (b.content ++ more).head? = b.content.head? :=
    List.head?_append_of_ne_nil _ hb.content_ne_nil
  obtain ⟨type, content⟩ := a
  refine ⟨?_, ?_, ?_, ?_⟩
  · rintro ⟨ha', rfl⟩
    obtain ⟨rfl, rfl⟩ := Lexeme.mk.inj ha'
    exact ha rfl hhead
  · rintro ⟨rfl, hspace⟩
    exact ha (hhead.trans (hb.type_eq_space_iff.1 hspace))
  · rintro ⟨rfl, htext⟩
    cases hb with
    | htmlText hne hplain hopen =>
        obtain ⟨c, s, rfl⟩ := List.exists_cons_of_ne_nil hne
        exact endsTextRun_text_append hplain hopen hmore ha
    | _ => simp at htext
  · rintro ⟨rfl, hnever⟩
    exact hb.content_ne_nil (List.append_eq_nil_iff.1 (ha hnever)).1

theorem isReading_ofText (s : Text) : IsReading s (ofText s) := by
  refine ⟨flatMap_content_ofText s, ?_, ?_⟩
  · intro l hl
    fun_induction ofText s with
    | case1 => simp at hl
    | case2 c s ih =>
        rcases List.mem_cons.1 hl with rfl | hl
        · exact (next_wellFormed c s).1
        · exact ih hl
  · fun_induction ofText s with
    | case1 => exact List.isChain_nil
    | case2 c s ih =>
        rw [List.isChain_cons]
        refine ⟨fun b hb => ?_, ih⟩
        have hends := (next_wellFormed c s).2
        cases hrest : (next c s).2 with
        | nil => simp [hrest, ofText] at hb
        | cons d t =>
            obtain rfl : (next d t).1 = b := by simpa [hrest, ofText] using hb
            rw [hrest, ← next_append d t] at hends
            exact mayPrecede_of_endsBefore hends (next_wellFormed d t).1 (next_wellFormed d t).2

theorem ofText_eq_of_isReading {s : Text} {ls : List Lexeme} (h : IsReading s ls) :
    ofText s = ls := by
  induction ls generalizing s with
  | nil =>
      obtain rfl : [] = s := h.covers
      simp [ofText]
  | cons l ls ih =>
      have hl := h.wellFormed l List.mem_cons_self
      have hls : IsReading (ls.flatMap Lexeme.content) ls :=
        ⟨rfl, fun k hk => h.wellFormed k (List.mem_cons_of_mem _ hk), h.neighbours.tail⟩
      have hends : l.EndsBefore (ls.flatMap Lexeme.content) := by
        cases ls with
        | nil => exact endsBefore_nil l
        | cons b ls =>
            exact endsBefore_of_mayPrecede (List.isChain_cons_cons.1 h.neighbours).1
              (hls.wellFormed b List.mem_cons_self) _
      have hs : s = l.content ++ ls.flatMap Lexeme.content := h.covers.symm
      obtain ⟨c, t, hct⟩ := List.exists_cons_of_ne_nil
        (show s ≠ [] by rw [hs]; simp [hl.content_ne_nil])
      rw [hct, ofText, next_append_eq hl hends (hct.symm.trans hs), ih hls]

/-- The lexemes of a text are its only reading by the grammar. -/
theorem ofText_eq_iff_isReading (s : Text) (ls : List Lexeme) :
    ofText s = ls ↔ IsReading s ls := by
  constructor
  · rintro rfl
    exact isReading_ofText s
  · exact ofText_eq_of_isReading

-- A `<` that opens nothing, an opener whose dashes close it, and one that is never closed.
example : ofText "<<!-->\r\n<!--->".toList =
    [⟨.htmlText, "<".toList⟩, ⟨.htmlComment, "<!-->".toList⟩, ⟨.newLine, "\r\n".toList⟩,
      ⟨.htmlComment, "<!--->".toList⟩] := by
  decide +kernel

end Sequences

end Lexeme

end TemplateLint

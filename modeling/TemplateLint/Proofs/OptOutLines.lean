import TemplateLint.Proofs.TokenLines

/-!
# The lines in which a template opts out

The marker is looked for in what the first two occurrences of a template's own line ending part. The
first piece is the first line. The second one is the second line and all lines behind it up to the
next break in which the ending occurs. So the first two lines are always looked at, and no others if
the line endings are not mixed.
-/

namespace TemplateLint

section Slices

variable {n s : Text} {c : Char}

/-- Whether a character is part of no break. -/
def isUnbroken (c : Char) : Bool := c != '\r' && c != '\n'

theorem isUnbroken_iff : isUnbroken c ↔ c ≠ '\r' ∧ c ≠ '\n' := by simp [isUnbroken]

theorem prefix_takeWhile_iff (hn : Unbroken n) : n <+: s.takeWhile isUnbroken ↔ n <+: s := by
  induction n generalizing s with
  | nil => simp
  | cons a n ih =>
      have ha : isUnbroken a := isUnbroken_iff.2 (hn a List.mem_cons_self)
      cases s with
      | nil => simp
      | cons c s =>
          by_cases hac : a = c
          · simp [← hac, ha, List.cons_prefix_cons, ih hn.tail]
          · by_cases hc : isUnbroken c <;> simp [hc, List.cons_prefix_cons, hac]

theorem infix_cons_break (hn : Unbroken n) (hne : n ≠ []) (hc : ¬ isUnbroken c) :
    n <:+: c :: s ↔ n <:+: s := by
  cases n with
  | nil => exact absurd rfl hne
  | cons a n =>
      have hac : a ≠ c := by
        rintro rfl
        exact hc (isUnbroken_iff.2 (hn a List.mem_cons_self))
      simp [List.infix_cons_iff, List.cons_prefix_cons, hac]

theorem exists_linesOf_eq_takeWhile (s : Text) :
    ∃ lines, linesOf s = s.takeWhile isUnbroken :: lines := by
  fun_induction linesOf s with
  | case1 => exact ⟨[], rfl⟩
  | case2 s | case3 s | case4 s => exact ⟨linesOf s, rfl⟩
  | case5 c s _ hcr hn ih =>
      obtain ⟨lines, hlines⟩ := ih
      have hc : isUnbroken c := isUnbroken_iff.2 ⟨hcr, hn⟩
      exact ⟨lines, by simp [hlines, hc]⟩

end Slices

section Ending

/-- A text up to the first occurrence of a line ending. -/
def upToEnding (b : LineBreak) (s : Text) : Text := (splitAtSlices b.text s).headD []

variable {b x : LineBreak} {n s : Text} {c : Char}

theorem exists_splitAtSlices_eq (b : LineBreak) (s : Text) :
    ∃ pieces, splitAtSlices b.text s = upToEnding b s :: pieces := by
  rw [upToEnding, splitAtSlices_eq b.text_ne_nil]
  split <;> simp

theorem upToEnding_text_append (b : LineBreak) (s : Text) : upToEnding b (b.text ++ s) = [] := by
  rw [upToEnding, splitAtSlices_self_append b.text_ne_nil]
  rfl

theorem upToEnding_cons (h : dropLeading? b.text (c :: s) = none) :
    upToEnding b (c :: s) = c :: upToEnding b s := by
  obtain ⟨pieces, hpieces⟩ := exists_splitAtSlices_eq b s
  rw [upToEnding, splitAtSlices_cons b.text_ne_nil h, hpieces]
  rfl

theorem takeWhile_upToEnding (b : LineBreak) (s : Text) :
    (upToEnding b s).takeWhile isUnbroken = s.takeWhile isUnbroken := by
  induction s with
  | nil => simp [upToEnding, splitAtSlices_nil b.text_ne_nil]
  | cons c s ih =>
      by_cases hc : isUnbroken c
      · obtain ⟨hcr, hn⟩ := isUnbroken_iff.1 hc
        simp [upToEnding_cons (dropLeading?_text_cons b hcr hn s), hc, ih]
      · cases hdrop : dropLeading? b.text (c :: s) with
        | none => simp [upToEnding_cons hdrop, hc]
        | some rest => simp [eq_append_of_dropLeading? hdrop ▸ upToEnding_text_append b rest, hc]

/-- Whether `n` occurs on a line that no break of the kind `b` and no CRLF parts from the start. -/
def ReachesLine (b : LineBreak) (n s : Text) : Prop :=
  ∃ i line, (linesOf s)[i]? = some line ∧ n <:+: line ∧
    ∀ x ∈ (lineBreaks s).take i, x ≠ b ∧ x ≠ .crlf

theorem reachesLine_of_break (hne : n ≠ []) {t : Text} (hlines : linesOf t = [] :: linesOf s)
    (hbreaks : lineBreaks t = x :: lineBreaks s) :
    ReachesLine b n t ↔ (x ≠ b ∧ x ≠ .crlf) ∧ ReachesLine b n s := by
  constructor
  · rintro ⟨i, line, hline, hn, hreach⟩
    rw [hlines] at hline
    rw [hbreaks] at hreach
    cases i with
    | zero =>
        obtain rfl : [] = line := Option.some.inj hline
        exact absurd (List.eq_nil_of_infix_nil hn) hne
    | succ i =>
        rw [List.take_succ_cons, List.forall_mem_cons] at hreach
        exact ⟨hreach.1, i, line, hline, hn, hreach.2⟩
  · rintro ⟨hx, i, line, hline, hn, hreach⟩
    refine ⟨i + 1, line, by rw [hlines]; exact hline, hn, ?_⟩
    rw [hbreaks, List.take_succ_cons, List.forall_mem_cons]
    exact ⟨hx, hreach⟩

theorem reachesLine_cons (hcr : c ≠ '\r') (hlf : c ≠ '\n') :
    ReachesLine b n (c :: s) ↔ n <+: c :: s.takeWhile isUnbroken ∨ ReachesLine b n s := by
  obtain ⟨lines, hlines⟩ := exists_linesOf_eq_takeWhile s
  have hcons : linesOf (c :: s) = (c :: s.takeWhile isUnbroken) :: lines := by
    rw [linesOf_cons s hcr hlf, hlines]
    rfl
  rw [ReachesLine, ReachesLine, hcons, hlines, lineBreaks_cons s hcr hlf]
  constructor
  · rintro ⟨i, line, hline, hn, hreach⟩
    cases i with
    | zero =>
        obtain rfl : c :: s.takeWhile isUnbroken = line := Option.some.inj hline
        rcases List.infix_cons_iff.1 hn with hn | hn
        · exact Or.inl hn
        · exact Or.inr ⟨0, _, rfl, hn, hreach⟩
    | succ i => exact Or.inr ⟨i + 1, line, hline, hn, hreach⟩
  · rintro (hn | ⟨i, line, hline, hn, hreach⟩)
    · exact ⟨0, _, rfl, hn.isInfix, by simp⟩
    · cases i with
      | zero =>
          obtain rfl : s.takeWhile isUnbroken = line := Option.some.inj hline
          exact ⟨0, _, rfl, List.infix_cons hn, hreach⟩
      | succ i => exact ⟨i + 1, line, hline, hn, hreach⟩

theorem infix_upToEnding_crlf (hn : Unbroken n) (hne : n ≠ []) (b : LineBreak) (s : Text) :
    ¬ n <:+: upToEnding b ('\r' :: '\n' :: s) := by
  have hnil : ¬ n <:+: [] := by simpa using hne
  cases b with
  | lf =>
      have hrest : upToEnding .lf ('\r' :: '\n' :: s) = ['\r'] := by
        rw [upToEnding_cons rfl]
        exact congrArg ('\r' :: ·) (upToEnding_text_append .lf s)
      rw [hrest, infix_cons_break hn hne (by decide)]
      exact hnil
  | cr =>
      rw [show upToEnding .cr ('\r' :: '\n' :: s) = [] from upToEnding_text_append .cr _]
      exact hnil
  | crlf =>
      rw [show upToEnding .crlf ('\r' :: '\n' :: s) = [] from upToEnding_text_append .crlf s]
      exact hnil

/-- A break of one character ends the piece if it is the line ending, and stands in it otherwise. -/
theorem infix_upToEnding_break (hn : Unbroken n) (hne : n ≠ []) (hx : x.text = [c])
    (hdrop : x ≠ b → dropLeading? b.text (c :: s) = none) :
    n <:+: upToEnding b (c :: s) ↔ (x ≠ b ∧ x ≠ .crlf) ∧ n <:+: upToEnding b s := by
  have hc : ¬ isUnbroken c := by
    rw [isUnbroken_iff]
    rcases x.mem_text (by rw [hx]; exact List.mem_singleton_self c) with rfl | rfl <;> simp
  have hcrlf : x ≠ .crlf := by
    rintro rfl
    simp [LineBreak.text] at hx
  by_cases hxb : x = b
  · subst hxb
    have hnil : upToEnding x (c :: s) = [] := by
      have := upToEnding_text_append x s
      rwa [hx] at this
    rw [hnil]
    simp [hne]
  · rw [upToEnding_cons (hdrop hxb), infix_cons_break hn hne hc]
    simp [hxb, hcrlf]

theorem infix_upToEnding_iff (hn : Unbroken n) (hne : n ≠ []) (b : LineBreak) (s : Text) :
    n <:+: upToEnding b s ↔ ReachesLine b n s := by
  fun_induction linesOf s with
  | case1 =>
      have hnil : ¬ n <:+: [] := by simpa using hne
      rw [upToEnding, splitAtSlices_nil b.text_ne_nil]
      refine iff_of_false hnil ?_
      rintro ⟨i, line, hline, hn, -⟩
      obtain rfl := List.mem_singleton.1 (List.mem_of_getElem? hline)
      exact hnil hn
  | case2 s ih =>
      rw [reachesLine_of_break hne (linesOf_crlf s) (lineBreaks_crlf s)]
      simp [infix_upToEnding_crlf hn hne b s]
  | case3 s hlf ih =>
      have hhead := head?_ne_lf hlf
      rw [reachesLine_of_break hne (linesOf_cr hhead) (lineBreaks_cr hhead), ← ih]
      apply infix_upToEnding_break hn hne rfl
      intro hb
      cases b with
      | lf => rfl
      | cr => exact absurd rfl hb
      | crlf =>
          cases s with
          | nil => rfl
          | cons d s =>
              have hd : '\n' ≠ d := by simpa using hhead.symm
              simp [LineBreak.text, dropLeading?, hd]
  | case4 s ih =>
      rw [reachesLine_of_break hne (linesOf_lf s) (lineBreaks_lf s), ← ih]
      apply infix_upToEnding_break hn hne rfl
      intro hb
      cases b with
      | lf => exact absurd rfl hb
      | cr | crlf => rfl
  | case5 c s _ hcr hlf ih =>
      have hc : isUnbroken c := isUnbroken_iff.2 ⟨hcr, hlf⟩
      have hprefix : n <+: c :: upToEnding b s ↔ n <+: c :: s.takeWhile isUnbroken := by
        rw [← prefix_takeWhile_iff hn, List.takeWhile_cons_of_pos hc, takeWhile_upToEnding]
      rw [reachesLine_cons hcr hlf, upToEnding_cons (dropLeading?_text_cons b hcr hlf s),
        List.infix_cons_iff, hprefix, ih]

end Ending

section FirstLines

variable {b : LineBreak} {bs : List LineBreak} {s : Text}

/-- Cutting at the line ending of a text parts its first line from the rest. -/
theorem exists_first_line (h : lineBreaks s = b :: bs) :
    ∃ line rest, splitAtSlices b.text s = line :: splitAtSlices b.text rest ∧
      linesOf s = line :: linesOf rest ∧ lineBreaks rest = bs := by
  fun_induction linesOf s with
  | case1 => simp [lineBreaks] at h
  | case2 s _ =>
      rw [lineBreaks_crlf] at h
      obtain ⟨rfl, hbs⟩ := List.cons.inj h
      exact ⟨[], s, splitAtSlices_self_append LineBreak.crlf.text_ne_nil s, rfl, hbs⟩
  | case3 s hlf _ =>
      rw [lineBreaks_cr (head?_ne_lf hlf)] at h
      obtain ⟨rfl, hbs⟩ := List.cons.inj h
      exact ⟨[], s, splitAtSlices_self_append LineBreak.cr.text_ne_nil s, rfl, hbs⟩
  | case4 s _ =>
      rw [lineBreaks_lf] at h
      obtain ⟨rfl, hbs⟩ := List.cons.inj h
      exact ⟨[], s, splitAtSlices_self_append LineBreak.lf.text_ne_nil s, rfl, hbs⟩
  | case5 c s _ hcr hlf ih =>
      rw [lineBreaks_cons s hcr hlf] at h
      obtain ⟨line, rest, hsplit, hlines, hbs⟩ := ih h
      refine ⟨c :: line, rest, ?_, by rw [hlines]; rfl, hbs⟩
      rw [splitAtSlices_cons b.text_ne_nil (dropLeading?_text_cons b hcr hlf s), hsplit]
      rfl

theorem hasOptOutMarker_iff (s : Text) : hasOptOutMarker s ↔ optOutMarker <:+: s := by
  rw [hasOptOutMarker, hasSlice, Option.isSome_iff_ne_none, ne_eq, breakAt_eq_none_iff, not_not]

/-- The lines that count: the first, the second, and those behind it up to a break in which the line
ending of the text occurs. -/
theorem optsOut_iff_exists_line (s : Text) :
    optsOut s ↔ ∃ i line, (linesOf s)[i]? = some line ∧ hasOptOutMarker line ∧
      ∀ x ∈ ((lineBreaks s).take i).tail, x ≠ detectLineBreak s ∧ x ≠ .crlf := by
  cases hbreaks : lineBreaks s with
  | nil =>
      have hlines : linesOf s = [s] :=
        linesOf_of_countLineBreaks (by rw [countLineBreaks, hbreaks]; rfl)
      have hsplit : splitAtSlices (detectLineBreak s).text s = [s] := by
        rw [splitAtSlices_eq_linesOf (by simp [hbreaks]), hlines]
      rw [optsOut, hsplit, hlines]
      simp [List.getElem?_singleton]
  | cons b bs =>
      obtain ⟨line, rest, hsplit, hlines, rfl⟩ := exists_first_line hbreaks
      obtain ⟨pieces, hpieces⟩ := exists_splitAtSlices_eq b rest
      have hdetect : detectLineBreak s = b := by rw [detectLineBreak, hbreaks]; rfl
      have hsecond := infix_upToEnding_iff (n := optOutMarker) (by decide) (by decide) b rest
      rw [← hasOptOutMarker_iff] at hsecond
      rw [optsOut, hdetect, hsplit, hpieces, hlines]
      simp only [List.take_succ_cons, List.take_zero, List.any_cons, List.any_nil, Bool.or_false,
        Bool.or_eq_true, hsecond, ReachesLine, ← hasOptOutMarker_iff]
      constructor
      · rintro (hline | ⟨i, later, hlater, hmarker, hreach⟩)
        · exact ⟨0, line, rfl, hline, by simp⟩
        · exact ⟨i + 1, later, hlater, hmarker, hreach⟩
      · rintro ⟨i, later, hlater, hmarker, hreach⟩
        cases i with
        | zero =>
            obtain rfl : line = later := Option.some.inj hlater
            exact Or.inl hmarker
        | succ i => exact Or.inr ⟨i, later, hlater, hmarker, hreach⟩

theorem optsOut_of_mem_take_two {line : Text} (hline : line ∈ (linesOf s).take 2)
    (hmarker : hasOptOutMarker line) : optsOut s := by
  obtain ⟨i, hi⟩ := List.mem_iff_getElem?.1 hline
  rw [List.getElem?_take, Option.ite_none_right_eq_some] at hi
  refine (optsOut_iff_exists_line s).2 ⟨i, line, hi.2, hmarker, fun x hx => ?_⟩
  -- At most one break stands before the first two lines, and the first break never matters.
  have hlength := List.length_take_le i (lineBreaks s)
  have hnil : ((lineBreaks s).take i).tail = [] := by
    rw [← List.length_eq_zero_iff, List.length_tail]
    omega
  simp [hnil] at hx

theorem exists_mem_take_two_of_optsOut
    (hmixed : hasMixedLineBreaks s (detectLineBreak s).text = false) (h : optsOut s) :
    ∃ line ∈ (linesOf s).take 2, hasOptOutMarker line := by
  obtain ⟨i, line, hline, hmarker, hreach⟩ := (optsOut_iff_exists_line s).1 h
  refine ⟨line, ?_, hmarker⟩
  have hi : i < 2 := by
    by_contra hge
    have hlt : i < (linesOf s).length := (List.getElem?_eq_some_iff.1 hline).1
    rw [length_linesOf, countLineBreaks] at hlt
    have hmem : (lineBreaks s)[1] ∈ ((lineBreaks s).take i).tail := by
      apply List.mem_of_getElem? (i := 0)
      rw [List.getElem?_tail, List.getElem?_take_of_lt (by omega), List.getElem?_eq_getElem]
    exact (hreach _ hmem).1 (eq_detectLineBreak_of_not_mixed hmixed _ (List.getElem_mem _))
  apply List.mem_of_getElem? (i := i)
  rw [List.getElem?_take_of_lt hi, hline]

/-- The marker in one of the first two lines opts out. In a later line it does so exactly if every
break between the second line and it is of a kind in which the text's own line ending does not
occur. So only the first two lines count if line endings are not mixed. -/
theorem optsOut_lines (s : Text) :
    (∀ line ∈ (linesOf s).take 2, hasOptOutMarker line → optsOut s) ∧
    (optsOut s ↔ ∃ i line, (linesOf s)[i]? = some line ∧ hasOptOutMarker line ∧
      ∀ x ∈ ((lineBreaks s).take i).tail, x ≠ detectLineBreak s ∧ x ≠ .crlf) ∧
    (hasMixedLineBreaks s (detectLineBreak s).text = false →
      (optsOut s ↔ ∃ line ∈ (linesOf s).take 2, hasOptOutMarker line)) := by
  refine ⟨fun line => optsOut_of_mem_take_two, optsOut_iff_exists_line s, fun hmixed => ?_⟩
  constructor
  · exact exists_mem_take_two_of_optsOut hmixed
  · rintro ⟨line, hline, hmarker⟩
    exact optsOut_of_mem_take_two hline hmarker

theorem optsOut_on_third_line :
    let s := "a\nb\r@noSmartyLint".toList
    linesOf s = ["a".toList, "b".toList, "@noSmartyLint".toList] ∧ optsOut s ∧
      ¬ ∃ line ∈ (linesOf s).take 2, hasOptOutMarker line := by
  decide +kernel

end FirstLines

end TemplateLint

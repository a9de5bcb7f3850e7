import TemplateLint.Proofs.LineBreaks
import TemplateLint.Proofs.SplitSteps
import TemplateLint.Token.Scan

/-!
# Texts with other line endings

A text whose only breaks are line feeds can be written with another line ending. Looking for a
text without breaks, trimming, counting lines and cutting at lines then give the same, up to the
line ending.
-/

namespace TemplateLint

/-- The text with every line feed written as the break `b`. -/
def LineBreak.rewrite (b : LineBreak) (s : Text) : Text :=
  s.flatMap fun c => if c = '\n' then b.text else [c]

/-- Whether a text has neither CR nor LF. -/
def Unbroken (s : Text) : Prop := ∀ c ∈ s, c ≠ '\r' ∧ c ≠ '\n'

instance (s : Text) : Decidable (Unbroken s) :=
  decidable_of_iff (s.all fun c => c != '\r' && c != '\n') (by simp [Unbroken])

theorem Unbroken.tail {c : Char} {s : Text} (h : Unbroken (c :: s)) : Unbroken s :=
  fun d hd => h d (List.mem_cons_of_mem _ hd)

namespace LineBreak

variable (b : LineBreak)

theorem mem_text {c : Char} (h : c ∈ b.text) : c = '\r' ∨ c = '\n' := by
  cases b <;> simp_all [text]

theorem text_ne_nil : b.text ≠ [] := by
  cases b <;> simp [text]

@[simp]
theorem rewrite_nil : b.rewrite [] = [] := rfl

theorem rewrite_append (s t : Text) : b.rewrite (s ++ t) = b.rewrite s ++ b.rewrite t :=
  List.flatMap_append

theorem rewrite_lf (s : Text) : b.rewrite ('\n' :: s) = b.text ++ b.rewrite s := by
  rw [rewrite, List.flatMap_cons, if_pos rfl]
  rfl

theorem rewrite_cons {c : Char} (h : c ≠ '\n') (s : Text) :
    b.rewrite (c :: s) = c :: b.rewrite s := by
  rw [rewrite, List.flatMap_cons, if_neg h]
  rfl

theorem rewrite_singleton_lf : b.rewrite ['\n'] = b.text := by
  rw [rewrite_lf, rewrite_nil, List.append_nil]

theorem rewrite_singleton {c : Char} (h : c ≠ '\n') : b.rewrite [c] = [c] := by
  rw [rewrite_cons b h, rewrite_nil]

theorem rewrite_of_lf_not_mem {s : Text} (h : '\n' ∉ s) : b.rewrite s = s := by
  induction s with
  | nil => rfl
  | cons c s ih =>
      have hc : c ≠ '\n' := fun he => h (by simp [he])
      rw [rewrite_cons b hc, ih fun hm => h (List.mem_cons_of_mem _ hm)]

theorem rewrite_unbroken {s : Text} (h : Unbroken s) : b.rewrite s = s :=
  b.rewrite_of_lf_not_mem fun hm => (h _ hm).2 rfl

end LineBreak

section Slices

variable (b : LineBreak) {needle : Text}

/-- What has no breaks does not start with one. -/
theorem dropLeading?_break (hn : Unbroken needle) (hne : needle ≠ []) {c : Char}
    (hc : c = '\r' ∨ c = '\n') (s : Text) : dropLeading? needle (c :: s) = none := by
  apply dropLeading?_cons_of_not_mem hne
  intro hmem
  have hunbroken := hn c hmem
  rcases hc with rfl | rfl
  · exact hunbroken.1 rfl
  · exact hunbroken.2 rfl

theorem dropLeading?_rewrite (hn : Unbroken needle) (s : Text) :
    dropLeading? needle (b.rewrite s) = (dropLeading? needle s).map b.rewrite := by
  induction needle generalizing s with
  | nil => rfl
  | cons a needle ih =>
      cases s with
      | nil => rfl
      | cons c s =>
          by_cases hc : c = '\n'
          · subst hc
            rw [dropLeading?_break hn (List.cons_ne_nil _ _) (Or.inr rfl), b.rewrite_lf]
            cases b with
            | lf => exact dropLeading?_break hn (List.cons_ne_nil _ _) (Or.inr rfl) _
            | cr | crlf => exact dropLeading?_break hn (List.cons_ne_nil _ _) (Or.inl rfl) _
          · rw [b.rewrite_cons hc, dropLeading?, dropLeading?]
            by_cases hac : a = c
            · rw [if_pos hac, if_pos hac, ih hn.tail]
            · rw [if_neg hac, if_neg hac]
              rfl

theorem breakAt_break (hn : Unbroken needle) (hne : needle ≠ []) {c : Char}
    (hc : c = '\r' ∨ c = '\n') (s : Text) :
    breakAt needle (c :: s) = (breakAt needle s).map fun p => (c :: p.1, p.2) := by
  rw [breakAt, dropLeading?_break hn hne hc]

theorem breakAt_text_append (hn : Unbroken needle) (hne : needle ≠ []) (s : Text) :
    breakAt needle (b.text ++ s) = (breakAt needle s).map fun p => (b.text ++ p.1, p.2) := by
  cases b with
  | lf => exact breakAt_break hn hne (Or.inr rfl) s
  | cr => exact breakAt_break hn hne (Or.inl rfl) s
  | crlf =>
      have h := breakAt_break hn hne (Or.inl rfl) ('\n' :: s)
      rw [breakAt_break hn hne (Or.inr rfl), Option.map_map] at h
      exact h

/-- Putting text in front of what was found commutes with rewriting. -/
theorem map_append_rewrite {head head' : Text} (h : b.rewrite head = head')
    (found : Option (Text × Text)) :
    (found.map (Prod.map b.rewrite b.rewrite)).map (fun p => (head' ++ p.1, p.2)) =
      (found.map fun p => (head ++ p.1, p.2)).map (Prod.map b.rewrite b.rewrite) := by
  rw [Option.map_map, Option.map_map]
  congr 1
  funext p
  have hhead : b.rewrite (head ++ p.1) = head' ++ b.rewrite p.1 := by rw [b.rewrite_append, h]
  exact Prod.ext hhead.symm rfl

theorem breakAt_rewrite (hn : Unbroken needle) (hne : needle ≠ []) (s : Text) :
    breakAt needle (b.rewrite s) = (breakAt needle s).map (Prod.map b.rewrite b.rewrite) := by
  induction s with
  | nil => simp [breakAt, hne]
  | cons c s ih =>
      by_cases hc : c = '\n'
      · rw [hc, b.rewrite_lf, breakAt_text_append b hn hne, ih, breakAt_break hn hne (Or.inr rfl)]
        exact map_append_rewrite b b.rewrite_singleton_lf _
      · have hdrop := dropLeading?_rewrite b hn (c :: s)
        rw [b.rewrite_cons hc] at hdrop ⊢
        rw [breakAt, hdrop, breakAt]
        cases dropLeading? needle (c :: s) with
        | some rest => rfl
        | none =>
            simp only [Option.map_none]
            rw [ih]
            exact map_append_rewrite b (b.rewrite_singleton hc) _

theorem hasSlice_rewrite (hn : Unbroken needle) (hne : needle ≠ []) (s : Text) :
    hasSlice needle (b.rewrite s) = hasSlice needle s := by
  rw [hasSlice, hasSlice, breakAt_rewrite b hn hne, Option.isSome_map]

theorem isPrefixOf_eq_dropLeading? (head s : Text) :
    head.isPrefixOf s = (dropLeading? head s).isSome := by
  induction head generalizing s with
  | nil => cases s <;> rfl
  | cons a head ih =>
      cases s with
      | nil => rfl
      | cons c s =>
          rw [List.isPrefixOf, dropLeading?, ih]
          by_cases hac : a = c
          · simp [hac]
          · simp [hac]

theorem isPrefixOf_rewrite (hn : Unbroken needle) (s : Text) :
    needle.isPrefixOf (b.rewrite s) = needle.isPrefixOf s := by
  rw [isPrefixOf_eq_dropLeading?, isPrefixOf_eq_dropLeading?, dropLeading?_rewrite b hn,
    Option.isSome_map]

end Slices

section Blanks

variable (b : LineBreak)

theorem isBlank_of_mem_text {c : Char} (h : c ∈ b.text) : isBlank c := by
  rcases b.mem_text h with rfl | rfl <;> decide

theorem isEmpty_trim_rewrite (s : Text) : (trim (b.rewrite s)).isEmpty = (trim s).isEmpty := by
  rw [Bool.eq_iff_iff, List.isEmpty_iff, List.isEmpty_iff, trim_eq_nil_iff, trim_eq_nil_iff]
  induction s with
  | nil => simp
  | cons c s ih =>
      by_cases hc : c = '\n'
      · subst hc
        rw [b.rewrite_lf, List.forall_mem_append, ih, List.forall_mem_cons]
        constructor
        · exact fun h => ⟨by decide, h.2⟩
        · exact fun h => ⟨fun c => isBlank_of_mem_text b, h.2⟩
      · rw [b.rewrite_cons hc, List.forall_mem_cons, ih, List.forall_mem_cons]

theorem dropWhile_isBlank_rewrite (s : Text) :
    (b.rewrite s).dropWhile isBlank = b.rewrite (s.dropWhile isBlank) := by
  induction s with
  | nil => rfl
  | cons c s ih =>
      by_cases hc : c = '\n'
      · subst hc
        rw [b.rewrite_lf, List.dropWhile_append_of_pos fun c => isBlank_of_mem_text b, ih]
        rfl
      · rw [b.rewrite_cons hc, List.dropWhile_cons, List.dropWhile_cons]
        by_cases hb : isBlank c
        · rw [if_pos hb, if_pos hb, ih]
        · rw [if_neg hb, if_neg hb, b.rewrite_cons hc]

end Blanks

section Lines

variable (b : LineBreak) {s : Text}

theorem lf_not_mem_rewrite_cr (s : Text) : '\n' ∉ LineBreak.cr.rewrite s := by
  intro h
  obtain ⟨c, -, hc⟩ := List.mem_flatMap.1 h
  by_cases hn : c = '\n'
  · rw [if_pos hn] at hc
    exact absurd hc (by decide)
  · rw [if_neg hn] at hc
    exact hn (List.mem_singleton.1 hc).symm

theorem rewrite_lf_eq (s : Text) : LineBreak.lf.rewrite s = s := by
  induction s with
  | nil => rfl
  | cons c s ih =>
      by_cases hc : c = '\n'
      · rw [hc, LineBreak.rewrite_lf, ih]
        rfl
      · rw [LineBreak.rewrite_cons _ hc, ih]

/-- The breaks of a rewritten text are as many as there were line feeds, and all of them `b`. -/
theorem lineBreaks_rewrite (h : '\r' ∉ s) :
    lineBreaks (b.rewrite s) = List.replicate (s.count '\n') b := by
  induction s with
  | nil => rfl
  | cons c s ih =>
      have hs := ih fun hm => h (List.mem_cons_of_mem _ hm)
      by_cases hc : c = '\n'
      · rw [hc, b.rewrite_lf, List.count_cons_self, List.replicate_succ, ← hs]
        cases b with
        | lf => exact lineBreaks_lf _
        | crlf => exact lineBreaks_crlf _
        | cr =>
            apply lineBreaks_cr
            intro hhead
            exact lf_not_mem_rewrite_cr s (List.mem_of_mem_head? hhead)
      · have hr : c ≠ '\r' := fun he => h (by simp [he])
        rw [b.rewrite_cons hc, lineBreaks_cons _ hr hc, List.count_cons_of_ne hc, hs]

theorem lineBreaks_of_cr_not_mem (h : '\r' ∉ s) :
    lineBreaks s = List.replicate (s.count '\n') .lf := by
  have hs := lineBreaks_rewrite .lf h
  rw [rewrite_lf_eq] at hs
  exact hs

theorem countLineBreaks_rewrite (h : '\r' ∉ s) :
    countLineBreaks (b.rewrite s) = countLineBreaks s := by
  rw [countLineBreaks, countLineBreaks, lineBreaks_rewrite b h, lineBreaks_of_cr_not_mem h,
    List.length_replicate, List.length_replicate]

theorem lf_not_mem_of_countLineBreaks (h : '\r' ∉ s) (hs : countLineBreaks s = 0) :
    '\n' ∉ s := by
  rw [countLineBreaks, lineBreaks_of_cr_not_mem h, List.length_replicate] at hs
  exact List.count_eq_zero.1 hs

theorem detectLineBreak_rewrite (h : '\r' ∉ s) (hn : '\n' ∈ s) :
    detectLineBreak (b.rewrite s) = b := by
  have hpos : s.count '\n' ≠ 0 := fun h0 => List.count_eq_zero.1 h0 hn
  obtain ⟨n, hcount⟩ := Nat.exists_eq_succ_of_ne_zero hpos
  rw [detectLineBreak, lineBreaks_rewrite b h, hcount]
  rfl

theorem detectLineBreak_of_cr_not_mem (h : '\r' ∉ s) : detectLineBreak s = .lf := by
  rw [detectLineBreak, lineBreaks_of_cr_not_mem h]
  cases s.count '\n' <;> rfl

theorem hasMixedLineBreaks_rewrite (h : '\r' ∉ s) :
    hasMixedLineBreaks (b.rewrite s) b.text = false := by
  rw [hasMixedLineBreaks, lineBreaks_rewrite b h, List.any_eq_false]
  intro b' hb'
  simp [List.eq_of_mem_replicate hb']

theorem dropLeading?_text_cons {c : Char} (hr : c ≠ '\r') (hn : c ≠ '\n') (s : Text) :
    dropLeading? b.text (c :: s) = none := by
  cases b with
  | lf => exact if_neg hn.symm
  | cr | crlf => exact if_neg hr.symm

theorem breakAt_text_rewrite (h : '\r' ∉ s) :
    breakAt b.text (b.rewrite s) = (breakAt ['\n'] s).map fun p => (p.1, b.rewrite p.2) := by
  induction s with
  | nil => cases b <;> rfl
  | cons c s ih =>
      have hs := ih fun hm => h (List.mem_cons_of_mem _ hm)
      by_cases hc : c = '\n'
      · have hdrop := dropLeading?_self_append b.text (b.rewrite s)
        rw [hc, b.rewrite_lf]
        cases b with
        | lf | cr | crlf =>
            rw [LineBreak.text] at hdrop ⊢
            rw [List.cons_append] at hdrop ⊢
            rw [breakAt, hdrop]
            rfl
      · have hr : c ≠ '\r' := fun he => h (by simp [he])
        have hlf : dropLeading? ['\n'] (c :: s) = none := dropLeading?_text_cons .lf hr hc s
        rw [b.rewrite_cons hc, breakAt, dropLeading?_text_cons b hr hc, breakAt, hlf]
        dsimp only
        rw [hs, Option.map_map, Option.map_map]
        rfl

theorem cutEvery_rewrite (hne : b.text ≠ []) (h : '\r' ∉ s) :
    cutEvery b.text hne (b.rewrite s) = cutEvery ['\n'] (List.cons_ne_nil _ _) s := by
  fun_induction cutEvery ['\n'] (List.cons_ne_nil _ _) s with
  | case1 s hbreak =>
      have hs := breakAt_text_rewrite b h
      rw [hbreak] at hs
      rw [cutEvery]
      split
      · rw [b.rewrite_of_lf_not_mem (breakAt_singleton_eq_none_iff.1 hbreak)]
      next hsome =>
        rw [hs] at hsome
        exact absurd hsome (by simp)
  | case2 s before after hbreak ih =>
      have hs := breakAt_text_rewrite b h
      rw [hbreak, Option.map_some] at hs
      have hafter : '\r' ∉ after := by
        intro hm
        apply h
        rw [eq_of_breakAt hbreak]
        exact List.mem_append_right _ hm
      rw [cutEvery]
      split
      next hnone =>
        rw [hs] at hnone
        exact absurd hnone (by simp)
      next before' after' hsome =>
        rw [hs] at hsome
        obtain ⟨rfl, rfl⟩ := Prod.mk.inj (Option.some.inj hsome)
        rw [ih hafter]

/-- The lines of a text do not depend on how its breaks are written. -/
theorem splitAtSlices_rewrite (h : '\r' ∉ s) :
    splitAtSlices b.text (b.rewrite s) = splitAtSlices ['\n'] s := by
  rw [splitAtSlices, splitAtSlices, dif_neg b.text_ne_nil, dif_neg (List.cons_ne_nil _ _)]
  exact cutEvery_rewrite b b.text_ne_nil h

theorem optsOut_rewrite (h : '\r' ∉ s) : optsOut (b.rewrite s) = optsOut s := by
  by_cases hn : '\n' ∈ s
  · rw [optsOut, optsOut, detectLineBreak_rewrite b h hn, detectLineBreak_of_cr_not_mem h,
      splitAtSlices_rewrite b h]
    rfl
  · rw [b.rewrite_of_lf_not_mem hn]

end Lines

end TemplateLint

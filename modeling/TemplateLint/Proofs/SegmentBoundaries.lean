import TemplateLint.Proofs.RoundTrip
import TemplateLint.Proofs.SplitSteps

/-!
# Cutting a template between segments

A template that is cut between two of its segments is split into the segments on either side. Behind
the cut this holds because a tag is found where it starts. Before it, everything that the splitter
decided was decided by what stands before the cut: a tag that closes there closes without the rest,
and a left delimiter that was literal because of white space behind the cut now opens a tag that
never closes, which is text as well.
-/

namespace TemplateLint

theorem Segment.ofText_eq_append {s : Text} {front back : List Segment}
    (h : Segment.ofText s = front ++ back) : front = [] ∨ back = [] := by
  by_cases hs : s = []
  · rw [Segment.ofText, if_pos hs] at h
    exact Or.inl (List.append_eq_nil_iff.1 h.symm).1
  · rw [Segment.ofText, if_neg hs, eq_comm, List.append_eq_singleton_iff] at h
    rcases h with ⟨hfront, -⟩ | ⟨-, hback⟩
    · exact Or.inl hfront
    · exact Or.inr hback

namespace Markup

section CutBehind

variable {m : Markup} {previous : Option Char} {depth literal : Nat}
  {s rest body after tail : Text}

theorem eq_some_of_map_append (front : Text) {found : Option (Text × Text)}
    (h : found.map (fun (body, after) => (front ++ body, after)) = some (body, after)) :
    ∃ b, found = some (b, after) ∧ body = front ++ b := by
  obtain ⟨⟨b, a⟩, hfound, heq⟩ := Option.map_eq_some_iff.1 h
  simp only [Prod.mk.injEq] at heq
  obtain ⟨rfl, rfl⟩ := heq
  exact ⟨b, hfound, rfl⟩

theorem head?_append_right_append (m : Markup) (body after tail : Text) :
    (body ++ m.right ++ (after ++ tail)).head? = (body ++ m.right ++ after).head? := by
  have hne : body ++ m.right ≠ [] := by simp [m.right_ne_nil]
  rw [List.head?_append_of_ne_nil _ hne, List.head?_append_of_ne_nil _ hne]

/-- A left delimiter inside a tag is literal or not whatever stands behind the tag. -/
theorem closeNested_left_of_append (hr : dropLeading? m.right s = none)
    (hl : dropLeading? m.left s = some rest) (hrest : rest = body ++ m.right ++ (after ++ tail)) :
    m.closeNested previous depth literal (m.left ++ body ++ m.right ++ after) =
      if m.isLiteralBeside rest.head? then
        (m.closeNested m.left.getLast? depth (literal + 1) (body ++ m.right ++ after)).map
          fun p => (m.left ++ p.1, p.2)
      else
        (m.closeNested m.left.getLast? (depth + 1) literal (body ++ m.right ++ after)).map
          fun p => (m.left ++ p.1, p.2) := by
  have hs : s = m.left ++ (body ++ m.right ++ after) ++ tail := by
    rw [eq_append_of_dropLeading? hl, hrest]
    simp
  rw [hs] at hr
  rw [List.append_assoc, List.append_assoc, ← List.append_assoc body,
    closeNested_left (dropLeading?_eq_none_of_append hr) (dropLeading?_self_append m.left _),
    hrest, head?_append_right_append]

theorem closeNested_of_append
    (h : m.closeNested previous depth literal s = some (body, after ++ tail)) :
    m.closeNested previous depth literal (body ++ m.right ++ after) = some (body, after) := by
  fun_induction closeNested m previous depth literal s generalizing body with
  | case1 previous depth literal s rest _ hliteral ih =>
      obtain ⟨b, hb, rfl⟩ := eq_some_of_map_append m.right h
      rw [List.append_assoc, List.append_assoc, ← List.append_assoc b,
        closeNested_right (dropLeading?_self_append m.right _), if_pos hliteral, ih hb]
      rfl
  | case2 previous literal s rest _ hliteral =>
      simp only [Option.some.injEq, Prod.mk.injEq] at h
      obtain ⟨rfl, -⟩ := h
      rw [List.nil_append, closeNested_right (dropLeading?_self_append m.right _), if_neg hliteral]
  | case3 previous literal s rest _ hliteral depth ih =>
      obtain ⟨b, hb, rfl⟩ := eq_some_of_map_append m.right h
      rw [List.append_assoc, List.append_assoc, ← List.append_assoc b,
        closeNested_right (dropLeading?_self_append m.right _), if_neg hliteral]
      change Option.map _ (m.closeNested m.right.getLast? depth literal _) = _
      rw [ih hb]
      rfl
  | case4 previous depth literal s hr rest hl hliteral ih =>
      obtain ⟨b, hb, rfl⟩ := eq_some_of_map_append m.left h
      rw [closeNested_left_of_append hr hl (eq_of_closeNested hb), if_pos hliteral, ih hb]
      rfl
  | case5 previous depth literal s hr rest hl hliteral ih =>
      obtain ⟨b, hb, rfl⟩ := eq_some_of_map_append m.left h
      rw [closeNested_left_of_append hr hl (eq_of_closeNested hb), if_neg hliteral, ih hb]
      rfl
  | case6 => simp at h
  | case7 previous depth literal c rest hr hl ih =>
      obtain ⟨b, hb, rfl⟩ := eq_some_of_map_append [c] h
      have hcons : c :: rest = c :: (b ++ m.right ++ after) ++ tail := by
        rw [eq_of_closeNested hb]
        simp
      rw [hcons] at hr hl
      change m.closeNested previous depth literal (c :: (b ++ m.right ++ after)) = _
      rw [closeNested_cons (dropLeading?_eq_none_of_append hr) (dropLeading?_eq_none_of_append hl),
        ih hb]
      rfl

/-- A tag closes at the same place when the template is cut behind it. -/
theorem closeTag_of_append (h : m.closeTag s = some (body, after ++ tail)) :
    m.closeTag (body ++ m.right ++ after) = some (body, after) := by
  have hhead : (body ++ m.right ++ after).head? = s.head? := by
    rw [eq_of_closeTag h, head?_append_right_append]
  rw [closeTag] at h ⊢
  rw [hhead]
  split at h
  next hstar =>
    obtain ⟨⟨b, a⟩, hb, heq⟩ := Option.map_eq_some_iff.1 h
    simp only [Prod.mk.injEq] at heq
    obtain ⟨rfl, rfl⟩ := heq
    have hcut := breakAt_of_append hb
    rw [List.append_cons] at hcut
    rw [if_pos hstar, hcut]
    rfl
  next hstar => rw [if_neg hstar, closeNested_of_append h]

end CutBehind

section Boundaries

variable {m : Markup}

/-- Text that belongs to no tag starts the first segment. -/
theorem exists_segmentsAfter_eq_text_cons (m : Markup) {pending : Text} (hne : pending ≠ [])
    (s : Text) : ∃ u gs, m.segmentsAfter pending s = .text (pending ++ u) :: gs := by
  have hlast (t : Text) : Segment.ofText (pending ++ t) = [.text (pending ++ t)] :=
    if_neg (by simp [hne])
  fun_induction segmentsAfter m pending s with
  | case1 pending s | case3 pending s => exact ⟨s, [], hlast s⟩
  | case2 pending s before inside _ _ ih =>
      obtain ⟨u, gs, h⟩ := ih (by simp [hne]) fun _ => if_neg (by simp [hne])
      exact ⟨before ++ m.left ++ u, gs, by rw [h]; simp⟩
  | case4 pending s before inside _ _ body after _ _ ih =>
      obtain ⟨u, gs, h⟩ := ih (by simp [hne]) fun _ => if_neg (by simp [hne])
      exact ⟨before ++ m.left ++ body ++ m.right ++ u, gs, by rw [h]; simp⟩
  | case5 pending s before inside _ _ body after _ _ _ =>
      exact ⟨before, _, by rw [hlast]; rfl⟩

/-- The segments before a cut cover the text that belonged to no tag, if there are any. -/
theorem exists_flatMap_content_eq_append {pending s : Text} (hne : pending ≠ [])
    {front back : List Segment} (h : m.segmentsAfter pending s = front ++ back)
    (hfront : front ≠ []) : ∃ u, front.flatMap Segment.content = pending ++ u := by
  obtain ⟨u, gs, hgs⟩ := m.exists_segmentsAfter_eq_text_cons hne s
  obtain ⟨g, front, rfl⟩ := List.exists_cons_of_ne_nil hfront
  rw [hgs, List.cons_append, List.cons.injEq] at h
  rw [← h.1, List.flatMap_cons, Segment.content, List.append_assoc]
  exact ⟨_, rfl⟩

/-- What a left delimiter opens is found again when the template is cut behind it. -/
theorem segmentsAfter_closed_of_append (pending : Text) {s before inside body after tail : Text}
    (ho : breakAt m.left s = some (before, inside)) (hliteral : ¬ m.isLiteralBeside inside.head?)
    (hc : m.closeTag inside = some (body, after ++ tail)) :
    m.segmentsAfter pending (before ++ m.left ++ (body ++ m.right ++ after)) =
      if (trim body).isEmpty then
        m.segmentsAfter (pending ++ before ++ m.left ++ body ++ m.right) after
      else
        Segment.ofText (pending ++ before) ++
          .tag (m.left ++ body ++ m.right) :: m.segmentsAfter [] after := by
  have hinside : inside = body ++ m.right ++ after ++ tail := by
    rw [eq_of_closeTag hc, List.append_assoc]
    simp
  have hhead : inside.head? = (body ++ m.right ++ after).head? := by
    rw [eq_of_closeTag hc, head?_append_right_append]
  rw [hinside] at ho
  rw [hhead] at hliteral
  rw [segmentsAfter_eq, breakAt_of_append ho]
  dsimp only
  rw [if_neg hliteral, closeTag_of_append hc]

theorem closeTag_nil (m : Markup) : m.closeTag [] = none := by
  simp [closeTag, closeNested_nil]

/-- A literal left delimiter is text also when the template is cut right behind it, where it is not
literal any more. -/
theorem segmentsAfter_literal_of_append {pending s before after tail : Text}
    (ho : breakAt m.left s = some (before, after ++ tail))
    (hliteral : m.isLiteralBeside (after ++ tail).head?) :
    m.segmentsAfter pending (before ++ m.left ++ after) =
      m.segmentsAfter (pending ++ before ++ m.left) after := by
  rw [segmentsAfter_eq, breakAt_of_append ho]
  dsimp only
  cases after with
  | nil =>
      have hnone : breakAt m.left ([] : Text) = none := by simp [breakAt, m.left_ne_nil]
      rw [closeTag_nil, m.segmentsAfter_eq (pending ++ before ++ m.left) [], hnone]
      simp [isLiteralBeside]
  | cons c after => exact if_pos hliteral

theorem segmentsAfter_front_nil {pending p : Text}
    (hp : ([] : List Segment).flatMap Segment.content = pending ++ p) :
    m.segmentsAfter pending p = [] := by
  obtain ⟨rfl, rfl⟩ := List.append_eq_nil_iff.1 hp.symm
  rw [segmentsAfter_eq]
  simp [breakAt, m.left_ne_nil, Segment.ofText]

/-- A text without tags can only be cut before or behind all of it. -/
theorem segmentsAfter_front_of_text {pending s p : Text} {front back : List Segment}
    (hs : m.segmentsAfter pending s = Segment.ofText (pending ++ s))
    (h : Segment.ofText (pending ++ s) = front ++ back)
    (hp : front.flatMap Segment.content = pending ++ p) : m.segmentsAfter pending p = front := by
  rcases Segment.ofText_eq_append h with rfl | rfl
  · exact segmentsAfter_front_nil hp
  · rw [List.append_nil] at h
    rw [← h, Segment.flatMap_content_ofText] at hp
    rw [← List.append_cancel_left hp, hs, h]

/-- What is left of a template behind the segments before a cut. -/
theorem eq_append_of_segmentsAfter_eq_append {pending s p : Text} {front back : List Segment}
    (h : m.segmentsAfter pending s = front ++ back)
    (hp : front.flatMap Segment.content = pending ++ p) :
    s = p ++ back.flatMap Segment.content := by
  have hall := m.flatMap_content_segmentsAfter pending s
  rw [h, List.flatMap_append, hp, List.append_assoc] at hall
  exact (List.append_cancel_left hall).symm

/-- The segments before a cut are those of the text before it. -/
theorem segmentsAfter_front {pending s p : Text} {front back : List Segment}
    (h : m.segmentsAfter pending s = front ++ back)
    (hp : front.flatMap Segment.content = pending ++ p) : m.segmentsAfter pending p = front := by
  fun_induction segmentsAfter m pending s generalizing p front with
  | case1 pending s ho =>
      refine segmentsAfter_front_of_text ?_ h hp
      rw [segmentsAfter_eq, ho]
  | case3 pending s before inside ho hliteral hc =>
      refine segmentsAfter_front_of_text ?_ h hp
      rw [segmentsAfter_eq, ho]
      dsimp only
      rw [if_neg hliteral, hc]
  | case2 pending s before inside ho hliteral ih =>
      by_cases hfront : front = []
      · subst hfront
        exact segmentsAfter_front_nil hp
      · have hne : pending ++ before ++ m.left ≠ [] := by simp [m.left_ne_nil]
        obtain ⟨u, hu⟩ := exists_flatMap_content_eq_append hne h hfront
        obtain rfl : p = before ++ m.left ++ u := by
          rw [hu, List.append_assoc pending, List.append_assoc pending] at hp
          exact (List.append_cancel_left hp).symm
        rw [eq_append_of_segmentsAfter_eq_append h hu] at ho hliteral
        rw [segmentsAfter_literal_of_append ho hliteral, ih h hu]
  | case4 pending s before inside ho hliteral body after hc hblank ih =>
      by_cases hfront : front = []
      · subst hfront
        exact segmentsAfter_front_nil hp
      · have hne : pending ++ before ++ m.left ++ body ++ m.right ≠ [] := by simp [m.left_ne_nil]
        obtain ⟨u, hu⟩ := exists_flatMap_content_eq_append hne h hfront
        obtain rfl : p = before ++ m.left ++ (body ++ m.right ++ u) := by
          refine List.append_cancel_left (hp.symm.trans ?_)
          rw [hu]
          simp
        rw [eq_append_of_segmentsAfter_eq_append h hu] at hc
        rw [segmentsAfter_closed_of_append pending ho hliteral hc, if_pos hblank, ih h hu]
  | case5 pending s before inside ho hliteral body after hc hblank ih =>
      -- The cut is before the tag, or some of the segments behind the tag are before the cut.
      have htext (hf : front = Segment.ofText (pending ++ before)) :
          m.segmentsAfter pending p = front := by
        rw [hf, Segment.flatMap_content_ofText] at hp
        rw [← List.append_cancel_left hp, hf, segmentsAfter_eq,
          breakAt_before_eq_none m.left_ne_nil ho]
      rcases List.append_eq_append_iff.1 h with ⟨behind, hfront, hbehind⟩ | ⟨gs, hgs, -⟩
      · cases behind with
        | nil => exact htext (by simpa using hfront)
        | cons g behind =>
            rw [List.cons_append, List.cons.injEq] at hbehind
            obtain ⟨rfl, hbehind⟩ := hbehind
            obtain rfl : p = before ++ m.left ++
                (body ++ m.right ++ behind.flatMap Segment.content) := by
              refine List.append_cancel_left (hp.symm.trans ?_)
              rw [hfront]
              simp [Segment.content]
            have hafter := eq_append_of_segmentsAfter_eq_append hbehind (List.nil_append _).symm
            rw [hafter] at hc
            rw [segmentsAfter_closed_of_append pending ho hliteral hc, if_neg hblank, hfront,
              ih hbehind (List.nil_append _).symm]
      · rcases Segment.ofText_eq_append hgs with rfl | rfl
        · exact segmentsAfter_front_nil hp
        · exact htext (by simpa using hgs.symm)

/-- A text that starts with a tag is split into the tag and what follows it. -/
theorem split_tag_append {inside body after : Text} (hliteral : ¬ m.isLiteralBeside inside.head?)
    (hc : m.closeTag inside = some (body, after)) (hblank : ¬ (trim body).isEmpty) :
    m.split (m.left ++ body ++ m.right ++ after) =
      .tag (m.left ++ body ++ m.right) :: m.split after := by
  have ho : breakAt m.left (m.left ++ inside) = some ([], inside) :=
    breakAt_eq_some_iff.2 ⟨rfl, fun _ _ _ => Nat.zero_le _⟩
  rw [← List.append_nil after] at hc
  have hsplit := segmentsAfter_closed_of_append [] ho hliteral hc
  rw [if_neg hblank] at hsplit
  simpa [split, Segment.ofText] using hsplit

/-- The segments behind a cut are those of the text behind it. -/
theorem split_back {pending s : Text} {front back : List Segment} (hfront : front ≠ [])
    (h : m.segmentsAfter pending s = front ++ back) :
    m.split (back.flatMap Segment.content) = back := by
  have hnil : m.split [] = [] := segmentsAfter_front_nil rfl
  fun_induction segmentsAfter m pending s generalizing front with
  | case1 | case3 =>
      rcases Segment.ofText_eq_append h with hf | rfl
      · exact absurd hf hfront
      · exact hnil
  | case2 _ _ _ _ _ _ ih => exact ih hfront h
  | case4 _ _ _ _ _ _ _ _ _ _ ih => exact ih hfront h
  | case5 pending s before inside _ hliteral body after hc hblank ih =>
      have htag (hb : back = .tag (m.left ++ body ++ m.right) :: m.split after) :
          m.split (back.flatMap Segment.content) = back := by
        rw [hb, List.flatMap_cons, flatMap_content_split]
        exact split_tag_append hliteral hc hblank
      rcases List.append_eq_append_iff.1 h with ⟨behind, -, hbehind⟩ | ⟨gs, hgs, hback⟩
      · cases behind with
        | nil => exact htag hbehind.symm
        | cons g behind =>
            rw [List.cons_append, List.cons.injEq] at hbehind
            by_cases hne : behind = []
            · rw [hne, List.nil_append] at hbehind
              rw [← hbehind.2]
              exact congrArg m.split (m.flatMap_content_split after)
            · exact ih hne hbehind.2
      · rcases Segment.ofText_eq_append hgs with hf | rfl
        · exact absurd hf hfront
        · exact htag hback

/-- A template that is cut between two of its segments is split into the segments before the cut and
those behind it. -/
theorem split_take_drop (m : Markup) (s : Text) (k : Nat) :
    m.split (((m.split s).take k).flatMap Segment.content) = (m.split s).take k ∧
      m.split (((m.split s).drop k).flatMap Segment.content) = (m.split s).drop k := by
  have hcut : m.split s = (m.split s).take k ++ (m.split s).drop k :=
    (List.take_append_drop k _).symm
  refine ⟨segmentsAfter_front hcut (List.nil_append _).symm, ?_⟩
  by_cases hfront : (m.split s).take k = []
  · have hall : (m.split s).drop k = m.split s := by rw [hfront] at hcut; exact hcut.symm
    rw [hall, flatMap_content_split]
  · exact split_back hfront hcut

end Boundaries

end Markup

end TemplateLint

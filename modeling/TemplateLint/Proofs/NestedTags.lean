import Mathlib.Data.List.Basic
import TemplateLint.Proofs.SplitSteps

/-!
# Well-nested tags

A tag whose body is well nested is one segment, however deep it goes. Inside a tag the splitter
counts the tags and the literal groups that are open and keeps no stack, so a right delimiter after
white space is counted for a literal group even where it closes a tag. What it counts still adds up:
the two numbers have the right sum, and that of the literal groups is never too large.
-/

namespace TemplateLint

namespace Markup

/-- The bodies that are built from characters of neither delimiter and from groups between
delimiters. A group that starts with white space, so that it opens as literal, ends with it too. -/
inductive IsBody (m : Markup) : Text → Prop where
  | nil : m.IsBody []
  | char {c : Char} {rest : Text} (hl : c ∉ m.left) (hr : c ∉ m.right) (hrest : m.IsBody rest) :
      m.IsBody (c :: rest)
  | group {inner rest : Text} (hinner : m.IsBody inner)
      (hliteral : m.isLiteralBeside inner.head? → m.isLiteralBeside inner.getLast?)
      (hrest : m.IsBody rest) : m.IsBody (m.left ++ inner ++ m.right ++ rest)

variable {m : Markup} {previous : Option Char} {depth literal : Nat}

theorem dropLeading?_right_left_append (hd : ∀ c ∈ m.left, c ∉ m.right) (s : Text) :
    dropLeading? m.right (m.left ++ s) = none := by
  have hhead : m.left = m.left.head m.left_ne_nil :: m.left.tail := by simp
  rw [hhead, List.cons_append]
  exact dropLeading?_cons_of_not_mem m.right_ne_nil (hd _ (List.head_mem _)) _

/-- White space after a left delimiter belongs to the group that it opens. -/
theorem isLiteralBeside_head?_append_right (hs : m.isLiteralBeside m.right.head? = false)
    (inner rest : Text) :
    m.isLiteralBeside (inner ++ (m.right ++ rest)).head? = m.isLiteralBeside inner.head? := by
  cases inner with
  | nil =>
      rw [List.nil_append, List.head?_append_of_ne_nil _ m.right_ne_nil, hs]
      simp [isLiteralBeside]
  | cons c inner => rfl

theorem isLiteralBeside_or {a : Option Char} (h : m.isLiteralBeside a) (b : Option Char) :
    m.isLiteralBeside (a.or b) := by
  cases a with
  | none => simp [isLiteralBeside] at h
  | some c => exact h

/-- A right delimiter takes one from the sum while something is open inside. After white space it
takes a literal group if there is one. -/
theorem closeNested_right_append (hopen : m.isLiteralBeside previous ∧ 0 < literal ∨ 0 < depth)
    (rest : Text) :
    ∃ depth' literal', depth' + literal' + 1 = depth + literal ∧ literal' ≤ literal ∧
      (m.isLiteralBeside previous → literal' ≤ literal - 1) ∧
      m.closeNested previous depth literal (m.right ++ rest) =
        (m.closeNested m.right.getLast? depth' literal' rest).map fun p =>
          (m.right ++ p.1, p.2) := by
  rw [closeNested_right (dropLeading?_self_append m.right rest)]
  by_cases h : literal > 0 && m.isLiteralBeside previous
  · have hpos : 0 < literal := by simp at h; exact h.1
    rw [if_pos h]
    exact ⟨depth, literal - 1, by omega, by omega, fun _ => by omega, rfl⟩
  · have hzero : m.isLiteralBeside previous → literal = 0 := by
      intro hp
      simp only [hp, Bool.and_true, decide_eq_true_eq] at h
      omega
    have hdepth : 0 < depth := by
      rcases hopen with ⟨hp, hpos⟩ | hpos
      · have := hzero hp
        omega
      · exact hpos
    obtain ⟨n, rfl⟩ : ∃ n, depth = n + 1 := ⟨depth - 1, by omega⟩
    rw [if_neg h]
    exact ⟨n, literal, by omega, by omega, fun hp => by have := hzero hp; omega, rfl⟩

/-- Whether a text inside a tag is passed over, whatever is open around it: it closes nothing of
that, although a tag in it can be counted where a literal group was. -/
def PassesOver (m : Markup) (body : Text) : Prop :=
  ∀ previous depth literal rest, ∃ depth' literal',
    depth' + literal' = depth + literal ∧ literal' ≤ literal ∧
      m.closeNested previous depth literal (body ++ rest) =
        (m.closeNested (body.getLast?.or previous) depth' literal' rest).map fun p =>
          (body ++ p.1, p.2)

theorem PassesOver.append {s t : Text} (hs : m.PassesOver s) (ht : m.PassesOver t) :
    m.PassesOver (s ++ t) := by
  intro previous depth literal rest
  obtain ⟨depth₁, literal₁, hsum₁, hle₁, hfirst⟩ := hs previous depth literal (t ++ rest)
  obtain ⟨depth₂, literal₂, hsum₂, hle₂, hsecond⟩ :=
    ht (s.getLast?.or previous) depth₁ literal₁ rest
  refine ⟨depth₂, literal₂, by omega, by omega, ?_⟩
  rw [List.append_assoc, hfirst, hsecond, List.getLast?_append, Option.or_assoc]
  simp [Option.map_map, Function.comp_def]

theorem passesOver_singleton {c : Char} (hl : c ∉ m.left) (hr : c ∉ m.right) :
    m.PassesOver [c] := by
  intro previous depth literal rest
  refine ⟨depth, literal, rfl, Nat.le_refl _, ?_⟩
  rw [List.singleton_append, closeNested_cons (dropLeading?_cons_of_not_mem m.right_ne_nil hr _)
    (dropLeading?_cons_of_not_mem m.left_ne_nil hl _)]
  rfl

theorem passesOver_group (hd : ∀ c ∈ m.left, c ∉ m.right)
    (hs : m.isLiteralBeside m.right.head? = false) {inner : Text} (hinner : m.PassesOver inner)
    (hliteral : m.isLiteralBeside inner.head? → m.isLiteralBeside inner.getLast?) :
    m.PassesOver (m.left ++ inner ++ m.right) := by
  intro previous depth literal rest
  have hlast : (m.left ++ inner ++ m.right).getLast?.or previous = m.right.getLast? := by
    rw [List.getLast?_append_of_ne_nil _ m.right_ne_nil,
      List.getLast?_eq_some_getLast m.right_ne_nil, Option.some_or]
  have hleft : m.closeNested previous depth literal (m.left ++ inner ++ m.right ++ rest) =
      if m.isLiteralBeside inner.head? then
        (m.closeNested m.left.getLast? depth (literal + 1) (inner ++ (m.right ++ rest))).map
          fun p => (m.left ++ p.1, p.2)
      else
        (m.closeNested m.left.getLast? (depth + 1) literal (inner ++ (m.right ++ rest))).map
          fun p => (m.left ++ p.1, p.2) := by
    rw [List.append_assoc, List.append_assoc,
      closeNested_left (dropLeading?_right_left_append hd _) (dropLeading?_self_append m.left _),
      isLiteralBeside_head?_append_right hs]
  rw [hleft, hlast]
  by_cases h : m.isLiteralBeside inner.head?
  · obtain ⟨depth₁, literal₁, hsum₁, hle₁, hinside⟩ :=
      hinner m.left.getLast? depth (literal + 1) (m.right ++ rest)
    -- The group ends in white space, so a literal group is closed unless none is left to close.
    have hspace := isLiteralBeside_or (hliteral h) m.left.getLast?
    have hopen : m.isLiteralBeside (inner.getLast?.or m.left.getLast?) ∧ 0 < literal₁ ∨
        0 < depth₁ := by
      by_cases hpos : 0 < literal₁
      · exact Or.inl ⟨hspace, hpos⟩
      · exact Or.inr (by omega)
    obtain ⟨depth₂, literal₂, hsum₂, -, hle₂, hclose⟩ := closeNested_right_append hopen rest
    have hless := hle₂ hspace
    refine ⟨depth₂, literal₂, by omega, by omega, ?_⟩
    rw [if_pos h, hinside, hclose]
    simp [Option.map_map, Function.comp_def]
  · obtain ⟨depth₁, literal₁, hsum₁, hle₁, hinside⟩ :=
      hinner m.left.getLast? (depth + 1) literal (m.right ++ rest)
    have hopen : m.isLiteralBeside (inner.getLast?.or m.left.getLast?) ∧ 0 < literal₁ ∨
        0 < depth₁ := Or.inr (by omega)
    obtain ⟨depth₂, literal₂, hsum₂, hle₂, -, hclose⟩ := closeNested_right_append hopen rest
    refine ⟨depth₂, literal₂, by omega, by omega, ?_⟩
    rw [if_neg h, hinside, hclose]
    simp [Option.map_map, Function.comp_def]

theorem IsBody.passesOver {body : Text} (h : m.IsBody body) (hd : ∀ c ∈ m.left, c ∉ m.right)
    (hs : m.isLiteralBeside m.right.head? = false) : m.PassesOver body := by
  induction h with
  | nil =>
      intro previous depth literal rest
      exact ⟨depth, literal, rfl, Nat.le_refl _, by simp⟩
  | char hl hr _ ih => exact (passesOver_singleton hl hr).append ih
  | group _ hliteral _ ihinner ihrest =>
      exact (passesOver_group hd hs ihinner hliteral).append ihrest

theorem IsBody.closeTag_append {body : Text} (h : m.IsBody body) (hd : ∀ c ∈ m.left, c ∉ m.right)
    (hs : m.isLiteralBeside m.right.head? = false) (hne : body ≠ []) (hstar : body.head? ≠ some '*')
    (after : Text) : m.closeTag (body ++ (m.right ++ after)) = some (body, after) := by
  obtain ⟨depth, literal, hsum, -, hclose⟩ :=
    h.passesOver hd hs m.left.getLast? 0 0 (m.right ++ after)
  obtain ⟨rfl, rfl⟩ : depth = 0 ∧ literal = 0 := by omega
  rw [closeTag, List.head?_append_of_ne_nil _ hne, if_neg hstar, hclose,
    closeNested_right (dropLeading?_self_append m.right after)]
  simp

/-- A tag with a well-nested body is one segment between the text before it and the segments after
it. The delimiters share no character, and the right one does not start with white space. -/
theorem split_nested_tag (hd : ∀ c ∈ m.left, c ∉ m.right)
    (hs : m.isLiteralBeside m.right.head? = false) {body : Text} (hbody : m.IsBody body)
    (hblank : ∃ c ∈ body, isBlank c = false) (hstar : body.head? ≠ some '*')
    (hliteral : m.isLiteralBeside body.head? = false) (text : Text)
    (htext : ∀ c ∈ text, c ∉ m.left) (after : Text) :
    m.split (text ++ m.left ++ body ++ m.right ++ after) =
      Segment.ofText text ++ .tag (m.left ++ body ++ m.right) :: m.split after := by
  have hne : body ≠ [] := by
    rintro rfl
    obtain ⟨c, hc, -⟩ := hblank
    exact absurd hc List.not_mem_nil
  have htrim : ¬ (trim body).isEmpty := by
    rw [List.isEmpty_iff, trim_eq_nil_iff]
    intro hall
    obtain ⟨c, hc, hnot⟩ := hblank
    rw [hall c hc] at hnot
    exact Bool.noConfusion hnot
  have hopen : breakAt m.left (text ++ (m.left ++ (body ++ (m.right ++ after)))) =
      some (text, body ++ (m.right ++ after)) :=
    breakAt_append_of_disjoint m.left_ne_nil htext _
  have hhead : m.isLiteralBeside (body ++ (m.right ++ after)).head? = false := by
    rw [isLiteralBeside_head?_append_right hs, hliteral]
  have hclose := hbody.closeTag_append hd hs hne hstar after
  simp only [List.append_assoc] at *
  rw [split, segmentsAfter_eq, hopen]
  dsimp only
  rw [hhead, if_neg Bool.false_ne_true, hclose]
  dsimp only
  rw [if_neg htrim, List.nil_append, List.append_assoc]
  rfl

/-- A literal group, and in it a tag that ends in white space: the right delimiter of the inner tag
is counted for the group, and that of the group for the tag. -/
theorem split_nested_tag_in_literal_group :
    let m : Markup := ⟨⟨"[[".toList, "]]".toList, by decide, by decide⟩, true⟩
    m.IsBody "a[[ b [[c ]] ]]".toList ∧
      m.split "x[[a[[ b [[c ]] ]]]]y".toList =
        [.text "x".toList, .tag "[[a[[ b [[c ]] ]]]]".toList, .text "y".toList] := by
  intro m
  have hinner : m.IsBody ['c', ' '] :=
    .char (by decide) (by decide) (.char (by decide) (by decide) .nil)
  have hrest : m.IsBody (m.left ++ ['c', ' '] ++ m.right ++ [' ']) :=
    .group hinner (by decide) (.char (by decide) (by decide) .nil)
  have hgroup : m.IsBody (' ' :: 'b' :: ' ' :: (m.left ++ ['c', ' '] ++ m.right ++ [' '])) :=
    .char (by decide) (by decide) (.char (by decide) (by decide) (.char (by decide) (by decide)
      hrest))
  have hbody : m.IsBody "a[[ b [[c ]] ]]".toList :=
    .char (by decide) (by decide) (.group hgroup (by decide) .nil)
  have hafter : m.split ['y'] = [.text ['y']] := by decide +kernel
  have hsplit := split_nested_tag (m := m) (by simp [m, left, right]) (by decide) hbody
    ⟨'a', by decide, by decide⟩ (by decide) (by decide) ['x'] (by simp [m, left]) ['y']
  rw [hafter] at hsplit
  exact ⟨hbody, hsplit⟩

end Markup

end TemplateLint

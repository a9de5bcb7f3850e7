import TemplateLint.Proofs.OffsetScanner
import TemplateLint.Proofs.SplitSteps

/-!
# Scanning by offsets never goes wrong

Over the bytes of a text, every offset at which the scanner cuts is the length of a part of the
text, so it lies between two characters: a search among the bytes finds a text where it occurs, and
nowhere inside a character. With that, each turn of its loops does what the scanner of texts does in
one step, and the checks of the offset scanner never fail.
-/

namespace TemplateLint

open Utf8

private theorem ok_bind {ε α β : Type} (a : α) (f : α → Except ε β) : (Except.ok a >>= f) = f a :=
  rfl

namespace Utf8

theorem length_encode_append (s t : Text) :
    (encode (s ++ t)).length = (encode s).length + (encode t).length := by
  rw [encode_append, List.length_append]

theorem length_encode_lt_append (s : Text) {t : Text} (hne : t ≠ []) :
    (encode s).length < (encode (s ++ t)).length := by
  have hpos := length_encode_pos hne
  rw [length_encode_append]
  omega

theorem isBoundary_encode (s t : Text) : isBoundary (encode (s ++ t)) (encode s).length := by
  rw [encode_append, isBoundary]
  cases t with
  | nil => simp [encode]
  | cons c t =>
      obtain ⟨b, bs, hbs, hlead, -⟩ := exists_encodeChar c
      have hget : (encode s ++ encode (c :: t))[(encode s).length]? = some b := by
        rw [List.getElem?_append_right (Nat.le_refl _), Nat.sub_self, encode_cons, hbs]
        rfl
      simp [hget, hlead]

theorem slice_encode (p q r : Text) :
    slice (encode (p ++ q ++ r)) (encode p).length (encode (p ++ q)).length = .ok (encode q) := by
  have hlo := isBoundary_encode p (q ++ r)
  have hhi := isBoundary_encode (p ++ q) r
  have hle : (encode p).length ≤ (encode (p ++ q)).length := by
    rw [length_encode_append]
    omega
  rw [← List.append_assoc] at hlo
  rw [slice, if_pos ⟨hle, hlo, hhi⟩, encode_append (p ++ q), List.take_left, encode_append p,
    List.drop_left]

-- A slice that starts inside a character is not one of these.
example : slice (encode ['a', 'é', 'b']) 2 4 = .error (.slice 2 4) := by decide

theorem slice_encode_behind (p q : Text) :
    slice (encode (p ++ q)) (encode p).length (encode (p ++ q)).length = .ok (encode q) := by
  simpa using slice_encode p q []

theorem slice_encode_before (p q : Text) :
    slice (encode (p ++ q)) 0 (encode p).length = .ok (encode p) := by
  simpa [encode] using slice_encode [] p q

theorem difference_add_right (a b : Nat) : difference (a + b) b = .ok a := by
  rw [difference, if_pos (Nat.le_add_left b a), Nat.add_sub_cancel]

theorem indexOfSlice?_encode {needle : Text} (hne : needle ≠ []) (s : Text) :
    indexOfSlice? (encode needle) (encode s) =
      (breakAt needle s).map fun p => (encode p.1).length := by
  rw [indexOfSlice?, breakAt_encode hne, Option.map_map]
  rfl

/-- A search among the bytes finds a text exactly at its first occurrence. -/
theorem indexOfSlice?_encode_eq_some_iff {needle : Text} (hne : needle ≠ []) {s : Text} {k : Nat} :
    indexOfSlice? (encode needle) (encode s) = some k ↔
      ∃ a b, s = a ++ needle ++ b ∧ (∀ a' b', s = a' ++ needle ++ b' → a <+: a') ∧
        k = (encode a).length := by
  rw [indexOfSlice?_encode hne, Option.map_eq_some_iff]
  constructor
  · rintro ⟨⟨a, b⟩, hbreak, rfl⟩
    exact ⟨a, b, eq_of_breakAt hbreak, fun a' b' hs => prefix_of_breakAt hbreak hs, rfl⟩
  · rintro ⟨a, b, hs, hfirst, rfl⟩
    refine ⟨(a, b), breakAt_eq_some_iff.2 ⟨hs, fun a' b' hs' => ?_⟩, rfl⟩
    exact (hfirst a' b' hs').length_le

theorem indexOfSlice?_encode_eq_none_iff {needle : Text} (hne : needle ≠ []) {s : Text} :
    indexOfSlice? (encode needle) (encode s) = none ↔ ¬ needle <:+: s := by
  rw [indexOfSlice?_encode hne, Option.map_eq_none_iff, breakAt_eq_none_iff]

/-- Searching bytes respects characters. The bytes of a text that is not empty are found among those
of another exactly when it occurs there; the offset is the length of what stands before its first
occurrence, and the match starts and ends between two characters. -/
theorem byte_search_respects_characters {needle : Text} (hne : needle ≠ []) (s : Text) :
    ((∃ k, indexOfSlice? (encode needle) (encode s) = some k) ↔ ∃ a b, s = a ++ needle ++ b) ∧
    ∀ k, indexOfSlice? (encode needle) (encode s) = some k →
      (∃ a b, s = a ++ needle ++ b ∧ (∀ a' b', s = a' ++ needle ++ b' → a <+: a') ∧
        k = (encode a).length) ∧
      isBoundary (encode s) k ∧ isBoundary (encode s) (k + (encode needle).length) := by
  constructor
  · rw [← Option.isSome_iff_exists, ← Option.ne_none_iff_isSome, Ne,
      indexOfSlice?_encode_eq_none_iff hne, not_not]
    constructor
    · rintro ⟨a, b, hs⟩
      exact ⟨a, b, hs.symm⟩
    · rintro ⟨a, b, hs⟩
      exact ⟨a, b, hs.symm⟩
  · intro k hk
    obtain ⟨a, b, hs, hfirst, hlength⟩ := (indexOfSlice?_encode_eq_some_iff hne).1 hk
    have hstart := isBoundary_encode a (needle ++ b)
    have hstop := isBoundary_encode (a ++ needle) b
    rw [← List.append_assoc, ← hs, ← hlength] at hstart
    rw [← hs, length_encode_append, ← hlength] at hstop
    exact ⟨⟨a, b, hs, hfirst, hlength⟩, hstart, hstop⟩

theorem byte_search_respects_characters_shared_bytes :
    let needle : Text := ['é']
    let s : Text := ['Ã', '©', 'é', 'é']
    needle ≠ [] ∧ indexOfSlice? (encode needle) (encode s) = some 4 ∧
      (∃ a b, s = a ++ needle ++ b ∧ (∀ a' b', s = a' ++ needle ++ b' → a <+: a') ∧
        4 = (encode a).length) ∧
      isBoundary (encode s) 4 ∧ isBoundary (encode s) 6 ∧ isBoundary (encode s) 5 = false := by
  intro needle s
  have hne : needle ≠ [] := List.cons_ne_nil _ _
  -- Each byte of `é` is one of the bytes before it already, as the start or the end of a character.
  have hfound : indexOfSlice? (encode needle) (encode s) = some 4 := by decide
  obtain ⟨hfirst, hstart, hstop⟩ := (byte_search_respects_characters hne s).2 4 hfound
  exact ⟨hne, hfound, hfirst, hstart, hstop, by decide⟩

end Utf8

namespace Markup

variable {m : Markup}

section NestedTurns

variable {s rest : Text}

theorem isLiteralRight_encode (p s : Text) (literal : Nat) :
    m.isLiteralRight (encode (p ++ s)) literal (encode p).length =
      .ok (literal > 0 && m.isLiteralBeside p.getLast?) := by
  rw [isLiteralRight]
  split
  next hpos =>
    rw [slice_encode_before]
    simp [Except.map, decodeLossy_encode, hpos]
  next hpos => simp [hpos]

theorem nestedTurn_right (p : Text) (depth literal : Nat) (h : dropLeading? m.right s = some rest) :
    m.nestedTurn (encode (p ++ s)) (depth + 1) literal (encode p).length =
      .ok (if literal > 0 && m.isLiteralBeside p.getLast? then
          .next (depth + 1) (literal - 1) (encode (p ++ m.right)).length
        else match depth with
          | 0 => .closed (encode (p ++ m.right)).length
          | depth + 1 => .next (depth + 1) literal (encode (p ++ m.right)).length) := by
  have hright : (dropLeading? (encode m.right) (encode s)).isSome := by
    rw [dropLeading?_encode, h]
    rfl
  rw [nestedTurn, slice_encode_behind, ok_bind, if_pos hright, isLiteralRight_encode, ok_bind,
    ← length_encode_append]
  split
  next hlit =>
    have hpos : 1 ≤ literal := by
      simp only [Bool.and_eq_true, decide_eq_true_eq] at hlit
      omega
    rw [difference, if_pos hpos]
    rfl
  next hlit =>
    rw [difference_add_right, ok_bind]
    cases depth with
    | zero => rfl
    | succ depth => rfl

theorem nestedTurn_left (p : Text) (depth literal : Nat) (hr : dropLeading? m.right s = none)
    (hl : dropLeading? m.left s = some rest) :
    m.nestedTurn (encode (p ++ s)) depth literal (encode p).length =
      .ok (if m.isLiteralBeside rest.head? then
          .next depth (literal + 1) (encode (p ++ m.left)).length
        else .next (depth + 1) literal (encode (p ++ m.left)).length) := by
  have hright : ¬ (dropLeading? (encode m.right) (encode s)).isSome := by
    rw [dropLeading?_encode, hr]
    exact Bool.false_ne_true
  have hleft : (dropLeading? (encode m.left) (encode s)).isSome := by
    rw [dropLeading?_encode, hl]
    rfl
  have hinside : slice (encode (p ++ s)) (encode (p ++ m.left)).length (encode (p ++ s)).length =
      .ok (encode rest) := by
    rw [eq_append_of_dropLeading? hl, ← List.append_assoc]
    exact slice_encode_behind _ _
  rw [nestedTurn, slice_encode_behind, ok_bind, if_neg hright, if_pos hleft]
  dsimp only
  rw [← length_encode_append, hinside, ok_bind, decodeLossy_encode]
  rfl

theorem nestedTurn_cons (p : Text) (depth literal : Nat) {c : Char}
    (hr : dropLeading? m.right (c :: s) = none) (hl : dropLeading? m.left (c :: s) = none) :
    m.nestedTurn (encode (p ++ c :: s)) depth literal (encode p).length =
      .ok (.next depth literal (encode (p ++ [c])).length) := by
  have hright : ¬ (dropLeading? (encode m.right) (encode (c :: s))).isSome := by
    rw [dropLeading?_encode, hr]
    exact Bool.false_ne_true
  have hleft : ¬ (dropLeading? (encode m.left) (encode (c :: s))).isSome := by
    rw [dropLeading?_encode, hl]
    exact Bool.false_ne_true
  have hwidth : c.utf8Size = (encode [c]).length := by simp [encode]
  rw [nestedTurn, slice_encode_behind, ok_bind, if_neg hright, if_neg hleft, decodeLossy_encode,
    length_encode_append, ← hwidth]
  rfl

end NestedTurns

/-- A turn that reads `t` and goes on gets further, and what is found behind `t` is the answer. -/
theorem nestedEnd_of_next {p s t rest : Text} {depth literal depth' literal' : Nat}
    {closing : Option (Text × Text)} (hs : s = t ++ rest) (hne : t ≠ [])
    (hturn : m.nestedTurn (encode (p ++ s)) depth literal (encode p).length =
      .ok (.next depth' literal' (encode (p ++ t)).length))
    (hrest : m.nestedEnd (encode (p ++ t ++ rest)) depth' literal' (encode (p ++ t)).length =
      .ok (closing.map fun q => (encode (p ++ t ++ q.1 ++ m.right)).length)) :
    m.nestedEnd (encode (p ++ s)) depth literal (encode p).length =
      .ok ((closing.map fun q => (t ++ q.1, q.2)).map
        fun q => (encode (p ++ q.1 ++ m.right)).length) := by
  subst hs
  have hin : (encode p).length < (encode (p ++ (t ++ rest))).length :=
    length_encode_lt_append p (by simp [hne])
  rw [nestedEnd, dif_pos hin, hturn]
  dsimp only
  rw [dif_pos (length_encode_lt_append p hne), ← List.append_assoc, hrest, Option.map_map]
  simp [Function.comp_def]

/-- The search for the end of a tag goes as far in the bytes as it does in the text. -/
theorem nestedEnd_encode (p s : Text) (depth literal : Nat) :
    m.nestedEnd (encode (p ++ s)) (depth + 1) literal (encode p).length =
      .ok ((m.closeNested p.getLast? depth literal s).map
        fun q => (encode (p ++ q.1 ++ m.right)).length) := by
  -- The text `p` in front grows from turn to turn, and a turn sees no more of it than its last
  -- character.
  generalize hprevious : p.getLast? = previous
  fun_induction closeNested m previous depth literal s generalizing p with
  | case1 previous depth literal s rest hr hliteral ih =>
      have hturn := nestedTurn_right p depth literal hr
      rw [hprevious, if_pos hliteral] at hturn
      exact nestedEnd_of_next (eq_append_of_dropLeading? hr) m.right_ne_nil hturn
        (ih _ (List.getLast?_append_of_ne_nil p m.right_ne_nil))
  | case2 previous literal s rest hr hliteral =>
      have hturn := nestedTurn_right p 0 literal hr
      rw [hprevious, if_neg hliteral] at hturn
      have hin : (encode p).length < (encode (p ++ s)).length :=
        length_encode_lt_append p (by simp [eq_append_of_dropLeading? hr, m.right_ne_nil])
      rw [nestedEnd, dif_pos hin, hturn]
      simp
  | case3 previous literal s rest hr hliteral depth ih =>
      have hturn := nestedTurn_right p (depth + 1) literal hr
      rw [hprevious, if_neg hliteral] at hturn
      exact nestedEnd_of_next (eq_append_of_dropLeading? hr) m.right_ne_nil hturn
        (ih _ (List.getLast?_append_of_ne_nil p m.right_ne_nil))
  | case4 previous depth literal s hr rest hl hliteral ih =>
      have hturn := nestedTurn_left p (depth + 1) literal hr hl
      rw [if_pos hliteral] at hturn
      exact nestedEnd_of_next (eq_append_of_dropLeading? hl) m.left_ne_nil hturn
        (ih _ (List.getLast?_append_of_ne_nil p m.left_ne_nil))
  | case5 previous depth literal s hr rest hl hliteral ih =>
      have hturn := nestedTurn_left p (depth + 1) literal hr hl
      rw [if_neg hliteral] at hturn
      exact nestedEnd_of_next (eq_append_of_dropLeading? hl) m.left_ne_nil hturn
        (ih _ (List.getLast?_append_of_ne_nil p m.left_ne_nil))
  | case6 =>
      rw [nestedEnd, dif_neg (by simp)]
      rfl
  | case7 previous depth literal c rest hr hl ih =>
      have hturn := nestedTurn_cons p (depth + 1) literal hr hl
      exact nestedEnd_of_next rfl (List.cons_ne_nil c []) hturn
        (ih _ (List.getLast?_append_of_ne_nil p (List.cons_ne_nil c [])))

theorem tagEnd_encode (p s : Text) :
    m.tagEnd (encode (p ++ m.left ++ s)) (encode (p ++ m.left)).length =
      .ok ((m.closeTag s).map fun q => (encode (p ++ m.left ++ q.1 ++ m.right)).length) := by
  rw [tagEnd, slice_encode_behind, ok_bind, decodeLossy_encode, closeTag]
  split
  next hstar =>
    dsimp only
    rw [indexOfSlice?_encode (List.cons_ne_nil _ _), Option.map_map, Option.map_map]
    have hlength (body : Text) :
        (encode (p ++ m.left)).length + (encode body).length + (encode ('*' :: m.right)).length =
          (encode (p ++ m.left ++ (body ++ ['*']) ++ m.right)).length := by
      rw [← length_encode_append, ← length_encode_append]
      simp
    simp only [Function.comp_def, hlength]
    rfl
  next hstar => rw [nestedEnd_encode, List.getLast?_append_of_ne_nil p m.left_ne_nil]

theorem textBetween_encode (p q r : Text) :
    textBetween (encode (p ++ q ++ r)) (encode p).length (encode (p ++ q)).length =
      .ok ((Segment.ofText q).map Segment.encode) := by
  rw [textBetween, Segment.ofText]
  by_cases hq : q = []
  · subst hq
    simp
  · rw [if_pos (length_encode_lt_append p hq), slice_encode, if_neg hq]
    rfl

/-- One turn of the search for tags, when `front` is cut up and `pending` belongs to no tag. -/
theorem splitTurn_encode (front pending s : Text) :
    m.splitTurn (encode (front ++ pending ++ s)) (encode front).length
        (encode (front ++ pending)).length =
      .ok (match breakAt m.left s with
        | none => .last
        | some (before, inside) =>
            if m.isLiteralBeside inside.head? then
              .next [] (encode front).length
                (encode (front ++ (pending ++ before ++ m.left))).length
            else
              match m.closeTag inside with
              | none => .last
              | some (body, _) =>
                  let stop :=
                    (encode (front ++ (pending ++ before ++ m.left ++ body ++ m.right))).length
                  if (trim body).isEmpty then .next [] (encode front).length stop
                  else .next ((Segment.ofText (pending ++ before) ++
                    [Segment.tag (m.left ++ body ++ m.right)]).map Segment.encode) stop stop) := by
  rw [splitTurn, slice_encode_behind, ok_bind, indexOfSlice?_encode m.left_ne_nil]
  cases hbreak : breakAt m.left s with
  | none => rfl
  | some cut =>
      obtain ⟨before, inside⟩ := cut
      obtain rfl := eq_of_breakAt hbreak
      rw [Option.map_some]
      -- Every offset of the turn becomes the length of what stands before it.
      simp only [← List.append_assoc, ← length_encode_append]
      rw [slice_encode_behind, ok_bind, decodeLossy_encode]
      split
      next => rfl
      next =>
        rw [tagEnd_encode, ok_bind]
        cases hclose : m.closeTag inside with
        | none => rfl
        | some parts =>
            obtain ⟨body, after⟩ := parts
            obtain rfl := eq_of_closeTag hclose
            rw [Option.map_some]
            dsimp only
            have hbody :=
              slice_encode (front ++ pending ++ before ++ m.left) body (m.right ++ after)
            have htext := textBetween_encode front (pending ++ before)
              (m.left ++ body ++ m.right ++ after)
            have htag := slice_encode (front ++ pending ++ before) (m.left ++ body ++ m.right) after
            have hdifference := difference_add_right
              (encode (front ++ pending ++ before ++ m.left ++ body)).length (encode m.right).length
            rw [← length_encode_append] at hdifference
            simp only [← List.append_assoc] at hbody htext htag ⊢
            rw [hdifference, ok_bind, hbody, ok_bind, decodeLossy_encode]
            split
            next => rfl
            next =>
              rw [htext, ok_bind, htag, ok_bind, List.map_append]
              rfl

theorem splitFrom_of_last {front pending s : Text}
    (hturn : m.splitTurn (encode (front ++ pending ++ s)) (encode front).length
      (encode (front ++ pending)).length = .ok .last) :
    m.splitFrom (encode (front ++ pending ++ s)) (encode front).length
        (encode (front ++ pending)).length =
      .ok ((Segment.ofText (pending ++ s)).map Segment.encode) := by
  rw [splitFrom, hturn]
  simpa using textBetween_encode front (pending ++ s) []

/-- A turn that reads `t` and goes on gets further, and not too far. -/
theorem splitFrom_of_next {front pending s t q rest : Text} {textStart : Nat}
    {found segments all : List ByteSegment} (hs : s = t ++ rest) (hne : t ≠ [])
    (hq : q = pending ++ t)
    (hturn : m.splitTurn (encode (front ++ pending ++ s)) (encode front).length
      (encode (front ++ pending)).length = .ok (.next found textStart (encode (front ++ q)).length))
    (hrest : m.splitFrom (encode (front ++ q ++ rest)) textStart (encode (front ++ q)).length =
      .ok segments)
    (hall : found ++ segments = all) :
    m.splitFrom (encode (front ++ pending ++ s)) (encode front).length
      (encode (front ++ pending)).length = .ok all := by
  subst hs hq hall
  have hnext : (encode (front ++ pending)).length < (encode (front ++ (pending ++ t))).length := by
    rw [← List.append_assoc]
    exact length_encode_lt_append _ hne
  have hin : (encode (front ++ (pending ++ t))).length ≤
      (encode (front ++ pending ++ (t ++ rest))).length := by
    simp only [length_encode_append]
    omega
  have hsource : front ++ (pending ++ t) ++ rest = front ++ pending ++ (t ++ rest) := by simp
  rw [hsource] at hrest
  rw [splitFrom, hturn]
  dsimp only
  rw [dif_pos ⟨hnext, hin⟩, hrest]
  rfl

/-- The search for tags finds in the bytes what it finds in the text. -/
theorem splitFrom_encode (front pending s : Text) :
    m.splitFrom (encode (front ++ pending ++ s)) (encode front).length
        (encode (front ++ pending)).length =
      .ok ((m.segmentsAfter pending s).map Segment.encode) := by
  fun_induction segmentsAfter m pending s generalizing front with
  | case1 pending s hbreak =>
      have hturn := splitTurn_encode (m := m) front pending s
      simp only [hbreak] at hturn
      exact splitFrom_of_last hturn
  | case2 pending s before inside hbreak hliteral ih =>
      have hturn := splitTurn_encode (m := m) front pending s
      simp only [hbreak, if_pos hliteral] at hturn
      exact splitFrom_of_next (eq_of_breakAt hbreak) (by simp [m.left_ne_nil])
        (List.append_assoc _ _ _) hturn (ih front) rfl
  | case3 pending s before inside hbreak hliteral hclose =>
      have hturn := splitTurn_encode (m := m) front pending s
      simp only [hbreak, if_neg hliteral, hclose] at hturn
      exact splitFrom_of_last hturn
  | case4 pending s before inside hbreak hliteral body after hclose hblank ih =>
      have hturn := splitTurn_encode (m := m) front pending s
      simp only [hbreak, if_neg hliteral, hclose, if_pos hblank] at hturn
      have hs : s = before ++ m.left ++ body ++ m.right ++ after := by
        rw [eq_of_breakAt hbreak, eq_of_closeTag hclose]
        simp
      exact splitFrom_of_next hs (by simp [m.left_ne_nil]) (by simp) hturn (ih front) rfl
  | case5 pending s before inside hbreak hliteral body after hclose hblank ih =>
      have hturn := splitTurn_encode (m := m) front pending s
      simp only [hbreak, if_neg hliteral, hclose, if_neg hblank] at hturn
      have hs : s = before ++ m.left ++ body ++ m.right ++ after := by
        rw [eq_of_breakAt hbreak, eq_of_closeTag hclose]
        simp
      have hrest := ih (front ++ (pending ++ before ++ m.left ++ body ++ m.right))
      rw [List.append_nil] at hrest
      exact splitFrom_of_next hs (by simp [m.left_ne_nil]) (by simp) hturn hrest (by simp)

end Markup

namespace Lexeme

/-- A comment covers its opener, although its closer is searched for from the dashes of the opener
on. -/
theorem length_opener_le (rest : Text) :
    (encode commentOpener).length ≤ (encode (htmlComment (commentOpener ++ rest)).1).length := by
  have hopener : (encode commentOpener).length = 4 := rfl
  rw [htmlComment]
  split
  next inner after hbreak =>
    have htake : (encode ((commentOpener ++ rest).take 2)).length = 2 := rfl
    have hcloser : (encode commentCloser).length = 3 := rfl
    simp only [length_encode_append]
    omega
  next hbreak =>
    rw [length_encode_append]
    omega

/-- The search for the end of an HTML comment goes as far in the bytes as it does in the text. -/
theorem commentEnd_encode (before rest : Text) :
    commentEnd (encode (before ++ commentOpener ++ rest)) (encode before).length
        (encode (before ++ commentOpener)).length =
      .ok (encode (before ++ (htmlComment (commentOpener ++ rest)).1)).length := by
  have htext : before ++ commentOpener ++ rest =
      before ++ "<!".toList ++ ("--".toList ++ rest) := by
    simp [commentOpener]
  -- The search starts inside the opener, between `<!` and the dashes.
  have hsearch : (encode before).length + 2 = (encode (before ++ "<!".toList)).length := by
    rw [length_encode_append]
    rfl
  have hbehind : ((breakAt commentCloser ("--".toList ++ rest)).map
        fun p => (encode p.1).length).elim (encode (before ++ commentOpener ++ rest)).length
          (fun position => (encode (before ++ "<!".toList)).length + position + 3) =
      (encode (before ++ (htmlComment (commentOpener ++ rest)).1)).length := by
    have hdrop : (commentOpener ++ rest).drop 2 = "--".toList ++ rest := rfl
    have htake : (commentOpener ++ rest).take 2 = "<!".toList := rfl
    have hcloser : 3 = (encode commentCloser).length := rfl
    rw [htmlComment, hdrop, htake]
    cases breakAt commentCloser ("--".toList ++ rest) with
    | none => simp
    | some cut => simp [hcloser, ← length_encode_append]
  have hcovers : (encode (before ++ commentOpener)).length ≤
      (encode (before ++ (htmlComment (commentOpener ++ rest)).1)).length := by
    have hle := length_opener_le rest
    rw [length_encode_append, length_encode_append]
    omega
  have hcomment := slice_encode before (htmlComment (commentOpener ++ rest)).1
    (htmlComment (commentOpener ++ rest)).2
  rw [List.append_assoc, htmlComment_append, ← List.append_assoc] at hcomment
  rw [commentEnd]
  dsimp only
  rw [hsearch, htext, slice_encode_behind, ok_bind, ← htext, indexOfSlice?_encode (by decide),
    hbehind, difference, if_pos hcovers, ok_bind, Nat.add_sub_cancel' hcovers, hcomment]
  rfl

end Lexeme

/-- Over the bytes of any text, none of the checks of the offset scanner fails, and it finds what
the scanner of texts finds: the segments of a template, and in each text the end of an HTML comment
wherever one is opened. -/
theorem Markup.splitBytes_commentEnd_ok (m : Markup) :
    (∀ s, m.splitBytes (encode s) = .ok ((m.split s).map Segment.encode)) ∧
    ∀ before rest, Lexeme.commentEnd (encode (before ++ Lexeme.commentOpener ++ rest))
        (encode before).length (encode (before ++ Lexeme.commentOpener)).length =
      .ok (encode (before ++ (Lexeme.htmlComment (Lexeme.commentOpener ++ rest)).1)).length := by
  constructor
  · intro s
    exact splitFrom_encode [] [] s
  · exact Lexeme.commentEnd_encode

end TemplateLint

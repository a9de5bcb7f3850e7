import Mathlib.Data.Set.Basic
import Mathlib.Order.Bounds.Defs
import Mathlib.Order.Interval.Set.Defs
import TemplateLint.Proofs.Registration

/-!
# Searching tokens

Walking back through tokens gives the last position of the range at which a token is accepted, and
walking forward the first one. So the rules about a file as a whole act once, at its first line
break.
-/

namespace TemplateLint

namespace TokenStream

variable {ts : TokenStream} {q : TokenQuery} {start stop i : Nat}

theorem acceptsAt_of_le (q : TokenQuery) (h : ts.length ≤ i) : q.acceptsAt ts i = false := by
  simp [TokenQuery.acceptsAt, List.getElem?_eq_none h]

/-- The positions that are looked at, in the order in which they are looked at. -/
theorem findPrevious?_eq (ts : TokenStream) (q : TokenQuery) (start stop : Nat) :
    ts.findPrevious? q start stop =
      (List.range' stop (min (start + 1) ts.length - stop)).reverse.find? (q.acceptsAt ts) := by
  rw [findPrevious?]
  split
  next hnil => simp [hnil]
  next hne =>
    have hpos : 0 < ts.length := List.length_pos_iff.2 hne
    have hlen : min start (ts.length - 1) + 1 - stop = min (start + 1) ts.length - stop := by omega
    dsimp only
    rw [hlen]

theorem findPrevious?_eq_none_iff : ts.findPrevious? q start stop = none ↔
    ∀ j, stop ≤ j → j ≤ start → q.acceptsAt ts j = false := by
  rw [findPrevious?_eq, List.find?_eq_none]
  simp only [List.mem_reverse, List.mem_range'_1, Bool.not_eq_true]
  constructor
  · intro h j hstop hstart
    by_cases hj : j < ts.length
    · exact h j ⟨hstop, by omega⟩
    · exact acceptsAt_of_le q (Nat.le_of_not_lt hj)
  · intro h j hj
    exact h j hj.1 (by omega)

theorem findPrevious?_last (h : ts.findPrevious? q start stop = some i) :
    (stop ≤ i ∧ i ≤ start ∧ q.acceptsAt ts i) ∧
      ∀ j, i < j → j ≤ start → q.acceptsAt ts j = false := by
  rw [findPrevious?_eq] at h
  have hmem := List.mem_of_find?_eq_some h
  rw [List.mem_reverse, List.mem_range'_1] at hmem
  refine ⟨⟨hmem.1, by omega, List.find?_some h⟩, ?_⟩
  intro j hij hj
  by_cases hlt : j < ts.length
  · -- The positions come in descending order, so a later one was looked at before.
    obtain ⟨-, front, back, hlist, hfront⟩ := List.find?_eq_some_iff_append.1 h
    have hdesc : (front ++ i :: back).Pairwise (· > ·) := by
      rw [← hlist, List.pairwise_reverse]
      exact List.pairwise_lt_range'
    have hjmem : j ∈ front ++ i :: back := by
      rw [← hlist, List.mem_reverse, List.mem_range'_1]
      omega
    rcases List.mem_append.1 hjmem with hjfront | hjback
    · simpa using hfront j hjfront
    · rcases List.mem_cons.1 hjback with rfl | hjback
      · omega
      · have := (List.pairwise_cons.1 (List.pairwise_append.1 hdesc).2.1).1 j hjback
        omega
  · exact acceptsAt_of_le q (Nat.le_of_not_lt hlt)

theorem findPrevious?_eq_some_iff : ts.findPrevious? q start stop = some i ↔
    (stop ≤ i ∧ i ≤ start ∧ q.acceptsAt ts i) ∧
      ∀ j, i < j → j ≤ start → q.acceptsAt ts j = false := by
  refine ⟨findPrevious?_last, ?_⟩
  rintro ⟨⟨hstop, hstart, haccepts⟩, hlast⟩
  cases hfound : ts.findPrevious? q start stop with
  | none =>
      rw [findPrevious?_eq_none_iff.1 hfound i hstop hstart] at haccepts
      simp at haccepts
  | some k =>
      obtain ⟨⟨-, hkstart, hkaccepts⟩, hklast⟩ := findPrevious?_last hfound
      rcases Nat.lt_trichotomy i k with hik | rfl | hki
      · rw [hlast k hik hkstart] at hkaccepts
        simp at hkaccepts
      · rfl
      · rw [hklast i hki hstart] at haccepts
        simp at haccepts

end TokenStream

section Extremal

variable {ts : TokenStream} {q : TokenQuery} {start stop i : Nat}

/-- The positions of the tokens that are looked for: those whose kind is listed, or is not when the
listed kinds are excluded, and that have the text that is asked for. -/
def TokenQuery.hits (q : TokenQuery) (ts : TokenStream) : Set Nat :=
  {i | ∃ t, ts[i]? = some t ∧ ¬ (t.type ∈ q.types ↔ q.exclude) ∧
    ∀ v, q.value = some v → t.content = v}

theorem TokenQuery.acceptsAt_iff_mem_hits : q.acceptsAt ts i ↔ i ∈ q.hits ts := by
  have haccepts (t : Token) : q.accepts t ↔
      ¬ (t.type ∈ q.types ↔ q.exclude) ∧ ∀ v, q.value = some v → t.content = v := by
    rw [accepts, Bool.and_eq_true, bne_iff_ne, Ne, Bool.eq_iff_iff, List.contains_iff_mem]
    cases q.value <;> simp
  simp only [acceptsAt, Option.any_eq_true, haccepts, hits, Set.mem_ofPred_eq]

theorem TokenQuery.lt_length_of_mem_hits (h : i ∈ q.hits ts) : i < ts.length := by
  obtain ⟨t, ht, -⟩ := h
  exact (List.getElem?_eq_some_iff.1 ht).1

namespace TokenStream

theorem findPrevious?_eq_some_iff_isGreatest : ts.findPrevious? q start stop = some i ↔
    IsGreatest (Set.Icc stop (min start (ts.length - 1)) ∩ q.hits ts) i := by
  rw [findPrevious?_eq_some_iff]
  constructor
  · rintro ⟨⟨hstop, hstart, hi⟩, hlast⟩
    have hhit := TokenQuery.acceptsAt_iff_mem_hits.1 hi
    have hlt := TokenQuery.lt_length_of_mem_hits hhit
    refine ⟨⟨⟨hstop, by omega⟩, hhit⟩, ?_⟩
    rintro j ⟨⟨-, hj⟩, hjhit⟩
    by_contra hij
    have hnot := hlast j (by omega) (by omega)
    rw [TokenQuery.acceptsAt_iff_mem_hits.2 hjhit] at hnot
    exact Bool.noConfusion hnot
  · rintro ⟨⟨⟨hstop, hi⟩, hhit⟩, hgreatest⟩
    refine ⟨⟨hstop, by omega, TokenQuery.acceptsAt_iff_mem_hits.2 hhit⟩, ?_⟩
    intro j hij hj
    rw [Bool.eq_false_iff, Ne, TokenQuery.acceptsAt_iff_mem_hits]
    intro hjhit
    have hlt := TokenQuery.lt_length_of_mem_hits hjhit
    have hle : j ≤ i := hgreatest ⟨⟨by omega, by omega⟩, hjhit⟩
    omega

theorem findPrevious?_eq_none_iff_eq_empty : ts.findPrevious? q start stop = none ↔
    Set.Icc stop (min start (ts.length - 1)) ∩ q.hits ts = ∅ := by
  rw [findPrevious?_eq_none_iff, Set.eq_empty_iff_forall_notMem]
  simp only [Bool.eq_false_iff, Ne, TokenQuery.acceptsAt_iff_mem_hits]
  constructor
  · rintro hnone j ⟨⟨hstop, hj⟩, hjhit⟩
    exact hnone j hstop (by omega) hjhit
  · intro hempty j hstop hj hjhit
    have hlt := TokenQuery.lt_length_of_mem_hits hjhit
    exact hempty j ⟨⟨hstop, by omega⟩, hjhit⟩

theorem findNext?_eq_some_iff_isLeast {stop : Option Nat} : ts.findNext? q start stop = some i ↔
    IsLeast (Set.Ico start (min (stop.getD ts.length) ts.length) ∩ q.hits ts) i := by
  rw [findNext?, List.find?_range'_eq_some, List.mem_range'_1, TokenQuery.acceptsAt_iff_mem_hits]
  simp only [Bool.not_eq_true', Bool.eq_false_iff, Ne, TokenQuery.acceptsAt_iff_mem_hits]
  constructor
  · rintro ⟨hhit, ⟨hstart, hi⟩, hfirst⟩
    refine ⟨⟨⟨hstart, by omega⟩, hhit⟩, ?_⟩
    rintro j ⟨⟨hj, -⟩, hjhit⟩
    by_contra hij
    exact hfirst j hj (by omega) hjhit
  · rintro ⟨⟨⟨hstart, hi⟩, hhit⟩, hleast⟩
    refine ⟨hhit, ⟨hstart, by omega⟩, ?_⟩
    intro j hj hji hjhit
    have hle : i ≤ j := hleast ⟨⟨hj, by omega⟩, hjhit⟩
    omega

theorem findNext?_eq_none_iff_eq_empty {stop : Option Nat} : ts.findNext? q start stop = none ↔
    Set.Ico start (min (stop.getD ts.length) ts.length) ∩ q.hits ts = ∅ := by
  rw [findNext?, List.find?_range'_eq_none, Set.eq_empty_iff_forall_notMem]
  simp only [Bool.not_eq_true', Bool.eq_false_iff, Ne, TokenQuery.acceptsAt_iff_mem_hits]
  constructor
  · rintro hnone j ⟨⟨hstart, hj⟩, hjhit⟩
    exact hnone j hstart (by omega) hjhit
  · intro hempty j hstart hj hjhit
    exact hempty j ⟨⟨hstart, by omega⟩, hjhit⟩

/-- Both searches are extremal, whatever their bounds are. The search back gives the greatest
position from `stop` up to and including `start`, the search forward the least one from `start` up
to and without `stop`, at which there is a token that is looked for; without `stop` they run to the
start and to the end. Neither gives anything exactly when there is no such position. -/
theorem searches_are_extremal (ts : TokenStream) (q : TokenQuery) (start : Nat)
    (stop : Option Nat) :
    (∀ i, ts.findPrevious? q start (stop.getD 0) = some i ↔
      IsGreatest (Set.Icc (stop.getD 0) (min start (ts.length - 1)) ∩ q.hits ts) i) ∧
    (ts.findPrevious? q start (stop.getD 0) = none ↔
      Set.Icc (stop.getD 0) (min start (ts.length - 1)) ∩ q.hits ts = ∅) ∧
    (∀ i, ts.findNext? q start stop = some i ↔
      IsLeast (Set.Ico start (min (stop.getD ts.length) ts.length) ∩ q.hits ts) i) ∧
    (ts.findNext? q start stop = none ↔
      Set.Ico start (min (stop.getD ts.length) ts.length) ∩ q.hits ts = ∅) :=
  ⟨fun _ => findPrevious?_eq_some_iff_isGreatest, findPrevious?_eq_none_iff_eq_empty,
    fun _ => findNext?_eq_some_iff_isLeast, findNext?_eq_none_iff_eq_empty⟩

example :
    let tokens : TokenStream := [⟨.space, [' '], 1, none⟩, ⟨.tab, ['\t'], 1, none⟩]
    let others : TokenQuery := { types := [.newLine], exclude := true }
    (tokens.findPrevious? others 9 1, tokens.findPrevious? others 0 1,
      tokens.findNext? others 1 (some 9), tokens.findNext? others 1 (some 1)) =
        (some 1, none, some 1, none) := by
  decide

end TokenStream

end Extremal

section FirstNewLine

theorem isFirstNewLine_iff {tokens : TokenStream} {position : Nat} :
    isFirstNewLine tokens position ↔ ∀ t ∈ tokens.take position, t.type ≠ .newLine := by
  have haccepts (i : Nat) : TokenQuery.acceptsAt { types := [.newLine] } tokens i = false ↔
      ∀ t, tokens[i]? = some t → t.type ≠ .newLine := by
    cases htoken : tokens[i]? <;> simp [TokenQuery.acceptsAt, TokenQuery.accepts, htoken]
  rw [isFirstNewLine, Bool.or_eq_true, beq_iff_eq, Option.isNone_iff_eq_none,
    TokenStream.findPrevious?_eq_none_iff]
  simp only [haccepts]
  constructor
  · rintro (rfl | h) t ht
    · simp at ht
    · obtain ⟨i, hi, hget⟩ := List.mem_take_iff_getElem.1 ht
      exact h i (Nat.zero_le i) (by omega) t (by rw [← hget]; exact List.getElem?_eq_getElem _)
  · intro h
    refine or_iff_not_imp_left.2 fun hzero i _ hi t ht => h t ?_
    obtain ⟨hlt, rfl⟩ := List.getElem?_eq_some_iff.1 ht
    exact List.mem_take_iff_getElem.2 ⟨i, by omega, rfl⟩

theorem exists_first_newLine {tokens : TokenStream} (h : ∃ t ∈ tokens, t.type = .newLine) :
    ∃ front first back, tokens = front ++ first :: back ∧ first.type = .newLine ∧
      ∀ t ∈ front, t.type ≠ .newLine := by
  have hsome : (tokens.find? fun t => t.type == .newLine).isSome := by
    simpa [List.find?_isSome] using h
  obtain ⟨first, hfirst⟩ := Option.isSome_iff_exists.1 hsome
  obtain ⟨htype, front, back, htokens, hfront⟩ := List.find?_eq_some_iff_append.1 hfirst
  exact ⟨front, first, back, htokens, by simpa using htype, fun t ht => by simpa using hfront t ht⟩

/-- A rule that acts at the first line break acts once in a file that has one. -/
theorem flatMap_isFirstNewLine {β : Type} {front : TokenStream} {first : Token}
    (hfront : ∀ t ∈ front, t.type ≠ .newLine) (hfirst : first.type = .newLine) (back : TokenStream)
    (act : Nat → List β) :
    ((front ++ first :: back).zipIdx.flatMap fun a =>
      if a.1.type = .newLine ∧ isFirstNewLine (front ++ first :: back) a.2 then act a.2 else []) =
        act front.length := by
  have hat : isFirstNewLine (front ++ first :: back) front.length :=
    isFirstNewLine_iff.2 (by simpa using hfront)
  have hbefore : (front.zipIdx.flatMap fun a =>
      if a.1.type = .newLine ∧ isFirstNewLine (front ++ first :: back) a.2 then act a.2
      else []) = [] := by
    rw [List.flatMap_eq_nil_iff]
    intro a ha
    exact if_neg fun h => hfront a.1 (List.fst_mem_of_mem_zipIdx ha) h.1
  have hbehind : ((back.zipIdx (front.length + 1)).flatMap fun a =>
      if a.1.type = .newLine ∧ isFirstNewLine (front ++ first :: back) a.2 then act a.2
      else []) = [] := by
    rw [List.flatMap_eq_nil_iff]
    intro a ha
    have hle := List.le_snd_of_mem_zipIdx ha
    refine if_neg fun h => isFirstNewLine_iff.1 h.2 first ?_ hfirst
    rw [List.mem_take_iff_getElem]
    exact ⟨front.length, by simp; omega, by simp⟩
  rw [List.zipIdx_append, List.flatMap_append, hbefore, Nat.zero_add, List.zipIdx_cons,
    List.flatMap_cons, hbehind]
  simp [hfirst, hat]

end FirstNewLine

end TemplateLint

import Mathlib.Data.List.TakeWhile
import Mathlib.Data.Option.Basic
import TemplateLint.Rules.Commenting
import TemplateLint.Text.CaseFold

/-!
# Tasks as a pattern

A task is what a pattern matches: some characters that are no letters, the keyword, and some
characters that are no letters again, in upper or lower case. A match starts as far to the left as
possible, and of those that start there the one is taken that gives earlier items more. Looking for
a keyword between characters that are no letters finds the same.
-/

namespace TemplateLint

/-- An item of a pattern: one character of a class, or one and more of them, as many as possible. -/
inductive PatternItem where
  | one (p : Char → Bool)
  | many (p : Char → Bool)

/-- What can be left of a text behind an item, in the order of preference. -/
def PatternItem.rests : PatternItem → Text → List Text
  | _, [] => []
  | one p, c :: s => if p c then [s] else []
  | many p, c :: s => if p c then rests (many p) s ++ [s] else []

abbrev Pattern := List PatternItem

namespace Pattern

/-- What can be left of a text behind a match at its start, in the order of preference. -/
def rests : Pattern → Text → List Text
  | [], s => [s]
  | item :: items, s => (item.rests s).flatMap (rests items)

/-- What is left of a text behind the first match. -/
def search (items : Pattern) : Text → Option Text
  | [] => (rests items []).head?
  | c :: s => (rests items (c :: s)).head?.or (search items s)

end Pattern

/-- The letters `a` to `z` and all that equals one of them up to case. -/
def isCaselessLetter (c : Char) : Bool := 'a' ≤ CaseFold.fold c && CaseFold.fold c ≤ 'z'

/-- A keyword up to case. -/
def keywordPattern (keyword : Text) : Pattern :=
  keyword.map fun k => .one fun c => CaseFold.fold c == CaseFold.fold k

def taskPattern (keyword : Text) : Pattern :=
  .many (!isCaselessLetter ·) :: keywordPattern keyword ++ [.many (!isCaselessLetter ·)]

section Folding

variable {c k : Char}

theorem isUpper_iff (c : Char) : c.isUpper ↔ 0x41 ≤ c.toNat ∧ c.toNat ≤ 0x5A :=
  decide_eq_true_iff

theorem isLower_iff (c : Char) : c.isLower ↔ 0x61 ≤ c.toNat ∧ c.toNat ≤ 0x7A := by
  change (_ && _) = true ↔ _
  rw [Bool.and_eq_true, decide_eq_true_eq, decide_eq_true_eq]
  rfl

theorem isAlpha_iff (c : Char) : c.isAlpha ↔
    (0x41 ≤ c.toNat ∧ c.toNat ≤ 0x5A) ∨ (0x61 ≤ c.toNat ∧ c.toNat ≤ 0x7A) := by
  rw [← isUpper_iff, ← isLower_iff, ← Bool.or_eq_true]
  rfl

theorem between_iff (c : Char) : ('a' ≤ c ∧ c ≤ 'z') ↔ 0x61 ≤ c.toNat ∧ c.toNat ≤ 0x7A := by
  rw [Char.le_def, Char.le_def, UInt32.le_iff_toNat_le, UInt32.le_iff_toNat_le]
  rfl

theorem isTaskLetter_iff (c : Char) :
    Rules.isTaskLetter c ↔ c.isAlpha ∨ c.toNat = 0x17F ∨ c.toNat = 0x212A := by
  simp [Rules.isTaskLetter, or_assoc]

/-- Three ranges of the table lead to the letters `a` to `z`. -/
theorem image_lt_of_mem_ranges : ∀ r ∈ CaseFold.ranges,
    0x7A < r.image ∨ r ∈ [⟨0x41, 0x5A, 1, 0x61⟩, ⟨0x17F, 0x17F, 1, 0x73⟩,
      ⟨0x212A, 0x212A, 1, 0x6B⟩] := by decide +kernel

theorem fold_of_isAlpha (h : c.isAlpha) :
    CaseFold.fold c = c.toLower ∧ 'a' ≤ CaseFold.fold c ∧ CaseFold.fold c ≤ 'z' := by
  have hletters : ∀ n ∈ List.range 0x7B, (Char.ofNat n).isAlpha →
      CaseFold.fold (Char.ofNat n) = (Char.ofNat n).toLower ∧
        'a' ≤ CaseFold.fold (Char.ofNat n) ∧ CaseFold.fold (Char.ofNat n) ≤ 'z' := by
    decide +kernel
  have hlt : c.toNat ∈ List.range 0x7B := by
    have := (isAlpha_iff c).1 h
    rw [List.mem_range]
    omega
  have hc := hletters c.toNat hlt
  rw [Char.ofNat_toNat] at hc
  exact hc h

theorem toNat_ofNat_eq_or (n : Nat) : (Char.ofNat n).toNat = n ∨ (Char.ofNat n).toNat = 0 := by
  by_cases h : n.isValidChar
  · exact Or.inl (congrArg Char.toNat (dif_pos h))
  · exact Or.inr (congrArg Char.toNat (dif_neg h))

/-- Nothing but the letters of tasks folds to one of the letters `a` to `z`. -/
theorem not_between_fold (h : Rules.isTaskLetter c = false) :
    ¬ ('a' ≤ CaseFold.fold c ∧ CaseFold.fold c ≤ 'z') := by
  have hnot : ¬ Rules.isTaskLetter c := by simp [h]
  rw [isTaskLetter_iff, isAlpha_iff] at hnot
  rw [between_iff, CaseFold.fold]
  cases himage : CaseFold.ranges.findSome? (·.image? c.toNat) with
  | none =>
      rw [Option.map_none, Option.getD_none]
      omega
  | some n =>
      obtain ⟨r, hr, hn⟩ := List.exists_of_findSome?_eq_some himage
      simp only [CaseFold.Range.image?, Option.ite_none_right_eq_some, Option.some.injEq] at hn
      rw [Option.map_some, Option.getD_some]
      rcases image_lt_of_mem_ranges r hr with hlt | hmem
      · have := toNat_ofNat_eq_or n
        omega
      · -- The three ranges hold letters of tasks only.
        simp only [List.mem_cons, List.not_mem_nil, or_false] at hmem
        rcases hmem with rfl | rfl | rfl <;> dsimp only at hn <;> omega

/-- Folding takes the two letters of tasks outside `A` to `Z` and `a` to `z` to `s` and `k`. -/
theorem fold_of_not_isAlpha (h : Rules.isTaskLetter c) (halpha : ¬ c.isAlpha) :
    CaseFold.fold c = 's' ∨ CaseFold.fold c = 'k' := by
  rcases (isTaskLetter_iff c).1 h with h | h | h
  · exact absurd h halpha
  · rw [← Char.ofNat_toNat c, h]
    decide +kernel
  · rw [← Char.ofNat_toNat c, h]
    decide +kernel

theorem isCaselessLetter_eq : isCaselessLetter = Rules.isTaskLetter := by
  funext c
  rw [Bool.eq_iff_iff, isCaselessLetter, Bool.and_eq_true, decide_eq_true_eq, decide_eq_true_eq]
  constructor
  · intro hbetween
    by_contra hnot
    exact not_between_fold (by simpa using hnot) hbetween
  · intro h
    by_cases halpha : c.isAlpha
    · exact (fold_of_isAlpha halpha).2
    · rcases fold_of_not_isAlpha h halpha with hfold | hfold <;> rw [hfold] <;> decide

/-- Whether a character is a lower-case letter that nothing but its two cases folds to. -/
def isPlainLetter (c : Char) : Bool := c.isLower && c != 's' && c != 'k'

theorem isPlainLetter_iff (c : Char) : isPlainLetter c ↔ c.isLower ∧ c ≠ 's' ∧ c ≠ 'k' := by
  simp [isPlainLetter, and_assoc]

theorem toLower_of_not_isUpper (h : ¬ c.isUpper) : c.toLower = c :=
  dif_neg fun hupper => h ((isUpper_iff c).2 hupper)

theorem isAlpha_of_isPlainLetter (h : isPlainLetter k) : k.isAlpha := by
  rw [isAlpha_iff, ← isLower_iff]
  exact Or.inr ((isPlainLetter_iff k).1 h).1

theorem fold_of_isPlainLetter (h : isPlainLetter k) : CaseFold.fold k = k := by
  rw [(fold_of_isAlpha (isAlpha_of_isPlainLetter h)).1]
  apply toLower_of_not_isUpper
  have hlower := ((isPlainLetter_iff k).1 h).1
  rw [isLower_iff] at hlower
  rw [isUpper_iff]
  omega

theorem fold_eq_fold_iff (hk : isPlainLetter k) :
    CaseFold.fold c = CaseFold.fold k ↔ c.toLower = k := by
  have hkalpha := isAlpha_of_isPlainLetter hk
  obtain ⟨-, hs, hkelvin⟩ := (isPlainLetter_iff k).1 hk
  rw [fold_of_isPlainLetter hk]
  by_cases halpha : c.isAlpha
  · rw [(fold_of_isAlpha halpha).1]
  · have hlower : c.toLower = c := toLower_of_not_isUpper fun hupper =>
      halpha ((isAlpha_iff c).2 (Or.inl ((isUpper_iff c).1 hupper)))
    constructor
    · rintro rfl
      by_cases hletter : Rules.isTaskLetter c
      · rcases fold_of_not_isAlpha hletter halpha with h | h
        · exact absurd h hs
        · exact absurd h hkelvin
      · have hbetween := (fold_of_isAlpha hkalpha).2
        rw [fold_of_isPlainLetter hk] at hbetween
        exact absurd hbetween (not_between_fold (by simpa using hletter))
    · rintro rfl
      exact absurd (hlower ▸ hkalpha) halpha

end Folding

section Matching

variable {p : Char → Bool} {keyword s : Text}

theorem head?_rests_many (p : Char → Bool) (s : Text) :
    ((PatternItem.many p).rests s).head? =
      if s.head?.any p then some (s.dropWhile p) else none := by
  induction s with
  | nil => rfl
  | cons c s ih =>
      rw [PatternItem.rests]
      by_cases hc : p c
      · rw [if_pos hc, List.head?_append, ih, List.dropWhile_cons_of_pos hc]
        cases s with
        | nil => simp [hc]
        | cons d s => by_cases hd : p d <;> simp [hc, hd]
      · simp [hc]

/-- A keyword is matched where the text starts with it, and in one way. -/
theorem rests_keywordPattern (hkeyword : keyword.all isPlainLetter)
    (items : Pattern) (s : Text) :
    Pattern.rests (keywordPattern keyword ++ items) s =
      if asciiLower (s.take keyword.length) = keyword then
        Pattern.rests items (s.drop keyword.length)
      else [] := by
  induction keyword generalizing s with
  | nil => simp [keywordPattern, asciiLower]
  | cons k keyword ih =>
      obtain ⟨hk, hrest⟩ := (Bool.and_eq_true_iff ..).1 hkeyword
      cases s with
      | nil => simp [keywordPattern, Pattern.rests, PatternItem.rests, asciiLower]
      | cons c s =>
          change (if CaseFold.fold c == CaseFold.fold k then [s] else []).flatMap
            (Pattern.rests (keywordPattern keyword ++ items)) = _
          have hlower : asciiLower ((c :: s).take (k :: keyword).length) =
              c.toLower :: asciiLower (s.take keyword.length) := rfl
          by_cases hc : c.toLower = k
          · rw [if_pos (beq_iff_eq.2 ((fold_eq_fold_iff hk).2 hc)), List.flatMap_singleton,
              ih hrest, hlower, hc]
            simp
          · have hfold : ¬ CaseFold.fold c = CaseFold.fold k := mt (fold_eq_fold_iff hk).1 hc
            rw [if_neg (by simpa using hfold), hlower, if_neg (by simp [hc])]
            rfl

theorem head?_rests_keyword (hkeyword : keyword.all isPlainLetter) (s : Text) :
    (Pattern.rests (keywordPattern keyword ++ [.many (!isCaselessLetter ·)]) s).head? =
      (Rules.keywordHere? keyword s).map (List.dropWhile (!Rules.isTaskLetter ·)) := by
  have hmany : Pattern.rests [.many (!isCaselessLetter ·)] =
      (PatternItem.many (!Rules.isTaskLetter ·)).rests := by
    funext s
    rw [isCaselessLetter_eq]
    exact List.flatMap_singleton' _
  rw [rests_keywordPattern hkeyword, hmany, Rules.keywordHere?]
  by_cases hword : asciiLower (s.take keyword.length) = keyword
  · rw [if_pos hword, head?_rests_many]
    simp only [hword, beq_self_eq_true, Bool.true_and]
    split <;> rfl
  · simp [hword]

theorem keywordHere?_of_not_letter (hkeyword : keyword.all isPlainLetter)
    (hne : keyword ≠ []) {c : Char} (hc : Rules.isTaskLetter c = false) (s : Text) :
    Rules.keywordHere? keyword (c :: s) = none := by
  cases keyword with
  | nil => exact absurd rfl hne
  | cons k keyword =>
      have hk := List.all_eq_true.1 hkeyword k List.mem_cons_self
      have hlower : c.toLower ≠ k := by
        intro hlower
        have hfold := (fold_of_isAlpha (isAlpha_of_isPlainLetter hk)).2
        rw [← (fold_eq_fold_iff hk).2 hlower] at hfold
        exact not_between_fold hc hfold
      simp [Rules.keywordHere?, asciiLower, hlower]

theorem afterKeyword?_cons (keyword : Text) (previous : Option Char) (c : Char) (s : Text) :
    Rules.afterKeyword? keyword previous (c :: s) =
      (if previous.any (!Rules.isTaskLetter ·) then Rules.keywordHere? keyword (c :: s)
        else none).or (Rules.afterKeyword? keyword (some c) s) :=
  Option.orElse_eq_or

theorem afterKeyword?_letter {c : Char} (hc : Rules.isTaskLetter c) (s : Text) :
    Rules.afterKeyword? keyword (some c) s = Rules.afterKeyword? keyword none s := by
  cases s with
  | nil => rfl
  | cons d s => simp [afterKeyword?_cons, hc]

theorem rests_taskPattern_letter {c : Char} (hc : Rules.isTaskLetter c) (s : Text) :
    (taskPattern keyword).rests (c :: s) = [] := by
  simp [taskPattern, Pattern.rests, PatternItem.rests, isCaselessLetter_eq, hc]

theorem rests_taskPattern_cons {c : Char} (hc : Rules.isTaskLetter c = false) (s : Text) :
    (taskPattern keyword).rests (c :: s) = (taskPattern keyword).rests s ++
      Pattern.rests (keywordPattern keyword ++ [.many (!isCaselessLetter ·)]) s := by
  simp [taskPattern, Pattern.rests, PatternItem.rests, isCaselessLetter_eq, hc]

/-- Where a character that is no letter stands before `s`, the pattern has one place more to match
than in `s`, and the search for the keyword knows what stands before it. -/
theorem search_taskPattern_step (hkeyword : keyword.all isPlainLetter)
    (hne : keyword ≠ []) (s : Text) :
    (taskPattern keyword).search s =
      (Rules.afterKeyword? keyword none s).map (List.dropWhile (!Rules.isTaskLetter ·)) ∧
    ∀ c, Rules.isTaskLetter c = false →
      ((taskPattern keyword).rests (c :: s)).head?.or ((taskPattern keyword).search s) =
        (Rules.afterKeyword? keyword (some c) s).map
          (List.dropWhile (!Rules.isTaskLetter ·)) := by
  induction s with
  | nil =>
      have hnone : (taskPattern keyword).search [] = none := rfl
      refine ⟨hnone, fun c hc => ?_⟩
      rw [rests_taskPattern_cons hc, List.head?_append, head?_rests_keyword hkeyword, hnone]
      simp [taskPattern, Pattern.rests, PatternItem.rests, Rules.keywordHere?,
        Rules.afterKeyword?]
  | cons d s ih =>
      obtain ⟨hsearch, hbefore⟩ := ih
      by_cases hd : Rules.isTaskLetter d
      · have hskip : (taskPattern keyword).search (d :: s) = (taskPattern keyword).search s := by
          rw [Pattern.search, rests_taskPattern_letter hd]
          rfl
        constructor
        · rw [hskip, hsearch, afterKeyword?_cons, afterKeyword?_letter hd]
          rfl
        · intro c hc
          rw [rests_taskPattern_cons hc, rests_taskPattern_letter hd, List.nil_append,
            head?_rests_keyword hkeyword, hskip, hsearch, afterKeyword?_cons,
            afterKeyword?_letter hd, Option.map_or]
          simp [hc]
      · rw [Bool.not_eq_true] at hd
        constructor
        · rw [Pattern.search, hbefore d hd, afterKeyword?_cons]
          rfl
        · intro c hc
          -- Both places start the same run, so the keyword is looked for behind it once.
          rw [rests_taskPattern_cons hc, List.head?_append, head?_rests_keyword hkeyword,
            keywordHere?_of_not_letter hkeyword hne hd, Option.map_none, Option.or_none,
            Pattern.search, ← Option.or_assoc, Option.or_self, hbefore d hd, afterKeyword?_cons,
            keywordHere?_of_not_letter hkeyword hne hd, ite_self, Option.none_or]

end Matching

end TemplateLint

import Mathlib.Data.List.Basic
import TemplateLint.IgnorePattern

/-!
# Patterns as regular expressions

The regular expression of a pattern can be read back. An operator stands in it behind a backslash or
as part of `.*`, so no character of the pattern acts as one, and patterns with one expression ask
for the same. A loop that keeps literals back until it comes to a star writes this expression too.
-/

namespace TemplateLint

/-- A pattern in which a backslash and a comma, from left to right, are one comma. -/
def readCommas : Text → Text
  | [] => []
  | '\\' :: ',' :: s => ',' :: readCommas s
  | c :: s => c :: readCommas s

/-- An item of a regular expression: a character behind a backslash, one by itself, or `.*`. -/
inductive RegexItem where
  | escaped (c : Char)
  | plain (c : Char)
  | anyRun
  deriving DecidableEq, Repr

/-- The items of a regular expression. A backslash at the end is in none. -/
def readRegex : Text → Option (List RegexItem)
  | [] => some []
  | ['\\'] => none
  | '\\' :: c :: s => (readRegex s).map (.escaped c :: ·)
  | '.' :: '*' :: s => (readRegex s).map (.anyRun :: ·)
  | c :: s => (readRegex s).map (.plain c :: ·)

namespace RegexItem

def part : RegexItem → PatternPart
  | escaped c => .literal c
  | plain c => .literal c
  | anyRun => .wildcard

/-- Whether a character stands behind a backslash exactly if it is an operator. -/
def IsGuarded : RegexItem → Prop
  | escaped c => c ∈ PatternPart.regexOperators
  | plain c => c ∉ PatternPart.regexOperators
  | anyRun => True

end RegexItem

namespace PatternPart

/-- What a character of a pattern with its commas read asks for. -/
def ofChar (c : Char) : PatternPart := if c = '*' then .wildcard else .literal c

def item : PatternPart → RegexItem
  | wildcard => .anyRun
  | literal c => if regexOperators.contains c then .escaped c else .plain c

theorem ofText_eq (pattern : Text) : ofText pattern = (readCommas pattern).map ofChar := by
  fun_induction ofText pattern with
  | case1 => rfl
  | case2 s ih => simp [readCommas, ofChar, ih]
  | case3 s ih => simp [readCommas, ofChar, ih]
  | case4 c s hcomma hstar ih =>
      rw [readCommas, List.map_cons, ← ih, ofChar, if_neg hstar]
      exact hcomma

@[simp]
theorem part_item (p : PatternPart) : p.item.part = p := by
  cases p with
  | wildcard => rfl
  | literal c => by_cases hc : c ∈ regexOperators <;> simp [item, RegexItem.part, hc]

theorem isGuarded_item (p : PatternPart) : p.item.IsGuarded := by
  cases p with
  | wildcard => trivial
  | literal c => by_cases hc : c ∈ regexOperators <;> simp [item, RegexItem.IsGuarded, hc]

/-- The reader takes the expression of one part for that part, whatever follows. -/
theorem readRegex_regex_append (p : PatternPart) (s : Text) :
    readRegex (p.regex ++ s) = (readRegex s).map (p.item :: ·) := by
  cases p with
  | wildcard => rfl
  | literal c =>
      by_cases hc : c ∈ regexOperators
      · simp [regex, item, hc, readRegex]
      · have hslash : c ≠ '\\' := by rintro rfl; exact hc (by decide)
        have hdot : c ≠ '.' := by rintro rfl; exact hc (by decide)
        have hregex : (literal c).regex = [c] := by simp [regex, hc]
        have hitem : (literal c).item = .plain c := by simp [item, hc]
        rw [hregex, hitem, List.singleton_append, readRegex] <;> simp [hslash, hdot]

theorem readRegex_flatMap_regex (parts : List PatternPart) :
    readRegex (parts.flatMap regex) = some (parts.map item) := by
  induction parts with
  | nil => rfl
  | cons p parts ih => simp [readRegex_regex_append, ih]

theorem flatMap_regex_injective : Function.Injective (List.flatMap regex) := by
  intro ps qs h
  have hitems : ps.map item = qs.map item := by
    have hread := congrArg readRegex h
    rw [readRegex_flatMap_regex, readRegex_flatMap_regex] at hread
    exact Option.some.inj hread
  have hparts := congrArg (List.map RegexItem.part) hitems
  simpa [Function.comp_def] using hparts

end PatternPart

section Loop

def escapeAll (s : Text) : Text := s.flatMap fun c => (PatternPart.literal c).regex

/-- Translate a pattern with the literals in `pending` not yet written behind `output`. -/
def translateFrom (pending output : Text) : Text → Text
  | [] => output ++ escapeAll pending
  | '\\' :: ',' :: s => translateFrom (pending ++ [',']) output s
  | '*' :: s => translateFrom [] (output ++ escapeAll pending ++ ['.', '*']) s
  | c :: s => translateFrom (pending ++ [c]) output s

theorem translateFrom_eq (pending output s : Text) :
    translateFrom pending output s = output ++ escapeAll pending ++ patternRegex s := by
  fun_induction translateFrom pending output s with
  | case1 => simp [patternRegex, PatternPart.ofText]
  | case2 pending output s ih =>
      simp [ih, patternRegex, PatternPart.ofText, escapeAll]
  | case3 pending output s ih =>
      rw [ih]
      simp [patternRegex, PatternPart.ofText, escapeAll, PatternPart.regex]
  | case4 pending output c s hcomma hstar ih =>
      rw [ih, patternRegex, patternRegex, PatternPart.ofText]
      · simp [escapeAll]
      · exact hcomma
      · exact hstar

end Loop

/-- The regular expression of a pattern, which a loop with pending literals writes as well, reads
back as the literals and wildcards of the pattern. Operators in it are guarded, and other patterns
have the same expression only if they have the same literals and wildcards. -/
theorem patternRegex_reads_back (pattern : Text) :
    translateFrom [] [] pattern = patternRegex pattern ∧
    (∃ items, readRegex (patternRegex pattern) = some items ∧
      items.map RegexItem.part = (readCommas pattern).map PatternPart.ofChar ∧
      ∀ item ∈ items, item.IsGuarded) ∧
    ∀ other, patternRegex other = patternRegex pattern ↔
      (readCommas other).map PatternPart.ofChar = (readCommas pattern).map PatternPart.ofChar := by
  refine ⟨by simp [translateFrom_eq, escapeAll], ⟨_, PatternPart.readRegex_flatMap_regex _, ?_, ?_⟩,
    fun other => ?_⟩
  · simp [Function.comp_def, PatternPart.ofText_eq]
  · intro item hitem
    obtain ⟨p, -, rfl⟩ := List.mem_map.1 hitem
    exact p.isGuarded_item
  · rw [← PatternPart.ofText_eq, ← PatternPart.ofText_eq]
    exact PatternPart.flatMap_regex_injective.eq_iff

end TemplateLint

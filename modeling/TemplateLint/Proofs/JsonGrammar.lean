import Mathlib.Data.List.Basic
import Mathlib.Tactic.IntervalCases
import TemplateLint.Json
import TemplateLint.Proofs.Decimals

/-!
# The grammar of JSON documents

Which texts spell a document: white space may stand between all parts, and a character of a text may
stand for itself, behind a backslash, or as one or two codes of four hexadecimal digits. The layout
over several lines is one of the spellings.
-/

namespace TemplateLint.JsonValue

/-- Whether a character may stand between the parts of a document. -/
def isSpace (c : Char) : Bool := c == ' ' || c == '\t' || c == '\n' || c == '\r'

def IsSpaces (s : Text) : Prop := ∀ c ∈ s, isSpace c

/-- What a letter behind a backslash stands for. -/
def letterChar? : Char → Option Char
  | '"' => some '"'
  | '\\' => some '\\'
  | '/' => some '/'
  | 'b' => some (Char.ofNat 0x08)
  | 'f' => some (Char.ofNat 0x0C)
  | 'n' => some '\n'
  | 'r' => some '\r'
  | 't' => some '\t'
  | _ => none

def hexDigit? (c : Char) : Option Nat :=
  if '0' ≤ c ∧ c ≤ '9' then some (c.toNat - '0'.toNat)
  else if 'a' ≤ c ∧ c ≤ 'f' then some (c.toNat - 'a'.toNat + 10)
  else if 'A' ≤ c ∧ c ≤ 'F' then some (c.toNat - 'A'.toNat + 10)
  else none

/-- The number with the four hexadecimal digits. -/
def code? (a b c d : Char) : Option Nat := do
  let a ← hexDigit? a
  let b ← hexDigit? b
  let c ← hexDigit? c
  let d ← hexDigit? d
  return ((a * 16 + b) * 16 + c) * 16 + d

/-- Whether two codes are those of one character beyond the codes of four digits. -/
def IsPair (high low : Nat) : Prop :=
  (0xD800 ≤ high ∧ high < 0xDC00) ∧ 0xDC00 ≤ low ∧ low < 0xE000

instance (high low : Nat) : Decidable (IsPair high low) := inferInstanceAs (Decidable (_ ∧ _))

def pairChar (high low : Nat) : Char :=
  Char.ofNat (0x10000 + (high - 0xD800) * 0x400 + (low - 0xDC00))

inductive SpellsChar : Text → Char → Prop where
  | plain {c : Char} (hcontrol : 0x20 ≤ c.toNat) (hquote : c ≠ '"') (hslash : c ≠ '\\') :
      SpellsChar [c] c
  | letter {l c : Char} (hc : letterChar? l = some c) : SpellsChar ['\\', l] c
  | code {a b c d : Char} {n : Nat} (hn : code? a b c d = some n) (hvalid : n.isValidChar) :
      SpellsChar ['\\', 'u', a, b, c, d] (Char.ofNat n)
  | pair {a b c d a' b' c' d' : Char} {high low : Nat} (hhigh : code? a b c d = some high)
      (hlow : code? a' b' c' d' = some low) (hpair : IsPair high low) :
      SpellsChar ['\\', 'u', a, b, c, d, '\\', 'u', a', b', c', d'] (pairChar high low)

/-- How a text is written behind its opening quote. -/
inductive SpellsText : Text → Text → Prop where
  | nil : SpellsText ['"'] []
  | cons {s s' t : Text} {c : Char} (hc : SpellsChar s c) (ht : SpellsText s' t) :
      SpellsText (s ++ s') (c :: t)

/-- How items with commas between them are written behind an opening bracket. -/
inductive SpellsItems {α : Type} (close : Char) (item : Text → α → Prop) :
    Text → List α → Prop where
  | nil {space : Text} (hspace : IsSpaces space) : SpellsItems close item (space ++ [close]) []
  | single {before s after : Text} {a : α} (hbefore : IsSpaces before) (ha : item s a)
      (hafter : IsSpaces after) : SpellsItems close item (before ++ s ++ after ++ [close]) [a]
  | cons {before s after t : Text} {a b : α} {as : List α} (hbefore : IsSpaces before)
      (ha : item s a) (hafter : IsSpaces after) (ht : SpellsItems close item t (b :: as)) :
      SpellsItems close item (before ++ s ++ after ++ ',' :: t) (a :: b :: as)

inductive SpellsField (value : Text → JsonValue → Prop) : Text → Text × JsonValue → Prop where
  | mk {k key before after s : Text} {v : JsonValue} (hkey : SpellsText k key)
      (hbefore : IsSpaces before) (hafter : IsSpaces after) (hv : value s v) :
      SpellsField value ('"' :: (k ++ before ++ ':' :: (after ++ s))) (key, v)

/-- How a document is written, apart from white space around it. -/
inductive Spells : Text → JsonValue → Prop where
  | number (n : Nat) : Spells (decimal n) (number n)
  | text {s t : Text} (h : SpellsText s t) : Spells ('"' :: s) (text t)
  | list {s : Text} {vs : List JsonValue} (h : SpellsItems ']' Spells s vs) :
      Spells ('[' :: s) (list vs)
  | record {s : Text} {fs : List (Text × JsonValue)}
      (h : SpellsItems '\x7d' (SpellsField Spells) s fs) : Spells ('\x7b' :: s) (record fs)

def IsDocument (s : Text) (v : JsonValue) : Prop :=
  ∃ before t after, s = before ++ t ++ after ∧ IsSpaces before ∧ IsSpaces after ∧ Spells t v

section Layout

theorem isSpaces_nil : IsSpaces [] := by simp [IsSpaces]

theorem isSpaces_newLine (level : Nat) : IsSpaces (newLine level) := by
  intro c hc
  rcases List.mem_cons.1 hc with rfl | hc
  · rfl
  · rw [List.eq_of_mem_replicate hc]
    rfl

theorem code?_hexByte {n : Nat} (hn : n < 0x20) :
    code? '0' '0' (Nat.digitChar (n / 16)) (Nat.digitChar (n % 16)) = some n := by
  interval_cases n <;> rfl

theorem spellsChar_escapeChar (c : Char) : SpellsChar (escapeChar c) c := by
  have hc := Char.ofNat_toNat c
  unfold escapeChar
  split_ifs with hquote hslash hfeed hreturn htab hback hform hcontrol
  · subst hquote
    exact .letter rfl
  · subst hslash
    exact .letter rfl
  · subst hfeed
    exact .letter rfl
  · subst hreturn
    exact .letter rfl
  · subst htab
    exact .letter rfl
  · rw [← hc, hback]
    exact .letter rfl
  · rw [← hc, hform]
    exact .letter rfl
  · have hcode := SpellsChar.code (code?_hexByte hcontrol) (.inl (by omega))
    simpa [hexByte] using hcode
  · exact .plain (by omega) hquote hslash

theorem spellsText_flatMap_escapeChar (s : Text) :
    SpellsText (s.flatMap escapeChar ++ ['"']) s := by
  induction s with
  | nil => exact .nil
  | cons c s ih =>
    rw [List.flatMap_cons, List.append_assoc]
    exact .cons (spellsChar_escapeChar c) ih

theorem spellsItems_lines {α : Type} {item : Text → α → Prop} {layout : α → Text} (close : Char)
    (level level' : Nat) (a : α) (as : List α) (h : ∀ b ∈ a :: as, item (layout b) b) :
    SpellsItems close item
      (newLine level' ++ layout a ++ (as.flatMap fun b => ',' :: newLine level' ++ layout b) ++
        newLine level ++ [close]) (a :: as) := by
  induction as generalizing a with
  | nil =>
    simpa using SpellsItems.single (isSpaces_newLine level') (h a (by simp))
      (isSpaces_newLine level)
  | cons b bs ih =>
    have hbs := ih b fun c hc => h c (by simp [hc])
    simpa using SpellsItems.cons (isSpaces_newLine level') (h a (by simp)) isSpaces_nil hbs

theorem prettyElements_eq_flatMap (level : Nat) (vs : List JsonValue) :
    prettyElements level vs = vs.flatMap fun v => ',' :: newLine level ++ pretty level v := by
  induction vs with
  | nil => simp [prettyElements]
  | cons v vs ih => simp [prettyElements, ih]

theorem prettyFields_eq_flatMap (level : Nat) (fs : List (Text × JsonValue)) :
    prettyFields level fs = fs.flatMap fun f => ',' :: newLine level ++ prettyField level f := by
  induction fs with
  | nil => simp [prettyFields]
  | cons f fs ih => simp [prettyFields, ih]

theorem spellsField_prettyField {level : Nat} {f : Text × JsonValue}
    (h : Spells (pretty level f.2) f.2) : SpellsField Spells (prettyField level f) f := by
  obtain ⟨key, v⟩ := f
  have hspace : IsSpaces [' '] := by simp [IsSpaces, isSpace]
  have hfield := SpellsField.mk (spellsText_flatMap_escapeChar key) isSpaces_nil hspace h
  simpa [prettyField, quote] using hfield

/-- The layout of a document is one of its spellings. -/
theorem spells_pretty (level : Nat) (v : JsonValue) : Spells (pretty level v) v := by
  match v with
  | number n => simpa [pretty] using Spells.number n
  | text s => simpa [pretty, quote] using Spells.text (spellsText_flatMap_escapeChar s)
  | list [] => simpa [pretty] using Spells.list (.nil isSpaces_nil)
  | list (e :: es) =>
    have hitems := spellsItems_lines ']' level (level + 1) e es
      fun v hv => spells_pretty (level + 1) v
    simpa [pretty, prettyElements_eq_flatMap] using Spells.list hitems
  | record [] => simpa [pretty] using Spells.record (.nil isSpaces_nil)
  | record (f :: fs) =>
    have hitems := spellsItems_lines '\x7d' level (level + 1) f fs
      fun f hf => spellsField_prettyField (spells_pretty (level + 1) f.2)
    simpa [pretty, prettyFields_eq_flatMap] using Spells.record hitems
termination_by sizeOf v
decreasing_by
  · have := List.sizeOf_lt_of_mem hv
    simp only [list.sizeOf_spec]
    omega
  · have := List.sizeOf_lt_of_mem hf
    cases f
    simp only [record.sizeOf_spec, Prod.mk.sizeOf_spec] at this ⊢
    omega

end Layout

end TemplateLint.JsonValue

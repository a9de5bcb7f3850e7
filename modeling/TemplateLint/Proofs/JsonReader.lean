import TemplateLint.Proofs.JsonGrammar

/-!
# Reading JSON documents

A reader that gives back the value of every spelling of a document. A text is therefore a document
for at most one value.
-/

namespace TemplateLint.JsonValue

def skipSpace (s : Text) : Text := s.dropWhile isSpace

def readCode (code : Nat) (rest : Text) : Option (Char × Text) :=
  if code.isValidChar then some (Char.ofNat code, rest)
  else match rest with
    | '\\' :: 'u' :: a :: b :: c :: d :: rest => do
        let low ← code? a b c d
        if IsPair code low then some (pairChar code low, rest) else none
    | _ => none

/-- The character that is written at the start of a text, and what follows it. -/
def readChar : Text → Option (Char × Text)
  | '\\' :: 'u' :: a :: b :: c :: d :: rest => do readCode (← code? a b c d) rest
  | '\\' :: l :: rest => do return (← letterChar? l, rest)
  | c :: rest => if 0x20 ≤ c.toNat ∧ c ≠ '"' ∧ c ≠ '\\' then some (c, rest) else none
  | [] => none

def readText : Nat → Text → Option (Text × Text)
  | 0, _ => none
  | _ + 1, '"' :: rest => some ([], rest)
  | n + 1, s => do
      let (c, s) ← readChar s
      let (t, s) ← readText n s
      return (c :: t, s)

section Items

variable {α : Type}

/-- One or more items with commas between them, up to the closing bracket. -/
def readItems (close : Char) (read : Text → Option (α × Text)) : Nat → Text → Option (List α × Text)
  | 0, _ => none
  | n + 1, s => do
      let (a, s) ← read (skipSpace s)
      match skipSpace s with
      | ',' :: s =>
          let (as, s) ← readItems close read n s
          return (a :: as, s)
      | c :: s => if c = close then some ([a], s) else none
      | [] => none

def readRow (close : Char) (read : Text → Option (α × Text)) (n : Nat) (s : Text) :
    Option (List α × Text) :=
  match skipSpace s with
  | c :: rest => if c = close then some ([], rest) else readItems close read n s
  | [] => none

end Items

def readField (read : Text → Option (JsonValue × Text)) (n : Nat) :
    Text → Option ((Text × JsonValue) × Text)
  | '"' :: s => do
      let (key, s) ← readText n s
      match skipSpace s with
      | ':' :: s =>
          let (v, s) ← read (skipSpace s)
          return ((key, v), s)
      | _ => none
  | _ => none

/-- The value that is written at the start of a text. The number bounds how deep it is nested and
how long its parts are. -/
def readValue : Nat → Text → Option (JsonValue × Text)
  | 0, _ => none
  | n + 1, '"' :: s => do
      let (t, s) ← readText n s
      return (text t, s)
  | n + 1, '[' :: s => do
      let (vs, s) ← readRow ']' (readValue n) n s
      return (list vs, s)
  | n + 1, '\x7b' :: s => do
      let (fs, s) ← readRow '\x7d' (readField (readValue n) n) n s
      return (record fs, s)
  | _ + 1, s => do
      let (n, s) ← readDecimal? s
      return (number n, s)

def read? (s : Text) : Option JsonValue := do
  let (v, rest) ← readValue s.length (skipSpace s)
  if rest.all isSpace then some v else none

theorem skipSpace_append_cons {space : Text} {c : Char} (hspace : IsSpaces space)
    (hc : isSpace c = false) (s : Text) : skipSpace (space ++ c :: s) = c :: s := by
  rw [skipSpace, List.dropWhile_append_of_pos hspace]
  simp [hc]

theorem isDigit_eq_false_of_isSpace {c : Char} (hc : isSpace c) : c.isDigit = false := by
  simp only [isSpace, Bool.or_eq_true, beq_iff_eq] at hc
  rcases hc with ((rfl | rfl) | rfl) | rfl <;> rfl

theorem startsWithDigit_append {space s : Text} (hspace : IsSpaces space)
    (hs : startsWithDigit s = false) : startsWithDigit (space ++ s) = false := by
  cases space with
  | nil => exact hs
  | cons c space => exact isDigit_eq_false_of_isSpace (hspace c (by simp))

section Characters

theorem readChar_append {s : Text} {c : Char} (h : SpellsChar s c) (rest : Text) :
    readChar (s ++ rest) = some (c, rest) := by
  cases h with
  | plain hcontrol hquote hslash => simp [readChar, hcontrol, hquote, hslash]
  | @letter l _ hl =>
    have hu : l ≠ 'u' := by
      rintro rfl
      cases hl
    simp [readChar, hu, hl]
  | code hn hvalid => simp [readChar, readCode, hn, hvalid]
  | @pair _ _ _ _ _ _ _ _ high _ hhigh hlow hpair =>
    -- The first code of a pair is no character by itself, so the reader looks for a second one.
    have hvalid : ¬ high.isValidChar := by
      have := hpair.1
      simp only [Nat.isValidChar]
      omega
    simp [readChar, readCode, hhigh, hvalid, hlow, hpair]

theorem SpellsChar.exists_cons {s : Text} {c : Char} (h : SpellsChar s c) :
    ∃ d t, s = d :: t ∧ d ≠ '"' := by
  cases h with
  | plain _ hquote _ => exact ⟨_, _, rfl, hquote⟩
  | letter | code | pair => exact ⟨'\\', _, rfl, by decide⟩

theorem readText_append {s t : Text} (h : SpellsText s t) {n : Nat} (hn : s.length ≤ n)
    (rest : Text) : readText n (s ++ rest) = some (t, rest) := by
  induction h generalizing n with
  | nil =>
    cases n with
    | zero => simp at hn
    | succ n => rfl
  | @cons s s' t c hc ht ih =>
    have hread := readChar_append hc (s' ++ rest)
    obtain ⟨d, u, rfl, hd⟩ := hc.exists_cons
    cases n with
    | zero => simp at hn
    | succ n =>
      have hlength : s'.length ≤ n := by
        simp only [List.cons_append, List.length_cons, List.length_append] at hn
        omega
      simp only [List.cons_append, List.append_assoc] at hread ⊢
      rw [readText]
      · simp [hread, ih hlength]
      · simp [hd]

end Characters

section Items

variable {α : Type} {item : Text → α → Prop} {read : Text → Option (α × Text)} {close : Char}

/-- A bracket that ends a row of items. -/
structure IsClose (close : Char) : Prop where
  not_space : isSpace close = false
  not_digit : close.isDigit = false
  not_comma : close ≠ ','

/-- The reader gives an item back from its text, which is not taken for the end of a row. -/
structure ReadsBack (close : Char) (read : Text → Option (α × Text)) (s : Text) (a : α) : Prop where
  starts : ∃ c t, s = c :: t ∧ isSpace c = false ∧ c ≠ close
  reads : ∀ rest, startsWithDigit rest = false → read (s ++ rest) = some (a, rest)

theorem ReadsBack.read_skipSpace {s before rest : Text} {a : α} (h : ReadsBack close read s a)
    (hbefore : IsSpaces before) (hrest : startsWithDigit rest = false) :
    read (skipSpace (before ++ (s ++ rest))) = some (a, rest) := by
  obtain ⟨c, t, rfl, hc, -⟩ := h.starts
  rw [List.cons_append, skipSpace_append_cons hbefore hc]
  exact h.reads rest hrest

theorem readItems_append (hclose : IsClose close) {m n : Nat} {s : Text} {as : List α}
    (h : SpellsItems close item s as) (has : as ≠ [])
    (hitem : ∀ s a, item s a → s.length ≤ m → ReadsBack close read s a)
    (hm : s.length ≤ m) (hn : s.length ≤ n) (rest : Text) :
    readItems close read n (s ++ rest) = some (as, rest) := by
  induction h generalizing n with
  | nil => contradiction
  | @single before s after a hbefore ha hafter =>
    simp only [List.length_append, List.length_singleton] at hm hn
    obtain ⟨n, rfl⟩ : ∃ k, n = k + 1 := ⟨n - 1, by omega⟩
    have hstop : startsWithDigit (after ++ close :: rest) = false :=
      startsWithDigit_append hafter hclose.not_digit
    have hread := (hitem s a ha (by omega)).read_skipSpace hbefore hstop
    have hskip := skipSpace_append_cons hafter hclose.not_space rest
    simp [readItems, hread, hskip, hclose.not_comma]
  | @cons before s after t a b as hbefore ha hafter ht ih =>
    simp only [List.length_append, List.length_cons] at hm hn
    obtain ⟨n, rfl⟩ : ∃ k, n = k + 1 := ⟨n - 1, by omega⟩
    have hstop : startsWithDigit (after ++ ',' :: (t ++ rest)) = false :=
      startsWithDigit_append hafter rfl
    have hread := (hitem s a ha (by omega)).read_skipSpace hbefore hstop
    have hskip := skipSpace_append_cons hafter (c := ',') rfl (t ++ rest)
    have hrest : readItems close read n (t ++ rest) = some (b :: as, rest) :=
      ih (by simp) (by omega) (by omega)
    simp [readItems, hread, hskip, hrest]

theorem SpellsItems.exists_item {s : Text} {a : α} {as : List α}
    (h : SpellsItems close item s (a :: as)) :
    ∃ before t rest, s = before ++ t ++ rest ∧ IsSpaces before ∧ item t a := by
  cases h with
  | single hbefore ha _ => exact ⟨_, _, _, List.append_assoc .., hbefore, ha⟩
  | cons hbefore ha _ _ => exact ⟨_, _, _, List.append_assoc .., hbefore, ha⟩

theorem readRow_append (hclose : IsClose close) {n : Nat} {s : Text} {as : List α}
    (h : SpellsItems close item s as)
    (hitem : ∀ s a, item s a → s.length ≤ n → ReadsBack close read s a)
    (hn : s.length ≤ n) (rest : Text) : readRow close read n (s ++ rest) = some (as, rest) := by
  cases as with
  | nil =>
    cases h with
    | nil hspace => simp [readRow, skipSpace_append_cons hspace hclose.not_space]
  | cons a as =>
    have hread := readItems_append hclose h (by simp) hitem hn hn rest
    obtain ⟨before, t, after, rfl, hbefore, ha⟩ := h.exists_item
    simp only [List.length_append] at hn
    obtain ⟨c, u, rfl, hspace, hne⟩ := (hitem t a ha (by omega)).starts
    have hskip := skipSpace_append_cons hbefore hspace (u ++ (after ++ rest))
    simp only [List.append_assoc, List.cons_append] at hread ⊢
    simp [readRow, hskip, hne, hread]

end Items

theorem isClose_bracket : IsClose ']' := ⟨rfl, rfl, by decide⟩

theorem isClose_brace : IsClose '\x7d' := ⟨rfl, rfl, by decide⟩

/-- A document starts with a digit, a quote or an opening bracket. -/
theorem Spells.exists_cons {s : Text} {v : JsonValue} (h : Spells s v) :
    ∃ c t, s = c :: t ∧ isSpace c = false ∧ c ≠ ']' := by
  cases h with
  | number n =>
    obtain ⟨c, t, hc, hdigit⟩ := exists_decimal_eq_cons n
    refine ⟨c, t, hc, ?_, ?_⟩
    · cases hspace : isSpace c with
      | false => rfl
      | true => simp [isDigit_eq_false_of_isSpace hspace] at hdigit
    · rintro rfl
      cases hdigit
  | text | list | record => exact ⟨_, _, rfl, rfl, by decide⟩

theorem readsBack_readField {n : Nat} {read : Text → Option (JsonValue × Text)}
    (hvalue : ∀ s v, Spells s v → s.length ≤ n → ReadsBack ']' read s v) {s : Text}
    {f : Text × JsonValue} (h : SpellsField Spells s f) (hn : s.length ≤ n) :
    ReadsBack '\x7d' (readField read n) s f := by
  obtain @⟨k, key, before, after, s, v, hkey, hbefore, hafter, hv⟩ := h
  refine ⟨⟨_, _, rfl, rfl, by decide⟩, fun rest hrest => ?_⟩
  simp only [List.length_cons, List.length_append] at hn
  have hread := readText_append hkey (n := n) (by omega) (before ++ ':' :: (after ++ (s ++ rest)))
  have hskip := skipSpace_append_cons hbefore (c := ':') rfl (after ++ (s ++ rest))
  have hback := (hvalue s v hv (by omega)).read_skipSpace hafter hrest
  simp [readField, hread, hskip, hback]

theorem readsBack_readValue (n : Nat) {s : Text} {v : JsonValue} (h : Spells s v)
    (hn : s.length ≤ n) : ReadsBack ']' (readValue n) s v := by
  refine ⟨h.exists_cons, fun rest hrest => ?_⟩
  -- By induction on the bound: the parts of a value are shorter than the value by its bracket.
  induction n generalizing s v rest with
  | zero =>
    obtain ⟨c, t, rfl, -⟩ := h.exists_cons
    simp at hn
  | succ n ih =>
    have hvalue (s : Text) (v : JsonValue) (hv : Spells s v) (hs : s.length ≤ n) :
        ReadsBack ']' (readValue n) s v := ⟨hv.exists_cons, ih hv hs⟩
    cases h with
    | number k =>
      have hread := readDecimal?_decimal_append k hrest
      obtain ⟨c, t, hc, hdigit⟩ := exists_decimal_eq_cons k
      rw [hc, List.cons_append] at hread ⊢
      rw [readValue, hread]
      · rfl
      -- A digit is none of the characters that start the other kinds of value.
      all_goals
        rintro s ⟨⟩
        cases hdigit
    | text ht =>
      simp only [List.length_cons, Nat.add_le_add_iff_right] at hn
      simp [readValue, readText_append ht hn]
    | list hitems =>
      simp only [List.length_cons, Nat.add_le_add_iff_right] at hn
      simp [readValue, readRow_append isClose_bracket hitems hvalue hn]
    | record hitems =>
      simp only [List.length_cons, Nat.add_le_add_iff_right] at hn
      have hfield (s : Text) (f : Text × JsonValue) (hf : SpellsField Spells s f)
          (hs : s.length ≤ n) := readsBack_readField hvalue hf hs
      simp [readValue, readRow_append isClose_brace hitems hfield hn]

/-- A document is read back as the value it is written for. -/
theorem read?_eq_some {s : Text} {v : JsonValue} (h : IsDocument s v) : read? s = some v := by
  obtain ⟨before, t, after, rfl, hbefore, hafter, ht⟩ := h
  have hstop : startsWithDigit after = false := by
    simpa using startsWithDigit_append hafter (s := []) rfl
  have hlength : t.length ≤ (before ++ (t ++ after)).length := by
    simp only [List.length_append]
    omega
  have hread := (readsBack_readValue _ ht hlength).read_skipSpace hbefore hstop
  have hall : after.all isSpace := List.all_eq_true.2 hafter
  rw [read?, List.append_assoc, hread]
  exact if_pos hall

example : read? " [7 , \"\\ud83d\\ude00\"]".toList = some (list [number 7, text ['😀']]) := by
  cbv

theorem IsDocument.unique {s : Text} {v w : JsonValue} (hv : IsDocument s v) (hw : IsDocument s w) :
    v = w := by
  have hread := read?_eq_some hv
  rw [read?_eq_some hw] at hread
  exact (Option.some.inj hread).symm

end TemplateLint.JsonValue

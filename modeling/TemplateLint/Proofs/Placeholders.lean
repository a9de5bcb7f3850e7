import Mathlib.Data.List.Basic
import TemplateLint.Message
import TemplateLint.Proofs.Occurrences

/-!
# Placeholders of messages

A message template is, in exactly one way, a row of placeholders with text between them and at the
end perhaps a brace that is never closed. A message is the same row with an argument in the place of
every placeholder that has one; nothing is looked for in what was put in.
-/

namespace TemplateLint

/-- A pair of braces with the text in front of it. -/
@[ext]
structure Placeholder where
  before : Text
  inner : Text
  before_plain : '\x7b' ∉ before
  inner_open : '\x7d' ∉ inner

/-- The placeholders of a template, the text behind the last of them, and the rest from a brace that
is never closed, if there is one. -/
@[ext]
structure MessageTemplate where
  placeholders : List Placeholder
  last : Text
  unclosed : Text
  last_plain : '\x7b' ∉ last
  unclosed_open : unclosed = [] ∨ ∃ inside, unclosed = '\x7b' :: inside ∧ '\x7d' ∉ inside

/-- Whether digits are those of the number `n`. -/
def IsDecimal (digits : Text) (n : Nat) : Prop :=
  digits ≠ [] ∧ (∀ c ∈ digits, c.isDigit) ∧ Nat.ofDigitChars 10 digits 0 = n

/-- Whether a text is a number that fits in 64 bits, with or without a plus sign. -/
def IsIndex (s : Text) (n : Nat) : Prop :=
  n < UInt64.size ∧ (IsDecimal s n ∨ ∃ digits, s = '+' :: digits ∧ IsDecimal digits n)

namespace Placeholder

def braces (p : Placeholder) : Text := '\x7b' :: p.inner ++ ['\x7d']

def text (p : Placeholder) : Text := p.before ++ p.braces

/-- Whether a placeholder with `k` empty ones in front of it stands for the argument `n`. -/
def Asks (p : Placeholder) (k n : Nat) : Prop := (p.inner = [] ∧ n = k) ∨ IsIndex p.inner n

/-- What a placeholder with `k` empty ones in front of it is replaced by. -/
inductive ShownAs (args : List Text) (k : Nat) (p : Placeholder) : Text → Prop where
  | argument {n : Nat} {arg : Text} (hasks : p.Asks k n) (harg : args[n]? = some arg) :
      ShownAs args k p arg
  | kept (hnone : ∀ n, p.Asks k n → args[n]? = none) : ShownAs args k p p.braces

end Placeholder

namespace MessageTemplate

def text (t : MessageTemplate) : Text :=
  t.placeholders.flatMap Placeholder.text ++ t.last ++ t.unclosed

/-- How many of the first `m` placeholders are empty. -/
def emptyBefore (t : MessageTemplate) (m : Nat) : Nat :=
  (t.placeholders.take m).countP fun p => p.inner = []

/-- Whether `message` is the template with its placeholders replaced and all else kept. -/
def FilledAs (t : MessageTemplate) (args : List Text) (message : Text) : Prop :=
  ∃ shown : Nat → Placeholder → Text,
    (∀ (m : Nat) (p : Placeholder), t.placeholders[m]? = some p →
      p.ShownAs args (t.emptyBefore m) (shown m p)) ∧
    message =
      (t.placeholders.mapIdx fun m p => p.before ++ shown m p).flatten ++ t.last ++ t.unclosed

end MessageTemplate

section Index

theorem isIndex_plus_iff {digits : Text} {n : Nat} :
    IsIndex ('+' :: digits) n ↔ n < UInt64.size ∧ IsDecimal digits n := by
  have hplus : ¬ IsDecimal ('+' :: digits) n := fun h => absurd (h.2.1 '+' (by simp)) (by decide)
  simp [IsIndex, hplus]

theorem isIndex_iff_of_head? {s : Text} {n : Nat} (h : s.head? ≠ some '+') :
    IsIndex s n ↔ n < UInt64.size ∧ IsDecimal s n := by
  have hplus : ¬ ∃ digits, s = '+' :: digits ∧ IsDecimal digits n := by
    rintro ⟨digits, rfl, -⟩
    exact h rfl
  simp [IsIndex, hplus]

theorem not_isIndex_nil {n : Nat} : ¬ IsIndex [] n := by simp [IsIndex, IsDecimal]

theorem index?_eq_some_iff {s : Text} {n : Nat} : index? s = some n ↔ IsIndex s n := by
  have hread (digits : Text) : digits.foldl (fun n c => n * 10 + (c.toNat - '0'.toNat)) 0 =
      Nat.ofDigitChars 10 digits 0 := by
    simp [Nat.ofDigitChars_eq_foldl, Nat.mul_comm]
  have hlimit : indexLimit = UInt64.size := rfl
  have hindex : index? s = some n ↔
      n < UInt64.size ∧ IsDecimal (if s.head? = some '+' then s.tail else s) n := by
    simp only [index?, hread, hlimit, IsDecimal, Option.ite_none_right_eq_some, Option.some.injEq,
      Bool.and_eq_true, bne_iff_ne, List.all_eq_true]
    constructor
    · rintro ⟨⟨hne, hall⟩, hlt, rfl⟩
      exact ⟨hlt, hne, hall, rfl⟩
    · rintro ⟨hlt, hne, hall, rfl⟩
      exact ⟨⟨hne, hall⟩, hlt, rfl⟩
  rw [hindex]
  by_cases h : s.head? = some '+'
  · obtain ⟨digits, rfl⟩ := List.head?_eq_some_iff.1 h
    exact isIndex_plus_iff.symm
  · rw [if_neg h, isIndex_iff_of_head? h]

end Index

namespace Placeholder

theorem text_append (p : Placeholder) (s : Text) :
    p.text ++ s = p.before ++ '\x7b' :: (p.inner ++ '\x7d' :: s) := by
  simp [text, braces]

def asked? (p : Placeholder) (k : Nat) : Option Nat :=
  if p.inner = [] then some k else index? p.inner

def shown (args : List Text) (k : Nat) (p : Placeholder) : Text :=
  ((p.asked? k).bind (args[·]?)).getD p.braces

variable {args : List Text} {k n : Nat} {p : Placeholder} {s : Text}

theorem asked?_eq_some_iff : p.asked? k = some n ↔ p.Asks k n := by
  by_cases hnil : p.inner = []
  · simp [asked?, Asks, hnil, not_isIndex_nil, eq_comm]
  · simp [asked?, Asks, hnil, index?_eq_some_iff]

theorem shownAs_iff : p.ShownAs args k s ↔ s = p.shown args k := by
  constructor
  · intro h
    cases h with
    | argument hasks harg => simp [shown, asked?_eq_some_iff.2 hasks, harg]
    | kept hnone =>
        cases hasked : p.asked? k with
        | none => simp [shown, hasked]
        | some n => simp [shown, hasked, hnone n (asked?_eq_some_iff.1 hasked)]
  · rintro rfl
    cases harg : (p.asked? k).bind (args[·]?) with
    | none =>
        rw [shown, harg]
        apply ShownAs.kept
        intro n hn
        simpa [asked?_eq_some_iff.2 hn] using harg
    | some arg =>
        obtain ⟨n, hn, hget⟩ := Option.bind_eq_some_iff.1 harg
        rw [shown, harg]
        exact .argument (asked?_eq_some_iff.1 hn) hget

end Placeholder

theorem append_cons_inj_of_not_mem {c : Char} {s s' t t' : Text} (hs : c ∉ s) (hs' : c ∉ s')
    (h : s ++ c :: t = s' ++ c :: t') : s = s' ∧ t = t' := by
  have hcut : breakAt [c] (s ++ c :: t) = some (s, t) :=
    breakAt_singleton_eq_some_iff.2 ⟨rfl, hs⟩
  have hcut' : breakAt [c] (s ++ c :: t) = some (s', t') :=
    breakAt_singleton_eq_some_iff.2 ⟨h, hs'⟩
  simpa [hcut] using hcut'

section Filling

variable {args : List Text} {next : Nat} {s before inside inner after : Text}

theorem fillFrom_of_not_mem (args : List Text) (next : Nat) (h : '\x7b' ∉ s) :
    fillFrom args next s = s := by
  have hopen := breakAt_singleton_eq_none_iff.2 h
  grind [fillFrom]

theorem fillFrom_of_unclosed (hopen : breakAt ['\x7b'] s = some (before, inside))
    (hclose : breakAt ['\x7d'] inside = none) : fillFrom args next s = s := by
  grind [fillFrom]

theorem fillFrom_of_closed (hopen : breakAt ['\x7b'] s = some (before, inside))
    (hclose : breakAt ['\x7d'] inside = some (inner, after)) :
    fillFrom args next s = before ++
      ((if inner = [] then some next else index? inner).bind (args[·]?)).getD
        ('\x7b' :: inner ++ ['\x7d']) ++
      fillFrom args (if inner = [] then next + 1 else next) after := by
  grind [fillFrom]

theorem fillFrom_placeholder_append (args : List Text) (next : Nat) (p : Placeholder) (s : Text) :
    fillFrom args next (p.text ++ s) =
      p.before ++ p.shown args next ++
        fillFrom args (if p.inner = [] then next + 1 else next) s := by
  have hopen : breakAt ['\x7b'] (p.text ++ s) = some (p.before, p.inner ++ '\x7d' :: s) :=
    breakAt_singleton_eq_some_iff.2 ⟨p.text_append s, p.before_plain⟩
  have hclose : breakAt ['\x7d'] (p.inner ++ '\x7d' :: s) = some (p.inner, s) :=
    breakAt_singleton_eq_some_iff.2 ⟨rfl, p.inner_open⟩
  exact fillFrom_of_closed hopen hclose

end Filling

namespace MessageTemplate

theorem fillFrom_rest (t : MessageTemplate) (args : List Text) (next : Nat) :
    fillFrom args next (t.last ++ t.unclosed) = t.last ++ t.unclosed := by
  rcases t.unclosed_open with h | ⟨inside, h, hinside⟩
  · rw [h, List.append_nil]
    exact fillFrom_of_not_mem args next t.last_plain
  · have hopen : breakAt ['\x7b'] (t.last ++ t.unclosed) = some (t.last, inside) :=
      breakAt_singleton_eq_some_iff.2 ⟨by rw [h], t.last_plain⟩
    exact fillFrom_of_unclosed hopen (breakAt_singleton_eq_none_iff.2 hinside)

theorem fillFrom_flatMap_append (args : List Text) (next : Nat) (ps : List Placeholder)
    {rest : Text} (hrest : ∀ next, fillFrom args next rest = rest) :
    fillFrom args next (ps.flatMap Placeholder.text ++ rest) =
      (ps.mapIdx fun m p => p.before ++
        p.shown args (next + (ps.take m).countP fun p => p.inner = [])).flatten ++ rest := by
  induction ps generalizing next with
  | nil => simpa using hrest next
  | cons p ps ih =>
      have hcount (m : Nat) : (if p.inner = [] then next + 1 else next) +
          (ps.take m).countP (fun p => p.inner = []) =
            next + ((p :: ps).take (m + 1)).countP fun p => p.inner = [] := by
        rw [List.take_succ_cons, List.countP_cons]
        by_cases hnil : p.inner = []
        · simp [hnil, Nat.add_assoc, Nat.add_comm 1]
        · simp [hnil]
      rw [List.flatMap_cons, List.append_assoc, fillFrom_placeholder_append, ih, List.mapIdx_cons]
      simp [hcount]

/-- No placeholder is closed in the rest of a template. -/
theorem rest_ne_placeholder (t : MessageTemplate) (p : Placeholder) (s : Text) :
    t.last ++ t.unclosed ≠ p.text ++ s := by
  intro h
  rw [p.text_append] at h
  rcases t.unclosed_open with hunclosed | ⟨inside, hunclosed, hinside⟩
  · rw [hunclosed, List.append_nil] at h
    exact t.last_plain (by simp [h])
  · rw [hunclosed] at h
    obtain ⟨-, hsame⟩ := append_cons_inj_of_not_mem t.last_plain p.before_plain h
    exact hinside (by simp [hsame])

theorem exists_text_eq (s : Text) : ∃ t : MessageTemplate, t.text = s := by
  induction hlength : s.length using Nat.strong_induction_on generalizing s with
  | h n ih =>
      cases hopen : breakAt ['\x7b'] s with
      | none =>
          have hplain := breakAt_singleton_eq_none_iff.1 hopen
          exact ⟨⟨[], s, [], hplain, Or.inl rfl⟩, by simp [text]⟩
      | some cut =>
          obtain ⟨before, inside⟩ := cut
          obtain ⟨rfl, hbefore⟩ := breakAt_singleton_eq_some_iff.1 hopen
          cases hclose : breakAt ['\x7d'] inside with
          | none =>
              have hinside := breakAt_singleton_eq_none_iff.1 hclose
              refine ⟨⟨[], before, '\x7b' :: inside, hbefore, ?_⟩, by simp [text]⟩
              exact Or.inr ⟨inside, rfl, hinside⟩
          | some cut =>
              obtain ⟨inner, after⟩ := cut
              obtain ⟨rfl, hinner⟩ := breakAt_singleton_eq_some_iff.1 hclose
              obtain ⟨t, rfl⟩ := ih after.length (by simp at hlength; omega) after rfl
              let p : Placeholder := ⟨before, inner, hbefore, hinner⟩
              refine ⟨{ t with placeholders := p :: t.placeholders }, ?_⟩
              simp [text, Placeholder.text, Placeholder.braces, p]

theorem takeWhile_rest (t : MessageTemplate) :
    (t.last ++ t.unclosed).takeWhile (· ≠ '\x7b') = t.last := by
  have hlast : ∀ c ∈ t.last, decide (c ≠ '\x7b') = true := by
    intro c hc
    simpa using ne_of_mem_of_not_mem hc t.last_plain
  rw [List.takeWhile_append_of_pos hlast]
  rcases t.unclosed_open with h | ⟨inside, h, -⟩ <;> simp [h]

theorem flatMap_append_rest_inj (t t' : MessageTemplate) {ps ps' : List Placeholder}
    (h : ps.flatMap Placeholder.text ++ (t.last ++ t.unclosed) =
      ps'.flatMap Placeholder.text ++ (t'.last ++ t'.unclosed)) :
    ps = ps' ∧ t.last = t'.last ∧ t.unclosed = t'.unclosed := by
  induction ps generalizing ps' with
  | nil =>
      cases ps' with
      | nil =>
          simp only [List.flatMap_nil, List.nil_append] at h
          have hlast : t.last = t'.last := by rw [← t.takeWhile_rest, h, t'.takeWhile_rest]
          rw [hlast] at h
          exact ⟨rfl, hlast, List.append_cancel_left h⟩
      | cons p' ps' =>
          rw [List.flatMap_cons, List.append_assoc] at h
          exact absurd h (t.rest_ne_placeholder p' _)
  | cons p ps ih =>
      rw [List.flatMap_cons, List.append_assoc] at h
      cases ps' with
      | nil => exact absurd h.symm (t'.rest_ne_placeholder p _)
      | cons p' ps' =>
          rw [List.flatMap_cons, List.append_assoc, p.text_append, p'.text_append] at h
          obtain ⟨hbefore, hrest⟩ := append_cons_inj_of_not_mem p.before_plain p'.before_plain h
          obtain ⟨hinner, hafter⟩ := append_cons_inj_of_not_mem p.inner_open p'.inner_open hrest
          obtain ⟨rfl, hsame⟩ := ih hafter
          exact ⟨by rw [Placeholder.ext hbefore hinner], hsame⟩

theorem text_injective : Function.Injective text := by
  intro t t' h
  rw [text, text, List.append_assoc, List.append_assoc] at h
  obtain ⟨hps, hlast, hunclosed⟩ := flatMap_append_rest_inj t t' h
  exact MessageTemplate.ext hps hlast hunclosed

theorem filledAs_iff (t : MessageTemplate) (args : List Text) (message : Text) :
    t.FilledAs args message ↔ fillFrom args 0 t.text = message := by
  have hfill : fillFrom args 0 t.text = (t.placeholders.mapIdx fun m p =>
      p.before ++ p.shown args (t.emptyBefore m)).flatten ++ t.last ++ t.unclosed := by
    rw [text, List.append_assoc, fillFrom_flatMap_append args 0 _ (t.fillFrom_rest args),
      List.append_assoc]
    simp [emptyBefore]
  rw [hfill]
  constructor
  · rintro ⟨shown, hshown, rfl⟩
    congr 3
    rw [List.mapIdx_eq_mapIdx_iff]
    intro m hm
    rw [Placeholder.shownAs_iff.1 (hshown m _ (List.getElem?_eq_getElem hm))]
  · rintro rfl
    refine ⟨fun m p => p.shown args (t.emptyBefore m), ?_, rfl⟩
    intro m p _
    exact Placeholder.shownAs_iff.2 rfl

end MessageTemplate

/-- A message template can be read in one way only. A message is the template with each placeholder
replaced by the argument that it stands for, if there is one, and all else kept; without arguments
it is the template itself. -/
theorem formatMessage_fills_placeholders (template : Text) :
    (∃! t : MessageTemplate, t.text = template) ∧
      formatMessage template [] = template ∧
      ∀ t : MessageTemplate, t.text = template → ∀ args, args ≠ [] → ∀ message,
        t.FilledAs args message ↔ formatMessage template args = message := by
  obtain ⟨t, rfl⟩ := MessageTemplate.exists_text_eq template
  refine ⟨⟨t, rfl, fun t' h => MessageTemplate.text_injective h⟩, rfl, ?_⟩
  intro t' h args hargs message
  rw [← h, formatMessage, if_neg hargs]
  exact t'.filledAs_iff args message

example : formatMessage "\x7b\x7d \x7ba\x7b\x7d \x7b+1\x7d \x7b2\x7d \x7b\x7d \x7b".toList
    ["\x7b1\x7d".toList, "b".toList] = "\x7b1\x7d \x7ba\x7b\x7d b \x7b2\x7d b \x7b".toList := by
  cbv

end TemplateLint

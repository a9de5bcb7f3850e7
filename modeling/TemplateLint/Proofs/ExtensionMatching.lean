import Mathlib.Data.List.DropRight
import TemplateLint.Extensions
import TemplateLint.Proofs.Utf8Texts

/-!
# Extensions as suffixes

A list of extensions without glob operators is always accepted, and it allows the file names that
end in a dot and one of the extensions. How an extension is spelled, where it stands in the list and
how often it is there make no difference.
-/

namespace TemplateLint

/-- The characters that are not themselves in a glob. -/
def globOperators : List Char := ['*', '?', '[', ']', '\x7b', '\x7d', '\\']

namespace GlobState

theorem readGlob_of_plain {e : Text} (h : ∀ c ∈ e, c ∉ globOperators) (st : GlobState)
    (hclass : st.inClass = none) (hgroups : st.groups = []) :
    readGlob false st e = .ok (st.tokens.reverse ++ e.map .literal) := by
  induction e generalizing st with
  | nil => simp [readGlob, hclass, hgroups]
  | cons c e ih =>
    rw [List.forall_mem_cons] at h
    have hpush : readGlob false (st.push c (.literal c)) e =
        .ok (st.tokens.reverse ++ (c :: e).map .literal) := by
      rw [ih h.2 (st.push c (.literal c)) hclass hgroups]
      simp [push]
    have hc := h.1
    simp only [globOperators, List.mem_cons, List.not_mem_nil, or_false, not_or] at hc
    by_cases hcomma : c = ','
    · subst hcomma
      rw [← hpush, readGlob, hclass]
      simp [comma, hgroups]
    · rw [← hpush, readGlob.eq_def]
      simp only [hclass]
      split <;> simp_all

end GlobState

namespace GlobToken

variable {s t : Bytes} {rests texts : List Bytes}

theorem mem_restsWhile_iff {p : UInt8 → Bool} (hp : ∀ b, p b) :
    t ∈ restsWhile p s ↔ t <:+ s := by
  induction s with
  | nil => simp [restsWhile]
  | cons b s ih => simp [restsWhile, hp, ih, List.suffix_cons_iff]

/-- Rests of one text have different lengths, so dropping repeated lengths drops none. -/
theorem mem_distinctRests_iff (h : ∀ t ∈ rests, t <:+ s) : t ∈ distinctRests rests ↔ t ∈ rests := by
  have hfold (seen : List Bytes) (hseen : ∀ t ∈ seen, t <:+ s) :
      t ∈ rests.foldl (fun seen s => if seen.any (·.length == s.length) then seen
        else seen ++ [s]) seen ↔ t ∈ seen ∨ t ∈ rests := by
    induction rests generalizing seen with
    | nil => simp
    | cons r rests ih =>
      rw [List.forall_mem_cons] at h
      rw [List.foldl_cons]
      split
      next hany =>
        have hr : r ∈ seen := by
          obtain ⟨u, hu, hlength⟩ := List.any_eq_true.1 hany
          have heq : u.length = r.length := by simpa using hlength
          have hsuffix := List.suffix_of_suffix_length_le (hseen u hu) h.1 heq.le
          rwa [← hsuffix.eq_of_length heq]
        rw [ih h.2 seen hseen, List.mem_cons]
        constructor
        · rintro (ht | ht)
          · exact Or.inl ht
          · exact Or.inr (Or.inr ht)
        · rintro (ht | rfl | ht)
          · exact Or.inl ht
          · exact Or.inl hr
          · exact Or.inr ht
      next =>
        rw [ih h.2 (seen ++ [r]), List.mem_append, List.mem_singleton, List.mem_cons, or_assoc]
        simpa [or_imp, forall_and] using ⟨hseen, h.1⟩
  rw [distinctRests, hfold [] (by simp)]
  simp

theorem mem_restsOfAll_literals_iff {inName : Bool} (h : ∀ t ∈ texts, t <:+ s) (e : Text) :
    t ∈ restsOfAll inName texts (e.map literal) ↔ Utf8.encode e ++ t ∈ texts := by
  induction e generalizing texts with
  | nil => simp [restsOfAll, Utf8.encode]
  | cons c e ih =>
    have hmem (u : Bytes) : u ∈ texts.flatMap (fun s => GlobToken.rests inName s (.literal c)) ↔
        String.utf8EncodeChar c ++ u ∈ texts := by
      simp [GlobToken.rests, dropLeading?_eq_some_iff]
    have hsuffix : ∀ u ∈ texts.flatMap (fun s => GlobToken.rests inName s (.literal c)),
        u <:+ s := by
      intro u hu
      exact (List.suffix_append _ u).trans (h _ ((hmem u).1 hu))
    have hdistinct : ∀ u ∈ distinctRests
        (texts.flatMap fun s => GlobToken.rests inName s (.literal c)), u <:+ s := by
      intro u hu
      exact hsuffix u ((mem_distinctRests_iff hsuffix).1 hu)
    rw [List.map_cons, restsOfAll, ih hdistinct, mem_distinctRests_iff hsuffix, hmem,
      Utf8.encode_cons, List.append_assoc]

/-- A star and literals match what ends in the bytes of the literals. -/
theorem isMatch_star_literals_iff (e : Text) (s : Bytes) :
    isMatch false (.zeroOrMore :: e.map literal) s ↔ Utf8.encode e <:+ s := by
  have hall (u : Bytes) : u ∈ [s].flatMap (fun s => GlobToken.rests false s .zeroOrMore) ↔
      u <:+ s := by
    simp [GlobToken.rests, mem_restsWhile_iff]
  have hdistinct (u : Bytes) :
      u ∈ distinctRests ([s].flatMap fun s => GlobToken.rests false s .zeroOrMore) ↔ u <:+ s := by
    rw [mem_distinctRests_iff fun t ht => (hall t).1 ht, hall]
  have hmatch : isMatch false (.zeroOrMore :: e.map literal) s ↔
      [] ∈ restsOfAll false [s] (.zeroOrMore :: e.map literal) := by
    simp [isMatch, List.isEmpty_iff]
  rw [hmatch, restsOfAll, mem_restsOfAll_literals_iff fun t ht => (hdistinct t).1 ht,
    List.append_nil, hdistinct]

theorem not_isTooDeep_star_literals (e : Text) :
    isTooDeep false (.zeroOrMore :: e.map literal) = false := by
  have hliterals : nestingOfAll false (e.map literal) = 0 := by
    induction e with
    | nil => rfl
    | cons c e ih => simp [nestingOfAll, nesting, ih]
  simp [isTooDeep, nestingOfAll, nesting, hliterals, maxNesting]

end GlobToken

section Trimming

variable {p : Char → Bool} {before after e : Text}

theorem trimWhile_append (hbefore : ∀ c ∈ before, p c) (hafter : ∀ c ∈ after, p c) :
    trimWhile p (before ++ e ++ after) = trimWhile p e := by
  have hend (s : Text) : dropWhileEnd p (s ++ after) = dropWhileEnd p s := by
    rw [dropWhileEnd, dropWhileEnd, List.reverse_append, List.dropWhile_append_of_pos]
    simpa using hafter
  rw [trimWhile, trimWhile, List.append_assoc, List.dropWhile_append_of_pos hbefore,
    List.dropWhile_append]
  split
  next hempty =>
    rw [List.isEmpty_iff.1 hempty, List.dropWhile_eq_nil_iff.2 hafter]
  next => rw [hend]

theorem trimWhile_cons_of_eq {c : Char} (hc : p c = false) (he : trimWhile p e = e) :
    trimWhile p (c :: e) = c :: e := by
  have hlast : ∀ hne : c :: e ≠ [], ¬ p ((c :: e).getLast hne) := by
    intro hne
    by_cases hnil : e = []
    · simp [hnil, hc]
    · have hself : (e.dropWhile p).rdropWhile p = e := he
      have hnot := List.rdropWhile_last_not p (e.dropWhile p) (by rwa [hself])
      simpa [List.getLast_cons hnil, hself] using hnot
  have hend : dropWhileEnd p (c :: e) = c :: e := List.rdropWhile_eq_self_iff.2 hlast
  rw [trimWhile, List.dropWhile_cons_of_neg (by simp [hc]), hend]

end Trimming

namespace ExtensionSet

/-- Other ways to write an extension. -/
inductive Respelled (e : Text) : Text → Prop where
  | blanks (before after : Text) (hbefore : ∀ c ∈ before, isBlank c)
      (hafter : ∀ c ∈ after, isBlank c) : Respelled e (before ++ e ++ after)
  | dot (htrim : trim e = e) : Respelled e ('.' :: e)

theorem Respelled.normalize_eq {e e' : Text} (h : Respelled e e') : normalize e' = normalize e := by
  cases h with
  | blanks before after hbefore hafter =>
    rw [normalize, trim, trimWhile_append hbefore hafter, normalize, trim]
  | dot htrim =>
    have hdot : trim ('.' :: e) = '.' :: e := trimWhile_cons_of_eq (by decide) htrim
    rw [normalize, normalize, hdot, htrim, List.dropWhile_cons_of_pos (by simp)]

/-- The glob of the names that end in a dot and an extension. -/
def suffixGlob (e : Text) : List GlobToken := .zeroOrMore :: ('.' :: e).map .literal

theorem globOf_of_plain {e : Text} (h : ∀ c ∈ e, c ∉ globOperators) :
    globOf e = .ok (suffixGlob e) := by
  have hplain : ∀ c ∈ '.' :: e, c ∉ globOperators := List.forall_mem_cons.2 ⟨by decide, h⟩
  have hparse : parseGlob false ('*' :: '.' :: e) = .ok (suffixGlob e) :=
    GlobState.readGlob_of_plain hplain (GlobState.push {} '*' .zeroOrMore) rfl rfl
  rw [globOf, hparse]

theorem mapM_globOf_of_plain {es : List Text} (h : ∀ e ∈ es, ∀ c ∈ e, c ∉ globOperators) :
    es.mapM globOf = .ok (es.map suffixGlob) := by
  induction es with
  | nil => rfl
  | cons e es ih =>
    rw [List.forall_mem_cons] at h
    rw [List.mapM_cons, globOf_of_plain h.1, ih h.2]
    rfl

/-- The extensions of a list that count. -/
def counted (extensions : List Text) : List Text := (extensions.map normalize).filter (· != [])

theorem mem_counted_iff {extensions : List Text} {e : Text} :
    e ∈ counted extensions ↔ e ∈ extensions.map normalize ∧ e ≠ [] := by
  simp [counted]

theorem ofExtensions_of_plain {extensions : List Text}
    (h : ∀ e ∈ extensions, ∀ c ∈ normalize e, c ∉ globOperators) :
    ofExtensions extensions = .ok ((counted extensions).map suffixGlob) := by
  have hplain : ∀ e ∈ counted extensions, ∀ c ∈ e, c ∉ globOperators := by
    intro e he
    obtain ⟨e', he', rfl⟩ := List.mem_map.1 (mem_counted_iff.1 he).1
    exact h e' he'
  have hdeep : ((counted extensions).map suffixGlob).any (GlobToken.isTooDeep false) = false := by
    rw [List.any_map, List.any_eq_false]
    intro e _
    rw [Function.comp_apply, suffixGlob, GlobToken.not_isTooDeep_star_literals]
    exact Bool.false_ne_true
  rw [ofExtensions, ← counted, mapM_globOf_of_plain hplain]
  change (if ((counted extensions).map suffixGlob).any (GlobToken.isTooDeep false) then _
    else _) = _
  rw [hdeep]
  rfl

theorem allows_iff {es : List Text} {path : Text} :
    allows (es.map suffixGlob) path ↔
      ∃ name, Path.fileName? path = some name ∧ ∃ e ∈ es, '.' :: e <:+ name := by
  have hname (name : Text) (e : Text) :
      GlobToken.isMatch false (suffixGlob e) (Utf8.encode name) ↔ '.' :: e <:+ name := by
    rw [suffixGlob, GlobToken.isMatch_star_literals_iff, Utf8.encode_suffix_encode_iff (by simp)]
  simp [allows, allowsName, Option.any_eq_true, hname]

/-- What the extensions of a list allow depends only on their normal forms. -/
theorem allows_counted_iff {extensions : List Text} {path : Text} :
    allows ((counted extensions).map suffixGlob) path ↔
      ∃ name, Path.fileName? path = some name ∧
        ∃ e ∈ extensions.map normalize, e ≠ [] ∧ '.' :: e <:+ name := by
  simp only [allows_iff, mem_counted_iff, and_assoc]

end ExtensionSet

/-- A list of extensions without glob operators is accepted, and the paths that it allows have a
file name that ends in a dot and an extension that is not empty. Lists that differ in the spelling,
the order or the repetition of their extensions allow the same. -/
theorem extensions_match_suffixes (extensions : List Text)
    (h : ∀ e ∈ extensions, ∀ c ∈ ExtensionSet.normalize e, c ∉ globOperators) :
    ∃ set, ExtensionSet.ofExtensions extensions = .ok set ∧
      (∀ path, set.allows path ↔ ∃ name, Path.fileName? path = some name ∧
        ∃ e ∈ extensions.map ExtensionSet.normalize, e ≠ [] ∧ '.' :: e <:+ name) ∧
      ∀ others : List Text,
        (∀ e' ∈ others, ∃ e ∈ extensions, ExtensionSet.Respelled e e') →
        (∀ e ∈ extensions, ∃ e' ∈ others, ExtensionSet.Respelled e e') →
        ∃ set', ExtensionSet.ofExtensions others = .ok set' ∧
          ∀ path, set'.allows path = set.allows path := by
  refine ⟨_, ExtensionSet.ofExtensions_of_plain h, fun _ => ExtensionSet.allows_counted_iff, ?_⟩
  intro others hfrom hto
  have hforms (e : Text) : e ∈ others.map ExtensionSet.normalize ↔
      e ∈ extensions.map ExtensionSet.normalize := by
    simp only [List.mem_map]
    constructor
    · rintro ⟨e', he', rfl⟩
      obtain ⟨e, he, hspelled⟩ := hfrom e' he'
      exact ⟨e, he, hspelled.normalize_eq.symm⟩
    · rintro ⟨e, he, rfl⟩
      obtain ⟨e', he', hspelled⟩ := hto e he
      exact ⟨e', he', hspelled.normalize_eq⟩
  have hplain : ∀ e' ∈ others, ∀ c ∈ ExtensionSet.normalize e', c ∉ globOperators := by
    intro e' he'
    obtain ⟨e, he, hspelled⟩ := hfrom e' he'
    rw [hspelled.normalize_eq]
    exact h e he
  refine ⟨_, ExtensionSet.ofExtensions_of_plain hplain, fun path => ?_⟩
  rw [Bool.eq_iff_iff, ExtensionSet.allows_counted_iff, ExtensionSet.allows_counted_iff]
  simp only [hforms]

theorem extensions_match_suffixes_respelled :
    let extensions : List Text := ["tpl".toList, "html.é".toList, " . ".toList]
    let others : List Text := [".html.é".toList, " . ".toList, "\ttpl ".toList, ".tpl".toList]
    (∀ e ∈ extensions, ∀ c ∈ ExtensionSet.normalize e, c ∉ globOperators) ∧
      ∃ set set', ExtensionSet.ofExtensions extensions = .ok set ∧
        ExtensionSet.ofExtensions others = .ok set' ∧
        (∀ path, set'.allows path = set.allows path) ∧ set.allows "a/.b..html.é/.".toList := by
  intro extensions others
  have hplain : ∀ e ∈ extensions, ∀ c ∈ ExtensionSet.normalize e, c ∉ globOperators := by
    have hall : extensions.all fun e =>
        (ExtensionSet.normalize e).all (!globOperators.contains ·) := by
      decide +kernel
    simpa only [List.all_eq_true, List.contains_eq_mem, Bool.not_eq_true', decide_eq_false_iff_not]
      using hall
  obtain ⟨set, hset, hallows, hothers⟩ := extensions_match_suffixes extensions hplain
  have htpl : ExtensionSet.Respelled "tpl".toList "\ttpl ".toList :=
    .blanks ['\t'] [' '] (List.forall_mem_singleton.2 rfl) (List.forall_mem_singleton.2 rfl)
  have htpl' : ExtensionSet.Respelled "tpl".toList ".tpl".toList := .dot (by decide)
  have hhtml : ExtensionSet.Respelled "html.é".toList ".html.é".toList := .dot (by decide +kernel)
  have hdot : ExtensionSet.Respelled " . ".toList " . ".toList :=
    .blanks [] [] (by simp) (by simp)
  have hfrom : ∀ e' ∈ others, ∃ e ∈ extensions, ExtensionSet.Respelled e e' := by
    simp only [others, List.forall_mem_cons]
    exact ⟨⟨_, .tail _ (.head _), hhtml⟩, ⟨_, .tail _ (.tail _ (.head _)), hdot⟩,
      ⟨_, .head _, htpl⟩, ⟨_, .head _, htpl'⟩, by simp⟩
  have hto : ∀ e ∈ extensions, ∃ e' ∈ others, ExtensionSet.Respelled e e' := by
    simp only [extensions, List.forall_mem_cons]
    exact ⟨⟨_, .tail _ (.tail _ (.head _)), htpl⟩, ⟨_, .head _, hhtml⟩,
      ⟨_, .tail _ (.head _), hdot⟩, by simp⟩
  obtain ⟨set', hset', hsame⟩ := hothers others hfrom hto
  refine ⟨hplain, set, set', hset, hset', hsame, (hallows _).2 ?_⟩
  exact ⟨".b..html.é".toList, by decide +kernel, "html.é".toList, by decide +kernel, by decide,
    by decide +kernel⟩

end TemplateLint

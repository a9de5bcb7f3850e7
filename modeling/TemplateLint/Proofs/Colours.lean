import TemplateLint.Proofs.Decimals
import TemplateLint.Render.RuleTable

/-!
# Colours are decoration

Without its escape sequences a coloured text is the text that is written without colours: sequences
stand only around what is painted, and painting comes after padding.
-/

namespace TemplateLint

namespace Style

/-- What follows an escape character, a bracket, digits and an `m` at the start of a text. -/
def afterSequence? : Text → Option Text
  | c :: '[' :: s =>
      if c = escape ∧ startsWithDigit s then dropLeading? ['m'] (s.dropWhile Char.isDigit) else none
  | _ => none

theorem length_lt_of_afterSequence? {s rest : Text} (h : afterSequence? s = some rest) :
    rest.length < s.length := by
  fun_cases afterSequence? s with
  | case1 c s hc =>
    rw [afterSequence?, if_pos hc] at h
    have hdrop := length_lt_of_dropLeading? (by simp) h
    have hle := (List.dropWhile_sublist Char.isDigit (l := s)).length_le
    simp only [List.length_cons]
    omega
  | case2 c s hc => simp [afterSequence?, hc] at h
  | case3 => simp_all [afterSequence?]

def withoutSequences : Text → Text
  | [] => []
  | c :: s =>
      match _h : afterSequence? (c :: s) with
      | some rest => withoutSequences rest
      | none => c :: withoutSequences s
termination_by s => s.length
decreasing_by
  · exact length_lt_of_afterSequence? _h
  · simp

/-- Whether a text is shown as `plain` without its sequences, whatever follows it. -/
def ShowsAs (s plain : Text) : Prop :=
  ∀ rest, withoutSequences (s ++ rest) = plain ++ withoutSequences rest

theorem afterSequence?_eq_none {c : Char} (hc : c ≠ escape) (s : Text) :
    afterSequence? (c :: s) = none := by
  cases s with
  | nil => rfl
  | cons d s => by_cases hd : d = '[' <;> simp [afterSequence?, hc, hd]

theorem withoutSequences_cons {c : Char} (hc : c ≠ escape) (s : Text) :
    withoutSequences (c :: s) = c :: withoutSequences s := by
  rw [withoutSequences]
  split
  next rest h => simp [afterSequence?_eq_none hc] at h
  next => rfl

theorem withoutSequences_of_afterSequence? {s rest : Text} (h : afterSequence? s = some rest) :
    withoutSequences s = withoutSequences rest := by
  cases s with
  | nil => simp [afterSequence?] at h
  | cons c s => grind [withoutSequences]

variable {s s' plain plain' : Text}

theorem ShowsAs.append (h : ShowsAs s plain) (h' : ShowsAs s' plain') :
    ShowsAs (s ++ s') (plain ++ plain') := by
  intro rest
  rw [List.append_assoc, h, h', List.append_assoc]

theorem ShowsAs.flatMap {α : Type} {l : List α} {f g : α → Text}
    (h : ∀ a ∈ l, ShowsAs (f a) (g a)) : ShowsAs (l.flatMap f) (l.flatMap g) := by
  induction l with
  | nil => exact fun rest => rfl
  | cons a l ih =>
    rw [List.flatMap_cons, List.flatMap_cons]
    rw [List.forall_mem_cons] at h
    exact h.1.append (ih h.2)

theorem showsAs_self (h : escape ∉ s) : ShowsAs s s := by
  intro rest
  induction s with
  | nil => rfl
  | cons c s ih =>
    rw [List.mem_cons, not_or] at h
    rw [List.cons_append, withoutSequences_cons (Ne.symm h.1), ih h.2, List.cons_append]

theorem ShowsAs.withoutSequences_eq (h : ShowsAs s plain) : withoutSequences s = plain := by
  simpa [withoutSequences] using h []

theorem showsAs_sequence {code : Text} (hne : code ≠ []) (h : code.all Char.isDigit) :
    ShowsAs (sequence code) [] := by
  intro rest
  rw [List.all_eq_true] at h
  apply withoutSequences_of_afterSequence?
  obtain ⟨c, code, rfl⟩ := List.exists_cons_of_ne_nil hne
  have hc : c.isDigit := h c List.mem_cons_self
  have hsequence : sequence (c :: code) ++ rest =
      escape :: '[' :: ((c :: code) ++ 'm' :: rest) := by
    simp [sequence]
  have hstart : startsWithDigit ((c :: code) ++ 'm' :: rest) := hc
  rw [hsequence, afterSequence?, if_pos ⟨rfl, hstart⟩, List.dropWhile_append_of_pos h]
  rfl

theorem showsAs_paint (style : Style) (h : escape ∉ s) :
    ShowsAs (style.paint true s) (style.paint false s) := by
  have hon : ShowsAs (sequence style.on) [] := by
    apply showsAs_sequence <;> cases style <;> decide
  have hoff : ShowsAs (sequence style.off) [] := by
    apply showsAs_sequence <;> cases style <;> decide
  simpa [paint] using (hon.append (showsAs_self h)).append hoff

end Style

open Style (escape ShowsAs showsAs_self showsAs_paint)

section Escapes

theorem escape_eq_iff (c : Char) : escape = c ↔ c.toNat = 0x1B := by
  constructor
  · rintro rfl
    rfl
  · intro h
    rw [escape, ← h, Char.ofNat_toNat]

theorem escape_not_mem_decimal (n : Nat) : escape ∉ decimal n := not_mem_decimal (by decide) n

theorem not_mem_joinWith {c : Char} {sep : Text} (hsep : c ∉ sep) {ss : List Text}
    (h : ∀ s ∈ ss, c ∉ s) : c ∉ joinWith sep ss := by
  induction ss with
  | nil => simp [joinWith]
  | cons s ss ih =>
    rw [List.forall_mem_cons] at h
    have hrest : c ∉ sep.intercalate ss := ih h.2
    cases ss with
    | nil => simp [joinWith, h.1]
    | cons s' ss => simp [joinWith, List.intercalate_cons_cons, hsep, h.1, hrest]

theorem escape_not_mem_lineOfText {s : Text} (h : escape ∉ s) : escape ∉ lineOfText s := by
  simp [lineOfText, h, escape_eq_iff]

/-- A line on which only the first word is painted. -/
theorem showsAs_paintedLine (style : Style) {s rest : Text} (hs : escape ∉ s)
    (hrest : escape ∉ rest) :
    ShowsAs (lineOfText (style.paint true s ++ ' ' :: rest))
      (lineOfText (style.paint false s ++ ' ' :: rest)) := by
  have hback : escape ∉ lineOfText (' ' :: rest) :=
    escape_not_mem_lineOfText (by simp [hrest, escape_eq_iff])
  have hline := (showsAs_paint style hs).append (showsAs_self hback)
  simpa only [lineOfText, List.append_assoc] using hline

end Escapes

namespace FileReport

def texts (f : FileReport) : List Text :=
  f.path :: f.diagnostics.flatMap fun d => [d.message, d.source]

theorem showsAs_row (width : Nat) {d : Diagnostic} (hmessage : escape ∉ d.message)
    (hsource : escape ∉ d.source) : ShowsAs (row width true d) (row width false d) := by
  have hfront : escape ∉ ' ' :: padLeft width (decimal d.line) ++ " | ".toList := by
    simp [padLeft, escape_not_mem_decimal, escape_eq_iff]
  have hlabel : escape ∉ padRight 7 d.severity.label := by cases d.severity <;> decide
  have hback : escape ∉ "| ".toList ++ d.message ++ " (".toList ++ d.source ++ ")".toList := by
    simp [hmessage, hsource, escape_eq_iff]
  have hrow := (showsAs_self hfront).append
    (showsAs_paintedLine (Style.ofSeverity d.severity) hlabel hback)
  simpa [row, lineOfText] using hrow

theorem showsAs_renderText {f : FileReport} (h : ∀ t ∈ f.texts, escape ∉ t) :
    ShowsAs (f.renderText true) (f.renderText false) := by
  simp only [texts, List.forall_mem_cons, List.mem_flatMap] at h
  obtain ⟨hpath, htexts⟩ := h
  have hruler : escape ∉ ruler := by decide
  have hhead : escape ∉ lineOfText [] ++ lineOfText ("FILE: ".toList ++ f.path) ++
      lineOfText ruler ++ lineOfText ("FOUND ".toList ++ decimal f.errors ++
        " ERROR(S) AND ".toList ++ decimal f.warnings ++ " WARNING(S) AFFECTING ".toList ++
        decimal f.lines ++ " LINE(S)".toList) ++ lineOfText ruler := by
    simp [lineOfText, hruler, hpath, escape_not_mem_decimal, escape_eq_iff]
  have hrows : ShowsAs (f.diagnostics.flatMap (row f.numberWidth true))
      (f.diagnostics.flatMap (row f.numberWidth false)) := by
    apply ShowsAs.flatMap
    intro d hd
    apply showsAs_row
    · exact htexts d.message ⟨d, hd, by simp⟩
    · exact htexts d.source ⟨d, hd, by simp⟩
  exact ((showsAs_self hhead).append hrows).append
    (showsAs_self (escape_not_mem_lineOfText hruler))

end FileReport

namespace Report

def texts (r : Report) : List Text :=
  r.files.flatMap FileReport.texts ++ r.failures.flatMap fun f => [f.rule, f.message]

theorem escape_not_mem_describe {f : RuleFailure} (hrule : escape ∉ f.rule)
    (hmessage : escape ∉ f.message) : escape ∉ f.describe := by
  have hdescribe : f.describe =
      "multi-file rule `".toList ++ f.rule ++ "` failed: ".toList ++ f.message := rfl
  simp [hdescribe, hrule, hmessage, escape_eq_iff]

theorem escape_not_mem_summary (r : Report) : escape ∉ r.summary := by
  rw [summary]
  split <;> simp [escape_not_mem_decimal, escape_eq_iff]

theorem showsAs_renderText {r : Report} (h : ∀ t ∈ r.texts, escape ∉ t) :
    ShowsAs (r.renderText true) (r.renderText false) := by
  simp only [texts, List.forall_mem_append, List.mem_flatMap] at h
  obtain ⟨hfiles, hfailures⟩ := h
  have hlisting : ShowsAs (r.problemFiles.flatMap (·.renderText true))
      (r.problemFiles.flatMap (·.renderText false)) := by
    apply ShowsAs.flatMap
    intro f hf
    apply FileReport.showsAs_renderText
    intro t ht
    exact hfiles t ⟨f, List.mem_of_mem_filter hf, ht⟩
  have hlines : ShowsAs
      (r.failures.flatMap fun f => lineOfText
        ((Style.ofSeverity .warning).paint true "warning:".toList ++ ' ' :: f.describe))
      (r.failures.flatMap fun f => lineOfText
        ((Style.ofSeverity .warning).paint false "warning:".toList ++ ' ' :: f.describe)) := by
    apply ShowsAs.flatMap
    intro f hf
    apply showsAs_paintedLine
    · decide
    · apply escape_not_mem_describe
      · exact hfailures f.rule ⟨f, hf, by simp⟩
      · exact hfailures f.message ⟨f, hf, by simp⟩
  exact (hlisting.append hlines).append
    (showsAs_self (escape_not_mem_lineOfText r.escape_not_mem_summary))

end Report

namespace Registry

variable {σ : Type}

theorem escape_not_mem_tokenTypes (types : List TokenType) :
    escape ∉ joinWith ", ".toList (types.map TokenType.name) := by
  have hname (t : TokenType) : escape ∉ t.name := by cases t <;> decide
  apply not_mem_joinWith (by decide)
  simp [hname]

theorem escape_not_mem_rows {g : Registry σ} (h : ∀ id ∈ g.ruleIds, escape ∉ id.text) :
    ∀ row ∈ g.rows, escape ∉ row.1 ∧ escape ∉ row.2 := by
  simp only [ruleIds, List.forall_mem_append, List.forall_mem_map] at h
  rw [rows, List.forall_mem_append, List.forall_mem_map, List.forall_mem_map]
  constructor
  · intro rule hrule
    exact ⟨h.1 rule hrule, escape_not_mem_tokenTypes rule.tokenTypes⟩
  · intro rule hrule
    have hdetail : escape ∉ "(multi-file)".toList := by decide
    exact ⟨h.2 rule hrule, hdetail⟩

theorem showsAs_renderTable {g : Registry σ} (h : ∀ id ∈ g.ruleIds, escape ∉ id.text) :
    ShowsAs (g.renderTable true) (g.renderTable false) := by
  apply ShowsAs.flatMap
  rintro ⟨id, detail⟩ hrow
  obtain ⟨hid, hdetail⟩ := escape_not_mem_rows h (id, detail) hrow
  have hpadded : escape ∉ padRight 36 id := by simp [padRight, hid, escape_eq_iff]
  exact showsAs_paintedLine .bold hpadded hdetail

end Registry

/-- Taking the escape sequences out of a coloured listing, or out of a coloured table of rules,
gives the one without colours. -/
theorem colours_are_decoration :
    (∀ r : Report, (∀ t ∈ r.texts, Style.escape ∉ t) →
      Style.withoutSequences (r.renderText true) = r.renderText false) ∧
    ∀ (σ : Type) (g : Registry σ), (∀ id ∈ g.ruleIds, Style.escape ∉ id.text) →
      Style.withoutSequences (g.renderTable true) = g.renderTable false := by
  constructor
  · intro r h
    exact (Report.showsAs_renderText h).withoutSequences_eq
  · intro σ g h
    exact (Registry.showsAs_renderTable h).withoutSequences_eq

theorem colours_are_decoration_bracket_text :
    let d : Diagnostic := ⟨3, 1, .error, "[31m".toList, "A.B".toList⟩
    let r : Report := ⟨[⟨"39m[".toList, 1, 0, 1, [d]⟩], [⟨"M.N".toList, "m".toList⟩]⟩
    let rule : FileRule Unit := .ofTokens "Rules.A.[1m".toList [.tag, .tab] fun _ _ _ => ([], .done)
    let g : Registry Unit := ⟨[⟨⟨"A".toList, "[1m".toList⟩, [.tag, .tab], rule⟩], [], fun _ => []⟩
    (∀ t ∈ r.texts, Style.escape ∉ t) ∧ (∀ id ∈ g.ruleIds, Style.escape ∉ id.text) ∧
      Style.withoutSequences (r.renderText true) = r.renderText false ∧
      Style.withoutSequences (g.renderTable true) = g.renderTable false := by
  intro d r rule g
  have hr : ∀ t ∈ r.texts, Style.escape ∉ t := by decide
  have hg : ∀ id ∈ g.ruleIds, Style.escape ∉ id.text := by decide
  exact ⟨hr, hg, colours_are_decoration.1 r hr, colours_are_decoration.2 Unit g hg⟩

end TemplateLint

import Mathlib.Data.List.Basic
import TemplateLint.Proofs.Occurrences
import TemplateLint.Text.Utf8

/-!
# Texts in UTF-8

The bytes of a text determine it: a character is read back from its bytes whatever follows them, and
no byte inside a character can be mistaken for the first byte of one. So the bytes of a text start
with those of another, or contain them, exactly where the text does.
-/

namespace TemplateLint

namespace Utf8

/-- Whether a byte continues a character. -/
def isContinuation (b : UInt8) : Bool := 0x80 ≤ b && b < 0xC0

section OneCharacter

theorem isContinuation_ofNat {n : Nat} (h : n < 256) :
    isContinuation (UInt8.ofNat n) ↔ 0x80 ≤ n ∧ n < 0xC0 := by
  simp [isContinuation, UInt8.le_iff_toNat_le, UInt8.lt_iff_toNat_lt, Nat.mod_eq_of_lt h]

theorem follow?_ofNat {n : Nat} (h : n < 256) : follow? (UInt8.ofNat n) =
    if n < 0x80 then some (0, 0x80, 0xBF)
    else if n < 0xC2 then none
    else if n < 0xE0 then some (1, 0x80, 0xBF)
    else if n = 0xE0 then some (2, 0xA0, 0xBF)
    else if n = 0xED then some (2, 0x80, 0x9F)
    else if n < 0xF0 then some (2, 0x80, 0xBF)
    else if n = 0xF0 then some (3, 0x90, 0xBF)
    else if n < 0xF4 then some (3, 0x80, 0xBF)
    else if n = 0xF4 then some (3, 0x80, 0x8F)
    else none := by
  simp only [follow?, UInt8.lt_iff_toNat_lt, beq_iff_eq, ← UInt8.toNat_inj, UInt8.reduceToNat,
    UInt8.toNat_ofNat_of_lt' h]

theorem continueChar_succ {lo hi : UInt8} {k : Nat} (hlo : lo.toNat ≤ k % 64 + 0x80)
    (hhi : k % 64 + 0x80 ≤ hi.toNat) (acc n : Nat) (s : Bytes) :
    continueChar acc (n + 1) lo hi (UInt8.ofNat (k % 64 + 0x80) :: s) =
      continueChar (acc * 64 + k % 64) n 0x80 0xBF s := by
  have hk : (UInt8.ofNat (k % 64 + 0x80)).toNat = k % 64 + 0x80 :=
    UInt8.toNat_ofNat_of_lt' (hhi.trans_lt hi.toNat_lt)
  have hin : (lo ≤ UInt8.ofNat (k % 64 + 0x80) && UInt8.ofNat (k % 64 + 0x80) ≤ hi) = true := by
    rw [Bool.and_eq_true, decide_eq_true_eq, decide_eq_true_eq, UInt8.le_iff_toNat_le,
      UInt8.le_iff_toNat_le, hk]
    exact ⟨hlo, hhi⟩
  have hbits : (k % 64 + 0x80) % 64 = k % 64 := by omega
  rw [continueChar, if_pos hin, hk, hbits]

theorem continueChar_tail (acc n k : Nat) (s : Bytes) :
    continueChar acc (n + 1) 0x80 0xBF (UInt8.ofNat (k % 64 + 0x80) :: s) =
      continueChar (acc * 64 + k % 64) n 0x80 0xBF s := by
  refine continueChar_succ ?_ ?_ acc n s
  · change 0x80 ≤ _
    omega
  · change _ ≤ 0xBF
    omega

theorem readChar_of_follow? {b lo hi : UInt8} {n : Nat} (hf : follow? b = some (n, lo, hi))
    {s rest : Bytes} {code : Nat}
    (hc : continueChar (leadBits b n) n lo hi s = (code, true, rest)) :
    readChar b s = (some (Char.ofNat code), rest) := by
  rw [readChar, hf]
  dsimp only
  rw [hc]
  rfl

/-- The lead bytes of characters of three bytes. The first one and the one before the surrogates
leave less to the byte that follows. -/
theorem follow?_three {x : Nat} (hx : x < 16) :
    ∃ lo hi, follow? (UInt8.ofNat (x + 0xE0)) = some (2, lo, hi) ∧
      lo.toNat = (if x = 0 then 0xA0 else 0x80) ∧ hi.toNat = if x = 13 then 0x9F else 0xBF := by
  rw [follow?_ofNat (by omega)]
  by_cases h0 : x = 0
  · subst h0
    exact ⟨_, _, rfl, rfl, rfl⟩
  · by_cases h13 : x = 13
    · subst h13
      exact ⟨_, _, rfl, rfl, rfl⟩
    · refine ⟨0x80, 0xBF, ?_, by simp [h0], by simp [h13]⟩
      rw [if_neg (by omega), if_neg (by omega), if_neg (by omega), if_neg (by omega),
        if_neg (by omega), if_pos (by omega)]

/-- The lead bytes of characters of four bytes. The first and the last one leave less to the byte
that follows. -/
theorem follow?_four {x : Nat} (hx : x ≤ 4) :
    ∃ lo hi, follow? (UInt8.ofNat (x + 0xF0)) = some (3, lo, hi) ∧
      lo.toNat = (if x = 0 then 0x90 else 0x80) ∧ hi.toNat = if x = 4 then 0x8F else 0xBF := by
  rw [follow?_ofNat (by omega)]
  by_cases h0 : x = 0
  · subst h0
    exact ⟨_, _, rfl, rfl, rfl⟩
  · by_cases h4 : x = 4
    · subst h4
      exact ⟨_, _, rfl, rfl, rfl⟩
    · refine ⟨0x80, 0xBF, ?_, by simp [h0], by simp [h4]⟩
      rw [if_neg (by omega), if_neg (by omega), if_neg (by omega), if_neg (by omega),
        if_neg (by omega), if_neg (by omega), if_neg (by omega), if_pos (by omega)]

theorem utf8EncodeChar_eq (c : Char) : String.utf8EncodeChar c =
    if c.toNat ≤ 0x7F then [UInt8.ofNat c.toNat]
    else if c.toNat ≤ 0x7FF then
      [UInt8.ofNat (c.toNat / 64 % 32 + 0xC0), UInt8.ofNat (c.toNat % 64 + 0x80)]
    else if c.toNat ≤ 0xFFFF then
      [UInt8.ofNat (c.toNat / 4096 % 16 + 0xE0), UInt8.ofNat (c.toNat / 64 % 64 + 0x80),
        UInt8.ofNat (c.toNat % 64 + 0x80)]
    else
      [UInt8.ofNat (c.toNat / 262144 % 8 + 0xF0), UInt8.ofNat (c.toNat / 4096 % 64 + 0x80),
        UInt8.ofNat (c.toNat / 64 % 64 + 0x80), UInt8.ofNat (c.toNat % 64 + 0x80)] :=
  rfl

/-- Every character is one byte that continues nothing and then bytes that continue it, and it is
read back from them. -/
theorem exists_encodeChar (c : Char) : ∃ b bs, String.utf8EncodeChar c = b :: bs ∧
    isContinuation b = false ∧ (∀ x ∈ bs, isContinuation x) ∧
    ∀ s, readChar b (bs ++ s) = (some c, s) := by
  have hvalid : c.toNat < 0xD800 ∨ 0xDFFF < c.toNat ∧ c.toNat < 0x110000 := c.valid
  have hlead {n : Nat} (hn : n < 256) (hout : n < 0x80 ∨ 0xC0 ≤ n) :
      isContinuation (UInt8.ofNat n) = false := by
    rw [← Bool.not_eq_true, isContinuation_ofNat hn]
    omega
  have htail (n : Nat) : isContinuation (UInt8.ofNat (n % 64 + 0x80)) := by
    rw [isContinuation_ofNat] <;> omega
  have hread {b lo hi : UInt8} {n code : Nat} {s rest : Bytes}
      (hf : follow? b = some (n, lo, hi))
      (hc : continueChar (leadBits b n) n lo hi s = (code, true, rest))
      (hcode : code = c.toNat) : readChar b s = (some c, rest) := by
    rw [readChar_of_follow? hf hc, hcode, Char.ofNat_toNat]
  rw [utf8EncodeChar_eq]
  split
  next h₁ =>
    have hn : c.toNat < 256 := by omega
    refine ⟨_, _, rfl, hlead hn (by omega), by simp, fun s => ?_⟩
    have hf : follow? (UInt8.ofNat c.toNat) = some (0, 0x80, 0xBF) := by
      rw [follow?_ofNat hn, if_pos (by omega)]
    exact hread hf rfl (UInt8.toNat_ofNat_of_lt' hn)
  next h₁ =>
    split
    next h₂ =>
      have hn : c.toNat / 64 % 32 + 0xC0 < 256 := by omega
      refine ⟨_, _, rfl, hlead hn (by omega), List.forall_mem_singleton.2 (htail _), fun s => ?_⟩
      have hf : follow? (UInt8.ofNat (c.toNat / 64 % 32 + 0xC0)) = some (1, 0x80, 0xBF) := by
        rw [follow?_ofNat hn, if_neg (by omega), if_neg (by omega), if_pos (by omega)]
      refine hread hf (continueChar_tail _ _ _ s) ?_
      rw [leadBits, UInt8.toNat_ofNat_of_lt' hn]
      omega
    next h₂ =>
      split
      next h₃ =>
        have hn : c.toNat / 4096 % 16 + 0xE0 < 256 := by omega
        refine ⟨_, _, rfl, hlead hn (by omega), List.forall_mem_cons.2
          ⟨htail _, List.forall_mem_singleton.2 (htail _)⟩, fun s => ?_⟩
        obtain ⟨lo, hi, hf, hlo, hhi⟩ := follow?_three (x := c.toNat / 4096 % 16) (by omega)
        refine hread hf ((continueChar_succ ?_ ?_ _ _ _).trans (continueChar_tail _ _ _ s)) ?_
        · rw [hlo]
          split <;> omega
        · rw [hhi]
          split <;> omega
        · rw [leadBits, UInt8.toNat_ofNat_of_lt' hn]
          omega
      next h₃ =>
        have hn : c.toNat / 262144 % 8 + 0xF0 < 256 := by omega
        refine ⟨_, _, rfl, hlead hn (by omega), List.forall_mem_cons.2 ⟨htail _,
          List.forall_mem_cons.2 ⟨htail _, List.forall_mem_singleton.2 (htail _)⟩⟩, fun s => ?_⟩
        obtain ⟨lo, hi, hf, hlo, hhi⟩ := follow?_four (x := c.toNat / 262144 % 8) (by omega)
        refine hread hf ((continueChar_succ ?_ ?_ _ _ _).trans
          ((continueChar_tail _ _ _ _).trans (continueChar_tail _ _ _ s))) ?_
        · rw [hlo]
          split <;> omega
        · rw [hhi]
          split <;> omega
        · simp only [leadBits, UInt8.toNat_ofNat_of_lt' hn]
          omega

end OneCharacter

section Texts

theorem encode_cons (c : Char) (s : Text) : encode (c :: s) = String.utf8EncodeChar c ++ encode s :=
  List.flatMap_cons

theorem encode_append (s t : Text) : encode (s ++ t) = encode s ++ encode t :=
  List.flatMap_append

theorem encode_eq_nil_iff {s : Text} : encode s = [] ↔ s = [] := by
  cases s with
  | nil => simp [encode]
  | cons c s =>
      obtain ⟨b, bs, hbs, -⟩ := exists_encodeChar c
      simp [encode_cons, hbs]

theorem length_encode_pos {s : Text} (h : s ≠ []) : 0 < (encode s).length :=
  List.length_pos_iff.2 fun hs => h (encode_eq_nil_iff.1 hs)

/-- A text is read back from its bytes, whatever bytes follow them. -/
theorem decodeLossy_encode_append (s : Text) (rest : Bytes) :
    decodeLossy (encode s ++ rest) = s ++ decodeLossy rest := by
  induction s with
  | nil => rfl
  | cons c s ih =>
      obtain ⟨b, bs, hbs, -, -, hread⟩ := exists_encodeChar c
      rw [encode_cons, hbs, List.append_assoc, List.cons_append, decodeLossy, readChars, hread,
        List.map_cons, List.cons_append, ← ih]
      rfl

theorem decodeLossy_encode (s : Text) : decodeLossy (encode s) = s := by
  have hnil : decodeLossy [] = [] := by simp [decodeLossy, readChars]
  rw [← List.append_nil (encode s), decodeLossy_encode_append, hnil, List.append_nil]

/-- The bytes of a text start with those of another exactly when the text starts with it. -/
theorem dropLeading?_encode (head s : Text) :
    dropLeading? (encode head) (encode s) = (dropLeading? head s).map encode := by
  cases h : dropLeading? head s with
  | some rest =>
      rw [eq_append_of_dropLeading? h, encode_append]
      exact dropLeading?_self_append _ _
  | none =>
      refine dropLeading?_eq_none_iff.2 fun ⟨rest, hrest⟩ => ?_
      have hs : s = head ++ decodeLossy rest := by
        rw [← decodeLossy_encode_append, hrest, decodeLossy_encode]
      exact dropLeading?_eq_none_iff.1 h ⟨_, hs.symm⟩

/-- What starts with the first byte of a character does not start inside one. -/
theorem breakAt_continuation_append {needle : Bytes} {b : UInt8} (hb : needle.head? = some b)
    (hlead : isContinuation b = false) {bs : Bytes} (hbs : ∀ x ∈ bs, isContinuation x)
    (rest : Bytes) :
    breakAt needle (bs ++ rest) = (breakAt needle rest).map fun p => (bs ++ p.1, p.2) := by
  obtain ⟨needle, rfl⟩ := List.head?_eq_some_iff.1 hb
  induction bs with
  | nil => simp
  | cons x bs ih =>
      have hne : b ≠ x := by
        rintro rfl
        rw [hbs b List.mem_cons_self] at hlead
        exact Bool.noConfusion hlead
      rw [List.cons_append, breakAt, dropLeading?, if_neg hne,
        ih fun y hy => hbs y (List.mem_cons_of_mem _ hy), Option.map_map]
      rfl

theorem exists_head?_encode {s : Text} (hne : s ≠ []) :
    ∃ b, (encode s).head? = some b ∧ isContinuation b = false := by
  obtain ⟨c, s, rfl⟩ := List.exists_cons_of_ne_nil hne
  obtain ⟨b, bs, hbs, hlead, -⟩ := exists_encodeChar c
  exact ⟨b, by rw [encode_cons, hbs]; rfl, hlead⟩

/-- The first occurrence of a text among the bytes is its first occurrence in the text. -/
theorem breakAt_encode {needle : Text} (hne : needle ≠ []) (s : Text) :
    breakAt (encode needle) (encode s) =
      (breakAt needle s).map fun p => (encode p.1, encode p.2) := by
  obtain ⟨b, hb, hlead⟩ := exists_head?_encode hne
  induction s with
  | nil =>
      have hnil : encode [] = [] := rfl
      rw [hnil, breakAt, breakAt, if_neg hne, if_neg fun h => hne (encode_eq_nil_iff.1 h)]
      rfl
  | cons c s ih =>
      obtain ⟨x, xs, hxs, -, hcont, -⟩ := exists_encodeChar c
      have henc : encode (c :: s) = x :: (xs ++ encode s) := by rw [encode_cons, hxs]; rfl
      have hdrop := dropLeading?_encode needle (c :: s)
      rw [henc] at hdrop
      rw [henc, breakAt, breakAt, hdrop]
      cases dropLeading? needle (c :: s) with
      | some rest => rfl
      | none =>
          rw [Option.map_none, breakAt_continuation_append hb hlead hcont, ih]
          dsimp only
          rw [Option.map_map, Option.map_map, Option.map_map]
          congr 1
          funext p
          simp [Function.comp_def, encode_cons, hxs]

theorem encode_injective : Function.Injective encode :=
  Function.LeftInverse.injective decodeLossy_encode

/-- The bytes of a text end in those of another exactly when the text ends in it. -/
theorem encode_suffix_encode_iff {tail : Text} (hne : tail ≠ []) (s : Text) :
    encode tail <:+ encode s ↔ tail <:+ s := by
  constructor
  · rintro ⟨front, hfront⟩
    obtain ⟨b, hb, hlead⟩ := exists_head?_encode hne
    induction s generalizing front with
    | nil =>
        have hnil : front ++ encode tail = [] := hfront
        exact absurd (encode_eq_nil_iff.1 (List.append_eq_nil_iff.1 hnil).2) hne
    | cons c s ih =>
        obtain ⟨x, xs, hxs, -, hcont, -⟩ := exists_encodeChar c
        rw [encode_cons, hxs] at hfront
        cases front with
        | nil =>
            rw [List.nil_append, ← hxs, ← encode_cons] at hfront
            rw [encode_injective hfront]
        | cons y front =>
            obtain ⟨-, hrest⟩ := List.cons.inj hfront
            rcases List.append_eq_append_iff.1 hrest with ⟨more, hmore, htail⟩ | ⟨more, -, hs⟩
            · cases more with
              | nil =>
                  rw [encode_injective htail]
                  exact List.suffix_cons c s
              | cons z more =>
                  -- The lead byte of the tail is none of the bytes that continue `c`.
                  obtain rfl : z = b := by simpa [htail] using hb
                  simp [hcont z (by simp [hmore])] at hlead
            · exact (ih more hs.symm).trans (List.suffix_cons c s)
  · rintro ⟨front, rfl⟩
    rw [encode_append]
    exact List.suffix_append _ _

end Texts

end Utf8

end TemplateLint

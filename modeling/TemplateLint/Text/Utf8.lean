import TemplateLint.Text.Basic

/-!
# UTF-8

Texts as bytes and bytes as texts. Reading is lossy or strict: the lossy reader puts U+FFFD in
place of every maximal part that is not the start of a well-formed character, the strict one
refuses the bytes.
-/

namespace TemplateLint

abbrev Bytes := List UInt8

namespace Utf8

def encode (s : Text) : Bytes := s.flatMap String.utf8EncodeChar

/-- How many continuation bytes follow the lead byte `b`, and the least and the greatest value of
the first of them. Bytes that start no character have no answer. -/
def follow? (b : UInt8) : Option (Nat × UInt8 × UInt8) :=
  if b < 0x80 then some (0, 0x80, 0xBF)
  else if b < 0xC2 then none
  else if b < 0xE0 then some (1, 0x80, 0xBF)
  else if b == 0xE0 then some (2, 0xA0, 0xBF)
  else if b == 0xED then some (2, 0x80, 0x9F)
  else if b < 0xF0 then some (2, 0x80, 0xBF)
  else if b == 0xF0 then some (3, 0x90, 0xBF)
  else if b < 0xF4 then some (3, 0x80, 0xBF)
  else if b == 0xF4 then some (3, 0x80, 0x8F)
  else none

def leadBits (b : UInt8) (n : Nat) : Nat :=
  match n with
  | 0 => b.toNat
  | 1 => b.toNat % 0x20
  | 2 => b.toNat % 0x10
  | _ => b.toNat % 0x08

/-- Read up to `n` continuation bytes, the first of them between `lo` and `hi`. The answer has the
number so far, whether all `n` were there, and the rest. -/
def continueChar (acc : Nat) : Nat → UInt8 → UInt8 → Bytes → Nat × Bool × Bytes
  | 0, _, _, s => (acc, true, s)
  | _ + 1, _, _, [] => (acc, false, [])
  | n + 1, lo, hi, b :: s =>
      if lo ≤ b && b ≤ hi then continueChar (acc * 64 + b.toNat % 64) n 0x80 0xBF s
      else (acc, false, b :: s)

theorem length_continueChar_le (acc n : Nat) (lo hi : UInt8) (s : Bytes) :
    (continueChar acc n lo hi s).2.2.length ≤ s.length := by
  induction n generalizing acc lo hi s with
  | zero => simp [continueChar]
  | succ n ih =>
      cases s with
      | nil => simp [continueChar]
      | cons b s =>
          rw [continueChar]
          split
          · exact Nat.le_succ_of_le (ih ..)
          · simp

/-- Read one character. `none` in place of it stands for a maximal part that is no character. -/
def readChar (b : UInt8) (s : Bytes) : Option Char × Bytes :=
  match follow? b with
  | none => (none, s)
  | some (n, lo, hi) =>
      let (code, whole, rest) := continueChar (leadBits b n) n lo hi s
      (if whole then some (Char.ofNat code) else none, rest)

theorem length_readChar_le (b : UInt8) (s : Bytes) : (readChar b s).2.length ≤ s.length := by
  rw [readChar]
  split
  · simp
  · exact length_continueChar_le ..

def readChars : Bytes → List (Option Char)
  | [] => []
  | b :: s => (readChar b s).1 :: readChars (readChar b s).2
termination_by s => s.length
decreasing_by exact Nat.lt_succ_of_le (length_readChar_le b s)

def decodeLossy (bytes : Bytes) : Text := (readChars bytes).map fun c => c.getD (Char.ofNat 0xFFFD)

def decode? (bytes : Bytes) : Option Text := (readChars bytes).mapM id

def lines (bytes : Bytes) : List Bytes :=
  let pieces := bytes.splitOn 0x0A
  pieces.dropLast.map (fun line => (dropTrailing? [0x0D] line).getD line) ++
    pieces.getLast?.toList

def firstLine? (bytes : Bytes) : Option Text :=
  if bytes = [] then none else (lines bytes).head?.bind decode?

end Utf8

end TemplateLint

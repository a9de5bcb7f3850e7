import TemplateLint.Text.Utf8

/-!
# Globs

A glob is a sequence of tokens that a name or a path, taken as bytes, has to match as a whole. A
match is computed as the set of rests that a sequence can leave, so it takes no search.
-/

namespace TemplateLint

inductive GlobToken where
  | literal (c : Char)
  | any
  | zeroOrMore
  | leadingDirectories
  | everythingBelow
  | innerDirectories
  | oneOf (negated : Bool) (ranges : List (Char × Char))
  | alternates (branches : List (List GlobToken))

namespace GlobToken

def slash : UInt8 := 0x2F

/-- The ranges of bytes that a range of characters stands for. A character of several bytes stands
for each of them; the last byte of one end and the first byte of the other bound a range. -/
def byteRanges (range : Char × Char) : List (UInt8 × UInt8) :=
  let lo := String.utf8EncodeChar range.1
  let hi := String.utf8EncodeChar range.2
  if range.1 = range.2 then lo.map fun b => (b, b)
  else
    lo.dropLast.map (fun b => (b, b)) ++ [(lo.getLastD 0, hi.headD 0)] ++
      hi.tail.map fun b => (b, b)

def inRanges (ranges : List (Char × Char)) (b : UInt8) : Bool :=
  (ranges.flatMap byteRanges).any fun (lo, hi) => lo ≤ b && b ≤ hi

def restsWhile (p : UInt8 → Bool) : Bytes → List Bytes
  | [] => [[]]
  | b :: s => (b :: s) :: if p b then restsWhile p s else []

def restsAfterSlash : Bytes → List Bytes
  | [] => []
  | b :: s => if b = slash then s :: restsAfterSlash s else restsAfterSlash s

/-- Rests without repetitions. Rests of one text are told apart by their lengths. -/
def distinctRests (rests : List Bytes) : List Bytes :=
  rests.foldl (fun seen s => if seen.any (·.length == s.length) then seen else seen ++ [s]) []

mutual

def isVoid : GlobToken → Bool
  | alternates branches => allVoid branches
  | _ => false

def isVoidSequence : List GlobToken → Bool
  | [] => true
  | t :: ts => isVoid t && isVoidSequence ts

def allVoid : List (List GlobToken) → Bool
  | [] => true
  | ts :: tss => isVoidSequence ts && allVoid tss

end

mutual

def rests (inName : Bool) (s : Bytes) : GlobToken → List Bytes
  | literal c => (dropLeading? (String.utf8EncodeChar c) s).toList
  | any =>
      match s with
      | b :: s => if inName && b == slash then [] else [s]
      | [] => []
  | zeroOrMore => restsWhile (fun b => !(inName && b == slash)) s
  | leadingDirectories => s :: restsAfterSlash s
  | everythingBelow =>
      match s with
      | b :: s => if b = slash then restsWhile (fun _ => true) s else []
      | [] => []
  | innerDirectories =>
      match s with
      | b :: s => if b = slash then s :: restsAfterSlash s else []
      | [] => []
  | oneOf negated ranges =>
      match s with
      | b :: s => if inRanges ranges b != negated then [s] else []
      | [] => []
  | alternates branches => if allVoid branches then [s] else restsOfAny inName s branches

def restsOfAll (inName : Bool) (texts : List Bytes) : List GlobToken → List Bytes
  | [] => texts
  | t :: ts => restsOfAll inName (distinctRests (texts.flatMap fun s => rests inName s t)) ts

/-- The rests that one of several sequences can leave of a text. Empty sequences do not count. -/
def restsOfAny (inName : Bool) (s : Bytes) : List (List GlobToken) → List Bytes
  | [] => []
  | ts :: tss =>
      (if isVoidSequence ts then [] else restsOfAll inName [s] ts) ++ restsOfAny inName s tss

end

/-- Whether a text matches a glob as a whole. Two stars alone match everything. -/
def isMatch (inName : Bool) (glob : List GlobToken) (s : Bytes) : Bool :=
  match glob with
  | [leadingDirectories] => true
  | _ => (restsOfAll inName [s] glob).any List.isEmpty

end GlobToken

end TemplateLint

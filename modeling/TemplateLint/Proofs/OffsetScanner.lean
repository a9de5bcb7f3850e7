import TemplateLint.Proofs.Utf8Texts
import TemplateLint.Lexeme

/-!
# Scanning by byte offsets

The scanner once more, this time over the bytes of a template: it holds offsets in place of the
texts that are left, looks for delimiters among the bytes and cuts slices out of them. Whatever
could go wrong with that is checked where it is done, so that a slice across a character, a
difference below zero and a loop that stands still are answers of their own.
-/

namespace TemplateLint

/-- What can go wrong in scanning by offsets. -/
inductive OffsetFault where
  /-- A slice that is reversed, leaves the bytes or cuts a character. -/
  | slice (lo hi : Nat)
  /-- A difference below zero. -/
  | underflow (a b : Nat)
  /-- A loop that does not get further, or gets out of the bytes. -/
  | stalled (offset : Nat)
  deriving DecidableEq, Repr

/-- A segment by its bytes. -/
inductive ByteSegment where
  | text (bytes : Bytes)
  | tag (bytes : Bytes)
  deriving DecidableEq, Repr

/-- The bytes of a segment. -/
def Segment.encode : Segment → ByteSegment
  | text s => .text (Utf8.encode s)
  | tag s => .tag (Utf8.encode s)

namespace Utf8

/-- Whether a slice may start or end at an offset: at both ends of the bytes, and before a byte that
continues no character. -/
def isBoundary (bytes : Bytes) (offset : Nat) : Bool :=
  offset == 0 || offset == bytes.length || (bytes[offset]?).any fun b => !isContinuation b

/-- The bytes from offset `lo` up to offset `hi`. -/
def slice (bytes : Bytes) (lo hi : Nat) : Except OffsetFault Bytes :=
  if lo ≤ hi ∧ isBoundary bytes lo ∧ isBoundary bytes hi then .ok ((bytes.take hi).drop lo)
  else .error (.slice lo hi)

/-- The difference of two offsets or counts. -/
def difference (a b : Nat) : Except OffsetFault Nat :=
  if b ≤ a then .ok (a - b) else .error (.underflow a b)

end Utf8

open Utf8

namespace Markup

/-- How a turn of the search for the end of a tag turns out. -/
inductive NestedTurn where
  | closed (stop : Nat)
  | next (depth literal index : Nat)

/-- Whether the right delimiter at `index` is literal. What stands before it is only looked at when
there is a literal left delimiter that it can belong to. -/
def isLiteralRight (m : Markup) (source : Bytes) (literal index : Nat) : Except OffsetFault Bool :=
  if literal > 0 then
    (slice source 0 index).map fun front => m.isLiteralBeside (decodeLossy front).getLast?
  else .ok false

/-- One turn of the search at `index`, where `depth` counts the tags that are open, the outermost
one included, and `literal` the literal left delimiters. -/
def nestedTurn (m : Markup) (source : Bytes) (depth literal index : Nat) :
    Except OffsetFault NestedTurn := do
  let rest ← slice source index source.length
  if (dropLeading? (encode m.right) rest).isSome then
    let stop := index + (encode m.right).length
    if ← m.isLiteralRight source literal index then
      return .next depth (← difference literal 1) stop
    else
      let depth ← difference depth 1
      return if depth = 0 then .closed stop else .next depth literal stop
  else if (dropLeading? (encode m.left) rest).isSome then
    let next := index + (encode m.left).length
    let inside ← slice source next source.length
    return if m.isLiteralBeside (decodeLossy inside).head? then .next depth (literal + 1) next
      else .next (depth + 1) literal next
  else
    return .next depth literal (index + (decodeLossy rest).head?.elim 1 Char.utf8Size)

/-- Search from `index` on for the right delimiter that balances a tag, and give the offset behind
it. -/
def nestedEnd (m : Markup) (source : Bytes) (depth literal index : Nat) :
    Except OffsetFault (Option Nat) :=
  if _hin : index < source.length then
    match m.nestedTurn source depth literal index with
    | .error fault => .error fault
    | .ok (.closed stop) => .ok (some stop)
    | .ok (.next depth literal next) =>
        if _hnext : index < next then m.nestedEnd source depth literal next
        else .error (.stalled index)
  else .ok none
termination_by source.length - index

/-- The offset behind the right delimiter of the tag whose body starts at `bodyStart`. -/
def tagEnd (m : Markup) (source : Bytes) (bodyStart : Nat) : Except OffsetFault (Option Nat) := do
  let rest ← slice source bodyStart source.length
  if (decodeLossy rest).head? = some '*' then
    let closing := encode ('*' :: m.right)
    return (indexOfSlice? closing rest).map fun position => bodyStart + position + closing.length
  else m.nestedEnd source 1 0 bodyStart

/-- The bytes from `lo` up to `hi` as text, of which there is none when the offsets are equal. -/
def textBetween (source : Bytes) (lo hi : Nat) : Except OffsetFault (List ByteSegment) :=
  if lo < hi then (slice source lo hi).map fun text => [.text text] else .ok []

/-- How a turn of the search for tags turns out. -/
inductive SplitTurn where
  | last
  | next (found : List ByteSegment) (textStart cursor : Nat)

/-- One turn of the search for tags from `cursor` on, when the text from `textStart` on belongs to
no tag so far. -/
def splitTurn (m : Markup) (source : Bytes) (textStart cursor : Nat) :
    Except OffsetFault SplitTurn := do
  let rest ← slice source cursor source.length
  match indexOfSlice? (encode m.left) rest with
  | none => return .last
  | some position =>
      let opening := cursor + position
      let bodyStart := opening + (encode m.left).length
      let inside ← slice source bodyStart source.length
      if m.isLiteralBeside (decodeLossy inside).head? then
        return .next [] textStart bodyStart
      else
        match ← m.tagEnd source bodyStart with
        | none => return .last
        | some stop =>
            let body ← slice source bodyStart (← difference stop (encode m.right).length)
            if (trim (decodeLossy body)).isEmpty then
              return .next [] textStart stop
            else
              let front ← textBetween source textStart opening
              let tag ← slice source opening stop
              return .next (front ++ [.tag tag]) stop stop

/-- The segments of the bytes from `textStart` on, of which no tag starts before `cursor`. -/
def splitFrom (m : Markup) (source : Bytes) (textStart cursor : Nat) :
    Except OffsetFault (List ByteSegment) :=
  match m.splitTurn source textStart cursor with
  | .error fault => .error fault
  | .ok .last => textBetween source textStart source.length
  | .ok (.next found textStart next) =>
      if _hnext : cursor < next ∧ next ≤ source.length then
        (m.splitFrom source textStart next).map fun segments => found ++ segments
      else .error (.stalled cursor)
termination_by source.length - cursor

/-- Cut the bytes of a template into text and tags. -/
def splitBytes (m : Markup) (source : Bytes) : Except OffsetFault (List ByteSegment) :=
  m.splitFrom source 0 0

end Markup

/-- The offset behind the HTML comment whose opener was read from `start` to `stop`. -/
def Lexeme.commentEnd (text : Bytes) (start stop : Nat) : Except OffsetFault Nat := do
  let searchFrom := start + 2
  let rest ← slice text searchFrom text.length
  let behind := (indexOfSlice? (encode commentCloser) rest).elim text.length fun position =>
    searchFrom + position + 3
  let more ← difference behind stop
  let _comment ← slice text start (stop + more)
  return stop + more

end TemplateLint

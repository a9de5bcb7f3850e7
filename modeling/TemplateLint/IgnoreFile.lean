import TemplateLint.Glob.Nesting
import TemplateLint.Glob.Parser
import TemplateLint.Text.Blank

/-!
# Ignore files

A directory can have files that list which entries below it are left out. The last line that
matches an entry decides; a line with an exclamation mark brings an entry back.
-/

namespace TemplateLint

inductive Verdict where
  | ignored
  | wanted
  deriving DecidableEq, Repr

structure IgnoreLine where
  glob : List GlobToken
  verdict : Verdict
  onlyDirectories : Bool

namespace IgnoreLine

/-- The glob of a line after its marks. Without a slash it holds at any depth; two stars at its end
stand for what is inside a directory and not for the directory. -/
def globText (anchored : Bool) (s : Text) : Text :=
  let start := "**/".toList
  let s :=
    if anchored || s.contains '/' || s = "**".toList then s else start ++ s
  if (dropTrailing? "/**".toList s).isSome then s ++ "/*".toList else s

def ofText? (line : Text) : Option IgnoreLine :=
  if line.head? = some '#' then none
  else
    let line := if (dropTrailing? "\\ ".toList line).isSome then line else dropWhileEnd isBlank line
    if line = [] then none
    else
      let escaped := "\\!".toList.isPrefixOf line || "\\#".toList.isPrefixOf line
      let negated := !escaped && line.head? = some '!'
      let line := if escaped || negated then line.tail else line
      let anchored := !escaped && line.head? = some '/'
      let line := if anchored then line.tail else line
      let onlyDirectories := line.getLast? = some '/'
      let line := if onlyDirectories then line.dropLast else line
      let line :=
        if onlyDirectories && line.getLast? = some '\\' then line.dropLast else line
      match parseGlob true (globText anchored line) with
      | .error _ => none
      | .ok glob =>
          some { glob, verdict := if negated then .wanted else .ignored, onlyDirectories }

def isMatch (l : IgnoreLine) (path : Text) (isDirectory : Bool) : Bool :=
  (isDirectory || !l.onlyDirectories) && GlobToken.isMatch true l.glob (Utf8.encode path)

end IgnoreLine

abbrev IgnoreFile := List IgnoreLine

namespace IgnoreFile

/-- The lines of bytes up to the first line that is not UTF-8. Byte order marks at the start are
skipped. If one glob is nested too deep, no line counts. -/
def ofBytes (bytes : Bytes) : IgnoreFile :=
  let texts := ((Utf8.lines bytes).map Utf8.decode?).takeWhile Option.isSome |>.filterMap id
  let texts := texts.modifyHead (·.dropWhile (· == Char.ofNat 0xFEFF))
  let lines := texts.filterMap IgnoreLine.ofText?
  if lines.any fun l => GlobToken.isTooDeep true l.glob then [] else lines

def verdict? (f : IgnoreFile) (path : Text) (isDirectory : Bool) : Option Verdict :=
  (f.reverse.find? (·.isMatch path isDirectory)).map IgnoreLine.verdict

end IgnoreFile

end TemplateLint

import TemplateLint.CommandLine.Run

/-!
# The command line

Reads the part of the file system that the arguments are about, runs the program in it, and writes
what it answers.
-/

namespace TemplateLint

/-- Read a file, or a directory with all that is below it. Links inside directories are left out. -/
partial def readNode (path : String) : IO Node := do
  try
    let entries ← (← IO.FS.realPath path).readDir
    let children ← entries.toList.filterMapM fun entry => do
      let kind := (← entry.path.symlinkMetadata).type
      if kind == .file || kind == .dir then
        return some (entry.fileName.toList, ← readNode entry.path.toString)
      else return none
    return .directory children
  catch _ => return .file (← IO.FS.readBinFile path).toList

def readInto (read : String → IO Node) (t : FileTree) (path : Text) : IO FileTree := do
  try
    let node ← read (String.ofList path)
    return { t with top := Node.insert node (t.absoluteNames path) t.top }
  catch _ => return t

def readFile (path : String) : IO Node := return .file (← IO.FS.readBinFile path).toList

/-- The part of the file system that arguments are about. Files in place of `.git` lead to further
files in two steps. -/
def readTree (args : List Text) : IO FileTree := do
  let names := ((← IO.currentDir).toString.toList.splitOn '/').filter (· != [])
  let start : FileTree :=
    { top := Node.insert (.directory []) names (.directory []), workingDirectory := names }
  match Arguments.ofList args with
  | .error _ => return start
  | .ok a =>
      let t ← (a.targets start).foldlM (readInto readNode) start
      let t ← (a.neededFiles start).foldlM (readInto readFile) t
      let t ← t.linkedFiles.foldlM (readInto readFile) t
      t.linkedFiles.foldlM (readInto readFile) t

end TemplateLint

open TemplateLint in
def main (args : List String) : IO UInt32 := do
  let args := args.map String.toList
  let stdout ← IO.getStdout
  let environment : Environment :=
    { noColor := (← IO.getEnv "NO_COLOR").isSome
      forceColor := (← IO.getEnv "FORCE_COLOR").map String.toList
      terminal := (← stdout.isTty) && (← IO.getEnv "TERM") != some "dumb" }
  let outcome := runProgram (← readTree args) environment args
  stdout.putStr (String.ofList outcome.stdout)
  for line in outcome.stderr do
    IO.eprintln (String.ofList line)
  return UInt32.ofNat outcome.exitCode

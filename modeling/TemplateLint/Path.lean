import TemplateLint.Text.Basic

/-!
# Paths

A path is a text; its parts decide what it names. Empty parts and inner dots do not count, a dot at
the start does, so that `./a` and `a` are different paths while `a/./b` and `a//b` are one. Paths
whose bytes are not UTF-8 cannot be represented.
-/

namespace TemplateLint

inductive PathPart where
  | root
  | current
  | parent
  | normal (name : Text)
  deriving DecidableEq, Repr

namespace PathPart

/-- The order of parts: the root, a dot, two dots, then names by character. -/
def rank : PathPart → Nat
  | root => 0
  | current => 1
  | parent => 2
  | normal _ => 3

def before : PathPart → PathPart → Bool
  | normal a, normal b => decide (a < b)
  | a, b => decide (a.rank < b.rank)

end PathPart

namespace Path

def dot : Text := ['.']

def dots : Text := ['.', '.']

def pieces (path : Text) : List Text := path.splitOn '/'

def lead (path : Text) : List PathPart × List Text :=
  match pieces path with
  | [] :: p :: rest => ([.root], p :: rest)
  | p :: rest => if p = dot then ([.current], rest) else ([], p :: rest)
  | [] => ([], [])

def isPart (piece : Text) : Bool := piece != [] && piece != dot

def partOf (piece : Text) : PathPart := if piece = dots then .parent else .normal piece

def parts (path : Text) : List PathPart :=
  (lead path).1 ++ ((lead path).2.filter isPart).map partOf

def partsNotAfter : List PathPart → List PathPart → Bool
  | [], _ => true
  | _ :: _, [] => false
  | a :: as, b :: bs => a.before b || (a == b && partsNotAfter as bs)

def notAfter (a b : Text) : Bool := partsNotAfter (parts a) (parts b)

def same (a b : Text) : Bool := parts a == parts b

def fileName? (path : Text) : Option Text :=
  match (parts path).getLast? with
  | some (.normal name) => some name
  | _ => none

def join (directory path : Text) : Text :=
  if path.head? = some '/' then path
  else if directory = [] || directory.getLast? = some '/' then directory ++ path
  else directory ++ '/' :: path

def absolute (names : List Text) : Text := '/' :: joinWith ['/'] names

def dropDot (path : Text) : Text := (dropLeading? ['.', '/'] path).getD path

/-- A path without the text of a directory at its start and without one slash after that. The path
of the working directory is at the start of no path. -/
def below (directory path : Text) : Text :=
  if same directory dot then path
  else
    match dropLeading? directory path with
    | none => path
    | some rest => (dropLeading? ['/'] rest).getD rest

def dropParts : Nat → List Text → List Text
  | 0, ps => ps
  | _ + 1, [] => []
  | n + 1, p :: ps => if isPart p then dropParts n ps else dropParts (n + 1) ps

/-- The path that leads from `root` to `path`, if the parts of `path` start with those of `root`. -/
def relativeTo? (root path : Text) : Option Text :=
  if parts root = [] then some path
  else if (parts root).isPrefixOf (parts path) then
    let rest := dropParts ((parts root).length - (lead root).1.length) (lead path).2
    some (joinWith ['/'] (trimWhile (fun p => !isPart p) rest))
  else none

end Path

end TemplateLint

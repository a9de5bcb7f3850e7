/-!
# Texts and slices

A text is the list of its characters. This module has the few operations on lists that the rest
of the library is built from: finding a slice, cutting at every occurrence of a separator,
trimming at both ends.
-/

namespace TemplateLint

abbrev Text := List Char

variable {α : Type} [DecidableEq α]

def dropLeading? : List α → List α → Option (List α)
  | [], s => some s
  | _ :: _, [] => none
  | a :: head, b :: s => if a = b then dropLeading? head s else none

def dropTrailing? (tail s : List α) : Option (List α) :=
  (dropLeading? tail.reverse s.reverse).map List.reverse

/-- Cut `s` at the first occurrence of `needle`: what stands before it and what stands after it. -/
def breakAt (needle : List α) : List α → Option (List α × List α)
  | [] => if needle = [] then some ([], []) else none
  | a :: s =>
      match dropLeading? needle (a :: s) with
      | some after => some ([], after)
      | none => (breakAt needle s).map fun (before, after) => (a :: before, after)

def indexOfSlice? (needle s : List α) : Option Nat :=
  (breakAt needle s).map fun (before, _) => before.length

def hasSlice (needle s : List α) : Bool :=
  (breakAt needle s).isSome

theorem eq_append_of_dropLeading? {head s rest : List α}
    (h : dropLeading? head s = some rest) : s = head ++ rest := by
  induction head generalizing s with
  | nil => simpa [dropLeading?] using h
  | cons a head ih =>
      cases s with
      | nil => simp [dropLeading?] at h
      | cons b s =>
          simp only [dropLeading?, Option.ite_none_right_eq_some] at h
          obtain ⟨rfl, h⟩ := h
          simp [ih h]

theorem length_lt_of_dropLeading? {head s rest : List α} (hne : head ≠ [])
    (h : dropLeading? head s = some rest) : rest.length < s.length := by
  have := List.length_pos_iff.2 hne
  simp only [eq_append_of_dropLeading? h, List.length_append]
  omega

theorem eq_of_breakAt {needle s before after : List α}
    (h : breakAt needle s = some (before, after)) : s = before ++ needle ++ after := by
  induction s generalizing before with
  | nil =>
      simp only [breakAt, Option.ite_none_right_eq_some] at h
      obtain ⟨rfl, h⟩ := h
      simp_all
  | cons a s ih =>
      rw [breakAt] at h
      split at h
      next rest hrest =>
        have := eq_append_of_dropLeading? hrest
        simp_all
      next =>
        obtain ⟨⟨b, r⟩, hb, heq⟩ := Option.map_eq_some_iff.1 h
        simp only [Prod.mk.injEq] at heq
        obtain ⟨rfl, rfl⟩ := heq
        simp [ih hb]

theorem length_lt_of_breakAt {needle s before after : List α} (hne : needle ≠ [])
    (h : breakAt needle s = some (before, after)) : after.length < s.length := by
  have := List.length_pos_iff.2 hne
  simp only [eq_of_breakAt h, List.length_append]
  omega

def cutEvery (sep : List α) (hne : sep ≠ []) (s : List α) : List (List α) :=
  match _h : breakAt sep s with
  | none => [s]
  | some (before, after) => before :: cutEvery sep hne after
termination_by s.length
decreasing_by exact length_lt_of_breakAt hne _h

/-- Cut `s` at every occurrence of `sep`. An empty separator occurs before, between and after all
the elements. -/
def splitAtSlices (sep s : List α) : List (List α) :=
  if h : sep = [] then [] :: s.map (fun a => [a]) ++ [[]] else cutEvery sep h s

omit [DecidableEq α] in
def dropWhileEnd (p : α → Bool) (s : List α) : List α := (s.reverse.dropWhile p).reverse

omit [DecidableEq α] in
def trimWhile (p : α → Bool) (s : List α) : List α := dropWhileEnd p (s.dropWhile p)

def decimal (n : Nat) : Text := Nat.toDigits 10 n

def padRight (width : Nat) (s : Text) : Text := s ++ List.replicate (width - s.length) ' '

def padLeft (width : Nat) (s : Text) : Text := List.replicate (width - s.length) ' ' ++ s

def joinWith (sep : Text) (ss : List Text) : Text := List.intercalate sep ss

/-- Lower-case the letters `A` to `Z` and leave every other character alone. -/
def asciiLower (s : Text) : Text := s.map Char.toLower

end TemplateLint

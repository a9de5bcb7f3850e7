import TemplateLint.Text.Basic

/-!
# TOML values

The values of a TOML document. A table remembers how it came about, because that decides what may
still be added to it. Numbers are kept as they are written; whether they can be held is asked only
of those that are looked at.
-/

namespace TemplateLint.Toml

inductive TableKind where
  | explicit
  /-- It lies on the path of a header. -/
  | implied
  /-- It lies on the path of a dotted key. -/
  | dotted
  | inline
  deriving DecidableEq, Repr

def TableKind.isOnTheWay : TableKind → Bool
  | implied | dotted => true
  | explicit | inline => false

inductive Decimal where
  | special
  | finite (mantissa : Nat) (exponent : Int)
  deriving DecidableEq, Repr

def Decimal.fits : Decimal → Bool
  | special => true
  | finite m e =>
      let limit := Nat.pow 2 1024 - Nat.pow 2 970
      let magnitude : Int := (decimal m).length + e
      if m = 0 || magnitude < 308 then true
      else if magnitude > 310 then false
      else if 0 ≤ e then m * Nat.pow 10 e.toNat < limit
      else m < limit * Nat.pow 10 (-e).toNat

inductive Value where
  | string (s : Text)
  | boolean (b : Bool)
  | integer (n : Int)
  | float (x : Decimal)
  | datetime (written : Text)
  | array (elements : List Value)
  /-- An array whose tables have headers of their own. -/
  | tables (elements : List Value)
  | table (kind : TableKind) (entries : List (Text × Value))
  deriving Repr

abbrev Entries := List (Text × Value)

namespace Value

mutual

/-- Whether all numbers in a value can be held: integers in 128 bits and floats in a double. -/
def fits : Value → Bool
  | integer n => -(Int.ofNat (Nat.pow 2 127)) ≤ n && n < Int.ofNat (Nat.pow 2 128)
  | float x => x.fits
  | array elements => allFit elements
  | tables elements => allFit elements
  | table _ entries => entriesFit entries
  | string _ | boolean _ | datetime _ => true

def allFit : List Value → Bool
  | [] => true
  | v :: vs => fits v && allFit vs

def entriesFit : List (Text × Value) → Bool
  | [] => true
  | (_, v) :: entries => fits v && entriesFit entries

end

end Value

end TemplateLint.Toml

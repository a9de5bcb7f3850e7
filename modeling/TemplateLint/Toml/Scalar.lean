import TemplateLint.Toml.Value

/-!
# TOML scalars without quotes

Booleans, integers, floats, dates and times.
-/

namespace TemplateLint.Toml

def ungroup? (isDigit : Char → Bool) : Text → Option Text
  | [] => none
  | [c] => if isDigit c then some [c] else none
  | c :: '_' :: s => if isDigit c then (ungroup? isDigit s).map (c :: ·) else none
  | c :: s => if isDigit c then (ungroup? isDigit s).map (c :: ·) else none

def digitValue (c : Char) : Nat :=
  if c.isDigit then c.toNat - '0'.toNat
  else if 'a'.toNat ≤ c.toNat then c.toNat - 'a'.toNat + 10
  else c.toNat - 'A'.toNat + 10

def ofDigits (base : Nat) (digits : Text) : Nat :=
  digits.foldl (fun n c => n * base + digitValue c) 0

def isHexDigit (c : Char) : Bool :=
  c.isDigit || ('a' ≤ c && c ≤ 'f') || ('A' ≤ c && c ≤ 'F')

inductive Sign where
  | plus
  | minus
  deriving DecidableEq, Repr

def sign : Text → Option Sign × Text
  | '+' :: s => (some .plus, s)
  | '-' :: s => (some .minus, s)
  | s => (none, s)

def ofSign (sign : Option Sign) (n : Nat) : Int :=
  if sign = some .minus then -(Int.ofNat n) else Int.ofNat n

/-- The digits of a decimal number after its sign: more than one of them do not start with zero. If
there is a sign, an underscore may follow it, and then any digits. -/
def wholeDigits? (sign : Option Sign) : Text → Option Text
  | '_' :: s => if sign.isSome then ungroup? Char.isDigit s else none
  | s =>
      (ungroup? Char.isDigit s).bind fun digits =>
        if digits.length > 1 && digits.head? == some '0' then none else some digits

def radixInteger? : Text → Option Nat
  | '0' :: 'x' :: s => (ungroup? isHexDigit s).map (ofDigits 16)
  | '0' :: 'o' :: s => (ungroup? (fun c => '0' ≤ c && c ≤ '7') s).map (ofDigits 8)
  | '0' :: 'b' :: s => (ungroup? (fun c => c == '0' || c == '1') s).map (ofDigits 2)
  | _ => none

def integer? (s : Text) : Option Int :=
  match radixInteger? s with
  | some n => some (Int.ofNat n)
  | none =>
      let (sign, digits) := sign s
      (wholeDigits? sign digits).map fun digits => ofSign sign (ofDigits 10 digits)

def exponent? (s : Text) : Option Int :=
  let (sign, digits) := sign s
  (ungroup? Char.isDigit digits).map fun digits => ofSign sign (ofDigits 10 digits)

def float? (s : Text) : Option Decimal :=
  let (sign, unsigned) := sign s
  if unsigned = "inf".toList || unsigned = "nan".toList then some .special
  else
    let (mantissa, power) := unsigned.span fun c => c != 'e' && c != 'E'
    let (whole, fraction) := mantissa.span fun c => c != '.'
    if fraction = [] && power = [] then none
    else do
      let wholeDigits ← wholeDigits? sign whole
      let fractionDigits ← if fraction = [] then some [] else ungroup? Char.isDigit fraction.tail
      let exponent ← if power = [] then some 0 else exponent? power.tail
      return .finite (ofDigits 10 (wholeDigits ++ fractionDigits))
        (exponent - Int.ofNat fractionDigits.length)

def twoDigits? (lo hi : Nat) : Text → Option (Nat × Text)
  | a :: b :: s =>
      if a.isDigit && b.isDigit then
        let n := ofDigits 10 [a, b]
        if lo ≤ n && n ≤ hi then some (n, s) else none
      else none
  | _ => none

def daysIn (year month : Nat) : Nat :=
  if month = 2 then
    if year % 4 = 0 && (year % 100 != 0 || year % 400 = 0) then 29 else 28
  else if month = 4 || month = 6 || month = 9 || month = 11 then 30
  else 31

def afterDate? : Text → Option Text
  | a :: b :: c :: d :: '-' :: s =>
      if [a, b, c, d].all Char.isDigit then
        match twoDigits? 1 12 s with
        | some (month, '-' :: s) =>
            (twoDigits? 1 (daysIn (ofDigits 10 [a, b, c, d]) month) s).map Prod.snd
        | _ => none
      else none
  | _ => none

/-- What follows a time. Seconds and their fraction are optional. -/
def afterTime? (s : Text) : Option Text :=
  match twoDigits? 0 23 s with
  | some (_, ':' :: s) =>
      match twoDigits? 0 59 s with
      | some (_, ':' :: s) =>
          match twoDigits? 0 60 s with
          | some (_, '.' :: s) =>
              if s.head?.any Char.isDigit then some (s.dropWhile Char.isDigit) else none
          | some (_, s) => some s
          | none => none
      | some (_, s) => some s
      | none => none
  | _ => none

def isOffset : Text → Bool
  | [c] => c == 'Z' || c == 'z'
  | c :: s =>
      (c == '+' || c == '-') &&
        match twoDigits? 0 23 s with
        | some (_, ':' :: s) => (twoDigits? 0 59 s).any fun (_, s) => s.isEmpty
        | _ => false
  | [] => false

def isDate (s : Text) : Bool := (afterDate? s).any List.isEmpty

def isDatetime (s : Text) : Bool :=
  match afterDate? s with
  | some [] => true
  | some (c :: rest) =>
      (c == 'T' || c == 't' || c == ' ') &&
        (afterTime? rest).any fun offset => offset.isEmpty || isOffset offset
  | none => (afterTime? s).any List.isEmpty

def scalar? (s : Text) : Option Value :=
  if s = "true".toList then some (.boolean true)
  else if s = "false".toList then some (.boolean false)
  else
    match integer? s with
    | some n => some (.integer n)
    | none =>
        match float? s with
        | some x => some (.float x)
        | none => if isDatetime s then some (.datetime s) else none

end TemplateLint.Toml

import TreeWatch.Text.Blank
import TreeWatch.Text.DecimalDigit

/-!
Reading a number from text.

A numeral may be surrounded by blanks and begin with a sign. It is a word for infinity or for
"not a number", in letters of either case, or a decimal with an optional fraction and exponent.
Digits may be of any script, and a single underscore may stand between two of them. The value is
the nearest double.
-/

namespace TreeWatch

inductive Numeral
  /-- The magnitude is `digits * 10 ^ exponent`. -/
  | decimal (negative : Bool) (digits : Nat) (exponent : Int)
  | infinity (negative : Bool)
  | notANumber
  deriving DecidableEq, Repr

namespace Numeral

open Text

/-- The digits that text begins with, and what follows them. An underscore is passed over when a
digit stands on each side of it. -/
def takeDigits (afterDigit : Bool) : List Char → List Nat × List Char
  | [] => ([], [])
  | '_' :: c :: rest =>
      if afterDigit && (digit? c).isSome then takeDigits false (c :: rest)
      else ([], '_' :: c :: rest)
  | c :: rest =>
      match digit? c with
      | none => ([], c :: rest)
      | some value =>
          let (values, rest) := takeDigits true rest
          (value :: values, rest)

/-- The sign that text begins with, taken as plus when there is none. -/
def takeSign : List Char → Bool × List Char
  | '+' :: rest => (false, rest)
  | '-' :: rest => (true, rest)
  | text => (false, text)

def ofDigits (values : List Nat) : Nat :=
  values.foldl (fun total value => 10 * total + value) 0

def exponent? : List Char → Option Int
  | [] => some 0
  | c :: rest =>
      if c = 'e' ∨ c = 'E' then
        let (negative, rest) := takeSign rest
        match takeDigits false rest with
        | ([], _) => none
        | (values, []) =>
            some (if negative then -(ofDigits values : Int) else (ofDigits values : Int))
        | (_, _ :: _) => none
      else none

/-- A decimal without its sign: whole digits, fraction and exponent, the digits being at least
one. -/
def decimal? (negative : Bool) (text : List Char) : Option Numeral :=
  let (whole, rest) := takeDigits false text
  let (fraction, rest) :=
    match rest with
    | '.' :: rest => takeDigits false rest
    | rest => ([], rest)
  if whole.isEmpty && fraction.isEmpty then none
  else
    (exponent? rest).map fun exponent =>
      .decimal negative (ofDigits (whole ++ fraction)) (exponent - fraction.length)

def read? (text : String) : Option Numeral :=
  let (negative, rest) := takeSign (trim text.toList)
  let word := String.ofList (rest.map Char.toLower)
  if word = "inf" ∨ word = "infinity" then some (.infinity negative)
  else if word = "nan" then some .notANumber
  else decimal? negative rest

def digitCount (n : Nat) : Nat := (Nat.toDigits 10 n).length

/-- The nearest double. Magnitudes below `10 ^ -330` are zero and those from `10 ^ 310` on are
infinite without being computed. -/
def magnitude (digits : Nat) (exponent : Int) : Float :=
  let order := digitCount digits + exponent
  if digits = 0 ∨ order < -330 then 0
  else if 310 < order then 1 / 0
  else Float.ofScientific digits (exponent < 0) exponent.natAbs

def toFloat : Numeral → Float
  | decimal negative digits exponent =>
      if negative then -(magnitude digits exponent) else magnitude digits exponent
  | infinity negative => if negative then -1 / 0 else 1 / 0
  | notANumber => 0 / 0

end Numeral

end TreeWatch

import Shorthand.Text.Basic

/-!
# Decimals as floating-point numbers

The binary number nearest to a decimal one. Exponents far out of range decide the result alone.
-/

namespace Shorthand

namespace Decimal

/-- The number that decimal digits stand for; other characters are passed over. -/
def digitsValue (t : Text) : Nat :=
  t.foldl (fun n c => if c.isDigit then n * 10 + (c.toNat - 48) else n) 0

/-- A decimal with its point `places` digits before the end, times a power of ten. -/
def toFloat (digits : Text) (places : Nat) (exponent : Int) : Float :=
  let n := digitsValue digits
  let e := exponent - places
  let size := (digits.dropWhile fun c : CodePoint => c == '0').length + e
  if n = 0 then 0.0
  else if 320 < size then 1.0 / 0.0
  else if size < -400 then 0.0
  else Float.ofScientific n (e < 0) e.natAbs

/-- A signed run of digits as an integer; a text that is none counts as zero. -/
def exponentValue (t : Text) : Int :=
  match t with
  | '-' :: r => -(digitsValue r : Int)
  | '+' :: r => digitsValue r
  | r => digitsValue r

/-- The most digits with which an integer is read or written. -/
def digitLimit : Nat :=
  4300

/-- What is said of an integer over the limit, of which the number of digits may be known. -/
def tooLongMessage (digits : Option Nat) : Text :=
  let size : Text := match digits with
    | some n => ": value has " ++ Text.decimal n ++ " digits"
    | none => []
  "Exceeds the limit (4300 digits) for integer string conversion" ++ size ++
    "; use sys.set_int_max_str_digits() to increase the limit"

end Decimal

end Shorthand

import Shorthand.Json.Reader
import Shorthand.Text.Blank
import Shorthand.Text.Lower
import Shorthand.Text.Numeral
import Shorthand.Yaml.Fault

/-!
# Numbers of YAML

The numbers that scalars stand for. Underscores say nothing, parts between colons count sixtieths,
and an integer can be written with the base two, eight, ten or sixteen. A tag can call any text a
number, so the readers also meet texts that are none.
-/

namespace Shorthand

namespace Yaml

def isNegative (t : Text) : Bool :=
  Text.startsWith t '-'

def signLength (t : Text) : Nat :=
  if Text.startsWith t '-' || Text.startsWith t '+' then 1 else 0

/-- A numeral in ASCII: blanks and decimal digits beyond it become its own. -/
def inAscii (t : Text) : Text :=
  t.map fun c =>
    if c.toNat < 127 then c
    else if Text.isBlank c then ' '
    else ((Text.digitValue? c).map Text.digit).getD c

def isNumeralBlank (c : CodePoint) : Bool :=
  c == ' ' || (9 ≤ c.toNat && c.toNat ≤ 13)

def digitIn (base : Nat) (c : CodePoint) : Option Nat :=
  (Json.hexValue c).filter (· < base)

/-- Digits without the mark that may announce their base. -/
def withoutMark (base : Nat) (t : Text) : Text :=
  match t with
  | '0' :: m :: r =>
    let mark := m.toLower
    if (base = 2 && mark = 'b') || (base = 8 && mark = 'o') || (base = 16 && mark = 'x') then r
    else t
  | _ => t

/-- An integer in some base, with blanks around it. Only decimal digits are limited in number, and
that limit counts before what follows them. -/
def integerIn (base : Nat) (source : Text) : Except Fault Int :=
  let t := (inAscii source).dropWhile isNumeralBlank
  let body := withoutMark base (t.drop (signLength t))
  let digits := body.takeWhile fun c => (digitIn base c).isSome
  if base = 10 && Decimal.digitLimit < digits.length then .error (.tooManyDigits digits.length)
  else if digits.isEmpty || !(body.drop digits.length).all isNumeralBlank then
    .error (.integer base source)
  else
    let n : Nat := (digits.filterMap (digitIn base)).foldl (fun n v => n * base + v) 0
    .ok (if isNegative t then -n else n)

def withoutUnderscores (t : Text) : Text :=
  t.filter fun c : CodePoint => c != '_'

/-- The parts between colons, each of which counts sixtieths of the part before it. -/
def sixtieths (t : Text) : List Text :=
  t.splitOn (.char ':')

/-- An integer without its sign. -/
def wholeNumber (t : Text) : Except Fault Int :=
  match t with
  | [] => .error .emptyNumber
  | ['0'] => .ok 0
  | '0' :: 'b' :: r => integerIn 2 r
  | '0' :: 'x' :: r => integerIn 16 r
  | '0' :: _ => integerIn 8 t
  | _ =>
    match sixtieths t with
    | [_] => integerIn 10 t
    | parts => do return (← parts.mapM (integerIn 10)).foldl (fun n d => n * 60 + d) 0

def readInt (t : Text) : Except Fault Int := do
  let body := withoutUnderscores t
  let n ← wholeNumber (body.drop (signLength body))
  return if isNegative body then -n else n

/-- A decimal number with blanks around it, or one of the words for numbers that are not finite. -/
def decimalNumber (source : Text) : Except Fault Float :=
  let t := (inAscii source).dropWhile isNumeralBlank
  let t := (t.reverse.dropWhile isNumeralBlank).reverse
  let body := t.drop (signLength t)
  let signed (x : Float) : Float := if isNegative t then -x else x
  if body = "inf" || body = "infinity" then .ok (signed (1.0 / 0.0))
  else if body = "nan" then .ok (0.0 / 0.0)
  else
    let (whole, r) := Json.digitsAt body
    let (fraction, r) := match r with
      | '.' :: r => Json.digitsAt r
      | _ => ([], r)
    let (exponent, r) := Json.exponentAt r
    if (whole.isEmpty && fraction.isEmpty) || !r.isEmpty then .error (.decimal source)
    else
      .ok (signed (Decimal.toFloat (whole ++ fraction) fraction.length
        (Decimal.exponentValue exponent)))

/-- The sum of parts, the last of which comes first, where the first has some weight and each other
one sixty times that of the part before it. No weight may be out of the range of floats. -/
def weightedSum (weight : Nat) (sum : Float) : List Float → Except Fault Float
  | [] => .ok sum
  | part :: parts =>
    let w := Float.ofNat weight
    if w.isInf then .error .hugeWeight else weightedSum (60 * weight) (sum + part * w) parts

/-- A number that need not be whole, without its sign. -/
def realNumber (t : Text) : Except Fault Float :=
  if t = ".inf" then .ok (1.0 / 0.0)
  else if t = ".nan" then .ok (0.0 / 0.0)
  else
    match sixtieths t with
    | [_] => decimalNumber t
    | parts => do weightedSum 1 0.0 (← parts.mapM decimalNumber).reverse

def readFloat (t : Text) : Except Fault Float := do
  let body := Text.lower (withoutUnderscores t)
  if body.isEmpty then throw .emptyNumber
  let x ← realNumber (body.drop (signLength body))
  return if isNegative body then -x else x

end Yaml

end Shorthand

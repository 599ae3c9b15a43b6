import Shorthand.Text.Basic

/-!
# Shortest decimals

The fewest decimal digits that read back as the same binary number, and the nearest of those. The
search runs over exact fractions.
-/

namespace Shorthand

namespace Decimal

/-- A positive fraction. -/
structure Ratio where
  num : Nat
  den : Nat

/-- `m` times a power of two. -/
def Ratio.scaled (m : Nat) (exponent : Int) : Ratio :=
  if 0 ≤ exponent then ⟨m * Nat.pow 2 exponent.toNat, 1⟩ else ⟨m, Nat.pow 2 (-exponent).toNat⟩

/-- `n` times a power of ten. -/
def Ratio.decimal (n : Nat) (exponent : Int) : Ratio :=
  if 0 ≤ exponent then ⟨n * Nat.pow 10 exponent.toNat, 1⟩ else ⟨n, Nat.pow 10 (-exponent).toNat⟩

def Ratio.less (a b : Ratio) : Bool :=
  a.num * b.den < b.num * a.den

/-- The whole part of a fraction in units of a power of ten. -/
def Ratio.units (a : Ratio) (exponent : Int) : Nat :=
  if 0 ≤ exponent then a.num / (a.den * Nat.pow 10 exponent.toNat)
  else a.num * Nat.pow 10 (-exponent).toNat / a.den

/-- The numbers that round to one binary number: all between two fractions, and these too if the
binary number is even. -/
structure Interval where
  low : Ratio
  high : Ratio
  closed : Bool

def Interval.contains (i : Interval) (a : Ratio) : Bool :=
  if i.closed then !a.less i.low && !i.high.less a else i.low.less a && a.less i.high

/-- The interval of `m · 2 ^ q`; below a power of two it is half as wide. -/
def Interval.around (m : Nat) (q : Int) : Interval :=
  let low :=
    if m = Nat.pow 2 52 && q != -1074 then Ratio.scaled (4 * m - 1) (q - 2)
    else Ratio.scaled (2 * m - 1) (q - 1)
  ⟨low, Ratio.scaled (2 * m + 1) (q - 1), m % 2 = 0⟩

/-- The exponent of the leading decimal digit, looked for downwards from `start`. -/
def leading (x : Ratio) : Nat → Int → Int
  | 0, e => e
  | n + 1, e => if x.less (Ratio.decimal 1 e) then leading x n (e - 1) else e

/-- Of the two neighbours of `x` on the grid of a power of ten, the one that lies in the interval,
and the nearer if both do. -/
def onGrid (x : Ratio) (i : Interval) (e : Int) : Option Nat :=
  let n := x.units e
  let lower := i.contains (Ratio.decimal n e)
  let upper := i.contains (Ratio.decimal (n + 1) e)
  let middle := Ratio.decimal (2 * n + 1) e
  let twice : Ratio := ⟨2 * x.num, x.den⟩
  if lower && upper then
    if twice.less middle || (!middle.less twice && n % 2 = 0) then some n else some (n + 1)
  else if lower then some n
  else if upper then some (n + 1)
  else none

/-- Looks on ever finer grids. -/
def search (x : Ratio) (i : Interval) : Nat → Int → Nat × Int
  | 0, e => (x.units e, e)
  | n + 1, e =>
    match onGrid x i e with
    | some d => (d, e)
    | none => search x i n (e - 1)

/-- The shortest digits of `m · 2 ^ q`, where `m` is positive, and the exponent of the last one. -/
def shortest (m : Nat) (q : Int) : Nat × Int :=
  let x := Ratio.scaled m q
  search x (Interval.around m q) 17 (leading x 700 309)

end Decimal

namespace Text

/-- How a number is written: in positions from the fourth place after the point to the sixteenth
before it, else with an exponent of at least two digits. -/
def ofDigits (digits : Text) (exponent : Int) : Text :=
  let point := digits.length + exponent
  let zeros (n : Int) : Text := List.replicate n.toNat '0'
  if point ≤ -4 || 16 < point then
    let e := point - 1
    let size := decimal e.natAbs
    let whole : Text := digits.take 1
    let fraction : Text := if digits.length = 1 then [] else "." ++ digits.drop 1
    let sign : Text := if e < 0 then "e-" else "e+"
    whole ++ fraction ++ sign ++ (if size.length = 1 then "0" ++ size else size)
  else if point ≤ 0 then "0." ++ zeros (-point) ++ digits
  else if digits.length ≤ point then digits ++ zeros exponent ++ ".0"
  else digits.take point.toNat ++ "." ++ digits.drop point.toNat

/-- Digits without the zeros at their end, which go to the exponent. -/
def withoutZeros : Nat → Nat → Int → Nat × Int
  | 0, n, e => (n, e)
  | fuel + 1, n, e => if n != 0 && n % 10 = 0 then withoutZeros fuel (n / 10) (e + 1) else (n, e)

def ofFloat (x : Float) : Text :=
  let bits := x.toBits.toNat
  let sign : Text := if bits / Nat.pow 2 63 = 1 then "-" else []
  let biased : Nat := bits / Nat.pow 2 52 % Nat.pow 2 11
  let fraction : Nat := bits % Nat.pow 2 52
  if biased = 2047 then if fraction = 0 then sign ++ "inf" else "nan"
  else if biased = 0 && fraction = 0 then sign ++ "0.0"
  else
    let (m, q) : Nat × Int :=
      if biased = 0 then (fraction, -1074) else (fraction + Nat.pow 2 52, (biased : Int) - 1075)
    let (n, e) := Decimal.shortest m q
    let (n, e) := withoutZeros 20 n e
    sign ++ ofDigits (decimal n) e

end Text

end Shorthand

import Shorthand.Text.Basic

/-!
# Plain scalars

What a scalar without quotes means: a truth value, a number, nothing, a point in time, one of two
marks, or the text itself. The forms are those of YAML 1.1, so `yes`, `0o7`'s cousin `017` and the
sexagesimal `1:30` are no texts.
-/

namespace Shorthand

namespace Yaml

inductive ScalarKind where
  | null
  | bool
  | int
  | float
  | time
  | merge
  | value
  | text
  deriving Repr, DecidableEq

def isDigitOr (extra : Text) (c : CodePoint) : Bool :=
  c.isDigit || extra.contains c

def trueWords : List Text :=
  ["yes", "Yes", "YES", "true", "True", "TRUE", "on", "On", "ON"]

def falseWords : List Text :=
  ["no", "No", "NO", "false", "False", "FALSE", "off", "Off", "OFF"]

def nullWords : List Text :=
  ["", "~", "null", "Null", "NULL"]

def unsigned (t : Text) : Text :=
  match t with
  | '+' :: r => r
  | '-' :: r => r
  | _ => t

/-- One digit, or two of which the first is at most five. -/
def isSixtieth : Text → Bool
  | [a] => a.isDigit
  | [a, b] => a.isDigit && a.toNat ≤ '5'.toNat && b.isDigit
  | _ => false

/-- A number that is written with a leading part and one or more sixtieths after colons. -/
def isSexagesimal (isLead : CodePoint → Bool) (t : Text) : Bool :=
  match t.splitOn (.char ':') with
  | (a :: r) :: s :: ss => isLead a && r.all (isDigitOr "_") && (s :: ss).all isSixtieth
  | _ => false

def isPositiveDigit (c : CodePoint) : Bool :=
  c.isDigit && c != '0'

def isHexDigit (c : CodePoint) : Bool :=
  isDigitOr "abcdefABCDEF" c

def isInt (t : Text) : Bool :=
  match unsigned t with
  | ['0'] => true
  | '0' :: 'b' :: r => !r.isEmpty && r.all fun c => c == '0' || c == '1' || c == '_'
  | '0' :: 'x' :: r => !r.isEmpty && r.all fun c => isHexDigit c || c == '_'
  | '0' :: r => r.all fun c => (c.isDigit && c.toNat ≤ '7'.toNat) || c == '_'
  | c :: r =>
    isPositiveDigit c && r.all (isDigitOr "_") || isSexagesimal isPositiveDigit (c :: r)
  | [] => false

def isExponent : Text → Bool
  | [] => true
  | e :: s :: d :: ds =>
    (e == 'e' || e == 'E') && (s == '+' || s == '-') && (d :: ds).all CodePoint.isDigit
  | _ => false

/-- Digits and underscores, then perhaps an exponent. -/
def isFraction (t : Text) : Bool :=
  isExponent (t.dropWhile (isDigitOr "_"))

def isFloat (t : Text) : Bool :=
  match Text.cutFirst '.' (unsigned t) with
  | none => false
  | some ([], b) =>
    (["inf", "Inf", "INF"] : List Text).contains b ||
      unsigned t == t && ((["nan", "NaN", "NAN"] : List Text).contains b ||
        b.head?.any CodePoint.isDigit && isFraction b)
  | some (a :: as, b) =>
    a.isDigit && as.all (isDigitOr "_") && isFraction b ||
      isSexagesimal CodePoint.isDigit (a :: as) && b.all (isDigitOr "_")

/-- The parts of a point in time, as they are written. -/
structure TimeParts where
  year : Text
  month : Text
  day : Text
  clock : Option (Text × Text × Text) := none
  fraction : Text := []
  zone : Option Text := none
  deriving Repr, DecidableEq

/-- Between `least` and `most` digits at the front of a text, as many as there are. -/
def takeDigits (least most : Nat) (t : Text) : Option (Text × Text) :=
  let ds := (t.take most).takeWhile CodePoint.isDigit
  if least ≤ ds.length then some (ds, t.drop ds.length) else none

def takeChar (c : CodePoint) : Text → Option Text
  | d :: r => if d = c then some r else none
  | [] => none

def skipGap (t : Text) : Text :=
  t.dropWhile fun c => c == ' ' || c == '\t'

/-- The end of a time: nothing, or `Z`, or a signed offset of hours and perhaps minutes. -/
def isZone : Text → Bool
  | ['Z'] => true
  | s :: r =>
    (s == '+' || s == '-') &&
      match takeDigits 1 2 r with
      | some (_, []) => true
      | some (_, ':' :: m) => m.length == 2 && m.all CodePoint.isDigit
      | _ => false
  | [] => false

def timeTail (date : TimeParts) (t : Text) : Option TimeParts := do
  let gapless ← match t with
    | 'T' :: r => some r
    | 't' :: r => some r
    | ' ' :: r => some (skipGap r)
    | '\t' :: r => some (skipGap r)
    | _ => none
  let (hour, r) ← takeDigits 1 2 gapless
  let (minute, r) ← takeDigits 2 2 (← takeChar ':' r)
  let (second, r) ← takeDigits 2 2 (← takeChar ':' r)
  let (fraction, r) := match r with
    | '.' :: r => (r.takeWhile CodePoint.isDigit, r.dropWhile CodePoint.isDigit)
    | _ => ([], r)
  let dated := { date with clock := some (hour, minute, second), fraction }
  if r.isEmpty then return dated
  let zone := skipGap r
  if isZone zone then return { dated with zone := some zone } else none

/-- A date, perhaps with a time of day. The digits of month and day may be single. -/
def timeParts? (t : Text) : Option TimeParts := do
  let (year, r) ← takeDigits 4 4 t
  let (month, r) ← takeDigits 1 2 (← takeChar '-' r)
  let (day, r) ← takeDigits 1 2 (← takeChar '-' r)
  let date : TimeParts := { year, month, day }
  if r.isEmpty then return date else timeTail date r

/-- A date without a time of day has two digits for the month and the day. -/
def isTime (t : Text) : Bool :=
  match timeParts? t with
  | some p => p.clock.isSome || p.month.length == 2 && p.day.length == 2
  | none => false

/-- A line feed at the very end is not looked at. -/
def withoutFinalBreak (t : Text) : Text :=
  if t.getLast? == some (.char '\n') then t.dropLast else t

/-- The meaning of a plain scalar. -/
def kindOf (t : Text) : ScalarKind :=
  if t.isEmpty then .null
  else
    let t := withoutFinalBreak t
    if t.isEmpty then .text
    else if trueWords.contains t || falseWords.contains t then .bool
    else if isFloat t then .float
    else if isInt t then .int
    else if t = "<<" then .merge
    else if nullWords.contains t then .null
    else if isTime t then .time
    else if t = "=" then .value
    else .text

end Yaml

end Shorthand

import Shorthand.Decimal.Float
import Shorthand.Value

/-!
# JSON, read

A JSON text as a value. What cannot be read is reported with its place. Numbers may also be the
words for infinity and for what is no number; a repeated key takes its last value.
-/

namespace Shorthand

namespace Json

inductive Problem where
  | byteOrderMark
  | noValue
  | noName
  | noColon
  | noComma
  | unterminated
  | controlCharacter
  | badEscape
  | badUnicodeEscape
  | extraData
  | tooManyDigits (n : Nat)
  deriving Repr, DecidableEq

/-- A problem, with the number of characters that are left at its place. -/
structure Fault where
  problem : Problem
  left : Nat
  deriving Repr, DecidableEq

def Problem.message : Problem → Text
  | byteOrderMark => "Unexpected UTF-8 BOM (decode using utf-8-sig)"
  | noValue => "Expecting value"
  | noName => "Expecting property name enclosed in double quotes"
  | noColon => "Expecting ':' delimiter"
  | noComma => "Expecting ',' delimiter"
  | unterminated => "Unterminated string starting at"
  | controlCharacter => "Invalid control character at"
  | badEscape => "Invalid \\escape"
  | badUnicodeEscape => "Invalid \\uXXXX escape"
  | extraData => "Extra data"
  | tooManyDigits n => Decimal.tooLongMessage (some n)

/-- The message of a fault in a text, with its line, its column and its place. -/
def Fault.message (f : Fault) (t : Text) : Text :=
  match f.problem with
  | .tooManyDigits _ => f.problem.message
  | _ =>
    let before := t.take (t.length - f.left)
    let line := before.count (.char '\n') + 1
    let column := (before.reverse.takeWhile fun c : CodePoint => c != '\n').length + 1
    f.problem.message ++ ": line " ++ Text.decimal line ++ " column " ++
      Text.decimal column ++ " (char " ++ Text.decimal before.length ++ ")"

abbrev Read (α : Type) : Type := Except Fault (α × Text)

def isSpace (c : CodePoint) : Bool :=
  c == ' ' || c == '\t' || c == '\n' || c == '\r'

def skipSpace (t : Text) : Text :=
  t.dropWhile isSpace

def hexValue (c : CodePoint) : Option Nat :=
  let n := c.toNat
  if c.isDigit then some (n - 48)
  else if 97 ≤ n && n ≤ 102 then some (n - 87)
  else if 65 ≤ n && n ≤ 70 then some (n - 55)
  else none

def hexNumber (t : Text) : Option Nat :=
  t.foldlM (fun n c => (hexValue c).map (n * 16 + ·)) 0

def simpleEscape (c : CodePoint) : Option CodePoint :=
  match c with
  | '"' => some '"'
  | '\\' => some '\\'
  | '/' => some '/'
  | 'b' => some '\x08'
  | 'f' => some '\x0c'
  | 'n' => some '\n'
  | 'r' => some '\r'
  | 't' => some '\t'
  | _ => none

def prepend (n : Nat) : List Nat × Text → List Nat × Text
  | (ns, r) => (n :: ns, r)

/-- The code units of a string up to its closing quote; `start` characters were left at the opening
one. -/
def units (start : Nat) : Text → Read (List Nat)
  | [] => .error ⟨.unterminated, start⟩
  | '"' :: r => .ok ([], r)
  | ['\\'] => .error ⟨.unterminated, start⟩
  | '\\' :: 'u' :: a :: b :: c :: d :: e :: r =>
    match hexNumber [a, b, c, d] with
    | some n => (units start (e :: r)).map (prepend n)
    | none => .error ⟨.badUnicodeEscape, r.length + 6⟩
  | '\\' :: 'u' :: r => .error ⟨.badUnicodeEscape, r.length + 1⟩
  | '\\' :: c :: r =>
    match simpleEscape c with
    | some d => (units start r).map (prepend d.toNat)
    | none => .error ⟨.badEscape, r.length + 2⟩
  | c :: r =>
    if c.toNat < 32 then .error ⟨.controlCharacter, r.length + 1⟩
    else (units start r).map (prepend c.toNat)

/-- Code units as a text: two halves of a surrogate pair that match are one character. -/
def joinUnits : List Nat → Text
  | [] => []
  | [n] => [.ofNat n]
  | m :: n :: r =>
    if 0xD800 ≤ m && m < 0xDC00 && 0xDC00 ≤ n && n < 0xE000 then
      .ofNat (0x10000 + (m - 0xD800) * 0x400 + (n - 0xDC00)) :: joinUnits r
    else .ofNat m :: joinUnits (n :: r)

/-- A string after its opening quote. -/
def stringAt (r : Text) : Read Value :=
  (units (r.length + 1) r).map fun (ns, r) => (.text (joinUnits ns), r)

def digitsAt (t : Text) : Text × Text :=
  (t.takeWhile CodePoint.isDigit, t.dropWhile CodePoint.isDigit)

/-- A point and at least one digit. -/
def fractionAt (t : Text) : Text × Text :=
  match t with
  | '.' :: r => if (r.head?.any CodePoint.isDigit) then digitsAt r else ([], t)
  | _ => ([], t)

/-- The letter for an exponent and at least one digit, which a sign may precede. -/
def exponentAt (t : Text) : Text × Text :=
  match t with
  | e :: r =>
    if e = 'e' || e = 'E' then
      let (sign, s) : Text × Text := match r with
        | '+' :: s => ("+", s)
        | '-' :: s => ("-", s)
        | _ => ([], r)
      let (ds, s) := digitsAt s
      if ds.isEmpty then ([], t) else (sign ++ ds, s)
    else ([], t)
  | [] => ([], t)

/-- A number; its whole part has no leading zeros. -/
def numberAt (t : Text) : Read Value :=
  let negative := Text.startsWith t '-'
  let body := if negative then t.drop 1 else t
  match body with
  | [] => .error ⟨.noValue, t.length⟩
  | c :: r =>
    if !c.isDigit then .error ⟨.noValue, t.length⟩
    else
      let (whole, r) : Text × Text := if c = '0' then ("0", r) else digitsAt body
      let (fraction, r) := fractionAt r
      let (exponent, r) := exponentAt r
      if fraction.isEmpty && exponent.isEmpty then
        if Decimal.digitLimit < whole.length then .error ⟨.tooManyDigits whole.length, t.length⟩
        else
          let n : Int := Decimal.digitsValue whole
          .ok (.int (if negative then -n else n), r)
      else
        let x :=
          Decimal.toFloat (whole ++ fraction) fraction.length (Decimal.exponentValue exponent)
        .ok (.float (if negative then -x else x), r)

def words : List (Text × Value) :=
  [("null", .null), ("true", .bool true), ("false", .bool false),
   ("NaN", .float (0.0 / 0.0)), ("Infinity", .float (1.0 / 0.0)),
   ("-Infinity", .float (-1.0 / 0.0))]

/-- A value that is no string and holds no others. -/
def atomAt (t : Text) : Read Value :=
  match words.find? fun (w, _) => w.isPrefixOf t with
  | some (w, v) => .ok (v, t.drop w.length)
  | none => numberAt t

mutual

/-- A value that starts here, holding others through at most `n` levels. -/
def valueAt : Nat → Text → Read Value
  | 0, t => .error ⟨.noValue, t.length⟩
  | n + 1, t =>
    match t with
    | '"' :: r => stringAt r
    | '[' :: r =>
      match skipSpace r with
      | ']' :: r => .ok (.list [], r)
      | r => (itemsAt n r).map fun (vs, r) => (.list vs, r)
    | '{' :: r =>
      match skipSpace r with
      | '}' :: r => .ok (.map [], r)
      | r => (membersAt n r).map fun (es, r) => (Value.ofEntries es, r)
    | _ => atomAt t

/-- One or more items and the end of their list. -/
def itemsAt : Nat → Text → Except Fault (List Value × Text)
  | 0, t => .error ⟨.noValue, t.length⟩
  | n + 1, t => do
    let (v, r) ← valueAt n t
    match skipSpace r with
    | ']' :: r => return ([v], r)
    | ',' :: r =>
      let (vs, r) ← itemsAt n (skipSpace r)
      return (v :: vs, r)
    | r => throw ⟨.noComma, r.length⟩

/-- One or more members and the end of their object. -/
def membersAt : Nat → Text → Except Fault (List (Value × Value) × Text)
  | 0, t => .error ⟨.noName, t.length⟩
  | n + 1, t =>
    match t with
    | '"' :: r => do
      let (k, r) ← stringAt r
      match skipSpace r with
      | ':' :: r =>
        let (v, r) ← valueAt n (skipSpace r)
        match skipSpace r with
        | '}' :: r => return ([(k, v)], r)
        | ',' :: r =>
          let (es, r) ← membersAt n (skipSpace r)
          return ((k, v) :: es, r)
        | r => throw ⟨.noComma, r.length⟩
      | r => throw ⟨.noColon, r.length⟩
    | _ => .error ⟨.noName, t.length⟩

end

/-- The value of a JSON text. Every list or object takes a character at least and is read at two
levels, so the length of the text bounds their number. -/
def read (t : Text) : Except Fault Value := do
  if Text.startsWith t '\ufeff' then throw ⟨.byteOrderMark, t.length⟩
  let (v, r) ← valueAt (2 * t.length + 2) (skipSpace t)
  match skipSpace r with
  | [] => return v
  | r => throw ⟨.extraData, r.length⟩

end Json

end Shorthand

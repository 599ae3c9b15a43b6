import Shorthand.Decimal.Float
import Shorthand.Decimal.Shortest
import Shorthand.Entries
import Shorthand.Text.Quoted

/-!
# Values

What the documents of a user hold once they are read: nothing, truth values, numbers, texts,
octets, points in time, and lists, sets and mappings of these. Mappings keep their order.
-/

namespace Shorthand

/-- A time of day, with the offset from universal time in minutes if one is given. -/
structure Clock where
  hour : Nat
  minute : Nat
  second : Nat
  micro : Nat
  offset : Option Int
  deriving Repr, DecidableEq

structure Moment where
  year : Nat
  month : Nat
  day : Nat
  clock : Option Clock
  deriving Repr, DecidableEq

inductive Value where
  | null
  | bool (b : Bool)
  | int (n : Int)
  | float (x : Float)
  | text (t : Text)
  | octets (l : List UInt8)
  | moment (m : Moment)
  | list (items : List Value)
  | set (items : List Value)
  | map (entries : List (Value × Value))
  deriving Inhabited

namespace Value

def text? : Value → Option Text
  | text t => some t
  | _ => none

/-- The word for the kind of a value. -/
def kind : Value → Text
  | null => "NoneType"
  | bool _ => "bool"
  | int _ => "int"
  | float _ => "float"
  | text _ => "str"
  | octets _ => "bytes"
  | moment m => if m.clock.isSome then "datetime" else "date"
  | list _ => "list"
  | set _ => "set"
  | map _ => "dict"

def ofInt (n : Int) : Text :=
  if n < 0 then '-' :: Text.decimal n.natAbs else Text.decimal n.natAbs

def escapeOctet (quote : CodePoint) (b : UInt8) : Text :=
  let c := Char.ofNat b.toNat
  if c = quote || c = '\\' then ['\\', c]
  else if c = '\n' then "\\n"
  else if c = '\r' then "\\r"
  else if c = '\t' then "\\t"
  else if 32 ≤ b.toNat && b.toNat < 127 then [c]
  else "\\x" ++ Text.hex 2 b.toNat

def ofOctets (l : List UInt8) : Text :=
  let q := Text.quoteFor (l.map fun b => Char.ofNat b.toNat)
  "b" ++ q :: l.flatMap (escapeOctet q) ++ [q]

/-- A span of time in days and the seconds left. -/
def ofSpan (minutes : Int) : Text :=
  let days := Int.fdiv minutes 1440
  let seconds := 60 * Int.fmod minutes 1440
  let parts :=
    (if days = 0 then [] else ["days=" ++ ofInt days]) ++
    (if seconds = 0 then [] else ["seconds=" ++ ofInt seconds])
  "datetime.timedelta(" ++ (", " : Text).intercalate parts ++ ")"

def ofOffset (minutes : Int) : Text :=
  if minutes = 0 then "datetime.timezone.utc"
  else "datetime.timezone(" ++ ofSpan minutes ++ ")"

def ofMoment (m : Moment) : Text :=
  let date := [m.year, m.month, m.day].map Text.decimal
  match m.clock with
  | none => "datetime.date(" ++ (", " : Text).intercalate date ++ ")"
  | some c =>
    let late :=
      if c.micro != 0 then [c.second, c.micro] else if c.second != 0 then [c.second] else []
    let zone := match c.offset with
      | some o => ["tzinfo=" ++ ofOffset o]
      | none => []
    "datetime.datetime(" ++
      (", " : Text).intercalate
        (date ++ ([c.hour, c.minute] ++ late).map Text.decimal ++ zone) ++ ")"

/-- How a message shows a value that stands as the key of a mapping. An integer over the limit of
digits is not shown. -/
def shown? : Value → Option Text
  | null => some "None"
  | bool b => some (if b then "True" else "False")
  | int n => if n.natAbs < Nat.pow 10 Decimal.digitLimit then some (ofInt n) else none
  | float x => some (Text.ofFloat x)
  | text t => some (Text.quoted t)
  | octets l => some (ofOctets l)
  | moment m => some (ofMoment m)
  | list _ => some "[...]"
  | set _ | map _ => some "\x7b...\x7d"

def sameKey : Value → Value → Bool
  | text s, text t => s = t
  | int m, int n => m = n
  | bool a, bool b => a = b
  | null, null => true
  | _, _ => false

/-- A repeated key keeps its first place and takes the new value. -/
def ofEntries (entries : List (Value × Value)) : Value :=
  map (Entries.putAllBy sameKey entries)

end Value

end Shorthand

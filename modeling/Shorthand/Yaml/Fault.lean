import Shorthand.Decimal.Float
import Shorthand.Value

/-!
# Faults of YAML documents

Either a document is malformed, or it is well formed and a scalar in it cannot be what its form or
its tag says it is, or there is no end to what a mapping has to be gone through for its scalar.
-/

namespace Shorthand

namespace Yaml

inductive Fault where
  | malformed
  | endless
  | codePoint
  | hugeCodePoint
  | integer (base : Nat) (source : Text)
  | tooManyDigits (n : Nat)
  | decimal (source : Text)
  | emptyNumber
  | hugeWeight
  | truth (word : Text)
  | noTime
  | noTimeText
  | year
  | month
  | day
  | hour
  | minute
  | second
  | offset (minutes : Int)
  deriving Repr, DecidableEq

namespace Fault

/-- The most characters of a text that is no integer that the message shows. -/
def shownLimit : Nat :=
  200

def message : Fault → Text
  | malformed => "invalid YAML"
  | endless => "maximum recursion depth exceeded"
  | codePoint => "chr() arg not in range(0x110000)"
  | hugeCodePoint => "Python int too large to convert to C int"
  | integer base t =>
    "invalid literal for int() with base " ++ Text.decimal base ++ ": " ++
      (Text.quoted t).take shownLimit
  | tooManyDigits n => Decimal.tooLongMessage (some n)
  | decimal t => "could not convert string to float: " ++ Text.quoted t
  | emptyNumber => "string index out of range"
  | hugeWeight => "int too large to convert to float"
  | truth word => Text.quoted word
  | noTime => "'NoneType' object has no attribute 'groupdict'"
  | noTimeText => "expected string or bytes-like object, got 'list'"
  | year => "year 0 is out of range"
  | month => "month must be in 1..12"
  | day => "day is out of range for month"
  | hour => "hour must be in 0..23"
  | minute => "minute must be in 0..59"
  | second => "second must be in 0..59"
  | offset minutes =>
    "offset must be a timedelta strictly between -timedelta(hours=24) and " ++
      "timedelta(hours=24), not " ++ Value.ofSpan minutes ++ "."

end Fault

end Yaml

end Shorthand

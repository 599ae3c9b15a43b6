import Shorthand.Text.Basic

/-!
# Base 64

Octets written with 64 characters. The reader passes over all other characters, and stops at the
padding that completes a group of four.
-/

namespace Shorthand

namespace Text

namespace Base64

def value? (c : CodePoint) : Option Nat :=
  let n := c.toNat
  if 65 ≤ n && n ≤ 90 then some (n - 65)
  else if 97 ≤ n && n ≤ 122 then some (n - 71)
  else if 48 ≤ n && n ≤ 57 then some (n + 4)
  else if c = '+' then some 62
  else if c = '/' then some 63
  else none

/-- Reads on after `seen` characters of a group of four, with the bits of the last one that are
not yet part of an octet, and after `pads` padding characters in a row. -/
def readFrom (seen left pads : Nat) : Text → Option (List UInt8)
  | [] => if seen = 0 then some [] else none
  | c :: r =>
    if c = '=' then
      if seen < 2 then readFrom seen left pads r
      else if 4 ≤ seen + pads + 1 then some []
      else readFrom seen left (pads + 1) r
    else match value? c with
      | none => readFrom seen left pads r
      | some v =>
        match seen with
        | 0 => readFrom 1 v 0 r
        | 1 => (readFrom 2 (v % 16) 0 r).map (UInt8.ofNat (left * 4 + v / 16) :: ·)
        | 2 => (readFrom 3 (v % 4) 0 r).map (UInt8.ofNat (left * 16 + v / 4) :: ·)
        | _ => (readFrom 0 0 0 r).map (UInt8.ofNat (left * 64 + v) :: ·)

end Base64

/-- The octets of a text; none if it ends inside a group. -/
def ofBase64 (t : Text) : Option (List UInt8) :=
  Base64.readFrom 0 0 0 t

end Text

end Shorthand

/-!
# Code points

What texts are made of. A code point is a character or half of a surrogate pair. Files hold
characters only, but the escapes in a document can name any code point.
-/

namespace Shorthand

inductive CodePoint where
  | char (c : Char)
  /-- Half of a surrogate pair, told by its distance from the first one. -/
  | half (n : Fin 0x800)
  deriving Repr, DecidableEq, Inhabited

namespace CodePoint

instance : Coe Char CodePoint := ⟨char⟩

def isHalf : CodePoint → Bool
  | char _ => false
  | half _ => true

/-- The number of a code point. Those of the halves lie between those of the characters. -/
def toNat : CodePoint → Nat
  | char c => c.toNat
  | half n => 0xD800 + n.val

/-- The code point of a number. Numbers from `0x110000` on have none and give the first one. -/
def ofNat (n : Nat) : CodePoint :=
  if h : 0xD800 ≤ n ∧ n < 0xE000 then half ⟨n - 0xD800, by omega⟩ else char (Char.ofNat n)

/-! ### Classes and cases of ASCII -/

def isDigit : CodePoint → Bool
  | char c => c.isDigit
  | half _ => false

def isAlpha : CodePoint → Bool
  | char c => c.isAlpha
  | half _ => false

def isAlphanum (c : CodePoint) : Bool :=
  c.isAlpha || c.isDigit

def toLower : CodePoint → CodePoint
  | char c => char c.toLower
  | half n => half n

def toUpper : CodePoint → CodePoint
  | char c => char c.toUpper
  | half n => half n

end CodePoint

end Shorthand

import Shorthand.Text.CodePoint

/-!
# Text

A text is the list of its code points. What lists have serves to split one at a code point and to
join some with a separator. This module adds what stands around the first or the last occurrence of
a code point, and the order of texts.
-/

namespace Shorthand

abbrev Text := List CodePoint

namespace Text

def ofString (s : String) : Text :=
  s.toList.map .char

instance : Coe String Text := ⟨ofString⟩

/-- The string of a text, where half of a surrogate pair shows as the replacement character. -/
def toString (t : Text) : String :=
  .ofList (t.map fun
    | .char c => c
    | .half _ => '\ufffd')

def startsWith (t : Text) (c : CodePoint) : Bool :=
  t.head? == some c

/-- What stands before and after the first occurrence of `c`. -/
def cutFirst (c : CodePoint) : Text → Option (Text × Text)
  | [] => none
  | d :: r => if d = c then some ([], r) else (cutFirst c r).map fun (a, b) => (d :: a, b)

/-- What stands before and after the last occurrence of `c`. -/
def cutLast (c : CodePoint) : Text → Option (Text × Text)
  | [] => none
  | d :: r =>
    match cutLast c r with
    | some (a, b) => some (d :: a, b)
    | none => if d = c then some ([], r) else none

/-- Whether `s` is a contiguous part of a text. -/
def occursIn (s : Text) : Text → Bool
  | [] => s.isEmpty
  | c :: r => s.isPrefixOf (c :: r) || occursIn s r

/-- The order of texts by code point. -/
def atMost : Text → Text → Bool
  | [], _ => true
  | _ :: _, [] => false
  | c :: r, d :: s => c.toNat < d.toNat || (c == d && atMost r s)

/-- The order of lists of texts in which the first texts that differ decide. -/
def listAtMost : List Text → List Text → Bool
  | [], _ => true
  | _ :: _, [] => false
  | t :: ts, u :: us => if t = u then listAtMost ts us else atMost t u

def digit (n : Nat) : CodePoint :=
  Char.ofNat (n % 10 + 48)

/-- The decimal digits of a number, without leading zeros. -/
def decimal (n : Nat) : Text :=
  if n < 10 then [digit n] else decimal (n / 10) ++ [digit n]

theorem eq_of_cutFirst {c : CodePoint} {t a b : Text} (h : cutFirst c t = some (a, b)) :
    t = a ++ c :: b := by
  induction t generalizing a b with
  | nil => simp [cutFirst] at h
  | cons d r ih =>
    simp only [cutFirst] at h
    split at h
    · simp_all
    · obtain ⟨⟨x, y⟩, hxy, heq⟩ := Option.map_eq_some_iff.1 h
      cases heq
      simp [ih hxy]

theorem eq_of_cutLast {c : CodePoint} {t a b : Text} (h : cutLast c t = some (a, b)) :
    t = a ++ c :: b := by
  induction t generalizing a b with
  | nil => simp [cutLast] at h
  | cons d r ih =>
    simp only [cutLast] at h
    split at h
    · rename_i x y hxy
      cases h
      simp [ih hxy]
    · split at h <;> simp_all

end Text

end Shorthand

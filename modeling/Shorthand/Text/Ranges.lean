import Shorthand.Text.Basic

/-!
# Ranges of code points

Classes of characters are given as ranges of code points.
-/

namespace Shorthand

namespace Text

/-- Whether a code point is in one of the ranges, of which both ends belong to them. -/
def within (ranges : List (Nat × Nat)) (c : CodePoint) : Bool :=
  ranges.any fun (a, b) => a ≤ c.toNat && c.toNat ≤ b

theorem within_of_mem {ranges : List (Nat × Nat)} {a b : Nat} {c : CodePoint} (h : (a, b) ∈ ranges)
    (ha : a ≤ c.toNat) (hb : c.toNat ≤ b) : within ranges c := by
  simp only [within, List.any_eq_true, Bool.and_eq_true, decide_eq_true_eq]
  exact ⟨(a, b), h, ha, hb⟩

end Text

end Shorthand

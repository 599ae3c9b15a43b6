import Shorthand.Text.Basic

/-!
# Blanks

The blank characters, and what is done with them: trimming the ends of a text, taking its words,
and collapsing each run of blanks to one space.
-/

namespace Shorthand

namespace Text

/-- White space: the ASCII blanks and separators, and the Unicode spaces and line separators. -/
def isBlank (c : CodePoint) : Bool :=
  let n := c.toNat
  (9 ≤ n && n ≤ 13) || (28 ≤ n && n ≤ 32) || n == 0x85 || n == 0xA0 || n == 0x1680 ||
    (0x2000 ≤ n && n ≤ 0x200A) || n == 0x2028 || n == 0x2029 || n == 0x202F || n == 0x205F ||
    n == 0x3000

def trimStart (t : Text) : Text :=
  t.dropWhile isBlank

def trimEnd (t : Text) : Text :=
  (t.reverse.dropWhile isBlank).reverse

def trim (t : Text) : Text :=
  trimEnd (trimStart t)

/-- The maximal runs of characters that are not blank. -/
def words (t : Text) : List Text :=
  (t.splitOnP isBlank).filter fun w => !w.isEmpty

/-- Each run of blanks becomes one space. -/
def collapse : Text → Text
  | [] => []
  | [c] => if isBlank c then [' '] else [c]
  | c :: d :: r =>
    if isBlank c then if isBlank d then collapse (d :: r) else ' ' :: collapse (d :: r)
    else c :: collapse (d :: r)

/-- Tabs and line breaks vanish, so that an expression may be written over several lines; every
other run of blanks becomes one space. -/
def normalize (t : Text) : Text :=
  collapse (t.filter fun c => !(c == '\t' || c == '\n' || c == '\r'))

@[simp] theorem isBlank_space : isBlank ' ' = true := by decide

theorem isBlank_of_mem_collapse {t : Text} {c : CodePoint} (hc : c ∈ collapse t) (hb : isBlank c) :
    c = ' ' := by
  fun_induction collapse t with
  | case1 => simp at hc
  | case2 => simpa using hc
  | case3 d h => simp_all
  | case4 d e r _ _ ih => exact ih hc
  | case5 d e r _ _ ih => exact (List.mem_cons.1 hc).elim id ih
  | case6 d e r hd ih =>
    rcases List.mem_cons.1 hc with rfl | h
    · exact absurd hb hd
    · exact ih h

end Text

end Shorthand

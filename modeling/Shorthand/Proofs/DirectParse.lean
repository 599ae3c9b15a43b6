import Mathlib.Data.List.DropRight
import Shorthand.Proofs.Mark
import Shorthand.Proofs.Result
import Shorthand.Proofs.Splitting
import Shorthand.Tree

/-!
# The tree read off the marks of a text

`Mark.parse` cuts marks at the operators that stand outside of all pairs, and a level that is just
one pair is a group. There are no tokens, so groups have no keys.
-/

namespace Shorthand

namespace Mark

/-! ### The direct parse -/

/-- Whether a mark is the character `c`, outside of all pairs. -/
def isChar (c : CodePoint) : Mark → Bool
  | char d => d == c
  | pair _ => false

def isBlank : Mark → Bool
  | char c => Text.isBlank c
  | pair _ => false

def trim (ms : List Mark) : List Mark :=
  (ms.dropWhile isBlank).rdropWhile isBlank

/-- The trimmed pieces between plus signs outside of all pairs. -/
def siblings (ms : List Mark) : List (List Mark) :=
  (ms.splitOnP (isChar '+')).map trim

/-- The trimmed levels of one sibling. -/
def levels (ms : List Mark) : List (List Mark) :=
  (ms.splitOnP (isChar '>')).map trim

theorem infix_trim (ms : List Mark) : trim ms <:+: ms :=
  (List.rdropWhile_prefix isBlank _).isInfix.trans (List.dropWhile_suffix isBlank).isInfix

theorem infix_of_mem_siblings {s ms : List Mark} (h : s ∈ siblings ms) : s <:+: ms := by
  obtain ⟨w, hw, rfl⟩ := List.mem_map.1 h
  exact (infix_trim w).trans (Text.infix_of_mem_splitOnP hw)

theorem infix_of_mem_levels {l ms : List Mark} (h : l ∈ levels ms) : l <:+: ms := by
  obtain ⟨w, hw, rfl⟩ := List.mem_map.1 h
  exact (infix_trim w).trans (Text.infix_of_mem_splitOnP hw)

/-- The inside of a level that is just one pair. -/
def inside? : List Mark → Option (List Mark)
  | [.pair inner] => some inner
  | _ => none

theorem inside?_eq_some {level inner : List Mark} :
    inside? level = some inner ↔ level = [.pair inner] := by
  unfold inside?
  split
  · simp
  · rename_i h
    simp only [reduceCtorEq, false_iff]
    exact h inner

theorem depths_inside {s l ms inner : List Mark} (hs : s ∈ siblings ms) (hl : l ∈ levels s)
    (h : inside? l = some inner) : depths inner < depths ms := by
  rw [inside?_eq_some.1 h] at hl
  have hi : [.pair inner] <:+: ms := (infix_of_mem_levels hl).trans (infix_of_mem_siblings hs)
  exact depths_lt_of_mem (hi.subset List.mem_cons_self)

section

variable (expression : Option Text)

/-- The tree of marks. A level that is just one pair is a group of what is inside, any other level
is a leaf. -/
def parse (ms : List Mark) : Except Rejection (List Chain) :=
  if (siblings ms).any (·.isEmpty) then .error ⟨.emptySibling, expression, some (sources ms)⟩
  else (siblings ms).attach.mapM fun ⟨s, _⟩ =>
    if ((levels s).headD []).isEmpty then .error ⟨.emptyRoot, expression, some (sources s)⟩
    else if (levels s).any (·.isEmpty) then .error ⟨.emptyLevel, expression, some (sources s)⟩
    else do
      let segments ← (levels s).attach.mapM fun ⟨level, _⟩ =>
        match _h : inside? level with
        | some inner => Segment.group [] <$> parse inner
        | none => .ok (.leaf (sources level))
      return ⟨sources s, segments⟩
termination_by depths ms
decreasing_by exact depths_inside ‹_› ‹_› ‹_›

def parseLevel (level : List Mark) : Except Rejection Segment :=
  match inside? level with
  | some inner => Segment.group [] <$> parse expression inner
  | none => .ok (.leaf (sources level))

def parseSibling (s : List Mark) : Except Rejection Chain :=
  if ((levels s).headD []).isEmpty then .error ⟨.emptyRoot, expression, some (sources s)⟩
  else if (levels s).any (·.isEmpty) then .error ⟨.emptyLevel, expression, some (sources s)⟩
  else do return ⟨sources s, ← (levels s).mapM (parseLevel expression)⟩

theorem parse_eq (ms : List Mark) : parse expression ms =
    if (siblings ms).any (·.isEmpty) then .error ⟨.emptySibling, expression, some (sources ms)⟩
    else (siblings ms).mapM (parseSibling expression) := by
  rw [parse]
  refine if_congr Iff.rfl rfl ?_
  rw [List.mapM_subtype (g := parseSibling expression), List.unattach_attach]
  intro s hs
  dsimp only
  rw [List.mapM_subtype (g := parseLevel expression), List.unattach_attach]
  · rfl
  · intro level hl
    dsimp only [parseLevel]
    split <;> simp_all

variable {expression}

/-- A parse finds empty places and nothing else wrong. -/
theorem code_of_parse {ms : List Mark} {r : Rejection} (h : parse expression ms = .error r) :
    r.problem.code = "E_INVALID_EXPRESSION" := by
  rw [parse_eq] at h
  split_ifs at h
  · cases h
    rfl
  obtain ⟨s, hs, h⟩ := mem_of_mapM_error h
  unfold parseSibling at h
  split_ifs at h
  · cases h
    rfl
  · cases h
    rfl
  rcases error_of_bind h with h | ⟨segments, -, h⟩
  · obtain ⟨level, hl, h⟩ := mem_of_mapM_error h
    unfold parseLevel at h
    split at h
    · rename_i inner hi
      have hlt := depths_inside hs hl hi
      exact code_of_parse (error_of_map h)
    · cases h
  · cases h
termination_by depths ms

end

end Mark

end Shorthand

import Shorthand.Group.Extraction
import Shorthand.Text.Blank

/-!
# Expression trees

An expression is a list of sibling chains. A chain is a list of levels, each of which is a leaf or
a group with the siblings inside of it.
-/

namespace Shorthand

mutual

inductive Segment where
  | leaf (source : Text)
  | group (key : Text) (body : List Chain)

/-- The source of a chain is what was written, groups included. -/
structure Chain where
  source : Text
  levels : List Segment

end

/-- The pieces between plus signs; none of them may be blank. -/
def splitSiblings (expression : Option Text) (t : Text) : Except Rejection (List Text) :=
  let ps := (t.splitOn (.char '+')).map Text.trim
  if ps.any (·.isEmpty) then .error ⟨.emptySibling, expression, some t⟩ else .ok ps

/-- The levels of one sibling; none of them may be blank. -/
def splitLevels (expression : Option Text) (t : Text) : Except Rejection (List Text) :=
  let ps := (t.splitOn (.char '>')).map Text.trim
  if (ps.headD []).isEmpty then .error ⟨.emptyRoot, expression, some t⟩
  else if ps.any (·.isEmpty) then .error ⟨.emptyLevel, expression, some t⟩
  else .ok ps

namespace Extraction

variable (g : Extraction) (expression : Option Text)

/-- Rejections point at source text, never at tokens. -/
def restoreSegment (r : Rejection) : Rejection :=
  { r with segment := some (g.restore (r.segment.getD [])) }

/-- Parses a text, going through at most `n` levels of groups within groups. -/
def parseWithin : Nat → Text → ExceptT Rejection Option (List Chain)
  | 0, _ => ExceptT.mk none
  | n + 1, t => do
    let siblings ← liftExcept ((splitSiblings expression t).mapError g.restoreSegment)
    siblings.mapM fun sibling => do
      let levels ← liftExcept ((splitLevels expression sibling).mapError g.restoreSegment)
      let segments ← levels.mapM fun level =>
        match g.body? level with
        | some body => Segment.group level <$> parseWithin n body
        | none => pure (Segment.leaf (g.restore level))
      return ⟨g.restore sibling, segments⟩
where
  liftExcept {α : Type} (x : Except Rejection α) : ExceptT Rejection Option α :=
    ExceptT.mk (some x)

def parse (t : Text) : Except Rejection (List Chain) :=
  (g.parseWithin expression (g.groups.length + 1) t).run.getD (.ok [])

/-- The tree of the whole expression. -/
def tree : Except Rejection (List Chain) :=
  g.parse expression g.flat

end Extraction

end Shorthand

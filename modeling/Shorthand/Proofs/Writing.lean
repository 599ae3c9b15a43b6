import Shorthand.Proofs.FlatParse

/-!
# Trees written out

A tree is written out as code: plus signs between chains, signs for a new level between levels,
parentheses around groups, and no spaces other than those in a leaf. The texts it can have been read
from are written like that too, but may have spaces around the levels (`treeWrittenAs`), so that
they are its code but for spaces (`treeWrittenAs.unspaced_eq`). Keys of groups are in none of them.
-/

namespace Shorthand

/-! ### Spaces -/

namespace Text

/-- A text without its spaces. -/
def unspaced (t : Text) : Text :=
  t.filter (· != ' ')

/-- Whether `t` is `x` with spaces around it. -/
def Padded (x t : Text) : Prop :=
  ∃ before after, t = before ++ x ++ after ∧ (∀ c ∈ before, c = ' ') ∧ ∀ c ∈ after, c = ' '

theorem unspaced_append (a b : Text) : unspaced (a ++ b) = unspaced a ++ unspaced b :=
  List.filter_append a b

theorem unspaced_eq_nil {t : Text} (h : ∀ c ∈ t, c = ' ') : unspaced t = [] := by
  rw [unspaced, List.filter_eq_nil_iff]
  intro c hc
  simp [h c hc]

theorem unspaced_intercalate (sep : Text) : ∀ ts : List Text,
    unspaced (sep.intercalate ts) = (unspaced sep).intercalate (ts.map unspaced)
  | [] => rfl
  | [t] => by simp
  | t :: u :: ts => by
    simp only [List.map_cons, List.intercalate_cons_cons, unspaced_append]
    rw [unspaced_intercalate sep (u :: ts), List.map_cons]

theorem Padded.unspaced_eq {x t : Text} (h : Padded x t) : unspaced t = unspaced x := by
  obtain ⟨before, after, rfl, hb, ha⟩ := h
  rw [unspaced_append, unspaced_append, unspaced_eq_nil hb, unspaced_eq_nil ha, List.nil_append,
    List.append_nil]

end Text

/-! ### Code -/

mutual

/-- What is between the parentheses of a group is the code of its chains. -/
def Segment.code : Segment → Text
  | .leaf source => source
  | .group _ body => "(" ++ ("+" : Text).intercalate (chainCodes body) ++ ")"

def Chain.code : Chain → Text
  | ⟨_, levels⟩ => (">" : Text).intercalate (levelCodes levels)

def chainCodes : List Chain → List Text
  | [] => []
  | c :: cs => c.code :: chainCodes cs

def levelCodes : List Segment → List Text
  | [] => []
  | s :: ss => s.code :: levelCodes ss

end

def treeCode (cs : List Chain) : Text :=
  ("+" : Text).intercalate (chainCodes cs)

theorem chainCodes_eq_map (cs : List Chain) : chainCodes cs = cs.map Chain.code := by
  induction cs with
  | nil => rfl
  | cons c cs ih => rw [chainCodes, ih, List.map_cons]

theorem levelCodes_eq_map (ss : List Segment) : levelCodes ss = ss.map Segment.code := by
  induction ss with
  | nil => rfl
  | cons s ss ih => rw [levelCodes, ih, List.map_cons]

mutual

/-- The key of a group is no part of its code. -/
theorem Segment.code_unkeyed : ∀ s : Segment, s.unkeyed.code = s.code
  | .leaf _ => rfl
  | .group _ body => by
    rw [Segment.unkeyed, Segment.code, Segment.code, chainCodes_unkeyed body]

theorem Chain.code_unkeyed : ∀ c : Chain, c.unkeyed.code = c.code
  | ⟨_, levels⟩ => by
    rw [Chain.unkeyed, Chain.code, Chain.code, levelCodes_unkeyed levels]

theorem chainCodes_unkeyed : ∀ cs : List Chain, chainCodes (chainsUnkeyed cs) = chainCodes cs
  | [] => rfl
  | c :: cs => by rw [chainsUnkeyed, chainCodes, chainCodes, c.code_unkeyed, chainCodes_unkeyed cs]

theorem levelCodes_unkeyed : ∀ ss : List Segment, levelCodes (levelsUnkeyed ss) = levelCodes ss
  | [] => rfl
  | s :: ss => by rw [levelsUnkeyed, levelCodes, levelCodes, s.code_unkeyed, levelCodes_unkeyed ss]

end

theorem treeCode_unkeyed (cs : List Chain) : treeCode (cs.map Chain.unkeyed) = treeCode cs := by
  rw [treeCode, ← chainsUnkeyed_eq_map, chainCodes_unkeyed, treeCode]

/-! ### Texts that a tree can have been read from -/

mutual

/-- A leaf is written as it is. Inside of the parentheses of a group there may be spaces. -/
def Segment.WrittenAs : Segment → Text → Prop
  | .leaf source, t => t = source
  | .group _ body, t =>
    ∃ ts, chainsWrittenAs body ts ∧ t = "(" ++ ("+" : Text).intercalate ts ++ ")"

/-- There may be spaces around each level of a chain. Those at its ends are not in its source. -/
def Chain.WrittenAs : Chain → Text → Prop
  | ⟨source, levels⟩, t =>
    Text.Padded source t ∧ ∃ ts, levelsWrittenAs levels ts ∧ t = (">" : Text).intercalate ts

def chainsWrittenAs : List Chain → List Text → Prop
  | [], ts => ts = []
  | c :: cs, ts => ∃ t us, c.WrittenAs t ∧ chainsWrittenAs cs us ∧ ts = t :: us

def levelsWrittenAs : List Segment → List Text → Prop
  | [], ts => ts = []
  | s :: ss, ts => ∃ t us, (∃ x, s.WrittenAs x ∧ Text.Padded x t) ∧ levelsWrittenAs ss us
      ∧ ts = t :: us

end

/-- Whether a text is the code of a tree with more spaces: around the signs between its parts, next
to the parentheses of its groups, and at the ends. -/
def treeWrittenAs (cs : List Chain) (t : Text) : Prop :=
  ∃ ts, chainsWrittenAs cs ts ∧ t = ("+" : Text).intercalate ts

/-- Every chain has a text of its own. -/
theorem chainsWrittenAs_iff {cs : List Chain} {ts : List Text} :
    chainsWrittenAs cs ts ↔ List.Forall₂ Chain.WrittenAs cs ts := by
  induction cs generalizing ts with
  | nil => rw [chainsWrittenAs, List.forall₂_nil_left_iff]
  | cons c cs ih => simp only [chainsWrittenAs, List.forall₂_cons_left_iff, ih]

theorem levelsWrittenAs_iff {ss : List Segment} {ts : List Text} :
    levelsWrittenAs ss ts ↔
      List.Forall₂ (fun s t => ∃ x, s.WrittenAs x ∧ Text.Padded x t) ss ts := by
  induction ss generalizing ts with
  | nil => rw [levelsWrittenAs, List.forall₂_nil_left_iff]
  | cons s ss ih => simp only [levelsWrittenAs, List.forall₂_cons_left_iff, ih]

mutual

theorem Segment.writtenAs_unkeyed : ∀ (s : Segment) (t : Text),
    s.unkeyed.WrittenAs t ↔ s.WrittenAs t
  | .leaf _, _ => Iff.rfl
  | .group _ body, t => by
    simp only [Segment.unkeyed, Segment.WrittenAs, chainsWrittenAs_unkeyed body]

theorem Chain.writtenAs_unkeyed : ∀ (c : Chain) (t : Text), c.unkeyed.WrittenAs t ↔ c.WrittenAs t
  | ⟨_, levels⟩, t => by
    simp only [Chain.unkeyed, Chain.WrittenAs, levelsWrittenAs_unkeyed levels]

theorem chainsWrittenAs_unkeyed : ∀ (cs : List Chain) (ts : List Text),
    chainsWrittenAs (chainsUnkeyed cs) ts ↔ chainsWrittenAs cs ts
  | [], _ => Iff.rfl
  | c :: cs, ts => by
    simp only [chainsUnkeyed, chainsWrittenAs, c.writtenAs_unkeyed, chainsWrittenAs_unkeyed cs]

theorem levelsWrittenAs_unkeyed : ∀ (ss : List Segment) (ts : List Text),
    levelsWrittenAs (levelsUnkeyed ss) ts ↔ levelsWrittenAs ss ts
  | [], _ => Iff.rfl
  | s :: ss, ts => by
    simp only [levelsUnkeyed, levelsWrittenAs, s.writtenAs_unkeyed, levelsWrittenAs_unkeyed ss]

end

/-- Trees that differ in the keys of their groups only are written alike. -/
theorem treeWrittenAs_unkeyed {cs : List Chain} {t : Text} :
    treeWrittenAs (cs.map Chain.unkeyed) t ↔ treeWrittenAs cs t := by
  simp only [treeWrittenAs, ← chainsUnkeyed_eq_map, chainsWrittenAs_unkeyed]

mutual

theorem Segment.WrittenAs.unspaced_eq : ∀ {s : Segment} {t : Text}, s.WrittenAs t →
    t.unspaced = s.code.unspaced
  | .leaf _, _, h => congrArg Text.unspaced h
  | .group _ body, _, ⟨ts, hts, ht⟩ => by
    rw [ht, Segment.code, Text.unspaced_append, Text.unspaced_append, Text.unspaced_append,
      Text.unspaced_append, Text.unspaced_intercalate, Text.unspaced_intercalate, hts.map_unspaced]

theorem Chain.WrittenAs.unspaced_eq : ∀ {c : Chain} {t : Text}, c.WrittenAs t →
    t.unspaced = c.code.unspaced
  | ⟨_, levels⟩, _, ⟨_, ts, hts, ht⟩ => by
    rw [ht, Chain.code, Text.unspaced_intercalate, Text.unspaced_intercalate,
      levelsWrittenAs.map_unspaced hts]

theorem chainsWrittenAs.map_unspaced : ∀ {cs : List Chain} {ts : List Text},
    chainsWrittenAs cs ts → ts.map Text.unspaced = (chainCodes cs).map Text.unspaced
  | [], _, h => congrArg _ h
  | c :: cs, _, ⟨t, us, ht, hus, he⟩ => by
    rw [he, chainCodes, List.map_cons, List.map_cons, ht.unspaced_eq, hus.map_unspaced]

theorem levelsWrittenAs.map_unspaced : ∀ {ss : List Segment} {ts : List Text},
    levelsWrittenAs ss ts → ts.map Text.unspaced = (levelCodes ss).map Text.unspaced
  | [], _, h => congrArg _ h
  | s :: ss, _, ⟨t, us, ⟨x, hx, ht⟩, hus, he⟩ => by
    rw [he, levelCodes, List.map_cons, List.map_cons, ht.unspaced_eq, hx.unspaced_eq,
      hus.map_unspaced]

end

/-- Spaces are all that a text may have more than the code of its tree. -/
theorem treeWrittenAs.unspaced_eq {cs : List Chain} {t : Text} (h : treeWrittenAs cs t) :
    t.unspaced = (treeCode cs).unspaced := by
  obtain ⟨ts, hts, rfl⟩ := h
  rw [treeCode, Text.unspaced_intercalate, Text.unspaced_intercalate, hts.map_unspaced]

/-- The source of a chain is its code but for spaces. -/
theorem Chain.WrittenAs.unspaced_source {c : Chain} {t : Text} (h : c.WrittenAs t) :
    c.source.unspaced = c.code.unspaced := by
  obtain ⟨source, levels⟩ := c
  exact h.1.unspaced_eq.symm.trans h.unspaced_eq

/-! ### Trees without spaces in the sources of chains -/

mutual

/-- The source of a leaf keeps its spaces. -/
def Segment.unspaced : Segment → Segment
  | .leaf source => .leaf source
  | .group key body => .group key (chainsUnspaced body)

/-- A chain without the spaces in its source and in those of the chains in its groups. -/
def Chain.unspaced : Chain → Chain
  | ⟨source, levels⟩ => ⟨source.unspaced, levelsUnspaced levels⟩

def chainsUnspaced : List Chain → List Chain
  | [] => []
  | c :: cs => c.unspaced :: chainsUnspaced cs

def levelsUnspaced : List Segment → List Segment
  | [] => []
  | s :: ss => s.unspaced :: levelsUnspaced ss

end

theorem chainsUnspaced_eq_map (cs : List Chain) : chainsUnspaced cs = cs.map Chain.unspaced := by
  induction cs with
  | nil => rfl
  | cons c cs ih => rw [chainsUnspaced, ih, List.map_cons]

theorem levelsUnspaced_eq_map (ss : List Segment) :
    levelsUnspaced ss = ss.map Segment.unspaced := by
  induction ss with
  | nil => rfl
  | cons s ss ih => rw [levelsUnspaced, ih, List.map_cons]

end Shorthand

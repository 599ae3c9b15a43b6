import Shorthand.Proofs.Label

/-!
# A leaf is made of its parts

The two blocks of a leaf are found in the same way (`cutBlock`): the last opener starts a block, and
the next closer, if there is one, ends it. They differ in what becomes of the text behind them. So
the parts of a leaf can be put together to it again (`Parts.Makes`), and no other parts can
(`split_eq_iff`).
-/

namespace Shorthand

namespace Leaf

/-! ### Blocks -/

/-- A block as it is written, with its content and the text behind it. If it is not closed, it runs
to the end. No other block starts in it or behind it. -/
structure Encloses (opener closer : CodePoint) (content block behind : Text) : Prop where
  written : block = opener :: content ++ [closer] ∨ block = opener :: content ∧ behind = []
  content_lacks : content.Lacks [opener, closer]
  last : opener ∉ behind

/-- What stands before the last block of a text, in it and behind it. -/
def cutBlock (opener closer : CodePoint) (t : Text) : Option (Text × Text × Text) :=
  (Text.cutLast opener t).map fun (front, rest) =>
    (front, (Text.cutFirst closer rest).getD (rest, []))

section

variable {opener closer : CodePoint} {t front rest content behind : Text}

theorem encloses_closed (h : opener ∉ content ++ closer :: behind) (hclose : closer ∉ content) :
    Encloses opener closer content (opener :: content ++ [closer]) behind := by
  simp only [List.mem_append, List.mem_cons, not_or] at h
  exact ⟨.inl rfl, by simp [Text.Lacks, h.1, hclose], h.2.2⟩

theorem encloses_unclosed (h : opener ∉ content) (hclose : closer ∉ content) :
    Encloses opener closer content (opener :: content) [] :=
  ⟨.inr ⟨rfl, rfl⟩, by simp [Text.Lacks, h, hclose], by simp⟩

theorem exists_encloses (h : opener ∉ rest)
    (hcut : (Text.cutFirst closer rest).getD (rest, []) = (content, behind)) :
    ∃ block, opener :: rest = block ++ behind ∧ Encloses opener closer content block behind := by
  rcases hclose : Text.cutFirst closer rest with _ | ⟨a, b⟩ <;> rw [hclose] at hcut <;> cases hcut
  · exact ⟨_, by simp, encloses_unclosed h (Text.cutFirst_eq_none_iff.1 hclose)⟩
  · obtain ⟨rfl, ha⟩ := Text.cutFirst_eq_some_iff.1 hclose
    exact ⟨_, by simp, encloses_closed h ha⟩

theorem Encloses.exists_rest {block : Text} (h : Encloses opener closer content block behind)
    (hne : opener ≠ closer) : ∃ rest, block ++ behind = opener :: rest ∧ opener ∉ rest
      ∧ (Text.cutFirst closer rest).getD (rest, []) = (content, behind) := by
  obtain ⟨hopen, hclose⟩ : opener ∉ content ∧ closer ∉ content := by
    simpa [Text.Lacks] using h.content_lacks
  rcases h.written with rfl | ⟨rfl, rfl⟩
  · refine ⟨content ++ closer :: behind, by simp, by simp [hopen, hne, h.last], ?_⟩
    rw [Text.cutFirst_append hclose, Option.getD_some]
  · refine ⟨content, by simp, hopen, ?_⟩
    rw [Text.cutFirst_eq_none_iff.2 hclose, Option.getD_none]

theorem cutBlock_eq_none_iff (closer : CodePoint) :
    cutBlock opener closer t = none ↔ opener ∉ t := by
  rw [cutBlock, Option.map_eq_none_iff, Text.cutLast_eq_none_iff]

theorem cutBlock_eq_some_iff (hne : opener ≠ closer) :
    cutBlock opener closer t = some (front, content, behind) ↔
      ∃ block, t = front ++ block ++ behind ∧ Encloses opener closer content block behind := by
  rw [cutBlock, Option.map_eq_some_iff]
  constructor
  · rintro ⟨⟨a, rest⟩, hlast, hcut⟩
    obtain ⟨rfl, hrest⟩ := Text.cutLast_eq_some_iff.1 hlast
    obtain ⟨rfl, hfirst⟩ := Prod.mk.inj hcut
    obtain ⟨block, hblock, hencloses⟩ := exists_encloses hrest hfirst
    exact ⟨block, by rw [hblock, List.append_assoc], hencloses⟩
  · rintro ⟨block, rfl, hencloses⟩
    obtain ⟨rest, hblock, hrest, hcut⟩ := hencloses.exists_rest hne
    rw [List.append_assoc, hblock]
    exact ⟨(front, rest), Text.cutLast_append front hrest, congrArg (Prod.mk front) hcut⟩

/-- What stands behind the text block is dropped. -/
theorem cutText_eq (t : Text) : cutText t =
    (cutBlock '{' '}' t).elim (t, none) fun cut => (cut.1, some cut.2.1) := by
  unfold cutText cutBlock blockBefore
  rcases Text.cutLast '{' t with _ | ⟨front, rest⟩
  · rfl
  · dsimp only [Option.map_some, Option.elim_some]
    rcases Text.cutFirst '}' rest <;> rfl

/-- What stands behind the attribute block is joined to what stands before it. -/
theorem cutAttributes_eq (t : Text) : cutAttributes t =
    (cutBlock '[' ']' t).elim (t, none) fun cut => (cut.1 ++ cut.2.2, some cut.2.1) := by
  unfold cutAttributes cutBlock
  rcases Text.cutLast '[' t with _ | ⟨front, rest⟩
  · rfl
  · dsimp only [Option.map_some, Option.elim_some]
    rcases Text.cutFirst ']' rest with _ | cut
    · simp
    · rfl

theorem cutText_eq_none_iff : cutText t = (front, none) ↔ front = t ∧ .char '{' ∉ t := by
  rw [cutText_eq, ← cutBlock_eq_none_iff '}']
  rcases cutBlock '{' '}' t with _ | cut
  · simp [eq_comm]
  · simp

theorem cutText_eq_some_iff : cutText t = (front, some content) ↔
    ∃ behind, cutBlock '{' '}' t = some (front, content, behind) := by
  rw [cutText_eq]
  rcases cutBlock '{' '}' t with _ | cut
  · simp
  · simp [Prod.ext_iff]

theorem cutAttributes_eq_none_iff : cutAttributes t = (front, none) ↔
    front = t ∧ .char '[' ∉ t := by
  rw [cutAttributes_eq, ← cutBlock_eq_none_iff ']']
  rcases cutBlock '[' ']' t with _ | cut
  · simp [eq_comm]
  · simp

theorem cutAttributes_eq_some_iff : cutAttributes t = (front, some content) ↔
    ∃ before between, front = before ++ between
      ∧ cutBlock '[' ']' t = some (before, content, between) := by
  rw [cutAttributes_eq]
  rcases cutBlock '[' ']' t with _ | ⟨before, inner, between⟩
  · simp
  · simp only [Option.elim_some, Prod.mk.injEq, Option.some.injEq]
    constructor
    · rintro ⟨rfl, rfl⟩
      exact ⟨before, between, rfl, rfl, rfl, rfl⟩
    · rintro ⟨_, _, rfl, rfl, rfl, rfl⟩
      exact ⟨rfl, rfl⟩

end

/-! ### Parts -/

namespace Parts

variable (p : Parts)

/-- How the attributes are written. Without them there is no opener in the selector. -/
def AttributesIn (block between : Text) : Prop :=
  match p.attributes with
  | none => block = [] ∧ .char '[' ∉ p.selector
  | some content => Encloses '[' ']' content block between

/-- How the text is written. Without it there is no opener in the leaf. -/
def TextIn (t block behind : Text) : Prop :=
  match p.text with
  | none => block = [] ∧ behind = [] ∧ .char '{' ∉ t
  | some content => Encloses '{' '}' content block behind

/-- The selector stands around the attributes and the text comes after it. What is behind the text
belongs to no part. -/
def Makes (t : Text) : Prop :=
  ∃ before attributes between text behind : Text,
    p.selector = before ++ between
      ∧ t = before ++ attributes ++ between ++ text ++ behind
      ∧ p.AttributesIn attributes between ∧ p.TextIn t text behind

variable {p} {t front : Text}

theorem cutText_eq_iff : cutText t = (front, p.text) ↔
    ∃ block behind, t = front ++ block ++ behind ∧ p.TextIn t block behind := by
  unfold TextIn
  rcases p.text with _ | content
  · rw [cutText_eq_none_iff]
    constructor
    · rintro ⟨rfl, hnone⟩
      exact ⟨[], [], by simp, rfl, rfl, hnone⟩
    · rintro ⟨_, _, ht, rfl, rfl, hnone⟩
      exact ⟨by simpa using ht.symm, hnone⟩
  · simp only [cutText_eq_some_iff,
      cutBlock_eq_some_iff (by decide : CodePoint.char '{' ≠ CodePoint.char '}')]
    exact exists_comm

theorem cutAttributes_eq_iff : cutAttributes front = (p.selector, p.attributes) ↔
    ∃ before block between, p.selector = before ++ between ∧ front = before ++ block ++ between
      ∧ p.AttributesIn block between := by
  unfold AttributesIn
  rcases p.attributes with _ | content
  · rw [cutAttributes_eq_none_iff]
    constructor
    · rintro ⟨hselector, hnone⟩
      exact ⟨p.selector, [], [], by simp, by simpa using hselector.symm, rfl, hselector ▸ hnone⟩
    · -- The selector may be cut anywhere if nothing stands in between.
      rintro ⟨before, _, between, hselector, rfl, rfl, hnone⟩
      rw [List.append_nil, ← hselector]
      exact ⟨rfl, hnone⟩
  · simp only [cutAttributes_eq_some_iff,
      cutBlock_eq_some_iff (by decide : CodePoint.char '[' ≠ CodePoint.char ']')]
    constructor
    · rintro ⟨before, between, hselector, block, hfront, hencloses⟩
      exact ⟨before, block, between, hselector, hfront, hencloses⟩
    · rintro ⟨before, block, between, hselector, hfront, hencloses⟩
      exact ⟨before, between, hselector, block, hfront, hencloses⟩

theorem split_eq_cuts_iff : split t = p ↔
    ∃ front, cutText t = (front, p.text) ∧ cutAttributes front = (p.selector, p.attributes) := by
  constructor
  · rintro rfl
    exact ⟨(cutText t).1, rfl, rfl⟩
  · rintro ⟨front, htext, hattributes⟩
    rw [split, htext]
    dsimp only
    rw [hattributes]

end Parts

/-- The parts of a leaf make it, and no other parts do. -/
theorem split_eq_iff {t : Text} {p : Parts} : split t = p ↔ p.Makes t := by
  rw [Parts.split_eq_cuts_iff]
  simp only [Parts.cutText_eq_iff, Parts.cutAttributes_eq_iff]
  constructor
  · rintro ⟨_, ⟨text, behind, ht, htext⟩, before, attributes, between, hselector, rfl, hattributes⟩
    exact ⟨before, attributes, between, text, behind, hselector, ht, hattributes, htext⟩
  · rintro ⟨before, attributes, between, text, behind, hselector, ht, hattributes, htext⟩
    exact ⟨_, ⟨text, behind, ht, htext⟩, before, attributes, between, hselector, rfl, hattributes⟩

/-- Brackets of one kind in a block of the other kind are plain characters. -/
example : split "p[a=\x7bb]c.d\x7be[f=g]\x7dh" =
    ⟨"pc.d", some "a=\x7bb", some "e[f=g]"⟩ := by
  decide

end Leaf

end Shorthand

import Shorthand.Proofs.DirectExpansion
import Shorthand.Proofs.Places

/-!
# What is wrong with an expression

A tree is evaluated along the places of its marks. A leaf is at fault where an attribute has no
value, and a chain at its root if the group there does not hold a single sibling. Evaluation fails
with the first fault (`settles_chainNodes`). So all there is to say against an expression can be
listed in order, and it expands if the list is empty (`settles_expandMarks`).
-/

namespace Shorthand

/-! ### Leaves -/

namespace Leaf

variable (defaultTag : Text) (e : Option Text)

def itemFaults (block item : Text) : List Rejection :=
  if item.contains '=' then [] else [⟨.attributeWithoutValue item, e, some block⟩]

/-- The attributes of a leaf that have no value. -/
def faults (t : Text) : List Rejection :=
  (split t).attributes.elim [] fun block => (Text.words block).flatMap (itemFaults e block)

theorem settles_pair (block item : Text) :
    Settles (fun _ => True) (itemFaults e block item) (pair e block item) := by
  unfold itemFaults pair
  rcases h : Text.cutFirst '=' item with _ | ⟨name, value⟩
  · rw [if_neg (by simpa using Text.cutFirst_eq_none_iff.1 h)]
    rfl
  · rw [if_pos (by simp [(Text.cutFirst_eq_some_iff.1 h).1])]
    exact .ok trivial

theorem settles_attributes (block : Text) :
    Settles (fun _ => True) ((Text.words block).flatMap (itemFaults e block))
      (attributes e block) :=
  (Settles.mapM fun item _ => settles_pair e block item).imp fun _ _ => trivial

theorem settles_expand (t : Text) :
    Settles (fun _ => True) (faults e t) (expand defaultTag e t) := by
  unfold faults expand
  dsimp only
  rcases (split t).attributes with _ | _ | ⟨c, r⟩
  · exact .ok trivial
  · exact .ok trivial
  · exact (settles_attributes e (c :: r)).bind_ok fun _ _ => .ok trivial

/-- The attribute block of a leaf: in what stands before the last `{`, the text after the last `[`,
up to the next `]` or to the end. -/
def HasBlock (t block : Text) : Prop :=
  ∃ front before rest : Text, Text.BeforeLast '{' t front
    ∧ front = before ++ .char '[' :: rest ∧ .char '[' ∉ rest ∧ Text.UpTo ']' rest block

theorem fst_cutText (t : Text) :
    (cutText t).1 = (Text.cutLast '{' t).elim t fun cut => cut.1 := by
  unfold cutText
  rcases Text.cutLast '{' t <;> rfl

theorem snd_cutAttributes (t : Text) : (cutAttributes t).2 =
    (Text.cutLast '[' t).map fun cut => (Text.cutFirst ']' cut.2).elim cut.2 fun c => c.1 := by
  unfold cutAttributes
  rcases Text.cutLast '[' t with _ | ⟨a, b⟩
  · rfl
  · rw [Option.map_some]
    dsimp only
    rcases Text.cutFirst ']' b <;> rfl

theorem split_attributes_eq_some_iff {t block : Text} :
    (split t).attributes = some block ↔ HasBlock t block := by
  show (cutAttributes (cutText t).1).2 = some block ↔ _
  rw [snd_cutAttributes, Option.map_eq_some_iff, fst_cutText]
  simp only [HasBlock, Text.beforeLast_iff, Text.upTo_iff]
  constructor
  · rintro ⟨⟨before, rest⟩, hcut, hblock⟩
    obtain ⟨hfront, hrest⟩ := Text.cutLast_eq_some_iff.1 hcut
    exact ⟨_, before, rest, rfl, hfront, hrest, hblock⟩
  · rintro ⟨_, before, rest, rfl, hfront, hrest, hblock⟩
    exact ⟨(before, rest), Text.cutLast_eq_some_iff.2 ⟨hfront, hrest⟩, hblock⟩

theorem HasBlock.isInfix {t block : Text} (h : HasBlock t block) : block <:+: t := by
  obtain ⟨front, before, rest, hf, rfl, -, hb⟩ := h
  have hrest : rest <:+ before ++ .char '[' :: rest :=
    (List.suffix_cons _ _).trans (List.suffix_append _ _)
  exact hb.isPrefix.isInfix.trans (hrest.isInfix.trans hf.isPrefix.isInfix)

/-- Whether every attribute of a leaf has a value. -/
def Valued (t : Text) : Prop :=
  ∀ block, HasBlock t block → ∀ item ∈ Text.words block, .char '=' ∈ item

theorem mem_faults_iff {r : Rejection} {t : Text} : r ∈ faults e t ↔ ∃ block, HasBlock t block
    ∧ ∃ item ∈ Text.words block, .char '=' ∉ item
      ∧ r = ⟨.attributeWithoutValue item, e, some block⟩ := by
  have hitem {block item : Text} : r ∈ itemFaults e block item ↔
      .char '=' ∉ item ∧ r = ⟨.attributeWithoutValue item, e, some block⟩ := by
    simp [itemFaults]
  unfold faults
  simp only [← split_attributes_eq_some_iff, ← hitem]
  rcases (split t).attributes with _ | block
  · simp
  · simp

theorem faults_eq_nil {t : Text} : faults e t = [] ↔ Valued t := by
  unfold faults Valued
  simp only [← split_attributes_eq_some_iff]
  rcases (split t).attributes with _ | block
  · simp
  · simp [itemFaults]

theorem of_mem_faults {r : Rejection} {t : Text} (h : r ∈ faults e t) :
    r.expression = e ∧ (∃ block, r.segment = some block ∧ block <:+: t)
      ∧ r.problem.code = "E_ATTRIBUTE_SYNTAX" := by
  obtain ⟨block, hb, item, -, -, rfl⟩ := (mem_faults_iff e).1 h
  exact ⟨rfl, ⟨block, rfl, hb.isInfix⟩, rfl⟩

end Leaf

/-! ### Chains -/

theorem chainNodes_eq_mapM (defaultTag : Text) (e : Option Text) (cs : List Chain) :
    chainNodes defaultTag e cs = cs.mapM (Chain.node defaultTag e) := by
  induction cs with
  | nil => rfl
  | cons c cs ih => rw [chainNodes, List.mapM_cons, ih]

theorem levelNodes_eq_mapM (defaultTag : Text) (e : Option Text) (ss : List Segment) :
    levelNodes defaultTag e ss = ss.mapM (Segment.nodes defaultTag e) := by
  induction ss with
  | nil => rfl
  | cons s ss ih => rw [levelNodes, List.mapM_cons, ih]

theorem nodes_leaf (defaultTag : Text) (e : Option Text) (source : Text) :
    (Segment.leaf source).nodes defaultTag e =
      (fun n => [n]) <$> (Leaf.expand defaultTag e source).mapError Failure.rejected := by
  rw [Segment.nodes]
  rcases Leaf.expand defaultTag e source <;> rfl

theorem nest_ok : ∀ (first : Node) {levels : List (List Node)}, (∀ ns ∈ levels, ns ≠ []) →
    ∃ n, nest first levels = .ok n
  | first, [], _ => ⟨first, rfl⟩
  | _, [] :: _, h => absurd rfl (h [] List.mem_cons_self)
  | first, (n :: ns) :: levels, h => by
    obtain ⟨child, hc⟩ := nest_ok n (List.forall_mem_cons.1 h).2
    exact ⟨first.adopt (child :: ns), by rw [nest, hc]; rfl⟩

namespace Mark

/-- How many nodes come out of a level. -/
def width (level : List Mark) : Nat :=
  match inside? level with
  | some inner => (siblings inner).length
  | none => 1

theorem width_pos (level : List Mark) : 0 < width level := by
  unfold width
  split
  · exact List.length_pos_iff.2 (siblings_ne_nil _)
  · exact Nat.one_pos

section

variable (defaultTag : Text) (e : Option Text)

def Place.faults : Place → List Rejection
  | body _ => []
  | chain _ => []
  | leaf l => Leaf.faults e (sources l)
  | root s =>
    if width ((levels s).headD []) = 1 then []
    else [⟨.rootCount (width ((levels s).headD [])), e, some (sources s)⟩]

/-- What an evaluation objects to, in order. -/
def faults (ms : List Mark) : List Rejection :=
  (places ms).flatMap (Place.faults e)

/-- What evaluation needs of a place: the attributes of a leaf have values, and a group at the root
of a chain holds a single sibling. -/
def Place.Sound : Place → Prop
  | body _ => True
  | chain _ => True
  | leaf l => Leaf.Valued (sources l)
  | root s => ∀ inner, (levels s).head? = some [.pair inner] → (siblings inner).length = 1

/-- The code of what can be wrong at a place. -/
def Place.faultCode : Place → Text
  | leaf _ => "E_ATTRIBUTE_SYNTAX"
  | _ => "E_INVALID_EXPRESSION"

theorem width_root {s : List Mark} : width ((levels s).headD []) = 1 ↔ (Place.root s).Sound := by
  obtain ⟨l, ls, h⟩ := List.exists_cons_of_ne_nil (levels_ne_nil s)
  simp only [Place.Sound, width, h, List.headD_cons, List.head?_cons, Option.some.injEq,
    ← inside?_eq_some]
  rcases inside? l with _ | inner
  · simp
  · simp

theorem Place.faults_eq_nil {p : Place} : p.faults e = [] ↔ p.Sound := by
  cases p with
  | body ms => simp [Place.faults, Place.Sound]
  | chain s => simp [Place.faults, Place.Sound]
  | leaf l => exact Leaf.faults_eq_nil e
  | root s => simp only [Place.faults, width_root, ite_eq_left_iff, List.cons_ne_nil, imp_false,
      Classical.not_not]

theorem faults_eq_nil {ms : List Mark} : faults e ms = [] ↔ ∀ p ∈ places ms, p.Sound := by
  simp only [faults, List.flatMap_eq_nil_iff, Place.faults_eq_nil]

theorem Place.of_mem_faults {p : Place} {r : Rejection} (h : r ∈ p.faults e) :
    r.expression = e ∧ (∃ segment, r.segment = some segment ∧ segment <:+: sources p.marks)
      ∧ r.problem.code = p.faultCode := by
  cases p with
  | body ms => cases h
  | chain s => cases h
  | leaf l => exact Leaf.of_mem_faults e h
  | root s =>
    simp only [Place.faults, List.mem_ite_nil_left, List.mem_singleton] at h
    obtain ⟨-, rfl⟩ := h
    exact ⟨rfl, ⟨_, rfl, List.infix_refl _⟩, rfl⟩

theorem ne_nil_of_width {ls : List (List Mark)} {nss : List (List Node)}
    (h : List.Forall₂ (fun l ns => ns.length = width l) ls nss) : ∀ ns ∈ nss, ns ≠ [] := by
  induction h with
  | nil => simp
  | @cons l ns ls nss hl _ ih =>
    refine List.forall_mem_cons.2 ⟨?_, ih⟩
    rw [← List.length_pos_iff, hl]
    exact width_pos l

/-- The levels of a chain can be composed if there is one node for the first and some for each. -/
theorem settles_composeChain {s : List Mark} {nss : List (List Node)}
    (h : List.Forall₂ (fun l ns => ns.length = width l) (levels s) nss) :
    Settles (fun _ => True) (((Place.root s).faults e).map .rejected)
      (composeChain e (sources s) nss) := by
  simp only [Place.faults]
  rcases hl : levels s with _ | ⟨l, ls⟩
  · exact absurd hl (levels_ne_nil s)
  rw [hl] at h
  rcases h with _ | @⟨_, roots, _, rest, hw, hrest⟩
  rw [List.headD_cons, ← hw]
  have hpos : 0 < roots.length := hw ▸ width_pos l
  rcases roots with _ | ⟨root, _ | ⟨other, roots⟩⟩
  · simp at hpos
  · obtain ⟨n, hn⟩ := nest_ok root (ne_nil_of_width hrest)
    exact ⟨n, hn, trivial⟩
  · rw [if_neg (by simp)]
    rfl

theorem settles_segment {level : List Mark}
    (ih : ∀ inner, inside? level = some inner →
      Settles (·.length = (siblings inner).length) ((faults e inner).map Failure.rejected)
        (chainNodes defaultTag e (tree inner))) :
    Settles (·.length = width level)
      (((levelPlaces level).flatMap (Place.faults e)).map Failure.rejected)
      ((segment level).nodes defaultTag e) := by
  unfold levelPlaces segment width
  rcases hi : inside? level with _ | inner
  · rw [nodes_leaf, List.flatMap_singleton]
    have hleaf := Leaf.settles_expand defaultTag e (sources level)
    exact (hleaf.mapError Failure.rejected).map fun _ _ => rfl
  · exact ih inner hi

theorem settles_chainOf {s : List Mark}
    (ih : ∀ l ∈ levels s, ∀ inner, inside? l = some inner →
      Settles (·.length = (siblings inner).length) ((faults e inner).map Failure.rejected)
        (chainNodes defaultTag e (tree inner))) :
    Settles (fun _ => True) (((chainPlaces s).flatMap (Place.faults e)).map Failure.rejected)
      ((chainOf s).node defaultTag e) := by
  have hchain : (Place.chain s).faults e = [] := rfl
  rw [flatMap_chainPlaces, chainOf, Chain.node, levelNodes_eq_mapM, List.mapM_map, hchain,
    List.nil_append, List.map_append, List.map_flatMap]
  exact (Settles.mapM fun l hl => settles_segment defaultTag e (ih l hl)).bind fun nss hnss =>
    settles_composeChain e hnss

/-- Evaluation fails with the first fault, and otherwise gives a node for each sibling. -/
theorem settles_chainNodes (ms : List Mark) :
    Settles (·.length = (siblings ms).length) ((faults e ms).map Failure.rejected)
      (chainNodes defaultTag e (tree ms)) := by
  induction ms using inside_induction with
  | step ms ih =>
    have hbody : (Place.body ms).faults e = [] := rfl
    rw [faults, flatMap_places, tree_eq, chainNodes_eq_mapM, List.mapM_map, hbody,
      List.nil_append, List.map_flatMap]
    exact (Settles.mapM fun s hs => settles_chainOf defaultTag e (ih s hs)).imp fun ns hns =>
      hns.length_eq.symm

end

end Mark

/-! ### Expansion -/

/-- All there is to say against an expression. -/
def rejections (s : Settings) (text : Text) : List Rejection :=
  (if s.strictGrouping ∧ (Mark.read text).any Mark.isStray then
      [⟨.unbalanced, some text, some text⟩] else []) ++
    (Mark.blanks (some text) (Mark.read text) ++ Mark.faults (some text) (Mark.read text))

theorem expandMarks_of_check {s : Settings} {text : Text} {warnings : List Warning}
    (h : Mark.check (Mark.read text) text s.strictGrouping = .ok warnings) :
    expandMarks s text = (warnings, (Mark.parse (some text) (Mark.read text)).mapError .rejected >>=
      chainNodes s.defaultTag (some text)) := by
  unfold expandMarks
  rw [h]
  rcases Mark.parse (some text) (Mark.read text) <;> rfl

theorem settles_expandMarks (s : Settings) (text : Text) :
    Settles (·.length = (Mark.siblings (Mark.read text)).length)
      ((rejections s text).map Failure.rejected) (expandMarks s text).2 := by
  have hrest := ((Mark.settles_parse (some text) (Mark.read text)).mapError Failure.rejected).bind
    (k := chainNodes s.defaultTag (some text)) fun cs hcs =>
      hcs ▸ Mark.settles_chainNodes s.defaultTag (some text) (Mark.read text)
  rw [← List.map_append] at hrest
  unfold rejections
  by_cases hstray : (Mark.read text).any Mark.isStray = true
  · by_cases hstrict : s.strictGrouping = true
    · unfold expandMarks Mark.check
      rw [if_pos ⟨hstrict, hstray⟩, if_pos hstray, if_pos hstrict, Mark.sources_read]
      rfl
    · have hcheck : Mark.check (Mark.read text) text s.strictGrouping = .ok [⟨text⟩] := by
        rw [Mark.check, if_pos hstray, if_neg hstrict]
      rw [if_neg fun h => hstrict h.1, expandMarks_of_check hcheck]
      exact hrest
  · have hcheck : Mark.check (Mark.read text) text s.strictGrouping = .ok [] := by
      rw [Mark.check, if_neg hstray]
    rw [if_neg fun h => hstray h.2, expandMarks_of_check hcheck]
    exact hrest

theorem expand_eq {s : Settings} (h : ∀ b ∈ s.placeholderBase, isSafeBase b = true) (source : Text)
    (drawn : Nat) : expand s source drawn = (expandMarks s (Text.normalize source)).2 :=
  congrArg Prod.snd (outcome_run h source drawn)

theorem settles_expand {s : Settings} (h : ∀ b ∈ s.placeholderBase, isSafeBase b = true)
    (source : Text) (drawn : Nat) :
    Settles (·.length = (Mark.siblings (Mark.read (Text.normalize source))).length)
      ((rejections s (Text.normalize source)).map Failure.rejected) (expand s source drawn) :=
  expand_eq h source drawn ▸ settles_expandMarks s (Text.normalize source)

theorem expand_eq_error_iff {s : Settings} (h : ∀ b ∈ s.placeholderBase, isSafeBase b = true)
    {source : Text} {drawn : Nat} {r : Rejection} : expand s source drawn = .error (.rejected r) ↔
      (rejections s (Text.normalize source)).head? = some r := by
  rw [(settles_expand h source drawn).error_iff, List.head?_map, Option.map_eq_some_iff]
  simp

/-! ### Acceptance -/

theorem rejections_default (text : Text) : rejections {} text =
    Mark.blanks (some text) (Mark.read text) ++ Mark.faults (some text) (Mark.read text) := by
  simp [rejections]

/-- An expression expands if no place of it is blank and all of them are sound. It is rejected at
the first blank place, and if there is none, at the first place that is not sound. -/
theorem expand_accepts (source : Text) (drawn : Nat) :
    let ps := Mark.places (Mark.read (Text.normalize source))
    ((∃ ns, expand {} source drawn = .ok ns) ↔ (∀ p ∈ ps, p.Filled) ∧ ∀ p ∈ ps, p.Sound)
      ∧ ((∃ p ∈ ps, ¬ p.Filled) → ∃ r, expand {} source drawn = .error (.rejected r)
          ∧ r.problem.code = "E_INVALID_EXPRESSION")
      ∧ ∀ before p after, ps = before ++ p :: after → (∀ q ∈ ps, q.Filled) →
          (∀ q ∈ before, q.Sound) → ¬ p.Sound →
          ∃ r, expand {} source drawn = .error (.rejected r) ∧ r.problem.code = p.faultCode := by
  intro ps
  have hbase : ∀ b ∈ (none : Option Text), isSafeBase b = true := by simp
  set text := Text.normalize source with htext
  have herror {r : Rejection} (h : (rejections {} text).head? = some r) :
      expand {} source drawn = .error (.rejected r) := (expand_eq_error_iff hbase).2 h
  refine ⟨?_, ?_, ?_⟩
  · rw [(settles_expand hbase source drawn).exists_ok_iff, List.map_eq_nil_iff, ← htext,
      rejections_default, List.append_eq_nil_iff, Mark.blanks_eq_nil, Mark.faults_eq_nil]
  · rintro ⟨p, hp, hblank⟩
    have hne : Mark.blanks (some text) (Mark.read text) ≠ [] := fun h =>
      hblank ((Mark.blanks_eq_nil _).1 h p hp)
    obtain ⟨r, rs, hr⟩ := List.exists_cons_of_ne_nil hne
    obtain ⟨q, -, hq⟩ := List.mem_flatMap.1 (hr ▸ List.mem_cons_self : r ∈ Mark.blanks _ _)
    refine ⟨r, herror ?_, (Mark.Place.of_mem_blanks _ hq).2.2⟩
    rw [rejections_default, hr]
    rfl
  · intro before p after hps hfilled hbefore hp
    obtain ⟨r, rs, hr⟩ := List.exists_cons_of_ne_nil
      (mt (Mark.Place.faults_eq_nil (some text)).1 hp)
    have hfirst : before.flatMap (Mark.Place.faults (some text)) = [] := by
      simpa only [List.flatMap_eq_nil_iff, Mark.Place.faults_eq_nil] using hbefore
    refine ⟨r, herror ?_, (Mark.Place.of_mem_faults _ (hr ▸ List.mem_cons_self)).2.2⟩
    rw [rejections_default, (Mark.blanks_eq_nil _).2 hfilled, Mark.faults]
    show (ps.flatMap _).head? = some r
    rw [hps, List.flatMap_append, hfirst, List.flatMap_cons, hr]
    rfl

end Shorthand

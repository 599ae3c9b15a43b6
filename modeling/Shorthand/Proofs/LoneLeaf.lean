import Shorthand.Proofs.Nesting

/-!
# Expressions that are a single leaf

A text without operators and parentheses is one leaf, from which expansion cuts the blanks at its
ends. They do not matter to a leaf whose text block, if it has one, is closed: each name in the
selector is trimmed, and the attributes are words (`expand_trim`). So such a text expands to the
node of the whole of it as a leaf, or both are rejected for the same attribute
(`expand_of_lone_leaf`).
-/

namespace Shorthand

/-! ### Blanks around texts -/

namespace Text

variable {c : CodePoint} {t u : Text}

theorem map_trim_splitOn (hc : isBlank c = false) (t : Text) :
    ((trim t).splitOn c).map trim = (t.splitOn c).map trim := by
  refine map_trimBy_splitOnP (p := (· == c)) (q := isBlank) (fun d hd => ?_) t
  refine beq_false_of_ne ?_
  rintro rfl
  exact Bool.false_ne_true (hc.symm.trans hd)

theorem words_append_cons (hc : isBlank c = true) (t u : Text) :
    words (t ++ c :: u) = words t ++ words u := by
  rw [words, List.splitOnP_append_cons _ _ hc, List.filter_append, words, words]

theorem words_append_blank (t : Text) (h : ∀ c ∈ u, isBlank c = true) :
    words (t ++ u) = words t := by
  induction u generalizing t with
  | nil => rw [List.append_nil]
  | cons c r ih =>
    obtain ⟨hc, hr⟩ := List.forall_mem_cons.1 h
    have hnil : words r = [] := ih [] hr
    rw [words_append_cons hc, hnil, List.append_nil]

theorem notMem_of_blank (hc : isBlank c = false) (h : ∀ d ∈ u, isBlank d = true) : c ∉ u :=
  fun hm => Bool.false_ne_true (hc.symm.trans (h c hm))

theorem cutLast_append_left (h : c ∉ u) (t : Text) :
    cutLast c (u ++ t) = (cutLast c t).map fun cut => (u ++ cut.1, cut.2) := by
  rcases hcut : cutLast c t with _ | ⟨a, b⟩
  · refine cutLast_eq_none ?_
    rw [List.mem_append, not_or]
    exact ⟨h, cutLast_eq_none_iff.1 hcut⟩
  · obtain ⟨rfl, hb⟩ := cutLast_eq_some_iff.1 hcut
    rw [← List.append_assoc]
    exact cutLast_append _ hb

theorem cutLast_append_right (h : c ∉ u) (t : Text) :
    cutLast c (t ++ u) = (cutLast c t).map fun cut => (cut.1, cut.2 ++ u) := by
  rcases hcut : cutLast c t with _ | ⟨a, b⟩
  · refine cutLast_eq_none ?_
    rw [List.mem_append, not_or]
    exact ⟨cutLast_eq_none_iff.1 hcut, h⟩
  · obtain ⟨rfl, hb⟩ := cutLast_eq_some_iff.1 hcut
    rw [List.append_assoc, List.cons_append]
    exact cutLast_append a (by simp [hb, h])

theorem cutFirst_append_right (h : c ∉ u) (t : Text) :
    cutFirst c (t ++ u) = (cutFirst c t).map fun cut => (cut.1, cut.2 ++ u) := by
  rcases hcut : cutFirst c t with _ | ⟨a, b⟩
  · refine cutFirst_eq_none_iff.2 ?_
    rw [List.mem_append, not_or]
    exact ⟨cutFirst_eq_none_iff.1 hcut, h⟩
  · obtain ⟨rfl, ha⟩ := cutFirst_eq_some_iff.1 hcut
    rw [List.append_assoc, List.cons_append]
    exact cutFirst_append ha _

end Text

/-! ### Blanks around leaves -/

namespace Leaf

variable {t u : Text}

/-- The names in a selector are read from its trimmed pieces. -/
theorem selector_eq (defaultTag t : Text) : selector defaultTag t =
    let ps := (t.splitOn (.char '.')).map Text.trim
    let qs := ((ps.headD []).splitOn (.char '#')).map Text.trim
    ⟨orElse (qs.headD []) defaultTag, qs.tail.head?.bind nonEmpty, ps.tail⟩ := by
  obtain ⟨p, ps, hp⟩ := List.exists_cons_of_ne_nil (List.splitOn_ne_nil (.char '.') t)
  have htrim := Text.map_trim_splitOn (c := .char '#') (by decide) p
  obtain ⟨q, qs, hq⟩ := List.exists_cons_of_ne_nil (List.splitOn_ne_nil (.char '#') p)
  simp only [selector, hp, List.headD_cons, List.map_cons, List.tail_cons, htrim]
  rw [hq]
  rcases qs with _ | ⟨i, qs⟩ <;> rfl

theorem selector_congr (h : Text.trim t = Text.trim u) (defaultTag : Text) :
    selector defaultTag t = selector defaultTag u := by
  have hpieces :
      (t.splitOn (.char '.')).map Text.trim = (u.splitOn (.char '.')).map Text.trim := by
    rw [← Text.map_trim_splitOn (by decide) t, h, Text.map_trim_splitOn (by decide) u]
  rw [selector_eq, selector_eq, hpieces]

/-- Parts that differ in blanks at the ends of the selector and of the attribute block. -/
structure Parts.Alike (p q : Parts) : Prop where
  selector : Text.trim p.selector = Text.trim q.selector
  attributes : p.attributes.map Text.words = q.attributes.map Text.words
  text : p.text = q.text

theorem Parts.Alike.trans {p q r : Parts} (h : p.Alike q) (h' : q.Alike r) : p.Alike r :=
  ⟨h.selector.trans h'.selector, h.attributes.trans h'.attributes, h.text.trans h'.text⟩

theorem cutAttributes_append_left (h : .char '[' ∉ u) (t : Text) :
    cutAttributes (u ++ t) = (u ++ (cutAttributes t).1, (cutAttributes t).2) := by
  unfold cutAttributes
  rw [Text.cutLast_append_left h]
  rcases Text.cutLast '[' t with _ | ⟨a, b⟩
  · rfl
  · dsimp only [Option.map_some]
    rcases Text.cutFirst ']' b with _ | ⟨inner, rest⟩
    · rfl
    · dsimp only
      rw [List.append_assoc]

theorem cutText_append_left (h : .char '{' ∉ u) (t : Text) :
    cutText (u ++ t) = (u ++ (cutText t).1, (cutText t).2) := by
  unfold cutText
  rw [Text.cutLast_append_left h]
  rcases Text.cutLast '{' t <;> rfl

/-- Blanks before a leaf go to the selector. -/
theorem alike_append_left (h : ∀ c ∈ u, Text.isBlank c = true) (t : Text) :
    (split (u ++ t)).Alike (split t) := by
  unfold split
  rw [cutText_append_left (Text.notMem_of_blank (by decide) h)]
  dsimp only
  rw [cutAttributes_append_left (Text.notMem_of_blank (by decide) h)]
  exact ⟨trimBy_append_left h _, rfl, rfl⟩

/-- Blanks after the attributes go to the selector, or to an attribute block that is not closed. -/
theorem cutAttributes_append_blank (h : ∀ c ∈ u, Text.isBlank c = true) (t : Text) :
    Text.trim (cutAttributes (t ++ u)).1 = Text.trim (cutAttributes t).1
      ∧ (cutAttributes (t ++ u)).2.map Text.words = (cutAttributes t).2.map Text.words := by
  unfold cutAttributes
  rw [Text.cutLast_append_right (Text.notMem_of_blank (by decide) h)]
  rcases Text.cutLast '[' t with _ | ⟨a, b⟩
  · exact ⟨trimBy_append_right t h, rfl⟩
  dsimp only [Option.map_some]
  rw [Text.cutFirst_append_right (Text.notMem_of_blank (by decide) h)]
  rcases Text.cutFirst ']' b with _ | ⟨inner, rest⟩
  · exact ⟨rfl, congrArg some (Text.words_append_blank b h)⟩
  · dsimp only [Option.map_some]
    rw [← List.append_assoc]
    exact ⟨trimBy_append_right _ h, rfl⟩

/-- A leaf has no text block, or one that is closed. -/
def TextClosed (t : Text) : Prop :=
  .char '{' ∉ t ∨ ∃ before rest : Text, t = before ++ .char '{' :: rest ∧ .char '{' ∉ rest
    ∧ .char '}' ∈ rest

/-- Blanks after a text block that is closed are not in the text. -/
theorem alike_append_right (h : ∀ c ∈ u, Text.isBlank c = true) (ht : TextClosed (t ++ u)) :
    (split (t ++ u)).Alike (split t) := by
  have hopen : .char '{' ∉ u := Text.notMem_of_blank (by decide) h
  have hclose : .char '}' ∉ u := Text.notMem_of_blank (by decide) h
  unfold split cutText
  rcases ht with hnone | ⟨before, rest, heq, hrest, hmem⟩
  · have ht : .char '{' ∉ t := fun hm => hnone (List.mem_append_left u hm)
    rw [Text.cutLast_eq_none hnone, Text.cutLast_eq_none ht]
    obtain ⟨hselector, hattributes⟩ := cutAttributes_append_blank h t
    exact ⟨hselector, hattributes, rfl⟩
  · have hcut := Text.cutLast_append_right hopen t
    rw [heq, Text.cutLast_append before hrest] at hcut
    obtain ⟨⟨front, block⟩, hfront, he⟩ := Option.map_eq_some_iff.1 hcut.symm
    obtain ⟨rfl, rfl⟩ := Prod.mk.inj he
    obtain ⟨inner, after, rfl, hinner⟩ :=
      List.eq_append_cons_of_mem ((List.mem_append.1 hmem).resolve_right hclose)
    rw [Text.cutLast_append_right hopen, hfront]
    dsimp only [Option.map_some, blockBefore]
    rw [List.append_assoc, List.cons_append, Text.cutFirst_append hinner,
      Text.cutFirst_append hinner]
    exact ⟨rfl, rfl, rfl⟩

theorem alike_trim (h : (∀ c ∈ t.getLast?, Text.isBlank c = false) ∨ TextClosed t) :
    (split t).Alike (split (Text.trim t)) := by
  obtain ⟨a, b, ht, ha, hb⟩ := exists_trimBy Text.isBlank t
  change t = a ++ Text.trim t ++ b at ht
  generalize Text.trim t = u at ht
  subst ht
  refine Parts.Alike.trans ?_ (alike_append_left ha u)
  rcases h with hlast | hclosed
  · rcases b.eq_nil_or_concat with rfl | ⟨b, c, rfl⟩
    · rw [List.append_nil]
      exact ⟨rfl, rfl, rfl⟩
    · have hc := hlast c (by simp)
      exact absurd (hb c (by simp)) (by rw [hc]; exact Bool.false_ne_true)
  · exact alike_append_right hb hclosed

end Leaf

/-! ### What leaves come to -/

/-- A rejection that does not tell where it applies. -/
def Rejection.unplaced (r : Rejection) : Rejection :=
  { r with segment := none }

namespace Leaf

section

variable (defaultTag : Text) (e : Option Text)

/-- Attributes are read from the words of a block, which is only told in rejections. -/
theorem attributes_unplaced (block : Text) : (attributes e block).mapError Rejection.unplaced =
    (Text.words block).mapM fun item => (pair e [] item).mapError Rejection.unplaced := by
  rw [attributes, mapError_mapM]
  refine congrArg (fun f => (Text.words block).mapM f) (funext fun item => ?_)
  unfold pair
  rcases Text.cutFirst '=' item <;> rfl

theorem expand_unplaced (t : Text) : (expand defaultTag e t).mapError Rejection.unplaced =
    (((split t).attributes.map Text.words).getD []).mapM
        (fun item => (pair e [] item).mapError Rejection.unplaced) >>= fun attrs =>
      let s := selector defaultTag (split t).selector
      .ok { tag := s.tag, id := s.id, classes := s.classes, attributes := attrs,
            text := (split t).text.bind nonEmpty } := by
  unfold expand
  dsimp only
  rcases (split t).attributes with _ | _ | ⟨c, r⟩
  · rfl
  · rfl
  · show (attributes e (c :: r) >>= _).mapError Rejection.unplaced = _
    rw [mapError_bind, attributes_unplaced]
    rfl

variable {t u : Text}

theorem expand_congr (h : (split t).Alike (split u)) :
    (expand defaultTag e t).mapError Rejection.unplaced =
      (expand defaultTag e u).mapError Rejection.unplaced := by
  rw [expand_unplaced, expand_unplaced, selector_congr h.selector, h.attributes, h.text]

/-- A leaf and the same leaf without the blanks at its ends come to the same node, or are rejected
for the same attribute. -/
theorem expand_trim (h : (∀ c ∈ t.getLast?, Text.isBlank c = false) ∨ TextClosed t) :
    (∃ n, expand defaultTag e t = .ok n ∧ expand defaultTag e (Text.trim t) = .ok n)
      ∨ ∃ item block block', expand defaultTag e t = .error ⟨.attributeWithoutValue item, e, block⟩
        ∧ expand defaultTag e (Text.trim t) = .error ⟨.attributeWithoutValue item, e, block'⟩ := by
  have heq := expand_congr defaultTag e (alike_trim h)
  rcases (settles_expand defaultTag e t).ok_or_mem with ⟨n, hn, -⟩ | ⟨r, hr, hn⟩
  · rw [hn] at heq
    exact .inl ⟨n, hn, mapError_eq_ok_iff.1 heq.symm⟩
  obtain ⟨block, -, item, -, -, rfl⟩ := (mem_faults_iff e).1 hr
  rcases (settles_expand defaultTag e (Text.trim t)).ok_or_mem with ⟨m, hm, -⟩ | ⟨q, hq, hm⟩
  · rw [hn, hm] at heq
    cases heq
  · obtain ⟨block', -, item', -, -, rfl⟩ := (mem_faults_iff e).1 hq
    rw [hn, hm] at heq
    obtain rfl : item = item' :=
      Problem.attributeWithoutValue.inj (congrArg Rejection.problem (Except.error.inj heq))
    exact .inr ⟨item, some block, some block', hn, hm⟩

end

end Leaf

/-! ### Texts without operators -/

/-- Without operators and parentheses, an expression is its trimmed text as a leaf. -/
theorem expand_of_lacks {s : Settings} (h : ∀ p ∈ s.placeholderBase, isSafeBase p = true)
    {source : Text} (hblank : ∃ c ∈ Text.normalize source, Text.isBlank c = false)
    (hops : (Text.normalize source).Lacks ['+', '>', '(', ')']) (drawn : Nat) :
    let text := Text.normalize source
    expand s source drawn = (fun n => [n]) <$>
      (Leaf.expand s.defaultTag (some text) (Text.trim text)).mapError Failure.rejected := by
  intro text
  have hnone : ∀ c ∈ (['+', '>', '(', ')'] : Text), .char c ∉ leafMarks source := by
    intro c hc hm
    obtain ⟨d, hd, he⟩ := List.mem_map.1 hm
    exact hops c hc (Mark.char.inj he ▸ hd)
  have hplus := hnone (.char '+') (by simp)
  have hlevels := Mark.levels_eq_singleton (hnone (.char '>') (by simp))
  have hbal := balanced_leafMarks (hnone (.char '(') (by simp)) (hnone (.char ')') (by simp))
  have htrim : Mark.trim (leafMarks source) = (Text.trim text).map .char := Mark.trim_map_char text
  have hne : Mark.trim (leafMarks source) ≠ [] := by
    rw [htrim]
    obtain ⟨c, hc, hb⟩ := hblank
    exact fun hnil => Bool.false_ne_true
      (hb.symm.trans (Text.trim_eq_nil_iff.1 (List.map_eq_nil_iff.1 hnil) c hc))
  have hinside : Mark.inside? (Mark.trim (leafMarks source)) = none := by
    rw [htrim, Mark.inside?_map_char]
  have hfilled : ∀ p ∈ Mark.places (leafMarks source), p.Filled := by
    rw [Mark.filled_single_iff hplus, hlevels, List.forall_mem_singleton]
    refine ⟨hne, fun p hp => ?_⟩
    rw [Mark.levelPlaces, hinside] at hp
    rw [List.mem_singleton.1 hp]
    trivial
  have htree : Mark.tree (leafMarks source) = [⟨Text.trim text, [.leaf (Text.trim text)]⟩] := by
    rw [Mark.tree_eq, Mark.siblings_eq_singleton hplus, List.map_singleton, Mark.chainOf,
      Mark.levels_trim, hlevels, List.map_singleton, Mark.segment, hinside, htrim,
      Mark.sources_map_char]
  rw [expand_of_filled h hbal (Mark.sources_map_char _).symm hfilled, htree, chainNodes, Chain.node,
    levelNodes, nodes_leaf]
  rcases Leaf.expand s.defaultTag (some text) (Text.trim text) <;> rfl

/-- A text without operators and parentheses expands to the single node that the whole of it stands
for as a leaf, or both are rejected for the same attribute, if the text has no blank at its end or
is not in an open text block there. -/
theorem expand_of_lone_leaf {s : Settings} (h : ∀ p ∈ s.placeholderBase, isSafeBase p = true)
    {source : Text} (hblank : ∃ c ∈ Text.normalize source, Text.isBlank c = false)
    (hops : (Text.normalize source).Lacks ['+', '>', '(', ')'])
    (hend : (Text.normalize source).getLast? ≠ some (.char ' ')
      ∨ Leaf.TextClosed (Text.normalize source)) (drawn : Nat) :
    let text := Text.normalize source
    (∃ n, expandSingle s source = .ok n ∧ expand s source drawn = .ok [n])
      ∨ ∃ item block block',
        expandSingle s source = .error ⟨.attributeWithoutValue item, some text, block⟩
          ∧ expand s source drawn
            = .error (.rejected ⟨.attributeWithoutValue item, some text, block'⟩) := by
  intro text
  have hlast : (∀ c ∈ text.getLast?, Text.isBlank c = false) ∨ Leaf.TextClosed text := by
    refine hend.imp_left fun hne c hc => ?_
    by_contra hb
    have hspace := Text.isBlank_of_mem_collapse (List.mem_of_mem_getLast? hc) (by simpa using hb)
    exact hne (hspace ▸ hc)
  rw [expand_of_lacks h hblank hops]
  rcases Leaf.expand_trim s.defaultTag (some text) hlast with
    ⟨n, hn, htrim⟩ | ⟨item, block, block', hn, htrim⟩
  · rw [htrim]
    exact .inl ⟨n, hn, rfl⟩
  · rw [htrim]
    exact .inr ⟨item, block, block', hn, rfl⟩

theorem expand_of_lone_leaf_of_lookalike :
    let s : Settings := { placeholderBase := some "p" }
    let source : Text := " p0_#i.x. [y=\"1\" z=2 \x7ba\x7d\t "
    (∀ p ∈ s.placeholderBase, isSafeBase p = true)
      ∧ (∃ c ∈ Text.normalize source, Text.isBlank c = false)
      ∧ (Text.normalize source).Lacks ['+', '>', '(', ')']
      ∧ Leaf.TextClosed (Text.normalize source)
      ∧ ∃ n, expandSingle s source = .ok n ∧ expand s source = .ok [n] := by
  intro s source
  have hbase : ∀ p ∈ s.placeholderBase, isSafeBase p = true := by decide +kernel
  have hblank : ∃ c ∈ Text.normalize source, Text.isBlank c = false := by decide +kernel
  have hops : (Text.normalize source).Lacks ['+', '>', '(', ')'] := by decide +kernel
  have hclosed : Leaf.TextClosed (Text.normalize source) :=
    .inr ⟨" p0_#i.x. [y=\"1\" z=2 ", "a\x7d ", by decide +kernel, by decide, by decide⟩
  refine ⟨hbase, hblank, hops, hclosed, ?_⟩
  obtain ⟨n, hn⟩ := isOk_iff.1 (show (expandSingle s source).isOk = true by decide +kernel)
  rcases expand_of_lone_leaf hbase hblank hops (.inr hclosed) 0 with
    hboth | ⟨item, block, block', herror, -⟩
  · exact hboth
  · rw [herror] at hn
    cases hn

/-- A space before the end is in the text of a block that is not closed, unless it is trimmed. -/
example : (expandSingle {} "p\x7ba ").toOption.bind Node.text = some (Text.ofString "a ")
    ∧ (expand {} "p\x7ba ").toOption.map (List.map Node.text)
      = some [some (Text.ofString "a")] := by
  decide +kernel

end Shorthand

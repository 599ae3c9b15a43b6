import Shorthand.Proofs.Strays
import Shorthand.Proofs.Tidy

/-!
# Expressions joined by a plus sign

If all parentheses of two texts have partners, the marks of the texts joined by a plus sign are the
marks of both with the sign in between, and its siblings are the siblings of both. The expression
that is being expanded matters to errors only (`chainNodes_about`), so every sibling comes to what
it comes to in the text that it is from, and forests are concatenated (`expand_append`).
-/

namespace Shorthand

/-! ### Normalizing -/

namespace Text

variable {c : CodePoint}

/-- A run of blanks ends before a character that is none. -/
theorem collapse_append_cons (hc : isBlank c = false) (t r : Text) :
    collapse (t ++ c :: r) = collapse t ++ c :: collapse r := by
  have hcons (r : Text) : collapse (c :: r) = c :: collapse r := by
    rcases r with _ | ⟨d, r⟩ <;> simp [collapse, hc]
  fun_induction collapse t with
  | case1 => exact hcons r
  | case2 d hd => simp [collapse, hd, hc, hcons]
  | case3 d hd => simp [collapse, hd, hcons]
  | case4 d e t hd he ih => simpa [collapse, hd, he] using ih
  | case5 d e t hd he ih => simpa [collapse, hd, he] using ih
  | case6 d e t hd ih => simpa [collapse, hd] using ih

theorem normalize_append_cons (hc : isBlank c = false) (t r : Text) :
    normalize (t ++ c :: r) = normalize t ++ c :: normalize r := by
  unfold normalize
  rw [List.filter_append, List.filter_cons, if_pos (keeps_of_not_blank hc),
    collapse_append_cons hc]

/-- Normalizing does nothing to characters that are not blank. -/
theorem filter_collapse (t : Text) :
    (collapse t).filter (fun c => !isBlank c) = t.filter (fun c => !isBlank c) := by
  fun_induction collapse t with
  | case1 => rfl
  | case2 c hc => simp [hc]
  | case3 c hc => rfl
  | case4 c d r hc _ ih => simpa [List.filter_cons, hc] using ih
  | case5 c d r hc _ ih => simpa [List.filter_cons, hc] using ih
  | case6 c d r hc ih => simpa [List.filter_cons, hc] using ih

theorem filter_normalize (t : Text) :
    (normalize t).filter (fun c => !isBlank c) = t.filter (fun c => !isBlank c) := by
  unfold normalize
  rw [filter_collapse, List.filter_filter]
  refine List.filter_congr fun c _ => ?_
  rcases hb : isBlank c with _ | _
  · rw [keeps_of_not_blank hb]
    rfl
  · rfl

theorem mem_normalize_iff (hc : isBlank c = false) {t : Text} : c ∈ normalize t ↔ c ∈ t := by
  have hmem {u : Text} : c ∈ u.filter (fun c => !isBlank c) ↔ c ∈ u := by simp [hc]
  rw [← hmem, filter_normalize, hmem]

/-- A character that is not blank comes from one in the source. -/
theorem exists_of_collapse_eq (hc : isBlank c = false) {t x y : Text}
    (h : collapse t = x ++ c :: y) :
    ∃ u v, t = u ++ c :: v ∧ collapse u = x ∧ collapse v = y := by
  have hspace : c ≠ ' ' := fun he => by simp [he] at hc
  fun_induction collapse t generalizing x with
  | case1 => simp at h
  | case2 d hd =>
    rcases x with _ | ⟨e, x⟩
    · exact absurd (List.cons.inj h).1.symm hspace
    · simp at h
  | case3 d hd =>
    rcases x with _ | ⟨e, x⟩
    · obtain ⟨rfl, rfl⟩ := List.cons.inj h
      exact ⟨[], [], rfl, rfl, rfl⟩
    · simp at h
  | case4 d e r hd he ih =>
    obtain ⟨u, v, ht, hu, hv⟩ := ih h
    rcases u with _ | ⟨e', u⟩
    · rw [(List.cons.inj ht).1, hc] at he
      cases he
    · obtain ⟨rfl, rfl⟩ := List.cons.inj ht
      exact ⟨d :: e :: u, v, rfl, by simpa [collapse, hd, he] using hu, hv⟩
  | case5 d e r hd he ih =>
    rcases x with _ | ⟨f, x⟩
    · exact absurd (List.cons.inj h).1.symm hspace
    · obtain ⟨rfl, hrest⟩ := List.cons.inj h
      obtain ⟨u, v, ht, rfl, hv⟩ := ih hrest
      rcases u with _ | ⟨e', u⟩
      · exact ⟨[d], v, by rw [ht]; rfl, by simp [collapse, hd], hv⟩
      · obtain ⟨rfl, rfl⟩ := List.cons.inj ht
        exact ⟨d :: e :: u, v, rfl, by simp [collapse, hd, he], hv⟩
  | case6 d e r hd ih =>
    rcases x with _ | ⟨f, x⟩
    · obtain ⟨rfl, rfl⟩ := List.cons.inj h
      exact ⟨[], e :: r, rfl, rfl, rfl⟩
    · obtain ⟨rfl, hrest⟩ := List.cons.inj h
      obtain ⟨u, v, ht, rfl, hv⟩ := ih hrest
      refine ⟨d :: u, v, by rw [ht]; rfl, ?_, hv⟩
      rcases u with _ | ⟨e', u⟩ <;> simp [collapse, hd]

theorem exists_of_normalize_eq (hc : isBlank c = false) {t x y : Text}
    (h : normalize t = x ++ c :: y) :
    ∃ u v, t = u ++ c :: v ∧ normalize u = x ∧ normalize v = y := by
  obtain ⟨u, v, ht, hu, hv⟩ := exists_of_collapse_eq hc h
  obtain ⟨u', r, rfl, rfl, hr⟩ := List.filter_eq_append_iff.1 ht
  obtain ⟨u'', v', rfl, hskip, -, rfl⟩ := List.filter_eq_cons_iff.1 hr
  refine ⟨u' ++ u'', v', by simp, ?_, hv⟩
  rwa [normalize, List.filter_append, List.filter_eq_nil_iff.2 hskip, List.append_nil]

end Text

/-! ### Balance -/

/-- The depth counter looks at parentheses alone. -/
theorem Lint.strays_filter {p : CodePoint → Bool} (ho : p '(' = true) (hc : p ')' = true) :
    ∀ (depth stray : Nat) (t : Text), strays depth stray (t.filter p) = strays depth stray t
  | _, _, [] => rfl
  | depth, stray, c :: r => by
    rw [List.filter_cons]
    by_cases hp : p c = true
    · rw [if_pos hp, strays, strays]
      simp only [strays_filter ho hc]
    · have h1 : c ≠ '(' := fun h => hp (h ▸ ho)
      have h2 : c ≠ ')' := fun h => hp (h ▸ hc)
      rw [if_neg hp, strays, if_neg h1, if_neg h2, strays_filter ho hc]

namespace Text

theorem matched_normalize {t : Text} : (normalize t).Matched ↔ t.Matched := by
  have hfilter (u : Text) : Lint.strays 0 0 (u.filter fun c => !isBlank c) = Lint.strays 0 0 u :=
    Lint.strays_filter (by decide) (by decide) 0 0 u
  rw [matched_iff_strays, matched_iff_strays, ← hfilter, filter_normalize, hfilter]

theorem Matched.balanced {t : Text} (h : t.Matched) : ∀ m ∈ Mark.read t, m.Balanced := by
  intro m hm
  rcases Extraction.whole_read t m hm with c | hi
  · have hc : (c == '(' || c == ')') = false := h _ hm
    rw [Bool.or_eq_false_iff] at hc
    exact .char (ne_of_beq_false hc.1) (ne_of_beq_false hc.2)
  · exact .pair hi

/-- A character that is no parenthesis stands between the marks of the texts around it. -/
theorem Matched.read_append_cons {t r : Text} (ht : t.Matched) (hr : r.Matched) {c : CodePoint}
    (ho : c ≠ '(') (hc : c ≠ ')') :
    Mark.read (t ++ c :: r) = Mark.read t ++ .char c :: Mark.read r := by
  have hb : ∀ m ∈ Mark.read t ++ .char c :: Mark.read r, m.Balanced :=
    List.forall_mem_append.2
      ⟨ht.balanced, List.forall_mem_cons.2 ⟨.char ho hc, hr.balanced⟩⟩
  have hread := Mark.read_sources_of_balanced hb
  rwa [Mark.sources_append, Mark.sources_cons, Mark.sources_read, Mark.sources_read] at hread

theorem Matched.append_cons {t r : Text} (ht : t.Matched) (hr : r.Matched) {c : CodePoint}
    (ho : c ≠ '(') (hc : c ≠ ')') : Matched (t ++ c :: r) := by
  have hchar : (Mark.char c).isStray = false := by simp [Mark.isStray, ho, hc]
  unfold Matched
  rw [ht.read_append_cons hr ho hc, List.forall_mem_append, List.forall_mem_cons]
  exact ⟨ht, hchar, hr⟩

end Text

/-! ### Evaluation and its expression -/

def Rejection.about (e : Option Text) (r : Rejection) : Rejection :=
  { r with expression := e }

def Failure.about (e : Option Text) : Failure → Failure
  | .rejected r => .rejected (r.about e)
  | .unsafeBase base => .unsafeBase base
  | .missingLevel => .missingLevel

section

variable (defaultTag : Text) (e : Option Text)

namespace Leaf

theorem pair_about (block item : Text) :
    pair e block item = (pair none block item).mapError (.about e) := by
  unfold pair
  rcases Text.cutFirst '=' item with _ | ⟨name, value⟩ <;> rfl

theorem attributes_about (block : Text) :
    attributes e block = (attributes none block).mapError (.about e) := by
  unfold attributes
  rw [mapError_mapM]
  simp only [← pair_about]

theorem expand_about (t : Text) :
    expand defaultTag e t = (expand defaultTag none t).mapError (.about e) := by
  unfold expand
  dsimp only
  rcases (split t).attributes with _ | _ | ⟨c, r⟩
  · rfl
  · rfl
  · show _ = (attributes none (c :: r) >>= _).mapError (Rejection.about e)
    rw [mapError_bind, ← attributes_about]
    rfl

end Leaf

theorem nest_about : ∀ (first : Node) (levels : List (List Node)),
    (nest first levels).mapError (.about e) = nest first levels
  | _, [] => rfl
  | _, [] :: _ => rfl
  | _, (n :: _) :: levels => by
    rw [nest, mapError_bind, nest_about n levels]
    rfl

theorem composeChain_about (source : Text) (levels : List (List Node)) :
    composeChain e source levels = (composeChain none source levels).mapError (.about e) := by
  rcases levels with _ | ⟨_ | ⟨root, _ | ⟨other, roots⟩⟩, levels⟩
  · rfl
  · rfl
  · exact (nest_about e root levels).symm
  · rfl

mutual

theorem Segment.nodes_about : ∀ s : Segment,
    s.nodes defaultTag e = (s.nodes defaultTag none).mapError (.about e)
  | .leaf source => by
    rw [nodes_leaf, nodes_leaf, Leaf.expand_about]
    rcases Leaf.expand defaultTag none source <;> rfl
  | .group _ body => by
    rw [Segment.nodes, Segment.nodes, chainNodes_about body]

theorem Chain.node_about : ∀ c : Chain,
    c.node defaultTag e = (c.node defaultTag none).mapError (.about e)
  | ⟨source, levels⟩ => by
    rw [Chain.node, Chain.node, mapError_bind, levelNodes_about levels]
    simp only [← composeChain_about]

/-- The expression that is being expanded is of no matter but to errors. -/
theorem chainNodes_about : ∀ cs : List Chain,
    chainNodes defaultTag e cs = (chainNodes defaultTag none cs).mapError (.about e)
  | [] => rfl
  | c :: cs => by
    rw [chainNodes, chainNodes, mapError_bind, Chain.node_about c, chainNodes_about cs]
    simp only [mapError_bind]
    rfl

theorem levelNodes_about : ∀ ss : List Segment,
    levelNodes defaultTag e ss = (levelNodes defaultTag none ss).mapError (.about e)
  | [] => rfl
  | s :: ss => by
    rw [levelNodes, levelNodes, mapError_bind, Segment.nodes_about s, levelNodes_about ss]
    simp only [mapError_bind]
    rfl

end

end

/-! ### Forests -/

namespace Mark

theorem siblings_append_plus (ms ns : List Mark) :
    siblings (ms ++ .char '+' :: ns) = siblings ms ++ siblings ns := by
  have hplus : isChar '+' (.char '+') = true := by decide
  rw [siblings, List.splitOnP_append_cons _ _ hplus, List.map_append]
  rfl

end Mark

/-- A sibling comes to the same in any text in which no parenthesis is left over. -/
theorem expandMarks_eq_ok_iff {s : Settings} {t : Text} (h : t.Matched) {ns : List Node} :
    (expandMarks s t).2 = .ok ns ↔ (∀ p ∈ Mark.places (Mark.read t), p.Filled)
      ∧ (Mark.siblings (Mark.read t)).mapM
          (fun sibling => (Mark.chainOf sibling).node s.defaultTag none) = .ok ns := by
  rw [expandMarks_of_check (check_of_matched h _), bind_eq_ok_iff]
  simp only [mapError_eq_ok_iff, Mark.parse_eq_ok_iff, and_assoc, exists_and_left, exists_eq_left]
  rw [chainNodes_about, mapError_eq_ok_iff, Mark.tree_eq, chainNodes_eq_mapM, List.mapM_map]
  rfl

/-- A plus sign between two expressions concatenates what they expand to, and it is an expansion
only if both are. -/
theorem expand_append {s : Settings} (h : ∀ p ∈ s.placeholderBase, isSafeBase p = true)
    {a b : Text} (ha : a.Matched) (hb : b.Matched) (k m n : Nat) (ns : List Node) :
    expand s (a ++ "+" ++ b) k = .ok ns ↔
      ∃ xs ys, expand s a m = .ok xs ∧ expand s b n = .ok ys ∧ ns = xs ++ ys := by
  have hplus : Text.normalize (a ++ "+" ++ b) =
      Text.normalize a ++ .char '+' :: Text.normalize b := by
    rw [List.append_assoc]
    exact Text.normalize_append_cons (by decide) a b
  -- From here on the texts are the normalized ones, which are as balanced as their sources.
  have ha := Text.matched_normalize.2 ha
  have hb := Text.matched_normalize.2 hb
  have ho : (.char '+' : CodePoint) ≠ '(' := by decide
  have hc : (.char '+' : CodePoint) ≠ ')' := by decide
  rw [expand_eq h, expand_eq h, expand_eq h, hplus, expandMarks_eq_ok_iff (ha.append_cons hb ho hc),
    ha.read_append_cons hb ho hc, Mark.filled_places_iff, Mark.siblings_append_plus,
    List.forall_mem_append, mapM_append_eq_ok_iff]
  simp only [expandMarks_eq_ok_iff ha, expandMarks_eq_ok_iff hb, Mark.filled_places_iff]
  constructor
  · rintro ⟨⟨hfa, hfb⟩, xs, ys, hxs, hys, rfl⟩
    exact ⟨xs, ys, ⟨hfa, hxs⟩, ⟨hfb, hys⟩, rfl⟩
  · rintro ⟨xs, ys, ⟨hfa, hxs⟩, ⟨hfb, hys⟩, rfl⟩
    exact ⟨⟨hfa, hfb⟩, xs, ys, hxs, hys, rfl⟩

theorem expand_append_of_groups : (∀ p ∈ some (Text.ofString "p"), isSafeBase p = true)
    ∧ Text.Matched "a > (b[x=y] + c)" ∧ Text.Matched "(d+\te)(p0_) + f"
    ∧ ∃ xs ys, expand { placeholderBase := some "p" } "a > (b[x=y] + c)" 1 = .ok xs
      ∧ expand { placeholderBase := some "p" } "(d+\te)(p0_) + f" 2 = .ok ys
      ∧ expand { placeholderBase := some "p" }
          (Text.ofString "a > (b[x=y] + c)" ++ "+" ++ "(d+\te)(p0_) + f") = .ok (xs ++ ys) := by
  have hp : ∀ p ∈ some (Text.ofString "p"), isSafeBase p = true := by decide +kernel
  have ha : Text.Matched "a > (b[x=y] + c)" := by decide +kernel
  have hb : Text.Matched "(d+\te)(p0_) + f" := by decide +kernel
  have hok {x : Except Failure (List Node)} (h : x.isOk = true) : ∃ ns, x = .ok ns := by
    rcases x with failure | ns
    · cases h
    · exact ⟨ns, rfl⟩
  obtain ⟨xs, hxs⟩ : ∃ xs, expand { placeholderBase := some "p" } "a > (b[x=y] + c)" 1 = .ok xs :=
    hok (by decide +kernel)
  obtain ⟨ys, hys⟩ : ∃ ys, expand { placeholderBase := some "p" } "(d+\te)(p0_) + f" 2 = .ok ys :=
    hok (by decide +kernel)
  have happend := expand_append (s := { placeholderBase := some "p" }) hp ha hb 0 1 2 (xs ++ ys)
  exact ⟨hp, ha, hb, xs, ys, hxs, hys, happend.2 ⟨xs, ys, hxs, hys, rfl⟩⟩

end Shorthand

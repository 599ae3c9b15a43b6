import Mathlib.Data.List.Forall2
import Shorthand.Proofs.DirectParse
import Shorthand.Proofs.Restoration

/-!
# Parsing flat text is parsing directly

Cutting a text at an operator and trimming it does to the marks what it does to the text, because
an operator is in no token and a token starts with a letter and ends in an underscore. A text that
is the token of a group stands for one pair. So the tree of an extraction is the direct parse of the
source, keys aside (`Reads.tree`), and the fuel of the parser is enough.
-/

namespace Shorthand

open TokenSource

/-! ### Keys -/

mutual

/-- A segment without the keys of its groups. -/
def Segment.unkeyed : Segment → Segment
  | .leaf source => .leaf source
  | .group _ body => .group [] (chainsUnkeyed body)

def Chain.unkeyed : Chain → Chain
  | ⟨source, levels⟩ => ⟨source, levelsUnkeyed levels⟩

def chainsUnkeyed : List Chain → List Chain
  | [] => []
  | c :: cs => c.unkeyed :: chainsUnkeyed cs

def levelsUnkeyed : List Segment → List Segment
  | [] => []
  | s :: ss => s.unkeyed :: levelsUnkeyed ss

end

theorem chainsUnkeyed_eq_map (cs : List Chain) : chainsUnkeyed cs = cs.map Chain.unkeyed := by
  induction cs with
  | nil => rfl
  | cons c cs ih => rw [chainsUnkeyed, ih, List.map_cons]

theorem levelsUnkeyed_eq_map (ss : List Segment) : levelsUnkeyed ss = ss.map Segment.unkeyed := by
  induction ss with
  | nil => rfl
  | cons s ss ih => rw [levelsUnkeyed, ih, List.map_cons]

/-! ### Computations with fuel -/

section Yields

variable {α β γ δ : Type} {φ : α → β} {ψ : γ → δ}

/-- With its fuel a computation comes to an end, and its result, seen through `φ`, is that of one
without fuel. -/
def Yields (φ : α → β) (a : ExceptT Rejection Option α) (b : Except Rejection β) : Prop :=
  a.run.map (Except.map φ) = some b

theorem Yields.pure (φ : α → β) (x : α) : Yields φ (pure x) (.ok (φ x)) := rfl

/-- Fuel that is enough for both parts is enough for the whole. -/
theorem Yields.bind {a : ExceptT Rejection Option α} {b : Except Rejection β}
    {k : α → ExceptT Rejection Option γ} {l : β → Except Rejection δ} (h : Yields φ a b)
    (hk : ∀ x, Yields ψ (k x) (l (φ x))) : Yields ψ (a >>= k) (b >>= l) := by
  unfold Yields at h
  rcases ha : a.run with _ | e | x <;> rw [ha] at h
  · cases h
  · obtain rfl := Option.some.inj h
    show (ExceptT.bind a k).run.map _ = _
    unfold ExceptT.bind ExceptT.run ExceptT.mk
    show Option.map _ (Option.bind a.run _) = _
    rw [ha]
    rfl
  · obtain rfl := Option.some.inj h
    show (ExceptT.bind a k).run.map _ = _
    unfold ExceptT.bind ExceptT.run ExceptT.mk
    show Option.map _ (Option.bind a.run _) = _
    rw [ha]
    exact hk x

theorem Yields.map {a : ExceptT Rejection Option α} {b : Except Rejection β} {f : α → γ}
    {f' : β → δ} (h : Yields φ a b) (hf : ∀ x, ψ (f x) = f' (φ x)) :
    Yields ψ (f <$> a) (f' <$> b) := by
  rw [← bind_pure_comp, ← bind_pure_comp]
  refine h.bind fun x => ?_
  rw [← hf]
  exact Yields.pure ψ (f x)

theorem Yields.mapM {ι κ : Type} {R : ι → κ → Prop} {f : ι → ExceptT Rejection Option α}
    {f' : κ → Except Rejection β} {xs : List ι} {ys : List κ} (h : List.Forall₂ R xs ys)
    (hf : ∀ x y, y ∈ ys → R x y → Yields φ (f x) (f' y)) :
    Yields (List.map φ) (xs.mapM f) (ys.mapM f') := by
  induction h with
  | nil => exact Yields.pure (List.map φ) []
  | @cons x y xs ys hxy _ ih =>
    rw [List.mapM_cons, List.mapM_cons]
    refine (hf x y List.mem_cons_self hxy).bind fun a => ?_
    refine (ih fun x y hy => hf x y (List.mem_cons_of_mem _ hy)).bind fun as => ?_
    exact Yields.pure (List.map φ) (a :: as)

end Yields

namespace Extraction

variable {g : Extraction} {x : Text} {ms : List Mark}

/-! ### Pieces and ends -/

theorem Stands.eq_nil_iff (h : g.Stands x ms) : x = [] ↔ ms = [] := by
  cases h with
  | nil => simp
  | char => simp
  | pair => simp [tokenOf_ne_nil]

theorem Stands.isEmpty_eq (h : g.Stands x ms) : x.isEmpty = ms.isEmpty := by
  rw [Bool.eq_iff_iff, List.isEmpty_iff, List.isEmpty_iff]
  exact h.eq_nil_iff

theorem Stands.of_append : ∀ {ms ns : List Mark} {x : Text}, g.Stands x (ms ++ ns) →
    ∃ y z, x = y ++ z ∧ g.Stands y ms ∧ g.Stands z ns
  | [], _, x, h => ⟨[], x, rfl, .nil, h⟩
  | _ :: ms, ns, _, h => by
    cases h with
    | char c h =>
      obtain ⟨y, z, rfl, hy, hz⟩ := of_append h
      exact ⟨c :: y, z, rfl, .char c hy, hz⟩
    | pair hk hi h =>
      obtain ⟨y, z, rfl, hy, hz⟩ := of_append h
      exact ⟨_, z, (List.append_assoc ..).symm, .pair hk hi hy, hz⟩

theorem forall₂_modifyHead {α β : Type} {R : α → β → Prop} {f : α → α} {f' : β → β} {xs : List α}
    {ys : List β} (h : List.Forall₂ R xs ys) (hf : ∀ x y, R x y → R (f x) (f' y)) :
    List.Forall₂ R (xs.modifyHead f) (ys.modifyHead f') := by
  cases h with
  | nil => exact .nil
  | cons hx hxs => exact .cons (hf _ _ hx) hxs

theorem Stands.splitOn (hs : SafeBase g.source.base) {c : CodePoint} (hc : isBaseChar c = false)
    (h : g.Stands x ms) :
    List.Forall₂ g.Stands (x.splitOn c) (ms.splitOnP (Mark.isChar c)) := by
  rw [List.splitOn_eq_splitOnP]
  induction h with
  | nil => exact .cons .nil .nil
  | @char d x ms _ ih =>
    rw [List.splitOnP_cons_eq_if_modifyHead, List.splitOnP_cons_eq_if_modifyHead]
    show List.Forall₂ _ (if (d == c) = true then _ else _) (if (d == c) = true then _ else _)
    split_ifs
    · exact .cons .nil ih
    · exact forall₂_modifyHead ih fun _ _ h => .char d h
  | @pair n body x inner ms hk hi _ _ ih =>
    have hn : ∀ d ∈ tokenOf g.source.base n, (d == c) = false := fun d hd =>
      beq_eq_false_iff_ne.2 fun he => notMem_tokenOf hs hc n (he ▸ hd)
    rw [Text.splitOnP_append hn, List.splitOnP_cons_eq_if_modifyHead,
      if_neg (by simp [Mark.isChar])]
    exact forall₂_modifyHead ih fun _ _ h => .pair hk hi h

theorem Stands.trimStart (hs : SafeBase g.source.base) (h : g.Stands x ms) :
    g.Stands (x.dropWhile Text.isBlank) (ms.dropWhile Mark.isBlank) := by
  induction h with
  | nil => exact .nil
  | @char c x ms h ih =>
    rw [List.dropWhile_cons, List.dropWhile_cons]
    show g.Stands (if Text.isBlank c then _ else _) (if Text.isBlank c then _ else _)
    split_ifs
    · exact ih
    · exact .char c h
  | @pair n body x inner ms hk hi h =>
    obtain ⟨c, r, he, hc⟩ := hs.starts
    have htok : (tokenOf g.source.base n ++ x).dropWhile Text.isBlank
        = tokenOf g.source.base n ++ x := by
      unfold tokenOf
      rw [he]
      exact List.dropWhile_cons_of_neg (by simp [Text.isBlank_of_isLetter hc])
    rw [htok, List.dropWhile_cons_of_neg (by simp [Mark.isBlank])]
    exact .pair hk hi h

theorem Stands.trimEnd (h : g.Stands x ms) :
    g.Stands (x.rdropWhile Text.isBlank) (ms.rdropWhile Mark.isBlank) := by
  induction ms using List.reverseRecOn generalizing x with
  | nil =>
    cases h
    exact .nil
  | append_singleton ms m ih =>
    obtain ⟨y, z, rfl, hy, hz⟩ := h.of_append
    rcases hz with _ | ⟨c, hz⟩ | @⟨n, body, z, inner, _, hk, hi, hz⟩
    · cases hz
      rw [List.rdropWhile_concat, List.rdropWhile_concat]
      show g.Stands (if Text.isBlank c then _ else _) (if Text.isBlank c then _ else _)
      split_ifs
      · exact ih hy
      · exact hy.append (.char c .nil)
    · cases hz
      have htok : y ++ (tokenOf g.source.base n ++ [])
          = (y ++ g.source.base ++ Text.decimal n) ++ [.char '_'] := by
        simp [tokenOf, Text.ofString]
      rw [List.rdropWhile_concat_neg (p := Mark.isBlank) _ _ (by simp [Mark.isBlank]), htok,
        List.rdropWhile_concat_neg (p := Text.isBlank) _ _ (by decide), ← htok]
      exact hy.append (.pair hk hi .nil)

theorem Stands.trim (hs : SafeBase g.source.base) (h : g.Stands x ms) :
    g.Stands (Text.trim x) (Mark.trim ms) :=
  (h.trimStart hs).trimEnd

theorem Stands.split_trim (hs : SafeBase g.source.base) {c : CodePoint}
    (hc : isBaseChar c = false) (h : g.Stands x ms) :
    List.Forall₂ g.Stands ((x.splitOn c).map Text.trim)
      ((ms.splitOnP (Mark.isChar c)).map Mark.trim) := by
  rw [List.forall₂_map_left_iff, List.forall₂_map_right_iff]
  exact (h.splitOn hs hc).imp fun _ _ hw => hw.trim hs

theorem Stands.siblings (hs : SafeBase g.source.base) (h : g.Stands x ms) :
    List.Forall₂ g.Stands ((x.splitOn (.char '+')).map Text.trim) (Mark.siblings ms) :=
  h.split_trim hs (isBaseChar_structure _ (by simp))

theorem Stands.levels (hs : SafeBase g.source.base) (h : g.Stands x ms) :
    List.Forall₂ g.Stands ((x.splitOn (.char '>')).map Text.trim) (Mark.levels ms) :=
  h.split_trim hs (isBaseChar_structure _ (by simp))

theorem any_isEmpty_eq {xs : List Text} {ls : List (List Mark)} (h : List.Forall₂ g.Stands xs ls) :
    xs.any (·.isEmpty) = ls.any (·.isEmpty) := by
  induction h with
  | nil => rfl
  | cons hx _ ih => rw [List.any_cons, List.any_cons, ih, hx.isEmpty_eq]

theorem headD_isEmpty_eq {xs : List Text} {ls : List (List Mark)}
    (h : List.Forall₂ g.Stands xs ls) : (xs.headD []).isEmpty = (ls.headD []).isEmpty := by
  cases h with
  | nil => rfl
  | cons hx _ => exact hx.isEmpty_eq

/-! ### Groups -/

/-- The token of a pair leads to what is between its parentheses. -/
theorem Stands.body_of_pair {inner : List Mark} (h : g.Stands x [.pair inner]) :
    ∃ body, g.body? x = some body ∧ g.Stands body inner := by
  cases h with
  | pair hk hi h =>
    cases h
    rw [List.append_nil]
    exact ⟨_, hk, hi⟩

/-- Text that looks like a token is not one: it would begin with the base. -/
theorem Reads.pair_of_body {t body : Text} (h : g.Reads t) (hx : g.Stands x ms)
    (hp : Mark.PartOf t ms) (hb : g.body? x = some body) : ∃ inner, ms = [.pair inner] := by
  obtain ⟨n, he⟩ := h.keys hb
  cases hx with
  | nil => exact absurd he.symm (tokenOf_ne_nil n)
  | char c hx =>
    refine absurd ?_ (hx.not_starts h.safe fun hi => h.fresh (hi.trans hp.source))
    rw [he, tokenOf, List.append_assoc]
    exact List.prefix_append _ _
  | pair _ _ hx =>
    rw [← List.append_nil (tokenOf g.source.base n)] at he
    obtain rfl := hx.eq_nil_iff.1 (tokenOf_append_inj he).2
    exact ⟨_, rfl⟩

/-! ### The parse -/

section

variable {t : Text} (h : g.Reads t) (e : Option Text)

include h

/-- The segment of a rejection has its parentheses back. -/
theorem Reads.splitSiblings (hx : g.Stands x ms) (hp : Mark.PartOf t ms) :
    (splitSiblings e x).mapError g.restoreSegment =
      if (Mark.siblings ms).any (·.isEmpty) then
        .error ⟨.emptySibling, e, some (Mark.sources ms)⟩
      else .ok ((x.splitOn (.char '+')).map Text.trim) := by
  unfold Shorthand.splitSiblings
  dsimp only
  rw [any_isEmpty_eq (hx.siblings h.safe)]
  split_ifs
  · simp [Except.mapError, restoreSegment, h.restore hx hp]
  · rfl

theorem Reads.splitLevels (hx : g.Stands x ms) (hp : Mark.PartOf t ms) :
    (splitLevels e x).mapError g.restoreSegment =
      if ((Mark.levels ms).headD []).isEmpty then
        .error ⟨.emptyRoot, e, some (Mark.sources ms)⟩
      else if (Mark.levels ms).any (·.isEmpty) then
        .error ⟨.emptyLevel, e, some (Mark.sources ms)⟩
      else .ok ((x.splitOn (.char '>')).map Text.trim) := by
  unfold Shorthand.splitLevels
  dsimp only
  rw [any_isEmpty_eq (hx.levels h.safe), headD_isEmpty_eq (hx.levels h.safe)]
  split_ifs
  · simp [Except.mapError, restoreSegment, h.restore hx hp]
  · simp [Except.mapError, restoreSegment, h.restore hx hp]
  · rfl

/-- A level is a group if it is just one pair. What is inside is nested less deeply, so that the
fuel which is left is enough for it. -/
theorem Reads.level_yields {n : Nat}
    (ih : ∀ {y : Text} {inner : List Mark}, g.Stands y inner → Mark.PartOf t inner →
      Mark.depths inner < n →
        Yields (List.map Chain.unkeyed) (g.parseWithin e n y) (Mark.parse e inner))
    (hx : g.Stands x ms) (hp : Mark.PartOf t ms) (hn : Mark.depths ms ≤ n) :
    Yields Segment.unkeyed
      (match g.body? x with
        | some body => Segment.group x <$> g.parseWithin e n body
        | none => pure (.leaf (g.restore x)))
      (Mark.parseLevel e ms) := by
  unfold Mark.parseLevel
  rcases hi : Mark.inside? ms with _ | inner
  · rcases hb : g.body? x with _ | body
    · rw [h.restore hx hp]
      exact Yields.pure Segment.unkeyed (.leaf (Mark.sources ms))
    · obtain ⟨inner, rfl⟩ := h.pair_of_body hx hp hb
      cases hi
  · obtain rfl := Mark.inside?_eq_some.1 hi
    obtain ⟨body, hb, hbody⟩ := hx.body_of_pair
    rw [hb]
    refine (ih hbody hp.inside ?_).map fun cs => ?_
    · exact (Mark.depths_lt_of_mem List.mem_cons_self).trans_le hn
    · rw [Segment.unkeyed, chainsUnkeyed_eq_map]

/-- By induction on the fuel, which goes down when a group is entered. -/
theorem Reads.parseWithin_yields : ∀ (n : Nat) {x : Text} {ms : List Mark}, g.Stands x ms →
    Mark.PartOf t ms → Mark.depths ms < n →
      Yields (List.map Chain.unkeyed) (g.parseWithin e n x) (Mark.parse e ms)
  | 0, _, _, _, _, hn => absurd hn (Nat.not_lt_zero _)
  | n + 1, x, ms, hx, hp, hn => by
    rw [parseWithin, Mark.parse_eq, h.splitSiblings e hx hp]
    split_ifs
    · rfl
    refine Yields.mapM (R := g.Stands) (hx.siblings h.safe) fun y sibling hmem hy => ?_
    have hsub := Mark.infix_of_mem_siblings hmem
    rw [h.splitLevels e hy (hp.sub hsub)]
    unfold Mark.parseSibling
    split_ifs
    · rfl
    · rfl
    refine Yields.bind (φ := List.map Segment.unkeyed) ?_ fun segments => ?_
    · refine Yields.mapM (R := g.Stands) (hy.levels h.safe) fun z level hmem hz => ?_
      have hsub := (Mark.infix_of_mem_levels hmem).trans hsub
      refine h.level_yields e (fun hy hp hd => parseWithin_yields n hy hp hd) hz (hp.sub hsub) ?_
      exact (Mark.depths_mono hsub.subset).trans (Nat.le_of_lt_succ hn)
    · rw [h.restore hy (hp.sub hsub), ← levelsUnkeyed_eq_map]
      exact Yields.pure Chain.unkeyed ⟨Mark.sources sibling, segments⟩

/-- The fuel is enough: the number of groups bounds how deep they are nested. -/
theorem Reads.tree : (g.tree e).map (List.map Chain.unkeyed) = Mark.parse e (Mark.read t) := by
  have hy := h.parseWithin_yields e (g.groups.length + 1) h.flat (Mark.partOf_read t)
    (Nat.lt_succ_of_le h.depth_le)
  unfold Yields at hy
  unfold Extraction.tree Extraction.parse
  rcases hr : (g.parseWithin e (g.groups.length + 1) g.flat).run with _ | r
  · rw [hr] at hy
    cases hy
  · rw [hr] at hy
    exact Option.some.inj hy

end

/-- The tree of an extraction is the direct parse of the text, keys aside: the same chains, or the
same rejection. The tokens play no part in it. -/
theorem tree_extract {t base : Text} (h : isSafeBase base = true) (e : Option Text) :
    ∃ source, forText t (some base) = .ok source
      ∧ ((extract source t).tree e).map (List.map Chain.unkeyed) = Mark.parse e (Mark.read t)
      ∧ ∀ r, (extract source t).tree e = .error r →
          r.problem.code = "E_INVALID_EXPRESSION" := by
  obtain ⟨source, hok, hfit⟩ := forText_some (t := t) h
  have htree := (reads_extract hfit).tree e
  refine ⟨source, hok, htree, fun r hr => ?_⟩
  have hparse : Mark.parse e (Mark.read t) = .error r := by
    rw [← htree, hr]
    rfl
  exact Mark.code_of_parse hparse

theorem tree_extract_of_lookalike : isSafeBase "a1_b" = true ∧
    ∃ source, forText "p{(a1_}+(a1_b0_>(x)+y)>z" (some "a1_b") = .ok source
      ∧ ((extract source "p{(a1_}+(a1_b0_>(x)+y)>z").tree none).map (List.map Chain.unkeyed)
        = Mark.parse none (Mark.read "p{(a1_}+(a1_b0_>(x)+y)>z")
      ∧ ∀ r, (extract source "p{(a1_}+(a1_b0_>(x)+y)>z").tree none = .error r →
          r.problem.code = "E_INVALID_EXPRESSION" :=
  ⟨by decide +kernel, tree_extract (by decide +kernel) none⟩

end Extraction

end Shorthand

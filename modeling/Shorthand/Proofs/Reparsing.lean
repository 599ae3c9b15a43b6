import Shorthand.Proofs.Tight
import Shorthand.Proofs.Writing

/-!
# Trees read back from their code

The code of the tree of marks is what the tight marks spell (`sources_tight`), and the marks are
read from a text that the tree can be written as (`tree_writtenAs`). So the tree of a text is read
from its code as well, but for the keys of groups and the spaces in the sources of chains
(`reparse_treeCode`).
-/

namespace Shorthand

open TokenSource

theorem Text.Tidy.sub {t u : Text} (h : t.Tidy) (hu : u <:+: t) : u.Tidy :=
  ⟨fun c hc => h.space c (hu.subset hc), List.IsChain.infix h.apart hu⟩

namespace Mark

/-! ### The source of tight marks -/

theorem sources_intercalate (c : CodePoint) : ∀ ls : List (List Mark),
    sources ([char c].intercalate ls) = [c].intercalate (ls.map sources)
  | [] => rfl
  | [l] => by simp
  | l :: k :: ls => by
    simp only [List.map_cons, List.intercalate_cons_cons, sources_append]
    rw [sources_intercalate c (k :: ls), List.map_cons]
    rfl

theorem sources_tightLevel {l : List Mark}
    (ih : ∀ inner, inside? l = some inner → sources (tight inner) = treeCode (tree inner)) :
    sources (tightLevel l) = (segment l).code := by
  rcases level_cases l with ⟨inner, rfl⟩ | hl
  · show sources [.pair (tight inner)] = "(" ++ treeCode (tree inner) ++ ")"
    rw [← ih inner rfl]
    simp [Text.ofString]
  · rw [tightLevel_of_leaf hl, segment, hl]
    rfl

theorem sources_tightSibling {s : List Mark} (ih : ∀ l ∈ levels s, ∀ inner,
    inside? l = some inner → sources (tight inner) = treeCode (tree inner)) :
    sources (tightSibling s) = (chainOf s).code := by
  rw [tightSibling, sources_intercalate, chainOf, Chain.code, levelCodes_eq_map, List.map_map,
    List.map_map]
  exact congrArg _ (List.map_congr_left fun l hl => sources_tightLevel (ih l hl))

/-- The tight marks are those of the code of the tree. -/
theorem sources_tight (ms : List Mark) : sources (tight ms) = treeCode (tree ms) := by
  induction ms using inside_induction with
  | step ms ih =>
    rw [tight_eq, sources_intercalate, tree_eq, treeCode, chainCodes_eq_map, List.map_map,
      List.map_map]
    exact congrArg _ (List.map_congr_left fun s hs => sources_tightSibling (ih s hs))

theorem code_chainOf (s : List Mark) : (chainOf s).code = sources (tightSibling s) :=
  (sources_tightSibling fun _ _ inner _ => sources_tight inner).symm

/-! ### What a tree was read from -/

/-- The only blanks of a normalized text are spaces. -/
theorem padded_trim {ms : List Mark} (h : (sources ms).Tidy) :
    Text.Padded (sources (trim ms)) (sources ms) := by
  obtain ⟨a, b, hms, ha, hb⟩ := exists_trimBy isBlank ms
  have hspace {ns : List Mark} (hsub : ns <:+: ms) (hn : ∀ m ∈ ns, m.isBlank = true) :
      ∀ c ∈ sources ns, c = ' ' := fun c hc =>
    h.space c ((infix_sources hsub).subset hc) (isBlank_of_mem_sources hn c hc)
  have hpre : a <:+: ms := ⟨[], trim ms ++ b, by
    rw [List.nil_append, ← List.append_assoc]
    exact hms.symm⟩
  have hsuf : b <:+: ms := ⟨a ++ trim ms, [], by
    rw [List.append_nil]
    exact hms.symm⟩
  refine ⟨sources a, sources b, ?_, hspace hpre ha, hspace hsuf hb⟩
  rw [← sources_append, ← sources_append]
  exact congrArg sources hms

theorem infix_of_inside {s l inner : List Mark} (hl : l ∈ levels s) (h : inside? l = some inner) :
    sources inner <:+: sources s := by
  refine List.IsInfix.trans ?_ (infix_sources (infix_of_mem_levels hl))
  rw [inside?_eq_some.1 h]
  exact infix_sources_pair inner

theorem intercalate_sources (c : CodePoint) (ms : List Mark) :
    [c].intercalate ((ms.splitOnP (isChar c)).map sources) = sources ms := by
  rw [← sources_intercalate, intercalate_splitOnP]

theorem segment_writtenAs {l : List Mark}
    (ih : ∀ inner, inside? l = some inner → treeWrittenAs (tree inner) (sources inner)) :
    (segment l).WrittenAs (sources l) := by
  rcases level_cases l with ⟨inner, rfl⟩ | hl
  · obtain ⟨ts, hts, hinner⟩ := ih inner rfl
    refine ⟨ts, hts, ?_⟩
    rw [← hinner]
    simp [Text.ofString]
  · rw [segment, hl]
    rfl

/-- What is trimmed off a sibling is trimmed off its first and its last level. -/
theorem chainOf_writtenAs {w : List Mark} (h : (sources w).Tidy) (ih : ∀ l ∈ levels w, ∀ inner,
    inside? l = some inner → treeWrittenAs (tree inner) (sources inner)) :
    (chainOf (trim w)).WrittenAs (sources w) := by
  refine ⟨padded_trim h, (w.splitOnP (isChar '>')).map sources, ?_,
    (intercalate_sources '>' w).symm⟩
  rw [levelsWrittenAs_iff, levels_trim, levels, List.map_map, List.forall₂_map_left_iff,
    List.forall₂_map_right_iff, List.forall₂_same]
  intro v hv
  have hpad := padded_trim (h.sub (infix_sources (Text.infix_of_mem_splitOnP hv)))
  exact ⟨_, segment_writtenAs (ih _ (List.mem_map_of_mem hv)), hpad⟩

theorem tree_writtenAs {ms : List Mark} (h : (sources ms).Tidy) :
    treeWrittenAs (tree ms) (sources ms) := by
  induction ms using inside_induction with
  | step ms ih =>
    refine ⟨(ms.splitOnP (isChar '+')).map sources, ?_, (intercalate_sources '+' ms).symm⟩
    rw [chainsWrittenAs_iff, tree_eq, siblings, List.map_map, List.forall₂_map_left_iff,
      List.forall₂_map_right_iff, List.forall₂_same]
    intro w hw
    have htidy := h.sub (infix_sources (Text.infix_of_mem_splitOnP hw))
    refine chainOf_writtenAs htidy fun l hl inner hi => ?_
    have hinner := htidy.sub (infix_of_inside hl hi)
    rw [← levels_trim] at hl
    exact ih _ (List.mem_map_of_mem hw) l hl inner hi hinner

/-! ### The tree of tight marks -/

theorem unspaced_tightSibling {s : List Mark} (hs : trim s = s) (h : (sources s).Tidy) :
    (sources (tightSibling s)).unspaced = (sources s).unspaced := by
  have hwritten : (chainOf (trim s)).WrittenAs (sources s) :=
    chainOf_writtenAs h fun l hl inner hi => tree_writtenAs (h.sub (infix_of_inside hl hi))
  rw [hs] at hwritten
  rw [← code_chainOf]
  exact hwritten.unspaced_source.symm

theorem unspaced_segment_tight {l : List Mark} (ih : ∀ inner, inside? l = some inner →
    chainsUnspaced (tree (tight inner)) = chainsUnspaced (tree inner)) :
    (segment (tightLevel l)).unspaced = (segment l).unspaced := by
  rcases level_cases l with ⟨inner, rfl⟩ | hl
  · exact congrArg (Segment.group []) (ih inner rfl)
  · rw [tightLevel_of_leaf hl]

theorem unspaced_chainOf_tight {s : List Mark} (hs : trim s = s) (h : (sources s).Tidy)
    (ih : ∀ l ∈ levels s, ∀ inner, inside? l = some inner →
      chainsUnspaced (tree (tight inner)) = chainsUnspaced (tree inner)) :
    (chainOf (tightSibling s)).unspaced = (chainOf s).unspaced := by
  simp only [chainOf, Chain.unspaced, levelsUnspaced_eq_map, levels_tightSibling, List.map_map,
    unspaced_tightSibling hs h, Chain.mk.injEq, true_and]
  exact List.map_congr_left fun l hl => unspaced_segment_tight (ih l hl)

/-- Without the blanks around levels the tree is the same, but for the spaces in the sources of its
chains. -/
theorem unspaced_tree_tight {ms : List Mark} (h : (sources ms).Tidy) :
    chainsUnspaced (tree (tight ms)) = chainsUnspaced (tree ms) := by
  induction ms using inside_induction with
  | step ms ih =>
    rw [tree_eq, tree_eq, siblings_tight, chainsUnspaced_eq_map, chainsUnspaced_eq_map,
      List.map_map, List.map_map, List.map_map]
    refine List.map_congr_left fun s hs => ?_
    have htidy := h.sub (infix_sources (infix_of_mem_siblings hs))
    refine unspaced_chainOf_tight (notMem_of_mem_splitOnP hs).2 htidy fun l hl inner hi => ?_
    exact ih s hs l hl inner hi (htidy.sub (infix_of_inside hl hi))

/-! ### Code as a normalized text -/

theorem ends_source {m : Mark} (h : m.isBlank = false) :
    (∀ c ∈ m.source.head?, Text.isBlank c = false)
      ∧ ∀ c ∈ m.source.getLast?, Text.isBlank c = false := by
  rcases m with d | inner
  · simpa [isBlank] using h
  · rw [source_pair, ← List.cons_append, List.getLast?_concat]
    refine ⟨fun c hc => ?_, fun c hc => ?_⟩ <;> obtain rfl := Option.mem_some_iff.1 hc <;> decide

theorem solid_sources {l : List Mark} (hl : trim l = l) (h : (sources l).Tidy) :
    (sources l).Solid := by
  obtain ⟨hhead, hlast⟩ := dropWhile_rdropWhile_eq_self.1 hl
  refine ⟨h, ?_, ?_⟩
  · rcases l with _ | ⟨m, l⟩
    · simp
    · rw [sources_cons, List.head?_append_of_ne_nil _ (source_ne_nil m)]
      exact (ends_source (hhead m rfl)).1
  · rcases l.eq_nil_or_concat' with rfl | ⟨l, m, rfl⟩
    · simp
    · have hm : m ∈ (l ++ [m]).getLast? := by simp
      rw [sources_append, sources_cons, sources_nil, List.append_nil,
        List.getLast?_append_of_ne_nil _ (source_ne_nil m)]
      exact (ends_source (hlast m hm)).2

theorem solid_intercalate {c : CodePoint} (hc : Text.isBlank c = false) {ls : List (List Mark)}
    (h : ∀ l ∈ ls, (sources l).Solid) : (sources ([char c].intercalate ls)).Solid := by
  have hsep : Text.Solid [c] := Text.solid_of_no_blank (List.forall_mem_singleton.2 hc)
  rw [sources_intercalate]
  exact hsep.intercalate (List.forall_mem_map.2 h)

/-- So normalizing the code of a tree changes nothing. -/
theorem solid_tight {ms : List Mark} (h : (sources ms).Tidy) : (sources (tight ms)).Solid := by
  induction ms using inside_induction with
  | step ms ih =>
    rw [tight_eq]
    refine solid_intercalate (by decide) (List.forall_mem_map.2 fun s hs => ?_)
    have htidy := h.sub (infix_sources (infix_of_mem_siblings hs))
    refine solid_intercalate (by decide) (List.forall_mem_map.2 fun l hl => ?_)
    rcases level_cases l with ⟨inner, rfl⟩ | hleaf
    · have hinner := ih s hs _ hl inner rfl (htidy.sub (infix_of_inside hl rfl))
      rw [tightLevel_pair, sources_cons, sources_nil, List.append_nil, source_pair]
      exact hinner.tidy.between (by decide) (by decide)
    · rw [tightLevel_of_leaf hleaf]
      exact solid_sources (notMem_of_mem_splitOnP hl).2
        (htidy.sub (infix_sources (infix_of_mem_levels hl)))

end Mark

/-! ### Reparsing -/

/-- A text that has a tree is the code of the tree, but for spaces where they do not matter. The
code is a normalized text as well, and has the same tree whatever its tokens are. -/
theorem reparse_treeCode {t : Text} (ht : Text.normalize t = t) {base : Option Text} {drawn : Nat}
    {source : TokenSource} (hs : forText t base drawn = .ok source) {e : Option Text}
    {chains : List Chain} (h : (extract source t).tree e = .ok chains) :
    (treeCode chains).unspaced = t.unspaced ∧ treeWrittenAs chains t
      ∧ Text.normalize (treeCode chains) = treeCode chains
      ∧ ∀ base' : Option Text, (∀ b ∈ base', isSafeBase b = true) →
        ∀ (drawn' : Nat) (e' : Option Text), ∃ source' chains',
          forText (treeCode chains) base' drawn' = .ok source'
            ∧ (extract source' (treeCode chains)).tree e' = .ok chains'
            ∧ chains'.map (fun c => c.unkeyed.unspaced)
              = chains.map fun c => c.unkeyed.unspaced := by
  have htidy : (Mark.sources (Mark.read t)).Tidy := by
    rw [Mark.sources_read]
    exact Text.normalize_eq_self_iff.1 ht
  obtain ⟨hfilled, htree⟩ := (Extraction.reads_extract (fitFor_of_forText hs)).of_tree e h
  have hwritten : treeWrittenAs chains t := by
    rw [← treeWrittenAs_unkeyed, htree]
    simpa only [Mark.sources_read] using Mark.tree_writtenAs htidy
  have hcode : treeCode chains = Mark.sources (Mark.tight (Mark.read t)) := by
    rw [Mark.sources_tight, ← htree, treeCode_unkeyed]
  have hread : Mark.read (treeCode chains) = Mark.tight (Mark.read t) := by
    rw [hcode, Mark.read_sources_tight]
  refine ⟨hwritten.unspaced_eq.symm, hwritten, ?_, fun base' hbase' drawn' e' => ?_⟩
  · rw [hcode]
    exact (Text.solid_iff.1 (Mark.solid_tight htidy)).2
  · obtain ⟨source', hok, -, hfit⟩ := forText_ok (t := treeCode chains) drawn' hbase'
    have hfilled' : ∀ p ∈ Mark.places (Mark.read (treeCode chains)), p.Filled := by
      rw [hread]
      exact Mark.filled_tight hfilled
    obtain ⟨chains', hchains, htree'⟩ := (Extraction.reads_extract hfit).exists_tree e' hfilled'
    refine ⟨source', chains', hok, hchains, ?_⟩
    have hsame := Mark.unspaced_tree_tight htidy
    rw [← hread, ← htree, ← htree', chainsUnspaced_eq_map, chainsUnspaced_eq_map, List.map_map,
      List.map_map] at hsame
    exact hsame

/-- Parentheses without partners, groups in groups, a group in a leaf, and the look of a token. -/
def spacedText : Text :=
  ") a > ( b + ( c > p0_ ) > d ) + e( f + g ) > (( h ) ) + i ("

theorem reparse_treeCode_of_spaces : Text.normalize spacedText = spacedText
    ∧ forText spacedText (some "p") 0 = .ok ⟨"p_", 0⟩
    ∧ ∃ chains, (extract ⟨"p_", 0⟩ spacedText).tree none = .ok chains
      ∧ treeCode chains = ") a>(b+(c>p0_)>d)+e( f + g )>((h))+i ("
      ∧ (treeCode chains).unspaced = Text.unspaced spacedText ∧ treeWrittenAs chains spacedText
      ∧ Text.normalize (treeCode chains) = treeCode chains
      ∧ ∀ base' : Option Text, (∀ b ∈ base', isSafeBase b = true) →
        ∀ (drawn' : Nat) (e' : Option Text), ∃ source' chains',
          forText (treeCode chains) base' drawn' = .ok source'
            ∧ (extract source' (treeCode chains)).tree e' = .ok chains'
            ∧ chains'.map (fun c => c.unkeyed.unspaced)
              = chains.map fun c => c.unkeyed.unspaced := by
  have htext : Text.normalize spacedText = spacedText := by decide +kernel
  have hsource : forText spacedText (some "p") 0 = .ok ⟨"p_", 0⟩ := by decide +kernel
  have hcode : ((extract ⟨"p_", 0⟩ spacedText).tree none).map treeCode
      = .ok (Text.ofString ") a>(b+(c>p0_)>d)+e( f + g )>((h))+i (") := by decide +kernel
  rcases hchains : (extract ⟨"p_", 0⟩ spacedText).tree none with r | chains <;>
    rw [hchains] at hcode
  · cases hcode
  · exact ⟨htext, hsource, chains, rfl, Except.ok.inj hcode, reparse_treeCode htext hsource hchains⟩

end Shorthand

import Shorthand.Proofs.LintedLeaves
import Shorthand.Proofs.Ordering

/-!
# Lint is canonical

No two findings agree in their code and their segment: the balance is told once, the segments of
blocks get shorter from one to the next, and a leaf is looked at once, however often it is written.
So sorting puts the findings in a strict order (`pairwise_findings`), and there is one list only of
what there is to find, whatever the base of the tokens is (`lint_canonical`).
-/

namespace Shorthand

open TokenSource

/-- Whether a finding comes before another: by its code, then by its segment. -/
def Finding.Precedes (f g : Finding) : Prop :=
  f.flaw.code.Precedes g.flaw.code
    ∨ f.flaw.code = g.flaw.code ∧ (f.segment.getD []).Precedes (g.segment.getD [])

namespace Lint

variable {expression leaf : Text} {f g : Finding}

/-! ### Findings that are told apart -/

theorem sortKey_ne_iff : sortKey f ≠ sortKey g ↔
    f.flaw.code ≠ g.flaw.code ∨ f.segment.getD [] ≠ g.segment.getD [] := by
  simp only [sortKey, ne_eq, List.cons.injEq, and_true, not_and_or]

theorem apart_balance (expression : Text) :
    (balance expression).Pairwise (sortKey · ≠ sortKey ·) := by
  unfold balance
  dsimp only
  split_ifs <;> simp

/-- How much of the text a finding points to. -/
def span (f : Finding) : Nat :=
  (f.segment.getD []).length

/-- Each finding points to less than the one before, and to no more than what is still to be read,
but for one in a block that is open and not flagged yet. -/
structure Shrinks (block : Option Block) (t : Text) (fs : List Finding) : Prop where
  shorter : fs.Pairwise fun f g => span g < span f
  within : ∀ f ∈ fs, span f ≤ t.length
    ∨ ∃ b ∈ block, b.flagged = false ∧ f.segment = some b.start

theorem Shrinks.le {block : Option Block} {t : Text} {fs : List Finding}
    (h : Shrinks block t fs) (hb : ∀ b ∈ block, b.flagged = true) :
    ∀ f ∈ fs, span f ≤ t.length := by
  intro f hf
  refine (h.within f hf).resolve_right ?_
  rintro ⟨b, hblock, hflag, -⟩
  exact Bool.false_ne_true (hflag.symm.trans (hb b hblock))

theorem shrinks_blocksFrom (expression : Text) : ∀ (block : Option Block) (t : Text),
    (∀ b ∈ block, t.length < b.start.length) → Shrinks block t (blocksFrom expression block t)
  | none, [], _ => ⟨.nil, fun _ hf => absurd hf List.not_mem_nil⟩
  | some b, [], _ => ⟨.nil, fun _ hf => absurd hf List.not_mem_nil⟩
  | none, c :: r, _ => by
    have hstart : ∀ b ∈ (closerOf c).map fun d => (⟨d, c :: r, false⟩ : Block),
        b.start = c :: r := by
      intro b hb
      obtain ⟨d, -, rfl⟩ := Option.map_eq_some_iff.1 hb
      rfl
    -- A block that starts here has the longest segment that can be told from here on.
    have ih := shrinks_blocksFrom expression ((closerOf c).map fun d => ⟨d, c :: r, false⟩) r
      fun b hb => (hstart b hb).symm ▸ Nat.lt_succ_self r.length
    rw [blocksFrom]
    refine ⟨ih.shorter, fun f hf => .inl ?_⟩
    rcases ih.within f hf with hle | ⟨b, hb, -, hsegment⟩
    · exact Nat.le_succ_of_le hle
    · rw [span, hsegment, hstart b hb]
      exact le_rfl
  | some b, c :: r, h => by
    have hlt : r.length < b.start.length := Nat.lt_of_succ_lt (h b rfl)
    rw [blocksFrom]
    split_ifs with hc ho
    · have ih := shrinks_blocksFrom expression none r (by simp)
      exact ⟨ih.shorter, fun f hf => .inl (Nat.le_succ_of_le (ih.le (by simp) f hf))⟩
    · -- Once its block is flagged, nothing is told with its segment again.
      have ih := shrinks_blocksFrom expression (some { b with flagged := true }) r (by simpa)
      have hle := ih.le (by simp)
      refine ⟨List.pairwise_cons.2 ⟨fun f hf => Nat.lt_of_le_of_lt (hle f hf) hlt, ih.shorter⟩, ?_⟩
      refine List.forall_mem_cons.2 ⟨.inr ⟨b, rfl, ?_, rfl⟩, fun f hf => .inl ?_⟩
      · simpa using (Bool.and_eq_true_iff.1 ho).2
      · exact Nat.le_succ_of_le (hle f hf)
    · have ih := shrinks_blocksFrom expression (some b) r (by simpa)
      exact ⟨ih.shorter, fun f hf => (ih.within f hf).imp_left Nat.le_succ_of_le⟩

theorem apart_blocks (expression : Text) :
    (blocks expression).Pairwise (sortKey · ≠ sortKey ·) := by
  refine (shrinks_blocksFrom expression none expression (by simp)).shorter.imp fun hlt => ?_
  refine sortKey_ne_iff.2 (.inr fun heq => hlt.ne ?_)
  rw [span, span, heq]

theorem nodup_once : ∀ seen ts : List Text, (once seen ts).Nodup
  | _, [] => List.nodup_nil
  | seen, t :: ts => by
    rw [once]
    split_ifs
    · exact nodup_once seen ts
    · exact List.nodup_cons.2 ⟨fun h => (mem_once.1 h).2 List.mem_cons_self, nodup_once _ ts⟩

/-- Each rule about leaves is looked at once. -/
theorem leafFlaws_sublist (leaf : Text) : (leafFlaws leaf).Sublist leafRules := by
  have hrule {c : Prop} [Decidable c] (flaw : Flaw) :
      (if c then [flaw] else []).Sublist [flaw] := by
    split_ifs
    · exact List.Sublist.refl _
    · exact List.nil_sublist _
  exact (((hrule _).append (hrule _)).append (hrule _)).append (hrule _)

theorem apart_ofLeaf (expression leaf : Text) :
    (ofLeaf expression leaf).Pairwise (sortKey · ≠ sortKey ·) := by
  have hcodes : leafRules.Pairwise (·.code ≠ ·.code) := by decide
  refine List.pairwise_map.2 ((hcodes.sublist (leafFlaws_sublist leaf)).imp fun hcode => ?_)
  exact sortKey_ne_iff.2 (.inl hcode)

theorem apart_leaves (expression : Text) (ts : List Text) :
    ((once [] ts).flatMap (ofLeaf expression)).Pairwise (sortKey · ≠ sortKey ·) := by
  refine List.pairwise_flatMap.2 ⟨fun leaf _ => apart_ofLeaf expression leaf, ?_⟩
  refine (nodup_once [] ts).imp fun hne f hf g hg => sortKey_ne_iff.2 (.inr ?_)
  rw [(of_mem_ofLeaf hf).2.1, (of_mem_ofLeaf hg).2.1]
  exact hne

/-- Findings in the text, in a block of it and in a leaf have different codes. -/
theorem apart_found (expression : Text) (ts : List Text) :
    (balance expression ++ blocks expression ++ (once [] ts).flatMap (ofLeaf expression)).Pairwise
      (sortKey · ≠ sortKey ·) := by
  have hleaf : ∀ f ∈ (once [] ts).flatMap (ofLeaf expression), f.flaw ∈ leafRules := by
    intro f hf
    obtain ⟨leaf, -, hf⟩ := List.mem_flatMap.1 hf
    exact (leafFlaws_sublist leaf).subset (of_mem_ofLeaf hf).2.2
  have hcodes : ∀ flaw ∈ leafRules, flaw.code ≠ "L_UNBALANCED_GROUPING"
      ∧ flaw.code ≠ "L_OPERATOR_IN_BLOCK" := by decide
  refine List.pairwise_append.2 ⟨List.pairwise_append.2 ⟨apart_balance expression,
    apart_blocks expression, fun f hf g hg => ?_⟩, apart_leaves expression ts, fun f hf g hg => ?_⟩
    <;> refine sortKey_ne_iff.2 (.inl ?_)
  · obtain ⟨m, n, rfl⟩ := of_mem_balance hf
    obtain ⟨-, ⟨c, hg⟩, -⟩ := of_mem_blocks hg
    rw [hg]
    simp only [Flaw.code]
    decide
  · obtain ⟨hne, hne'⟩ := hcodes g.flaw (hleaf g hg)
    rcases List.mem_append.1 hf with hf | hf
    · obtain ⟨m, n, rfl⟩ := of_mem_balance hf
      exact hne.symm
    · obtain ⟨-, ⟨c, hf⟩, -⟩ := of_mem_blocks hf
      rw [hf]
      exact hne'.symm

/-! ### Sorted findings -/

theorem precedes_of_sortKey (h : Text.listAtMost (sortKey f) (sortKey g) = true)
    (hne : sortKey f ≠ sortKey g) : f.Precedes g := by
  simp only [sortKey, Text.listAtMost_cons, Text.atMost_iff] at h
  rcases h with ⟨hcode, h⟩ | ⟨hcode, ⟨hsegment, h⟩ | ⟨hsegment, -⟩⟩
  · exact .inl (h.resolve_left hcode)
  · exact .inr ⟨hcode, h.resolve_left hsegment⟩
  · exact absurd (sortKey_ne_iff.1 hne) (by simp [hcode, hsegment])

theorem pairwise_sort {fs : List Finding} (h : fs.Pairwise (sortKey · ≠ sortKey ·)) :
    (sort fs).Pairwise Finding.Precedes := by
  have hperm : (sort fs).Perm fs := List.mergeSort_perm fs _
  have hsorted : (sort fs).Pairwise fun f g => Text.listAtMost (sortKey f) (sortKey g) = true :=
    Text.pairwise_mergeSort sortKey fs
  have hapart : (sort fs).Pairwise (sortKey · ≠ sortKey ·) :=
    (hperm.pairwise_iff fun hne => hne.symm).2 h
  exact (hsorted.and hapart).imp fun h => precedes_of_sortKey h.1 h.2

theorem pairwise_findings (base expression : Text) :
    (findings base expression).Pairwise Finding.Precedes :=
  pairwise_sort (apart_found expression _)

end Lint

theorem Finding.Precedes.asymm {f g : Finding} (h : f.Precedes g) : ¬ g.Precedes f := by
  rintro (h' | ⟨hcode, h'⟩) <;> rcases h with h | ⟨hcode', h⟩
  · exact lt_asymm h h'
  · exact absurd h' (hcode' ▸ lt_irrefl _)
  · exact absurd h (hcode ▸ lt_irrefl _)
  · exact lt_asymm h h'

/-- What is in a strict order is the only list of its members that is. -/
theorem Finding.eq_of_pairwise {fs gs : List Finding} (hf : fs.Pairwise Precedes)
    (hg : gs.Pairwise Precedes) (h : ∀ f, f ∈ fs ↔ f ∈ gs) : fs = gs := by
  have hnodup {ks : List Finding} (hk : ks.Pairwise Precedes) : ks.Nodup :=
    hk.imp fun hlt heq => (heq ▸ hlt).asymm (heq ▸ hlt)
  refine List.Perm.eq_of_pairwise (fun f g _ _ hfg hgf => absurd hgf hfg.asymm) hf hg ?_
  exact (List.perm_ext_iff_of_nodup (hnodup hf) (hnodup hg)).2 h

/-- Lint finds the same with any base, since it looks for leaves at the same places of the text. -/
theorem Lint.findings_eq {base base' : Text} (h : SafeBase base) (h' : SafeBase base')
    (expression : Text) : findings base expression = findings base' expression := by
  have hleaves {leaf : Text} : leaf ∈ leaves (extraction base expression)
      ↔ leaf ∈ leaves (extraction base' expression) :=
    (reads_extraction h expression).mem_leaves_iff.trans
      (reads_extraction h' expression).mem_leaves_iff.symm
  refine Finding.eq_of_pairwise (pairwise_findings base expression)
    (pairwise_findings base' expression) fun f => ?_
  simp only [mem_findings, hleaves]

/-- Findings are listed in a strict order, and they are the same with the tokens of any safe base
and with those of any number that is drawn. -/
theorem lint_canonical (source : Text) :
    (lint source).Pairwise Finding.Precedes
      ∧ ∀ (base : Option Text) (drawn : Nat), (∀ b ∈ base, isSafeBase b = true) →
        let text := Text.normalize source
        ∃ tokens, forText text base drawn = .ok tokens
          ∧ Lint.extraction (base.getD (drawnBase drawn)) text = extract tokens text
          ∧ Lint.findings (base.getD (drawnBase drawn)) text = lint source := by
  refine ⟨Lint.pairwise_findings _ _, fun base drawn h => ?_⟩
  exact ⟨_, forText_eq drawn h, rfl,
    Lint.findings_eq (safeBase_getD drawn h) (safeBase_drawnBase 0) (Text.normalize source)⟩

theorem lint_canonical_of_repeated :
    let source : Text := "(a..b) > a..b + (c\x7bx+y\x7d > (a..b + p0_..)) [+"
    (∀ b ∈ some (Text.ofString "p"), isSafeBase b = true)
      ∧ ⟨.emptyClass, Text.normalize source, some (Text.ofString "a..b")⟩ ∈ lint source
      ∧ (lint source).Pairwise Finding.Precedes
      ∧ ∃ tokens, forText (Text.normalize source) (some "p") = .ok tokens
        ∧ Lint.extraction "p" (Text.normalize source) = extract tokens (Text.normalize source)
        ∧ Lint.findings "p" (Text.normalize source) = lint source := by
  intro source
  have hbase : ∀ b ∈ some (Text.ofString "p"), isSafeBase b = true := by decide +kernel
  obtain ⟨hsorted, hbases⟩ := lint_canonical source
  refine ⟨hbase, Lint.mem_findings.2 (.inr (.inr ⟨"a..b", ?_, ?_⟩)), hsorted,
    hbases (some "p") 0 hbase⟩
  · decide +kernel
  · decide +kernel

end Shorthand

import Shorthand.Proofs.LintedLeaves

/-!
# Where reports point

A rejection or a finding names the normalized expression, and its segment is a part of that. The
segments of rejections are places of the marks or in them, and the leaves that lint looks at are
levels of the marks or of what is inside of a pair of them.
-/

namespace Shorthand

open TokenSource

/-- A diagnostic is about the text, and its segment, if it has one, is a part of it. -/
structure Diagnostic.PointsInto (d : Diagnostic) (text : Text) : Prop where
  expression : d.expression = some text
  segment : ∀ segment ∈ d.segment, segment <:+: text

/-- A rejection always has a segment. -/
structure Rejection.PointsInto (r : Rejection) (text : Text) : Prop where
  diagnostic : r.diagnostic.PointsInto text
  located : r.segment.isSome

section

variable {text segment : Text}

theorem Diagnostic.pointsInto_of_eq {d : Diagnostic} (he : d.expression = some text)
    (hs : d.segment = some segment) (hi : segment <:+: text) : d.PointsInto text := by
  refine ⟨he, fun u hu => ?_⟩
  obtain rfl : segment = u := Option.some.inj (hs.symm.trans hu)
  exact hi

theorem Rejection.pointsInto_of_eq {r : Rejection} (he : r.expression = some text)
    (hs : r.segment = some segment) (hi : segment <:+: text) : r.PointsInto text :=
  ⟨Diagnostic.pointsInto_of_eq he hs hi, by rw [hs]; rfl⟩

end

/-! ### Rejections -/

theorem pointsInto_of_mem_rejections {s : Settings} {text : Text} {r : Rejection}
    (h : r ∈ rejections s text) : r.PointsInto text := by
  have hplace {p : Mark.Place} (hp : p ∈ Mark.places (Mark.read text)) :
      Mark.sources p.marks <:+: text := by
    simpa only [Mark.sources_read] using Mark.infix_of_mem_places hp
  rcases List.mem_append.1 h with h | h
  · rw [List.mem_ite_nil_right, List.mem_singleton] at h
    obtain ⟨-, rfl⟩ := h
    exact Rejection.pointsInto_of_eq rfl rfl (List.infix_refl text)
  rcases List.mem_append.1 h with h | h
  · obtain ⟨p, hp, hr⟩ := List.mem_flatMap.1 h
    obtain ⟨he, hs, -⟩ := Mark.Place.of_mem_blanks _ hr
    exact Rejection.pointsInto_of_eq he hs (hplace hp)
  · obtain ⟨p, hp, hr⟩ := List.mem_flatMap.1 h
    obtain ⟨he, ⟨segment, hs, hi⟩, -⟩ := Mark.Place.of_mem_faults _ hr
    exact Rejection.pointsInto_of_eq he hs (hi.trans (hplace hp))

theorem pointsInto_of_expand {s : Settings} (h : ∀ b ∈ s.placeholderBase, isSafeBase b = true)
    {source : Text} {drawn : Nat} {failure : Failure}
    (he : expand s source drawn = .error failure) :
    ∃ r, failure = .rejected r ∧ r.PointsInto (Text.normalize source) := by
  have hmem := List.mem_of_mem_head? ((settles_expand h source drawn).error_iff.1 he)
  obtain ⟨r, hr, rfl⟩ := List.mem_map.1 hmem
  exact ⟨r, rfl, pointsInto_of_mem_rejections hr⟩

theorem pointsInto_of_expandSingle {s : Settings} {source : Text} {r : Rejection}
    (h : expandSingle s source = .error r) : r.PointsInto (Text.normalize source) := by
  have hmem := List.mem_of_mem_head? ((Leaf.settles_expand s.defaultTag _ _).error_iff.1 h)
  obtain ⟨he, ⟨segment, hs, hi⟩, -⟩ := Leaf.of_mem_faults _ hmem
  exact Rejection.pointsInto_of_eq he hs hi

/-! ### Findings -/

namespace Lint

theorem infix_of_mem_leaves {g : Extraction} {t leaf : Text} (h : g.Reads t)
    (hl : leaf ∈ leaves g) : leaf <:+: t := by
  obtain ⟨b, hb, level, hlevel, -, -, rfl⟩ := h.mem_leaves_iff.1 hl
  exact (hb.partOf.sub (Mark.infix_of_mem_allLevels hlevel)).source

theorem pointsInto_of_mem_findings {base text : Text} (h : SafeBase base) {f : Finding}
    (hf : f ∈ findings base text) : f.diagnostic.PointsInto text := by
  rcases mem_findings.1 hf with hf | hf | ⟨leaf, hl, hf⟩
  · obtain ⟨-, hf⟩ := List.mem_ite_nil_left.1 hf
    obtain rfl := List.mem_singleton.1 hf
    exact ⟨rfl, by simp [Finding.diagnostic]⟩
  · obtain ⟨he, -, segment, hs, hi⟩ := of_mem_blocks hf
    exact Diagnostic.pointsInto_of_eq (congrArg some he) hs hi.isInfix
  · obtain ⟨he, hs, -⟩ := of_mem_ofLeaf hf
    have hi : leaf <:+: text := infix_of_mem_leaves (reads_extraction h text) hl
    exact Diagnostic.pointsInto_of_eq (congrArg some he) hs hi

end Lint

/-! ### Reports -/

/-- All that can go wrong with a safe base is a rejection, which points into the normalized
expression. So does all that lint finds, whatever safe base it looks for leaves with. -/
theorem reports_point_into {s : Settings} (h : ∀ b ∈ s.placeholderBase, isSafeBase b = true)
    (source : Text) (drawn : Nat) :
    let text := Text.normalize source
    (∀ failure, expand s source drawn = .error failure →
        ∃ r, failure = .rejected r ∧ r.PointsInto text)
      ∧ (∀ r, expandSingle s source = .error r → r.PointsInto text)
      ∧ (∀ f ∈ lint source, f.diagnostic.PointsInto text)
      ∧ ∀ base, isSafeBase base = true → ∀ f ∈ Lint.findings base text,
          f.diagnostic.PointsInto text :=
  ⟨fun _ => pointsInto_of_expand h, fun _ => pointsInto_of_expandSingle,
    fun _ => Lint.pointsInto_of_mem_findings (safeBase_drawnBase 0),
    fun _ hb _ => Lint.pointsInto_of_mem_findings (isSafeBase_iff.1 hb)⟩

theorem reports_point_into_of_joined : (∀ b ∈ some (Text.ofString "p"), isSafeBase b = true)
    ∧ (∃ r, expand { placeholderBase := some "p" } "a > (b(c)[x\t] + (d..e))"
        = .error (.rejected r) ∧ r.PointsInto (Text.normalize "a > (b(c)[x\t] + (d..e))"))
    ∧ (∃ r, expandSingle { placeholderBase := some "p" } "a > (b(c)[x\t] + (d..e))" = .error r
        ∧ r.PointsInto (Text.normalize "a > (b(c)[x\t] + (d..e))"))
    ∧ ∃ f ∈ lint "a > (b(c)[x\t] + (d..e))", f.flaw = .emptyClass
        ∧ f.diagnostic.PointsInto (Text.normalize "a > (b(c)[x\t] + (d..e))") := by
  have hb : ∀ b ∈ some (Text.ofString "p"), isSafeBase b = true := by decide +kernel
  have hfails :
      (expand { placeholderBase := some "p" } "a > (b(c)[x\t] + (d..e))").isOk = false := by
    decide +kernel
  have hfound : ∃ f ∈ lint "a > (b(c)[x\t] + (d..e))", f.flaw = .emptyClass := by decide +kernel
  obtain ⟨hexpand, hsingle, hlint, -⟩ :=
    reports_point_into (s := { placeholderBase := some "p" }) hb "a > (b(c)[x\t] + (d..e))" 0
  refine ⟨hb, ?_, ⟨_, rfl, hsingle _ rfl⟩, ?_⟩
  · rcases he : expand { placeholderBase := some "p" } "a > (b(c)[x\t] + (d..e))" with failure | ns
    · obtain ⟨r, rfl, hr⟩ := hexpand failure he
      exact ⟨r, rfl, hr⟩
    · rw [he] at hfails
      cases hfails
  · obtain ⟨f, hf, hflaw⟩ := hfound
    exact ⟨f, hf, hflaw, hlint f hf⟩

end Shorthand

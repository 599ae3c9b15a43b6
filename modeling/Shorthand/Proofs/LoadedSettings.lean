import Shorthand.Proofs.Faults
import Shorthand.Proofs.Trimming
import Shorthand.Settings.File

/-!
# Expanding with settings from a file

What a file sets has passed the check of its setting (`valid_load`), so that its base is safe. All
that can go wrong then is wrong with the expression, and is told by a rejection that names what it
is (`expand_of_load`).
-/

namespace Shorthand

/-! ### Settings that have been checked -/

/-- What the check of a setting lets through. -/
def Override.Valid : Override → Prop
  | defaultTag tag => tag ≠ [] ∧ Text.trim tag = tag
  | strictGrouping _ => True
  | placeholderBase base => ∀ b ∈ base, isSafeBase b = true

namespace Settings

/-- What is true of settings that no check has refused. -/
structure Valid (s : Settings) : Prop where
  tag : s.defaultTag ≠ [] ∧ Text.trim s.defaultTag = s.defaultTag
  base : ∀ b ∈ s.placeholderBase, isSafeBase b = true

theorem valid_default : Valid {} :=
  ⟨by decide, by simp⟩

theorem Valid.apply {s : Settings} {o : Override} (hs : s.Valid) (ho : o.Valid) :
    (s.apply o).Valid := by
  cases o with
  | defaultTag tag => exact ⟨ho, hs.base⟩
  | strictGrouping strict => exact ⟨hs.tag, hs.base⟩
  | placeholderBase base => exact ⟨hs.tag, ho⟩

theorem Valid.foldl : ∀ {os : List Override} {s : Settings}, s.Valid → (∀ o ∈ os, o.Valid) →
    (os.foldl Settings.apply s).Valid
  | [], _, hs, _ => hs
  | _ :: _, _, hs, h =>
    have ⟨ho, hos⟩ := List.forall_mem_cons.1 h
    (hs.apply ho).foldl hos

theorem valid_override {name : Name} {v : Value} {o : Override} (h : override name v = .ok o) :
    o.Valid := by
  unfold override at h
  split at h
  · rename_i t
    split_ifs at h with ht
    rw [← Except.ok.inj h]
    exact ⟨by simpa using ht, Text.trim_trim t⟩
  · rw [← Except.ok.inj h]
    trivial
  · rw [← Except.ok.inj h]
    simp [Override.Valid]
  · rename_i t
    split_ifs at h with ht
    rw [← Except.ok.inj h]
    simpa [Override.Valid] using ht
  · cases h

theorem valid_entryOverride {entry : Value × Value} {o : Override}
    (h : entryOverride entry = .ok o) : o.Valid := by
  obtain ⟨k, v⟩ := entry
  unfold entryOverride at h
  dsimp only at h
  split at h
  · exact valid_override (mapError_eq_ok_iff.1 h)
  · cases h
  · cases h

theorem valid_overridesOf {v : Value} {os : List Override} (h : overridesOf v = .ok os) :
    ∀ o ∈ os, o.Valid := by
  intro o ho
  unfold overridesOf at h
  split at h
  · rw [← Except.ok.inj h] at ho
    cases ho
  · obtain ⟨entry, -, hentry⟩ := exists_of_mem_mapM_ok h ho
    exact valid_entryOverride hentry
  · cases h

theorem valid_overrides {store : Store} {path : Text} {os : List Override}
    (h : overrides store path = .ok os) : ∀ o ∈ os, o.Valid := by
  unfold overrides at h
  dsimp only at h
  split at h
  · cases h
  split at h
  · cases h
  · cases h
  · exact valid_overridesOf h

theorem valid_load {store : Store} {path : Option Text} {s : Settings}
    (h : load store path = .ok s) : s.Valid := by
  unfold load at h
  split at h
  · rw [← Except.ok.inj h]
    exact valid_default
  · rw [← Except.ok.inj h]
    exact valid_default
  · rename_i p _
    rcases hos : overrides store p with failure | os <;> rw [hos] at h
    · cases h
    · rw [← Except.ok.inj h]
      exact valid_default.foldl (valid_overrides hos)

end Settings

/-! ### What can be wrong with an expression -/

/-- The problems that an expression can have. A chain with no node at its root is none of them. -/
def Problem.Arises (strict : Bool) : Problem → Prop
  | emptySibling => True
  | emptyRoot => True
  | emptyLevel => True
  | rootCount n => n ≠ 0
  | noRoot => False
  | attributeWithoutValue _ => True
  | unbalanced => strict = true

theorem Leaf.arises_of_mem_faults {e : Option Text} {t : Text} {r : Rejection}
    (h : r ∈ faults e t) (strict : Bool) : r.problem.Arises strict := by
  obtain ⟨block, -, item, -, -, rfl⟩ := (mem_faults_iff e).1 h
  trivial

namespace Mark

variable {e : Option Text} {p : Place} {r : Rejection}

theorem Place.arises_of_mem_blanks (h : r ∈ p.blanks e) (strict : Bool) :
    r.problem.Arises strict := by
  cases p with
  | body ms =>
    simp only [Place.blanks, List.mem_ite_nil_right, List.mem_singleton] at h
    rw [h.2]
    trivial
  | chain s =>
    simp only [Place.blanks, List.mem_append, List.mem_ite_nil_right, List.mem_singleton] at h
    rcases h with ⟨-, rfl⟩ | ⟨-, rfl⟩ <;> trivial
  | leaf l => cases h
  | root s => cases h

/-- A group has a sibling at least, so no root is found without a node. -/
theorem Place.arises_of_mem_faults (h : r ∈ p.faults e) (strict : Bool) :
    r.problem.Arises strict := by
  cases p with
  | body ms => cases h
  | chain s => cases h
  | leaf l => exact Leaf.arises_of_mem_faults h strict
  | root s =>
    simp only [Place.faults, List.mem_ite_nil_left, List.mem_singleton] at h
    rw [h.2]
    exact (width_pos _).ne'

end Mark

theorem arises_of_mem_rejections {s : Settings} {text : Text} {r : Rejection}
    (h : r ∈ rejections s text) : r.problem.Arises s.strictGrouping := by
  rcases List.mem_append.1 h with h | h
  · rw [List.mem_ite_nil_right, List.mem_singleton] at h
    obtain ⟨⟨hstrict, -⟩, rfl⟩ := h
    exact hstrict
  rcases List.mem_append.1 h with h | h
  · obtain ⟨p, -, hr⟩ := List.mem_flatMap.1 h
    exact p.arises_of_mem_blanks hr _
  · obtain ⟨p, -, hr⟩ := List.mem_flatMap.1 h
    exact p.arises_of_mem_faults hr _

theorem Problem.Arises.code {strict : Bool} {p : Problem} (h : p.Arises strict) :
    p.code = "E_INVALID_EXPRESSION" ∧ p ≠ .noRoot ∧ p ≠ .rootCount 0
      ∨ p.code = "E_ATTRIBUTE_SYNTAX" ∨ strict = true ∧ p.code = "E_UNBALANCED_GROUPING" := by
  cases p with
  | emptySibling => exact .inl ⟨rfl, nofun, nofun⟩
  | emptyRoot => exact .inl ⟨rfl, nofun, nofun⟩
  | emptyLevel => exact .inl ⟨rfl, nofun, nofun⟩
  | rootCount n => exact .inl ⟨rfl, nofun, fun hn => h (Problem.rootCount.inj hn)⟩
  | noRoot => exact h.elim
  | attributeWithoutValue item => exact .inr (.inl rfl)
  | unbalanced => exact .inr (.inr ⟨h, rfl⟩)

/-! ### Expansion -/

/-- With a safe base, only the expression can be at fault. -/
theorem expand_of_safe {s : Settings} (h : ∀ b ∈ s.placeholderBase, isSafeBase b = true)
    (source : Text) (drawn : Nat) : (∃ ns, expand s source drawn = .ok ns ∧ ns ≠ [])
      ∨ ∃ r, expand s source drawn = .error (.rejected r) ∧ r.problem.Arises s.strictGrouping := by
  rcases (settles_expand h source drawn).ok_or_mem with ⟨ns, hns, hlength⟩ | ⟨failure, hf, hns⟩
  · refine .inl ⟨ns, hns, ?_⟩
    rw [← List.length_pos_iff, hlength]
    exact List.length_pos_iff.2 (Mark.siblings_ne_nil _)
  · obtain ⟨r, hr, rfl⟩ := List.mem_map.1 hf
    exact .inr ⟨r, hns, arises_of_mem_rejections hr⟩

theorem expandSingle_or_code (s : Settings) (source : Text) :
    (∃ n, expandSingle s source = .ok n)
      ∨ ∃ r, expandSingle s source = .error r ∧ r.problem.code = "E_ATTRIBUTE_SYNTAX" := by
  rcases (Leaf.settles_expand s.defaultTag _ _).ok_or_mem with ⟨n, hn, -⟩ | ⟨r, hr, hn⟩
  · exact .inl ⟨n, hn⟩
  · exact .inr ⟨r, hn, (Leaf.of_mem_faults _ hr).2.2⟩

/-- With settings that were loaded, an expansion has a root or is rejected for a reason that an
expression can give: neither the base nor a level without nodes is ever the matter. Nothing catches
a failure on its way, so what is not the result has not come up. A single leaf can only be rejected
for its attributes. -/
theorem expand_of_load {store : Store} {path : Option Text} {s : Settings}
    (h : Settings.load store path = .ok s) (source : Text) (drawn : Nat) :
    ((∃ ns, expand s source drawn = .ok ns ∧ ns ≠ [])
        ∨ ∃ r, expand s source drawn = .error (.rejected r)
          ∧ (r.problem.code = "E_INVALID_EXPRESSION"
              ∧ r.problem ≠ .noRoot ∧ r.problem ≠ .rootCount 0
            ∨ r.problem.code = "E_ATTRIBUTE_SYNTAX"
            ∨ s.strictGrouping = true ∧ r.problem.code = "E_UNBALANCED_GROUPING"))
      ∧ (∀ base, expand s source drawn ≠ .error (.unsafeBase base))
      ∧ expand s source drawn ≠ .error .missingLevel
      ∧ ((∃ n, expandSingle s source = .ok n)
        ∨ ∃ r, expandSingle s source = .error r ∧ r.problem.code = "E_ATTRIBUTE_SYNTAX") := by
  have hsingle := expandSingle_or_code s source
  rcases expand_of_safe (Settings.valid_load h).base source drawn with ⟨ns, hns, hne⟩ | ⟨r, hr, hp⟩
  · rw [hns]
    exact ⟨.inl ⟨ns, rfl, hne⟩, nofun, nofun, hsingle⟩
  · rw [hr]
    exact ⟨.inr ⟨r, rfl, hp.code⟩, nofun, nofun, hsingle⟩

/-- A file that sets everything, with a base that is itself the start of a token. -/
def strictStore : Store where
  entries := [(["s.yaml"], .file
    ("default_tag: b\nstrict_grouping: true\nplaceholder_prefix: p_1\n".toList.map
      fun c => c.toNat.toUInt8))]

def strictSettings : Settings :=
  ⟨"b", true, some "p_1"⟩

theorem expand_of_load_strict :
    Settings.load strictStore (some "s.yaml") = .ok strictSettings
      ∧ ((∃ ns, expand strictSettings "p_1(a>(b+c" 7 = .ok ns ∧ ns ≠ [])
          ∨ ∃ r, expand strictSettings "p_1(a>(b+c" 7 = .error (.rejected r)
            ∧ (r.problem.code = "E_INVALID_EXPRESSION"
                ∧ r.problem ≠ .noRoot ∧ r.problem ≠ .rootCount 0
              ∨ r.problem.code = "E_ATTRIBUTE_SYNTAX"
              ∨ strictSettings.strictGrouping = true ∧ r.problem.code = "E_UNBALANCED_GROUPING"))
      ∧ (∀ base, expand strictSettings "p_1(a>(b+c" 7 ≠ .error (.unsafeBase base))
      ∧ expand strictSettings "p_1(a>(b+c" 7 ≠ .error .missingLevel
      ∧ ((∃ n, expandSingle strictSettings "p_1(a>(b+c" = .ok n)
        ∨ ∃ r, expandSingle strictSettings "p_1(a>(b+c" = .error r
          ∧ r.problem.code = "E_ATTRIBUTE_SYNTAX") :=
  have h : Settings.load strictStore (some "s.yaml") = .ok strictSettings := by decide +kernel
  ⟨h, expand_of_load h "p_1(a>(b+c" 7⟩

end Shorthand

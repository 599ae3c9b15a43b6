import Shorthand.Command.Run
import Shorthand.Proofs.Endless
import Shorthand.Proofs.LoadedSettings

/-!
# What can be wrong with a file of settings

A file that can be read holds settings that pass their checks, or one of seven things is wrong with
it (`overrides_eq_error_iff`). Three of them are problems that a command reports. The others cut it
short: octets that are no text, a scalar that is not what it says it is, mappings that give their
scalars one by the other without end, and a key that is too long to be shown (`overrides_of_read`).
-/

namespace Shorthand

namespace Settings

/-! ### Entries -/

/-- An integer that is over the limit of digits. -/
def LongKey (k : Value) : Prop :=
  ∃ n : Int, k = .int n ∧ Nat.pow 10 Decimal.digitLimit ≤ n.natAbs

theorem shown?_eq_none_iff {k : Value} : k.shown? = none ↔ LongKey k := by
  cases k with
  | int n => simp only [Value.shown?, LongKey, ite_eq_right_iff, reduceCtorEq, imp_false, not_lt,
      Value.int.injEq, exists_eq_left']
  | _ => simp [Value.shown?, LongKey]

theorem entryOverride_of_longKey {k : Value} (h : LongKey k) (v : Value) :
    entryOverride (k, v) = .error .longKey := by
  have hshown := shown?_eq_none_iff.2 h
  obtain ⟨n, rfl, -⟩ := h
  simp only [entryOverride, hshown]

theorem entryOverride_error {k v : Value} {e : Failure} (h : entryOverride (k, v) = .error e) :
    (∃ p, e = .problem p) ∨ e = .longKey ∧ LongKey k := by
  unfold entryOverride at h
  dsimp only at h
  split at h
  · rename_i name _
    rcases ho : override name v with p | o <;> rw [ho] at h
    · exact .inl ⟨p, (Except.error.inj h).symm⟩
    · cases h
  · exact .inl ⟨_, (Except.error.inj h).symm⟩
  · rename_i hshown
    exact .inr ⟨(Except.error.inj h).symm, shown?_eq_none_iff.1 hshown⟩

/-! ### Files -/

/-- What is read as YAML from the octets of a file that is a text. -/
def Holds (octets : List UInt8) (document : Except Yaml.Fault Value) : Prop :=
  ∃ t, Text.ofUtf8 octets = .ok t ∧ Yaml.read 1 (Text.unifyLineEnds t) = document

/-- What is wrong with the octets of a file of settings. Of the entries that are wrong, the first
one counts. -/
inductive Wrong (path : Path) (octets : List UInt8) : Failure → Prop
  | encoding {f : Text.Utf8.Fault} : Text.ofUtf8 octets = .error f →
    Wrong path octets (.document (.encoding f))
  | malformed : Holds octets (.error .malformed) → Wrong path octets (.problem (.malformed path))
  | endless : Holds octets (.error .endless) → Wrong path octets (.scalar .endless)
  | scalar {f : Yaml.Fault} : Holds octets (.error f) → f ≠ .malformed → f ≠ .endless →
    Wrong path octets (.scalar f)
  | noMapping {v : Value} : Holds octets (.ok v) → v ≠ .null → (∀ entries, v ≠ .map entries) →
    Wrong path octets (.problem .noMapping)
  | setting {before after : List (Value × Value)} {entry : Value × Value} {p : Problem} :
    Holds octets (.ok (.map (before ++ entry :: after))) →
    (∀ b ∈ before, ∃ o, entryOverride b = .ok o) → entryOverride entry = .error (.problem p) →
    Wrong path octets (.problem p)
  | longKey {before after : List (Value × Value)} {k v : Value} :
    Holds octets (.ok (.map (before ++ (k, v) :: after))) →
    (∀ b ∈ before, ∃ o, entryOverride b = .ok o) → LongKey k → Wrong path octets .longKey

section

variable {s : Store} {path : Text} {octets : List UInt8}

theorem overrides_of_encoding (h : s.read (Path.ofText path) = .ok octets) {f : Text.Utf8.Fault}
    (hf : Text.ofUtf8 octets = .error f) : overrides s path = .error (.document (.encoding f)) := by
  simp only [overrides, Store.document, h, hf]

theorem overrides_of_text (h : s.read (Path.ofText path) = .ok octets) {t : Text}
    (ht : Text.ofUtf8 octets = .ok t) :
    overrides s path = match Yaml.read 1 (Text.unifyLineEnds t) with
      | .error .malformed => .error (.problem (.malformed (Path.ofText path)))
      | .error f => .error (.scalar f)
      | .ok v => overridesOf v := by
  rcases hread : Yaml.read 1 (Text.unifyLineEnds t) with f | v
  · cases f <;> simp only [overrides, Store.document, h, ht, hread]
  · simp only [overrides, Store.document, h, ht, hread]

theorem overrides_of_value (h : s.read (Path.ofText path) = .ok octets) {v : Value}
    (hv : Holds octets (.ok v)) : overrides s path = overridesOf v := by
  obtain ⟨t, ht, hread⟩ := hv
  rw [overrides_of_text h ht, hread]

theorem wrong_of_overrides (h : s.read (Path.ofText path) = .ok octets) {e : Failure}
    (he : overrides s path = .error e) : Wrong (Path.ofText path) octets e := by
  rcases ht : Text.ofUtf8 octets with f | t
  · rw [overrides_of_encoding h ht] at he
    cases he
    exact .encoding ht
  rw [overrides_of_text h ht] at he
  split at he
  · rename_i hread
    cases he
    exact .malformed ⟨t, ht, hread⟩
  · rename_i f hf hread
    cases he
    by_cases hend : f = .endless
    · subst hend
      exact .endless ⟨t, ht, hread⟩
    · exact .scalar ⟨t, ht, hread⟩ hf hend
  · rename_i v hread
    have hv : Holds octets (.ok v) := ⟨t, ht, hread⟩
    unfold overridesOf at he
    split at he
    · cases he
    · obtain ⟨before, ⟨k, v⟩, after, rfl, hbefore, hentry⟩ := mapM_eq_error_iff.1 he
      rcases entryOverride_error hentry with ⟨p, rfl⟩ | ⟨rfl, hk⟩
      · exact .setting hv hbefore hentry
      · exact .longKey hv hbefore hk
    · rename_i hnull hmap
      cases he
      exact .noMapping hv hnull hmap

theorem overrides_of_wrong (h : s.read (Path.ofText path) = .ok octets) {e : Failure}
    (he : Wrong (Path.ofText path) octets e) : overrides s path = .error e := by
  have hentries {before after : List (Value × Value)} {entry : Value × Value} {e : Failure}
      (hv : Holds octets (.ok (.map (before ++ entry :: after))))
      (hbefore : ∀ b ∈ before, ∃ o, entryOverride b = .ok o)
      (hentry : entryOverride entry = .error e) : overrides s path = .error e := by
    rw [overrides_of_value h hv]
    exact mapM_eq_error_iff.2 ⟨before, entry, after, rfl, hbefore, hentry⟩
  cases he with
  | encoding hf => exact overrides_of_encoding h hf
  | malformed hread =>
    obtain ⟨t, ht, hread⟩ := hread
    rw [overrides_of_text h ht, hread]
  | endless hread =>
    obtain ⟨t, ht, hread⟩ := hread
    rw [overrides_of_text h ht, hread]
  | @scalar f hread hf _ =>
    obtain ⟨t, ht, hread⟩ := hread
    rw [overrides_of_text h ht, hread]
    cases f <;> first | rfl | exact absurd rfl hf
  | @noMapping v hv hnull hmap =>
    rw [overrides_of_value h hv]
    cases v <;> first | rfl | exact absurd rfl hnull | exact absurd rfl (hmap _)
  | setting hv hbefore hentry => exact hentries hv hbefore hentry
  | longKey hv hbefore hk => exact hentries hv hbefore (entryOverride_of_longKey hk _)

theorem overrides_eq_error_iff (h : s.read (Path.ofText path) = .ok octets) {e : Failure} :
    overrides s path = .error e ↔ Wrong (Path.ofText path) octets e :=
  ⟨wrong_of_overrides h, overrides_of_wrong h⟩

end

/-! ### Commands -/

theorem load_of_overrides_ok {s : Store} {path : Text} {os : List Override} (hne : path ≠ [])
    (h : overrides s path = .ok os) : load s (some path) = .ok (os.foldl apply {}) := by
  obtain ⟨c, r, rfl⟩ := List.exists_cons_of_ne_nil hne
  simp only [load, h, Except.map]

theorem load_of_overrides_error {s : Store} {path : Text} {e : Failure} (hne : path ≠ [])
    (h : overrides s path = .error e) : load s (some path) = .error e := by
  obtain ⟨c, r, rfl⟩ := List.exists_cons_of_ne_nil hne
  simp only [load, h, Except.map]

end Settings

namespace Command

open Settings (Wrong load)

/-- The commands that get to a file of settings. They have a format that they know, and if there is
a batch it has been loaded. -/
inductive TakesSettings (s : Store) (path : Text) : Command → Prop
  | expand {expression format : Text} {single : Bool} {f : ExpandFormat} : path ≠ [] →
    expandFormats.lookup format = some f →
    TakesSettings s path (.expand expression single format (some path))
  | batch {file format : Text} {out : Option Text} {f : BatchFormat} {b : Batch} : path ≠ [] →
    batchFormats.lookup format = some f → Batch.load s file = .ok b →
    TakesSettings s path (.batch file format (some path) out)

variable {s : Store} {path : Text} {c : Command}

theorem TakesSettings.ne_nil (h : c.TakesSettings s path) : path ≠ [] := by
  cases h <;> assumption

theorem TakesSettings.ending (h : c.TakesSettings s path) {e : Settings.Failure}
    (he : load s (some path) = .error e) :
    (run s c).ending = settingsFailure (some path) e := by
  cases h with
  | expand _ hf => simp only [run, runExpand, hf, he]
  | batch _ hf hb => simp only [run, runBatch, hf, hb, he]

/-- What is wrong and is no problem of the settings cuts a command short. -/
theorem settingsFailure_of_wrong {p : Path} {octets : List UInt8} {e : Settings.Failure}
    (h : Wrong p octets e) (he : ∀ q, e ≠ .problem q) (path : Option Text) :
    ∃ i, settingsFailure path e = .interrupted i := by
  cases h with
  | encoding => exact ⟨_, rfl⟩
  | endless => exact ⟨_, rfl⟩
  | scalar => exact ⟨_, rfl⟩
  | longKey => exact ⟨_, rfl⟩
  | _ => exact absurd rfl (he _)

end Command

namespace Settings

def datedOctets : List UInt8 :=
  "default_tag: 2001-99-99\n".toList.map fun c => c.toNat.toUInt8

def endlessOctets : List UInt8 :=
  "default_tag: &a !!str \x7b=: *a\x7d\n".toList.map fun c => c.toNat.toUInt8

/-- One file sets the tag to a day that does not exist, one is no text, and one sets the tag to the
scalar of a mapping that gives itself. -/
def faultyStore : Store where
  entries :=
    [(["c.yaml"], .file datedOctets), (["d.yaml"], .file [0xff]), (["e.yaml"], .file endlessOctets)]

end Settings

end Shorthand

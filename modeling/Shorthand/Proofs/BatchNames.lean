import Mathlib.Data.List.Range
import Shorthand.Batch
import Shorthand.Proofs.LastWins
import Shorthand.Proofs.Result
import Shorthand.Proofs.Token

/-!
# The names of a batch

No two expressions of a batch have the same name, however its file lists them (`nodup_load`): the
positions of a list differ, and an entry of a mapping takes the place of an earlier one of its name.
Names are the same if they differ in nothing but the blanks around them. Of such names in a mapping
the last expression is loaded and the others are lost; without them the expressions are those of the
mapping, in order (`mapping_of_load`).
-/

namespace Shorthand

namespace Batch

def names (b : Batch) : List Text :=
  b.map (·.1)

theorem nodup_positions (n count : Nat) : ((List.range' n count).map Text.decimal).Nodup :=
  (List.nodup_range' ..).map fun _ _ h => Text.decimal_injective h

theorem names_numbered : ∀ (n : Nat) (es : List Text),
    names (numbered n es) = (List.range' n es.length).map Text.decimal
  | _, [] => rfl
  | n, _ :: es => congrArg (Text.decimal n :: ·) (names_numbered (n + 1) es)

theorem names_ofItems : ∀ {n : Nat} {items : List Value} {b : Batch}, ofItems n items = .ok b →
    names b = (List.range' n items.length).map Text.decimal
  | _, [], _, h => by
    cases h
    rfl
  | n, v :: items, b, h => by
    rw [ofItems] at h
    split at h
    · rcases hr : ofItems (n + 1) items with q | c <;> rw [hr] at h <;> cases h
      exact congrArg (Text.decimal n :: ·) (names_ofItems hr)
    · cases h

theorem nodup_put {b : Batch} (h : (names b).Nodup) (name expression : Text) :
    (names (Entries.put name expression b)).Nodup := by
  unfold names
  rcases Entries.keys_put name expression b with ⟨-, hput⟩ | ⟨hmem, hput⟩ <;> rw [hput]
  · exact h
  · rw [← List.concat_eq_append]
    exact h.concat hmem

theorem nodup_addEntry {b c : Batch} {entry : Value × Value} (h : (names b).Nodup)
    (hc : addEntry b entry = .ok c) : (names c).Nodup := by
  unfold addEntry at hc
  split at hc
  · cases hc
  split_ifs at hc
  split at hc
  · cases hc
    exact nodup_put h ..
  · cases hc

theorem nodup_foldlM : ∀ {entries : List (Value × Value)} {b c : Batch}, (names b).Nodup →
    entries.foldlM addEntry b = .ok c → (names c).Nodup
  | [], _, _, h, hc => by
    cases hc
    exact h
  | _ :: _, _, _, h, hc => by
    rw [List.foldlM_cons] at hc
    obtain ⟨d, hd, hc⟩ := bind_eq_ok_iff.1 hc
    exact nodup_foldlM (nodup_addEntry h hd) hc

theorem nodup_ofValue {v : Value} {b : Batch} (h : ofValue v = .ok b) : (names b).Nodup := by
  unfold ofValue at h
  split at h
  · cases h
    exact List.nodup_nil
  · rw [names_ofItems h]
    exact nodup_positions ..
  · refine nodup_foldlM ?_ h
    exact List.nodup_nil
  · cases h

theorem nodup_ofText {format : Format} {t : Text} {b : Batch} (h : ofText format t = .ok b) :
    (names b).Nodup := by
  unfold ofText at h
  split at h
  · cases h
    rw [ofLines, names_numbered]
    exact nodup_positions ..
  · split at h
    · exact nodup_ofValue h
    · cases h
  · split at h
    · exact nodup_ofValue h
    · cases h

theorem nodup_load {s : Store} {path : Text} {b : Batch} (h : load s path = .ok b) :
    (names b).Nodup := by
  unfold load at h
  dsimp only at h
  split at h
  · cases h
  · cases h
  split at h
  · cases h
  split at h
  · cases h
  split at h
  · rename_i hb
    cases h
    exact nodup_ofText hb
  · cases h

/-! ### Mappings -/

/-- What is stored of an entry: the expression, under the name without the blanks around it. -/
def StoredAs (entry : Value × Value) (p : Text × Text) : Prop :=
  ∃ name, entry = (.text name, .text p.2) ∧ p.1 = Text.trim name

theorem text?_eq_some_iff {v : Value} {t : Text} : v.text? = some t ↔ v = .text t := by
  cases v <;> simp [Value.text?]

theorem exists_of_addEntry {b c : Batch} {entry : Value × Value} (h : addEntry b entry = .ok c) :
    ∃ p, StoredAs entry p ∧ c = Entries.put p.1 p.2 b := by
  unfold addEntry at h
  split at h
  · cases h
  rename_i name hname
  split_ifs at h
  split at h
  · rename_i e he
    refine ⟨(Text.trim name, e), ⟨name, ?_, rfl⟩, (Except.ok.inj h).symm⟩
    exact Prod.ext (text?_eq_some_iff.1 hname) (text?_eq_some_iff.1 he)
  · cases h

/-- What has been stored so far goes on with what is stored of the entries. -/
theorem exists_of_foldlM : ∀ {entries : List (Value × Value)} {done : List (Text × Text)}
    {b c : Batch}, LastWins done b → entries.foldlM addEntry b = .ok c →
    ∃ pairs, List.Forall₂ StoredAs entries pairs ∧ LastWins (done ++ pairs) c
  | [], done, b, c, hb, h => by
    cases h
    exact ⟨[], .nil, by rwa [List.append_nil]⟩
  | entry :: entries, done, b, c, hb, h => by
    rw [List.foldlM_cons] at h
    obtain ⟨d, hd, h⟩ := bind_eq_ok_iff.1 h
    obtain ⟨p, hp, rfl⟩ := exists_of_addEntry hd
    obtain ⟨pairs, hpairs, hc⟩ := exists_of_foldlM (hb.put p.1 p.2) h
    refine ⟨p :: pairs, .cons hp hpairs, ?_⟩
    rwa [← List.append_cons] at hc

/-- The value of the document at a path, in the format that the suffix tells. -/
inductive Decodes (s : Store) (path : Text) (v : Value) : Prop
  | yaml {t : Text} : s.document (Path.ofText path) = .ok t →
    formatOf (Path.ofText path) = some .yaml → Yaml.read 1 t = .ok v → Decodes s path v
  | json {t : Text} : s.document (Path.ofText path) = .ok t →
    formatOf (Path.ofText path) = some .json → Json.read t = .ok v → Decodes s path v

theorem Decodes.ofValue {s : Store} {path : Text} {v : Value} {b : Batch} (h : Decodes s path v)
    (hb : load s path = .ok b) : ofValue v = .ok b := by
  unfold load at hb
  dsimp only at hb
  split at hb
  · cases hb
  · cases hb
  rcases h with ⟨ht, hf, hv⟩ | ⟨ht, hf, hv⟩
  all_goals
    rw [ht] at hb
    simp only [hf, ofText, hv] at hb
    split at hb
    · rename_i hvalue
      cases hb
      exact hvalue
    · cases hb

/-- A mapping that is loaded gives an expression for each name without the blanks around it: each
such name in its first place, with the expression that comes last. So what the mapping holds is
there in full if and only if no two of its names are the same without these blanks, and then it is
there in order. -/
theorem mapping_of_load {s : Store} {path : Text} {entries : List (Value × Value)} {b : Batch}
    (h : Decodes s path (.map entries)) (hb : load s path = .ok b) :
    ∃ pairs, List.Forall₂ StoredAs entries pairs ∧ LastWins pairs b
      ∧ ((names pairs).Nodup → b = pairs) ∧ (b.length = entries.length ↔ (names pairs).Nodup) := by
  obtain ⟨pairs, hpairs, hlast⟩ := exists_of_foldlM .nil (h.ofValue hb)
  rw [List.nil_append] at hlast
  refine ⟨pairs, hpairs, hlast, hlast.eq_of_nodup, ?_⟩
  rw [hpairs.length_eq]
  exact hlast.length_eq_iff

/-- The entries of a mapping from texts to texts. -/
def textEntries? : Value → Option (List (Text × Text))
  | .map entries => entries.mapM fun entry => do return (← entry.1.text?, ← entry.2.text?)
  | _ => none

def textEntry (p : Text × Text) : Value × Value :=
  (.text p.1, .text p.2)

theorem eq_of_textEntries? {v : Value} {ps : List (Text × Text)} (h : textEntries? v = some ps) :
    v = .map (ps.map textEntry) := by
  unfold textEntries? at h
  split at h
  · rename_i entries
    congr 1
    induction entries generalizing ps with
    | nil =>
      cases h
      rfl
    | cons entry entries ih =>
      obtain ⟨k, v⟩ := entry
      simp only [List.mapM_cons, bind, pure, Option.bind_eq_some_iff, Option.some.injEq,
        text?_eq_some_iff] at h
      obtain ⟨p, ⟨name, rfl, e, rfl, rfl⟩, rest, hrest, rfl⟩ := h
      rw [ih hrest]
      rfl
  · cases h

/-- Two of the names are the same but for an em space. -/
def spacedStore : Store where
  entries := [(["b.json"], .file
    ("\x7b\"card\": \"a\", \"link\": \"b\", \"\\u2003card\": \"i\"\x7d".toList.map
      fun c => c.toNat.toUInt8))]

def spacedEntries : List (Text × Text) :=
  [("card", "a"), ("link", "b"), ("\u2003card", "i")]

def spacedBatch : Batch :=
  [("card", "i"), ("link", "b")]

theorem load_spaced : load spacedStore "b.json" = .ok spacedBatch := by
  decide +kernel

theorem decodes_spaced : Decodes spacedStore "b.json" (.map (spacedEntries.map textEntry)) := by
  let t : Text := "\x7b\"card\": \"a\", \"link\": \"b\", \"\\u2003card\": \"i\"\x7d"
  have hread : (Json.read t).toOption.bind textEntries? = some spacedEntries := by decide +kernel
  obtain ⟨v, hv, hentries⟩ := Option.bind_eq_some_iff.1 hread
  rw [← eq_of_textEntries? hentries]
  rcases hj : Json.read t with f | w <;> rw [hj] at hv <;> cases hv
  exact .json (by decide +kernel) (by decide +kernel) hj

theorem mapping_of_load_spaced :
    Decodes spacedStore "b.json" (.map (spacedEntries.map textEntry))
      ∧ load spacedStore "b.json" = .ok spacedBatch
      ∧ ∃ pairs, List.Forall₂ StoredAs (spacedEntries.map textEntry) pairs
        ∧ LastWins pairs spacedBatch ∧ ((names pairs).Nodup → spacedBatch = pairs)
        ∧ (spacedBatch.length = (spacedEntries.map textEntry).length ↔ (names pairs).Nodup) :=
  ⟨decodes_spaced, load_spaced, mapping_of_load decodes_spaced load_spaced⟩

/-- The first expression is lost. -/
theorem lost_of_load_spaced :
    Decodes spacedStore "b.json" (.map (spacedEntries.map textEntry))
      ∧ load spacedStore "b.json" = .ok spacedBatch
      ∧ spacedBatch.length ≠ (spacedEntries.map textEntry).length
      ∧ ∀ p ∈ spacedBatch, ¬ StoredAs (.text "card", .text "a") p := by
  refine ⟨decodes_spaced, load_spaced, by decide, ?_⟩
  rintro p hp ⟨name, hentry, -⟩
  have hlost : ∀ q ∈ spacedBatch, Text.ofString "a" ≠ q.2 := by decide
  exact hlost p hp (Value.text.inj (Prod.mk.inj hentry).2)

end Batch

end Shorthand

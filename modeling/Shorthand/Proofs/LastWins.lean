import Mathlib.Data.List.Induction
import Mathlib.Data.List.Nodup
import Mathlib.Tactic.SplitIfs
import Shorthand.Entries
import Shorthand.Text.Basic

/-!
# The last value in the first place

Values are given to names one after the other, and a name may come up again. It keeps its first
place then and takes the new value, so that the names are listed in the order in which they first
come up, each with the value that comes last (`LastWins`). All values are there if and only if no
name comes up twice (`LastWins.length_eq_iff`), and nothing changes then (`LastWins.eq_of_nodup`).
-/

namespace Shorthand

/-! ### First occurrences -/

section

variable {α : Type} [BEq α] [LawfulBEq α] {ks : List α} {k : α}

theorem eraseDups_concat_of_mem (h : k ∈ ks) : (ks ++ [k]).eraseDups = ks.eraseDups := by
  have hnone : [k].removeAll ks = [] := by simp [List.removeAll, h]
  rw [List.eraseDups_append, hnone, List.eraseDups_nil, List.append_nil]

theorem eraseDups_concat_of_notMem (h : k ∉ ks) :
    (ks ++ [k]).eraseDups = ks.eraseDups ++ [k] := by
  have hone : [k].removeAll ks = [k] := by simp [List.removeAll, h]
  rw [List.eraseDups_append, hone, List.eraseDups_cons, List.filter_nil, List.eraseDups_nil]

theorem eraseDups_sublist (ks : List α) : ks.eraseDups.Sublist ks := by
  induction ks using List.reverseRecOn with
  | nil => exact List.Sublist.refl _
  | append_singleton ks k ih =>
    by_cases h : k ∈ ks
    · rw [eraseDups_concat_of_mem h]
      exact ih.trans (List.sublist_append_left ks [k])
    · rw [eraseDups_concat_of_notMem h]
      exact ih.append_right [k]

theorem nodup_eraseDups (ks : List α) : ks.eraseDups.Nodup := by
  induction ks using List.reverseRecOn with
  | nil => exact List.nodup_nil
  | append_singleton ks k ih =>
    by_cases h : k ∈ ks
    · rwa [eraseDups_concat_of_mem h]
    · rw [eraseDups_concat_of_notMem h, ← List.concat_eq_append]
      exact ih.concat fun hk => h (List.mem_eraseDups.1 hk)

theorem eraseDups_eq_self (h : ks.Nodup) : ks.eraseDups = ks := by
  induction ks using List.reverseRecOn with
  | nil => rfl
  | append_singleton ks k ih =>
    rw [← List.concat_eq_append, List.nodup_concat] at h
    rw [eraseDups_concat_of_notMem h.1, ih h.2]

/-- The first member that satisfies `p` is the first one of its kind. -/
theorem find?_eraseDups (p : α → Bool) (ks : List α) :
    ks.eraseDups.find? p = ks.find? p := by
  induction ks using List.reverseRecOn with
  | nil => rfl
  | append_singleton ks k ih =>
    by_cases h : k ∈ ks
    · rw [eraseDups_concat_of_mem h, ih, List.find?_append]
      rcases hk : [k].find? p with _ | l
      · rw [Option.or_none]
      · -- An item that is found a second time was found before.
        obtain rfl := List.mem_singleton.1 (List.mem_of_find?_eq_some hk)
        have hfound : (ks.find? p).isSome := List.find?_isSome.2 ⟨l, h, List.find?_some hk⟩
        obtain ⟨first, hfirst⟩ := Option.isSome_iff_exists.1 hfound
        rw [hfirst, Option.some_or]
    · rw [eraseDups_concat_of_notMem h, List.find?_append, List.find?_append, ih]

theorem length_eraseDups_eq_iff : ks.eraseDups.length = ks.length ↔ ks.Nodup := by
  constructor
  · intro h
    rw [← (eraseDups_sublist ks).eq_of_length h]
    exact nodup_eraseDups ks
  · intro h
    rw [eraseDups_eq_self h]

end

/-! ### Values of names -/

section

variable {l m : List (Text × Text)} {k v : Text}

theorem lookup_cons_eq {β : Type} (p : Text × β) (l : List (Text × β)) (k : Text) :
    (p :: l).lookup k = if k = p.1 then some p.2 else l.lookup k := by
  rw [List.lookup_cons]
  split_ifs with h
  · rw [beq_iff_eq.2 h]
  · rw [beq_eq_false_iff_ne.2 h]

theorem lookup_eq_some_iff_mem (h : (l.map (·.1)).Nodup) : l.lookup k = some v ↔ (k, v) ∈ l := by
  induction l with
  | nil => simp
  | cons p l ih =>
    obtain ⟨hp, hl⟩ := List.nodup_cons.1 h
    by_cases hk : k = p.1
    · subst hk
      have hnot : (p.1, v) ∉ l := fun hm => hp (List.mem_map.2 ⟨(p.1, v), hm, rfl⟩)
      rw [List.lookup_cons_self, Option.some.injEq, List.mem_cons, or_iff_left hnot]
      simp [Prod.ext_iff, eq_comm]
    · rw [lookup_cons_eq, if_neg hk, ih hl, List.mem_cons]
      simp [Prod.ext_iff, hk]

/-- Where no name comes up twice, the last value of a name is its first. -/
theorem lookup_reverse (h : (l.map (·.1)).Nodup) (k : Text) : l.reverse.lookup k = l.lookup k := by
  have hrev : (l.reverse.map (·.1)).Nodup := by
    rw [List.map_reverse]
    exact List.nodup_reverse.2 h
  ext v
  rw [lookup_eq_some_iff_mem hrev, List.mem_reverse, lookup_eq_some_iff_mem h]

theorem eq_map_lookup (h : (l.map (·.1)).Nodup) :
    l = (l.map (·.1)).map fun k => (k, (l.lookup k).getD []) := by
  nth_rewrite 1 [← List.map_id l]
  rw [List.map_map]
  refine List.map_congr_left fun p hp => ?_
  have hvalue : l.lookup p.1 = some p.2 := (lookup_eq_some_iff_mem h).2 hp
  rw [Function.comp_apply, hvalue]
  rfl

/-- Names and their values tell a list in which no name comes up twice. -/
theorem eq_of_lookup (h : (l.map (·.1)).Nodup) (hnames : l.map (·.1) = m.map (·.1))
    (hvalues : ∀ k, l.lookup k = m.lookup k) : l = m := by
  have hm := eq_map_lookup (hnames ▸ h)
  rw [← hnames] at hm
  rw [eq_map_lookup h, hm]
  simp only [hvalues]

end

/-- Each name once, in the order in which the names of `pairs` first come up, with the value that
comes last. -/
structure LastWins (pairs resolved : List (Text × Text)) : Prop where
  names : resolved.map (·.1) = (pairs.map (·.1)).eraseDups
  values : ∀ name, resolved.lookup name = pairs.reverse.lookup name

namespace LastWins

variable {pairs resolved next : List (Text × Text)}

theorem nil : LastWins [] [] :=
  ⟨rfl, fun _ => rfl⟩

/-- One more value counts from now on. -/
theorem put (h : LastWins pairs resolved) (name value : Text) :
    LastWins (pairs ++ [(name, value)]) (Entries.put name value resolved) := by
  refine ⟨?_, fun k => ?_⟩
  · have hkeys := Entries.keys_put name value resolved
    rw [h.names, List.mem_eraseDups] at hkeys
    rw [List.map_append, List.map_singleton]
    rcases hkeys with ⟨hmem, hput⟩ | ⟨hmem, hput⟩
    · rw [hput, eraseDups_concat_of_mem hmem]
    · rw [hput, eraseDups_concat_of_notMem hmem]
  · rw [Entries.lookup_put, h.values, List.reverse_append, List.reverse_singleton,
      List.singleton_append, lookup_cons_eq]
    simp only [beq_iff_eq]

theorem foldl : ∀ {pairs done resolved : List (Text × Text)}, LastWins done resolved →
    LastWins (done ++ pairs) (pairs.foldl (fun entries (k, v) => Entries.put k v entries) resolved)
  | [], done, resolved, h => by rwa [List.append_nil]
  | (name, value) :: pairs, done, resolved, h => by
    rw [List.foldl_cons, List.append_cons]
    exact foldl (h.put name value)

theorem putAll (pairs : List (Text × Text)) : LastWins pairs (Entries.putAll pairs) :=
  foldl nil

theorem nodup (h : LastWins pairs resolved) : (resolved.map (·.1)).Nodup :=
  h.names ▸ nodup_eraseDups _

theorem eq_of_nodup (h : LastWins pairs resolved) (hn : (pairs.map (·.1)).Nodup) :
    resolved = pairs := by
  refine eq_of_lookup h.nodup (h.names.trans (eraseDups_eq_self hn)) fun k => ?_
  rw [h.values, lookup_reverse hn]

/-- A list in which no name comes up twice stays as it is. -/
theorem of_nodup (hn : (pairs.map (·.1)).Nodup) : LastWins pairs pairs :=
  ⟨(eraseDups_eq_self hn).symm, fun k => (lookup_reverse hn k).symm⟩

/-- The names and their values leave no choice. -/
theorem unique (h : LastWins pairs resolved) (h' : LastWins pairs next) : resolved = next :=
  eq_of_lookup h.nodup (h.names.trans h'.names.symm) fun k => by rw [h.values, h'.values]

theorem length_eq_iff (h : LastWins pairs resolved) :
    resolved.length = pairs.length ↔ (pairs.map (·.1)).Nodup := by
  have hlength := congrArg List.length h.names
  rw [List.length_map] at hlength
  rw [← length_eraseDups_eq_iff, hlength, List.length_map]

end LastWins

end Shorthand

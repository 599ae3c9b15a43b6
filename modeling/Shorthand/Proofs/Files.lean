import Mathlib.Tactic.SplitIfs
import Shorthand.Proofs.Result
import Shorthand.Store

/-!
# Writing files

What is written to a file is read from it (`Store.read_of_write`): the folders that lead to the file
are still there when it has been put in its place, because that place is none of them.
-/

namespace Shorthand

namespace Store

variable {s : Store} {names n m : List Text} {e : Entry}

theorem find_put_self : (s.put names e).find names = some e := by
  simp [find, put, Entries.lookup_put]

/-- A folder stays where it is. -/
theorem find_put_of_folder (hn : s.find n = some .folder) (hne : n ≠ names) :
    (s.put names e).find n = some .folder := by
  rw [find] at hn ⊢
  rw [put, Entries.lookup_put, if_neg (by simpa using hne)]
  split at hn
  · exact hn
  · split_ifs at hn with hany
    refine if_pos ?_
    rw [Bool.or_eq_true, List.any_eq_true] at hany ⊢
    refine hany.imp_right fun ⟨p, hp, hbelow⟩ => ?_
    have hkey : p.1 ∈ (Entries.put names e s.entries).map (·.1) :=
      Entries.mem_keys_put.2 (.inr (List.mem_map_of_mem hp))
    obtain ⟨⟨k, f⟩, hf, rfl : k = p.1⟩ := List.mem_map.1 hkey
    exact ⟨(p.1, f), hf, hbelow⟩

theorem find_of_step {name : Text} (h : s.step n name = .ok m) : s.find n = some .folder := by
  unfold step at h
  split at h <;> first | assumption | cases h

theorem step_put {name : Text} (hnames : s.find names ≠ some .folder)
    (h : s.step n name = .ok m) : (s.put names e).step n name = .ok m := by
  have hn := find_of_step h
  have hne : n ≠ names := fun he => hnames (he ▸ hn)
  unfold step at h ⊢
  rw [hn] at h
  rw [find_put_of_folder hn hne]
  exact h

/-- A path leads where it led before, since all that it goes through are folders. -/
theorem foldlM_step_put (hnames : s.find names ≠ some .folder) : ∀ {path n m : List Text},
    path.foldlM s.step n = .ok m → path.foldlM (s.put names e).step n = .ok m
  | [], _, _, h => h
  | name :: path, n, m, h => by
    rw [List.foldlM_cons] at h ⊢
    obtain ⟨k, hk, h⟩ := bind_eq_ok_iff.1 h
    exact bind_eq_ok_iff.2 ⟨k, step_put hnames hk, foldlM_step_put hnames h⟩

theorem locate_put {p : Path} (hnames : s.find names ≠ some .folder) (h : s.locate p = .ok m) :
    (s.put names e).locate p = .ok m := by
  unfold locate at h ⊢
  split_ifs at h ⊢
  · exact foldlM_step_put hnames h
  · exact foldlM_step_put hnames h

/-- Writing may make a file or replace one; in both cases its content is what is read then. -/
theorem read_of_write {p : Path} {content : List UInt8} {s' : Store}
    (h : s.write p content = .ok s') : s'.read p = .ok content := by
  unfold write at h
  split_ifs at h with hnull
  · cases h
  obtain ⟨s₁, -, h⟩ := bind_eq_ok_iff.1 h
  split at h
  · cases h
  rename_i names hlocate
  have hfind : s₁.find names ≠ some .folder ∧ s' = s₁.put names (.file content) := by
    split at h
    · cases h
    · rename_i hne
      exact ⟨fun hf => hne hf, (Except.ok.inj h).symm⟩
  obtain ⟨hfolder, rfl⟩ := hfind
  have hread : (s₁.put names (.file content)).lookupPath p = .ok (.file content) := by
    rw [lookupPath, if_neg hnull, locate_put hfolder hlocate]
    simp only [find_put_self]
  rw [read, hread]
  rfl

end Store

end Shorthand

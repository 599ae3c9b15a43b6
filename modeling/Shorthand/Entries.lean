/-!
# Entries

Values under keys, as a list in which each key keeps the place where it first came up.
-/

namespace Shorthand

namespace Entries

variable {κ α : Type}

/-- Puts a value under a key: in the place of the first key that is the same, or else at the end. -/
def putBy (same : κ → κ → Bool) (key : κ) (value : α) : List (κ × α) → List (κ × α)
  | [] => [(key, value)]
  | (k, v) :: r => if same k key then (k, value) :: r else (k, v) :: putBy same key value r

/-- Puts values under their keys one after the other. -/
def putAllBy (same : κ → κ → Bool) (pairs : List (κ × α)) : List (κ × α) :=
  pairs.foldl (fun entries (k, v) => putBy same k v entries) []

section

variable [BEq κ]

def put (key : κ) (value : α) (entries : List (κ × α)) : List (κ × α) :=
  putBy (· == ·) key value entries

def putAll (pairs : List (κ × α)) : List (κ × α) :=
  putAllBy (· == ·) pairs

variable [LawfulBEq κ] {key : κ}

/-- A new key comes last. -/
theorem keys_put (key : κ) (value : α) : ∀ entries : List (κ × α),
    key ∈ entries.map (·.1) ∧ (put key value entries).map (·.1) = entries.map (·.1)
      ∨ key ∉ entries.map (·.1) ∧ (put key value entries).map (·.1) = entries.map (·.1) ++ [key]
  | [] => .inr ⟨List.not_mem_nil, rfl⟩
  | (k, v) :: r => by
    have ih := keys_put key value r
    unfold put at ih ⊢
    by_cases h : k = key
    · simp [putBy, h]
    · have hne : ¬ key = k := fun he => h he.symm
      simpa [putBy, h, hne] using ih

theorem mem_keys_put {k : κ} {value : α} {entries : List (κ × α)} :
    k ∈ (put key value entries).map (·.1) ↔ k = key ∨ k ∈ entries.map (·.1) := by
  rcases keys_put key value entries with ⟨hmem, hput⟩ | ⟨-, hput⟩ <;> rw [hput]
  · exact ⟨.inr, fun h => h.elim (fun he => he ▸ hmem) id⟩
  · rw [List.mem_append, List.mem_singleton, or_comm]

theorem lookup_put (key : κ) (value : α) (k : κ) : ∀ entries : List (κ × α),
    (put key value entries).lookup k = if k == key then some value else entries.lookup k
  | [] => by
    rcases h : k == key <;> simp [put, putBy, List.lookup_cons, h]
  | (k', v) :: r => by
    have ih := lookup_put key value k r
    unfold put at ih ⊢
    by_cases h : k' = key
    · rcases hk : k == key <;> simp [putBy, List.lookup_cons, h, hk]
    · have hkey : (k' == key) = false := beq_eq_false_iff_ne.2 h
      rcases hk : k == k'
      · simp [putBy, List.lookup_cons, hkey, hk, ih]
      · obtain rfl := eq_of_beq hk
        simp [putBy, hkey]

end

end Entries

end Shorthand

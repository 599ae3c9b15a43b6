import Mathlib.Data.List.Forall2

/-!
# Results and errors

Where an error of a composed computation comes from, and when there is none. `Settles` lists what is
wrong in the order in which it is found, so that the first on the list is the error.
-/

namespace Shorthand

variable {ε α β : Type} {e : ε}

theorem error_of_bind {a : Except ε α} {k : α → Except ε β} (h : a >>= k = .error e) :
    a = .error e ∨ ∃ x, a = .ok x ∧ k x = .error e := by
  rcases a with d | x
  · cases h
    exact .inl rfl
  · exact .inr ⟨x, rfl, h⟩

theorem error_of_map {a : Except ε α} {f : α → β} (h : f <$> a = .error e) : a = .error e := by
  rcases a with d | x <;> cases h
  rfl

/-- The error is that of the first item that has one. -/
theorem mapM_eq_error_iff {f : α → Except ε β} {xs : List α} :
    xs.mapM f = .error e ↔ ∃ before x after, xs = before ++ x :: after
      ∧ (∀ y ∈ before, ∃ z, f y = .ok z) ∧ f x = .error e := by
  constructor
  · intro h
    induction xs with
    | nil => cases h
    | cons x xs ih =>
      rw [List.mapM_cons] at h
      rcases error_of_bind h with h | ⟨y, hy, h⟩
      · exact ⟨[], x, xs, rfl, nofun, h⟩
      rcases error_of_bind h with h | ⟨ys, -, h⟩
      · obtain ⟨before, z, after, rfl, hbefore, hz⟩ := ih h
        exact ⟨x :: before, z, after, rfl, List.forall_mem_cons.2 ⟨⟨y, hy⟩, hbefore⟩, hz⟩
      · cases h
  · rintro ⟨before, x, after, rfl, hbefore, hx⟩
    induction before with
    | nil => rw [List.nil_append, List.mapM_cons, hx]; rfl
    | cons y before ih =>
      obtain ⟨⟨z, hz⟩, hbefore⟩ := List.forall_mem_cons.1 hbefore
      rw [List.cons_append, List.mapM_cons, hz]
      simp only [ih hbefore, bind, Except.bind]

theorem mem_of_mapM_error {f : α → Except ε β} {xs : List α} (h : xs.mapM f = .error e) :
    ∃ x ∈ xs, f x = .error e := by
  obtain ⟨before, x, after, rfl, -, hx⟩ := mapM_eq_error_iff.1 h
  exact ⟨x, List.mem_append_right _ List.mem_cons_self, hx⟩

theorem mapM_map_ok {ι : Type} {f : α → Except ε β} {a : ι → α} {b : ι → β} {xs : List ι}
    (h : ∀ x ∈ xs, f (a x) = .ok (b x)) : (xs.map a).mapM f = .ok (xs.map b) := by
  induction xs with
  | nil => rfl
  | cons x xs ih =>
    obtain ⟨hx, hxs⟩ := List.forall_mem_cons.1 h
    rw [List.map_cons, List.mapM_cons, hx, ih hxs]
    rfl

theorem bind_eq_ok_iff {a : Except ε α} {k : α → Except ε β} {y : β} :
    a >>= k = .ok y ↔ ∃ x, a = .ok x ∧ k x = .ok y := by
  rcases a with d | x
  · constructor
    · intro h
      cases h
    · rintro ⟨x, h, -⟩
      cases h
  · constructor
    · exact fun h => ⟨x, rfl, h⟩
    · rintro ⟨z, h, hk⟩
      cases h
      exact hk

theorem isOk_iff {a : Except ε α} : a.isOk = true ↔ ∃ x, a = .ok x := by
  rcases a with d | x <;> simp [Except.isOk, Except.toBool]

/-- Every result has an item that it comes from. -/
theorem exists_of_mem_mapM_ok {f : α → Except ε β} {xs : List α} {ys : List β} {y : β}
    (h : xs.mapM f = .ok ys) (hy : y ∈ ys) : ∃ x ∈ xs, f x = .ok y := by
  induction xs generalizing ys with
  | nil =>
    cases h
    cases hy
  | cons x xs ih =>
    rw [List.mapM_cons] at h
    obtain ⟨z, hz, h⟩ := bind_eq_ok_iff.1 h
    obtain ⟨zs, hzs, h⟩ := bind_eq_ok_iff.1 h
    cases h
    rcases List.mem_cons.1 hy with rfl | hy
    · exact ⟨x, List.mem_cons_self, hz⟩
    · obtain ⟨w, hw, hfw⟩ := ih hzs hy
      exact ⟨w, List.mem_cons_of_mem x hw, hfw⟩

theorem exists_of_mem_forall₂ {R : α → β → Prop} {xs : List α} {ys : List β} {x : α}
    (h : List.Forall₂ R xs ys) (hx : x ∈ xs) : ∃ y ∈ ys, R x y := by
  induction h with
  | nil => cases hx
  | cons hxy _ ih =>
    rcases List.mem_cons.1 hx with rfl | hx
    · exact ⟨_, List.mem_cons_self, hxy⟩
    · obtain ⟨y, hy, hxy⟩ := ih hx
      exact ⟨y, List.mem_cons_of_mem _ hy, hxy⟩

/-- There are as many results as items, in the same order. -/
theorem mapM_eq_ok_iff {f : α → Except ε β} {xs : List α} {ys : List β} :
    xs.mapM f = .ok ys ↔ List.Forall₂ (fun x y => f x = .ok y) xs ys := by
  induction xs generalizing ys with
  | nil => cases ys <;> simp [pure, Except.pure]
  | cons x xs ih =>
    rw [List.mapM_cons, bind_eq_ok_iff]
    constructor
    · rintro ⟨y, hy, h⟩
      obtain ⟨zs, hzs, h⟩ := bind_eq_ok_iff.1 h
      rw [← Except.ok.inj h]
      exact .cons hy (ih.1 hzs)
    · rintro (_ | ⟨hy, hzs⟩)
      exact ⟨_, hy, bind_eq_ok_iff.2 ⟨_, ih.2 hzs, rfl⟩⟩

theorem mapM_append_eq_ok_iff {f : α → Except ε β} {xs ys : List α} {zs : List β} :
    (xs ++ ys).mapM f = .ok zs ↔
      ∃ us vs, xs.mapM f = .ok us ∧ ys.mapM f = .ok vs ∧ zs = us ++ vs := by
  rw [List.mapM_append, bind_eq_ok_iff]
  constructor
  · rintro ⟨us, hu, h⟩
    obtain ⟨vs, hv, h⟩ := bind_eq_ok_iff.1 h
    exact ⟨us, vs, hu, hv, (Except.ok.inj h).symm⟩
  · rintro ⟨us, vs, hu, hv, rfl⟩
    exact ⟨us, hu, bind_eq_ok_iff.2 ⟨vs, hv, rfl⟩⟩

/-! ### Errors seen through a function -/

section MapError

variable {δ : Type} {f : ε → δ}

theorem mapError_eq_ok_iff {a : Except ε α} {x : α} : a.mapError f = .ok x ↔ a = .ok x := by
  rcases a with d | y
  · simp [Except.mapError]
  · simp [Except.mapError]

theorem mapError_bind (a : Except ε α) (k : α → Except ε β) :
    (a >>= k).mapError f = a.mapError f >>= fun x => (k x).mapError f := by
  rcases a with d | x <;> rfl

theorem mapError_mapM (k : α → Except ε β) (xs : List α) :
    (xs.mapM k).mapError f = xs.mapM fun x => (k x).mapError f := by
  induction xs with
  | nil => rfl
  | cons x xs ih => simp only [List.mapM_cons, mapError_bind, ← ih]; rfl

end MapError

/-! ### The first error -/

section Settles

variable {δ ι : Type} {es fs : List ε} {x : Except ε α} {P : α → Prop} {Q : β → Prop}

/-- A computation fails with the first of `es`. Without any, it gives a value that satisfies `P`. -/
def Settles (P : α → Prop) : List ε → Except ε α → Prop
  | [], x => ∃ a, x = .ok a ∧ P a
  | e :: _, x => x = .error e

namespace Settles

theorem ok {a : α} (h : P a) : Settles P ([] : List ε) (.ok a) :=
  ⟨a, rfl, h⟩

theorem imp {P' : α → Prop} (h : Settles P es x) (hp : ∀ a, P a → P' a) : Settles P' es x := by
  rcases es with _ | ⟨e, es⟩
  · obtain ⟨a, hx, ha⟩ := h
    exact ⟨a, hx, hp a ha⟩
  · exact h

/-- What can go wrong later comes after what can go wrong before. -/
theorem bind {k : α → Except ε β} (h : Settles P es x) (hk : ∀ a, P a → Settles Q fs (k a)) :
    Settles Q (es ++ fs) (x >>= k) := by
  rcases es with _ | ⟨e, es⟩
  · obtain ⟨a, rfl, ha⟩ := h
    exact hk a ha
  · obtain rfl : x = .error e := h
    rfl

theorem bind_ok {k : α → Except ε β} (h : Settles P es x) (hk : ∀ a, P a → Settles Q [] (k a)) :
    Settles Q es (x >>= k) := by
  simpa using h.bind hk

theorem map {f : α → β} (h : Settles P es x) (hf : ∀ a, P a → Q (f a)) :
    Settles Q es (f <$> x) := by
  rcases es with _ | ⟨e, es⟩
  · obtain ⟨a, rfl, ha⟩ := h
    exact ok (hf a ha)
  · obtain rfl : x = .error e := h
    rfl

theorem mapError (h : Settles P es x) (f : ε → δ) : Settles P (es.map f) (x.mapError f) := by
  rcases es with _ | ⟨e, es⟩
  · obtain ⟨a, rfl, ha⟩ := h
    exact ok ha
  · obtain rfl : x = .error e := h
    rfl

/-- A check that is made first has its error first. -/
theorem guard {c : Prop} [Decidable c] (h : ¬ c → Settles P es x) :
    Settles P ((if c then [e] else []) ++ es) (if c then .error e else x) := by
  split_ifs with hc
  · rfl
  · exact h hc

/-- Each item has a list of its own, and their lists come one after the other. -/
theorem mapM {R : ι → α → Prop} {f : ι → Except ε α} {err : ι → List ε} :
    ∀ {xs : List ι}, (∀ i ∈ xs, Settles (R i) (err i) (f i)) →
      Settles (List.Forall₂ R xs) (xs.flatMap err) (xs.mapM f)
  | [], _ => ok .nil
  | i :: xs, h => by
    obtain ⟨hi, hxs⟩ := List.forall_mem_cons.1 h
    rw [List.mapM_cons, List.flatMap_cons]
    exact hi.bind fun a ha => (mapM hxs).bind_ok fun as has => ok (.cons ha has)

/-- What a step makes of the state does not change what is wrong with the items. -/
theorem foldlM {f : α → ι → Except ε α} {err : ι → List ε} :
    ∀ {xs : List ι} {a : α}, P a → (∀ a, P a → ∀ i ∈ xs, Settles P (err i) (f a i)) →
      Settles P (xs.flatMap err) (xs.foldlM f a)
  | [], _, ha, _ => ok ha
  | i :: xs, a, ha, h => by
    rw [List.foldlM_cons, List.flatMap_cons]
    refine (h a ha i List.mem_cons_self).bind fun b hb => ?_
    exact foldlM hb fun c hc j hj => h c hc j (List.mem_cons_of_mem i hj)

/-- Only the first error counts. -/
theorem of_head?_eq (h : Settles P es x) (he : es.head? = fs.head?) : Settles P fs x := by
  rcases es with _ | ⟨e, es⟩ <;> rcases fs with _ | ⟨f, fs⟩
  · exact h
  · cases he
  · cases he
  · rwa [← Option.some.inj he]

theorem exists_ok_iff (h : Settles P es x) : (∃ a, x = .ok a) ↔ es = [] := by
  rcases es with _ | ⟨e, es⟩
  · obtain ⟨a, rfl, -⟩ := h
    simp
  · obtain rfl : x = .error e := h
    simp

theorem ok_or_mem (h : Settles P es x) : (∃ a, x = .ok a ∧ P a) ∨ ∃ e ∈ es, x = .error e := by
  rcases es with _ | ⟨e, es⟩
  · exact .inl h
  · exact .inr ⟨e, List.mem_cons_self, h⟩

theorem ok_iff {a b : α} (h : Settles (b = ·) es x) : x = .ok a ↔ es = [] ∧ a = b := by
  rcases es with _ | ⟨e, es⟩
  · obtain ⟨c, rfl, rfl⟩ := h
    simp [eq_comm]
  · obtain rfl : x = .error e := h
    simp

theorem error_iff (h : Settles P es x) : x = .error e ↔ es.head? = some e := by
  rcases es with _ | ⟨d, es⟩
  · obtain ⟨a, rfl, -⟩ := h
    simp
  · obtain rfl : x = .error d := h
    simp

end Settles

end Settles

end Shorthand

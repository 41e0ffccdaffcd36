/-
Computations that may fail, taken apart.

# Chains

A chain of steps succeeds when every step does (`Except.bind_eq_ok`), and it
fails at the first step that does (`Except.bind_eq_error`). Proofs about a
chain start here instead of unfolding it: from a chain that succeeded they
obtain what its first step gave and that the rest went on from there.

# Lists

A list is mapped when every item of it is, and the results are in order
(`Except.mapM_eq_ok`). The mapping fails as the first of its items that does
(`Except.mapM_eq_error`): an item is reached if those before it were passed
(`ReachedIn`), so that which of several faults is met is a matter of the
order of the list, and does not depend on what stands behind it.

# Folds

A fold hands its state on. What every step keeps, a fold that succeeded
keeps (`Except.foldlM_keeps`); this carries the invariants of runs.
-/
import Mathlib.Data.List.Forall2

namespace Spreadsheet

variable {ε α β : Type}

theorem ok_bind (a : α) (f : α → Except ε β) : (.ok a >>= f) = f a := rfl

/-- A chain that succeeded did so at its first step and after it. -/
theorem bind_eq_ok {x : Except ε α} {f : α → Except ε β} {b : β} :
    (x >>= f) = .ok b ↔ ∃ a, x = .ok a ∧ f a = .ok b := by
  cases x with
  | error e =>
      constructor
      · intro h
        cases h
      · rintro ⟨_, h, _⟩
        cases h
  | ok a =>
      constructor
      · intro h
        exact ⟨a, rfl, h⟩
      · rintro ⟨_, h, h'⟩
        cases h
        exact h'

/-- A chain that failed did so at its first step or after it. -/
theorem bind_eq_error {x : Except ε α} {f : α → Except ε β} {e : ε} :
    (x >>= f) = .error e ↔ x = .error e ∨ ∃ a, x = .ok a ∧ f a = .error e := by
  cases x with
  | error e' =>
      constructor
      · intro h
        cases h
        exact .inl rfl
      · intro h
        rcases h with h | ⟨a, h, -⟩
        · cases h
          rfl
        · cases h
  | ok a =>
      constructor
      · intro h
        exact .inr ⟨a, rfl, h⟩
      · intro h
        rcases h with h | ⟨a', h, h'⟩
        · cases h
        · cases h
          exact h'

/-- A last step that always succeeds adds no failure. -/
theorem bind_pure_eq_error {x : Except ε α} {f : α → β} {e : ε} :
    (x >>= fun a => pure (f a)) = .error e ↔ x = .error e := by
  rw [bind_eq_error]
  constructor
  · intro h
    rcases h with h | ⟨_, -, h⟩
    · exact h
    · cases h
  · exact .inl

/-- Chains with one first step are the same if they go on alike from
whatever it can yield. -/
theorem bind_congr_ok {x : Except ε α} {f g : α → Except ε β} (h : ∀ a, x = .ok a → f a = g a) :
    (x >>= f) = x >>= g := by
  cases x with
  | error e => rfl
  | ok a => exact h a rfl

theorem mapError_eq_ok {ε' : Type} {x : Except ε α} {f : ε → ε'} {a : α} :
    x.mapError f = .ok a ↔ x = .ok a := by
  cases x with
  | error e => exact ⟨nofun, nofun⟩
  | ok b => exact ⟨fun h => by cases h; rfl, fun h => by cases h; rfl⟩

/-- A fault under another name was a fault before, one that is given
this name. -/
theorem mapError_eq_error {ε' : Type} {x : Except ε α} {f : ε → ε'} {e' : ε'} :
    x.mapError f = .error e' ↔ ∃ e, x = .error e ∧ f e = e' := by
  cases x with
  | error e => exact ⟨fun h => ⟨e, rfl, Except.error.inj h⟩, fun h => by
      obtain ⟨_, heq, hf⟩ := h
      cases heq
      exact congrArg Except.error hf⟩
  | ok b => exact ⟨nofun, fun h => by obtain ⟨_, heq, -⟩ := h; cases heq⟩

theorem toOption_eq_some {x : Except ε α} {a : α} : x.toOption = some a ↔ x = .ok a := by
  cases x with
  | error e => exact ⟨nofun, nofun⟩
  | ok b => exact ⟨fun h => congrArg Except.ok (Option.some.inj h), fun h => by cases h; rfl⟩

/-- Mapping a list succeeds with the results of its items, in order. No
item is passed over, so there are as many results as items. -/
theorem mapM_eq_ok {f : α → Except ε β} {as : List α} {bs : List β} :
    as.mapM f = .ok bs ↔ List.Forall₂ (fun a b => f a = .ok b) as bs := by
  induction as generalizing bs with
  | nil =>
      rw [List.mapM_nil, List.forall₂_nil_left_iff]
      exact ⟨fun h => (Except.ok.inj h).symm, fun h => by rw [h]; rfl⟩
  | cons a as ih =>
      rw [List.mapM_cons, bind_eq_ok, List.forall₂_cons_left_iff]
      constructor
      · rintro ⟨b, hb, h⟩
        obtain ⟨rest, hrest, h⟩ := bind_eq_ok.mp h
        cases h
        exact ⟨b, rest, hb, ih.mp hrest, rfl⟩
      · rintro ⟨b, rest, hb, hrest, rfl⟩
        exact ⟨b, hb, bind_eq_ok.mpr ⟨rest, ih.mpr hrest, rfl⟩⟩

/-- Mapping a list succeeds with the results of its items, given by a
function. -/
theorem mapM_eq_map {f : α → Except ε β} {g : α → β} {as : List α}
    (h : ∀ a ∈ as, f a = .ok (g a)) : as.mapM f = .ok (as.map g) := by
  apply mapM_eq_ok.mpr
  apply List.forall₂_map_right_iff.mpr
  exact List.forall₂_same.mpr h

theorem exists_ok_of_mapM {f : α → Except ε β} {as : List α} {bs : List β}
    (h : as.mapM f = .ok bs) {a : α} (ha : a ∈ as) : ∃ b ∈ bs, f a = .ok b := by
  obtain ⟨i, hi, rfl⟩ := List.mem_iff_getElem.mp ha
  have hforall := mapM_eq_ok.mp h
  have hi' : i < bs.length := hforall.length_eq ▸ hi
  exact ⟨bs[i], List.getElem_mem hi', hforall.get hi hi'⟩

theorem mem_of_mapM {f : α → Except ε β} {as : List α} {bs : List β} (h : as.mapM f = .ok bs)
    {b : β} (hb : b ∈ bs) : ∃ a ∈ as, f a = .ok b := by
  obtain ⟨i, hi, rfl⟩ := List.mem_iff_getElem.mp hb
  have hforall := mapM_eq_ok.mp h
  have hi' : i < as.length := hforall.length_eq ▸ hi
  exact ⟨as[i], List.getElem_mem hi', hforall.get hi' hi⟩

/-- A list is mapped if each item of it succeeds. -/
theorem mapM_ok {f : α → Except ε β} {as : List α} (h : ∀ a ∈ as, ∃ b, f a = .ok b) :
    ∃ bs, as.mapM f = .ok bs := by
  induction as with
  | nil => exact ⟨[], List.mapM_nil⟩
  | cons a as ih =>
      obtain ⟨b, hb⟩ := h a (List.mem_cons_self ..)
      obtain ⟨bs, hbs⟩ := ih fun a' ha' => h a' (List.mem_cons_of_mem _ ha')
      exact ⟨b :: bs, by rw [List.mapM_cons, hb, ok_bind, hbs]; rfl⟩

/-- An item of a list that is reached, the items before it being
passed. -/
inductive ReachedIn (passed : α → Prop) : List α → α → Prop where
  | here {a : α} {as : List α} : ReachedIn passed (a :: as) a
  | past {a b : α} {as : List α} (ha : passed a) (h : ReachedIn passed as b) :
      ReachedIn passed (a :: as) b

theorem not_reachedIn_nil {passed : α → Prop} {b : α} : ¬ ReachedIn passed [] b := nofun

/-- The first item is reached, and past it what is reached behind it, if
the first one was passed. -/
theorem reachedIn_cons {passed : α → Prop} {a b : α} {as : List α} :
    ReachedIn passed (a :: as) b ↔ b = a ∨ (passed a ∧ ReachedIn passed as b) := by
  constructor
  · intro h
    cases h with
    | here => exact .inl rfl
    | past ha h => exact .inr ⟨ha, h⟩
  · intro h
    rcases h with rfl | ⟨ha, h⟩
    · exact .here
    · exact .past ha h

theorem reachedIn_congr {passed passed' : α → Prop} (h : ∀ a, passed a ↔ passed' a) {as : List α}
    {b : α} : ReachedIn passed as b ↔ ReachedIn passed' as b := by
  induction as with
  | nil => exact iff_of_false not_reachedIn_nil not_reachedIn_nil
  | cons a as ih => rw [reachedIn_cons, reachedIn_cons, h a, ih]

/-- Mapping a list fails as the first of its items that does. The items
behind that one are not looked at, and may fail or not. -/
theorem mapM_eq_error {f : α → Except ε β} {as : List α} {e : ε} :
    as.mapM f = .error e ↔ ∃ a, ReachedIn (fun a => ∃ b, f a = .ok b) as a ∧ f a = .error e := by
  induction as with
  | nil =>
      rw [List.mapM_nil]
      exact ⟨nofun, fun ⟨a, h, _⟩ => absurd h not_reachedIn_nil⟩
  | cons a as ih =>
      rw [List.mapM_cons, bind_eq_error]
      constructor
      · intro h
        rcases h with h | ⟨b, hb, h⟩
        · exact ⟨a, .here, h⟩
        · rcases bind_eq_error.mp h with h | ⟨bs, -, h⟩
          · obtain ⟨a', hreached, h⟩ := ih.mp h
            exact ⟨a', .past ⟨b, hb⟩ hreached, h⟩
          · cases h
      · intro ⟨a', hreached, h⟩
        rcases reachedIn_cons.mp hreached with rfl | ⟨⟨b, hb⟩, hreached⟩
        · exact .inl h
        · exact .inr ⟨b, hb, bind_eq_error.mpr (.inl (ih.mpr ⟨a', hreached, h⟩))⟩

/-- Folding a list succeeds if every item does, whatever came before
it. -/
theorem foldlM_ok {f : β → α → Except ε β} {as : List α} (h : ∀ b, ∀ a ∈ as, ∃ b', f b a = .ok b')
    (b : β) : ∃ b', as.foldlM f b = .ok b' := by
  induction as generalizing b with
  | nil => exact ⟨b, rfl⟩
  | cons a as ih =>
      obtain ⟨mid, hmid⟩ := h b a (List.mem_cons_self ..)
      rw [List.foldlM_cons, hmid, ok_bind]
      exact ih (fun b' a' ha' => h b' a' (List.mem_cons_of_mem _ ha')) mid

/-- A fold that succeeded got past each of its items, so whatever a step
asks of an item holds of all. -/
theorem foldlM_each {f : β → α → Except ε β} {p : α → Prop}
    (hstep : ∀ b a b', f b a = .ok b' → p a) {as : List α} {b b' : β}
    (h : as.foldlM f b = .ok b') : ∀ a ∈ as, p a := by
  induction as generalizing b with
  | nil => exact nofun
  | cons a as ih =>
      rw [List.foldlM_cons] at h
      obtain ⟨mid, hmid, h⟩ := bind_eq_ok.mp h
      exact List.forall_mem_cons.mpr ⟨hstep b a mid hmid, ih h⟩

/-- What every step of a fold keeps, a fold that succeeded keeps. This
is how an invariant of one step becomes one of a run. -/
theorem foldlM_keeps {f : β → α → Except ε β} {p : β → Prop}
    (hstep : ∀ b a b', f b a = .ok b' → p b → p b') {as : List α} {b b' : β}
    (h : as.foldlM f b = .ok b') (hb : p b) : p b' := by
  induction as generalizing b with
  | nil =>
      cases h
      exact hb
  | cons a as ih =>
      rw [List.foldlM_cons] at h
      obtain ⟨mid, hmid, h⟩ := bind_eq_ok.mp h
      exact ih h (hstep b a mid hmid hb)

end Spreadsheet

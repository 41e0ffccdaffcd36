/-
The order of texts by their code points, and lists of texts in order.

# The order

The first code points that differ decide, and a text is before all that go
on from it. This is the order of lists of numbers, so its laws are those of
lists (`before_iff_lt`).

# Lists in order

What a cell reads is gone through in this order, each key once
(`sortDistinct`). Two lists with the same members are the same after that,
in whatever order and however often they had them.
-/
import Spreadsheet.Text.Basic

namespace Spreadsheet.Text

-- ====================================================== comparison

/-- Is the first text before the second? The first code points that
differ decide, and a text is before all that go on from it. -/
def before : Text → Text → Bool
  | _, [] => false
  | [], _ :: _ => true
  | a :: s, b :: t =>
    if a.code < b.code then true else if b.code < a.code then false else before s t

theorem before_iff_lt {s t : Text} : before s t = true ↔ s < t := by
  fun_induction before s t with
  | case1 s => simp
  | case2 b t => simp
  | case3 a s b t h => simpa [List.cons_lt_cons_iff] using .inl h
  | case4 a s b t h h' =>
    simp only [Bool.false_eq_true, List.cons_lt_cons_iff, false_iff, not_or, not_and]
    exact ⟨h, fun hab => absurd (hab ▸ h') (Nat.lt_irrefl _)⟩
  | case5 a s b t h h' ih =>
    have hab : a = b := CodePoint.eq_of_code_eq (by omega)
    rw [ih, hab, List.cons_lt_cons_iff]
    exact ⟨fun hst => .inr ⟨rfl, hst⟩,
      fun hcons => hcons.elim (absurd · (Nat.lt_irrefl _)) (·.2)⟩

-- ====================================================== sorted lists

/-- Equal texts, or the first before the second in the order of code
points. -/
def notAfter (s t : Text) : Bool := !before t s

/-- A sorted list without its repetitions. -/
def dropRepeats : List Text → List Text
  | [] => []
  | [s] => [s]
  | s :: t :: rest => if s = t then dropRepeats (t :: rest) else s :: dropRepeats (t :: rest)

/-- The texts of a list in order, each once. -/
def sortDistinct (texts : List Text) : List Text :=
  dropRepeats (texts.mergeSort notAfter)

-- ====================================================== no repetitions

theorem mem_dropRepeats {texts : List Text} {s : Text} :
    s ∈ dropRepeats texts ↔ s ∈ texts := by
  fun_induction dropRepeats texts with
  | case1 => simp
  | case2 t => simp
  | case3 t rest ih => simp [ih]
  | case4 t u rest h ih => simp [ih]

theorem mem_sortDistinct {texts : List Text} {s : Text} : s ∈ sortDistinct texts ↔ s ∈ texts := by
  unfold sortDistinct
  rw [mem_dropRepeats, List.mem_mergeSort]

theorem notAfter_iff {s t : Text} : notAfter s t = true ↔ s ≤ t := by
  rw [notAfter, Bool.not_eq_true', ← Bool.not_eq_true, before_iff_lt, List.not_lt]

theorem eq_of_notAfter {s t : Text} (h : notAfter s t) (h' : notAfter t s) : s = t :=
  List.le_antisymm (notAfter_iff.mp h) (notAfter_iff.mp h')

theorem nodup_dropRepeats {texts : List Text}
    (h : texts.Pairwise fun s t => notAfter s t = true) : (dropRepeats texts).Nodup := by
  fun_induction dropRepeats texts with
  | case1 => simp
  | case2 t => simp
  | case3 t rest ih => exact ih (List.pairwise_cons.mp h).2
  | case4 s t rest hne ih =>
    have hs := (List.pairwise_cons.mp h).1
    have ht := List.pairwise_cons.mp (List.pairwise_cons.mp h).2
    refine List.nodup_cons.mpr ⟨fun hmem => ?_, ih (List.pairwise_cons.mp h).2⟩
    rcases List.mem_cons.mp (mem_dropRepeats.mp hmem) with hst | hrest
    · exact hne hst
    · exact hne (eq_of_notAfter (hs t (by simp)) (ht.1 s hrest))

theorem nodup_sortDistinct (texts : List Text) : (sortDistinct texts).Nodup := by
  refine nodup_dropRepeats (List.pairwise_mergeSort ?_ ?_ texts)
  · intro a b c hab hbc
    exact notAfter_iff.mpr (List.le_trans (notAfter_iff.mp hab) (notAfter_iff.mp hbc))
  · intro a b
    rcases List.le_total a b with h | h
    · simp [notAfter_iff.mpr h]
    · simp [notAfter_iff.mpr h]

end Spreadsheet.Text

/-
What an approximate search fails by.

# Conversions

The search converts what is sought, and then the keys of its kind one by one
down to the first that exceeds it. Only texts that are numbers as a whole
are converted to numbers, and such a text is refused if an information
separator stands at one of its ends: it is a blank for the pattern that
decides what is a number, and none for the conversion.

# Which key is met

So the search fails if what is sought is refused or a key that it comes to
is (`approximateRowFrom_eq_error`), and in no other way. It comes to a key
if it went past all keys before it: these are not compared, being empty or
of the other kind, or they are converted and do not exceed what is sought
(`GoesPast`). A refused key below the row where the search ends does no
harm.

# What this closes

The fault is that of the text which was refused
(`approximate_search_fails_iff`). In a sheet it shows as a general error,
though a smaller quantity may stand there (`refused_number_sought`).
-/
import Mathlib
import Spreadsheet.Proofs.Eval.SortedLookup
import Spreadsheet.Proofs.Number.Prefix

namespace Spreadsheet.Eval

open Number (Refused)

variable {store : Store} {settings : Settings} {table : Range} {s t : Text} {first : Int → Text}
  {found : Option Int} {row : Int} {rows : List Int} {fault : Fault}

-- ====================================================== one key

/-- A text is accepted exactly if it is not refused. Both are said of
the text as it is written, and neither mentions a search. -/
theorem accepted_iff : Accepted s ↔ ¬ Refused s := by
  constructor
  · intro haccepted hrefused
    obtain ⟨x, hx⟩ := haccepted hrefused.1
    rw [(Number.whole?_of_isNumeric hrefused.1).2, if_pos hrefused] at hx
    cases hx
  · intro hrefused hs
    obtain ⟨hread, hwhole⟩ := Number.whole?_of_isNumeric hs
    rwa [hwhole, if_neg hrefused]

/-- The key of a refused text is a fault, and the fault names the
text. -/
theorem ofContent_refused (h : Refused s) :
    SearchKey.ofContent (.text s) = .error (.unreadableNumber s) := by
  have hwhole := (Number.whole?_of_isNumeric h.1).2
  rw [if_pos h] at hwhole
  rw [SearchKey.ofContent, asText, ok_bind, SearchKey.isNumeric, h.1, if_pos rfl, Number.whole,
    hwhole]
  rfl

/-- A row that the search goes past: it is not compared, or its key is
converted and does not exceed what is sought. -/
def GoesPast (first : Int → Text) (t : Text) (row : Int) : Prop :=
  SameKind t (first row) → ¬ Refused (first row) ∧ ¬ Exceeds (first row) t

/-- A search that comes to a refused key of its kind fails there,
whatever rows stand behind it. -/
theorem approximateRowFrom_refused
    (hrow : store.shown (Reference.key ⟨table.left, row⟩) = .text (first row))
    (hkind : SameKind t (first row)) (hrefused : Refused (first row)) :
    approximateRowFrom (.ofStore store settings) table (Number.isNumeric t) (keyOf t) found
      (row :: rows) = .error (.unreadableNumber (first row)) := by
  rw [approximateRowFrom, tableCell_ofStore, ok_bind, Int.add_zero, hrow, passedOver_eq,
    decide_eq_true hkind, Bool.not_true, if_neg Bool.false_ne_true, ofContent_refused hrefused]
  rfl

-- ====================================================== the search

/-- The search fails as the first key does that it comes to and that is
refused. -/
theorem approximateRowFrom_eq_error (hcolumn : FirstColumn store table first) (ht : ¬ Refused t)
    (hrows : ∀ row ∈ rows, table.top ≤ row ∧ row ≤ table.bottom) :
    approximateRowFrom (.ofStore store settings) table (Number.isNumeric t) (keyOf t) found rows
        = .error fault ↔
      ∃ row, ReachedIn (GoesPast first t) rows row ∧ SameKind t (first row) ∧
        Refused (first row) ∧ fault = .unreadableNumber (first row) := by
  induction rows generalizing found with
  | nil => exact ⟨nofun, fun ⟨row, h, _⟩ => absurd h not_reachedIn_nil⟩
  | cons row rows ih =>
      obtain ⟨⟨htop, hbottom⟩, hrows⟩ := List.forall_mem_cons.mp hrows
      have hrow := hcolumn row htop hbottom
      simp only [reachedIn_cons, or_and_right, exists_or, exists_eq_left]
      by_cases hkind : SameKind t (first row)
      · by_cases hrefused : Refused (first row)
        · rw [approximateRowFrom_refused hrow hkind hrefused]
          have hstop : ¬ GoesPast first t row := fun h => (h hkind).1 hrefused
          simp [hkind, hrefused, hstop, eq_comm]
        · rw [approximateRowFrom_cons (accepted_iff.mpr ht) hrow fun _ => accepted_iff.mpr hrefused,
            if_pos hkind]
          by_cases hexceeds : Exceeds (first row) t
          · have hstop : ¬ GoesPast first t row := fun h => (h hkind).2 hexceeds
            simp [hrefused, hexceeds, hstop]
          · have hpast : GoesPast first t row := fun _ => ⟨hrefused, hexceeds⟩
            rw [if_neg hexceeds, ih hrows]
            simp [hrefused, hpast]
      · have hpast : GoesPast first t row := fun h => absurd h hkind
        rw [approximateRowFrom_cons (accepted_iff.mpr ht) hrow fun h => absurd h hkind, if_neg hkind,
          ih hrows]
        simp [hkind, hpast]

/-- In a list in order, the items before one that is reached are those
that are less. -/
theorem reachedIn_iff_of_pairwise {passed : Int → Prop} (horder : rows.Pairwise (· < ·)) :
    ReachedIn passed rows row ↔ row ∈ rows ∧ ∀ r ∈ rows, r < row → passed r := by
  induction rows with
  | nil => exact ⟨fun h => absurd h not_reachedIn_nil, fun h => absurd h.1 List.not_mem_nil⟩
  | cons r rows ih =>
      obtain ⟨hlt, horder⟩ := List.pairwise_cons.mp horder
      rw [reachedIn_cons, ih horder, List.mem_cons, List.forall_mem_cons]
      constructor
      · intro h
        rcases h with rfl | ⟨hpassed, hmem, hall⟩
        · exact ⟨.inl rfl, fun h => absurd h (lt_irrefl _),
            fun r hr h => absurd (h.trans (hlt r hr)) (lt_irrefl _)⟩
        · exact ⟨.inr hmem, fun _ => hpassed, hall⟩
      · intro ⟨hmem, hhead, hall⟩
        rcases hmem with rfl | hmem
        · exact .inl rfl
        · exact .inr ⟨hhead (hlt row hmem), hmem, hall⟩

/-- A text that is a number as a whole is converted to the number in
front of it, unless there is a separator at one of its ends. So an
approximate search fails if such a text is sought, or if the search
comes to one among the keys, each key of its kind before that being
converted and not exceeding what is sought; it fails in no other way. -/
theorem approximate_search_fails_iff (settings : Settings)
    (hcolumn : FirstColumn store table first) (t : Text) :
    (∀ s, Number.isNumeric s = true → (∃ x, Number.leading? s = some x) ∧
      Number.whole? s = if Refused s then none else Number.leading? s) ∧
    ∀ fault, approximateRow (.ofStore store settings) table (.text t) = .error fault ↔
      (Refused t ∧ fault = .unreadableNumber t) ∨
      (¬ Refused t ∧ ∃ row ∈ compared table first t,
        Refused (first row) ∧ fault = .unreadableNumber (first row) ∧
          ∀ r ∈ compared table first t, r < row →
            ¬ Refused (first r) ∧ ¬ Exceeds (first r) t) := by
  refine ⟨fun s => Number.whole?_of_isNumeric, fun fault => ?_⟩
  rw [approximateRow]
  by_cases ht : Refused t
  · rw [ofContent_refused ht]
    simp only [ht, true_and, not_true, false_and, or_false]
    exact ⟨fun h => (Except.error.inj h).symm, fun h => h ▸ rfl⟩
  · rw [ofContent_text (accepted_iff.mpr ht), ok_bind]
    refine (approximateRowFrom_eq_error hcolumn ht
      fun row hrow => Range.mem_integers.mp hrow).trans ⟨?_, ?_⟩
    · rintro ⟨row, hreached, hkind, hrefused, hfault⟩
      obtain ⟨hmem, hpast⟩ := (reachedIn_iff_of_pairwise Range.pairwise_integers).mp hreached
      obtain ⟨htop, hbottom⟩ := Range.mem_integers.mp hmem
      refine .inr ⟨ht, row, ⟨htop, hbottom, hkind⟩, hrefused, hfault, fun r hr hlt => ?_⟩
      exact hpast r (Range.mem_integers.mpr ⟨hr.1, hr.2.1⟩) hlt hr.2.2
    · intro h
      rcases h with ⟨h, -⟩ | ⟨-, row, ⟨htop, hbottom, hkind⟩, hrefused, hfault, hpast⟩
      · exact absurd h ht
      · refine ⟨row, (reachedIn_iff_of_pairwise Range.pairwise_integers).mpr
          ⟨Range.mem_integers.mpr ⟨htop, hbottom⟩, fun r hr hlt hkind => ?_⟩,
          hkind, hrefused, hfault⟩
        obtain ⟨htop, hbottom⟩ := Range.mem_integers.mp hr
        exact hpast r ⟨htop, hbottom, hkind⟩ hlt

/-- Quantities and prices; the second quantity ends in a separator. -/
def marked : Store :=
  ((Store.empty.put "A1" (.ofInput "3")).put "B1" (.ofInput "x")).put "A2" (.ofInput "5\x1f")

/-- The first column of these. -/
def markedTexts (row : Int) : Text :=
  if row = 0 then "3" else "5\x1f"

/-- A search that comes to the quantity with the separator. -/
theorem approximate_search_fails_separated :
    FirstColumn marked (.spanning ⟨0, 0⟩ ⟨1, 1⟩) markedTexts ∧
      approximateRow (.ofStore marked { now := default }) (.spanning ⟨0, 0⟩ ⟨1, 1⟩) (.text "9")
        = .error (.unreadableNumber "5\x1f") := by
  have hrows : ∀ row, (0 : Int) ≤ row → row ≤ 1 → row = 0 ∨ row = 1 := by
    intro row htop hbottom
    omega
  have hcolumn : FirstColumn marked (.spanning ⟨0, 0⟩ ⟨1, 1⟩) markedTexts := by
    intro row htop hbottom
    rcases hrows row htop hbottom with rfl | rfl
    · cbv
    · cbv
  refine ⟨hcolumn, ?_⟩
  refine ((approximate_search_fails_iff { now := default } hcolumn "9").2 _).mpr (.inr ?_)
  refine ⟨by decide +kernel, 1, ⟨by decide, by decide, by decide +kernel⟩, by decide +kernel, rfl,
    fun r hr hlt => ?_⟩
  rcases hrows r hr.1 hr.2.1 with rfl | rfl
  · exact ⟨by decide +kernel, by decide +kernel⟩
  · exact absurd hlt (lt_irrefl _)

/-- A text that is a number as a whole and is not converted to one: the
lookup of it is an error, though the row of a smaller quantity stands
there. -/
theorem refused_number_sought :
    Number.isNumeric "5\x1f" = true ∧ Number.whole? "5\x1f" = none ∧
      approximateRow (.ofStore marked { now := default }) (.spanning ⟨0, 0⟩ ⟨1, 0⟩)
        (.text "5\x1f") = .error (.unreadableNumber "5\x1f") ∧
      (evaluateText (.ofStore marked { now := default })
        "=VLOOKUP(\"5\x1f\",A1:B1,2,TRUE)").plain = "#ERROR!" ∧
      (evaluateText (.ofStore marked { now := default })
        "=VLOOKUP(\"5\",A1:B1,2,TRUE)").plain = "x" :=
  ⟨by decide, by decide +kernel, rfl, by decide +kernel, by decide +kernel⟩

end Spreadsheet.Eval

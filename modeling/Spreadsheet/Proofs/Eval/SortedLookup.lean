/-
Lookups in a sorted column.

# The order of keys

A column is sorted by numbers or by words, and each has an order that does
not mention the search. Numbers are compared by their values, the infinities
at the two ends (`level`). Other texts are compared in lower case by their
code points. A number and a word are not compared at all, and neither is an
empty cell (`SameKind`). What exceeds what is said by these orders
(`Exceeds`), and the keys that the search converts and compares agree with
them (`after_keyOf_iff`).

# The search

The approximate search goes down the first column and stops at the first key
that exceeds what is sought. In a sorted column no key after that one can be
hit, so the row that the search has by then is the last one whose key does
not exceed what is sought (`approximateRowFrom_eq`); cells that are empty or
of the other kind are passed over. The induction is on the rows that are
left, and carries the row found so far. Sorted means that no key exceeds a
later one, so equal keys may stand next to each other, and the last of them
is found.

# Both searches

Where the keys are in strict order, a text that stands in the column is the
key of one row only, and both searches find that row (`sorted_lookup`). Then
a lookup shows the same with its last argument and without.

# What is assumed

The first column is given by the text of each row. In a store of texts every
table has one (`exists_firstColumn`). The keys that are compared must be
accepted by the conversion, which fails for a few texts that pass for
numbers; what happens there is another matter.
-/
import Mathlib
import Spreadsheet.Proofs.Binary64.Rounding
import Spreadsheet.Proofs.Eval.Lookup
import Spreadsheet.Proofs.Eval.Textual

namespace Spreadsheet

-- ====================================================== the order of numbers

namespace Binary64

variable {x y : Binary64}

/-- The place of a number on a line: the finite numbers are in the
middle in the order of their values, and the infinities are at the two
ends. -/
def level : Binary64 → Int ×ₗ Int
  | nan | infinite true => toLex (-1, 0)
  | infinite false => toLex (1, 0)
  | x@(finite ..) => toLex (0, x.units)

/-- One number is greater than another exactly if its place on the line
is behind that of the other; for what is no number there is no place. -/
theorem gt_iff (hx : x ≠ .nan) (hy : y ≠ .nan) : x.gt y = true ↔ y.level < x.level := by
  cases x with
  | nan => exact absurd rfl hx
  | infinite m =>
      cases y with
      | nan => exact absurd rfl hy
      | infinite n => cases m <;> cases n <;> decide
      | finite => cases m <;> simp [gt, compare?, level, Prod.Lex.toLex_lt_toLex]
  | finite =>
      cases y with
      | nan => exact absurd rfl hy
      | infinite n => cases n <;> simp [gt, compare?, level, Prod.Lex.toLex_lt_toLex]
      | finite => simp [gt, compare?, level, Prod.Lex.toLex_lt_toLex, compare_gt_iff_gt]

end Binary64

/-- A text that is converted as a whole stands for a number. No digits
stand for what is none, so keys can be compared. -/
theorem Number.whole?_ne_nan {s : Text} {x : Binary64} (h : whole? s = some x) : x ≠ .nan := by
  unfold whole? at h
  dsimp only at h
  split at h
  · split at h
    · cases h
      exact Binary64.ofDecimal_ne_nan _ _ _
    · cases h
  · cases h

namespace Eval

variable {store : Store} {settings : Settings} {table : Range} {r s t name : Text}
  {first : Int → Text} {args args' : List Expr} {column : Int}

-- ====================================================== keys

/-- The key that a text has in an approximate search. -/
def keyOf (s : Text) : SearchKey :=
  if Number.isNumeric s then .number ((Number.whole? s).getD .nan) else .text (Text.lower s)

/-- A text that is converted to a number if it is one. -/
def Accepted (s : Text) : Prop := Number.isNumeric s = true → ∃ x, Number.whole? s = some x

/-- A text whose key is compared with that of another: it is not empty,
and of the same kind. -/
def SameKind (t s : Text) : Prop := s ≠ [] ∧ Number.isNumeric s = Number.isNumeric t

instance (t s : Text) : Decidable (SameKind t s) := inferInstanceAs (Decidable (_ ∧ _))

/-- The number that a text is as a whole. -/
def amount (s : Text) : Binary64 := (Number.whole? s).getD .nan

/-- Does the key of a text exceed that of another of its kind? Numbers
are compared by their values, and other texts in lower case by their
code points. -/
def Exceeds (s t : Text) : Prop :=
  if Number.isNumeric t then (amount t).level < (amount s).level else Text.lower t < Text.lower s

instance (s t : Text) : Decidable (Exceeds s t) := inferInstanceAs (Decidable (ite _ _ _))

/-- The key of an accepted number is a number, and not what is none. -/
theorem keyOf_of_isNumeric (hs : Number.isNumeric s = true) (haccepted : Accepted s) :
    ∃ x, x ≠ .nan ∧ Number.whole? s = some x ∧ keyOf s = .number x := by
  obtain ⟨x, hx⟩ := haccepted hs
  refine ⟨x, Number.whole?_ne_nan hx, hx, ?_⟩
  rw [keyOf, if_pos hs, hx, Option.getD_some]

/-- The search makes of an accepted text the key that it has: a number
if it is numeric, and otherwise a word in lower case. -/
theorem ofContent_text (h : Accepted s) : SearchKey.ofContent (.text s) = .ok (keyOf s) := by
  cases hs : Number.isNumeric s with
  | true =>
      obtain ⟨x, -, hwhole, hkey⟩ := keyOf_of_isNumeric hs h
      rw [SearchKey.ofContent, asText, ok_bind, SearchKey.isNumeric, hs, if_pos rfl, Number.whole,
        hwhole, hkey]
      rfl
  | false =>
      rw [SearchKey.ofContent, asText, ok_bind, SearchKey.isNumeric, hs,
        if_neg Bool.false_ne_true, keyOf, hs, if_neg Bool.false_ne_true]
      rfl

/-- Numbers exceed each other by their values. -/
theorem exceeds_iff_level_lt (ht : Number.isNumeric t = true) :
    Exceeds s t ↔ (amount t).level < (amount s).level := by
  rw [Exceeds, if_pos ht]

/-- Other texts exceed each other in lower case, by their code
points. -/
theorem exceeds_iff_lower_lt (ht : Number.isNumeric t = false) :
    Exceeds s t ↔ Text.lower t < Text.lower s := by
  rw [Exceeds, ht, if_neg Bool.false_ne_true]

/-- The search compares the keys of texts of one kind as their numbers
or their letters are compared. -/
theorem after_keyOf_iff (hs : Accepted s) (ht : Accepted t)
    (hkind : Number.isNumeric s = Number.isNumeric t) :
    (keyOf s).after (keyOf t) = true ↔ Exceeds s t := by
  cases hnumeric : Number.isNumeric t with
  | true =>
      obtain ⟨x, hx, hwholes, hkeys⟩ := keyOf_of_isNumeric (hkind.trans hnumeric) hs
      obtain ⟨y, hy, hwholet, hkeyt⟩ := keyOf_of_isNumeric hnumeric ht
      rw [exceeds_iff_level_lt hnumeric, amount, amount, hwholes, hwholet, hkeys, hkeyt]
      exact Binary64.gt_iff hx hy
  | false =>
      rw [exceeds_iff_lower_lt hnumeric, ← Text.before_iff_lt, keyOf, keyOf, hkind, hnumeric]
      rfl

/-- Where one of two keys exceeds a third and does not exceed the other,
that exceeds the third. -/
theorem exceeds_of_not_exceeds (hkind : Number.isNumeric s = Number.isNumeric t)
    (hexceeds : Exceeds r t) (hnot : ¬ Exceeds r s) : Exceeds s t := by
  cases hnumeric : Number.isNumeric t with
  | true =>
      rw [exceeds_iff_level_lt hnumeric] at hexceeds
      rw [exceeds_iff_level_lt (hkind.trans hnumeric), not_lt] at hnot
      rw [exceeds_iff_level_lt hnumeric]
      exact lt_of_lt_of_le hexceeds hnot
  | false =>
      rw [exceeds_iff_lower_lt hnumeric] at hexceeds
      rw [exceeds_iff_lower_lt (hkind.trans hnumeric), List.not_lt] at hnot
      rw [exceeds_iff_lower_lt hnumeric]
      by_contra hle
      exact absurd hexceeds (List.not_lt.mpr (List.le_trans hnot (List.not_lt.mp hle)))

/-- Of two keys of one kind at most one exceeds the other. Keys of two
kinds are never compared. -/
theorem not_exceeds_of_exceeds (hkind : Number.isNumeric r = Number.isNumeric s)
    (h : Exceeds r s) : ¬ Exceeds s r := by
  cases hnumeric : Number.isNumeric s with
  | true =>
      rw [exceeds_iff_level_lt hnumeric] at h
      rw [exceeds_iff_level_lt (hkind.trans hnumeric)]
      exact lt_asymm h
  | false =>
      rw [exceeds_iff_lower_lt hnumeric] at h
      rw [exceeds_iff_lower_lt (hkind.trans hnumeric)]
      exact List.lt_asymm h

-- ====================================================== the approximate search

/-- The first column of a table, given by the text of each row. -/
def FirstColumn (store : Store) (table : Range) (first : Int → Text) : Prop :=
  ∀ row, table.top ≤ row → row ≤ table.bottom →
    store.shown (Reference.key ⟨table.left, row⟩) = .text (first row)

/-- In a store of texts every table has such a first column. -/
theorem exists_firstColumn (h : store.Textual) (table : Range) :
    ∃ first, FirstColumn store table first := by
  choose first hfirst using fun row => h.shown (Reference.key ⟨table.left, row⟩)
  exact ⟨first, fun row _ _ => hfirst row⟩

/-- The rows of a table whose keys are compared with the key of a
text. -/
def compared (table : Range) (first : Int → Text) (t : Text) : Set Int :=
  {row | table.top ≤ row ∧ row ≤ table.bottom ∧ SameKind t (first row)}

/-- The compared rows whose keys do not exceed the key of a text. -/
def candidates (table : Range) (first : Int → Text) (t : Text) : Set Int :=
  {row | row ∈ compared table first t ∧ ¬ Exceeds (first row) t}

/-- The search passes over the rows that are not compared: the empty
ones and those of the other kind. -/
theorem passedOver_eq (t s : Text) :
    (!isFilled (.text s) || SearchKey.isNumeric (.text s) != Number.isNumeric t)
      = !decide (SameKind t s) := by
  cases s with
  | nil => rfl
  | cons c s =>
      have hkind : SameKind t (c :: s) ↔ Number.isNumeric (c :: s) = Number.isNumeric t :=
        and_iff_right (List.cons_ne_nil c s)
      rw [decide_eq_decide.mpr hkind]
      rfl

/-- A row whose first cell is empty or of the other kind is passed over;
any other ends the search or is the row found so far. -/
theorem approximateRowFrom_cons {found : Option Int} {row : Int} {rows : List Int}
    (ht : Accepted t) (hrow : store.shown (Reference.key ⟨table.left, row⟩) = .text (first row))
    (haccepted : SameKind t (first row) → Accepted (first row)) :
    approximateRowFrom (.ofStore store settings) table (Number.isNumeric t) (keyOf t) found
        (row :: rows)
      = if SameKind t (first row) then
          if Exceeds (first row) t then .ok found
          else approximateRowFrom (.ofStore store settings) table (Number.isNumeric t) (keyOf t)
            (some row) rows
        else approximateRowFrom (.ofStore store settings) table (Number.isNumeric t) (keyOf t)
          found rows := by
  rw [approximateRowFrom, tableCell_ofStore, ok_bind, Int.add_zero, hrow, passedOver_eq]
  by_cases hkind : SameKind t (first row)
  · rw [decide_eq_true hkind, Bool.not_true, if_neg Bool.false_ne_true,
      ofContent_text (haccepted hkind), ok_bind, if_pos hkind]
    exact if_congr (after_keyOf_iff (haccepted hkind) ht hkind.2) rfl rfl
  · rw [decide_eq_false hkind, Bool.not_false, if_pos rfl, if_neg hkind]

/-- In a sorted column the search ends with the last row whose key does
not exceed what is sought. -/
theorem approximateRowFrom_eq (hcolumn : FirstColumn store table first) (ht : Accepted t)
    (haccepted : ∀ row ∈ compared table first t, Accepted (first row))
    (hsorted : ∀ row ∈ compared table first t, ∀ row' ∈ compared table first t,
      row < row' → ¬ Exceeds (first row) (first row'))
    {rows : List Int} (horder : rows.Pairwise (· < ·))
    (hrows : ∀ row ∈ rows, table.top ≤ row ∧ row ≤ table.bottom) (found : Option Int) :
    approximateRowFrom (.ofStore store settings) table (Number.isNumeric t) (keyOf t) found rows
      = .ok ((rows.filter fun row => SameKind t (first row) ∧ ¬ Exceeds (first row) t).getLast?.or
          found) := by
  induction rows generalizing found with
  | nil => rfl
  | cons row rows ih =>
      obtain ⟨hlt, horder⟩ := List.pairwise_cons.mp horder
      obtain ⟨htop, hbottom⟩ := hrows row (List.mem_cons_self ..)
      have hrows := fun r hr => hrows r (List.mem_cons_of_mem row hr)
      have ih := ih horder hrows
      rw [approximateRowFrom_cons ht (hcolumn row htop hbottom)
        fun hkind => haccepted row ⟨htop, hbottom, hkind⟩]
      by_cases hkind : SameKind t (first row)
      · have hcompared : row ∈ compared table first t := ⟨htop, hbottom, hkind⟩
        by_cases hexceeds : Exceeds (first row) t
        · -- the keys that follow are not below this one, so they exceed what is sought too
          have hnone : (row :: rows).filter (fun row =>
              SameKind t (first row) ∧ ¬ Exceeds (first row) t) = [] := by
            apply List.filter_eq_nil_iff.mpr
            intro r hr hcandidate
            obtain ⟨hkindr, hnot⟩ := of_decide_eq_true hcandidate
            rcases List.mem_cons.mp hr with rfl | hr
            · exact hnot hexceeds
            · have hcomparedr : r ∈ compared table first t :=
                ⟨(hrows r hr).1, (hrows r hr).2, hkindr⟩
              exact hnot (exceeds_of_not_exceeds hkindr.2 hexceeds
                (hsorted row hcompared r hcomparedr (hlt r hr)))
          rw [if_pos hkind, if_pos hexceeds, hnone]
          rfl
        -- the row may be the last one, so it stands in for what was found before
        · rw [if_pos hkind, if_neg hexceeds, ih,
            List.filter_cons_of_pos (by simp [hkind, hexceeds]), List.getLast?_cons]
          cases (rows.filter fun row =>
            SameKind t (first row) ∧ ¬ Exceeds (first row) t).getLast? with
          | none => rfl
          | some last => rfl
      · rw [if_neg hkind, ih, List.filter_cons_of_neg (by simp [hkind])]

/-- The last of rows in order is the greatest one. -/
theorem isGreatest_of_getLast? {rows : List Int} {row : Int} (horder : rows.Pairwise (· < ·))
    (h : rows.getLast? = some row) : IsGreatest {r | r ∈ rows} row := by
  obtain ⟨before, rfl⟩ := List.getLast?_eq_some_iff.mp h
  refine ⟨by simp, fun r hr => ?_⟩
  rcases List.mem_append.mp hr with hr | hr
  · exact Int.le_of_lt ((List.pairwise_append.mp horder).2.2 r hr row (by simp))
  · exact Int.le_of_eq (List.mem_singleton.mp hr)

/-- In a sorted column the approximate search finds the greatest row
whose key does not exceed what is sought, if there is one. -/
theorem approximateRow_spec (settings : Settings) (hcolumn : FirstColumn store table first)
    (ht : Accepted t) (haccepted : ∀ row ∈ compared table first t, Accepted (first row))
    (hsorted : ∀ row ∈ compared table first t, ∀ row' ∈ compared table first t,
      row < row' → ¬ Exceeds (first row) (first row')) :
    (∃ row, approximateRow (.ofStore store settings) table (.text t) = .ok (some row) ∧
        IsGreatest (candidates table first t) row) ∨
      (approximateRow (.ofStore store settings) table (.text t) = .ok none ∧
        candidates table first t = ∅) := by
  have hsearch : approximateRow (.ofStore store settings) table (.text t) = .ok
      (((Range.integers table.top table.bottom).filter fun row =>
        SameKind t (first row) ∧ ¬ Exceeds (first row) t).getLast?.or none) := by
    rw [approximateRow, ofContent_text ht, ok_bind]
    exact approximateRowFrom_eq hcolumn ht haccepted hsorted Range.pairwise_integers
      (fun row hrow => Range.mem_integers.mp hrow) none
  have hmem : candidates table first t = {row | row ∈
      (Range.integers table.top table.bottom).filter fun row =>
        SameKind t (first row) ∧ ¬ Exceeds (first row) t} := by
    ext row
    simp only [candidates, compared, Set.mem_ofPred_eq, List.mem_filter, Range.mem_integers,
      decide_eq_true_eq, and_assoc]
  have horder : (Range.integers table.top table.bottom).Pairwise (· < ·) := Range.pairwise_integers
  rw [hsearch, hmem, Option.or_none]
  cases hlast : ((Range.integers table.top table.bottom).filter fun row =>
      SameKind t (first row) ∧ ¬ Exceeds (first row) t).getLast? with
  | some row => exact .inl ⟨row, rfl, isGreatest_of_getLast? (horder.filter _) hlast⟩
  | none =>
      rw [List.getLast?_eq_none_iff.mp hlast]
      exact .inr ⟨rfl, by simp⟩

-- ====================================================== both searches

/-- A row is hit exactly if the text in its first column is what is
sought. -/
theorem mem_hits (hcolumn : FirstColumn store table first) {row : Int} :
    row ∈ hits store table (.text t) ↔ table.top ≤ row ∧ row ≤ table.bottom ∧ first row = t := by
  apply and_congr_right
  intro htop
  apply and_congr_right
  intro hbottom
  rw [showsAt, hcolumn row htop hbottom]
  exact beq_iff_eq

/-- In strict order, a row that is hit exactly is the last one whose key
does not exceed what is sought. -/
theorem isGreatest_of_mem_hits (hcolumn : FirstColumn store table first)
    (hne : t ≠ []) (hstrict : ∀ row ∈ compared table first t, ∀ row' ∈ compared table first t,
      row < row' → Exceeds (first row') (first row)) {row : Int}
    (hrow : row ∈ hits store table (.text t)) : IsGreatest (candidates table first t) row := by
  obtain ⟨htop, hbottom, hfirst⟩ := (mem_hits hcolumn).mp hrow
  have hkind : SameKind t (first row) := by
    rw [hfirst]
    exact ⟨hne, rfl⟩
  have hcompared : row ∈ compared table first t := ⟨htop, hbottom, hkind⟩
  have hself : ¬ Exceeds t t := fun h => not_exceeds_of_exceeds rfl h h
  refine ⟨⟨hcompared, by rwa [hfirst]⟩, fun row' hrow' => ?_⟩
  obtain ⟨hcompared', hnot⟩ := hrow'
  by_contra hlt
  have hexceeds := hstrict row hcompared row' hcompared' (not_le.mp hlt)
  rw [hfirst] at hexceeds
  exact hnot hexceeds

/-- The first column of a table is made of texts, of which those that
are compared with what is sought are accepted as numbers if they are
numbers. If they are sorted, the approximate search finds the last row
whose key does not exceed what is sought, and none exactly if there is
no such row. If their order is strict and what is sought stands among
them, an exact and an approximate lookup show the same. -/
theorem sorted_lookup (settings : Settings) (hcolumn : FirstColumn store table first)
    (ht : Accepted t) (haccepted : ∀ row ∈ compared table first t, Accepted (first row)) :
    ((∀ row ∈ compared table first t, ∀ row' ∈ compared table first t,
        row < row' → ¬ Exceeds (first row) (first row')) →
      ∃ found, approximateRow (.ofStore store settings) table (.text t) = .ok found ∧
        (∀ row, found = some row ↔ IsGreatest (candidates table first t) row) ∧
        (found = none ↔ candidates table first t = ∅)) ∧
    ((∀ row ∈ compared table first t, ∀ row' ∈ compared table first t,
        row < row' → Exceeds (first row') (first row)) →
      t ≠ [] → (∃ row, table.top ≤ row ∧ row ≤ table.bottom ∧ first row = t) →
      ∀ name column args args',
        Seeks (.ofStore store settings) (.text t) name table column args false →
        Seeks (.ofStore store settings) (.text t) name table column args' true →
        ∃ content, call (.ofStore store settings) .lookup args = .ok content ∧
          call (.ofStore store settings) .lookup args' = .ok content) := by
  refine ⟨?_, ?_⟩
  · intro hsorted
    rcases approximateRow_spec settings hcolumn ht haccepted hsorted with
      ⟨found, hsearch, hfound⟩ | ⟨hsearch, hnone⟩
    · refine ⟨some found, hsearch, fun row => ?_, ?_⟩
      · rw [Option.some.injEq]
        exact ⟨fun h => h ▸ hfound, fun h => hfound.unique h⟩
      · exact ⟨nofun, fun hnone => absurd hfound.1 (hnone ▸ Set.notMem_empty found)⟩
    · refine ⟨none, hsearch, fun row => ⟨nofun, fun hrow => ?_⟩, fun _ => hnone, fun _ => rfl⟩
      exact absurd hrow.1 (hnone ▸ Set.notMem_empty row)
  · intro hstrict hne hstands name column args args' hexact happroximate
    obtain ⟨row, hstands⟩ := hstands
    have hhit : row ∈ hits store table (.text t) := (mem_hits hcolumn).mpr hstands
    have hgreatest := isGreatest_of_mem_hits hcolumn hne hstrict hhit
    have hsorted : ∀ row ∈ compared table first t, ∀ row' ∈ compared table first t,
        row < row' → ¬ Exceeds (first row) (first row') := fun row hrow row' hrow' hlt =>
      not_exceeds_of_exceeds (hrow'.2.2.2.trans hrow.2.2.2.symm)
        (hstrict row hrow row' hrow' hlt)
    refine ⟨store.shown (Reference.key ⟨table.left + (column - 1), row⟩), ?_, ?_⟩
    -- the keys are strictly sorted, so the row that is sought is found by both searches
    · rcases exactRow_spec store settings table (.text t) with ⟨found, hsearch, hfound⟩ | ⟨-, hnone⟩
      · obtain rfl := hgreatest.unique (isGreatest_of_mem_hits hcolumn hne hstrict hfound.1)
        rw [call_lookup hexact, lookup, if_neg Bool.false_ne_true, hsearch]
        rfl
      · exact absurd hhit (hnone ▸ Set.notMem_empty row)
    · rcases approximateRow_spec settings hcolumn ht haccepted hsorted with
        ⟨found, hsearch, hfound⟩ | ⟨-, hnone⟩
      · obtain rfl := hgreatest.unique hfound
        rw [call_lookup happroximate, lookup, if_pos rfl, hsearch]
        rfl
      · exact absurd hgreatest.1 (hnone ▸ Set.notMem_empty row)

/-- Steps of a price, with an empty cell and a word between the
quantities. -/
def steps : Store :=
  ((((Store.empty.put "A1" (.ofInput "1")).put "A3" (.ofInput "more")).put "A4"
    (.ofInput "5")).put "A5" (.ofInput "20")).put "B4" (.ofInput "0.75")

/-- The first column of the steps. -/
def stepTexts (row : Int) : Text :=
  if row = 0 then "1" else if row = 2 then "more" else if row = 3 then "5"
  else if row = 4 then "20" else []

/-- A quantity that stands in the column, past an empty cell and a word:
the search by value and the exact one find its row. -/
theorem sorted_lookup_five :
    approximateRow (.ofStore steps { now := default }) (.spanning ⟨0, 0⟩ ⟨1, 4⟩) (.text "5")
        = .ok (some 3) ∧
      ∃ content, call (.ofStore steps { now := default }) .lookup
          [.string "5", .range "A1:B5", .number "2"] = .ok content ∧
        call (.ofStore steps { now := default }) .lookup
          [.string "5", .range "A1:B5", .number "2", .name "TRUE"] = .ok content := by
  have hrows : ∀ row, (0 : Int) ≤ row → row ≤ 4 →
      row = 0 ∨ row = 1 ∨ row = 2 ∨ row = 3 ∨ row = 4 := by
    intro row htop hbottom
    omega
  have hcolumn : FirstColumn steps (.spanning ⟨0, 0⟩ ⟨1, 4⟩) stepTexts := by
    intro row htop hbottom
    rcases hrows row htop hbottom with rfl | rfl | rfl | rfl | rfl <;> cbv
  have hcompared : ∀ row ∈ compared (.spanning ⟨0, 0⟩ ⟨1, 4⟩) stepTexts "5",
      row = 0 ∨ row = 3 ∨ row = 4 := by
    intro row hrow
    obtain ⟨htop, hbottom, hkind⟩ := hrow
    rcases hrows row htop hbottom with rfl | rfl | rfl | rfl | rfl
    · exact .inl rfl
    · exact absurd hkind (by decide +kernel)
    · exact absurd hkind (by decide +kernel)
    · exact .inr (.inl rfl)
    · exact .inr (.inr rfl)
  have haccepted : ∀ row ∈ compared (.spanning ⟨0, 0⟩ ⟨1, 4⟩) stepTexts "5",
      Accepted (stepTexts row) := by
    intro row hrow _
    apply Option.isSome_iff_exists.mp
    rcases hcompared row hrow with rfl | rfl | rfl <;> decide +kernel
  have hsorted : ∀ row ∈ compared (.spanning ⟨0, 0⟩ ⟨1, 4⟩) stepTexts "5",
      ∀ row' ∈ compared (.spanning ⟨0, 0⟩ ⟨1, 4⟩) stepTexts "5", row < row' →
        ¬ Exceeds (stepTexts row) (stepTexts row') := by
    intro row hrow row' hrow'
    rcases hcompared row hrow with rfl | rfl | rfl <;>
      rcases hcompared row' hrow' with rfl | rfl | rfl <;> decide +kernel
  have hstrict : ∀ row ∈ compared (.spanning ⟨0, 0⟩ ⟨1, 4⟩) stepTexts "5",
      ∀ row' ∈ compared (.spanning ⟨0, 0⟩ ⟨1, 4⟩) stepTexts "5", row < row' →
        Exceeds (stepTexts row') (stepTexts row) := by
    intro row hrow row' hrow'
    rcases hcompared row hrow with rfl | rfl | rfl <;>
      rcases hcompared row' hrow' with rfl | rfl | rfl <;> decide +kernel
  have haccepted' : Accepted "5" := fun _ => Option.isSome_iff_exists.mp (by decide +kernel)
  have hgreatest : IsGreatest (candidates (.spanning ⟨0, 0⟩ ⟨1, 4⟩) stepTexts "5") 3 := by
    refine ⟨⟨⟨by decide, by decide, by decide +kernel⟩, by decide +kernel⟩, fun row hrow => ?_⟩
    obtain ⟨hrow, hnot⟩ := hrow
    rcases hcompared row hrow with rfl | rfl | rfl
    · decide
    · decide
    · exact absurd (by decide +kernel) hnot
  have hparts : Sought (.ofStore steps { now := default }) (.string "5") (.number "2")
      (.text "5") "A1:B5" (.spanning ⟨0, 0⟩ ⟨1, 4⟩) 2 :=
    ⟨rfl, by rfl, ⟨_, number_two _, by decide +kernel⟩, by decide, by decide⟩
  have hmode : number (.ofStore steps { now := default }) (.name "TRUE") = .ok Binary64.one := rfl
  obtain ⟨happroximate, hboth⟩ :=
    sorted_lookup { now := default } hcolumn haccepted' haccepted
  obtain ⟨found, hfound, hiff, -⟩ := happroximate hsorted
  obtain rfl := (hiff 3).mpr hgreatest
  exact ⟨hfound, hboth hstrict (by decide) ⟨3, by decide, by decide, rfl⟩ _ _ _ _ (.exact hparts)
    (.chosen hparts hmode)⟩

end Eval

end Spreadsheet

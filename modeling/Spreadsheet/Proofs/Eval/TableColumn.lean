/-
Columns that a table does not have.

# Finite numbers

A lookup turns the number of a column into an integer before it looks
whether the table has such a column. Every finite number has an integer
part, however large it is, and the part is outside the table exactly if the
number is (`truncate?_outside`). Whether a number is outside is said by its
value alone: it is below one, or past the last column by one or more, so a
number with a fraction belongs to the column of its integer part. The lookup
is then refused with #REF! for the column, before its last argument is
evaluated and before anything is looked for.

# Infinite numbers

An infinite number has no integer part. There the conversion fails and not
the test behind it, and a cell shows a general error instead
(`column_outside_shown_iff`, `error_of_infinite_column`). A literal past the
largest finite number is such a number.
-/
import Mathlib
import Spreadsheet.Eval.Formula
import Spreadsheet.Proofs.Binary64.Value
import Spreadsheet.Proofs.Eval.Lookup

namespace Spreadsheet

variable {table : Range} {x : Binary64} {n : Int}

/-- A number that is the number of no column of a table, counted from
one: it is infinite, or below one, or past the last column by one or
more. -/
def Range.Outside (table : Range) (x : Binary64) : Prop :=
  x ≠ .nan ∧ (x.isInfinite = true ∨ x.toRat < 1 ∨ (table.cols : ℚ) + 1 ≤ x.toRat)

/-- A finite number is outside a table exactly if its integer part
is. -/
theorem Range.truncate?_outside (h : x.truncate? = some n) :
    table.Outside x ↔ n < 1 ∨ table.cols < n := by
  have hcols : 0 ≤ table.cols := by
    have hedges := table.left_le_right
    unfold Range.cols
    omega
  have hnumber : x ≠ .nan ∧ x.isInfinite = false := by
    cases x with
    | nan | infinite => cases h
    | finite => exact ⟨nofun, rfl⟩
  rw [Binary64.truncate?_lt_one_iff h, Binary64.lt_truncate?_iff h hcols]
  simp [Range.Outside, hnumber]

namespace Eval

variable {env : Environment} {store : Store} {settings : Settings} {sought : Content}
  {name expression : Text} {wanted index : Expr}

-- ====================================================== the refusal

theorem lookupColumn_eq_error (hx : x.truncate? = some n) (hn : n < 1 ∨ table.cols < n) :
    lookupColumn table (some x) = .error (.failure (.columnOutside n)) := by
  simp [lookupColumn, Binary64.isNan_of_truncate? hx, hx, hn, fail]

/-- The column is refused for being outside, or for having no integer
part. -/
theorem lookupColumn_of_outside (h : table.Outside x) :
    ∃ fault, lookupColumn table (some x) = .error fault ∧
      fault.code = if x.isInfinite then .error else .reference := by
  cases x with
  | nan => exact absurd rfl h.1
  | infinite => exact ⟨.infiniteInteger, rfl, rfl⟩
  | finite negative significand exponent canonical =>
      obtain ⟨n, hn⟩ : ∃ n, (Binary64.finite negative significand exponent canonical).truncate?
        = some n := ⟨_, rfl⟩
      exact ⟨_, lookupColumn_eq_error hn ((Range.truncate?_outside hn).mp h), rfl⟩

/-- A refused column is the fault of the lookup, whatever its last
argument is. -/
theorem call_lookup_eq_error {fault : Fault} (hwanted : text env wanted = .ok sought)
    (htable : Range.parse? name = .ok (some table)) (hindex : number env index = .ok x)
    (hcolumn : lookupColumn table (some x) = .error fault) (mode : Option Expr) :
    call env .lookup (wanted :: .range name :: index :: mode.toList) = .error fault := by
  cases mode with
  | none =>
      rw [Option.toList, call, hwanted, ok_bind, lookupTable_range htable, ok_bind, hindex,
        orMissing, ok_bind, hcolumn]
      rfl
  | some mode =>
      rw [Option.toList, call, hwanted, ok_bind, lookupTable_range htable, ok_bind, hindex,
        orMissing, ok_bind, hcolumn]
      rfl

-- ====================================================== what is shown

/-- A lookup of a column that is outside the table shows #REF! exactly
if the number of the column is finite, and a general error if it is
infinite, whatever is sought and whatever the last argument is, if there
is one. -/
theorem column_outside_shown_iff {mode : Option Expr}
    (hparse : Parser.parse (Text.trim expression)
      = .ok (.call "VLOOKUP" (wanted :: .range name :: index :: mode.toList)))
    (hwanted : text (.ofStore store settings) wanted = .ok sought)
    (htable : Range.parse? name = .ok (some table))
    (hindex : number (.ofStore store settings) index = .ok x) (houtside : table.Outside x) :
    (evaluateText (.ofStore store settings) (.char '=' :: expression)
        = .text ErrorCode.reference.text ↔ x.isInfinite = false) ∧
      (x.isInfinite = true → evaluateText (.ofStore store settings) (.char '=' :: expression)
        = .text ErrorCode.error.text) := by
  obtain ⟨fault, hcolumn, hcode⟩ := lookupColumn_of_outside houtside
  have hcall := call_lookup_eq_error hwanted htable hindex hcolumn mode
  have hfunction : Function.ofName? "VLOOKUP" = some .lookup := by decide
  have hshown : evaluateText (.ofStore store settings) (.char '=' :: expression)
      = .text fault.code.text := by
    simp only [evaluateText, expressionText, hparse]
    rw [display, text, hfunction]
    · show orCode (call _ .lookup _) = _
      rw [hcall]
      rfl
    all_goals nofun
  rw [hshown, hcode]
  cases x.isInfinite with
  | true =>
      have hne : ErrorCode.error.text ≠ ErrorCode.reference.text := by decide
      simp [hne]
  | false => simp

/-- The first column past a table, sought with a fruit that stands there
and with a last argument that would fail. -/
theorem column_outside_shown_third :
    evaluateText (.ofStore fruits { now := default })
      "=VLOOKUP(\"plum\",B3:A1,3,NONE())" = .text "#REF!" := by
  have hparse : Parser.parse (Text.trim "VLOOKUP(\"plum\",B3:A1,3,NONE())")
      = .ok (.call "VLOOKUP" (.string "plum" :: .range "B3:A1" :: .number "3"
          :: (some (.call "NONE" []) : Option Expr).toList)) := by
    cbv
  have hindex : number (.ofStore fruits { now := default }) (.number "3")
      = .ok (Binary64.ofDecimal false 3 0) := by
    rw [number]
    exact toOption_eq_some.mp (by decide +kernel)
  have hinteger : (Binary64.ofDecimal false 3 0).truncate? = some 3 := by decide +kernel
  have houtside : (Range.spanning ⟨1, 2⟩ ⟨0, 0⟩).Outside (Binary64.ofDecimal false 3 0) := by
    rw [Range.truncate?_outside hinteger]
    exact .inr (by decide)
  have hfinite : (Binary64.ofDecimal false 3 0).isInfinite = false := by decide +kernel
  have hwanted : text (.ofStore fruits { now := default }) (.string "plum")
      = .ok (.text "plum") := by rfl
  have htable : Range.parse? "B3:A1" = .ok (some (.spanning ⟨1, 2⟩ ⟨0, 0⟩)) := by rfl
  exact (column_outside_shown_iff hparse hwanted htable hindex houtside).1.mpr hfinite

/-- A literal past the largest finite number is infinite, and as a
column it is not refused with #REF!. -/
theorem error_of_infinite_column :
    Parser.parse "VLOOKUP(\"x\",A1:B2,1e999)"
        = .ok (.call "VLOOKUP" [.string "x", .range "A1:B2", .number "1e999"]) ∧
      Range.parse? "A1:B2" = .ok (some (.spanning ⟨0, 0⟩ ⟨1, 1⟩)) ∧
      number (.ofStore .empty { now := default }) (.number "1e999") = .ok (.infinite false) ∧
      (evaluateText (.ofStore .empty { now := default })
          "=VLOOKUP(\"x\",A1:B2,1e999)").plain = "#ERROR!" :=
  ⟨by cbv, by rfl, toOption_eq_some.mp (by decide +kernel), by decide +kernel⟩

end Eval

end Spreadsheet

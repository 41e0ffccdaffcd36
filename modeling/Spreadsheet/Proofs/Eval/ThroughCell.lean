/-
A number that goes through a cell.

# Shown and read again

A cell shows the number of its formula as a text, and what another formula
reads of the cell is that text. Where the formula is a number, a reference
or arithmetic on the outside, the text reads back as the number
(`numberOf_of_display`): the shortest digits that are shown are enough to
find it again. Only the sign of a zero is lost, and no condition depends on
that.

# Truth values

A comparison on the outside is shown by a word instead, and a word counts as
zero: this is the number of a comparison that does not hold, but not of one
that holds (`display_comparison`). So a condition may be put in a cell of
its own, unless it is a comparison (`through_cell`). A comparison that holds
takes the other branch from there (`cond_of_comparison_through_cell`).

What the formula is further down does not matter. A comparison inside a sum
has become a number before it is shown, and it is the number that goes
through the cell.
-/
import Spreadsheet.Proofs.Eval.Arithmetic
import Spreadsheet.Proofs.Number.Display
import Spreadsheet.Proofs.Recalculation.Refresh

namespace Spreadsheet

/-- Is the expression a comparison on the outside? -/
def Expr.isComparison : Expr → Bool
  | comparison .. => true
  | _ => false

namespace Eval

variable {env : Environment} {store : Store} {settings : Settings} {cell : Cell} {key : Text}
  {e : Expr} {x y : Binary64}

-- ====================================================== what is shown for a number

/-- Where a number is on the outside, it is the number that is
displayed. -/
theorem display_of_number (h : isNumberOutside e = true) (hnumber : number env e = .ok x) :
    display env e = .ok (.text (Number.display x)) := by
  rw [display_of_isNumberOutside env h, hnumber]
  rfl

/-- A comparison has the number of a truth value, and shows a word for
it. -/
theorem display_comparison (h : e.isComparison = true) (hnumber : number env e = .ok x) :
    ∃ truth, x = truthNumber truth ∧
      display env e = .ok (.text (if truth then "TRUE" else "FALSE")) := by
  cases e with
  | comparison op left right =>
      rw [number] at hnumber
      obtain ⟨a, ha, hnumber⟩ := bind_eq_ok.mp hnumber
      obtain ⟨b, hb, hnumber⟩ := bind_eq_ok.mp hnumber
      cases hnumber
      refine ⟨holds op a b, rfl, ?_⟩
      rw [display, text, ha, ok_bind, hb]
      · rfl
      all_goals
        intros
        contradiction
  | number | string | reference | range | name | unary | binary | call => cases h

/-- A word for a truth value is no number. -/
theorem leading?_word (truth : Bool) :
    Number.leading? (if truth then "TRUE" else "FALSE") = none := by
  cases truth <;> decide

theorem isComparison_of_isNumberOutside (h : isNumberOutside e = true) :
    e.isComparison = false := by
  cases e with
  | number | reference | unary | binary => rfl
  | string | range | name | comparison | call => cases h

-- ====================================================== what is read of a cell

/-- A cell that shows what its formula evaluates to is read as that,
unless it is nothing. -/
theorem shown_of_fresh {expression : Text} (content : Content)
    (hcell : store.find? key = some cell)
    (hformula : cell.formula = some (.text (.char '=' :: expression)))
    (hfresh : store.Fresh settings key)
    (hparse : Parser.parse (Text.trim expression) = .ok e)
    (hdisplay : display (.ofStore store settings) e = .ok content)
    (hcontent : content.isVoid = false) :
    (Environment.ofStore store settings).shown key = .ok content := by
  have hhas : cell.hasFormula = true := by
    rw [Cell.hasFormula, hformula]
    rfl
  have hshown : cell.display = some content := by
    rw [hfresh cell hcell hhas, hformula]
    simp only [evaluate, evaluateText, expressionText, hparse, hdisplay, orCode]
  show Except.ok (store.shown key) = _
  simp only [Store.shown, hcell, Cell.shown, hshown, hcontent]
  rfl

/-- The text shown for a number counts as the number, but for the sign
of a zero. -/
theorem numberOf_of_display (hx : x ≠ .nan)
    (hshown : env.shown key = .ok (.text (Number.display x))) :
    env.numberOf key = .ok (Number.withoutZeroSign x) := by
  rw [Environment.numberOf, hshown, ok_bind, Number.ofContent?, Number.leading?_display hx]
  rfl

/-- A number is never shown as nothing, so a cell with a number in it is
not taken for an empty one. -/
theorem display_ne_nil (hx : x ≠ .nan) : (Number.display x).isEmpty = false := by
  have hread := Number.leading?_display hx
  cases hdisplay : Number.display x with
  | nil =>
      rw [hdisplay] at hread
      cases hread
  | cons => rfl

-- ====================================================== conditions

/-- Conditions that are both zero or both not take the same branch. -/
theorem call_cond_congr {c c' : Expr} (hc : number env c = .ok x) (hc' : number env c' = .ok y)
    (h : x.isZero = y.isZero) (yes no : Expr) :
    call env .cond [c, yes, no] = call env .cond [c', yes, no] := by
  rw [call, call, hc, hc', ok_bind, ok_bind, h]

/-- A cell shows what its formula evaluates to, and the formula has a
number. A comparison that holds is shown as TRUE and counts as zero.
Otherwise the cell counts as the number of the formula, whatever is in
it further down, and an IF takes the same branch by the cell as by the
formula. -/
theorem through_cell {expression : Text} (hcell : store.find? key = some cell)
    (hformula : cell.formula = some (.text (.char '=' :: expression)))
    (hfresh : store.Fresh settings key)
    (hparse : Parser.parse (Text.trim expression) = .ok e)
    (hroot : isNumberOutside e = true ∨ e.isComparison = true)
    (hnumber : number (.ofStore store settings) e = .ok x) (hx : x ≠ .nan) :
    (e.isComparison = true ∧ x.isZero = false →
      store.shown key = .text "TRUE" ∧
        (Environment.ofStore store settings).numberOf key = .ok (.zero false)) ∧
    (¬ (e.isComparison = true ∧ x.isZero = false) →
      ∃ y, (Environment.ofStore store settings).numberOf key = .ok y ∧ y.eq x = true ∧
        ∀ yes no, call (.ofStore store settings) .cond [.reference key, yes, no]
          = call (.ofStore store settings) .cond [e, yes, no]) := by
  have hshown := fun content => shown_of_fresh content hcell hformula hfresh hparse
  have hreference : number (.ofStore store settings) (.reference key)
      = (Environment.ofStore store settings).numberOf key := by rw [number]
  rcases hroot with hnumeric | hcomparison
  · have hread := numberOf_of_display hx
      (hshown _ (display_of_number hnumeric hnumber) (display_ne_nil hx))
    obtain ⟨heq, hzero⟩ := Number.eq_withoutZeroSign hx
    refine ⟨?_, fun _ => ⟨_, hread, heq, ?_⟩⟩
    · intro hholds
      have hcomparison := hholds.1
      rw [isComparison_of_isNumberOutside hnumeric] at hcomparison
      cases hcomparison
    · exact call_cond_congr (hreference.trans hread) hnumber hzero
  · obtain ⟨truth, rfl, hdisplay⟩ := display_comparison hcomparison hnumber
    have hword := hshown _ hdisplay (by cases truth <;> decide)
    have hread : (Environment.ofStore store settings).numberOf key = .ok (.zero false) := by
      rw [Environment.numberOf, hword, ok_bind, Number.ofContent?, leading?_word]
      rfl
    cases truth with
    | true =>
        have hholds : (truthNumber true).isZero = false := by decide
        exact ⟨fun _ => ⟨Except.ok.inj hword, hread⟩, fun h => absurd ⟨hcomparison, hholds⟩ h⟩
    | false =>
        refine ⟨fun h => absurd h.2 (by decide), fun _ => ⟨_, hread, by decide, ?_⟩⟩
        exact call_cond_congr (hreference.trans hread) hnumber rfl

/-- A cell that shows a third of another. -/
def thirdStore : Store :=
  (Store.empty.put "B1" (.ofInput "-1")).put "A1"
    ⟨[], some (.text "=B1/3"), some (.text "-0.3333333333333333")⟩

/-- A third is shown in sixteen digits, and reads back from them. -/
theorem third_through_cell :
    ∃ y, (Environment.ofStore thirdStore { now := default }).numberOf "A1" = .ok y ∧
      y.eq (.finite true 0x15555555555555 1020 (by decide)) = true ∧
      call (.ofStore thirdStore { now := default }) .cond
          [.reference "A1", .string "yes", .string "no"]
        = call (.ofStore thirdStore { now := default }) .cond
          [.binary .div (.reference "B1") (.number "3"), .string "yes", .string "no"] := by
  have hparse : Parser.parse (Text.trim "B1/3")
      = .ok (.binary .div (.reference "B1") (.number "3")) := by cbv
  have hnumber : number (.ofStore thirdStore { now := default })
      (.binary .div (.reference "B1") (.number "3"))
        = .ok (.finite true 0x15555555555555 1020 (by decide)) :=
    toOption_eq_some.mp (by decide +kernel)
  have hdisplay : Number.display (.finite true 0x15555555555555 1020 (by decide))
      = "-0.3333333333333333" := by decide +kernel
  have hfresh : Store.Fresh { now := default } thirdStore "A1" := by
    intro cell hcell _
    cases hcell
    show _ = some (evaluateText _ (.char '=' :: ("B1/3" : Text)))
    simp only [evaluateText, expressionText, hparse, display_of_number rfl hnumber,
      orCode, hdisplay]
  have hnan : Binary64.finite true 0x15555555555555 1020 (by decide) ≠ .nan := by
    intro h
    cases h
  obtain ⟨y, hy, heq, hbranch⟩ :=
    (through_cell (Store.find?_put_self ..) rfl hfresh hparse (.inl rfl) hnumber hnan).2
      fun h => absurd h.1 (by decide)
  exact ⟨y, hy, heq, hbranch _ _⟩

/-- A comparison that holds takes the other branch from a cell. -/
theorem cond_of_comparison_through_cell :
    Parser.parse "1<2" = .ok (.comparison .less (.number "1") (.number "2")) ∧
      (evaluateText (.ofStore (Store.empty.put "A1" ⟨[], some (.text "=1<2"),
          some (.text "TRUE")⟩) { now := default }) "=1<2").plain = "TRUE" ∧
      (evaluateText (.ofStore (Store.empty.put "A1" ⟨[], some (.text "=1<2"),
          some (.text "TRUE")⟩) { now := default }) "=IF(1<2,\"yes\",\"no\")").plain = "yes" ∧
      (evaluateText (.ofStore (Store.empty.put "A1" ⟨[], some (.text "=1<2"),
          some (.text "TRUE")⟩) { now := default }) "=IF(A1,\"yes\",\"no\")").plain = "no" :=
  ⟨by cbv, by decide +kernel, by decide +kernel, by decide +kernel⟩

end Eval

end Spreadsheet

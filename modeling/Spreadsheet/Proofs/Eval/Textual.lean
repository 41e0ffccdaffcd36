/-
Stores of texts.

# Texts and other values

A client may put any JSON value in the place of a formula, and such a value
is handed on as it is: it may be shown, and read by other formulas. In a
store that was typed in there are texts only (`Store.Textual`), and
evaluation keeps it so: where every cell shows a text, every formula shows
one (`textOrNone_evaluate`).

# The argument

Every function yields a text or fails (`YieldsText`), with one lemma for
each group of functions. Only an IF and a lookup hand on what they find, the
one the text of a branch and the other what a cell shows, and both are texts
by what is assumed of the branch and of the store.

# What it is for

Among texts, a display that counts as unchanged is the same display
(`sameDisplay_text`). With other values it need not be, for a number may
equal another one that is written differently.
-/
import Spreadsheet.Proofs.Formula.Operands
import Spreadsheet.Recalculation

namespace Spreadsheet

-- ====================================================== contents

namespace Content

/-- A content that is a text. -/
def IsText (content : Content) : Prop := ∃ s, content = text s

theorem isText_text (s : Text) : (text s).IsText := ⟨s, rfl⟩

end Content

/-- A part of a cell that is missing or a text. -/
def TextOrNone (content : Option Content) : Prop := ∀ c, content = some c → c.IsText

theorem textOrNone_none : TextOrNone none := nofun

theorem textOrNone_text (s : Text) : TextOrNone (some (.text s)) := by
  intro c h
  cases h
  exact Content.isText_text s

/-- Among texts, the same display is an equal one. Other contents may be
the same without being equal, as 1 and 1.0 are. -/
theorem sameDisplay_text {display display' : Option Content} (h : TextOrNone display)
    (h' : TextOrNone display') : sameDisplay display display' = true ↔ display = display' := by
  cases display with
  | none => cases display' <;> simp [sameDisplay]
  | some c =>
      cases display' with
      | none => simp [sameDisplay]
      | some c' =>
          obtain ⟨s, rfl⟩ := h c rfl
          obtain ⟨s', rfl⟩ := h' c' rfl
          simp [sameDisplay, Content.same]

-- ====================================================== cells and stores

/-- A cell whose formula and display are texts, if they are there. -/
structure Cell.Textual (cell : Cell) : Prop where
  formula : TextOrNone cell.formula
  display : TextOrNone cell.display

theorem Cell.textual_ofInput (raw : Text) : (Cell.ofInput raw).Textual := by
  unfold Cell.ofInput
  split
  · exact ⟨textOrNone_text raw, textOrNone_none⟩
  · exact ⟨textOrNone_none, textOrNone_none⟩

theorem Cell.Textual.shown {cell : Cell} (h : cell.Textual) : cell.shown.IsText := by
  unfold Cell.shown
  split
  · next display hdisplay =>
    split
    · exact Content.isText_text _
    · exact h.display display hdisplay
  · exact Content.isText_text _

namespace Store

/-- A store of cells whose formulas and displays are texts. -/
def Textual (store : Store) : Prop := ∀ key cell, store.find? key = some cell → cell.Textual

theorem textual_empty : Textual empty := nofun

/-- A cell of texts keeps a store one of texts. -/
theorem Textual.put {store : Store} (h : store.Textual) {key : Text} {cell : Cell}
    (hcell : cell.Textual) : (store.put key cell).Textual := by
  intro k c hk
  rw [find?_put] at hk
  split at hk
  · cases hk
    exact hcell
  · exact h k c hk

theorem Textual.shown {store : Store} (h : store.Textual) (key : Text) :
    (store.shown key).IsText := by
  unfold Store.shown
  split
  · next cell hcell => exact (h key cell hcell).shown
  · exact Content.isText_text []

end Store

-- ====================================================== evaluation

namespace Eval

/-- What comes out, if anything does, is a text. -/
def YieldsText (result : Except Fault Content) : Prop :=
  ∀ content, result = .ok content → content.IsText

theorem yieldsText_ok (s : Text) : YieldsText (.ok (.text s)) := by
  intro content h
  cases h
  exact Content.isText_text s

theorem yieldsText_error (fault : Fault) : YieldsText (.error fault) := nofun

/-- A chain yields a text if its last step does. -/
theorem yieldsText_bind {α : Type} {x : Except Fault α} {f : α → Except Fault Content}
    (h : ∀ a, x = .ok a → YieldsText (f a)) : YieldsText (x >>= f) := by
  intro content hcontent
  obtain ⟨a, ha, hf⟩ := bind_eq_ok.mp hcontent
  exact h a ha content hf

theorem yieldsText_roundText (value places : Option Binary64) :
    YieldsText (roundText value places) := by
  unfold roundText
  split
  · split
    · exact yieldsText_error _
    · split
      · exact yieldsText_error _
      · split
        · exact yieldsText_error _
        · split
          · exact yieldsText_ok _
          · exact yieldsText_error _
  · exact yieldsText_error _

theorem yieldsText_textFunction (function : TextFunction) (content : Content) :
    YieldsText (textFunction function content) := by
  unfold textFunction
  split
  all_goals first | exact yieldsText_ok _ | exact yieldsText_error _

theorem yieldsText_clockText (settings : Settings) (function : ClockFunction) :
    YieldsText (clockText settings function) := by
  unfold clockText
  dsimp only
  split
  · exact yieldsText_error _
  · exact yieldsText_ok _

/-- An aggregate yields the text of a number. -/
theorem yieldsText_aggregate (env : Environment) (function : Aggregate) (args : List Expr) :
    YieldsText (aggregate env function args) := by
  refine yieldsText_bind fun keys _ => ?_
  split
  · exact yieldsText_bind fun _ _ => yieldsText_bind fun _ _ => yieldsText_ok _
  · exact yieldsText_bind fun _ _ => yieldsText_ok _
  · exact yieldsText_bind fun _ _ => yieldsText_ok _

section

variable {env : Environment} (henv : ∀ key, YieldsText (env.shown key))
include henv

/-- A lookup yields what a cell shows, which is a text if the cells of
the store are of texts. -/
theorem yieldsText_lookup (table : Range) (wanted : Content) (column : Int) (approximate : Bool) :
    YieldsText (lookup env table wanted column approximate) := by
  cases approximate with
  | true =>
      refine yieldsText_bind fun row _ => ?_
      cases row with
      | none => exact yieldsText_error _
      | some row => exact henv _
  | false =>
      refine yieldsText_bind fun row _ => ?_
      cases row with
      | none => exact yieldsText_error _
      | some row => exact henv _

/-- A function yields a text if its arguments do. The cases are the
functions, and most of them build the text themselves. -/
theorem yieldsText_call (function : Function) {args : List Expr}
    (hargs : ∀ arg ∈ args, YieldsText (text env arg)) :
    YieldsText (call env function args) := by
  rw [call.eq_def]
  split
  · exact yieldsText_aggregate env _ _
  · exact yieldsText_bind fun _ _ => yieldsText_bind fun _ _ => yieldsText_roundText _ _
  · exact yieldsText_ok _
  · exact yieldsText_bind fun _ _ => yieldsText_bind fun _ _ => yieldsText_bind fun _ _ =>
      yieldsText_ok _
  · exact yieldsText_bind fun _ _ => yieldsText_textFunction _ _
  · exact yieldsText_clockText _ _
  · next condition yes no =>
    refine yieldsText_bind fun x _ => ?_
    split
    · exact hargs no (by simp)
    · exact hargs yes (by simp)
  · exact yieldsText_bind fun _ _ => yieldsText_bind fun _ _ => yieldsText_bind fun _ _ =>
      yieldsText_bind fun _ _ => yieldsText_lookup henv _ _ _ _
  · exact yieldsText_bind fun _ _ => yieldsText_bind fun _ _ => yieldsText_bind fun _ _ =>
      yieldsText_bind fun _ _ => yieldsText_bind fun _ _ => yieldsText_lookup henv _ _ _ _
  all_goals exact yieldsText_error _

/-- Where cells show texts, so does an expression. The induction is that
of the evaluator. -/
theorem yieldsText_text (e : Expr) : YieldsText (text env e) := by
  induction e using Expr.inductionOn with
  | number | string | name =>
      rw [text]
      exact yieldsText_ok _
  | reference key =>
      rw [text]
      exact henv key
  | range =>
      rw [text]
      exact yieldsText_error _
  | unary =>
      rw [text]
      exact yieldsText_bind fun _ _ => yieldsText_ok _
  | binary =>
      rw [text]
      exact yieldsText_bind fun _ _ => yieldsText_bind fun _ _ => yieldsText_bind fun _ _ =>
        yieldsText_ok _
  | comparison =>
      rw [text]
      exact yieldsText_bind fun _ _ => yieldsText_bind fun _ _ => yieldsText_ok _
  | call name args ih =>
      rw [text]
      cases Function.ofName? name with
      | none => exact yieldsText_error _
      | some function => exact yieldsText_call henv function ih

theorem yieldsText_display (e : Expr) : YieldsText (display env e) := by
  unfold display
  split
  · exact yieldsText_bind fun _ _ => yieldsText_ok _
  · exact yieldsText_bind fun _ _ => yieldsText_ok _
  · exact yieldsText_bind fun _ _ => yieldsText_ok _
  · exact yieldsText_text henv e

end

theorem yieldsText_arithmeticText (settings : Settings) (expression : Text) :
    YieldsText (arithmeticText settings expression) := by
  unfold arithmeticText
  split
  · exact yieldsText_ok _
  · exact yieldsText_bind fun _ _ => yieldsText_bind fun _ _ => yieldsText_ok _

/-- A code is a text, so what is shown in place of a failure is one. -/
theorem isText_orCode {result : Except Fault Content} (h : YieldsText result) :
    (orCode result).IsText := by
  cases result with
  | ok content => exact h content rfl
  | error fault => exact Content.isText_text _

/-- In a store of texts a formula shows a text, by whichever way it came
to one: its value, the second chance or a code. -/
theorem evaluateText_isText {store : Store} (h : store.Textual) (settings : Settings)
    (formula : Text) : (evaluateText (.ofStore store settings) formula).IsText := by
  have henv : ∀ key, YieldsText ((Environment.ofStore store settings).shown key) := by
    intro key content hcontent
    cases hcontent
    exact h.shown key
  unfold evaluateText
  split
  · refine isText_orCode ?_
    unfold expressionText
    split
    · exact yieldsText_display henv _
    · exact yieldsText_arithmeticText _ _
  · exact Content.isText_text _

/-- In a store of texts, what a cell shows for its formula is a text, or
nothing where there is no formula. -/
theorem textOrNone_evaluate {store : Store} (h : store.Textual) (settings : Settings)
    {formula : Option Content} (hformula : TextOrNone formula) :
    TextOrNone (evaluate (.ofStore store settings) formula) := by
  intro c hc
  cases formula with
  | none => cases hc
  | some content =>
      obtain ⟨s, rfl⟩ := hformula content rfl
      cases hc
      exact evaluateText_isText h settings s

end Eval

end Spreadsheet

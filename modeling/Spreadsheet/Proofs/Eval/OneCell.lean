/-
A reference and the range from it to itself.

# Two keys

An aggregate of a reference reads the key that is spelled, and an aggregate
of the range from the reference to itself reads the key of the place that is
spelled. These are the same key exactly when the row is written without
needless zeros. A reference with a zero in front is a key of its own, under
which a cell may stand that no range ever comes to.

# Telling the formulas apart

Where the keys differ, a sheet with a number under the spelled key alone
tells the two formulas apart, whichever aggregate it is
(`aggregate_five_ne_empty`). Where they are the same, both formulas read one
cell, and an aggregate of one cell depends on nothing but what the cell
shows (`aggregate_congr_one`). So the formulas show the same on every sheet
just when the row is plain, and the same holds of the cells they are said to
read (`appliedTo_reference_eq_range_iff`).

# The parts of the formula

The two formulas are built from the text of the reference
(`Aggregate.appliedTo`), which may be in small letters and have blanks in
front. That they are read as a call with the one operand is a matter of
tokens (`lexemesOf_appliedTo`) and of the grammar.
-/
import Spreadsheet.Proofs.Eval.Literal
import Spreadsheet.Proofs.Formula.Spelling

namespace Spreadsheet

-- ====================================================== formulas of one operand

namespace Aggregate

/-- The name of an aggregate in a formula. -/
def name (function : Aggregate) : Text :=
  Text.ofString (Function.name (.aggregate function))

/-- The formula of an aggregate over what a text names. -/
def appliedTo (function : Aggregate) (argument : Text) : Text :=
  .char '=' :: (function.name ++ .char '(' :: (argument ++ [.char ')']))

example : appliedTo .sum "A1:B2" = Text.ofString "=SUM(A1:B2)" := by decide

theorem name_ne_nil (function : Aggregate) : function.name ≠ [] := by
  cases function <;> decide

theorem ofName?_name (function : Aggregate) :
    Function.ofName? function.name = some (.aggregate function) := by
  cases function <;> decide

end Aggregate

/-- An operand that an aggregate takes, and the expression it is. -/
inductive IsCells : Lexeme → Expr → Prop where
  | reference (key : Text) : IsCells (.reference key) (.reference key)
  | range (text : Text) : IsCells (.range text) (.range text)

variable {function : Aggregate} {argument : Text} {operand : Lexeme} {e : Expr}

namespace Lexer

theorem piece?_aggregate (function : Aggregate) (rest : Text) :
    piece? (function.name ++ .char '(' :: rest)
      = some (some (.name function.name), function.name.length) := by
  cases function <;> rfl

/-- What an aggregate is called on stands between its name and the last
parenthesis. -/
theorem lexemesOf_appliedTo
    (h : lexemesOf (tokens (argument ++ [.char ')'])) = some [operand, .closeParen]) :
    lexemesOf (tokens (function.name ++ .char '(' :: (argument ++ [.char ')'])))
      = some [.name function.name, .openParen, operand, .closeParen] := by
  rw [lexemesOf_append function.name_ne_nil (piece?_aggregate function _), ← List.singleton_append,
    lexemesOf_append (by decide) (piece?_openParen _), h]
  rfl

end Lexer

namespace Eval

/-- The formula is read as a call of the aggregate on its one
operand. -/
theorem parse_appliedTo (hoperand : IsCells operand e)
    (h : Lexer.lexemesOf (Lexer.tokens (argument ++ [.char ')'])) = some [operand, .closeParen]) :
    Parser.parse (Text.trim (function.name ++ .char '(' :: (argument ++ [.char ')'])))
      = .ok (.call function.name [e]) := by
  have hderives : Grammar.Derives .comparison [operand] e := by
    refine .operand (.firstTerm (.firstFactor (.unsigned ?_)))
    cases hoperand with
    | reference key => exact .reference key
    | range text => exact .range text
  have hcall : Grammar.Derives .comparison [.name function.name, .openParen, operand, .closeParen]
      (.call function.name [e]) :=
    .operand (.firstTerm (.firstFactor (.unsigned
      (.call function.name [([operand], e)] (by simpa using hderives)))))
  exact Parser.parse_trim_of_derives (Lexer.lexemesOf_appliedTo h) hcall

/-- A formula that is read as a call of an aggregate shows what the
aggregate gives. -/
theorem evaluateText_aggregate (env : Environment) {expression : Text} {args : List Expr}
    (h : Parser.parse (Text.trim expression) = .ok (.call function.name args)) :
    evaluateText env (.char '=' :: expression) = orCode (aggregate env function args) := by
  have hdisplay : display env (.call function.name args) = Eval.text env (.call function.name args) :=
    rfl
  simp only [evaluateText, expressionText, h]
  rw [hdisplay, Eval.text, Aggregate.ofName?_name]
  dsimp only
  rw [call]

/-- The formula shows what the aggregate gives for its one operand. -/
theorem evaluateText_appliedTo (env : Environment) (hoperand : IsCells operand e)
    (h : Lexer.lexemesOf (Lexer.tokens (argument ++ [.char ')'])) = some [operand, .closeParen]) :
    evaluateText env (function.appliedTo argument) = orCode (aggregate env function [e]) :=
  evaluateText_aggregate env (parse_appliedTo hoperand h)

end Eval

/-- The formula reads the keys of its one operand, for the name of the
aggregate and the parentheses read nothing. -/
theorem Formula.readsOfText_appliedTo
    (h : Lexer.lexemesOf (Lexer.tokens (argument ++ [.char ')'])) = some [operand, .closeParen]) :
    readsOfText (function.appliedTo argument) = keysOf operand := by
  unfold Aggregate.appliedTo
  rw [readsOfText_of_lexemesOf (Lexer.lexemesOf_appliedTo h)]
  simp only [List.mapM_cons, List.mapM_nil]
  cases hkeys : keysOf operand with
  | error fault => rfl
  | ok keys =>
      show Except.ok ([] ++ ([] ++ (keys ++ ([] ++ [])))) = Except.ok keys
      simp

-- ====================================================== one cell

/-- The range from a place to itself has one cell. -/
theorem Range.cells_spanning_self (place : Reference) :
    (spanning place place).cells = [place.key] := by
  have hone : ∀ n : Int, integers n n = [n] := fun n => by
    unfold integers
    rw [show (n - n + 1).toNat = 1 by omega, List.range_one, List.map_singleton]
    simp
  unfold cells
  simp only [spanning, Int.min_self, Int.max_self, hone]
  rfl

/-- The range from a key to itself is expanded to the key of its
place. -/
theorem Range.expand_pair {key : Text} {place : Reference} (hcolon : .char ':' ∉ key)
    (hblank : ∀ c ∈ key, Text.isBlank c = false)
    (hplace : Reference.parse? key = .ok (some place)) :
    expand (key ++ .char ':' :: key) = .ok [place.key] := by
  have hne : key ≠ [] := by
    rintro rfl
    cases hplace
  have hcorner : ∀ c ∈ key, decide (c ≠ .char ':') = true := fun c hc =>
    decide_eq_true fun heq => hcolon (heq ▸ hc)
  have hcorners : corners? (key ++ .char ':' :: key) = some (key, key) := by
    have hfirst : (key ++ .char ':' :: key).takeWhile (· ≠ .char ':') = key := by
      rw [List.takeWhile_append_of_pos hcorner]
      simp
    have hrest : (key ++ .char ':' :: key).dropWhile (· ≠ .char ':') = .char ':' :: key := by
      rw [List.dropWhile_append_of_pos hcorner]
      simp
    unfold corners?
    rw [hfirst, hrest]
    simp [hne, hcolon]
  unfold expand parse?
  simp only [hcorners, Text.trim_of_forall hblank, hplace]
  exact congrArg Except.ok (cells_spanning_self place)

namespace Eval

open Lexer (Spells)

variable {r key letters figures : Text} {start : Nat}

/-- What an aggregate makes of one cell depends on nothing but what the
cell shows. -/
theorem aggregate_congr_one {env env' : Environment} {args args' : List Expr} {key key' : Text}
    (hargs : aggregateKeys function args = .ok [key])
    (hargs' : aggregateKeys function args' = .ok [key'])
    (hshown : env.shown key = env'.shown key') :
    aggregate env function args = aggregate env' function args' := by
  unfold aggregate
  rw [hargs, hargs', ok_bind, ok_bind]
  cases function <;>
    simp only [List.mapM_cons, List.mapM_nil, Environment.numberOf, hshown]

/-- Every aggregate tells a cell with a number from an empty one. The
number five will do for all of them, which is checked one by one. -/
theorem aggregate_five_ne_empty (function : Aggregate) :
    (orCode (aggregate ⟨fun _ => .ok (.text "5"), { now := default }⟩ function
        [.reference []])).plain
      ≠ (orCode (aggregate ⟨fun _ => .ok (.text []), { now := default }⟩ function
          [.reference []])).plain := by
  cases function <;> decide +kernel

/-- Aggregates of two cells show the same on every sheet only if it is
one cell. -/
theorem aggregate_eq_iff {args args' : List Expr} {key key' : Text}
    (hargs : aggregateKeys function args = .ok [key])
    (hargs' : aggregateKeys function args' = .ok [key']) :
    (∀ store settings, orCode (aggregate (.ofStore store settings) function args)
      = orCode (aggregate (.ofStore store settings) function args')) ↔ key = key' := by
  constructor
  · intro h
    by_contra hne
    have hfive : (Store.empty.put key (.ofInput "5")).shown key = .text "5" := by
      rw [Store.shown, Store.find?_put_self]
      rfl
    have hempty : (Store.empty.put key (.ofInput "5")).shown key' = .text [] := by
      rw [Store.shown, Store.find?_put_of_ne (Ne.symm hne)]
      rfl
    have hone : ∀ other : Text, aggregateKeys function [.reference other] = .ok [other] :=
      fun _ => rfl
    have hvalue : aggregate (.ofStore (Store.empty.put key (.ofInput "5")) { now := default })
          function args
        = aggregate ⟨fun _ => .ok (.text "5"), { now := default }⟩ function [.reference []] :=
      aggregate_congr_one hargs (hone []) (congrArg Except.ok hfive)
    have hvalue' : aggregate (.ofStore (Store.empty.put key (.ofInput "5")) { now := default })
          function args'
        = aggregate ⟨fun _ => .ok (.text []), { now := default }⟩ function [.reference []] :=
      aggregate_congr_one hargs' (hone []) (congrArg Except.ok hempty)
    have hsame := h (Store.empty.put key (.ofInput "5")) { now := default }
    rw [hvalue, hvalue'] at hsame
    exact aggregate_five_ne_empty function (congrArg Content.plain hsame)
  · rintro rfl store settings
    rw [aggregate_congr_one hargs hargs' rfl]

/-- An aggregate reads the key that a reference spells, and of the range
from the reference to itself the key of the place. The two formulas show
the same on every sheet, and read the same cells, exactly when the row
has no needless zero in front. -/
theorem appliedTo_reference_eq_range_iff (hr : Lexer.tokens r = .ok [⟨.reference key, start⟩])
    (hkey : Reference.split? key = some (letters, figures))
    (hlimit : figures.length ≤ Decimal.maxDigits) (function : Aggregate) :
    ((∀ store settings, evaluateText (.ofStore store settings) (function.appliedTo r)
        = evaluateText (.ofStore store settings) (function.appliedTo (r ++ .char ':' :: r))) ↔
      Decimal.IsPlain figures) ∧
    (Formula.readsOfText (function.appliedTo r)
        = Formula.readsOfText (function.appliedTo (r ++ .char ':' :: r)) ↔
      Decimal.IsPlain figures) := by
  have hlexemes : Lexer.lexemesOf (Lexer.tokens r) = some [.reference key] := by
    rw [hr]
    rfl
  obtain ⟨before, name, after, rfl, hspells, hbefore, hafter⟩ := Lexer.exists_spelling hlexemes
  have hreference := Lexer.lexemesOf_reference hspells hbefore hafter
  have hrange := Lexer.lexemesOf_range hspells hbefore hafter
  have hparts := hspells.parts hkey
  obtain ⟨hletters, hfigures, hall, hall', -⟩ := Reference.split?_eq_some hkey
  have hupper : Text.upper key = key := by
    rw [← hspells.upper, Text.upper_upper]
  have hplace := Reference.parse?_eq_some (hupper.symm ▸ hkey) hlimit
  have hcolon : .char ':' ∉ key := fun hmem =>
    absurd (hspells.alphanumeric_key _ hmem) (by decide)
  have hblank : ∀ c ∈ key, Text.isBlank c = false := fun c hc =>
    Lexer.isBlank_of_isAlphanumeric (hspells.alphanumeric_key c hc)
  have hexpand := Range.expand_pair hcolon hblank hplace
  have hplain : key = Reference.key ⟨Column.ofLetters letters, Decimal.valueOf figures - 1⟩ ↔
      Decimal.IsPlain figures := by
    rw [eq_comm, hparts, Reference.key_of_parts_iff hletters hfigures hall hall']
  constructor
  · simp only [evaluateText_appliedTo _ (.reference key) hreference,
      evaluateText_appliedTo _ (.range _) hrange]
    have hone : aggregateKeys function [.reference key] = .ok [key] := rfl
    have hpair : aggregateKeys function [.range (key ++ .char ':' :: key)] = .ok [_] := hexpand
    rw [aggregate_eq_iff hone hpair, hplain]
  · rw [Formula.readsOfText_appliedTo hreference, Formula.readsOfText_appliedTo hrange,
      Formula.keysOf, Formula.keysOf, hexpand, ← hplain]
    simp

/-- A cell in column AB and the range from it to itself, in another case
and after a blank. -/
theorem appliedTo_reference_eq_range_ab10 :
    (∀ store settings, evaluateText (.ofStore store settings) (Aggregate.appliedTo .average " ab10")
        = evaluateText (.ofStore store settings)
            (Aggregate.appliedTo .average ((" ab10" : Text) ++ .char ':' :: " ab10"))) ∧
      Formula.readsOfText (Aggregate.appliedTo .average " ab10")
        = Formula.readsOfText
            (Aggregate.appliedTo .average ((" ab10" : Text) ++ .char ':' :: " ab10")) := by
  have hr : Lexer.tokens " ab10" = .ok [⟨.reference "AB10", 1⟩] := by rfl
  have hkey : Reference.split? "AB10" = some (Text.ofString "AB", Text.ofString "10") := by decide
  have h := appliedTo_reference_eq_range_iff hr hkey (by decide) .average
  exact ⟨h.1.mpr (by decide), h.2.mpr (by decide)⟩

/-- With a zero in front of the row, the sum over a reference and the
sum over the range from it to itself read two cells. -/
theorem sum_of_zero_in_front :
    Lexer.tokens "A01" = .ok [⟨.reference "A01", 0⟩] ∧
      (evaluateText (.ofStore (Store.empty.put "A01" (.ofInput "5")) { now := default })
          "=SUM(A01)").plain = "5" ∧
      (evaluateText (.ofStore (Store.empty.put "A01" (.ofInput "5")) { now := default })
          "=SUM(A01:A01)").plain = "0" ∧
      Formula.readsOfText "=SUM(A01)" = .ok ["A01"] ∧
      Formula.readsOfText "=SUM(A01:A01)" = .ok ["A1"] := by
  have hlexemes : Lexer.lexemesOf (Lexer.tokens (Text.ofString "A01:A01" ++ [.char ')']))
      = some [.range "A01:A01", .closeParen] := by rfl
  have hreads : Formula.readsOfText (Aggregate.appliedTo .sum "A01:A01") = Range.expand "A01:A01" :=
    Formula.readsOfText_appliedTo hlexemes
  have hexpand : Range.expand "A01:A01" = .ok [Reference.key ⟨0, 0⟩] := by
    have hcolon : .char ':' ∉ Text.ofString "A01" := by decide
    exact Range.expand_pair hcolon (by decide) (by rfl)
  have hkey : Reference.key ⟨0, 0⟩ = "A1" := by
    rw [Reference.key, Column.label, if_neg (by decide), Column.lettersOf, if_pos (by decide)]
    rfl
  rw [hexpand, hkey] at hreads
  exact ⟨by rfl, by decide +kernel, by decide +kernel, by rfl, hreads⟩

end Eval

end Spreadsheet

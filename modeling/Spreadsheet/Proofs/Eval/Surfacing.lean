/-
Failures inside comparisons.

# From a part to the whole

What is evaluated is evaluated as a part of something, and the evaluation of
the whole comes to the part once all that stands before it has been
evaluated (`ComesTo`, one rule for each place of an operand or an argument).
A failure goes from a part to the whole, save where the whole asks for a
number that may be missing: there a failure with the code #VALUE! is taken
for the missing number, and any other failure goes through
(`fails_of_comesTo`). Along a run of such steps it reaches the formula
(`fails_of_reflTransGen`), and the cell shows its code. The induction is on
the steps; that the code is not #VALUE! is all it has to carry.

# Comparisons

A comparison asks for its operands in that way. So a call that is an operand
of a comparison and fails surfaces exactly if its failure has another code
than #VALUE! (`comparison_fails_iff`). With the code #VALUE! the call counts
as what is no number, the comparison holds if it says that two things
differ, and an IF goes on with one of its branches
(`cond_of_failing_round`).

# What is never come to

An aggregate evaluates none of its arguments, for it takes their keys, and
an IF one of its branches only. A failure in the other branch never happens,
and there is no rule for it.
-/
import Mathlib
import Spreadsheet.Proofs.Eval.Arithmetic

namespace Spreadsheet.Eval

variable {env : Environment} {e left right part : Expr} {f : Failure}

-- ====================================================== failing expressions

/-- An expression has neither a text nor a number, both for the same
reason. -/
structure Fails (env : Environment) (e : Expr) (f : Failure) : Prop where
  text : text env e = .error (.failure f)
  number : number env e = .error (.failure f)

/-- A call that has no text has no number. -/
theorem fails_of_text_call {name : Text} {args : List Expr}
    (h : text env (.call name args) = .error (.failure f)) : Fails env (.call name args) f where
  text := h
  number := number_eq_error_of_call h

theorem Fails.display (h : Fails env e f) : display env e = .error (.failure f) := by
  have hnumber := h.number
  cases e with
  | reference | name | number =>
      rw [Eval.number] at hnumber
      rw [Eval.display, hnumber]
      rfl
  | string | range | unary | binary | comparison | call => exact h.text

/-- A bare name has a text, even one that names nothing. So what fails
for its text is no bare name. -/
theorem Fails.isName (h : Fails env e f) : e.isName = false := by
  cases e with
  | name name =>
      have htext := h.text
      rw [Eval.text] at htext
      cases htext
  | number | string | reference | range | unary | binary | comparison | call => rfl

/-- A number may be missing for a failure with the code #VALUE! and for
no other. -/
theorem Fails.orMissing (h : Fails env e f) :
    orMissing e (Eval.number env e)
      = if f.code = .value then .ok none else .error (.failure f) := by
  rw [h.number]
  simp [Eval.orMissing, h.isName]

/-- A number that is asked for and may be missing never fails with the
code #VALUE!. -/
theorem code_ne_of_orNan {result : Except Fault Binary64}
    (h : orNan e result = .error (.failure f)) : f.code ≠ .value := by
  cases result with
  | ok x => cases h
  | error fault =>
      cases fault with
      | failure g =>
          intro hcode
          by_cases hmissing : (g.code = .value || e.isName) = true
          · rw [orNan, Eval.orMissing, if_pos hmissing] at h
            cases h
          · rw [orNan, Eval.orMissing, if_neg hmissing] at h
            cases h
            simp [hcode] at hmissing
      | _ => cases h

/-- Where a number may be missing, a failing part is what is no number,
or it fails on. -/
theorem Fails.orNan (h : Fails env e f) :
    orNan e (Eval.number env e) = if f.code = .value then .ok .nan else .error (.failure f) := by
  rw [Eval.orNan, h.orMissing]
  split <;> rfl

-- ====================================================== from a part to the whole

/-- The evaluation of a function comes to one of its arguments: those
that it evaluates before have been evaluated. An aggregate evaluates
none, and an IF one of its branches. -/
inductive ComesToArgument (env : Environment) : Function → List Expr → Expr → Prop where
  | value (value places : Expr) : ComesToArgument env .round [value, places] value
  | places {value places : Expr} {x : Option Binary64}
      (hvalue : orMissing value (number env value) = .ok x) :
      ComesToArgument env .round [value, places] places
  | joined {before : List Expr} {part : Expr} {after : List Expr}
      (hbefore : ∀ arg ∈ before, ∃ content, text env arg = .ok content) :
      ComesToArgument env .concat (before ++ part :: after) part
  | text (function : TextFunction) (arg : Expr) : ComesToArgument env (.text function) [arg] arg
  | condition (condition yes no : Expr) :
      ComesToArgument env .cond [condition, yes, no] condition
  | yes {condition yes no : Expr} {x : Binary64} (hcondition : number env condition = .ok x)
      (hx : x.isZero = false) : ComesToArgument env .cond [condition, yes, no] yes
  | no {condition yes no : Expr} {x : Binary64} (hcondition : number env condition = .ok x)
      (hx : x.isZero = true) : ComesToArgument env .cond [condition, yes, no] no
  | wanted (wanted table column : Expr) (sorted : Option Expr) :
      ComesToArgument env .lookup (wanted :: table :: column :: sorted.toList) wanted
  | column {wanted table column : Expr} {sorted : Option Expr} {content : Content}
      {cells : Range} (hwanted : Eval.text env wanted = .ok content)
      (htable : lookupTable table = .ok cells) :
      ComesToArgument env .lookup (wanted :: table :: column :: sorted.toList) column
  | sorted {wanted table column sorted : Expr} {content : Content} {cells : Range}
      {x : Option Binary64} {n : Int} (hwanted : Eval.text env wanted = .ok content)
      (htable : lookupTable table = .ok cells)
      (hnumber : orMissing column (number env column) = .ok x)
      (hcolumn : lookupColumn cells x = .ok n) :
      ComesToArgument env .lookup [wanted, table, column, sorted] sorted

/-- The evaluation of an expression comes to one of its parts. -/
inductive ComesTo (env : Environment) : Expr → Expr → Prop where
  | operand (sign : Sign) (operand : Expr) : ComesTo env (.unary sign operand) operand
  | left (op : Operator) (left right : Expr) : ComesTo env (.binary op left right) left
  | right {op : Operator} {left right : Expr} {x : Binary64} (hleft : number env left = .ok x) :
      ComesTo env (.binary op left right) right
  | comparedLeft (op : Comparator) (left right : Expr) :
      ComesTo env (.comparison op left right) left
  | comparedRight {op : Comparator} {left right : Expr} {x : Binary64}
      (hleft : orNan left (number env left) = .ok x) :
      ComesTo env (.comparison op left right) right
  | argument {name : Text} {function : Function} {args : List Expr} {part : Expr}
      (hfunction : Function.ofName? name = some function)
      (hpart : ComesToArgument env function args part) : ComesTo env (.call name args) part

/-- A failing text after texts that do not fail is the failure of what
they are joined to. -/
theorem joined_eq_error {before after : List Expr}
    (hbefore : ∀ arg ∈ before, ∃ content, text env arg = .ok content) (h : Fails env part f) :
    joined env (before ++ part :: after) = .error (.failure f) := by
  induction before with
  | nil =>
      rw [List.nil_append, joined, h.text]
      rfl
  | cons first before ih =>
      obtain ⟨content, hcontent⟩ := hbefore first (List.mem_cons_self ..)
      rw [List.cons_append, joined, hcontent, ok_bind,
        ih fun arg harg => hbefore arg (List.mem_cons_of_mem _ harg)]
      rfl

/-- The text of a concatenation is that of its arguments, joined, and it
fails as the first of them that does. -/
theorem call_concat (env : Environment) (args : List Expr) :
    call env .concat args = do return .text (← joined env args) := by
  cases args with
  | nil =>
      rw [call, joined]
      rfl
  | cons first others =>
      rw [call, joined]
      simp only [bind_assoc, pure_bind]

/-- A failure of an argument with another code than #VALUE! is the
failure of the call. -/
theorem call_eq_error {function : Function} {args : List Expr}
    (hpart : ComesToArgument env function args part) (h : Fails env part f)
    (hcode : f.code ≠ .value) : call env function args = .error (.failure f) := by
  have hmissing : orMissing part (number env part) = .error (.failure f) := by
    rw [h.orMissing, if_neg hcode]
  cases hpart with
  | value value places =>
      rw [call, hmissing]
      rfl
  | places hvalue =>
      rw [call, hvalue, ok_bind, hmissing]
      rfl
  | joined hbefore =>
      rw [call_concat, joined_eq_error hbefore h]
      rfl
  | text function arg =>
      rw [call, h.text]
      rfl
  | condition condition yes no =>
      rw [call, h.number]
      rfl
  | yes hcondition hx =>
      rw [call, hcondition, ok_bind, hx]
      exact h.text
  | no hcondition hx =>
      rw [call, hcondition, ok_bind, hx]
      exact h.text
  | wanted wanted table column sorted =>
      cases sorted <;>
        · rw [Option.toList, call, h.text]
          rfl
  | @column wanted table column sorted content cells hwanted htable =>
      cases sorted <;>
        · rw [Option.toList, call, hwanted, ok_bind, htable, ok_bind, hmissing]
          rfl
  | sorted hwanted htable hnumber hcolumn =>
      rw [call, hwanted, ok_bind, htable, ok_bind, hnumber, ok_bind, hcolumn, ok_bind, h.number]
      rfl

/-- A failure of a part with another code than #VALUE! is the failure of
the whole. -/
theorem fails_of_comesTo (hpart : ComesTo env e part) (h : Fails env part f)
    (hcode : f.code ≠ .value) : Fails env e f := by
  have hnan : orNan part (number env part) = .error (.failure f) := by
    rw [h.orNan, if_neg hcode]
  cases hpart with
  | operand sign operand =>
      constructor
      · rw [text, h.number]
        rfl
      · rw [number, h.number]
        rfl
  | left op left right =>
      constructor
      · rw [text, h.number]
        rfl
      · rw [number, h.number]
        rfl
  | right hleft =>
      constructor
      · rw [text, hleft, ok_bind, h.number]
        rfl
      · rw [number, hleft, ok_bind, h.number]
        rfl
  | comparedLeft op left right =>
      constructor
      · rw [text, hnan]
        rfl
      · rw [number, hnan]
        rfl
  | comparedRight hleft =>
      constructor
      · rw [text, hleft, ok_bind, hnan]
        rfl
      · rw [number, hleft, ok_bind, hnan]
        rfl
  | argument hfunction hpart =>
      refine fails_of_text_call ?_
      rw [text, hfunction]
      exact call_eq_error hpart h hcode

/-- A failure with another code than #VALUE! gets through to whatever
comes to where it arises. -/
theorem fails_of_reflTransGen (hcomes : Relation.ReflTransGen (ComesTo env) e part)
    (h : Fails env part f) (hcode : f.code ≠ .value) : Fails env e f := by
  induction hcomes using Relation.ReflTransGen.head_induction_on with
  | refl => exact h
  | head hstep _ ih => exact fails_of_comesTo hstep ih hcode

/-- What fails as a whole shows the code of its failure. -/
theorem Fails.evaluateText {expression : Text} (h : Fails env e f)
    (hparse : Parser.parse (Text.trim expression) = .ok e) :
    evaluateText env (.char '=' :: expression) = .text f.code.text := by
  simp only [Eval.evaluateText, expressionText, hparse, h.display]
  rfl

-- ====================================================== comparisons

/-- A comparison comes to an operand that is a call and fails: the left
one, or the right one where the left one has been evaluated. -/
inductive FailingOperand (env : Environment) : Expr → Expr → Failure → Prop where
  | left {name : Text} {args : List Expr} {right : Expr} {f : Failure}
      (h : text env (.call name args) = .error (.failure f)) :
      FailingOperand env (.call name args) right f
  | right {left : Expr} {x : Binary64} {name : Text} {args : List Expr} {f : Failure}
      (hleft : orNan left (number env left) = .ok x)
      (h : text env (.call name args) = .error (.failure f)) :
      FailingOperand env left (.call name args) f

/-- With what is no number on a side, only a comparison for being
different holds. -/
theorem holds_nan {op : Comparator} {x y : Binary64} (h : x = .nan ∨ y = .nan) :
    holds op x y = decide (op = .unequal ∨ op = .angleUnequal) := by
  have hcompare : x.compare? y = none := by
    rcases h with rfl | rfl
    · rfl
    · cases x <;> rfl
  cases op <;>
    simp [holds, Binary64.gt, Binary64.lt, Binary64.ge, Binary64.le, Binary64.eq, hcompare]

/-- A comparison with a failing operand fails exactly by another code
than #VALUE!. -/
theorem FailingOperand.fails_iff (h : FailingOperand env left right f) (op : Comparator) :
    Fails env (.comparison op left right) f ↔ f.code ≠ .value := by
  constructor
  · intro hfails hcode
    have htext := hfails.text
    cases h with
    | left h =>
        rw [text, (fails_of_text_call h).orNan, if_pos hcode, ok_bind] at htext
        cases hright : orNan right (number env right) with
        | ok y =>
            rw [hright] at htext
            cases htext
        | error fault =>
            rw [hright] at htext
            cases htext
            exact code_ne_of_orNan hright hcode
    | right hleft h =>
        rw [text, hleft, ok_bind, (fails_of_text_call h).orNan, if_pos hcode] at htext
        cases htext
  · intro hcode
    cases h with
    | left h => exact fails_of_comesTo (.comparedLeft ..) (fails_of_text_call h) hcode
    | right hleft h => exact fails_of_comesTo (.comparedRight hleft) (fails_of_text_call h) hcode

/-- A failing operand with the code #VALUE! counts as what is no
number. -/
theorem FailingOperand.holds_eq (h : FailingOperand env left right f) (hcode : f.code = .value)
    (op : Comparator) {x y : Binary64} (hleft : orNan left (number env left) = .ok x)
    (hright : orNan right (number env right) = .ok y) :
    holds op x y = decide (op = .unequal ∨ op = .angleUnequal) := by
  refine holds_nan ?_
  cases h with
  | left h =>
      rw [(fails_of_text_call h).orNan, if_pos hcode] at hleft
      exact .inl (Except.ok.inj hleft).symm
  | right _ h =>
      rw [(fails_of_text_call h).orNan, if_pos hcode] at hright
      exact .inr (Except.ok.inj hright).symm

/-- A comparison with a call that fails fails itself exactly if the code
is not #VALUE!. Then the failure shows in every cell whose evaluation
comes to the comparison, be it the whole formula, the condition of an IF
or an operand. With the code #VALUE! the comparison is true if it says
that its operands differ and false otherwise. -/
theorem comparison_fails_iff (h : FailingOperand env left right f) (op : Comparator) :
    (Fails env (.comparison op left right) f ↔ f.code ≠ .value) ∧
      (f.code ≠ .value → ∀ expression e, Parser.parse (Text.trim expression) = .ok e →
        Relation.ReflTransGen (ComesTo env) e (.comparison op left right) →
        evaluateText env (.char '=' :: expression) = .text f.code.text) ∧
      (f.code = .value → ∀ x y, orNan left (number env left) = .ok x →
        orNan right (number env right) = .ok y →
        text env (.comparison op left right)
          = .ok (.text (if op = .unequal ∨ op = .angleUnequal then "TRUE" else "FALSE"))) := by
  refine ⟨h.fails_iff op, fun hcode expression e hparse hcomes => ?_, fun hcode x y hx hy => ?_⟩
  · have hcomparison := (h.fails_iff op).mpr hcode
    exact (fails_of_reflTransGen hcomes hcomparison hcode).evaluateText hparse
  · rw [text, hx, ok_bind, hy, ok_bind, h.holds_eq hcode op hx hy]
    simp only [decide_eq_true_eq]
    rfl

/-- A lookup that finds nothing, on the right of the condition of an IF:
its code is what the cell shows. -/
theorem comparison_fails_lookup :
    evaluateText (.ofStore .empty { now := default })
        "=IF(1<VLOOKUP(\"x\",A1:B2,1),\"a\",\"b\")" = .text "#N/A" := by
  have hone : number (.ofStore .empty { now := default }) (.number "1") = .ok Binary64.one :=
    toOption_eq_some.mp (by decide +kernel)
  have htable : lookupTable (.range "A1:B2") = .ok (Range.spanning ⟨0, 0⟩ ⟨1, 1⟩) := by rfl
  have hcolumn : lookupColumn (Range.spanning ⟨0, 0⟩ ⟨1, 1⟩) (some Binary64.one) = .ok 0 :=
    toOption_eq_some.mp (by decide +kernel)
  have hlookup : text (.ofStore .empty { now := default })
      (.call "VLOOKUP" [.string "x", .range "A1:B2", .number "1"])
        = .error (.failure (.notFound (.text "x"))) := by
    have hname : Function.ofName? "VLOOKUP" = some .lookup := by decide
    rw [text, hname]
    dsimp only
    rw [call, text, ok_bind, htable, ok_bind, hone, orMissing, ok_bind, hcolumn, ok_bind]
    rfl
  have hleft : orNan (.number "1") (number (.ofStore .empty { now := default }) (.number "1"))
      = .ok Binary64.one := by
    rw [hone]
    rfl
  have hoperand : FailingOperand (.ofStore .empty { now := default }) (.number "1")
      (.call "VLOOKUP" [.string "x", .range "A1:B2", .number "1"]) (.notFound (.text "x")) :=
    .right hleft hlookup
  have hparse : Parser.parse (Text.trim "IF(1<VLOOKUP(\"x\",A1:B2,1),\"a\",\"b\")")
      = .ok (.call "IF" [.comparison .less (.number "1")
          (.call "VLOOKUP" [.string "x", .range "A1:B2", .number "1"]), .string "a",
          .string "b"]) := by
    cbv
  exact (comparison_fails_iff hoperand .less).2.1 (by decide) _ _ hparse
    (.single (.argument (show _ = some Function.cond by decide) (.condition ..)))

/-- A call with too few arguments in the condition of an IF: it fails,
and the IF goes on with its last argument. -/
theorem cond_of_failing_round :
    Parser.parse "IF(ROUND(5)>1,\"big\",\"small\")"
        = .ok (.call "IF" [.comparison .greater (.call "ROUND" [.number "5"]) (.number "1"),
            .string "big", .string "small"]) ∧
      text (.ofStore .empty { now := default }) (.call "ROUND" [.number "5"])
        = .error (.failure (.argumentCount .round 2 1)) ∧
      (evaluateText (.ofStore .empty { now := default }) "=ROUND(5)").plain = "#VALUE!" ∧
      (evaluateText (.ofStore .empty { now := default })
          "=IF(ROUND(5)>1,\"big\",\"small\")").plain = "small" :=
  ⟨by cbv, by rfl, by decide +kernel, by decide +kernel⟩

end Spreadsheet.Eval

/-
Error codes in arithmetic.

# The order of evaluation

Arithmetic evaluates its operands from left to right, an operand after its
own operands, and stops at the first that has no number
(`number_eq_error_of_evaluated`). The order is written out as a list
(`Expr.evaluated`), so which operand is the first can be said without going
through the tree once more. What is not arithmetic is in the list as a
whole: what happens inside a call is its own affair.

# Two ways to a code

Where that operand is a call whose own result is an error code, the code may
have come about in two ways. A call that fails hands its failure on, and the
whole formula shows the same code. A call can also succeed with the text of
a code, which it read in a cell; this text is no number, so the formula
fails on its own account and shows #VALUE!. Hence the code of the call is
the code of the formula exactly if the call failed, or is the whole formula,
or came to #VALUE! (`error_code_shown_iff`).

# A code that is lost

An error code that an IF reads in a cell is lost in a sum
(`sum_of_code_read`): by itself the IF shows the code, and in the sum it is
a text without a number.
-/
import Mathlib
import Spreadsheet.Eval.Formula
import Spreadsheet.Proofs.Formula.Operands
import Spreadsheet.Proofs.Outcome

namespace Spreadsheet

/-- The arithmetic of an expression in the order of evaluation: every
operand of a sign or of an operator after its own operands, and the
expression itself at the end. -/
def Expr.evaluated : Expr → List Expr
  | .unary sign operand => evaluated operand ++ [.unary sign operand]
  | .binary op left right => evaluated left ++ evaluated right ++ [.binary op left right]
  | e => [e]

theorem Expr.self_mem_evaluated (e : Expr) : e ∈ e.evaluated := by
  cases e <;> simp [evaluated]

namespace ErrorCode

/-- The codes are told apart by their texts. -/
theorem text_inj {code code' : ErrorCode} : code.text = code'.text ↔ code = code' := by
  cases code <;> cases code' <;> decide

/-- No code starts with a numeral, so none counts as a number. -/
theorem leading?_text (code : ErrorCode) : Number.leading? code.text = none := by
  cases code <;> decide

end ErrorCode

namespace Eval

variable {env : Environment} {e part : Expr} {name : Text} {args : List Expr} {code : ErrorCode}

-- ====================================================== the first operand without a number

/-- A place in a list that is joined of two is in the first or, past all
of that, in the second. -/
theorem split_of_append {α : Type} {xs ys before after : List α} {a : α}
    (h : xs ++ ys = before ++ a :: after) :
    (∃ rest, xs = before ++ a :: rest) ∨
      ∃ between, before = xs ++ between ∧ ys = between ++ a :: after := by
  rcases List.append_eq_append_iff.mp h with ⟨between, hbefore, hys⟩ | ⟨rest, hxs, hrest⟩
  · exact .inr ⟨between, hbefore, hys⟩
  · cases rest with
    | nil => exact .inr ⟨[], by simpa using hxs.symm, by simpa using hrest.symm⟩
    | cons b rest =>
        obtain ⟨rfl, -⟩ := List.cons.inj hrest
        exact .inl ⟨rest, hxs⟩

theorem eq_of_singleton {α : Type} {a b : α} {before after : List α}
    (h : [b] = before ++ a :: after) : a = b := by
  have hmem : a ∈ before ++ a :: after := by simp
  rw [← h] at hmem
  exact List.mem_singleton.mp hmem

/-- The first operand without a number decides why arithmetic has
none. -/
theorem number_eq_error_of_evaluated {fault : Fault} {before after : List Expr}
    (horder : e.evaluated = before ++ part :: after)
    (hbefore : ∀ operand ∈ before, ∃ x, number env operand = .ok x)
    (hpart : number env part = .error fault) : number env e = .error fault := by
  fun_induction Expr.evaluated e generalizing before after with
  | case1 sign operand ih =>
      rcases split_of_append horder with ⟨rest, hoperand⟩ | ⟨between, -, hself⟩
      · rw [number, ih hoperand hbefore]
        rfl
      · rwa [eq_of_singleton hself] at hpart
  | case2 op left right ihl ihr =>
      rcases split_of_append horder with ⟨rest, hoperands⟩ | ⟨between, -, hself⟩
      · rcases split_of_append hoperands with ⟨rest, hleft⟩ | ⟨between, hbetween, hright⟩
        · rw [number, ihl hleft hbefore]
          rfl
        · -- past the left operand, which stands among those that have numbers
          obtain ⟨x, hx⟩ := hbefore left (by simp [hbetween, Expr.self_mem_evaluated])
          have hbetween' : ∀ operand ∈ between, ∃ x, number env operand = .ok x :=
            fun operand hmem => hbefore operand (by simp [hbetween, hmem])
          rw [number, hx, ok_bind, ihr hright hbetween']
          rfl
      · rwa [eq_of_singleton hself] at hpart
  | case3 e => rwa [eq_of_singleton horder] at hpart

-- ====================================================== numbers that are shown

/-- Is an expression a number, a reference, or arithmetic on the
outside? -/
def isNumberOutside : Expr → Bool
  | .number _ | .reference _ | .unary .. | .binary .. => true
  | _ => false

/-- Where the outside is a number, a reference or arithmetic, a cell
shows the number of the expression. -/
theorem display_of_isNumberOutside (env : Environment) (h : isNumberOutside e = true) :
    display env e = do return .text (Number.display (← number env e)) := by
  cases e with
  | number | reference =>
      rw [display, number]
  | unary =>
      rw [display, text, number, bind_assoc]
      · rfl
      all_goals nofun
  | binary =>
      rw [display, text, number]
      · simp only [bind_assoc]
      all_goals nofun
  | string | range | name | comparison | call => cases h

/-- What evaluates another operand first is arithmetic on the
outside. -/
theorem isNumberOutside_of_evaluated {before after : List Expr}
    (horder : e.evaluated = before ++ part :: after) (hne : e ≠ part) :
    isNumberOutside e = true := by
  cases e with
  | unary | binary | number | reference => rfl
  | string | range | name | comparison | call =>
      exact absurd (eq_of_singleton horder).symm hne

-- ====================================================== the code of a call

/-- A call that fails has no number, and its failure shows as the
code. -/
theorem number_eq_error_of_call {fault : Fault} (h : text env (.call name args) = .error fault) :
    number env (.call name args) = .error fault := by
  rw [text] at h
  rw [number]
  cases hfunction : Function.ofName? name with
  | none =>
      rw [hfunction] at h
      exact congrArg _ (Except.error.inj h)
  | some function =>
      rw [hfunction] at h
      dsimp only at h ⊢
      rw [h]
      rfl

/-- A call that comes to the text of a code has no number, but for a
reason of its own. -/
theorem number_of_code_read (h : text env (.call name args) = .ok (.text code.text)) :
    number env (.call name args) = .error (.failure (.notNumber (.text code.text))) := by
  rw [text] at h
  rw [number]
  cases hfunction : Function.ofName? name with
  | none =>
      rw [hfunction] at h
      cases h
  | some function =>
      rw [hfunction] at h
      dsimp only at h ⊢
      rw [h, ok_bind, contentNumber, Number.ofContent?, ErrorCode.leading?_text]
      rfl

/-- The first operand without a number is a call whose own result is an
error code. The formula shows that code if the call failed, if there is
nothing but the call, or if the code is #VALUE!. Otherwise it shows
#VALUE!. -/
theorem error_code_shown_iff {expression : Text} {before after : List Expr}
    (hparse : Parser.parse (Text.trim expression) = .ok e)
    (horder : e.evaluated = before ++ .call name args :: after)
    (hbefore : ∀ operand ∈ before, ∃ x, number env operand = .ok x)
    (hcode : orCode (text env (.call name args)) = .text code.text) :
    (evaluateText env (.char '=' :: expression) = .text code.text ↔
        (∃ fault, text env (.call name args) = .error fault) ∨ e = .call name args ∨
          code = .value) ∧
      (evaluateText env (.char '=' :: expression) = .text code.text ∨
        evaluateText env (.char '=' :: expression) = .text ErrorCode.value.text) := by
  have hshown : evaluateText env (.char '=' :: expression) = orCode (display env e) := by
    simp only [evaluateText, expressionText, hparse]
  rw [hshown]
  by_cases hself : e = .call name args
  · -- the call alone
    have hcall : orCode (display env e) = .text code.text := by
      rw [hself, display]
      · exact hcode
      all_goals nofun
    exact ⟨⟨fun _ => .inr (.inl hself), fun _ => hcall⟩, .inl hcall⟩
  · have hdisplay := display_of_isNumberOutside env (isNumberOutside_of_evaluated horder hself)
    -- what is outside the call fails as the call does, or for the text of the code that it read
    cases hresult : text env (.call name args) with
    | error fault =>
        have hcall := number_eq_error_of_call hresult
        have hnumber := number_eq_error_of_evaluated horder hbefore hcall
        rw [hresult] at hcode
        have hfailed : orCode (display env e) = .text code.text := by
          rw [hdisplay, hnumber]
          exact hcode
        exact ⟨⟨fun _ => .inl ⟨fault, rfl⟩, fun _ => hfailed⟩, .inl hfailed⟩
    | ok content =>
        rw [hresult] at hcode
        obtain rfl : content = .text code.text := hcode
        have hnumber := number_eq_error_of_evaluated horder hbefore (number_of_code_read hresult)
        have hvalue : orCode (display env e) = .text ErrorCode.value.text := by
          rw [hdisplay, hnumber]
          rfl
        refine ⟨?_, .inr hvalue⟩
        rw [hvalue]
        constructor
        · intro h
          exact .inr (.inr (ErrorCode.text_inj.mp (Content.text.inj h)).symm)
        · rintro (⟨fault, hfault⟩ | hcall | rfl)
          · cases hfault
          · exact absurd hcall hself
          · rfl

/-- A function that is not known, after operands that have numbers and
before a division by zero: its code is the one that is shown. -/
theorem error_code_shown_unknownFunction :
    evaluateText (.ofStore (Store.empty.put "A1" (.ofInput "3")) { now := default })
        "=-A1*2+NONE(A1)/0" = .text "#NAME?" := by
  have hparse : Parser.parse (Text.trim "-A1*2+NONE(A1)/0")
      = .ok (.binary .add (.binary .mul (.unary .minus (.reference "A1")) (.number "2"))
          (.binary .div (.call "NONE" [.reference "A1"]) (.number "0"))) := by
    cbv
  have hnumbers : ∀ operand ∈ [.reference "A1", .unary .minus (.reference "A1"), .number "2",
        .binary .mul (.unary .minus (.reference "A1")) (.number "2")],
      (number (.ofStore (Store.empty.put "A1" (.ofInput "3")) { now := default })
        operand).toOption.isSome = true := by
    decide +kernel
  have hbefore : ∀ operand ∈ [.reference "A1", .unary .minus (.reference "A1"), .number "2",
        .binary .mul (.unary .minus (.reference "A1")) (.number "2")],
      ∃ x, number (.ofStore (Store.empty.put "A1" (.ofInput "3")) { now := default }) operand
        = .ok x := by
    intro operand hmem
    obtain ⟨x, hx⟩ := Option.isSome_iff_exists.mp (hnumbers operand hmem)
    exact ⟨x, toOption_eq_some.mp hx⟩
  have hcall : text (.ofStore (Store.empty.put "A1" (.ofInput "3")) { now := default })
      (.call "NONE" [.reference "A1"]) = .error (.failure (.unknownFunction "NONE")) := by rfl
  have hcode : orCode (text (.ofStore (Store.empty.put "A1" (.ofInput "3")) { now := default })
      (.call "NONE" [.reference "A1"])) = .text ErrorCode.name.text := by
    rw [hcall]
    rfl
  exact (error_code_shown_iff hparse rfl hbefore hcode).1.mpr (.inl ⟨_, hcall⟩)

/-- An IF that reads the error code of a cell: by itself it shows the
code, but not in a sum. -/
theorem sum_of_code_read :
    Parser.parse "IF(1,A1,0)+1"
        = .ok (.binary .add (.call "IF" [.number "1", .reference "A1", .number "0"])
            (.number "1")) ∧
      (evaluateText (.ofStore (Store.empty.put "A1" ⟨[], some (.text "=NONE()"),
          some (.text "#NAME?")⟩) { now := default }) "=NONE()").plain = "#NAME?" ∧
      (evaluateText (.ofStore (Store.empty.put "A1" ⟨[], some (.text "=NONE()"),
          some (.text "#NAME?")⟩) { now := default }) "=IF(1,A1,0)").plain = "#NAME?" ∧
      (evaluateText (.ofStore (Store.empty.put "A1" ⟨[], some (.text "=NONE()"),
          some (.text "#NAME?")⟩) { now := default }) "=IF(1,A1,0)+1").plain = "#VALUE!" :=
  ⟨by cbv, by decide +kernel, by decide +kernel, by decide +kernel⟩

end Eval

end Spreadsheet

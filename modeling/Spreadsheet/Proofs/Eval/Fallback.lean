/-
The second chance of a formula is plain arithmetic.

# What is left

A formula that is no expression is trimmed, put in upper case, and reduced
to the characters that arithmetic is written with: figures, operators,
parentheses and points (`survivors`). What is left splits into numbers,
operators and parentheses only (`plain_of_lexemesOf`): the other tokens
start with a character that is struck, or hold a colon.

# What it amounts to

The grammar makes of these lexemes no expression but numbers, signs and
operators (`plain_of_derives`). Such an expression amounts to a number,
unless a divisor in it amounts to zero (`amounts_or_divides`). What it
amounts to is said by a relation with a rule for each operator (`Amounts`),
which mentions no cells and no evaluator; the evaluator comes to the same
(`number_of_amounts`).

# What is shown

So the second chance shows a number, or one code if nothing is left and
another if what is left is no expression or divides by zero
(`fallback_is_plain_arithmetic`). The cells have no part in it, although the
formula may name some. No number is shown as a code, so the code of an
unknown name means that nothing was left, and nothing else.
-/
import Mathlib
import Spreadsheet.Proofs.Eval.Arithmetic
import Spreadsheet.Proofs.Formula.Completeness
import Spreadsheet.Proofs.Formula.Padding
import Spreadsheet.Proofs.Number.Prefix

namespace Spreadsheet

open Decimal (Numeral)

variable {cs : Text} {ls : List Lexeme} {e : Expr} {x y : Binary64}

-- ====================================================== plain expressions

/-- An expression of numbers, signs and operators. -/
inductive Expr.Plain : Expr → Prop where
  | number {n : Numeral} (hn : n.Proper) : Plain (.number n.text)
  | unary {e : Expr} (sign : Sign) (h : Plain e) : Plain (.unary sign e)
  | binary {l r : Expr} (op : Operator) (hl : Plain l) (hr : Plain r) : Plain (.binary op l r)

/-- A number, an operator or a parenthesis. -/
inductive Lexeme.Plain : Lexeme → Prop where
  | number {n : Numeral} (hn : n.Proper) : Plain (.number n.text)
  | operator (op : Operator) : Plain (.operator op)
  | openParen : Plain .openParen
  | closeParen : Plain .closeParen

/-- Plain lexemes make plain expressions. The induction is on the
derivation: every other rule takes a lexeme that is not plain. -/
theorem plain_of_derives {rule : Grammar.Rule} (h : Grammar.Derives rule ls e)
    (hls : ∀ lexeme ∈ ls, lexeme.Plain) : e.Plain := by
  -- what stands before and after the lexeme between two operands
  have hsides : ∀ {ls rs : List Lexeme} {between : Lexeme},
      (∀ lexeme ∈ ls ++ between :: rs, lexeme.Plain) →
        (∀ lexeme ∈ ls, lexeme.Plain) ∧ between.Plain ∧ ∀ lexeme ∈ rs, lexeme.Plain := by
    intro ls rs between hall
    rwa [List.forall_mem_append, List.forall_mem_cons] at hall
  induction h with
  | operand _ ih | firstTerm _ ih | firstFactor _ ih | unsigned _ ih => exact ih hls
  | comparison => nomatch (hsides hls).2.1
  | nextTerm _ _ _ ihl ihr | nextFactor _ _ _ ihl ihr =>
      obtain ⟨hl, -, hr⟩ := hsides hls
      exact .binary _ (ihl hl) (ihr hr)
  | signed _ _ ih => exact .unary _ (ih (List.forall_mem_cons.mp hls).2)
  | number =>
      cases List.forall_mem_singleton.mp hls with
      | number hn => exact .number hn
  | string | reference | range | name => nomatch List.forall_mem_singleton.mp hls
  | call => nomatch (List.forall_mem_cons.mp hls).1
  | parenthesized _ ih => exact ih (hsides (List.forall_mem_cons.mp hls).2).1

-- ====================================================== plain texts

namespace Eval

theorem isFigure_iff_mem {c : CodePoint} :
    Reference.isFigure c = true ↔ c ∈ Text.ofString "0123456789" := by
  constructor
  · intro h
    obtain ⟨hlow, hhigh⟩ := Reference.isFigure_iff.mp h
    have hall : ∀ k < 10, CodePoint.char (Char.ofNat (48 + k)) ∈ Text.ofString "0123456789" := by
      decide
    have hmem := hall (c.code - 48) (by omega)
    rwa [Nat.add_sub_cancel' hlow, CodePoint.char_ofNat_code (by omega)] at hmem
  · intro h
    have hall : ∀ d ∈ Text.ofString "0123456789", Reference.isFigure d = true := by decide
    exact hall c h

/-- What survives are the figures, the operators, the parentheses and
the point. -/
theorem isArithmetic_iff {c : CodePoint} :
    isArithmetic c = true ↔ c ∈ Text.ofString "0123456789+-*/()." := by
  have hsplit : Text.ofString "0123456789+-*/()."
      = Text.ofString "0123456789" ++ Text.ofString "+-*/()." := rfl
  rw [isArithmetic, Bool.or_eq_true, isFigure_iff_mem, List.contains_iff_mem, hsplit,
    List.mem_append]

end Eval

namespace Lexer

open Eval (isArithmetic)
open Text (isBlank)

/-- No character that survives starts a blank, a string, a name or a
comparison, and none is a colon or a comma. -/
theorem of_isArithmetic {c : CodePoint} (hc : isArithmetic c = true) :
    isBlank c = false ∧ startsName c = false ∧ c ∉ Text.ofString "\"'<>=!:," := by
  have hall : ∀ d ∈ Text.ofString "0123456789+-*/().",
      isBlank d = false ∧ startsName d = false ∧ d ∉ Text.ofString "\"'<>=!:," := by
    decide
  exact hall c (Eval.isArithmetic_iff.mp hc)

/-- The first piece of a plain text is a plain lexeme. The cases are the
kinds of pieces: those that are not plain start with a character that
was struck, or hold one. -/
theorem plain_of_piece? {c : CodePoint} {lexeme : Option Lexeme} {k : Nat}
    (hcs : ∀ d ∈ c :: cs, isArithmetic d = true) (hpiece : Piece (c :: cs) lexeme k) :
    ∃ found, lexeme = some found ∧ found.Plain := by
  obtain ⟨hblank, hname, hothers⟩ := of_isArithmetic (hcs c (List.mem_cons_self ..))
  have hne : ∀ d ∈ Text.ofString "\"'<>=!:,", c ≠ d := fun d hd hc => hothers (hc ▸ hd)
  cases hpiece with
  | blank h =>
      rw [blankLength?_of_not_isBlank hblank] at h
      cases h
  | string _ h =>
      rw [stringLength?_cons (hne _ (by decide)) (hne _ (by decide))] at h
      cases h
  | range _ _ h =>
      -- a range starts like a number, but it holds a colon
      obtain ⟨left, before, tail, m, hsplit, -⟩ := exists_of_rangeLength? h
      have hmem : .char ':' ∈ c :: cs := by simp [hsplit]
      exact absurd (by decide) (of_isArithmetic (hcs _ hmem)).2.2
  | number _ _ _ h =>
      obtain ⟨n, hn, ⟨left, hsplit⟩, rfl⟩ := exists_of_numberLength? h
      refine ⟨_, rfl, ?_⟩
      rw [← hsplit, List.take_left]
      exact .number hn
  | name _ _ _ _ h =>
      unfold nameLength? at h
      dsimp only at h
      rw [hname, if_neg Bool.false_ne_true] at h
      cases h
  | @comparison op _ _ _ _ _ h =>
      have hhead : ∃ d rest, Text.ofString op.text = d :: rest ∧
          d ∈ Text.ofString "\"'<>=!:," := by
        cases op <;> exact ⟨_, _, rfl, by decide⟩
      obtain ⟨d, rest, htext, hd⟩ := hhead
      obtain ⟨left, hsplit⟩ := text_isPrefix_of_comparator? h
      rw [htext] at hsplit
      exact absurd (List.cons.inj hsplit).1.symm (hne d hd)
  | symbol _ _ _ _ _ _ h =>
      unfold symbol? at h
      split at h
      case h_7 hcomma => exact absurd (List.cons.inj hcomma).1 (hne _ (by decide))
      case h_8 => cases h
      case h_5 =>
        cases h
        exact ⟨_, rfl, .openParen⟩
      case h_6 =>
        cases h
        exact ⟨_, rfl, .closeParen⟩
      all_goals
        cases h
        exact ⟨_, rfl, .operator _⟩

/-- A text of characters that survive splits into plain lexemes only, by
induction on its pieces. -/
theorem plain_of_lexemesOf (hcs : ∀ c ∈ cs, isArithmetic c = true)
    (h : lexemesOf (tokens cs) = some ls) : ∀ lexeme ∈ ls, lexeme.Plain := by
  induction hlength : cs.length using Nat.strong_induction_on generalizing cs ls with
  | _ length ih =>
  subst hlength
  cases cs with
  | nil =>
      cases h
      exact nofun
  | cons c cs =>
      rw [lexemesOf_tokens_cons] at h
      cases hpiece : piece? (c :: cs) with
      | none =>
          rw [hpiece] at h
          cases h
      | some piece =>
          obtain ⟨lexeme, k⟩ := piece
          obtain ⟨found, rfl, hfound⟩ := plain_of_piece? hcs (piece?_eq_some_iff.mp hpiece)
          rw [hpiece] at h
          obtain ⟨rest, hrest, rfl⟩ := Option.map_eq_some_iff.mp h
          obtain ⟨hpos, -⟩ := piece?_bounds hpiece
          refine List.forall_mem_cons.mpr ⟨hfound, ih _ ?_ (fun d hd => ?_) hrest rfl⟩
          · rw [List.length_drop, List.length_cons]
            omega
          · exact hcs d (List.mem_of_mem_drop hd)

end Lexer

/-- The expression that a text of characters that survive is, if it is
one, is plain. -/
theorem plain_of_parse (hcs : ∀ c ∈ cs, Eval.isArithmetic c = true)
    (h : Parser.parse cs = .ok e) : e.Plain := by
  obtain ⟨ls, hls, hderives⟩ := Parser.toOption_parse_eq_some.mp (toOption_eq_some.mpr h)
  exact plain_of_derives hderives (Lexer.plain_of_lexemesOf hcs hls)

-- ====================================================== what an expression amounts to

/-- An expression of numbers, signs and operators amounts to a number:
every divisor in it amounts to a number that is not zero. -/
inductive Amounts : Expr → Binary64 → Prop where
  | number {n : Numeral} (hn : n.Proper) : Amounts (.number n.text) (n.toBinary64 false)
  | plus {e : Expr} {x : Binary64} (h : Amounts e x) : Amounts (.unary .plus e) x
  | minus {e : Expr} {x : Binary64} (h : Amounts e x) : Amounts (.unary .minus e) (-x)
  | sum {l r : Expr} {x y : Binary64} (hl : Amounts l x) (hr : Amounts r y) :
      Amounts (.binary .add l r) (x + y)
  | difference {l r : Expr} {x y : Binary64} (hl : Amounts l x) (hr : Amounts r y) :
      Amounts (.binary .sub l r) (x - y)
  | product {l r : Expr} {x y : Binary64} (hl : Amounts l x) (hr : Amounts r y) :
      Amounts (.binary .mul l r) (x * y)
  | quotient {l r : Expr} {x y z : Binary64} (hl : Amounts l x) (hr : Amounts r y)
      (hzero : y.isZero = false) (hz : x.div? y = some z) : Amounts (.binary .div l r) z

/-- Some divisor in an expression amounts to zero. -/
inductive DividesByZero : Expr → Prop where
  | here {l r : Expr} {y : Binary64} (h : Amounts r y) (hzero : y.isZero = true) :
      DividesByZero (.binary .div l r)
  | unary {e : Expr} (sign : Sign) (h : DividesByZero e) : DividesByZero (.unary sign e)
  | left {l r : Expr} (op : Operator) (h : DividesByZero l) : DividesByZero (.binary op l r)
  | right {l r : Expr} (op : Operator) (h : DividesByZero r) : DividesByZero (.binary op l r)

/-- A quotient is missing exactly if the divisor is zero, of either
sign. -/
theorem Binary64.div?_eq_none_iff : x.div? y = none ↔ y.isZero = true := by
  unfold div?
  dsimp only
  split
  · next hzero => exact iff_of_true rfl hzero
  · next hzero =>
    refine iff_of_false ?_ hzero
    split <;> exact nofun

/-- A plain expression amounts to a number, unless a divisor in it
amounts to zero. -/
theorem amounts_or_divides (h : e.Plain) : (∃ x, Amounts e x) ∨ DividesByZero e := by
  induction h with
  | number hn => exact .inl ⟨_, .number hn⟩
  | unary sign _ ih =>
      rcases ih with ⟨x, hx⟩ | hdivides
      · cases sign with
        | plus => exact .inl ⟨x, .plus hx⟩
        | minus => exact .inl ⟨-x, .minus hx⟩
      · exact .inr (.unary sign hdivides)
  | binary op _ _ ihl ihr =>
      rcases ihl with ⟨x, hx⟩ | hdivides
      · rcases ihr with ⟨y, hy⟩ | hdivides
        · cases op with
          | add => exact .inl ⟨_, .sum hx hy⟩
          | sub => exact .inl ⟨_, .difference hx hy⟩
          | mul => exact .inl ⟨_, .product hx hy⟩
          | div =>
              cases hz : x.div? y with
              | none => exact .inr (.here hy (Binary64.div?_eq_none_iff.mp hz))
              | some z =>
                  have hzero : y.isZero = false := eq_false_of_ne_true fun hzero => by
                    rw [Binary64.div?_eq_none_iff.mpr hzero] at hz
                    cases hz
                  exact .inl ⟨z, .quotient hx hy hzero hz⟩
        · exact .inr (.right op hdivides)
      · exact .inr (.left op hdivides)

namespace Eval

variable {expression : Text} {fault : SyntaxFault}

/-- What an expression amounts to is its number, whatever the cells
show. -/
theorem number_of_amounts (env : Environment) (h : Amounts e x) : number env e = .ok x := by
  induction h with
  | number hn =>
      have hwhole := Number.whole?_signed .none hn
      rw [List.nil_append] at hwhole
      rw [number, Number.whole, hwhole]
  | plus _ ih =>
      rw [number, ih]
      rfl
  | minus _ ih =>
      rw [number, ih]
      rfl
  | sum _ _ ihl ihr | difference _ _ ihl ihr | product _ _ ihl ihr =>
      rw [number, ihl, ok_bind, ihr]
      rfl
  | quotient _ _ _ hz ihl ihr =>
      rw [number, ihl, ok_bind, ihr, ok_bind, arithmetic, hz]

/-- A plain expression with a divisor of zero has no number, and the
failure is this one: no other can come before it, as plain expressions
have no other. -/
theorem number_of_dividesByZero (env : Environment) (he : e.Plain) (h : DividesByZero e) :
    number env e = .error .divisionByZero := by
  induction he with
  | number => cases h
  | unary sign _ ih =>
      cases h with
      | unary _ h =>
          rw [number, ih h]
          rfl
  | @binary l r op hl _ ihl ihr =>
      rw [number]
      rcases amounts_or_divides hl with ⟨x, hx⟩ | hdivides
      · rw [number_of_amounts env hx, ok_bind]
        cases h with
        | here hy hzero =>
            rw [number_of_amounts env hy, ok_bind, arithmetic, Binary64.div?_eq_none_iff.mpr hzero]
        | left _ h =>
            have hnumber := ihl h
            rw [number_of_amounts env hx] at hnumber
            cases hnumber
        | right _ h =>
            rw [ihr h]
            rfl
      · rw [ihl hdivides]
        rfl

/-- A plain expression amounts to no number exactly if a divisor in it
amounts to zero: the two exclude each other, since the number of an
expression is one or none. -/
theorem exists_amounts_iff (h : e.Plain) : (∃ x, Amounts e x) ↔ ¬ DividesByZero e := by
  constructor
  · intro ⟨x, hx⟩ hdivides
    have hnumber := number_of_dividesByZero (.ofStore .empty { now := default }) h hdivides
    rw [number_of_amounts _ hx] at hnumber
    cases hnumber
  · intro hnot
    exact (amounts_or_divides h).resolve_right hnot

-- ====================================================== the second chance

/-- The characters of an expression that are figures, operators,
parentheses or points, in the order they stand in, with the blanks
around the expression gone and its letters in upper case. -/
def survivors (expression : Text) : Text :=
  (Text.upper (Text.trim expression)).filter fun c => c ∈ Text.ofString "0123456789+-*/()."

/-- What is left of a formula when it is reduced to arithmetic are its
survivors. -/
theorem reduced_trim (expression : Text) :
    reduced (Text.trim expression) = survivors expression := by
  unfold reduced survivors
  apply List.filter_congr
  intro c _
  rw [Bool.eq_iff_iff, isArithmetic_iff, decide_eq_true_iff]

/-- Nothing is left of a formula if none of its characters survives. -/
theorem survivors_eq_nil_iff : survivors expression = [] ↔
    ∀ c ∈ Text.upper (Text.trim expression), c ∉ Text.ofString "0123456789+-*/()." := by
  unfold survivors
  rw [List.filter_eq_nil_iff]
  exact forall₂_congr fun c _ => not_congr decide_eq_true_iff

/-- The expression that the survivors are, if they are one, is plain. -/
theorem plain_of_parse_survivors (h : Parser.parse (survivors expression) = .ok e) : e.Plain := by
  rw [← reduced_trim] at h
  exact plain_of_parse (fun _ => List.of_mem_filter) h

/-- What is left is evaluated on an empty sheet, if it is an
expression. -/
theorem arithmeticText_of_parse (settings : Settings) (h : Parser.parse cs = .ok e) :
    arithmeticText settings cs
      = do return .text (Number.display (← number (.ofStore .empty settings) e)) := by
  have hne : cs.isEmpty = false := by
    cases cs with
    | nil => cases h
    | cons c cs => rfl
  rw [arithmeticText, hne, if_neg Bool.false_ne_true, h]
  rfl

/-- A formula that is no expression shows what is left of it as
arithmetic. -/
theorem evaluateText_of_rejected (env : Environment)
    (hrejected : Parser.parse (Text.trim expression) = .error fault) :
    evaluateText env (.char '=' :: expression)
      = orCode (arithmeticText env.settings (survivors expression)) := by
  simp only [evaluateText, expressionText, hrejected, reduced_trim]

/-- Where nothing is left, the formula is an unknown name. -/
theorem evaluateText_of_nothing_left (env : Environment)
    (hrejected : Parser.parse (Text.trim expression) = .error fault)
    (h : survivors expression = []) :
    evaluateText env (.char '=' :: expression) = .text "#NAME?" := by
  rw [evaluateText_of_rejected env hrejected, h]
  rfl

/-- Where what is left is no expression, the formula is a general
error. -/
theorem evaluateText_of_no_arithmetic (env : Environment)
    (hrejected : Parser.parse (Text.trim expression) = .error fault)
    (hne : survivors expression ≠ []) {fault' : SyntaxFault}
    (h : Parser.parse (survivors expression) = .error fault') :
    evaluateText env (.char '=' :: expression) = .text "#ERROR!" := by
  rw [evaluateText_of_rejected env hrejected, arithmeticText, if_neg (by simpa using hne), h]
  rfl

/-- Where what is left amounts to a number, the formula shows that
number. -/
theorem evaluateText_of_amounts (env : Environment)
    (hrejected : Parser.parse (Text.trim expression) = .error fault)
    (h : Parser.parse (survivors expression) = .ok e) (hx : Amounts e x) :
    evaluateText env (.char '=' :: expression) = .text (Number.display x) := by
  rw [evaluateText_of_rejected env hrejected, arithmeticText_of_parse _ h, number_of_amounts _ hx]
  rfl

/-- Where a divisor amounts to zero, the formula is a general error, as
it is when an expression divides by zero. -/
theorem evaluateText_of_dividesByZero (env : Environment)
    (hrejected : Parser.parse (Text.trim expression) = .error fault)
    (h : Parser.parse (survivors expression) = .ok e) (hdivides : DividesByZero e) :
    evaluateText env (.char '=' :: expression) = .text "#ERROR!" := by
  rw [evaluateText_of_rejected env hrejected, arithmeticText_of_parse _ h,
    number_of_dividesByZero _ (plain_of_parse_survivors h) hdivides]
  rfl

/-- No number is shown as the code of an unknown name, for what is shown
of a number reads as a number again. -/
theorem display_ne_name (x : Binary64) : Number.display x ≠ ErrorCode.name.text := by
  intro h
  by_cases hx : x = .nan
  · rw [hx] at h
    revert h
    decide
  · have hread := Number.leading?_display hx
    rw [h, ErrorCode.leading?_text] at hread
    cases hread

/-- The second chance shows the same whatever the cells show, and the
code of an unknown name only if nothing is left. -/
theorem exists_fallback (hrejected : Parser.parse (Text.trim expression) = .error fault) :
    ∃ content, (∀ env, evaluateText env (.char '=' :: expression) = content) ∧
      (content = .text "#NAME?" ↔ survivors expression = []) := by
  have herror : Content.text "#ERROR!" ≠ .text "#NAME?" := fun h =>
    absurd (Content.text.inj h) (by decide)
  by_cases hnil : survivors expression = []
  · exact ⟨_, fun env => evaluateText_of_nothing_left env hrejected hnil, iff_of_true rfl hnil⟩
  · cases hparse : Parser.parse (survivors expression) with
    | error fault' =>
        exact ⟨_, fun env => evaluateText_of_no_arithmetic env hrejected hnil hparse,
          iff_of_false herror hnil⟩
    | ok e =>
        rcases amounts_or_divides (plain_of_parse_survivors hparse) with ⟨x, hx⟩ | hdivides
        · exact ⟨_, fun env => evaluateText_of_amounts env hrejected hparse hx,
            iff_of_false (fun h => display_ne_name x (Content.text.inj h)) hnil⟩
        · exact ⟨_, fun env => evaluateText_of_dividesByZero env hrejected hparse hdivides,
            iff_of_false herror hnil⟩

/-- A formula that is no expression is shown as the arithmetic that is
left of it, which is made of numbers, signs and operators only and sees
no cells: as its number if no divisor in it is zero, and as a general
error if one is or if what is left is no expression. The formula is an
unknown name exactly if nothing is left. -/
theorem fallback_is_plain_arithmetic
    (hrejected : Parser.parse (Text.trim expression) = .error fault) (env : Environment) :
    (evaluateText env (.char '=' :: expression) = .text "#NAME?" ↔
      ∀ c ∈ Text.upper (Text.trim expression), c ∉ Text.ofString "0123456789+-*/().") ∧
    (∀ e, Parser.parse (survivors expression) = .ok e →
      e.Plain ∧ ((∃ x, Amounts e x) ↔ ¬ DividesByZero e) ∧
        (∀ x, Amounts e x →
          evaluateText env (.char '=' :: expression) = .text (Number.display x)) ∧
        (DividesByZero e → evaluateText env (.char '=' :: expression) = .text "#ERROR!")) ∧
    (∀ fault, survivors expression ≠ [] →
      Parser.parse (survivors expression) = .error fault →
        evaluateText env (.char '=' :: expression) = .text "#ERROR!") ∧
    ∀ env', evaluateText env' (.char '=' :: expression)
      = evaluateText env (.char '=' :: expression) := by
  obtain ⟨content, hshown, hname⟩ := exists_fallback hrejected
  refine ⟨?_, fun e h => ?_,
    fun _ hne h => evaluateText_of_no_arithmetic env hrejected hne h,
    fun env' => (hshown env').trans (hshown env).symm⟩
  · rw [hshown env, hname, survivors_eq_nil_iff]
  · have hplain := plain_of_parse_survivors h
    exact ⟨hplain, exists_amounts_iff hplain, fun _ => evaluateText_of_amounts env hrejected h,
      evaluateText_of_dividesByZero env hrejected h⟩

/-- A sum with a word between its terms: the word is struck, and the sum
is left. -/
theorem fallback_apples :
    Parser.parse (Text.trim "10 apples + 5") = .error (.unexpectedToken "APPLES" 3) ∧
      evaluateText (.ofStore .empty { now := default }) "=10 apples + 5" = .text "15" := by
  have hrejected : Parser.parse (Text.trim "10 apples + 5")
      = .error (.unexpectedToken "APPLES" 3) := by cbv
  have hparse : Parser.parse (survivors "10 apples + 5")
      = .ok (.binary .add (.number "10") (.number "5")) := by cbv
  have hnumeral : ∀ digits : Text, (∀ c ∈ digits, Text.isDigit c = true) → digits ≠ [] →
      (⟨digits, false, [], none⟩ : Numeral).Proper := by
    intro digits hdigits hne
    refine Numeral.proper_whole hdigits hne fun p hp => ?_
    cases hp
  have hten : Amounts (.number "10") (Numeral.toBinary64 false ⟨"10", false, [], none⟩) :=
    .number (hnumeral "10" (by decide) (by decide))
  have hfive : Amounts (.number "5") (Numeral.toBinary64 false ⟨"5", false, [], none⟩) :=
    .number (hnumeral "5" (by decide) (by decide))
  have hfallback :=
    fallback_is_plain_arithmetic hrejected (.ofStore .empty { now := default })
  have hshown := (hfallback.2.1 _ hparse).2.2.1 _ (.sum hten hfive)
  refine ⟨hrejected, hshown.trans (congrArg Content.text ?_)⟩
  decide +kernel

end Eval

end Spreadsheet

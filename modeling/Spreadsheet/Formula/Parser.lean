/-
From tokens to expressions.

    formula    := comparison
    comparison := additive [comparator additive]
    additive   := term {('+' | '-') term}
    term       := unary {('*' | '/') unary}
    unary      := ('+' | '-') unary | primary
    primary    := number | string | reference | range
                | name '(' [comparison {',' comparison}] ')'
                | name
                | '(' comparison ')'

# Rules

Each rule takes its tokens off the front of a list and returns the rest. It
looks at one token to choose how it goes on, and at two behind a name, so no
choice is ever taken back.

# Fuel

The fuel goes down at every step from rule to rule; `parseTokens` gives
enough of it for the tokens there are. That it is enough is proved, and so
the fuel takes no part in what is read.
-/
import Spreadsheet.Formula.Expr
import Spreadsheet.Formula.Lexer

namespace Spreadsheet.Parser

/-- An expression and the tokens after it. -/
abbrev Parsed := Except SyntaxFault (Expr × List Token)

/-- The tokens after a closing parenthesis. `size` is where the text
ends. -/
def closing (size : Nat) : List Token → Except SyntaxFault (List Token)
  | ⟨.closeParen, _⟩ :: rest => .ok rest
  | token :: _ => .error (.unclosed token.lexeme.text token.start)
  | [] => .error (.unexpectedEnd size)

mutual

/-- An operand of a comparison, or a comparison of two. -/
def comparison (size : Nat) : Nat → List Token → Parsed
  | 0, _ => .error (.unexpectedEnd size)
  | fuel + 1, tokens => do
    let (left, rest) ← additive size fuel tokens
    match rest with
    | ⟨.comparison op, _⟩ :: rest =>
      let (right, rest) ← additive size fuel rest
      return (.comparison op left right, rest)
    | _ => return (left, rest)

/-- Terms with plus and minus between them. -/
def additive (size : Nat) : Nat → List Token → Parsed
  | 0, _ => .error (.unexpectedEnd size)
  | fuel + 1, tokens => do
    let (first, rest) ← term size fuel tokens
    moreTerms size fuel first rest

/-- What follows the terms read so far. -/
def moreTerms (size : Nat) : Nat → Expr → List Token → Parsed
  | 0, _, _ => .error (.unexpectedEnd size)
  | fuel + 1, sum, tokens =>
    match tokens with
    | ⟨.operator .add, _⟩ :: rest => do
      let (next, rest) ← term size fuel rest
      moreTerms size fuel (.binary .add sum next) rest
    | ⟨.operator .sub, _⟩ :: rest => do
      let (next, rest) ← term size fuel rest
      moreTerms size fuel (.binary .sub sum next) rest
    | _ => .ok (sum, tokens)

/-- Factors with times and divide between them. -/
def term (size : Nat) : Nat → List Token → Parsed
  | 0, _ => .error (.unexpectedEnd size)
  | fuel + 1, tokens => do
    let (first, rest) ← unary size fuel tokens
    moreFactors size fuel first rest

/-- What follows the factors read so far. -/
def moreFactors (size : Nat) : Nat → Expr → List Token → Parsed
  | 0, _, _ => .error (.unexpectedEnd size)
  | fuel + 1, product, tokens =>
    match tokens with
    | ⟨.operator .mul, _⟩ :: rest => do
      let (next, rest) ← unary size fuel rest
      moreFactors size fuel (.binary .mul product next) rest
    | ⟨.operator .div, _⟩ :: rest => do
      let (next, rest) ← unary size fuel rest
      moreFactors size fuel (.binary .div product next) rest
    | _ => .ok (product, tokens)

/-- A primary expression with signs in front. -/
def unary (size : Nat) : Nat → List Token → Parsed
  | 0, _ => .error (.unexpectedEnd size)
  | fuel + 1, tokens =>
    match tokens with
    | ⟨.operator .add, _⟩ :: rest => do
      let (operand, rest) ← unary size fuel rest
      return (.unary .plus operand, rest)
    | ⟨.operator .sub, _⟩ :: rest => do
      let (operand, rest) ← unary size fuel rest
      return (.unary .minus operand, rest)
    | _ => primary size fuel tokens

/-- A literal, a reference, a range, a name, a call, or an expression in
parentheses. -/
def primary (size : Nat) : Nat → List Token → Parsed
  | 0, _ => .error (.unexpectedEnd size)
  | fuel + 1, tokens =>
    match tokens with
    | [] => .error (.unexpectedEnd size)
    | ⟨.number text, _⟩ :: rest => .ok (.number text, rest)
    | ⟨.string value, _⟩ :: rest => .ok (.string value, rest)
    | ⟨.reference key, _⟩ :: rest => .ok (.reference key, rest)
    | ⟨.range text, _⟩ :: rest => .ok (.range text, rest)
    | ⟨.name name, _⟩ :: ⟨.openParen, _⟩ :: ⟨.closeParen, _⟩ :: rest =>
      .ok (.call name [], rest)
    | ⟨.name name, _⟩ :: ⟨.openParen, _⟩ :: rest => do
      let (args, rest) ← arguments size fuel rest
      return (.call name args, rest)
    | ⟨.name name, _⟩ :: rest => .ok (.name name, rest)
    | ⟨.openParen, _⟩ :: rest => do
      let (inner, rest) ← comparison size fuel rest
      return (inner, ← closing size rest)
    | token :: _ => .error (.unexpectedToken token.lexeme.text token.start)

/-- One or more arguments of a call, and the parenthesis that closes
it. -/
def arguments (size : Nat) : Nat → List Token → Except SyntaxFault (List Expr × List Token)
  | 0, _ => .error (.unexpectedEnd size)
  | fuel + 1, tokens => do
    let (first, rest) ← comparison size fuel tokens
    match rest with
    | ⟨.comma, _⟩ :: rest =>
      let (others, rest) ← arguments size fuel rest
      return (first :: others, rest)
    | _ => return ([first], ← closing size rest)

end

/-- The expression that a list of tokens is. `size` is where the text
ends. -/
def parseTokens (size : Nat) (tokens : List Token) : Except SyntaxFault Expr :=
  match tokens with
  | [] => .error .empty
  | _ => do
    let (expr, rest) ← comparison size (8 * tokens.length + 8) tokens
    match rest with
    | [] => return expr
    | token :: _ => throw (.unexpectedToken token.lexeme.text token.start)

/-- The expression that a text is. -/
def parse (expression : Text) : Except SyntaxFault Expr := do
  parseTokens expression.length (← Lexer.tokens expression)

end Spreadsheet.Parser

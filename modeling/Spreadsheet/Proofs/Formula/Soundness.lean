/-
What the parser reads, the grammar derives.

# One rule

Every rule of the parser takes tokens off the front of a list, and those it
took are derived from the rule of the grammar, with the expression that it
returns (`Spans`). The two loops go on from what was read before them, so
what they take is derived together with that: the lexemes from before stand
in front, and a sum that is read from the left is derived from the left.

# All rules at once

The rules call one another: one statement about all of them is proved by
induction on the fuel, one rule after another (`Sound`). Without fuel
nothing is read, so there is nothing to show. With one more, a rule calls
others that have one less, and what these read is derived by the induction.

# What this closes

Tokens that are an expression to the parser are derived from the grammar as
that expression (`derives_of_parseTokens`). That the parser finds every
expression, and that there is never more than one, is the converse.
-/
import Spreadsheet.Formula.Grammar
import Spreadsheet.Formula.Parser
import Spreadsheet.Proofs.Outcome

namespace Spreadsheet.Parser

open Grammar

-- ====================================================== tokens that are read

/-- The lexemes of some tokens. -/
def lexemes (tokens : List Token) : List Lexeme :=
  tokens.map Token.lexeme

theorem lexemes_append (tokens tokens' : List Token) :
    lexemes (tokens ++ tokens') = lexemes tokens ++ lexemes tokens' :=
  List.map_append

theorem lexemes_cons (token : Token) (tokens : List Token) :
    lexemes (token :: tokens) = token.lexeme :: lexemes tokens := rfl

/-- The tokens in front of a rest are derived from a rule, together with
the lexemes that were read before them. -/
def Spans (rule : Rule) (before : List Lexeme) (tokens : List Token) (e : Expr)
    (rest : List Token) : Prop :=
  ∃ used, tokens = used ++ rest ∧ Derives rule (before ++ lexemes used) e

/-- One token was read. -/
theorem Spans.single {token : Token} {e : Expr} {rest : List Token}
    (h : Derives .primary [token.lexeme] e) : Spans .primary [] (token :: rest) e rest :=
  ⟨[token], rfl, h⟩

/-- The tokens of a call were read from after its opening parenthesis
on. -/
def SpansArguments (tokens : List Token) (args : List Expr) (rest : List Token) : Prop :=
  ∃ part parts used, args = (part :: parts).map Prod.snd ∧
    (∀ p ∈ part :: parts, Derives .comparison p.1 p.2) ∧ tokens = used ++ rest ∧
    lexemes used = [Lexeme.comma].intercalate ((part :: parts).map Prod.fst) ++ [.closeParen]

/-- Each rule, with the given fuel, reads what the grammar derives. -/
structure Sound (size fuel : Nat) : Prop where
  comparison : ∀ {tokens e rest}, comparison size fuel tokens = .ok (e, rest) →
    Spans .comparison [] tokens e rest
  additive : ∀ {tokens e rest}, additive size fuel tokens = .ok (e, rest) →
    Spans .additive [] tokens e rest
  moreTerms : ∀ {before sum tokens e rest}, Derives .additive before sum →
    moreTerms size fuel sum tokens = .ok (e, rest) → Spans .additive before tokens e rest
  term : ∀ {tokens e rest}, term size fuel tokens = .ok (e, rest) → Spans .term [] tokens e rest
  moreFactors : ∀ {before product tokens e rest}, Derives .term before product →
    moreFactors size fuel product tokens = .ok (e, rest) → Spans .term before tokens e rest
  unary : ∀ {tokens e rest}, unary size fuel tokens = .ok (e, rest) → Spans .unary [] tokens e rest
  primary : ∀ {tokens e rest}, primary size fuel tokens = .ok (e, rest) →
    Spans .primary [] tokens e rest
  arguments : ∀ {tokens args rest}, arguments size fuel tokens = .ok (args, rest) →
    SpansArguments tokens args rest

/-- Without fuel no rule reads anything, which is where the induction on
the fuel starts. -/
theorem sound_zero (size : Nat) : Sound size 0 := by
  constructor
  case moreTerms | moreFactors =>
    intro before e tokens e' rest _ h
    cases h
  all_goals
    intro tokens e rest h
    cases h

/-- What is taken to close a parenthesis is that parenthesis. -/
theorem eq_cons_of_closing {size : Nat} {tokens rest : List Token}
    (h : closing size tokens = .ok rest) : ∃ start, tokens = ⟨.closeParen, start⟩ :: rest := by
  unfold closing at h
  split at h
  · cases h
    exact ⟨_, rfl⟩
  · cases h
  · cases h

-- ====================================================== one rule after another

section Step

variable {size fuel : Nat} {tokens rest : List Token} {e : Expr} {before : List Lexeme}

/-- A comparison: two sums with a comparator between them, or one
sum. -/
theorem spans_of_comparison (ih : Sound size fuel)
    (h : comparison size (fuel + 1) tokens = .ok (e, rest)) :
    Spans .comparison [] tokens e rest := by
  rw [comparison, bind_eq_ok] at h
  obtain ⟨⟨left, mid⟩, hleft, h⟩ := h
  obtain ⟨used, rfl, hl⟩ := ih.additive hleft
  dsimp only at h
  split at h
  · next op start mid =>
    obtain ⟨⟨right, tail⟩, hright, h⟩ := bind_eq_ok.mp h
    cases h
    obtain ⟨used', rfl, hr⟩ := ih.additive hright
    refine ⟨used ++ ⟨.comparison op, start⟩ :: used', by simp, ?_⟩
    rw [lexemes_append]
    exact .comparison hl op hr
  · cases h
    exact ⟨used, rfl, .operand hl⟩

/-- A sum: its first term, and then the loop, which adds the others to
it. -/
theorem spans_of_additive (ih : Sound size fuel)
    (h : additive size (fuel + 1) tokens = .ok (e, rest)) : Spans .additive [] tokens e rest := by
  rw [additive, bind_eq_ok] at h
  obtain ⟨⟨first, mid⟩, hfirst, h⟩ := h
  obtain ⟨used, rfl, hterm⟩ := ih.term hfirst
  obtain ⟨used', rfl, hsum⟩ := ih.moreTerms (.firstTerm hterm) h
  refine ⟨used ++ used', by simp, ?_⟩
  rw [lexemes_append]
  exact hsum

/-- A product: its first factor, and then the loop, which adds the
others to it. -/
theorem spans_of_term (ih : Sound size fuel)
    (h : term size (fuel + 1) tokens = .ok (e, rest)) : Spans .term [] tokens e rest := by
  rw [term, bind_eq_ok] at h
  obtain ⟨⟨first, mid⟩, hfirst, h⟩ := h
  obtain ⟨used, rfl, hfactor⟩ := ih.unary hfirst
  obtain ⟨used', rfl, hproduct⟩ := ih.moreFactors (.firstFactor hfactor) h
  refine ⟨used ++ used', by simp, ?_⟩
  rw [lexemes_append]
  exact hproduct

/-- One more term: with its operator it makes a longer sum, from which
the loop goes on. -/
theorem spans_of_moreTerms (ih : Sound size fuel) {sum : Expr} (hsum : Derives .additive before sum)
    (h : moreTerms size (fuel + 1) sum tokens = .ok (e, rest)) :
    Spans .additive before tokens e rest := by
  have hnext : ∀ {op : Operator} {start : Nat} {tail : List Token}, op = .add ∨ op = .sub →
      (term size fuel tail >>= fun read =>
        moreTerms size fuel (.binary op sum read.1) read.2) = .ok (e, rest) →
      Spans .additive before (⟨.operator op, start⟩ :: tail) e rest := by
    intro op start tail hop h
    obtain ⟨⟨next, mid⟩, hnext, hloop⟩ := bind_eq_ok.mp h
    obtain ⟨used, rfl, hterm⟩ := ih.term hnext
    obtain ⟨used', rfl, hsum'⟩ := ih.moreTerms (.nextTerm hsum hop hterm) hloop
    refine ⟨⟨.operator op, start⟩ :: (used ++ used'), by simp, ?_⟩
    simpa [lexemes] using hsum'
  rw [moreTerms.eq_def] at h
  dsimp only at h
  split at h
  · exact hnext (.inl rfl) h
  · exact hnext (.inr rfl) h
  · cases h
    exact ⟨[], rfl, by rwa [lexemes, List.map_nil, List.append_nil]⟩

/-- One more factor: with its operator it makes a longer product, from
which the loop goes on. -/
theorem spans_of_moreFactors (ih : Sound size fuel) {product : Expr}
    (hproduct : Derives .term before product)
    (h : moreFactors size (fuel + 1) product tokens = .ok (e, rest)) :
    Spans .term before tokens e rest := by
  have hnext : ∀ {op : Operator} {start : Nat} {tail : List Token}, op = .mul ∨ op = .div →
      (unary size fuel tail >>= fun read =>
        moreFactors size fuel (.binary op product read.1) read.2) = .ok (e, rest) →
      Spans .term before (⟨.operator op, start⟩ :: tail) e rest := by
    intro op start tail hop h
    obtain ⟨⟨next, mid⟩, hnext, hloop⟩ := bind_eq_ok.mp h
    obtain ⟨used, rfl, hfactor⟩ := ih.unary hnext
    obtain ⟨used', rfl, hproduct'⟩ := ih.moreFactors (.nextFactor hproduct hop hfactor) hloop
    refine ⟨⟨.operator op, start⟩ :: (used ++ used'), by simp, ?_⟩
    simpa [lexemes] using hproduct'
  rw [moreFactors.eq_def] at h
  dsimp only at h
  split at h
  · exact hnext (.inl rfl) h
  · exact hnext (.inr rfl) h
  · cases h
    exact ⟨[], rfl, by rwa [lexemes, List.map_nil, List.append_nil]⟩

/-- A sign with its operand, or a primary expression. The operand is
read by this same rule, so signs may be repeated. -/
theorem spans_of_unary (ih : Sound size fuel)
    (h : unary size (fuel + 1) tokens = .ok (e, rest)) : Spans .unary [] tokens e rest := by
  have hsigned : ∀ {op : Operator} {sign : Sign} {start : Nat} {tail : List Token},
      op.sign? = some sign →
      (unary size fuel tail >>= fun read => pure (.unary sign read.1, read.2)) = .ok (e, rest) →
      Spans .unary [] (⟨.operator op, start⟩ :: tail) e rest := by
    intro op sign start tail hsign h
    obtain ⟨⟨operand, mid⟩, hoperand, h⟩ := bind_eq_ok.mp h
    cases h
    obtain ⟨used, rfl, hunary⟩ := ih.unary hoperand
    exact ⟨⟨.operator op, start⟩ :: used, rfl, .signed hsign hunary⟩
  rw [unary.eq_def] at h
  dsimp only at h
  split at h
  · exact hsigned rfl h
  · exact hsigned rfl h
  · obtain ⟨used, rfl, hprimary⟩ := ih.primary h
    exact ⟨used, rfl, .unsigned hprimary⟩

/-- A primary expression: one token, a call, or an expression in
parentheses. -/
theorem spans_of_primary (ih : Sound size fuel)
    (h : primary size (fuel + 1) tokens = .ok (e, rest)) : Spans .primary [] tokens e rest := by
  rw [primary.eq_def] at h
  dsimp only at h
  split at h
  · cases h
  · cases h
    exact .single (.number _)
  · cases h
    exact .single (.string _)
  · cases h
    exact .single (.reference _)
  · cases h
    exact .single (.range _)
  · next name start opened closed tail =>
    cases h
    exact ⟨[⟨.name name, start⟩, ⟨.openParen, opened⟩, ⟨.closeParen, closed⟩], rfl,
      .call name [] nofun⟩
  · next name start opened tail _ =>
    obtain ⟨⟨args, mid⟩, hargs, h⟩ := bind_eq_ok.mp h
    cases h
    obtain ⟨part, parts, used, rfl, hparts, rfl, hused⟩ := ih.arguments hargs
    refine ⟨⟨.name name, start⟩ :: ⟨.openParen, opened⟩ :: used, rfl, ?_⟩
    rw [lexemes_cons, lexemes_cons, hused]
    exact .call name (part :: parts) hparts
  · cases h
    exact .single (.name _)
  · next start tail =>
    obtain ⟨⟨inner, mid⟩, hinner, h⟩ := bind_eq_ok.mp h
    obtain ⟨after, hclosing, h⟩ := bind_eq_ok.mp h
    cases h
    obtain ⟨used, rfl, hderives⟩ := ih.comparison hinner
    obtain ⟨closed, rfl⟩ := eq_cons_of_closing hclosing
    refine ⟨⟨.openParen, start⟩ :: (used ++ [⟨.closeParen, closed⟩]), by simp, ?_⟩
    rw [lexemes_cons, lexemes_append]
    exact .parenthesized hderives
  · cases h

/-- The arguments of a call: one, and after a comma the others. Each of
them is a whole comparison. -/
theorem spans_of_arguments (ih : Sound size fuel) {args : List Expr}
    (h : arguments size (fuel + 1) tokens = .ok (args, rest)) :
    SpansArguments tokens args rest := by
  rw [arguments, bind_eq_ok] at h
  obtain ⟨⟨first, mid⟩, hfirst, h⟩ := h
  obtain ⟨used, rfl, hderives⟩ := ih.comparison hfirst
  dsimp only at h
  split at h
  · next start tail =>
    obtain ⟨⟨others, last⟩, hothers, h⟩ := bind_eq_ok.mp h
    cases h
    obtain ⟨part, parts, used', rfl, hparts, rfl, hused⟩ := ih.arguments hothers
    refine ⟨(lexemes used, first), part :: parts, used ++ ⟨.comma, start⟩ :: used', rfl,
      List.forall_mem_cons.mpr ⟨hderives, hparts⟩, by simp, ?_⟩
    rw [lexemes_append, lexemes_cons, hused]
    simp
  · obtain ⟨after, hclosing, h⟩ := bind_eq_ok.mp h
    cases h
    obtain ⟨closed, rfl⟩ := eq_cons_of_closing hclosing
    refine ⟨(lexemes used, first), [], used ++ [⟨.closeParen, closed⟩], rfl,
      List.forall_mem_singleton.mpr hderives, by simp, ?_⟩
    rw [lexemes_append]
    simp [lexemes]

end Step

/-- Whatever the fuel, each rule reads what the grammar derives. The
rules call each other, so the induction on the fuel is for all of them
at once. -/
theorem sound (size fuel : Nat) : Sound size fuel := by
  induction fuel with
  | zero => exact sound_zero size
  | succ fuel ih =>
      exact {
        comparison := spans_of_comparison ih
        additive := spans_of_additive ih
        moreTerms := spans_of_moreTerms ih
        term := spans_of_term ih
        moreFactors := spans_of_moreFactors ih
        unary := spans_of_unary ih
        primary := spans_of_primary ih
        arguments := spans_of_arguments ih }

/-- Tokens that are an expression are derived from the grammar as this
expression. -/
theorem derives_of_parseTokens {size : Nat} {tokens : List Token} {e : Expr}
    (h : parseTokens size tokens = .ok e) : Derives .comparison (lexemes tokens) e := by
  unfold parseTokens at h
  split at h
  · cases h
  · obtain ⟨⟨expr, rest⟩, hexpr, hend⟩ := bind_eq_ok.mp h
    obtain ⟨used, rfl, hderives⟩ := (sound size _).comparison hexpr
    dsimp only at hend
    split at hend
    · cases hend
      rwa [List.append_nil]
    · cases hend

end Spreadsheet.Parser

/-
What the grammar derives, the parser reads.

# One token ahead

The parser looks at one token to decide whether a rule goes on, and never
takes a token back. That is right because a token that can stand after what
a rule derives is never one that goes on with it, once the rest stops the
rule (`Stops`). How closely a lexeme binds is a number, and a rule is
stopped by what binds less closely than it does.

# What is proved of each rule

A sum is derived from its last operator, but read from its first term: so of
a derived sum, and of a product, it is proved that the parser comes to its
loop with the whole of it read (`Reads`). For the other rules it is proved
that the expression is returned. The induction is on the derivation, and the
rest that follows is arbitrary, as long as it stops the rule.

# Fuel

The fuel that `parseTokens` gives is enough, since from one token to the
next no more than six rules call one another. The bounds in `Reads` count
them: a primary expression needs six for each token, and every rule above it
one more.

# What this closes

Together with soundness this makes the parser and the grammar agree: tokens
are an expression exactly when the grammar derives them, and there is never
more than one (`parseTokens_derives`).
-/
import Spreadsheet.Proofs.Formula.Margins
import Spreadsheet.Proofs.Formula.Soundness

namespace Spreadsheet.Parser

open Grammar

-- ====================================================== what ends an expression

/-- How closely a lexeme binds what stands before it; zero if it does
not go on with it. -/
def strength : Lexeme → Nat
  | .comparison _ => 1
  | .operator .add => 2
  | .operator .sub => 2
  | .operator .mul => 3
  | .operator .div => 3
  | .openParen => 4
  | _ => 0

/-- The tokens do not start with a lexeme that binds as closely as a
bound. -/
def Stops (bound : Nat) (rest : List Token) : Prop :=
  ∀ token ∈ rest.head?, strength token.lexeme < bound

variable {size fuel bound : Nat} {rest : List Token} {e : Expr}

theorem Stops.mono (h : Stops bound rest) {bound' : Nat} (hle : bound ≤ bound') :
    Stops bound' rest :=
  fun token htoken => Nat.lt_of_lt_of_le (h token htoken) hle

theorem stops_nil (bound : Nat) : Stops bound [] := nofun

theorem stops_cons {token : Token} (h : strength token.lexeme < bound) :
    Stops bound (token :: rest) := by
  intro other hother
  cases hother
  exact h

/-- A product is at its end where no factor can follow, and the loop
gives back what it was given. -/
theorem moreFactors_of_stops (h : Stops 3 rest) :
    moreFactors size (fuel + 1) e rest = .ok (e, rest) := by
  rw [moreFactors.eq_def]
  dsimp only
  split
  · exact absurd (h _ rfl) (Nat.lt_irrefl _)
  · exact absurd (h _ rfl) (Nat.lt_irrefl _)
  · rfl

/-- A sum is at its end where no term can follow, and the loop gives
back what it was given. -/
theorem moreTerms_of_stops (h : Stops 2 rest) :
    moreTerms size (fuel + 1) e rest = .ok (e, rest) := by
  rw [moreTerms.eq_def]
  dsimp only
  split
  · exact absurd (h _ rfl) (Nat.lt_irrefl _)
  · exact absurd (h _ rfl) (Nat.lt_irrefl _)
  · rfl

-- ====================================================== how derivations start

/-- What is derived from a primary expression starts with no
operator. -/
theorem exists_cons_of_primary {rule : Rule} {ls : List Lexeme} (h : Derives rule ls e)
    (hrule : rule = .primary) :
    ∃ first others, ls = first :: others ∧ ∀ op, first ≠ .operator op := by
  cases h with
  | number | string | reference | range | name | call | parenthesized => exact ⟨_, _, rfl, nofun⟩
  | _ => cases hrule

/-- What is derived is something, and does not start with a closing
parenthesis. -/
theorem exists_cons_of_derives {rule : Rule} {ls : List Lexeme} (h : Derives rule ls e) :
    ∃ first others, ls = first :: others ∧ first ≠ .closeParen := by
  induction h with
  | comparison _ _ _ ihl | nextTerm _ _ _ ihl | nextFactor _ _ _ ihl =>
      obtain ⟨first, others, rfl, hfirst⟩ := ihl
      exact ⟨first, _, rfl, hfirst⟩
  | operand _ ih | firstTerm _ ih | firstFactor _ ih | unsigned _ ih => exact ih
  | number | string | reference | range | name | signed | call | parenthesized =>
      exact ⟨_, _, rfl, nofun⟩

/-- Tokens whose lexemes have a given one in between. -/
theorem exists_split {tokens : List Token} {ls rs : List Lexeme} {lexeme : Lexeme}
    (h : lexemes tokens = ls ++ lexeme :: rs) :
    ∃ left start right, tokens = left ++ ⟨lexeme, start⟩ :: right ∧ lexemes left = ls ∧
      lexemes right = rs := by
  obtain ⟨left, others, rfl, hleft, hothers⟩ := List.map_eq_append_iff.mp h
  obtain ⟨⟨_, start⟩, right, rfl, rfl, hright⟩ := List.map_eq_cons_iff.mp hothers
  exact ⟨left, start, right, rfl, hleft, hright⟩

-- ====================================================== reading what is derived

/-- What the parser does with tokens in front of a rest that stops their
rule, if it has fuel for them: it reads them as an expression. With a
sum or a product it comes to the loop, and goes on from there with
nearly all of its fuel. -/
def Reads (size : Nat) : Rule → List Lexeme → Expr → Prop
  | .comparison, ls, e => ∀ tokens rest fuel, lexemes tokens = ls → Stops 1 rest →
      6 * tokens.length + 4 ≤ fuel → comparison size fuel (tokens ++ rest) = .ok (e, rest)
  | .additive, ls, e => ∀ tokens rest fuel, lexemes tokens = ls → Stops 3 rest →
      6 * tokens.length + 3 ≤ fuel → ∃ left, fuel ≤ left + tokens.length + 1 ∧
        additive size fuel (tokens ++ rest) = moreTerms size left e rest
  | .term, ls, e => ∀ tokens rest fuel, lexemes tokens = ls → Stops 4 rest →
      6 * tokens.length + 2 ≤ fuel → ∃ left, fuel ≤ left + tokens.length + 1 ∧
        term size fuel (tokens ++ rest) = moreFactors size left e rest
  | .unary, ls, e => ∀ tokens rest fuel, lexemes tokens = ls → Stops 4 rest →
      6 * tokens.length + 1 ≤ fuel → unary size fuel (tokens ++ rest) = .ok (e, rest)
  | .primary, ls, e => ∀ tokens rest fuel, lexemes tokens = ls → Stops 4 rest →
      6 * tokens.length ≤ fuel → primary size fuel (tokens ++ rest) = .ok (e, rest)

section Rules

variable {ls rs : List Lexeme} {l r : Expr} {tokens : List Token}

/-- A sum is read to its end where the rest adds nothing to it. -/
theorem Reads.additive_ok (h : Reads size .additive ls e) (fuel : Nat) (rest : List Token)
    (htokens : lexemes tokens = ls) (hstops : Stops 2 rest) (hfuel : 6 * tokens.length + 3 ≤ fuel) :
    additive size fuel (tokens ++ rest) = .ok (e, rest) := by
  obtain ⟨left, hleft, heq⟩ := h tokens rest fuel htokens (hstops.mono (by decide)) hfuel
  obtain ⟨left, rfl⟩ := Nat.exists_eq_add_of_le' (show 1 ≤ left by omega)
  rw [heq, moreTerms_of_stops hstops]

/-- A product is read to its end where the rest adds no factor to it. -/
theorem Reads.term_ok (h : Reads size .term ls e) (fuel : Nat) (rest : List Token)
    (htokens : lexemes tokens = ls) (hstops : Stops 3 rest) (hfuel : 6 * tokens.length + 2 ≤ fuel) :
    term size fuel (tokens ++ rest) = .ok (e, rest) := by
  obtain ⟨left, hleft, heq⟩ := h tokens rest fuel htokens (hstops.mono (by decide)) hfuel
  obtain ⟨left, rfl⟩ := Nat.exists_eq_add_of_le' (show 1 ≤ left by omega)
  rw [heq, moreFactors_of_stops hstops]

theorem reads_operand (h : Reads size .additive ls e) : Reads size .comparison ls e := by
  intro tokens rest fuel htokens hstops hfuel
  obtain ⟨fuel, rfl⟩ := Nat.exists_eq_add_of_le' (show 1 ≤ fuel by omega)
  rw [comparison, h.additive_ok fuel rest htokens (hstops.mono (by decide)) (by omega), ok_bind]
  dsimp only
  split
  · exact absurd (hstops _ rfl) (Nat.lt_irrefl _)
  · rfl

/-- Two sums with a comparison between them are read as that
comparison. -/
theorem reads_comparison (hl : Reads size .additive ls l) (op : Comparator)
    (hr : Reads size .additive rs r) :
    Reads size .comparison (ls ++ .comparison op :: rs) (.comparison op l r) := by
  intro tokens rest fuel htokens hstops hfuel
  obtain ⟨left, start, right, rfl, hleft, hright⟩ := exists_split htokens
  rw [List.length_append, List.length_cons] at hfuel
  obtain ⟨fuel, rfl⟩ := Nat.exists_eq_add_of_le' (show 1 ≤ fuel by omega)
  have hfirst := hl.additive_ok fuel (⟨.comparison op, start⟩ :: right ++ rest) hleft
    (stops_cons (Nat.lt_succ_self _)) (by omega)
  have hsecond := hr.additive_ok fuel rest hright (hstops.mono (by decide)) (by omega)
  rw [comparison, List.append_assoc, hfirst, ok_bind, List.cons_append]
  dsimp only
  rw [hsecond]
  rfl

theorem reads_firstTerm (h : Reads size .term ls e) : Reads size .additive ls e := by
  intro tokens rest fuel htokens hstops hfuel
  obtain ⟨fuel, rfl⟩ := Nat.exists_eq_add_of_le' (show 1 ≤ fuel by omega)
  refine ⟨fuel, by omega, ?_⟩
  rw [additive, h.term_ok fuel rest htokens hstops (by omega), ok_bind]

/-- A sum with one more term: the parser comes to its loop with the sum
read, and goes round once more. -/
theorem reads_nextTerm (hl : Reads size .additive ls l) {op : Operator}
    (hop : op = .add ∨ op = .sub) (hr : Reads size .term rs r) :
    Reads size .additive (ls ++ .operator op :: rs) (.binary op l r) := by
  intro tokens rest fuel htokens hstops hfuel
  obtain ⟨left, start, right, rfl, hleft, hright⟩ := exists_split htokens
  rw [List.length_append, List.length_cons] at hfuel ⊢
  have hfollows : Stops 3 (⟨.operator op, start⟩ :: right ++ rest) := by
    rcases hop with rfl | rfl <;> exact stops_cons (Nat.lt_succ_self _)
  obtain ⟨loop, hloop, heq⟩ := hl left _ fuel hleft hfollows (by omega)
  obtain ⟨loop, rfl⟩ := Nat.exists_eq_add_of_le' (show 1 ≤ loop by omega)
  have hterm := hr.term_ok loop rest hright hstops (by omega)
  refine ⟨loop, by omega, ?_⟩
  rw [List.append_assoc, heq]
  rcases hop with rfl | rfl
  · rw [List.cons_append, moreTerms, hterm, ok_bind]
  · rw [List.cons_append, moreTerms, hterm, ok_bind]

theorem reads_firstFactor (h : Reads size .unary ls e) : Reads size .term ls e := by
  intro tokens rest fuel htokens hstops hfuel
  obtain ⟨fuel, rfl⟩ := Nat.exists_eq_add_of_le' (show 1 ≤ fuel by omega)
  refine ⟨fuel, by omega, ?_⟩
  rw [term, h tokens rest fuel htokens hstops (by omega), ok_bind]

/-- A product with one more factor, in the same way. The operand on the
right is unary, so the product grows to the left. -/
theorem reads_nextFactor (hl : Reads size .term ls l) {op : Operator}
    (hop : op = .mul ∨ op = .div) (hr : Reads size .unary rs r) :
    Reads size .term (ls ++ .operator op :: rs) (.binary op l r) := by
  intro tokens rest fuel htokens hstops hfuel
  obtain ⟨left, start, right, rfl, hleft, hright⟩ := exists_split htokens
  rw [List.length_append, List.length_cons] at hfuel ⊢
  have hfollows : Stops 4 (⟨.operator op, start⟩ :: right ++ rest) := by
    rcases hop with rfl | rfl <;> exact stops_cons (Nat.lt_succ_self _)
  obtain ⟨loop, hloop, heq⟩ := hl left _ fuel hleft hfollows (by omega)
  obtain ⟨loop, rfl⟩ := Nat.exists_eq_add_of_le' (show 1 ≤ loop by omega)
  have hunary := hr right rest loop hright hstops (by omega)
  refine ⟨loop, by omega, ?_⟩
  rw [List.append_assoc, heq]
  rcases hop with rfl | rfl
  · rw [List.cons_append, moreFactors, hunary, ok_bind]
  · rw [List.cons_append, moreFactors, hunary, ok_bind]

/-- A sign is read with the operand behind it, which may be signed
itself. -/
theorem reads_signed {op : Operator} {sign : Sign} (hsign : op.sign? = some sign)
    (h : Reads size .unary ls e) : Reads size .unary (.operator op :: ls) (.unary sign e) := by
  intro tokens rest fuel htokens hstops hfuel
  obtain ⟨⟨_, start⟩, operand, rfl, rfl, hoperand⟩ := List.map_eq_cons_iff.mp htokens
  rw [List.length_cons] at hfuel
  obtain ⟨fuel, rfl⟩ := Nat.exists_eq_add_of_le' (show 1 ≤ fuel by omega)
  have hunary := h operand rest fuel hoperand hstops (by omega)
  cases op with
  | add | sub =>
      cases hsign
      rw [List.cons_append, unary, hunary]
      rfl
  | mul | div => cases hsign

/-- Without a sign the operand is a primary expression, which starts
with no operator. -/
theorem reads_unsigned (hderives : Derives .primary ls e) (h : Reads size .primary ls e) :
    Reads size .unary ls e := by
  intro tokens rest fuel htokens hstops hfuel
  obtain ⟨fuel, rfl⟩ := Nat.exists_eq_add_of_le' (show 1 ≤ fuel by omega)
  have hprimary := h tokens rest fuel htokens hstops (by omega)
  obtain ⟨first, others, rfl, hfirst⟩ := exists_cons_of_primary hderives rfl
  obtain ⟨⟨_, start⟩, tail, rfl, rfl, -⟩ := List.map_eq_cons_iff.mp htokens
  rw [List.cons_append] at hprimary ⊢
  rw [unary.eq_def]
  dsimp only
  split
  · next heq =>
    cases heq
    exact absurd rfl (hfirst _)
  · next heq =>
    cases heq
    exact absurd rfl (hfirst _)
  · exact hprimary

/-- A literal, a reference or a range is one token. Such a token is read
whatever stands behind it. -/
theorem reads_single {lexeme : Lexeme}
    (h : ∀ fuel start rest, primary size (fuel + 1) (⟨lexeme, start⟩ :: rest) = .ok (e, rest)) :
    Reads size .primary [lexeme] e := by
  intro tokens rest fuel htokens _ hfuel
  obtain ⟨⟨_, start⟩, rfl, rfl⟩ := List.map_eq_singleton_iff.mp htokens
  rw [List.length_singleton] at hfuel
  obtain ⟨fuel, rfl⟩ := Nat.exists_eq_add_of_le' (show 1 ≤ fuel by omega)
  exact h fuel start rest

/-- A name is read as such where no parenthesis follows that would make
it a call. -/
theorem reads_name (name : Text) : Reads size .primary [.name name] (.name name) := by
  intro tokens rest fuel htokens hstops hfuel
  obtain ⟨⟨_, start⟩, rfl, rfl⟩ := List.map_eq_singleton_iff.mp htokens
  rw [List.length_singleton] at hfuel
  obtain ⟨fuel, rfl⟩ := Nat.exists_eq_add_of_le' (show 1 ≤ fuel by omega)
  rw [List.singleton_append, primary.eq_def]
  cases rest with
  | nil => rfl
  | cons token rest =>
      obtain ⟨lexeme, start'⟩ := token
      cases lexeme with
      | openParen => exact absurd (hstops _ rfl) (Nat.lt_irrefl _)
      | _ => rfl

/-- What stands in parentheses is read up to the one that closes, for
neither a factor nor a term nor a comparison goes on there. -/
theorem reads_parenthesized (h : Reads size .comparison ls e) :
    Reads size .primary (.openParen :: (ls ++ [.closeParen])) e := by
  intro tokens rest fuel htokens _ hfuel
  obtain ⟨⟨_, start⟩, others, rfl, rfl, hothers⟩ := List.map_eq_cons_iff.mp htokens
  obtain ⟨inner, closed, right, rfl, hinner, hright⟩ := exists_split hothers
  obtain rfl := List.map_eq_nil_iff.mp hright
  simp only [List.length_cons, List.length_append, List.length_nil] at hfuel
  obtain ⟨fuel, rfl⟩ := Nat.exists_eq_add_of_le' (show 1 ≤ fuel by omega)
  have hcomparison := h inner (⟨.closeParen, closed⟩ :: rest) fuel hinner
    (stops_cons (Nat.lt_succ_self _)) (by omega)
  rw [List.cons_append, List.append_assoc, primary, List.singleton_append, hcomparison]
  rfl

-- ====================================================== calls

/-- The arguments of a call are read up to the parenthesis that closes
it: each ends at a comma or there. -/
theorem arguments_ok {part : List Lexeme × Expr} {parts : List (List Lexeme × Expr)}
    (h : ∀ p ∈ part :: parts, Reads size .comparison p.1 p.2) (fuel : Nat) (rest : List Token)
    (htokens : lexemes tokens
      = [Lexeme.comma].intercalate ((part :: parts).map Prod.fst) ++ [.closeParen])
    (hfuel : 6 * tokens.length + 5 ≤ fuel) :
    arguments size fuel (tokens ++ rest) = .ok ((part :: parts).map Prod.snd, rest) := by
  induction parts generalizing part tokens fuel with
  | nil =>
      obtain ⟨first, closed, right, rfl, hfirst, hright⟩ := exists_split htokens
      obtain rfl := List.map_eq_nil_iff.mp hright
      simp only [List.length_append, List.length_singleton] at hfuel
      obtain ⟨fuel, rfl⟩ := Nat.exists_eq_add_of_le' (show 1 ≤ fuel by omega)
      have hcomparison := h part (List.mem_singleton_self _) first
        (⟨.closeParen, closed⟩ :: rest) fuel
        (hfirst.trans List.intercalate_singleton) (stops_cons (Nat.lt_succ_self _)) (by omega)
      rw [List.append_assoc, List.singleton_append, arguments, hcomparison]
      rfl
  | cons next parts ih =>
      obtain ⟨hpart, hparts⟩ := List.forall_mem_cons.mp h
      have hsplit : lexemes tokens = part.1 ++ Lexeme.comma ::
          ([Lexeme.comma].intercalate ((next :: parts).map Prod.fst) ++ [.closeParen]) := by
        rw [htokens, List.map_cons, List.map_cons, List.intercalate_cons_cons]
        simp
      obtain ⟨first, start, right, rfl, hfirst, hright⟩ := exists_split hsplit
      simp only [List.length_append, List.length_cons] at hfuel
      obtain ⟨fuel, rfl⟩ := Nat.exists_eq_add_of_le' (show 1 ≤ fuel by omega)
      have hcomparison := hpart first (⟨.comma, start⟩ :: right ++ rest) fuel hfirst
        (stops_cons (Nat.lt_succ_self _)) (by omega)
      have hothers := ih hparts fuel hright (by omega)
      rw [List.append_assoc, arguments, hcomparison, ok_bind, List.cons_append]
      dsimp only
      rw [hothers]
      rfl

/-- A name with a parenthesis that is not closed at once is called with
arguments. -/
theorem primary_call {name : Text} {lexeme : Lexeme} {start opened start' : Nat}
    (h : lexeme ≠ .closeParen) :
    primary size (fuel + 1)
        (⟨.name name, start⟩ :: ⟨.openParen, opened⟩ :: ⟨lexeme, start'⟩ :: rest)
      = do
        let (args, rest) ← arguments size fuel (⟨lexeme, start'⟩ :: rest)
        return (.call name args, rest) := by
  rw [primary.eq_def]
  cases lexeme with
  | closeParen => exact absurd rfl h
  | _ => rfl

/-- A call is read with its arguments, or without any where the
parenthesis is closed at once. -/
theorem reads_call (name : Text) (args : List (List Lexeme × Expr))
    (hderives : ∀ arg ∈ args, Derives .comparison arg.1 arg.2)
    (h : ∀ arg ∈ args, Reads size .comparison arg.1 arg.2) :
    Reads size .primary
      (.name name :: .openParen
        :: ([Lexeme.comma].intercalate (args.map Prod.fst) ++ [.closeParen]))
      (.call name (args.map Prod.snd)) := by
  intro tokens rest fuel htokens _ hfuel
  obtain ⟨⟨_, start⟩, others, rfl, rfl, hothers⟩ := List.map_eq_cons_iff.mp htokens
  obtain ⟨⟨_, opened⟩, inner, rfl, rfl, hinner⟩ := List.map_eq_cons_iff.mp hothers
  simp only [List.length_cons] at hfuel
  obtain ⟨fuel, rfl⟩ := Nat.exists_eq_add_of_le' (show 1 ≤ fuel by omega)
  rw [List.cons_append, List.cons_append]
  cases args with
  | nil =>
      obtain ⟨⟨_, closed⟩, rfl, rfl⟩ := List.map_eq_singleton_iff.mp hinner
      rfl
  | cons part parts =>
      -- the first argument does not start with the parenthesis that closes an empty call
      have hfirst : ∃ token tail, inner = token :: tail ∧ token.lexeme ≠ .closeParen := by
        obtain ⟨first, ls, hpart, hfirst⟩ :=
          exists_cons_of_derives (hderives part (List.mem_cons_self ..))
        cases parts with
        | nil =>
            rw [List.map_singleton, List.intercalate_singleton, hpart] at hinner
            obtain ⟨token, tail, rfl, rfl, -⟩ := List.map_eq_cons_iff.mp hinner
            exact ⟨token, tail, rfl, hfirst⟩
        | cons next parts =>
            rw [List.map_cons, List.map_cons, List.intercalate_cons_cons, hpart] at hinner
            obtain ⟨token, tail, rfl, rfl, -⟩ := List.map_eq_cons_iff.mp hinner
            exact ⟨token, tail, rfl, hfirst⟩
      have harguments := arguments_ok h fuel rest hinner (by omega)
      obtain ⟨⟨lexeme, start'⟩, tail, rfl, hfirst⟩ := hfirst
      rw [List.cons_append] at harguments ⊢
      rw [primary_call hfirst, harguments]
      rfl

end Rules

-- ====================================================== the parser and the grammar

/-- What is derived from a rule is read by it, with fuel enough for its
tokens. The induction is on the derivation, one case for each rule. -/
theorem reads_of_derives {rule : Rule} {ls : List Lexeme} (h : Derives rule ls e) (size : Nat) :
    Reads size rule ls e := by
  induction h with
  | operand _ ih => exact reads_operand ih
  | comparison _ op _ ihl ihr => exact reads_comparison ihl op ihr
  | firstTerm _ ih => exact reads_firstTerm ih
  | nextTerm _ hop _ ihl ihr => exact reads_nextTerm ihl hop ihr
  | firstFactor _ ih => exact reads_firstFactor ih
  | nextFactor _ hop _ ihl ihr => exact reads_nextFactor ihl hop ihr
  | signed hsign _ ih => exact reads_signed hsign ih
  | unsigned h ih => exact reads_unsigned h ih
  | number | string | reference | range => exact reads_single fun _ _ _ => rfl
  | name name => exact reads_name name
  | call name args h ih => exact reads_call name args h ih
  | parenthesized _ ih => exact reads_parenthesized ih

/-- Tokens that are derived from the grammar are that expression to the
parser. -/
theorem parseTokens_of_derives {tokens : List Token}
    (h : Derives .comparison (lexemes tokens) e) (size : Nat) :
    parseTokens size tokens = .ok e := by
  have hreads := reads_of_derives h size tokens [] (8 * tokens.length + 8) rfl (stops_nil 1)
    (by omega)
  obtain ⟨first, ls, hls, -⟩ := exists_cons_of_derives h
  obtain ⟨token, tail, rfl, -, -⟩ := List.map_eq_cons_iff.mp hls
  rw [List.append_nil] at hreads
  rw [parseTokens, hreads]
  · rfl
  · exact nofun

/-- Lexemes are derived as one expression at most, because both
derivations are read by the same parser. -/
theorem eq_of_derives {ls : List Lexeme} {e' : Expr} (h : Derives .comparison ls e)
    (h' : Derives .comparison ls e') : e = e' := by
  have hlexemes : lexemes (ls.map fun lexeme => ⟨lexeme, 0⟩) = ls := by
    simp [lexemes, Function.comp_def]
  rw [← hlexemes] at h h'
  have hread := parseTokens_of_derives h 0
  rw [parseTokens_of_derives h' 0] at hread
  exact (Except.ok.inj hread).symm

/-- The parser reads tokens as an expression exactly when they are
derived from the grammar as this one. There is one such expression and
no other, or else there is none and the parser finds a fault in the
syntax. -/
theorem parseTokens_derives (size : Nat) (tokens : List Token) :
    (∀ e, parseTokens size tokens = .ok e ↔ Derives .comparison (lexemes tokens) e) ∧
      ((∃! e, Derives .comparison (lexemes tokens) e) ∨
        (¬∃ e, Derives .comparison (lexemes tokens) e) ∧
          ∃ fault : SyntaxFault, parseTokens size tokens = .error fault) := by
  refine ⟨fun e => ⟨derives_of_parseTokens, fun h => parseTokens_of_derives h size⟩, ?_⟩
  cases hparse : parseTokens size tokens with
  | ok e =>
      have hderives := derives_of_parseTokens hparse
      exact .inl ⟨e, hderives, fun e' h' => eq_of_derives h' hderives⟩
  | error fault =>
      refine .inr ⟨?_, fault, rfl⟩
      rintro ⟨e, h⟩
      rw [parseTokens_of_derives h size] at hparse
      cases hparse

/-- A text is the expression that its lexemes are derived as; and where
it has none, it does not split into tokens or its lexemes are no
expression. -/
theorem toOption_parse_eq_some {cs : Text} :
    (parse cs).toOption = some e ↔
      ∃ ls, Lexer.lexemesOf (Lexer.tokens cs) = some ls ∧ Derives .comparison ls e := by
  rw [toOption_eq_some, parse, bind_eq_ok]
  constructor
  · rintro ⟨run, hrun, hparse⟩
    exact ⟨_, by rw [hrun]; rfl, derives_of_parseTokens hparse⟩
  · rintro ⟨ls, hls, hderives⟩
    obtain ⟨run, hrun, rfl⟩ := Lexer.exists_tokens_of_lexemesOf hls
    exact ⟨run, hrun, parseTokens_of_derives hderives _⟩

end Spreadsheet.Parser

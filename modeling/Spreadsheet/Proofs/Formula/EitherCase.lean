/-
Formulas do not tell upper case from lower case outside strings.

# Along the pieces of the first text

Where a string stands is itself decided by the lexer, so two texts are
compared along the pieces of the first (`InString`). The second is in step
with it at every piece (`tokensFrom_congr`): the same kinds of tokens in the
same places with the same values, but for the marks of powers of ten, or the
same fault. A fault shows a character, and that one is no letter, so both
texts show the same one (`isLetter_of_piece?_eq_none`).

# Numbers

A number keeps the mark of its power of ten as it is written, so the tokens
are compared with these marks in upper case, and so are the expressions
(`Expr.folded`). The grammar does not look into numbers: what is derived
from the tokens of the one text is derived from those of the other
(`exists_derives_of_folded`), by induction on the derivation, where lists of
lexemes are taken apart at the same places.

# What this closes

Two texts that differ only so are one expression, or neither is one, and
they read the same cells (`Formula.case_outside_strings`).
-/
import Spreadsheet.Formula.Reads
import Spreadsheet.Proofs.Formula.Completeness
import Spreadsheet.Proofs.Formula.Letters
import Spreadsheet.Proofs.Formula.Operands
import Spreadsheet.Proofs.Formula.Progress

namespace Spreadsheet

open CodePoint (foldCase)

-- ====================================================== statement vocabulary

/-- A token with the mark of a power of ten in upper case. -/
def Token.folded (token : Token) : Token :=
  { token with lexeme := token.lexeme.folded }

namespace Expr

mutual

/-- An expression with the marks of powers of ten in upper case. -/
def folded : Expr → Expr
  | .number text => .number (text.map foldCase)
  | .string value => .string value
  | .reference key => .reference key
  | .range text => .range text
  | .name key => .name key
  | .unary sign operand => .unary sign (folded operand)
  | .binary op left right => .binary op (folded left) (folded right)
  | .comparison op left right => .comparison op (folded left) (folded right)
  | .call key args => .call key (foldedAll args)
termination_by structural e => e

/-- Some expressions with the marks of powers of ten in upper case. -/
def foldedAll : List Expr → List Expr
  | [] => []
  | first :: others => folded first :: foldedAll others
termination_by structural es => es

end

theorem foldedAll_eq_map (args : List Expr) : foldedAll args = args.map folded := by
  induction args with
  | nil => rfl
  | cons first others ih => rw [foldedAll, ih, List.map_cons]

end Expr

namespace Lexer

/-- A place of a text lies in a string literal, quotes included.
Literals are found piece by piece from the left. -/
inductive InString : Text → Nat → Prop where
  | here {cs value n i} (h : piece? cs = some (some (.string value), n)) (hi : i < n) :
      InString cs i
  | later {cs lexeme n i} (h : piece? cs = some (lexeme, n)) (hi : InString (cs.drop n) i) :
      InString cs (n + i)

/-- Two texts differ in the case of letters of the basic alphabet only,
and not in the string literals of the first. -/
structure SameOutsideStrings (cs ds : Text) : Prop where
  letters : ds.map foldCase = cs.map foldCase
  strings : ∀ i, InString cs i → ds[i]? = cs[i]?

-- ====================================================== tokens

variable {cs ds : Text}

theorem SameOutsideStrings.take (h : SameOutsideStrings cs ds) {value : Text} {n : Nat}
    (hpiece : piece? cs = some (some (.string value), n)) : ds.take n = cs.take n := by
  refine List.ext_getElem? fun i => ?_
  rw [List.getElem?_take, List.getElem?_take]
  split
  · next hi => exact h.strings i (.here hpiece hi)
  · rfl

/-- Past a piece, the texts are the same outside strings still. -/
theorem SameOutsideStrings.drop (h : SameOutsideStrings cs ds) {lexeme : Option Lexeme} {n : Nat}
    (hpiece : piece? cs = some (lexeme, n)) : SameOutsideStrings (cs.drop n) (ds.drop n) where
  letters := by rw [List.map_drop, h.letters, List.map_drop]
  strings i hi := by
    rw [List.getElem?_drop, List.getElem?_drop]
    exact h.strings (n + i) (.later hpiece hi)

/-- A place in a string lies in the first piece, which is that string,
or past it. -/
theorem InString.cases_of_piece {lexeme : Option Lexeme} {n i : Nat}
    (hpiece : piece? cs = some (lexeme, n)) (h : InString cs i) :
    (∃ value, lexeme = some (.string value)) ∧ i < n ∨ ∃ j, i = n + j ∧ InString (cs.drop n) j := by
  cases h with
  | here h hi =>
      rw [hpiece] at h
      cases h
      exact .inl ⟨⟨_, rfl⟩, hi⟩
  | later h hi =>
      rw [hpiece] at h
      cases h
      exact .inr ⟨_, rfl, hi⟩

theorem sameOutsideStrings_nil : SameOutsideStrings [] [] := ⟨rfl, fun _ _ => rfl⟩

/-- A piece that differs in the case of letters, or a string that does
not differ, and texts after it that are the same outside strings. -/
theorem SameOutsideStrings.piece (lexeme : Option Lexeme) (n : Nat)
    (hpiece : piece? cs = some (lexeme, n))
    (hletters : (ds.take n).map foldCase = (cs.take n).map foldCase)
    (hstring : (∃ value, lexeme = some (.string value)) → ds.take n = cs.take n)
    (hrest : SameOutsideStrings (cs.drop n) (ds.drop n)) : SameOutsideStrings cs ds where
  letters := by
    rw [← List.take_append_drop n ds, ← List.take_append_drop n cs, List.map_append,
      List.map_append, hletters, hrest.letters]
  strings i hi := by
    rcases hi.cases_of_piece hpiece with ⟨hvalue, hlt⟩ | ⟨j, rfl, hj⟩
    · have htake := congrArg (·[i]?) (hstring hvalue)
      simpa only [List.getElem?_take, if_pos hlt] using htake
    · have hdrop := hrest.strings j hj
      rwa [List.getElem?_drop, List.getElem?_drop] at hdrop

/-- Where no piece is found there is no letter, as a letter starts a
name. So both texts stop at the same character. -/
theorem isLetter_of_piece?_eq_none {c : CodePoint} (h : piece? (c :: cs) = none) :
    isLetter c = false := by
  cases hc : isLetter c with
  | false => rfl
  | true =>
      unfold piece? at h
      simp only [blankLength?_of_not_isBlank (isBlank_of_isAlphanumeric
        (isAlphanumeric_of_isLetter hc)),
        stringLength?_of_isAlphanumeric (isAlphanumeric_of_isLetter hc),
        numberLength?_of_isLetter hc, nameLength?, startsName, hc, Bool.true_or, if_true] at h
      split at h <;> cases h

/-- A first token is folded by itself, and so are those after it. -/
theorem map_folded_cons (lexeme : Option Lexeme) (position : Nat)
    (run : Except SyntaxFault (List Token)) :
    (do let rest ← run
        return (lexeme.map (Token.mk · position)).toList ++ rest :
        Except SyntaxFault (List Token)).map (·.map Token.folded)
      = (run.map (·.map Token.folded)).map
          (((lexeme.map Lexeme.folded).map (Token.mk · position)).toList ++ ·) := by
  cases run with
  | error fault => rfl
  | ok rest => cases lexeme <;> rfl

/-- Texts that are the same outside strings have the same tokens in the
same places, up to the marks of powers of ten, or the same fault. -/
theorem tokensFrom_congr (h : SameOutsideStrings cs ds) (position : Nat) :
    (tokensFrom position 0 ds).map (·.map Token.folded)
      = (tokensFrom position 0 cs).map (·.map Token.folded) := by
  induction hlength : cs.length using Nat.strongRecOn generalizing cs ds position with
  | ind length ih =>
    subst hlength
    cases cs with
    | nil =>
        obtain rfl := List.map_eq_nil_iff.mp h.letters
        rfl
    | cons c cs =>
        obtain ⟨d, ds, rfl, hd, -⟩ := List.map_eq_cons_iff.mp h.letters
        have hpiece := piece?_congr h.letters fun _ _ => h.take
        rw [tokensFrom_cons, tokensFrom_cons]
        cases hc : piece? (c :: cs) with
        | none =>
            -- both stop here, at a character that folding leaves alone
            have hc' : foldCase c = c := (foldCase_cases c).resolve_right fun hletter => by
              rw [isLetter_of_piece?_eq_none hc] at hletter
              cases hletter.1
            obtain rfl : d = c :=
              (foldCase_eq_iff (isLetter_of_piece?_eq_none hc)).mp (hd.trans hc')
            rw [hc, Option.map_none, Option.map_eq_none_iff] at hpiece
            rw [hpiece]
        | some found =>
            obtain ⟨lexeme, n⟩ := found
            rw [hc, Option.map_some] at hpiece
            obtain ⟨⟨lexeme', n'⟩, hd', heq⟩ := Option.map_eq_some_iff.mp hpiece
            obtain ⟨hlexeme, rfl⟩ := Prod.mk.inj heq
            have hbounds := piece?_bounds hc
            -- behind the piece the two texts are again the same outside strings
            have hrest := ih ((c :: cs).drop n').length (by rw [List.length_drop]; omega)
              (h.drop hc) (position + n') rfl
            rw [hd']
            dsimp only
            rw [map_folded_cons, map_folded_cons, hlexeme, hrest]

end Lexer

-- ====================================================== expressions

/-- A lexeme that is no number is folded from itself only. -/
theorem Lexeme.eq_of_folded {l l' : Lexeme} (h : l'.folded = l.folded)
    (hl : ∀ text, l ≠ .number text) : l' = l := by
  cases l <;> cases l' <;> simp_all [Lexeme.folded]

namespace Grammar

variable {ls rs ls' : List Lexeme} {between : Lexeme}

/-- What is folded to a lexeme that is no number starts with that
lexeme. -/
theorem exists_cons_of_folded (hbetween : ∀ text, between ≠ .number text)
    (h : ls'.map Lexeme.folded = (between :: rs).map Lexeme.folded) :
    ∃ right, ls' = between :: right ∧ right.map Lexeme.folded = rs.map Lexeme.folded := by
  obtain ⟨between', right, rfl, hbetween', hright⟩ := List.map_eq_cons_iff.mp h
  obtain rfl := Lexeme.eq_of_folded hbetween' hbetween
  exact ⟨right, rfl, hright⟩

/-- Lexemes that are folded to two parts with a lexeme between them are
two parts with it between them. -/
theorem exists_split_of_folded (hbetween : ∀ text, between ≠ .number text)
    (h : ls'.map Lexeme.folded = (ls ++ between :: rs).map Lexeme.folded) :
    ∃ left right, ls' = left ++ between :: right ∧ left.map Lexeme.folded = ls.map Lexeme.folded ∧
      right.map Lexeme.folded = rs.map Lexeme.folded := by
  rw [List.map_append] at h
  obtain ⟨left, rest, rfl, hleft, hrest⟩ := List.map_eq_append_iff.mp h
  obtain ⟨right, rfl, hright⟩ := exists_cons_of_folded hbetween hrest
  exact ⟨left, right, rfl, hleft, hright⟩

/-- What is written between commas is split in the same places when
numbers are changed. -/
theorem exists_commas_of_folded {parts : List (List Lexeme)}
    (h : ls'.map Lexeme.folded = ([Lexeme.comma].intercalate parts).map Lexeme.folded) :
    ∃ parts', ls' = [Lexeme.comma].intercalate parts' ∧
      List.Forall₂ (fun part part' => part'.map Lexeme.folded = part.map Lexeme.folded)
        parts parts' := by
  induction parts generalizing ls' with
  | nil =>
      obtain rfl := List.map_eq_nil_iff.mp h
      exact ⟨[], rfl, .nil⟩
  | cons part parts ih =>
      cases parts with
      | nil => exact ⟨[ls'], by simp, .cons (by simpa using h) .nil⟩
      | cons next parts =>
          rw [List.intercalate_cons_cons, List.append_assoc, List.singleton_append] at h
          obtain ⟨left, right, rfl, hleft, hright⟩ := exists_split_of_folded (by nofun) h
          obtain ⟨parts', rfl, hparts⟩ := ih hright
          obtain ⟨next', parts', -, -, rfl⟩ := List.forall₂_cons_left_iff.mp hparts
          refine ⟨left :: next' :: parts', ?_, .cons hleft hparts⟩
          rw [List.intercalate_cons_cons, List.append_assoc, List.singleton_append]

/-- Arguments that differ in the marks of numbers are derived one by
one. -/
theorem exists_args_of_folded {args : List (List Lexeme × Expr)} {parts : List (List Lexeme)}
    (h : List.Forall₂ (fun arg part => part.map Lexeme.folded = arg.1.map Lexeme.folded) args parts)
    (hargs : ∀ arg ∈ args, ∀ {part : List Lexeme},
      part.map Lexeme.folded = arg.1.map Lexeme.folded →
      ∃ e, Derives .comparison part e ∧ e.folded = arg.2.folded) :
    ∃ args' : List (List Lexeme × Expr), args'.map (·.1) = parts ∧
      (∀ arg ∈ args', Derives .comparison arg.1 arg.2) ∧
      (args'.map (·.2)).map Expr.folded = (args.map (·.2)).map Expr.folded := by
  induction h with
  | nil => exact ⟨[], rfl, nofun, rfl⟩
  | @cons arg part args parts hfirst _ ih =>
      obtain ⟨hfirst', hothers'⟩ := List.forall_mem_cons.mp hargs
      obtain ⟨e, he, hfolded⟩ := hfirst' hfirst
      obtain ⟨args', rfl, hargs', hothers⟩ := ih hothers'
      refine ⟨(part, e) :: args', rfl, List.forall_mem_cons.mpr ⟨he, hargs'⟩, ?_⟩
      exact congrArg₂ List.cons hfolded hothers

/-- The grammar does not look into numbers, and a number is all that
folding changes in a lexeme. The induction is on the derivation; the
lexemes are split on the other side where they were split on this. -/
theorem exists_derives_of_folded {rule : Rule} {e : Expr} (h : Derives rule ls e)
    (hls : ls'.map Lexeme.folded = ls.map Lexeme.folded) :
    ∃ e', Derives rule ls' e' ∧ e'.folded = e.folded := by
  -- one lexeme that is no number, and the expression it is
  have hsingle : ∀ {ls' : List Lexeme} {l : Lexeme} {e : Expr}, Derives .primary [l] e →
      (∀ text, l ≠ .number text) → ls'.map Lexeme.folded = [l].map Lexeme.folded →
      ∃ e', Derives .primary ls' e' ∧ e'.folded = e.folded := by
    intro ls' l e hderives hl hls
    obtain ⟨l', rfl, hl'⟩ := List.map_eq_singleton_iff.mp hls
    rw [Lexeme.eq_of_folded hl' hl]
    exact ⟨e, hderives, rfl⟩
  induction h generalizing ls' with
  | operand _ ih =>
      obtain ⟨e', he', hfolded⟩ := ih hls
      exact ⟨e', .operand he', hfolded⟩
  | firstTerm _ ih =>
      obtain ⟨e', he', hfolded⟩ := ih hls
      exact ⟨e', .firstTerm he', hfolded⟩
  | firstFactor _ ih =>
      obtain ⟨e', he', hfolded⟩ := ih hls
      exact ⟨e', .firstFactor he', hfolded⟩
  | unsigned _ ih =>
      obtain ⟨e', he', hfolded⟩ := ih hls
      exact ⟨e', .unsigned he', hfolded⟩
  | comparison _ op _ ihl ihr =>
      obtain ⟨left, right, rfl, hleft, hright⟩ := exists_split_of_folded (by nofun) hls
      obtain ⟨l', hl', hl⟩ := ihl hleft
      obtain ⟨r', hr', hr⟩ := ihr hright
      exact ⟨_, .comparison hl' op hr', by rw [Expr.folded, Expr.folded, hl, hr]⟩
  | nextTerm _ hop _ ihl ihr =>
      obtain ⟨left, right, rfl, hleft, hright⟩ := exists_split_of_folded (by nofun) hls
      obtain ⟨l', hl', hl⟩ := ihl hleft
      obtain ⟨r', hr', hr⟩ := ihr hright
      exact ⟨_, .nextTerm hl' hop hr', by rw [Expr.folded, Expr.folded, hl, hr]⟩
  | nextFactor _ hop _ ihl ihr =>
      obtain ⟨left, right, rfl, hleft, hright⟩ := exists_split_of_folded (by nofun) hls
      obtain ⟨l', hl', hl⟩ := ihl hleft
      obtain ⟨r', hr', hr⟩ := ihr hright
      exact ⟨_, .nextFactor hl' hop hr', by rw [Expr.folded, Expr.folded, hl, hr]⟩
  | signed hsign _ ih =>
      obtain ⟨right, rfl, hright⟩ := exists_cons_of_folded (by nofun) hls
      obtain ⟨e', he', hfolded⟩ := ih hright
      exact ⟨_, .signed hsign he', by rw [Expr.folded, Expr.folded, hfolded]⟩
  | number text =>
      obtain ⟨l', rfl, hl'⟩ := List.map_eq_singleton_iff.mp hls
      cases l' with
      | number text' =>
          exact ⟨_, .number text', congrArg Expr.number (Lexeme.number.inj hl')⟩
      | _ => cases hl'
  | string value => exact hsingle (.string value) nofun hls
  | reference key => exact hsingle (.reference key) nofun hls
  | range text => exact hsingle (.range text) nofun hls
  | name name => exact hsingle (.name name) nofun hls
  | call name args _ ih =>
      obtain ⟨called, rfl, hcalled⟩ := exists_cons_of_folded (by nofun) hls
      obtain ⟨inside, rfl, hinside⟩ := exists_cons_of_folded (by nofun) hcalled
      obtain ⟨between, right, rfl, hbetween, hright⟩ := exists_split_of_folded (by nofun) hinside
      obtain rfl := List.map_eq_nil_iff.mp hright
      obtain ⟨parts, rfl, hparts⟩ := exists_commas_of_folded hbetween
      obtain ⟨args', rfl, hargs', hfolded⟩ :=
        exists_args_of_folded (List.forall₂_map_left_iff.mp hparts) ih
      refine ⟨_, .call name args' hargs', ?_⟩
      rw [Expr.folded, Expr.folded, Expr.foldedAll_eq_map, Expr.foldedAll_eq_map, hfolded]
  | parenthesized _ ih =>
      obtain ⟨inside, rfl, hinside⟩ := exists_cons_of_folded (by nofun) hls
      obtain ⟨inner, right, rfl, hinner, hright⟩ := exists_split_of_folded (by nofun) hinside
      obtain rfl := List.map_eq_nil_iff.mp hright
      obtain ⟨e', he', hfolded⟩ := ih hinner
      exact ⟨e', .parenthesized he', hfolded⟩

end Grammar

-- ====================================================== what is read

theorem Formula.keysOf_folded (lexeme : Lexeme) : keysOf lexeme.folded = keysOf lexeme := by
  cases lexeme <;> rfl

section Texts

open Lexer (tokens lexemesOf tokensFrom_congr SameOutsideStrings sameOutsideStrings_nil)

variable {cs ds : Text}

/-- Texts with one list of tokens, up to the marks of powers of ten, are
one expression up to them. -/
theorem Parser.parse_congr
    (h : (tokens ds).map (·.map Token.folded) = (tokens cs).map (·.map Token.folded)) :
    (parse ds).toOption.map Expr.folded = (parse cs).toOption.map Expr.folded := by
  have hlexemes : ∀ run : Except SyntaxFault (List Token),
      lexemesOf (run.map (·.map Token.folded)) = (lexemesOf run).map (·.map Lexeme.folded) := by
    intro run
    cases run with
    | error fault => rfl
    | ok run =>
        refine congrArg some ?_
        show (run.map Token.folded).map Token.lexeme = (run.map Token.lexeme).map Lexeme.folded
        rw [List.map_map, List.map_map]
        rfl
  -- what the one text is, the other is too
  have hhalf : ∀ {cs ds : Text} {x : Expr},
      (tokens ds).map (·.map Token.folded) = (tokens cs).map (·.map Token.folded) →
      (parse cs).toOption.map Expr.folded = some x →
      (parse ds).toOption.map Expr.folded = some x := by
    intro cs ds x h hx
    obtain ⟨e, he, rfl⟩ := Option.map_eq_some_iff.mp hx
    obtain ⟨ls, hls, hderives⟩ := toOption_parse_eq_some.mp he
    have hfolded := congrArg lexemesOf h
    rw [hlexemes, hlexemes, hls] at hfolded
    obtain ⟨ls', hls', hsame⟩ := Option.map_eq_some_iff.mp hfolded
    obtain ⟨e', he', hexpr⟩ := Grammar.exists_derives_of_folded hderives hsame
    exact Option.map_eq_some_iff.mpr ⟨e', toOption_parse_eq_some.mpr ⟨ls', hls', he'⟩, hexpr⟩
  exact Option.ext fun x => ⟨hhalf h.symm, hhalf h⟩

/-- Texts with one list of tokens, up to the marks of powers of ten,
name the same cells. -/
theorem Formula.readsOfText_congr
    (h : (tokens ds).map (·.map Token.folded) = (tokens cs).map (·.map Token.folded)) :
    readsOfText (.char '=' :: ds) = readsOfText (.char '=' :: cs) := by
  have hfolded : ∀ run : List Token, run.mapM (fun token => keysOf token.lexeme)
      = (run.map Token.folded).mapM fun token => keysOf token.lexeme := fun run => by
    rw [List.mapM_map]
    exact congrArg run.mapM (funext fun token => (keysOf_folded token.lexeme).symm)
  cases hcs : tokens cs <;> cases hds : tokens ds <;> rw [hcs, hds] at h
  · simp only [readsOfText, hcs, hds]
  · cases h
  · cases h
  · next run run' =>
    have hrun : run'.map Token.folded = run.map Token.folded := Except.ok.inj h
    simp only [readsOfText, hcs, hds]
    rw [hfolded run', hrun, ← hfolded run]

/-- The case of letters outside strings does not matter to a formula.
Two texts that differ in nothing else have the same tokens in the same
places, or the same character of both is none that can stand there. They
are one expression, or none is an expression, and they read the same
cells. Only a number keeps the mark of its power of ten as it is
written. -/
theorem Formula.case_outside_strings (h : SameOutsideStrings cs ds) :
    (tokens ds).map (·.map Token.folded) = (tokens cs).map (·.map Token.folded) ∧
      (Parser.parse ds).toOption.map Expr.folded = (Parser.parse cs).toOption.map Expr.folded ∧
      readsOfText (.char '=' :: ds) = readsOfText (.char '=' :: cs) :=
  have htokens := tokensFrom_congr h 0
  ⟨htokens, Parser.parse_congr htokens, readsOfText_congr htokens⟩

/-- The string keeps its letter; the other letters are in either
case. -/
theorem Formula.case_outside_strings_power :
    SameOutsideStrings "a1+1e2=\"e\"" "A1+1E2=\"e\"" ∧
      (tokens "A1+1E2=\"e\"").map (·.map Token.folded)
        = .ok [⟨.reference "A1", 0⟩, ⟨.operator .add, 2⟩, ⟨.number "1E2", 3⟩,
          ⟨.comparison .equal, 6⟩, ⟨.string "e", 7⟩] ∧
      (Parser.parse "A1+1E2=\"e\"").toOption.map Expr.folded
        = (Parser.parse "a1+1e2=\"e\"").toOption.map Expr.folded ∧
      readsOfText "=A1+1E2=\"e\"" = .ok ["A1"] := by
  have hsame : SameOutsideStrings "a1+1e2=\"e\"" "A1+1E2=\"e\"" := by
    refine .piece (some (.reference "A1")) 2 (by decide) (by decide) nofun ?_
    refine .piece (some (.operator .add)) 1 (by decide) (by decide) nofun ?_
    refine .piece (some (.number "1e2")) 3 (by decide) (by decide) nofun ?_
    refine .piece (some (.comparison .equal)) 1 (by decide) (by decide) nofun ?_
    refine .piece (some (.string "e")) 3 (by decide) (by decide) (fun _ => by decide) ?_
    exact sameOutsideStrings_nil
  obtain ⟨htokens, hparse, hreads⟩ := case_outside_strings hsame
  exact ⟨hsame, htokens.trans rfl, hparse, hreads.trans rfl⟩

end Texts

end Spreadsheet

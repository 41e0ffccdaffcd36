/-
Texts written as string literals.

# Two kinds of quotes

A text can be written between double quotes, with each of its own double
quotes written twice, or as it is between single quotes if it holds none. A
literal carries the choice and, for single quotes, the proof that it can be
made (`Literal`). Either way the literal stands for its text: taking the
quotes off gives the text back (`unquote_written`).

# Read back as one token

A literal is read back as one token, whatever the text is: no quote, comma
or parenthesis in it ends the literal early, as long as no double quote
follows the literal (`piece?_written`). Doubled quotes close no string,
which is the induction on the text (`closingQuote_doubled`).

# Concatenation

So the literals between the commas of a call are its arguments and nothing
more, and CONCAT of them shows the texts one after another
(`evaluateText_concatenation`). Commas and a parenthesis are what follows a
literal there, and no double quote is among these. Since a literal is one
token, nothing in it is taken for a key, and the formula reads no cell.
-/
import Spreadsheet.Proofs.Eval.ReadSet
import Spreadsheet.Proofs.Formula.Completeness

namespace Spreadsheet

-- ====================================================== literals

/-- A text to be written as a literal, with the choice of its quotes. -/
inductive Literal where
  | double (text : Text)
  | single (text : Text) (h : .char '\'' ∉ text)

namespace Literal

/-- The text that the literal is to stand for. -/
def text : Literal → Text
  | double text => text
  | single text _ => text

/-- A text with every double quote written twice. -/
def doubled : Text → Text
  | [] => []
  | c :: cs => if c = .char '"' then .char '"' :: .char '"' :: doubled cs else c :: doubled cs

/-- The literal as it stands in a formula. -/
def written : Literal → Text
  | double text => .char '"' :: (doubled text ++ [.char '"'])
  | single text _ => .char '\'' :: (text ++ [.char '\''])

theorem written_ne_nil (literal : Literal) : literal.written ≠ [] := by
  cases literal <;> simp [written]

/-- Written twice and read once, the quotes of a text are as they
were. -/
theorem undouble_doubled (text : Text) : Lexer.undouble (doubled text) = text := by
  induction text with
  | nil => rfl
  | cons c cs ih =>
      by_cases hc : c = .char '"'
      · rw [doubled, if_pos hc, Lexer.undouble, ih, hc]
      · rw [doubled, if_neg hc, Lexer.undouble.eq_2 _ _ (fun _ h _ => hc h), ih]

/-- Taken off its quotes, a literal is the text it stands for, with each
doubled quote a single one again. -/
theorem unquote_written (literal : Literal) : Lexer.unquote literal.written = literal.text := by
  cases literal with
  | double text =>
      rw [written, Lexer.unquote, List.dropLast_concat, undouble_doubled]
      rfl
  | single text h =>
      show (text ++ [CodePoint.char '\'']).dropLast = text
      exact List.dropLast_concat ..

end Literal

-- ====================================================== reading a literal

namespace Lexer

open Literal (doubled written)

/-- Doubled quotes close no string. The search goes past both of them at
once, and stops at the first quote that stands alone. -/
theorem closingQuote_doubled {rest : Text} (hrest : rest.head? ≠ some (.char '"')) (text : Text)
    (place : Nat) (last : Option Nat) :
    closingQuote place last (doubled text ++ .char '"' :: rest)
      = some (place + (doubled text).length + 1) := by
  induction text generalizing place last with
  | nil =>
      cases rest with
      | nil => rfl
      | cons c rest =>
          have hc : c ≠ .char '"' := fun h => hrest (congrArg some h)
          show closingQuote place last (.char '"' :: c :: rest) = _
          rw [closingQuote.eq_3, if_neg hc]
          rfl
  | cons c cs ih =>
      by_cases hc : c = .char '"'
      · rw [doubled, if_pos hc, List.cons_append, List.cons_append, closingQuote.eq_3, if_pos rfl,
          ih]
        simp only [List.length_cons]
        congr 1
        omega
      · rw [doubled, if_neg hc, List.cons_append, closingQuote_cons hc, ih]
        simp only [List.length_cons]
        congr 1
        omega

/-- A literal in front of a text is all of the string that the text
starts with. -/
theorem stringLength?_written {rest : Text} (hrest : rest.head? ≠ some (.char '"'))
    (literal : Literal) :
    stringLength? (literal.written ++ rest) = some literal.written.length := by
  cases literal with
  | double text =>
      rw [written, List.cons_append, List.append_assoc, stringLength?.eq_1, List.singleton_append,
        closingQuote_doubled hrest]
      simp
  | single text h =>
      have hstop : ∀ c ∈ text, decide (c ≠ CodePoint.char '\'') = true := fun c hc =>
        decide_eq_true fun heq => h (heq ▸ hc)
      rw [written, List.cons_append, List.append_assoc, stringLength?.eq_2, if_pos (by simp),
        List.takeWhile_append_of_pos hstop]
      simp

/-- A literal is one token, and the token is the text it stands for,
unless one more quote follows and makes it longer. -/
theorem piece?_written {rest : Text} (hrest : rest.head? ≠ some (.char '"')) (literal : Literal) :
    piece? (literal.written ++ rest)
      = some (some (.string literal.text), literal.written.length) := by
  have hblank : blankLength? (literal.written ++ rest) = none := by
    cases literal <;> rfl
  rw [piece?]
  simp only [hblank, stringLength?_written hrest, List.take_left', Literal.unquote_written]

theorem piece?_openParen (rest : Text) :
    piece? (.char '(' :: rest) = some (some .openParen, 1) := rfl

theorem piece?_comma (rest : Text) : piece? (.char ',' :: rest) = some (some .comma, 1) := rfl

/-- A name in front of a parenthesis is the name of a function. -/
theorem piece?_concat (rest : Text) :
    piece? (("CONCAT" : Text) ++ .char '(' :: rest) = some (some (.name "CONCAT"), 6) := rfl

/-- Literals with commas between them are their texts with commas
between them. -/
theorem lexemesOf_literals (first : Literal) (others : List Literal) :
    lexemesOf (tokens ([.char ','].intercalate ((first :: others).map written) ++ [.char ')']))
      = some ([.comma].intercalate ((first :: others).map fun l => [.string l.text])
          ++ [.closeParen]) := by
  induction others generalizing first with
  | nil =>
      have hclose : lexemesOf (tokens [.char ')']) = some [.closeParen] := rfl
      rw [List.map_singleton, List.map_singleton, List.intercalate_singleton,
        List.intercalate_singleton,
        lexemesOf_append first.written_ne_nil (piece?_written (by decide) first), hclose]
      rfl
  | cons next others ih =>
      have ih := ih next
      simp only [List.map_cons] at ih ⊢
      rw [List.intercalate_cons_cons, List.intercalate_cons_cons, List.append_assoc,
        List.append_assoc, lexemesOf_append first.written_ne_nil (piece?_written (by simp) first),
        lexemesOf_append (by decide) (piece?_comma _), ih]
      simp

end Lexer

-- ====================================================== concatenation

/-- The formula that joins literals. -/
def concatenation (literals : List Literal) : Text :=
  ("=CONCAT(" : Text) ++ [.char ','].intercalate (literals.map Literal.written) ++ (")" : Text)

example :
    concatenation [.double "say \"A1\"", .single "B1),\"" (by decide), .double ""]
      = Text.ofString "=CONCAT(\"say \"\"A1\"\"\",'B1),\"',\"\")" := by decide

/-- What stands after the equals sign. -/
def concatenationBody (literals : List Literal) : Text :=
  ("CONCAT" : Text)
    ++ .char '(' :: ([.char ','].intercalate (literals.map Literal.written) ++ [.char ')'])

theorem concatenation_eq (literals : List Literal) :
    concatenation literals = .char '=' :: concatenationBody literals := by
  unfold concatenation
  rw [List.append_assoc]
  rfl

/-- A concatenation is a name, a parenthesis, the literals with commas
between them, and a parenthesis. -/
theorem lexemesOf_concatenationBody (literals : List Literal) :
    Lexer.lexemesOf (Lexer.tokens (concatenationBody literals))
      = some (.name "CONCAT" :: .openParen
          :: ([.comma].intercalate (literals.map fun l => [.string l.text])
            ++ [.closeParen])) := by
  unfold concatenationBody
  rw [Lexer.lexemesOf_append (by decide) (Lexer.piece?_concat _), ← List.singleton_append,
    Lexer.lexemesOf_append (by decide) (Lexer.piece?_openParen _)]
  cases literals with
  | nil => rfl
  | cons first others =>
      rw [Lexer.lexemesOf_literals]
      rfl

/-- A trimmed text whose lexemes are derived from the grammar is read as
that expression. -/
theorem Parser.parse_trim_of_derives {expression : Text} {ls : List Lexeme} {e : Expr}
    (hlexemes : Lexer.lexemesOf (Lexer.tokens expression) = some ls)
    (h : Grammar.Derives .comparison ls e) : parse (Text.trim expression) = .ok e := by
  rw [← Lexer.lexemes_trim] at hlexemes
  exact toOption_eq_some.mp (toOption_parse_eq_some.mpr ⟨ls, hlexemes, h⟩)

/-- The arguments of a concatenation are the texts of its literals, in
the order in which they are written. -/
theorem parse_concatenation (literals : List Literal) :
    Parser.parse (Text.trim (concatenationBody literals))
      = .ok (.call "CONCAT" (literals.map fun l => .string l.text)) := by
  refine Parser.parse_trim_of_derives (lexemesOf_concatenationBody literals) ?_
  have hcall := Grammar.Derives.call "CONCAT"
    (literals.map fun l => ([Lexeme.string l.text], Expr.string l.text)) (by
      intro arg harg
      obtain ⟨l, -, rfl⟩ := List.mem_map.mp harg
      exact .operand (.firstTerm (.firstFactor (.unsigned (.string _)))))
  simp only [List.map_map, Function.comp_def] at hcall
  exact .operand (.firstTerm (.firstFactor (.unsigned hcall)))

namespace Eval

/-- Strings are joined in every environment. -/
theorem joined_strings (env : Environment) (texts : List Text) :
    joined env (texts.map .string) = .ok texts.flatten := by
  induction texts with
  | nil => rw [List.map_nil, joined]; rfl
  | cons first others ih =>
      rw [List.map_cons, joined, text, ih]
      rfl

theorem call_concat_strings (env : Environment) (texts : List Text) :
    call env .concat (texts.map .string) = .ok (.text texts.flatten) := by
  cases texts with
  | nil => rw [List.map_nil, call]; rfl
  | cons first others =>
      rw [List.map_cons, call, text, joined_strings]
      rfl

/-- The text of a concatenation is made of those of its literals,
whatever the cells show. -/
theorem text_concatenation (env : Environment) (literals : List Literal) :
    text env (.call "CONCAT" (literals.map fun l => .string l.text))
      = .ok (.text (literals.flatMap Literal.text)) := by
  have hname : Function.ofName? "CONCAT" = some .concat := by decide
  have hstrings := call_concat_strings env (literals.map Literal.text)
  rw [List.map_map] at hstrings
  rw [text, hname, List.flatMap_def]
  exact hstrings

/-- Strings name no cell, and neither does what stands between them: a
name that is called, parentheses and commas. -/
theorem readsOfText_concatenation (literals : List Literal) :
    Formula.readsOfText (.char '=' :: concatenationBody literals) = .ok [] := by
  refine Formula.readsOfText_eq_nil_iff.mpr (Formula.namesNoCell_of_lexemesOf
    (lexemesOf_concatenationBody literals) fun lexeme hlexeme => ?_)
  rcases List.mem_cons.mp hlexeme with rfl | hlexeme
  · exact True.intro
  rcases List.mem_cons.mp hlexeme with rfl | hlexeme
  · exact True.intro
  rcases List.mem_append.mp hlexeme with hlexeme | hlexeme
  · rcases mem_commas.mp hlexeme with ⟨part, hpart, hmem⟩ | ⟨rfl, -⟩
    · obtain ⟨literal, -, rfl⟩ := List.mem_map.mp hpart
      obtain rfl := List.mem_singleton.mp hmem
      exact True.intro
    · exact True.intro
  · obtain rfl := List.mem_singleton.mp hlexeme
    exact True.intro

/-- Whatever texts are written as literals, in either kind of quotes,
their concatenation shows these texts one after another in every
environment, and reads no cell. -/
theorem evaluateText_concatenation (env : Environment) (literals : List Literal) :
    evaluateText env (concatenation literals) = .text (literals.flatMap Literal.text) ∧
      Formula.readsOfText (concatenation literals) = .ok [] := by
  rw [concatenation_eq]
  refine ⟨?_, readsOfText_concatenation literals⟩
  simp only [evaluateText, expressionText, parse_concatenation, display, text_concatenation,
    orCode]

end Eval

end Spreadsheet

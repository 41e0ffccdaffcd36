/-
The letters of a formula, in either case.

# Folding

`foldCase` puts the letters of the basic alphabet in upper case and leaves
everything else as it is, so two texts that are folded to one differ in the
case of such letters only. Letters of other alphabets are not folded: no
token is made of them, except that a string may hold them.

# Pieces

No class of characters that the lexer asks for tells the two cases of a
letter apart. So a run is as long in the folded text, and all lengths of
pieces are read off runs: of blanks, of strings, of ranges, of numbers and
of names. Comparisons and symbols hold no letter at all. What a piece stands
for is the same too (`piece?_congr`), but that a string keeps its letters
and a number the mark of its power of ten; names, references and ranges are
put in upper case in any case.
-/
import Spreadsheet.Proofs.Formula.Spelling

namespace Spreadsheet

-- ====================================================== letters in upper case

/-- A letter of the basic alphabet in upper case; any other code point
as it is. -/
def CodePoint.foldCase : CodePoint → CodePoint
  | .char c => .char c.toUpper
  | .surrogate n => .surrogate n

/-- A lexeme with the mark of a power of ten in upper case. Names,
references and ranges are in upper case already, and a string keeps its
letters. -/
def Lexeme.folded : Lexeme → Lexeme
  | .number text => .number (text.map CodePoint.foldCase)
  | lexeme => lexeme

namespace Lexer

open CodePoint (foldCase)
open Text (isBlank isDigit)

/-- What is no small letter of the basic alphabet is its own upper
case. -/
theorem toUpper_eq_self {c : Char} (h : ¬(97 ≤ c.toNat ∧ c.toNat ≤ 122)) : c.toUpper = c := by
  unfold Char.toUpper
  rw [dif_neg]
  exact h

/-- Folding leaves a code point as it is, or makes a letter of a
letter. -/
theorem foldCase_cases (c : CodePoint) :
    foldCase c = c ∨ isLetter c = true ∧ isLetter (foldCase c) = true := by
  cases c with
  | surrogate n => exact .inl rfl
  | char c =>
      by_cases hlower : 97 ≤ c.toNat ∧ c.toNat ≤ 122
      · have hupper := Text.toNat_toUpper (show c.toNat < 128 by omega)
        rw [if_pos hlower] at hupper
        have hletter : ∀ d : Char, (65 ≤ d.toNat ∧ d.toNat ≤ 90) ∨ 97 ≤ d.toNat ∧ d.toNat ≤ 122 →
            isLetter (.char d) = true := by
          intro d hd
          simp only [isLetter, CodePoint.within, Bool.or_eq_true, Bool.and_eq_true,
            decide_eq_true_eq]
          exact hd
        exact .inr ⟨hletter c (.inr hlower), hletter c.toUpper (by omega)⟩
      · exact .inl (congrArg CodePoint.char (toUpper_eq_self hlower))

/-- What is the same for all letters is the same after folding. -/
theorem foldCase_congr {β : Type} {f : CodePoint → β} {b : β}
    (h : ∀ c, isLetter c = true → f c = b) (c : CodePoint) : f (foldCase c) = f c := by
  rcases foldCase_cases c with hsame | ⟨hc, hc'⟩
  · rw [hsame]
  · rw [h _ hc, h _ hc']

theorem isBlank_foldCase (c : CodePoint) : isBlank (foldCase c) = isBlank c :=
  foldCase_congr (fun _ hc => isBlank_of_isAlphanumeric (isAlphanumeric_of_isLetter hc)) c

theorem isAlphanumeric_foldCase (c : CodePoint) : isAlphanumeric (foldCase c) = isAlphanumeric c :=
  foldCase_congr (fun _ hc => isAlphanumeric_of_isLetter hc) c

theorem isDigit_foldCase (c : CodePoint) : isDigit (foldCase c) = isDigit c :=
  foldCase_congr (fun _ hc => isDigit_of_isLetter hc) c

theorem startsName_foldCase (c : CodePoint) : startsName (foldCase c) = startsName c :=
  foldCase_congr (fun _ hc => by rw [startsName, hc, Bool.true_or]) c

theorem inName_foldCase (c : CodePoint) : inName (foldCase c) = inName c :=
  foldCase_congr (fun _ hc => by
    rw [inName, isAlphanumeric_of_isLetter hc, Bool.true_or, Bool.true_or]) c

/-- A code point that is no letter is folded from itself only. -/
theorem foldCase_eq_iff {c d : CodePoint} (hd : isLetter d = false) : foldCase c = d ↔ c = d := by
  have hcongr := foldCase_congr (f := fun c => decide (c = d)) (b := false) (fun c hc =>
    decide_eq_false fun heq => by rw [heq, hd] at hc; cases hc) c
  simpa using hcongr

-- ====================================================== texts

variable {cs ds : Text}

/-- A run of characters is folded as it stands, if folding keeps what
belongs to it. -/
theorem takeWhile_map_foldCase {p : CodePoint → Bool} (hp : ∀ c, p (foldCase c) = p c)
    (cs : Text) : (cs.map foldCase).takeWhile p = (cs.takeWhile p).map foldCase := by
  rw [List.takeWhile_map, show p ∘ foldCase = p from funext hp]

theorem dropWhile_map_foldCase {p : CodePoint → Bool} (hp : ∀ c, p (foldCase c) = p c)
    (cs : Text) : (cs.map foldCase).dropWhile p = (cs.dropWhile p).map foldCase := by
  rw [List.dropWhile_map, show p ∘ foldCase = p from funext hp]

/-- Folded or not, a text has one upper case. Only letters of the basic
alphabet are folded, and their case has no exceptions. -/
theorem upper_map_foldCase (cs : Text) : Text.upper (cs.map foldCase) = Text.upper cs := by
  have hpoint : ∀ c, Text.onPoint Text.upperChar (foldCase c) = Text.onPoint Text.upperChar c := by
    intro c
    cases c with
    | surrogate n => rfl
    | char c =>
        by_cases hlower : 97 ≤ c.toNat ∧ c.toNat ≤ 122
        · have hbasic : c.toNat < 128 := by omega
          have hupper := Text.toNat_toUpper hbasic
          rw [if_pos hlower] at hupper
          have hself : c.toUpper.toUpper = c.toUpper := toUpper_eq_self (by omega)
          refine congrArg Text.ofChars ?_
          unfold Text.upperChar
          rw [if_pos hbasic, if_pos (by omega), hself]
        · rw [foldCase, toUpper_eq_self hlower]
  rw [Text.upper, List.flatMap_map]
  exact List.flatMap_congr fun c _ => hpoint c

-- ====================================================== the lengths of pieces

theorem blankLength?_map_foldCase (cs : Text) :
    blankLength? (cs.map foldCase) = blankLength? cs := by
  unfold blankLength?
  rw [takeWhile_map_foldCase isBlank_foldCase]
  cases cs.takeWhile isBlank with
  | nil => rfl
  | cons c run => simp

/-- A string is closed at the same place: a quote is no letter, and no
letter is folded to one. -/
theorem closingQuote_map_foldCase (place : Nat) (last : Option Nat) (cs : Text) :
    closingQuote place last (cs.map foldCase) = closingQuote place last cs := by
  have hquote : ∀ {c : CodePoint}, foldCase c = .char '"' ↔ c = .char '"' :=
    foldCase_eq_iff (by decide)
  induction place, last, cs using closingQuote.induct with
  | case1 place last => rfl
  | case2 place last => rfl
  | case3 place last cs ih =>
      rw [closingQuote.eq_3, if_pos rfl, ← ih]
      exact (closingQuote.eq_3 ..).trans (if_pos rfl)
  | case4 place last c cs hc =>
      rw [closingQuote.eq_3, if_neg hc]
      exact (closingQuote.eq_3 ..).trans (if_neg (mt hquote.mp hc))
  | case5 place last c cs hnil hcons ih =>
      have hc : c ≠ .char '"' := by
        rintro rfl
        cases cs with
        | nil => exact hnil rfl rfl
        | cons d cs => exact hcons d cs rfl rfl
      rw [List.map_cons, closingQuote_cons hc, closingQuote_cons (mt hquote.mp hc), ih]

theorem stringLength?_map_foldCase (cs : Text) :
    stringLength? (cs.map foldCase) = stringLength? cs := by
  have hsingle : ∀ {c : CodePoint}, foldCase c = .char '\'' ↔ c = .char '\'' :=
    foldCase_eq_iff (by decide)
  have hdouble : ∀ {c : CodePoint}, foldCase c = .char '"' ↔ c = .char '"' :=
    foldCase_eq_iff (by decide)
  cases cs with
  | nil => rfl
  | cons c cs =>
      by_cases hc : c = .char '"'
      · subst hc
        exact congrArg (Option.map (· + 1)) (closingQuote_map_foldCase 0 none cs)
      · by_cases hc' : c = .char '\''
        · subst hc'
          have hmem : (.char '\'' : CodePoint) ∈ cs.map foldCase ↔ .char '\'' ∈ cs := by
            simp only [List.mem_map, hsingle, exists_eq_right]
          have hrun : (cs.map foldCase).takeWhile (· ≠ .char '\'')
              = (cs.takeWhile (· ≠ .char '\'')).map foldCase :=
            takeWhile_map_foldCase (fun c => by simp [hsingle]) cs
          show stringLength? (.char '\'' :: cs.map foldCase) = _
          rw [stringLength?.eq_2, stringLength?.eq_2, hrun, List.length_map]
          simp only [List.contains_iff_mem, hmem]
        · rw [List.map_cons, stringLength?_cons (mt hdouble.mp hc) (mt hsingle.mp hc'),
            stringLength?_cons hc hc']

theorem rangeLength?_map_foldCase (cs : Text) :
    rangeLength? (cs.map foldCase) = rangeLength? cs := by
  have hcolon : ∀ {c : CodePoint}, foldCase c = .char ':' ↔ c = .char ':' :=
    foldCase_eq_iff (by decide)
  have hends : ∀ {c : CodePoint}, (decide (foldCase c = .char '_') || decide (foldCase c = .char '.')
      || decide (foldCase c = .char '('))
        = (decide (c = .char '_') || decide (c = .char '.') || decide (c = .char '(')) := by
    intro c
    simp only [foldCase_eq_iff (d := .char '_') (by decide),
      foldCase_eq_iff (d := .char '.') (by decide), foldCase_eq_iff (d := .char '(') (by decide)]
  unfold rangeLength?
  simp only [takeWhile_map_foldCase isAlphanumeric_foldCase,
    dropWhile_map_foldCase isAlphanumeric_foldCase, takeWhile_map_foldCase isBlank_foldCase,
    dropWhile_map_foldCase isBlank_foldCase, List.length_map]
  cases hrest : (cs.dropWhile isAlphanumeric).dropWhile isBlank with
  | nil => rfl
  | cons c rest =>
      by_cases hc : c = .char ':'
      · subst hc
        rw [List.map_cons, hcolon.mpr rfl]
        simp only [takeWhile_map_foldCase isAlphanumeric_foldCase,
          dropWhile_map_foldCase isAlphanumeric_foldCase, takeWhile_map_foldCase isBlank_foldCase,
          dropWhile_map_foldCase isBlank_foldCase, List.length_map, List.isEmpty_map]
        cases (rest.dropWhile isBlank).dropWhile isAlphanumeric with
        | nil => rfl
        | cons d rest => simp only [List.map_cons, hends]
      · rw [List.map_cons]
        split
        · next heq => exact absurd (hcolon.mp (List.cons.inj heq).1) hc
        · split
          · next heq => exact absurd (List.cons.inj heq).1 hc
          · rfl

/-- A power of ten in a folded text. -/
def foldPower (p : Decimal.Power) : Decimal.Power :=
  ⟨foldCase p.mark, p.sign, p.digits.map foldCase⟩

theorem scanSign_map_foldCase (cs : Text) :
    Decimal.Power.scanSign (cs.map foldCase)
      = ((Decimal.Power.scanSign cs).1, (Decimal.Power.scanSign cs).2.map foldCase) := by
  have hplus : ∀ {c : CodePoint}, foldCase c = .char '+' ↔ c = .char '+' :=
    foldCase_eq_iff (by decide)
  have hminus : ∀ {c : CodePoint}, foldCase c = .char '-' ↔ c = .char '-' :=
    foldCase_eq_iff (by decide)
  cases cs with
  | nil => rfl
  | cons c cs =>
      by_cases hc : c = .char '+'
      · subst hc
        rfl
      · by_cases hc' : c = .char '-'
        · subst hc'
          rfl
        · have hnone : ∀ {c : CodePoint} {cs : Text}, c ≠ .char '+' → c ≠ .char '-' →
              Decimal.Power.scanSign (c :: cs) = (none, c :: cs) := fun hc hc' =>
            Decimal.Power.scanSign.eq_3 _ (fun _ h => hc (List.cons.inj h).1)
              (fun _ h => hc' (List.cons.inj h).1)
          rw [hnone hc hc', List.map_cons, hnone (mt hplus.mp hc) (mt hminus.mp hc')]

theorem scanPower_map_foldCase (cs : Text) :
    Decimal.Power.scan (cs.map foldCase)
      = (Decimal.Power.scan cs).map fun found => (foldPower found.1, found.2.map foldCase) := by
  have hmark : ∀ c : CodePoint, (decide (foldCase c = .char 'e') || decide (foldCase c = .char 'E'))
      = (decide (c = .char 'e') || decide (c = .char 'E')) := by
    intro c
    rcases c with c | n
    · by_cases hlower : 97 ≤ c.toNat ∧ c.toNat ≤ 122
      · have hupper := Text.toNat_toUpper (show c.toNat < 128 by omega)
        rw [if_pos hlower] at hupper
        have hsmall : 'e'.toNat = 101 := rfl
        have hlarge : 'E'.toNat = 69 := rfl
        rw [Bool.eq_iff_iff]
        simp only [foldCase, CodePoint.char.injEq, ← Char.toNat_inj, Bool.or_eq_true,
          decide_eq_true_eq, hsmall, hlarge, hupper]
        omega
      · rw [foldCase, toUpper_eq_self hlower]
    · rfl
  cases cs with
  | nil => rfl
  | cons c cs =>
      simp only [List.map_cons, Decimal.Power.scan, hmark, scanSign_map_foldCase,
        takeWhile_map_foldCase isDigit_foldCase, dropWhile_map_foldCase isDigit_foldCase]
      split
      · cases (Decimal.Power.scanSign cs).2.takeWhile isDigit with
        | nil => rfl
        | cons d digits => rfl
      · rfl

/-- A numeral in a folded text. -/
def foldNumeral (n : Decimal.Numeral) : Decimal.Numeral :=
  ⟨n.whole.map foldCase, n.point, n.fraction.map foldCase, n.power.map foldPower⟩

theorem scanMantissa_map_foldCase (cs : Text) :
    Decimal.Numeral.scanMantissa (cs.map foldCase)
      = (Decimal.Numeral.scanMantissa cs).map fun found =>
          (found.1.map foldCase, found.2.1, found.2.2.1.map foldCase,
            found.2.2.2.map foldCase) := by
  have hpoint : ∀ {c : CodePoint}, foldCase c = .char '.' ↔ c = .char '.' :=
    foldCase_eq_iff (by decide)
  unfold Decimal.Numeral.scanMantissa
  simp only [takeWhile_map_foldCase isDigit_foldCase, dropWhile_map_foldCase isDigit_foldCase,
    List.isEmpty_map]
  generalize cs.takeWhile isDigit = whole
  cases cs.dropWhile isDigit with
  | nil => cases whole <;> rfl
  | cons c rest =>
      by_cases hc : c = .char '.'
      · subst hc
        rw [List.map_cons, hpoint.mpr rfl]
        simp only [takeWhile_map_foldCase isDigit_foldCase,
          dropWhile_map_foldCase isDigit_foldCase, List.isEmpty_map]
        split <;> rfl
      · have hc' : foldCase c ≠ .char '.' := mt hpoint.mp hc
        cases whole <;> simp [hc, hc']

/-- A number is as long. The one letter it may hold marks the exponent
in either case. -/
theorem numberLength?_map_foldCase (cs : Text) :
    numberLength? (cs.map foldCase) = numberLength? cs := by
  have hscan : Decimal.Numeral.scan (cs.map foldCase)
      = (Decimal.Numeral.scan cs).map fun found => (foldNumeral found.1, found.2.map foldCase) := by
    unfold Decimal.Numeral.scan
    rw [scanMantissa_map_foldCase]
    cases Decimal.Numeral.scanMantissa cs with
    | none => rfl
    | some found =>
        simp only [Option.map_some, scanPower_map_foldCase]
        cases Decimal.Power.scan found.2.2.2 with
        | none => rfl
        | some power => rfl
  have hlength : ∀ n : Decimal.Numeral, (foldNumeral n).text.length = n.text.length := by
    rintro ⟨whole, point, fraction, _ | p⟩
    · cases point <;> simp [foldNumeral, Decimal.Numeral.text]
    · cases point <;> simp [foldNumeral, foldPower, Decimal.Numeral.text, Decimal.Power.text]
  unfold numberLength?
  rw [hscan, Option.map_map]
  simp only [Function.comp_def, hlength]

theorem nameLength?_map_foldCase (cs : Text) : nameLength? (cs.map foldCase) = nameLength? cs := by
  cases cs with
  | nil => rfl
  | cons c cs =>
      unfold nameLength?
      simp only [List.map_cons, startsName_foldCase, takeWhile_map_foldCase inName_foldCase,
        List.length_map]

theorem comparator?_of_isAlphanumeric {c : CodePoint} (hc : isAlphanumeric c = true) (cs : Text) :
    comparator? (c :: cs) = none := by
  unfold comparator?
  split <;> first | rfl | (next heq => cases heq; cases hc)

/-- Comparisons hold no letter, so folding neither makes one nor undoes
it. -/
theorem comparator?_map_foldCase (cs : Text) : comparator? (cs.map foldCase) = comparator? cs := by
  cases cs with
  | nil => rfl
  | cons c cs =>
      rw [List.map_cons]
      rcases foldCase_cases c with hc | ⟨hc, hc'⟩
      · rw [hc]
        cases cs with
        | nil => rfl
        | cons d cs =>
            rw [List.map_cons]
            rcases foldCase_cases d with hd | ⟨hd, hd'⟩
            · rw [hd]
              exact comparator?_cons_cons c d _ _
            · have hne : ∀ {d e : CodePoint}, isLetter d = true → isLetter e = false → d ≠ e := by
                rintro d _ hd he rfl
                rw [hd] at he
                cases he
              rw [comparator?_cons_of_ne (hne hd' (by decide)) (hne hd' (by decide)),
                comparator?_cons_of_ne (hne hd (by decide)) (hne hd (by decide))]
      · rw [comparator?_of_isAlphanumeric (isAlphanumeric_of_isLetter hc),
          comparator?_of_isAlphanumeric (isAlphanumeric_of_isLetter hc')]

theorem symbol?_of_isAlphanumeric {c : CodePoint} (hc : isAlphanumeric c = true) (cs : Text) :
    symbol? (c :: cs) = none := by
  unfold symbol?
  split <;> first | rfl | (next heq => cases heq; cases hc)

theorem symbol?_map_foldCase (cs : Text) : symbol? (cs.map foldCase) = symbol? cs := by
  cases cs with
  | nil => rfl
  | cons c cs =>
      rw [List.map_cons]
      rcases foldCase_cases c with hc | ⟨hc, hc'⟩
      · rw [hc]
        exact symbol?_cons c _ _
      · rw [symbol?_of_isAlphanumeric (isAlphanumeric_of_isLetter hc),
          symbol?_of_isAlphanumeric (isAlphanumeric_of_isLetter hc')]

-- ====================================================== pieces

/-- What is the same for a text and the folded text is the same for
texts that fold to one. -/
theorem eq_of_map_foldCase {β : Type} {f : Text → β} (hf : ∀ cs, f (cs.map foldCase) = f cs)
    (h : ds.map foldCase = cs.map foldCase) : f ds = f cs := by
  rw [← hf ds, h, hf cs]

/-- A name is put in upper case, so it is the same name; and whether it
is called is a matter of a parenthesis. -/
theorem nameLexeme_map_foldCase (name rest : Text) :
    nameLexeme (name.map foldCase) (rest.map foldCase) = nameLexeme name rest := by
  have hparen : ∀ c : CodePoint, foldCase c = .char '(' ↔ c = .char '(' := fun c =>
    foldCase_eq_iff (by decide)
  unfold nameLexeme Text.dropBlanks
  rw [upper_map_foldCase, dropWhile_map_foldCase isBlank_foldCase, List.head?_map]
  simp only [Option.map_eq_some_iff, hparen, exists_eq_right]

/-- Texts that fold to one start with the same piece, up to the mark of
a power of ten, if a string in front of the one is the same in the
other. The string has to be given, for folding would change it. -/
theorem piece?_congr (h : ds.map foldCase = cs.map foldCase)
    (hstring : ∀ value n, piece? cs = some (some (.string value), n) → ds.take n = cs.take n) :
    (piece? ds).map (fun found => (found.1.map Lexeme.folded, found.2))
      = (piece? cs).map fun found => (found.1.map Lexeme.folded, found.2) := by
  have htake : ∀ n, (ds.take n).map foldCase = (cs.take n).map foldCase := fun n => by
    rw [List.map_take, h, List.map_take]
  have hdrop : ∀ n, (ds.drop n).map foldCase = (cs.drop n).map foldCase := fun n => by
    rw [List.map_drop, h, List.map_drop]
  unfold piece? at hstring ⊢
  rw [eq_of_map_foldCase blankLength?_map_foldCase h]
  cases hn : blankLength? cs with
  | some n => rfl
  | none =>
    rw [hn] at hstring
    rw [eq_of_map_foldCase stringLength?_map_foldCase h]
    cases hn : stringLength? cs with
    | some n =>
      rw [hn] at hstring
      simp only [hstring _ n rfl]
    | none =>
      rw [eq_of_map_foldCase rangeLength?_map_foldCase h]
      -- upper case undoes the folding, and blanks are struck before or after it
      cases rangeLength? cs with
      | some n =>
        have hsolid : ∀ cs : Text, Text.upper ((cs.map foldCase).filter (!isBlank ·))
            = Text.upper (cs.filter (!isBlank ·)) := fun cs => by
          rw [List.filter_map, upper_map_foldCase]
          simp only [Function.comp_def, isBlank_foldCase]
        simp only [eq_of_map_foldCase (f := fun cs => Text.upper (cs.filter (!isBlank ·))) hsolid
          (htake n)]
      | none =>
        rw [eq_of_map_foldCase numberLength?_map_foldCase h]
        cases numberLength? cs with
        | some n => exact congrArg (fun text => some (some (Lexeme.number text), n)) (htake n)
        | none =>
          rw [eq_of_map_foldCase nameLength?_map_foldCase h]
          cases nameLength? cs with
          | some n =>
            simp only
            rw [← nameLexeme_map_foldCase, htake, hdrop, nameLexeme_map_foldCase]
          | none =>
            rw [eq_of_map_foldCase comparator?_map_foldCase h,
              eq_of_map_foldCase symbol?_map_foldCase h]

end Lexer

end Spreadsheet

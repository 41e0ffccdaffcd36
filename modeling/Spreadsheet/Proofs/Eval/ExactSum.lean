/-
The sum over a range of integers.

# What counts as an integer

A cell counts as an integer if it shows one in digits; and a text without a
number in front counts as zero (`CountsAs`). The number that is read from
such a cell is the integer exactly, for an integer up to 2^53 is a number
(`exists_ofContent?`).

# Every cell once

A range is named by two opposite corners, and it lists its cells row by row
(`places`). A sum over that list takes every row and every column in between
once, whichever corners were named and however they were spelled
(`sum_places`). The order in which the numbers are added, and their
grouping, change with the size of the range; totals of integers do not
depend on either as long as no partial sum has to be rounded.

# What this closes

As long as the absolute values come to no more than 2^53, the sum over a
range of such cells shows the exact sum in its digits
(`evaluateText_sum_exact`). The bound is needed: past it two groupings of
the same integers may differ, and so may the sum and the exact one.
-/
import Spreadsheet.Proofs.Binary64.Grouping
import Spreadsheet.Proofs.Eval.OneCell
import Spreadsheet.Proofs.Number.Prefix
import Spreadsheet.Proofs.Reference.Expansion

namespace Spreadsheet

open Binary64 (IsInteger)

-- ====================================================== integers in cells

namespace Number

open Decimal (Digits Numeral valueOf)
open Text (isBlank)

/-- What is shown counts as the integer: its digits, with a sign or
without and perhaps between blanks; the integer itself; or for zero a
text that no number stands in front of. -/
inductive CountsAs : Content → Int → Prop
  | digits {before sign digits after : Text} {negative : Bool}
      (hbefore : ∀ c ∈ before, isBlank c = true) (hsign : IsSign sign negative)
      (hdigits : Digits digits) (hne : digits ≠ []) (hafter : ∀ c ∈ after, isBlank c = true) :
      CountsAs (.text (before ++ (sign ++ digits) ++ after))
        (if negative then -(valueOf digits : Int) else valueOf digits)
  | integer (n : Int) : CountsAs (.other (.integer n)) n
  | noNumber {text : Text} (h : ∀ p x, Front p x → ¬p <+: text) : CountsAs (.text text) 0

variable {content : Content} {x : Binary64} {n : Int}

/-- An integer up to 2^53 is shown in its digits, without an exponent
and without a point. -/
theorem display_of_isInteger (h : IsInteger x n) (hn : n.natAbs ≤ 2 ^ 53) :
    display x = Text.ofChars (Decimal.integer n) := by
  have hunit := Binary64.unitsPerOne_pos
  have hunits := h.units
  have hmagnitude := h.magnitude_eq
  cases x with
  | nan => exact absurd rfl h.finite
  | infinite => exact absurd rfl h.finite
  | finite negative significand exponent canonical =>
      unfold display displayChars Binary64.isIntegral
      dsimp only
      -- or the number of units in one would be written out
      generalize Binary64.unitsPerOne = unit at hunit hmagnitude hunits ⊢
      rw [if_pos, hunits, Int.mul_tdiv_cancel]
      · exact Int.natCast_ne_zero.mpr (Nat.ne_of_gt hunit)
      · rw [hmagnitude]
        refine ⟨beq_iff_eq.mpr (Nat.mul_mod_left _ _), Nat.mul_lt_mul_of_pos_right ?_ hunit⟩
        exact Nat.lt_of_le_of_lt hn (by decide)

/-- What counts as an integer is read as that integer. A text without a
number in front is read as none, which the sum takes for zero. -/
theorem exists_ofContent? (h : CountsAs content n) (hn : n.natAbs ≤ 2 ^ 53) :
    ∃ found, ofContent? content = .ok found ∧ IsInteger (found.getD (.zero false)) n := by
  cases h with
  | @digits before sign digits after negative hbefore hsign hdigits hne hafter =>
      have hproper : Numeral.Proper ⟨digits, false, [], none⟩ :=
        Numeral.proper_whole hdigits hne nofun
      have hread := (Written.intro hbefore hsign hproper).inFront?_append hafter
      have htext : Numeral.text ⟨digits, false, [], none⟩ = digits := by
        simp [Numeral.text]
      have hvalue : Numeral.toBinary64 negative ⟨digits, false, [], none⟩
          = Binary64.ofDecimal negative (valueOf digits) 0 := by
        simp [Numeral.toBinary64]
      rw [htext, hvalue] at hread
      refine ⟨_, rfl, ?_⟩
      rw [leading?_eq, hread]
      apply Binary64.isInteger_ofDecimal
      split at hn
      · rwa [Int.natAbs_neg, Int.natAbs_natCast] at hn
      · rwa [Int.natAbs_natCast] at hn
  | integer n =>
      have hinteger : IsInteger (Binary64.ofInt n) n := Binary64.isInteger_ofUnits false hn
      refine ⟨some (Binary64.ofInt n), ?_, hinteger⟩
      have hfinite : (Binary64.ofInt n).isInfinite = false := by
        cases hinfinite : Binary64.ofInt n with
        | infinite =>
            rw [hinfinite] at hinteger
            exact absurd rfl hinteger.finite
        | nan => rfl
        | finite => rfl
      rw [ofContent?, ofJson?, hfinite, if_neg Bool.false_ne_true]
  | noNumber hnone =>
      refine ⟨_, rfl, ?_⟩
      rw [leading?_eq_none_iff.mpr hnone]
      exact ⟨Option.some_ne_none _, by rw [Int.zero_mul]; rfl⟩

end Number

-- ====================================================== rectangles

namespace Range

open Finset (uIcc)

/-- The places of the cells of a range, row by row. -/
def places (r : Range) : List Reference :=
  (integers r.top r.bottom).flatMap fun row =>
    (integers r.left r.right).map fun col => ⟨col, row⟩

/-- The cells of a range are the keys of its places. -/
theorem cells_eq_map (r : Range) : r.cells = r.places.map Reference.key := by
  unfold cells places
  simp only [List.map_flatMap, List.map_map]
  rfl

/-- The rows, or the columns, from one to another are those in between,
whichever comes first. -/
theorem mem_integers_min_max {m n i : Int} : i ∈ integers (min m n) (max m n) ↔ i ∈ uIcc m n := by
  rw [mem_integers, Finset.mem_uIcc]

/-- A place of a range lies between the corners in both directions,
whichever corner was named first. -/
theorem mem_places {a b place : Reference} :
    place ∈ (spanning a b).places
      ↔ place.row ∈ uIcc a.row b.row ∧ place.col ∈ uIcc a.col b.col := by
  unfold places
  rw [List.mem_flatMap, ← mem_integers_min_max, ← mem_integers_min_max]
  constructor
  · rintro ⟨row, hrow, hmem⟩
    obtain ⟨col, hcol, rfl⟩ := List.mem_map.mp hmem
    exact ⟨hrow, hcol⟩
  · intro h
    exact ⟨place.row, h.1, List.mem_map.mpr ⟨place.col, h.2, rfl⟩⟩

/-- A sum over the rows from one to another takes each row in between
once. -/
theorem sum_integers {M : Type} [AddCommMonoid M] (f : Int → M) (m n : Int) :
    ((integers (min m n) (max m n)).map f).sum = ∑ i ∈ uIcc m n, f i := by
  have hset : (integers (min m n) (max m n)).toFinset = uIcc m n := by
    ext i
    rw [List.mem_toFinset, mem_integers_min_max]
  rw [← hset]
  exact (List.sum_toFinset f (pairwise_integers.imp Int.ne_of_lt)).symm

/-- A sum over the places of a range takes every row and every column in
between once. -/
theorem sum_places {M : Type} [AddCommMonoid M] (f : Reference → M) (a b : Reference) :
    ((spanning a b).places.map f).sum
      = ∑ row ∈ uIcc a.row b.row, ∑ col ∈ uIcc a.col b.col, f ⟨col, row⟩ := by
  unfold places
  rw [← sum_integers, List.map_flatMap, List.flatMap_def, List.sum_flatten, List.map_map]
  simp only [← sum_integers, List.map_map]
  rfl

end Range

-- ====================================================== sums over ranges

namespace Eval

open Finset (uIcc)
open Lexer (Spells)
open Number (CountsAs)
open Text (isBlank)

variable {a b a' b' : Reference} {formula : Text} {store : Store} {settings : Settings}

/-- The formula is the sum over a range that names its corners by two
places. -/
def SumsOver (formula : Text) (a b : Reference) : Prop :=
  ∃ expression text, formula = .char '=' :: expression ∧
    Parser.parse (Text.trim expression) = .ok (.call (Aggregate.name .sum) [.range text]) ∧
    Range.Corners text a b

/-- The key that a name spells may stand at a corner of a range: it
holds neither a colon nor blanks that would be trimmed away. -/
theorem corner_of_spells {name key : Text} (h : Spells name key)
    (hplace : Reference.parse? key = .ok (some a)) :
    key ≠ [] ∧ .char ':' ∉ key ∧ Reference.parse? (Text.trim key) = .ok (some a) := by
  have hblank : ∀ c ∈ key, isBlank c = false :=
    fun c hc => Lexer.isBlank_of_isAlphanumeric (h.alphanumeric_key c hc)
  refine ⟨?_, ?_, by rwa [Text.trim_of_forall hblank]⟩
  · intro hnil
    rw [hnil] at hplace
    cases hplace
  · intro hmem
    exact absurd (h.alphanumeric_key _ hmem) (by decide)

/-- Two names around a colon, each of which spells a place, with blanks
or without. -/
theorem sumsOver_appliedTo {name name' key key' before after before' after' : Text}
    (h : Spells name key) (h' : Spells name' key') (hplace : Reference.parse? key = .ok (some a))
    (hplace' : Reference.parse? key' = .ok (some b)) (hbefore : ∀ c ∈ before, isBlank c = true)
    (hafter : ∀ c ∈ after, isBlank c = true) (hbefore' : ∀ c ∈ before', isBlank c = true)
    (hafter' : ∀ c ∈ after', isBlank c = true) :
    SumsOver (Aggregate.appliedTo .sum
      (before ++ (name ++ after) ++ .char ':' :: (before' ++ (name' ++ after')))) a b := by
  obtain ⟨hne, hcolon, hread⟩ := corner_of_spells h hplace
  obtain ⟨hne', hcolon', hread'⟩ := corner_of_spells h' hplace'
  exact ⟨_, key ++ .char ':' :: key', rfl,
    parse_appliedTo (.range _) (Lexer.lexemesOf_pair h h' hbefore hafter hbefore' hafter'),
    key, key', ⟨rfl, hne, hne', hcolon, hcolon'⟩, hread, hread'⟩

/-- What the cells at some places count as, one after the other. All of
them are read without a fault, so the mapping of the list has an
outcome. -/
theorem exists_numbers {places : List Reference} {amount : Reference → Int}
    (hshown : ∀ place ∈ places, CountsAs (store.shown place.key) (amount place))
    (hsize : ∀ place ∈ places, (amount place).natAbs ≤ 2 ^ 53) :
    ∃ number : Reference → Binary64,
      (places.map Reference.key).mapM (Environment.ofStore store settings).numberOf
        = .ok (places.map number) ∧
      ∀ place ∈ places, IsInteger (number place) (amount place) := by
  have hnumber : ∀ place ∈ places, ∃ x,
      (Environment.ofStore store settings).numberOf place.key = .ok x ∧
        IsInteger x (amount place) := by
    intro place hplace
    obtain ⟨found, hread, hinteger⟩ :=
      Number.exists_ofContent? (hshown place hplace) (hsize place hplace)
    refine ⟨_, ?_, hinteger⟩
    show (do return (← Number.ofContent? (store.shown place.key)).getD (.zero false)) = _
    rw [hread]
    rfl
  choose! number hread hinteger using hnumber
  refine ⟨number, ?_, hinteger⟩
  rw [List.mapM_map]
  exact mapM_eq_map hread

/-- In each row and each column between two places there is a cell that
counts as an integer, and the absolute values of the integers come to no
more than 2^53. Then a formula that is the sum over the range, named by
whichever opposite corners of it, shows the sum of them all. -/
theorem evaluateText_sum_exact {amount : Reference → Int}
    (hshown : ∀ row ∈ uIcc a.row b.row, ∀ col ∈ uIcc a.col b.col,
      CountsAs (store.shown (Reference.key ⟨col, row⟩)) (amount ⟨col, row⟩))
    (hbound : ∑ row ∈ uIcc a.row b.row, ∑ col ∈ uIcc a.col b.col,
      (amount ⟨col, row⟩).natAbs ≤ 2 ^ 53)
    (hcorners : Range.Opposite a b a' b') (hformula : SumsOver formula a' b') :
    evaluateText (.ofStore store settings) formula
      = .text (Text.ofChars (Decimal.integer
          (∑ row ∈ uIcc a.row b.row, ∑ col ∈ uIcc a.col b.col, amount ⟨col, row⟩))) := by
  obtain ⟨expression, text, rfl, hparse, hnamed⟩ := hformula
  have hkeys : aggregateKeys .sum [.range text]
      = .ok ((Range.spanning a b).places.map Reference.key) := by
    show Range.expand text = _
    rw [Range.expand, hnamed.parse?, Range.spanning_of_opposite hcorners, ← Range.cells_eq_map]
    rfl
  rw [← Range.sum_places fun place => (amount place).natAbs] at hbound
  have hsize : ∀ place ∈ (Range.spanning a b).places, (amount place).natAbs ≤ 2 ^ 53 := by
    intro place hplace
    exact (List.le_sum_of_mem (List.mem_map_of_mem hplace)).trans hbound
  have hplaces : ∀ place ∈ (Range.spanning a b).places,
      CountsAs (store.shown place.key) (amount place) := by
    intro place hplace
    obtain ⟨hrow, hcol⟩ := Range.mem_places.mp hplace
    exact hshown _ hrow _ hcol
  obtain ⟨number, hnumbers, hinteger⟩ := exists_numbers hplaces hsize
  obtain ⟨hsum, hsmall⟩ := Binary64.isInteger_sum hinteger hbound
  rw [evaluateText_aggregate _ hparse, aggregate, hkeys, ok_bind, ← Range.sum_places amount]
  dsimp only
  rw [hnumbers, ok_bind]
  exact congrArg Content.text (Number.display_of_isInteger hsum hsmall)

/-- Two integers and a note in two rows of two, and an empty cell. -/
def scattered : Store :=
  Store.empty |>.put "A1" (.ofInput "-12") |>.put "B1" (.ofInput "n/a")
    |>.put "B2" (.ofInput " 9007199254740980 ")

/-- What the cells of that store count as. -/
def scatteredAmount (place : Reference) : Int :=
  if place = ⟨0, 0⟩ then -12 else if place = ⟨1, 1⟩ then 9007199254740980 else 0

/-- The absolute values are the most that they may be; the corners are
named in small letters, from the upper right to the lower left. -/
theorem evaluateText_sum_exact_scattered :
    ∑ row ∈ uIcc (0 : Int) 1, ∑ col ∈ uIcc (0 : Int) 1,
        (scatteredAmount ⟨col, row⟩).natAbs = 2 ^ 53 ∧
      evaluateText (.ofStore scattered { now := default }) "=SUM( b1:A2)"
        = .text "9007199254740968" := by
  have hboth : uIcc (0 : Int) 1 = {0, 1} := by decide
  have hkeys : Reference.key ⟨0, 0⟩ = "A1" ∧ Reference.key ⟨1, 0⟩ = "B1" ∧
      Reference.key ⟨0, 1⟩ = "A2" ∧ Reference.key ⟨1, 1⟩ = "B2" := by
    refine ⟨?_, ?_, ?_, ?_⟩ <;> cbv
  have hdigits : Decimal.Digits "12" ∧ Decimal.Digits "9007199254740980" := by
    unfold Decimal.Digits
    decide
  have hfirst : CountsAs (scattered.shown "A1") (-12) :=
    @CountsAs.digits [] "-" "12" [] true (List.forall_mem_nil _) .minus hdigits.1 (by decide)
      (List.forall_mem_nil _)
  have hnote : CountsAs (scattered.shown "B1") 0 :=
    @CountsAs.noNumber "n/a" (Number.leading?_eq_none_iff.mp (by decide))
  have hblank : CountsAs (scattered.shown "A2") 0 :=
    @CountsAs.noNumber [] (Number.leading?_eq_none_iff.mp (by decide))
  have hlast : CountsAs (scattered.shown "B2") 9007199254740980 :=
    @CountsAs.digits " " [] "9007199254740980" " " false (by decide) .none hdigits.2 (by decide)
      (by decide)
  have hshown : ∀ row ∈ uIcc (0 : Int) 1, ∀ col ∈ uIcc (0 : Int) 1,
      CountsAs (scattered.shown (Reference.key ⟨col, row⟩)) (scatteredAmount ⟨col, row⟩) := by
    rw [hboth]
    simp only [Finset.mem_insert, Finset.mem_singleton, forall_eq_or_imp, forall_eq, hkeys]
    exact ⟨⟨hfirst, hnote⟩, hblank, hlast⟩
  have hbound : ∑ row ∈ uIcc (0 : Int) 1, ∑ col ∈ uIcc (0 : Int) 1,
      (scatteredAmount ⟨col, row⟩).natAbs = 2 ^ 53 := by
    decide
  have hfrom : Spells "b1" "B1" := ⟨⟨'b', "1", rfl, by decide⟩, by decide, by decide, by decide⟩
  have hto : Spells "A2" "A2" := ⟨⟨'A', "2", rfl, by decide⟩, by decide, by decide, by decide⟩
  have hformula : SumsOver "=SUM( b1:A2)" ⟨1, 0⟩ ⟨0, 1⟩ :=
    @sumsOver_appliedTo ⟨1, 0⟩ ⟨0, 1⟩ "b1" "A2" "B1" "A2" " " [] [] [] hfrom hto (by rfl) (by rfl)
      (by decide) (List.forall_mem_nil _) (List.forall_mem_nil _) (List.forall_mem_nil _)
  have hopposite : Range.Opposite ⟨0, 0⟩ ⟨1, 1⟩ ⟨1, 0⟩ ⟨0, 1⟩ :=
    ⟨.inr ⟨rfl, rfl⟩, .inl ⟨rfl, rfl⟩⟩
  have hsum := @evaluateText_sum_exact ⟨0, 0⟩ ⟨1, 1⟩ ⟨1, 0⟩ ⟨0, 1⟩ "=SUM( b1:A2)" scattered
    { now := default } scatteredAmount hshown hbound.le hopposite hformula
  exact ⟨hbound, hsum.trans (congrArg Content.text (by decide))⟩

end Eval

end Spreadsheet

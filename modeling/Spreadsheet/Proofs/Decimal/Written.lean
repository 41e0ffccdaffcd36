/-
Decimals that are written are read.

# Numerals

A numeral has digits before and after a point, and a power of ten. Its parts
may be written in few ways (`Numeral.Proper`): a point alone is no numeral,
and a power of ten needs digits. Such a numeral is scanned back from its
text, part by part (`Numeral.scan_text`), because each part ends where the
next one begins: a point and a mark are no digits, and a sign stands only
behind a mark.

# What layouts write

The layouts write such numerals (`Writes`), and a numeral that a layout
writes for a decimal has the value of the decimal, whether its digits stand
around a point or before an exponent (`writes_write`). Zeros in front count
for nothing (`valueOf_padLeft`), and zeros behind and the place of the point
go into the exponent (`writes_zeros_behind`, `writes_point`). Nothing is
rounded on the way: the coefficient and the exponent are the same, or a
power of ten has moved from one to the other.

# What this closes

With a sign in front, what a layout writes is read back to its end as the
number nearest to the decimal, and for a shortest decimal this is the number
it was found for.
-/
import Spreadsheet.Decimal.Layout
import Spreadsheet.Proofs.Binary64.Rounding
import Spreadsheet.Proofs.Decimal.Numeral
import Spreadsheet.Proofs.Reference.Notation

namespace Spreadsheet.Decimal

open Binary64 (ofDecimal)
open Text (isDigit)

-- ====================================================== the value of digits

/-- The value of digits, from those in front and those behind: the ones
behind move the ones in front up by as many places. -/
theorem valueOf_append (xs ys : Text) :
    valueOf (xs ++ ys) = valueOf xs * 10 ^ ys.length + valueOf ys := by
  induction ys using List.reverseRecOn with
  | nil => simp [valueOf]
  | append_singleton ys c ih =>
      rw [← List.append_assoc, valueOf_concat, ih, valueOf_concat, List.length_append,
        List.length_singleton, Nat.pow_succ]
      ring

/-- Zeros have the value zero, however many they are. -/
theorem valueOf_zeros (n : Nat) : valueOf (Text.ofChars (List.replicate n '0')) = 0 := by
  induction n with
  | zero => rfl
  | succ n ih =>
      rw [List.replicate_succ', Text.ofChars, List.map_append]
      exact (valueOf_concat _ _).trans (by rw [Text.ofChars] at ih; rw [ih]; rfl)

theorem isDigit_of_isFigure {c : CodePoint} (hc : Reference.isFigure c = true) :
    isDigit c = true := by
  have h := Reference.isFigure_iff.mp hc
  unfold Text.isDigit Text.digitValue? Text.digitZeros
  rw [List.find?_cons_of_pos (by simp only [Bool.and_eq_true, decide_eq_true_eq]; omega)]
  rfl

/-- A text of digits. -/
def Digits (text : Text) : Prop := ∀ c ∈ text, isDigit c = true

theorem digits_toDigits (n : Nat) : Digits (Text.ofChars (Nat.toDigits 10 n)) := by
  intro c hc
  obtain ⟨d, hd, rfl⟩ := List.mem_map.mp hc
  exact isDigit_of_isFigure (isFigure_of_mem_toDigits hd)

-- ====================================================== numerals

/-- A power of ten as it may be written. -/
structure Power.Proper (p : Power) : Prop where
  mark : p.mark = .char 'e' ∨ p.mark = .char 'E'
  sign : p.sign = none ∨ p.sign = some (.char '+') ∨ p.sign = some (.char '-')
  digits : Digits p.digits
  digits_ne_nil : p.digits ≠ []

/-- A numeral as it may be written. -/
structure Numeral.Proper (n : Numeral) : Prop where
  whole : Digits n.whole
  fraction : Digits n.fraction
  fraction_of_no_point : n.point = false → n.fraction = []
  some_digit : n.whole ≠ [] ∨ n.fraction ≠ []
  power : ∀ p, n.power = some p → p.Proper

theorem digits_nil : Digits [] := fun _ hc => absurd hc List.not_mem_nil

/-- Digits alone, before an optional power of ten, are a numeral that
may be written. -/
theorem Numeral.proper_whole {digits : Text} {power : Option Power} (hdigits : Digits digits)
    (hne : digits ≠ []) (hpower : ∀ p, power = some p → p.Proper) :
    Numeral.Proper ⟨digits, false, [], power⟩ where
  whole := hdigits
  fraction := digits_nil
  fraction_of_no_point := fun _ => rfl
  some_digit := .inl hne
  power := hpower

/-- Digits before and after a point, before an optional power of ten.
There may be none behind the point. -/
theorem Numeral.proper_point {whole fraction : Text} {power : Option Power}
    (hwhole : Digits whole) (hfraction : Digits fraction) (hne : whole ≠ [])
    (hpower : ∀ p, power = some p → p.Proper) :
    Numeral.Proper ⟨whole, true, fraction, power⟩ where
  whole := hwhole
  fraction := hfraction
  fraction_of_no_point := fun h => absurd h Bool.noConfusion
  some_digit := .inl hne
  power := hpower

/-- Digits are taken off up to the first character that is none, here
the first one of what follows. -/
theorem takeWhile_digits {ds : Text} (hds : Digits ds) (rest : Text)
    (hrest : rest.takeWhile isDigit = []) :
    (ds ++ rest).takeWhile isDigit = ds ∧ (ds ++ rest).dropWhile isDigit = rest := by
  have hkept : rest.takeWhile isDigit ++ rest.dropWhile isDigit = rest :=
    List.takeWhile_append_dropWhile
  rw [hrest, List.nil_append] at hkept
  rw [List.takeWhile_append_of_pos hds, List.dropWhile_append_of_pos hds, hrest, hkept]
  simp

/-- A digit is no sign. -/
theorem ne_sign_of_isDigit {c : CodePoint} (hc : isDigit c = true) :
    c ≠ .char '+' ∧ c ≠ .char '-' := by
  have hplus : isDigit (.char '+') = false := by decide
  have hminus : isDigit (.char '-') = false := by decide
  refine ⟨?_, ?_⟩
  · intro heq
    rw [heq, hplus] at hc
    cases hc
  · intro heq
    rw [heq, hminus] at hc
    cases hc

/-- The sign of a power of ten is found in front of its digits. Without
a sign nothing is taken, as a digit is no sign. -/
theorem Power.scanSign_of_proper {p : Power} (h : p.Proper) (rest : Text) :
    Power.scanSign (p.sign.toList ++ (p.digits ++ rest)) = (p.sign, p.digits ++ rest) := by
  rcases h.sign with hsign | hsign | hsign
  · rw [hsign]
    cases hdigits : p.digits with
    | nil => exact absurd hdigits h.digits_ne_nil
    | cons c cs =>
        have hc := ne_sign_of_isDigit (h.digits c (by simp [hdigits]))
        unfold Power.scanSign
        split
        · next heq => exact absurd (List.cons.inj heq).1 hc.1
        · next heq => exact absurd (List.cons.inj heq).1 hc.2
        · rfl
  · rw [hsign]
    rfl
  · rw [hsign]
    rfl

/-- A power of ten is scanned back from its text, with nothing left
over. -/
theorem Power.scan_text {p : Power} (h : p.Proper) : Power.scan p.text = some (p, []) := by
  have hmark : (p.mark = .char 'e' || p.mark = .char 'E') = true := by
    simpa using h.mark
  have hdigits := takeWhile_digits h.digits [] rfl
  have hsign := Power.scanSign_of_proper h []
  rw [List.append_nil] at hdigits hsign
  rw [Power.text, List.cons_append, Power.scan, if_pos hmark, hsign]
  dsimp only
  rw [hdigits.1, hdigits.2]
  split
  · next hnil => exact absurd hnil h.digits_ne_nil
  · rfl

/-- After the digits of a numeral comes its power of ten or nothing. -/
theorem Numeral.power_cases {n : Numeral} (h : n.Proper) :
    (n.power.map Power.text).getD [] = [] ∨
      ∃ mark rest, (n.power.map Power.text).getD [] = mark :: rest ∧
        (mark = .char 'e' ∨ mark = .char 'E') := by
  cases hpower : n.power with
  | none => exact .inl rfl
  | some p => exact .inr ⟨p.mark, _, rfl, (h.power p hpower).mark⟩

/-- A power of ten does not go on with the digits before it: its text
starts with its letter, or there is none. -/
theorem Numeral.takeWhile_power {n : Numeral} (h : n.Proper) :
    ((n.power.map Power.text).getD []).takeWhile isDigit = [] := by
  rcases Numeral.power_cases h with hnil | ⟨mark, rest, hcons, rfl | rfl⟩
  · rw [hnil]
    rfl
  · rw [hcons]
    exact List.takeWhile_cons_of_neg (by decide)
  · rw [hcons]
    exact List.takeWhile_cons_of_neg (by decide)

/-- The digits of a numeral are scanned up to what neither goes on with
them nor is their point. -/
theorem Numeral.scanMantissa_append {whole fraction tail : Text} {point : Bool}
    {power : Option Power} (h : Numeral.Proper ⟨whole, point, fraction, power⟩)
    (hdigit : tail.takeWhile isDigit = []) (hpoint : point = false → tail.head? ≠ some (.char '.')) :
    Numeral.scanMantissa (whole ++ (if point then [.char '.'] else []) ++ fraction ++ tail)
      = some (whole, point, fraction, tail) := by
  cases point with
  | true =>
      have hwhole := takeWhile_digits h.whole (.char '.' :: (fraction ++ tail))
        (List.takeWhile_cons_of_neg (by decide))
      have hfraction := takeWhile_digits h.fraction _ hdigit
      have hsome : (whole.isEmpty && fraction.isEmpty) = false := by
        rcases h.some_digit with hne | hne
        · simp [show whole ≠ [] from hne]
        · simp [show fraction ≠ [] from hne]
      simp only [if_true, List.append_assoc, List.cons_append, List.nil_append]
      unfold Numeral.scanMantissa
      simp only [hwhole.1, hwhole.2, hfraction.1, hfraction.2, hsome]
      rfl
  | false =>
      obtain rfl : fraction = [] := h.fraction_of_no_point rfl
      have hwhole := takeWhile_digits h.whole _ hdigit
      have hsome : whole.isEmpty = false := by
        simpa using h.some_digit.resolve_right fun hne => hne rfl
      simp only [Bool.false_eq_true, if_false, List.append_nil]
      unfold Numeral.scanMantissa
      simp only [hwhole.1, hwhole.2, hsome]
      split
      · exact absurd rfl (hpoint rfl)
      · rfl

/-- The digits of a numeral and its point are scanned back, and the
power of ten is left. -/
theorem Numeral.scanMantissa_text {n : Numeral} (h : n.Proper) :
    Numeral.scanMantissa n.text
      = some (n.whole, n.point, n.fraction, (n.power.map Power.text).getD []) := by
  refine Numeral.scanMantissa_append h (Numeral.takeWhile_power h) fun _ => ?_
  -- a mark is no point
  rcases Numeral.power_cases h with hnil | ⟨mark, rest, hcons, rfl | rfl⟩
  · rw [hnil]
    nofun
  · simp [hcons]
  · simp [hcons]

/-- A numeral is scanned back from its text, with nothing left over.
This is what makes a number that was written readable again. -/
theorem Numeral.scan_text {n : Numeral} (h : n.Proper) :
    Numeral.scan n.text = some (n, []) := by
  have hmantissa := Numeral.scanMantissa_text h
  have hpower := h.power
  unfold Numeral.scan
  rw [hmantissa]
  obtain ⟨whole, point, fraction, power⟩ := n
  cases power with
  | none => rfl
  | some p =>
      dsimp only [Option.map_some, Option.getD_some]
      rw [Power.scan_text (hpower p rfl)]

-- ====================================================== in front of a numeral

/-- A numeral starts with a digit or with its point. So it is neither
blank nor a sign in front. -/
theorem Numeral.head_text {n : Numeral} (h : n.Proper) :
    ∃ c rest, n.text = c :: rest ∧ (isDigit c = true ∨ c = .char '.') := by
  unfold Numeral.text
  cases hwhole : n.whole with
  | cons c whole =>
      have hc : isDigit c = true := h.whole c (by simp [hwhole])
      exact ⟨c, _, by simp only [List.cons_append]; rfl, .inl hc⟩
  | nil =>
      cases hpoint : n.point with
      | true => exact ⟨.char '.', _, by simp; rfl, .inr rfl⟩
      | false =>
          rcases h.some_digit with hne | hne
          · exact absurd hwhole hne
          · exact absurd (h.fraction_of_no_point hpoint) hne

/-- What neither a digit nor a point is does not stand in front of a
numeral. -/
theorem ne_of_digit_or_point {c d : CodePoint} (hc : isDigit c = true ∨ c = .char '.')
    (hdigit : isDigit d = false) (hpoint : d ≠ .char '.') : c ≠ d := by
  intro heq
  rcases hc with hc | hc
  · rw [← heq, hc] at hdigit
    cases hdigit
  · exact hpoint (heq.symm.trans hc)

/-- No blanks are dropped in front of a numeral with its sign, since
there are none. -/
theorem dropBlanks_signed {n : Numeral} {cs : List Char} {negative : Bool} (h : n.Proper)
    (htext : n.text = Text.ofChars cs) :
    Text.dropBlanks (Text.ofChars (signed negative cs)) = Text.ofChars (signed negative cs) := by
  obtain ⟨c, rest, hcons, hc⟩ := Numeral.head_text h
  have hblank : Text.isBlank c = false := by
    rcases hc with hc | rfl
    · cases hblank : Text.isBlank c with
      | false => rfl
      | true => simp [Text.isDigit_of_isBlank hblank] at hc
    · decide
  cases negative with
  | true => rfl
  | false =>
      show Text.dropBlanks (Text.ofChars cs) = Text.ofChars cs
      rw [← htext, hcons, Text.dropBlanks, List.dropWhile_cons_of_neg (by simp [hblank])]

/-- The sign of a numeral is taken off and the numeral is left. A
numeral without a sign is left as it is. -/
theorem takeSign_signed {n : Numeral} {cs : List Char} {negative : Bool} (h : n.Proper)
    (htext : n.text = Text.ofChars cs) :
    takeSign (Text.ofChars (signed negative cs)) = (negative, n.text) := by
  obtain ⟨c, rest, hcons, hc⟩ := Numeral.head_text h
  cases negative with
  | true =>
      show takeSign (.char '-' :: Text.ofChars cs) = _
      rw [← htext]
      rfl
  | false =>
      have hplus : c ≠ .char '+' := ne_of_digit_or_point hc (by decide) (by decide)
      have hminus : c ≠ .char '-' := ne_of_digit_or_point hc (by decide) (by decide)
      show takeSign (Text.ofChars cs) = _
      rw [← htext, hcons]
      unfold takeSign
      split
      · next heq => exact absurd (List.cons.inj heq).1 hplus
      · next heq => exact absurd (List.cons.inj heq).1 hminus
      · rfl

-- ====================================================== what layouts write

/-- The characters are a numeral that stands for the decimal. It has the
same value with either sign, so the sign can be left to whoever writes
it. -/
def Writes (cs : List Char) (s : Scaled) : Prop :=
  ∃ n : Numeral, n.Proper ∧ n.text = Text.ofChars cs ∧
    ∀ negative, n.toBinary64 negative = ofDecimal negative s.coefficient s.exponent

variable {s : Scaled} {layout : Layout}

theorem digits_append {xs ys : Text} (hxs : Digits xs) (hys : Digits ys) : Digits (xs ++ ys) := by
  intro c hc
  rcases List.mem_append.mp hc with hc | hc
  · exact hxs c hc
  · exact hys c hc

theorem digits_zeros (n : Nat) : Digits (Text.ofChars (List.replicate n '0')) := by
  intro c hc
  obtain ⟨d, hd, rfl⟩ := List.mem_map.mp hc
  rw [(List.mem_replicate.mp hd).2]
  decide

theorem digits_padLeft {width : Nat} {cs : List Char} (h : Digits (Text.ofChars cs)) :
    Digits (Text.ofChars (padLeft width cs)) := by
  rw [padLeft, Text.ofChars, List.map_append]
  exact digits_append (digits_zeros _) h

/-- Zeros in front count for nothing. -/
theorem valueOf_padLeft (width : Nat) (cs : List Char) :
    valueOf (Text.ofChars (padLeft width cs)) = valueOf (Text.ofChars cs) := by
  have hzeros := valueOf_zeros (width - cs.length)
  rw [Text.ofChars] at hzeros
  rw [padLeft, Text.ofChars, List.map_append, valueOf_append, hzeros, Nat.zero_mul, Nat.zero_add,
    Text.ofChars]

/-- Zeros behind the digits of a number are a power of ten, which is how
a large integer is written out. -/
theorem writes_zeros_behind (n zeros : Nat) :
    Writes (Nat.toDigits 10 n ++ List.replicate zeros '0') ⟨n, zeros⟩ := by
  have hdigits := digits_append (digits_toDigits n) (digits_zeros zeros)
  have hvalue : valueOf (Text.ofChars (Nat.toDigits 10 n)
      ++ Text.ofChars (List.replicate zeros '0')) = n * 10 ^ zeros := by
    rw [valueOf_append, valueOf_toDigits, valueOf_zeros]
    simp [Text.ofChars]
  rw [Text.ofChars, Text.ofChars, ← List.map_append] at hdigits hvalue
  refine ⟨⟨_, false, [], none⟩, Numeral.proper_whole hdigits (by simp) (by simp),
    by simp [Numeral.text, Text.ofChars], ?_⟩
  intro negative
  unfold Numeral.toBinary64
  rw [List.append_nil, hvalue, Binary64.ofDecimal_mul_pow]
  simp

theorem writes_toDigits (n : Nat) : Writes (Nat.toDigits 10 n) ⟨n, 0⟩ := by
  simpa using writes_zeros_behind n 0

/-- A point leaves the digits behind it as places: the text is the same
decimal with its exponent lowered by them. -/
theorem writes_point {cs : List Char} {places : Nat} (hdigits : Digits (Text.ofChars cs))
    (hplaces : places < cs.length) :
    Writes (cs.take (cs.length - places) ++ '.' :: cs.drop (cs.length - places))
      ⟨valueOf (Text.ofChars cs), -places⟩ := by
  generalize hcut : cs.length - places = cut
  have hsplit : Text.ofChars (cs.take cut) ++ Text.ofChars (cs.drop cut) = Text.ofChars cs := by
    rw [Text.ofChars, Text.ofChars, ← List.map_append, List.take_append_drop, Text.ofChars]
  have hdigits' : Digits (Text.ofChars (cs.take cut) ++ Text.ofChars (cs.drop cut)) :=
    hsplit.symm ▸ hdigits
  have hlength : (cs.drop cut).length = places := by
    rw [List.length_drop]
    omega
  have hne : cs.take cut ≠ [] := by
    apply List.ne_nil_of_length_pos
    rw [List.length_take]
    omega
  refine ⟨⟨Text.ofChars (cs.take cut), true, Text.ofChars (cs.drop cut), none⟩, ?_, ?_, ?_⟩
  · exact Numeral.proper_point (fun c hc => hdigits' c (List.mem_append_left _ hc))
      (fun c hc => hdigits' c (List.mem_append_right _ hc)) (by simpa [Text.ofChars] using hne)
      (by simp)
  · simp [Numeral.text, Text.ofChars]
  · intro negative
    unfold Numeral.toBinary64
    dsimp only
    rw [hsplit, show (Text.ofChars (cs.drop cut)).length = places by
      simpa [Text.ofChars] using hlength]
    simp

theorem writes_positional (hmark : layout.wholeMark = []) (s : Scaled) :
    Writes (layout.positional s) s := by
  unfold Layout.positional
  split
  · next hexponent =>
    have hzeros : ((s.exponent.toNat : Nat) : Int) = s.exponent := Int.toNat_of_nonneg hexponent
    have hwrites := writes_zeros_behind s.coefficient s.exponent.toNat
    rw [hzeros] at hwrites
    rw [hmark, List.append_nil]
    exact hwrites
  · next hexponent =>
    have hplaces : -(((-s.exponent).toNat : Nat) : Int) = s.exponent := by omega
    have hlength : (-s.exponent).toNat < (padLeft ((-s.exponent).toNat + 1) s.digits).length := by
      rw [padLeft, List.length_append, List.length_replicate]
      omega
    have hdigits : Digits (Text.ofChars s.digits) := digits_toDigits s.coefficient
    have hvalue : valueOf (Text.ofChars s.digits) = s.coefficient := valueOf_toDigits s.coefficient
    have hwrites := writes_point (digits_padLeft hdigits) hlength
    rw [hplaces, valueOf_padLeft, hvalue] at hwrites
    exact hwrites

/-- The power of ten that is written for an exponent. -/
def Power.ofExponent (width : Nat) (exponent : Int) : Power where
  mark := .char 'e'
  sign := some (.char (if exponent < 0 then '-' else '+'))
  digits := Text.ofChars (padLeft width (Nat.toDigits 10 exponent.natAbs))

theorem Power.ofExponent_proper (width : Nat) (exponent : Int) :
    (Power.ofExponent width exponent).Proper where
  mark := .inl rfl
  sign := by
    unfold Power.ofExponent
    by_cases hneg : exponent < 0 <;> simp [hneg]
  digits := digits_padLeft (digits_toDigits _)
  digits_ne_nil := by simp [Power.ofExponent, Text.ofChars, padLeft]

theorem Power.value_ofExponent (width : Nat) (exponent : Int) :
    (Power.ofExponent width exponent).value = exponent := by
  unfold Power.value Power.ofExponent
  dsimp only
  rw [valueOf_padLeft, valueOf_toDigits]
  by_cases hneg : exponent < 0
  · rw [if_pos hneg, if_pos rfl]
    omega
  · rw [if_neg hneg, if_neg (by decide)]
    omega

/-- One digit before the point and the others behind it. The exponent
that is written counts them, so it is the one of the first digit. -/
theorem writes_exponential (layout : Layout) (s : Scaled) : Writes (layout.exponential s) s := by
  have hdigits : Digits (Text.ofChars s.digits) := digits_toDigits s.coefficient
  have hvalue : valueOf (Text.ofChars s.digits) = s.coefficient := valueOf_toDigits s.coefficient
  have hproper := Power.ofExponent_proper layout.exponentWidth s.leading
  have hpower := Power.value_ofExponent layout.exponentWidth s.leading
  have hleading : s.leading = s.exponent + s.digits.length - 1 := rfl
  have hne : s.digits ≠ [] := by simp [Scaled.digits]
  unfold Layout.exponential
  generalize s.digits = digits at hdigits hvalue hleading hne ⊢
  match digits with
  | [] => exact absurd rfl hne
  | [first] =>
      refine ⟨⟨[.char first], false, [], some (.ofExponent layout.exponentWidth s.leading)⟩,
        Numeral.proper_whole hdigits (by simp) (by simpa using hproper),
        by simp [Numeral.text, Power.text, Power.ofExponent, Text.ofChars], ?_⟩
      intro negative
      have hexponent : s.leading - (0 : Nat) = s.exponent := by simp [hleading]
      unfold Numeral.toBinary64
      dsimp only [Option.map_some, Option.getD_some, List.append_nil, List.length_nil]
      rw [hpower, hexponent, ← hvalue]
      rfl
  | first :: second :: rest =>
      refine ⟨⟨[.char first], true, Text.ofChars (second :: rest),
          some (.ofExponent layout.exponentWidth s.leading)⟩,
        Numeral.proper_point ?_ ?_ (by simp) (by simpa using hproper),
        by simp [Numeral.text, Power.text, Power.ofExponent, Text.ofChars], ?_⟩
      · exact fun c hc => hdigits c (List.mem_append_left (Text.ofChars (second :: rest)) hc)
      · exact fun c hc => hdigits c (List.mem_append_right [CodePoint.char first] hc)
      · intro negative
        have hexponent : s.leading - ((Text.ofChars (second :: rest)).length : Nat)
            = s.exponent := by
          simp only [hleading, Text.ofChars, List.length_map, List.length_cons]
          omega
        unfold Numeral.toBinary64
        dsimp only [Option.map_some, Option.getD_some]
        rw [hpower, hexponent, ← hvalue]
        rfl

/-- What a layout without a mark for whole numbers writes for a decimal
stands for it. -/
theorem writes_write (hmark : layout.wholeMark = []) (s : Scaled) : Writes (layout.write s) s := by
  unfold Layout.write
  split
  · exact writes_positional hmark s
  · exact writes_exponential layout s

end Spreadsheet.Decimal

/-
The scanner of numerals takes the longest.

# Two halves

What `scan` takes off is a numeral as it may be written
(`Numeral.proper_of_scan`), and no longer one stands in front of the text
(`Numeral.scan_append`). The first half follows the scanner part by part.
The second one starts from any proper numeral in front of a text and finds
the scanner taking no less.

# Why nothing longer is there

The scanner never goes back, so the parts have to be taken in a way that
leaves nothing behind. A run of digits is taken whole. A mark of a power of
ten is no digit, so it ends the digits, and a power is taken if its digits
are there. A point is taken whether digits follow it or not. So each part of
a numeral in front of the text is found, or a longer one in its place; a
part that is longer than asked for does no harm, as the parts after it are
compared by what is left of the text.
-/
import Spreadsheet.Proofs.Decimal.Written

namespace Spreadsheet.Decimal

open Text (isBlank isDigit isDigit_of_isBlank)

-- ====================================================== what is taken off may be written

/-- The sign of an exponent is missing, a plus or a minus. Nothing else
is taken for one. -/
theorem Power.scanSign_cases (cs : Text) :
    (Power.scanSign cs).1 = none ∨ (Power.scanSign cs).1 = some (.char '+') ∨
      (Power.scanSign cs).1 = some (.char '-') := by
  unfold Power.scanSign
  split
  · exact .inr (.inl rfl)
  · exact .inr (.inr rfl)
  · exact .inl rfl

/-- A power that is scanned is one as it may be written: the scanner
gives up where the digits are missing. -/
theorem Power.proper_of_scan {cs rest : Text} {p : Power} (h : Power.scan cs = some (p, rest)) :
    p.Proper := by
  cases cs with
  | nil => cases h
  | cons c cs =>
      simp only [Power.scan] at h
      split at h
      · next hmark =>
        split at h
        · cases h
        · next hne =>
          obtain ⟨rfl, -⟩ := Prod.mk.inj (Option.some.inj h)
          exact {
            mark := by simpa using hmark
            sign := Power.scanSign_cases cs
            digits := fun c => List.mem_takeWhile_imp
            digits_ne_nil := hne }
      · cases h

/-- The digits that are scanned make a numeral with whatever power
follows them. -/
theorem Numeral.proper_of_scanMantissa {cs whole fraction rest : Text} {point : Bool}
    (h : Numeral.scanMantissa cs = some (whole, point, fraction, rest)) {power : Option Power}
    (hpower : ∀ p, power = some p → p.Proper) :
    Numeral.Proper ⟨whole, point, fraction, power⟩ := by
  unfold Numeral.scanMantissa at h
  dsimp only at h
  split at h
  · split at h
    · cases h
    · next hdigit =>
      simp only [Option.some.injEq, Prod.mk.injEq] at h
      obtain ⟨rfl, rfl, rfl, -⟩ := h
      refine ⟨fun c => List.mem_takeWhile_imp, fun c => List.mem_takeWhile_imp, nofun, ?_, hpower⟩
      simpa only [Bool.and_eq_true, List.isEmpty_iff, not_and_or] using hdigit
  · split at h
    · cases h
    · next hdigit =>
      simp only [Option.some.injEq, Prod.mk.injEq] at h
      obtain ⟨rfl, rfl, rfl, -⟩ := h
      refine ⟨fun c => List.mem_takeWhile_imp, digits_nil, fun _ => rfl, .inl ?_, hpower⟩
      simpa only [List.isEmpty_iff] using hdigit

/-- What is scanned is a numeral as it may be written: digits on one
side of the point at least, and digits after the letter. -/
theorem Numeral.proper_of_scan {cs rest : Text} {n : Numeral}
    (h : Numeral.scan cs = some (n, rest)) : n.Proper := by
  unfold Numeral.scan at h
  split at h
  · cases h
  · next hmantissa =>
    split at h
    · obtain ⟨rfl, -⟩ := Prod.mk.inj (Option.some.inj h)
      exact Numeral.proper_of_scanMantissa hmantissa nofun
    · next hpower =>
      obtain ⟨rfl, -⟩ := Prod.mk.inj (Option.some.inj h)
      refine Numeral.proper_of_scanMantissa hmantissa fun p hp => ?_
      obtain rfl := Option.some.inj hp
      exact Power.proper_of_scan hpower

/-- A numeral that is scanned takes something off the text. -/
theorem Numeral.text_ne_nil_of_scan {cs rest : Text} {n : Numeral}
    (h : Numeral.scan cs = some (n, rest)) : n.text ≠ [] := by
  obtain ⟨c, others, hcons, -⟩ := Numeral.head_text (Numeral.proper_of_scan h)
  rw [hcons]
  exact List.cons_ne_nil _ _

/-- The characters of a numeral are digits, a point, a mark and a
sign. -/
theorem Numeral.forall_mem_text {n : Numeral} (h : n.Proper) {p : CodePoint → Prop}
    (hdigit : ∀ c, isDigit c = true → p c) (hothers : ∀ c ∈ Text.ofString ".eE+-", p c) :
    ∀ c ∈ n.text, p c := by
  have hdigits : ∀ {ds : Text}, Digits ds → ∀ c ∈ ds, p c := fun hds c hc => hdigit c (hds c hc)
  obtain ⟨whole, point, fraction, power⟩ := n
  have hmantissa : ∀ c ∈ whole ++ (if point then [.char '.'] else []) ++ fraction, p c := by
    refine List.forall_mem_append.mpr ⟨List.forall_mem_append.mpr ⟨hdigits h.whole, ?_⟩,
      hdigits h.fraction⟩
    intro c hc
    cases point with
    | false => cases hc
    | true =>
        obtain rfl := List.mem_singleton.mp hc
        exact hothers _ (by decide)
  cases power with
  | none =>
      rw [Numeral.text, Option.map_none, Option.getD_none, List.append_nil]
      exact hmantissa
  | some power =>
      obtain ⟨mark, sign, digits⟩ := power
      have hpower := h.power _ rfl
      have hsign : ∀ c ∈ sign.toList, p c := by
        rcases hpower.sign with rfl | rfl | rfl
        · exact fun c hc => absurd hc List.not_mem_nil
        · exact fun c hc => List.mem_singleton.mp hc ▸ hothers _ (by decide)
        · exact fun c hc => List.mem_singleton.mp hc ▸ hothers _ (by decide)
      have hmark : p mark := by
        rcases hpower.mark with rfl | rfl
        · exact hothers _ (by decide)
        · exact hothers _ (by decide)
      exact List.forall_mem_append.mpr ⟨hmantissa, List.forall_mem_cons.mpr
        ⟨hmark, List.forall_mem_append.mpr ⟨hsign, hdigits hpower.digits⟩⟩⟩

/-- In a numeral there is no blank, so blanks around a number can be
told from the number. -/
theorem Numeral.isBlank_of_mem_text {n : Numeral} (h : n.Proper) :
    ∀ c ∈ n.text, isBlank c = false := by
  refine Numeral.forall_mem_text h (fun c hc => ?_) (by decide)
  cases hblank : isBlank c with
  | false => rfl
  | true =>
      rw [isDigit_of_isBlank hblank] at hc
      cases hc

-- ====================================================== nothing longer is there

/-- A run in front of a text is no longer than the one that is taken
there. -/
theorem length_takeWhile_append {p : CodePoint → Bool} {ds : Text} (hds : ∀ c ∈ ds, p c = true)
    (rest : Text) : ds.length ≤ ((ds ++ rest).takeWhile p).length := by
  rw [List.takeWhile_append_of_pos hds, List.length_append]
  exact Nat.le_add_right _ _

/-- A power of ten in front of a text is found there, or a longer
one. -/
theorem Power.scan_append {p : Power} (h : p.Proper) (rest : Text) :
    ∃ found left, Power.scan (p.text ++ rest) = some (found, left) ∧
      p.text.length ≤ found.text.length := by
  have hmark : (p.mark = .char 'e' || p.mark = .char 'E') = true := by
    simpa using h.mark
  have hdigits := length_takeWhile_append h.digits rest
  simp only [Power.text, List.cons_append, List.append_assoc, Power.scan, if_pos hmark,
    Power.scanSign_of_proper h]
  split
  · next hnil =>
    rw [hnil, List.length_nil, Nat.le_zero, List.length_eq_zero_iff] at hdigits
    exact absurd hdigits h.digits_ne_nil
  · refine ⟨_, _, rfl, ?_⟩
    simp only [List.length_cons, List.length_append]
    omega

theorem takeWhile_dropWhile (rest : Text) : (rest.dropWhile isDigit).takeWhile isDigit = [] := by
  cases hrest : rest.dropWhile isDigit with
  | nil => rfl
  | cons c cs => exact List.takeWhile_cons_of_neg (by simp [Text.eq_false_of_dropWhile hrest])

/-- The digits that are scanned belong to the numeral that is: a scan
that gets as far as a mantissa goes on to a numeral that is at least as
long. -/
theorem Numeral.scan_of_mantissa {cs whole fraction tail : Text} {point : Bool}
    (h : Numeral.Proper ⟨whole, point, fraction, none⟩) (hdigit : tail.takeWhile isDigit = [])
    (hpoint : point = false → tail.head? ≠ some (.char '.'))
    (hcs : cs = Numeral.text ⟨whole, point, fraction, none⟩ ++ tail) :
    ∃ found left, Numeral.scan cs = some (found, left) ∧
      (Numeral.text ⟨whole, point, fraction, none⟩).length ≤ found.text.length := by
  have hmantissa := Numeral.scanMantissa_append h hdigit hpoint
  have htext : Numeral.text ⟨whole, point, fraction, none⟩
      = whole ++ (if point then [.char '.'] else []) ++ fraction := List.append_nil _
  have hle : ∀ power, (Numeral.text ⟨whole, point, fraction, none⟩).length
      ≤ (Numeral.text ⟨whole, point, fraction, power⟩).length := by
    intro power
    unfold Numeral.text
    simp only [List.length_append]
    exact Nat.add_le_add_left (Nat.zero_le _) _
  rw [← htext, ← hcs] at hmantissa
  unfold Numeral.scan
  rw [hmantissa]
  dsimp only
  cases Power.scan tail with
  | none => exact ⟨_, _, rfl, hle none⟩
  | some found => exact ⟨_, _, rfl, hle (some found.1)⟩

/-- A numeral without a power of ten in front of a text is found there,
or a longer one: the digits after it go on with it, and so does a point
if it has none. -/
theorem Numeral.scan_append_of_no_power {whole fraction : Text} {point : Bool}
    (h : Numeral.Proper ⟨whole, point, fraction, none⟩) (rest : Text) :
    ∃ found left,
      Numeral.scan (Numeral.text ⟨whole, point, fraction, none⟩ ++ rest) = some (found, left) ∧
      (Numeral.text ⟨whole, point, fraction, none⟩).length ≤ found.text.length := by
  have hrest : rest.takeWhile isDigit ++ rest.dropWhile isDigit = rest :=
    List.takeWhile_append_dropWhile
  have hmore : ∀ {ds : Text}, Digits ds → Digits (ds ++ rest.takeWhile isDigit) :=
    fun hds => digits_append hds fun c => List.mem_takeWhile_imp
  have hnone : ∀ p : Power, none = some p → p.Proper := fun p hp => absurd hp (by simp)
  -- a longer numeral that the text can be split after
  have hlonger : ∃ longer tail, Numeral.Proper longer ∧ longer.power = none ∧
      tail.takeWhile isDigit = [] ∧ (longer.point = false → tail.head? ≠ some (.char '.')) ∧
      Numeral.text ⟨whole, point, fraction, none⟩ ++ rest = longer.text ++ tail ∧
      (Numeral.text ⟨whole, point, fraction, none⟩).length ≤ longer.text.length := by
    cases point with
    | true =>
        refine ⟨⟨whole, true, fraction ++ rest.takeWhile isDigit, none⟩, rest.dropWhile isDigit,
          ⟨h.whole, hmore h.fraction, by simp, ?_, hnone⟩, rfl, takeWhile_dropWhile rest, by simp,
          ?_, ?_⟩
        · exact h.some_digit.imp_right fun hne => List.append_ne_nil_of_left_ne_nil hne _
        · simp [Numeral.text]
        · simp [Numeral.text]
    | false =>
        obtain rfl : fraction = [] := h.fraction_of_no_point rfl
        have hne : whole ++ rest.takeWhile isDigit ≠ [] :=
          List.append_ne_nil_of_left_ne_nil (h.some_digit.resolve_right fun hne => hne rfl) _
        by_cases hpoint : (rest.dropWhile isDigit).head? = some (.char '.')
        · obtain ⟨tail, htail⟩ := List.head?_eq_some_iff.mp hpoint
          rw [htail] at hrest
          refine ⟨⟨whole ++ rest.takeWhile isDigit, true, tail.takeWhile isDigit, none⟩,
            tail.dropWhile isDigit,
            Numeral.proper_point (hmore h.whole) (fun c => List.mem_takeWhile_imp) hne hnone, rfl,
            takeWhile_dropWhile tail, by simp, ?_, ?_⟩
          · simp [Numeral.text, hrest]
          · simp [Numeral.text]
        · refine ⟨⟨whole ++ rest.takeWhile isDigit, false, [], none⟩, rest.dropWhile isDigit,
            Numeral.proper_whole (hmore h.whole) hne hnone, rfl, takeWhile_dropWhile rest,
            fun _ => hpoint, ?_, ?_⟩
          · simp [Numeral.text]
          · simp [Numeral.text]
  obtain ⟨⟨whole', point', fraction', _⟩, tail, hproper, rfl, hdigit, hpoint, hsplit, hle⟩ := hlonger
  obtain ⟨found, left, hscan, hlength⟩ := Numeral.scan_of_mantissa hproper hdigit hpoint hsplit
  exact ⟨found, left, hscan, hle.trans hlength⟩

/-- A numeral in front of a text is found there, or a longer one. With a
power of ten it is longer than its digits, so both cases of the digits
are needed. -/
theorem Numeral.scan_append {n : Numeral} (h : n.Proper) (rest : Text) :
    ∃ found left, Numeral.scan (n.text ++ rest) = some (found, left) ∧
      n.text.length ≤ found.text.length := by
  obtain ⟨whole, point, fraction, power⟩ := n
  cases power with
  | none => exact Numeral.scan_append_of_no_power h rest
  | some p =>
      obtain ⟨found, left, hscan, hlength⟩ := Power.scan_append (h.power p rfl) rest
      have htail : (p.text ++ rest).takeWhile isDigit = [] ∧
          (p.text ++ rest).head? ≠ some (.char '.') := by
        obtain ⟨mark, sign, digits⟩ := p
        rcases (h.power _ rfl).mark with rfl | rfl
        · exact ⟨List.takeWhile_cons_of_neg (show ¬isDigit (.char 'e') by decide),
            by simp [Power.text]⟩
        · exact ⟨List.takeWhile_cons_of_neg (show ¬isDigit (.char 'E') by decide),
            by simp [Power.text]⟩
      have hmantissa := Numeral.scanMantissa_append h htail.1 fun _ => htail.2
      refine ⟨⟨whole, point, fraction, some found⟩, left, ?_, ?_⟩
      · simp only [Numeral.text, Option.map_some, Option.getD_some, List.append_assoc] at hmantissa ⊢
        unfold Numeral.scan
        rw [hmantissa]
        simp only [hscan]
      · simp only [Numeral.text, Option.map_some, Option.getD_some, List.length_append]
        omega

end Spreadsheet.Decimal

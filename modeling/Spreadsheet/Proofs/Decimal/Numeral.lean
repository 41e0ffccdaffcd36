/-
What the scanner of numerals takes off a text.

# Nothing is lost

The scanner takes the parts of a numeral one after another: digits, a point,
more digits, and a power of ten with a mark, a sign and digits. It takes off
exactly what the numeral writes (`Numeral.text_append_of_scan`), so the text
is the numeral followed by what is left, and a position in one is a position
in the other.

# Blanks at the end

The scanner takes off the same whether blanks follow the text or not
(`Numeral.scan_append_blanks`). No part of a numeral is a blank, so each
part ends before the blanks, also where a part is missing and the scanner
looks for it in vain. Formulas are read with blanks put in, and this is what
makes the numbers among them the same.
-/
import Spreadsheet.Decimal.Numeral
import Spreadsheet.Proofs.Text.Blank

namespace Spreadsheet.Decimal

open Text (isBlank isDigit isDigit_of_isBlank ne_of_isBlank takeWhile_append_blanks
  dropWhile_append_blanks)

variable {w : Text}

-- ====================================================== what is taken off

/-- The sign that is taken off and what is left are the text. -/
theorem Power.scanSign_split (cs : Text) :
    (Power.scanSign cs).1.toList ++ (Power.scanSign cs).2 = cs := by
  unfold Power.scanSign
  split <;> rfl

/-- What a power of ten takes off a text is what it writes: its letter,
its sign and its digits, as they stood. -/
theorem Power.text_append_of_scan {cs rest : Text} {p : Power}
    (h : Power.scan cs = some (p, rest)) : p.text ++ rest = cs := by
  cases cs with
  | nil => simp [Power.scan] at h
  | cons c cs =>
      have hsign := Power.scanSign_split cs
      simp only [Power.scan] at h
      split at h
      case isFalse => cases h
      case isTrue =>
        split at h
        · cases h
        · simp only [Option.some.injEq, Prod.mk.injEq] at h
          obtain ⟨rfl, rfl⟩ := h
          simp only [Power.text, List.cons_append, List.append_assoc,
            List.takeWhile_append_dropWhile, hsign]

/-- The digits and the point that are taken off and what is left are the
text. -/
theorem Numeral.scanMantissa_split {cs whole fraction rest : Text} {point : Bool}
    (h : Numeral.scanMantissa cs = some (whole, point, fraction, rest)) :
    whole ++ (if point then [.char '.'] else []) ++ fraction ++ rest = cs := by
  have hcs : cs.takeWhile isDigit ++ cs.dropWhile isDigit = cs := List.takeWhile_append_dropWhile
  unfold Numeral.scanMantissa at h
  simp only at h
  split at h
  case h_1 rest' hdrop =>
    split at h
    · cases h
    · simp only [Option.some.injEq, Prod.mk.injEq] at h
      obtain ⟨rfl, rfl, rfl, rfl⟩ := h
      rw [hdrop] at hcs
      simp only [if_true, List.append_assoc, List.takeWhile_append_dropWhile,
        List.cons_append, List.nil_append, hcs]
  case h_2 =>
    split at h
    · cases h
    · simp only [Option.some.injEq, Prod.mk.injEq] at h
      obtain ⟨rfl, rfl, rfl, rfl⟩ := h
      simp

/-- What `scan` takes off a text is what the numeral writes. Nothing of
the text is lost, so the rest of it can be looked at by itself. -/
theorem Numeral.text_append_of_scan {cs rest : Text} {n : Numeral}
    (h : Numeral.scan cs = some (n, rest)) : n.text ++ rest = cs := by
  unfold Numeral.scan at h
  split at h
  · cases h
  · next whole point fraction tail hmantissa =>
    rw [← Numeral.scanMantissa_split hmantissa]
    split at h
    · simp only [Option.some.injEq, Prod.mk.injEq] at h
      obtain ⟨rfl, rfl⟩ := h
      simp [Numeral.text]
    · next p rest' hpower =>
      simp only [Option.some.injEq, Prod.mk.injEq] at h
      obtain ⟨rfl, rfl⟩ := h
      rw [← Power.text_append_of_scan hpower]
      simp [Numeral.text]

-- ====================================================== blanks at the end

/-- Blanks at the end are no sign, and none is missed because of
them. -/
theorem Power.scanSign_append_blanks (hw : ∀ c ∈ w, isBlank c = true) (cs : Text) :
    Power.scanSign (cs ++ w) = ((Power.scanSign cs).1, (Power.scanSign cs).2 ++ w) := by
  cases cs with
  | cons c cs =>
      rw [List.cons_append]
      unfold Power.scanSign
      split <;> split <;> simp_all
  | nil =>
      rw [List.nil_append]
      unfold Power.scanSign
      split
      · exact absurd (hw _ (List.mem_cons_self ..)) (by decide)
      · exact absurd (hw _ (List.mem_cons_self ..)) (by decide)
      · rfl

/-- A power of ten is the same whether blanks follow it or not, and so
is its absence. -/
theorem Power.scan_append_blanks (hw : ∀ c ∈ w, isBlank c = true) (cs : Text) :
    Power.scan (cs ++ w) = (Power.scan cs).map fun found => (found.1, found.2 ++ w) := by
  cases cs with
  | nil =>
      cases w with
      | nil => rfl
      | cons b w =>
          have hb := hw b (List.mem_cons_self ..)
          have he : b ≠ .char 'e' := ne_of_isBlank hb (by decide)
          have hE : b ≠ .char 'E' := ne_of_isBlank hb (by decide)
          simp [Power.scan, he, hE]
  | cons c cs =>
      simp only [List.cons_append, Power.scan, Power.scanSign_append_blanks hw,
        takeWhile_append_blanks (fun _ => isDigit_of_isBlank) hw,
        dropWhile_append_blanks (fun _ => isDigit_of_isBlank) hw]
      split
      · split <;> rfl
      · rfl

/-- The digits of a numeral are the same whether blanks follow them or
not, and the blanks are left behind. -/
theorem Numeral.scanMantissa_append_blanks (hw : ∀ c ∈ w, isBlank c = true) (cs : Text) :
    Numeral.scanMantissa (cs ++ w)
      = (Numeral.scanMantissa cs).map fun found =>
          (found.1, found.2.1, found.2.2.1, found.2.2.2 ++ w) := by
  unfold Numeral.scanMantissa
  simp only [takeWhile_append_blanks (fun _ => isDigit_of_isBlank) hw,
    dropWhile_append_blanks (fun _ => isDigit_of_isBlank) hw]
  cases hrest : cs.dropWhile isDigit with
  | nil =>
      rw [List.nil_append]
      split
      · exact absurd (hw _ (List.mem_cons_self ..)) (by decide)
      · split <;> rfl
  | cons c rest =>
      rw [List.cons_append]
      by_cases hc : c = .char '.'
      · subst hc
        simp only [takeWhile_append_blanks (fun _ => isDigit_of_isBlank) hw,
          dropWhile_append_blanks (fun _ => isDigit_of_isBlank) hw]
        split <;> rfl
      · split
        · next h => exact absurd (List.cons.inj h).1 hc
        · split <;> split
          · next h => exact absurd (List.cons.inj h).1 hc
          · rfl
          · next h => exact absurd (List.cons.inj h).1 hc
          · rfl

/-- A numeral in front of a text is the same whether blanks follow the
text or not. -/
theorem Numeral.scan_append_blanks (hw : ∀ c ∈ w, isBlank c = true) (cs : Text) :
    Numeral.scan (cs ++ w) = (Numeral.scan cs).map fun found => (found.1, found.2 ++ w) := by
  unfold Numeral.scan
  rw [Numeral.scanMantissa_append_blanks hw]
  cases Numeral.scanMantissa cs with
  | none => rfl
  | some found =>
      obtain ⟨whole, point, fraction, rest⟩ := found
      simp only [Option.map_some, Power.scan_append_blanks hw]
      cases Power.scan rest with
      | none => rfl
      | some power => rfl

end Spreadsheet.Decimal

/-
What blanks at the end of a text leave alone.

# Runs of characters

A run of characters in front of a text ends at the first that does not
belong to it. Blanks after the text do not make the run longer, either
because no blank belongs to the run (`takeWhile_append_blanks`), or because
it ends inside the text (`takeWhile_append_of_stop`). Names, digits and
operators are runs of the first kind. A literal in quotes may hold blanks,
and is a run of the second kind once its closing quote is there.

# No digit is a blank

Digits and blanks are given by tables of code points, so that the one are
not the other has to be read off the tables (`digitZeros_apart`). Ten digits
of a script stand in a row, and no range of blanks meets such a row.

# Trimmed texts

Blanks may be dropped in front and at the end. What is left starts and ends
with no blank, and dropping blanks again changes nothing (`trim_trim`).
-/
import Mathlib.Data.List.DropRight
import Mathlib.Data.List.TakeWhile
import Spreadsheet.Text.Blank
import Spreadsheet.Text.Digit

namespace Spreadsheet.Text

variable {w : Text}

-- ====================================================== what is not blank

/-- A blank is none of the characters that are known not to be blank. -/
theorem ne_of_isBlank {c d : CodePoint} (hc : isBlank c = true) (hd : isBlank d = false) :
    c ≠ d := by
  rintro rfl
  rw [hc] at hd
  cases hd

/-- No ten digits of a script meet a range of blanks. -/
private theorem digitZeros_apart :
    ∀ z ∈ digitZeros, ∀ r ∈ blankRanges, r.2 < z ∨ z + 10 ≤ r.1 := by
  decide

theorem isDigit_of_isBlank {c : CodePoint} (hc : isBlank c = true) : isDigit c = false := by
  obtain ⟨r, hr, hin⟩ := List.any_eq_true.mp hc
  simp only [Bool.and_eq_true, decide_eq_true_eq] at hin
  rw [isDigit, digitValue?, Option.isSome_map, Option.isSome_eq_false_iff,
    Option.isNone_iff_eq_none, List.find?_eq_none]
  intro z hz hdigit
  simp only [Bool.and_eq_true, decide_eq_true_eq] at hdigit
  have := digitZeros_apart z hz r hr
  omega

/-- A run of characters that no blank belongs to stops before blanks at
the end. -/
theorem takeWhile_append_blanks {p : CodePoint → Bool} (hp : ∀ c, isBlank c = true → p c = false)
    (hw : ∀ c ∈ w, isBlank c = true) (cs : Text) :
    (cs ++ w).takeWhile p = cs.takeWhile p := by
  induction cs with
  | nil =>
      cases w with
      | nil => rfl
      | cons c w => simp [hp c (hw c (List.mem_cons_self ..))]
  | cons c cs ih => rw [List.cons_append, List.takeWhile_cons, List.takeWhile_cons, ih]

/-- What follows such a run keeps the blanks at the end, because a blank
stops the run if nothing before it does. -/
theorem dropWhile_append_blanks {p : CodePoint → Bool} (hp : ∀ c, isBlank c = true → p c = false)
    (hw : ∀ c ∈ w, isBlank c = true) (cs : Text) :
    (cs ++ w).dropWhile p = cs.dropWhile p ++ w := by
  induction cs with
  | nil =>
      cases w with
      | nil => rfl
      | cons c w => simp [hp c (hw c (List.mem_cons_self ..))]
  | cons c cs ih =>
      rw [List.cons_append, List.dropWhile_cons, List.dropWhile_cons, ih]
      split <;> rfl

/-- What stops a run does not belong to it. -/
theorem eq_false_of_dropWhile {p : CodePoint → Bool} {cs rest : Text} {c : CodePoint}
    (h : cs.dropWhile p = c :: rest) : p c = false := by
  have hstop := List.head?_dropWhile_not p cs
  rw [h] at hstop
  exact hstop

/-- A run that stops inside a text is the same whatever follows the
text. -/
theorem takeWhile_append_of_stop {p : CodePoint → Bool} {cs : Text} (h : cs.dropWhile p ≠ [])
    (w : Text) : (cs ++ w).takeWhile p = cs.takeWhile p := by
  rw [List.takeWhile_append, if_neg]
  intro hlength
  have hsplit : cs.takeWhile p ++ cs.dropWhile p = cs := List.takeWhile_append_dropWhile
  have := congrArg List.length hsplit
  rw [List.length_append] at this
  exact h (List.eq_nil_of_length_eq_zero (by omega))

theorem dropWhile_append_of_stop {p : CodePoint → Bool} {cs : Text} (h : cs.dropWhile p ≠ [])
    (w : Text) : (cs ++ w).dropWhile p = cs.dropWhile p ++ w := by
  rw [List.dropWhile_append, if_neg (by simpa using h)]

/-- Blanks and what stands after them stop a run that takes neither. -/
theorem takeWhile_blanks_cons {p : CodePoint → Bool} (hp : ∀ c, isBlank c = true → p c = false)
    (hw : ∀ c ∈ w, isBlank c = true) {d : CodePoint} (hd : p d = false) (rest : Text) :
    (w ++ d :: rest).takeWhile p = [] ∧ (w ++ d :: rest).dropWhile p = w ++ d :: rest := by
  cases w with
  | nil => simp [hd]
  | cons c w => simp [hp c (hw c (List.mem_cons_self ..))]

/-- The blanks in front of a text are taken off whole. -/
theorem takeWhile_isBlank_cons (hw : ∀ c ∈ w, isBlank c = true) {d : CodePoint}
    (hd : isBlank d = false) (rest : Text) :
    (w ++ d :: rest).takeWhile isBlank = w ∧ (w ++ d :: rest).dropWhile isBlank = d :: rest := by
  rw [List.takeWhile_append_of_pos hw, List.dropWhile_append_of_pos hw]
  simp [hd]

theorem takeWhile_append_dropBlanks (cs : Text) :
    cs.takeWhile isBlank ++ dropBlanks cs = cs :=
  List.takeWhile_append_dropWhile

/-- The blanks in front of a text and what follows them. -/
theorem exists_blanks (cs : Text) : ∃ gap, (∀ c ∈ gap, isBlank c = true) ∧
    cs = gap ++ dropBlanks cs ∧ ∀ c ∈ (dropBlanks cs).head?, isBlank c = false := by
  refine ⟨cs.takeWhile isBlank, fun c => List.mem_takeWhile_imp,
    (takeWhile_append_dropBlanks cs).symm, fun c hc => ?_⟩
  obtain ⟨rest, hrest⟩ := List.head?_eq_some_iff.mp hc
  exact eq_false_of_dropWhile hrest

-- ====================================================== trimmed texts

/-- What is in front of a text that starts with no blank starts with
none either. -/
theorem dropBlanks_of_isPrefix {cs ds : Text} (h : dropBlanks cs = cs) (hds : ds <+: cs) :
    dropBlanks ds = ds := by
  obtain ⟨rest, rfl⟩ := hds
  cases ds with
  | nil => rfl
  | cons c ds =>
      unfold dropBlanks at h ⊢
      rw [List.cons_append, List.dropWhile_cons] at h
      rw [List.dropWhile_cons]
      split at h
      · next hblank =>
        have hlength := congrArg List.length h
        have hle := List.length_dropWhile_le isBlank (ds ++ rest)
        rw [List.length_cons] at hlength
        omega
      · next hblank => rw [if_neg hblank]

/-- Past the blanks in front, a text is the trimmed text with blanks
after it. -/
theorem exists_trim_append (text : Text) :
    ∃ after : Text, (∀ c ∈ after, isBlank c = true) ∧ dropBlanks text = trim text ++ after := by
  refine ⟨((dropBlanks text).reverse.takeWhile isBlank).reverse,
    fun c hc => List.mem_takeWhile_imp (List.mem_reverse.mp hc), ?_⟩
  unfold trim
  rw [← List.reverse_append, takeWhile_append_dropBlanks, List.reverse_reverse]

/-- A text without blanks has nothing to trim, neither in front nor at
the end. -/
theorem trim_of_forall {text : Text} (h : ∀ c ∈ text, isBlank c = false) : trim text = text := by
  have hkept : ∀ cs : Text, (∀ c ∈ cs, isBlank c = false) → dropBlanks cs = cs := by
    intro cs hcs
    cases cs with
    | nil => rfl
    | cons c cs => exact List.dropWhile_cons_of_neg (by simp [hcs c (List.mem_cons_self ..)])
  unfold trim
  rw [hkept text h, hkept _ fun c hc => h c (List.mem_reverse.mp hc), List.reverse_reverse]

/-- A trimmed text has nothing to trim: what it starts and ends with is
no blank. -/
theorem trim_trim (text : Text) : trim (trim text) = trim text := by
  have hdrop : ∀ cs : Text, dropBlanks (dropBlanks cs) = dropBlanks cs :=
    fun cs => List.dropWhile_idempotent isBlank cs
  have hfront : dropBlanks (trim text) = trim text := by
    refine dropBlanks_of_isPrefix (hdrop text) ?_
    have hsuffix : dropBlanks (dropBlanks text).reverse <:+ (dropBlanks text).reverse :=
      List.dropWhile_suffix _
    have hstart := List.reverse_prefix.mpr hsuffix
    rwa [List.reverse_reverse] at hstart
  unfold trim at hfront ⊢
  rw [hfront, List.reverse_reverse, hdrop]

end Spreadsheet.Text

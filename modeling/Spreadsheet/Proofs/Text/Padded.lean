/-
Texts with blanks put in.

# A weak relation

`Padded cs ds` says that `ds` is `cs` with blanks put in anywhere, also in
the middle of a word. It is what is left of a spacing of tokens when the
tokens are not known yet: a reader that has not found where a word ends
cannot tell the blanks in it from the blanks behind it.

# What can be counted on

What a reader can still count on is little. A run without blanks in front of
`ds` stands in front of `cs` as well (`exists_of_append`), so putting in
blanks makes no new run. Past the blanks in front the two go on with the
same character (`head?_dropBlanks`), so a reader that looks one character
ahead, and passes over blanks, sees the same in both.
-/
import Spreadsheet.Proofs.Text.Blank

namespace Spreadsheet.Text

/-- The second text is the first with blanks put in. -/
inductive Padded : Text → Text → Prop where
  | nil : Padded [] []
  | keep {cs ds} (c : CodePoint) (h : Padded cs ds) : Padded (c :: cs) (c :: ds)
  | blank {cs ds b} (hb : isBlank b = true) (h : Padded cs ds) : Padded cs (b :: ds)

namespace Padded

variable {cs ds : Text}

theorem refl (cs : Text) : Padded cs cs := by
  induction cs with
  | nil => exact .nil
  | cons c cs ih => exact .keep c ih

theorem append (front : Text) (h : Padded cs ds) : Padded (front ++ cs) (front ++ ds) := by
  induction front with
  | nil => exact h
  | cons c front ih => exact .keep c ih

/-- Blanks in front of one text and more blanks in front of the
other. -/
theorem blanks_append {gap gap' : Text} (hgap : gap.Sublist gap')
    (hblank : ∀ c ∈ gap', isBlank c = true) (h : Padded cs ds) :
    Padded (gap ++ cs) (gap' ++ ds) := by
  induction hgap with
  | slnil => exact h
  | cons c hgap ih =>
      obtain ⟨hc, hblank⟩ := List.forall_mem_cons.mp hblank
      exact .blank hc (ih hblank)
  | cons_cons c hgap ih => exact .keep c (ih (List.forall_mem_cons.mp hblank).2)

/-- Nothing but blanks is added, so nothing else is in front. -/
theorem head?_cases (h : Padded cs ds) :
    ds.head? = cs.head? ∨ ∃ b rest, ds = b :: rest ∧ isBlank b = true := by
  cases h with
  | nil => exact .inl rfl
  | keep c h => exact .inl rfl
  | blank hb h => exact .inr ⟨_, _, rfl, hb⟩

/-- A run without blanks was there before any were put in, so it can be
split off on both sides. -/
theorem exists_of_append {run : Text} (hrun : ∀ c ∈ run, isBlank c = false)
    (h : Padded cs (run ++ ds)) : ∃ rest, cs = run ++ rest ∧ Padded rest ds := by
  induction run generalizing cs with
  | nil => exact ⟨cs, rfl, h⟩
  | cons c run ih =>
      obtain ⟨hc, hrun⟩ := List.forall_mem_cons.mp hrun
      cases h with
      | keep _ h =>
          obtain ⟨rest, rfl, hrest⟩ := ih hrun h
          exact ⟨rest, rfl, hrest⟩
      | blank hb h =>
          rw [hb] at hc
          cases hc

/-- Dropped in front, blanks leave what is behind them in its
relation. -/
theorem dropBlanks (h : Padded cs ds) : Padded (dropBlanks cs) (dropBlanks ds) := by
  unfold Text.dropBlanks
  induction h with
  | nil => exact .nil
  | keep c h ih =>
      rw [List.dropWhile_cons, List.dropWhile_cons]
      split
      · exact ih
      · exact .keep c h
  | blank hb h ih => rwa [List.dropWhile_cons_of_pos hb]

/-- Past the blanks in front, both texts go on with the same
character. -/
theorem head?_dropBlanks (h : Padded cs ds) :
    (Text.dropBlanks ds).head? = (Text.dropBlanks cs).head? := by
  refine h.dropBlanks.head?_cases.resolve_right ?_
  rintro ⟨b, rest, hb, hblank⟩
  rw [eq_false_of_dropWhile hb] at hblank
  cases hblank

/-- Blanks at the end count as put in. -/
theorem append_blanks {w : Text} (hw : ∀ c ∈ w, isBlank c = true) (h : Padded cs ds) :
    Padded cs (ds ++ w) := by
  induction h with
  | nil => simpa using nil.blanks_append (List.nil_sublist w) hw
  | keep c h ih => exact .keep c ih
  | blank hb h ih => exact .blank hb ih

/-- A text is the trimmed text with blanks put in. -/
theorem of_trim (text : Text) : Padded (trim text) text := by
  obtain ⟨after, hafter, hsplit⟩ := exists_trim_append text
  have hbefore : ∀ c ∈ text.takeWhile isBlank, isBlank c = true :=
    fun c => List.mem_takeWhile_imp
  have hpadded := ((refl (trim text)).append_blanks hafter).blanks_append
    (List.nil_sublist (text.takeWhile isBlank)) hbefore
  rwa [← hsplit, takeWhile_append_dropBlanks, List.nil_append] at hpadded

end Padded

end Spreadsheet.Text

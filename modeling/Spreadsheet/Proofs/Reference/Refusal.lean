/-
What the reader of references refuses.

# One reference

A text that is a reference is refused if the figures of its row are more
than are turned into a number (`LongRow`); every other text is answered, a
text that is no reference by nothing (`parse?_eq_none_iff`). The fault names
how many figures there are, zeros in front included.

# Ranges and lists

Ranges and lists of keys are read reference by reference, so they are
refused as the first reference is that is refused (`Range.LongRow`,
`sortKeys_eq_error_iff`). The halves of a range are both read, also where
the first of them is no reference, and a list is read to its end or to the
first fault, before anything is sorted.

# Nothing else is refused

What is no range has no cells and no shape, and keys without a place stand
behind the others (`trailing_of_sortKeys`). And whatever the reader gave is
short enough to be written back, so no key of an expanded range fails later
(`exists_nameable_of_expand`).
-/
import Spreadsheet.Proofs.Reference.Expansion

namespace Spreadsheet

variable {text letters figures first second : Text} {keys sorted : List Text} {fault : Fault}
  {n : Nat}

-- ====================================================== references

namespace Reference

/-- Letters and figures, and perhaps a line feed after them. -/
structure Parts (text letters figures : Text) : Prop where
  text_eq : text = letters ++ figures ∨ text = letters ++ figures ++ ("\n" : Text)
  letters_ne_nil : letters ≠ []
  figures_ne_nil : figures ≠ []
  letters : ∀ c ∈ letters, isLetter c = true
  figures : ∀ c ∈ figures, isFigure c = true

/-- The reader splits a text exactly into its parts: letters, then
figures, and a line feed at most behind them. -/
theorem split?_eq_some_iff : split? text = some (letters, figures) ↔ Parts text letters figures := by
  constructor
  · intro h
    obtain ⟨hletters, hfigures, hall, hall', htext⟩ := split?_eq_some h
    exact ⟨htext, hletters, hfigures, hall, hall'⟩
  · rintro ⟨rfl | rfl, hletters, hfigures, hall, hall'⟩
    · exact split?_append hletters hfigures hall hall'
    · rw [List.append_assoc]
      exact split?_append_tail hletters hfigures hall hall' (.inr rfl)

/-- A text that is a reference in some case. -/
def IsReference (text : Text) : Prop :=
  ∃ letters figures, Parts (Text.upper text) letters figures

theorem isReference_iff : IsReference text ↔ (split? (Text.upper text)).isSome = true := by
  rw [Option.isSome_iff_exists, Prod.exists]
  exact exists₂_congr fun letters figures => split?_eq_some_iff.symm

instance (text : Text) : Decidable (IsReference text) := decidable_of_iff _ isReference_iff.symm

/-- The text is read as this place. -/
def Names (text : Text) (place : Reference) : Prop :=
  parse? text = .ok (some place)

instance (text : Text) (place : Reference) : Decidable (Names text place) :=
  decidable_of_iff ((parse? text).toOption = some (some place)) toOption_eq_some

/-- A reference whose row has so many figures, more than are turned into
a number. -/
def LongRow (text : Text) (n : Nat) : Prop :=
  ∃ letters figures, Parts (Text.upper text) letters figures ∧ figures.length = n ∧
    Decimal.maxDigits < n

/-- Figures are turned into a number unless there are too many of
them. -/
theorem natOf_eq_error_iff :
    Fault.natOf figures = .error fault ↔
      Decimal.maxDigits < figures.length ∧ fault = .tooManyDigits figures.length := by
  unfold Fault.natOf Decimal.natOf
  split
  · next hlimit => exact iff_of_false nofun fun h => absurd h.1 (Nat.not_lt.mpr hlimit)
  · next hlimit =>
    constructor
    · intro h
      exact ⟨Nat.not_le.mp hlimit, (Except.error.inj h).symm⟩
    · rintro ⟨-, rfl⟩
      rfl

/-- A text is refused if it is a reference whose row is too long, and
for nothing else. -/
theorem parse?_eq_error_iff :
    parse? text = .error fault ↔ ∃ n, LongRow text n ∧ fault = .tooManyDigits n := by
  constructor
  · intro h
    unfold parse? at h
    split at h
    · cases h
    · next letters figures hsplit =>
      rcases bind_eq_error.mp h with h | ⟨row, -, h⟩
      · obtain ⟨hlong, rfl⟩ := natOf_eq_error_iff.mp h
        exact ⟨_, ⟨letters, figures, split?_eq_some_iff.mp hsplit, rfl, hlong⟩, rfl⟩
      · cases h
  · rintro ⟨n, ⟨letters, figures, hparts, rfl, hlong⟩, rfl⟩
    rw [parse?_of_split? (split?_eq_some_iff.mpr hparts), natOf_eq_error_iff.mpr ⟨hlong, rfl⟩]
    rfl

/-- A text is answered by nothing if it is no reference, and only then:
a reference has an answer or is refused. -/
theorem parse?_eq_none_iff : parse? text = .ok none ↔ ¬ IsReference text := by
  constructor
  · rintro h ⟨letters, figures, hparts⟩
    rw [parse?_of_split? (split?_eq_some_iff.mpr hparts)] at h
    cases hrow : Fault.natOf figures with
    | error fault =>
        rw [hrow] at h
        cases h
    | ok row =>
        rw [hrow] at h
        cases h
  · intro h
    unfold parse?
    split
    · rfl
    · next letters figures hsplit => exact absurd ⟨_, _, split?_eq_some_iff.mp hsplit⟩ h

theorem shortRow_iff : ShortRow text ↔ ∀ n, ¬ LongRow text n := by
  constructor
  · rintro h n ⟨letters, figures, hparts, rfl, hlong⟩
    exact absurd (h _ _ (split?_eq_some_iff.mpr hparts)) (Nat.not_le.mpr hlong)
  · intro h letters figures hsplit
    by_contra hlong
    exact h _ ⟨_, _, split?_eq_some_iff.mp hsplit, rfl, Nat.not_le.mp hlong⟩

end Reference

-- ====================================================== ranges

namespace Range

/-- Two halves around a colon of which the first has so long a row, or
the second if the first has a short one. -/
inductive LongRow (text : Text) (n : Nat) : Prop where
  | first {first second : Text} (h : Halves text first second)
      (hlong : Reference.LongRow (Text.trim first) n)
  | second {first second : Text} (h : Halves text first second)
      (hshort : ShortRow (Text.trim first)) (hlong : Reference.LongRow (Text.trim second) n)

/-- A range is refused as the first of its corners is that is
refused. -/
theorem parse?_eq_error_iff :
    parse? text = .error fault ↔ ∃ n, LongRow text n ∧ fault = .tooManyDigits n := by
  constructor
  · intro h
    unfold parse? at h
    split at h
    · cases h
    · next first second hcorners =>
      have hhalves := corners?_eq_some_iff.mp hcorners
      rcases bind_eq_error.mp h with h | ⟨a, ha, h⟩
      · obtain ⟨n, hlong, rfl⟩ := Reference.parse?_eq_error_iff.mp h
        exact ⟨n, .first hhalves hlong, rfl⟩
      · rcases bind_eq_error.mp h with h | ⟨b, -, h⟩
        · obtain ⟨n, hlong, rfl⟩ := Reference.parse?_eq_error_iff.mp h
          exact ⟨n, .second hhalves (placed_iff.mp ⟨a, ha⟩) hlong, rfl⟩
        · split at h
          · cases h
          · cases h
  · rintro ⟨n, hlong, rfl⟩
    unfold parse?
    cases hlong with
    | first h hlong =>
        simp only [corners?_eq_some_iff.mpr h, Reference.parse?_eq_error_iff.mpr ⟨n, hlong, rfl⟩]
        rfl
    | second h hshort hlong =>
        obtain ⟨a, ha⟩ := placed_iff.mpr hshort
        simp only [corners?_eq_some_iff.mpr h, ha,
          Reference.parse?_eq_error_iff.mpr ⟨n, hlong, rfl⟩]
        rfl

/-- An expansion is refused as the reading of its range is. -/
theorem expand_eq_error_iff :
    expand text = .error fault ↔ ∃ n, LongRow text n ∧ fault = .tooManyDigits n :=
  bind_pure_eq_error.trans parse?_eq_error_iff

theorem shape?_eq_error_iff :
    shape? text = .error fault ↔ ∃ n, LongRow text n ∧ fault = .tooManyDigits n :=
  bind_pure_eq_error.trans parse?_eq_error_iff

/-- Around a colon both rows are short if the range is not refused. -/
theorem shortRows_of_not_longRow (h : ∀ n, ¬ LongRow text n) (hhalves : Halves text first second) :
    ShortRow (Text.trim first) ∧ ShortRow (Text.trim second) := by
  have hfirst : ShortRow (Text.trim first) :=
    Reference.shortRow_iff.mpr fun n hlong => h n (.first hhalves hlong)
  exact ⟨hfirst, Reference.shortRow_iff.mpr fun n hlong => h n (.second hhalves hfirst hlong)⟩

/-- The rows of the keys that a range is expanded to are short enough to
be written. -/
theorem exists_nameable_of_expand {cells : List Text} (h : expand text = .ok cells) {key : Text}
    (hkey : key ∈ cells) : ∃ place : Reference, place.Nameable ∧ key = place.key := by
  obtain ⟨r, hr, h⟩ := bind_eq_ok.mp h
  cases h
  cases r with
  | none => cases hkey
  | some r => exact exists_nameable_of_mem_cells hr hkey

end Range

-- ====================================================== lists of keys

/-- Keys are refused as the first of them is that is refused. Those
before it were placed, and those behind it are not looked at. -/
theorem sortKeys_eq_error_iff : sortKeys keys = .error fault ↔
    ∃ key n, ReachedIn ShortRow keys key ∧ Reference.LongRow key n ∧ fault = .tooManyDigits n := by
  have hshort : ∀ key : Text, (∃ found, (do return (key, ← Reference.parse? key))
      = (.ok found : Except Fault (Text × Option Reference))) ↔ ShortRow key := by
    intro key
    rw [← placed_iff]
    constructor
    · intro ⟨found, hfound⟩
      obtain ⟨place, hplace, -⟩ := bind_eq_ok.mp hfound
      exact ⟨place, hplace⟩
    · intro ⟨place, hplace⟩
      exact ⟨(key, place), by rw [hplace]; rfl⟩
  unfold sortKeys sortByPlace
  refine bind_pure_eq_error.trans (mapM_eq_error.trans ?_)
  refine exists_congr fun key => ?_
  rw [reachedIn_congr hshort, bind_pure_eq_error, Reference.parse?_eq_error_iff, exists_and_left]

/-- The keys without a place are those that are no references, as they
came. -/
theorem unplaced_of_mapM {found : List (Text × Option Reference)}
    (h : keys.mapM (fun key => return (key, ← Reference.parse? key)) = .ok found) :
    (found.filterMap fun (key, place) => if place.isNone then some key else none)
      = keys.filter fun key => ¬ Reference.IsReference key := by
  have hforall := mapM_eq_ok.mp h
  clear h
  induction hforall with
  | nil => rfl
  | @cons key _ _ _ hitem _ ih =>
      obtain ⟨place, hplace, hpair⟩ := bind_eq_ok.mp hitem
      cases hpair
      cases place with
      | none =>
          rw [List.filter_cons_of_pos (by simpa using Reference.parse?_eq_none_iff.mp hplace), ← ih]
          rfl
      | some place =>
          have hreference : Reference.IsReference key := by
            by_contra hnone
            rw [Reference.parse?_eq_none_iff.mpr hnone] at hplace
            cases hplace
          rw [List.filter_cons_of_neg (by simpa using hreference), ← ih]
          rfl

/-- Sorted keys are the references, and after them what is no reference,
as it came. -/
theorem trailing_of_sortKeys (h : sortKeys keys = .ok sorted) :
    ∃ placed : List Text,
      sorted = placed ++ keys.filter (fun key => ¬ Reference.IsReference key) ∧
        placed.Perm (keys.filter fun key => Reference.IsReference key) := by
  have hperm := perm_of_sortKeys h
  obtain ⟨found, hfound, h⟩ := bind_eq_ok.mp h
  cases h
  rw [unplaced_of_mapM hfound] at hperm ⊢
  refine ⟨_, rfl, (List.perm_append_right_iff _).mp (hperm.trans ?_)⟩
  have hsplit := List.filter_append_perm (fun key => decide (Reference.IsReference key)) keys
  simpa using hsplit.symm

/-- A reference is refused if its row is too long, a range if one of its
corners is refused, and a list of keys if one of its keys is; each
refusal names the figures of the first such row. Every other text and
list is answered: what is no reference by nothing, what is no range by
no cells and no shape, and keys that are no references stand behind the
others as they came. The rows of an expanded range are short enough to
be written. -/
theorem refused_iff_long_row (text : Text) (keys : List Text) :
    ((∀ fault, Reference.parse? text = .error fault ↔
        ∃ n, Reference.LongRow text n ∧ fault = .tooManyDigits n) ∧
      (Reference.parse? text = .ok none ↔ ¬ Reference.IsReference text)) ∧
    ((∀ fault, Range.expand text = .error fault ↔
        ∃ n, Range.LongRow text n ∧ fault = .tooManyDigits n) ∧
      (∀ fault, Range.shape? text = .error fault ↔
        ∃ n, Range.LongRow text n ∧ fault = .tooManyDigits n) ∧
      ((∀ n, ¬ Range.LongRow text n) → (¬ ∃ a b, Range.Corners text a b) →
        Range.expand text = .ok [] ∧ Range.shape? text = .ok none) ∧
      ∀ cells, Range.expand text = .ok cells → ∀ key ∈ cells,
        ∃ place : Reference, place.Nameable ∧ key = place.key) ∧
    (∀ fault, sortKeys keys = .error fault ↔ ∃ key n, ReachedIn ShortRow keys key ∧
      Reference.LongRow key n ∧ fault = .tooManyDigits n) ∧
    ∀ sorted, sortKeys keys = .ok sorted → ∃ placed : List Text,
      sorted = placed ++ keys.filter (fun key => ¬ Reference.IsReference key) ∧
        placed.Perm (keys.filter fun key => Reference.IsReference key) := by
  refine ⟨⟨fun _ => Reference.parse?_eq_error_iff, Reference.parse?_eq_none_iff⟩,
    ⟨fun _ => Range.expand_eq_error_iff, fun _ => Range.shape?_eq_error_iff, ?_,
      fun _ h _ => Range.exists_nameable_of_expand h⟩,
    fun _ => sortKeys_eq_error_iff, fun _ => trailing_of_sortKeys⟩
  intro hlong hcorners
  have hnone := Range.parse?_of_not_corners hcorners fun first second =>
    Range.shortRows_of_not_longRow hlong
  unfold Range.expand Range.shape?
  rw [hnone]
  exact ⟨rfl, rfl⟩

/-- A cell in column A whose row is one figure too long. -/
def farBelow : Text := Text.ofChars ('A' :: List.replicate 4301 '1')

/-- The cell far below is refused, and a list of keys is with it. -/
theorem far_below_refused :
    Reference.parse? farBelow = .error (.tooManyDigits 4301) ∧
      sortKeys [farBelow, "B2"] = .error (.tooManyDigits 4301) := by
  have hfigures : ∀ c ∈ Text.ofChars (List.replicate 4301 '1'), Reference.isFigure c = true := by
    intro c hc
    obtain ⟨d, hd, rfl⟩ := List.mem_map.mp hc
    rw [List.eq_of_mem_replicate hd]
    decide
  have hlength : (Text.ofChars (List.replicate 4301 '1')).length = 4301 := by
    rw [Text.ofChars, List.length_map, List.length_replicate]
  have hupper : Text.upper farBelow = farBelow := by
    refine Text.upper_ofChars fun c hc => Reference.upperChar_of_key ?_
    rcases List.mem_cons.mp hc with rfl | hc
    · exact .inl (by decide)
    · rw [List.eq_of_mem_replicate hc]
      exact .inr (by decide)
  have hparts : Reference.Parts farBelow "A" (Text.ofChars (List.replicate 4301 '1')) := {
    text_eq := .inl (by rfl)
    letters_ne_nil := by decide
    figures_ne_nil := fun h => by
      rw [h] at hlength
      cases hlength
    letters := by decide
    figures := hfigures }
  have hlong : Reference.LongRow farBelow 4301 :=
    ⟨_, _, hupper.symm ▸ hparts, hlength, by decide⟩
  exact ⟨Reference.parse?_eq_error_iff.mpr ⟨_, hlong, rfl⟩,
    sortKeys_eq_error_iff.mpr ⟨_, _, .here, hlong, rfl⟩⟩

end Spreadsheet

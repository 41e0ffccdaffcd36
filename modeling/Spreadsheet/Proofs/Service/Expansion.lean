/-
When a range that is posted gets expanded.

Three things decide the answer: the body must be a JSON object that is not
too large, the text of the range must pass its field, and in upper case it
must have two sides around one colon that name cells (`Expandable`). The
answer then lists the keys of the rectangle between the two.

# Nothing else goes wrong

The form reads the two sides as they stand, but the expansion trims them
first and reads them again, and reading a reference can fail: a row with
too many figures is no number. So it has to be said that trimming makes no
row longer. Every figure of a text that is a reference belongs to its row,
and so does every figure of a part of it (`shortRow_trim`). The expansion of
a range that the form has let through therefore always succeeds
(`exists_expand`).

# What a client is told

The endpoint catches what it finds wrong itself and nothing else. A body
that is too large is found by the layer below, so it is answered with the
status alone; every other answer has a body (`expand_answers`).
-/
import Spreadsheet.Proofs.Reference.Refusal
import Spreadsheet.Proofs.Service.Request

namespace Spreadsheet

open Reference (IsReference Parts isFigure isLetter)

variable {text letters figures : Text}

-- ====================================================== rows and blanks

/-- The figures of a reference are those of its row: no letter is one,
nor is a line feed. -/
theorem Reference.Parts.countP_figures (h : Parts text letters figures) :
    text.countP isFigure = figures.length := by
  have hletters : letters.countP isFigure = 0 := by
    apply List.countP_eq_zero.mpr
    intro c hc hfigure
    have hlow := isLetter_iff.mp (h.letters c hc)
    have hhigh := isFigure_iff.mp hfigure
    omega
  have hfigures : figures.countP isFigure = figures.length :=
    List.countP_eq_length.mpr h.figures
  have hfeed : ("\n" : Text).countP isFigure = 0 := by decide
  obtain heq | heq := h.text_eq
  · rw [heq, List.countP_append, hletters, hfigures, Nat.zero_add]
  · rw [heq, List.countP_append, List.countP_append, hletters, hfigures, hfeed, Nat.zero_add,
      Nat.add_zero]

/-- What is left of a reference without the blanks around it has no
longer row. -/
theorem shortRow_trim (hreference : IsReference text) (hshort : ShortRow text) :
    ShortRow (Text.trim text) := by
  intro letters' figures' hsplit
  obtain ⟨letters, figures, hparts⟩ := hreference
  have hlimit := hshort letters figures (Reference.split?_eq_some_iff.mpr hparts)
  have hparts' := Reference.split?_eq_some_iff.mp hsplit
  obtain ⟨after, -, hafter⟩ := Text.exists_trim_append text
  have htext : text = text.takeWhile Text.isBlank ++ (Text.trim text ++ after) := by
    rw [← hafter]
    exact (List.takeWhile_append_dropWhile ..).symm
  have hupper : (Text.upper text).countP isFigure
      = (Text.upper (text.takeWhile Text.isBlank)).countP isFigure
        + ((Text.upper (Text.trim text)).countP isFigure
          + (Text.upper after).countP isFigure) := by
    rw [← List.countP_append, ← List.countP_append]
    unfold Text.upper
    rw [← List.flatMap_append, ← List.flatMap_append, ← htext]
  rw [hparts.countP_figures, hparts'.countP_figures] at hupper
  omega

/-- A side that is read as it stands is read without the blanks around
it too. -/
theorem exists_parse?_trim {place : Reference} (h : Reference.parse? text = .ok (some place)) :
    ∃ found, Reference.parse? (Text.trim text) = .ok found := by
  have hreference : IsReference text := by
    by_contra hnot
    rw [Reference.parse?_eq_none_iff.mpr hnot] at h
    cases h
  exact placed_iff.mpr (shortRow_trim hreference (placed_iff.mp ⟨_, h⟩))

namespace Service

variable {configuration : Configuration} {body : String} {fields : Entries Json} {range : Text}

-- ====================================================== ranges

/-- A range whose two sides name cells as they stand has cells: neither
side has a row that is too long, so the range can be read. -/
theorem exists_expand (h : isRangeText range = true) : ∃ keys, Range.expand range = .ok keys := by
  unfold isRangeText at h
  unfold Range.expand Range.parse?
  cases hcorners : Range.corners? range with
  | none =>
      rw [hcorners] at h
      cases h
  | some sides =>
      obtain ⟨first, second⟩ := sides
      rw [hcorners] at h
      -- each side is read once more, without the blanks around it
      obtain ⟨hfirst, hsecond⟩ := Bool.and_eq_true_iff.mp h
      obtain ⟨_, hfirst⟩ := namesCell_iff.mp hfirst
      obtain ⟨_, hsecond⟩ := namesCell_iff.mp hsecond
      obtain ⟨a, ha⟩ := exists_parse?_trim hfirst
      obtain ⟨b, hb⟩ := exists_parse?_trim hsecond
      dsimp only
      rw [ha, hb]
      cases a with
      | none => exact ⟨_, rfl⟩
      | some a =>
          cases b with
          | none => exact ⟨_, rfl⟩
          | some b => exact ⟨_, rfl⟩

/-- The text given for the range, without blanks around it. -/
def givenRange (fields : Entries Json) : Text :=
  Text.trim (given fields "range")

/-- Fields that an expansion accepts. -/
structure Expandable (fields : Entries Json) : Prop where
  range_given : givenRange fields ≠ []
  range_short : (givenRange fields).length ≤ 64
  range_plain : .char '\x00' ∉ givenRange fields
  range_named : isRangeText (Text.upper (givenRange fields)) = true

theorem cleanRange_eq_ok :
    cleanRange text = .ok range ↔
      range = Text.upper (Text.trim text) ∧ isRangeText range = true := by
  unfold cleanRange
  dsimp only
  constructor
  · intro h
    split at h
    · next hrange =>
      cases h
      exact ⟨rfl, hrange⟩
    · cases h
  · intro h
    obtain ⟨rfl, hrange⟩ := h
    rw [if_pos hrange]

/-- The form of an expansion takes the text of the range and nothing
else into account. -/
theorem rangeForm_eq_ok :
    rangeForm fields = .ok range ↔
      range = Text.upper (givenRange fields) ∧ Expandable fields := by
  unfold rangeForm cleanField
  rw [mapError_eq_ok, bind_eq_ok]
  simp only [Field.clean_eq_ok, cleanRange_eq_ok]
  rw [textOf_eq_given ⟨"range", true, true, some 64⟩ fields]
  have htrim : Text.trim (givenRange fields) = givenRange fields := Text.trim_trim _
  constructor
  · intro h
    obtain ⟨text, ⟨rfl, htakes⟩, hrange, hnamed⟩ := h
    rw [if_pos rfl] at htakes hrange
    change range = Text.upper (Text.trim (givenRange fields)) at hrange
    rw [htrim] at hrange
    subst hrange
    exact ⟨rfl, htakes.given rfl, htakes.short 64 rfl, htakes.plain, hnamed⟩
  · intro h
    obtain ⟨rfl, hexpandable⟩ := h
    refine ⟨givenRange fields, ⟨rfl, fun _ => hexpandable.range_given, ?_,
      hexpandable.range_plain⟩, by rw [htrim], hexpandable.range_named⟩
    intro limit hlimit
    cases hlimit
    exact hexpandable.range_short

-- ====================================================== answers

/-- What an expansion answers with. -/
def expanded (keys : List Text) : Json :=
  .object [("success", .bool true), ("cells", .array (keys.map .string))]

/-- An expansion has a result exactly when its fields are accepted, and
the result lists the cells between the corners. -/
theorem expandRange_eq_ok {json : Json} :
    expandRange fields = .ok json ↔ Expandable fields ∧
      ∃ keys, Range.expand (Text.upper (givenRange fields)) = .ok keys ∧ json = expanded keys := by
  unfold expandRange
  constructor
  · intro h
    obtain ⟨range, hform, hrest⟩ := bind_eq_ok.mp h
    obtain ⟨rfl, hexpandable⟩ := rangeForm_eq_ok.mp hform
    obtain ⟨keys, hkeys, hanswer⟩ := bind_eq_ok.mp hrest
    exact ⟨hexpandable, keys, mapError_eq_ok.mp hkeys, (Except.ok.inj hanswer).symm⟩
  · intro h
    obtain ⟨hexpandable, keys, hkeys, rfl⟩ := h
    refine bind_eq_ok.mpr ⟨_, rangeForm_eq_ok.mpr ⟨rfl, hexpandable⟩, ?_⟩
    exact bind_eq_ok.mpr ⟨keys, mapError_eq_ok.mpr hkeys, rfl⟩

/-- What a body that is not too large is refused for is reported, as the
client is told what is wrong with it. -/
theorem isReported_of_payload {refusal : Refusal} (hsize : ¬ bodyLimit < body.utf8ByteSize)
    (h : payload body = .error refusal) : refusal.isReported = true := by
  unfold payload at h
  rw [if_neg hsize] at h
  change (if body.isEmpty then _ else _) = _ at h
  split at h
  · cases h
  · obtain h | ⟨text, -, h⟩ := bind_eq_error.mp h
    · obtain ⟨cause, -, rfl⟩ := mapError_eq_error.mp h
      rfl
    · obtain h | ⟨json, -, h⟩ := bind_eq_error.mp h
      · obtain ⟨stop, -, rfl⟩ := mapError_eq_error.mp h
        rfl
      · cases json with
        | object fields => cases h
        | _ =>
            cases h
            rfl

/-- What an expansion is refused for is reported: the complaints of its
form, and nothing after that, since what the form lets through has
cells. -/
theorem isReported_of_expandRange {refusal : Refusal} (h : expandRange fields = .error refusal) :
    refusal.isReported = true := by
  unfold expandRange at h
  obtain h | ⟨range, hform, h⟩ := bind_eq_error.mp h
  · obtain ⟨complaints, -, rfl⟩ := mapError_eq_error.mp h
    rfl
  · obtain ⟨rfl, hexpandable⟩ := rangeForm_eq_ok.mp hform
    obtain ⟨keys, hkeys⟩ := exists_expand hexpandable.range_named
    obtain h | ⟨_, -, h⟩ := bind_eq_error.mp h
    · obtain ⟨fault, hfault, -⟩ := mapError_eq_error.mp h
      rw [hkeys] at hfault
      cases hfault
    · cases h

/-- A posted expansion is answered with status 200 exactly when the body
is a JSON object or empty and not too large, and the range is given, is
short enough, has no null character and names a cell on either side of
its colon; the answer then lists the keys of its cells. Every other one
is answered with status 400, and with a reason unless the body is too
large. -/
theorem expand_answers (configuration : Configuration) (body : String) :
    (∀ json, answer configuration "POST" "/expand-range/" body = ⟨200, some json⟩ ↔
      ∃ fields keys, Carries body fields ∧ Expandable fields ∧
        Range.expand (Text.upper (givenRange fields)) = .ok keys ∧ json = expanded keys) ∧
    ((answer configuration "POST" "/expand-range/" body).status = 200 ↔
      ∃ fields, Carries body fields ∧ Expandable fields) ∧
    ((answer configuration "POST" "/expand-range/" body).status ≠ 200 →
      (answer configuration "POST" "/expand-range/" body).status = 400 ∧
      ((answer configuration "POST" "/expand-range/" body).body = none ↔
        bodyLimit < body.utf8ByteSize)) := by
  have hrun : endpoint? "/expand-range/" = some ⟨fun _ => expandRange, false⟩ := rfl
  have hok : ∀ json, answer configuration "POST" "/expand-range/" body = ⟨200, some json⟩ ↔
      ∃ fields keys, Carries body fields ∧ Expandable fields ∧
        Range.expand (Text.upper (givenRange fields)) = .ok keys ∧ json = expanded keys := by
    intro json
    rw [answer_posted_eq_ok hrun]
    simp only [expandRange_eq_ok, exists_and_left]
  refine ⟨hok, ?_, ?_⟩
  · constructor
    · intro hstatus
      rw [answer_posted hrun] at hstatus
      split at hstatus
      · next json hjson =>
        obtain ⟨fields, hfields, hexpand⟩ := bind_eq_ok.mp hjson
        exact ⟨fields, payload_eq_ok.mp hfields, (expandRange_eq_ok.mp hexpand).1⟩
      · cases hstatus
    · intro h
      obtain ⟨fields, hcarries, hexpandable⟩ := h
      obtain ⟨keys, hkeys⟩ := exists_expand hexpandable.range_named
      rw [(hok _).mpr ⟨fields, keys, hcarries, hexpandable, hkeys, rfl⟩]
  · intro hstatus
    rw [answer_posted hrun] at hstatus ⊢
    cases hanswer : payload body >>= fun fields => expandRange fields with
    | ok json =>
        rw [hanswer] at hstatus
        exact absurd rfl hstatus
    | error refusal =>
        -- a body that is too large has no report, and every other refusal has one
        refine ⟨rfl, ?_⟩
        by_cases hsize : bodyLimit < body.utf8ByteSize
        · rw [payload_of_large hsize] at hanswer
          cases hanswer
          exact iff_of_true rfl hsize
        · have hreported : refusal.isReported = true := by
            obtain h | ⟨fields, -, h⟩ := bind_eq_error.mp hanswer
            · exact isReported_of_payload hsize h
            · exact isReported_of_expandRange h
          refine iff_of_false ?_ hsize
          show (if false || refusal.isReported then some refusal.toJson else none) ≠ none
          rw [hreported, Bool.or_true, if_pos rfl]
          exact Option.some_ne_none _

end Service

end Spreadsheet

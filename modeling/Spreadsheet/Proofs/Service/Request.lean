/-
What a request must carry.

# Bodies

A body carries the fields of a JSON object, and is no larger than the
service takes (`Carries`). An empty body stands for the object without
fields. The size is asked for first, in bytes, so a body that is too large
is refused whatever it holds (`payload_of_large`).

# Fields

A field is clean when its text is (`Field.clean_eq_ok`): it is there if it
has to be, it is not too long, and it has no null character. The text of a
value that is none is what the value is printed as, so a number may stand
for a text. Cells make a store when each of them is a text or an object
(`Store.exists_ofJson_iff`).

# Answers

A posted request is answered with status 200 when its endpoint has a result,
and with status 400 when it refuses; every refusal says that there was no
success (`answer_posted`). So what remains for each endpoint is to say for
which fields it has a result, and which (`answer_posted_status`).
-/
import Spreadsheet.Proofs.Outcome
import Spreadsheet.Proofs.Text.Blank
import Spreadsheet.Service.Endpoint

namespace Spreadsheet

-- ====================================================== cells

/-- What a cell can be made of: content as it is typed, or an object
with its parts. -/
def Json.IsCell : Json → Prop
  | .string _ => True
  | .object _ => True
  | _ => False

/-- What a store can be made of: nothing, or an object of cells. -/
def Json.AreCells : Json → Prop
  | .null => True
  | .object fields => ∀ field ∈ fields, field.2.IsCell
  | _ => False

/-- A cell is made of a text or of an object, and of nothing else. -/
theorem Cell.exists_ofJson_iff {json : Json} : (∃ cell, ofJson json = .ok cell) ↔ json.IsCell := by
  cases json with
  | string raw => exact ⟨fun _ => trivial, fun _ => ⟨_, rfl⟩⟩
  | object fields => exact ⟨fun _ => trivial, fun _ => ⟨_, rfl⟩⟩
  | _ => exact ⟨nofun, nofun⟩

/-- Cells make a store exactly when there are none, or each of them is a
text or an object. -/
theorem Store.exists_ofJson_iff {json : Json} :
    (∃ store, ofJson json = .ok store) ↔ json.AreCells := by
  cases json with
  | null => exact ⟨fun _ => trivial, fun _ => ⟨empty, rfl⟩⟩
  | object fields =>
      show (∃ store, ofFields fields = .ok store) ↔ ∀ field ∈ fields, field.2.IsCell
      unfold ofFields
      simp only [← Cell.exists_ofJson_iff]
      constructor
      · rintro ⟨store, hstore⟩
        exact foldlM_each (fun _ _ _ hstep => (bind_eq_ok.mp hstep).imp fun _ => And.left) hstore
      · intro hcells
        refine foldlM_ok (fun store field hfield => ?_) empty
        obtain ⟨cell, hcell⟩ := hcells field hfield
        exact ⟨_, bind_eq_ok.mpr ⟨cell, hcell, rfl⟩⟩
  | _ => exact ⟨nofun, nofun⟩

namespace Service

variable {configuration : Configuration} {body : String} {fields : Entries Json}

-- ====================================================== the body

/-- A body is a JSON object with some fields; an empty body stands for
the one that has none. -/
def Holds (body : String) (fields : Entries Json) : Prop :=
  body = "" ∧ fields = [] ∨
    body ≠ "" ∧ ∃ text, bodyText body = .ok text ∧ Json.parse text = .ok (.object fields)

/-- A body carries some fields: it is a JSON object with these fields,
and it is not larger than the service takes. -/
structure Carries (body : String) (fields : Entries Json) : Prop where
  size : body.utf8ByteSize ≤ bodyLimit
  holds : Holds body fields

/-- A body that is too large is refused, whatever it holds. -/
theorem payload_of_large (h : bodyLimit < body.utf8ByteSize) : payload body = .error .tooLarge := by
  unfold payload
  rw [if_pos h]
  rfl

/-- A body that is not too large gives the fields of the object that it
is. -/
theorem payload_of_small (h : body.utf8ByteSize ≤ bodyLimit) :
    payload body = .ok fields ↔ Holds body fields := by
  unfold payload Holds
  rw [if_neg (Nat.not_lt.mpr h)]
  show (if body.isEmpty then _ else _) = _ ↔ _
  by_cases hbody : body = ""
  · subst hbody
    rw [if_pos (String.isEmpty_iff.mpr rfl)]
    constructor
    · intro h
      cases h
      exact .inl ⟨rfl, rfl⟩
    · intro h
      obtain ⟨-, rfl⟩ | ⟨hne, -⟩ := h
      · rfl
      · exact absurd rfl hne
  · rw [if_neg fun hempty => hbody (String.isEmpty_iff.mp hempty)]
    constructor
    · intro h
      obtain ⟨text, htext, h⟩ := bind_eq_ok.mp h
      obtain ⟨json, hjson, h⟩ := bind_eq_ok.mp h
      cases json with
      | object found =>
          cases h
          exact .inr ⟨hbody, text, mapError_eq_ok.mp htext, mapError_eq_ok.mp hjson⟩
      | _ => cases h
    · intro h
      obtain ⟨heq, -⟩ | ⟨-, text, htext, hjson⟩ := h
      · exact absurd heq hbody
      · refine bind_eq_ok.mpr ⟨text, mapError_eq_ok.mpr htext, ?_⟩
        exact bind_eq_ok.mpr ⟨_, mapError_eq_ok.mpr hjson, rfl⟩

/-- The payload of a request is made of the fields that its body
carries, and of nothing else. -/
theorem payload_eq_ok : payload body = .ok fields ↔ Carries body fields := by
  by_cases hsize : body.utf8ByteSize ≤ bodyLimit
  · rw [payload_of_small hsize]
    exact ⟨fun hholds => ⟨hsize, hholds⟩, Carries.holds⟩
  · rw [payload_of_large (Nat.not_le.mp hsize)]
    exact iff_of_false nofun fun hcarries => hsize hcarries.size

-- ====================================================== fields

/-- The text given for a field; none where the field is missing or as
good as missing. -/
def given (fields : Entries Json) (name : Text) : Text :=
  let value := (fields.find? name).getD .null
  if Field.isBlankValue value then [] else value.plain

/-- The cells of a payload, or null. -/
def givenCells (fields : Entries Json) : Json :=
  (fields.find? "cells").getD .null

/-- A text that a field takes. -/
structure Field.Takes (field : Field) (text : Text) : Prop where
  given : field.required = true → text ≠ []
  short : ∀ limit, field.maxLength = some limit → text.length ≤ limit
  plain : .char '\x00' ∉ text

/-- A field has nothing to complain of if its text is short and
plain. -/
theorem Field.complaints_eq_nil {field : Field} {text : Text} :
    field.complaints text = [] ↔
      (∀ limit, field.maxLength = some limit → text.length ≤ limit) ∧ .char '\x00' ∉ text := by
  unfold complaints
  rw [List.append_eq_nil_iff]
  refine and_congr ?_ ?_
  · cases field.maxLength with
    | none => exact ⟨fun _ => nofun, fun _ => rfl⟩
    | some limit =>
        simp only [ite_eq_right_iff, List.cons_ne_nil, imp_false, Nat.not_lt, Option.some.injEq,
          forall_eq']
  · simp only [List.contains_eq_mem, decide_eq_true_eq, ite_eq_right_iff, List.cons_ne_nil,
      imp_false]

/-- A field is clean when it takes its text, and the text is what comes
of it. -/
theorem Field.clean_eq_ok {field : Field} {value : Json} {text : Text} :
    field.clean value = .ok text ↔ text = field.textOf value ∧ field.Takes text := by
  unfold clean
  generalize field.textOf value = found
  dsimp only
  by_cases hempty : found = []
  · subst hempty
    rw [if_pos List.isEmpty_nil]
    cases hrequired : field.required with
    | true =>
        constructor
        · nofun
        · rintro ⟨rfl, htakes⟩
          exact absurd rfl (htakes.given hrequired)
    | false =>
        constructor
        · intro h
          cases h
          refine ⟨rfl, fun h => ?_, fun _ _ => Nat.zero_le _, nofun⟩
          rw [hrequired] at h
          cases h
        · rintro ⟨rfl, -⟩
          rfl
  · rw [if_neg (by simpa using hempty)]
    have htakes : field.Takes found ↔ field.complaints found = [] := by
      rw [complaints_eq_nil]
      exact ⟨fun h => ⟨h.short, h.plain⟩, fun h => ⟨fun _ => hempty, h.1, h.2⟩⟩
    constructor
    · intro h
      split at h
      · next hnone =>
        cases h
        exact ⟨rfl, htakes.mpr hnone⟩
      · cases h
    · rintro ⟨rfl, h⟩
      rw [htakes.mp h]

/-- The text of a field is what is given for it, trimmed if the field
asks for that. -/
theorem textOf_eq_given (field : Field) (fields : Entries Json) :
    field.textOf ((fields.find? field.name).getD .null)
      = if field.trimmed then Text.trim (given fields field.name) else given fields field.name := by
  unfold Field.textOf given
  dsimp only
  by_cases hblank : Field.isBlankValue ((fields.find? field.name).getD .null) = true
  · rw [if_pos hblank, if_pos hblank]
    cases field.trimmed <;> rfl
  · rw [if_neg hblank, if_neg hblank]

/-- A text names a cell if it is read as a place. The form asks this by
looking for a place, whatever that place is. -/
theorem namesCell_iff {text : Text} :
    namesCell text = true ↔ ∃ place, Reference.parse? text = .ok (some place) := by
  unfold namesCell
  split
  · next place hplace => exact iff_of_true rfl ⟨place, hplace⟩
  · next hnone =>
    refine iff_of_false Bool.false_ne_true fun h => ?_
    obtain ⟨place, hplace⟩ := h
    exact hnone place hplace

/-- A key is clean if it names a cell, in upper case and without
blanks. -/
theorem cleanKey_eq_ok {text key : Text} :
    cleanKey text = .ok key ↔
      key = Text.upper (Text.trim text) ∧ ∃ place, Reference.parse? key = .ok (some place) := by
  rw [← namesCell_iff]
  unfold cleanKey
  dsimp only
  by_cases hnames : namesCell (Text.upper (Text.trim text)) = true
  · rw [if_pos hnames, Except.ok.injEq]
    exact ⟨fun h => ⟨h.symm, h ▸ hnames⟩, fun h => h.1.symm⟩
  · rw [if_neg hnames]
    refine iff_of_false (fun h => by cases h) fun h => hnames ?_
    exact h.1 ▸ h.2

-- ====================================================== answers

/-- Every refusal says that there was no success. -/
theorem Refusal.get_success (refusal : Refusal) : refusal.toJson.get "success" = .bool false := by
  cases refusal <;> rfl

variable {path : String} {endpoint : Endpoint}

/-- A posted request is answered with what its endpoint makes of the
payload, or with the refusal of the endpoint. -/
theorem answer_posted (h : endpoint? path = some endpoint) (configuration : Configuration)
    (body : String) :
    answer configuration "POST" path body
      = match payload body >>= endpoint.run configuration with
        | .ok json => ⟨200, some json⟩
        | .error refusal => endpoint.refuse refusal := by
  unfold answer
  rw [h]
  exact if_neg (fun hmethod => hmethod rfl)

/-- Status 200 goes with what an endpoint makes of the fields that the
body carries. -/
theorem answer_posted_eq_ok (h : endpoint? path = some endpoint) {json : Json} :
    answer configuration "POST" path body = ⟨200, some json⟩ ↔
      ∃ fields, Carries body fields ∧ endpoint.run configuration fields = .ok json := by
  rw [answer_posted h, ← exists_congr fun _ => and_congr_left' payload_eq_ok, ← bind_eq_ok]
  split
  · next found hfound => simp [hfound]
  · next refusal hrefusal => simp [hrefusal, Endpoint.refuse]

/-- A posted request is answered with status 200 and success, or with
status 400 and without, if its endpoint explains every refusal, and if
whatever it makes of the fields says that there was success. Status 200
goes with fields that the endpoint makes something of. -/
theorem answer_posted_status (h : endpoint? path = some endpoint)
    (hexplains : endpoint.explainsAll = true)
    (hsuccess : ∀ fields json, endpoint.run configuration fields = .ok json →
      json.get "success" = .bool true) :
    (∃ json, answer configuration "POST" path body = ⟨200, some json⟩ ∧
        json.get "success" = .bool true ∨
      answer configuration "POST" path body = ⟨400, some json⟩ ∧
        json.get "success" = .bool false) ∧
    ((answer configuration "POST" path body).status = 200 ↔
      ∃ fields, Carries body fields ∧ ∃ json, endpoint.run configuration fields = .ok json) := by
  rw [answer_posted h]
  split
  · next json hjson =>
    obtain ⟨fields, hfields, hrun⟩ := bind_eq_ok.mp hjson
    exact ⟨⟨json, .inl ⟨rfl, hsuccess fields json hrun⟩⟩,
      fun _ => ⟨fields, payload_eq_ok.mp hfields, json, hrun⟩, fun _ => rfl⟩
  · next refusal hrefusal =>
    have hrefuse : endpoint.refuse refusal = ⟨400, some refusal.toJson⟩ := by
      unfold Endpoint.refuse
      rw [hexplains, Bool.true_or, if_pos rfl]
    rw [hrefuse]
    refine ⟨⟨_, .inr ⟨rfl, refusal.get_success⟩⟩, nofun, ?_⟩
    intro hcarried
    obtain ⟨fields, hfields, json, hrun⟩ := hcarried
    cases hrefusal.symm.trans (bind_eq_ok.mpr ⟨fields, payload_eq_ok.mpr hfields, hrun⟩)

/-- A posted request whose body is too large is refused for that,
whatever the body holds. -/
theorem answer_large (h : endpoint? path = some endpoint) (hsize : bodyLimit < body.utf8ByteSize) :
    answer configuration "POST" path body = endpoint.refuse .tooLarge := by
  rw [answer_posted h, payload_of_large hsize]
  rfl

end Service

end Spreadsheet

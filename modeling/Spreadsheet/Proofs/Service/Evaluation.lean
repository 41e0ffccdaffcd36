/-
When a formula that is posted gets evaluated.

# The layers

Five layers may refuse the request, each for its own reason: the body must
not be too large, it must be a JSON object, the formula and the key must
pass their fields, the key must name a cell, and the cells must make a
store. `Carries` covers the first two, and `Evaluable` says of the fields
of the object what the other three want. Nothing else decides the answer:
a request that passes all five is answered with what the formula shows
against the cells, errors of the formula included, and every other one with
status 400 (`evaluate_answers`).

# The size of the body

The limit is a decision of the service and no property of JSON. A body that
an evaluation would accept and that is followed by ten megabytes of blanks
holds the same object as before, but is refused
(`evaluate_refuses_large`). The blanks are never looked at, so what is
proved here is proved for any number of them (`holds_padded`,
`utf8ByteSize_padded`).
-/
import Mathlib
import Spreadsheet.Proofs.Service.Request

namespace Spreadsheet.Service

variable {configuration : Configuration} {body : String} {fields : Entries Json}
  {formula key : Text} {store : Store}

/-- The text given for the key, without blanks around it. -/
def givenKey (fields : Entries Json) : Text :=
  Text.trim (given fields "cell_id")

/-- Fields that an evaluation accepts. -/
structure Evaluable (fields : Entries Json) : Prop where
  formula_plain : .char '\x00' ∉ given fields "formula"
  key_given : givenKey fields ≠ []
  key_short : (givenKey fields).length ≤ 16
  key_plain : .char '\x00' ∉ givenKey fields
  key_reference : ∃ place, Reference.parse? (Text.upper (givenKey fields)) = .ok (some place)
  cells : (givenCells fields).AreCells

/-- What an evaluation answers with: the key in upper case, and what the
formula shows. -/
def evaluated (configuration : Configuration) (fields : Entries Json) (store : Store) : Json :=
  .object [("success", .bool true), ("cell_id", .string (Text.upper (givenKey fields))),
    ("result", (Eval.evaluateText (Environment.ofStore store configuration.settings)
      (given fields "formula")).toJson)]

/-- The form of an evaluation takes its two fields and nothing else into
account. -/
theorem evaluateForm_eq_ok :
    evaluateForm fields = .ok (formula, key) ↔
      cleanField fields ⟨"formula", false, false, none⟩ = .ok formula ∧
      (do cleanKey (← cleanField fields ⟨"cell_id", true, true, some 16⟩)) = .ok key := by
  unfold evaluateForm
  dsimp only
  constructor
  · intro h
    split at h
    · next formula' key' hformula hkey =>
      cases h
      exact ⟨hformula, hkey⟩
    · cases h
  · rintro ⟨hformula, hkey⟩
    rw [hformula, hkey]

/-- Of the formula it is only asked that it has no null character. It
may be missing, and then it is empty. -/
theorem cleanFormula_eq_ok :
    cleanField fields ⟨"formula", false, false, none⟩ = .ok formula ↔
      formula = given fields "formula" ∧ .char '\x00' ∉ given fields "formula" := by
  unfold cleanField
  rw [Field.clean_eq_ok, textOf_eq_given]
  constructor
  · rintro ⟨rfl, htakes⟩
    exact ⟨rfl, htakes.plain⟩
  · rintro ⟨rfl, hplain⟩
    exact ⟨rfl, nofun, nofun, hplain⟩

theorem cleanCellId_eq_ok :
    (do cleanKey (← cleanField fields ⟨"cell_id", true, true, some 16⟩)) = .ok key ↔
      key = Text.upper (givenKey fields) ∧ givenKey fields ≠ [] ∧ (givenKey fields).length ≤ 16 ∧
      .char '\x00' ∉ givenKey fields ∧
      ∃ place, Reference.parse? (Text.upper (givenKey fields)) = .ok (some place) := by
  unfold cleanField
  rw [bind_eq_ok]
  simp only [Field.clean_eq_ok, cleanKey_eq_ok]
  rw [textOf_eq_given ⟨"cell_id", true, true, some 16⟩ fields]
  have htrim : Text.trim (givenKey fields) = givenKey fields := Text.trim_trim _
  constructor
  · rintro ⟨text, ⟨rfl, htakes⟩, hkey, hplace⟩
    rw [if_pos rfl] at htakes hkey
    change key = Text.upper (Text.trim (givenKey fields)) at hkey
    rw [htrim] at hkey
    subst hkey
    exact ⟨rfl, htakes.given rfl, htakes.short 16 rfl, htakes.plain, hplace⟩
  · rintro ⟨rfl, hgiven, hshort, hplain, hplace⟩
    refine ⟨givenKey fields, ⟨rfl, fun _ => hgiven, ?_, hplain⟩, by rw [htrim], hplace⟩
    rintro limit ⟨⟩
    exact hshort

/-- An evaluation has a result exactly when its fields are accepted and
its cells make a store. -/
theorem evaluate_eq_ok {json : Json} :
    evaluate configuration fields = .ok json ↔
      Evaluable fields ∧ ∃ store, Store.ofJson (givenCells fields) = .ok store ∧
        json = evaluated configuration fields store := by
  unfold evaluate
  constructor
  · intro h
    obtain ⟨⟨formula, key⟩, hform, h⟩ := bind_eq_ok.mp h
    obtain ⟨store, hstore, h⟩ := bind_eq_ok.mp h
    obtain ⟨hformula, hkey⟩ := evaluateForm_eq_ok.mp hform
    obtain ⟨rfl, hplain⟩ := cleanFormula_eq_ok.mp hformula
    obtain ⟨rfl, hgiven, hshort, hplainKey, hplace⟩ := cleanCellId_eq_ok.mp hkey
    have hcells := mapError_eq_ok.mp hstore
    cases h
    exact ⟨⟨hplain, hgiven, hshort, hplainKey, hplace, Store.exists_ofJson_iff.mp ⟨store, hcells⟩⟩,
      store, hcells, rfl⟩
  · rintro ⟨hfields, store, hstore, rfl⟩
    refine bind_eq_ok.mpr ⟨(given fields "formula", Text.upper (givenKey fields)), ?_, ?_⟩
    · refine evaluateForm_eq_ok.mpr ⟨cleanFormula_eq_ok.mpr ⟨rfl, hfields.formula_plain⟩, ?_⟩
      exact cleanCellId_eq_ok.mpr
        ⟨rfl, hfields.key_given, hfields.key_short, hfields.key_plain, hfields.key_reference⟩
    · exact bind_eq_ok.mpr ⟨store, mapError_eq_ok.mpr hstore, rfl⟩

theorem evaluate_success {json : Json} (h : evaluate configuration fields = .ok json) :
    json.get "success" = .bool true := by
  obtain ⟨-, store, -, rfl⟩ := evaluate_eq_ok.mp h
  rfl

-- ====================================================== large bodies

/-- The body `{"cell_id": "A1"}` of an evaluation, with some blanks
after it. -/
def padded (blanks : Nat) : String :=
  "\x7b\"cell_id\": \"A1\"\x7d" ++ String.ofList (List.replicate blanks ' ')

/-- A padded body as the parser reads it. -/
def paddedText (blanks : Nat) : Text :=
  Text.ofString "\x7b\"cell_id\": \"A1\"\x7d" ++ List.replicate blanks (.char ' ')

theorem utf8ByteSize_blanks (blanks : Nat) :
    (String.ofList (List.replicate blanks ' ')).utf8ByteSize = blanks := by
  induction blanks with
  | zero => rfl
  | succ blanks ih =>
      rw [List.replicate_succ, ← List.singleton_append, String.ofList_append,
        String.utf8ByteSize_append, ih]
      show 1 + blanks = blanks + 1
      exact Nat.add_comm 1 blanks

/-- Each blank adds one byte to the size of the body. -/
theorem utf8ByteSize_padded (blanks : Nat) : (padded blanks).utf8ByteSize = 17 + blanks := by
  unfold padded
  rw [String.utf8ByteSize_append, utf8ByteSize_blanks]
  rfl

/-- The encoding of a padded body is told by its first four bytes,
before any of the blanks. -/
theorem bodyText_padded (blanks : Nat) : bodyText (padded blanks) = .ok (paddedText blanks) := by
  have hbytes : ∃ rest, (padded blanks).toUTF8.data.toList.map (·.toNat)
      = 123 :: 34 :: 99 :: 101 :: rest := by
    have hfront : ("\x7b\"cell_id\": \"A1\"\x7d" : String).toUTF8.data.toList.map (·.toNat)
        = [123, 34, 99, 101, 108, 108, 95, 105, 100, 34, 58, 32, 34, 65, 49, 34, 125] := by
      decide
    refine ⟨[108, 108, 95, 105, 100, 34, 58, 32, 34, 65, 49, 34, 125]
      ++ (String.ofList (List.replicate blanks ' ')).toUTF8.data.toList.map (·.toNat), ?_⟩
    unfold padded
    show ((_ ++ _ : String).toByteArray).data.toList.map _ = _
    rw [String.toByteArray_append, ByteArray.toList_data_append, List.map_append]
    show _ ++ _ = _
    exact congrArg (· ++ _) hfront
  obtain ⟨rest, hrest⟩ := hbytes
  have hblanks : (String.ofList (List.replicate blanks ' ')).toList = List.replicate blanks ' ' :=
    String.toList_ofList
  have hchars : (padded blanks).toList
      = '\x7b' :: ("\"cell_id\": \"A1\"\x7d".toList ++ List.replicate blanks ' ') := by
    unfold padded
    rw [String.toList_append, hblanks]
    rfl
  unfold bodyText
  dsimp only
  rw [hrest, hchars]
  show Except.ok (Text.ofChars _) = _
  unfold Text.ofChars
  rw [List.map_cons, List.map_append, List.map_replicate]
  rfl

/-- Blanks after the object do not matter to the parser, however many
they are; only the limit on the body counts them. -/
theorem parse_paddedText (blanks : Nat) :
    Json.parse (paddedText blanks) = .ok (.object [("cell_id", .string "A1")]) := by
  -- the object itself takes three steps, whatever follows it
  have hvalue : ∀ fuel rest, Json.value (fuel + 3)
      (Text.ofString "\x7b\"cell_id\": \"A1\"\x7d" ++ rest)
        = .ok (.object [("cell_id", .string "A1")], rest) := by
    intro fuel rest
    cbv
  have hfront : Json.skipBlanks (paddedText blanks) = paddedText blanks := by
    unfold paddedText
    cbv
  have hback : Json.skipBlanks (List.replicate blanks (.char ' ')) = [] := by
    apply List.dropWhile_eq_nil_iff.mpr
    intro c hc
    rw [List.eq_of_mem_replicate hc]
    decide
  have hfuel : (paddedText blanks).length + 1 = (blanks + 15) + 3 := by
    have hlength : (Text.ofString "\x7b\"cell_id\": \"A1\"\x7d").length = 17 := by decide
    unfold paddedText
    rw [List.length_append, List.length_replicate, hlength]
    omega
  unfold Json.parse
  rw [hfront, hfuel]
  unfold paddedText
  rw [hvalue]
  dsimp only [bind, Except.bind]
  rw [hback]
  rfl

/-- A padded body holds the fields that it has without the blanks. -/
theorem holds_padded (blanks : Nat) : Holds (padded blanks) [("cell_id", .string "A1")] := by
  have hne : padded blanks ≠ "" := by
    intro h
    have hsize := utf8ByteSize_padded blanks
    rw [h] at hsize
    change 0 = _ at hsize
    omega
  exact .inr ⟨hne, paddedText blanks, bodyText_padded blanks, parse_paddedText blanks⟩

theorem evaluable_key : Evaluable [("cell_id", .string "A1")] := by
  refine ⟨?_, ?_, ?_, ?_, ⟨⟨0, 0⟩, ?_⟩, trivial⟩
  · decide
  · decide
  · decide
  · decide
  · rfl

-- ====================================================== the answer

/-- A posted evaluation is answered with status 200 and success, or with
status 400 and without. It succeeds exactly when the body is not too
large and is a JSON object or empty, the formula has no null character,
the key is not empty, not too long, has no null character and names a
cell, and the cells are missing or an object of texts and objects; the
answer is then the key in upper case and what the formula shows. -/
theorem evaluate_answers (configuration : Configuration) (body : String) :
    (∃ json, answer configuration "POST" "/evaluate/" body = ⟨200, some json⟩ ∧
        json.get "success" = .bool true ∨
      answer configuration "POST" "/evaluate/" body = ⟨400, some json⟩ ∧
        json.get "success" = .bool false) ∧
    ((answer configuration "POST" "/evaluate/" body).status = 200 ↔
      ∃ fields, Carries body fields ∧ Evaluable fields) ∧
    ∀ json, answer configuration "POST" "/evaluate/" body = ⟨200, some json⟩ ↔
      ∃ fields store, Carries body fields ∧ Evaluable fields ∧
        Store.ofJson (givenCells fields) = .ok store ∧
        json = evaluated configuration fields store := by
  have hrun : endpoint? "/evaluate/" = some ⟨evaluate, true⟩ := rfl
  obtain ⟨hcases, hstatus⟩ := answer_posted_status hrun rfl fun _ _ => evaluate_success
  refine ⟨hcases, hstatus.trans (exists_congr fun fields => and_congr_right fun _ => ?_),
    fun json => ?_⟩
  · simp only [evaluate_eq_ok]
    constructor
    · rintro ⟨-, hfields, -⟩
      exact hfields
    · intro hfields
      obtain ⟨store, hstore⟩ := Store.exists_ofJson_iff.mpr hfields.cells
      exact ⟨_, hfields, store, hstore, rfl⟩
  · rw [answer_posted_eq_ok hrun]
    simp only [evaluate_eq_ok, exists_and_left]

/-- An evaluation whose body is an object with acceptable fields, but
larger than the service takes, is refused. -/
theorem evaluate_refuses_large :
    (∃ fields, Holds (padded 10485760) fields ∧ Evaluable fields) ∧
    answer ⟨{ now := default }, 20⟩ "POST" "/evaluate/" (padded 10485760)
      = ⟨400, some Refusal.tooLarge.toJson⟩ := by
  have hsize : bodyLimit < (padded 10485760).utf8ByteSize := by
    rw [utf8ByteSize_padded]
    decide
  refine ⟨⟨_, holds_padded _, evaluable_key⟩, ?_⟩
  have hrun : endpoint? "/evaluate/" = some ⟨evaluate, true⟩ := rfl
  rw [answer_large hrun hsize]
  rfl

end Spreadsheet.Service

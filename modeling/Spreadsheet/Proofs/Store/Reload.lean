/-
Stores that are written out and read back.

# What comes back

A client that keeps the cells it was given and sends them again gets the
store that it had: the same keys in the same order, and under each the same
cell (`ofJson_toFields`).

# Cells and keys of a client

Not every cell can be told from its parts: a formula that is an empty text
would come back as none, and a display that is no text as a text. A cell
that came from a client can (`Cell.Received`), because it has been through
the same reading once, and reading what was read changes nothing
(`ofJson_toJson_ofJson`). The keys of a store that came from a client are in
upper case already, so none of them moves and no two of them meet
(`Store.Received`). Both are kept by what a client can do to a store.

# The induction

The fields are read one after another into a store that grows. The induction
is over the fields that are left (`foldlM_toJson`), and carries that what
has been read is the part of the store before them.
-/
import Spreadsheet.Proofs.Outcome
import Spreadsheet.Proofs.Text.Upper
import Spreadsheet.Store

namespace Spreadsheet

-- ====================================================== cells

/-- A content that was read from a payload is read back from what is
sent of it. -/
theorem Content.ofJson_toJson_ofJson (json : Json) : ofJson (ofJson json).toJson = ofJson json := by
  cases json <;> rfl

theorem Content.isVoid_ofJson (json : Json) : (ofJson json).isVoid = json.isVoid := by
  cases json <;> rfl

namespace Cell

/-- A cell as it comes from a client: its formula is no empty value, and
is a text if it can be one, and its display is a text. -/
structure Received (cell : Cell) : Prop where
  formula : ∀ formula, cell.formula = some formula →
    formula.isVoid = false ∧ Content.ofJson formula.toJson = formula
  display : ∀ display, cell.display = some display → ∃ s, display = .text s

theorem received_ofInput (raw : Text) : (ofInput raw).Received := by
  unfold ofInput
  split
  · next hhead =>
    refine ⟨fun formula hformula => ?_, nofun⟩
    cases hformula
    refine ⟨?_, rfl⟩
    cases raw with
    | nil => cases hhead
    | cons c cs => rfl
  · exact ⟨nofun, nofun⟩

/-- What is read from a payload is as it comes from a client: by then an
empty formula has been dropped, and a display is a text. -/
theorem received_ofJson {json : Json} {cell : Cell} (h : ofJson json = .ok cell) :
    cell.Received := by
  cases json with
  | string raw =>
      cases h
      exact received_ofInput raw
  | object fields =>
      cases h
      refine ⟨fun formula hformula => ?_, fun display hdisplay => ?_⟩
      · dsimp only at hformula
        split at hformula
        · cases hformula
        · next hvoid =>
          cases hformula
          exact ⟨by rw [Content.isVoid_ofJson]; simpa using hvoid, Content.ofJson_toJson_ofJson _⟩
      · dsimp only at hdisplay
        split at hdisplay
        · cases hdisplay
        · cases hdisplay
          exact ⟨_, rfl⟩
  | _ => cases h

/-- A cell that came from a client is read back from its parts. Parts
that are not there are left out when it is written, and read as not
there. -/
theorem Received.ofJson_toJson {cell : Cell} (h : cell.Received) :
    ofJson cell.toJson = .ok cell := by
  obtain ⟨value, formula, display⟩ := cell
  obtain ⟨hformula, hdisplay⟩ := h
  cases formula with
  | none =>
      cases display with
      | none => rfl
      | some display =>
          obtain ⟨s, rfl⟩ := hdisplay display rfl
          rfl
  | some formula =>
      obtain ⟨hvoid, hformula⟩ := hformula formula rfl
      have hholds : ∀ display, hasFormula ⟨value, some formula, display⟩ = true := fun _ => by
        simp [hasFormula, hvoid]
      -- the formula is not empty, so it is taken as it was written
      have hsent : (if formula.toJson.isVoid then none else some (Content.ofJson formula.toJson))
          = some formula := by
        rw [hformula, ← Content.isVoid_ofJson, hformula, hvoid]
        rfl
      cases display with
      | none =>
          have hparts : toJson ⟨value, some formula, none⟩
              = .object [("value", .string value), ("formula", formula.toJson)] := by
            simp [toJson, hholds]
          rw [hparts]
          exact congrArg (fun formula => Except.ok (Cell.mk value formula none)) hsent
      | some display =>
          obtain ⟨s, rfl⟩ := hdisplay display rfl
          have hparts : toJson ⟨value, some formula, some (.text s)⟩
              = .object [("value", .string value), ("formula", formula.toJson),
                ("displayValue", .string s)] := by
            simp [toJson, hholds, Content.toJson]
          rw [hparts]
          exact congrArg (fun formula => Except.ok (Cell.mk value formula (some (.text s)))) hsent

end Cell

-- ====================================================== stores

/-- A new name is entered behind all others. -/
theorem Entries.put_of_notMem {α : Type} {entries : Entries α} {name : Text}
    (h : name ∉ entries.names) (value : α) :
    entries.put name value = entries ++ [(name, value)] := by
  induction entries with
  | nil => rfl
  | cons e rest ih =>
      obtain ⟨n, v⟩ := e
      obtain ⟨hn, hrest⟩ := not_or.mp fun hmem => h (List.mem_cons.mpr hmem)
      rw [Entries.put, if_neg (Ne.symm hn), ih hrest]
      rfl

namespace Store

/-- A store as it comes from a client: its keys are in upper case, and
its cells came from the client too. -/
structure Received (store : Store) : Prop where
  keys : ∀ entry ∈ store.entries, Text.upper entry.1 = entry.1
  cells : ∀ entry ∈ store.entries, entry.2.Received

theorem received_empty : empty.Received := ⟨nofun, nofun⟩

theorem Received.put {store : Store} (h : store.Received) (name : Text) {cell : Cell}
    (hcell : cell.Received) : (store.put (Text.upper name) cell).Received where
  keys entry hentry := by
    rcases Entries.mem_put hentry with rfl | hentry
    · exact Text.upper_upper name
    · exact h.keys entry hentry
  cells entry hentry := by
    rcases Entries.mem_put hentry with rfl | hentry
    · exact hcell
    · exact h.cells entry hentry

/-- A store that is read from a payload is as it comes from a client,
its keys in upper case and each of its cells received. -/
theorem received_ofJson {payload : Json} {store : Store} (h : ofJson payload = .ok store) :
    store.Received := by
  cases payload with
  | null =>
      cases h
      exact received_empty
  | object fields =>
      refine foldlM_keeps (p := Received) (fun before field after hstep hbefore => ?_) h
        received_empty
      obtain ⟨cell, hcell, hstep⟩ := bind_eq_ok.mp hstep
      cases hstep
      exact hbefore.put field.1 (Cell.received_ofJson hcell)
  | _ => cases h

/-- Entries whose keys are new are read back after those that are
there. -/
theorem foldlM_toJson {entries : Entries Cell}
    (hkeys : ∀ entry ∈ entries, Text.upper entry.1 = entry.1)
    (hcells : ∀ entry ∈ entries, entry.2.Received) (store : Store)
    (hdistinct : (store.entries ++ entries).names.Nodup) :
    ∃ result, (entries.map fun entry => (entry.1, entry.2.toJson)).foldlM
        (fun store field => return store.put (Text.upper field.1) (← Cell.ofJson field.2)) store
      = (.ok result : Except Fault Store) ∧ result.entries = store.entries ++ entries := by
  induction entries generalizing store with
  | nil => exact ⟨store, rfl, (List.append_nil _).symm⟩
  | cons e rest ih =>
      obtain ⟨key, cell⟩ := e
      have hkey : Text.upper key = key := hkeys _ (List.mem_cons_self ..)
      have hcell : Cell.ofJson cell.toJson = .ok cell :=
        (hcells _ (List.mem_cons_self ..)).ofJson_toJson
      have hput : (store.put key cell).entries = store.entries ++ [(key, cell)] := by
        refine Entries.put_of_notMem (fun hmem => ?_) cell
        rw [Entries.names, List.map_append] at hdistinct
        exact (List.nodup_append.mp hdistinct).2.2 key hmem key (List.mem_cons_self ..) rfl
      obtain ⟨result, hresult, hentries⟩ := ih
        (fun entry hentry => hkeys entry (List.mem_cons_of_mem _ hentry))
        (fun entry hentry => hcells entry (List.mem_cons_of_mem _ hentry)) (store.put key cell) (by
          rw [hput, List.append_assoc]
          exact hdistinct)
      refine ⟨result, ?_, by rw [hentries, hput, List.append_assoc]; rfl⟩
      rw [List.map_cons, List.foldlM_cons, hkey, hcell]
      exact hresult

/-- The cells that a client gets, sent again as they are, make the store
from which they came. -/
theorem ofJson_toFields {payload : Json} {store : Store} (h : ofJson payload = .ok store) :
    ofJson (.object store.toFields) = .ok store := by
  have hreceived := received_ofJson h
  obtain ⟨result, hresult, hentries⟩ := foldlM_toJson hreceived.keys hreceived.cells empty
    store.distinct
  have hsame : result = store := by
    obtain ⟨entries, distinct⟩ := result
    obtain ⟨entries', distinct'⟩ := store
    obtain rfl : entries = entries' := hentries
    rfl
  rw [hsame] at hresult
  exact hresult

/-- Two spellings of one key, a display under its other name, values
that are no texts, and a formula that is none. -/
theorem ofJson_toFields_collision :
    let payload : Json := .object [
      ("ß1", .string "gone"),
      ("a1", .object [("value", .bool true), ("formula", .array [.null]),
        ("display_value", .integer 7)]),
      ("SS1", .object [("value", .null), ("formula", .string "=A1"), ("displayValue", .null),
        ("display_value", .string "8")]),
      ("b1", .string "=A1")]
    ∃ store, ofJson payload = .ok store ∧ store.entries.names = ["SS1", "A1", "B1"] ∧
      store.find? "A1" = some ⟨"True", some (.other (.array [.null])), some (.text "7")⟩ ∧
      store.find? "SS1" = some ⟨[], some (.text "=A1"), none⟩ ∧
      ofJson (.object store.toFields) = .ok store := by
  intro payload
  have hstore : ∃ store, ofJson payload = .ok store ∧ store.entries.names = ["SS1", "A1", "B1"] ∧
      store.find? "A1" = some ⟨"True", some (.other (.array [.null])), some (.text "7")⟩ ∧
      store.find? "SS1" = some ⟨[], some (.text "=A1"), none⟩ :=
    ⟨_, rfl, by decide +kernel, rfl, rfl⟩
  obtain ⟨store, hstore, hnames, hA, hSS⟩ := hstore
  exact ⟨store, hstore, hnames, hA, hSS, ofJson_toFields hstore⟩

end Store

end Spreadsheet

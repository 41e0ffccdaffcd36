/-
Stores: the cells of a sheet by key.

# Keys

Keys are in upper case and stand once, in the order in which they were first
given. A key that is not there reads as an empty cell. A key need not be a
reference: a client may name a cell as it likes, and formulas cannot read
such a cell.

# What stands under a key

A store is known by what stands under each key, apart from the order of its
entries. Putting a cell changes what stands under one key and nothing else
(`find?_put`), which is all that proofs about stores need.

# Exchange

A client sends a store as an object, whose fields are put one after another;
of two keys that are the same in upper case the later cell stays, in the
place of the first.
-/
import Spreadsheet.Cell
import Spreadsheet.Text.Case

namespace Spreadsheet

/-- The cells of a sheet. -/
structure Store where
  entries : Entries Cell
  distinct : entries.names.Nodup

namespace Store

def empty : Store := ⟨[], List.nodup_nil⟩

instance : Inhabited Store := ⟨empty⟩

/-- The cell under a key, if there is one. -/
def find? (store : Store) (key : Text) : Option Cell :=
  store.entries.find? key

/-- The store with a cell put under a key. -/
def put (store : Store) (key : Text) (cell : Cell) : Store :=
  ⟨store.entries.put key cell, Entries.nodup_names_put store.distinct key cell⟩

/-- The store with another display for a cell, if the cell is there. -/
def setDisplay (store : Store) (key : Text) (display : Option Content) : Store :=
  match store.find? key with
  | some cell => store.put key { cell with display }
  | none => store

/-- What formulas read under a key. -/
def shown (store : Store) (key : Text) : Content :=
  match store.find? key with
  | some cell => cell.shown
  | none => .text []

/-- Does a key hold a formula? -/
def hasFormula (store : Store) (key : Text) : Bool :=
  match store.find? key with
  | some cell => cell.hasFormula
  | none => false

-- ====================================================== exchange with clients

/-- The cells of a client's object, put one after another under their
keys in upper case. -/
def ofFields (fields : Entries Json) : Except Fault Store :=
  fields.foldlM (fun store (key, json) => return store.put (Text.upper key) (← Cell.ofJson json))
    empty

/-- The store a client sent; null is the empty store. -/
def ofJson : Json → Except Fault Store
  | .null => .ok empty
  | .object fields => ofFields fields
  | _ => .error .cellsNotObject

/-- The cells as a client reads them. -/
def toFields (store : Store) : Entries Json :=
  store.entries.map fun (key, cell) => (key, cell.toJson)

-- ====================================================== what stands under a key

variable {store : Store} {key : Text}

/-- Putting a cell changes what stands under its key and nothing
else. -/
theorem find?_put (store : Store) (key : Text) (cell : Cell) (k : Text) :
    (store.put key cell).find? k = if k = key then some cell else store.find? k :=
  Entries.find?_put ..

theorem find?_put_self (store : Store) (key : Text) (cell : Cell) :
    (store.put key cell).find? key = some cell := by
  rw [find?_put, if_pos rfl]

theorem find?_put_of_ne {k : Text} (h : k ≠ key) (cell : Cell) :
    (store.put key cell).find? k = store.find? k := by
  rw [find?_put, if_neg h]

theorem mem_entries {cell : Cell} : (key, cell) ∈ store.entries ↔ store.find? key = some cell :=
  Entries.mem_iff_find? store.distinct

theorem shown_congr {s t : Store} (h : s.find? key = t.find? key) : s.shown key = t.shown key := by
  unfold shown
  rw [h]

theorem hasFormula_iff : store.hasFormula key = true ↔
    ∃ cell, store.find? key = some cell ∧ cell.hasFormula = true := by
  unfold hasFormula
  cases store.find? key with
  | none => simp
  | some cell => simp

/-- Stores are told apart by their keys, in order, and what stands under
these. -/
theorem eq_of_find? {s t : Store} (hnames : s.entries.names = t.entries.names)
    (hfind : ∀ key, s.find? key = t.find? key) : s = t := by
  obtain ⟨entries, distinct⟩ := s
  obtain ⟨entries', distinct'⟩ := t
  obtain rfl : entries = entries' := Entries.eq_of_find? distinct hnames fun key _ => hfind key
  rfl

theorem names_put_of_find? {cell : Cell} (h : store.find? key = some cell) (other : Cell) :
    (store.put key other).entries.names = store.entries.names :=
  Entries.names_put_of_mem (Entries.mem_names_iff.mpr ⟨cell, h⟩) other

/-- Putting the cell that stands there already changes nothing. -/
theorem put_eq_self {cell : Cell} (h : store.find? key = some cell) :
    store.put key cell = store := by
  refine eq_of_find? (names_put_of_find? h cell) fun k => ?_
  by_cases hk : k = key
  · rw [hk, find?_put_self, h]
  · rw [find?_put_of_ne hk]

theorem find?_setDisplay (store : Store) (key : Text) (display : Option Content) (k : Text) :
    (store.setDisplay key display).find? k
      = if k = key then (store.find? key).map ({ · with display }) else store.find? k := by
  unfold setDisplay
  cases h : store.find? key with
  | none =>
      by_cases hk : k = key
      · rw [if_pos hk, hk]
        exact h
      · rw [if_neg hk]
  | some cell => exact find?_put ..

theorem names_setDisplay (store : Store) (key : Text) (display : Option Content) :
    (store.setDisplay key display).entries.names = store.entries.names := by
  unfold setDisplay
  cases h : store.find? key with
  | none => rfl
  | some cell => exact names_put_of_find? h _

end Store

end Spreadsheet

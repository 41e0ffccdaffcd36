/-
Named entries in the order in which they were first given.

# Every name once

Every name stands once, as long as entries are only ever added by `put`: a
name that is there already keeps its place and gets the new value. So
entries are a table and a list at once. As a table they are known by what
stands under each name (`find?`), as a list by the order of their names.

# How they are used

The cells of a store, the fields of a JSON object, the reads of a graph and
the counts of an order of evaluation are all kept as entries. Proofs about
them go by `find?_put`, and entries are equal if their names are, in order,
and the values under these (`eq_of_find?`).
-/
import Spreadsheet.Text.Basic

namespace Spreadsheet

/-- Values under names, in order. -/
abbrev Entries (α : Type u) := List (Text × α)

namespace Entries

variable {α : Type u}

/-- The names, in order. -/
def names (entries : Entries α) : List Text :=
  entries.map (·.1)

/-- The value under a name, if there is one. -/
def find? (entries : Entries α) (name : Text) : Option α :=
  entries.lookup name

/-- The entries with a value put under a name. -/
def put (entries : Entries α) (name : Text) (value : α) : Entries α :=
  match entries with
  | [] => [(name, value)]
  | (n, v) :: rest => if n = name then (n, value) :: rest else (n, v) :: put rest name value

/-- Entries put one after another. -/
def ofPairs (pairs : List (Text × α)) : Entries α :=
  pairs.foldl (fun entries p => put entries p.1 p.2) []

-- ====================================================== the names of entries

theorem mem_names_put {entries : Entries α} {name m : Text} {value : α} :
    m ∈ names (put entries name value) ↔ m = name ∨ m ∈ names entries := by
  induction entries with
  | nil => simp [put, names]
  | cons e rest ih =>
    obtain ⟨n, v⟩ := e
    by_cases h : n = name
    · subst h; simp [put, names]
    · simp only [put, if_neg h]
      simp only [names, List.map_cons, List.mem_cons] at ih ⊢
      rw [ih]
      constructor <;> rintro (h | h | h) <;> simp [h]

/-- Putting an entry keeps the names distinct. -/
theorem nodup_names_put {entries : Entries α} (h : (names entries).Nodup) (name : Text)
    (value : α) : (names (put entries name value)).Nodup := by
  induction entries with
  | nil => simp [put, names]
  | cons e rest ih =>
    obtain ⟨n, v⟩ := e
    have hrest : (names rest).Nodup := (List.nodup_cons.mp h).2
    have hn : n ∉ names rest := (List.nodup_cons.mp h).1
    by_cases hname : n = name
    · simpa [put, names, hname] using h
    · simp only [put, if_neg hname]
      refine List.nodup_cons.mpr ⟨fun hmem => ?_, ih hrest⟩
      rcases mem_names_put.mp hmem with hm | hm
      · exact hname hm
      · exact hn hm

/-- An entry after a put is the new one or was there before. -/
theorem mem_put {entries : Entries α} {name : Text} {value : α} {entry : Text × α}
    (h : entry ∈ put entries name value) : entry = (name, value) ∨ entry ∈ entries := by
  induction entries with
  | nil => simpa [put] using h
  | cons e rest ih =>
    obtain ⟨n, v⟩ := e
    by_cases hn : n = name
    · simp only [put, if_pos hn] at h
      rcases List.mem_cons.mp h with h | h
      · exact .inl (by rw [h, hn])
      · exact .inr (List.mem_cons_of_mem _ h)
    · simp only [put, if_neg hn] at h
      rcases List.mem_cons.mp h with h | h
      · exact .inr (by simp [h])
      · exact (ih h).imp_right (List.mem_cons_of_mem _)

-- ====================================================== what stands under a name

theorem find?_nil (name : Text) : find? ([] : Entries α) name = none := rfl

theorem find?_cons (n name : Text) (v : α) (rest : Entries α) :
    find? ((n, v) :: rest) name = if name = n then some v else find? rest name := by
  unfold find?
  rw [List.lookup_cons]
  by_cases h : name = n
  · rw [if_pos h, beq_iff_eq.mpr h]
  · rw [if_neg h, beq_eq_false_iff_ne.mpr h]

/-- A put changes what stands under its name and nothing else. -/
theorem find?_put (entries : Entries α) (name : Text) (value : α) (m : Text) :
    find? (put entries name value) m = if m = name then some value else find? entries m := by
  induction entries with
  | nil => rw [put, find?_cons]
  | cons e rest ih =>
      obtain ⟨n, v⟩ := e
      by_cases hn : n = name
      · subst hn
        rw [put, if_pos rfl, find?_cons, find?_cons]
        by_cases hm : m = n
        · rw [if_pos hm, if_pos hm]
        · rw [if_neg hm, if_neg hm, if_neg hm]
      · rw [put, if_neg hn, find?_cons, find?_cons, ih]
        by_cases hm : m = n
        · rw [if_pos hm, if_pos hm, if_neg (hm ▸ hn)]
        · rw [if_neg hm, if_neg hm]

/-- A name is there when something stands under it. -/
theorem mem_names_iff {entries : Entries α} {name : Text} :
    name ∈ names entries ↔ ∃ value, find? entries name = some value := by
  induction entries with
  | nil => simp [names, find?_nil]
  | cons e rest ih =>
      obtain ⟨n, v⟩ := e
      rw [find?_cons]
      simp only [names, List.map_cons, List.mem_cons] at ih ⊢
      by_cases h : name = n
      · simp [h]
      · simp [h, ih]

theorem find?_eq_none {entries : Entries α} {name : Text} :
    find? entries name = none ↔ name ∉ names entries := by
  rw [mem_names_iff]
  cases find? entries name <;> simp

/-- An entry stands under its name, if the names are distinct. -/
theorem mem_iff_find? {entries : Entries α} (h : (names entries).Nodup) {name : Text}
    {value : α} : (name, value) ∈ entries ↔ find? entries name = some value := by
  induction entries with
  | nil => simp [find?_nil]
  | cons e rest ih =>
      obtain ⟨n, v⟩ := e
      obtain ⟨hn, hrest⟩ := List.nodup_cons.mp h
      rw [find?_cons, List.mem_cons, ih hrest]
      by_cases hname : name = n
      · subst hname
        rw [if_pos rfl]
        constructor
        · rintro (heq | hfind)
          · rw [(Prod.mk.inj heq).2]
          · exact absurd (mem_names_iff.mpr ⟨value, hfind⟩) hn
        · intro heq
          exact .inl (by rw [Option.some.inj heq])
      · rw [if_neg hname]
        constructor
        · rintro (heq | hfind)
          · exact absurd (Prod.mk.inj heq).1 hname
          · exact hfind
        · exact .inr

theorem names_put_of_mem {entries : Entries α} {name : Text} (h : name ∈ names entries)
    (value : α) : names (put entries name value) = names entries := by
  induction entries with
  | nil => cases h
  | cons e rest ih =>
      obtain ⟨n, v⟩ := e
      by_cases hn : n = name
      · simp [put, names, hn]
      · rw [put, if_neg hn]
        have hmem : name ∈ names rest :=
          (List.mem_cons.mp h).resolve_left fun heq => hn heq.symm
        exact congrArg (n :: ·) (ih hmem)

/-- Entries are told apart by their names, in order, and what stands
under these. -/
theorem eq_of_find? {s t : Entries α} (hs : (names s).Nodup) (hnames : names s = names t)
    (hfind : ∀ name ∈ names s, find? s name = find? t name) : s = t := by
  induction s generalizing t with
  | nil => exact (List.map_eq_nil_iff.mp hnames.symm).symm
  | cons e rest ih =>
      obtain ⟨n, v⟩ := e
      cases t with
      | nil => cases hnames
      | cons e' rest' =>
          obtain ⟨n', v'⟩ := e'
          have hcons : n :: names rest = n' :: names rest' := hnames
          obtain ⟨rfl, hrests⟩ := List.cons.inj hcons
          obtain ⟨hn, hrest⟩ := List.nodup_cons.mp hs
          have hhead := hfind n (List.mem_cons_self ..)
          rw [find?_cons, find?_cons, if_pos rfl, if_pos rfl] at hhead
          rw [Option.some.inj hhead]
          refine congrArg _ (ih hrest hrests fun name hname => ?_)
          have hne : name ≠ n := fun heq => hn (heq ▸ hname)
          have htail := hfind name (List.mem_cons_of_mem _ hname)
          rwa [find?_cons, find?_cons, if_neg hne, if_neg hne] at htail

/-- A value put in the place of another one is counted in its place. -/
theorem countP_put (p : α → Bool) {entries : Entries α} {name : Text} {old : α}
    (h : find? entries name = some old) (value : α) :
    (put entries name value).countP (fun entry => p entry.2) + (if p old then 1 else 0)
      = entries.countP (fun entry => p entry.2) + (if p value then 1 else 0) := by
  induction entries with
  | nil => cases h
  | cons e rest ih =>
      obtain ⟨n, v⟩ := e
      rw [find?_cons] at h
      by_cases hn : n = name
      · rw [if_pos hn.symm] at h
        cases h
        rw [put, if_pos hn, List.countP_cons, List.countP_cons]
        exact Nat.add_right_comm ..
      · rw [if_neg fun heq => hn heq.symm] at h
        rw [put, if_neg hn, List.countP_cons, List.countP_cons]
        have hrest := ih h
        omega

-- ====================================================== values mapped

/-- Names that all have a value by one rule. -/
theorem find?_ofKeys (f : Text → α) (keys : List Text) (name : Text) :
    find? (keys.map fun key => (key, f key)) name
      = if name ∈ keys then some (f name) else none := by
  induction keys with
  | nil => rfl
  | cons key keys ih =>
      rw [List.map_cons, find?_cons, ih]
      by_cases h : name = key
      · rw [if_pos h, if_pos (h ▸ List.mem_cons_self ..), h]
      · have hmem : name ∈ key :: keys ↔ name ∈ keys := by simp [h]
        rw [if_neg h]
        simp only [hmem]

theorem find?_map {β : Type v} (f : α → β) (entries : Entries α) (name : Text) :
    find? (entries.map fun entry => (entry.1, f entry.2)) name = (find? entries name).map f := by
  induction entries with
  | nil => rfl
  | cons e rest ih =>
      obtain ⟨n, v⟩ := e
      rw [List.map_cons, find?_cons, find?_cons, ih]
      by_cases h : name = n
      · rw [if_pos h, if_pos h]
        rfl
      · rw [if_neg h, if_neg h]

theorem names_map {β : Type v} (f : α → β) (entries : Entries α) :
    names (entries.map fun entry => (entry.1, f entry.2)) = names entries := by
  unfold names
  rw [List.map_map]
  rfl

end Entries

end Spreadsheet

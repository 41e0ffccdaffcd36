/-
One edit.

# What an edit does

An edit types content into a cell and renews the formulas that the change
reaches, in the order of evaluation (`edit_eq_ok`). The graph is that of the
store with the content typed in, so a formula that is typed over reads
nothing any more, and a new one reads what it names. The cell is there
afterwards under its key in upper case.

# What a cell shows afterwards

Of a cell that reaches no cycle it is known what it shows afterwards
(`Edited.fresh`): if it is renewed, it is renewed after its inputs and is
fresh; if not, then it reads nothing that changed, and is as fresh as it
was. For the first, a cell that is on no cycle among the affected ones
stands in the order behind what it reads of them (`fresh_of_affected`); for
the second, whatever reads an affected cell is affected
(`mem_affected_of_reads`).

# Any order of sets

The same questions along an enumeration of the graph are asked here as well,
so that what is proved of an edit does not hang on how the graph lists its
sets.
-/
import Spreadsheet.Proofs.Recalculation.Refresh

namespace Spreadsheet

open Relation (TransGen)

variable {settings : Settings} {store result : Store} {graph : Graph} {key raw : Text}
  {order : List Text} {changes : Changes}

-- ====================================================== what an edit affects

namespace Graph.Enumeration

/-- The cells to evaluate after a cell was edited, in order, along an
enumeration. -/
def affected (e : Enumeration graph) (store : Store) (edited : Text) : Except Fault (List Text) :=
  e.evaluationOrder <| e.dependents edited ++ (if store.hasFormula edited then [edited] else [])

/-- What a refresh after an edit changes, along an enumeration. -/
def recalculateDependents (e : Enumeration graph) (store : Store) (settings : Settings)
    (edited : Text) : Except Fault Changes := do
  let _ ← e.cycle?
  store.refresh settings (← e.affected store edited)

theorem affected_asListed (graph : Graph) (store : Store) (edited : Text) :
    (asListed graph).affected store edited = store.affected graph edited := by
  unfold affected Store.affected
  rw [evaluationOrder_asListed, dependents_asListed]

theorem recalculateDependents_asListed (graph : Graph) (store : Store) (settings : Settings)
    (edited : Text) : (asListed graph).recalculateDependents store settings edited
      = store.recalculateDependents settings graph edited := by
  unfold recalculateDependents Store.recalculateDependents
  rw [cycle?_asListed, affected_asListed]

variable (e : Enumeration graph)

/-- The affected cells are those that read the edited cell, directly or
through others, and that cell if it is a formula. -/
theorem mem_affected (h : e.affected store key = .ok order) {k : Text} :
    k ∈ order ↔ TransGen graph.Reads k key ∨ k = key ∧ store.hasFormula key = true := by
  obtain ⟨settled, stuck, rfl, hordered⟩ := e.evaluationOrder_spec h
  rw [hordered.mem, List.mem_append, e.mem_dependents]
  by_cases hformula : store.hasFormula key = true
  · simp [hformula]
  · simp [hformula]

theorem nodup_affected (h : e.affected store key = .ok order) : order.Nodup := by
  obtain ⟨settled, stuck, rfl, hordered⟩ := e.evaluationOrder_spec h
  exact hordered.distinct

/-- In a graph of its own store, what an edit affects holds formulas:
only a formula reads, and the edited cell is affected only if it holds
one. -/
theorem hasFormula_of_mem_affected (hgraph : Graph.ofStore store = .ok graph)
    (h : e.affected store key = .ok order) {k : Text} (hk : k ∈ order) :
    store.hasFormula k = true := by
  rcases (e.mem_affected h).mp hk with hk | ⟨rfl, hformula⟩
  · obtain ⟨r, hr, -⟩ := TransGen.head'_iff.mp hk
    exact (Graph.mem_names_ofStore hgraph).mp (Graph.mem_names_of_reads hr)
  · exact hformula

/-- A refresh after an edit succeeds when the graph can be searched for
a cycle, the affected cells can be put in order, and going through them
succeeds. -/
theorem recalculateDependents_eq_ok :
    e.recalculateDependents store settings key = .ok changes ↔
      (∃ cycle, e.cycle? = .ok cycle) ∧
        ∃ order, e.affected store key = .ok order ∧
          store.refresh settings order = .ok changes := by
  constructor
  · intro h
    obtain ⟨cycle, hcycle, h⟩ := bind_eq_ok.mp h
    exact ⟨⟨cycle, hcycle⟩, bind_eq_ok.mp h⟩
  · rintro ⟨⟨cycle, hcycle⟩, horder⟩
    exact bind_eq_ok.mpr ⟨cycle, hcycle, bind_eq_ok.mpr horder⟩

end Graph.Enumeration

namespace Store

theorem recalculateDependents_eq_ok :
    store.recalculateDependents settings graph key = .ok changes ↔
      (∃ cycle, graph.cycle? = .ok cycle) ∧
        ∃ order, store.affected graph key = .ok order ∧
          store.refresh settings order = .ok changes := by
  rw [← Graph.Enumeration.recalculateDependents_asListed, ← Graph.Enumeration.cycle?_asListed,
    ← Graph.Enumeration.affected_asListed]
  exact Graph.Enumeration.recalculateDependents_eq_ok _

/-- The affected cells are the dependents of the edited cell, and that
cell if it is a formula. -/
theorem mem_affected (h : store.affected graph key = .ok order) {k : Text} :
    k ∈ order ↔ k ∈ graph.dependents key ∨ k = key ∧ store.hasFormula key = true := by
  rw [← Graph.Enumeration.affected_asListed] at h
  rw [Graph.Enumeration.mem_affected _ h, Graph.mem_dependents]

theorem hasFormula_of_mem_affected (hgraph : Graph.ofStore store = .ok graph)
    (h : store.affected graph key = .ok order) {k : Text} (hk : k ∈ order) :
    store.hasFormula k = true := by
  rw [← Graph.Enumeration.affected_asListed] at h
  exact Graph.Enumeration.hasFormula_of_mem_affected _ hgraph h hk

/-- What reads the edited cell or an affected one is affected. So
nothing that is not affected reads anything that changes. -/
theorem mem_affected_of_reads (h : store.affected graph key = .ok order) {k r : Text}
    (hreads : graph.Reads k r) (hr : r = key ∨ r ∈ order) : k ∈ order := by
  refine (mem_affected h).mpr (.inl (Graph.mem_dependents_of_reads hreads ?_))
  rcases hr with hr | hr
  · exact .inl hr
  · rcases (mem_affected h).mp hr with hr | ⟨hr, -⟩
    · exact .inr hr
    · exact .inl hr

/-- An affected cell is fresh once the affected cells have been renewed,
if it reaches no cycle among them: what it reads of them was renewed
before it, and is not renewed again. -/
theorem fresh_of_affected (hgraph : Graph.ofStore store = .ok graph)
    (h : store.affected graph key = .ok order) {k : Text} (hk : k ∈ order)
    (hcycle : ¬graph.ReachesCycleAmong order k) :
    Fresh settings (store.renewAll settings order) k := by
  unfold Graph.ReachesCycleAmong Graph.OnCycleAmong at hcycle
  rw [Graph.readsAmong_congr fun _ => Graph.mem_evaluationOrder h] at hcycle
  obtain ⟨before, after, rfl, hreads⟩ := Graph.split_of_not_reachesCycle h hk hcycle
  have hdistinct := Graph.nodup_evaluationOrder h
  have hafter : k ∉ after := (List.nodup_cons.mp (List.nodup_append.mp hdistinct).2.1).1
  exact fresh_renewAll hgraph (fun _ hk => hasFormula_of_mem_affected hgraph h hk) hafter hreads

-- ====================================================== an edit

/-- The store with content typed into a cell, before anything is
renewed. -/
def typed (store : Store) (key raw : Text) : Store :=
  store.put (Text.upper key) (Cell.ofInput raw)

theorem Textual.typed (h : store.Textual) (key raw : Text) : (store.typed key raw).Textual :=
  h.put (Cell.textual_ofInput raw)

/-- An edit that succeeded: the graph of the store with the content
typed in, the formulas the change reaches, in order, and the store with
these renewed. -/
structure Edited (settings : Settings) (store : Store) (key raw : Text) (graph : Graph)
    (order : List Text) (result : Store) : Prop where
  graph_typed : Graph.ofStore (store.typed key raw) = .ok graph
  affected : (store.typed key raw).affected graph (Text.upper key) = .ok order
  renewed : result = (store.typed key raw).renewAll settings order

/-- In a store of texts, an edit that succeeds does so in this way. The
changes it writes come to renewing the affected cells one by one. -/
theorem edit_eq_ok (htextual : store.Textual) (h : store.edit settings key raw = .ok result) :
    ∃ graph order, Edited settings store key raw graph order result := by
  obtain ⟨graph, hgraph, h⟩ := bind_eq_ok.mp h
  obtain ⟨changes, hchanges, h⟩ := bind_eq_ok.mp h
  cases h
  obtain ⟨-, order, horder, hrefresh⟩ := recalculateDependents_eq_ok.mp hchanges
  exact ⟨graph, order, hgraph, horder, write_refresh (htextual.typed key raw) hrefresh⟩

-- ====================================================== after an edit

namespace Edited

theorem textual (h : Edited settings store key raw graph order result)
    (htextual : store.Textual) : result.Textual := by
  rw [h.renewed]
  exact (htextual.typed key raw).renewAll settings order

theorem hasFormula (h : Edited settings store key raw graph order result) {k : Text}
    (hk : k ∈ order) : (store.typed key raw).hasFormula k = true :=
  hasFormula_of_mem_affected h.graph_typed h.affected hk

/-- The input after an edit is what was there before, and what was
typed. -/
theorem inputs (h : Edited settings store key raw graph order result) :
    result.inputs = (store.typed key raw).inputs := by
  rw [h.renewed]
  exact inputs_renewAll (fun _ hk => h.hasFormula hk) settings

theorem graph_result (h : Edited settings store key raw graph order result) :
    Graph.ofStore result = .ok graph :=
  (Graph.ofStore_congr h.inputs).trans h.graph_typed

/-- A cell that is neither edited nor affected stays as it is. -/
theorem find?_of_not_mem (h : Edited settings store key raw graph order result) {k : Text}
    (hkey : k ≠ Text.upper key) (hk : k ∉ order) : result.find? k = store.find? k := by
  rw [h.renewed, find?_renewAll_of_not_mem hk]
  exact find?_put_of_ne hkey _

/-- An affected cell whose chains of reads all end is fresh, because it
was renewed after everything it reads. -/
theorem fresh_of_mem (h : Edited settings store key raw graph order result) {k : Text}
    (hk : k ∈ order) (hfounded : graph.Founded k) : Fresh settings result k := by
  rw [h.renewed]
  exact fresh_of_affected h.graph_typed h.affected hk
    (Graph.not_reachesCycleAmong_iff.mpr (hfounded.within order))

/-- The edited cell is fresh if it is not affected, being no formula
then. -/
theorem fresh_edited (h : Edited settings store key raw graph order result)
    (hk : Text.upper key ∉ order) : Fresh settings result (Text.upper key) := by
  intro cell hcell hformula
  have hresult : result.hasFormula (Text.upper key) = true :=
    hasFormula_iff.mpr ⟨cell, hcell, hformula⟩
  rw [hasFormula_eq_of_input? ((inputs_eq_iff.mp h.inputs).2 _)] at hresult
  exact absurd ((mem_affected h.affected).mpr (.inr ⟨rfl, hresult⟩)) hk

/-- A cell that is neither edited nor affected is as fresh as it was: it
reads nothing that changed. -/
theorem fresh_of_not_mem (h : Edited settings store key raw graph order result) {k : Text}
    (hkey : k ≠ Text.upper key) (hk : k ∉ order) (hfresh : Fresh settings store k) :
    Fresh settings result k := by
  refine hfresh.congr h.graph_result (h.find?_of_not_mem hkey hk) fun r hr => shown_congr ?_
  have hunaffected : ¬(r = Text.upper key ∨ r ∈ order) :=
    fun hr' => hk (mem_affected_of_reads h.affected hr hr')
  obtain ⟨hkey', hr'⟩ := not_or.mp hunaffected
  exact (h.find?_of_not_mem hkey' hr').symm

/-- After an edit a cell whose chains of reads all end is fresh, if it
was or the edit reaches it. -/
theorem fresh (h : Edited settings store key raw graph order result) {k : Text}
    (hfounded : graph.Founded k)
    (hfresh : k ≠ Text.upper key → k ∉ order → Fresh settings store k) :
    Fresh settings result k := by
  by_cases hk : k ∈ order
  · exact h.fresh_of_mem hk hfounded
  · by_cases hkey : k = Text.upper key
    · subst hkey
      exact h.fresh_edited hk
    · exact h.fresh_of_not_mem hkey hk (hfresh hkey hk)

end Edited

end Store

end Spreadsheet

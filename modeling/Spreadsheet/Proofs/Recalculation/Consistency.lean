/-
Consistency of every store that edits can reach.

# The statement

Each edit renews only what it reaches, and each rewires the graph: cycles
come and go. All the same, whatever was typed in whatever order, a formula
that is on no cycle and reads none shows what it evaluates to
(`display_eq_evaluate_of_grounded`). Formulas on cycles, or above them, are
left out, for there may be nothing that they could all show.

# The invariant

The invariant says so of the formulas whose chains of reads end
(`Consistent`). An edit keeps it (`Consistent.edit`). What the edit reaches
is renewed after its inputs. A formula that it does not reach reads in the
new graph what it read in the old one, so its chains ended before the edit
too (`Edited.founded_before`), and it was fresh. An edit that fails leaves
the store as it was. By induction every run of edits keeps it
(`Consistent.foldl_attempt`).
-/
import Spreadsheet.Proofs.Recalculation.Edit

namespace Spreadsheet.Store

variable {settings : Settings} {store result : Store} {key raw : Text}

/-- A store of texts that has a graph, and whose formulas are fresh
unless a chain of reads from them does not end. -/
structure Consistent (settings : Settings) (store : Store) : Prop where
  textual : store.Textual
  fresh : ∃ graph, Graph.ofStore store = .ok graph ∧
    ∀ key, graph.Founded key → Fresh settings store key

theorem consistent_empty (settings : Settings) : Consistent settings empty where
  textual := textual_empty
  fresh := ⟨Graph.empty, rfl, nofun⟩

-- ====================================================== one edit

/-- Chains of reads that end after an edit without meeting what it
affects ended before it: none of the cells on them reads the edited
cell, so they read what they read before. -/
theorem Edited.founded_before {graph old : Graph} {order : List Text}
    (h : Edited settings store key raw graph order result) (hold : Graph.ofStore store = .ok old)
    {k : Text} (hfounded : graph.Founded k) (hkey : k ≠ Text.upper key) (hk : k ∉ order) :
    old.Founded k := by
  refine hfounded.of_subgraph (fun k => k ≠ Text.upper key ∧ k ∉ order) ?_ ⟨hkey, hk⟩
  rintro k ⟨hkey, hk⟩ r hr
  have hinput : store.input? k = (store.typed key raw).input? k := by
    unfold input? typed
    rw [find?_put_of_ne hkey]
  have hreads : graph.Reads k r := by
    unfold Graph.Reads at hr ⊢
    rwa [← Graph.reads_eq_of_input? hold h.graph_typed hinput]
  refine ⟨hreads, not_or.mp fun hr' => ?_⟩
  exact hk (mem_affected_of_reads h.affected hreads hr')

/-- An edit that succeeds keeps a store consistent, whatever it does to
the graph: cells that the edit frees from a cycle are among those it
reaches. -/
theorem Consistent.edit (h : Consistent settings store)
    (hedit : store.edit settings key raw = .ok result) : Consistent settings result := by
  obtain ⟨old, hold, hfresh⟩ := h.fresh
  obtain ⟨graph, order, hedited⟩ := edit_eq_ok h.textual hedit
  refine ⟨hedited.textual h.textual, graph, hedited.graph_result, fun k hfounded => ?_⟩
  refine hedited.fresh hfounded fun hkey hk => ?_
  exact hfresh k (hedited.founded_before hold hfounded hkey hk)

-- ====================================================== any number of edits

/-- The store after an edit, a key and the content typed there; an edit
that fails leaves the store as it was. -/
def attempt (settings : Settings) (store : Store) (edit : Text × Text) : Store :=
  match store.edit settings edit.1 edit.2 with
  | .ok result => result
  | .error _ => store

/-- The store that edits lead to from the empty store. -/
def afterEdits (settings : Settings) (edits : List (Text × Text)) : Store :=
  edits.foldl (attempt settings) empty

theorem Consistent.attempt (h : Consistent settings store) (edit : Text × Text) :
    Consistent settings (store.attempt settings edit) := by
  unfold Store.attempt
  split
  · next hedit => exact h.edit hedit
  · exact h

theorem Consistent.foldl_attempt (h : Consistent settings store) (edits : List (Text × Text)) :
    Consistent settings (edits.foldl (Store.attempt settings) store) := by
  induction edits generalizing store with
  | nil => exact h
  | cons edit edits ih => exact ih (h.attempt edit)

/-- Every store that edits lead to is consistent. -/
theorem consistent_afterEdits (settings : Settings) (edits : List (Text × Text)) :
    Consistent settings (afterEdits settings edits) :=
  (consistent_empty settings).foldl_attempt edits

/-- In every store that edits lead to, a formula that neither lies on a
cycle nor reads one, directly or through other cells, shows what it
evaluates to. -/
theorem display_eq_evaluate_of_grounded (settings : Settings) (edits : List (Text × Text)) :
    ∃ graph, Graph.ofStore (afterEdits settings edits) = .ok graph ∧
      ∀ key cell, (afterEdits settings edits).find? key = some cell → cell.hasFormula = true →
        graph.Grounded key →
        cell.display
          = Eval.evaluate (.ofStore (afterEdits settings edits) settings) cell.formula := by
  obtain ⟨graph, hgraph, hfresh⟩ := (consistent_afterEdits settings edits).fresh
  refine ⟨graph, hgraph, fun key cell hcell hformula hgrounded => ?_⟩
  exact hfresh key (Graph.founded_of_grounded hgrounded) cell hcell hformula

end Spreadsheet.Store

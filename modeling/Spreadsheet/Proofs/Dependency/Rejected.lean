/-
Formulas that are no expression.

# Evaluated without cells

The evaluator gives such a formula a second chance as plain arithmetic,
which sees no cells: the letters of a key are dropped before the arithmetic
is read. So what the formula shows does not change with the cells
(`Eval.evaluateText_congr_of_rejected`).

# But read by the graph

The graph is built from the tokens alone: a formula that splits into tokens
but is no expression still counts as a reader of every cell that its tokens
name. So it reads nothing, and closes no cycle, if no token names a cell
(`rejected_reads_nothing_iff`); otherwise it may be found on a cycle that no
evaluation goes round (`rejected_on_cycle`). The extra edges do no harm to
what is shown, but they may move the formula to the last part of an order of
evaluation, or into a list of circular references.
-/
import Mathlib
import Spreadsheet.Eval.Formula
import Spreadsheet.Proofs.Dependency.Search
import Spreadsheet.Proofs.Formula.Reads
import Spreadsheet.Proofs.Recalculation.Edit

namespace Spreadsheet

variable {expression : Text} {fault : SyntaxFault}

-- ====================================================== evaluation

/-- A formula that is no expression shows the same whatever the cells
show. -/
theorem Eval.evaluateText_congr_of_rejected
    (hrejected : Parser.parse (Text.trim expression) = .error fault) {env env' : Environment}
    (hsettings : env.settings = env'.settings) :
    evaluateText env (.char '=' :: expression) = evaluateText env' (.char '=' :: expression) := by
  simp only [evaluateText, expressionText, hrejected, hsettings]

-- ====================================================== the graph

namespace Graph

variable {store : Store} {graph : Graph} {key : Text} {cell : Cell}

/-- In the graph of a store a formula has edges just when its expression
names a cell. -/
theorem reads_eq_nil_iff (hgraph : ofStore store = .ok graph) (hcell : store.find? key = some cell)
    (hformula : cell.formula = some (.text (.char '=' :: expression))) :
    (∀ r, ¬graph.Reads key r) ↔ Formula.NamesNoCell expression := by
  obtain ⟨keys, hkeys, hreads⟩ := (holds_of_ofStore hgraph hcell).reads_iff
  unfold Cell.reads at hkeys
  rw [hformula] at hkeys
  have hkeys : Formula.readsOfText (.char '=' :: expression) = .ok keys := hkeys
  simp only [hreads, ← List.eq_nil_iff_forall_not_mem, ← Formula.readsOfText_eq_nil_iff, hkeys,
    Except.ok.injEq]

/-- A cell that reads nothing is on no cycle that is found. -/
theorem not_mem_of_cycle? (hreads : ∀ r, ¬graph.Reads key r) {path : List Text}
    (hcycle : graph.cycle? = .ok (some path)) : key ∉ path := by
  intro hkey
  obtain ⟨next, hnext⟩ := ((cycle?_spec hcycle).closed path rfl).exists_step hkey
  exact hreads next hnext

/-- A formula that is no expression is evaluated without a look at any
cell. It counts as reading nothing just when none of its tokens names a
cell; then the graph has no edge for it, and it is on no cycle that is
found. -/
theorem rejected_reads_nothing_iff
    (hrejected : Parser.parse (Text.trim expression) = .error fault) :
    (∀ env env' : Environment, env.settings = env'.settings →
      Eval.evaluateText env (.char '=' :: expression)
        = Eval.evaluateText env' (.char '=' :: expression)) ∧
    (Formula.readsOfText (.char '=' :: expression) = .ok [] ↔ Formula.NamesNoCell expression) ∧
    ∀ store graph key cell, ofStore store = .ok graph → store.find? key = some cell →
      cell.formula = some (.text (.char '=' :: expression)) →
      ((∀ r, ¬graph.Reads key r) ↔ Formula.NamesNoCell expression) ∧
      (Formula.NamesNoCell expression →
        ∀ path, graph.cycle? = .ok (some path) → key ∉ path) := by
  refine ⟨fun env env' => Eval.evaluateText_congr_of_rejected hrejected,
    Formula.readsOfText_eq_nil_iff, ?_⟩
  intro store graph key cell hgraph hcell hformula
  have hreads := reads_eq_nil_iff hgraph hcell hformula
  exact ⟨hreads, fun hnames path hcycle => not_mem_of_cycle? (hreads.mpr hnames) hcycle⟩

/-- A sum that is not closed, over a range of no cells, next to two
formulas that read each other: the cycle that is found is theirs. -/
theorem rejected_reads_nothing_sum :
    let store := ((Store.empty.typed "A1" "= SUM(1:2 ").typed "B1" "=C1").typed "C1" "=B1"
    Parser.parse (Text.trim " SUM(1:2 ") = .error (.unexpectedEnd 7) ∧
      Formula.NamesNoCell " SUM(1:2 " ∧
      ∃ graph path, ofStore store = .ok graph ∧ graph.cycle? = .ok (some path) ∧
        ("A1" : Text) ∉ path := by
  intro store
  have hrejected : Parser.parse (Text.trim " SUM(1:2 ") = .error (.unexpectedEnd 7) := by cbv
  obtain ⟨-, hreads, hstore⟩ := rejected_reads_nothing_iff hrejected
  have hnames : Formula.NamesNoCell " SUM(1:2 " := hreads.mp (by cbv)
  have hgraph : ∃ graph, ofStore store = .ok graph ∧
      graph.cycle? = .ok (some ["B1", "C1", "B1"]) := ⟨_, by cbv, by cbv⟩
  obtain ⟨graph, hgraph, hcycle⟩ := hgraph
  exact ⟨hrejected, hnames, graph, _, hgraph, hcycle,
    (hstore store graph "A1" _ hgraph rfl rfl).2 hnames _ hcycle⟩

/-- A sum that breaks off is no expression, yet it counts as reading the
cell it stands in, and a cycle is found there. -/
theorem rejected_on_cycle :
    Parser.parse (Text.trim "A1+") = .error (.unexpectedEnd 3) ∧
      Formula.readsOfText "=A1+" = .ok ["A1"] ∧
      (do (← ofStore (Store.empty.typed "A1" "=A1+")).cycle?) = .ok (some ["A1", "A1"]) :=
  ⟨by cbv, by cbv, by cbv⟩

end Graph

end Spreadsheet

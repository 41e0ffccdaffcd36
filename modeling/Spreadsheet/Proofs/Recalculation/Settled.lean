/-
One refresh settles what it reaches.

# What a refresh leaves

Whatever the cells show before, stale or not, a refresh after an edit leaves
every affected cell with what it evaluates to, as long as no cycle of reads
leads through the affected cells (`refresh_settles`). Cycles elsewhere do
not matter, though affected cells may read them: what is on such a cycle
does not change.

# Why once is enough

Each affected cell is renewed once, after its affected inputs; the inputs
that are not affected do not change. A second refresh therefore finds
nothing to change: it goes through the same cells in the same order, since
these are decided by the input (`affected_congr`), which a refresh keeps.
-/
import Mathlib
import Spreadsheet.Proofs.Recalculation.Edit

namespace Spreadsheet.Store

variable {settings : Settings} {store : Store} {graph : Graph} {edited : Text} {order : List Text}
  {changes : Changes}

-- ====================================================== refreshes after an edit

/-- Going through formulas that are fresh changes nothing, in whatever
order: each of them shows what it evaluates to. -/
theorem refresh_eq_nil (htextual : store.Textual) {keys : List Text}
    (hformulas : ∀ key ∈ keys, store.hasFormula key = true)
    (hfresh : ∀ key ∈ keys, Fresh settings store key) : store.refresh settings keys = .ok [] := by
  induction keys with
  | nil => rfl
  | cons key keys ih =>
      obtain ⟨hformula, hformulas⟩ := List.forall_mem_cons.mp hformulas
      obtain ⟨hkey, hfresh⟩ := List.forall_mem_cons.mp hfresh
      obtain ⟨cell, hcell, hf⟩ := hasFormula_iff.mp hformula
      have hsame := (htextual.sameDisplay_iff hcell settings).mpr (hkey cell hcell hf)
      rw [refresh]
      simp only [hcell]
      rw [if_pos hsame]
      exact ih hformulas hfresh

/-- What is affected by an edit is decided by the input. Of the store
itself it is only asked whether the edited cell holds a formula. -/
theorem affected_congr {s t : Store} (h : s.inputs = t.inputs) (graph : Graph) (edited : Text) :
    s.affected graph edited = t.affected graph edited := by
  unfold affected
  rw [hasFormula_eq_of_input? ((inputs_eq_iff.mp h).2 edited)]

-- ====================================================== settled cells

/-- A refresh after an edit settles the affected cells, if none of them
is on a cycle of them. With the changes written back each shows what it
evaluates to, and another refresh changes nothing. -/
theorem refresh_settles (htextual : store.Textual) (hgraph : Graph.ofStore store = .ok graph)
    (hrefresh : store.recalculateDependents settings graph edited = .ok changes)
    (horder : store.affectedBy edited = .ok order)
    (hcycle : ∀ key ∈ order, ¬graph.OnCycleAmong order key) :
    (∀ key ∈ order, ∃ cell, (store.write changes).find? key = some cell ∧
      cell.display = Eval.evaluate (.ofStore (store.write changes) settings) cell.formula) ∧
    Graph.ofStore (store.write changes) = .ok graph ∧
    (store.write changes).recalculateDependents settings graph edited = .ok [] := by
  obtain ⟨hsearch, order', haffected, hchanges⟩ := recalculateDependents_eq_ok.mp hrefresh
  obtain rfl : order' = order := by
    unfold affectedBy at horder
    rw [hgraph, ok_bind, haffected] at horder
    exact Except.ok.inj horder
  have hformulas : ∀ key ∈ order', store.hasFormula key = true :=
    fun key hkey => hasFormula_of_mem_affected hgraph haffected hkey
  rw [write_refresh htextual hchanges]
  have hinputs := inputs_renewAll hformulas settings
  have hfresh : ∀ key ∈ order', Fresh settings (store.renewAll settings order') key := by
    intro key hkey
    refine fresh_of_affected hgraph haffected hkey ?_
    rintro ⟨k, -, hk⟩
    exact hcycle k hk.mem hk
  -- the write-back leaves the formulas, so the second refresh goes through the same cells
  have hformulas' : ∀ key ∈ order', (store.renewAll settings order').hasFormula key = true := by
    intro key hkey
    rw [hasFormula_eq_of_input? ((inputs_eq_iff.mp hinputs).2 key)]
    exact hformulas key hkey
  refine ⟨fun key hkey => ?_, (Graph.ofStore_congr hinputs).trans hgraph, ?_⟩
  · obtain ⟨cell, hcell, hformula⟩ := hasFormula_iff.mp (hformulas' key hkey)
    exact ⟨cell, hcell, hfresh key hkey cell hcell hformula⟩
  · have haffected' := (affected_congr hinputs graph edited).trans haffected
    have hnil := refresh_eq_nil (htextual.renewAll settings order') hformulas' hfresh
    exact recalculateDependents_eq_ok.mpr ⟨hsearch, order', haffected', hnil⟩

/-- A chain of two formulas that show something stale, beside a formula
that reads itself. -/
def staleChain : Store :=
  (((empty.put "A1" ⟨"x", none, none⟩).put
    "B1" ⟨[], some (.text "=CONCAT(A1)"), some (.text "p")⟩).put
    "C1" ⟨[], some (.text "=CONCAT(B1)"), some (.text "q")⟩).put
    "D1" ⟨[], some (.text "=D1"), none⟩

/-- The chain settles in one refresh. -/
theorem refresh_settles_staleChain :
    let changes : Changes := [("B1", some (.text "x")), ("C1", some (.text "x"))]
    let order : List Text := ["B1", "C1"]
    staleChain.Textual ∧ ∃ graph, Graph.ofStore staleChain = .ok graph ∧
      staleChain.recalculateDependents { now := default } graph "A1" = .ok changes ∧
      staleChain.affectedBy "A1" = .ok order ∧
      (∀ key ∈ order, ¬graph.OnCycleAmong order key) ∧
      (∀ key ∈ order, ∃ cell, (staleChain.write changes).find? key = some cell ∧
        cell.display = Eval.evaluate (.ofStore (staleChain.write changes) { now := default })
          cell.formula) ∧
      (staleChain.write changes).recalculateDependents { now := default } graph "A1" = .ok [] := by
  intro changes order
  have htextual : staleChain.Textual :=
    (((textual_empty.put ⟨textOrNone_none, textOrNone_none⟩).put
      ⟨textOrNone_text _, textOrNone_text _⟩).put ⟨textOrNone_text _, textOrNone_text _⟩).put
      ⟨textOrNone_text _, textOrNone_none⟩
  have horder : staleChain.affectedBy "A1" = .ok order := by cbv
  have hrefresh : (do
      staleChain.recalculateDependents { now := default } (← Graph.ofStore staleChain) "A1")
        = .ok changes := by cbv
  obtain ⟨graph, hgraph, hrefresh⟩ := bind_eq_ok.mp hrefresh
  have hreadsB : ∀ r, graph.Reads "B1" r ↔ r ∈ [Text.ofString "A1"] :=
    fun r => Graph.reads_iff_of_find? hgraph rfl rfl
  have hreadsC : ∀ r, graph.Reads "C1" r ↔ r ∈ [Text.ofString "B1"] :=
    fun r => Graph.reads_iff_of_find? hgraph rfl rfl
  -- the first formula reads no affected cell, so no cycle starts there; the second reads the first
  have hfirst : ∀ r, ¬graph.ReadsAmong order "B1" r := by
    rintro r ⟨-, hr, hreads⟩
    rw [List.mem_singleton.mp ((hreadsB r).mp hreads)] at hr
    revert hr
    decide
  have hcycle : ∀ key ∈ order, ¬graph.OnCycleAmong order key := by
    intro key hkey hcycle
    obtain ⟨r, hr, hback⟩ := Relation.TransGen.head'_iff.mp hcycle
    rcases List.mem_pair.mp hkey with rfl | rfl
    · exact hfirst r hr
    · rw [List.mem_singleton.mp ((hreadsC r).mp hr.2.2)] at hback
      rcases Relation.ReflTransGen.cases_head hback with heq | ⟨k, hk, -⟩
      · revert heq
        decide
      · exact hfirst k hk
  obtain ⟨hsettled, -, hrest⟩ := refresh_settles htextual hgraph hrefresh horder hcycle
  exact ⟨htextual, graph, hgraph, hrefresh, horder, hcycle, hsettled, hrest⟩

end Spreadsheet.Store

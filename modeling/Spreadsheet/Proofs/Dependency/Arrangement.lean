/-
What an order of evaluation looks like.

# Two parts

An order has two parts. The first holds the cells that reach no cycle among
the cells to be ordered, each after its inputs; the last holds those that
do, in the order of the grid (`Arranged`). Every order is found and has
these parts, whether the graph goes through its sets as it lists them or in
any other order (`evaluationOrder_settled_append_stuck`). Among cells of the
first part that do not read each other, the order may be one or another;
what is stated here holds of all of them.

# Inputs in the last part

The last part holds more than the cells on cycles: a cell that is on no
cycle, but reads one, stands there too, and where it stands is decided by
the grid and not by what it reads. Its inputs come before it where they
reach no cycle, or where the grid happens to have them first
(`idxOf_input_lt`); otherwise it is evaluated before its own input
(`downstream_before_input`).
-/
import Mathlib
import Spreadsheet.Proofs.Dependency.Legible

namespace Spreadsheet.Graph

open Relation (TransGen)

variable {graph : Graph} {keys : List Text} {x y : Text}

-- ====================================================== both parts

/-- The two parts of an order of evaluation of some cells: it lists
these cells, each once, first those that reach no cycle among them,
after all of them that they read, and then those that do, in the order
of the grid. -/
structure Arranged (graph : Graph) (keys settled stuck : List Text) : Prop where
  distinct : (settled ++ stuck).Nodup
  mem : ∀ key, key ∈ settled ++ stuck ↔ key ∈ keys
  mem_stuck : ∀ key, key ∈ stuck ↔ key ∈ keys ∧ graph.ReachesCycleAmong keys key
  in_grid_order : InGridOrder stuck
  inputs_first : ∀ before key after, settled = before ++ key :: after →
    ∀ r ∈ keys, graph.Reads key r → r ∈ before

/-- What is known at the end of a run is the shape of the order: who was
settled reaches no cycle, and who is stuck does. -/
theorem Ordered.arranged {settled stuck : List Text} (h : Ordered graph keys settled stuck) :
    Arranged graph keys settled stuck where
  distinct := h.distinct
  mem := h.mem
  mem_stuck _ := h.mem_stuck
  in_grid_order := h.stuck_sorted
  inputs_first before key after hsplit r hr hreads :=
    h.inputs_first before key after hsplit r hreads hr

/-- An order of evaluation is found, and has its two parts, whether the
graph goes through its sets as it lists them or in any other order. -/
theorem evaluationOrder_settled_append_stuck (hgraph : graph.Legible)
    (hkeys : ∀ key ∈ keys, Placed key) :
    (∃ settled stuck, graph.evaluationOrder keys = .ok (settled ++ stuck) ∧
      Arranged graph keys settled stuck) ∧
    ∀ e : graph.Enumeration, ∃ settled stuck, e.evaluationOrder keys = .ok (settled ++ stuck) ∧
      Arranged graph keys settled stuck := by
  have hevery : ∀ e : graph.Enumeration, ∃ settled stuck,
      e.evaluationOrder keys = .ok (settled ++ stuck) ∧ Arranged graph keys settled stuck := by
    intro e
    obtain ⟨order, horder⟩ := e.evaluationOrder_ok hgraph hkeys
    obtain ⟨settled, stuck, rfl, hordered⟩ := e.evaluationOrder_spec horder
    exact ⟨settled, stuck, horder, hordered.arranged⟩
  refine ⟨?_, hevery⟩
  rw [← Enumeration.evaluationOrder_asListed]
  exact hevery (.asListed graph)

/-- Of two cells that read each other and one that reads them, all three
are in the last part, though each is given twice and one is on no
cycle. -/
theorem evaluationOrder_settled_append_stuck_loop :
    let graph := ((empty.addRead "B1" "C1").addRead "C1" "B1").addRead "A1" "B1"
    let keys : List Text := ["A1", "C1", "B1", "A1", "C1", "B1", "D1"]
    graph.Legible ∧ (∀ key ∈ keys, Placed key) ∧
      ∃ settled stuck, graph.evaluationOrder keys = .ok (settled ++ stuck) ∧
        (settled ++ stuck).Nodup ∧ InGridOrder stuck ∧
        ("A1" : Text) ∈ stuck ∧ ("B1" : Text) ∈ stuck ∧ ("C1" : Text) ∈ stuck ∧
        ("D1" : Text) ∈ settled ++ stuck := by
  intro graph keys
  have hgraph : graph.Legible := ((legible_empty.addRead ⟨_, rfl⟩ ⟨_, rfl⟩).addRead
    ⟨_, rfl⟩ ⟨_, rfl⟩).addRead ⟨_, rfl⟩ ⟨_, rfl⟩
  have hkeys : ∀ key ∈ keys, Placed key := by
    simp only [keys, List.forall_mem_cons]
    exact ⟨⟨_, rfl⟩, ⟨_, rfl⟩, ⟨_, rfl⟩, ⟨_, rfl⟩, ⟨_, rfl⟩, ⟨_, rfl⟩, ⟨_, rfl⟩, nofun⟩
  obtain ⟨⟨settled, stuck, horder, h⟩, -⟩ := evaluationOrder_settled_append_stuck hgraph hkeys
  have hBC : graph.ReadsAmong keys "B1" "C1" :=
    ⟨by decide, by decide, reads_addRead.mpr (.inl (reads_addRead.mpr (.inl
      (reads_addRead.mpr (.inr ⟨rfl, rfl⟩)))))⟩
  have hCB : graph.ReadsAmong keys "C1" "B1" :=
    ⟨by decide, by decide, reads_addRead.mpr (.inl (reads_addRead.mpr (.inr ⟨rfl, rfl⟩)))⟩
  have hAB : graph.ReadsAmong keys "A1" "B1" :=
    ⟨by decide, by decide, reads_addRead.mpr (.inr ⟨rfl, rfl⟩)⟩
  have hcycle : graph.ReachesCycleAmong keys "B1" :=
    ⟨"B1", .refl, (TransGen.single hBC).tail hCB⟩
  exact ⟨hgraph, hkeys, settled, stuck, horder, h.distinct, h.in_grid_order,
    (h.mem_stuck _).mpr ⟨hAB.1, hcycle.of_reads hAB⟩, (h.mem_stuck _).mpr ⟨hBC.1, hcycle⟩,
    (h.mem_stuck _).mpr ⟨hCB.1, hcycle.of_reads hCB⟩, (h.mem "D1").mpr (by decide)⟩

-- ====================================================== inputs and their readers

theorem idxOf_lt_of_split {before after : List Text} (hx : x ∈ before) (hy : y ∉ before) :
    (before ++ y :: after).idxOf x < (before ++ y :: after).idxOf y := by
  rw [List.idxOf_append_of_mem hx, List.idxOf_append_of_notMem hy]
  have hlt := List.idxOf_lt_length_iff.mpr hx
  omega

namespace Ordered

variable {settled stuck : List Text} (h : Ordered graph keys settled stuck)
include h

/-- Places in the last part come behind all of the first. -/
theorem idxOf_of_stuck (hx : x ∈ stuck) :
    (settled ++ stuck).idxOf x = settled.length + stuck.idxOf x :=
  List.idxOf_append_of_notMem fun hsettled =>
    (List.nodup_append.mp h.distinct).2.2 x hsettled x hx rfl

/-- What a cell reads comes before it if that reaches no cycle. The
reader itself may be settled or stuck. -/
theorem idxOf_lt_of_settled (hx : x ∈ keys) (hy : y ∈ keys) (hreads : graph.Reads y x)
    (hcycle : ¬graph.ReachesCycleAmong keys x) :
    (settled ++ stuck).idxOf x < (settled ++ stuck).idxOf y := by
  have hxs : x ∈ settled :=
    (List.mem_append.mp ((h.mem x).mpr hx)).resolve_right fun hs => hcycle (h.mem_stuck.mp hs).2
  rcases List.mem_append.mp ((h.mem y).mpr hy) with hys | hys
  · obtain ⟨before, after, rfl⟩ := List.append_of_mem hys
    have hbefore := h.inputs_first before y after rfl x hreads hx
    have hdistinct := (List.nodup_append.mp h.distinct).1
    have hnew : y ∉ before := fun hmem =>
      (List.nodup_append.mp hdistinct).2.2 y hmem y (List.mem_cons_self ..) rfl
    rw [List.append_assoc, List.cons_append]
    exact idxOf_lt_of_split hbefore hnew
  · rw [h.idxOf_of_stuck hys, List.idxOf_append_of_mem hxs]
    have hlt := List.idxOf_lt_length_iff.mpr hxs
    omega

/-- Cells that reach a cycle come as they stand in the grid, all of them
behind the settled ones. -/
theorem idxOf_lt_of_stuck (hx : x ∈ stuck) (hy : y ∈ stuck)
    (hbefore : StandsBefore Reference.parse? x y) :
    (settled ++ stuck).idxOf x < (settled ++ stuck).idxOf y := by
  rw [h.idxOf_of_stuck hx, h.idxOf_of_stuck hy]
  have hlt := h.stuck_sorted.idxOf_lt hx hy hbefore
  omega

end Ordered

/-- Where an input comes, as against a cell that reads it. It comes
first if it reaches no cycle; if it does, the cell reaches that cycle
too, and the one comes first that stands first in the grid. -/
theorem idxOf_input_lt (hgraph : graph.Legible) (hkeys : ∀ key ∈ keys, Placed key)
    (hx : x ∈ keys) (hy : y ∈ keys) (hreads : graph.Reads y x) :
    ∃ order, graph.evaluationOrder keys = .ok order ∧
      (¬graph.ReachesCycleAmong keys x → order.idxOf x < order.idxOf y) ∧
      (graph.ReachesCycleAmong keys x →
        (StandsBefore Reference.parse? x y → order.idxOf x < order.idxOf y) ∧
        (StandsBefore Reference.parse? y x → order.idxOf y < order.idxOf x)) := by
  obtain ⟨order, horder⟩ := evaluationOrder_ok hgraph hkeys
  obtain ⟨settled, stuck, rfl, h⟩ := evaluationOrder_spec horder
  refine ⟨settled ++ stuck, horder, h.idxOf_lt_of_settled hx hy hreads, fun hcycle => ?_⟩
  have hxs : x ∈ stuck := h.mem_stuck.mpr ⟨hx, hcycle⟩
  have hys : y ∈ stuck := h.mem_stuck.mpr ⟨hy, hcycle.of_reads ⟨hy, hx, hreads⟩⟩
  exact ⟨h.idxOf_lt_of_stuck hxs hys, h.idxOf_lt_of_stuck hys hxs⟩

/-- A cell that reads another one on a cycle comes after it if the grid
has it later. -/
theorem idxOf_input_lt_loop :
    let graph := ((empty.addRead "B1" "C1").addRead "C1" "B1").addRead "D1" "C1"
    let keys : List Text := ["D1", "C1", "B1"]
    graph.Legible ∧ (∀ key ∈ keys, Placed key) ∧ ("C1" : Text) ∈ keys ∧ ("D1" : Text) ∈ keys ∧
      graph.Reads "D1" "C1" ∧
      ∃ order, graph.evaluationOrder keys = .ok order ∧
        order.idxOf ("C1" : Text) < order.idxOf ("D1" : Text) := by
  intro graph keys
  have hgraph : graph.Legible := ((legible_empty.addRead ⟨_, rfl⟩ ⟨_, rfl⟩).addRead
    ⟨_, rfl⟩ ⟨_, rfl⟩).addRead ⟨_, rfl⟩ ⟨_, rfl⟩
  have hkeys : ∀ key ∈ keys, Placed key := by
    simp only [keys, List.forall_mem_cons]
    exact ⟨⟨_, rfl⟩, ⟨_, rfl⟩, ⟨_, rfl⟩, nofun⟩
  have hx : ("C1" : Text) ∈ keys := by decide
  have hy : ("D1" : Text) ∈ keys := by decide
  have hreads : graph.Reads "D1" "C1" := reads_addRead.mpr (.inr ⟨rfl, rfl⟩)
  obtain ⟨order, horder, -, hlast⟩ := idxOf_input_lt hgraph hkeys hx hy hreads
  have hBC : graph.ReadsAmong keys "B1" "C1" :=
    ⟨by decide, by decide, reads_addRead.mpr (.inl (reads_addRead.mpr (.inl
      (reads_addRead.mpr (.inr ⟨rfl, rfl⟩)))))⟩
  have hCB : graph.ReadsAmong keys "C1" "B1" :=
    ⟨by decide, by decide, reads_addRead.mpr (.inl (reads_addRead.mpr (.inr ⟨rfl, rfl⟩)))⟩
  have hbefore : StandsBefore Reference.parse? "C1" "D1" := by
    refine ⟨⟨2, 0⟩, rfl, fun q hq => ?_⟩
    cases hq
    exact .inr ⟨rfl, by decide⟩
  exact ⟨hgraph, hkeys, hx, hy, hreads, order, horder,
    (hlast ⟨"C1", .refl, (TransGen.single hCB).tail hBC⟩).1 hbefore⟩

/-- A cell that is on no cycle comes before its own input, where that is
on one and the grid has it later. -/
theorem downstream_before_input :
    let graph := (empty.addRead "B2" "B2").addRead "A1" "B2"
    let keys : List Text := ["A1", "B2"]
    graph.Reads "A1" "B2" ∧ ¬graph.OnCycleAmong keys "A1" ∧
      ∃ order, graph.evaluationOrder keys = .ok order ∧
        order.idxOf ("A1" : Text) < order.idxOf ("B2" : Text) := by
  intro graph keys
  refine ⟨reads_addRead.mpr (.inr ⟨rfl, rfl⟩), fun hcycle => ?_, ["A1", "B2"], by cbv, by decide⟩
  -- nothing reads the cell, so no cycle comes back to it
  obtain ⟨k, -, hlast⟩ := TransGen.tail'_iff.mp hcycle
  rcases reads_addRead.mp hlast.2.2 with h | ⟨-, h⟩
  · rcases reads_addRead.mp h with h | ⟨-, h⟩
    · cases h
    · revert h
      decide
  · revert h
    decide

end Spreadsheet.Graph

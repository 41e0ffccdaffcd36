/-
The order in which cells were entered.

# The same cells in another order

A store lists its cells in the order in which they were entered, and the
graph of the store follows it. Nothing that is asked of them depends on it.
Two stores with the same entries in another order find the same cells under
every key, so they evaluate alike (`refresh_eq_of_find?`) and their graphs
have the same edges (`sameEdges_of_find?`).

# The same answers

What an edit affects and changes, and the cycle that is found, are then the
same, whatever the order in which the sets of the two graphs are gone
through (`answers_of_perm`). This holds on cycles too, where what is
displayed depends on the order of evaluation: that order is decided by the
edges and by the grid, and by nothing else. A full pass goes through the
entries, so its changes come in another order, and are the same changes
(`recalculate_perm`).

# Places

Keys with places of their own are asked for. Two keys that name one place
are told apart by nothing in the grid, and then the one that was entered
first comes first.
-/
import Spreadsheet.Proofs.Dependency.Agreement
import Spreadsheet.Proofs.Recalculation.Affected
import Spreadsheet.Proofs.Recalculation.Pass

namespace Spreadsheet

namespace Store

open Spreadsheet.Graph (SameEdges Enumeration)

variable {settings : Settings} {s t : Store} {gs gt : Graph} {edited : Text}

-- ====================================================== stores with the same cells

/-- Stores that have the same cells evaluate alike. -/
theorem environment_eq_of_find? (hfind : ∀ key, s.find? key = t.find? key) (settings : Settings) :
    Environment.ofStore s settings = Environment.ofStore t settings := by
  unfold Environment.ofStore
  simp only [shown_congr (hfind _)]

theorem hasFormula_eq_of_find? (hfind : ∀ key, s.find? key = t.find? key) (key : Text) :
    s.hasFormula key = t.hasFormula key := by
  unfold hasFormula
  rw [hfind]

/-- A refresh sees of a store what stands under each key, and nothing of
how its entries are listed. -/
theorem refresh_eq_of_find? (hfind : ∀ key, s.find? key = t.find? key) (settings : Settings)
    (keys : List Text) : s.refresh settings keys = t.refresh settings keys := by
  induction keys generalizing s t with
  | nil => rfl
  | cons key keys ih =>
      rw [refresh, refresh, environment_eq_of_find? hfind, hfind, ih hfind]
      cases t.find? key with
      | none => rfl
      | some cell =>
          dsimp only
          have hput : ∀ other k, (s.put key other).find? k = (t.put key other).find? k := by
            intro other k
            rw [find?_put, find?_put, hfind]
          rw [ih (hput _)]

theorem Legible.of_find? (h : s.Legible) (hfind : ∀ key, s.find? key = t.find? key) :
    t.Legible where
  cells key cell hcell := h.cells key cell (hfind key ▸ hcell)
  keys key hformula := h.keys key (hasFormula_eq_of_find? hfind key ▸ hformula)

theorem sameEdges_of_find? (hfind : ∀ key, s.find? key = t.find? key)
    (hs : Graph.ofStore s = .ok gs) (ht : Graph.ofStore t = .ok gt) : SameEdges gs gt where
  mem_names key := by
    rw [Graph.mem_names_ofStore hs, Graph.mem_names_ofStore ht, hasFormula_eq_of_find? hfind]
  reads cell key := by
    rw [reads_ofStore hs, reads_ofStore ht]
    unfold Store.Reads
    rw [hfind]

-- ====================================================== two enumerations

section

variable (hs : Graph.ofStore s = .ok gs) (hplaces : DistinctPlaces s.entries.names)
include hs hplaces

/-- The cells of the graph of a store have places of their own if the
keys of the store have, since they are some of these keys. -/
theorem distinctPlaces_graph : DistinctPlaces gs.entries.names := by
  refine hplaces.subset fun key hkey => ?_
  obtain ⟨cell, hcell, -⟩ := hasFormula_iff.mp ((Graph.mem_names_ofStore hs).mp hkey)
  exact Entries.mem_names_iff.mpr ⟨cell, hcell⟩

variable (e : Enumeration gs) (e' : Enumeration gt) (hfind : ∀ key, s.find? key = t.find? key)
  (hsame : SameEdges gs gt)
include hfind hsame

/-- The cells that an edit affects come in the same order, since ties
are settled by their places. -/
theorem affected_eq_along (edited : Text) : e.affected s edited = e'.affected t edited := by
  refine e.evaluationOrder_congr e' hsame (distinctPlaces_graph hs hplaces)
    (fun key => ?_) fun key hkey => ?_
  · rw [List.mem_append, List.mem_append, e.mem_dependents_congr e' hsame,
      hasFormula_eq_of_find? hfind]
  · rcases List.mem_append.mp hkey with hkey | hkey
    · obtain ⟨r, hr, -⟩ := Relation.TransGen.head'_iff.mp (e.mem_dependents.mp hkey)
      exact Graph.mem_names_of_reads hr
    · split at hkey
      · next hformula =>
        rw [List.mem_singleton.mp hkey]
        exact (Graph.mem_names_ofStore hs).mpr hformula
      · cases hkey

/-- A refresh after an edit changes the same, and if the one fails so
does the other. A cycle is searched for in both, but what is found is
not used. -/
theorem recalculateDependents_eq_along (hlegible : gs.Legible) (settings : Settings)
    (edited : Text) :
    e.recalculateDependents s settings edited = e'.recalculateDependents t settings edited := by
  obtain ⟨path, hpath, hpath'⟩ :=
    e.cycle?_congr e' hsame (distinctPlaces_graph hs hplaces) hlegible
  unfold Enumeration.recalculateDependents
  rw [hpath, hpath', affected_eq_along hs hplaces e e' hfind hsame]
  simp only [refresh_eq_of_find? hfind]

end

-- ====================================================== the answers

/-- What is answered about the edit of a cell, by the graph as it is
listed and along every enumeration of it: the affected cells in order,
what a refresh changes, and the cycle found. -/
structure Answers (store : Store) (settings : Settings) (edited : Text) (graph : Graph)
    (order : List Text) (changes : Changes) (path : Option (List Text)) : Prop where
  affected : store.affected graph edited = .ok order
  affected_along : ∀ e : graph.Enumeration, e.affected store edited = .ok order
  changed : store.recalculateDependents settings graph edited = .ok changes
  changed_along : ∀ e : graph.Enumeration,
    e.recalculateDependents store settings edited = .ok changes
  cycle : graph.cycle? = .ok path
  cycle_along : ∀ e : graph.Enumeration, e.cycle? = .ok path

/-- What one store answers by its graph as it is listed, every store
with the same cells answers in all of these ways. -/
theorem answers_of_listed (hs : Graph.ofStore s = .ok gs)
    (hplaces : DistinctPlaces s.entries.names) (hlegible : gs.Legible)
    (hfind : ∀ key, s.find? key = t.find? key) (hsame : SameEdges gs gt)
    {order : List Text} {changes : Changes} {path : Option (List Text)}
    (haffected : s.affected gs edited = .ok order)
    (hchanged : s.recalculateDependents settings gs edited = .ok changes)
    (hcycle : gs.cycle? = .ok path) : t.Answers settings edited gt order changes path := by
  rw [← Enumeration.affected_asListed] at haffected
  rw [← Enumeration.recalculateDependents_asListed] at hchanged
  rw [← Enumeration.cycle?_asListed] at hcycle
  have haffected_along : ∀ e : gt.Enumeration, e.affected t edited = .ok order := fun e =>
    (affected_eq_along hs hplaces (.asListed gs) e hfind hsame edited).symm.trans haffected
  have hchanged_along : ∀ e : gt.Enumeration,
      e.recalculateDependents t settings edited = .ok changes := fun e =>
    (recalculateDependents_eq_along hs hplaces (.asListed gs) e hfind hsame hlegible settings
      edited).symm.trans hchanged
  have hcycle_along : ∀ e : gt.Enumeration, e.cycle? = .ok path := by
    intro e
    obtain ⟨path', hpath, hpath'⟩ := (Enumeration.asListed gs).cycle?_congr e hsame
      (distinctPlaces_graph hs hplaces) hlegible
    rw [hpath', ← hpath, hcycle]
  exact {
    affected := Enumeration.affected_asListed gt t edited ▸ haffected_along _
    affected_along := haffected_along
    changed := Enumeration.recalculateDependents_asListed gt t settings edited ▸ hchanged_along _
    changed_along := hchanged_along
    cycle := Enumeration.cycle?_asListed gt ▸ hcycle_along _
    cycle_along := hcycle_along }

-- ====================================================== insertion orders

section

variable (hentries : s.entries.Perm t.entries)
include hentries

/-- The same entries in another order are the same cells. -/
theorem find?_of_perm (key : Text) : s.find? key = t.find? key := by
  refine Option.ext fun cell => ?_
  rw [← mem_entries, ← mem_entries, hentries.mem_iff]

/-- A full pass changes the same, in the order of the entries, and so
the changes are equal up to their order. -/
theorem recalculate_perm (settings : Settings) :
    (s.recalculate settings).Perm (t.recalculate settings) := by
  have hchange : passChange settings s = passChange settings t := by
    unfold passChange
    rw [environment_eq_of_find? (find?_of_perm hentries)]
  rw [recalculate_eq, recalculate_eq, hchange]
  exact hentries.filterMap _

end

/-- The order in which cells were entered does not matter. Two stores
with the same entries in different orders, whose keys have places of
their own and whose formulas read keys that can be placed, have graphs
that give the same answers in every order of their sets. A full pass
changes a cell at most once, and the same in both. -/
theorem answers_of_perm (hentries : s.entries.Perm t.entries)
    (hplaces : DistinctPlaces s.entries.names) (hlegible : s.Legible) (settings : Settings)
    (edited : Text) :
    ∃ gs gt order changes path, Graph.ofStore s = .ok gs ∧ Graph.ofStore t = .ok gt ∧
      s.Answers settings edited gs order changes path ∧
      t.Answers settings edited gt order changes path ∧
      ((s.recalculate settings).map (·.1)).Nodup ∧
      (s.recalculate settings).Perm (t.recalculate settings) := by
  have hfind := find?_of_perm hentries
  obtain ⟨gs, order, changes, hs, haffected, -, hchanged⟩ :=
    hlegible.refresh_affected_ok settings edited
  obtain ⟨gt, ht, -⟩ := (hlegible.of_find? hfind).graph
  have hgraph : gs.Legible := by
    obtain ⟨graph, hgraph, hlegible⟩ := hlegible.graph
    rw [hs] at hgraph
    cases hgraph
    exact hlegible
  obtain ⟨path, hcycle⟩ := Graph.cycle?_ok hgraph
  have hself : s.Answers settings edited gs order changes path :=
    answers_of_listed hs hplaces hgraph (fun _ => rfl) (SameEdges.refl gs) haffected hchanged hcycle
  have hother : t.Answers settings edited gt order changes path :=
    answers_of_listed hs hplaces hgraph hfind (sameEdges_of_find? hfind hs ht) haffected hchanged
      hcycle
  exact ⟨gs, gt, order, changes, path, hs, ht, hself, hother, nodup_recalculate settings s,
    recalculate_perm hentries settings⟩

/-- Three cells, two of which read each other, entered in one order and
in the other. -/
theorem answers_of_perm_loop :
    let other := ((empty.typed "C1" "=B1").typed "B1" "=A1+C1").typed "A1" "5"
    loop.entries ≠ other.entries ∧ ∃ gs gt order changes path,
      Graph.ofStore loop = .ok gs ∧ Graph.ofStore other = .ok gt ∧
      loop.Answers { now := default } "A1" gs order changes path ∧
      other.Answers { now := default } "A1" gt order changes path ∧
      ((loop.recalculate { now := default }).map (·.1)).Nodup ∧
      (loop.recalculate { now := default }).Perm (other.recalculate { now := default }) := by
  intro other
  have hentries : loop.entries.Perm other.entries := List.reverse_perm other.entries
  have hfound : loop.entries.names.mapM Reference.parse?
      = .ok (([⟨0, 0⟩, ⟨1, 0⟩, ⟨2, 0⟩] : List Reference).map some) := by rfl
  have hplaces : DistinctPlaces loop.entries.names := distinctPlaces_of_mapM hfound (by decide)
  refine ⟨fun h => ?_, answers_of_perm hentries hplaces legible_loop { now := default } "A1"⟩
  have hnames : loop.entries.names = other.entries.names := congrArg _ h
  exact absurd hnames (by decide)

end Store

end Spreadsheet

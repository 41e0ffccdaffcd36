/-
Full passes, one after another.

# Rounds

A pass evaluates all formulas against the store before it, so a change moves
one step along the edges in each pass. Without cycles the passes come to
rest after as many rounds as there are formulas, whatever the formulas
showed at the start: in each round a formula whose inputs have settled
settles too, and as long as not all have, there is one (`agreeFrom_rounds`).

# Two stores at once

What is followed is not one store but two with the same input, and from
which round on they agree under a key (`AgreeFrom`), however many passes
each has gone through. Cells without a formula agree from the start. With
the second store one pass ahead of the first this says that the passes are
at rest; with another start it says that the start is forgotten.

# What this closes

What the passes come to rest at is what an edit leads to as well, since the
formulas have one solution where no cycle is (`eq_of_fresh`,
`passes_settle`).
-/
import Mathlib.Logic.Function.Iterate
import Spreadsheet.Proofs.Recalculation.History
import Spreadsheet.Proofs.Recalculation.Pass

namespace Spreadsheet.Store

variable {settings : Settings} {store s t : Store} {graph : Graph} {key : Text}

-- ====================================================== formulas

/-- The keys that hold formulas. -/
def formulaKeys (store : Store) : List Text :=
  (store.entries.filter fun entry => entry.2.hasFormula).map (·.1)

theorem mem_formulaKeys : key ∈ store.formulaKeys ↔ store.hasFormula key = true := by
  unfold formulaKeys
  rw [hasFormula_iff, List.mem_map]
  constructor
  · rintro ⟨⟨k, cell⟩, hmem, rfl⟩
    obtain ⟨hentry, hformula⟩ := List.mem_filter.mp hmem
    exact ⟨cell, mem_entries.mp hentry, hformula⟩
  · rintro ⟨cell, hcell, hformula⟩
    exact ⟨(key, cell), List.mem_filter.mpr ⟨mem_entries.mpr hcell, hformula⟩, rfl⟩

-- ====================================================== rounds

/-- The store after some full passes. -/
def passes (settings : Settings) (store : Store) (n : Nat) : Store :=
  (pass settings)^[n] store

theorem passes_succ (settings : Settings) (store : Store) (n : Nat) :
    store.passes settings (n + 1) = (store.passes settings n).pass settings :=
  Function.iterate_succ_apply' ..

/-- Passes keep a store of texts one, and its input. Only displays are
renewed, and a formula over texts shows a text. -/
theorem passes_spec (h : store.Textual) (settings : Settings) (n : Nat) :
    (store.passes settings n).Textual ∧ (store.passes settings n).inputs = store.inputs := by
  induction n with
  | zero => exact ⟨h, rfl⟩
  | succ n ih =>
      obtain ⟨htextual, hinputs⟩ := ih
      rw [passes_succ]
      exact ⟨htextual.pass settings, (inputs_pass htextual settings).trans hinputs⟩

/-- From some round on, two stores have the same cell under a key,
however many passes each has gone through. -/
def AgreeFrom (settings : Settings) (s t : Store) (n : Nat) (key : Text) : Prop :=
  ∀ i j, n ≤ i → n ≤ j → (s.passes settings i).find? key = (t.passes settings j).find? key

/-- What two stores agree on from some round on, they agree on from any
later round on. -/
theorem AgreeFrom.mono {n m : Nat} (h : AgreeFrom settings s t n key) (hle : n ≤ m) :
    AgreeFrom settings s t m key :=
  fun i j hi hj => h i j (hle.trans hi) (hle.trans hj)

section

variable (hs : s.Textual) (ht : t.Textual) (hinputs : s.inputs = t.inputs)
include hs ht hinputs

/-- What two stores were given is the same after any number of passes of
each. -/
theorem input?_passes (settings : Settings) (i j : Nat) (key : Text) :
    (s.passes settings i).input? key = (t.passes settings j).input? key := by
  have hi := (inputs_eq_iff.mp (passes_spec hs settings i).2).2 key
  have hj := (inputs_eq_iff.mp (passes_spec ht settings j).2).2 key
  rw [hi, hj, (inputs_eq_iff.mp hinputs).2]

/-- On cells without a formula two stores with the same input agree from
the start. -/
theorem agreeFrom_of_not_formula (h : ¬s.hasFormula key = true) :
    AgreeFrom settings s t 0 key := by
  intro i j _ _
  refine find?_eq_of_input? (input?_passes hs ht hinputs settings i j key) ?_
  intro cell _ hcell _ _ hformula
  have hinput := (inputs_eq_iff.mp (passes_spec hs settings i).2).2 key
  rw [← hasFormula_eq_of_input? hinput] at h
  exact absurd (hasFormula_iff.mpr ⟨cell, hcell, hformula⟩) h

/-- A round after two stores agree on all that a cell reads, they agree
on the cell. -/
theorem agreeFrom_succ (hgraph : Graph.ofStore s = .ok graph) {n : Nat}
    (h : ∀ r, graph.Reads key r → AgreeFrom settings s t n r) :
    AgreeFrom settings s t (n + 1) key := by
  intro i j hi hj
  -- both have gone through a pass, against stores that agree on what the cell reads
  obtain ⟨i, rfl⟩ : ∃ k, i = k + 1 := ⟨i - 1, by omega⟩
  obtain ⟨j, rfl⟩ : ∃ k, j = k + 1 := ⟨j - 1, by omega⟩
  have hinput := input?_passes hs ht hinputs settings (i + 1) (j + 1) key
  refine find?_eq_of_input? hinput fun cell cell' hcell hcell' hsame hformula => ?_
  have hformula' : cell'.hasFormula = true := Cell.hasFormula_congr hsame ▸ hformula
  have hgraph' : Graph.ofStore (s.passes settings (i + 1)) = .ok graph :=
    (Graph.ofStore_congr (passes_spec hs settings (i + 1)).2).trans hgraph
  have hagree : ∀ r, graph.Reads key r →
      (s.passes settings i).shown r = (t.passes settings j).shown r :=
    fun r hr => shown_congr (h r hr i j (by omega) (by omega))
  have hdisplay := evaluate_congr hgraph' hcell settings hagree
  rw [passes_succ] at hcell hcell'
  rw [display_pass (passes_spec hs settings i).1 hcell hformula, hdisplay, hsame,
    display_pass (passes_spec ht settings j).1 hcell' hformula']

/-- Without cycles two stores with the same input agree after as many
rounds as there are formulas: a round settles at least one more of
them. -/
theorem agreeFrom_rounds (settings : Settings) (hgraph : Graph.ofStore s = .ok graph)
    (hacyclic : graph.Acyclic) : ∀ key, AgreeFrom settings s t s.formulaKeys.length key := by
  refine Graph.forall_of_rounds (fun key => Graph.founded_of_grounded (hacyclic.grounded key))
    s.formulaKeys (fun key hkey => ?_) (fun i key h => h.mono (Nat.le_succ i)) fun i key h => ?_
  · exact agreeFrom_of_not_formula hs ht hinputs fun h => hkey (mem_formulaKeys.mpr h)
  · exact agreeFrom_succ hs ht hinputs hgraph h

end

-- ====================================================== at rest

/-- Without cycles the passes are at rest after as many rounds as there
are formulas, since a store agrees with itself one pass later. -/
theorem recalculate_passes_eq_nil (htextual : store.Textual)
    (hgraph : Graph.ofStore store = .ok graph) (hacyclic : graph.Acyclic) :
    (store.passes settings store.formulaKeys.length).recalculate settings = [] := by
  have hrest := passes_spec htextual settings store.formulaKeys.length
  refine (recalculate_eq_nil_iff hrest.1).mpr fun key cell hcell hformula => ?_
  have hagree := agreeFrom_rounds htextual htextual rfl settings hgraph hacyclic key
    _ _ (Nat.le_succ _) (Nat.le_refl _)
  rw [← hagree, passes_succ] at hcell
  exact display_pass hrest.1 hcell hformula

/-- Two stores with the same input and fresh formulas that form no cycle
are the same store. -/
theorem eq_of_fresh (hinputs : s.inputs = t.inputs) (hgraph : Graph.ofStore s = .ok graph)
    (hacyclic : graph.Acyclic) (hs : ∀ key, Fresh settings s key)
    (ht : ∀ key, Fresh settings t key) : s = t := by
  obtain ⟨hnames, hinput⟩ := inputs_eq_iff.mp hinputs
  refine eq_of_find? hnames fun key => ?_
  exact find?_eq_of_fresh hgraph hinput (fun k _ => hs k) (fun k _ => ht k)
    (Graph.founded_of_grounded (hacyclic.grounded key))

/-- Passes settle. In a store of texts without cycles, as many rounds as
there are formulas leave nothing to change, and where they end does not
depend on what the formulas showed at the start. If a store is at rest,
then an edit of it that succeeds and leaves no cycle leads to where
passes come to rest after the content is typed in. -/
theorem passes_settle (settings : Settings) :
    (∀ store graph, Textual store → Graph.ofStore store = .ok graph → graph.Acyclic →
      (store.passes settings store.formulaKeys.length).recalculate settings = [] ∧
      ∀ other : Store, other.Textual → other.inputs = store.inputs →
        other.passes settings store.formulaKeys.length
          = store.passes settings store.formulaKeys.length) ∧
    ∀ store key raw result graph, Textual store → store.recalculate settings = [] →
      store.edit settings key raw = .ok result → Graph.ofStore result = .ok graph →
      graph.Acyclic →
      ((store.typed key raw).passes settings (store.typed key raw).formulaKeys.length).recalculate
        settings = [] ∧
      ∀ n, ((store.typed key raw).passes settings n).recalculate settings = [] →
        (store.typed key raw).passes settings n = result := by
  constructor
  · intro store graph htextual hgraph hacyclic
    refine ⟨recalculate_passes_eq_nil htextual hgraph hacyclic, fun other hother hinputs => ?_⟩
    have hnames := (inputs_eq_iff.mp ((passes_spec hother settings store.formulaKeys.length).2.trans
      (hinputs.trans (passes_spec htextual settings store.formulaKeys.length).2.symm))).1
    refine eq_of_find? hnames fun key => ?_
    exact (agreeFrom_rounds htextual hother hinputs.symm settings hgraph hacyclic key _ _
      (Nat.le_refl _) (Nat.le_refl _)).symm
  · intro store key raw result graph htextual hrest hedit hgraph hacyclic
    obtain ⟨graph', order, hedited⟩ := edit_eq_ok htextual hedit
    obtain rfl : graph' = graph := Except.ok.inj (hedited.graph_result.symm.trans hgraph)
    have htyped := htextual.typed key raw
    -- at rest before the edit, the cells that are not affected were fresh already
    have hfresh : ∀ k, Fresh settings result k := fun k =>
      hedited.fresh (Graph.founded_of_grounded (hacyclic.grounded k))
        fun _ _ => (recalculate_eq_nil_iff htextual).mp hrest k
    refine ⟨recalculate_passes_eq_nil htyped hedited.graph_typed hacyclic, fun n hn => ?_⟩
    obtain ⟨htextual', hinputs⟩ := passes_spec htyped settings n
    exact (eq_of_fresh (hedited.inputs.trans hinputs.symm) hgraph hacyclic hfresh
      ((recalculate_eq_nil_iff htextual').mp hn)).symm

/-- A chain of two formulas settles from whatever they show, and an edit
of the cell that they read in the end leads to where they settle
again. -/
theorem passes_settle_chain :
    ∃ s t u graph graph',
      Textual s ∧ Textual t ∧ t.inputs = s.inputs ∧ Graph.ofStore s = .ok graph ∧
      graph.Acyclic ∧
      (s.passes { now := default } s.formulaKeys.length).recalculate { now := default } = [] ∧
      t.passes { now := default } s.formulaKeys.length
        = s.passes { now := default } s.formulaKeys.length ∧
      (s.passes { now := default } s.formulaKeys.length).edit { now := default } "c1" "y"
        = .ok u ∧
      Graph.ofStore u = .ok graph' ∧ graph'.Acyclic ∧
      ∃ n, ((s.passes { now := default } s.formulaKeys.length).typed "c1" "y").passes
        { now := default } n = u := by
  let formulas : Store := (empty.typed "a1" "=CONCAT(B1)").typed "b1" "=CONCAT(C1)"
  let s : Store := formulas.typed "c1" "x"
  let t : Store := ((empty.put "A1" ⟨[], some (.text "=CONCAT(B1)"), some (.text "p")⟩).put
    "B1" ⟨[], some (.text "=CONCAT(C1)"), some (.text "q")⟩).put "C1" (Cell.ofInput "x")
  have hs : s.Textual := ((textual_empty.typed _ _).typed _ _).typed _ _
  have ht : t.Textual := ((textual_empty.put ⟨textOrNone_text _, textOrNone_text _⟩).put
    ⟨textOrNone_text _, textOrNone_text _⟩).put (Cell.textual_ofInput _)
  have hinputs : t.inputs = s.inputs := rfl
  have hlegible : s.Legible := ((legible_empty.typed
    ⟨⟨_, rfl⟩, ["B1"], rfl, List.forall_mem_singleton.mpr ⟨_, rfl⟩⟩).typed
    ⟨⟨_, rfl⟩, ["C1"], rfl, List.forall_mem_singleton.mpr ⟨_, rfl⟩⟩).typed
    ⟨⟨_, rfl⟩, [], rfl, nofun⟩
  -- each formula reads the cell after it, and what is typed into the last cell reads nothing
  have hacyclic : ∀ (store : Store) (graph : Graph) (raw : Text),
      (Cell.ofInput raw).input.reads = .ok [] → Graph.ofStore store = .ok graph →
      (∀ key, store.input? key = (formulas.typed "c1" raw).input? key) → graph.Acyclic := by
    intro store graph raw hraw hgraph hinput
    refine Graph.acyclic_of_founded (Graph.founded_of_rank (["C1", "B1", "A1"].idxOf ·) ?_)
    intro cell key hreads
    obtain ⟨c, keys, hc, hkeys, hkey⟩ := (Graph.reads_iff_input? hgraph).mp hreads
    rw [hinput, input?_typed, input?_typed, input?_typed] at hc
    split at hc
    · cases hc
      rw [hraw] at hkeys
      cases hkeys
      cases hkey
    · split at hc
      · next hcell =>
        cases hc
        obtain rfl : [Text.ofString "C1"] = keys := Except.ok.inj hkeys
        rw [hcell, List.mem_singleton.mp hkey]
        decide
      · split at hc
        · next hcell =>
          cases hc
          obtain rfl : [Text.ofString "B1"] = keys := Except.ok.inj hkeys
          rw [hcell, List.mem_singleton.mp hkey]
          decide
        · cases hc
  obtain ⟨graph, hgraph, -⟩ := hlegible.graph
  have hgraphAcyclic := hacyclic s graph "x" rfl hgraph fun _ => rfl
  obtain ⟨hrest, hsame⟩ := (passes_settle { now := default }).1 s graph hs hgraph hgraphAcyclic
  obtain ⟨hrestTextual, hrestInputs⟩ := passes_spec hs { now := default } s.formulaKeys.length
  have hedit : LegibleEdit ("c1", "y") := ⟨⟨_, rfl⟩, [], rfl, nofun⟩
  obtain ⟨u, hu⟩ := edit_ok { now := default }
    ((hlegible.of_inputs hrestInputs.symm).typed hedit)
  obtain ⟨graph', order, hedited⟩ := edit_eq_ok hrestTextual hu
  have hgraphAcyclic' : graph'.Acyclic := by
    refine hacyclic u graph' "y" rfl hedited.graph_result fun key => ?_
    rw [(inputs_eq_iff.mp hedited.inputs).2, input?_typed, input?_typed]
    by_cases hkey : key = Text.upper "c1"
    · rw [if_pos hkey, if_pos hkey]
    · rw [if_neg hkey, if_neg hkey, (inputs_eq_iff.mp hrestInputs).2, input?_typed, if_neg hkey]
  obtain ⟨hsettled, hresult⟩ := (passes_settle { now := default }).2 _ _ _ u graph' hrestTextual
    hrest hu hedited.graph_result hgraphAcyclic'
  exact ⟨s, t, u, graph, graph', hs, ht, hinputs, hgraph, hgraphAcyclic, hrest,
    hsame t ht hinputs, hu, hedited.graph_result, hgraphAcyclic', _, hresult _ hsettled⟩

end Spreadsheet.Store

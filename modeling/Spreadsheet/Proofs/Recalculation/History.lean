/-
Independence of the history.

# What is left of a history

What edits lead to is settled by what was last typed into each cell, if the
formulas typed form no cycle in the end: neither the order of the edits nor
what was overwritten leaves a trace, whatever cycles there were on the way
(`find?_eq_of_lastTyped`). Two edits of different cells, one after the
other, may change places, for the same content is last typed either way
(`lastTyped_swap`).

# One solution

The reason is that the formulas have one solution. Edits lead to consistent
stores, and the input of a store is what was last typed (`editAll_spec`);
two stores with the same input, whose formulas are fresh as far as their
chains of reads end, show the same there, by induction on these chains
(`find?_eq_of_fresh`). Where there is no cycle all chains end, and the
stores have the same cells.

# Order of entries

The cells are compared under their keys. The order in which a store lists
them does depend on the history, for a key stands where it was first
entered.
-/
import Spreadsheet.Proofs.Recalculation.Consistency
import Spreadsheet.Proofs.Recalculation.Success

namespace Spreadsheet.Store

variable {settings : Settings} {store result s t : Store} {graph : Graph} {key : Text}

-- ====================================================== one solution

/-- Two stores with the same input that are fresh where chains of reads
end have the same cells there. The induction is on the chains: what a
formula reads is the same in both, so it evaluates to the same. -/
theorem find?_eq_of_fresh (hgraph : Graph.ofStore s = .ok graph)
    (hinput : ∀ key, s.input? key = t.input? key)
    (hs : ∀ key, graph.Founded key → Fresh settings s key)
    (ht : ∀ key, graph.Founded key → Fresh settings t key) (hkey : graph.Founded key) :
    s.find? key = t.find? key := by
  induction hkey with
  | intro k hk ih =>
      have hfounded : graph.Founded k := Acc.intro k hk
      refine find?_eq_of_input? (hinput k) fun cell cell' hcell hcell' hsame hformula => ?_
      have hformula' : cell'.hasFormula = true := Cell.hasFormula_congr hsame ▸ hformula
      calc cell.display
          = Eval.evaluate (.ofStore s settings) cell.formula := hs k hfounded cell hcell hformula
        _ = Eval.evaluate (.ofStore t settings) cell.formula :=
            evaluate_congr hgraph hcell settings fun r hr => shown_congr (ih r hr)
        _ = Eval.evaluate (.ofStore t settings) cell'.formula := by rw [hsame]
        _ = cell'.display := (ht k hfounded cell' hcell' hformula').symm

-- ====================================================== what was last typed

/-- The content last typed into a cell by some edits, if any of them was
made there. -/
def lastTyped : List (Text × Text) → Text → Option Text
  | [], _ => none
  | (cell, raw) :: edits, key =>
    (lastTyped edits key).or (if key = Text.upper cell then some raw else none)

/-- What is typed over leaves no trace, so an edit may be struck from a
history if a later one is of the same cell. -/
theorem lastTyped_cons_of_typed {cell raw key : Text} {edits : List (Text × Text)}
    (h : key = Text.upper cell → (lastTyped edits key).isSome = true) :
    lastTyped ((cell, raw) :: edits) key = lastTyped edits key := by
  rw [lastTyped]
  by_cases hkey : key = Text.upper cell
  · obtain ⟨last, hlast⟩ := Option.isSome_iff_exists.mp (h hkey)
    rw [hlast, Option.some_or]
  · rw [if_neg hkey, Option.or_none]

/-- Later edits are asked first for what was last typed, and earlier
ones only where the later ones did not touch the cell. -/
theorem lastTyped_append (edits edits' : List (Text × Text)) (key : Text) :
    lastTyped (edits ++ edits') key = (lastTyped edits' key).or (lastTyped edits key) := by
  induction edits with
  | nil => rw [List.nil_append, lastTyped, Option.or_none]
  | cons edit edits ih => rw [List.cons_append, lastTyped, lastTyped, ih, Option.or_assoc]

/-- Two edits of different cells, one after the other, may change
places. -/
theorem lastTyped_swap {a b : Text × Text} (h : Text.upper a.1 ≠ Text.upper b.1)
    (before after : List (Text × Text)) (key : Text) :
    lastTyped (before ++ a :: b :: after) key = lastTyped (before ++ b :: a :: after) key := by
  rw [lastTyped_append, lastTyped_append]
  congr 1
  by_cases ha : key = Text.upper a.1
  · have hb : key ≠ Text.upper b.1 := fun hb => h (ha.symm.trans hb)
    simp only [lastTyped, if_neg hb, Option.or_none]
  · simp only [lastTyped, if_neg ha, Option.or_none]

-- ====================================================== runs of edits

/-- The store that edits lead to from another, if none of them fails. -/
def editAll (settings : Settings) (store : Store) (edits : List (Text × Text)) :
    Except Fault Store :=
  edits.foldlM (fun store edit => store.edit settings edit.1 edit.2) store

theorem input?_typed (store : Store) (cell raw key : Text) :
    (store.typed cell raw).input? key
      = if key = Text.upper cell then some (Cell.ofInput raw).input else store.input? key := by
  unfold input? typed
  rw [find?_put]
  by_cases h : key = Text.upper cell
  · rw [if_pos h, if_pos h]
    rfl
  · rw [if_neg h, if_neg h]

/-- Edits keep a store consistent, and its input is what was last typed,
or what was there before. -/
theorem editAll_spec (h : Consistent settings store) {edits : List (Text × Text)}
    (hedits : store.editAll settings edits = .ok result) :
    Consistent settings result ∧
      ∀ key, result.input? key
        = ((lastTyped edits key).map fun raw => (Cell.ofInput raw).input).or
          (store.input? key) := by
  induction edits generalizing store with
  | nil =>
      cases hedits
      exact ⟨h, fun key => (Option.none_or).symm⟩
  | cons edit edits ih =>
      obtain ⟨cell, raw⟩ := edit
      unfold editAll at hedits
      rw [List.foldlM_cons] at hedits
      obtain ⟨mid, hmid, hedits⟩ := bind_eq_ok.mp hedits
      obtain ⟨_, _, hedited⟩ := edit_eq_ok h.textual hmid
      obtain ⟨hresult, hinput⟩ := ih (h.edit hmid) hedits
      refine ⟨hresult, fun key => ?_⟩
      rw [hinput key, (inputs_eq_iff.mp hedited.inputs).2 key, input?_typed, lastTyped]
      by_cases hkey : key = Text.upper cell
      · rw [if_pos hkey, if_pos hkey]
        cases lastTyped edits key <;> rfl
      · rw [if_neg hkey, if_neg hkey, Option.or_none]

/-- Edits of legible content under keys that can be placed all
succeed. -/
theorem editAll_ok (hconsistent : Consistent settings store) (h : store.Legible)
    {edits : List (Text × Text)} (hedits : ∀ edit ∈ edits, LegibleEdit edit) :
    ∃ result, store.editAll settings edits = .ok result := by
  induction edits generalizing store with
  | nil => exact ⟨store, rfl⟩
  | cons edit edits ih =>
      have htyped : (store.typed edit.1 edit.2).Legible :=
        h.typed (hedits edit (List.mem_cons_self ..))
      obtain ⟨mid, hmid⟩ := edit_ok settings htyped
      obtain ⟨_, _, hedited⟩ := edit_eq_ok hconsistent.textual hmid
      obtain ⟨result, hresult⟩ := ih (hconsistent.edit hmid)
        (htyped.of_inputs hedited.inputs.symm) fun e he => hedits e (List.mem_cons_of_mem _ he)
      refine ⟨result, ?_⟩
      unfold editAll
      rw [List.foldlM_cons]
      exact bind_eq_ok.mpr ⟨mid, hmid, hresult⟩

-- ====================================================== independence

/-- Two consistent stores with the same input, whose formulas form no
cycle, have the same cells. -/
theorem Consistent.find?_eq (hs : Consistent settings s) (ht : Consistent settings t)
    (hinput : ∀ key, s.input? key = t.input? key) (hgraph : Graph.ofStore s = .ok graph)
    (hacyclic : graph.Acyclic) (key : Text) : s.find? key = t.find? key := by
  obtain ⟨graph', hgraph', hfresh⟩ := hs.fresh
  rw [hgraph] at hgraph'
  cases hgraph'
  obtain ⟨other, hother, hfreshT⟩ := ht.fresh
  refine find?_eq_of_fresh hgraph hinput hfresh (fun k hk => hfreshT k ?_)
    (Graph.founded_of_grounded (hacyclic.grounded key))
  refine hk.of_subgraph (fun _ => True) (fun k _ r hr => ⟨?_, trivial⟩) trivial
  unfold Graph.Reads at hr ⊢
  rwa [Graph.reads_eq_of_input? hgraph hother (hinput k)]

/-- Edits that all succeed and leave the same content last typed into
every cell lead to the same cells, if the formulas in the end form no
cycle. So do, in particular, two runs in which two edits of different
cells, one after the other, have changed places. -/
theorem find?_eq_of_lastTyped (settings : Settings) :
    (∀ xs ys s t graph, editAll settings empty xs = .ok s → editAll settings empty ys = .ok t →
      (∀ key, lastTyped xs key = lastTyped ys key) → Graph.ofStore s = .ok graph →
      graph.Acyclic → ∀ key, s.find? key = t.find? key) ∧
    ∀ before a b after s t graph, Text.upper a.1 ≠ Text.upper b.1 →
      editAll settings empty (before ++ a :: b :: after) = .ok s →
      editAll settings empty (before ++ b :: a :: after) = .ok t →
      Graph.ofStore s = .ok graph → graph.Acyclic → ∀ key, s.find? key = t.find? key := by
  have hlast : ∀ xs ys s t graph, editAll settings empty xs = .ok s →
      editAll settings empty ys = .ok t → (∀ key, lastTyped xs key = lastTyped ys key) →
      Graph.ofStore s = .ok graph → graph.Acyclic → ∀ key, s.find? key = t.find? key := by
    intro xs ys s t graph hs ht hlast hgraph hacyclic
    obtain ⟨hconsistent, hinput⟩ := editAll_spec (consistent_empty settings) hs
    obtain ⟨hconsistent', hinput'⟩ := editAll_spec (consistent_empty settings) ht
    refine hconsistent.find?_eq hconsistent' (fun key => ?_) hgraph hacyclic
    rw [hinput, hinput', hlast]
  refine ⟨hlast, fun before a b after s t graph hne hs ht hgraph hacyclic => ?_⟩
  exact hlast _ _ s t graph hs ht (lastTyped_swap hne before after) hgraph hacyclic

/-- Two edits lead to the same cells in either order, and also where an
edit before them makes them close a cycle and open it again. -/
theorem find?_eq_past_cycle :
    ∃ s t u graph,
      editAll { now := default } empty [("a1", "=CONCAT(B1)"), ("b1", "x")] = .ok s ∧
      editAll { now := default } empty [("b1", "x"), ("a1", "=CONCAT(B1)")] = .ok t ∧
      editAll { now := default } empty
        [("b1", "=CONCAT(A1)"), ("a1", "=CONCAT(B1)"), ("b1", "x")] = .ok u ∧
      Graph.ofStore s = .ok graph ∧ graph.Acyclic ∧
      (∀ key, s.find? key = t.find? key) ∧ ∀ key, s.find? key = u.find? key := by
  have hfirst : LegibleEdit ("a1", "=CONCAT(B1)") :=
    ⟨⟨_, rfl⟩, ["B1"], rfl, List.forall_mem_singleton.mpr ⟨_, rfl⟩⟩
  have hsecond : LegibleEdit ("b1", "x") := ⟨⟨_, rfl⟩, [], rfl, nofun⟩
  have hclosing : LegibleEdit ("b1", "=CONCAT(A1)") :=
    ⟨⟨_, rfl⟩, ["A1"], rfl, List.forall_mem_singleton.mpr ⟨_, rfl⟩⟩
  have hrun : ∀ edits : List (Text × Text), (∀ edit ∈ edits, LegibleEdit edit) →
      ∃ result, editAll { now := default } empty edits = .ok result :=
    fun _ => editAll_ok (consistent_empty _) legible_empty
  obtain ⟨s, hs⟩ := hrun [("a1", "=CONCAT(B1)"), ("b1", "x")] (by simp [hfirst, hsecond])
  obtain ⟨t, ht⟩ := hrun [("b1", "x"), ("a1", "=CONCAT(B1)")] (by simp [hfirst, hsecond])
  obtain ⟨u, hu⟩ := hrun [("b1", "=CONCAT(A1)"), ("a1", "=CONCAT(B1)"), ("b1", "x")]
    (by simp [hfirst, hsecond, hclosing])
  obtain ⟨hconsistent, hinput⟩ := editAll_spec (consistent_empty _) hs
  obtain ⟨graph, hgraph, -⟩ := hconsistent.fresh
  have hacyclic : graph.Acyclic := by
    refine Graph.acyclic_of_founded (Graph.founded_of_rank (["B1", "A1"].idxOf ·) ?_)
    intro cell key hreads
    obtain ⟨c, keys, hc, hkeys, hkey⟩ := (Graph.reads_iff_input? hgraph).mp hreads
    rw [hinput] at hc
    by_cases hb : cell = Text.upper "b1"
    · subst hb
      obtain rfl : (Cell.ofInput "x").input = c := Option.some.inj hc
      cases hkeys
      cases hkey
    · by_cases ha : cell = Text.upper "a1"
      · subst ha
        obtain rfl : (Cell.ofInput "=CONCAT(B1)").input = c := Option.some.inj hc
        obtain rfl : [Text.ofString "B1"] = keys := Except.ok.inj hkeys
        rw [List.mem_singleton.mp hkey]
        decide
      · have hnone : lastTyped [("a1", "=CONCAT(B1)"), ("b1", "x")] cell = none := by
          rw [lastTyped, lastTyped, lastTyped, if_neg ha, if_neg hb]
          rfl
        rw [hnone] at hc
        cases hc
  have hlast : ∀ key, lastTyped [("a1", "=CONCAT(B1)"), ("b1", "x")] key
      = lastTyped [("b1", "=CONCAT(A1)"), ("a1", "=CONCAT(B1)"), ("b1", "x")] key := by
    refine fun key => (lastTyped_cons_of_typed fun h => ?_).symm
    rw [h]
    decide
  exact ⟨s, t, u, graph, hs, ht, hu, hgraph, hacyclic,
    (find?_eq_of_lastTyped _).2 [] _ _ [] _ _ _ (by decide) hs ht hgraph hacyclic,
    (find?_eq_of_lastTyped _).1 _ _ _ _ _ hs hu hlast hgraph hacyclic⟩

end Spreadsheet.Store

/-
Cells on cycles, and cells that reach none.

# Chains of reads

A cell from which no cycle is reached along the edges is well founded: every
chain of reads from it ends (`founded_of_grounded`), since only cells with
an entry read anything and these are finitely many. The converse is easy,
for a cycle is a chain that goes on. So the two notions are the same
(`grounded_iff_founded`), and facts about cells that reach no cycle are
proved by induction on what they read.

# Lowest cells

If something fails of such a cell, it fails of a cell all of whose reads
have it (`exists_lowest`). This is the induction turned round, and it gives
a bound on rounds: a property that a cell gets one round after everything it
reads is had by all cells after as many rounds as there are cells without it
at the start (`forall_of_rounds`), because in every round a lowest cell gets
it.

# Ranks

A graph in which every cell ranks above what it reads has no cycle
(`founded_of_rank`). Concrete graphs are shown to be acyclic in this way.
-/
import Mathlib.Data.Finset.Card
import Mathlib.Data.Fintype.Order
import Mathlib.Logic.Relation
import Spreadsheet.Proofs.Dependency.Edges

namespace Spreadsheet.Graph

open Relation (TransGen ReflTransGen)

variable {graph : Graph} {key : Text}

-- ====================================================== cycles

/-- A cell that reads itself, directly or through other cells. -/
def OnCycle (graph : Graph) (key : Text) : Prop := TransGen graph.Reads key key

/-- No cell is on a cycle. -/
def Acyclic (graph : Graph) : Prop := ∀ key, ¬graph.OnCycle key

/-- A cell that is on no cycle, and reads none through other cells. -/
def Grounded (graph : Graph) (key : Text) : Prop :=
  ∀ k, ReflTransGen graph.Reads key k → ¬graph.OnCycle k

-- ====================================================== chains that end

/-- Every chain of reads from the cell ends. -/
def Founded (graph : Graph) (key : Text) : Prop := Acc (fun a b => graph.Reads b a) key

theorem Acyclic.grounded (h : graph.Acyclic) (key : Text) : graph.Grounded key :=
  fun k _ => h k

/-- Chains from a cell end if those from all it reads do. -/
theorem Founded.of_reads (h : ∀ k, graph.Reads key k → graph.Founded k) : graph.Founded key :=
  Acc.intro key h

theorem Founded.reads {k : Text} (h : graph.Founded key) (hreads : graph.Reads key k) :
    graph.Founded k :=
  Acc.inv h hreads

theorem founded_of_not_mem (h : key ∉ graph.entries.names) : graph.Founded key :=
  Founded.of_reads fun _ hreads => absurd (mem_names_of_reads hreads) h

/-- The cells with an entry that a cell reads, directly or through
others, and itself. -/
def Reached (graph : Graph) (key : Text) : Type :=
  { k : Text // k ∈ graph.entries.names ∧ ReflTransGen graph.Reads key k }

instance (graph : Graph) (key : Text) : Finite (graph.Reached key) :=
  Set.Finite.subset (List.finite_toSet graph.entries.names) fun _ hk => hk.1

/-- Below a cell that reaches no cycle there are finitely many cells,
and none of them comes back to itself. -/
theorem wellFounded_below (h : graph.Grounded key) :
    WellFounded fun a b : graph.Reached key => TransGen graph.Reads b.1 a.1 := by
  have htrans : IsTrans (graph.Reached key) fun a b => TransGen graph.Reads b.1 a.1 :=
    ⟨fun a b c hab hbc => hbc.trans hab⟩
  have hirrefl : Std.Irrefl fun a b : graph.Reached key => TransGen graph.Reads b.1 a.1 :=
    ⟨fun a haa => h a.1 a.2.2 haa⟩
  exact Finite.wellFounded_of_trans_of_irrefl _

/-- Where no cycle can be reached, every chain of reads ends: the cells
with an entry are finitely many, so a chain that did not end would come
back to one of them. -/
theorem founded_of_grounded (h : graph.Grounded key) : graph.Founded key := by
  have hreached : ∀ a : graph.Reached key, graph.Founded a.1 := by
    intro a
    induction a using (wellFounded_below h).induction with
    | _ a ih =>
        refine Founded.of_reads fun k hk => ?_
        by_cases hmem : k ∈ graph.entries.names
        · exact ih ⟨k, hmem, a.2.2.tail hk⟩ (TransGen.single hk)
        · exact founded_of_not_mem hmem
  by_cases hmem : key ∈ graph.entries.names
  · exact hreached ⟨key, hmem, ReflTransGen.refl⟩
  · exact founded_of_not_mem hmem

/-- Chains of reads end in a graph too that, on some cells, has no other
edges and stays among these cells. -/
theorem Founded.of_subgraph {graph' : Graph} (h : graph.Founded key) (inside : Text → Prop)
    (hsub : ∀ k, inside k → ∀ r, graph'.Reads k r → graph.Reads k r ∧ inside r)
    (hkey : inside key) : graph'.Founded key := by
  induction h with
  | intro k _ ih =>
      refine Founded.of_reads fun r hr => ?_
      obtain ⟨hreads, hinside⟩ := hsub k hkey r hr
      exact ih r hreads hinside

/-- A cell on a cycle has a chain of reads that never ends, so its
chains do not all end. -/
theorem Founded.not_onCycle (h : graph.Founded key) : ¬graph.OnCycle key := by
  intro hcycle
  induction h with
  | intro k _ ih =>
      obtain ⟨r, hreads, hback⟩ := TransGen.head'_iff.mp hcycle
      exact ih r hreads (TransGen.tail' hback hreads)

/-- The cells whose chains of reads all end are those that reach no
cycle. -/
theorem grounded_iff_founded : graph.Grounded key ↔ graph.Founded key := by
  constructor
  · exact founded_of_grounded
  · intro h k hk
    induction hk using Relation.ReflTransGen.head_induction_on with
    | refl => exact h.not_onCycle
    | head hreads _ ih => exact ih (h.reads hreads)

/-- Where a property fails and chains of reads end, it fails of a cell
all of whose reads have it. -/
theorem exists_lowest {p : Text → Prop} (h : graph.Founded key) (hkey : ¬p key) :
    ∃ k, ¬p k ∧ ∀ r, graph.Reads k r → p r := by
  induction h with
  | intro k _ ih =>
      by_cases hreads : ∀ r, graph.Reads k r → p r
      · exact ⟨k, hkey, hreads⟩
      · push Not at hreads
        obtain ⟨r, hr, hpr⟩ := hreads
        exact ih r hr hpr

-- ====================================================== rounds

/-- A property that a cell has one round after all it reads comes to
hold of every cell in as many rounds as there are cells that do not have
it from the start: in every round there is a lowest cell without it, and
that cell gets it. -/
theorem forall_of_rounds {p : Nat → Text → Prop} (hfounded : ∀ key, graph.Founded key)
    (cells : List Text) (hothers : ∀ key, key ∉ cells → p 0 key)
    (hmono : ∀ i key, p i key → p (i + 1) key)
    (hround : ∀ i key, (∀ r, graph.Reads key r → p i r) → p (i + 1) key) :
    ∀ key, p cells.length key := by
  classical
  have hlater : ∀ i key, p 0 key → p i key := by
    intro i key h
    induction i with
    | zero => exact h
    | succ i ih => exact hmono i key ih
  have hcount : ∀ i, (∀ key, p i key) ∨ i ≤ (cells.toFinset.filter (p i)).card := by
    intro i
    induction i with
    | zero => exact .inr (Nat.zero_le _)
    | succ i ih =>
        by_cases hall : ∀ key, p i key
        · exact .inl fun key => hmono i key (hall key)
        · push Not at hall
          obtain ⟨key, hkey⟩ := hall
          obtain ⟨low, hlow, hreads⟩ := exists_lowest (hfounded key) hkey
          have hmem : low ∈ cells.toFinset.filter (p (i + 1)) := by
            refine Finset.mem_filter.mpr ⟨List.mem_toFinset.mpr ?_, hround i low hreads⟩
            by_contra hcells
            exact hlow (hlater i low (hothers low hcells))
          have hsub : cells.toFinset.filter (p i) ⊂ cells.toFinset.filter (p (i + 1)) := by
            refine ⟨Finset.monotone_filter_right _ fun k _ => hmono i k, fun hback => hlow ?_⟩
            exact (Finset.mem_filter.mp (hback hmem)).2
          have hlt := Finset.card_lt_card hsub
          have hle := ih.resolve_left fun h => hkey (h key)
          exact .inr (by omega)
  intro key
  rcases hcount cells.length with hall | hle
  · exact hall key
  · by_cases hkey : key ∈ cells
    · have hfull : cells.toFinset.filter (p cells.length) = cells.toFinset :=
        Finset.eq_of_subset_of_card_le (Finset.filter_subset _ _)
          ((List.toFinset_card_le cells).trans hle)
      exact (Finset.mem_filter.mp (hfull ▸ List.mem_toFinset.mpr hkey)).2
    · exact hlater _ key (hothers key hkey)

-- ====================================================== acyclic graphs

theorem acyclic_of_founded (h : ∀ key, graph.Founded key) : graph.Acyclic :=
  fun key => (h key).not_onCycle

/-- Chains of reads end in a graph in which every cell ranks above what
it reads. -/
theorem founded_of_rank (rank : Text → Nat)
    (h : ∀ cell key, graph.Reads cell key → rank key < rank cell) (key : Text) :
    graph.Founded key := by
  induction hrank : rank key using Nat.strong_induction_on generalizing key with
  | _ n ih => exact Founded.of_reads fun r hr => ih (rank r) (hrank ▸ h key r hr) r rfl

end Spreadsheet.Graph

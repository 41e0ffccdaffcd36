/-
The order of evaluation.

# The run

Cells wait for their inputs, and the queue holds those that wait for
nothing. The first cell of the queue is taken, and whoever reads it waits
for one input less; who then waits for nothing is queued behind the others.
What is left when the queue is empty is sorted like the keys of the grid.

# What a run keeps

Along the run, each cell waits for as many inputs as it reads of the cells
that are still to be taken, and it was queued or taken exactly when there
are none (`Settling`). At the start this is how the inputs were counted
(`Settling.start`). Taking a cell keeps it (`Settling.step`): a reader waits
for one less, and it is the last one for a reader exactly if the reader
waited for the taken cell alone (`Settling.mem_released`). A queued cell
does not read itself, so it is not released by itself, and no cell is queued
twice.

# The two parts

So a cell that is taken comes after its inputs, and a cell that is never
taken reads another one of that kind (`Ordered`). Chains of reads that start
at a taken cell end, as they lead to earlier and earlier cells
(`Ordered.founded_of_settled`). From the others they go on for ever
(`Ordered.not_founded_of_stuck`). The cells that are never taken are
therefore those that reach a cycle among the cells to be ordered
(`Ordered.mem_stuck`); all others are taken, each after what it reads
(`split_of_not_reachesCycle`).

# Any order of readers

Nothing of this depends on the order in which the readers of a cell are
released, and so the same is proved along every enumeration of the graph
(`Enumeration.evaluationOrder_spec`).
-/
import Mathlib.Data.List.Nodup
import Spreadsheet.Dependency.Order
import Spreadsheet.Proofs.Dependency.Enumeration
import Spreadsheet.Proofs.Reference.Sorting

namespace Spreadsheet.Graph

variable {graph : Graph} {pending queue done readers : List Text} {agenda : Agenda}
  {degrees : Entries Int} {key : Text}

-- ====================================================== what is still to be taken

/-- What a cell reads of the pending cells that are not done. -/
def remaining (graph : Graph) (pending done : List Text) (key : Text) : List Text :=
  (graph.inputsAmong pending key).filter (· ∉ done)

/-- What remains of a cell are the pending cells it reads that are not
done. -/
theorem mem_remaining {r : Text} :
    r ∈ graph.remaining pending done key ↔ graph.Reads key r ∧ r ∈ pending ∧ r ∉ done := by
  unfold remaining
  rw [List.mem_filter, decide_eq_true_iff, mem_inputsAmong, and_assoc]

theorem nodup_remaining (graph : Graph) (pending done : List Text) (key : Text) :
    (graph.remaining pending done key).Nodup :=
  ((graph.nodup_reads key).filter _).filter _

/-- At the start everything remains that a cell reads of the pending
cells. -/
theorem remaining_nil (graph : Graph) (pending : List Text) (key : Text) :
    graph.remaining pending [] key = graph.inputsAmong pending key := by
  unfold remaining
  simp

/-- A cell that is done no longer remains for anyone. This is the only
way in which taking a cell changes what others wait for. -/
theorem remaining_cons (graph : Graph) (pending done : List Text) (key k : Text) :
    graph.remaining pending (key :: done) k = (graph.remaining pending done k).erase key := by
  rw [(nodup_remaining graph pending done k).erase_eq_filter]
  unfold remaining
  rw [List.filter_filter]
  refine List.filter_congr fun r _ => ?_
  by_cases hr : r = key <;> simp [hr]

/-- What remains is nothing after a cell is done, if it was nothing or
that cell alone. -/
theorem remaining_cons_eq_nil {k : Text} :
    graph.remaining pending (key :: done) k = [] ↔
      graph.remaining pending done k = [] ∨ graph.remaining pending done k = [key] := by
  rw [remaining_cons]
  have hnodup := nodup_remaining graph pending done k
  constructor
  · intro h
    rcases List.erase_eq_nil_iff.mp h with h | h
    · exact .inl h
    · exact .inr h
  · rintro (h | h)
    · rw [h]
      rfl
    · rw [h, List.erase_cons_head]

/-- A pending cell that is done is one less to wait for where it is
read. -/
theorem length_remaining_cons (hpending : key ∈ pending) (hdone : key ∉ done) {k : Text}
    (hreads : graph.Reads k key) :
    ((graph.remaining pending (key :: done) k).length : Int)
      = (graph.remaining pending done k).length - 1 := by
  have hmem : key ∈ graph.remaining pending done k := mem_remaining.mpr ⟨hreads, hpending, hdone⟩
  have hpos := List.length_pos_of_mem hmem
  rw [remaining_cons, List.length_erase_of_mem hmem]
  omega

theorem remaining_cons_of_not_reads {k : Text} (hreads : ¬graph.Reads k key) :
    graph.remaining pending (key :: done) k = graph.remaining pending done k := by
  rw [remaining_cons]
  exact List.erase_of_not_mem fun hmem => hreads (mem_remaining.mp hmem).1

-- ====================================================== releasing readers

namespace Agenda

variable {reader : Text} (hreader : reader ≠ key) (hreaders : readers.Nodup) (hkey : key ∉ readers)

section
include hreader

/-- The reader that is released waits for one input less. Who waits for
nothing at all, because it is not pending, still does. -/
theorem find?_release (agenda : Agenda) (k : Text) :
    (agenda.release key reader).degrees.find? k
      = if k = reader then (agenda.degrees.find? k).map (· - 1) else agenda.degrees.find? k := by
  unfold release
  split
  · next hnone =>
    split
    · next hk => rw [hk, hnone, Option.map_none]
    · rfl
  · next degree hdegree =>
    rw [if_neg hreader]
    dsimp only
    rw [Entries.find?_put]
    split
    · next hk => rw [hk, hdegree, Option.map_some]
    · rfl

/-- The reader that is released is queued if it waited for one input,
which is the cell that was taken. -/
theorem queue_release (agenda : Agenda) :
    (agenda.release key reader).queue
      = agenda.queue ++ [reader].filter fun k => agenda.degrees.find? k == some 1 := by
  unfold release
  split
  · next hnone => simp [hnone]
  · next degree hdegree =>
    rw [if_neg hreader]
    have hlast : degree - 1 = 0 ↔ degree = 1 := by omega
    simp only [hlast]
    by_cases h : degree = 1
    · simp [h, hdegree]
    · simp [h, hdegree]

end

include hreaders hkey

/-- Each reader waits for one input less, once all of them are
released. -/
theorem find?_foldl_release (agenda : Agenda) (k : Text) :
    (readers.foldl (release key) agenda).degrees.find? k
      = if k ∈ readers then (agenda.degrees.find? k).map (· - 1) else agenda.degrees.find? k := by
  induction readers generalizing agenda with
  | nil => rfl
  | cons reader readers ih =>
      obtain ⟨hnew, hreaders⟩ := List.nodup_cons.mp hreaders
      have hne : reader ≠ key := (List.ne_of_not_mem_cons hkey).symm
      have hkey : key ∉ readers := List.not_mem_of_not_mem_cons hkey
      rw [List.foldl_cons, ih hreaders hkey, find?_release hne]
      by_cases hk : k = reader
      · rw [if_neg (hk ▸ hnew), if_pos hk, if_pos (hk ▸ List.mem_cons_self ..)]
      · rw [if_neg hk]
        simp only [List.mem_cons, hk, false_or]

/-- The readers that waited for one input are ready once they are all
released, and they are queued in the order in which they were gone
through. -/
theorem queue_foldl_release (agenda : Agenda) :
    (readers.foldl (release key) agenda).queue
      = agenda.queue ++ readers.filter fun k => agenda.degrees.find? k == some 1 := by
  induction readers generalizing agenda with
  | nil => exact (List.append_nil _).symm
  | cons reader readers ih =>
      obtain ⟨hnew, hreaders⟩ := List.nodup_cons.mp hreaders
      have hne : reader ≠ key := (List.ne_of_not_mem_cons hkey).symm
      have hkey : key ∉ readers := List.not_mem_of_not_mem_cons hkey
      have hothers : readers.filter (fun k => (agenda.release key reader).degrees.find? k == some 1)
          = readers.filter fun k => agenda.degrees.find? k == some 1 := by
        refine List.filter_congr fun k hk => ?_
        have hk : k ≠ reader := fun heq => hnew (heq ▸ hk)
        rw [find?_release hne, if_neg hk]
      rw [List.foldl_cons, ih hreaders hkey, hothers, queue_release hne, List.append_assoc,
        ← List.filter_append, List.singleton_append]

end Agenda

-- ====================================================== taking cells

/-- A run that takes cells in order: the pending cells, the agenda, and
the cells taken, latest first. Whoever is queued or taken is so once. -/
structure Settling (graph : Graph) (pending : List Text) (agenda : Agenda) (done : List Text) :
    Prop where
  distinct : (agenda.queue ++ done).Nodup
  /-- A pending cell waits for what remains for it. -/
  waits : ∀ k, agenda.degrees.find? k
    = if k ∈ pending then some ((graph.remaining pending done k).length : Int) else none
  /-- A cell is queued or taken when nothing remains for it. -/
  ready : ∀ k, k ∈ agenda.queue ∨ k ∈ done ↔ k ∈ pending ∧ graph.remaining pending done k = []
  /-- A cell is taken after what it reads. -/
  ordered : ∀ later k earlier, done = later ++ k :: earlier →
    ∀ r, graph.Reads k r → r ∈ pending → r ∈ earlier

namespace Settling

/-- A pending cell waits for a number of inputs exactly if so many
remain for it. -/
theorem waits_iff (h : Settling graph pending agenda done) {k : Text} {n : Nat} :
    (agenda.degrees.find? k == some (n : Int)) = true ↔
      k ∈ pending ∧ (graph.remaining pending done k).length = n := by
  rw [beq_iff_eq, h.waits]
  by_cases hk : k ∈ pending
  · rw [if_pos hk, Option.some.injEq, Int.ofNat_inj]
    exact (and_iff_right hk).symm
  · simp [hk]

/-- At the start the queue holds the cells that read no pending cell, in
whatever order they were sorted. -/
theorem start (graph : Graph) (hpending : pending.Nodup)
    (hqueue : queue.Perm (pending.filter fun key =>
      (graph.inDegrees pending).find? key == some 0)) :
    Settling graph pending ⟨graph.inDegrees pending, queue⟩ [] := by
  have hwaits : ∀ k, (graph.inDegrees pending).find? k
      = if k ∈ pending then some ((graph.remaining pending [] k).length : Int) else none := by
    intro k
    rw [remaining_nil]
    exact Entries.find?_ofKeys ..
  refine ⟨?_, hwaits, fun k => ?_, ?_⟩
  · rw [List.append_nil]
    exact hqueue.nodup_iff.mpr (hpending.filter _)
  · rw [hqueue.mem_iff, List.mem_filter, hwaits]
    by_cases hk : k ∈ pending <;> simp [hk]
  · intro later k earlier h
    cases later <;> cases h

section

variable (h : Settling graph pending ⟨degrees, key :: queue⟩ done)
include h

theorem notMem_done : key ∉ done :=
  fun hdone => (List.nodup_append.mp h.distinct).2.2 key (List.mem_cons_self ..) key hdone rfl

/-- A queued cell does not read itself: it would be waiting for
itself. -/
theorem notMem_readers : key ∉ graph.readers key := by
  intro hself
  obtain ⟨hpending, hnil⟩ := (h.ready key).mp (.inl (List.mem_cons_self ..))
  -- the cell would remain for itself, but nothing remains for what is queued
  have hrem := mem_remaining.mpr ⟨mem_readers.mp hself, hpending, h.notMem_done⟩
  rw [hnil] at hrem
  cases hrem

/-- The readers of the first cell of the queue that wait for one input
wait for that cell. -/
theorem mem_released (hreaders : readers.Perm (graph.readers key)) {k : Text} :
    k ∈ readers.filter (fun k => degrees.find? k == some 1) ↔
      k ∈ pending ∧ graph.remaining pending done k = [key] := by
  have hpending := ((h.ready key).mp (.inl (List.mem_cons_self ..))).1
  have hwaits : (degrees.find? k == some 1) = true ↔ _ := h.waits_iff (n := 1)
  rw [List.mem_filter, hwaits, hreaders.mem_iff, mem_readers]
  constructor
  · rintro ⟨hreads, hk, hone⟩
    refine ⟨hk, ?_⟩
    obtain ⟨r, hr⟩ := List.length_eq_one_iff.mp hone
    have hmem := mem_remaining.mpr ⟨hreads, hpending, h.notMem_done⟩
    rw [hr] at hmem ⊢
    rw [List.mem_singleton.mp hmem]
  · rintro ⟨hk, hone⟩
    have hmem : key ∈ graph.remaining pending done k := hone ▸ List.mem_singleton_self key
    exact ⟨(mem_remaining.mp hmem).1, hk, by rw [hone, List.length_singleton]⟩

end

/-- A cell that is taken and those that it releases, listed together. So
`distinct` has to be checked for the released ones only. -/
theorem perm_taken (queue done released : List Text) (key : Text) :
    ((queue ++ released) ++ key :: done).Perm (released ++ ((key :: queue) ++ done)) := by
  refine List.perm_iff_count.mpr fun k => ?_
  simp only [List.count_append, List.count_cons]
  omega

/-- Taking a cell keeps the run in order: its readers wait for one input
less, and those that it was the last input of are queued. -/
theorem step (h : Settling graph pending ⟨degrees, key :: queue⟩ done)
    (hreaders : readers.Perm (graph.readers key)) :
    Settling graph pending (readers.foldl (Agenda.release key) ⟨degrees, queue⟩) (key :: done) := by
  have hnodup : readers.Nodup := hreaders.nodup_iff.mpr (graph.nodup_readers key)
  have hself : key ∉ readers := fun hmem => h.notMem_readers (hreaders.mem_iff.mp hmem)
  have hqueue := Agenda.queue_foldl_release hnodup hself ⟨degrees, queue⟩
  have hdegrees := Agenda.find?_foldl_release hnodup hself ⟨degrees, queue⟩
  dsimp only at hqueue hdegrees
  have hkey := (h.ready key).mp (.inl (List.mem_cons_self ..))
  refine ⟨?_, fun k => ?_, fun k => ?_, ?_⟩
  · rw [hqueue, (perm_taken queue done _ key).nodup_iff]
    refine List.nodup_append.mpr ⟨hnodup.filter _, h.distinct, ?_⟩
    -- what is released waited for the cell, so it was not listed before
    rintro k hk _ hlisted rfl
    have hnil := ((h.ready k).mp (List.mem_append.mp hlisted)).2
    rw [((h.mem_released hreaders).mp hk).2] at hnil
    cases hnil
  -- one input less for the readers of the cell, and for nobody else
  · have hwaits : degrees.find? k = _ := h.waits k
    rw [hdegrees, hwaits]
    by_cases hreads : graph.Reads k key
    · rw [if_pos (hreaders.mem_iff.mpr (mem_readers.mpr hreads)),
        length_remaining_cons hkey.1 h.notMem_done hreads]
      split <;> rfl
    · rw [if_neg fun hmem => hreads (mem_readers.mp (hreaders.mem_iff.mp hmem)),
        remaining_cons_of_not_reads hreads]
  -- released is who waited for this cell alone, and nothing remains for those from now on
  · have hk := h.ready k
    rw [List.mem_cons] at hk
    rw [hqueue, List.mem_append, List.mem_cons, h.mem_released hreaders, remaining_cons_eq_nil]
    tauto
  · intro later k earlier hsplit r hr hpending
    cases later with
    | nil =>
        -- the cell taken: it was queued, so nothing of what it reads remained
        cases hsplit
        by_contra hdone
        have hrem := mem_remaining.mpr ⟨hr, hpending, hdone⟩
        rw [hkey.2] at hrem
        cases hrem
    | cons first later =>
        cases hsplit
        exact h.ordered later k earlier rfl r hr hpending

end Settling

-- ====================================================== the order

/-- The order of some cells: those that were settled, and those that
were stuck. -/
structure Ordered (graph : Graph) (keys settled stuck : List Text) : Prop where
  distinct : (settled ++ stuck).Nodup
  mem : ∀ k, k ∈ settled ++ stuck ↔ k ∈ keys
  /-- A cell is settled after what it reads of them. -/
  inputs_first : ∀ before k after, settled = before ++ k :: after →
    ∀ r, graph.Reads k r → r ∈ keys → r ∈ before
  /-- A stuck cell reads another one, or itself. -/
  stuck_reads : ∀ k ∈ stuck, ∃ r ∈ stuck, graph.Reads k r
  stuck_sorted : InGridOrder stuck

/-- At the end of a run the queue is empty. So what is ready was
settled, and what was not settled is stuck. -/
theorem Settling.ordered_of_end {keys settled stuck : List Text}
    (h : Settling graph pending ⟨degrees, []⟩ settled.reverse)
    (hkeys : ∀ k, k ∈ pending ↔ k ∈ keys) (hpending : pending.Nodup)
    (hstuck : sortKeys (pending.filter (· ∉ settled)) = .ok stuck) :
    Ordered graph keys settled stuck := by
  have hmemStuck : ∀ k, k ∈ stuck ↔ k ∈ pending ∧ k ∉ settled := by
    intro k
    rw [(perm_of_sortKeys hstuck).mem_iff, List.mem_filter, decide_eq_true_iff]
  have hready : ∀ k, k ∈ settled ↔
      k ∈ pending ∧ graph.remaining pending settled.reverse k = [] := by
    intro k
    have hk := h.ready k
    rw [List.mem_reverse] at hk
    simpa using hk
  refine ⟨?_, fun k => ?_, ?_, ?_, inGridOrder_of_sortKeys hstuck⟩
  · refine List.nodup_append.mpr ⟨?_, ?_, ?_⟩
    · exact List.nodup_reverse.mp h.distinct
    · exact (perm_of_sortKeys hstuck).nodup_iff.mpr (hpending.filter _)
    · rintro a ha b hb rfl
      exact ((hmemStuck a).mp hb).2 ha
  · rw [List.mem_append, hmemStuck, ← hkeys]
    have hk := hready k
    tauto
  · intro before k after hsplit r hr hr'
    have hreverse : settled.reverse = after.reverse ++ k :: before.reverse := by
      rw [hsplit]
      simp
    exact List.mem_reverse.mp (h.ordered _ k _ hreverse r hr ((hkeys r).mpr hr'))
  · intro k hk
    obtain ⟨hk, hsettled⟩ := (hmemStuck k).mp hk
    have hsome : graph.remaining pending settled.reverse k ≠ [] :=
      fun hnil => hsettled ((hready k).mpr ⟨hk, hnil⟩)
    obtain ⟨r, hr⟩ := List.exists_mem_of_ne_nil _ hsome
    obtain ⟨hreads, hpending, hdone⟩ := mem_remaining.mp hr
    rw [List.mem_reverse] at hdone
    exact ⟨r, (hmemStuck r).mpr ⟨hpending, hdone⟩, hreads⟩

namespace Enumeration

/-- The run goes on until the queue is empty, in whatever order readers
are gone through. At its end nothing is queued, and the run is still in
order. -/
theorem settle_spec (e : Enumeration graph) {settled : List Text}
    (h : Settling graph pending agenda done) (hsettle : e.settle agenda done = .ok settled) :
    ∃ degrees, Settling graph pending ⟨degrees, []⟩ settled.reverse := by
  fun_induction settle e agenda done with
  | case1 degrees done =>
      cases hsettle
      rw [List.reverse_reverse]
      exact ⟨degrees, h⟩
  | case2 degrees key queue done ih =>
      obtain ⟨readers, hreaders, hsettle⟩ := bind_eq_ok.mp hsettle
      have hperm := (perm_of_sortKeys hreaders).trans (e.perm_readers key)
      exact ih readers (h.step hperm) hsettle

/-- What an order of evaluation is made of, along an enumeration: the
cells of a run, and those that it left over. -/
theorem evaluationOrder_spec (e : Enumeration graph) {keys order : List Text}
    (h : e.evaluationOrder keys = .ok order) :
    ∃ settled stuck, order = settled ++ stuck ∧ Ordered graph keys settled stuck := by
  unfold evaluationOrder at h
  dsimp only at h
  rw [e.inDegrees_listed] at h
  obtain ⟨queue, hqueue, h⟩ := bind_eq_ok.mp h
  obtain ⟨settled, hsettled, h⟩ := bind_eq_ok.mp h
  obtain ⟨stuck, hstuck, h⟩ := bind_eq_ok.mp h
  cases h
  have hpending := e.nodup_members keys
  have hstart := Settling.start graph hpending (perm_of_sortKeys hqueue)
  obtain ⟨degrees, hend⟩ := e.settle_spec hstart hsettled
  exact ⟨settled, stuck, rfl, hend.ordered_of_end (fun _ => e.mem_members) hpending hstuck⟩

end Enumeration

/-- What an order of evaluation is made of, as the graph lists its
sets. -/
theorem evaluationOrder_spec {keys order : List Text} (h : graph.evaluationOrder keys = .ok order) :
    ∃ settled stuck, order = settled ++ stuck ∧ Ordered graph keys settled stuck := by
  rw [← Enumeration.evaluationOrder_asListed] at h
  exact (Enumeration.asListed graph).evaluationOrder_spec h

section

variable {keys settled stuck : List Text} (h : Ordered graph keys settled stuck)
include h

/-- From a settled cell every chain of reads among the cells of the
order ends: what the cell reads of them stands before it. -/
theorem Ordered.founded_of_settled (hkey : key ∈ settled) : (graph.within keys).Founded key := by
  -- by induction on how many cells stand before the cell
  have hbefore : ∀ n before k after, before.length = n → settled = before ++ k :: after →
      (graph.within keys).Founded k := by
    intro n
    induction n using Nat.strong_induction_on with
    | _ n ih =>
        intro before k after hlength hsplit
        refine Founded.of_reads fun r hr => ?_
        rw [reads_within] at hr
        obtain ⟨-, hkeys, hreads⟩ := hr
        obtain ⟨first, rest, rfl⟩ :=
          List.append_of_mem (h.inputs_first before k after hsplit r hreads hkeys)
        refine ih first.length ?_ first r (rest ++ k :: after) rfl ?_
        · rw [← hlength, List.length_append, List.length_cons]
          omega
        · rw [hsplit, List.append_assoc, List.cons_append]
  obtain ⟨before, after, hsplit⟩ := List.append_of_mem hkey
  exact hbefore before.length before key after rfl hsplit

/-- From a stuck cell a chain of reads goes on among the stuck cells
without an end. -/
theorem Ordered.not_founded_of_stuck (hkey : key ∈ stuck) : ¬(graph.within keys).Founded key := by
  intro hfounded
  induction hfounded with
  | intro k _ ih =>
      obtain ⟨r, hr, hreads⟩ := h.stuck_reads k hkey
      refine ih r ?_ hr
      rw [reads_within]
      exact ⟨(h.mem k).mp (List.mem_append_right _ hkey), (h.mem r).mp (List.mem_append_right _ hr),
        hreads⟩

/-- The stuck cells are those that reach a cycle among the cells of the
order. -/
theorem Ordered.mem_stuck : key ∈ stuck ↔ key ∈ keys ∧ graph.ReachesCycleAmong keys key := by
  constructor
  · intro hkey
    refine ⟨(h.mem key).mp (List.mem_append_right _ hkey), ?_⟩
    by_contra hcycle
    exact h.not_founded_of_stuck hkey (not_reachesCycleAmong_iff.mp hcycle)
  · rintro ⟨hkey, hcycle⟩
    refine (List.mem_append.mp ((h.mem key).mpr hkey)).resolve_left fun hsettled => ?_
    exact not_reachesCycleAmong_iff.mpr (h.founded_of_settled hsettled) hcycle

end

/-- Every cell stands once in an order of evaluation. -/
theorem nodup_evaluationOrder {keys order : List Text}
    (h : graph.evaluationOrder keys = .ok order) : order.Nodup := by
  obtain ⟨settled, stuck, rfl, hordered⟩ := evaluationOrder_spec h
  exact hordered.distinct

/-- An order of evaluation lists the cells that it was asked for. -/
theorem mem_evaluationOrder {keys order : List Text} (h : graph.evaluationOrder keys = .ok order)
    {k : Text} : k ∈ order ↔ k ∈ keys := by
  obtain ⟨settled, stuck, rfl, hordered⟩ := evaluationOrder_spec h
  exact hordered.mem k

/-- A cell that reaches no cycle among the cells of the order stands
there after everything it reads of them. -/
theorem split_of_not_reachesCycle {keys order : List Text}
    (h : graph.evaluationOrder keys = .ok order) (hkey : key ∈ order)
    (hcycle : ¬graph.ReachesCycleAmong keys key) :
    ∃ before after, order = before ++ key :: after ∧
      ∀ r, graph.Reads key r → r ∉ key :: after := by
  obtain ⟨settled, stuck, rfl, hordered⟩ := evaluationOrder_spec h
  have hsettled : key ∈ settled :=
    (List.mem_append.mp hkey).resolve_right fun hstuck => hcycle (hordered.mem_stuck.mp hstuck).2
  obtain ⟨before, after, rfl⟩ := List.append_of_mem hsettled
  refine ⟨before, after ++ stuck, by simp, fun r hr hafter => ?_⟩
  have hlisted : r ∈ before ++ key :: (after ++ stuck) := List.mem_append_right _ hafter
  have hkeys : r ∈ keys := (hordered.mem r).mp (by simpa using hlisted)
  have hbefore := hordered.inputs_first before key after rfl r hr hkeys
  have hdistinct : (before ++ key :: (after ++ stuck)).Nodup := by simpa using hordered.distinct
  exact (List.nodup_append.mp hdistinct).2.2 r hbefore r hafter rfl

end Spreadsheet.Graph

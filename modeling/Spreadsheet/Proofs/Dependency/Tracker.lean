/-
A graph in use answers for the reads it has by then.

# Runs

Requests come one after another, and the outcome of a search for a cycle is
kept between them. A run goes through them one at a time (`Run`), and at
every request the sets of the graph may be gone through in another order.
The tracker of the program is one of these runs: it goes through the sets
as the graph lists them (`run_afterAll`).

# What a run keeps

The outcome that is kept, if there is one, is right for the reads there are
now, and these are the ones at the start and the ones that were added
(`Tracking`). One request keeps this (`Tracking.step`): a read that is added
drops the outcome, a question adds no read, and a search keeps an outcome
that is right when it is found. By induction every run keeps it
(`tracking_of_run`).

So whatever was asked before, the answer about a cycle is right for the
reads there are when it is given (`cycle_served`). It need not be the answer
that a new search would give: that one may find another of the cycles.
-/
import Spreadsheet.Dependency.Tracker
import Spreadsheet.Proofs.Dependency.Legible
import Spreadsheet.Proofs.Dependency.Search

namespace Spreadsheet.Tracker

open Relation (TransGen)

variable {start : Graph} {tracker : Tracker} {requests : List Request} {request : Request}
  {cell key : Text}

-- ====================================================== runs

/-- The tracker after a request; one that fails leaves it as it was. -/
def after (tracker : Tracker) (request : Request) : Tracker :=
  match tracker.serve request with
  | .ok (_, later) => later
  | .error _ => tracker

/-- The tracker after some requests, one after another. -/
def afterAll (tracker : Tracker) (requests : List Request) : Tracker :=
  requests.foldl after tracker

/-- What a cell reads after some requests: what it read at the start,
and what was added. -/
def ReadsAfter (start : Graph) (requests : List Request) (cell key : Text) : Prop :=
  start.Reads cell key ∨ .addRead cell key ∈ requests

theorem afterAll_append (tracker : Tracker) (requests : List Request) (request : Request) :
    tracker.afterAll (requests ++ [request]) = (tracker.afterAll requests).after request :=
  List.foldl_concat ..

-- ====================================================== along enumerations

/-- The answer to a request, and the tracker after it, along an
enumeration of the graph. -/
def serveAlong (tracker : Tracker) (e : tracker.graph.Enumeration) :
    Request → Except Fault (Answer × Tracker)
  | .addRead cell key => .ok (.added, tracker.addRead cell key)
  | .cycle =>
    match tracker.outcome with
    | some path => .ok (.cycle path, tracker)
    | none => do
      let path ← e.cycle?
      return (.cycle path, { tracker with outcome := some path })
  | .dependents key => .ok (.dependents (e.dependents key), tracker)
  | .order keys => do return (.order (← e.evaluationOrder keys), tracker)

/-- The tracker after a request along an enumeration; one that fails
leaves it as it was. -/
def afterAlong (tracker : Tracker) (e : tracker.graph.Enumeration) (request : Request) : Tracker :=
  match tracker.serveAlong e request with
  | .ok (_, later) => later
  | .error _ => tracker

/-- Requests are served as along the order in which the graph lists its
sets. -/
theorem serveAlong_asListed (tracker : Tracker) (request : Request) :
    tracker.serveAlong (.asListed tracker.graph) request = tracker.serve request := by
  cases request with
  | addRead cell key => rfl
  | cycle =>
      unfold serveAlong serve cycle?
      rw [Graph.Enumeration.cycle?_asListed]
      cases tracker.outcome with
      | some path => rfl
      | none => cases tracker.graph.cycle? <;> rfl
  | dependents key =>
      show Except.ok (Answer.dependents (Graph.Enumeration.dependents _ key), tracker) = _
      rw [Graph.Enumeration.dependents_asListed]
      rfl
  | order keys =>
      show (do return (Answer.order (← Graph.Enumeration.evaluationOrder _ keys), tracker)) = _
      rw [Graph.Enumeration.evaluationOrder_asListed]
      rfl

/-- A tracker that went through some requests from a start, each along
some enumeration of the graph there was by then. -/
inductive Run (start : Graph) : List Request → Tracker → Prop
  | start : Run start [] (ofGraph start)
  | step {requests : List Request} {tracker : Tracker} (before : Run start requests tracker)
      (e : tracker.graph.Enumeration) (request : Request) :
      Run start (requests ++ [request]) (tracker.afterAlong e request)

/-- The tracker of the program went through its requests in one of these
ways. -/
theorem run_afterAll (start : Graph) (requests : List Request) :
    Run start requests ((ofGraph start).afterAll requests) := by
  induction requests using List.reverseRecOn with
  | nil => exact .start
  | append_singleton requests request ih =>
      have hafter : ((ofGraph start).afterAll requests).after request
          = ((ofGraph start).afterAll requests).afterAlong (.asListed _) request := by
        unfold after afterAlong
        rw [serveAlong_asListed]
      rw [afterAll_append, hafter]
      exact .step ih _ request

-- ====================================================== one request

section

variable (e : tracker.graph.Enumeration)

theorem afterAlong_addRead (cell key : Text) :
    tracker.afterAlong e (.addRead cell key) = tracker.addRead cell key := rfl

theorem afterAlong_dependents (key : Text) : tracker.afterAlong e (.dependents key) = tracker := rfl

/-- An order of evaluation leaves the tracker as it was, found or
not. -/
theorem afterAlong_order (keys : List Text) : tracker.afterAlong e (.order keys) = tracker := by
  have hserve : tracker.serveAlong e (.order keys)
      = (do return (.order (← e.evaluationOrder keys), tracker)) := rfl
  unfold afterAlong
  rw [hserve]
  cases e.evaluationOrder keys with
  | error fault => rfl
  | ok order => rfl

/-- Asking for a cycle leaves all as it was, or keeps the outcome of a
search. -/
theorem afterAlong_cycle :
    tracker.afterAlong e .cycle = tracker ∨
      ∃ path, e.cycle? = .ok path ∧
        tracker.afterAlong e .cycle = { tracker with outcome := some path } := by
  unfold afterAlong serveAlong
  cases tracker.outcome with
  | some path => exact .inl rfl
  | none =>
      cases e.cycle? with
      | error fault => exact .inl rfl
      | ok path => exact .inr ⟨path, rfl, rfl⟩

end

-- ====================================================== along a run

/-- A tracker that went through some requests from a start. -/
structure Tracking (start : Graph) (requests : List Request) (tracker : Tracker) : Prop where
  /-- An outcome that is kept is right for the graph as it is now. -/
  current : ∀ path, tracker.outcome = some path → tracker.graph.Finds path
  legible : tracker.graph.Legible
  reads : ∀ cell key, tracker.graph.Reads cell key ↔ ReadsAfter start requests cell key

/-- At the start nothing is kept, and the reads are those of the
graph. -/
theorem tracking_ofGraph (h : start.Legible) : Tracking start [] (ofGraph start) where
  current := nofun
  legible := h
  reads cell key := by
    unfold ReadsAfter
    rw [or_iff_left List.not_mem_nil]
    rfl

namespace Tracking

variable (h : Tracking start requests tracker)
include h

/-- A read that is added drops the outcome, so nothing is kept that it
could make wrong. -/
theorem addRead (hcell : Graph.Legible (tracker.graph.addRead cell key)) :
    Tracking start (requests ++ [.addRead cell key]) (tracker.addRead cell key) where
  current := nofun
  legible := hcell
  reads k r := by
    show (tracker.graph.addRead cell key).Reads k r ↔ _
    unfold ReadsAfter
    rw [Graph.reads_addRead, h.reads, List.mem_append, List.mem_singleton, Request.addRead.injEq,
      ReadsAfter, or_assoc]

/-- A request that adds no read leaves the reads as they are, and so an
outcome that is kept stays right. -/
theorem ask (hadd : ∀ cell key, request ≠ .addRead cell key) :
    Tracking start (requests ++ [request]) tracker where
  current := h.current
  legible := h.legible
  reads cell key := by
    have hmem : .addRead cell key ∈ requests ++ [request] ↔ .addRead cell key ∈ requests := by
      rw [List.mem_append, List.mem_singleton, or_iff_left (Ne.symm (hadd cell key))]
    rw [h.reads, ReadsAfter, ReadsAfter, hmem]

/-- An outcome that is right may be kept. It is served until the next
read is added. -/
theorem keep {path : Option (List Text)} (hpath : tracker.graph.Finds path) :
    Tracking start requests { tracker with outcome := some path } where
  current other hother := by
    cases hother
    exact hpath
  legible := h.legible
  reads := h.reads

/-- Every request is gone through in order, as long as what is added can
be placed. -/
theorem step (e : tracker.graph.Enumeration)
    (hrequest : ∀ cell key, request = .addRead cell key → Placed cell ∧ Placed key) :
    Tracking start (requests ++ [request]) (tracker.afterAlong e request) := by
  cases request with
  | addRead cell key =>
      obtain ⟨hcell, hkey⟩ := hrequest cell key rfl
      rw [afterAlong_addRead]
      exact h.addRead (h.legible.addRead hcell hkey)
  | cycle =>
      have hask : Tracking start (requests ++ [.cycle]) tracker := h.ask nofun
      rcases afterAlong_cycle e with hafter | ⟨path, hpath, hafter⟩
      · rw [hafter]
        exact hask
      · rw [hafter]
        exact hask.keep (e.cycle?_spec hpath)
  | dependents key =>
      rw [afterAlong_dependents]
      exact h.ask nofun
  | order keys =>
      rw [afterAlong_order]
      exact h.ask nofun

/-- The answer about a cycle is found and is right, whether it was kept
or not. -/
theorem exists_cycle (e : tracker.graph.Enumeration) :
    ∃ path later, tracker.serveAlong e .cycle = .ok (.cycle path, later) ∧
      tracker.graph.Finds path := by
  unfold serveAlong
  cases houtcome : tracker.outcome with
  | some path => exact ⟨path, tracker, rfl, h.current path houtcome⟩
  | none =>
      obtain ⟨path, hpath⟩ := e.cycle?_ok h.legible
      rw [hpath]
      exact ⟨path, _, rfl, e.cycle?_spec hpath⟩

end Tracking

/-- Every run keeps what one request keeps. The induction is on the
requests, latest last. -/
theorem tracking_of_run (hstart : start.Legible) (hrun : Run start requests tracker)
    (hrequests : ∀ cell key, .addRead cell key ∈ requests → Placed cell ∧ Placed key) :
    Tracking start requests tracker := by
  induction hrun with
  | start => exact tracking_ofGraph hstart
  | step _ e request ih =>
      refine (ih fun cell key hmem => ?_).step e fun cell key heq => ?_
      · exact hrequests cell key (List.mem_append_left _ hmem)
      · exact hrequests cell key (List.mem_append_right _ (heq ▸ List.mem_singleton_self _))

-- ====================================================== cycles

/-- An answer about a cycle is right after some requests: there is none
just when the reads there are by then form none, and else it is a closed
path of such reads. -/
structure RightAfter (start : Graph) (requests : List Request) (path : Option (List Text)) :
    Prop where
  none_iff : path = none ↔ ∀ key, ¬TransGen (ReadsAfter start requests) key key
  closed : ∀ cycle, path = some cycle → Graph.ClosedPath (ReadsAfter start requests) cycle

/-- What is right for the graph of a tracker is right after the requests
it went through. -/
theorem Tracking.right (h : Tracking start requests tracker) {path : Option (List Text)}
    (hpath : tracker.graph.Finds path) : RightAfter start requests path := by
  have hreads : tracker.graph.Reads = ReadsAfter start requests := by
    funext cell key
    exact propext (h.reads cell key)
  obtain ⟨hnone, hclosed⟩ := hpath
  unfold Graph.Acyclic Graph.OnCycle at hnone
  rw [hreads] at hnone hclosed
  exact ⟨hnone, hclosed⟩

/-- After any requests, the next answer about a cycle is found and is
right, in whatever orders the sets of the graph are gone through at
these requests and at the next one. -/
theorem cycle_served (hstart : start.Legible)
    (hrequests : ∀ cell key, .addRead cell key ∈ requests → Placed cell ∧ Placed key) :
    (∃ path later, ((ofGraph start).afterAll requests).serve .cycle = .ok (.cycle path, later) ∧
      RightAfter start requests path) ∧
    ∀ tracker, Run start requests tracker → ∀ e : tracker.graph.Enumeration,
      ∃ path later, tracker.serveAlong e .cycle = .ok (.cycle path, later) ∧
        RightAfter start requests path := by
  have hevery : ∀ tracker, Run start requests tracker → ∀ e : tracker.graph.Enumeration,
      ∃ path later, tracker.serveAlong e .cycle = .ok (.cycle path, later) ∧
        RightAfter start requests path := by
    intro tracker hrun e
    have htracking := tracking_of_run hstart hrun hrequests
    obtain ⟨path, later, hserve, hpath⟩ := htracking.exists_cycle e
    exact ⟨path, later, hserve, htracking.right hpath⟩
  refine ⟨?_, hevery⟩
  rw [← serveAlong_asListed]
  exact hevery _ (run_afterAll start requests) (.asListed _)

/-- A cycle is found though the graph was searched before it was closed,
and is still found when more was added. -/
theorem cycle_served_after_closing :
    let requests : List Request := [.addRead "A1" "B1", .cycle, .order ["A1", "B1"],
      .addRead "B1" "A1", .dependents "A1", .cycle, .addRead "C1" "C1"]
    Graph.empty.Legible ∧
      (∀ cell key, .addRead cell key ∈ requests → Placed cell ∧ Placed key) ∧
      ∃ cycle later,
        ((ofGraph .empty).afterAll requests).serve .cycle = .ok (.cycle (some cycle), later) ∧
        Graph.ClosedPath (ReadsAfter .empty requests) cycle := by
  intro requests
  have hrequests : ∀ cell key, .addRead cell key ∈ requests → Placed cell ∧ Placed key := by
    intro cell key hmem
    simp only [requests, List.mem_cons, Request.addRead.injEq, reduceCtorEq, List.not_mem_nil,
      or_false, false_or] at hmem
    rcases hmem with ⟨rfl, rfl⟩ | ⟨rfl, rfl⟩ | ⟨rfl, rfl⟩
    · exact ⟨⟨_, rfl⟩, ⟨_, rfl⟩⟩
    · exact ⟨⟨_, rfl⟩, ⟨_, rfl⟩⟩
    · exact ⟨⟨_, rfl⟩, ⟨_, rfl⟩⟩
  obtain ⟨⟨path, later, hserve, hnone, hclosed⟩, -⟩ :=
    cycle_served Graph.legible_empty hrequests
  refine ⟨Graph.legible_empty, hrequests, ?_⟩
  cases path with
  | none =>
      have hAB : ReadsAfter .empty requests "A1" "B1" := .inr (by simp [requests])
      have hBA : ReadsAfter .empty requests "B1" "A1" := .inr (by simp [requests])
      exact absurd ((TransGen.single hAB).tail hBA) (hnone.mp rfl _)
  | some cycle => exact ⟨cycle, later, hserve, hclosed cycle rfl⟩

end Spreadsheet.Tracker

/-
Sorting in the order of the grid is stable.

# One place

Sorting moves an item only past items of other places, so of the items at
one place the first given stays the first (`filter_of_sortByPlace`). More is
proved: any items that all stand at or before one another keep their order
(`filter_mergeSort`). They are in order as they were given, so they are a
sublist of the sorted list in that order, and there are no others of them
there.

# Sorted already

Items that are in order already are left as they are
(`InGridOrder.sortKeys_eq`), and sorted keys are in order, so sorting them
again changes nothing. What follows an item without a place has none either,
so the two parts that sorting makes of the items are a front and a rest.

# What this closes

References stand in front, row by row and from left to right in a row, and
what is no reference follows as it came (`sortKeys_stable`).
-/
import Spreadsheet.Proofs.Reference.Refusal

namespace Spreadsheet

variable {α : Type} {place? : α → Except Fault (Option Reference)} {items sorted : List α}
  {found : List (α × Option Reference)} {keys : List Text}

-- ====================================================== one place

/-- Of the items that are kept by a test none is lost when those without
a place are left out, if the test keeps none of these. -/
theorem filter_placed {p : α → Bool} (h : ∀ f ∈ found, p f.1 = true → f.2 ≠ none) :
    ((found.filterMap fun (item, place) => place.map (item, ·)).filter fun f => p f.1).map (·.1)
      = (found.map (·.1)).filter p := by
  induction found with
  | nil => rfl
  | cons f rest ih =>
      obtain ⟨item, place⟩ := f
      have ih := ih fun f hf => h f (List.mem_cons_of_mem _ hf)
      cases place with
      | some place =>
          cases hp : p item with
          | true => simpa [hp] using ih
          | false => simpa [hp] using ih
      | none =>
          have hp : p item = false := by
            have hitem := h (item, none) (List.mem_cons_self ..)
            simpa using hitem
          simpa [hp] using ih

/-- Sorting keeps the order of items that all stand at or before one
another. -/
theorem filter_mergeSort {le : α → α → Bool} (htrans : ∀ a b c, le a b = true → le b c = true →
    le a c = true) (htotal : ∀ a b, (le a b || le b a) = true) {p : α → Bool}
    (h : ∀ a ∈ items, p a = true → ∀ b ∈ items, p b = true → le a b = true) :
    (items.mergeSort le).filter p = items.filter p := by
  have hpairwise : (items.filter p).Pairwise fun a b => le a b = true := by
    apply List.pairwise_of_forall_mem_list
    intro a ha b hb
    obtain ⟨hmem, hkept⟩ := List.mem_filter.mp ha
    obtain ⟨hmem', hkept'⟩ := List.mem_filter.mp hb
    exact h a hmem hkept b hmem' hkept'
  have hsublist := (List.sublist_mergeSort htrans htotal hpairwise List.filter_sublist).filter p
  rw [List.filter_filter] at hsublist
  simp only [Bool.and_self] at hsublist
  have hlength := ((List.mergeSort_perm items le).filter p).length_eq
  exact (hsublist.eq_of_length hlength.symm).symm

/-- Items of one place come out of sorting in the order in which they
were given. -/
theorem filter_of_sortByPlace (h : sortByPlace place? items = .ok sorted) {p : α → Bool}
    {place : Reference} (hp : ∀ item, p item = true → place? item = .ok (some place)) :
    sorted.filter p = items.filter p := by
  obtain ⟨found, hfound, h⟩ := bind_eq_ok.mp h
  cases h
  have hplace := place_of_mapM hfound
  have hfinds : ∀ f ∈ found, p f.1 = true → f.2 = some place := by
    intro f hf hkept
    have hitem := hplace f hf
    rw [hp f.1 hkept] at hitem
    exact (Except.ok.inj hitem).symm
  -- the items that are kept are all placed
  have hunplaced : (found.filterMap fun (item, place) =>
      if place.isNone then some item else none).filter p = [] := by
    apply List.filter_eq_nil_iff.mpr
    intro item hitem hkept
    obtain ⟨⟨other, place'⟩, hf, hnone⟩ := List.mem_filterMap.mp hitem
    cases place' with
    | some place' => cases hnone
    | none =>
        obtain rfl := Option.some.inj hnone
        cases hfinds _ hf hkept
  have hplaced : ∀ f ∈ found.filterMap (fun (item, place) => place.map (item, ·)),
      p f.1 = true → f.2 = place := by
    intro f hf hkept
    obtain ⟨⟨item, place'⟩, hmem, hpair⟩ := List.mem_filterMap.mp hf
    cases place' with
    | none => cases hpair
    | some place' =>
        obtain rfl := Option.some.inj hpair
        exact Option.some.inj (hfinds _ hmem hkept)
  rw [List.filter_append, hunplaced, List.append_nil, ← items_of_mapM hfound,
    ← filter_placed fun f hf hkept => by rw [hfinds f hf hkept]; exact Option.some_ne_none _,
    List.filter_map]
  generalize (found.filterMap fun (item, place) => place.map (item, ·)) = placed at hplaced ⊢
  have hsame : (placed.mergeSort fun a b => a.2.atOrBefore b.2).filter (fun f => p f.1)
      = placed.filter fun f => p f.1 := by
    apply filter_mergeSort
    · exact fun _ _ _ => Reference.atOrBefore_trans
    · exact fun a b => Reference.atOrBefore_total a.2 b.2
    · -- items of one place are at or before one another
      intro a ha hkept b hb hkept'
      rw [hplaced a ha hkept, hplaced b hb hkept', Reference.atOrBefore_iff]
      unfold Reference.Before
      omega
  exact congrArg (List.map fun f : α × Reference => f.1) hsame

-- ====================================================== items in order

/-- Places in front, in order, and no place after them: taken apart and
put together again these are the items that were given. -/
theorem placed_append_unplaced_of_pairwise (hplace : ∀ f ∈ found, place? f.1 = .ok f.2)
    (h : (found.map (·.1)).Pairwise fun a b => ¬StandsBefore place? b a) :
    ((found.filterMap fun (item, place) => place.map (item, ·)).map (·.1)
      ++ found.filterMap fun (item, place) => if place.isNone then some item else none)
    = found.map (·.1) := by
  induction found with
  | nil => rfl
  | cons f rest ih =>
      obtain ⟨item, place⟩ := f
      obtain ⟨hfirst, hrest⟩ := List.pairwise_cons.mp h
      have ih := ih (fun f hf => hplace f (List.mem_cons_of_mem _ hf)) hrest
      cases place with
      | some place => exact congrArg (item :: ·) ih
      | none =>
          -- what follows an item without a place has none either
          have hnone : rest.filterMap (fun (item, place) => place.map (item, ·)) = [] := by
            apply List.filterMap_eq_nil_iff.mpr
            intro f hf
            obtain ⟨other, found⟩ := f
            cases found with
            | none => rfl
            | some q =>
                have hbefore : StandsBefore place? other item := by
                  refine ⟨q, hplace _ (List.mem_cons_of_mem _ hf), ?_⟩
                  intro r hr
                  rw [hplace _ (List.mem_cons_self ..)] at hr
                  cases hr
                exact absurd hbefore (hfirst other (List.mem_map_of_mem hf))
          rw [hnone] at ih
          simp only [List.filterMap_cons, Option.map_none, hnone]
          exact congrArg (item :: ·) ih

/-- Items in order are left as they are: those with a place are sorted
already, and those without one are all behind them. -/
theorem sortByPlace_of_pairwise (hplace : ∀ item ∈ items, ∃ place, place? item = .ok place)
    (h : items.Pairwise fun a b => ¬StandsBefore place? b a) :
    sortByPlace place? items = .ok items := by
  have hfound : ∃ found, items.mapM (fun item => return (item, ← place? item))
      = (.ok found : Except Fault (List (α × Option Reference))) := by
    apply mapM_ok
    intro item hitem
    obtain ⟨place, hplace⟩ := hplace item hitem
    exact ⟨(item, place), by rw [hplace]; rfl⟩
  obtain ⟨found, hfound⟩ := hfound
  have hfinds := place_of_mapM hfound
  obtain rfl := items_of_mapM hfound
  -- what was found for the items puts their places in the order that the items are in
  have hsorted : (found.filterMap fun (item, place) => place.map (item, ·)).Pairwise fun a b =>
      a.2.atOrBefore b.2 = true := by
    apply List.pairwise_filterMap.mpr
    apply (List.pairwise_map.mp h).imp_of_mem
    intro f g hf hg hnot a ha b hb
    obtain ⟨p, hp, rfl⟩ := Option.map_eq_some_iff.mp ha
    obtain ⟨q, hq, rfl⟩ := Option.map_eq_some_iff.mp hb
    apply Reference.atOrBefore_iff.mpr
    intro hbefore
    apply hnot
    refine ⟨q, (hfinds g hg).trans (congrArg _ hq), ?_⟩
    intro r hr
    rw [hfinds f hf, hp] at hr
    obtain rfl := Option.some.inj (Except.ok.inj hr)
    exact hbefore
  unfold sortByPlace
  rw [hfound, ok_bind]
  dsimp only
  rw [List.mergeSort_of_pairwise hsorted, placed_append_unplaced_of_pairwise hfinds h]
  rfl

theorem InGridOrder.sortKeys_eq (h : InGridOrder keys) (hplaced : ∀ key ∈ keys, Placed key) :
    sortKeys keys = .ok keys :=
  sortByPlace_of_pairwise hplaced h

-- ====================================================== keys

open Reference (IsReference Names)

/-- Keys of short rows are put in order, and none is lost or made up.
The references stand in front, row by row and from left to right in a
row, those of one place as they came; the other keys follow as they
came. Sorting again changes nothing, and references to places of their
own come out the same in whichever order they come. -/
theorem sortKeys_stable (keys : List Text) (hshort : ∀ key ∈ keys, ShortRow key) :
    ∃ sorted placed, sortKeys keys = .ok sorted ∧ sorted.Perm keys ∧
      sorted = placed ++ keys.filter (fun key => ¬ IsReference key) ∧
      (∀ key ∈ placed, IsReference key) ∧
      placed.Pairwise (fun a b => ∀ p q, Names a p → Names b q →
        p.row < q.row ∨ p.row = q.row ∧ p.col ≤ q.col) ∧
      (∀ place, placed.filter (fun key => Names key place)
        = keys.filter fun key => Names key place) ∧
      sortKeys sorted = .ok sorted ∧
      (DistinctPlaces keys → ∀ keys', keys'.Perm keys → sortKeys keys' = .ok sorted) := by
  have hplaced : ∀ key ∈ keys, Placed key := fun key hkey => placed_iff.mpr (hshort key hkey)
  obtain ⟨sorted, hsorted⟩ := sortKeys_ok hplaced
  have hperm := perm_of_sortKeys hsorted
  have horder := inGridOrder_of_sortKeys hsorted
  obtain ⟨placed, hsplit, hreferences⟩ := trailing_of_sortKeys hsorted
  refine ⟨sorted, placed, hsorted, hperm, hsplit, ?_, ?_, ?_, ?_, ?_⟩
  · intro key hkey
    simpa using (List.mem_filter.mp (hreferences.mem_iff.mp hkey)).2
  · rw [hsplit] at horder
    apply (List.pairwise_append.mp horder).1.imp
    intro a b hnot p q hp hq
    by_contra hle
    apply hnot
    refine ⟨q, hq, ?_⟩
    intro r hr
    obtain rfl := Option.some.inj (Except.ok.inj (hp.symm.trans hr))
    unfold Reference.Before
    omega
  · intro place
    have hfilter := filter_of_sortByPlace hsorted (p := fun key => Names key place)
      fun key hkey => (of_decide_eq_true hkey : Names key place)
    -- what is no reference names no place
    have hnone : (keys.filter fun key => ¬ IsReference key).filter
        (fun key => Names key place) = [] := by
      apply List.filter_eq_nil_iff.mpr
      intro key hkey hnames
      have hnot : ¬ IsReference key := by simpa using (List.mem_filter.mp hkey).2
      have hnone := Reference.parse?_eq_none_iff.mpr hnot
      rw [(of_decide_eq_true hnames : Names key place)] at hnone
      cases hnone
    rwa [hsplit, List.filter_append, hnone, List.append_nil] at hfilter
  · exact horder.sortKeys_eq fun key hkey => hplaced key (hperm.mem_iff.mp hkey)
  · intro hdistinct keys' hkeys'
    rw [← sortKeys_congr hkeys'.symm hdistinct, hsorted]

/-- Two spellings of one place keep their order, the row zero stands in
front of all others, and what is no reference goes to the end; two
references to places of their own are sorted the same in either
order. -/
theorem sortKeys_stable_spellings :
    sortKeys ["x", "b2", "A10", "B02", "C0", "?"] = .ok ["C0", "b2", "B02", "A10", "x", "?"] ∧
      sortKeys ["C0", "b2", "B02", "A10", "x", "?"] = .ok ["C0", "b2", "B02", "A10", "x", "?"] ∧
      sortKeys ["B1", "A2"] = .ok ["B1", "A2"] ∧ sortKeys ["A2", "B1"] = .ok ["B1", "A2"] := by
  have hsorted : sortKeys ["x", "b2", "A10", "B02", "C0", "?"]
      = .ok ["C0", "b2", "B02", "A10", "x", "?"] := by
    cbv
  have hdistinct : sortKeys ["B1", "A2"] = .ok ["B1", "A2"] := by
    cbv
  have hplaces : DistinctPlaces ["B1", "A2"] :=
    @distinctPlaces_of_mapM ["B1", "A2"] [⟨1, 0⟩, ⟨0, 1⟩] (by rfl) (by decide)
  obtain ⟨sorted, -, hsame, -, -, -, -, -, hagain, -⟩ := sortKeys_stable
    ["x", "b2", "A10", "B02", "C0", "?"] fun key hkey =>
      placed_iff.mp (placed_of_sortKeys hsorted hkey)
  obtain ⟨sorted', -, hsame', -, -, -, -, -, -, hperm⟩ := sortKeys_stable ["B1", "A2"] fun key hkey =>
    placed_iff.mp (placed_of_sortKeys hdistinct hkey)
  obtain rfl := Except.ok.inj (hsorted.symm.trans hsame)
  obtain rfl := Except.ok.inj (hdistinct.symm.trans hsame')
  exact ⟨hsorted, hagain, hdistinct, hperm hplaces _ (List.Perm.swap ..)⟩

end Spreadsheet

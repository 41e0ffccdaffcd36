/-
Sorting in the order of the grid.

# What sorting does

Sorting fails only where an item has no place that can be read
(`sortKeys_ok`). It loses and invents nothing (`perm_of_sortKeys`), and of
two sorted items the later one never stands before the other in the grid
(`inGridOrder_of_sortKeys`): row by row, from left to right in a row, and
items without a place after all others.

# The order of places

One place is before another in a row above, or in the same row further to
the left (`Before`). This is an order of places and not of items: two items
may have one place, and then neither stands before the other. So what is
said of sorted items is that none stands before an earlier one, which leaves
the order of such items open here.

# Places of their own

Keys with places of their own have one order only, whatever the order they
come in (`sortKeys_congr`), for of any two of them one stands before the
other.
-/
import Spreadsheet.Proofs.Outcome
import Spreadsheet.Reference

namespace Spreadsheet

variable {α : Type}

theorem placed_append_unplaced (found : List (α × Option Reference)) :
    ((found.filterMap fun (item, place) => place.map (item, ·)).map (·.1)
      ++ found.filterMap fun (item, place) => if place.isNone then some item else none).Perm
    (found.map (·.1)) := by
  induction found with
  | nil => exact List.Perm.nil
  | cons f rest ih =>
      obtain ⟨item, place⟩ := f
      cases place with
      | some place => exact List.Perm.cons item ih
      | none => exact List.perm_middle.trans (List.Perm.cons item ih)

/-- The items whose places were found are the items that were given,
each with its place. -/
theorem items_of_mapM {place? : α → Except Fault (Option Reference)} {items : List α}
    {found : List (α × Option Reference)}
    (h : items.mapM (fun item => return (item, ← place? item)) = .ok found) :
    found.map (·.1) = items := by
  have hforall := mapM_eq_ok.mp h
  clear h
  induction hforall with
  | nil => rfl
  | cons hitem _ ih =>
      obtain ⟨place, -, hpair⟩ := bind_eq_ok.mp hitem
      cases hpair
      rw [List.map_cons, ih]

/-- Sorted items are the items, in another order. -/
theorem perm_of_sortByPlace {place? : α → Except Fault (Option Reference)} {items sorted : List α}
    (h : sortByPlace place? items = .ok sorted) : sorted.Perm items := by
  obtain ⟨found, hfound, h⟩ := bind_eq_ok.mp h
  cases h
  rw [← items_of_mapM hfound]
  refine List.Perm.trans (List.Perm.append_right _ ?_) (placed_append_unplaced found)
  exact (List.mergeSort_perm _ _).map _

theorem perm_of_sortKeys {keys sorted : List Text} (h : sortKeys keys = .ok sorted) :
    sorted.Perm keys :=
  perm_of_sortByPlace h

-- ====================================================== places

namespace Reference

/-- One place is before another: in a row above, or in the same row
further to the left. -/
def Before (a b : Reference) : Prop :=
  a.row < b.row ∨ a.row = b.row ∧ a.col < b.col

/-- A place is at or before another one unless that is before it. -/
theorem atOrBefore_iff {a b : Reference} : a.atOrBefore b = true ↔ ¬b.Before a := by
  unfold atOrBefore Before
  rw [Bool.or_eq_true, Bool.and_eq_true, decide_eq_true_iff, decide_eq_true_iff,
    decide_eq_true_iff]
  omega

/-- What is at or before a place is so of every later one. -/
theorem atOrBefore_trans {a b c : Reference} (hab : a.atOrBefore b = true)
    (hbc : b.atOrBefore c = true) : a.atOrBefore c = true := by
  rw [atOrBefore_iff] at hab hbc ⊢
  unfold Before at hab hbc ⊢
  omega

theorem atOrBefore_total (a b : Reference) : (a.atOrBefore b || b.atOrBefore a) = true := by
  rw [Bool.or_eq_true, atOrBefore_iff, atOrBefore_iff]
  unfold Before
  omega

end Reference

/-- An item stands before another one in the grid: it has a place, and
the other one has none or a later one. -/
def StandsBefore (place? : α → Except Fault (Option Reference)) (a b : α) : Prop :=
  ∃ p, place? a = .ok (some p) ∧ ∀ q, place? b = .ok (some q) → p.Before q

theorem StandsBefore.asymm {place? : α → Except Fault (Option Reference)} {a b : α}
    (h : StandsBefore place? a b) : ¬StandsBefore place? b a := by
  obtain ⟨p, hp, hlater⟩ := h
  rintro ⟨q, hq, hlater'⟩
  have hpq := hlater q hq
  have hqp := hlater' p hp
  unfold Reference.Before at hpq hqp
  omega

/-- What has no place stands before nothing. -/
theorem not_standsBefore_of_none {place? : α → Except Fault (Option Reference)} {a b : α}
    (h : place? a = .ok none) : ¬StandsBefore place? a b := by
  rintro ⟨p, hp, -⟩
  rw [h] at hp
  cases hp

-- ====================================================== sorted lists

/-- The places found for items are their places, so the order may be
stated by what the items are. -/
theorem place_of_mapM {place? : α → Except Fault (Option Reference)} {items : List α}
    {found : List (α × Option Reference)}
    (h : items.mapM (fun item => return (item, ← place? item)) = .ok found) :
    ∀ f ∈ found, place? f.1 = .ok f.2 := by
  have hforall := mapM_eq_ok.mp h
  clear h
  induction hforall with
  | nil => exact nofun
  | cons hitem _ ih =>
      obtain ⟨place, hplace, hpair⟩ := bind_eq_ok.mp hitem
      cases hpair
      intro f hf
      rcases List.mem_cons.mp hf with rfl | hf
      · exact hplace
      · exact ih f hf

/-- Of two sorted items the later one does not stand before the
other. -/
theorem pairwise_of_sortByPlace {place? : α → Except Fault (Option Reference)}
    {items sorted : List α} (h : sortByPlace place? items = .ok sorted) :
    sorted.Pairwise fun a b => ¬StandsBefore place? b a := by
  obtain ⟨found, hfound, h⟩ := bind_eq_ok.mp h
  cases h
  have hplace := place_of_mapM hfound
  have hunplaced : ∀ b ∈ found.filterMap
      (fun (item, place) => if place.isNone then some item else none), place? b = .ok none := by
    intro b hb
    obtain ⟨⟨item, place⟩, hmem, hitem⟩ := List.mem_filterMap.mp hb
    cases place with
    | none =>
        cases hitem
        exact hplace _ hmem
    | some place => cases hitem
  have hplaced : ∀ f ∈ found.filterMap (fun (item, place) => place.map (item, ·)),
      place? f.1 = .ok (some f.2) := by
    intro f hf
    obtain ⟨⟨item, place⟩, hmem, hitem⟩ := List.mem_filterMap.mp hf
    cases place with
    | none => cases hitem
    | some place =>
        cases hitem
        exact hplace _ hmem
  refine List.pairwise_append.mpr ⟨List.pairwise_map.mpr ?_, ?_, ?_⟩
  · -- the items with a place, sorted by it
    have hsorted := @List.pairwise_mergeSort (α × Reference) (fun a b => a.2.atOrBefore b.2)
      (fun _ _ _ => Reference.atOrBefore_trans) (fun _ _ => Reference.atOrBefore_total _ _)
      (found.filterMap fun (item, place) => place.map (item, ·))
    refine hsorted.imp_of_mem fun {a b} ha hb hle => ?_
    rintro ⟨q, hq, hlater⟩
    rw [hplaced b (List.mem_mergeSort.mp hb)] at hq
    cases hq
    have ha := hplaced a (List.mem_mergeSort.mp ha)
    exact Reference.atOrBefore_iff.mp hle (hlater a.2 ha)
  · exact List.pairwise_of_forall_mem_list fun _ _ b hb => not_standsBefore_of_none (hunplaced b hb)
  · exact fun _ _ b hb => not_standsBefore_of_none (hunplaced b hb)

/-- Keys as the grid shows them: none stands before one that comes
earlier in the list. -/
def InGridOrder (keys : List Text) : Prop :=
  keys.Pairwise fun a b => ¬StandsBefore Reference.parse? b a

theorem inGridOrder_of_sortKeys {keys sorted : List Text} (h : sortKeys keys = .ok sorted) :
    InGridOrder sorted :=
  pairwise_of_sortByPlace h

/-- In a list in grid order, a key that stands before another one comes
before it. -/
theorem InGridOrder.idxOf_lt {keys : List Text} (h : InGridOrder keys) {a b : Text}
    (ha : a ∈ keys) (hb : b ∈ keys) (hbefore : StandsBefore Reference.parse? a b) :
    keys.idxOf a < keys.idxOf b := by
  have hia := List.idxOf_lt_length_iff.mpr ha
  have hib := List.idxOf_lt_length_iff.mpr hb
  rcases Nat.lt_trichotomy (keys.idxOf a) (keys.idxOf b) with hlt | heq | hgt
  · exact hlt
  · obtain rfl : a = b := by
      rw [← List.getElem_idxOf hia, ← List.getElem_idxOf hib]
      simp only [heq]
    exact absurd hbefore hbefore.asymm
  · have hsorted := List.pairwise_iff_getElem.mp h _ _ hib hia hgt
    rw [List.getElem_idxOf, List.getElem_idxOf] at hsorted
    exact absurd hbefore hsorted

-- ====================================================== keys that can be placed

/-- A key that has its place in the order of the grid, or is known to
have none. -/
def Placed (key : Text) : Prop := ∃ place, Reference.parse? key = .ok place

/-- Keys that can all be placed can be sorted. Finding the places is the
only step that may fail. -/
theorem sortKeys_ok {keys : List Text} (h : ∀ key ∈ keys, Placed key) :
    ∃ sorted, sortKeys keys = .ok sorted := by
  have hfound : ∃ found, keys.mapM (fun key => return (key, ← Reference.parse? key))
      = (.ok found : Except Fault (List (Text × Option Reference))) := by
    refine mapM_ok fun key hkey => ?_
    obtain ⟨place, hplace⟩ := h key hkey
    exact ⟨(key, place), by rw [hplace]; rfl⟩
  obtain ⟨found, hfound⟩ := hfound
  unfold sortKeys sortByPlace
  rw [hfound]
  exact ⟨_, rfl⟩

/-- Keys that were put in order can all be placed. -/
theorem placed_of_sortKeys {keys sorted : List Text} (h : sortKeys keys = .ok sorted) {key : Text}
    (hkey : key ∈ keys) : Placed key := by
  obtain ⟨found, hfound, -⟩ := bind_eq_ok.mp h
  obtain ⟨_, -, hitem⟩ := exists_ok_of_mapM hfound hkey
  obtain ⟨place, hplace, -⟩ := bind_eq_ok.mp hitem
  exact ⟨place, hplace⟩

-- ====================================================== keys with places of their own

/-- Keys that are references, no two of them to one place. -/
structure DistinctPlaces (keys : List Text) : Prop where
  place : ∀ key ∈ keys, ∃ place, Reference.parse? key = .ok (some place)
  distinct : ∀ key ∈ keys, ∀ other ∈ keys,
    Reference.parse? key = Reference.parse? other → key = other

theorem DistinctPlaces.subset {keys fewer : List Text} (h : DistinctPlaces keys)
    (hsub : fewer ⊆ keys) : DistinctPlaces fewer where
  place key hkey := h.place key (hsub hkey)
  distinct key hkey other hother := h.distinct key (hsub hkey) other (hsub hother)

theorem DistinctPlaces.placed {keys : List Text} (h : DistinctPlaces keys) {key : Text}
    (hkey : key ∈ keys) : Placed key := by
  obtain ⟨place, hplace⟩ := h.place key hkey
  exact ⟨some place, hplace⟩

/-- Keys have places of their own if the places that are found for them
are distinct. -/
theorem distinctPlaces_of_mapM {keys : List Text} {places : List Reference}
    (h : keys.mapM Reference.parse? = .ok (places.map some)) (hdistinct : places.Nodup) :
    DistinctPlaces keys := by
  induction keys generalizing places with
  | nil => exact ⟨nofun, nofun⟩
  | cons key keys ih =>
      rw [List.mapM_cons] at h
      obtain ⟨found, hfound, h⟩ := bind_eq_ok.mp h
      obtain ⟨rest, hrest, h⟩ := bind_eq_ok.mp h
      obtain ⟨place, others, rfl, rfl, rfl⟩ := List.map_eq_cons_iff.mp (Except.ok.inj h).symm
      obtain ⟨hnew, hothers⟩ := List.nodup_cons.mp hdistinct
      have htail := ih hrest hothers
      have hne : ∀ other ∈ keys, Reference.parse? key ≠ Reference.parse? other := by
        intro other hother hsame
        obtain ⟨found, hmem, hplace⟩ := exists_ok_of_mapM hrest hother
        obtain ⟨p, hp, rfl⟩ := List.mem_map.mp hmem
        rw [hfound, hplace] at hsame
        cases hsame
        exact hnew hp
      constructor
      · exact List.forall_mem_cons.mpr ⟨⟨place, hfound⟩, htail.place⟩
      · intro a ha b hb hsame
        rcases List.mem_cons.mp ha with rfl | hatail
        · rcases List.mem_cons.mp hb with rfl | hbtail
          · rfl
          · exact absurd hsame (hne b hbtail)
        · rcases List.mem_cons.mp hb with rfl | hbtail
          · exact absurd hsame.symm (hne a hatail)
          · exact htail.distinct a hatail b hbtail hsame

/-- Of two keys with places of their own one stands before the other, so
an order of such keys is the only one. -/
theorem DistinctPlaces.eq_of_not_standsBefore {keys : List Text} (h : DistinctPlaces keys)
    {a b : Text} (ha : a ∈ keys) (hb : b ∈ keys) (hab : ¬StandsBefore Reference.parse? a b)
    (hba : ¬StandsBefore Reference.parse? b a) : a = b := by
  obtain ⟨p, hp⟩ := h.place a ha
  obtain ⟨q, hq⟩ := h.place b hb
  have hpq : ¬p.Before q := fun hbefore => hab ⟨p, hp, fun r hr => by
    rw [hq] at hr
    cases hr
    exact hbefore⟩
  have hqp : ¬q.Before p := fun hbefore => hba ⟨q, hq, fun r hr => by
    rw [hp] at hr
    cases hr
    exact hbefore⟩
  have hplaces : p = q := by
    obtain ⟨pcol, prow⟩ := p
    obtain ⟨qcol, qrow⟩ := q
    unfold Reference.Before at hpq hqp
    dsimp only at hpq hqp
    obtain rfl : prow = qrow := by omega
    obtain rfl : pcol = qcol := by omega
    rfl
  refine h.distinct a ha b hb ?_
  rw [hp, hq, hplaces]

/-- Keys with places of their own are put in grid order in one way
only. -/
theorem InGridOrder.eq_of_perm {keys keys' : List Text} (h : InGridOrder keys)
    (h' : InGridOrder keys') (hperm : keys.Perm keys') (hplaces : DistinctPlaces keys) :
    keys = keys' :=
  List.Perm.eq_of_pairwise (fun _ _ ha hb hba hab =>
    hplaces.eq_of_not_standsBefore ha (hperm.mem_iff.mpr hb) hab hba) h h' hperm

/-- The order in which keys with places of their own come makes no
difference to sorting. -/
theorem sortKeys_congr {keys keys' : List Text} (hperm : keys.Perm keys')
    (hplaces : DistinctPlaces keys) : sortKeys keys = sortKeys keys' := by
  obtain ⟨sorted, hsorted⟩ := sortKeys_ok fun _ hkey => hplaces.placed hkey
  obtain ⟨sorted', hsorted'⟩ := sortKeys_ok fun _ hkey => hplaces.placed (hperm.mem_iff.mpr hkey)
  have hkeys := perm_of_sortKeys hsorted
  have hsame : sorted = sorted' :=
    (inGridOrder_of_sortKeys hsorted).eq_of_perm (inGridOrder_of_sortKeys hsorted')
      (hkeys.trans (hperm.trans (perm_of_sortKeys hsorted').symm)) (hplaces.subset hkeys.subset)
  rw [hsorted, hsorted', hsame]

end Spreadsheet

import Mathlib
import LiveHighlight.Region.Index

/-! Indexes of regions that do not overlap. On them the queries find every region that overlaps a
range, and regions are added, dropped and moved as parts of one ordered list. -/

namespace LiveHighlight

/-- Where each item ends before the next one starts, one item at most covers a point. -/
theorem eq_of_covers_point {α : Type} {start stop : α → Nat} {items : List α}
    (h : items.Pairwise fun a b => stop a ≤ start b) {a b : α} (ha : a ∈ items) (hb : b ∈ items)
    {p : Nat} (hap : start a ≤ p ∧ p < stop a) (hbp : start b ≤ p ∧ p < stop b) : a = b := by
  have hsymm : Std.Symm fun a b : α => stop a ≤ start b ∨ stop b ≤ start a :=
    ⟨fun _ _ => Or.symm⟩
  have hsides : items.Pairwise fun a b => stop a ≤ start b ∨ stop b ≤ start a := h.imp .inl
  by_contra hne
  have hpair := hsides.forall ha hb hne
  omega

/-- Regions in order that are not empty and do not overlap. -/
structure Apart (regions : List Region) : Prop where
  start_lt_stop : ∀ r ∈ regions, r.start < r.stop
  stop_le_start : regions.Pairwise fun a b => a.stop ≤ b.start

namespace Apart

theorem nil : Apart [] := ⟨by simp, List.Pairwise.nil⟩

theorem sublist {regions part : List Region} (h : Apart regions) (hsub : part.Sublist regions) :
    Apart part :=
  ⟨fun r hr => h.start_lt_stop r (hsub.subset hr), h.stop_le_start.sublist hsub⟩

theorem append {left right : List Region} (hleft : Apart left) (hright : Apart right)
    (h : ∀ a ∈ left, ∀ b ∈ right, a.stop ≤ b.start) : Apart (left ++ right) := by
  refine ⟨fun r hr => ?_, List.pairwise_append.2 ⟨hleft.stop_le_start, hright.stop_le_start, h⟩⟩
  exact (List.mem_append.1 hr).elim (hleft.start_lt_stop r) (hright.start_lt_stop r)

theorem between {left middle right : List Region} (h : Apart (left ++ right))
    (hmiddle : Apart middle) (hleft : ∀ a ∈ left, ∀ b ∈ middle, a.stop ≤ b.start)
    (hright : ∀ a ∈ middle, ∀ b ∈ right, a.stop ≤ b.start) :
    Apart (left ++ middle ++ right) := by
  have hparts := List.pairwise_append.1 h.stop_le_start
  refine ((h.sublist (List.sublist_append_left _ _)).append hmiddle hleft).append
    (h.sublist (List.sublist_append_right _ _)) fun a ha b hb => ?_
  rcases List.mem_append.1 ha with ha | ha
  · exact hparts.2.2 a ha b hb
  · exact hright a ha b hb

theorem singleton {r : Region} (h : r.start < r.stop) : Apart [r] :=
  ⟨by simpa using h, List.pairwise_singleton _ _⟩

theorem ordered {regions : List Region} (h : Apart regions) :
    regions.Pairwise fun a b => a.start < b.start := by
  refine h.stop_le_start.imp_of_mem fun {a b} ha _ hab => ?_
  exact Nat.lt_of_lt_of_le (h.start_lt_stop a ha) hab

theorem stops {regions : List Region} (h : Apart regions) :
    regions.Pairwise fun a b => a.stop < b.stop := by
  refine h.stop_le_start.imp_of_mem fun {a b} _ hb hab => ?_
  exact Nat.lt_of_le_of_lt hab (h.start_lt_stop b hb)

theorem eq_of_covers {regions : List Region} (h : Apart regions) {a b : Region}
    (ha : a ∈ regions) (hb : b ∈ regions) {p : Nat} (hap : a.start ≤ p) (hap' : p < a.stop)
    (hbp : b.start ≤ p) (hbp' : p < b.stop) : a = b :=
  eq_of_covers_point h.stop_le_start ha hb ⟨hap, hap'⟩ ⟨hbp, hbp'⟩

end Apart

theorem Region.meets_comm (a b : Region) : a.meets b.start b.stop = b.meets a.start a.stop := by
  rw [Region.meets, Region.meets, Bool.and_comm]

namespace RegionIndex

/-- Regions of an index are in order already: it is enough that none is empty and that no two of
them overlap. -/
theorem apart_of_disjoint {index : RegionIndex} (hpos : ∀ r ∈ index.toList, r.start < r.stop)
    (hdisjoint : ∀ a ∈ index.toList, ∀ b ∈ index.toList, a ≠ b →
      a.meets b.start b.stop = false) : Apart index.toList := by
  refine ⟨hpos, index.ordered.imp_of_mem ?_⟩
  intro a b ha hb hab
  have hne : a ≠ b := by
    rintro rfl
    exact Nat.lt_irrefl _ hab
  have hfree := hdisjoint a ha b hb hne
  have hlt := hpos b hb
  simp only [Region.meets, Bool.and_eq_false_iff, decide_eq_false_iff_not] at hfree
  omega

theorem eq_of_toList {a b : RegionIndex} (h : a.toList = b.toList) : a = b := by
  cases a
  cases b
  simp_all

theorem put_toList (index : RegionIndex) (region : Region) :
    (index.put region).toList = place region index.toList := rfl

theorem truncate_toList (index : RegionIndex) (offset : Nat) :
    (index.truncate offset).toList = index.toList.filter (·.start < offset) := rfl

theorem takeWhile_eq_filter {α : Type} {p : α → Bool} {l : List α}
    (h : l.Pairwise fun a b => p b = true → p a = true) : l.takeWhile p = l.filter p := by
  induction l with
  | nil => rfl
  | cons a l ih =>
    obtain ⟨hfirst, hrest⟩ := List.pairwise_cons.1 h
    by_cases hp : p a = true
    · rw [List.takeWhile_cons_of_pos hp, List.filter_cons_of_pos hp, ih hrest]
    · have hnone : l.filter p = [] :=
        List.filter_eq_nil_iff.2 fun b hb hpb => hp (hfirst b hb hpb)
      rw [List.takeWhile_cons_of_neg hp, List.filter_cons_of_neg hp, hnone]

theorem intersecting_eq {index : RegionIndex} (h : Apart index.toList) (start stop : Nat) :
    index.intersecting start stop = (index.toList.filter (·.meets start stop)).reverse := by
  have hstops : (index.before stop).reverse.Pairwise fun a b =>
      decide (start < b.stop) = true → decide (start < a.stop) = true := by
    rw [List.pairwise_reverse]
    refine (h.stops.filter _).imp fun {a b} hab => ?_
    simp only [decide_eq_true_eq]
    omega
  rw [intersecting, takeWhile_eq_filter hstops, List.filter_reverse, before, List.filter_filter]
  congr 2
  funext r
  rw [Region.meets, Bool.and_comm]

theorem mem_intersecting {index : RegionIndex} (h : Apart index.toList) {start stop : Nat}
    {r : Region} :
    r ∈ index.intersecting start stop ↔ r ∈ index.toList ∧ r.meets start stop = true := by
  rw [intersecting_eq h, List.mem_reverse, List.mem_filter]

theorem removeIntersecting_toList {index : RegionIndex} (h : Apart index.toList)
    (start stop : Nat) :
    (index.removeIntersecting start stop).toList =
      index.toList.filter (!·.meets start stop) := by
  refine List.filter_congr fun r hr => ?_
  cases hmeets : r.meets start stop <;> simp [mem_intersecting h, hr, hmeets]

/-- What is found first is the last of the regions that overlap a range. -/
theorem find?_eq_head? (index : RegionIndex) (start stop : Nat) :
    index.find? start stop = (index.intersecting start stop).head? := by
  rw [find?, intersecting, ← List.head?_reverse]
  cases (index.before stop).reverse with
  | nil => rfl
  | cons r rest =>
    by_cases hr : start < r.stop
    · simp [hr]
    · simp [Nat.not_lt.1 hr]

theorem find?_eq_none_iff {index : RegionIndex} (h : Apart index.toList) (start stop : Nat) :
    index.find? start stop = none ↔ ∀ r ∈ index.toList, r.meets start stop = false := by
  rw [find?_eq_head?, List.head?_eq_none_iff, intersecting_eq h, List.reverse_eq_nil_iff,
    List.filter_eq_nil_iff]
  simp only [Bool.not_eq_true]

theorem meets_of_find? {index : RegionIndex} {start stop : Nat} {found : Region}
    (h : index.find? start stop = some found) :
    found ∈ index.toList ∧ found.meets start stop = true := by
  obtain ⟨hlast, hreach⟩ := Option.filter_eq_some_iff.1 h
  obtain ⟨hmem, hbefore⟩ := List.mem_filter.1 (List.mem_of_getLast? hlast)
  refine ⟨hmem, ?_⟩
  rw [Region.meets, hbefore, hreach]
  rfl

theorem start_le_find? {index : RegionIndex} {start stop : Nat} {r found : Region}
    (h : index.find? start stop = some found) (hr : r ∈ index.toList) (hlt : r.start < stop) :
    r.start ≤ found.start := by
  obtain ⟨hlast, -⟩ := Option.filter_eq_some_iff.1 h
  obtain ⟨front, hfront⟩ := List.getLast?_eq_some_iff.1 hlast
  have hmem : r ∈ index.before stop := List.mem_filter.2 ⟨hr, by simpa using hlt⟩
  have hordered : (index.before stop).Pairwise fun a b => a.start < b.start :=
    index.ordered.filter _
  rw [hfront] at hmem hordered
  rcases List.mem_append.1 hmem with hmem | hmem
  · exact ((List.pairwise_append.1 hordered).2.2 r hmem found (List.mem_singleton_self _)).le
  · rw [List.mem_singleton.1 hmem]

theorem place_append {region : Region} {left right : List Region}
    (hleft : ∀ r ∈ left, r.start < region.start) (hright : ∀ r ∈ right, region.start < r.start) :
    place region (left ++ right) = left ++ region :: right := by
  induction left with
  | nil =>
    cases right with
    | nil => rfl
    | cons r right => simp [place, hright r]
  | cons r left ih =>
    have hr := hleft r List.mem_cons_self
    have hrest := ih fun a ha => hleft a (List.mem_cons_of_mem _ ha)
    rw [List.cons_append, place, if_neg (by omega), if_neg (by omega), hrest, List.cons_append]

theorem insert_between {index : RegionIndex} {left right : List Region}
    (hindex : index.toList = left ++ right) (hpos : ∀ r ∈ left, r.start < r.stop)
    (region : Region) (hregion : region.start < region.stop)
    (hleft : ∀ r ∈ left, r.stop ≤ region.start) (hright : ∀ r ∈ right, region.stop ≤ r.start) :
    ∃ next, index.insert region = .ok next ∧ next.toList = left ++ region :: right := by
  have hnone : index.find? region.start region.stop = none := by
    refine Option.eq_none_iff_forall_ne_some.2 fun found hfound => ?_
    obtain ⟨hmem, hmeets⟩ := meets_of_find? hfound
    simp only [Region.meets, Bool.and_eq_true, decide_eq_true_eq] at hmeets
    rw [hindex] at hmem
    rcases List.mem_append.1 hmem with hmem | hmem
    · exact Nat.not_lt.2 (hleft found hmem) hmeets.2
    · exact Nat.not_lt.2 (hright found hmem) hmeets.1
  refine ⟨index.put region, by rw [insert, hnone], ?_⟩
  rw [put_toList, hindex]
  refine place_append (fun r hr => ?_) fun r hr => ?_
  · exact (hpos r hr).trans_le (hleft r hr)
  · have hle := hright r hr
    omega

theorem truncate_append {index : RegionIndex} {left right : List Region} {offset : Nat}
    (hindex : index.toList = left ++ right) (hleft : ∀ r ∈ left, r.start < offset)
    (hright : ∀ r ∈ right, offset ≤ r.start) : (index.truncate offset).toList = left := by
  have hkeep : left.filter (·.start < offset) = left :=
    List.filter_eq_self.2 fun r hr => by simpa using hleft r hr
  have hdrop : right.filter (·.start < offset) = [] :=
    List.filter_eq_nil_iff.2 fun r hr => by simpa using hright r hr
  rw [truncate_toList, hindex, List.filter_append, hkeep, hdrop, List.append_nil]

theorem foldl_put {index : RegionIndex} {regions : List Region}
    (h : (index.toList ++ regions).Pairwise fun a b => a.start < b.start) :
    (regions.foldl put index).toList = index.toList ++ regions := by
  induction regions generalizing index with
  | nil => simp
  | cons r regions ih =>
    have hput : (index.put r).toList = index.toList ++ [r] := by
      have hlast := (List.pairwise_append.1 h).2.2
      have hplace : place r (index.toList ++ []) = index.toList ++ [r] :=
        place_append (fun a ha => hlast a ha r List.mem_cons_self) (by simp)
      rwa [List.append_nil] at hplace
    rw [List.foldl_cons, ih]
    · simp [hput]
    · simpa [hput] using h

theorem shiftFrom_append {index : RegionIndex} {left right : List Region} {offset : Nat}
    {distance : Int} (hindex : index.toList = left ++ right)
    (hleft : ∀ r ∈ left, r.start < offset) (hright : ∀ r ∈ right, offset ≤ r.start)
    (hzero : distance = 0 → right.map (·.shift distance) = right)
    (hmoved : (left ++ right.map (·.shift distance)).Pairwise fun a b => a.start < b.start) :
    (index.shiftFrom offset distance).toList = left ++ right.map (·.shift distance) := by
  unfold shiftFrom
  split
  · next h => rw [hzero h, hindex]
  · have hkept := truncate_append hindex hleft hright
    have htail : index.toList.filter (offset ≤ ·.start) = right := by
      have hdrop : left.filter (offset ≤ ·.start) = [] :=
        List.filter_eq_nil_iff.2 fun r hr => by simpa using hleft r hr
      have hkeep : right.filter (offset ≤ ·.start) = right :=
        List.filter_eq_self.2 fun r hr => by simpa using hright r hr
      rw [hindex, List.filter_append, hdrop, hkeep, List.nil_append]
    rw [htail, ← List.foldl_map (f := fun r : Region => r.shift distance) (g := put), foldl_put]
    · rw [hkept]
    · rwa [hkept]

end RegionIndex
end LiveHighlight

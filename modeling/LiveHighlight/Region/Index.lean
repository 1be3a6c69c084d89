import LiveHighlight.Error

/-! The regions of one text, in the order of their starts and at most one for each start. Insertion
refuses a region that overlaps the one before its end; moving regions does not look for overlaps. -/

namespace LiveHighlight

structure RegionIndex where
  toList : List Region := []
  ordered : toList.Pairwise fun a b => a.start < b.start := by exact List.Pairwise.nil
  deriving DecidableEq

namespace RegionIndex

/-- Puts a region in its place. It replaces one with the same start. -/
def place (region : Region) : List Region → List Region
  | [] => [region]
  | other :: rest =>
    if region.start < other.start then region :: other :: rest
    else if region.start = other.start then region :: rest
    else other :: place region rest

theorem mem_place {region r : Region} {rs : List Region} (h : r ∈ place region rs) :
    r = region ∨ r ∈ rs := by
  induction rs with
  | nil => simpa [place] using h
  | cons other rest ih =>
    simp only [place] at h
    split at h
    · simpa using h
    · split at h
      · rcases List.mem_cons.1 h with h | h
        · exact .inl h
        · exact .inr (List.mem_cons_of_mem _ h)
      · rcases List.mem_cons.1 h with h | h
        · exact .inr (h ▸ List.mem_cons_self)
        · exact (ih h).imp_right (List.mem_cons_of_mem _)

theorem ordered_place {region : Region} {rs : List Region}
    (h : rs.Pairwise fun a b => a.start < b.start) :
    (place region rs).Pairwise fun a b => a.start < b.start := by
  induction rs with
  | nil => simp [place]
  | cons other rest ih =>
    obtain ⟨hfirst, hrest⟩ := List.pairwise_cons.1 h
    simp only [place]
    split
    · next hlt =>
      refine List.pairwise_cons.2 ⟨fun r hr => ?_, h⟩
      rcases List.mem_cons.1 hr with rfl | hr
      · exact hlt
      · exact Nat.lt_trans hlt (hfirst r hr)
    · next hle =>
      split
      · next heq => exact List.pairwise_cons.2 ⟨fun r hr => heq ▸ hfirst r hr, hrest⟩
      · next hne =>
        refine List.pairwise_cons.2 ⟨fun r hr => ?_, ih hrest⟩
        rcases mem_place hr with rfl | hr
        · omega
        · exact hfirst r hr

def size (index : RegionIndex) : Nat := index.toList.length

/-- The regions that start before an offset. -/
def before (index : RegionIndex) (offset : Nat) : List Region :=
  index.toList.filter (·.start < offset)

/-- The regions that satisfy a condition. -/
def filter (index : RegionIndex) (keep : Region → Bool) : RegionIndex :=
  ⟨index.toList.filter keep, index.ordered.filter keep⟩

/-- Adds a region, in place of one with the same start. -/
def put (index : RegionIndex) (region : Region) : RegionIndex :=
  ⟨place region index.toList, ordered_place index.ordered⟩

/-- The region that overlaps a range. Of disjoint regions only the last one that starts before the
end of the range can be the last to overlap it. -/
def find? (index : RegionIndex) (start stop : Nat) : Option Region :=
  (index.before stop).getLast?.filter (start < ·.stop)

/-- The regions that overlap a range, last first. -/
def intersecting (index : RegionIndex) (start stop : Nat) : List Region :=
  (index.before stop).reverse.takeWhile (start < ·.stop)

/-- What is left without the regions that overlap a range. -/
def removeIntersecting (index : RegionIndex) (start stop : Nat) : RegionIndex :=
  index.filter (· ∉ index.intersecting start stop)

theorem mem_of_find? {index : RegionIndex} {start stop : Nat} {region : Region}
    (h : index.find? start stop = some region) : region ∈ index.toList := by
  obtain ⟨hlast, -⟩ := Option.filter_eq_some_iff.1 h
  exact (List.mem_filter.1 (List.mem_of_getLast? hlast)).1

/-- The index without the region that starts at an offset. -/
def erase (index : RegionIndex) (start : Nat) : RegionIndex := index.filter (·.start ≠ start)

theorem size_erase_lt {index : RegionIndex} {region : Region} (h : region ∈ index.toList) :
    (index.erase region.start).size < index.size :=
  List.length_filter_lt_length_iff_exists.2 ⟨region, h, by simp⟩

/-- Takes out the region that overlaps a range as long as one is found. Those that were taken out
are listed in the order of their starts. -/
def extract (index : RegionIndex) (start stop : Nat) : List Region × RegionIndex :=
  match _h : index.find? start stop with
  | none => ([], index)
  | some region =>
    let (taken, rest) := (index.erase region.start).extract start stop
    (taken ++ [region], rest)
termination_by index.size
decreasing_by exact size_erase_lt (mem_of_find? _h)

/-- Adds a region that overlaps no other. -/
def insert (index : RegionIndex) (region : Region) : Except HighlightError RegionIndex :=
  match index.find? region.start region.stop with
  | some existing => .error (.overlappingRegion region existing)
  | none => .ok (index.put region)

/-- Drops the regions that start at an offset or after it. -/
def truncate (index : RegionIndex) (offset : Nat) : RegionIndex :=
  index.filter (·.start < offset)

/-- Moves the regions that start at an offset or after it. Where two starts meet, the region that
was moved last stays. -/
def shiftFrom (index : RegionIndex) (offset : Nat) (distance : Int) : RegionIndex :=
  if distance = 0 then index
  else
    (index.toList.filter (offset ≤ ·.start)).foldl
      (fun moved region => moved.put (region.shift distance)) (index.truncate offset)

/-- Removing what overlaps a range makes the index smaller, if anything does. -/
theorem size_removeIntersecting_lt (index : RegionIndex) (start stop : Nat)
    (h : index.intersecting start stop ≠ []) :
    (index.removeIntersecting start stop).size < index.size := by
  obtain ⟨r, hr⟩ := List.exists_mem_of_ne_nil _ h
  have hmem : r ∈ index.toList := by
    have hb := (List.takeWhile_sublist _).subset hr
    exact (List.mem_filter.1 (List.mem_reverse.1 hb)).1
  simp only [removeIntersecting, filter, size]
  exact List.length_filter_lt_length_iff_exists.2 ⟨r, hmem, by simpa using hr⟩

end RegionIndex
end LiveHighlight

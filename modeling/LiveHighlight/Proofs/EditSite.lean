import Mathlib
import LiveHighlight.Proofs.TailRebuild
import LiveHighlight.Proofs.Widening

/-! Lexing around an edit, whatever regions are known. The rows of the edit are lexed again, the
regions before them stay and the regions after them move with the text. This fails only if a
construct is left open at the end of the text and a region is known behind the end. -/

namespace LiveHighlight

namespace Edit

/-- A length below half of the words is its own signed word. -/
theorem delta_eq {edit : Edit} (h : edit.length < 2 ^ 63) :
    edit.delta = match edit.kind with
      | .insert => (edit.length : Int)
      | .remove => -(edit.length : Int) := by
  have hword : Int.bmod (edit.length : Int) 0x10000000000000000 = edit.length := by
    apply Int.bmod_eq_of_le <;> omega
  unfold delta
  dsimp only
  cases edit.kind with
  | insert => exact hword
  | remove => exact congrArg Neg.neg hword

theorem delta_le (edit : Edit) (h : edit.length < 2 ^ 63) : edit.delta ≤ edit.length := by
  have hdelta := delta_eq h
  cases hkind : edit.kind <;> simp only [hkind] at hdelta <;> omega

theorem shiftOffset_delta {edit : Edit} (hlength : edit.length < 2 ^ 63) {e offset : Nat}
    (hback : edit.mapBack e ≤ offset) (hmax : (offset : Int) + edit.delta ≤ maxOffset) :
    (Region.shiftOffset offset edit.delta : Int) = offset + edit.delta ∧
      e ≤ Region.shiftOffset offset edit.delta := by
  have hdelta := delta_eq hlength
  unfold mapBack at hback
  unfold Region.shiftOffset
  cases hkind : edit.kind <;> simp only [hkind] at hback hdelta <;> omega

end Edit

namespace Relex

open Text Fragments Constructs Extent

/-- The rows that an edit makes lex again. -/
def site (text : Text) (edit : Edit) (index : RegionIndex) : Span :=
  (widen text edit (edited text edit) index).1

/-- The regions that lie before the rows of a span. -/
def leftOf (span : Span) (regions : List Region) : List Region :=
  regions.filter (·.stop ≤ span.start)

/-- The regions that lie after the rows of a span, moved by the edit. -/
def rightOf (edit : Edit) (span : Span) (regions : List Region) : List Region :=
  (regions.filter (edit.mapBack span.stop ≤ ·.start)).map (·.shift edit.delta)

theorem filter_not_meets {regions : List Region} (h : Apart regions) {s b : Nat} (hsb : s ≤ b) :
    regions.filter (!·.meets s b) =
      regions.filter (·.stop ≤ s) ++ regions.filter (b ≤ ·.start) := by
  induction regions with
  | nil => rfl
  | cons r rest ih =>
    have hr := h.start_lt_stop r List.mem_cons_self
    have hrest := ih (h.sublist (List.sublist_cons_self r rest))
    rcases Nat.lt_or_ge s r.stop with hstop | hstop
    · -- behind the first region that reaches into the range nothing lies before it
      have hnone : rest.filter (·.stop ≤ s) = [] := by
        refine List.filter_eq_nil_iff.2 fun a ha => ?_
        have hle := (List.pairwise_cons.1 h.stop_le_start).1 a ha
        have hlt := h.start_lt_stop a (List.mem_cons_of_mem _ ha)
        simp only [decide_eq_true_eq]
        omega
      rw [hnone, List.nil_append] at hrest
      rw [List.filter_cons_of_neg (p := fun r : Region => decide (r.stop ≤ s))
        (by simpa using hstop), hnone, List.nil_append]
      by_cases hb : b ≤ r.start
      · rw [List.filter_cons_of_pos (by simp [Region.meets, hb]),
          List.filter_cons_of_pos (by simpa using hb), hrest]
      · rw [List.filter_cons_of_neg (by simp [Region.meets, hstop]; omega),
          List.filter_cons_of_neg (by simpa using hb), hrest]
    · rw [List.filter_cons_of_pos (by simp [Region.meets, hstop]),
        List.filter_cons_of_pos (by simpa using hstop),
        List.filter_cons_of_neg (by simp; omega), hrest, List.cons_append]

/-- What is known of the rows that an edit makes lex again. -/
structure Site (text : Text) (edit : Edit) (regions : List Region) (span : Span) : Prop
    extends Aligned text span where
  start_le_offset : span.start ≤ edit.offset
  reach_le : edit.reach ≤ text.length → edit.reach ≤ span.stop
  uncut : ∀ r ∈ regions, r.meets span.start (edit.mapBack span.stop) = true →
    span.start ≤ text.lineStart (edit.mapForward r.start) ∧
      text.lineEnd (edit.mapForward r.stop) ≤ span.stop

theorem site_spec (text : Text) (edit : Edit) {index : RegionIndex} (h : Apart index.toList) :
    Site text edit index.toList (site text edit index) := by
  obtain ⟨hstart, hend, hoffset, hle, hreach⟩ := edited_spec text edit
  have hwide := widen_spec edit h hstart hend
  exact
    { rowStart := hwide.rowStart
      rowEnd := hwide.rowEnd
      start_le_offset := hwide.start_le.trans hoffset
      start_le_stop := hwide.start_le.trans (hle.trans hwide.le_stop)
      reach_le := fun h => (hreach h).trans hwide.le_stop
      uncut := hwide.uncut }

/-- What a word can hold: how far an edit moves regions, and where it moves them. -/
structure Fits (edit : Edit) (regions : List Region) : Prop where
  length_lt : edit.length < 2 ^ 63
  stop_le : ∀ r ∈ regions, (r.stop : Int) + edit.delta ≤ maxOffset

theorem mem_rightOf {edit : Edit} {span : Span} {regions : List Region} {a : Region} :
    a ∈ rightOf edit span regions ↔
      ∃ r ∈ regions, edit.mapBack span.stop ≤ r.start ∧ r.shift edit.delta = a := by
  simp [rightOf, and_assoc]

theorem shift_of_behind {edit : Edit} {span : Span} {regions : List Region} (h : Apart regions)
    (hfits : Fits edit regions) {r : Region} (hr : r ∈ regions)
    (hback : edit.mapBack span.stop ≤ r.start) :
    ((r.shift edit.delta).start : Int) = r.start + edit.delta ∧
      ((r.shift edit.delta).stop : Int) = r.stop + edit.delta ∧
      span.stop ≤ (r.shift edit.delta).start := by
  have hlt := h.start_lt_stop r hr
  have hmax := hfits.stop_le r hr
  have hstart := Edit.shiftOffset_delta hfits.length_lt hback (by omega)
  have hstop := Edit.shiftOffset_delta hfits.length_lt (hback.trans hlt.le) hmax
  exact ⟨hstart.1, hstop.1, hstart.2⟩

theorem le_rightOf {edit : Edit} {span : Span} {regions : List Region} (h : Apart regions)
    (hfits : Fits edit regions) : ∀ a ∈ rightOf edit span regions, span.stop ≤ a.start := by
  intro a ha
  obtain ⟨r, hr, hback, rfl⟩ := mem_rightOf.1 ha
  exact (shift_of_behind h hfits hr hback).2.2

theorem apart_rightOf {edit : Edit} {span : Span} {regions : List Region} (h : Apart regions)
    (hfits : Fits edit regions) : Apart (rightOf edit span regions) := by
  have hkept := h.sublist (List.filter_sublist (p := fun r => edit.mapBack span.stop ≤ r.start))
  have hmem {r : Region} (hr : r ∈ regions.filter (edit.mapBack span.stop ≤ ·.start)) :=
    shift_of_behind h hfits (List.mem_filter.1 hr).1 (by simpa using (List.mem_filter.1 hr).2)
  refine ⟨fun a ha => ?_, List.pairwise_map.2 ?_⟩
  · obtain ⟨r, hr, rfl⟩ := List.mem_map.1 ha
    have hlt := hkept.start_lt_stop r hr
    have hmoved := hmem hr
    omega
  · refine hkept.stop_le_start.imp_of_mem fun {a b} ha hb hab => ?_
    have hmovedA := hmem ha
    have hmovedB := hmem hb
    omega

theorem leftOf_stop_le {span : Span} {regions : List Region} :
    ∀ r ∈ leftOf span regions, r.stop ≤ span.start := by
  intro r hr
  simpa using (List.mem_filter.1 hr).2

/-- The regions on both sides of the rows of a span, with a gap for those of the rows. -/
structure Gap (text : Text) (span : Span) (left right : List Region) : Prop
    extends Aligned text span where
  apart : Apart (left ++ right)
  left_le : ∀ r ∈ left, r.stop ≤ span.start
  le_right : ∀ r ∈ right, span.stop ≤ r.start

theorem Gap.left_pos {text : Text} {span : Span} {left right : List Region}
    (h : Gap text span left right) : ∀ r ∈ left, r.start < r.stop :=
  fun r hr => h.apart.start_lt_stop r (List.mem_append_left _ hr)

theorem gap_site (text : Text) {edit : Edit} {index : RegionIndex} (h : Apart index.toList)
    (hfits : Fits edit index.toList) :
    Gap text (site text edit index) (leftOf (site text edit index) index.toList)
      (rightOf edit (site text edit index) index.toList) := by
  have hsite := site_spec text edit h
  refine ⟨hsite.toAligned, ?_, ?_, le_rightOf h hfits⟩
  · refine (h.sublist List.filter_sublist).append (apart_rightOf h hfits) fun a ha b hb => ?_
    exact (leftOf_stop_le a ha).trans (hsite.start_le_stop.trans (le_rightOf h hfits b hb))
  · exact leftOf_stop_le

theorem shiftFrom_widen (text : Text) {edit : Edit} {index : RegionIndex}
    (h : Apart index.toList) (hfits : Fits edit index.toList) :
    ((widen text edit (edited text edit) index).2.shiftFrom
        (edit.mapBack (site text edit index).stop) edit.delta).toList =
      leftOf (site text edit index) index.toList ++
        rightOf edit (site text edit index) index.toList := by
  have hsite := site_spec text edit h
  obtain ⟨hstart, hend, -⟩ := edited_spec text edit
  have hleft := (widen_spec edit h hstart hend).left_eq
  have hback := edit.le_mapBack hsite.start_le_offset hsite.start_le_stop
  rw [← site, filter_not_meets h hback] at hleft
  refine RegionIndex.shiftFrom_append hleft (fun r hr => ?_) (fun r hr => ?_) (fun hzero => ?_) ?_
  · have hstop := leftOf_stop_le r hr
    have hlt := h.start_lt_stop r (List.mem_filter.1 hr).1
    omega
  · simpa using (List.mem_filter.1 hr).2
  · refine (List.map_congr_left fun r hr => ?_).trans (List.map_id _)
    have hback' : edit.mapBack (site text edit index).stop ≤ r.start := by
      simpa using (List.mem_filter.1 hr).2
    obtain ⟨hfrom, hto, -⟩ := shift_of_behind h hfits (List.mem_filter.1 hr).1 hback'
    rw [hzero] at hfrom hto ⊢
    have hfrom' : (r.shift 0).start = r.start := by omega
    have hto' : (r.shift 0).stop = r.stop := by omega
    cases r
    simp_all [Region.shift]
  · exact (gap_site text h hfits).apart.ordered

def spanRows (text : Text) (span : Span) : List Text := (text.slice span.start span.stop).lines

/-- What the rows of a span leave open. -/
def spanOpen (text : Text) (span : Span) : Option Unclosed :=
  unclosed none span.start (spanRows text span)

/-- The rows that are lexed for a span: those of the span, and all rows below them if they leave a
construct open. -/
def lexedRows (text : Text) (span : Span) : List Text :=
  if spanOpen text span = none then spanRows text span
  else spanRows text span ++ text.below span.stop

def lexedStop (text : Text) (span : Span) : Nat :=
  if spanOpen text span = none then span.stop else text.length

/-- The regions of the rows that are lexed for a span, with those behind the span that stay. -/
def lexedRegions (text : Text) (span : Span) (right : List Region) : List Region :=
  if spanOpen text span = none then closed none span.start (spanRows text span) ++ right
  else
    regions none span.start (spanRows text span ++ text.below span.stop) ++
      if text.length ≤ span.stop then right else []

/-- A construct is left open at the end of the text where a region is known already. -/
def Collides (text : Text) (span : Span) (right : List Region) : Prop :=
  spanOpen text span ≠ none ∧ text.length ≤ span.stop ∧
    ∃ r ∈ right, r.start < text.length + overhang

theorem width_spanRows {text : Text} {span : Span} (h : Aligned text span) :
    span.start + width (spanRows text span) = span.stop + 1 := by
  have hspan := h.start_le_stop
  rw [spanRows, width_lines, length_slice h.rowEnd.le_length]
  omega

theorem lines_eq_spanRows {text : Text} {span : Span} (h : Aligned text span) :
    text.lines = text.above span.start ++ spanRows text span ++ text.below span.stop :=
  lines_eq_slice h.rowStart h.rowEnd h.start_le_stop

theorem spanRows_append_below {text : Text} {span : Span} (h : Aligned text span) :
    spanRows text span ++ text.below span.stop = spanRows text ⟨span.start, text.length⟩ := by
  have hrows := lines_eq_spanRows h
  have hall := lines_eq_slice h.rowStart (.inl rfl) h.rowStart.le_length
  have hbelow : text.below text.length = [] := if_neg (Nat.lt_irrefl _)
  rw [hbelow, List.append_nil] at hall
  rw [hall, List.append_assoc] at hrows
  exact (List.append_cancel_left hrows).symm

theorem lexRows_span (reader : Reader LineLexer) (text : Text) {span : Span}
    (h : span.start ≤ span.stop) :
    lexRows reader text span (text.rowAt span.start) (text.rowAt span.stop) =
      (.ok ⟨text.rowAt span.start,
        Scan.marked none (text.rowAt span.start) (spanRows text span)⟩,
        (reader.read (text.slice span.start span.stop) (text.rowAt span.start)).2) := by
  apply lexRows_eq
  rw [length_lines_slice text h, rowAt_eq_add_slice text h]
  omega

theorem derive_span {text : Text} {span : Span} {left right : List Region}
    (h : Gap text span left right) {index : RegionIndex} (hindex : index.toList = left ++ right) :
    ∃ next : RegionIndex,
      derive none (ofRows text ⟨text.rowAt span.start,
        Scan.marked none (text.rowAt span.start) (spanRows text span)⟩) index =
        ⟨.ok (spanOpen text span), next⟩ ∧
      next.toList = left ++ closed none span.start (spanRows text span) ++ right ∧
      Apart next.toList := by
  have hwidth := width_spanRows h.toAligned
  have hlines := lines_eq_spanRows h.toAligned
  have hrows : ofRows text ⟨text.rowAt span.start,
        Scan.marked none (text.rowAt span.start) (spanRows text span)⟩ =
      fragments none (text.rowAt span.start) span.start (spanRows text span) := by
    refine ofRows_marked none _ _ _ fun i hi => ?_
    rw [← length_above h.rowStart, rowStart_of_lines hlines hi, width_above h.rowStart]
  obtain ⟨next, hnext, hderive⟩ := derive_rows (above_none span.start) (text.rowAt span.start)
    (spanRows text span) hindex h.left_pos h.left_le fun r hr => by
      have hle := h.le_right r hr
      omega
  refine ⟨next, by rw [hrows]; exact hderive, hnext, ?_⟩
  rw [hnext]
  refine h.apart.between (apart_closed (above_none _) _) (fun a ha b hb => ?_) fun a ha b hb => ?_
  · have hlow := ((regions_bounds (above_none span.start) _).2 b (closed_subset_regions hb)).1
    exact (h.left_le a ha).trans hlow
  · have hlt := closed_stop_lt (above_none span.start) ha
    have hle := h.le_right b hb
    omega

/-- Rows and regions that wait to be settled for a span. -/
def unsettled (text : Text) (span : Span) (index : RegionIndex) : FileState :=
  ⟨⟨text.rowAt span.start, Scan.marked none (text.rowAt span.start) (spanRows text span)⟩, index⟩

/-- What is known after the rows of a span were lexed: the window, its rows and the regions. -/
structure Settled (text : Text) (span : Span) (left right : List Region) (window : Window)
    (state : FileState) : Prop where
  start : window.start = span.start
  stop : window.stop = lexedStop text span
  startRow : window.startRow = text.rowAt span.start
  endRow : window.endRow = text.rowAt (lexedStop text span)
  rows : state.rows = ⟨text.rowAt span.start,
    Scan.marked none (text.rowAt span.start) (lexedRows text span)⟩
  regions : state.regions.toList = left ++ lexedRegions text span right

theorem settle_of_none (reader : Reader LineLexer) {text : Text} (window : Window)
    {rows : RowBuckets} {index next : RegionIndex}
    (h : derive none (ofRows text rows) index = ⟨.ok none, next⟩) :
    settle reader text window ⟨rows, index⟩ = ⟨.ok window, ⟨rows, next⟩, reader, []⟩ := by
  unfold settle
  dsimp only
  rw [h]

theorem settle_of_some (reader : Reader LineLexer) {text : Text} (window : Window)
    {rows : RowBuckets} {index next : RegionIndex} {u : Unclosed}
    (h : derive none (ofRows text rows) index = ⟨.ok (some u), next⟩) :
    settle reader text window ⟨rows, index⟩ =
      if text.length ≤ window.stop then
        ⟨(leaveOpen text u next).result.map fun _ => window,
          ⟨rows, (leaveOpen text u next).regions⟩, reader, []⟩
      else rebuildTail reader text window ⟨rows, next⟩ := by
  unfold settle
  dsimp only
  rw [h]

section

variable (reader : Reader LineLexer) {text : Text} {span : Span} {left right : List Region}
  {index : RegionIndex}

theorem settle_closed (h : Gap text span left right) (hindex : index.toList = left ++ right)
    (hopen : spanOpen text span = none) :
    ∃ window state last events,
      settle reader text (windowOf text span) (unsettled text span index) =
        ⟨.ok window, state, last, events⟩ ∧ Settled text span left right window state := by
  obtain ⟨next, hderive, hnext, -⟩ := derive_span h hindex
  rw [hopen] at hderive
  refine ⟨_, _, _, _, settle_of_none reader _ hderive, ?_⟩
  constructor <;> simp [windowOf, lexedStop, lexedRows, lexedRegions, hopen, hnext]

theorem settle_atEnd (h : Gap text span left right) (hindex : index.toList = left ++ right)
    (hlast : span.stop = text.length) (hfar : ∀ r ∈ right, text.length + overhang ≤ r.start)
    {u : Unclosed} (hopen : spanOpen text span = some u) :
    ∃ window state last events,
      settle reader text (windowOf text span) (unsettled text span index) =
        ⟨.ok window, state, last, events⟩ ∧ Settled text span left right window state := by
  have hwidth := width_spanRows h.toAligned
  obtain ⟨next, hderive, hnext, hnextApart⟩ := derive_span h hindex
  have hbefore : ∀ r ∈ left ++ closed none span.start (spanRows text span), r.stop ≤ u.start := by
    intro r hr
    rcases List.mem_append.1 hr with hr | hr
    · exact (h.left_le r hr).trans (low_le_unclosed (above_none span.start) hopen)
    · exact closed_stop_le_unclosed (above_none span.start) hopen r hr
  have hbound := above_unclosed (above_none span.start) (spanRows text span) u hopen
  obtain ⟨last, hinsert, hlist⟩ := RegionIndex.insert_between hnext
    (fun r hr => hnextApart.start_lt_stop r (hnext ▸ List.mem_append_left _ hr))
    ⟨u.start, text.length + overhang, u.construct⟩ (by dsimp only; omega) hbefore hfar
  rw [hopen] at hderive
  have hsettle := settle_of_some reader (windowOf text span) hderive
  rw [if_pos (by simp [windowOf, hlast]), leaveOpen, hinsert] at hsettle
  refine ⟨_, _, _, _, hsettle, ?_⟩
  have hbelow : text.below text.length = [] := by simp [below]
  have hstop : span.start + width (spanRows text span) - 1 = text.length := by omega
  have hregions : last.toList = left ++ lexedRegions text span right := by
    rw [spanOpen] at hopen
    simp [hlist, lexedRegions, spanOpen, hopen, hbelow, regions, leftOpen, hstop, hlast]
  constructor <;> simp [windowOf, lexedStop, lexedRows, hopen, hbelow, hlast, hregions]

theorem settle_collides (h : Gap text span left right) (hindex : index.toList = left ++ right)
    (hcollides : Collides text span right) :
    ∃ region existing next,
      settle reader text (windowOf text span) (unsettled text span index) =
        ⟨.error (.overlappingRegion region existing), { unsettled text span index with
          regions := next }, reader, []⟩ ∧
      Apart next.toList ∧ existing ∈ next.toList ∧
      region.meets existing.start existing.stop = true ∧ text.length ≤ existing.start := by
  obtain ⟨hsome, hlast, behind, hbehind, hnear⟩ := hcollides
  obtain ⟨u, hopen⟩ := Option.ne_none_iff_exists'.1 hsome
  obtain ⟨next, hderive, hnext, hnextApart⟩ := derive_span h hindex
  have hwidth := width_spanRows h.toAligned
  have hbound := above_unclosed (above_none span.start) (spanRows text span) u hopen
  have hmem : behind ∈ next.toList := by
    rw [hnext]
    exact List.mem_append_right _ hbehind
  have hbehindStart := h.le_right behind hbehind
  have hbehindStop := hnextApart.start_lt_stop behind hmem
  rw [hopen] at hderive
  have hsettle := settle_of_some reader (windowOf text span) hderive
  rw [if_pos (by simpa [windowOf] using hlast), leaveOpen, RegionIndex.insert] at hsettle
  -- the region up to the end of the text is refused because of the one behind it
  cases hfind : next.find? u.start (text.length + overhang) with
  | none =>
    have hmeets := (RegionIndex.find?_eq_none_iff hnextApart _ _).1 hfind behind hmem
    simp only [Region.meets, Bool.and_eq_false_iff, decide_eq_false_iff_not] at hmeets
    omega
  | some existing =>
    have hle := RegionIndex.start_le_find? hfind hmem hnear
    obtain ⟨hfound, hmeets⟩ := RegionIndex.meets_of_find? hfind
    rw [hfind] at hsettle
    refine ⟨_, existing, next, hsettle, hnextApart, hfound, ?_, by omega⟩
    rw [Region.meets_comm]
    exact hmeets

theorem settle_tail (h : Gap text span left right) (hindex : index.toList = left ++ right)
    (hlast : span.stop < text.length) {u : Unclosed} (hopen : spanOpen text span = some u) :
    ∃ window state last events,
      settle reader text (windowOf text span) (unsettled text span index) =
        ⟨.ok window, state, last, events⟩ ∧ Settled text span left right window state := by
  obtain ⟨next, hderive, hnext, -⟩ := derive_span h hindex
  have hwidth := width_spanRows h.toAligned
  have hlines := lines_eq_spanRows h.toAligned
  have hbound := above_unclosed (above_none span.start) (spanRows text span) u hopen
  have habove := width_above h.rowStart
  have hlength := length_above h.rowStart
  obtain ⟨found, last, events, htail, hregions⟩ := rebuildTail_eq reader hlines
    (by rw [habove]; exact hopen) (windowOf text span) (by rw [habove]; exact hnext)
    h.left_pos (by rw [habove]; exact h.left_le) fun r hr => by
      have hle := h.le_right r hr
      omega
  rw [hopen] at hderive
  have hsettle := settle_of_some reader (windowOf text span) hderive
  rw [if_neg (by simp [windowOf, hlast]), ← hlength, htail, hlength] at hsettle
  refine ⟨_, _, _, _, hsettle, ?_⟩
  rw [habove] at hregions
  constructor <;>
    simp [windowOf, lexedStop, lexedRows, lexedRegions, hopen, hregions, Nat.not_le.2 hlast,
      rowAt_length]

theorem settle_ok (h : Gap text span left right) (hindex : index.toList = left ++ right)
    (hfree : ¬ Collides text span right) :
    ∃ window state last events,
      settle reader text (windowOf text span) (unsettled text span index) =
        ⟨.ok window, state, last, events⟩ ∧ Settled text span left right window state := by
  cases hopen : spanOpen text span with
  | none => exact settle_closed reader h hindex hopen
  | some u =>
    rcases Nat.lt_or_ge span.stop text.length with hlast | hlast
    · exact settle_tail reader h hindex hlast hopen
    · refine settle_atEnd reader h hindex (le_antisymm h.rowEnd.le_length hlast)
        (fun r hr => ?_) hopen
      by_contra hnear
      exact hfree ⟨by simp [hopen], hlast, r, hr, Nat.not_le.1 hnear⟩

end

theorem Settled.apart {text : Text} {span : Span} {left right : List Region} {window : Window}
    {state : FileState} (h : Settled text span left right window state)
    (hgap : Gap text span left right) (hfree : ¬ Collides text span right) :
    Apart state.regions.toList := by
  have hwidth := width_spanRows hgap.toAligned
  have hbounds (rows : List Text) := regions_bounds (above_none span.start) rows
  rw [h.regions]
  unfold lexedRegions
  split_ifs with hopen hlast
  · rw [← List.append_assoc]
    refine hgap.apart.between (apart_closed (above_none _) _) (fun a ha b hb => ?_)
      fun a ha b hb => ?_
    · exact (hgap.left_le a ha).trans ((hbounds _).2 b (closed_subset_regions hb)).1
    · have hlt := closed_stop_lt (above_none span.start) ha
      have hle := hgap.le_right b hb
      omega
  · have hstop : span.stop = text.length := le_antisymm hgap.rowEnd.le_length hlast
    have hbelow : text.below span.stop = [] := by simp [below, hstop]
    rw [hbelow, List.append_nil, ← List.append_assoc]
    refine hgap.apart.between (hbounds _).1 (fun a ha b hb => ?_) fun a ha b hb => ?_
    · exact (hgap.left_le a ha).trans ((hbounds _).2 b hb).1
    · -- what is left open reaches past the end, but not to a region that does not collide
      have hfar : text.length + overhang ≤ b.start := by
        by_contra hnear
        exact hfree ⟨hopen, hlast, b, hb, Nat.not_le.1 hnear⟩
      rcases List.mem_append.1 ha with ha | ha
      · have hlt := closed_stop_lt (above_none span.start) ha
        omega
      · obtain ⟨u, -, rfl⟩ := List.mem_map.1 ha
        dsimp only
        omega
  · rw [List.append_nil]
    refine (hgap.apart.sublist (List.sublist_append_left _ _)).append (hbounds _).1
      fun a ha b hb => ?_
    exact (hgap.left_le a ha).trans ((hbounds _).2 b hb).1

section

variable (reader : Reader LineLexer) (text : Text) {edit : Edit} {state : FileState}

/-- The rows of an edit are lexed and then settled over what widening left of the index, moved by
the edit. -/
theorem afterEdit_settles (hapart : Apart state.regions.toList) :
    afterEdit reader text edit state =
      let span := site text edit state.regions
      let left := (widen text edit (edited text edit) state.regions).2
      let reread := (reader.read (text.slice span.start span.stop) (text.rowAt span.start)).2
      let settled := settle reread text (windowOf text span)
        (unsettled text span (left.shiftFrom (edit.mapBack span.stop) edit.delta))
      match settled.result with
      | .error _ => settled
      | .ok window => { settled with events := settled.events ++ [.relexed window edit] } := by
  unfold afterEdit
  dsimp only [windowOf]
  rw [← site, lexRows_span reader text (site_spec text edit hapart).start_le_stop]
  rfl

theorem afterEdit_eq (hapart : Apart state.regions.toList)
    (hfits : Fits edit state.regions.toList) :
    ∃ (index : RegionIndex) (reread : Reader LineLexer),
      index.toList = leftOf (site text edit state.regions) state.regions.toList ++
        rightOf edit (site text edit state.regions) state.regions.toList ∧
      afterEdit reader text edit state =
        let settled := settle reread text (windowOf text (site text edit state.regions))
          (unsettled text (site text edit state.regions) index)
        match settled.result with
        | .error _ => settled
        | .ok window => { settled with events := settled.events ++ [.relexed window edit] } :=
  ⟨_, _, shiftFrom_widen text hapart hfits, afterEdit_settles reader text hapart⟩

theorem afterEdit_ok (hapart : Apart state.regions.toList)
    (hfits : Fits edit state.regions.toList)
    (hfree : ¬ Collides text (site text edit state.regions)
      (rightOf edit (site text edit state.regions) state.regions.toList)) :
    ∃ window next last events,
      afterEdit reader text edit state = ⟨.ok window, next, last, events⟩ ∧
      Settled text (site text edit state.regions)
        (leftOf (site text edit state.regions) state.regions.toList)
        (rightOf edit (site text edit state.regions) state.regions.toList) window next ∧
      Apart next.regions.toList := by
  have hgap := gap_site text hapart hfits
  obtain ⟨index, reread, hindex, hafter⟩ := afterEdit_eq reader text hapart hfits
  obtain ⟨window, next, last, events, hsettle, hsettled⟩ := settle_ok reread hgap hindex hfree
  rw [hsettle] at hafter
  exact ⟨window, next, last, _, hafter, hsettled, hsettled.apart hgap hfree⟩

theorem afterEdit_collides (hapart : Apart state.regions.toList)
    (hfits : Fits edit state.regions.toList)
    (h : Collides text (site text edit state.regions)
      (rightOf edit (site text edit state.regions) state.regions.toList)) :
    ∃ region existing next last,
      afterEdit reader text edit state =
        ⟨.error (.overlappingRegion region existing), next, last, []⟩ ∧
      Apart next.regions.toList ∧ existing ∈ next.regions.toList ∧
      region.meets existing.start existing.stop = true ∧ text.length ≤ existing.start := by
  obtain ⟨index, reread, hindex, hafter⟩ := afterEdit_eq reader text hapart hfits
  obtain ⟨region, existing, next, hsettle, hapart', hmeets⟩ :=
    settle_collides reread (gap_site text hapart hfits) hindex h
  rw [hsettle] at hafter
  exact ⟨region, existing, _, reread, hafter, hapart', hmeets⟩

end

end Relex
end LiveHighlight

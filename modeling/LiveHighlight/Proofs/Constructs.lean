import Mathlib
import LiveHighlight.Highlight.Fragments
import LiveHighlight.Proofs.LexedRows
import LiveHighlight.Proofs.RegionOrder

/-! The regions of rows, read off the scan row by row instead of fragment by fragment: each row
closes what is open before it or not, and then opens something or not. The fragments of scanned rows
always fit together, and what they add to an index is these regions. -/

namespace LiveHighlight.Constructs

open Text Fragments

/-- What a row leaves open whose last tokens, read with nothing open, are these. -/
def opening (start : Nat) (tokens : List Token) : Option Unclosed :=
  tokens.getLast?.bind fun t => t.opens.map fun c => ⟨start + t.location.column, c⟩

/-- The region that closes on a row that starts at an offset. -/
def closedOn (pending : Option Unclosed) (start : Nat) (text : Text) : List Region :=
  match pending with
  | none => []
  | some u =>
    match Lexeme.pastPair u.construct.closer text with
    | none => []
    | some n => [⟨u.start, start + n, u.construct⟩]

/-- What is open after a row. -/
def openAfter (pending : Option Unclosed) (start : Nat) (text : Text) : Option Unclosed :=
  match pending with
  | none => opening start (Scan.tokens 0 0 0 text)
  | some u =>
    match Lexeme.pastPair u.construct.closer text with
    | none => some u
    | some n => opening start (Scan.tokens 0 n 0 (text.drop n))

/-- The regions that close on rows, the first of which starts at an offset. -/
def closed (pending : Option Unclosed) (start : Nat) : List Text → List Region
  | [] => []
  | text :: rest =>
    closedOn pending start text ++
      closed (openAfter pending start text) (start + text.length + 1) rest

/-- What is open after rows. -/
def unclosed (pending : Option Unclosed) (start : Nat) : List Text → Option Unclosed
  | [] => pending
  | text :: rest => unclosed (openAfter pending start text) (start + text.length + 1) rest

/-- The region of what is left open, up to an offset. -/
def leftOpen (pending : Option Unclosed) (stop : Nat) : List Region :=
  pending.toList.map fun u => ⟨u.start, stop, u.construct⟩

/-- The regions of rows that run to the end of the text. -/
def regions (pending : Option Unclosed) (start : Nat) (rows : List Text) : List Region :=
  closed pending start rows ++
    leftOpen (unclosed pending start rows) (start + width rows - 1 + overhang)

theorem closed_append (pending : Option Unclosed) (start : Nat) (rows rest : List Text) :
    closed pending start (rows ++ rest) =
      closed pending start rows ++
        closed (unclosed pending start rows) (start + width rows) rest := by
  induction rows generalizing pending start with
  | nil => rfl
  | cons text rows ih =>
    rw [List.cons_append, closed, ih, closed, unclosed, width_cons, List.append_assoc,
      ← Nat.add_assoc start, ← Nat.add_assoc start]

theorem unclosed_append (pending : Option Unclosed) (start : Nat) (rows rest : List Text) :
    unclosed pending start (rows ++ rest) =
      unclosed (unclosed pending start rows) (start + width rows) rest := by
  induction rows generalizing pending start with
  | nil => rfl
  | cons text rows ih =>
    rw [List.cons_append, unclosed, ih, unclosed, width_cons, ← Nat.add_assoc start,
      ← Nat.add_assoc start]

theorem regions_append (pending : Option Unclosed) (start : Nat) (rows rest : List Text) :
    regions pending start (rows ++ rest) =
      closed pending start rows ++
        regions (unclosed pending start rows) (start + width rows) rest := by
  rw [regions, closed_append, unclosed_append, width_append, List.append_assoc, regions,
    Nat.add_assoc start]

theorem regions_cons (pending : Option Unclosed) (start : Nat) (text : Text) (rest : List Text) :
    regions pending start (text :: rest) =
      closedOn pending start text ++
        regions (openAfter pending start text) (start + text.length + 1) rest := by
  have h := regions_append pending start [text] rest
  simpa [closed, unclosed, Nat.add_assoc] using h

theorem opening_construct (start : Nat) (tokens : List Token) :
    (opening start tokens).map (·.construct) = Scan.opened tokens := by
  unfold opening Scan.opened
  cases tokens.getLast? with
  | none => rfl
  | some t => cases h : t.opens <;> simp [h]

theorem openAfter_construct (pending : Option Unclosed) (start : Nat) (text : Text) :
    (openAfter pending start text).map (·.construct) =
      (Scan.line (pending.map (·.construct)) 0 text).after := by
  cases pending with
  | none => exact opening_construct start _
  | some u =>
    rw [openAfter, Option.map_some]
    cases hpast : Lexeme.pastPair u.construct.closer text with
    | none => rw [Scan.line_middle 0 hpast]; rfl
    | some n => rw [Scan.line_closing 0 hpast]; exact opening_construct start _

theorem unclosed_construct (pending : Option Unclosed) (start : Nat) (rows : List Text) :
    (unclosed pending start rows).map (·.construct) =
      Scan.carry (pending.map (·.construct)) rows := by
  induction rows generalizing pending start with
  | nil => rfl
  | cons text rows ih => rw [unclosed, ih, openAfter_construct, Scan.carry]

theorem carry_eq_none_iff (start : Nat) (rows : List Text) :
    Scan.carry none rows = none ↔ unclosed none start rows = none := by
  have h := unclosed_construct none start rows
  rw [Option.map_none] at h
  rw [← h, Option.map_eq_none_iff]

/-- What is open before a row was opened on a row above it. -/
def Above (pending : Option Unclosed) (start : Nat) : Prop :=
  ∀ u, pending = some u → u.start + 1 < start

theorem above_none (start : Nat) : Above none start := by
  intro u h
  simp at h

theorem opening_bounds {start n : Nat} {text : Text} {u : Unclosed} (hn : n ≤ text.length)
    (h : opening start (Scan.tokens 0 n 0 (text.drop n)) = some u) :
    start + n ≤ u.start ∧ u.start < start + text.length := by
  obtain ⟨t, ht, hopens⟩ := Option.bind_eq_some_iff.1 h
  obtain ⟨c, -, rfl⟩ := Option.map_eq_some_iff.1 hopens
  have hmem := List.mem_of_getLast? ht
  have hplace := Scan.tokens_laidOut 0 n 0 (text.drop n) (Nat.zero_le _)
  have hlow := hplace.low_le t hmem
  have hhigh := hplace.le_high t hmem
  have hpos := hplace.length_pos t hmem
  rw [List.length_drop] at hhigh
  dsimp only
  omega

theorem openAfter_bounds {pending : Option Unclosed} {start : Nat} {text : Text} {u : Unclosed}
    (h : openAfter pending start text = some u) :
    (pending = some u ∧ closedOn pending start text = []) ∨
      start ≤ u.start ∧ u.start < start + text.length ∧
        ∀ r ∈ closedOn pending start text, r.stop ≤ u.start := by
  cases pending with
  | none =>
    have hbounds := opening_bounds (Nat.zero_le text.length) h
    exact .inr ⟨hbounds.1, hbounds.2, by simp [closedOn]⟩
  | some v =>
    rw [openAfter] at h
    rw [closedOn]
    cases hpast : Lexeme.pastPair v.construct.closer text with
    | none =>
      rw [hpast] at h
      exact .inl ⟨h, rfl⟩
    | some n =>
      rw [hpast] at h
      have hbounds := opening_bounds (Lexeme.pastPair_bounds hpast).2 h
      refine .inr ⟨by omega, hbounds.2, ?_⟩
      simpa using hbounds.1

theorem above_openAfter {pending : Option Unclosed} {start : Nat} (h : Above pending start)
    (text : Text) : Above (openAfter pending start text) (start + text.length + 1) := by
  intro u hu
  rcases openAfter_bounds hu with ⟨hsame, -⟩ | ⟨-, hlt, -⟩
  · have hlt := h u hsame
    omega
  · omega

theorem above_unclosed {pending : Option Unclosed} {start : Nat} (h : Above pending start)
    (rows : List Text) : Above (unclosed pending start rows) (start + width rows) := by
  induction rows generalizing pending start with
  | nil => exact h
  | cons text rows ih =>
    have hrest := ih (above_openAfter h text)
    rw [unclosed, width_cons, ← Nat.add_assoc, ← Nat.add_assoc]
    exact hrest

/-- Where the regions of rows can start: at what is open before them, or on them. -/
def low (pending : Option Unclosed) (start : Nat) : Nat := pending.elim start (·.start)

theorem closedOn_bounds {pending : Option Unclosed} {start : Nat} (h : Above pending start)
    {text : Text} {r : Region} (hr : r ∈ closedOn pending start text) :
    r.start = low pending start ∧ r.start < r.stop ∧ start < r.stop ∧
      r.stop ≤ start + text.length := by
  cases pending with
  | none => simp [closedOn] at hr
  | some u =>
    rw [closedOn] at hr
    cases hpast : Lexeme.pastPair u.construct.closer text with
    | none => simp [hpast] at hr
    | some n =>
      have hbounds := Lexeme.pastPair_bounds hpast
      have hlt := h u rfl
      rw [hpast, List.mem_singleton] at hr
      subst hr
      refine ⟨rfl, ?_, ?_, ?_⟩ <;> dsimp only <;> omega

theorem apart_closedOn {pending : Option Unclosed} {start : Nat} (h : Above pending start)
    (text : Text) : Apart (closedOn pending start text) := by
  refine ⟨fun r hr => (closedOn_bounds h hr).2.1, ?_⟩
  unfold closedOn
  split
  · exact List.Pairwise.nil
  · split
    · exact List.Pairwise.nil
    · exact List.pairwise_singleton _ _

theorem low_openAfter {pending : Option Unclosed} {start : Nat} (h : Above pending start)
    (text : Text) :
    low pending start ≤ low (openAfter pending start text) (start + text.length + 1) ∧
      ∀ r ∈ closedOn pending start text,
        r.stop ≤ low (openAfter pending start text) (start + text.length + 1) := by
  have hlow : low pending start ≤ start := by
    cases hpending : pending with
    | none => exact Nat.le_refl _
    | some u =>
      have hlt := h u hpending
      simp only [low, Option.elim_some]
      omega
  cases hafter : openAfter pending start text with
  | none =>
    simp only [low, Option.elim_none] at hlow ⊢
    refine ⟨by omega, fun r hr => ?_⟩
    have hstop := (closedOn_bounds h hr).2.2.2
    omega
  | some u =>
    rcases openAfter_bounds hafter with ⟨rfl, hnone⟩ | ⟨hle, -, hstop⟩
    · rw [hnone]
      exact ⟨Nat.le_refl _, by simp⟩
    · exact ⟨hlow.trans hle, hstop⟩

theorem regions_bounds {pending : Option Unclosed} {start : Nat} (h : Above pending start)
    (rows : List Text) :
    Apart (regions pending start rows) ∧
      ∀ r ∈ regions pending start rows, low pending start ≤ r.start ∧ start < r.stop := by
  induction rows generalizing pending start with
  | nil =>
    cases pending with
    | none => exact ⟨Apart.nil, by simp [regions, closed, unclosed, leftOpen]⟩
    | some u =>
      have hlt := h u rfl
      have hone : regions (some u) start [] = [⟨u.start, start - 1 + overhang, u.construct⟩] := rfl
      rw [hone, overhang]
      refine ⟨Apart.singleton ?_, ?_⟩
      · dsimp only
        omega
      · simp only [List.mem_singleton, forall_eq]
        exact ⟨Nat.le_refl _, by omega⟩
  | cons text rows ih =>
    -- what closes on the first row ends before anything that the rows below it can hold
    obtain ⟨hapart, hbounds⟩ := ih (above_openAfter h text)
    obtain ⟨hlow, hstop⟩ := low_openAfter h text
    rw [regions_cons]
    refine ⟨(apart_closedOn h text).append hapart fun a ha b hb => ?_, fun r hr => ?_⟩
    · exact (hstop a ha).trans (hbounds b hb).1
    · rcases List.mem_append.1 hr with hr | hr
      · have hrow := closedOn_bounds h hr
        exact ⟨hrow.1.ge, hrow.2.2.1⟩
      · have hrest := hbounds r hr
        exact ⟨hlow.trans hrest.1, by omega⟩

theorem closed_stop_lt {pending : Option Unclosed} {start : Nat} (h : Above pending start)
    {rows : List Text} {r : Region} (hr : r ∈ closed pending start rows) :
    r.stop < start + width rows := by
  induction rows generalizing pending start with
  | nil => simp [closed] at hr
  | cons text rows ih =>
    rw [width_cons]
    rcases List.mem_append.1 hr with hr | hr
    · have hstop := (closedOn_bounds h hr).2.2.2
      omega
    · have hstop := ih (above_openAfter h text) hr
      omega

theorem closed_subset_regions {pending : Option Unclosed} {start : Nat} {rows : List Text}
    {r : Region} (hr : r ∈ closed pending start rows) : r ∈ regions pending start rows :=
  List.mem_append_left _ hr

theorem apart_closed {pending : Option Unclosed} {start : Nat} (h : Above pending start)
    (rows : List Text) : Apart (closed pending start rows) :=
  (regions_bounds h rows).1.sublist (List.sublist_append_left _ _)

theorem closed_stop_le_unclosed {pending : Option Unclosed} {start : Nat}
    (h : Above pending start) {rows : List Text} {u : Unclosed}
    (hu : unclosed pending start rows = some u) :
    ∀ r ∈ closed pending start rows, r.stop ≤ u.start := by
  intro r hr
  have hpairs := (regions_bounds h rows).1.stop_le_start
  rw [regions, hu] at hpairs
  exact (List.pairwise_append.1 hpairs).2.2 r hr _ (List.mem_singleton_self _)

theorem low_le_unclosed {pending : Option Unclosed} {start : Nat} (h : Above pending start)
    {rows : List Text} {u : Unclosed} (hu : unclosed pending start rows = some u) :
    low pending start ≤ u.start := by
  refine ((regions_bounds h rows).2
    ⟨u.start, start + width rows - 1 + overhang, u.construct⟩ ?_).1
  rw [regions, hu]
  exact List.mem_append_right _ (List.mem_singleton_self _)

theorem exists_region_of_pending (u : Unclosed) (start : Nat) (hpos : 0 < start)
    (rows : List Text) :
    ∃ r ∈ regions (some u) start rows,
      r.start = u.start ∧ start < r.stop ∧ r.construct = u.construct := by
  induction rows generalizing start with
  | nil =>
    refine ⟨⟨u.start, start - 1 + overhang, u.construct⟩, ?_, rfl, ?_, rfl⟩
    · simp [regions, closed, unclosed, leftOpen]
    · rw [overhang]
      dsimp only
      omega
  | cons text rows ih =>
    rw [regions_cons]
    cases hpast : Lexeme.pastPair u.construct.closer text with
    | none =>
      have hopen : openAfter (some u) start text = some u := by simp [openAfter, hpast]
      obtain ⟨r, hr, hstart, hstop, hconstruct⟩ := ih (start + text.length + 1) (by omega)
      exact ⟨r, List.mem_append_right _ (by rwa [hopen]), hstart, by omega, hconstruct⟩
    | some n =>
      have hbounds := Lexeme.pastPair_bounds hpast
      refine ⟨⟨u.start, start + n, u.construct⟩, List.mem_append_left _ ?_, rfl, ?_, rfl⟩
      · simp [closedOn, hpast]
      · dsimp only
        omega

/-- The place of an unclosed construct, moved by a distance. -/
def shiftUnclosed (distance : Int) (u : Unclosed) : Unclosed :=
  ⟨Region.shiftOffset u.start distance, u.construct⟩

theorem shiftOffset_eq {offset moved : Nat} {distance : Int} (h : (moved : Int) = offset + distance)
    (hle : moved ≤ maxOffset) : Region.shiftOffset offset distance = moved := by
  rw [Region.shiftOffset, ← h, Int.toNat_natCast, Nat.min_eq_left hle]

theorem opening_shift {start moved : Nat} {distance : Int} (h : (moved : Int) = start + distance)
    {tokens : List Token} (hle : ∀ t ∈ tokens, moved + t.location.column ≤ maxOffset) :
    opening moved tokens = (opening start tokens).map (shiftUnclosed distance) := by
  unfold opening
  cases hlast : tokens.getLast? with
  | none => rfl
  | some t =>
    have hbound := hle t (List.mem_of_getLast? hlast)
    have hshift : Region.shiftOffset (start + t.location.column) distance =
        moved + t.location.column := shiftOffset_eq (by push_cast; omega) hbound
    cases hopens : t.opens with
    | none => simp [hopens]
    | some c => simp [hopens, shiftUnclosed, hshift]

theorem tokens_column_le {n : Nat} {text : Text} (hn : n ≤ text.length) {t : Token}
    (ht : t ∈ Scan.tokens 0 n 0 (text.drop n)) : t.location.column ≤ text.length := by
  have hhigh := (Scan.tokens_laidOut 0 n 0 (text.drop n) (Nat.zero_le _)).le_high t ht
  rw [List.length_drop] at hhigh
  omega

theorem closedOn_shift {start moved : Nat} {distance : Int} (h : (moved : Int) = start + distance)
    {pending : Option Unclosed} {text : Text} (hle : moved + text.length ≤ maxOffset) :
    closedOn (pending.map (shiftUnclosed distance)) moved text =
      (closedOn pending start text).map (·.shift distance) := by
  cases pending with
  | none => rfl
  | some u =>
    have hconstruct : (shiftUnclosed distance u).construct = u.construct := rfl
    rw [Option.map_some, closedOn, closedOn, hconstruct]
    cases hpast : Lexeme.pastPair u.construct.closer text with
    | none => rfl
    | some n =>
      have hbounds := Lexeme.pastPair_bounds hpast
      have hstop : Region.shiftOffset (start + n) distance = moved + n :=
        shiftOffset_eq (by push_cast; omega) (by omega)
      simp [Region.shift, shiftUnclosed, hstop]

theorem openAfter_shift {start moved : Nat} {distance : Int} (h : (moved : Int) = start + distance)
    {pending : Option Unclosed} {text : Text} (hle : moved + text.length ≤ maxOffset) :
    openAfter (pending.map (shiftUnclosed distance)) moved text =
      (openAfter pending start text).map (shiftUnclosed distance) := by
  cases pending with
  | none =>
    refine opening_shift h fun t ht => ?_
    have hcolumn : t.location.column ≤ text.length := tokens_column_le (Nat.zero_le _) ht
    omega
  | some u =>
    have hconstruct : (shiftUnclosed distance u).construct = u.construct := rfl
    rw [Option.map_some, openAfter, openAfter, hconstruct]
    cases hpast : Lexeme.pastPair u.construct.closer text with
    | none => rfl
    | some n =>
      refine opening_shift h fun t ht => ?_
      have hcolumn := tokens_column_le (Lexeme.pastPair_bounds hpast).2 ht
      omega

theorem regions_shift {start moved : Nat} {distance : Int} (h : (moved : Int) = start + distance)
    {pending : Option Unclosed} (habove : Above pending start)
    (hstart : ∀ u, pending = some u → 0 ≤ (u.start : Int) + distance) {rows : List Text}
    (hle : moved + width rows + 1 ≤ maxOffset) :
    regions (pending.map (shiftUnclosed distance)) moved rows =
      (regions pending start rows).map (·.shift distance) := by
  induction rows generalizing start moved pending with
  | nil =>
    cases pending with
    | none => rfl
    | some u =>
      have hlt := habove u rfl
      have hnonneg := hstart u rfl
      have hstop : Region.shiftOffset (start - 1 + overhang) distance = moved - 1 + overhang :=
        shiftOffset_eq (by rw [overhang]; omega) (by rw [overhang]; simp at hle; omega)
      simp [regions, closed, unclosed, leftOpen, Region.shift, shiftUnclosed, hstop]
  | cons text rows ih =>
    rw [width_cons] at hle
    have hmoved : ((moved + text.length + 1 : Nat) : Int) =
        (start + text.length + 1 : Nat) + distance := by
      push_cast
      omega
    have hrest := ih hmoved (above_openAfter habove text) (fun u hu => ?_) (by omega)
    · rw [regions_cons, regions_cons, closedOn_shift h (by omega), openAfter_shift h (by omega),
        hrest, List.map_append]
    · rcases openAfter_bounds hu with ⟨hsame, -⟩ | ⟨hge, -, -⟩
      · exact hstart u hsame
      · omega

/-- The fragments of scanned rows, the first of which starts at an offset. -/
def fragments (before : Option Construct) (row start : Nat) : List Text → List Placed
  | [] => []
  | text :: rest =>
    (Scan.line before row text).tokens.filterMap (place start) ++
      fragments (Scan.line before 0 text).after (row + 1) (start + text.length + 1) rest

theorem filterMap_place_nil {start : Nat} {tokens : List Token}
    (h : ∀ t ∈ tokens, t.fragment = none) : tokens.filterMap (place start) = [] := by
  rw [List.filterMap_eq_nil_iff]
  intro t ht
  simp [place, h t ht]

theorem opening_onRow (start row row' n : Nat) (text : Text) :
    opening start (Scan.tokens row' n 0 text) = opening start (Scan.tokens row n 0 text) := by
  rw [Scan.tokens_onRow row row']
  unfold opening
  rw [List.getLast?_map]
  cases (Scan.tokens row n 0 text).getLast? <;> rfl

theorem derive_tokens (start row n : Nat) (text : Text) (more : List Placed) (index : RegionIndex) :
    derive none ((Scan.tokens row n 0 text).filterMap (place start) ++ more) index =
      derive (opening start (Scan.tokens 0 n 0 text)) more index := by
  rw [opening_onRow start row 0]
  rcases Scan.tokens_fragment row n 0 text with hnone | ⟨front, k, c, -, -, htokens, hfront, -⟩
  · have hclosed := opening_construct start (Scan.tokens row n 0 text)
    rw [Scan.opened_eq_none hnone, Option.map_eq_none_iff] at hclosed
    rw [filterMap_place_nil hnone, hclosed, List.nil_append]
  · rw [htokens, List.filterMap_append, filterMap_place_nil hfront]
    simp [opening, Scan.openingToken, place, Token.fragment, Token.opens, derive]

/-- The fragments of a scanned row fit what is open before it, and add the region that closes. -/
theorem derive_line {pending : Option Unclosed} {start : Nat} (habove : Above pending start)
    (row : Nat) (text : Text) (more : List Placed) {index : RegionIndex}
    {left right : List Region} (hindex : index.toList = left ++ right)
    (hpos : ∀ r ∈ left, r.start < r.stop) (hleft : ∀ r ∈ left, r.stop ≤ low pending start)
    (hright : ∀ r ∈ right, start + text.length ≤ r.start) :
    ∃ next : RegionIndex, next.toList = left ++ closedOn pending start text ++ right ∧
      derive pending ((Scan.line (pending.map (·.construct)) row text).tokens.filterMap
        (place start) ++ more) index = derive (openAfter pending start text) more next := by
  cases pending with
  | none =>
    refine ⟨index, by simpa [closedOn] using hindex, ?_⟩
    rw [Option.map_none, Scan.line_none, derive_tokens]
    rfl
  | some u =>
    rw [Option.map_some, closedOn, openAfter]
    cases hpast : Lexeme.pastPair u.construct.closer text with
    | none =>
      refine ⟨index, by simpa using hindex, ?_⟩
      rw [Scan.line_middle row hpast]
      dsimp only
      split
      · rfl
      · simp [place, Token.fragment, derive]
    | some n =>
      have hlt := habove u rfl
      have hbounds := Lexeme.pastPair_bounds hpast
      obtain ⟨next, hinsert, hnext⟩ := RegionIndex.insert_between hindex hpos
        ⟨u.start, start + n, u.construct⟩ (by dsimp only; omega) hleft fun r hr => by
          have hr' := hright r hr
          dsimp only
          omega
      refine ⟨next, by simpa using hnext, ?_⟩
      have hlength : (text.take n).length = n := by
        rw [List.length_take]
        omega
      rw [Scan.line_closing row hpast, List.filterMap_cons_some (b := ⟨u.construct, .closing, start,
        start + n, ⟨row, 0⟩⟩) (by simp [place, Token.fragment, Token.length, hlength])]
      rw [List.cons_append, derive, if_neg (by simp), hinsert]
      dsimp only
      exact derive_tokens start row n (text.drop n) more next

theorem derive_rows {pending : Option Unclosed} {start : Nat} (habove : Above pending start)
    (row : Nat) (rows : List Text) {index : RegionIndex} {left right : List Region}
    (hindex : index.toList = left ++ right) (hpos : ∀ r ∈ left, r.start < r.stop)
    (hleft : ∀ r ∈ left, r.stop ≤ low pending start)
    (hright : ∀ r ∈ right, start + width rows ≤ r.start + 1) :
    ∃ next : RegionIndex, next.toList = left ++ closed pending start rows ++ right ∧
      derive pending (fragments (pending.map (·.construct)) row start rows) index =
        ⟨.ok (unclosed pending start rows), next⟩ := by
  induction rows generalizing pending start row index left with
  | nil => exact ⟨index, by simpa [closed] using hindex, by simp [fragments, derive, unclosed]⟩
  | cons text rows ih =>
    rw [width_cons] at hright
    have hright' : ∀ r ∈ right, start + text.length ≤ r.start := by
      intro r hr
      have hr' := hright r hr
      omega
    obtain ⟨next, hnext, hline⟩ := derive_line habove row text
      (fragments (Scan.line (pending.map (·.construct)) 0 text).after (row + 1)
        (start + text.length + 1) rows) hindex hpos hleft hright'
    obtain ⟨hlow, hstop⟩ := low_openAfter habove text
    -- the region that closes on the row joins those on the left before the rest is derived
    have hpos' : ∀ r ∈ left ++ closedOn pending start text, r.start < r.stop := by
      intro r hr
      rcases List.mem_append.1 hr with hr | hr
      · exact hpos r hr
      · exact (closedOn_bounds habove hr).2.1
    have hleft' : ∀ r ∈ left ++ closedOn pending start text,
        r.stop ≤ low (openAfter pending start text) (start + text.length + 1) := by
      intro r hr
      rcases List.mem_append.1 hr with hr | hr
      · exact (hleft r hr).trans hlow
      · exact hstop r hr
    obtain ⟨last, hlast, hrest⟩ := ih (above_openAfter habove text) (row + 1) hnext hpos'
      hleft' fun r hr => by
        have hr' := hright r hr
        omega
    refine ⟨last, by simpa [closed] using hlast, ?_⟩
    rw [fragments, hline, ← openAfter_construct pending start text, hrest, unclosed]

theorem deriveToEnd_eq {text : Text} {buckets : RowBuckets} {index next : RegionIndex}
    {pending : Option Unclosed}
    (hderive : derive none (ofRows text buckets) index = ⟨.ok pending, next⟩)
    (hpos : ∀ r ∈ next.toList, r.start < r.stop)
    (hpending : ∀ u, pending = some u →
      u.start < text.length + overhang ∧ ∀ r ∈ next.toList, r.stop ≤ u.start) :
    ∃ last : RegionIndex, last.toList = next.toList ++ leftOpen pending (text.length + overhang) ∧
      deriveToEnd text buckets index = ⟨.ok (), last⟩ := by
  unfold deriveToEnd
  rw [hderive]
  cases pending with
  | none => exact ⟨next, by simp [leftOpen], rfl⟩
  | some u =>
    obtain ⟨hlt, hleft⟩ := hpending u rfl
    obtain ⟨last, hinsert, hlast⟩ :=
      RegionIndex.insert_between (List.append_nil next.toList).symm hpos
        ⟨u.start, text.length + overhang, u.construct⟩ hlt hleft (by simp)
    refine ⟨last, by simpa [leftOpen] using hlast, ?_⟩
    dsimp only [leaveOpen]
    rw [hinsert]

theorem ofRows_cons (text : Text) (row : Nat) (bucket : List Token) (rest : List (List Token)) :
    ofRows text ⟨row, bucket :: rest⟩ =
      bucket.filterMap (place (text.rowStart row)) ++ ofRows text ⟨row + 1, rest⟩ := rfl

theorem ofRows_marked {text : Text} (before : Option Construct) (row start : Nat)
    (rows : List Text)
    (hstart : ∀ i, i < rows.length → text.rowStart (row + i) = start + width (rows.take i)) :
    ofRows text ⟨row, Scan.marked before row rows⟩ = fragments before row start rows := by
  induction rows generalizing before row start with
  | nil => rfl
  | cons line rows ih =>
    have hfirst : text.rowStart row = start := by simpa using hstart 0 (by simp)
    have hplace : (Scan.markRow (Scan.line before row line).tokens).filterMap (place start) =
        (Scan.line before row line).tokens.filterMap (place start) := by
      have hmap := Scan.markRow_map (place start) (fun t => by
        simp [place, Statement.call_fragment, Statement.call_location, Token.length,
          Statement.call_text]) (Scan.line before row line).tokens
      have hid (l : List Token) : l.filterMap (place start) =
          (l.map (place start)).filterMap id := by
        rw [List.filterMap_map]
        rfl
      rw [hid, hmap, hid]
    have hrest := ih (Scan.line before 0 line).after (row + 1) (start + line.length + 1)
      fun i hi => by
        have h := hstart (i + 1) (by simpa using hi)
        rw [List.take_succ_cons, width_cons] at h
        rw [Nat.add_right_comm, Nat.add_assoc, h]
        omega
    rw [Scan.marked_cons, ofRows_cons, hrest, hfirst, hplace, fragments]

end LiveHighlight.Constructs

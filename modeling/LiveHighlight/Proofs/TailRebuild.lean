import Mathlib
import LiveHighlight.Proofs.FullLex

/-! Lexing again from a construct that rows leave open to the end of the text. The construct was
opened by the last opening fragment of the rows; lexing from there goes on as lexing the rows would
have gone on, so the rows and regions are those of lexing everything at once. -/

namespace LiveHighlight

namespace Constructs

open Text Fragments

theorem tokens_of_opening {start n : Nat} {text : Text} {u : Unclosed} (row : Nat)
    (h : opening start (Scan.tokens 0 n 0 (text.drop n)) = some u) :
    ∃ k, n + k < n + (text.drop n).length ∧ u.start = start + (n + k) ∧
      (∃ front, Scan.tokens row n 0 (text.drop n) =
        front ++ [Scan.openingToken row (n + k) u.construct (text.drop (n + k))]) ∧
      Scan.tokens row 0 0 (text.drop (n + k)) =
        [Scan.openingToken row 0 u.construct (text.drop (n + k))] := by
  rw [opening_onRow start row 0] at h
  rcases Scan.tokens_fragment row n 0 (text.drop n) with
    hnone | ⟨front, k, c, -, hk, htokens, -, halone⟩
  · have hclosed := opening_construct start (Scan.tokens row n 0 (text.drop n))
    rw [h, Scan.opened_eq_none hnone] at hclosed
    simp at hclosed
  · rw [List.drop_drop] at htokens halone
    have hu : u = ⟨start + (n + k), c⟩ := by
      rw [htokens] at h
      simpa [opening, Scan.openingToken, Token.opens] using h.symm
    subst hu
    refine ⟨k, by omega, rfl, ⟨front, htokens⟩, ?_⟩
    -- reading at column zero differs from reading in place by the column only
    have hindent := Scan.tokens_indent row 0 0 (n + k) (text.drop (n + k))
    rw [Nat.zero_add, halone] at hindent
    obtain ⟨t, ht, hmoved⟩ := List.map_eq_singleton_iff.1 hindent.symm
    rw [ht]
    cases t with
    | mk kind tokenText location =>
      cases location with
      | mk r column =>
        simp only [Token.indent, Scan.openingToken, Token.mk.injEq, Location.mk.injEq] at hmoved
        obtain ⟨rfl, rfl, rfl, hcolumn⟩ := hmoved
        obtain rfl : column = 0 := by omega
        rfl

theorem exists_of_opening {start n : Nat} {text : Text} {u : Unclosed} (hn : n ≤ text.length)
    (h : opening start (Scan.tokens 0 n 0 (text.drop n)) = some u) :
    ∃ k, n ≤ k ∧ k < text.length ∧ u.start = start + k ∧ ∀ row,
      (∃ front, Scan.tokens row n 0 (text.drop n) =
        front ++ [Scan.openingToken row k u.construct (text.drop k)]) ∧
      Scan.tokens row 0 0 (text.drop k) =
        [Scan.openingToken row 0 u.construct (text.drop k)] := by
  obtain ⟨k, hk, hstart, -, -⟩ := tokens_of_opening 0 h
  rw [List.length_drop] at hk
  refine ⟨n + k, Nat.le_add_right _ _, by omega, hstart, fun row => ?_⟩
  obtain ⟨k', -, hstart', htokens, halone⟩ := tokens_of_opening row h
  obtain rfl : k' = k := by omega
  exact ⟨htokens, halone⟩

theorem exists_row_of_unclosed {start : Nat} {rows : List Text} {u : Unclosed}
    (h : unclosed none start rows = some u) :
    ∃ upper text lower k, rows = upper ++ text :: lower ∧ k < text.length ∧
      u.start = start + width upper + k ∧
      unclosed none start (upper ++ [text]) = some u ∧
      (∀ line ∈ lower, Lexeme.pastPair u.construct.closer line = none) ∧
      ∀ row, (∃ front, (Scan.line (Scan.carry none upper) row text).tokens =
          front ++ [Scan.openingToken row k u.construct (text.drop k)]) ∧
        Scan.tokens row 0 0 (text.drop k) =
          [Scan.openingToken row 0 u.construct (text.drop k)] := by
  induction rows using List.reverseRecOn with
  | nil => simp [unclosed] at h
  | append_singleton rows text ih =>
    have hlast : openAfter (unclosed none start rows) (start + width rows) text = some u := by
      rwa [unclosed_append] at h
    have hcarry := unclosed_construct none start rows
    rw [Option.map_none] at hcarry
    cases hpending : unclosed none start rows with
    | none =>
      rw [hpending] at hlast hcarry
      obtain ⟨k, -, hk, hstart, htokens⟩ := exists_of_opening (Nat.zero_le text.length) hlast
      refine ⟨rows, text, [], k, rfl, hk, hstart, h, by simp, fun row => ?_⟩
      rw [← hcarry]
      exact htokens row
    | some v =>
      rw [hpending] at hlast hcarry
      rw [openAfter] at hlast
      cases hpast : Lexeme.pastPair v.construct.closer text with
      | none =>
        -- the row lies inside of the construct, which was opened further up
        rw [hpast] at hlast
        obtain rfl : v = u := Option.some.inj hlast
        obtain ⟨upper, line, lower, k, rfl, hk, hstart, hopen, hlower, htokens⟩ := ih hpending
        refine ⟨upper, line, lower ++ [text], k, by simp, hk, hstart, hopen, ?_, htokens⟩
        simpa [or_imp, forall_and, hpast] using hlower
      | some n =>
        rw [hpast] at hlast
        obtain ⟨k, hn, hk, hstart, htokens⟩ :=
          exists_of_opening (Lexeme.pastPair_bounds hpast).2 hlast
        refine ⟨rows, text, [], k, rfl, hk, hstart, h, by simp, fun row => ?_⟩
        obtain ⟨⟨front, hfront⟩, halone⟩ := htokens row
        refine ⟨⟨⟨.fragment v.construct .closing, text.take n, ⟨row, 0⟩⟩ :: front, ?_⟩, halone⟩
        rw [← hcarry, Option.map_some, Scan.line_closing row hpast, hfront]
        rfl

end Constructs

namespace Scan

theorem markRow_concat (front : List Token) (t : Token) :
    ∃ marked, markRow (front ++ [t]) = marked ++ [t] := by
  induction front with
  | nil => exact ⟨[], rfl⟩
  | cons a front ih =>
    obtain ⟨marked, h⟩ := ih
    rw [List.cons_append, markRow, h]
    exact ⟨_ :: marked, rfl⟩

theorem marked_middle {c : Construct} (row : Nat) {rows : List Text}
    (h : ∀ line ∈ rows, Lexeme.pastPair c.closer line = none) :
    ∀ bucket ∈ marked (some c) row rows, ∀ t ∈ bucket, t.opens = none := by
  induction rows generalizing row with
  | nil => simp [marked, lines]
  | cons text rows ih =>
    obtain ⟨hfirst, hrest⟩ := List.forall_mem_cons.1 h
    rw [marked_cons, line_middle 0 hfirst, line_middle row hfirst]
    refine List.forall_mem_cons.2 ⟨fun t ht => ?_, ih (row + 1) hrest⟩
    dsimp only at ht
    split at ht
    · simp [markRow] at ht
    · obtain rfl := List.mem_singleton.1 ht
      rfl

end Scan

namespace RowBuckets

theorem unclosedOpening_eq {startRow : Nat} {upper lower : List (List Token)} {bucket : List Token}
    {t : Token} (hlast : bucket.getLast? = some t) (hopens : t.opens.isSome)
    (hlower : ∀ b ∈ lower, ∀ a ∈ b, a.opens = none) :
    unclosedOpening ⟨startRow, upper ++ bucket :: lower⟩ = .ok t.location := by
  have hnone : (lower.reverse.filterMap List.getLast?).find? (·.opens.isSome) = none := by
    refine List.find?_eq_none.2 fun a ha => ?_
    obtain ⟨b, hb, hab⟩ := List.mem_filterMap.1 ha
    simp [hlower b (List.mem_reverse.1 hb) a (List.mem_of_getLast? hab)]
  have hfind : (tails ⟨startRow, upper ++ bucket :: lower⟩).find? (·.opens.isSome) = some t := by
    rw [tails, List.reverse_append, List.reverse_cons, List.filterMap_append,
      List.filterMap_append, List.append_assoc, List.find?_append, hnone, Option.none_or,
      List.filterMap_cons_some hlast, List.filterMap_nil, List.singleton_append,
      List.find?_cons_of_pos (p := fun a : Token => a.opens.isSome) hopens]
  rw [unclosedOpening, hfind]

theorem splice_eq {startRow : Nat} {upper lower rest : List (List Token)}
    {front bucket : List Token} {origin : Location} {row : Nat}
    (hrow : origin.row = startRow + upper.length)
    (hfront : ∀ t ∈ front, t.location.column < origin.column) (t : Token)
    (ht : t.location.column = origin.column) :
    splice ⟨startRow, upper ++ (front ++ [t]) :: lower⟩ origin ⟨row, bucket :: rest⟩ =
      ⟨startRow, upper ++ (front ++ bucket) :: rest⟩ := by
  have hindex : startRow + upper.length - startRow = upper.length := by omega
  have hkept : (front ++ [t]).filter (·.location.column < origin.column) = front := by
    rw [List.filter_append, List.filter_eq_self.2 fun a ha => by simpa using hfront a ha,
      List.filter_cons_of_neg (by simp [ht]), List.filter_nil, List.append_nil]
  have hget : (upper ++ (front ++ [t]) :: lower).getD upper.length [] = front ++ [t] := by
    rw [List.getD_append_right _ _ _ _ (Nat.le_refl _), Nat.sub_self, List.getD_cons_zero]
  have hpad : upper.length - (upper ++ (front ++ [t]) :: lower).length = 0 := by
    rw [List.length_append]
    omega
  rw [splice, if_neg (by rw [hrow]; dsimp only; omega)]
  dsimp only
  rw [hrow, hindex, hget, hkept, hpad, List.take_left, List.replicate_zero, List.append_nil,
    List.headD_cons, List.tail_cons]

end RowBuckets

namespace Relex

open Text Fragments Constructs Extent

theorem closed_middle {u : Unclosed} (start : Nat) {rows : List Text}
    (h : ∀ line ∈ rows, Lexeme.pastPair u.construct.closer line = none) :
    closed (some u) start rows = [] := by
  induction rows generalizing start with
  | nil => rfl
  | cons text rows ih =>
    obtain ⟨hfirst, hrest⟩ := List.forall_mem_cons.1 h
    simp [closed, closedOn, openAfter, hfirst, ih _ hrest]

theorem deriveToEnd_tail {text line : Text} {upper rest : List Text}
    (hlines : text.lines = upper ++ line :: rest) {k : Nat} (hk : k < line.length)
    (c : Construct) {index : RegionIndex} (hpos : ∀ r ∈ index.toList, r.start < r.stop)
    (hindex : ∀ r ∈ index.toList, r.stop ≤ width upper + k) :
    ∃ next : RegionIndex,
      deriveToEnd text ⟨upper.length, [Scan.openingToken upper.length k c (line.drop k)] ::
        Scan.marked (some c) (upper.length + 1) rest⟩ index = ⟨.ok (), next⟩ ∧
      next.toList = index.toList ++
        regions (some ⟨width upper + k, c⟩) (width upper + line.length + 1) rest := by
  set u : Unclosed := ⟨width upper + k, c⟩ with hu
  set start := width upper + line.length + 1 with hstart
  have habove : Above (some u) start := by
    intro v hv
    obtain rfl := Option.some.inj hv
    simp only [hu, hstart]
    omega
  have hrow : text.rowStart upper.length = width upper := by
    have hsplit : text.lines = upper ++ (line :: rest) ++ [] := by simp [hlines]
    simpa using rowStart_of_lines (i := 0) hsplit (by simp)
  have hrest : ofRows text ⟨upper.length + 1, Scan.marked (some c) (upper.length + 1) rest⟩ =
      fragments (some c) (upper.length + 1) start rest := by
    refine ofRows_marked _ _ _ _ fun i hi => ?_
    have hsplit : text.lines = (upper ++ [line]) ++ rest ++ [] := by simp [hlines]
    have hrowStart := rowStart_of_lines hsplit hi
    rw [List.length_append, width_append] at hrowStart
    simpa [hstart, Nat.add_assoc] using hrowStart
  have hrows : ofRows text ⟨upper.length, [Scan.openingToken upper.length k c (line.drop k)] ::
        Scan.marked (some c) (upper.length + 1) rest⟩ =
      ⟨c, .opening, width upper + k, width upper + k + (line.drop k).length,
        ⟨upper.length, k⟩⟩ :: fragments (some c) (upper.length + 1) start rest := by
    rw [ofRows_cons, hrest, hrow]
    rfl
  obtain ⟨next, hnext, hderive⟩ := derive_rows habove (upper.length + 1) rest
    (List.append_nil index.toList).symm hpos hindex (by simp)
  rw [List.append_nil] at hnext
  have hwidth : start + width rest = text.length + 1 := by
    have htotal := congrArg width hlines
    rw [width_lines, width_append, width_cons] at htotal
    omega
  have hnextPos : ∀ r ∈ next.toList, r.start < r.stop := by
    rw [hnext]
    intro r hr
    rcases List.mem_append.1 hr with hr | hr
    · exact hpos r hr
    · exact (apart_closed habove rest).start_lt_stop r hr
  have hopened : derive none (ofRows text
      ⟨upper.length, [Scan.openingToken upper.length k c (line.drop k)] ::
        Scan.marked (some c) (upper.length + 1) rest⟩) index =
      ⟨.ok (unclosed (some u) start rest), next⟩ := by
    rw [hrows, derive]
    exact hderive
  obtain ⟨last, hlast, hend⟩ := deriveToEnd_eq hopened hnextPos fun v hv => by
      have hv' := above_unclosed habove rest v hv
      refine ⟨by omega, fun r hr => ?_⟩
      rw [hnext] at hr
      rcases List.mem_append.1 hr with hr | hr
      · exact (hindex r hr).trans (low_le_unclosed habove hv)
      · exact closed_stop_le_unclosed habove hv r hr
  refine ⟨last, hend, ?_⟩
  rw [hlast, hnext, regions, hwidth, Nat.add_sub_cancel, List.append_assoc]

/-- How rows come to leave a construct open. A row opens it with the last of its tokens, at a
column, and the rows inside of it do not close it. -/
structure Opened (row start : Nat) (ahead : List Text) (line : Text) (inside : List Text)
    (column : Nat) (u : Unclosed) (front : List Token) : Prop where
  column_lt : column < line.length
  start_eq : u.start = start + width ahead + column
  unclosed_eq : unclosed none start (ahead ++ [line]) = some u
  inside_open : ∀ text ∈ inside, Lexeme.pastPair u.construct.closer text = none
  front_lt : ∀ t ∈ front, t.location.column < column
  marked_eq : ∀ rest, Scan.marked none row (ahead ++ line :: rest) =
    Scan.marked none row ahead ++ (front ++
      [Scan.openingToken (row + ahead.length) column u.construct (line.drop column)]) ::
        Scan.marked (some u.construct) (row + ahead.length + 1) rest
  tail_eq : ∀ rest, Scan.marked none (row + ahead.length) (line.drop column :: rest) =
    [Scan.openingToken (row + ahead.length) 0 u.construct (line.drop column)] ::
      Scan.marked (some u.construct) (row + ahead.length + 1) rest

theorem exists_opened (row : Nat) {start : Nat} {rows : List Text} {u : Unclosed}
    (h : unclosed none start rows = some u) :
    ∃ ahead line inside column front, rows = ahead ++ line :: inside ∧
      Opened row start ahead line inside column u front := by
  obtain ⟨ahead, line, inside, k, hrows, hk, hstart, hopen, hinside, htokens⟩ :=
    exists_row_of_unclosed h
  obtain ⟨⟨tokens, hline⟩, halone⟩ := htokens (row + ahead.length)
  obtain ⟨front, hmarks⟩ := Scan.markRow_concat tokens
    (Scan.openingToken (row + ahead.length) k u.construct (line.drop k))
  refine ⟨ahead, line, inside, k, front, hrows, hk, hstart, hopen, hinside, ?_, ?_, ?_⟩
  · intro t ht
    -- tokens of a row do not overlap, and the opening one is the last
    have hlaid := Scan.markRow_laidOut
      (Scan.line_laidOut (Scan.carry none ahead) (row + ahead.length) line)
    rw [hline, hmarks] at hlaid
    have hle := (List.pairwise_append.1 hlaid.apart).2.2 t ht _ (List.mem_singleton_self _)
    have hpos := hlaid.length_pos t (List.mem_append_left _ ht)
    dsimp only [Scan.openingToken] at hle
    omega
  · intro rest
    have hafter : (Scan.line (Scan.carry none ahead) 0 line).after = some u.construct := by
      have hcarry := unclosed_construct none start (ahead ++ [line])
      rw [hopen, Option.map_none, Scan.carry_append] at hcarry
      exact hcarry.symm
    rw [Scan.marked_append, Scan.marked_cons, hafter, hline, hmarks]
  · intro rest
    rw [Scan.marked_cons, Scan.line_none, Scan.line_none, halone, (htokens 0).2]
    rfl

section

variable {text : Text} {upper lower ahead inside : List Text} {line : Text} {column : Nat}
  {u : Unclosed} {front : List Token}

theorem Opened.opening_eq {row start : Nat}
    (h : Opened row start ahead line inside column u front) :
    RowBuckets.unclosedOpening ⟨row, Scan.marked none row (ahead ++ line :: inside)⟩ =
      .ok ⟨row + ahead.length, column⟩ := by
  rw [h.marked_eq]
  exact RowBuckets.unclosedOpening_eq (List.getLast?_concat ..) rfl
    (Scan.marked_middle _ h.inside_open)

theorem Opened.splice_eq {row start : Nat}
    (h : Opened row start ahead line inside column u front) (rest : List Text) :
    RowBuckets.splice ⟨row, Scan.marked none row (ahead ++ line :: inside)⟩
        ⟨row + ahead.length, column⟩
        ⟨row + ahead.length,
          [Scan.openingToken (row + ahead.length) column u.construct (line.drop column)] ::
            Scan.marked (some u.construct) (row + ahead.length + 1) rest⟩ =
      ⟨row, Scan.marked none row (ahead ++ line :: rest)⟩ := by
  rw [h.marked_eq inside, h.marked_eq rest]
  exact RowBuckets.splice_eq (by rw [Scan.length_marked]) h.front_lt _ rfl

theorem Opened.lexRows_eq (reader : Reader LineLexer)
    (h : Opened upper.length (width upper) ahead line inside column u front)
    (hlines : text.lines = upper ++ (ahead ++ line :: inside) ++ lower) :
    text.rowStart (upper.length + ahead.length) + column = u.start ∧
      ∃ last, lexRows reader text ⟨u.start, text.length⟩ (upper.length + ahead.length)
          (text.lineCount - 1) =
        (.ok ⟨upper.length + ahead.length,
          [Scan.openingToken (upper.length + ahead.length) 0 u.construct (line.drop column)] ::
            Scan.marked (some u.construct) (upper.length + ahead.length + 1)
              (inside ++ lower)⟩, last) := by
  have hlines' : text.lines = (upper ++ ahead) ++ line :: (inside ++ lower) := by
    simp [hlines]
  have hslice : lines (text.slice u.start text.length) =
      line.drop column :: (inside ++ lower) := by
    rw [slice_length, h.start_eq, ← width_append]
    exact lines_drop hlines' h.column_lt.le
  have hcount : text.lineCount - 1 = upper.length + ahead.length +
      ((line.drop column :: (inside ++ lower)).length - 1) := by
    have hlength := congrArg List.length hlines'
    rw [length_lines] at hlength
    simp only [List.length_append, List.length_cons] at hlength ⊢
    omega
  have hlex := Relex.lexRows_eq reader text ⟨u.start, text.length⟩
    (upper.length + ahead.length) (text.lineCount - 1) (by rw [hslice, hcount])
  rw [hslice, h.tail_eq] at hlex
  refine ⟨?_, _, hlex⟩
  have hrowStart := rowStart_of_lines (i := ahead.length) hlines (by simp)
  rw [List.take_left] at hrowStart
  rw [h.start_eq, hrowStart]

theorem Opened.regions_eq {row start : Nat}
    (h : Opened row start ahead line inside column u front) (lower : List Text) :
    regions none start (ahead ++ line :: inside ++ lower) =
      closed none start (ahead ++ line :: inside) ++
        regions (some u) (start + width ahead + line.length + 1) (inside ++ lower) := by
  have hinner : closed none start (ahead ++ line :: inside) =
      closed none start (ahead ++ [line]) := by
    rw [← List.singleton_append, ← List.append_assoc, closed_append, h.unclosed_eq,
      closed_middle _ h.inside_open, List.append_nil]
  have hsplit : ahead ++ line :: inside ++ lower = (ahead ++ [line]) ++ (inside ++ lower) := by
    simp
  have hwidth : start + width (ahead ++ [line]) = start + width ahead + line.length + 1 := by
    rw [width_append, width_cons, width_nil]
    omega
  rw [hsplit, regions_append, h.unclosed_eq, hwidth, hinner]

end

/-- What is left open by rows of the text is lexed again to the end, and the rows and regions are
those of the rows and all rows below them. -/
theorem rebuildTail_eq (reader : Reader LineLexer) {text : Text} {upper rows lower : List Text}
    (hlines : text.lines = upper ++ rows ++ lower) {u : Unclosed}
    (hunclosed : unclosed none (width upper) rows = some u) (window : Window)
    {left right : List Region} {index : RegionIndex}
    (hindex : index.toList = left ++ closed none (width upper) rows ++ right)
    (hpos : ∀ r ∈ left, r.start < r.stop) (hleft : ∀ r ∈ left, r.stop ≤ width upper)
    (hright : ∀ r ∈ right, u.start ≤ r.start) :
    ∃ next last events, rebuildTail reader text window
        ⟨⟨upper.length, Scan.marked none upper.length rows⟩, index⟩ =
      ⟨.ok { window with stop := text.length, endRow := text.lineCount - 1, tailRebuilt := true },
        ⟨⟨upper.length, Scan.marked none upper.length (rows ++ lower)⟩, next⟩, last, events⟩ ∧
      next.toList = left ++ regions none (width upper) (rows ++ lower) := by
  -- all that is known before the rows, and all that closes on them, ends where the construct starts
  have hbefore : ∀ r ∈ left ++ closed none (width upper) rows, r.stop ≤ u.start := by
    intro r hr
    rcases List.mem_append.1 hr with hr | hr
    · exact (hleft r hr).trans (low_le_unclosed (above_none _) hunclosed)
    · exact closed_stop_le_unclosed (above_none _) hunclosed r hr
  have hbeforePos : ∀ r ∈ left ++ closed none (width upper) rows, r.start < r.stop := by
    intro r hr
    rcases List.mem_append.1 hr with hr | hr
    · exact hpos r hr
    · exact (apart_closed (above_none _) rows).start_lt_stop r hr
  have hkept : (index.truncate u.start).toList = left ++ closed none (width upper) rows := by
    refine RegionIndex.truncate_append hindex (fun r hr => ?_) hright
    exact (hbeforePos r hr).trans_le (hbefore r hr)
  obtain ⟨ahead, line, inside, k, front, rfl, hopened⟩ := exists_opened upper.length hunclosed
  have hlines' : text.lines = (upper ++ ahead) ++ line :: (inside ++ lower) := by
    simp [hlines]
  have hu : (⟨width (upper ++ ahead) + k, u.construct⟩ : Unclosed) = u := by
    rw [width_append, ← hopened.start_eq]
  obtain ⟨next, hend, hnext⟩ := deriveToEnd_tail hlines' hopened.column_lt u.construct
    (hkept ▸ hbeforePos) fun r hr => by
      rw [width_append, ← hopened.start_eq]
      exact hbefore r (hkept ▸ hr)
  rw [List.length_append] at hend
  obtain ⟨hoffset, last, hlex⟩ := hopened.lexRows_eq reader hlines
  have hindent : RowBuckets.indentFirst
      ⟨upper.length + ahead.length,
        [Scan.openingToken (upper.length + ahead.length) 0 u.construct (line.drop k)] ::
          Scan.marked (some u.construct) (upper.length + ahead.length + 1) (inside ++ lower)⟩ k =
      ⟨upper.length + ahead.length,
        [Scan.openingToken (upper.length + ahead.length) k u.construct (line.drop k)] ::
          Scan.marked (some u.construct) (upper.length + ahead.length + 1)
            (inside ++ lower)⟩ := by
    simp [RowBuckets.indentFirst, Token.indent, Scan.openingToken]
  refine ⟨next, last, [.tailRebuilt ⟨upper.length + ahead.length, k⟩ (text.lineCount - 1)
    (index.size - (index.truncate u.start).size)], ?_, ?_⟩
  · unfold rebuildTail
    dsimp only
    rw [hopened.opening_eq]
    dsimp only
    rw [hoffset, hlex]
    dsimp only
    rw [hindent, hend]
    dsimp only
    rw [hopened.splice_eq, List.append_assoc ahead, List.cons_append]
  · rw [hnext, hkept, hu, hopened.regions_eq, width_append, List.append_assoc]

end Relex
end LiveHighlight

import Mathlib
import LiveHighlight.Highlighter
import LiveHighlight.Proofs.RelexStep

/-! The styles that painting gives to characters. A character has the style of the last stroke over
it. Painting rows of a text that no construct crosses gives their characters the styles that
painting the whole text gives them, and leaves all other characters alone. -/

namespace LiveHighlight

theorem TextBuffer.eq_of_styles {a b : TextBuffer} (htext : a.text = b.text)
    (hstyles : a.styles = b.styles) : a = b := by
  cases a
  cases b
  simp_all

namespace Paint

open Text

/-- The style of a character after strokes. -/
def styleAfter (strokes : List Stroke) (i : Nat) (style : Option TokenStyle) : Option TokenStyle :=
  strokes.foldl
    (fun style s => if s.offset ≤ i ∧ i < s.offset + s.length then some s.style else style) style

theorem styleAfter_append (a b : List Stroke) (i : Nat) (style : Option TokenStyle) :
    styleAfter (a ++ b) i style = styleAfter b i (styleAfter a i style) := List.foldl_append

theorem styleAfter_outside {strokes : List Stroke} {i : Nat}
    (h : ∀ s ∈ strokes, i < s.offset ∨ s.offset + s.length ≤ i) (style : Option TokenStyle) :
    styleAfter strokes i style = style := by
  induction strokes with
  | nil => rfl
  | cons s rest ih =>
    have hs := h s List.mem_cons_self
    have hrest := ih fun a ha => h a (List.mem_cons_of_mem _ ha)
    rw [styleAfter, List.foldl_cons, if_neg (by omega)]
    exact hrest

theorem stroke_text (buffer : TextBuffer) (s : Stroke) : (stroke buffer s).text = buffer.text := by
  unfold stroke TextBuffer.setStyle
  split <;> rfl

theorem paint_text (buffer : TextBuffer) (strokes : List Stroke) :
    (paint buffer strokes).text = buffer.text := by
  induction strokes generalizing buffer with
  | nil => rfl
  | cons s rest ih => exact (ih _).trans (stroke_text buffer s)

theorem missed_eq_nil {buffer : TextBuffer} {strokes : List Stroke}
    (h : ∀ s ∈ strokes, s.offset + s.length ≤ buffer.length) : missed buffer strokes = [] := by
  rw [missed, List.filterMap_eq_nil_iff]
  intro s hs
  rw [TextBuffer.setStyle, dif_pos (h s hs)]

theorem stroke_styles {buffer : TextBuffer} {s : Stroke} (h : s.offset + s.length ≤ buffer.length)
    (i : Nat) :
    (stroke buffer s).styles[i]? =
      if s.offset ≤ i ∧ i < s.offset + s.length then some s.style else buffer.styles[i]? := by
  have hstyled := buffer.styled
  rw [stroke, TextBuffer.setStyle, dif_pos h]
  rw [TextBuffer.length, ← hstyled] at h
  change (buffer.styles.take s.offset ++ List.replicate s.length s.style ++
    buffer.styles.drop (s.offset + s.length))[i]? = _
  have hlength : (buffer.styles.take s.offset).length = s.offset := by
    rw [List.length_take]
    omega
  rcases Nat.lt_or_ge i s.offset with hi | hi
  · rw [if_neg (by omega), List.append_assoc, List.getElem?_append_left (by omega),
      List.getElem?_take_of_lt hi]
  · rcases Nat.lt_or_ge i (s.offset + s.length) with hi' | hi'
    · rw [if_pos ⟨hi, hi'⟩, List.getElem?_append_left (by simp; omega),
        List.getElem?_append_right (by omega), hlength, List.getElem?_replicate,
        if_pos (by omega)]
    · rw [if_neg (by omega), List.getElem?_append_right (by simp; omega), List.getElem?_drop]
      congr 1
      simp
      omega

theorem paint_styles {buffer : TextBuffer} {strokes : List Stroke}
    (h : ∀ s ∈ strokes, s.offset + s.length ≤ buffer.length) (i : Nat) :
    (paint buffer strokes).styles[i]? = styleAfter strokes i buffer.styles[i]? := by
  induction strokes generalizing buffer with
  | nil => rfl
  | cons s rest ih =>
    have hin : ∀ a ∈ rest, a.offset + a.length ≤ (stroke buffer s).length := by
      intro a ha
      rw [TextBuffer.length, stroke_text]
      exact h a (List.mem_cons_of_mem _ ha)
    have hrest := ih hin
    rw [stroke_styles (h s List.mem_cons_self)] at hrest
    exact hrest

/-- The style that the tokens of a row give to a column. -/
def rowStyle (rules : StyleRules) (tokens : List Token) (column : Nat) : TokenStyle :=
  tokens.foldl
    (fun style t =>
      if t.location.column ≤ column ∧ column < t.location.column + t.length then rules.resolve t
      else style) .default

/-- The styles of rows, each with its line break. -/
def styleRows (rules : StyleRules) (before : Option Construct) : List Text → List TokenStyle
  | [] => []
  | line :: rest =>
    (List.range (line.length + 1)).map
        (rowStyle rules (Scan.markRow (Scan.line before 0 line).tokens)) ++
      styleRows rules (Scan.line before 0 line).after rest

theorem length_styleRows (rules : StyleRules) (before : Option Construct) (rows : List Text) :
    (styleRows rules before rows).length = width rows := by
  induction rows generalizing before with
  | nil => rfl
  | cons line rest ih => rw [styleRows, List.length_append, ih, width_cons]; simp

theorem styleRows_append (rules : StyleRules) (before : Option Construct) (rows rest : List Text) :
    styleRows rules before (rows ++ rest) =
      styleRows rules before rows ++ styleRows rules (Scan.carry before rows) rest := by
  induction rows generalizing before with
  | nil => rfl
  | cons line rows ih =>
    rw [List.cons_append, styleRows, ih, styleRows, Scan.carry, List.append_assoc]

theorem rowStyle_onRow (rules : StyleRules) (tokens : List Token) (row column : Nat) :
    rowStyle rules (tokens.map (·.onRow row)) column = rowStyle rules tokens column := by
  unfold rowStyle
  rw [List.foldl_map]
  rfl

section

variable (rules : StyleRules) (text : Text)

theorem styleAfter_tokens (start : Nat) (tokens : List Token) {i : Nat} (hi : start ≤ i)
    (style : TokenStyle) :
    styleAfter (tokens.map fun t => ⟨start + t.location.column, t.length, rules.resolve t⟩) i
        (some style) =
      some (tokens.foldl
        (fun style t =>
          if t.location.column ≤ i - start ∧ i - start < t.location.column + t.length then
            rules.resolve t
          else style) style) := by
  induction tokens generalizing style with
  | nil => rfl
  | cons t rest ih =>
    rw [List.map_cons, styleAfter, List.foldl_cons, List.foldl_cons]
    by_cases ht : t.location.column ≤ i - start ∧ i - start < t.location.column + t.length
    · rw [if_pos ht, if_pos (by dsimp only; omega)]
      exact ih _
    · rw [if_neg ht, if_neg (by dsimp only; omega)]
      exact ih _

theorem styleAfter_rowStrokes (tokens : List Token) {row i : Nat} (hi : text.rowStart row ≤ i)
    (hi' : i < text.rowStart (row + 1)) (style : Option TokenStyle) :
    styleAfter (rowStrokes rules text tokens row) i style =
      some (rowStyle rules tokens (i - text.rowStart row)) := by
  rw [rowStrokes, styleAfter, List.foldl_cons, if_pos (by dsimp only; omega)]
  exact styleAfter_tokens rules _ tokens hi .default

theorem mem_rowStrokes {tokens : List Token} {row high : Nat}
    (hrow : text.rowStart row + high ≤ text.rowStart (row + 1))
    (htokens : ∀ t ∈ tokens, t.location.column + t.length ≤ high) :
    ∀ s ∈ rowStrokes rules text tokens row,
      text.rowStart row ≤ s.offset ∧ s.offset + s.length ≤ text.rowStart (row + 1) := by
  intro s hs
  rcases List.mem_cons.1 hs with rfl | hs
  · dsimp only
    omega
  · obtain ⟨t, ht, rfl⟩ := List.mem_map.1 hs
    have hle := htokens t ht
    dsimp only
    omega

/-- The strokes of rows that are numbered from a row on. -/
def rowsStrokes (row : Nat) : List (List Token) → List Stroke
  | [] => []
  | tokens :: rest => rowStrokes rules text tokens row ++ rowsStrokes (row + 1) rest

theorem strokes_eq (row : Nat) (buckets : List (List Token))
    (h : row + buckets.length ≤ text.lineCount) :
    strokes rules text ⟨row, buckets⟩ = rowsStrokes rules text row buckets := by
  unfold strokes RowBuckets.numbered
  induction buckets generalizing row with
  | nil => rfl
  | cons tokens rest ih =>
    rw [List.length_cons] at h
    have hrest := ih (row + 1) (by omega)
    dsimp only at hrest ⊢
    rw [List.zipIdx_cons, List.takeWhile_cons_of_pos (by simp; omega), List.flatMap_cons, hrest]
    rfl

end

section

variable (rules : StyleRules) {text : Text} {upper lower : List Text}

theorem rowStart_upper {line : Text} {rest : List Text}
    (hlines : text.lines = upper ++ line :: rest) :
    text.rowStart upper.length = width upper ∧
      text.rowStart (upper.length + 1) = min (width upper + line.length + 1) text.length ∧
      width upper + line.length ≤ text.length := by
  have hwidth := congrArg width hlines
  rw [width_lines, width_append, width_cons] at hwidth
  refine ⟨?_, ?_, by omega⟩
  · rw [rowStart_eq_width, hlines, List.take_left]
    omega
  · rw [rowStart_eq_width, hlines, List.take_append, List.take_of_length_le (by omega),
      Nat.add_sub_cancel_left, List.take_succ_cons, List.take_zero, width_append, width_cons,
      width_nil, Nat.add_zero, Nat.add_assoc]

theorem mem_rowsStrokes (before : Option Construct) (rows : List Text)
    (hlines : text.lines = upper ++ rows ++ lower) :
    ∀ s ∈ rowsStrokes rules text upper.length (Scan.marked before upper.length rows),
      width upper ≤ s.offset ∧
        s.offset + s.length ≤ min (width upper + width rows) text.length := by
  induction rows generalizing upper before with
  | nil => simp [Scan.marked, Scan.lines, rowsStrokes]
  | cons line rows ih =>
    have hsplit : text.lines = upper ++ line :: (rows ++ lower) := by simpa using hlines
    have hsplit' : text.lines = upper ++ [line] ++ rows ++ lower := by simp [hlines]
    obtain ⟨hstart, hnext, hle⟩ := rowStart_upper hsplit
    have hrest := ih (Scan.line before 0 line).after hsplit'
    rw [List.length_append, width_append, width_cons, width_nil] at hrest
    have hroom : text.rowStart upper.length + line.length ≤ text.rowStart (upper.length + 1) := by
      omega
    have hlaid := Scan.markRow_laidOut (Scan.line_laidOut before upper.length line)
    have hrow := mem_rowStrokes rules text hroom hlaid.le_high
    intro s hs
    rw [Scan.marked_cons, rowsStrokes] at hs
    rw [width_cons]
    rcases List.mem_append.1 hs with hs | hs
    · have hbounds := hrow s hs
      omega
    · have hbounds := hrest s hs
      omega

theorem styleAfter_rows (before : Option Construct) (rows : List Text)
    (hlines : text.lines = upper ++ rows ++ lower) (i : Nat) (style : Option TokenStyle) :
    styleAfter (rowsStrokes rules text upper.length (Scan.marked before upper.length rows)) i
        style =
      if width upper ≤ i ∧ i < width upper + width rows ∧ i < text.length then
        (styleRows rules before rows)[i - width upper]?
      else style := by
  induction rows generalizing upper before style with
  | nil =>
    rw [width_nil, if_neg (by omega)]
    rfl
  | cons line rows ih =>
    have hsplit : text.lines = upper ++ line :: (rows ++ lower) := by simpa using hlines
    have hsplit' : text.lines = upper ++ [line] ++ rows ++ lower := by simp [hlines]
    obtain ⟨hstart, hnext, hle⟩ := rowStart_upper hsplit
    have hrest := ih (Scan.line before 0 line).after hsplit'
    rw [List.length_append, width_append, width_cons, width_nil, List.length_singleton] at hrest
    have hlength : ((List.range (line.length + 1)).map
        (rowStyle rules (Scan.markRow (Scan.line before 0 line).tokens))).length =
          line.length + 1 := by simp
    rw [Scan.marked_cons, rowsStrokes, styleAfter_append, hrest, width_cons, styleRows]
    -- rows do not share characters, so only the strokes of one row reach this one
    by_cases hrow : width upper ≤ i ∧ i < width upper + line.length + 1 ∧ i < text.length
    · have hfrom : text.rowStart upper.length ≤ i := by omega
      have hinside := styleAfter_rowStrokes rules text
        (Scan.markRow (Scan.line before upper.length line).tokens) hfrom (by omega) style
      rw [if_neg (by omega), if_pos (by omega), hinside, hstart,
        List.getElem?_append_left (by omega), List.getElem?_map, List.getElem?_range (by omega),
        Option.map_some, Scan.line_onRow before 0 upper.length, Scan.markRow_onRow, rowStyle_onRow]
    · have hlaid := Scan.markRow_laidOut (Scan.line_laidOut before upper.length line)
      have hroom : text.rowStart upper.length + line.length ≤
          text.rowStart (upper.length + 1) := by omega
      have houtside := styleAfter_outside (i := i) (fun s hs => by
        have hbounds := mem_rowStrokes rules text hroom hlaid.le_high s hs
        omega) style
      rw [houtside]
      by_cases hbelow : width upper + (line.length + 1) ≤ i ∧
          i < width upper + (line.length + 1) + width rows ∧ i < text.length
      · rw [if_pos (by omega), if_pos (by omega), List.getElem?_append_right (by omega), hlength]
        congr 1
        omega
      · rw [if_neg (by omega), if_neg (by omega)]

end

/-- The styles of a whole text. -/
def fullStyles (rules : StyleRules) (text : Text) : List TokenStyle :=
  (styleRows rules none text.lines).take text.length

theorem length_fullStyles (rules : StyleRules) (text : Text) :
    (fullStyles rules text).length = text.length := by
  rw [fullStyles, List.length_take, length_styleRows, width_lines]
  omega

section

open Relex Extent

variable (rules : StyleRules) {text : Text} {span : Span}

theorem styleRows_eq (h : Uncrossed text span) :
    styleRows rules none text.lines = styleRows rules none (text.above span.start) ++
      (styleRows rules none (spanRows text span) ++
        styleRows rules none (text.below span.stop)) := by
  rw [lines_eq_spanRows h.toAligned, List.append_assoc, styleRows_append,
    (Constructs.carry_eq_none_iff 0 _).2 h.above, styleRows_append]
  rcases Nat.lt_or_ge span.stop text.length with hlast | hlast
  · rw [(Constructs.carry_eq_none_iff span.start _).2 (h.below hlast)]
  · have hbelow : text.below span.stop = [] := if_neg (Nat.not_lt.2 hlast)
    rw [hbelow]
    rfl

theorem paint_span {buffer : TextBuffer} (h : Uncrossed buffer.text span) (i : Nat) :
    (paint buffer (strokes rules buffer.text ⟨buffer.text.rowAt span.start,
        Scan.marked none (buffer.text.rowAt span.start) (spanRows buffer.text span)⟩)).styles[i]? =
      if span.start ≤ i ∧ i ≤ span.stop then (fullStyles rules buffer.text)[i]?
      else buffer.styles[i]? := by
  have hlines := lines_eq_spanRows h.toAligned
  have habove := length_above h.rowStart
  have hwidthAbove := width_above h.rowStart
  have hwidth := width_spanRows h.toAligned
  have hstyled := buffer.styled
  have hcount := congrArg List.length hlines
  rw [length_lines, List.length_append, List.length_append] at hcount
  rw [strokes_eq rules buffer.text _ _ (by rw [Scan.length_marked]; omega), ← habove, paint_styles,
    styleAfter_rows rules none _ hlines, hwidthAbove, hwidth]
  · by_cases hi : i < buffer.text.length
    · by_cases hin : span.start ≤ i ∧ i ≤ span.stop
      · have hleft := length_styleRows rules none (buffer.text.above span.start)
        have hmiddle := length_styleRows rules none (spanRows buffer.text span)
        rw [if_pos (by omega), if_pos hin, fullStyles, List.getElem?_take, if_pos hi,
          styleRows_eq rules h, List.getElem?_append_right (by omega), hleft,
          hwidthAbove, List.getElem?_append_left (by omega)]
      · rw [if_neg (by omega), if_neg hin]
    · have hnone : buffer.styles[i]? = none := List.getElem?_eq_none (by omega)
      have hnone' : (fullStyles rules buffer.text)[i]? = none := by
        apply List.getElem?_eq_none
        rw [length_fullStyles]
        omega
      rw [if_neg (by omega), hnone, hnone', ite_self]
  · intro s hs
    have hbounds := mem_rowsStrokes rules none _ hlines s hs
    rw [TextBuffer.length]
    omega

variable {edit : Edit} {old new : Text}

theorem fullStyles_above (hcovers : Covers old new edit span) (h : edit.Applies old new) {i : Nat}
    (hi : i < span.start) : (fullStyles rules new)[i]? = (fullStyles rules old)[i]? := by
  have hnew := styleRows_eq rules hcovers.after
  have hold := styleRows_eq rules hcovers.before
  have hlength := length_styleRows rules none (old.above span.start)
  have hwidth := width_above hcovers.before.rowStart
  have hinNew := hcovers.after.rowStart.le_length
  have hinOld := hcovers.before.rowStart.le_length
  dsimp only at hold hwidth hinOld
  rw [fullStyles, fullStyles, List.getElem?_take, List.getElem?_take, if_pos (by omega),
    if_pos (by omega), hnew, hold, h.above_eq hcovers.start_le_offset,
    List.getElem?_append_left (by omega), List.getElem?_append_left (by omega)]

theorem fullStyles_below (hcovers : Covers old new edit span) (h : edit.Applies old new) {i : Nat}
    (hi : span.stop < i) :
    (fullStyles rules new)[i]? = (fullStyles rules old)[edit.mapBack i]? := by
  rcases Nat.lt_or_ge i new.length with hin | hin
  · have hnew := styleRows_eq rules hcovers.after
    have hold := styleRows_eq rules hcovers.before
    have hreach := hcovers.reach_le
    have hmove := edit.mapBack_sub hreach hi.le
    have hin' := (h.mapBack_lt_iff (hreach.trans hi.le) hin.le).2 hin
    have habove := length_styleRows rules none (new.above span.start)
    have habove' := length_styleRows rules none (old.above span.start)
    have hmiddle := length_styleRows rules none (spanRows new span)
    have hmiddle' := length_styleRows rules none
      (spanRows old ⟨span.start, edit.mapBack span.stop⟩)
    have hwidth := width_spanRows hcovers.after.toAligned
    have hwidth' := width_spanRows hcovers.before.toAligned
    have hwidthAbove := width_above hcovers.after.rowStart
    have hwidthAbove' := width_above hcovers.before.rowStart
    dsimp only at hold hwidth' hwidthAbove'
    rw [fullStyles, fullStyles, List.getElem?_take, List.getElem?_take, if_pos hin, if_pos hin',
      hnew, hold, h.below_eq hreach hcovers.after.rowEnd.le_length,
      List.getElem?_append_right (by omega), List.getElem?_append_right (by omega),
      List.getElem?_append_right (by omega), List.getElem?_append_right (by omega)]
    congr 1
    omega
  · have hlast := (h.mapBack_lt_iff h.reach_le (Nat.le_refl _))
    have hle := edit.mapBack_mono hin
    rw [List.getElem?_eq_none (by rw [length_fullStyles]; omega),
      List.getElem?_eq_none (by rw [length_fullStyles]; omega)]

end

end Paint
end LiveHighlight

import Mathlib
import LiveHighlight.Editor.Drain
import LiveHighlight.Proofs.Painting

/-! Running queued tasks. A queue holds the edits that lead from one buffer to another. If the
regions are in step with the first buffer, or a task for the whole text comes first, they are in
step with the text of each task once it has run, and only the characters of the dirty rows can have
a wrong style. Painting the dirty rows sets these right. -/

namespace LiveHighlight

open Extent Relex Paint

/-- An edit of a buffer. The characters on both sides of it keep their styles. -/
structure TextBuffer.Follows (edit : Edit) (before after : TextBuffer) : Prop where
  applies : edit.Applies before.text after.text
  above : ∀ i < edit.offset, after.styles[i]? = before.styles[i]?
  below : ∀ i, edit.reach ≤ i → after.styles[i]? = before.styles[edit.mapBack i]?

namespace TextBuffer

theorem insert_follows {buffer next : TextBuffer} {offset : Nat} {typed : Text}
    {change : BufferChange} (h : buffer.insert offset typed = .ok (change, next)) :
    next.text = buffer.text.take offset ++ typed ++ buffer.text.drop offset ∧
      change = ⟨⟨offset, typed.length, .insert⟩, typed⟩ ∧ Follows change.edit buffer next := by
  have hstyled := buffer.styled
  unfold insert at h
  split at h
  · next hle =>
    cases h
    rw [TextBuffer.length] at hle
    have hlength : (buffer.styles.take offset).length = offset := by
      rw [List.length_take]
      omega
    refine ⟨rfl, rfl, .insert typed hle, fun i hi => ?_, fun i hi => ?_⟩
    · dsimp only at hi ⊢
      rw [List.append_assoc, List.getElem?_append_left (by omega), List.getElem?_take_of_lt hi]
    · have hback : Edit.mapBack ⟨offset, typed.length, .insert⟩ i = i - typed.length := by
        simp only [Edit.reach, Edit.mapBack] at hi ⊢
        omega
      simp only [Edit.reach] at hi
      dsimp only
      rw [hback, List.getElem?_append_right (by simp; omega), List.getElem?_drop]
      congr 1
      simp
      omega
  · cases h

theorem remove_follows {buffer next : TextBuffer} {offset length : Nat} {change : BufferChange}
    (h : buffer.remove offset length = .ok (change, next)) :
    next.text = buffer.text.take offset ++ buffer.text.drop (offset + length) ∧
      change = ⟨⟨offset, length, .remove⟩, buffer.text.slice offset (offset + length)⟩ ∧
      offset + length ≤ buffer.length ∧ Follows change.edit buffer next := by
  have hstyled := buffer.styled
  unfold remove at h
  split at h
  · next hle =>
    cases h
    rw [TextBuffer.length] at hle
    have hlength : (buffer.styles.take offset).length = offset := by
      rw [List.length_take]
      omega
    refine ⟨rfl, rfl, hle, .remove hle, fun i hi => ?_, fun i hi => ?_⟩
    · dsimp only at hi ⊢
      rw [List.getElem?_append_left (by omega), List.getElem?_take_of_lt hi]
    · simp only [Edit.reach] at hi
      simp only [Edit.mapBack]
      rw [List.getElem?_append_right (by omega), List.getElem?_drop]
      congr 1
      omega
  · cases h

end TextBuffer

/-- Queued tasks that lead from one buffer to another. Each task has the text it was queued for, and
the texts fit. -/
inductive Queued : TextBuffer → List HighlightTask → TextBuffer → Prop
  | nil (buffer : TextBuffer) : Queued buffer [] buffer
  | entire {base buffer : TextBuffer} {tasks : List HighlightTask} (h : Queued base tasks buffer) :
    Queued base (.entire base.text :: tasks) buffer
  | region {base next buffer : TextBuffer} {tasks : List HighlightTask} {edit : Edit}
    (hedit : TextBuffer.Follows edit base next) (hfits : next.text.Fits)
    (h : Queued next tasks buffer) : Queued base (.region next.text edit :: tasks) buffer

namespace Queued

variable {base buffer next : TextBuffer} {tasks more : List HighlightTask}

theorem fits (h : Queued base tasks buffer) (hbase : base.text.Fits) : buffer.text.Fits := by
  induction h with
  | nil => exact hbase
  | entire _ ih => exact ih hbase
  | region _ hfits _ ih => exact ih hfits

theorem append (h : Queued base tasks buffer) (hmore : Queued buffer more next) :
    Queued base (tasks ++ more) next := by
  induction h with
  | nil => exact hmore
  | entire _ ih => exact .entire (ih hmore)
  | region hedit hfits _ ih => exact .region hedit hfits (ih hmore)

end Queued

/-- Rows that wait to be painted. They are rows of the text that no construct crosses. -/
structure Waiting (text : Text) (span : Span) (rows : RowBuckets) : Prop
    extends Uncrossed text span where
  rows_eq : rows = ⟨text.rowAt span.start,
    Scan.marked none (text.rowAt span.start) (spanRows text span)⟩

theorem waiting_full (text : Text) : Waiting text ⟨0, text.length⟩ ⟨0, fullRows text⟩ where
  rowStart := .inl rfl
  rowEnd := .inl rfl
  start_le_stop := Nat.zero_le _
  above := rfl
  below := fun h => absurd h (Nat.lt_irrefl _)
  rows_eq := by
    have hspan : spanRows text ⟨0, text.length⟩ = text.lines := by
      rw [spanRows, Text.slice_length, List.drop_zero]
    rw [hspan]
    rfl

theorem styles_outside (rules : StyleRules) (buffer : TextBuffer) {i : Nat}
    (hi : buffer.text.length ≤ i) :
    buffer.styles[i]? = (fullStyles rules buffer.text)[i]? := by
  have hstyled := buffer.styled
  have hlength := length_fullStyles rules buffer.text
  rw [List.getElem?_eq_none (by omega), List.getElem?_eq_none (by omega)]

theorem Waiting.paint_styles {buffer : TextBuffer} {span : Span} {rows : RowBuckets}
    (h : Waiting buffer.text span rows) (rules : StyleRules)
    (hstyled : ∀ i, i < span.start ∨ span.stop < i →
      buffer.styles[i]? = (fullStyles rules buffer.text)[i]?) :
    (paint buffer (strokes rules buffer.text rows)).styles = fullStyles rules buffer.text := by
  apply List.ext_getElem?
  intro i
  rw [h.rows_eq, paint_span rules h.toUncrossed]
  split_ifs with hi
  · rfl
  · exact hstyled i (by omega)

namespace Editor.Drain

/-- How a run of the queue stands after a task that left `buffer`: the regions are those of its
text, and its styles are right outside of the dirty rows. -/
structure InStep (rules : StyleRules) (key : FileKey) (drain : Drain LineLexer)
    (buffer : TextBuffer) (rows : RowBuckets) : Prop where
  state : drain.registry.get? key = some ⟨rows, fullIndex buffer.text⟩
  styled : ∀ i, (∀ span, drain.dirty = some span → i < span.start ∨ span.stop < i) →
    buffer.styles[i]? = (fullStyles rules buffer.text)[i]?
  start_le_stop : ∀ span, drain.dirty = some span → span.start ≤ span.stop
  idle : drain.dirty = none → rows.rows = []
  fresh : ∀ span, drain.fresh = some span → Waiting buffer.text span rows

section

variable {rules : StyleRules} {path : String} {key : FileKey} {drain : Drain LineLexer}

theorem step_entire (rules : StyleRules) (path : String) (key : FileKey)
    (drain : Drain LineLexer) (buffer : TextBuffer) :
    ∃ next rows, drain.step path key (.entire buffer.text) = (.ok (), next) ∧
      InStep rules key next buffer rows ∧ next.ran = drain.ran + 1 := by
  rw [step]
  dsimp only
  rw [entire_eq, absorb]
  refine ⟨_, ⟨0, fullRows buffer.text⟩, rfl, ?_, rfl⟩
  constructor
  · rw [Registry.get?_set, if_pos rfl]
  · intro i hi
    have hout : i < 0 ∨ buffer.text.length < i := hi _ rfl
    exact styles_outside rules buffer (by omega)
  · rintro span ⟨⟩
    exact Nat.zero_le _
  · intro h
    cases h
  · rintro span ⟨⟩
    exact waiting_full buffer.text

theorem InStep.styled_outside {buffer next : TextBuffer} {edit : Edit} {rows : RowBuckets}
    {span : Span} (h : InStep rules key drain buffer rows)
    (hedit : TextBuffer.Follows edit buffer next) (hcovers : Covers buffer.text next.text edit span)
    {i : Nat} (hi : i < span.start ∨ span.stop < i)
    (hcarried : ∀ d, drain.dirty = some d →
      i < edit.mapForward d.start ∨ edit.mapForward d.stop < i) :
    next.styles[i]? = (fullStyles rules next.text)[i]? := by
  -- the character comes from one outside of the dirty rows, whose style was right
  rcases hi with hi | hi
  · have hlt := hi.trans_le hcovers.start_le_offset
    rw [hedit.above i hlt, fullStyles_above rules hcovers hedit.applies hi]
    refine h.styled i fun d hd => edit.outside_of_mapForward ?_
    rw [edit.mapForward_of_lt hlt]
    exact hcarried d hd
  · have hle := hcovers.reach_le.trans hi.le
    rw [hedit.below i hle, fullStyles_below rules hcovers hedit.applies hi]
    refine h.styled _ fun d hd => edit.outside_of_mapForward ?_
    rw [edit.mapForward_mapBack hle]
    exact hcarried d hd

theorem step_region {buffer next : TextBuffer} {edit : Edit} {rows : RowBuckets}
    (h : InStep rules key drain buffer rows) (hedit : TextBuffer.Follows edit buffer next)
    (hfits : buffer.text.Fits) (hfits' : next.text.Fits) :
    ∃ after rows', drain.step path key (.region next.text edit) = (.ok (), after) ∧
      InStep rules key after next rows' ∧ after.ran = drain.ran + 1 := by
  have hregions : (⟨rows, fullIndex buffer.text⟩ : FileState).regions = fullIndex buffer.text := rfl
  obtain ⟨window, last, events, hafter, -, -, hcovers⟩ :=
    afterEdit_full drain.reader hedit.applies hfits hfits' hregions
  set span : Span := ⟨window.start, window.stop⟩
  have hstart : span.start = window.start := rfl
  have hstop : span.stop = window.stop := rfl
  rw [step]
  dsimp only
  rw [h.state]
  dsimp only
  rw [hafter, absorb]
  refine ⟨_, ⟨next.text.rowAt span.start,
    Scan.marked none (next.text.rowAt span.start) (spanRows next.text span)⟩, rfl, ?_, rfl⟩
  constructor
  · rw [Registry.get?_set, if_pos rfl]
  · intro i hi
    cases hdirty : drain.dirty with
    | none =>
      rw [hdirty] at hi
      refine h.styled_outside hedit hcovers (hi _ rfl) fun d hd => ?_
      rw [hdirty] at hd
      cases hd
    | some d =>
      rw [hdirty] at hi
      have hjoin := hi _ rfl
      simp only [Option.map_some, Option.elim_some, Span.join, Span.mapForward] at hjoin
      refine h.styled_outside hedit hcovers (by omega) fun d' hd' => ?_
      rw [hdirty] at hd'
      obtain rfl := Option.some.inj hd'
      omega
  · intro d hd
    have hle := hcovers.after.start_le_stop
    cases hdirty : drain.dirty with
    | none =>
      rw [hdirty] at hd
      obtain rfl := Option.some.inj hd
      exact hle
    | some d' =>
      rw [hdirty] at hd
      obtain rfl := Option.some.inj hd
      simp only [Option.map_some, Option.elim_some, Span.join]
      omega
  · intro hnone
    cases hnone
  · rintro d ⟨⟩
    exact ⟨hcovers.after, rfl⟩

/-- A run that starts in step, or with a task for the whole text. -/
def Ready (rules : StyleRules) (key : FileKey) (drain : Drain LineLexer) (base : TextBuffer)
    (tasks : List HighlightTask) : Prop :=
  (∃ rows, InStep rules key drain base rows) ∨ ∃ text rest, tasks = .entire text :: rest

theorem run_inStep (path : String) {base buffer : TextBuffer} {tasks : List HighlightTask}
    (hqueued : Queued base tasks buffer) (hfits : base.text.Fits)
    (hready : Ready rules key drain base tasks) :
    ∃ next, run path key tasks drain = (.ok (), next) ∧ next.ran = drain.ran + tasks.length ∧
      ∃ rows, InStep rules key next buffer rows := by
  induction hqueued generalizing drain with
  | nil =>
    rcases hready with hstart | ⟨text, rest, h⟩
    · exact ⟨drain, rfl, rfl, hstart⟩
    · cases h
  | @entire base buffer tasks hrest ih =>
    -- a task for the whole text gets in step by itself, whatever was known before it
    obtain ⟨middle, rows, hstep, hin, hran⟩ := step_entire rules path key drain base
    obtain ⟨next, hrun, hcount, hlast⟩ := ih hfits (.inl ⟨rows, hin⟩)
    refine ⟨next, ?_, ?_, hlast⟩
    · rw [run, hstep]
      exact hrun
    · rw [hcount, hran, List.length_cons]
      omega
  | region hedit hfits' hrest ih =>
    rcases hready with ⟨rows, hstart⟩ | ⟨text, rest, h⟩
    · obtain ⟨middle, rows', hstep, hin, hran⟩ := step_region hstart hedit hfits hfits'
      obtain ⟨next, hrun, hcount, hlast⟩ := ih hfits' (.inl ⟨rows', hin⟩)
      refine ⟨next, ?_, ?_, hlast⟩
      · rw [run, hstep]
        exact hrun
      · rw [hcount, hran, List.length_cons]
        omega
    · cases h

end

end Editor.Drain

namespace Relex

open Text

theorem uncrossed_of_hull {text : Text} {inner span : Span}
    (h : Uncut text (fullRegions text) inner span) (hspan : span.start ≤ span.stop) :
    Uncrossed text span := by
  refine uncrossed_of_uncut ⟨h.rowStart, h.rowEnd, hspan⟩ (fun r hr hlt => ?_)
    fun hlast r hr hlt => ?_
  · by_contra hcross
    have hmeets : r.meets span.start (span.stop + 1) = true := by
      simp [Region.meets]
      omega
    have huncut := (h.uncut r hr hmeets).1
    have hle := lineStart_le text r.start
    omega
  · by_contra hcross
    have hmeets : r.meets span.start (span.stop + 1) = true := by
      simp [Region.meets]
      omega
    have huncut := (h.uncut r hr hmeets).2
    have hle := le_lineEnd text r.stop
    omega

/-- The rows that a range of a text is painted with cut no region, so no construct crosses them. -/
theorem hull_full (text : Text) {start stop : Nat} (hrange : start ≤ stop) :
    Uncut text (fullRegions text) (rowsOf text start stop)
        (hull text (fullIndex text) (rowsOf text start stop)) ∧
      Uncrossed text (hull text (fullIndex text) (rowsOf text start stop)) := by
  have hrowStart := rowStart_lineStart text start
  have hwide : Uncut text (fullRegions text) (rowsOf text start stop)
      (hull text (fullIndex text) (rowsOf text start stop)) :=
    @hull_spec text (fullIndex text) (apart_fullRegions text) _ hrowStart (rowEnd_lineEnd text stop)
  refine ⟨hwide, uncrossed_of_hull hwide ?_⟩
  have hstart : _ ≤ text.lineStart start := hwide.start_le
  have hstop : text.lineEnd stop ≤ _ := hwide.le_stop
  have hstartLe := lineStart_le text start
  have hleStop := le_lineEnd text stop
  have hinText := hrowStart.le_length
  omega

theorem range_full (reader : Reader LineLexer) (text : Text) (rows : RowBuckets) {start stop : Nat}
    (hrange : start ≤ stop) :
    let span := hull text (fullIndex text) (rowsOf text start stop)
    range reader text start stop ⟨rows, fullIndex text⟩ =
      ⟨.ok (windowOf text span),
        ⟨⟨text.rowAt span.start, Scan.marked none (text.rowAt span.start) (spanRows text span)⟩,
          fullIndex text⟩,
        (reader.read (text.slice span.start span.stop) (text.rowAt span.start)).2,
        [.repainting (windowOf text span)]⟩ := by
  intro span
  unfold range
  dsimp only [windowOf]
  rw [lexRows_span reader text (hull_full text hrange).2.start_le_stop]

theorem range_waiting (reader : Reader LineLexer) (text : Text) (rows : RowBuckets) {dirty : Span}
    (hdirty : dirty.start ≤ dirty.stop) :
    ∃ window last events rows' span,
      range reader text dirty.start dirty.stop ⟨rows, fullIndex text⟩ =
        ⟨.ok window, ⟨rows', fullIndex text⟩, last, events⟩ ∧
      Waiting text span rows' ∧ span.start ≤ dirty.start ∧
      min dirty.stop text.length ≤ span.stop := by
  obtain ⟨hwide, huncrossed⟩ := hull_full text hdirty
  exact ⟨_, _, _, _, _, range_full reader text rows hdirty, ⟨huncrossed, rfl⟩,
    hwide.start_le.trans (lineStart_le text dirty.start),
    (le_lineEnd text dirty.stop).trans hwide.le_stop⟩

end Relex

/-- A buffer and a state that are highlighted as a whole, with nothing left to paint. -/
structure Highlighted (rules : StyleRules) (buffer : TextBuffer) (state : Option FileState) :
    Prop where
  styles : buffer.styles = fullStyles rules buffer.text
  state : ∃ rows, state = some ⟨rows, fullIndex buffer.text⟩ ∧ rows.rows = []

theorem Waiting.apply_highlighted {buffer : TextBuffer} {span : Span} {rows : RowBuckets}
    (h : Waiting buffer.text span rows) (highlighter : Highlighter LineLexer)
    (hstyled : ∀ i, i < span.start ∨ span.stop < i →
      buffer.styles[i]? = (fullStyles highlighter.rules buffer.text)[i]?) :
    ∃ painted next missed,
      highlighter.apply buffer.text ⟨rows, fullIndex buffer.text⟩ buffer =
        (painted, next, missed) ∧
      painted.text = buffer.text ∧ Highlighted highlighter.rules painted (some next) := by
  have hpaint := h.paint_styles highlighter.rules hstyled
  have htext := paint_text buffer (strokes highlighter.rules buffer.text rows)
  refine ⟨_, ⟨rows.clear, fullIndex buffer.text⟩, _, rfl, htext, ?_, rows.clear, ?_, rfl⟩
  · rw [htext, hpaint]
  · rw [htext]

/-- What highlighting a whole text leaves, whatever state and styles there were before. -/
theorem highlightEntire_eq {highlighter : Highlighter LineLexer}
    (hon : highlighter.enabled = true) (state : FileState) (buffer : TextBuffer) :
    highlighter.highlightEntire buffer.text state buffer =
      ⟨.ok (some ⟨0, buffer.text.length, 0, buffer.text.lineCount - 1, false⟩),
        ⟨⟨0, []⟩, fullIndex buffer.text⟩,
        ⟨buffer.text, fullStyles highlighter.rules buffer.text,
          length_fullStyles highlighter.rules buffer.text⟩,
        { highlighter with toReader := (highlighter.read buffer.text 0).2 },
        [.highlighted (buffer.text.lineCount - 1 + 1) (fullIndex buffer.text).size]⟩ := by
  have hbuffer : paint buffer (strokes highlighter.rules buffer.text ⟨0, fullRows buffer.text⟩) =
      ⟨buffer.text, fullStyles highlighter.rules buffer.text,
        length_fullStyles highlighter.rules buffer.text⟩ := by
    refine TextBuffer.eq_of_styles (paint_text _ _) ?_
    apply (waiting_full buffer.text).paint_styles highlighter.rules
    intro i hi
    have hout : i < 0 ∨ buffer.text.length < i := hi
    exact styles_outside highlighter.rules buffer (by omega)
  have hmissed :
      missed buffer (strokes highlighter.rules buffer.text ⟨0, fullRows buffer.text⟩) = [] := by
    apply missed_eq_nil
    rw [strokes_eq]
    · intro s hs
      have hbounds := @mem_rowsStrokes highlighter.rules buffer.text [] [] none buffer.text.lines
        (by simp) s hs
      rw [TextBuffer.length]
      omega
    · rw [fullRows, Scan.length_marked, Text.length_lines, Nat.zero_add]
  rw [Highlighter.highlightEntire, Highlighter.whenEnabled, if_pos hon, entire_eq,
    Highlighter.finish]
  dsimp only [Highlighter.apply]
  rw [hbuffer, hmissed]
  rfl

theorem highlightEntire_highlighted {highlighter : Highlighter LineLexer}
    (hon : highlighter.enabled = true) (state : FileState) (buffer : TextBuffer) :
    (highlighter.highlightEntire buffer.text state buffer).buffer.text = buffer.text ∧
      Highlighted highlighter.rules (highlighter.highlightEntire buffer.text state buffer).buffer
        (some (highlighter.highlightEntire buffer.text state buffer).state) := by
  rw [highlightEntire_eq hon]
  exact ⟨rfl, rfl, _, rfl, rfl⟩

theorem Highlighted.unique {rules : StyleRules} {a b : TextBuffer} {s t : FileState}
    (ha : Highlighted rules a (some s)) (hb : Highlighted rules b (some t))
    (htext : a.text = b.text) : a.styles = b.styles ∧ s.regions = t.regions := by
  obtain ⟨rows, hs, -⟩ := ha.state
  obtain ⟨rows', ht, -⟩ := hb.state
  rw [Option.some.inj hs, Option.some.inj ht, ha.styles, hb.styles, htext]
  exact ⟨rfl, rfl⟩

/-- A buffer and a state that are highlighted as a whole are those that highlighting the whole text
gives, from no state and no styles. -/
theorem Highlighted.eq_entire {highlighter : Highlighter LineLexer}
    (hon : highlighter.enabled = true) {buffer : TextBuffer} {state : Option FileState}
    (h : Highlighted highlighter.rules buffer state) :
    ∃ next, state = some next ∧ next.rows.rows = [] ∧
      buffer.styles = (highlighter.highlightEntire buffer.text {}
        (.ofText buffer.text)).buffer.styles ∧
      next.regions = (highlighter.highlightEntire buffer.text {}
        (.ofText buffer.text)).state.regions := by
  obtain ⟨rows, rfl, hrows⟩ := h.state
  obtain ⟨htext, hwhole⟩ := highlightEntire_highlighted hon {} (.ofText buffer.text)
  exact ⟨_, rfl, hrows, h.unique hwhole htext.symm⟩

theorem Highlighted.eq_highlightEntire {buffer : TextBuffer} {state : Option FileState}
    (h : Highlighted Highlighter.standard.rules buffer state) :
    ∃ next, state = some next ∧ next.rows.rows = [] ∧
      buffer.styles = (Highlighter.standard.highlightEntire buffer.text {}
        (.ofText buffer.text)).buffer.styles ∧
      next.regions = (Highlighter.standard.highlightEntire buffer.text {}
        (.ofText buffer.text)).state.regions :=
  h.eq_entire rfl

namespace Editor

variable {key : FileKey} {drain : Drain LineLexer} {editor : Editor}
  {highlighter : Highlighter LineLexer} {rows : RowBuckets}

theorem paintDirty_highlighted {dirty : Span} (hon : highlighter.enabled = true)
    (h : Drain.InStep highlighter.rules key drain editor.buffer rows)
    (hdirty : drain.dirty = some dirty) :
    ∃ result next buffer last events,
      editor.paintDirty highlighter ⟨rows, fullIndex editor.buffer.text⟩ dirty drain.fresh =
        ⟨.ok result, next, buffer, last, events⟩ ∧
      buffer.text = editor.buffer.text ∧ Highlighted highlighter.rules buffer (some next) := by
  have hstyled : ∀ i, i < dirty.start ∨ dirty.stop < i →
      editor.buffer.styles[i]? = (fullStyles highlighter.rules editor.buffer.text)[i]? := by
    intro i hi
    refine h.styled i fun span hspan => ?_
    rw [hdirty] at hspan
    obtain rfl := Option.some.inj hspan
    exact hi
  rw [paintDirty]
  dsimp only
  split_ifs with hfresh
  · obtain ⟨painted, next, missed, happly, htext, hall⟩ :=
      (h.fresh dirty hfresh).apply_highlighted highlighter hstyled
    rw [happly]
    exact ⟨_, next, painted, _, missed, rfl, htext, hall⟩
  · obtain ⟨window, reader, events, rows', span, hrange, hwaiting, hstart, hstop⟩ :=
      range_waiting highlighter.toReader editor.buffer.text rows (h.start_le_stop dirty hdirty)
    have hstyled' : ∀ i, i < span.start ∨ span.stop < i →
        editor.buffer.styles[i]? = (fullStyles highlighter.rules editor.buffer.text)[i]? := by
      intro i hi
      by_cases hin : i < editor.buffer.text.length
      · exact hstyled i (by omega)
      · exact styles_outside highlighter.rules editor.buffer (Nat.not_lt.1 hin)
    obtain ⟨painted, next, missed, happly, htext, hall⟩ :=
      hwaiting.apply_highlighted { highlighter with toReader := reader } hstyled'
    rw [Highlighter.repaint, Highlighter.whenEnabled, if_pos hon, hrange, Highlighter.finish]
    dsimp only
    rw [happly]
    exact ⟨_, next, painted, _, _, rfl, htext, hall⟩

theorem finishRun_highlighted (hon : highlighter.enabled = true)
    (h : Drain.InStep highlighter.rules key drain editor.buffer rows) :
    ∃ buffer last registry events,
      editor.finishRun highlighter key drain =
        ⟨.ok drain.ran, { editor with pending := [], buffer := buffer }, last, registry,
          events⟩ ∧
      buffer.text = editor.buffer.text ∧
      Highlighted highlighter.rules buffer (registry.get? key) := by
  unfold finishRun
  rw [h.state]
  cases hdirty : drain.dirty with
  | none =>
    refine ⟨editor.buffer, highlighter, drain.registry, _, rfl, rfl, ?_,
      rows, h.state, h.idle hdirty⟩
    apply List.ext_getElem?
    intro i
    exact h.styled i fun span hspan => by simp [hdirty] at hspan
  | some dirty =>
    obtain ⟨result, next, buffer, last, events, hpaint, htext, hall⟩ :=
      @paintDirty_highlighted key drain { editor with pending := [] } highlighter rows dirty hon h
        hdirty
    dsimp only at hpaint ⊢
    rw [hpaint]
    refine ⟨buffer, last, _, _, rfl, htext, ?_⟩
    rw [Registry.get?_set, if_pos rfl]
    exact hall

theorem runPending_of_run {registry : Registry} (hon : highlighter.enabled = true)
    (hrun : Drain.run editor.path key editor.pending
      { reader := highlighter.toReader, registry := registry } = (.ok (), drain))
    (h : Drain.InStep highlighter.rules key drain editor.buffer rows) :
    ∃ buffer last registry' events,
      editor.runPending highlighter registry key =
        ⟨.ok drain.ran, { editor with pending := [], buffer := buffer }, last, registry',
          events⟩ ∧
      buffer.text = editor.buffer.text ∧
      Highlighted highlighter.rules buffer (registry'.get? key) := by
  obtain ⟨buffer, last, registry', events, hfinish, htext, hall⟩ :=
    @finishRun_highlighted key drain editor { highlighter with toReader := drain.reader } rows
      hon h
  refine ⟨buffer, last, registry', events, ?_, htext, hall⟩
  rw [runPending, if_pos hon, hrun]
  exact hfinish

/-- Running the queue of an editor highlights its buffer as a whole, if the regions and styles were
those of the buffer that the queue starts from, or the first task is for the whole text. -/
theorem runPending_highlighted {registry : Registry} {base : TextBuffer}
    (hon : highlighter.enabled = true) (hqueued : Queued base editor.pending editor.buffer)
    (hfits : base.text.Fits)
    (hready : Highlighted highlighter.rules base (registry.get? key) ∨
      ∃ text rest, editor.pending = .entire text :: rest) :
    ∃ buffer last registry' events,
      editor.runPending highlighter registry key =
        ⟨.ok editor.pending.length, { editor with pending := [], buffer := buffer }, last,
          registry', events⟩ ∧
      buffer.text = editor.buffer.text ∧
      Highlighted highlighter.rules buffer (registry'.get? key) := by
  have hstart : Drain.Ready highlighter.rules key
      { reader := highlighter.toReader, registry := registry } base editor.pending := by
    refine hready.imp_left fun h => ?_
    obtain ⟨rows, hstate, hrows⟩ := h.state
    refine ⟨rows, hstate, fun i _ => by rw [h.styles], ?_, fun _ => hrows, ?_⟩
    · intro span hspan
      cases hspan
    · intro span hspan
      cases hspan
  obtain ⟨drain, hrun, hran, rows, hin⟩ := Drain.run_inStep editor.path hqueued hfits hstart
  obtain ⟨buffer, last, registry', events, hrun', htext, hall⟩ := runPending_of_run hon hrun hin
  refine ⟨buffer, last, registry', events, ?_, htext, hall⟩
  rw [hrun', hran, Nat.zero_add]

end Editor
end LiveHighlight

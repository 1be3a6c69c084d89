import Mathlib
import LiveHighlight.Proofs.FailedRequests

/-! A buffer as one list of characters with their styles. The buffer keeps text and styles apart and
changes each of them on its own. Whatever it is asked, in whatever order, its answers and its
content are those of a machine that knows nothing but the list. -/

namespace LiveHighlight

/-- A character with its style. -/
abbrev Cell := Char × TokenStyle

/-- What can be asked of a buffer. -/
inductive BufferCall where
  | insert (offset : Nat) (text : Text)
  | remove (offset length : Nat)
  | setText (text : Text)
  | setStyle (offset length : Nat) (style : TokenStyle)
  deriving DecidableEq, Repr

/-- The range that was refused, or the change that was made if it is one of the text. -/
abbrev BufferReply := Except BufferError (Option BufferChange)

/-- Does what it is asked, in order, and collects the answers. -/
def answerAll {σ : Type} (answer : σ → BufferCall → BufferReply × σ) :
    σ → List BufferCall → List BufferReply × σ
  | state, [] => ([], state)
  | state, call :: rest =>
    let (reply, next) := answer state call
    let (replies, last) := answerAll answer next rest
    (reply :: replies, last)

namespace Cell

/-- The characters of a text without a style of their own. -/
def plain (text : Text) : List Cell := text.map (·, .default)

theorem map_fst_plain (text : Text) : (plain text).map (·.1) = text := by
  rw [plain, List.map_map]
  exact List.map_id _

theorem map_snd_plain (text : Text) :
    (plain text).map (·.2) = .replicate text.length .default := by
  rw [plain, List.map_map]
  exact List.map_const

/-- The error for a range that does not fit. -/
def outside (cells : List Cell) (offset length : Nat) : BufferError :=
  ⟨offset, min (offset + length) maxOffset, cells.length⟩

/-- The machine that has only the list. -/
def answer (cells : List Cell) : BufferCall → BufferReply × List Cell
  | .insert offset text =>
    if offset ≤ cells.length then
      (.ok (some ⟨⟨offset, text.length, .insert⟩, text⟩),
        cells.take offset ++ plain text ++ cells.drop offset)
    else (.error (outside cells offset 0), cells)
  | .remove offset length =>
    if offset + length ≤ cells.length then
      (.ok (some ⟨⟨offset, length, .remove⟩, ((cells.drop offset).take length).map (·.1)⟩),
        cells.take offset ++ cells.drop (offset + length))
    else (.error (outside cells offset length), cells)
  | .setText text => (.ok none, plain text)
  | .setStyle offset length style =>
    if offset + length ≤ cells.length then
      (.ok none, cells.mapIdx fun i cell =>
        if offset ≤ i ∧ i < offset + length then (cell.1, style) else cell)
    else (.error (outside cells offset length), cells)

end Cell

namespace TextBuffer

/-- Makes a call. If it fails there is no other buffer to go on with. -/
def answer (buffer : TextBuffer) : BufferCall → BufferReply × TextBuffer
  | .insert offset text =>
    match buffer.insert offset text with
    | .ok (change, next) => (.ok (some change), next)
    | .error e => (.error e, buffer)
  | .remove offset length =>
    match buffer.remove offset length with
    | .ok (change, next) => (.ok (some change), next)
    | .error e => (.error e, buffer)
  | .setText text => (.ok none, .ofText text)
  | .setStyle offset length style =>
    match buffer.setStyle offset length style with
    | .ok next => (.ok none, next)
    | .error e => (.error e, buffer)

/-- The characters of a buffer, each with its style. -/
def cells (buffer : TextBuffer) : List Cell := buffer.text.zip buffer.styles

def ofCells (cells : List Cell) : TextBuffer :=
  ⟨cells.map (·.1), cells.map (·.2), by rw [List.length_map, List.length_map]⟩

theorem text_eq_map_cells (buffer : TextBuffer) : buffer.text = buffer.cells.map (·.1) :=
  (List.map_fst_zip buffer.styled.ge).symm

theorem styles_eq_map_cells (buffer : TextBuffer) : buffer.styles = buffer.cells.map (·.2) :=
  (List.map_snd_zip buffer.styled.le).symm

theorem ofCells_cells (buffer : TextBuffer) : ofCells buffer.cells = buffer :=
  eq_of_styles buffer.text_eq_map_cells.symm buffer.styles_eq_map_cells.symm

theorem cells_ofCells (cells : List Cell) : (ofCells cells).cells = cells :=
  (List.zip_of_prod rfl rfl).symm

theorem length_cells (buffer : TextBuffer) : buffer.cells.length = buffer.length := by
  rw [length, text_eq_map_cells, List.length_map]

theorem length_ofCells (cells : List Cell) : (ofCells cells).length = cells.length :=
  List.length_map _

section

variable (cells : List Cell) (offset : Nat)

theorem insert_ofCells (text : Text) (h : offset ≤ cells.length) :
    (ofCells cells).insert offset text = .ok (⟨⟨offset, text.length, .insert⟩, text⟩,
      ofCells (cells.take offset ++ Cell.plain text ++ cells.drop offset)) := by
  rw [insert, if_pos (by rwa [length_ofCells])]
  congr 2
  apply eq_of_styles
  · simp [ofCells, List.map_take, List.map_drop, Cell.map_fst_plain]
  · simp [ofCells, List.map_take, List.map_drop, Cell.map_snd_plain]

theorem remove_ofCells (length : Nat) (h : offset + length ≤ cells.length) :
    (ofCells cells).remove offset length = .ok
      (⟨⟨offset, length, .remove⟩, ((cells.drop offset).take length).map (·.1)⟩,
        ofCells (cells.take offset ++ cells.drop (offset + length))) := by
  rw [remove, if_pos (by rwa [length_ofCells])]
  have htaken : (ofCells cells).text.slice offset (offset + length) =
      ((cells.drop offset).take length).map (·.1) := by
    simp [ofCells, Text.slice, List.map_take, List.map_drop]
  rw [htaken]
  congr 2
  apply eq_of_styles
  · simp [ofCells, List.map_take, List.map_drop]
  · simp [ofCells, List.map_take, List.map_drop]

theorem setStyle_ofCells (length : Nat) (style : TokenStyle) (h : offset + length ≤ cells.length) :
    (ofCells cells).setStyle offset length style = .ok (ofCells (cells.mapIdx fun i cell =>
      if offset ≤ i ∧ i < offset + length then (cell.1, style) else cell)) := by
  have hinside : offset + length ≤ (ofCells cells).length := by rwa [length_ofCells]
  -- setting a style is a stroke of the painter, and it is known which styles a stroke changes
  have hmade : (ofCells cells).setStyle offset length style =
      .ok (Paint.stroke (ofCells cells) ⟨offset, length, style⟩) := by
    rw [Paint.stroke, setStyle, dif_pos hinside]
    rfl
  rw [hmade]
  congr 1
  apply eq_of_styles
  · rw [Paint.stroke_text]
    apply List.ext_getElem?
    intro i
    simp only [ofCells, List.getElem?_map, List.getElem?_mapIdx, Option.map_map]
    congr 1
    funext cell
    dsimp only [Function.comp_apply]
    split_ifs <;> rfl
  · apply List.ext_getElem?
    intro i
    rw [Paint.stroke_styles hinside]
    dsimp only
    simp only [ofCells, List.getElem?_map, List.getElem?_mapIdx, Option.map_map]
    split_ifs with hpainted
    · have hi : i < cells.length := hpainted.2.trans_le h
      rw [List.getElem?_eq_getElem hi]
      rfl
    · rfl

theorem outside_ofCells (length : Nat) :
    (ofCells cells).outside offset length = Cell.outside cells offset length := by
  rw [outside, length_ofCells, Cell.outside]

/-- One call does to the buffer what it does to the list. -/
theorem answer_ofCells (call : BufferCall) :
    (ofCells cells).answer call =
      ((Cell.answer cells call).1, ofCells (Cell.answer cells call).2) := by
  cases call with
  | insert offset text =>
    by_cases h : offset ≤ cells.length
    · simp only [answer, insert_ofCells cells offset text h, Cell.answer, if_pos h]
    · have hfails : (ofCells cells).insert offset text = .error (Cell.outside cells offset 0) := by
        rw [insert, if_neg (by rwa [length_ofCells]), outside_ofCells]
      simp only [answer, hfails, Cell.answer, if_neg h]
  | remove offset length =>
    by_cases h : offset + length ≤ cells.length
    · simp only [answer, remove_ofCells cells offset length h, Cell.answer, if_pos h]
    · have hfails : (ofCells cells).remove offset length =
          .error (Cell.outside cells offset length) := by
        rw [remove, if_neg (by rwa [length_ofCells]), outside_ofCells]
      simp only [answer, hfails, Cell.answer, if_neg h]
  | setText text =>
    show (_, ofText text) = (_, ofCells (Cell.plain text))
    congr 1
    apply eq_of_styles
    · exact (Cell.map_fst_plain text).symm
    · exact (Cell.map_snd_plain text).symm
  | setStyle offset length style =>
    by_cases h : offset + length ≤ cells.length
    · simp only [answer, setStyle_ofCells cells offset length style h, Cell.answer, if_pos h]
    · have hfails : (ofCells cells).setStyle offset length style =
          .error (Cell.outside cells offset length) := by
        rw [setStyle, dif_neg (by rwa [length_ofCells]), outside_ofCells]
      simp only [answer, hfails, Cell.answer, if_neg h]

end

theorem answerAll_ofCells (cells : List Cell) (calls : List BufferCall) :
    answerAll answer (ofCells cells) calls =
      ((answerAll Cell.answer cells calls).1, ofCells (answerAll Cell.answer cells calls).2) := by
  induction calls generalizing cells with
  | nil => rfl
  | cons call rest ih => simp only [answerAll, answer_ofCells, ih]

theorem insert_ok_iff (buffer : TextBuffer) (offset : Nat) (typed : Text) :
    (∃ made, buffer.insert offset typed = .ok made) ↔ offset ≤ buffer.length := by
  unfold insert
  split_ifs with h <;> simp [h]

theorem remove_ok_iff (buffer : TextBuffer) (offset length : Nat) :
    (∃ made, buffer.remove offset length = .ok made) ↔ offset + length ≤ buffer.length := by
  unfold remove
  split_ifs with h <;> simp [h]

theorem setStyle_ok_iff (buffer : TextBuffer) (offset length : Nat) (style : TokenStyle) :
    (∃ made, buffer.setStyle offset length style = .ok made) ↔
      offset + length ≤ buffer.length := by
  unfold setStyle
  split_ifs with h <;> simp [h]

/-- Taking out what was put in gives the buffer back, its styles included. -/
theorem insert_remove {buffer next : TextBuffer} {offset : Nat} {typed : Text}
    {change : BufferChange} (h : buffer.insert offset typed = .ok (change, next)) :
    next.remove offset typed.length = .ok (⟨⟨offset, typed.length, .remove⟩, typed⟩, buffer) := by
  have hinside : offset ≤ buffer.cells.length := by
    rw [length_cells, ← insert_ok_iff buffer offset typed]
    exact ⟨_, h⟩
  -- on the list, what is true of the text is true of the styles at once
  obtain ⟨front, back, rfl, rfl⟩ :
      ∃ front back, buffer = ofCells (front ++ back) ∧ front.length = offset := by
    refine ⟨buffer.cells.take offset, buffer.cells.drop offset, ?_, List.length_take_of_le hinside⟩
    rw [List.take_append_drop, ofCells_cells]
  rw [insert_ofCells _ _ _ (by simp), List.take_left, List.drop_left] at h
  cases h
  have hplain : (Cell.plain typed).length = typed.length := List.length_map _
  have hfits : front.length + typed.length ≤ (front ++ Cell.plain typed ++ back).length := by
    rw [List.length_append, List.length_append, hplain]
    exact Nat.le_add_right _ _
  have hrest : (front ++ Cell.plain typed ++ back).drop (front.length + typed.length) = back :=
    List.drop_left' (by rw [List.length_append, hplain])
  rw [remove_ofCells _ _ _ hfits, hrest, List.append_assoc, List.take_left, List.drop_left,
    List.take_left' hplain, Cell.map_fst_plain]

/-- A call that fails leaves the buffer. -/
theorem answer_failed {buffer : TextBuffer} {call : BufferCall} {e : BufferError}
    (h : (buffer.answer call).1 = .error e) : (buffer.answer call).2 = buffer := by
  cases call
  case setText => cases h
  all_goals
    simp only [answer] at h ⊢
    split at h
    · cases h
    · rfl

/-- The bounds that an error names are the words that were compared. -/
theorem outside_words (buffer : TextBuffer) (offset length : UInt64) :
    buffer.outside offset.toNat length.toNat =
      ⟨offset.toNat, (wordSum offset length).toNat, buffer.length⟩ := by
  rw [outside, toNat_wordSum]

/-- For any calls in any order, a buffer is one list of characters with their styles. An insertion
splices in characters with the default style, a removal takes out the characters it addresses and
reports them, and setting a style changes no more than the styles it addresses. Which calls fail is
found by comparing words whose sum stops at the largest one. -/
theorem calls_act_on_cells (buffer : TextBuffer) (calls : List BufferCall) :
    let ran := answerAll answer buffer calls
    let final := ran.2
    answerAll Cell.answer buffer.cells calls = (ran.1, final.cells) ∧
      final.text = final.cells.map (·.1) ∧ final.styles = final.cells.map (·.2) ∧
      final.styles.length = final.text.length ∧
      (∀ call e, (final.answer call).1 = .error e → (final.answer call).2 = final) ∧
      (∀ offset typed change next, final.insert offset typed = .ok (change, next) →
        next.remove offset typed.length =
          .ok (⟨⟨offset, typed.length, .remove⟩, typed⟩, final)) ∧
      (final.length < maxOffset → ∀ offset length : UInt64,
        (∀ typed, (∃ made, final.insert offset.toNat typed = .ok made) ↔
          inBounds offset offset final.length = true) ∧
        ((∃ made, final.remove offset.toNat length.toNat = .ok made) ↔
          inBounds offset (wordSum offset length) final.length = true) ∧
        (∀ style, (∃ made, final.setStyle offset.toNat length.toNat style = .ok made) ↔
          inBounds offset (wordSum offset length) final.length = true) ∧
        final.outside offset.toNat length.toNat =
          ⟨offset.toNat, (wordSum offset length).toNat, final.length⟩) := by
  intro ran final
  refine ⟨?_, final.text_eq_map_cells, final.styles_eq_map_cells, final.styled,
    fun _ _ => answer_failed, fun _ _ _ _ => insert_remove, fun hshort offset length => ?_⟩
  · have hruns := answerAll_ofCells buffer.cells calls
    rw [ofCells_cells] at hruns
    show _ = ((answerAll answer buffer calls).1, (answerAll answer buffer calls).2.cells)
    rw [hruns, cells_ofCells]
  · have hinside := inBounds_wordSum hshort offset length
    refine ⟨fun typed => ?_, ?_, fun style => ?_, final.outside_words offset length⟩
    · rw [insert_ok_iff]
      simp [inBounds]
    · rw [remove_ok_iff, hinside]
    · rw [setStyle_ok_iff, hinside]

end TextBuffer
end LiveHighlight

import Mathlib
import LiveHighlight.Text

/-! Rows and offsets of a text. A row start and a row end cut the rows of a text into those above,
those between and those below; the offsets of rows are sums of their widths. -/

namespace LiveHighlight.Text

/-- The characters that rows take up, each with the break after it. -/
def width : List Text → Nat
  | [] => 0
  | row :: rest => row.length + 1 + width rest

@[simp]
theorem width_nil : width [] = 0 := rfl

@[simp]
theorem width_cons (row : Text) (rest : List Text) :
    width (row :: rest) = row.length + 1 + width rest := rfl

@[simp]
theorem width_append (rows rest : List Text) : width (rows ++ rest) = width rows + width rest := by
  induction rows with
  | nil => simp
  | cons row rows ih => simp only [List.cons_append, width_cons, ih]; omega

theorem lines_nil : lines [] = [[]] := rfl

theorem lines_ne_nil (text : Text) : text.lines ≠ [] := pieces_ne_nil _ _

theorem lines_append_break (a b : Text) : lines (a ++ '\n' :: b) = lines a ++ lines b :=
  pieces_append_cons isBreak a b '\n' rfl

theorem lines_cons_break (text : Text) : lines ('\n' :: text) = [] :: lines text :=
  lines_append_break [] text

theorem lines_cons_other {c : Char} (h : isBreak c = false) {text row : Text} {rest : List Text}
    (hrows : lines text = row :: rest) : lines (c :: text) = (c :: row) :: rest := by
  simp only [lines] at hrows ⊢
  simp [pieces, h, hrows]

theorem exists_lines_eq_cons (text : Text) : ∃ row rest, lines text = row :: rest :=
  List.exists_cons_of_ne_nil (lines_ne_nil text)

theorem width_lines (text : Text) : width text.lines = text.length + 1 := by
  induction text with
  | nil => rfl
  | cons c text ih =>
    by_cases h : isBreak c
    · rw [of_decide_eq_true h, lines_cons_break, width_cons, ih, List.length_cons, List.length_nil]
      omega
    · obtain ⟨row, rest, hrows⟩ := exists_lines_eq_cons text
      rw [hrows, width_cons] at ih
      rw [lines_cons_other (Bool.eq_false_iff.2 h) hrows, width_cons, List.length_cons,
        List.length_cons]
      omega

theorem rowStart_nil (row : Nat) : rowStart [] row = 0 := by
  cases row <;> rfl

theorem rowStart_eq_width (text : Text) (row : Nat) :
    text.rowStart row = min (width (text.lines.take row)) text.length := by
  induction text generalizing row with
  | nil => rw [rowStart_nil, List.length_nil, Nat.min_zero]
  | cons c text ih =>
    cases row with
    | zero => rw [rowStart, List.take_zero, width_nil, Nat.zero_min]
    | succ row =>
      rw [rowStart, ih]
      by_cases h : isBreak c
      · rw [if_pos h, of_decide_eq_true h, lines_cons_break, List.take_succ_cons, width_cons,
          List.length_nil, List.length_cons]
        omega
      · obtain ⟨first, rest, hrows⟩ := exists_lines_eq_cons text
        rw [if_neg h, lines_cons_other (Bool.eq_false_iff.2 h) hrows, hrows, List.take_succ_cons,
          List.take_succ_cons, width_cons, width_cons, List.length_cons, List.length_cons]
        omega

/-- An offset where a row starts. -/
def RowStart (text : Text) (offset : Nat) : Prop :=
  offset = 0 ∨ 0 < offset ∧ text[offset - 1]? = some '\n'

/-- An offset where a row ends: at its line break, or at the end of the text. -/
def RowEnd (text : Text) (offset : Nat) : Prop :=
  offset = text.length ∨ text[offset]? = some '\n'

theorem RowStart.le_length {text : Text} {s : Nat} (h : text.RowStart s) : s ≤ text.length := by
  rcases h with rfl | ⟨hpos, hbreak⟩
  · exact Nat.zero_le _
  · have hlt := (List.getElem?_eq_some_iff.1 hbreak).1
    omega

theorem RowEnd.le_length {text : Text} {e : Nat} (h : text.RowEnd e) : e ≤ text.length := by
  rcases h with rfl | hbreak
  · exact Nat.le_refl _
  · exact Nat.le_of_lt (List.getElem?_eq_some_iff.1 hbreak).1

/-- The rows that end before an offset where a row starts. -/
def above (text : Text) : Nat → List Text
  | 0 => []
  | s + 1 => lines (text.take s)

/-- The rows that start after an offset where a row ends. -/
def below (text : Text) (e : Nat) : List Text :=
  if e < text.length then lines (text.drop (e + 1)) else []

theorem lines_eq_above_append {text : Text} {s : Nat} (h : text.RowStart s) :
    text.lines = text.above s ++ lines (text.drop s) := by
  rcases h with rfl | ⟨hpos, hbreak⟩
  · rfl
  · obtain ⟨t, rfl⟩ : ∃ t, s = t + 1 := ⟨s - 1, by omega⟩
    obtain ⟨hlt, hchar⟩ := List.getElem?_eq_some_iff.1 hbreak
    have hcut : text = text.take t ++ '\n' :: text.drop (t + 1) := by
      rw [← hchar]
      simp only [Nat.add_sub_cancel, List.cons_getElem_drop_succ, List.take_append_drop]
    conv_lhs => rw [hcut]
    exact lines_append_break _ _

theorem lines_eq_append_below {text : Text} {e : Nat} (h : text.RowEnd e) :
    text.lines = lines (text.take e) ++ text.below e := by
  rcases h with rfl | hbreak
  · simp [below]
  · obtain ⟨hlt, hchar⟩ := List.getElem?_eq_some_iff.1 hbreak
    have hcut : text = text.take e ++ '\n' :: text.drop (e + 1) := by
      rw [← hchar, List.cons_getElem_drop_succ, List.take_append_drop]
    rw [below, if_pos hlt]
    conv_lhs => rw [hcut]
    exact lines_append_break _ _

theorem slice_eq_drop_take (text : Text) (s e : Nat) : text.slice s e = (text.take e).drop s := by
  rw [slice, List.drop_take]

theorem slice_length (text : Text) (s : Nat) : text.slice s text.length = text.drop s := by
  rw [slice_eq_drop_take, List.take_length]

theorem RowStart.take {text : Text} {s e : Nat} (h : text.RowStart s) (hse : s ≤ e) :
    RowStart (text.take e) s := by
  refine h.imp_right fun ⟨hpos, hbreak⟩ => ⟨hpos, ?_⟩
  rwa [List.getElem?_take_of_lt (by omega)]

theorem above_take (text : Text) {s e : Nat} (hse : s ≤ e) :
    above (text.take e) s = text.above s := by
  cases s with
  | zero => rfl
  | succ s => rw [above, above, List.take_take, Nat.min_eq_left (by omega)]

/-- A row start and a row end cut the rows of a text in three. -/
theorem lines_eq_slice {text : Text} {s e : Nat} (hs : text.RowStart s) (he : text.RowEnd e)
    (hse : s ≤ e) : text.lines = text.above s ++ (text.slice s e).lines ++ text.below e := by
  rw [lines_eq_append_below he, lines_eq_above_append (hs.take hse), above_take text hse,
    slice_eq_drop_take]

theorem width_above {text : Text} {s : Nat} (h : text.RowStart s) : width (text.above s) = s := by
  have hwidth := congrArg width (lines_eq_above_append h)
  have hle := h.le_length
  rw [width_lines, width_append, width_lines, List.length_drop] at hwidth
  omega

theorem length_above {text : Text} {s : Nat} (h : text.RowStart s) :
    (text.above s).length = text.rowAt s := by
  have hcount := congrArg List.length (lines_eq_above_append h)
  have hsplit : text.countP isBreak = text.rowAt s + (text.drop s).countP isBreak := by
    rw [rowAt, ← List.countP_append, List.take_append_drop]
  rw [List.length_append, length_lines, length_lines, lineCount, lineCount] at hcount
  omega

theorem rowAt_eq_add_slice (text : Text) {s e : Nat} (hse : s ≤ e) :
    text.rowAt e = text.rowAt s + (text.slice s e).countP isBreak := by
  rw [rowAt, rowAt, slice_eq_drop_take, ← Nat.min_eq_left hse, ← List.take_take,
    ← List.countP_append, Nat.min_eq_left hse, List.take_append_drop]

theorem length_lines_slice (text : Text) {s e : Nat} (hse : s ≤ e) :
    (text.slice s e).lines.length = text.rowAt e - text.rowAt s + 1 := by
  rw [length_lines, lineCount, rowAt_eq_add_slice text hse]
  omega

theorem length_slice {text : Text} {s e : Nat} (he : e ≤ text.length) :
    (text.slice s e).length = e - s := by
  rw [slice_eq_drop_take, List.length_drop, List.length_take, Nat.min_eq_left he]

theorem rowAt_length (text : Text) : text.rowAt text.length = text.lineCount - 1 := by
  simp [rowAt, lineCount]

theorem isBreak_iff (c : Char) : isBreak c = true ↔ c = '\n' := by simp [isBreak]

theorem take_eq_lineStart (text : Text) (offset : Nat) :
    ∃ row : Text, text.take offset = text.take (text.lineStart offset) ++ row ∧
      ∀ c ∈ row, isBreak c = false := by
  set back := (text.take offset).reverse with hback
  have hcut : text.take offset =
      (back.dropWhile (!isBreak ·)).reverse ++ (back.takeWhile (!isBreak ·)).reverse := by
    rw [← List.reverse_append, List.takeWhile_append_dropWhile, hback, List.reverse_reverse]
  have hlen : (back.dropWhile (!isBreak ·)).reverse.length = text.lineStart offset := by
    rw [List.length_reverse, lineStart]
  refine ⟨(back.takeWhile (!isBreak ·)).reverse, ?_, fun c hc => ?_⟩
  · have hbefore := congrArg (List.take (text.lineStart offset)) hcut
    rw [List.take_take, Nat.min_eq_left (lineStart_le text offset), ← hlen, List.take_left,
      hlen] at hbefore
    rw [hbefore, ← hcut]
  · simpa using List.mem_takeWhile_imp (List.mem_reverse.1 hc)

theorem rowStart_lineStart (text : Text) (offset : Nat) :
    text.RowStart (text.lineStart offset) := by
  rcases Nat.eq_zero_or_pos (text.lineStart offset) with h | h
  · exact .inl h
  · refine .inr ⟨h, ?_⟩
    have hne : (text.take offset).reverse.dropWhile (!isBreak ·) ≠ [] := by
      intro hnil
      rw [lineStart, hnil] at h
      exact Nat.lt_irrefl _ h
    have hhead := List.head_dropWhile_not (!isBreak ·) hne
    have hbreak : ((text.take offset).reverse.dropWhile (!isBreak ·)).head hne = '\n' := by
      simpa [isBreak_iff] using hhead
    obtain ⟨front, hfront⟩ := List.dropWhile_suffix (!isBreak ·) (l := (text.take offset).reverse)
    have htake : text.take offset =
        ((text.take offset).reverse.dropWhile (!isBreak ·)).reverse ++ front.reverse := by
      rw [← List.reverse_append, hfront, List.reverse_reverse]
    have hlt : text.lineStart offset - 1 < offset := by
      have hle := lineStart_le text offset
      omega
    have hlen : text.lineStart offset =
        ((text.take offset).reverse.dropWhile (!isBreak ·)).length := rfl
    rw [← List.getElem?_take_of_lt hlt, htake, List.getElem?_append_left (by simp; omega),
      List.getElem?_reverse (by omega), ← hlen, Nat.sub_self, ← List.head?_eq_getElem?,
      List.head?_eq_some_head hne, hbreak]

theorem RowStart.le_lineStart {text : Text} {s offset : Nat} (hs : text.RowStart s)
    (h : s ≤ offset) : s ≤ text.lineStart offset := by
  rcases hs with rfl | ⟨hpos, hbreak⟩
  · exact Nat.zero_le _
  · by_contra hlt
    obtain ⟨row, hcut, hrow⟩ := take_eq_lineStart text offset
    have hlen : (text.take (text.lineStart offset)).length ≤ s - 1 := by
      rw [List.length_take]
      omega
    rw [← List.getElem?_take_of_lt (by omega : s - 1 < offset), hcut,
      List.getElem?_append_right hlen] at hbreak
    have hother := hrow _ (List.mem_of_getElem? hbreak)
    simp [isBreak] at hother

theorem le_lineEnd (text : Text) (offset : Nat) : min offset text.length ≤ text.lineEnd offset :=
  Nat.le_add_right _ _

theorem rowEnd_lineEnd (text : Text) (offset : Nat) : text.RowEnd (text.lineEnd offset) := by
  rcases Nat.lt_or_ge (text.lineEnd offset) text.length with h | h
  · have hlt : offset < text.length := by
      have hle := le_lineEnd text offset
      omega
    have hoffset : text.lineEnd offset =
        offset + ((text.drop offset).takeWhile (!isBreak ·)).length := by
      rw [lineEnd, Nat.min_eq_left (Nat.le_of_lt hlt)]
    have hne : (text.drop offset).dropWhile (!isBreak ·) ≠ [] := by
      intro hnil
      have hall := List.takeWhile_append_dropWhile (p := (!isBreak ·)) (l := text.drop offset)
      rw [hnil, List.append_nil] at hall
      rw [hall, List.length_drop] at hoffset
      omega
    have hbreak : ((text.drop offset).dropWhile (!isBreak ·)).head hne = '\n' := by
      simpa [isBreak_iff] using List.head_dropWhile_not (!isBreak ·) hne
    right
    rw [hoffset, ← List.getElem?_drop,
      ← List.takeWhile_append_dropWhile (p := (!isBreak ·)) (l := text.drop offset),
      List.getElem?_append_right (by simp), List.takeWhile_append_dropWhile, Nat.sub_self,
      ← List.head?_eq_getElem?, List.head?_eq_some_head hne, hbreak]
  · exact .inl (Nat.le_antisymm (lineEnd_le_length text offset) h)

theorem RowEnd.lineEnd_le {text : Text} {e offset : Nat} (he : text.RowEnd e) (h : offset ≤ e) :
    text.lineEnd offset ≤ e := by
  rcases he with rfl | hbreak
  · exact lineEnd_le_length text offset
  · by_contra hlt
    have hlen := (List.getElem?_eq_some_iff.1 hbreak).1
    rw [lineEnd, Nat.min_eq_left (by omega)] at hlt
    have hin : e - offset < ((text.drop offset).takeWhile (!isBreak ·)).length := by omega
    obtain ⟨k, rfl⟩ := Nat.exists_eq_add_of_le h
    rw [← List.getElem?_drop,
      ← List.takeWhile_append_dropWhile (p := (!isBreak ·)) (l := text.drop offset),
      List.getElem?_append_left (by omega)] at hbreak
    have hother := List.mem_takeWhile_imp (List.mem_of_getElem? hbreak)
    simp [isBreak] at hother

theorem width_take_lt {rows : List Text} {i : Nat} (h : i < rows.length) :
    width (rows.take i) < width rows := by
  have hsplit := width_append (rows.take i) (rows.drop i)
  rw [List.take_append_drop, List.drop_eq_getElem_cons h, width_cons] at hsplit
  omega

theorem rowStart_of_lines {text : Text} {upper rows lower : List Text}
    (h : text.lines = upper ++ rows ++ lower) {i : Nat} (hi : i < rows.length) :
    text.rowStart (upper.length + i) = width upper + width (rows.take i) := by
  have htotal := congrArg width h
  have hlt := width_take_lt hi
  rw [width_lines, width_append, width_append] at htotal
  have htake : text.lines.take (upper.length + i) = upper ++ rows.take i := by
    rw [h, List.append_assoc, List.take_length_add_append, List.take_append_of_le_length hi.le]
  rw [rowStart_eq_width, htake, width_append, Nat.min_eq_left (by omega)]

theorem lines_drop_first {text row : Text} {rest : List Text} (h : text.lines = row :: rest)
    {k : Nat} (hk : k ≤ row.length) : lines (text.drop k) = row.drop k :: rest := by
  induction k generalizing text row with
  | zero => simpa using h
  | succ k ih =>
    cases text with
    | nil =>
      rw [lines_nil] at h
      obtain ⟨rfl, -⟩ := List.cons.inj h
      simp at hk
    | cons c text =>
      by_cases hc : isBreak c
      · rw [of_decide_eq_true hc, lines_cons_break] at h
        obtain ⟨rfl, -⟩ := List.cons.inj h
        simp at hk
      · obtain ⟨first, others, hrows⟩ := exists_lines_eq_cons text
        rw [lines_cons_other (Bool.eq_false_iff.2 hc) hrows] at h
        obtain ⟨rfl, rfl⟩ := List.cons.inj h
        rw [List.drop_succ_cons, List.drop_succ_cons]
        exact ih hrows (by simpa using hk)

theorem lines_drop_row {text row : Text} {rest : List Text} (h : text.lines = row :: rest)
    (hrest : rest ≠ []) : lines (text.drop (row.length + 1)) = rest := by
  have hlast := lines_drop_first h (Nat.le_refl row.length)
  rw [List.drop_length] at hlast
  rw [← List.drop_drop]
  cases hdrop : text.drop row.length with
  | nil =>
    rw [hdrop, lines_nil] at hlast
    exact absurd (List.cons.inj hlast).2.symm hrest
  | cons c tail =>
    rw [hdrop] at hlast
    by_cases hc : isBreak c
    · rw [of_decide_eq_true hc, lines_cons_break] at hlast
      exact (List.cons.inj hlast).2
    · obtain ⟨first, others, hrows⟩ := exists_lines_eq_cons tail
      rw [lines_cons_other (Bool.eq_false_iff.2 hc) hrows] at hlast
      simp at hlast

theorem lines_drop {text row : Text} {upper rest : List Text}
    (h : text.lines = upper ++ row :: rest) {k : Nat}
    (hk : k ≤ row.length) : lines (text.drop (width upper + k)) = row.drop k :: rest := by
  induction upper generalizing text with
  | nil =>
    rw [width_nil, Nat.zero_add]
    exact lines_drop_first h hk
  | cons first upper ih =>
    rw [width_cons, Nat.add_assoc, ← List.drop_drop]
    exact ih (lines_drop_row h (by simp))

/-- A text is its first row, and then nothing more or a break and the other rows. -/
theorem eq_append_of_lines {text row : Text} {rest : List Text} (h : text.lines = row :: rest) :
    ∃ tail, text = row ++ tail ∧
      (tail = [] ∧ rest = [] ∨ ∃ more, tail = '\n' :: more ∧ lines more = rest) := by
  induction text generalizing row with
  | nil =>
    rw [lines_nil] at h
    obtain ⟨rfl, rfl⟩ := List.cons.inj h
    exact ⟨[], rfl, .inl ⟨rfl, rfl⟩⟩
  | cons c text ih =>
    by_cases hc : isBreak c
    · rw [of_decide_eq_true hc, lines_cons_break] at h
      obtain ⟨rfl, rfl⟩ := List.cons.inj h
      exact ⟨c :: text, rfl, .inr ⟨text, by rw [of_decide_eq_true hc], rfl⟩⟩
    · obtain ⟨first, others, hrows⟩ := exists_lines_eq_cons text
      rw [lines_cons_other (Bool.eq_false_iff.2 hc) hrows] at h
      obtain ⟨rfl, rfl⟩ := List.cons.inj h
      obtain ⟨tail, htext, htail⟩ := ih hrows
      exact ⟨tail, by rw [htext, List.cons_append], htail⟩

section

variable {text row : Text} {upper rest : List Text}

theorem drop_eq_append_of_lines (h : text.lines = upper ++ row :: rest) :
    ∃ tail, text.drop (width upper) = row ++ tail ∧
      (tail = [] ∧ rest = [] ∨ ∃ more, tail = '\n' :: more ∧ lines more = rest) := by
  apply eq_append_of_lines
  simpa using lines_drop h (Nat.zero_le row.length)

theorem getElem?_break (h : text.lines = upper ++ row :: rest) (hrest : rest ≠ []) :
    text[width upper + row.length]? = some '\n' := by
  obtain ⟨tail, hdrop, ⟨-, hnil⟩ | ⟨more, rfl, -⟩⟩ := drop_eq_append_of_lines h
  · exact absurd hnil hrest
  · rw [← List.getElem?_drop, hdrop, List.getElem?_append_right (Nat.le_refl _), Nat.sub_self]
    rfl

/-- The break above a row that is not the first one. -/
theorem getElem?_break_above (h : text.lines = upper ++ row :: rest) (hpos : 0 < width upper) :
    text[width upper - 1]? = some '\n' := by
  rcases List.eq_nil_or_concat upper with rfl | ⟨front, last, rfl⟩
  · exact absurd hpos (Nat.lt_irrefl _)
  · have hlines : text.lines = front ++ last :: (row :: rest) := by simpa using h
    have hwidth : width (front.concat last) - 1 = width front + last.length := by
      rw [List.concat_eq_append, width_append, width_cons, width_nil]
      omega
    rw [hwidth]
    exact getElem?_break hlines (List.cons_ne_nil _ _)

end

theorem rowStart_add_length {text row : Text} {i : Nat} (h : text.lines[i]? = some row) {j : Nat}
    (hij : i < j) (hj : j < text.lines.length) :
    text.rowStart i + row.length < text.rowStart j := by
  obtain ⟨hi, hrow⟩ := List.getElem?_eq_some_iff.1 h
  have hstart {k : Nat} (hk : k < text.lines.length) :
      text.rowStart k = width (text.lines.take k) := by
    simpa using @rowStart_of_lines text [] text.lines [] (by simp) k hk
  obtain ⟨k, rfl⟩ := Nat.exists_eq_add_of_le hij
  rw [hstart hi, hstart hj, List.take_add, List.take_succ_eq_append_getElem hi, hrow, width_append,
    width_append, width_cons, width_nil]
  omega

/-- A character that is no line break stands on a row. -/
theorem exists_row_of_getElem? {text : Text} {offset : Nat} {c : Char}
    (h : text[offset]? = some c) (hc : isBreak c = false) :
    ∃ i row j, text.lines[i]? = some row ∧ row[j]? = some c ∧ offset = text.rowStart i + j := by
  induction text generalizing offset with
  | nil => cases h
  | cons d text ih =>
    obtain ⟨first, others, hrows⟩ := exists_lines_eq_cons text
    cases offset with
    | zero =>
      obtain rfl : d = c := Option.some.inj h
      exact ⟨0, d :: first, 0, by rw [lines_cons_other hc hrows]; rfl, rfl, rfl⟩
    | succ offset =>
      obtain ⟨i, row, j, hrow, hj, rfl⟩ := ih h
      by_cases hd : isBreak d
      · refine ⟨i + 1, row, j, ?_, hj, ?_⟩
        · rw [of_decide_eq_true hd, lines_cons_break]
          exact hrow
        · rw [rowStart, if_pos hd]
          omega
      · have hlines := lines_cons_other (Bool.eq_false_iff.2 hd) hrows
        rw [hrows] at hrow
        cases i with
        | zero =>
          obtain rfl : first = row := Option.some.inj hrow
          exact ⟨0, d :: first, j + 1, by rw [hlines]; rfl, hj, by rw [rowStart, rowStart]; omega⟩
        | succ i =>
          refine ⟨i + 1, row, j, by rw [hlines]; exact hrow, hj, ?_⟩
          rw [rowStart, if_neg hd]
          omega

theorem rowAt_mono (text : Text) {a b : Nat} (h : a ≤ b) : text.rowAt a ≤ text.rowAt b := by
  rw [rowAt_eq_add_slice text h]
  exact Nat.le_add_right _ _

theorem rowAt_min_length (text : Text) (offset : Nat) :
    text.rowAt (min offset text.length) = text.rowAt offset := by
  rw [rowAt, rowAt, ← List.take_take, List.take_length]

theorem rowAt_succ {text : Text} {p : Nat} {c : Char} (h : text[p]? = some c) :
    text.rowAt (p + 1) = text.rowAt p + if isBreak c then 1 else 0 := by
  rw [rowAt, List.take_add_one, h, Option.toList_some, List.countP_append, List.countP_singleton,
    rowAt]

/-- An offset stands before the start of a row exactly if its own row does. -/
theorem RowStart.le_iff {text : Text} {s i : Nat} (hs : text.RowStart s) :
    s ≤ i ↔ text.rowAt s ≤ text.rowAt i := by
  refine ⟨rowAt_mono text, fun h => ?_⟩
  rcases hs with rfl | ⟨hpos, hbreak⟩
  · exact Nat.zero_le _
  · by_contra hlt
    have hrow := rowAt_succ hbreak
    have hmono := text.rowAt_mono (a := i) (b := s - 1) (by omega)
    rw [Nat.sub_add_cancel hpos, if_pos (by decide)] at hrow
    omega

theorem RowEnd.le_iff {text : Text} {e i : Nat} (he : text.RowEnd e) (hi : i ≤ text.length) :
    i ≤ e ↔ text.rowAt i ≤ text.rowAt e := by
  refine ⟨rowAt_mono text, fun h => ?_⟩
  rcases he with rfl | hbreak
  · exact hi
  · by_contra hlt
    have hrow := rowAt_succ hbreak
    have hmono := text.rowAt_mono (a := e + 1) (b := i) (by omega)
    rw [if_pos (by decide)] at hrow
    omega

theorem RowStart.le_lineStart_iff {text : Text} {s offset : Nat} (hs : text.RowStart s) :
    s ≤ text.lineStart offset ↔ text.rowAt s ≤ text.rowAt offset := by
  rw [← hs.le_iff]
  exact ⟨fun h => h.trans (lineStart_le text offset), hs.le_lineStart⟩

theorem RowEnd.lineEnd_le_iff {text : Text} {e offset : Nat} (he : text.RowEnd e) :
    text.lineEnd offset ≤ e ↔ text.rowAt offset ≤ text.rowAt e := by
  rw [← rowAt_min_length, ← he.le_iff (Nat.min_le_right _ _)]
  refine ⟨(le_lineEnd text offset).trans, fun h => ?_⟩
  rcases Nat.le_total offset text.length with hin | hout
  · rw [Nat.min_eq_left hin] at h
    exact he.lineEnd_le h
  · rw [Nat.min_eq_right hout] at h
    exact (lineEnd_le_length text offset).trans h

theorem getElem?_row {text row : Text} {upper rest : List Text}
    (h : text.lines = upper ++ row :: rest) {j : Nat} (hj : j < row.length) :
    text[width upper + j]? = row[j]? := by
  obtain ⟨tail, hdrop, -⟩ := drop_eq_append_of_lines h
  rw [← List.getElem?_drop, hdrop, List.getElem?_append_left hj]

theorem not_break_of_mem_lines {text row : Text} (h : row ∈ text.lines) :
    ∀ c ∈ row, isBreak c = false := by
  induction text generalizing row with
  | nil =>
    rw [lines_nil, List.mem_singleton] at h
    simp [h]
  | cons d text ih =>
    obtain ⟨first, rest, hrows⟩ := exists_lines_eq_cons text
    by_cases hd : isBreak d
    · rw [of_decide_eq_true hd, lines_cons_break] at h
      rcases List.mem_cons.1 h with rfl | h
      · simp
      · exact ih h
    · rw [lines_cons_other (Bool.eq_false_iff.2 hd) hrows] at h
      rw [hrows] at ih
      rcases List.mem_cons.1 h with rfl | h
      · exact List.forall_mem_cons.2 ⟨Bool.eq_false_iff.2 hd, ih List.mem_cons_self⟩
      · exact ih (List.mem_cons_of_mem _ h)

/-- An offset stands on a row or at the break that ends it. -/
theorem exists_row_of_lt_width {rows : List Text} {p : Nat} (h : p < width rows) :
    ∃ upper row rest j, rows = upper ++ row :: rest ∧ j ≤ row.length ∧ p = width upper + j := by
  induction rows generalizing p with
  | nil => exact absurd h (Nat.not_lt_zero p)
  | cons row rows ih =>
    rw [width_cons] at h
    rcases Nat.lt_or_ge row.length p with hp | hp
    · obtain ⟨upper, row', rest, j, rfl, hj, hsum⟩ := ih (p := p - (row.length + 1)) (by omega)
      refine ⟨row :: upper, row', rest, j, rfl, hj, ?_⟩
      rw [width_cons]
      omega
    · exact ⟨[], row, rows, p, rfl, hp, by rw [width_nil, Nat.zero_add]⟩

end LiveHighlight.Text

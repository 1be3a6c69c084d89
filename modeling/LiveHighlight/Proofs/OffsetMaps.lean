import Mathlib
import LiveHighlight.Proofs.Draining

/-! The two maps of an edit against the texts on both sides of it. Characters that an edit leaves in
the text keep their order, so the map forward is the one way to match them with the characters of
the new text that the edit did not put in. The map back undoes it behind the edited text. -/

namespace LiveHighlight

namespace Edit

variable {edit : Edit} {i p : Nat}

/-- The character at an offset is taken out. -/
def Drops (edit : Edit) (i : Nat) : Prop :=
  edit.kind = .remove ∧ edit.offset ≤ i ∧ i < edit.offset + edit.length

instance (edit : Edit) (i : Nat) : Decidable (edit.Drops i) :=
  inferInstanceAs (Decidable (_ ∧ _ ∧ _))

theorem offset_le_reach (edit : Edit) : edit.offset ≤ edit.reach := by
  unfold reach
  split
  · exact Nat.le_add_right _ _
  · exact Nat.le_refl _

theorem mapForward_of_drops (h : edit.Drops i) : edit.mapForward i = edit.offset := by
  obtain ⟨hkind, hfrom, hto⟩ := h
  rw [mapForward, if_neg (Nat.not_lt.2 hfrom), hkind]
  exact Nat.max_eq_right (Nat.sub_le_iff_le_add.2 hto.le)

/-- A character behind the place of an edit that stays in the text goes behind the edited text, and
is found again from there. -/
theorem mapForward_behind (hstays : ¬ edit.Drops i) (hi : edit.offset ≤ i) :
    edit.reach ≤ edit.mapForward i ∧ edit.mapBack (edit.mapForward i) = i := by
  rw [mapForward, if_neg (Nat.not_lt.2 hi)]
  unfold reach mapBack
  cases hkind : edit.kind with
  | insert =>
    refine ⟨Nat.add_le_add_right hi _, ?_⟩
    show max (i + edit.length - edit.length) edit.offset = i
    rw [Nat.add_sub_cancel, Nat.max_eq_left hi]
  | remove =>
    have hpast : edit.offset + edit.length ≤ i := Nat.not_lt.1 fun hlt => hstays ⟨hkind, hi, hlt⟩
    have hleft : max (i - edit.length) edit.offset = i - edit.length :=
      Nat.max_eq_left (Nat.le_sub_of_add_le hpast)
    refine ⟨Nat.le_max_right _ _, ?_⟩
    show max (i - edit.length) edit.offset + edit.length = i
    rw [hleft, Nat.sub_add_cancel ((Nat.le_add_left _ _).trans hpast)]

theorem not_drops_mapBack (hp : edit.reach ≤ p) : ¬ edit.Drops (edit.mapBack p) := by
  rintro ⟨hkind, -, hlt⟩
  unfold reach at hp
  unfold mapBack at hlt
  rw [hkind] at hp hlt
  exact Nat.not_lt.2 (Nat.add_le_add_right hp _) hlt

theorem strictMonoOn_mapForward (edit : Edit) :
    StrictMonoOn edit.mapForward {i | ¬ edit.Drops i} := by
  intro i hi j hj hij
  refine lt_of_le_of_ne (edit.mapForward_mono hij.le) fun heq => hij.ne ?_
  rcases Nat.lt_or_ge j edit.offset with hbefore | hbehind
  · rwa [edit.mapForward_of_lt (hij.trans hbefore), edit.mapForward_of_lt hbefore] at heq
  · obtain ⟨hreach, hback⟩ := mapForward_behind hj hbehind
    rcases Nat.lt_or_ge i edit.offset with hi' | hi'
    · -- what stays before the edit cannot meet what went behind the edited text
      rw [edit.mapForward_of_lt hi'] at heq
      rw [← heq] at hreach
      exact absurd (edit.offset_le_reach.trans hreach) (Nat.not_le.2 hi')
    · rw [← (mapForward_behind hi hi').2, heq, hback]

/-- Every offset outside of the text that was put in is taken by one character that stays. -/
theorem bijOn_mapForward (edit : Edit) :
    Set.BijOn edit.mapForward {i | ¬ edit.Drops i} {p | p < edit.offset ∨ edit.reach ≤ p} := by
  refine ⟨fun i hi => ?_, edit.strictMonoOn_mapForward.injOn, fun p hp => ?_⟩
  · rcases Nat.lt_or_ge i edit.offset with hbefore | hbehind
    · left
      rwa [edit.mapForward_of_lt hbefore]
    · exact .inr (mapForward_behind hi hbehind).1
  · rcases hp with hbefore | hbehind
    · refine ⟨p, fun hdrops => ?_, edit.mapForward_of_lt hbefore⟩
      exact Nat.not_le.2 hbefore hdrops.2.1
    · exact ⟨edit.mapBack p, not_drops_mapBack hbehind, edit.mapForward_mapBack hbehind⟩

namespace Applies

variable {old new : Text}

theorem getElem?_before (h : edit.Applies old new) (hi : i < edit.offset) : new[i]? = old[i]? := by
  have hsame := congrArg (·[i]?) (h.take_eq (Nat.le_refl edit.offset))
  simpa only [List.getElem?_take_of_lt hi] using hsame

theorem getElem?_behind (h : edit.Applies old new) (hp : edit.reach ≤ p) :
    new[p]? = old[edit.mapBack p]? := by
  have hsame := congrArg (·[0]?) (h.drop_eq hp)
  simpa only [List.getElem?_drop, Nat.add_zero] using hsame

theorem getElem?_mapForward (h : edit.Applies old new) (hstays : ¬ edit.Drops i) :
    new[edit.mapForward i]? = old[i]? := by
  rcases Nat.lt_or_ge i edit.offset with hbefore | hbehind
  · rw [edit.mapForward_of_lt hbefore, h.getElem?_before hbefore]
  · obtain ⟨hreach, hback⟩ := mapForward_behind hstays hbehind
    rw [h.getElem?_behind hreach, hback]

theorem mapBack_length (h : edit.Applies old new) : edit.mapBack new.length = old.length := by
  refine le_antisymm (h.mapBack_le (Nat.le_refl _)) (Nat.not_lt.1 fun hlt => ?_)
  exact Nat.lt_irrefl _ ((h.mapBack_lt_iff h.reach_le (Nat.le_refl _)).1 hlt)

theorem mapForward_length (h : edit.Applies old new) : edit.mapForward old.length = new.length := by
  rw [← h.mapBack_length, edit.mapForward_mapBack h.reach_le]

theorem mapBack_eq_length_iff (h : edit.Applies old new) (hp : edit.reach ≤ p) :
    edit.mapBack p = old.length ↔ p = new.length := by
  constructor
  · intro hend
    rw [← edit.mapForward_mapBack hp, hend, h.mapForward_length]
  · rintro rfl
    exact h.mapBack_length

theorem rowEnd_iff (h : edit.Applies old new) (hp : edit.reach ≤ p) :
    new.RowEnd p ↔ old.RowEnd (edit.mapBack p) := by
  unfold Text.RowEnd
  rw [h.mapBack_eq_length_iff hp, h.getElem?_behind hp]

end Applies
end Edit

namespace TextBuffer

/-- A change that a buffer made when it was asked for it. -/
inductive Changes (buffer : TextBuffer) (change : BufferChange) (next : TextBuffer) : Prop
  | insert {offset : Nat} {typed : Text} (h : buffer.insert offset typed = .ok (change, next))
  | remove {offset length : Nat} (h : buffer.remove offset length = .ok (change, next))

variable {buffer next : TextBuffer} {change : BufferChange}

theorem Changes.applies (h : buffer.Changes change next) :
    change.edit.Applies buffer.text next.text := by
  cases h with
  | insert h => exact (insert_follows h).2.2.applies
  | remove h => exact (remove_follows h).2.2.2.applies

/-- The maps of an edit follow the characters of the text it was made to. What stands before the
edit stays; what stands behind the edited text comes from where the map back says, and the map
forward returns it. Forward, the characters that stay are matched in order with the offsets that the
edit put nothing at, each one with itself, and those taken out go to the place of the edit. Rows end
behind the edited text where they ended before, and no offset of one text leaves the other. -/
theorem maps_follow_text (h : buffer.Changes change next) :
    let edit := change.edit
    let old := buffer.text
    let new := next.text
    (∀ i < edit.offset, new[i]? = old[i]?) ∧
      (∀ p, edit.reach ≤ p →
        new[p]? = old[edit.mapBack p]? ∧ edit.mapForward (edit.mapBack p) = p) ∧
      (∀ i, ¬ edit.Drops i → new[edit.mapForward i]? = old[i]?) ∧
      StrictMonoOn edit.mapForward {i | ¬ edit.Drops i} ∧
      Set.BijOn edit.mapForward {i | ¬ edit.Drops i} {p | p < edit.offset ∨ edit.reach ≤ p} ∧
      (∀ i, edit.Drops i → edit.mapForward i = edit.offset) ∧
      Monotone edit.mapForward ∧
      (∀ p, edit.reach ≤ p → (new.RowEnd p ↔ old.RowEnd (edit.mapBack p))) ∧
      (∀ i ≤ old.length, edit.mapForward i ≤ new.length) ∧
      ∀ p ≤ new.length, edit.mapBack p ≤ old.length := by
  intro edit old new
  have hedit : edit.Applies old new := h.applies
  refine ⟨fun i => hedit.getElem?_before, fun p hp => ⟨hedit.getElem?_behind hp, ?_⟩,
    fun i => hedit.getElem?_mapForward, edit.strictMonoOn_mapForward, edit.bijOn_mapForward,
    fun i => Edit.mapForward_of_drops, fun i j => edit.mapForward_mono, fun p => hedit.rowEnd_iff,
    fun i hi => ?_, fun p => hedit.mapBack_le⟩
  · exact edit.mapForward_mapBack hp
  · rw [← hedit.mapForward_length]
    exact edit.mapForward_mono hi

/-- A removal that joins two rows: the break at its end is the break that ended the second row, and
the one that was taken out goes to the place of the removal. -/
theorem maps_follow_text_joined :
    let buffer := ofText ['a', 'b', '\n', 'c', 'd', '\n']
    ∃ change next, buffer.remove 1 3 = .ok (change, next) ∧ next.text = ['a', 'd', '\n'] ∧
      change.edit.mapForward 2 = 1 ∧ next.text[change.edit.mapForward 4]? = some 'd' ∧
      next.text.RowEnd 2 := by
  intro buffer
  have hremove : buffer.remove 1 3 = .ok (⟨⟨1, 3, .remove⟩, ['b', '\n', 'c']⟩,
      ofText ['a', 'd', '\n']) := rfl
  obtain ⟨-, -, hstays, -, -, hdrops, -, hend, -⟩ := maps_follow_text (.remove hremove)
  refine ⟨_, _, hremove, rfl, hdrops 2 (by decide), hstays 4 (by decide), ?_⟩
  exact (hend 2 (by decide)).2 (.inr rfl)

end TextBuffer
end LiveHighlight

import LiveHighlight.History

/-! Settings of an editor, and what typed text goes through. -/

namespace LiveHighlight

structure Settings where
  /-- What is typed in place of a tab. -/
  tabReplacement : Text := [' ', ' ']
  historyLimit : Nat := History.defaultLimit
  coalesceEdits : Bool := false
  deriving DecidableEq, Repr

/-- Replaces every tab. -/
def expandTabs (replacement text : Text) : Text :=
  text.flatMap fun c => if c = '\t' then replacement else [c]

end LiveHighlight

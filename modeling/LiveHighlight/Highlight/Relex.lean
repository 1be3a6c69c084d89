import LiveHighlight.Event
import LiveHighlight.Highlight.Extent
import LiveHighlight.Highlight.Fragments
import LiveHighlight.Reader

/-! Lexing a text again, all of it or around an edit, so that the region index of a file stays in
step with its text. The rows that were lexed wait in the state to be painted. -/

namespace LiveHighlight

/-- What is known of one file: rows still to be painted, and the regions of its constructs. -/
structure FileState where
  rows : RowBuckets := {}
  regions : RegionIndex := {}
  deriving DecidableEq

/-- The state of a file before it is highlighted. -/
def FileState.initial : FileState := {}

/-- What a request leaves behind. After a failure the state is as far as the work got. -/
structure Outcome (σ α : Type) where
  result : Except HighlightError α
  state : FileState
  reader : Reader σ
  events : List Event := []

namespace Relex

open Extent Fragments

variable {σ : Type} [Lexer σ]

/-- Lexes a range of the text into row buckets. -/
def lexRows (reader : Reader σ) (text : Text) (span : Span) (startRow endRow : Nat) :
    Except HighlightError RowBuckets × Reader σ :=
  let (output, next) := reader.read (text.slice span.start span.stop) startRow
  (RowBuckets.ofTokens output.tokens output.invalid startRow endRow, next)

def windowOf (text : Text) (span : Span) : Window :=
  { start := span.start
    stop := span.stop
    startRow := text.rowAt span.start
    endRow := text.rowAt span.stop }

/-- Lexes the whole text and builds the regions from nothing. -/
def entire (reader : Reader σ) (text : Text) (state : FileState) : Outcome σ Window :=
  let span : Span := ⟨0, text.length⟩
  let endRow := text.lineCount - 1
  match lexRows reader text span 0 endRow with
  | (.error e, reader) => ⟨.error e, { state with regions := {} }, reader, []⟩
  | (.ok rows, reader) =>
    let derived := deriveToEnd text rows {}
    match derived.result with
    | .error e => ⟨.error e, ⟨rows, derived.regions⟩, reader, []⟩
    | .ok () =>
      ⟨.ok ⟨span.start, span.stop, 0, endRow, false⟩, ⟨rows, derived.regions⟩, reader,
        [.highlighted (endRow + 1) derived.regions.size]⟩

/-- Lexes from the construct that is unclosed after the window to the end of the text, in place of
all that was known from there on. -/
def rebuildTail (reader : Reader σ) (text : Text) (window : Window) (state : FileState) :
    Outcome σ Window :=
  match state.rows.unclosedOpening with
  | .error e => ⟨.error e, state, reader, []⟩
  | .ok opening =>
    let start := text.rowStart opening.row + opening.column
    let endRow := text.lineCount - 1
    -- whatever was known behind the opening delimiter no longer holds
    let kept := state.regions.truncate start
    match lexRows reader text ⟨start, text.length⟩ opening.row endRow with
    | (.error e, reader) => ⟨.error e, { state with regions := kept }, reader, []⟩
    | (.ok lexed, reader) =>
      let tail := lexed.indentFirst opening.column
      let derived := deriveToEnd text tail kept
      match derived.result with
      | .error e => ⟨.error e, { state with regions := derived.regions }, reader, []⟩
      | .ok () =>
        ⟨.ok { window with stop := text.length, endRow := endRow, tailRebuilt := true },
          ⟨state.rows.splice opening tail, derived.regions⟩, reader,
          [.tailRebuilt opening endRow (state.regions.size - kept.size)]⟩

/-- Derives the regions of lexed rows, through the end of the text if a construct stays open. -/
def settle (reader : Reader σ) (text : Text) (window : Window) (state : FileState) :
    Outcome σ Window :=
  let derived := derive none (ofRows text state.rows) state.regions
  let state := { state with regions := derived.regions }
  match derived.result with
  | .error e => ⟨.error e, state, reader, []⟩
  | .ok none => ⟨.ok window, state, reader, []⟩
  | .ok (some u) =>
    if text.length ≤ window.stop then
      let closed := leaveOpen text u state.regions
      ⟨closed.result.map fun _ => window, { state with regions := closed.regions }, reader, []⟩
    else rebuildTail reader text window state

/-- Lexes the rows that an edit can have changed. The text is the one after the edit, and the state
belongs to the text before it. -/
def afterEdit (reader : Reader σ) (text : Text) (edit : Edit) (state : FileState) :
    Outcome σ Window :=
  -- the stored regions are still in offsets of the text before the edit
  let (span, left) := widen text edit (edited text edit) state.regions
  let regions := left.shiftFrom (edit.mapBack span.stop) edit.delta
  let window := windowOf text span
  match lexRows reader text span window.startRow window.endRow with
  | (.error e, reader) => ⟨.error e, { state with regions := regions }, reader, []⟩
  | (.ok rows, reader) =>
    let settled := settle reader text window ⟨rows, regions⟩
    match settled.result with
    | .error _ => settled
    | .ok window => { settled with events := settled.events ++ [.relexed window edit] }

/-- Lexes the rows of a range again, with every construct that shares a row with them. The regions
have to be those of the text, and stay as they are. -/
def range (reader : Reader σ) (text : Text) (start stop : Nat) (state : FileState) :
    Outcome σ Window :=
  let span := hull text state.regions (rowsOf text start stop)
  let window := windowOf text span
  match lexRows reader text span window.startRow window.endRow with
  | (.error e, reader) => ⟨.error e, state, reader, []⟩
  | (.ok rows, reader) => ⟨.ok window, { state with rows := rows }, reader, [.repainting window]⟩

end Relex
end LiveHighlight

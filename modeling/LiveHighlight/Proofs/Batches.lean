import Mathlib
import LiveHighlight.Proofs.SessionSteps

/-! Highlighting in batches. However many edits an editor has queued, in whatever order and on
whatever text, running its tasks leaves the styles and the regions that highlighting the whole text
from nothing gives. -/

namespace LiveHighlight.Session

variable {session : Session} {index : Nat}

/-- The editor's queue leads from a buffer that is highlighted as a whole to its own buffer, or
starts with a task for the whole text. -/
def Tracked (index : Nat) (session : Session) : Prop :=
  ∃ editor base, session.editors[index]? = some editor ∧ base.text.Fits ∧
    Queued base editor.pending editor.buffer ∧
    (Highlighted session.highlighter.rules base (session.state? index) ∨
      ∃ text rest, editor.pending = .entire text :: rest)

theorem perform_run (h : session.Tracked index) (hon : session.highlighter.enabled = true) :
    ∃ editor buffer, session.editors[index]? = some editor ∧
      (session.perform index .runPending).1 = .count editor.pending.length ∧
      (session.perform index .runPending).2.1.editors[index]? =
        some { editor with pending := [], buffer := buffer } ∧
      buffer.text = editor.buffer.text ∧ buffer.text.Fits ∧
      Highlighted session.highlighter.rules buffer
        ((session.perform index .runPending).2.1.state? index) := by
  obtain ⟨editor, base, heditor, hfits, hqueued, hready⟩ := h
  rw [state?_eq heditor] at hready
  obtain ⟨buffer, last, registry, events, hrun, htext, hall⟩ :=
    Editor.runPending_highlighted hon hqueued hfits hready
  obtain ⟨hreply, hafter, hstate⟩ := perform_runPending heditor hrun rfl
  refine ⟨editor, buffer, heditor, hreply, hafter, htext, htext ▸ hqueued.fits hfits, ?_⟩
  rw [hstate]
  exact hall

theorem tracked_newEditor (session : Session) (settings : Settings) :
    (session.newEditor settings).Tracked session.editors.length := by
  refine ⟨.new settings (Editor.untitledPath (session.editors.length + 1)), {}, ?_, ?_, ?_, ?_⟩
  · simp [newEditor]
  · simp [Text.Fits, Fragments.overhang]
  · exact .entire (.nil _)
  · exact .inr ⟨_, _, rfl⟩

theorem Tracked.step {next : Session} (h : session.Tracked index)
    (hon : session.highlighter.enabled = true) (hstep : session.Step index next) :
    next.Tracked index := by
  cases hstep with
  | own action hedits hfits =>
    by_cases hrun : action = .runPending
    · subst hrun
      obtain ⟨editor, buffer, -, -, hnext, -, hfits', hall⟩ := perform_run h hon
      refine ⟨_, buffer, hnext, hfits', .nil _, .inl ?_⟩
      rw [(perform_highlighter _ _ _).rules]
      exact hall
    · obtain ⟨editor, base, heditor, hbase, hqueued, hready⟩ := h
      obtain ⟨after, hafter, hstate, hfits', hgrown | ⟨hpending, hqueued'⟩⟩ :=
        perform_advance heditor hqueued hedits hrun hfits
      · obtain ⟨more, hpending, hqueued'⟩ := hgrown
        refine ⟨after, base, hafter, hbase, hqueued', ?_⟩
        rw [hstate, (perform_highlighter _ _ _).rules]
        refine hready.imp_right fun ⟨text, rest, hfirst⟩ => ⟨text, rest ++ more, ?_⟩
        rw [hpending, hfirst, List.cons_append]
      · exact ⟨after, after.buffer, hafter, hfits', hqueued', .inr ⟨_, _, hpending⟩⟩
  | other j action hkey hsame =>
    obtain ⟨editor, base, heditor, hbase, hqueued, hready⟩ := h
    obtain ⟨heditors, hstate⟩ := perform_other hkey action hsame
    refine ⟨editor, base, by rw [heditors, heditor], hbase, hqueued, ?_⟩
    rw [hstate, (perform_highlighter _ _ _).rules]
    exact hready

theorem tracked_of_steps {start : Session} (hon : start.highlighter.enabled = true)
    (hstart : start.Tracked index) (h : Relation.ReflTransGen (Step index) start session) :
    session.Tracked index ∧ session.highlighter.Alike start.highlighter := by
  induction h with
  | refl => exact ⟨hstart, .refl _⟩
  | tail _ hstep ih =>
    obtain ⟨htracked, hsame⟩ := ih
    exact ⟨htracked.step (hsame.enabled.trans hon) hstep, hstep.highlighter.trans hsame⟩

/-- Batches are highlighted as the whole text is. In every session that an editor of a session with
the standard highlighter can come to, whatever its parser has counted, running the tasks answers
with their number, empties the queue and leaves no rows to paint; the styles of the buffer and the
regions of the file are those that highlighting the text as a whole gives, from no state and no
styles. -/
theorem runPending_eq_highlightEntire {start : Session} (settings : Settings)
    (hstandard : start.highlighter.Alike .standard)
    (hsteps : Relation.ReflTransGen (Step start.editors.length) (start.newEditor settings)
      session) :
    ∃ before after state, session.editors[start.editors.length]? = some before ∧
      (session.perform start.editors.length .runPending).1 = .count before.pending.length ∧
      (session.perform start.editors.length .runPending).2.1.editors[start.editors.length]? =
        some after ∧
      after.pending = [] ∧ after.buffer.text = before.buffer.text ∧
      (session.perform start.editors.length .runPending).2.1.registry.get?
        ((session.perform start.editors.length .runPending).2.1.files.key after.path) =
          some state ∧
      state.rows.rows = [] ∧
      after.buffer.styles = (Highlighter.standard.highlightEntire after.buffer.text {}
        (.ofText after.buffer.text)).buffer.styles ∧
      state.regions = (Highlighter.standard.highlightEntire after.buffer.text {}
        (.ofText after.buffer.text)).state.regions := by
  have hstart : (start.newEditor settings).highlighter.Alike .standard := hstandard
  obtain ⟨htracked, hsame⟩ := tracked_of_steps hstart.enabled
    (tracked_newEditor start settings) hsteps
  have hhighlighter := hsame.trans hstart
  obtain ⟨before, buffer, heditor, hcount, hafter, htext, -, hall⟩ :=
    perform_run htracked hhighlighter.enabled
  rw [hhighlighter.rules, state?_eq hafter] at hall
  obtain ⟨state, hstate, hsame'⟩ := hall.eq_highlightEntire
  exact ⟨before, _, state, heditor, hcount, hafter, rfl, htext, hstate, hsame'⟩

/-- Two characters typed into a new editor open a comment. -/
theorem runPending_eq_highlightEntire_typed :
    (((({} : Session).newEditor {}).perform 0 (.insert 0 ['~', ':'])).2.1.perform 0
      .runPending).1 = .count 2 := by
  have hsteps : Relation.ReflTransGen (Step 0) (({} : Session).newEditor {})
      ((({} : Session).newEditor {}).perform 0 (.insert 0 ['~', ':'])).2.1 := by
    refine .single (.own _ rfl fun editor heditor => ?_)
    obtain rfl := Option.some.inj heditor
    decide
  obtain ⟨before, _, _, hbefore, hcount, -⟩ :=
    @runPending_eq_highlightEntire _ {} {} (.refl _) hsteps
  obtain rfl := Option.some.inj hbefore
  exact hcount

end LiveHighlight.Session

import Mathlib
import LiveHighlight.Proofs.SessionSteps

/-! Highlighting that is turned off and on again. Tasks that are run while it is off are dropped, so
the regions fall behind the text, and edits that are still queued when it is turned on are lexed
with regions of an older text. This fails exactly when one of them leaves a construct open at the
end of its text and a region of the older text lies there. -/

namespace LiveHighlight

open Extent Relex Paint Constructs Fragments Text

namespace Relex

theorem lexedRegions_stop_le {text : Text} {span : Span} {right : List Region}
    (hspan : Aligned text span) {r : Region} (hr : r ∈ lexedRegions text span right) :
    r.stop ≤ text.length + overhang ∨ r ∈ right := by
  have hwidth := width_spanRows hspan
  have hbelow := width_below hspan.rowEnd.le_length
  have hle := hspan.rowEnd.le_length
  unfold lexedRegions at hr
  split_ifs at hr
  · rcases List.mem_append.1 hr with hr | hr
    · have hlt := closed_stop_lt (above_none span.start) hr
      exact .inl (by omega)
    · exact .inr hr
  all_goals
    rcases List.mem_append.1 hr with hr | hr
    · refine .inl ?_
      rcases List.mem_append.1 hr with hr | hr
      · have hlt := closed_stop_lt (above_none span.start) hr
        rw [width_append] at hlt
        omega
      · obtain ⟨u, -, rfl⟩ := List.mem_map.1 hr
        rw [width_append]
        dsimp only
        omega
    · first | exact .inr hr | cases hr

/-- Regions that may have fallen behind a text: they do not overlap, and reach past its end by a
word at most. -/
structure Stale (regions : List Region) (text : Text) : Prop where
  apart : Apart regions
  stop_lt : ∀ r ∈ regions, r.stop < text.length + 2 ^ 63

theorem Stale.fits {regions : List Region} {old new : Text} {edit : Edit} (h : Stale regions old)
    (hedit : edit.Applies old new) (hold : old.Fits) (hnew : new.Fits) : Fits edit regions := by
  have hlength := edit_length_lt hedit hold hnew
  refine ⟨hlength, fun r hr => ?_⟩
  have hstop := h.stop_lt r hr
  have hmove := hedit.length_add_delta hlength
  unfold Text.Fits at hnew
  unfold maxOffset
  omega

theorem Stale.step {old new : Text} {edit : Edit} {state : FileState}
    (h : Stale state.regions.toList old) (hedit : edit.Applies old new) (hold : old.Fits)
    (hnew : new.Fits) (reader : Reader LineLexer)
    (hfree : ¬ Collides new (site new edit state.regions)
      (rightOf edit (site new edit state.regions) state.regions.toList)) :
    ∃ window next last events,
      afterEdit reader new edit state = ⟨.ok window, next, last, events⟩ ∧
      Stale next.regions.toList new := by
  have hfits := h.fits hedit hold hnew
  have hsite := site_spec new edit h.apart
  obtain ⟨window, next, last, events, hafter, hsettled, hapart⟩ :=
    afterEdit_ok reader new h.apart hfits hfree
  refine ⟨window, next, last, events, hafter, hapart, fun r hr => ?_⟩
  rw [hsettled.regions] at hr
  rcases List.mem_append.1 hr with hr | hr
  · have hstop := leftOf_stop_le r hr
    have hle := hsite.rowStart.le_length
    omega
  · rcases lexedRegions_stop_le hsite.toAligned hr with hle | hr
    · unfold overhang at hle
      omega
    · obtain ⟨a, ha, hback, rfl⟩ := mem_rightOf.1 hr
      have hmoved := (shift_of_behind h.apart hfits ha hback).2.1
      have hstop := h.stop_lt a ha
      have hlength := hedit.length_add_delta hfits.length_lt
      omega

theorem stale_fullRegions {text : Text} (hfits : text.Fits) (other : Text) :
    Stale (fullRegions text) other := by
  refine ⟨apart_fullRegions text, fun r hr => ?_⟩
  have hstop := fullRegions_stop_le hr
  unfold Text.Fits at hfits
  omega

/-- An edit that is queued before the first task for the whole text leaves a construct open at the
end of its text, where the regions known by then have one already. -/
def Blocked (state : FileState) : List HighlightTask → Prop
  | [] => False
  | .entire _ :: _ => False
  | .region text edit :: rest =>
    Collides text (site text edit state.regions)
        (rightOf edit (site text edit state.regions) state.regions.toList) ∨
      Blocked (afterEdit { lexer := LineLexer.mk } text edit state).state rest

/-- Edits that are lexed with the regions of their own text are never blocked. -/
theorem not_blocked {base buffer : TextBuffer} {tasks : List HighlightTask}
    (hqueued : Queued base tasks buffer) (hfits : base.text.Fits) {state : FileState}
    (hstate : state.regions = fullIndex base.text) : ¬ Blocked state tasks := by
  induction hqueued generalizing state with
  | nil => exact id
  | entire _ _ => exact id
  | @region base next buffer tasks edit hedit hfits' hrest ih =>
    have hlist : state.regions.toList = fullRegions base.text := by rw [hstate, fullIndex]
    have hsite := site_spec next.text edit (hlist ▸ apart_fullRegions base.text)
    rw [hlist] at hsite
    obtain ⟨window, last, events, hafter, -⟩ :=
      afterEdit_full { lexer := LineLexer.mk } hedit.applies hfits hfits' hstate
    rintro (hcollides | hblocked)
    · rw [hlist] at hcollides
      exact hsite.not_collides hedit.applies hfits hfits' hcollides
    · rw [hafter] at hblocked
      exact ih hfits' rfl hblocked

end Relex

namespace Editor

namespace Drain

variable {rules : StyleRules} {path : String} {key : FileKey} {drain : Drain LineLexer}
  {base buffer : TextBuffer} {tasks : List HighlightTask}

theorem run_missing (hqueued : Queued base tasks buffer) (hfits : base.text.Fits)
    (hentire : ∃ text, .entire text ∈ tasks) (hstate : drain.registry.get? key = none) :
    ∃ next rows, run path key tasks drain = (.ok (), next) ∧ InStep rules key next buffer rows := by
  induction hqueued generalizing drain with
  | nil =>
    obtain ⟨text, hmem⟩ := hentire
    cases hmem
  | entire hrest =>
    obtain ⟨next, hrun, -, rows, hin⟩ :=
      run_inStep path (.entire hrest) hfits (.inr ⟨_, _, rfl⟩)
    exact ⟨next, rows, hrun, hin⟩
  | region hedit hfits' hrest ih =>
    -- without a state the edit is left out, and the whole text is still to come
    obtain ⟨text, hmem⟩ := hentire
    have hmem' := List.mem_of_ne_of_mem (by simp) hmem
    rw [run, step]
    dsimp only
    rw [hstate]
    exact ih hfits' ⟨text, hmem'⟩ hstate

/-- With regions of an older text, a run fails exactly when an edit is blocked. -/
theorem run_stale (hqueued : Queued base tasks buffer) (hfits : base.text.Fits)
    (hentire : ∃ text, .entire text ∈ tasks) {state : FileState}
    (hstate : drain.registry.get? key = some state)
    (hstale : Stale state.regions.toList base.text) :
    (Blocked state tasks → ∃ region existing next,
      run path key tasks drain = (.error (.overlappingRegion region existing), next)) ∧
      (¬ Blocked state tasks → ∃ next rows,
        run path key tasks drain = (.ok (), next) ∧ InStep rules key next buffer rows) := by
  induction hqueued generalizing drain state with
  | nil =>
    obtain ⟨text, hmem⟩ := hentire
    cases hmem
  | entire hrest =>
    obtain ⟨next, hrun, -, rows, hin⟩ :=
      run_inStep path (.entire hrest) hfits (.inr ⟨_, _, rfl⟩)
    exact ⟨fun hblocked => hblocked.elim, fun _ => ⟨next, rows, hrun, hin⟩⟩
  | @region base after buffer tasks edit hedit hfits' hrest ih =>
    obtain ⟨text, hmem⟩ := hentire
    have hmem' := List.mem_of_ne_of_mem (by simp) hmem
    rw [run, step]
    dsimp only
    rw [hstate]
    dsimp only
    by_cases hcollides : Collides after.text (site after.text edit state.regions)
      (rightOf edit (site after.text edit state.regions) state.regions.toList)
    · obtain ⟨region, existing, next, last, hafter, -⟩ := afterEdit_collides drain.reader after.text
        hstale.apart (hstale.fits hedit.applies hfits hfits') hcollides
      rw [hafter, absorb]
      exact ⟨fun _ => ⟨region, existing, _, rfl⟩, fun hfree => absurd (.inl hcollides) hfree⟩
    · obtain ⟨window, next, last, events, hafter, hstale'⟩ :=
        hstale.step hedit.applies hfits hfits' drain.reader hcollides
      have hblocked : Blocked state (.region after.text edit :: tasks) ↔ Blocked next tasks := by
        have hsame : (afterEdit { lexer := LineLexer.mk } after.text edit state).state = next :=
          congrArg Outcome.state ((afterEdit_congr rfl _ _ _).trans hafter)
        rw [Blocked, hsame]
        exact or_iff_right hcollides
      rw [hafter, absorb, hblocked]
      dsimp only
      refine ih hfits' ⟨text, hmem'⟩ ?_ hstale'
      rw [Registry.get?_set, if_pos rfl]

end Drain

variable {key : FileKey} {editor : Editor} {highlighter : Highlighter LineLexer}
  {registry : Registry} {base : TextBuffer}

theorem runPending_stale (hon : highlighter.enabled = true)
    (hqueued : Queued base editor.pending editor.buffer) (hfits : base.text.Fits)
    (hstale : ∀ state, registry.get? key = some state → Stale state.regions.toList base.text)
    (hready : Highlighted highlighter.rules base (registry.get? key) ∨
      ∃ text, .entire text ∈ editor.pending) :
    ((∃ state, registry.get? key = some state ∧ Blocked state editor.pending) →
      ∃ region existing last registry' events,
        editor.runPending highlighter registry key =
          ⟨.error (.overlappingRegion region existing),
            { editor with pending := [.entire editor.buffer.text] }, last, registry', events⟩ ∧
        registry'.get? key = none) ∧
    ((¬ ∃ state, registry.get? key = some state ∧ Blocked state editor.pending) →
      ∃ count buffer last registry' events,
        editor.runPending highlighter registry key =
          ⟨.ok count, { editor with pending := [], buffer := buffer }, last, registry', events⟩ ∧
        buffer.text = editor.buffer.text ∧
        Highlighted highlighter.rules buffer (registry'.get? key)) := by
  rcases hready with hall | hentire
  · have hfree : ¬ ∃ state, registry.get? key = some state ∧ Blocked state editor.pending := by
      rintro ⟨state, hstate, hblocked⟩
      obtain ⟨rows, hsome, -⟩ := hall.state
      rw [hstate] at hsome
      obtain rfl := Option.some.inj hsome
      exact not_blocked hqueued hfits rfl hblocked
    refine ⟨fun hblocked => absurd hblocked hfree, fun _ => ?_⟩
    obtain ⟨buffer, last, registry', events, hrun, htext, hall'⟩ :=
      runPending_highlighted hon hqueued hfits (.inl hall)
    exact ⟨_, buffer, last, registry', events, hrun, htext, hall'⟩
  · let drain : Drain LineLexer := { reader := highlighter.toReader, registry := registry }
    cases hstate : registry.get? key with
    | none =>
      refine ⟨?_, fun _ => ?_⟩
      · rintro ⟨state, hsome, -⟩
        cases hsome
      · have hnone : drain.registry.get? key = none := hstate
        obtain ⟨next, rows, hrun, hin⟩ := Drain.run_missing hqueued hfits hentire hnone
        exact ⟨_, runPending_of_run hon hrun hin⟩
    | some state =>
      have hsome : drain.registry.get? key = some state := hstate
      obtain ⟨hfail, hpass⟩ := Drain.run_stale hqueued hfits hentire hsome (hstale state hstate)
      refine ⟨?_, fun hfree => ?_⟩
      · rintro ⟨other, hother, hblocked⟩
        obtain rfl := Option.some.inj hother
        obtain ⟨region, existing, next, hrun⟩ := hfail hblocked
        refine ⟨region, existing, { highlighter with toReader := next.reader },
          next.registry.erase key,
          next.events ++ [.highlightFailed editor.path (.overlappingRegion region existing)],
          ?_, ?_⟩
        · rw [runPending, if_pos hon, hrun]
          rfl
        · rw [Registry.get?_erase, if_pos rfl]
      · obtain ⟨next, rows, hrun, hin⟩ := hpass fun hblocked => hfree ⟨state, rfl, hblocked⟩
        exact ⟨_, runPending_of_run hon hrun hin⟩

end Editor

namespace Session

variable {session : Session} {index : Nat}

/-- Turns highlighting on or off for all editors. -/
def switch (session : Session) (on : Bool) : Session :=
  { session with highlighter := { session.highlighter with enabled := on } }

/-- A step of a session in which highlighting may be turned off, and turned on if the whole text of
the editor is queued at once. -/
inductive SwitchStep (index : Nat) (session : Session) : Session → Prop
  | step {next : Session} (hstep : session.Step index next) : SwitchStep index session next
  | off : SwitchStep index session (session.switch false)
  | on : SwitchStep index session ((session.switch true).perform index .rehighlight).2.1

/-- The regions of the editor's file are those of some text. The editor's queue leads to its buffer
from one that is highlighted as a whole, or holds a task for the whole text, unless highlighting is
off. -/
def Switched (index : Nat) (session : Session) : Prop :=
  ∃ editor base, session.editors[index]? = some editor ∧ base.text.Fits ∧
    Queued base editor.pending editor.buffer ∧
    (∀ state, session.state? index = some state →
      ∃ text : Text, text.Fits ∧ state.regions = fullIndex text) ∧
    (session.highlighter.enabled = true →
      Highlighted session.highlighter.rules base (session.state? index) ∨
        ∃ text, .entire text ∈ editor.pending)

theorem switched_newEditor (session : Session) (settings : Settings)
    (hfresh : (session.newEditor settings).state? session.editors.length = none) :
    (session.newEditor settings).Switched session.editors.length := by
  refine ⟨.new settings (Editor.untitledPath (session.editors.length + 1)), {}, ?_, ?_, ?_, ?_, ?_⟩
  · simp [newEditor]
  · simp [Text.Fits, Fragments.overhang]
  · exact .entire (.nil _)
  · intro state hstate
    rw [hfresh] at hstate
    cases hstate
  · exact fun _ => .inr ⟨[], List.mem_singleton_self _⟩

/-- Highlighting is on, and an edit in the queue of the editor is blocked. -/
def Stuck (index : Nat) (session : Session) : Prop :=
  session.highlighter.enabled = true ∧
    ∃ editor state, session.editors[index]? = some editor ∧ session.state? index = some state ∧
      Blocked state editor.pending

theorem perform_off {editor : Editor} (heditor : session.editors[index]? = some editor)
    (hoff : session.highlighter.enabled = false) :
    (session.perform index .runPending).1 = .count editor.pending.length ∧
      (session.perform index .runPending).2.1.editors[index]? =
        some { editor with pending := [] } ∧
      (session.perform index .runPending).2.1.state? index = session.state? index := by
  have hrun : editor.runPending session.highlighter session.registry
      (session.files.key editor.path) =
      ⟨.ok editor.pending.length, { editor with pending := [] }, session.highlighter,
        session.registry, []⟩ := by
    rw [Editor.runPending, if_neg (Bool.eq_false_iff.1 hoff)]
  rw [state?_eq heditor]
  exact perform_runPending heditor hrun rfl

theorem Switched.perform_on (h : session.Switched index)
    (hon : session.highlighter.enabled = true) :
    ∃ before after, session.editors[index]? = some before ∧
      (session.perform index .runPending).2.1.editors[index]? = some after ∧
      after.buffer.text = before.buffer.text ∧ after.buffer.text.Fits ∧
      (session.Stuck index → ∃ region existing,
        (session.perform index .runPending).1 =
          .failed (.highlight (.overlappingRegion region existing)) ∧
        after = { before with pending := [.entire before.buffer.text] } ∧
        (session.perform index .runPending).2.1.state? index = none) ∧
      (¬ session.Stuck index → ∃ count,
        (session.perform index .runPending).1 = .count count ∧ after.pending = [] ∧
        Highlighted session.highlighter.rules after.buffer
          ((session.perform index .runPending).2.1.state? index)) := by
  obtain ⟨editor, base, heditor, hfits, hqueued, hregions, hready⟩ := h
  have hfits' := hqueued.fits hfits
  have hstuck : session.Stuck index ↔ ∃ state,
      session.registry.get? (session.files.key editor.path) = some state ∧
        Blocked state editor.pending := by
    rw [Stuck, state?_eq heditor, heditor]
    simp [hon]
  rw [state?_eq heditor] at hregions hready
  have hstale : ∀ state, session.registry.get? (session.files.key editor.path) = some state →
      Stale state.regions.toList base.text := by
    intro state hstate
    obtain ⟨text, htext, hfull⟩ := hregions state hstate
    rw [hfull]
    exact stale_fullRegions htext base.text
  obtain ⟨hfail, hpass⟩ := Editor.runPending_stale hon hqueued hfits hstale (hready hon)
  by_cases hblocked : session.Stuck index
  · obtain ⟨region, existing, last, registry, events, hrun, hnone⟩ := hfail (hstuck.1 hblocked)
    obtain ⟨hreply, hafter, hstate⟩ := perform_runPending heditor hrun rfl
    refine ⟨editor, _, heditor, hafter, rfl, hfits', fun _ => ?_, absurd hblocked⟩
    exact ⟨region, existing, hreply, rfl, hstate.trans hnone⟩
  · obtain ⟨count, buffer, last, registry, events, hrun, htext, hall⟩ :=
      hpass fun h => hblocked (hstuck.2 h)
    obtain ⟨hreply, hafter, hstate⟩ := perform_runPending heditor hrun rfl
    refine ⟨editor, _, heditor, hafter, htext, htext ▸ hfits', fun h => absurd h hblocked, ?_⟩
    exact fun _ => ⟨count, hreply, rfl, hstate ▸ hall⟩

theorem Switched.perform (h : session.Switched index) :
    (session.perform index .runPending).2.1.Switched index := by
  have hsame := perform_highlighter session index .runPending
  by_cases hon : session.highlighter.enabled = true
  · obtain ⟨before, after, -, hafter, htext, hfits, hfail, hpass⟩ := h.perform_on hon
    refine ⟨after, after.buffer, hafter, hfits, ?_⟩
    rw [hsame.rules]
    -- a failed run queues the whole text, any other one leaves it highlighted
    by_cases hstuck : session.Stuck index
    · obtain ⟨-, -, -, rfl, hnone⟩ := hfail hstuck
      rw [hnone]
      exact ⟨.entire (.nil _), by simp, fun _ => .inr ⟨_, List.mem_singleton_self _⟩⟩
    · obtain ⟨-, -, hpending, hall⟩ := hpass hstuck
      rw [hpending]
      refine ⟨.nil _, fun state hstate => ⟨_, hfits, ?_⟩, fun _ => .inl hall⟩
      obtain ⟨rows, hsome, -⟩ := hall.state
      rw [hstate] at hsome
      rw [Option.some.inj hsome]
  · obtain ⟨editor, base, heditor, hfits, hqueued, hregions, -⟩ := h
    obtain ⟨-, hafter, hstate⟩ := perform_off heditor (Bool.eq_false_iff.2 hon)
    refine ⟨_, editor.buffer, hafter, hqueued.fits hfits, .nil _, ?_, ?_⟩
    · rw [hstate]
      exact hregions
    · rw [hsame.enabled]
      exact fun h => absurd h hon

theorem Switched.step {next : Session} (h : session.Switched index)
    (hstep : session.Step index next) : next.Switched index := by
  cases hstep with
  | own action hedits hfits =>
    by_cases hrun : action = .runPending
    · subst hrun
      exact h.perform
    · obtain ⟨editor, base, heditor, hbase, hqueued, hregions, hready⟩ := h
      obtain ⟨after, hafter, hstate, hfits', hgrown | ⟨hpending, hqueued'⟩⟩ :=
        perform_advance heditor hqueued hedits hrun hfits
      · obtain ⟨more, hpending, hqueued'⟩ := hgrown
        refine ⟨after, base, hafter, hbase, hqueued', ?_⟩
        rw [hstate, (perform_highlighter _ _ _).rules, (perform_highlighter _ _ _).enabled]
        refine ⟨hregions, fun hon => (hready hon).imp_right fun ⟨text, hmem⟩ => ⟨text, ?_⟩⟩
        rw [hpending]
        exact List.mem_append_left more hmem
      · refine ⟨after, after.buffer, hafter, hfits', hqueued', hstate ▸ hregions, fun _ => .inr ?_⟩
        exact ⟨_, hpending ▸ List.mem_singleton_self _⟩
  | other j action hkey hsame =>
    obtain ⟨editor, base, heditor, hbase, hqueued, hregions, hready⟩ := h
    obtain ⟨heditors, hstate⟩ := perform_other hkey action hsame
    refine ⟨editor, base, by rw [heditors, heditor], hbase, hqueued, ?_⟩
    rw [hstate, (perform_highlighter _ _ _).rules, (perform_highlighter _ _ _).enabled]
    exact ⟨hregions, hready⟩

theorem Switched.switchStep {next : Session} (h : session.Switched index)
    (hstep : session.SwitchStep index next) : next.Switched index := by
  cases hstep with
  | step hstep => exact h.step hstep
  | off =>
    obtain ⟨editor, base, heditor, hbase, hqueued, hregions, -⟩ := h
    exact ⟨editor, base, heditor, hbase, hqueued, hregions, fun hon => by cases hon⟩
  | on =>
    -- the queue gets its task for the whole text, behind the edits it held already
    obtain ⟨editor, base, heditor, hbase, hqueued, hregions, -⟩ := h
    have hswitch : (session.switch true).editors[index]? = some editor := heditor
    have hset := editors_setEditor_self hswitch editor.rehighlight
    have hperform : ((session.switch true).perform index .rehighlight).2.1 =
        (session.switch true).setEditor index editor.rehighlight := by
      unfold Session.perform
      rw [hswitch]
    rw [hperform]
    refine ⟨_, base, hset, hbase, hqueued.append (.entire (.nil _)), ?_, fun _ => .inr ?_⟩
    · have hpath : editor.rehighlight.path = editor.path := rfl
      rw [state?_setEditor hswitch hpath]
      exact hregions
    · exact ⟨_, List.mem_append_right _ (List.mem_singleton_self _)⟩

theorem SwitchStep.rules {next : Session} (h : session.SwitchStep index next) :
    next.highlighter.rules = session.highlighter.rules := by
  cases h with
  | step hstep => exact hstep.highlighter.rules
  | off => rfl
  | on => exact (perform_highlighter (session.switch true) index .rehighlight).rules

theorem switched_of_steps {start : Session} (hstart : start.Switched index)
    (h : Relation.ReflTransGen (SwitchStep index) start session) :
    session.Switched index ∧ session.highlighter.rules = start.highlighter.rules := by
  induction h with
  | refl => exact ⟨hstart, rfl⟩
  | tail _ hstep ih =>
    obtain ⟨hswitched, hsame⟩ := ih
    exact ⟨hswitched.switchStep hstep, hstep.rules.trans hsame⟩

/-- Running the tasks of an editor after highlighting was turned off and on. In every session that
an editor of a session with the standard highlighter can come to, the run fails exactly if the
editor is stuck. It then leaves no state and queues its whole text, so that the next run does not
fail. Otherwise it answers with a number, and if highlighting is on, the styles of the buffer and
the regions of its file are those that highlighting its text as a whole gives. -/
theorem runPending_fails_iff_stuck {start : Session} (settings : Settings)
    (hstandard : start.highlighter.Alike .standard)
    (hfresh : (start.newEditor settings).state? start.editors.length = none)
    (hsteps : Relation.ReflTransGen (SwitchStep start.editors.length) (start.newEditor settings)
      session) :
    ∃ before after, session.editors[start.editors.length]? = some before ∧
      (session.perform start.editors.length .runPending).2.1.editors[start.editors.length]? =
        some after ∧
      after.buffer.text = before.buffer.text ∧
      (session.Stuck start.editors.length → ∃ region existing,
        (session.perform start.editors.length .runPending).1 =
          .failed (.highlight (.overlappingRegion region existing)) ∧
        after = { before with pending := [.entire before.buffer.text] } ∧
        (session.perform start.editors.length .runPending).2.1.state? start.editors.length =
          none) ∧
      (¬ session.Stuck start.editors.length →
        (∃ count, (session.perform start.editors.length .runPending).1 = .count count) ∧
        after.pending = [] ∧
        (session.highlighter.enabled = true → ∃ state,
          (session.perform start.editors.length .runPending).2.1.state? start.editors.length =
            some state ∧
          after.buffer.styles = (Highlighter.standard.highlightEntire after.buffer.text {}
            (.ofText after.buffer.text)).buffer.styles ∧
          state.regions = (Highlighter.standard.highlightEntire after.buffer.text {}
            (.ofText after.buffer.text)).state.regions)) := by
  obtain ⟨hswitched, hrules⟩ :=
    switched_of_steps (switched_newEditor start settings hfresh) hsteps
  have hrules' : session.highlighter.rules = Highlighter.standard.rules :=
    hrules.trans hstandard.rules
  by_cases hon : session.highlighter.enabled = true
  · obtain ⟨before, after, hbefore, hafter, htext, -, hfail, hpass⟩ := hswitched.perform_on hon
    refine ⟨before, after, hbefore, hafter, htext, hfail, fun hfree => ?_⟩
    obtain ⟨count, hcount, hpending, hall⟩ := hpass hfree
    rw [hrules'] at hall
    obtain ⟨state, hstate, -, hsame⟩ := hall.eq_highlightEntire
    exact ⟨⟨count, hcount⟩, hpending, fun _ => ⟨state, hstate, hsame⟩⟩
  · obtain ⟨before, -, hbefore, -⟩ := hswitched
    obtain ⟨hcount, hafter, -⟩ := perform_off hbefore (Bool.eq_false_iff.2 hon)
    refine ⟨before, _, hbefore, hafter, rfl, fun hstuck => absurd hstuck.1 hon, fun _ => ?_⟩
    exact ⟨⟨_, hcount⟩, rfl, fun h => absurd h hon⟩

/-- An open comment is highlighted, removed while highlighting is off, and typed again before it is
turned on. -/
def retyped : Session :=
  let loaded := ((({} : Session).newEditor {}).perform 0 (.loadText ['~', ':'])).2.1
  let painted := (loaded.perform 0 .runPending).2.1
  let removed := ((painted.switch false).perform 0 (.remove 0 2)).2.1
  let dropped := (removed.perform 0 .runPending).2.1
  let typed := (dropped.perform 0 (.insert 0 ['~', ':'])).2.1
  ((typed.switch true).perform 0 .rehighlight).2.1

theorem retyped_steps :
    Relation.ReflTransGen (SwitchStep 0) (({} : Session).newEditor {}) retyped := by
  have hown (session : Session) (action : Action) (hedits : action.edits = true)
      (hfits : ((session.perform 0 action).2.1.editors[0]?.all fun editor =>
        decide editor.buffer.text.Fits) = true) :
      SwitchStep 0 session (session.perform 0 action).2.1 := by
    refine .step (.own action hedits fun editor heditor => ?_)
    rw [heditor] at hfits
    exact of_decide_eq_true hfits
  have hpainted := Relation.ReflTransGen.refl
    |>.tail (hown (({} : Session).newEditor {}) (.loadText ['~', ':']) rfl (by decide +kernel))
    |>.tail (hown _ .runPending rfl (by decide +kernel))
  have htyped := hpainted.tail .off
    |>.tail (hown _ (.remove 0 2) rfl (by decide +kernel))
    |>.tail (hown _ .runPending rfl (by decide +kernel))
    |>.tail (hown _ (.insert 0 ['~', ':']) rfl (by decide +kernel))
  exact htyped.tail .on

theorem retyped_reply : (retyped.perform 0 .runPending).1 =
    .failed (.highlight (.overlappingRegion ⟨0, 4, .comment⟩ ⟨2, 6, .comment⟩)) := by
  decide +kernel

theorem runPending_fails_iff_stuck_retyped : retyped.Stuck 0 := by
  obtain ⟨before, after, -, -, -, -, hpass⟩ :=
    @runPending_fails_iff_stuck retyped {} {} (.refl _) rfl retyped_steps
  by_contra hfree
  obtain ⟨⟨count, hcount⟩, -⟩ := hpass hfree
  have hreply := retyped_reply.symm.trans hcount
  cases hreply

/-- The whole text is queued right after highlighting is turned on, and yet the next run fails. -/
theorem exists_run_failing : ∃ session : Session,
    Relation.ReflTransGen (SwitchStep 0) (({} : Session).newEditor {}) session ∧
      session.highlighter.enabled = true ∧
      (session.perform 0 .runPending).1 =
        .failed (.highlight (.overlappingRegion ⟨0, 4, .comment⟩ ⟨2, 6, .comment⟩)) :=
  ⟨retyped, retyped_steps, rfl, retyped_reply⟩

end Session
end LiveHighlight

import Mathlib
import LiveHighlight.Proofs.Batches

/-! Saving an editor's text under the path it has. The state of a file is found by the file's key,
and the key of a path changes when a file comes to be there, and only then. A name at the root is
the exception, which is spelled as its file would be. So saves do not disturb the highlighting,
except for the first save of an editor without a file: what was highlighted before it is then stored
where nobody looks for it. -/

namespace LiveHighlight

namespace Files

variable {files : Files} {path : String} {entry : Entry}

theorem get?_put_self (files : Files) (entry : Entry) (content : Content) :
    (files.put entry content).get? entry = some content := by
  simp [get?, put]

/-- What a name leads to: always the same folder, always nothing, or the file that is there. -/
theorem enter_cases (folder : Folder) (name : String) :
    (∃ next, ∀ files : Files, files.enter folder name = .ok (.folder next)) ∨
      (∀ files : Files, files.enter folder name = .error .nameTooLong) ∨
      name ≠ "." ∧ ∀ files : Files, files.enter folder name =
        match files.get? ⟨folder, name⟩ with
        | some content => .ok (.file ⟨folder, name⟩ content)
        | none => .error .notFound := by
  unfold enter
  split_ifs with hdot
  · exact .inl ⟨folder, fun _ => rfl⟩
  · exact .inl ⟨folder.parent, fun _ => rfl⟩
  · exact .inr (.inl fun _ => rfl)
  · exact .inr (.inr ⟨hdot, fun _ => rfl⟩)

theorem follow_append (files : Files) (place : Place) (front rest : List String) :
    files.follow place (front ++ rest) =
      match files.follow place front with
      | .error e => .error e
      | .ok middle => files.follow middle rest := by
  induction front generalizing place with
  | nil => simp only [List.nil_append, follow]
  | cons name front ih =>
    cases place with
    | file entry content => simp only [List.cons_append, follow]
    | folder folder =>
      simp only [List.cons_append, follow]
      cases files.enter folder name with
      | error e => rfl
      | ok middle => exact ih middle

/-- Only dots lead from folder to folder, so the way does not depend on the files. -/
theorem follow_folder {place : Place} {names : List String} {folder : Folder}
    (h : files.follow place names = .ok (.folder folder)) (other : Files) :
    other.follow place names = .ok (.folder folder) := by
  induction names generalizing place with
  | nil =>
    rw [follow] at h ⊢
    exact h
  | cons name rest ih =>
    cases place with
    | file entry content => cases h
    | folder start =>
      rw [follow] at h ⊢
      obtain ⟨next, hnext⟩ | hlong | ⟨-, hfile⟩ := enter_cases start name
      · rw [hnext] at h ⊢
        exact ih h
      · rw [hlong] at h
        cases h
      · -- a file leads nowhere
        rw [hfile] at h
        cases hget : files.get? ⟨start, name⟩ with
        | none =>
          rw [hget] at h
          cases h
        | some content =>
          rw [hget] at h
          cases rest <;> cases h

theorem follow_dots (files : Files) (folder : Folder) {names : List String}
    (h : ∀ name ∈ names, name = ".") :
    files.follow (.folder folder) names = .ok (.folder folder) := by
  induction names with
  | nil => rfl
  | cons name rest ih =>
    obtain rfl := h name List.mem_cons_self
    rw [follow]
    exact ih fun name hname => h name (List.mem_cons_of_mem _ hname)

/-- A path that can be written to has the name of the entry last, and the names before it lead to
the folder of the entry. -/
theorem exists_of_target (h : files.target path = .ok entry) :
    ∃ front, Path.names path = front ++ [entry.name] ∧ Path.endsInSlash path = false ∧
      files.follow (.folder (Path.origin path)) front = .ok (.folder entry.folder) ∧
      entry.name ≠ "." ∧ ∀ other : Files, other.enter entry.folder entry.name =
        match other.get? entry with
        | some content => .ok (.file entry content)
        | none => .error .notFound := by
  unfold target at h
  cases hlast : (Path.names path).getLast? with
  | none =>
    rw [hlast] at h
    cases h
  | some name =>
    rw [hlast] at h
    dsimp only at h
    split at h
    · cases h
    · cases h
    · next folder hfolder =>
      split_ifs at h with hslash
      obtain ⟨next, hnext⟩ | hlong | ⟨hdot, hfile⟩ := enter_cases folder name
      · rw [hnext] at h
        cases h
      · rw [hlong] at h
        cases h
      · have hentry : entry = ⟨folder, name⟩ := by
          rw [hfile] at h
          cases hget : files.get? ⟨folder, name⟩ with
          | none =>
            rw [hget] at h
            exact (Except.ok.inj h).symm
          | some content =>
            rw [hget] at h
            exact (Except.ok.inj h).symm
        subst hentry
        exact ⟨_, (List.dropLast_append_getLast? name hlast).symm, Bool.eq_false_iff.2 hslash,
          hfolder, hdot, hfile⟩

/-- A path that can be written to leads, whatever the files are, to the file with its last name. -/
theorem resolve_of_target (h : files.target path = .ok entry) (other : Files) :
    other.resolve path =
      match other.get? entry with
      | some content => .ok (.file entry content)
      | none => .error .notFound := by
  obtain ⟨front, hnames, hslash, hfolder, -, hfile⟩ := exists_of_target h
  have hpath : path ≠ "" := by
    rintro rfl
    exact List.append_ne_nil_of_right_ne_nil front (List.cons_ne_nil _ _) hnames.symm
  have htrail : Path.trail path = front ++ [entry.name] := by
    rw [Path.trail, hslash, hnames, if_neg Bool.false_ne_true, List.append_nil]
  rw [resolve, if_neg hpath, htrail, follow_append, follow_folder hfolder other]
  dsimp only
  rw [follow, hfile]
  cases other.get? entry <;> rfl

/-- A path that is spelled as a file at the root can be written to at no other place. -/
theorem eq_of_ofSpelling (h : files.target path = .ok entry) {spelled : Entry}
    (hspelled : FileKey.ofSpelling path = .file spelled) : spelled = entry := by
  obtain ⟨front, hnames, -, hfolder, hdot, -⟩ := exists_of_target h
  unfold FileKey.ofSpelling at hspelled
  split at hspelled
  · next name habsolute hname =>
    split_ifs at hspelled with hdots
    cases hspelled
    rw [hnames, List.filter_append, List.filter_cons_of_pos (by simpa using hdot)] at hname
    obtain ⟨hfront, hlast⟩ := List.append_inj' (hname.trans (List.nil_append [name]).symm) rfl
    have hstay : ∀ name ∈ front, name = "." := by simpa using hfront
    rw [follow_dots files _ hstay, Path.origin, if_pos habsolute] at hfolder
    cases entry
    cases hfolder
    cases hlast
    rfl
  · cases hspelled

/-- Once a path is written to, its key is that of a file, as it was before if it was a file's. -/
theorem key_write {content : Content} {next : Files} (h : files.write path content = .ok next) :
    ∃ entry, next.key path = .file entry ∧
      ∀ earlier, files.key path = .file earlier → earlier = entry := by
  unfold write at h
  split at h
  · cases h
  · split at h
    · next entry htarget =>
      cases h
      refine ⟨entry, ?_, fun earlier hearlier => ?_⟩
      · rw [key, resolve_of_target htarget, get?_put_self]
      · rw [key, resolve_of_target htarget] at hearlier
        cases hget : files.get? entry with
        | none =>
          rw [hget] at hearlier
          exact eq_of_ofSpelling htarget hearlier
        | some content =>
          rw [hget] at hearlier
          exact (FileKey.file.inj hearlier).symm
    · cases h

/-- A path that can be read leads to a file. -/
theorem key_read {text : Text} (h : files.read path = .ok text) :
    ∃ entry, files.key path = .file entry := by
  unfold read at h
  split at h
  · cases h
  · split at h
    · next entry content hresolve =>
      exact ⟨entry, by rw [key, hresolve]⟩
    · cases h
    · cases h

end Files

namespace Editor

variable {editor : Editor}

/-- No task in the queue is for the whole text. -/
def Partial (editor : Editor) : Prop := ∀ text, .entire text ∉ editor.pending

theorem partial_of_nil (h : editor.pending = []) : editor.Partial := by
  intro text
  rw [h]
  exact List.not_mem_nil

theorem Partial.edit {next : Editor} (h : editor.Partial) (hedits : editor.Edits next) :
    next.Partial := by
  cases hedits with
  | refused _ => exact h
  | changed _ _ =>
    intro text hmem
    rcases List.mem_append.1 hmem with hmem | hmem
    · exact h text hmem
    · cases List.mem_singleton.1 hmem

section

variable {σ : Type} [Lexer σ] {key : FileKey}

/-- Without a state, tasks for edits are left out. -/
theorem Drain.run_partial (path : String) {tasks : List HighlightTask}
    (hpartial : ∀ text, .entire text ∉ tasks) {drain : Drain σ}
    (hstate : drain.registry.get? key = none) (hdirty : drain.dirty = none) :
    ∃ next, run path key tasks drain = (.ok (), next) ∧ next.dirty = none ∧
      next.ran = drain.ran ∧ next.registry = drain.registry := by
  induction tasks generalizing drain with
  | nil => exact ⟨drain, rfl, hdirty, rfl, rfl⟩
  | cons task rest ih =>
    cases task with
    | entire text => exact absurd List.mem_cons_self (hpartial text)
    | region text edit =>
      have hrest : ∀ text, .entire text ∉ rest :=
        fun text hmem => hpartial text (List.mem_cons_of_mem _ hmem)
      rw [run, step]
      dsimp only
      rw [hstate, hdirty]
      exact ih hrest hstate rfl

/-- Without a state, running tasks for edits does no more than drop them. -/
theorem runPending_partial (h : editor.Partial) {highlighter : Highlighter σ}
    (hon : highlighter.enabled = true) {registry : Registry} (hstate : registry.get? key = none) :
    ∃ after events, editor.runPending highlighter registry key =
      ⟨.ok 0, { editor with pending := [] }, after, registry, events⟩ := by
  have hdrain : ({ reader := highlighter.toReader, registry := registry } : Drain σ).registry.get?
      key = none := hstate
  obtain ⟨next, hrun, hdirty, hran, hregistry⟩ :=
    Drain.run_partial editor.path h hdrain rfl
  refine ⟨{ highlighter with toReader := next.reader }, next.events, ?_⟩
  rw [runPending, if_pos hon, hrun]
  dsimp only [finishRun]
  rw [hdirty, hran, hregistry]

end

/-- A queue that starts with a task for the whole text goes on to do so. -/
theorem Edits.whole {next : Editor} (hedits : editor.Edits next)
    (h : ∃ text rest, editor.pending = .entire text :: rest) :
    ∃ text rest, next.pending = .entire text :: rest := by
  obtain ⟨text, rest, hfirst⟩ := h
  cases hedits with
  | refused _ => exact ⟨text, rest, hfirst⟩
  | @changed _ buffer edit _ _ =>
    refine ⟨text, rest ++ [.region buffer.text edit], ?_⟩
    dsimp only
    rw [hfirst, List.cons_append]

end Editor

/-- How a file stands to the highlighting of the editor that shows it. -/
inductive Standing where
  /-- The path has no file's key, and nothing was highlighted. -/
  | fresh
  /-- The path has no file's key, and the state is stored under its spelling. -/
  | shown
  /-- The path has the key of a file, and a state is stored under it if there is one. -/
  | filed
  /-- The file came to be when the state was stored under the spelling already. -/
  | lost
  deriving DecidableEq, Repr

namespace Standing

def ofKey : FileKey → Standing
  | .file _ => .filed
  | .folder _ | .spelled _ _ _ => .fresh

def next : Standing → Action → Standing
  | .fresh, .runPending => .shown
  | .fresh, .save => .filed
  | .shown, .save => .lost
  | standing, _ => standing

def after (standing : Standing) (actions : List Action) : Standing := actions.foldl next standing

theorem next_of_ne {action : Action} (hsave : action ≠ .save) (hrun : action ≠ .runPending)
    (standing : Standing) : standing.next action = standing := by
  unfold next
  split <;> first | rfl | contradiction

theorem next_of_changes {action : Action} (h : action.changes = true) (standing : Standing) :
    standing.next action = standing := by
  refine next_of_ne ?_ ?_ standing <;> rintro rfl <;> cases h

theorem filed_after (actions : List Action) : filed.after actions = filed :=
  List.foldl_fixed' (fun _ => rfl) actions

theorem lost_after (actions : List Action) : lost.after actions = lost :=
  List.foldl_fixed' (fun _ => rfl) actions

theorem shown_after (actions : List Action) : shown.after actions = lost ↔ .save ∈ actions := by
  induction actions with
  | nil => simp [after]
  | cons action rest ih =>
    rw [after, List.foldl_cons, ← after]
    by_cases hsave : action = .save
    · subst hsave
      simp [next, lost_after]
    · have hnext : shown.next action = shown := by
        cases action <;> first | rfl | contradiction
      rw [hnext, ih, List.mem_cons, or_iff_right (Ne.symm hsave)]

theorem fresh_after (actions : List Action) :
    fresh.after actions = lost ↔
      .save ∈ actions ∧ .runPending ∈ actions.takeWhile (· ≠ .save) := by
  induction actions with
  | nil => simp [after]
  | cons action rest ih =>
    rw [after, List.foldl_cons, ← after]
    by_cases hsave : action = .save
    · subst hsave
      simp [next, filed_after]
    by_cases hrun : action = .runPending
    · subst hrun
      simp [next, shown_after]
    · rw [next_of_ne hsave hrun, ih, List.mem_cons, or_iff_right (Ne.symm hsave),
        List.takeWhile_cons_of_pos (by simpa using hsave), List.mem_cons,
        or_iff_right (Ne.symm hrun)]

/-- A state is lost if the path had no file's key and the first save came after a run. -/
theorem after_eq_lost_iff (key : FileKey) (actions : List Action) :
    (ofKey key).after actions = lost ↔ (∀ entry, key ≠ .file entry) ∧
      .save ∈ actions ∧ .runPending ∈ actions.takeWhile (· ≠ .save) := by
  cases key with
  | file entry =>
    rw [ofKey, filed_after]
    exact ⟨nofun, fun h => absurd rfl (h.1 entry)⟩
  | folder folder =>
    rw [ofKey, fresh_after]
    exact (and_iff_right nofun).symm
  | spelled absolute dotted names =>
    rw [ofKey, fresh_after]
    exact (and_iff_right nofun).symm

end Standing

namespace Session

variable {start session : Session} {editor next : Editor} {standing : Standing} {action : Action}

/-- Sessions of one editor, new or with a file that was opened. -/
inductive Begun : Session → Prop
  | new (files : Files) (settings : Settings) :
    Begun (({ files := files } : Session).newEditor settings)
  | opened {files : Files} (settings : Settings) {path : String} {text : Text}
    (hread : files.read path = .ok text) (hfits : text.Fits) :
    Begun ((({ files := files } : Session).newEditor settings).perform 0 (.openFile path)).2.1

/-- What edits, saves and runs lead to, as long as every save goes well and every text fits. -/
inductive LeadsTo (start : Session) : List Action → Session → Prop
  | refl : LeadsTo start [] start
  | tail {actions : List Action} {session : Session} (h : LeadsTo start actions session)
    (action : Action)
    (haction : action.changes = true ∨ action = .save ∨ action = .runPending)
    (hsaved : action = .save → (session.perform 0 action).1 = .done)
    (hfits : ∀ editor : Editor, (session.perform 0 action).2.1.editors[0]? = some editor →
      editor.buffer.text.Fits) :
    LeadsTo start (actions ++ [action]) (session.perform 0 action).2.1

/-- What the standing of a file says about the stored states and the queue. -/
inductive Stands (session : Session) (editor : Editor) : Standing → Prop
  | fresh (hfile : ∀ entry, session.files.key editor.path ≠ .file entry)
    (hempty : ∀ key, session.registry.get? key = none)
    (hwhole : ∃ text rest, editor.pending = .entire text :: rest)
    (htracked : session.Tracked 0) : Stands session editor .fresh
  | shown (hfile : ∀ entry, session.files.key editor.path ≠ .file entry)
    (hothers : ∀ key, key ≠ session.files.key editor.path → session.registry.get? key = none)
    (hpartial : editor.Partial) (htracked : session.Tracked 0) : Stands session editor .shown
  | filed (entry : Entry) (hfile : session.files.key editor.path = .file entry)
    (htracked : session.Tracked 0) : Stands session editor .filed
  | lost (entry : Entry) (hfile : session.files.key editor.path = .file entry)
    (hstate : session.registry.get? (.file entry) = none)
    (hpartial : editor.Partial) : Stands session editor .lost

theorem Stands.tracked (h : session.Stands editor standing) (hne : standing ≠ .lost) :
    session.Tracked 0 := by
  cases h with
  | fresh _ _ _ htracked => exact htracked
  | shown _ _ _ htracked => exact htracked
  | filed _ _ htracked => exact htracked
  | lost _ _ _ _ => exact absurd rfl hne

theorem edits_of_changes (h : action.changes = true) : action.edits = true := by
  cases action <;> first | rfl | cases h

/-- An edit leaves a file as it stands. -/
theorem Stands.edit (h : session.Stands editor standing)
    (heditor : session.editors[0]? = some editor) (hstandard : session.highlighter.Alike .standard)
    (hchanges : action.changes = true)
    (hfits : ∀ editor : Editor, (session.perform 0 action).2.1.editors[0]? = some editor →
      editor.buffer.text.Fits) :
    ∃ next : Editor, (session.perform 0 action).2.1.editors[0]? = some next ∧
      (session.perform 0 action).2.1.Stands next standing := by
  have hown := edits_of_changes hchanges
  have hrun : action ≠ .runPending := by
    rintro rfl
    cases hchanges
  have htracks (htracked : session.Tracked 0) : (session.perform 0 action).2.1.Tracked 0 :=
    htracked.step hstandard.enabled (.own action hown hfits)
  obtain ⟨reply, next, -, hpath, hnext, hperform⟩ := perform_own editor hown hrun
  have hedits := hnext hchanges
  rw [hperform session 0 heditor] at htracks ⊢
  refine ⟨next, editors_setEditor_self heditor next, ?_⟩
  cases h with
  | fresh hfile hempty hwhole htracked =>
    exact .fresh (hpath ▸ hfile) hempty (hedits.whole hwhole) (htracks htracked)
  | shown hfile hothers hpartial htracked =>
    exact .shown (hpath ▸ hfile) (hpath ▸ hothers) (hpartial.edit hedits) (htracks htracked)
  | filed entry hfile htracked => exact .filed entry (hpath ▸ hfile) (htracks htracked)
  | lost entry hfile hstate hpartial =>
    exact .lost entry (hpath ▸ hfile) hstate (hpartial.edit hedits)

/-- With the state lost, a run only drops the tasks. -/
theorem perform_lost (heditor : session.editors[0]? = some editor)
    (hstandard : session.highlighter.Alike .standard)
    (hstate : session.registry.get? (session.files.key editor.path) = none)
    (hpartial : editor.Partial) :
    ∃ last events, session.perform 0 .runPending = (.count 0, last, events) ∧
      last.editors[0]? = some { editor with pending := [] } ∧ last.files = session.files ∧
      last.registry = session.registry := by
  obtain ⟨after, events, hrun⟩ :=
    Editor.runPending_partial hpartial hstandard.enabled hstate
  have hsession : ({ session with highlighter := after } : Session).editors[0]? = some editor :=
    heditor
  refine ⟨_, events, ?_, editors_setEditor_self hsession { editor with pending := [] }, rfl, rfl⟩
  rw [perform, heditor]
  dsimp only [runEditor]
  rw [hrun]
  rfl

theorem Stands.run (h : session.Stands editor standing)
    (heditor : session.editors[0]? = some editor) (hstandard : session.highlighter.Alike .standard)
    (hfits : ∀ editor : Editor, (session.perform 0 .runPending).2.1.editors[0]? = some editor →
      editor.buffer.text.Fits) :
    ∃ next : Editor, (session.perform 0 .runPending).2.1.editors[0]? = some next ∧
      (session.perform 0 .runPending).2.1.Stands next (standing.next .runPending) := by
  have hon := hstandard.enabled
  have htracks (htracked : session.Tracked 0) : (session.perform 0 .runPending).2.1.Tracked 0 :=
    htracked.step hon (.own .runPending rfl hfits)
  have hshows (htracked : session.Tracked 0) : ∃ buffer,
      (session.perform 0 .runPending).2.1.editors[0]? =
        some { editor with pending := [], buffer := buffer } := by
    obtain ⟨_, buffer, heditor', -, hshown, -⟩ := perform_run htracked hon
    obtain rfl := Option.some.inj (heditor.symm.trans heditor')
    exact ⟨buffer, hshown⟩
  have hfiles : (session.perform 0 .runPending).2.1.files = session.files := by
    rw [perform, heditor]
    rfl
  have hregistry (key : FileKey) (hne : key ≠ session.files.key editor.path) :
      (session.perform 0 .runPending).2.1.registry.get? key = session.registry.get? key := by
    refine perform_registry (fun hkey => hne ?_) .runPending
    rw [key?, heditor, Option.map_some] at hkey
    exact (Option.some.inj hkey).symm
  have hruns (hfile : ∀ entry, session.files.key editor.path ≠ .file entry)
      (hothers : ∀ key, key ≠ session.files.key editor.path → session.registry.get? key = none)
      (htracked : session.Tracked 0) :
      ∃ next : Editor, (session.perform 0 .runPending).2.1.editors[0]? = some next ∧
        (session.perform 0 .runPending).2.1.Stands next .shown := by
    obtain ⟨buffer, hshown⟩ := hshows htracked
    refine ⟨_, hshown, .shown (hfiles ▸ hfile) (fun key hne => ?_) (Editor.partial_of_nil rfl)
      (htracks htracked)⟩
    rw [hregistry key (hfiles ▸ hne)]
    exact hothers key (hfiles ▸ hne)
  cases h with
  | fresh hfile hempty hwhole htracked => exact hruns hfile (fun key _ => hempty key) htracked
  | shown hfile hothers hpartial htracked => exact hruns hfile hothers htracked
  | filed entry hfile htracked =>
    obtain ⟨buffer, hshown⟩ := hshows htracked
    exact ⟨_, hshown, .filed entry (hfiles ▸ hfile) (htracks htracked)⟩
  | lost entry hfile hstate hpartial =>
    obtain ⟨last, events, hperform, hshown, hfiles', hregistry'⟩ :=
      perform_lost heditor hstandard (hfile ▸ hstate) hpartial
    rw [hperform]
    exact ⟨_, hshown,
      .lost entry (hfiles' ▸ hfile) (hregistry' ▸ hstate) (Editor.partial_of_nil rfl)⟩

/-- A save puts the file where it was, or where there was none. -/
theorem perform_save (heditor : session.editors[0]? = some editor)
    (hdone : (session.perform 0 .save).1 = .done) :
    ∃ files entry, session.perform 0 .save = (.done,
        { session with files := files }.setEditor 0 { editor with modified := false }, []) ∧
      files.key editor.path = .file entry ∧
      ∀ earlier, session.files.key editor.path = .file earlier → earlier = entry := by
  rw [perform, heditor] at hdone ⊢
  dsimp only [saveEditor] at hdone ⊢
  cases hwrite : session.files.write editor.path (.text editor.buffer.text) with
  | error e =>
    rw [hwrite] at hdone
    cases hdone
  | ok files =>
    obtain ⟨entry, hfile, hsame⟩ := Files.key_write hwrite
    exact ⟨files, entry, rfl, hfile, hsame⟩

theorem Stands.save (h : session.Stands editor standing)
    (heditor : session.editors[0]? = some editor)
    (hdone : (session.perform 0 .save).1 = .done) :
    ∃ next : Editor, (session.perform 0 .save).2.1.editors[0]? = some next ∧
      (session.perform 0 .save).2.1.Stands next (standing.next .save) := by
  obtain ⟨files, entry, hperform, hfile, hsame⟩ := perform_save heditor hdone
  have hwritten : ({ session with files := files } : Session).editors[0]? = some editor := heditor
  have hshown := editors_setEditor_self hwritten { editor with modified := false }
  rw [hperform]
  refine ⟨_, hshown, ?_⟩
  cases h with
  | fresh hfile' hempty hwhole htracked =>
    obtain ⟨_, base, heditor', hbase, hqueued, -⟩ := htracked
    obtain rfl := Option.some.inj (heditor.symm.trans heditor')
    exact .filed entry hfile ⟨_, base, hshown, hbase, hqueued, .inr hwhole⟩
  | shown hfile' hothers hpartial htracked =>
    -- the one stored state stays under the spelling, where the path no longer leads
    exact .lost entry hfile (hothers _ fun hkey => hfile' entry hkey.symm) hpartial
  | filed earlier hearlier htracked =>
    obtain rfl := hsame earlier hearlier
    obtain ⟨_, base, heditor', hbase, hqueued, hready⟩ := htracked
    obtain rfl := Option.some.inj (heditor.symm.trans heditor')
    refine .filed earlier hfile ⟨_, base, hshown, hbase, hqueued, ?_⟩
    rw [state?_eq heditor, hearlier] at hready
    rw [state?_eq hshown]
    show Highlighted _ _ (session.registry.get? (files.key editor.path)) ∨ _
    rw [hfile]
    exact hready
  | lost earlier hearlier hstate hpartial =>
    obtain rfl := hsame earlier hearlier
    exact .lost earlier hfile hstate hpartial

theorem perform_openFile {path : String} {text : Text}
    (heditor : session.editors[0]? = some editor) (hread : session.files.read path = .ok text) :
    (session.perform 0 (.openFile path)).2.1 =
      session.setEditor 0 (editor.opened path text).1 := by
  rw [perform, heditor]
  dsimp only [openEditor]
  rw [hread]

theorem stands_idle (hempty : session.registry = {})
    (hwhole : ∃ text rest, editor.pending = .entire text :: rest) (htracked : session.Tracked 0) :
    session.Stands editor (.ofKey (session.files.key editor.path)) := by
  have hnone (key : FileKey) : session.registry.get? key = none := by rw [hempty]; rfl
  cases hkey : session.files.key editor.path with
  | file entry => exact .filed entry hkey htracked
  | folder folder => exact .fresh (by rw [hkey]; nofun) hnone hwhole htracked
  | spelled absolute dotted names => exact .fresh (by rw [hkey]; nofun) hnone hwhole htracked

theorem stands_begun (hbegun : Begun start) :
    ∃ editor : Editor, start.editors[0]? = some editor ∧ start.highlighter.Alike .standard ∧
      start.Stands editor (.ofKey (start.files.key editor.path)) := by
  cases hbegun with
  | new files settings =>
    exact ⟨_, rfl, .refl _, stands_idle rfl ⟨_, _, rfl⟩ (tracked_newEditor _ settings)⟩
  | @opened files settings path text hread hfits =>
    have hfirst : (({ files := files } : Session).newEditor settings).editors[0]? =
        some (.new settings (Editor.untitledPath 1)) := rfl
    rw [perform_openFile hfirst hread]
    have hshown := editors_setEditor_self hfirst
      ((Editor.new settings (Editor.untitledPath 1)).opened path text).1
    have hqueued : Queued (.ofText text) [.entire text] (.ofText text) := .entire (.nil _)
    exact ⟨_, hshown, .refl _, stands_idle rfl ⟨_, _, rfl⟩
      ⟨_, .ofText text, hshown, hfits, hqueued, .inr ⟨_, _, rfl⟩⟩⟩

theorem stands_of_leadsTo {actions : List Action} (hbegun : Begun start)
    (h : start.LeadsTo actions session) {first : Editor} (hfirst : start.editors[0]? = some first) :
    ∃ editor : Editor, session.editors[0]? = some editor ∧ session.highlighter.Alike .standard ∧
      session.Stands editor ((Standing.ofKey (start.files.key first.path)).after actions) := by
  induction h with
  | refl =>
    obtain ⟨editor, heditor, hstandard, hstands⟩ := stands_begun hbegun
    obtain rfl := Option.some.inj (heditor.symm.trans hfirst)
    exact ⟨editor, heditor, hstandard, hstands⟩
  | @tail actions session _ action haction hsaved hfits ih =>
    obtain ⟨editor, heditor, hstandard, hstands⟩ := ih
    have hnext := (perform_highlighter session 0 action).trans hstandard
    rw [Standing.after, List.foldl_append, List.foldl_cons, List.foldl_nil, ← Standing.after]
    obtain hchanges | rfl | rfl := haction
    · obtain ⟨next, hshown, hstands'⟩ := hstands.edit heditor hstandard hchanges hfits
      rw [Standing.next_of_changes hchanges]
      exact ⟨next, hshown, hnext, hstands'⟩
    · obtain ⟨next, hshown, hstands'⟩ := hstands.save heditor (hsaved rfl)
      exact ⟨next, hshown, hnext, hstands'⟩
    · obtain ⟨next, hshown, hstands'⟩ := hstands.run heditor hstandard hfits
      exact ⟨next, hshown, hnext, hstands'⟩

/-- Saving under the same path, and highlighting. A state is lost if the path had no file's key at
the start and the first save came after a run. A run then does nothing but drop the tasks, and no
state is stored for the file. In all other cases a run leaves the styles and the regions that
highlighting the whole text gives. If the file could be read at the start, its state is never lost.
-/
theorem runPending_after_saving {actions : List Action} (hbegun : Begun start)
    (hleads : start.LeadsTo actions session) {first : Editor}
    (hfirst : start.editors[0]? = some first) :
    let lost := (∀ entry, start.files.key first.path ≠ .file entry) ∧
      .save ∈ actions ∧ .runPending ∈ actions.takeWhile (· ≠ .save)
    let ran := session.perform 0 .runPending
    ((∃ text, start.files.read first.path = .ok text) → ¬ lost) ∧
      ∃ before after : Editor,
        session.editors[0]? = some before ∧ ran.2.1.editors[0]? = some after ∧
        after.pending = [] ∧ after.buffer.text = before.buffer.text ∧
        (lost → ran.1 = .count 0 ∧ after.buffer.styles = before.buffer.styles ∧
          ran.2.1.state? 0 = none) ∧
        (¬ lost → ran.1 = .count before.pending.length ∧
          ∃ state, ran.2.1.state? 0 = some state ∧
            after.buffer.styles = (Highlighter.standard.highlightEntire after.buffer.text {}
              (.ofText after.buffer.text)).buffer.styles ∧
            state.regions = (Highlighter.standard.highlightEntire after.buffer.text {}
              (.ofText after.buffer.text)).state.regions) := by
  intro lost ran
  obtain ⟨before, hbefore, hstandard, hstands⟩ := stands_of_leadsTo hbegun hleads hfirst
  have hiff := Standing.after_eq_lost_iff (start.files.key first.path) actions
  refine ⟨?_, ?_⟩
  · rintro ⟨text, hread⟩ hlost
    obtain ⟨entry, hkey⟩ := Files.key_read hread
    exact hlost.1 entry hkey
  by_cases hlost : lost
  · rw [hiff.2 hlost] at hstands
    cases hstands with
    | lost entry hfile hstate hpartial =>
      obtain ⟨last, events, hperform, hshown, hfiles, hregistry⟩ :=
        perform_lost hbefore hstandard (hfile ▸ hstate) hpartial
      have hran : ran = _ := hperform
      rw [hran]
      refine ⟨before, _, hbefore, hshown, rfl, rfl, fun _ => ⟨rfl, rfl, ?_⟩,
        fun hkept => absurd hlost hkept⟩
      show last.state? 0 = none
      rw [state?_eq hshown, hfiles, hregistry]
      exact hfile ▸ hstate
  · have hon := hstandard.enabled
    obtain ⟨_, buffer, hbefore', hcount, hafter, htext, -, hall⟩ :=
      perform_run (hstands.tracked fun h => hlost (hiff.1 h)) hon
    obtain rfl := Option.some.inj (hbefore.symm.trans hbefore')
    rw [hstandard.rules] at hall
    obtain ⟨state, hstate, -, hstyles, hregions⟩ := hall.eq_highlightEntire
    exact ⟨before, _, hbefore, hafter, rfl, htext, fun h => absurd h hlost,
      fun _ => ⟨hcount, state, hstate, hstyles, hregions⟩⟩

theorem fits_of_all
    (h : (session.editors[0]?.all fun editor : Editor => decide editor.buffer.text.Fits) = true)
    (editor : Editor) (heditor : session.editors[0]? = some editor) : editor.buffer.text.Fits := by
  rw [heditor] at h
  exact of_decide_eq_true h

/-- A word is typed after a new editor was saved and run. -/
theorem runPending_after_saving_typed :
    ∃ session, (({} : Session).newEditor {}).LeadsTo
      [.save, .runPending, .insert 0 ['t', 'r', 'u', 'e']] session ∧
      (session.perform 0 .runPending).1 = .count 1 := by
  have hstart : (({} : Session).newEditor {}).LeadsTo [] _ := .refl
  have hsaved := hstart.tail .save (.inr (.inl rfl)) (fun _ => by decide +kernel)
    (fits_of_all (by decide +kernel))
  have hshown := hsaved.tail .runPending (.inr (.inr rfl)) nofun (fits_of_all (by decide +kernel))
  have htyped := hshown.tail (.insert 0 ['t', 'r', 'u', 'e']) (.inl rfl) nofun
    (fits_of_all (by decide +kernel))
  refine ⟨_, htyped, ?_⟩
  obtain ⟨-, before, after, hbefore, -, -, -, -, hkept⟩ :=
    runPending_after_saving (.new {} {}) htyped rfl
  obtain ⟨hcount, -⟩ := hkept fun hlost => absurd hlost.2.2 (by decide)
  have hlength := congrArg (Option.map fun editor => editor.pending.length) hbefore
  have hone : before.pending.length = 1 :=
    Option.some.inj (hlength.symm.trans (by decide +kernel))
  rw [hcount, hone]

/-- A word is typed after a new editor was run and then saved. The state is stored where the path no
longer leads, and the word is left without a style. -/
theorem exists_run_unstyled : ∃ session, (({} : Session).newEditor {}).LeadsTo
      [.runPending, .save, .insert 0 ['t', 'r', 'u', 'e']] session ∧
    (session.perform 0 .runPending).1 = .count 0 ∧
    (session.perform 0 .runPending).2.1.editors[0]?.map
        (fun editor : Editor => editor.buffer.styles) =
      some [.default, .default, .default, .default] ∧
    (Highlighter.standard.highlightEntire ['t', 'r', 'u', 'e'] {}
      (.ofText ['t', 'r', 'u', 'e'])).buffer.styles = [.boolean, .boolean, .boolean, .boolean] := by
  have hstart : (({} : Session).newEditor {}).LeadsTo [] _ := .refl
  have hshown := hstart.tail .runPending (.inr (.inr rfl)) nofun (fits_of_all (by decide +kernel))
  have hsaved := hshown.tail .save (.inr (.inl rfl)) (fun _ => by decide +kernel)
    (fits_of_all (by decide +kernel))
  have htyped := hsaved.tail (.insert 0 ['t', 'r', 'u', 'e']) (.inl rfl) nofun
    (fits_of_all (by decide +kernel))
  exact ⟨_, htyped, by decide +kernel, by decide +kernel, by decide +kernel⟩

end Session
end LiveHighlight

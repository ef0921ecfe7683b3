import ChipSettings.Proofs.App.Edits
import ChipSettings.Proofs.App.Frame
import ChipSettings.Proofs.Document.Truncation
import ChipSettings.Proofs.Form.Agreement

/-! # Documents That Leave the Dialog

  OK and Export write the form to a file and say so in the log.

  - `SaysWritten.document`: a press that says so has committed a form that passed the gate, and
    the file holds the document of what was committed.
  - `written_inRange`: over every run in which edits are left, all values that are written are
    in range or those that were loaded at the start. `written_loaded` is a run that writes a
    loaded value which is out of range.
-/

namespace ChipSettings.App

open Files

variable {a : App} {b : Button} {picked : Option String} {path : Path}

/-! ## Presses That Write -/

/-- A press that says that it wrote a file adds information to the log. -/
theorem SaysWritten.log_eq (h : a.SaysWritten b picked path) :
    ∃ message, (a.perform (.press b picked)).app.log = a.log ++ [⟨.info, message⟩] := by
  cases b with
  | accept => exact ⟨_, h.2⟩
  | exportFile => exact ⟨_, h.2⟩
  | importFile => exact h.elim
  | cancel => exact h.elim

/-- A press that says that it wrote a file was carried out. -/
theorem SaysWritten.perform_eq (h : a.SaysWritten b picked path) :
    ∃ form, a.dialog.form = some form ∧
      (a.perform (.press b picked)).app = a.press form b picked := by
  obtain ⟨message, hlog⟩ := h.log_eq
  rcases a.perform_press b picked with hsame | ⟨form, hopen, -, hperform⟩
  · -- a press without effect leaves the log as it is
    rw [hsame] at hlog
    exact absurd (List.self_eq_append_right.1 hlog) (by simp)
  · exact ⟨form, hopen, hperform⟩

/-- The profile that a button commits the form into. -/
def base (a : App) : Button → Profile
  | .accept => a.current
  | _ => .default

/-- A press that says that it wrote a file has committed a form that passed the gate, and the
    file holds the document of what was committed. -/
theorem SaysWritten.document (h : a.SaysWritten b picked path) :
    ∃ form text, a.dialog.form = some form ∧ form.editor.canCommit = true ∧
      a.store.codec.serialize (form.editor.commitInto (a.base b)) = .ok text ∧
      (a.perform (.press b picked)).app.files.find? path = some (.file text.toUTF8) := by
  obtain ⟨form, hopen, hperform⟩ := h.perform_eq
  obtain ⟨message, hlog⟩ := h.log_eq
  obtain ⟨a', hpress, hpressed⟩ := a.pressed form b picked
  rw [hperform, hpress] at hlog ⊢
  -- failures are not logged as information
  have hinfo {what : String} {error : SettingsError} {files : FileTree}
      (hreported : (a.reported form what error files).log = a.log ++ [⟨.info, message⟩]) :
      False := by
    have hentry := List.append_cancel_left hreported
    cases congrArg (List.map LogEntry.kind) hentry
  cases hpressed with
  | cancelled picked => exact h.elim
  | saved picked q files haccept =>
    obtain ⟨hgate, rfl, hpersist⟩ := Editor.accept_ok haccept
    obtain ⟨text, hserialize, hfile⟩ := Store.file_of_persistCurrent hpersist
    obtain rfl := h.1
    exact ⟨form, text, hopen, hgate, hserialize, hfile⟩
  | saveFailed picked error files haccept => exact (hinfo hlog).elim
  | unpicked b hfile =>
    rcases hfile with rfl | rfl
    · exact h.elim
    · cases h.1
  | exported picked files hexport =>
    obtain ⟨hgate, hwritten⟩ := Editor.exportTo_ok hexport
    obtain ⟨text, hserialize, hfile⟩ := Store.file_of_exportTo hwritten
    obtain rfl := Option.some.inj h.1
    exact ⟨form, text, hopen, hgate, hserialize, hfile⟩
  | exportFailed picked error hexport => exact (hinfo hlog).elim
  | imported picked e himport => exact h.elim
  | importFailed picked error himport => exact h.elim

/-- The document that such a press wrote is read back as a profile with the committed values. -/
theorem SaysWritten.values (hxml : a.store.codec = .xml) (h : a.SaysWritten b picked path) :
    ∃ form text q, a.dialog.form = some form ∧ form.editor.canCommit = true ∧
      (a.perform (.press b picked)).app.files.find? path = some (.file text.toUTF8) ∧
      Codec.xml.deserialize text = .ok q ∧
      ∀ f : Field, f.SameValue q (form.editor.commitInto (a.base b)) := by
  obtain ⟨form, text, hopen, hgate, hserialize, hfile⟩ := h.document
  rw [hxml] at hserialize
  obtain rfl : String.ofList (Document.write (form.editor.commitInto (a.base b))) = text :=
    Except.ok.inj hserialize
  exact ⟨form, _, _, hopen, hgate, hfile, Document.deserialize_write _,
    fun f => Document.sameValue_readBack f _⟩

/-! ## Forms That Were Not Edited -/

/-- A form that is accepted as it was opened writes the current values again. -/
theorem saysWritten_unedited {files : FileTree} (hclosed : a.dialog.form = none)
    (hxml : a.store.codec = .xml)
    (hpersist : a.store.persistCurrent a.files
      ((Editor.ofProfile a.current).commitInto a.current) = (.ok (), files)) :
    (a.run [.runCommand .settings]).SaysWritten .accept none a.store.currentPath ∧
      ∃ text q, ((a.run [.runCommand .settings]).perform (.press .accept none)).app.files.find?
          a.store.currentPath = some (.file text.toUTF8) ∧
        Codec.xml.deserialize text = .ok q ∧ ∀ f : Field, f.SameValue q a.current := by
  have hshut : a.dialog.isOpen = false := by
    rw [Dialog.isOpen, hclosed]
    rfl
  -- opening the dialog changes the dialog and the log, and nothing else
  have hrun : a.run [.runCommand .settings] =
      { a.say .command Command.settings.name with dialog := a.dialog.openOn a.current } := by
    show a.runCommand .settings = _
    unfold runCommand
    simp only [say, hshut, Bool.false_eq_true, if_false]
  rw [hrun]
  generalize hopened : ({ a.say .command Command.settings.name with
    dialog := a.dialog.openOn a.current } : App) = opened
  have hform : opened.dialog.form = some ⟨.ofProfile a.current, none, none⟩ := by
    rw [← hopened]
    rfl
  have hsame : opened.store = a.store ∧ opened.current = a.current ∧ opened.files = a.files := by
    rw [← hopened]
    exact ⟨rfl, rfl, rfl⟩
  obtain ⟨hstore, hcurrent, hfiles⟩ := hsame
  rw [← hstore, ← hcurrent, ← hfiles] at hpersist
  rw [← hcurrent] at hform
  rw [← hstore] at hxml
  have hreport : opened.SaysWritten .accept none opened.store.currentPath :=
    saysWritten_of_accept hform (Editor.accept_of_canCommit rfl hpersist)
  obtain ⟨form, text, q, hform', -, hfile, hread, hvalues⟩ := hreport.values hxml
  obtain rfl := Option.some.inj (hform.symm.trans hform')
  rw [← hstore, ← hcurrent]
  refine ⟨hreport, text, q, hfile, hread, fun f => ?_⟩
  exact (hvalues f).trans (Editor.sameValue_commitInto_ofProfile opened.current f)

/-- A profile that was kept in a file is written again with its values, if the dialog is opened
    after the start and accepted at once. -/
theorem written_of_treeOfFile (started : Timestamp) {p : Profile}
    (hback : Document.readBack p = p) :
    let start := App.start (.atPath ⟨"f"⟩) started
      (Store.treeOfFile ['f'] (String.ofList (Document.write p)).toUTF8)
    (start.run [.runCommand .settings]).SaysWritten .accept none ⟨"f"⟩ ∧
      ∃ text q, ((start.run [.runCommand .settings]).perform
          (.press .accept none)).app.files.find? ⟨"f"⟩ = some (.file text.toUTF8) ∧
        Codec.xml.deserialize text = .ok q ∧ ∀ f : Field, f.SameValue q p := by
  intro start
  have hread : Codec.xml.deserialize (String.ofList (Document.write p)) = .ok p := by
    rw [Document.deserialize_write, hback]
  have hload : (Store.atPath ⟨"f"⟩).loadCurrent start.files = .ok p :=
    Store.loadCurrent_of_text rfl hread
  have hloaded : start.current = p := by
    show (Store.atPath ⟨"f"⟩).loadOrDefault start.files = p
    exact Store.loadOrDefault_of_loadCurrent hload
  have hpersist (content : ByteArray) (q : Profile) : ∃ files,
      (Store.atPath ⟨"f"⟩).persistCurrent (Store.treeOfFile ['f'] content) q =
        (.ok (), files) := ⟨_, rfl⟩
  obtain ⟨files, hpersist⟩ := hpersist (String.ofList (Document.write p)).toUTF8
    ((Editor.ofProfile start.current).commitInto start.current)
  rw [← hloaded]
  exact saysWritten_unedited rfl rfl hpersist

/-! ## Values That Leave the Dialog -/

/-- A text that validates is left without a complaint. -/
theorem leaveField_of_valid {form : Form} {f : Field}
    (hvalid : f.validate (form.editor.texts f) = .valid) :
    a.leaveField form f = a.setForm (form.leaveField f) := by
  have hverdict : (form.leaveField f).editor.verdicts f = .valid :=
    (Editor.verdicts_leaveField_self _ _).trans hvalid
  have hcomplaint : (form.leaveField f).complaint? f = none := by
    rw [Form.complaint?, hverdict]
    rfl
  unfold leaveField
  simp only [hcomplaint]

/-- What a form is committed into is in range or holds values of the profile. -/
theorem Guarded.inRangeOr_base {p : Profile} {edited : Field → Bool} (h : a.Guarded p edited)
    (b : Button) : p.InRangeOr (a.base b) := by
  have hdefault : p.InRangeOr .default :=
    fun f => .inl (Profile.inRange_iff.1 Profile.inRange_default f)
  cases b with
  | accept => exact h.current
  | importFile => exact hdefault
  | exportFile => exact hdefault
  | cancel => exact hdefault

/-- **No settings out of range leave the dialog**, apart from those that were there at the
    start. In every run in which edits are left before a press that writes the form, whatever
    an OK or an Export says to have written is a document that holds in each field a value in
    range or the value that was loaded at the start. So if the loaded profile is in range, all that
    is written is. -/
theorem written_inRange (fixed : Path) (started : Timestamp) (files : FileTree)
    (before after : List Gesture) (b : Button) (picked : Option String) (path : Path)
    (hleft : (App.start (.atPath fixed) started files).EditsLeft (fun _ => false)
      (before ++ .press b picked :: after))
    (hreport : ((App.start (.atPath fixed) started files).run before).SaysWritten b picked path) :
    ∃ text q,
      (((App.start (.atPath fixed) started files).run before).perform
        (.press b picked)).app.files.find? path = some (.file text.toUTF8) ∧
      Codec.xml.deserialize text = .ok q ∧
      (∀ f : Field, f.InRange q ∨ f.SameValue q ((Store.atPath fixed).loadOrDefault files)) ∧
      (((Store.atPath fixed).loadOrDefault files).InRange → q.InRange) := by
  generalize hloaded : (Store.atPath fixed).loadOrDefault files = loaded
  have hstart := Guarded.start (.atPath fixed) started files
  rw [hloaded] at hstart
  -- the invariant holds where the button is pressed, and no edit is pending there
  obtain ⟨edited, hguarded, hpending⟩ := hstart.run hleft
  have hxml : ((App.start (.atPath fixed) started files).run before).store.codec = .xml := by
    rw [store_run]
    rfl
  obtain ⟨form, text, q, hopen, hgate, hfile, hread, hsame⟩ := hreport.values hxml
  -- what was committed is in range or loaded, and the document gives it back
  have hcommitted := hguarded.inRangeOr_commitInto hopen (hpending ⟨b, picked, path, rfl, hreport⟩) hgate
    (hguarded.inRangeOr_base b)
  have hvalues (f : Field) : f.InRange q ∨ f.SameValue q loaded := by
    rcases hcommitted f with hrange | hvalue
    · exact .inl ((hsame f).inRange_iff.2 hrange)
    · exact .inr ((hsame f).trans hvalue)
  refine ⟨text, q, hfile, hread, hvalues, fun hinRange => Profile.inRange_iff.2 fun f => ?_⟩
  rcases hvalues f with hrange | hvalue
  · exact hrange
  · exact hvalue.inRange_iff.2 (Profile.inRange_iff.1 hinRange f)

/-- A resolution is typed, left by Enter and accepted, where nothing was kept before. -/
theorem written_inRange_typed :
    let started : Timestamp := ⟨2025, 1, 31, 12, 0, 0⟩
    let a := (App.start (.atPath ⟨"f"⟩) started .empty).run
      [.runCommand .settings, .chooseTab .routing,
        .typeInto (.field (.measure .resolution)) "0.5" true]
    ∃ text q, (a.perform (.press .accept none)).app.files.find? ⟨"f"⟩ =
        some (.file text.toUTF8) ∧ Codec.xml.deserialize text = .ok q ∧ q.InRange := by
  intro started a
  -- the application while the text is in its box, and once it is left
  let opened : App := { App.start (.atPath ⟨"f"⟩) started .empty with
    dialog := ⟨.routing, none⟩
    log := (App.start (.atPath ⟨"f"⟩) started .empty).log ++
      [⟨.command, Command.settings.name⟩] }
  let typed : Form := ⟨(Editor.ofProfile .default).setText (.measure .resolution) "0.5", none,
    some (.field (.measure .resolution))⟩
  have hvalid : (Field.measure .resolution).validate
      (typed.editor.texts (.measure .resolution)) = .valid := by
    rw [Editor.texts_setText_self]
    decide +kernel
  have ha : a = opened.setForm (typed.leaveField (.measure .resolution)) := by
    show (opened.setForm typed).leaveField typed (.measure .resolution) = _
    rw [leaveField_of_valid hvalid]
    rfl
  have hgate : (typed.leaveField (.measure .resolution)).editor.canCommit = true := by
    rw [Editor.canCommit_iff]
    intro f
    by_cases hf : f = .measure .resolution
    · rw [hf]
      exact (Editor.verdicts_leaveField_self _ _).trans hvalid
    · exact Editor.verdicts_leaveField_of_ne _ hf
  have hpersist (p : Profile) : ∃ t', (Store.atPath ⟨"f"⟩).persistCurrent .empty p =
      (.ok (), t') := ⟨_, rfl⟩
  obtain ⟨t', hpersist⟩ :=
    hpersist ((typed.leaveField (.measure .resolution)).editor.commitInto .default)
  have hreport : a.SaysWritten .accept none ⟨"f"⟩ := by
    rw [ha]
    exact saysWritten_of_accept rfl (Editor.accept_of_canCommit hgate hpersist)
  have henter : ∀ g ∈ [Gesture.runCommand .settings, .chooseTab .routing,
      .typeInto (.field (.measure .resolution)) "0.5" true, .press .accept none],
      g.EndsWithEnter := by
    simp [Gesture.EndsWithEnter]
  obtain ⟨text, q, hfile, hread, -, hrange⟩ :=
    written_inRange ⟨"f"⟩ started .empty _ [] .accept none ⟨"f"⟩
      (editsLeft_of_endsWithEnter henter fun _ => rfl) hreport
  exact ⟨text, q, hfile, hread, hrange Profile.inRange_default⟩

/-- An accept without any edit keeps the loaded values, even those out of range: a document
    with a punch of no size is written again. -/
theorem written_loaded :
    let started : Timestamp := ⟨2025, 1, 31, 12, 0, 0⟩
    let p := { Profile.default with punchRadius := .finite false .zero }
    let files := Store.treeOfFile ['f'] (String.ofList (Document.write p)).toUTF8
    let a := (App.start (.atPath ⟨"f"⟩) started files).run [.runCommand .settings]
    (App.start (.atPath ⟨"f"⟩) started files).EditsLeft (fun _ => false)
        [.runCommand .settings, .press .accept none] ∧
      a.SaysWritten .accept none ⟨"f"⟩ ∧
      ∃ text q, (a.perform (.press .accept none)).app.files.find? ⟨"f"⟩ =
          some (.file text.toUTF8) ∧
        Codec.xml.deserialize text = .ok q ∧ ¬ q.InRange := by
  intro started p files a
  have hback : Document.readBack p = p := by
    apply Document.readBack_eq_self
    intro k
    cases k with
    | flow => exact Document.isForeignLineEnd_of_all rfl
    | control => exact Document.isForeignLineEnd_of_all rfl
  obtain ⟨hreport, text, q, hfile, hread, hsame⟩ := written_of_treeOfFile started hback
  have henter : ∀ g ∈ [Gesture.runCommand .settings, .press .accept none],
      g.EndsWithEnter := by
    simp [Gesture.EndsWithEnter]
  refine ⟨editsLeft_of_endsWithEnter henter fun _ => rfl, hreport, text, q, hfile, hread, ?_⟩
  intro hrange
  -- the radius that was loaded is the one that was written
  have hradius := (hsame (.measure .punchRadius)).inRange_iff.1 (Profile.inRange_iff.1 hrange _)
  cases hradius.2 rfl

end ChipSettings.App

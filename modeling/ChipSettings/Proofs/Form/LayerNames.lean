import ChipSettings.Proofs.Form.Exchange

/-! # Where Layer Names Come From

  A layer is listed because a profile that filled the form has it, or because somebody added it.
  What is added has been trimmed and is no blank name, but nobody looks at the names of a profile.

  - `Text.NonBlank`: a name that is not empty once it is trimmed.
  - `Checklist.GrownFrom names`: the list holds some names, and behind them added ones that are
    not blank. Each operation keeps this for the profile that filled the form last
    (`grownFrom_perform`), so that every run does (`grownFrom_run`).
  - `blank_names_of_source`: so a blank name that is written was one of that profile.
-/

namespace ChipSettings

open Files

/-! ## Names That Are Not Blank -/

namespace Text

variable {class? : Char → Bool} {c : Char} {cs : List Char} {name : String}

/-- Trimming keeps what is not of the class. -/
theorem mem_trimBoth (hc : c ∈ cs) (h : class? c = false) : c ∈ trimBoth class? cs := by
  have hkeep {ds : List Char} (hd : c ∈ ds) : c ∈ ds.dropWhile class? := by
    rw [← List.takeWhile_append_dropWhile (p := class?) (l := ds)] at hd
    rcases List.mem_append.1 hd with hfront | hbehind
    · rw [List.mem_takeWhile_imp hfront] at h
      cases h
    · exact hbehind
  rw [trimBoth, trimRight, List.mem_reverse]
  exact hkeep (List.mem_reverse.2 (hkeep hc))

/-- The name is not empty when it is trimmed. -/
def NonBlank (name : String) : Prop := trim name ≠ ""

instance (name : String) : Decidable (NonBlank name) := inferInstanceAs (Decidable (_ ≠ _))

/-- There is something else than blanks in such a name. -/
theorem nonBlank_iff : NonBlank name ↔ ∃ c ∈ name.toList, isBlank c = false := by
  rw [NonBlank, Ne, ← String.toList_inj, toList_trim]
  constructor
  · intro hne
    by_contra hnone
    refine hne ?_
    have hall : name.toList.dropWhile isBlank = [] :=
      List.dropWhile_eq_nil_iff.2 fun c hc =>
        Bool.not_eq_false _ ▸ fun hblank => hnone ⟨c, hc, hblank⟩
    rw [trimBoth, hall]
    rfl
  · rintro ⟨c, hc, hblank⟩ hnil
    have hmem := mem_trimBoth hc hblank
    rw [hnil] at hmem
    cases hmem

/-- Trimming a name leaves what is not blank. -/
theorem NonBlank.trim (h : NonBlank name) : NonBlank (trim name) := by
  obtain ⟨c, hc, hblank⟩ := nonBlank_iff.1 h
  refine nonBlank_iff.2 ⟨c, ?_, hblank⟩
  rw [toList_trim]
  exact mem_trimBoth hc hblank

end Text

open Text

/-- The layer names are as they should be: none of them is blank. -/
def Profile.NamesNonBlank (p : Profile) : Prop := ∀ k, ∀ name ∈ p.layers k, NonBlank name

/-! ## Lists That Grow -/

namespace Checklist

/-- The list holds the names, and behind them added ones that are not blank. -/
def GrownFrom (c : Checklist) (names : List String) : Prop :=
  ∃ added, c.items.map (·.name) = names ++ added ∧ ∀ name ∈ added, NonBlank name

variable {c c' : Checklist} {names : List String}

theorem names_ofNames (names : List String) : (ofNames names).items.map (·.name) = names := by
  rw [ofNames, List.map_map]
  exact List.map_id names

theorem grownFrom_ofNames (names : List String) : (ofNames names).GrownFrom names := by
  refine ⟨[], ?_, nofun⟩
  rw [names_ofNames, List.append_nil]

theorem GrownFrom.setPending (h : c.GrownFrom names) (text : String) :
    (c.setPending text).GrownFrom names := h

/-- A name that is not blank is added, and checked. -/
theorem addPending?_of_nonBlank (h : NonBlank c.pending) :
    c.addPending? = some ⟨c.items ++ [⟨trim c.pending, true⟩], ""⟩ := by
  have hname : c.pendingName.isEmpty = false := by
    rw [Bool.eq_false_iff, Ne, String.isEmpty_iff]
    exact h
  rw [Checklist.addPending?, hname]
  rfl

/-- No other name is added. -/
theorem addPending?_eq_none_iff : c.addPending? = none ↔ ¬ NonBlank c.pending := by
  constructor
  · intro hnone h
    rw [addPending?_of_nonBlank h] at hnone
    cases hnone
  · intro h
    have hname : c.pendingName.isEmpty = true := by
      rw [String.isEmpty_iff]
      exact not_not.1 h
    rw [Checklist.addPending?, hname]
    rfl

/-- Only a name that is not blank is added. -/
theorem GrownFrom.addPending? (h : c.GrownFrom names) (hadd : c.addPending? = some c') :
    c'.GrownFrom names := by
  obtain ⟨added, hnames, hadded⟩ := h
  have hbox : NonBlank c.pending := by
    by_contra hblank
    rw [addPending?_eq_none_iff.2 hblank] at hadd
    cases hadd
  rw [addPending?_of_nonBlank hbox] at hadd
  cases hadd
  refine ⟨added ++ [Text.trim c.pending], ?_, fun name hname => ?_⟩
  · rw [List.map_append, hnames, List.append_assoc]
    rfl
  · rcases List.mem_append.1 hname with hname | hname
    · exact hadded name hname
    · rw [List.mem_singleton.1 hname]
      exact hbox.trim

/-- Checking a layer changes no name. -/
theorem names_setChecked (c : Checklist) (index : Nat) (checked : Bool) :
    (c.setChecked index checked).items.map (·.name) = c.items.map (·.name) := by
  refine List.ext_getElem? fun i => ?_
  rw [Checklist.setChecked, List.getElem?_map, List.getElem?_map, List.getElem?_modify]
  cases c.items[i]? with
  | none => rfl
  | some item =>
    by_cases hindex : index = i
    · simp [hindex]
    · simp [hindex]

theorem GrownFrom.setChecked (h : c.GrownFrom names) (index : Nat) (checked : Bool) :
    (c.setChecked index checked).GrownFrom names := by
  rw [GrownFrom, names_setChecked]
  exact h

end Checklist

/-! ## Forms That Grow -/

/-- The lists hold the layers of the profile, and behind them added ones that are not blank. -/
def Editor.GrownFrom (e : Editor) (p : Profile) : Prop :=
  ∀ k, (e.checklists k).GrownFrom (p.layers k)

namespace Editor

variable {e e' : Editor} {p : Profile} {k : LayerKind}

theorem grownFrom_ofProfile (p : Profile) : (ofProfile p).GrownFrom p := fun k =>
  Checklist.grownFrom_ofNames (p.layers k)

theorem GrownFrom.setChecklist (h : e.GrownFrom p) {c : Checklist}
    (hc : c.GrownFrom (p.layers k)) : (e.setChecklist k c).GrownFrom p := by
  intro k'
  show (setAt e.checklists k c k').GrownFrom (p.layers k')
  by_cases hk : k' = k
  · rw [hk, setAt_self]
    exact hc
  · rw [setAt_of_ne _ _ hk]
    exact h k'

theorem GrownFrom.validateAll (h : e.GrownFrom p) : e.validateAll.GrownFrom p := by
  unfold GrownFrom
  rw [checklists_validateAll]
  exact h

theorem GrownFrom.addLayer? (h : e.GrownFrom p) (hadd : e.addLayer? k = some e') :
    e'.GrownFrom p := by
  obtain ⟨c, hc, rfl⟩ := Option.map_eq_some_iff.1 hadd
  exact h.setChecklist ((h k).addPending? hc)

end Editor

/-- Is the form filled from a profile? -/
def Operation.fillsForm : Operation → Bool
  | openForm => true
  | load _ => true
  | importForm _ => true
  | _ => false

namespace Session

/-- The profile that the form was last filled from, after one more operation. -/
def sourceAfter (store : Store) (s : Session) (source : Profile) : Operation → Profile
  | .openForm => s.current
  | .load p => p
  | .importForm path => match store.importFrom s.files path with
    | .ok p => p
    | .error _ => source
  | _ => source

/-- The profile that the form was last filled from, after a run. -/
def source (store : Store) (s : Session) (p : Profile) : List Operation → Profile
  | [] => p
  | operation :: operations =>
    source store (s.perform store operation).2 (s.sourceAfter store p operation) operations

/-- A form that is not filled again comes from the same profile. -/
theorem source_of_not_fillsForm (store : Store) (s : Session) (p : Profile)
    {operations : List Operation}
    (h : ∀ operation ∈ operations, operation.fillsForm = false) :
    s.source store p operations = p := by
  induction operations generalizing s with
  | nil => rfl
  | cons operation operations ih =>
    have hstep : s.sourceAfter store p operation = p := by
      have hfills := h operation List.mem_cons_self
      cases operation with
      | openForm => cases hfills
      | load q => cases hfills
      | importForm path => cases hfills
      | _ => rfl
    rw [source, hstep]
    exact ih _ fun other hother => h other (List.mem_cons_of_mem operation hother)

/-- Each operation only adds to the names of the profile that filled the form. -/
theorem grownFrom_perform (store : Store) {s : Session} {p : Profile}
    (h : s.editor.GrownFrom p) (operation : Operation) :
    (s.perform store operation).2.editor.GrownFrom (s.sourceAfter store p operation) := by
  cases operation with
  | openForm => exact Editor.grownFrom_ofProfile s.current
  | load q => exact Editor.grownFrom_ofProfile q
  | validateAll => exact h.validateAll
  | setPending k text => exact h.setChecklist ((h k).setPending text)
  | setChecked k index checked => exact h.setChecklist ((h k).setChecked index checked)
  | addLayer k =>
    unfold perform
    simp only
    split
    · next editor hadd => exact h.addLayer? hadd
    · exact h
  -- an import takes the names of the file as they are
  | importForm path =>
    have hsource : s.sourceAfter store p (.importForm path) =
      match store.importFrom s.files path with
        | .ok q => q
        | .error _ => p := rfl
    cases himport : store.importFrom s.files path with
    | ok q =>
      rw [hsource, himport, perform_importForm_of_ok himport]
      exact (Editor.grownFrom_ofProfile q).validateAll
    | error e =>
      rw [hsource, himport, perform_importForm_of_error himport]
      exact h
  -- the others leave the lists alone, whether they succeed or fail
  | accept => unfold perform; simp only; split <;> exact h
  | exportForm path => unfold perform; simp only; split <;> exact h
  | exportProfile path q => unfold perform; simp only; split <;> exact h
  | writeCurrent f text => unfold perform; simp only; split <;> exact h
  | _ => exact h

/-- So does every run. -/
theorem grownFrom_run (store : Store) (operations : List Operation) {s : Session} {p : Profile}
    (h : s.editor.GrownFrom p) :
    (s.run store operations).editor.GrownFrom (s.source store p operations) := by
  induction operations generalizing s p with
  | nil => exact h
  | cons operation operations ih => exact ih (grownFrom_perform store h operation)

end Session

/-! ## What Is Written -/

namespace Checklist

variable {c : Checklist} {names : List String} {name : String}

/-- A blank name in the list is one of those that it was filled with. -/
theorem GrownFrom.getElem?_of_blank (h : c.GrownFrom names) {item : LayerItem}
    (hitem : item ∈ c.items) (hblank : ¬ NonBlank item.name) :
    ∃ i : Nat, c.items[i]? = some item ∧ names[i]? = some item.name := by
  obtain ⟨added, hnames, hadded⟩ := h
  obtain ⟨i, hi⟩ := List.mem_iff_getElem?.1 hitem
  have hname : (names ++ added)[i]? = some item.name := by
    rw [← hnames, List.getElem?_map, hi]
    rfl
  refine ⟨i, hi, ?_⟩
  by_cases hlength : i < names.length
  · rwa [List.getElem?_append_left hlength] at hname
  · rw [List.getElem?_append_right (Nat.le_of_not_lt hlength)] at hname
    exact absurd (hadded _ (List.mem_of_getElem? hname)) hblank

theorem mem_checkedNames :
    name ∈ c.checkedNames ↔ ∃ item ∈ c.items, item.checked = true ∧ item.name = name := by
  simp [checkedNames, and_assoc]

end Checklist

namespace Editor

/-- A blank name that the form got from the profile is still checked. -/
def ShowsBlankOf (e : Editor) (p : Profile) : Prop :=
  ∃ (k : LayerKind) (i : Nat) (item : LayerItem), (p.layers k)[i]? = some item.name ∧
    (e.checklists k).items[i]? = some item ∧ item.checked = true ∧ ¬ NonBlank item.name

variable {e : Editor} {p : Profile}

/-- The names that are checked are not blank, unless one of the profile is. -/
theorem GrownFrom.nonBlank_checkedNames_iff (h : e.GrownFrom p) :
    (∀ k, ∀ name ∈ (e.checklists k).checkedNames, NonBlank name) ↔ ¬ e.ShowsBlankOf p := by
  constructor
  · rintro hall ⟨k, i, item, -, hi, hchecked, hblank⟩
    exact hblank (hall k item.name
      (Checklist.mem_checkedNames.2 ⟨item, List.mem_of_getElem? hi, hchecked, rfl⟩))
  · intro hnone k name hname
    obtain ⟨item, hitem, hchecked, rfl⟩ := Checklist.mem_checkedNames.1 hname
    by_contra hblank
    obtain ⟨i, hi, hsource⟩ := (h k).getElem?_of_blank hitem hblank
    exact hnone ⟨k, i, item, hsource, hi, hchecked, hblank⟩

/-- So it is with a profile that the form is committed into. -/
theorem GrownFrom.namesNonBlank_commitInto_iff (h : e.GrownFrom p) (base : Profile) :
    (e.commitInto base).NamesNonBlank ↔ ¬ e.ShowsBlankOf p := by
  rw [← h.nonBlank_checkedNames_iff]
  exact forall_congr' fun k => by rw [layers_commitInto]

end Editor

/-- **A blank name comes from a profile**: after any run, a form lists the layers of the profile
    that it was last filled from (opened on, loaded or imported), and behind them added ones that
    are not blank. If no name of that profile is blank, no name in the form is. But the names of
    the profile are not checked: what is accepted or exported has a blank name exactly if one of
    the profile is still checked. -/
theorem blank_names_of_source (store : Store) (p current : Profile) (files : FileTree)
    (operations : List Operation) :
    let start : Session := ⟨.ofProfile p, current, files⟩
    let e := (start.run store operations).editor
    let source := start.source store p operations
    ((∀ operation ∈ operations, operation.fillsForm = false) → source = p) ∧
      (∀ k, ∃ added, (e.checklists k).items.map (·.name) = source.layers k ++ added ∧
        ∀ name ∈ added, NonBlank name) ∧
      (source.NamesNonBlank → ∀ k, ∀ item ∈ (e.checklists k).items, NonBlank item.name) ∧
      ((∀ k, ∀ name ∈ (e.checklists k).checkedNames, NonBlank name) ↔
        ¬ e.ShowsBlankOf source) ∧
      ∀ (target : Store) (base : Profile) (t t' : FileTree),
        (∀ q, e.accept target base t = (.ok q, t') →
          target.persistCurrent t q = (.ok (), t') ∧
            (q.NamesNonBlank ↔ ¬ e.ShowsBlankOf source)) ∧
        ∀ path, e.exportTo target t path = .ok t' →
          ∃ q, target.exportTo t q path = .ok t' ∧
            (q.NamesNonBlank ↔ ¬ e.ShowsBlankOf source) := by
  intro start e source
  have hgrown : e.GrownFrom source :=
    Session.grownFrom_run store operations (Editor.grownFrom_ofProfile p)
  refine ⟨Session.source_of_not_fillsForm store start p, hgrown, fun hsource k item hitem => ?_,
    hgrown.nonBlank_checkedNames_iff, fun target base t t' => ⟨fun q haccept => ?_,
      fun path hexport => ?_⟩⟩
  · by_contra hblank
    obtain ⟨i, -, hname⟩ := (hgrown k).getElem?_of_blank hitem hblank
    exact hblank (hsource k _ (List.mem_of_getElem? hname))
  · obtain ⟨-, rfl, hpersist⟩ := Editor.accept_ok haccept
    exact ⟨hpersist, hgrown.namesNonBlank_commitInto_iff base⟩
  · obtain ⟨-, hwritten⟩ := Editor.exportTo_ok hexport
    exact ⟨_, hwritten, hgrown.namesNonBlank_commitInto_iff .default⟩

/-- The defaults, with a layer of the empty name. -/
def namelessLayer : Profile := Profile.default.setLayers .flow [""]

theorem inRange_namelessLayer (f : Field) : f.InRange namelessLayer :=
  (Field.sameValue_setLayers f .default .flow [""]).inRange_iff.2
    (Profile.inRange_iff.1 Profile.inRange_default f)

theorem readBack_namelessLayer : Document.readBack namelessLayer = namelessLayer := by
  apply Document.readBack_eq_self
  intro k
  cases k with
  | flow => exact Document.isForeignLineEnd_of_all rfl
  | control => exact Document.isForeignLineEnd_of_all rfl

/-- A store whose file is there keeps any profile in it. -/
theorem Store.exists_persistCurrent_treeOfFile (content : ByteArray) (p : Profile) :
    ∃ t', (Store.atPath ⟨"f"⟩).persistCurrent (Store.treeOfFile ['f'] content) p = (.ok (), t') :=
  ⟨_, rfl⟩

/-- **A blank name is imported, shown and kept**: the form of the defaults imports a document whose
    only flow layer has the empty name. The name is listed and checked, and accepting the form
    makes the profile with it current and writes it to the fixed file. -/
theorem blank_name_imported :
    let files := Store.treeOfFile ['f'] (String.ofList (Document.write namelessLayer)).toUTF8
    ∃ e t', Session.perform (.atPath ⟨"f"⟩) ⟨.ofProfile .default, .default, files⟩
        (.importForm ⟨"f"⟩) = (.done, ⟨e, .default, files⟩) ∧
      (e.checklists .flow).checkedNames = [""] ∧
      e.accept (.atPath ⟨"f"⟩) .default files = (.ok namelessLayer, t') ∧
      t'.find? ⟨"f"⟩ = some (.file (String.ofList (Document.write namelessLayer)).toUTF8) ∧
      ¬ NonBlank "" ∧ ¬ namelessLayer.NamesNonBlank := by
  intro files
  have hblank : ¬ NonBlank "" := by decide
  have hread : (Store.atPath ⟨"f"⟩).codec.deserialize
      (String.ofList (Document.write namelessLayer)) = .ok namelessLayer := by
    show Codec.xml.deserialize _ = _
    rw [Document.deserialize_write, readBack_namelessLayer]
  have hprofile : (Store.atPath ⟨"f"⟩).importFrom files ⟨"f"⟩ = .ok namelessLayer :=
    Store.importFrom_of_text rfl hread
  have hperform : Session.perform (.atPath ⟨"f"⟩) ⟨.ofProfile .default, .default, files⟩
      (.importForm ⟨"f"⟩) = _ := Session.perform_importForm_of_ok hprofile
  obtain ⟨t', hpersist⟩ := Store.exists_persistCurrent_treeOfFile
    (String.ofList (Document.write namelessLayer)).toUTF8 namelessLayer
  obtain ⟨text, htext, hfile⟩ := Store.file_of_persistCurrent hpersist
  obtain rfl : String.ofList (Document.write namelessLayer) = text := Except.ok.inj htext
  have hcommit := Editor.commitInto_load (.ofProfile .default) inRange_namelessLayer .default
  have hgate := Editor.canCommit_load (.ofProfile .default) inRange_namelessLayer
  rw [← hcommit] at hpersist
  have haccept := Editor.accept_of_canCommit hgate hpersist
  rw [hcommit] at haccept
  refine ⟨_, t', hperform, ?_, haccept, hfile, hblank, fun h => ?_⟩
  · rw [Editor.checklists_validateAll]
    exact Checklist.checkedNames_ofNames _
  · exact hblank (h .flow "" List.mem_cons_self)

end ChipSettings

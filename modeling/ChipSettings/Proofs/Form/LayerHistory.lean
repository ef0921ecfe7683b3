import ChipSettings.Proofs.Form.Independence
import ChipSettings.Proofs.Form.LayerNames

/-! # Lists of Layers and Their History

  A list of layers is what its history has made of it: the names it was filled with, the names that
  were added since, and for each of them how it was checked last.

  - `ChecklistEdit` is an edit of one list. `checklists_editAll`: a course of edits of the form
    does to the list of a kind what the edits of that kind do to it.
  - `LayerMark` is what stays of an edit: a name that is added, or a layer that is checked or
    unchecked while it is there. `layerHistory` tells the marks from the edits alone.
  - `items_editAll`: the list after some edits, told from their marks.
  - `layers_follow_history`: so it is with both lists of a form since it was filled.
-/

namespace ChipSettings

open Text

/-! ## Edits of One List -/

/-- What may be done to one list of layers. -/
inductive ChecklistEdit where
  /-- Replace the text in the box. -/
  | setPending (text : String)
  /-- Add the layer that is named in the box. -/
  | add
  | setChecked (index : Nat) (checked : Bool)

namespace Checklist

/-- Carry out an edit. -/
def edit (c : Checklist) : ChecklistEdit → Checklist
  | .setPending text => c.setPending text
  | .add => c.addPending?.getD c
  | .setChecked index checked => c.setChecked index checked

/-- Carry out edits in order. -/
def editAll (c : Checklist) (edits : List ChecklistEdit) : Checklist := edits.foldl edit c

end Checklist

/-- What an edit of the form is to the list of a kind, if it is about that list. -/
def Edit.on? (k : LayerKind) : Edit → Option ChecklistEdit
  | setPending k' text => if k' = k then some (.setPending text) else none
  | addLayer k' => if k' = k then some .add else none
  | setChecked k' index checked => if k' = k then some (.setChecked index checked) else none
  | _ => none

namespace Editor

variable {e : Editor} {k : LayerKind}

/-- An edit does to the list of a kind what it is to it, or nothing. -/
theorem checklists_edit (e : Editor) (k : LayerKind) (edit : Edit) :
    (e.edit edit).checklists k =
      ((edit.on? k).map (e.checklists k).edit).getD (e.checklists k) := by
  cases edit with
  | setText f text => rfl
  | changeText f change => rfl
  | leaveField f => rfl
  | setPending k' text =>
    rw [Edit.on?]
    by_cases hk : k' = k
    · subst hk
      rw [if_pos rfl]
      exact checklists_setChecklist_self e k' _
    · rw [if_neg hk]
      exact checklists_setChecklist_of_ne e _ (Ne.symm hk)
  | addLayer k' =>
    rw [Edit.on?, Editor.edit, addLayer?]
    by_cases hk : k' = k
    · subst hk
      rw [if_pos rfl, Option.map_some, Option.getD_some, Checklist.edit]
      cases (e.checklists k').addPending? with
      | none => rfl
      | some c => exact checklists_setChecklist_self e k' c
    · rw [if_neg hk]
      cases (e.checklists k').addPending? with
      | none => rfl
      | some c => exact checklists_setChecklist_of_ne e c (Ne.symm hk)
  | setChecked k' index checked =>
    rw [Edit.on?]
    by_cases hk : k' = k
    · subst hk
      rw [if_pos rfl]
      exact checklists_setChecklist_self e k' _
    · rw [if_neg hk]
      exact checklists_setChecklist_of_ne e _ (Ne.symm hk)

/-- So do edits in order. -/
theorem checklists_editAll (e : Editor) (k : LayerKind) (edits : List Edit) :
    (e.editAll edits).checklists k = (e.checklists k).editAll (edits.filterMap (Edit.on? k)) := by
  induction edits generalizing e with
  | nil => rfl
  | cons edit edits ih =>
    have hrest : (e.editAll (edit :: edits)).checklists k =
        ((e.edit edit).checklists k).editAll (edits.filterMap (Edit.on? k)) := ih (e.edit edit)
    rw [hrest, checklists_edit]
    cases hedit : edit.on? k with
    | none => rw [List.filterMap_cons_none hedit]; rfl
    | some own => rw [List.filterMap_cons_some hedit]; rfl

end Editor

/-! ## The History of a List -/

/-- What stays of an edit of a list. -/
inductive LayerMark where
  | added (name : String)
  | checked (index : Nat) (checked : Bool)
deriving DecidableEq

/-- What stays of edits of a list with so many layers and such a text in the box: what is added is
    trimmed and not blank, and a layer that is checked is one of the list. -/
def layerHistory : (count : Nat) → (pending : String) → List ChecklistEdit → List LayerMark
  | _, _, [] => []
  | count, _, .setPending text :: edits => layerHistory count text edits
  | count, pending, .add :: edits =>
    if NonBlank pending then .added (trim pending) :: layerHistory (count + 1) "" edits
    else layerHistory count pending edits
  | count, pending, .setChecked index checked :: edits =>
    if index < count then .checked index checked :: layerHistory count pending edits
    else layerHistory count pending edits

/-- The names that were added. -/
def addedNames : List LayerMark → List String
  | [] => []
  | .added name :: marks => name :: addedNames marks
  | .checked _ _ :: marks => addedNames marks

/-- How a layer was checked last, if it was. -/
def lastCheck? (i : Nat) : List LayerMark → Option Bool
  | [] => none
  | .added _ :: marks => lastCheck? i marks
  | .checked index checked :: marks =>
    (lastCheck? i marks).or (if index = i then some checked else none)

/-- The list that is told by its first names, how they were checked, and what was done since: the
    added names come behind the first ones, and each layer is as it was checked last. -/
def toldItems (names : List String) (checkedAt : Nat → Bool) (marks : List LayerMark) :
    List LayerItem :=
  (names ++ addedNames marks).mapIdx fun i name => ⟨name, (lastCheck? i marks).getD (checkedAt i)⟩

theorem toldItems_added (names : List String) (checkedAt : Nat → Bool) (name : String)
    (marks : List LayerMark) :
    toldItems names checkedAt (.added name :: marks) =
      toldItems (names ++ [name]) checkedAt marks := by
  simp [toldItems, addedNames, lastCheck?]

theorem toldItems_checked (names : List String) (checkedAt : Nat → Bool) (index : Nat)
    (checked : Bool) (marks : List LayerMark) :
    toldItems names checkedAt (.checked index checked :: marks) =
      toldItems names (fun i => if index = i then checked else checkedAt i) marks := by
  unfold toldItems
  refine congrArg (fun f => List.mapIdx f _) (funext fun i => funext fun name => ?_)
  rw [lastCheck?, Option.getD_or]
  by_cases hi : index = i
  · simp only [if_pos hi, Option.getD_some]
  · simp only [if_neg hi, Option.getD_none]

/-- The names of the checked layers are those at the checked positions. -/
theorem checkedNames_of_items {c : Checklist} {names : List String} {checkedAt : Nat → Bool}
    {marks : List LayerMark} (h : c.items = toldItems names checkedAt marks) :
    c.checkedNames = ((names ++ addedNames marks).zipIdx.filter
      fun (_, i) => (lastCheck? i marks).getD (checkedAt i)).map Prod.fst := by
  rw [Checklist.checkedNames, h, toldItems, List.mapIdx_eq_zipIdx_map, List.filter_map,
    List.map_map]
  rfl

namespace Checklist

variable {c : Checklist}

/-- Is the layer checked? One that is still to be added will be. -/
def checkedAt (c : Checklist) (i : Nat) : Bool := (c.items[i]?.map (·.checked)).getD true

/-- Before anything is done, a list is its names, each of them checked or not. -/
theorem items_eq_toldItems (c : Checklist) :
    c.items = toldItems (c.items.map (·.name)) c.checkedAt [] := by
  refine List.ext_getElem? fun i => ?_
  rw [toldItems, addedNames, List.append_nil, List.getElem?_mapIdx, List.getElem?_map]
  cases hitem : c.items[i]? with
  | none => rfl
  | some item =>
    have hchecked : c.checkedAt i = item.checked := by
      rw [checkedAt, hitem]
      rfl
    simp [lastCheck?, hchecked]

/-- The layers of a profile are all checked. -/
theorem checkedAt_ofNames (names : List String) : (ofNames names).checkedAt = fun _ => true := by
  funext i
  unfold checkedAt ofNames
  rw [List.getElem?_map]
  cases names[i]? with
  | none => rfl
  | some name => rfl

/-- A new layer is checked. -/
theorem checkedAt_append (c : Checklist) (name pending : String) :
    (⟨c.items ++ [⟨name, true⟩], pending⟩ : Checklist).checkedAt = c.checkedAt := by
  funext i
  unfold checkedAt
  rw [List.getElem?_append]
  by_cases hi : i < c.items.length
  · rw [if_pos hi]
  · -- behind the list there is the new layer or none, and none in the list itself
    rw [if_neg hi, List.getElem?_eq_none (not_lt.1 hi), List.getElem?_singleton]
    split
    · rfl
    · rfl

/-- A layer that is checked is the only one that this changes. -/
theorem checkedAt_setChecked {index : Nat} (checked : Bool) (h : index < c.items.length) :
    (c.setChecked index checked).checkedAt =
      fun i => if index = i then checked else c.checkedAt i := by
  funext i
  unfold checkedAt setChecked
  rw [List.getElem?_modify]
  by_cases hi : index = i
  · subst hi
    rw [if_pos rfl, List.getElem?_eq_getElem h]
    simp
  · simp [hi]

theorem setChecked_of_le {index : Nat} (checked : Bool) (h : c.items.length ≤ index) :
    c.setChecked index checked = c := by
  rw [setChecked, List.modify_eq_self h]

/-- A list after some edits is what their marks tell of it. -/
theorem items_editAll (c : Checklist) (edits : List ChecklistEdit) :
    (c.editAll edits).items = toldItems (c.items.map (·.name)) c.checkedAt
      (layerHistory c.items.length c.pending edits) := by
  -- the first edit makes the list that the others start from
  induction edits generalizing c with
  | nil => exact c.items_eq_toldItems
  | cons edit edits ih =>
    have hrest : (c.editAll (edit :: edits)).items = _ := ih (c.edit edit)
    rw [hrest]
    cases edit with
    | setPending text => rfl
    | add =>
      by_cases h : NonBlank c.pending
      · have hedit : c.edit .add = ⟨c.items ++ [⟨trim c.pending, true⟩], ""⟩ := by
          rw [edit, addPending?_of_nonBlank h, Option.getD_some]
        rw [hedit, checkedAt_append, layerHistory, if_pos h, toldItems_added, List.map_append,
          List.length_append]
        rfl
      · have hedit : c.edit .add = c := by
          rw [edit, addPending?_eq_none_iff.2 h, Option.getD_none]
        rw [hedit, layerHistory, if_neg h]
    | setChecked index checked =>
      by_cases h : index < c.items.length
      · have hlength : (c.setChecked index checked).items.length = c.items.length :=
          List.length_modify ..
        rw [layerHistory, if_pos h, toldItems_checked, edit, names_setChecked, hlength,
          checkedAt_setChecked checked h]
        rfl
      · rw [edit, setChecked_of_le checked (not_lt.1 h), layerHistory, if_neg h]

end Checklist

/-! ## Both Lists of a Form -/

namespace Editor

variable {e e' : Editor} {k : LayerKind}

/-- Nothing is added exactly if there are only blanks in the box. -/
theorem addLayer?_eq_none_iff :
    e.addLayer? k = none ↔ ∀ c ∈ (e.checklists k).pending.toList, isBlank c = true := by
  rw [addLayer?, Option.map_eq_none_iff, Checklist.addPending?_eq_none_iff, nonBlank_iff]
  simp

/-- A layer that is added stands behind the others, and the box is empty then. -/
theorem checklists_of_addLayer? (h : e.addLayer? k = some e') :
    e'.checklists k = ⟨(e.checklists k).items ++ [⟨trim (e.checklists k).pending, true⟩], ""⟩ := by
  obtain ⟨c, hadd, rfl⟩ := Option.map_eq_some_iff.1 h
  have hbox : NonBlank (e.checklists k).pending := by
    by_contra hblank
    rw [Checklist.addPending?_eq_none_iff.2 hblank] at hadd
    cases hadd
  rw [Checklist.addPending?_of_nonBlank hbox] at hadd
  rw [checklists_setChecklist_self, ← Option.some.inj hadd]

/-- A part that no edit is about stays as it is. -/
theorem agreeOn_editAll_of_ne (e : Editor) {part : FormPart} {edits : List Edit}
    (h : ∀ edit ∈ edits, edit.part ≠ part) : AgreeOn part (e.editAll edits) e := by
  have hnone : Edit.of part edits = [] :=
    List.filter_eq_nil_iff.2 fun edit hedit => by simpa using h edit hedit
  have hagree := (AgreeOn.refl part e).editAll_of edits
  rwa [hnone] at hagree

end Editor

/-- **Lists of layers follow their history**: whatever was done to a form since it was filled, each
    list holds the names of the profile and behind them the trimmed names that were added, in
    order and with nothing removed. A layer is as it was checked last while it was in the list,
    and checked if it never was; the checked names are those of these layers. Nothing is added
    exactly if there are only blanks in the box. That changes nothing at all, and a layer that is
    added empties the box. What no edit is about stays as it is: the other list, and the texts
    and the verdicts of fields. -/
theorem layers_follow_history (e : Editor) (p : Profile) (edits : List Edit) :
    let form := (e.load p).editAll edits
    (∀ k, let marks := layerHistory (p.layers k).length "" (edits.filterMap (Edit.on? k))
      (form.checklists k).items = (p.layers k ++ addedNames marks).mapIdx
          (fun i name => ⟨name, (lastCheck? i marks).getD true⟩) ∧
        (form.checklists k).checkedNames = ((p.layers k ++ addedNames marks).zipIdx.filter
          fun (_, i) => (lastCheck? i marks).getD true).map Prod.fst) ∧
    (∀ k, (form.addLayer? k = none ↔
        ∀ c ∈ (form.checklists k).pending.toList, isBlank c = true) ∧
      (form.addLayer? k = none → form.edit (.addLayer k) = form) ∧
      ∀ added, form.addLayer? k = some added → form.edit (.addLayer k) = added ∧
        added.checklists k =
          ⟨(form.checklists k).items ++ [⟨trim (form.checklists k).pending, true⟩], ""⟩) ∧
    (∀ part, (∀ edit ∈ edits, edit.part ≠ part) → Editor.AgreeOn part form (e.load p)) ∧
    ∀ (store : Store) (s : Session) (k : LayerKind), s.editor = form →
      s.perform store (.addLayer k) =
        (.flag (form.addLayer? k).isSome, { s with editor := form.edit (.addLayer k) }) := by
  intro form
  have hedit (k : LayerKind) : form.edit (.addLayer k) = (form.addLayer? k).getD form := rfl
  refine ⟨fun k => ?_, fun k => ⟨Editor.addLayer?_eq_none_iff, fun hnone => ?_,
    fun added hadded => ⟨?_, Editor.checklists_of_addLayer? hadded⟩⟩,
    fun part => Editor.agreeOn_editAll_of_ne _, fun store s k hform => ?_⟩
  · -- the list was filled with the names of the profile, all of them checked
    have hstart : (e.load p).checklists k = .ofNames (p.layers k) := rfl
    have hlength : (Checklist.ofNames (p.layers k)).items.length = (p.layers k).length :=
      List.length_map ..
    have hitems := ((e.load p).checklists k).items_editAll (edits.filterMap (Edit.on? k))
    rw [← Editor.checklists_editAll, hstart, Checklist.names_ofNames,
      Checklist.checkedAt_ofNames, hlength] at hitems
    exact ⟨hitems, checkedNames_of_items hitems⟩
  · rw [hedit, hnone, Option.getD_none]
  · rw [hedit, hadded, Option.getD_some]
  · rw [hedit, ← hform]
    unfold Session.perform
    simp only
    cases s.editor.addLayer? k with
    | none => rfl
    | some added => rfl

/-- A layer is added, one is not, and of the two that are there the second is unchecked. -/
theorem layers_follow_history_unchecked :
    let form := (Editor.ofProfile .default).editAll [.setChecked .flow 1 false,
      .setPending .flow " A\t", .addLayer .flow, .setChecked .flow 1 false, .addLayer .flow,
      .setPending .control " ", .addLayer .control]
    (form.checklists .flow).items = [⟨"Flow", true⟩, ⟨"A", false⟩] ∧
      (form.checklists .flow).checkedNames = ["Flow"] ∧ form.addLayer? .control = none ∧
      form.texts .punchBarNumber = "8" := by
  intro form
  obtain ⟨hlists, hadd, hother, -⟩ := layers_follow_history (.ofProfile .default) .default
    [.setChecked .flow 1 false, .setPending .flow " A\t", .addLayer .flow,
      .setChecked .flow 1 false, .addLayer .flow, .setPending .control " ", .addLayer .control]
  obtain ⟨hitems, hnames⟩ := hlists .flow
  have hblank : ∀ c ∈ " ".toList, isBlank c = true := by simp [isBlank]
  refine ⟨hitems.trans (by decide +kernel), hnames.trans (by decide +kernel),
    (hadd .control).1.2 hblank, ?_⟩
  exact (hother (.field .punchBarNumber) (by decide)).1.trans (by decide +kernel)

end ChipSettings

import ChipSettings.Proofs.Document.RoundTrip
import ChipSettings.Proofs.Files.PlainPath
import ChipSettings.Proofs.Form.FailedCommit
import ChipSettings.Proofs.Store.Files

/-! # The Last Profile Written to a Path

  Behind directories, failures and other files, a store is a table of profiles by path in which
  the last writer wins.

  - `Session.lastWritten`: the table, made from the operations that wrote a file.
  - `Refines table t`: the abstraction relation. The file of each path in the table holds the
    document of its profile.
  - `Change`: an operation writes one file, or the tree only grows by directories. There is a
    lemma for each operation that writes. So each operation keeps the relation
    (`Refines.perform`), and so does every run (`Refines.run`).
  - `read_last_written`: what is read from a path is the profile that was last written to it.
-/

namespace ChipSettings

open Files FileTree

/-! ## The Table -/

/-- The operation was carried out, and there is nothing else to say. -/
def Answer.isDone : Answer → Bool
  | done => true
  | _ => false

namespace Session

/-- What an operation is to write, and where. -/
def target? (store : Store) (s : Session) : Operation → Option (Path × Profile)
  | .accept => some (store.currentPath, s.editor.commitInto s.current)
  | .exportForm path => some (path, s.editor.commitInto .default)
  | .persist p => some (store.currentPath, p)
  | .exportProfile path p => some (path, p)
  | _ => none

/-- What an operation has written: its target, if it did not fail. -/
def written? (store : Store) (s : Session) (operation : Operation) : Option (Path × Profile) :=
  if (s.perform store operation).1.isDone then s.target? store operation else none

/-- The table after one more operation. -/
def record (store : Store) (s : Session) (table : Path → Option Profile)
    (operation : Operation) : Path → Option Profile :=
  match s.written? store operation with
  | some (path, p) => setAt table path (some p)
  | none => table

/-- The profiles that were last written to each path, after a run. -/
def lastWritten (store : Store) (s : Session) (table : Path → Option Profile) :
    List Operation → Path → Option Profile
  | [] => table
  | operation :: operations =>
    (s.perform store operation).2.lastWritten store (s.record store table operation) operations

/-- No operation of a run writes to the path. -/
def SparesPath (store : Store) (s : Session) (path : Path) : List Operation → Prop
  | [] => True
  | operation :: operations =>
    (∀ p, s.written? store operation ≠ some (path, p)) ∧
      (s.perform store operation).2.SparesPath store path operations

variable {store : Store} {s : Session} {table : Path → Option Profile} {path : Path}

theorem written?_of_isDone {operation : Operation}
    (h : (s.perform store operation).1.isDone = true) :
    s.written? store operation = s.target? store operation := if_pos h

/-- Nothing is written but a target. -/
theorem target?_of_written? {operation : Operation} {p : Profile}
    (h : s.written? store operation = some (path, p)) :
    s.target? store operation = some (path, p) := by
  unfold written? at h
  split at h
  · exact h
  · cases h

theorem record_of_some {operation : Operation} {p : Profile}
    (h : s.written? store operation = some (path, p)) :
    s.record store table operation = setAt table path (some p) := by
  simp only [record, h]

theorem record_of_none {operation : Operation} (h : s.written? store operation = none) :
    s.record store table operation = table := by
  simp only [record, h]

theorem run_append (before after : List Operation) :
    s.run store (before ++ after) = (s.run store before).run store after := by
  rw [run, List.foldl_append]
  rfl

theorem lastWritten_append (before after : List Operation) :
    s.lastWritten store table (before ++ after) =
      (s.run store before).lastWritten store (s.lastWritten store table before) after := by
  induction before generalizing s table with
  | nil => rfl
  | cons operation before ih => exact ih

/-- One more operation changes the table at the path it writes to, if it writes to one. -/
theorem record_of_ne {operation : Operation}
    (h : ∀ p, s.written? store operation ≠ some (path, p)) :
    s.record store table operation path = table path := by
  cases hwritten : s.written? store operation with
  | none => rw [record_of_none hwritten]
  | some write =>
    obtain ⟨written, p⟩ := write
    have hne : path ≠ written := by
      rintro rfl
      exact h p hwritten
    rw [record_of_some hwritten, setAt_of_ne _ _ hne]

/-- A path that is in the table stays in it. -/
theorem record_ne_none (h : table path ≠ none) (operation : Operation) :
    s.record store table operation path ≠ none := by
  by_cases hwrites : ∃ p, s.written? store operation = some (path, p)
  · obtain ⟨p, hwritten⟩ := hwrites
    rw [record_of_some hwritten, setAt_self]
    exact Option.some_ne_none p
  · rwa [record_of_ne (not_exists.1 hwrites)]

theorem lastWritten_ne_none (operations : List Operation) (h : table path ≠ none) :
    s.lastWritten store table operations path ≠ none := by
  induction operations generalizing s table with
  | nil => exact h
  | cons operation operations ih => exact ih (record_ne_none h operation)

theorem lastWritten_of_sparesPath {operations : List Operation}
    (h : s.SparesPath store path operations) :
    s.lastWritten store table operations path = table path := by
  induction operations generalizing s table with
  | nil => rfl
  | cons operation operations ih => exact (ih h.2).trans (record_of_ne h.1)

/-- Once something was written to a path, the table has the profile that was written last: this
    one, unless another one was written later. -/
theorem exists_lastWritten (table : Path → Option Profile) {before : List Operation}
    (after : List Operation) {operation : Operation} {p : Profile}
    (hwritten : (s.run store before).written? store operation = some (path, p)) :
    ∃ last, s.lastWritten store table (before ++ operation :: after) path = some last ∧
      ((s.run store (before ++ [operation])).SparesPath store path after → last = p) := by
  -- right after the operation the table has `p`, whatever was written before it
  have hhere : (s.run store before).record store (s.lastWritten store table before) operation
      path = some p := by
    rw [record_of_some hwritten, setAt_self]
  have hthere : (s.run store before).record store (s.lastWritten store table before) operation
      path ≠ none := by
    rw [hhere]
    exact Option.some_ne_none p
  obtain ⟨last, hlast⟩ := Option.ne_none_iff_exists'.1
    (lastWritten_ne_none after hthere)
  rw [lastWritten_append, run_append]
  refine ⟨last, hlast, fun hspares => ?_⟩
  have hsame := hlast.symm.trans (lastWritten_of_sparesPath hspares)
  exact Option.some.inj (hsame.trans hhere)

end Session

/-! ## Operations That Go Through the Store -/

/-- The operation goes through the store if it changes files, and exports to plain paths.
    Directories may be made from outside. -/
def Operation.ThroughStore : Operation → Prop
  | .exportForm path => path.isPlain = true
  | .exportProfile path _ => path.isPlain = true
  | .files (.write _ _) => False
  | .files (.remove _) => False
  | _ => True

namespace Store

variable {store : Store} {t t' : FileTree} {p : Profile} {path : Path}

/-- What the fixed file is written to is a tree with more directories. -/
theorem exists_of_persistCurrent (h : store.persistCurrent t p = (.ok (), t')) :
    ∃ between, Grown t between ∧ store.exportTo between p store.currentPath = .ok t' := by
  obtain ⟨between, hprepare, hexport⟩ := persistCurrent_eq_ok_iff.1 h
  have hgrown := (grownBy_prepareDirectory store t).grown
  rw [hprepare] at hgrown
  exact ⟨between, hgrown, hexport⟩

end Store

namespace Session

variable {store : Store} {s : Session} {operation : Operation}

/-- What an operation that goes through the store does to the files. -/
inductive Change (store : Store) (s : Session) (operation : Operation) : Prop where
  /-- One file is written, perhaps after directories were made for it. -/
  | wrote (path : Path) (p : Profile) (between : FileTree)
      (hwritten : s.written? store operation = some (path, p))
      (hgrown : Grown s.files between)
      (hexport : store.exportTo between p path = .ok (s.perform store operation).2.files)
  /-- No file is written. The tree grows by directories at most. -/
  | grew (hnone : s.written? store operation = none)
      (hgrown : Grown s.files (s.perform store operation).2.files)

namespace Change

variable {s' : Session} {between : FileTree} {p : Profile} {path : Path}

/-- An operation that was carried out has written its target. -/
theorem of_done (htarget : s.target? store operation = some (path, p))
    (hperform : s.perform store operation = (.done, s')) (hgrown : Grown s.files between)
    (hexport : store.exportTo between p path = .ok s'.files) : s.Change store operation := by
  refine .wrote path p between ?_ hgrown ?_
  · rw [written?, hperform]
    exact htarget
  · rw [hperform]
    exact hexport

/-- An operation that failed has written nothing. -/
theorem of_failed {error : SettingsError}
    (hperform : s.perform store operation = (.failed error, s'))
    (hgrown : Grown s.files s'.files) : s.Change store operation := by
  refine .grew ?_ ?_
  · rw [written?, hperform]
    rfl
  · rw [hperform]
    exact hgrown

/-- An operation without a target writes nothing. -/
theorem of_target?_eq_none (htarget : s.target? store operation = none)
    (hgrown : Grown s.files (s.perform store operation).2.files) : s.Change store operation := by
  refine .grew ?_ hgrown
  rw [written?, htarget, ite_self]

/-- An operation that leaves the files alone. -/
theorem of_files_eq (htarget : s.target? store operation = none)
    (hfiles : (s.perform store operation).2.files = s.files) : s.Change store operation :=
  of_target?_eq_none htarget (hfiles ▸ .refl s.files)

/-- Writing the form to the fixed file may fail at the gate, or later. -/
theorem accept (store : Store) (s : Session) : s.Change store .accept := by
  cases haccept : s.editor.accept store s.current s.files with | mk result files =>
  cases result with
  | ok q =>
    have hperform : s.perform store .accept = (.done, { s with current := q, files }) := by
      simp only [perform, haccept]
    obtain ⟨-, rfl, hpersist⟩ := Editor.accept_ok haccept
    obtain ⟨between, hgrown, hexport⟩ := Store.exists_of_persistCurrent hpersist
    exact .of_done rfl hperform hgrown hexport
  | error e =>
    have hperform : s.perform store .accept = (.failed e, { s with files }) := by
      simp only [perform, haccept]
    refine .of_failed hperform ?_
    rcases Editor.accept_error haccept with ⟨-, -, rfl⟩ | ⟨-, hpersist⟩
    · exact .refl s.files
    · exact (Store.persistCurrent_error hpersist).1.grown

/-- Writing the form to another file makes no directories. -/
theorem exportForm (store : Store) (s : Session) (path : Path) :
    s.Change store (.exportForm path) := by
  cases hexport : s.editor.exportTo store s.files path with
  | ok files =>
    have hperform : s.perform store (.exportForm path) = (.done, { s with files }) := by
      simp only [perform, hexport]
    exact .of_done rfl hperform (.refl s.files) (Editor.exportTo_ok hexport).2
  | error e =>
    have hperform : s.perform store (.exportForm path) = (.failed e, s) := by
      simp only [perform, hexport]
    exact .of_failed hperform (.refl s.files)

/-- A profile is written to the fixed file in the same way, without a gate. -/
theorem persist (store : Store) (s : Session) (p : Profile) : s.Change store (.persist p) := by
  cases hpersist : store.persistCurrent s.files p with | mk result files =>
  have hperform : s.perform store (.persist p) = (.ofUnit result, { s with files }) := by
    simp only [perform, hpersist]
  cases result with
  | ok u =>
    obtain ⟨between, hgrown, hexport⟩ := Store.exists_of_persistCurrent hpersist
    exact .of_done rfl hperform hgrown hexport
  | error e => exact .of_failed hperform (Store.persistCurrent_error hpersist).1.grown

/-- And so it is with a profile that is written to another file. -/
theorem exportProfile (store : Store) (s : Session) (path : Path) (p : Profile) :
    s.Change store (.exportProfile path p) := by
  cases hexport : store.exportTo s.files p path with
  | ok files =>
    have hperform : s.perform store (.exportProfile path p) = (.done, { s with files }) := by
      simp only [perform, hexport]
    exact .of_done rfl hperform (.refl s.files) hexport
  | error e =>
    have hperform : s.perform store (.exportProfile path p) = (.failed e, s) := by
      simp only [perform, hexport]
    exact .of_failed hperform (.refl s.files)

/-- From outside, directories may be made. -/
theorem files {command : FileCommand} (store : Store) (s : Session)
    (hstore : (Operation.files command).ThroughStore) : s.Change store (.files command) := by
  cases command with
  | write path content => exact hstore.elim
  | remove path => exact hstore.elim
  | makePath path =>
    have hmade := grown_makePath s.files path
    refine .of_target?_eq_none rfl ?_
    show Grown s.files (s.files.perform (.makePath path)).2
    unfold FileTree.perform
    simp only
    split
    · next hmake => rwa [hmake] at hmade
    · next hmake => rwa [hmake] at hmade
  | find path => exact .of_files_eq rfl rfl
  | read path => exact .of_files_eq rfl rfl

end Change

/-- Each operation writes one file, or the tree grows by directories only. -/
theorem change_perform (store : Store) (s : Session) (hstore : operation.ThroughStore) :
    s.Change store operation := by
  cases operation with
  | accept => exact .accept store s
  | exportForm path => exact .exportForm store s path
  | persist p => exact .persist store s p
  | exportProfile path p => exact .exportProfile store s path p
  | files command => exact .files store s hstore
  -- the rest leaves the files alone, whatever it answers
  | addLayer k => refine .of_files_eq rfl ?_; unfold perform; simp only; split <;> rfl
  | importForm path => refine .of_files_eq rfl ?_; unfold perform; simp only; split <;> rfl
  | writeCurrent f text => refine .of_files_eq rfl ?_; unfold perform; simp only; split <;> rfl
  | _ => exact .of_files_eq rfl rfl

/-- Operations that go through the store write to plain paths. -/
theorem isPlain_of_written? (hfixed : store.currentPath.isPlain = true)
    (hstore : operation.ThroughStore) {path : Path} {p : Profile}
    (h : s.written? store operation = some (path, p)) : path.isPlain = true := by
  have htarget := target?_of_written? h
  cases operation with
  | accept => cases htarget; exact hfixed
  | exportForm path => cases htarget; exact hstore
  | persist p => cases htarget; exact hfixed
  | exportProfile path p => cases htarget; exact hstore
  | _ => cases htarget

end Session

/-! ## The Table and the Files -/

/-- The file of each path in the table holds the document of its profile. -/
structure Store.Refines (store : Store) (table : Path → Option Profile) (t : FileTree) : Prop where
  plain : ∀ path p, table path = some p → path.isPlain = true
  file : ∀ path p, table path = some p → ∃ text, store.codec.serialize p = .ok text ∧
    t.find? path = some (.file text.toUTF8)

namespace Store.Refines

variable {store : Store} {table : Path → Option Profile} {t t' : FileTree} {p : Profile}
  {path : Path}

/-- At first nothing was written. -/
theorem start (store : Store) (t : FileTree) : store.Refines (fun _ => none) t where
  plain _ _ h := nomatch h
  file _ _ h := nomatch h

/-- New directories hide no file. -/
theorem grow (h : store.Refines table t) (hgrown : Grown t t') : store.Refines table t' where
  plain := h.plain
  file path p hpath := by
    obtain ⟨text, hserialize, hfile⟩ := h.file path p hpath
    exact ⟨text, hserialize, hgrown.find?_file hfile⟩

/-- A write changes the table at its path, and the file of no other path. -/
theorem write (h : store.Refines table t) (hplain : path.isPlain = true)
    (hexport : store.exportTo t p path = .ok t') :
    store.Refines (setAt table path (some p)) t' where
  plain other q hother := by
    by_cases heq : other = path
    · rwa [heq]
    · rw [setAt_of_ne _ _ heq] at hother
      exact h.plain other q hother
  file other q hother := by
    by_cases heq : other = path
    · subst heq
      rw [setAt_self] at hother
      cases hother
      exact file_of_exportTo hexport
    · rw [setAt_of_ne _ _ heq] at hother
      obtain ⟨text, hserialize, hfile⟩ := h.file other q hother
      obtain ⟨written, -, hwrite⟩ := exists_of_bind_eq_ok hexport
      -- the paths are plain, so that they cannot name one file in two ways
      have hdiffers : ¬ t.SameFile path other := fun hsame =>
        heq (eq_of_sameFile hplain (h.plain other q hother) hsame).symm
      exact ⟨text, hserialize,
        (find?_file_iff_of_write (eq_ok_of_mapError_eq_ok hwrite) hdiffers).2 hfile⟩

variable {s : Session} {operation : Operation} {operations : List Operation}

/-- Each operation changes the files as it changes the table. -/
theorem perform (h : store.Refines table s.files) (hfixed : store.currentPath.isPlain = true)
    (hstore : operation.ThroughStore) :
    store.Refines (s.record store table operation) (s.perform store operation).2.files := by
  cases s.change_perform store hstore with
  | wrote path p between hwritten hgrown hexport =>
    rw [Session.record_of_some hwritten]
    exact (h.grow hgrown).write (Session.isPlain_of_written? hfixed hstore hwritten) hexport
  | grew hnone hgrown =>
    rw [Session.record_of_none hnone]
    exact h.grow hgrown

/-- And so does every run. -/
theorem run (h : store.Refines table s.files) (hfixed : store.currentPath.isPlain = true)
    (hstore : ∀ operation ∈ operations, operation.ThroughStore) :
    store.Refines (s.lastWritten store table operations) (s.run store operations).files := by
  induction operations generalizing s table with
  | nil => exact h
  | cons operation operations ih =>
    obtain ⟨hfirst, hlater⟩ := List.forall_mem_cons.1 hstore
    exact ih (h.perform hfixed hfirst) hlater

end Store.Refines

/-! ## Reading -/

namespace Session

/-- **The last writer wins**: once something was written to a plain path, whatever operations
    on the store come before and after it, the table has a profile for the path, the one that
    was written last. An import of the path gives this profile, as its document is read back,
    and so does loading if the path is the fixed one. Nothing but another write to the path
    changes that. -/
theorem read_last_written (fixed : Path) (hfixed : fixed.isPlain = true) (s : Session)
    (before after : List Operation) (operation : Operation)
    (hstore : ∀ o ∈ before ++ operation :: after, o.ThroughStore) (path : Path) (p : Profile)
    (hwritten : (s.run (.atPath fixed) before).written? (.atPath fixed) operation =
      some (path, p)) :
    let store := Store.atPath fixed
    let final := s.run store (before ++ operation :: after)
    ∃ last text q,
      s.lastWritten store (fun _ => none) (before ++ operation :: after) path = some last ∧
      ((s.run store (before ++ [operation])).SparesPath store path after → last = p) ∧
      Codec.xml.serialize last = .ok text ∧ Codec.xml.deserialize text = .ok q ∧
      (final.perform store (.importProfile path)).1 = .profile q ∧
      (path = fixed →
        (final.perform store .loadCurrent).1 = .profile q ∧
        (final.perform store .loadOrDefault).1 = .profile q) := by
  intro store final
  obtain ⟨last, hlast, hunless⟩ := exists_lastWritten (fun _ => none) after hwritten
  -- the files refine the table after the whole run, so the document of `last` is at the path
  have hrefines := (Store.Refines.start store s.files).run hfixed hstore
  obtain ⟨text, hserialize, hfile⟩ := hrefines.file path last hlast
  obtain rfl : String.ofList (Document.write last) = text := Except.ok.inj hserialize
  have hread : store.codec.deserialize (String.ofList (Document.write last)) =
      .ok (Document.readBack last) := Document.deserialize_write last
  refine ⟨last, _, _, hlast, hunless, rfl, hread, ?_, ?_⟩
  · have himport : store.importFrom final.files path = .ok (Document.readBack last) :=
      Store.importFrom_of_text hfile hread
    exact congrArg Answer.ofProfile himport
  · rintro rfl
    have hload : store.loadCurrent final.files = .ok (Document.readBack last) :=
      Store.loadCurrent_of_text hfile hread
    exact ⟨congrArg Answer.ofProfile hload,
      congrArg Answer.profile (Store.loadOrDefault_of_loadCurrent hload)⟩

/-- The fixed file is written twice, and then a file next to it. A write that fails for want of
    a directory has changed nothing, and neither has reading. -/
theorem read_last_written_persisted :
    let bars (n : Int32) : Profile := { Profile.default with punchBarNumber := n }
    let store := Store.atPath ⟨"d/f"⟩
    let final := (start .default).run store
      ([.exportProfile ⟨"x"⟩ (bars 7), .persist (bars 8)] ++ .persist (bars 5) ::
        [.exportProfile ⟨"no/f"⟩ (bars 6), .loadCurrent, .exportProfile ⟨"d/g"⟩ (bars 4)])
    ∃ text q, Codec.xml.serialize (bars 5) = .ok text ∧ Codec.xml.deserialize text = .ok q ∧
      (final.perform store .loadOrDefault).1 = .profile q := by
  intro bars store final
  have hthrough : ∀ o ∈ [Operation.exportProfile ⟨"x"⟩ (bars 7), .persist (bars 8)] ++
      .persist (bars 5) :: [.exportProfile ⟨"no/f"⟩ (bars 6), .loadCurrent,
        .exportProfile ⟨"d/g"⟩ (bars 4)], o.ThroughStore := by
    simp only [List.cons_append, List.nil_append, List.forall_mem_cons, Operation.ThroughStore]
    exact ⟨by decide, trivial, trivial, by decide, trivial, by decide,
      fun _ h => absurd h List.not_mem_nil⟩
  have hdone : (((start .default).run store [.exportProfile ⟨"x"⟩ (bars 7),
      .persist (bars 8)]).perform store (.persist (bars 5))).1.isDone = true := by decide +kernel
  obtain ⟨last, text, q, -, hlast, hserialize, hread, -, hload⟩ :=
    read_last_written ⟨"d/f"⟩ (by decide) (start .default)
      [.exportProfile ⟨"x"⟩ (bars 7), .persist (bars 8)]
      [.exportProfile ⟨"no/f"⟩ (bars 6), .loadCurrent, .exportProfile ⟨"d/g"⟩ (bars 4)]
      (.persist (bars 5)) hthrough ⟨"d/f"⟩ (bars 5) (written?_of_isDone hdone)
  -- none of the later operations has the fixed file for its target
  have hother {s : Session} {path : Path} {written p : Profile} (hne : path ≠ ⟨"d/f"⟩) :
      s.written? store (.exportProfile path written) ≠ some (⟨"d/f"⟩, p) := fun h =>
    hne (congrArg Prod.fst (Option.some.inj (target?_of_written? h)))
  obtain rfl := hlast ⟨fun p => hother (by decide),
    fun p h => absurd (target?_of_written? h).symm (Option.some_ne_none _),
    fun p => hother (by decide), trivial⟩
  exact ⟨text, q, hserialize, hread, (hload rfl).2⟩

end Session

end ChipSettings

import ChipSettings.Proofs.Files.Descent
import ChipSettings.Proofs.Store.Files

/-! # When Saving Succeeds

  The fixed file is written after the directories above it were made, and any other file is
  written where its directory is. For a plain path this succeeds or fails for reasons that can be
  told from the tree before.

  - `Admits t l`: a file can be saved at the place, if directories may be made for it.
  - `prepareDirectory_eq_ok_iff`: when the directory of the fixed file is there or can be made.
  - `saving_succeeds_iff`: when the fixed file is written and when another file is, what the tree
    is then, and which path an error names.
-/

namespace ChipSettings

open Files FileTree Text

/-! ## Places for Files -/

namespace Files.FileTree

/-- A file can be saved at the place: no name on the way is too long, no file stands where a
    directory is needed, and no directory stands where the file is to stand. -/
structure Admits (t : FileTree) (l : Location) : Prop where
  short : ShortNames l
  noFile : ∀ k, k <:+ l.tail → ∀ b, t.entry k ≠ some (.file b)
  free : t.entry l ≠ some .directory

/-- The directories that are missing can be made. -/
theorem Admits.passable {t : FileTree} {name : List Char} {dir : Location}
    (h : t.Admits (name :: dir)) : t.Passable dir where
  short := (List.forall_mem_cons.1 h.short).2
  noFile := h.noFile

/-- Directories that were made do not matter. -/
theorem Admits.of_grown {t t' : FileTree} {l : Location} (h : t'.Admits l) (hgrown : Grown t t') :
    t.Admits l where
  short := h.short
  noFile k hk b hfile := h.noFile k hk b ((hgrown.file_iff k b).2 hfile)
  free hdir := h.free (hgrown.entry_of_some hdir)

end Files.FileTree

namespace Store

variable {store : Store} {t t' : FileTree} {profile : Profile} {path : Path} {dir : Location}
  {name : List Char} {error : SettingsError}

/-! ## The Directory of the Fixed File -/

/-- For a plain path, the directories above the fixed file are those down to its directory. -/
theorem prepareDirectory_of_spells (h : store.currentPath.Spells (name :: dir)) :
    store.prepareDirectory t =
      if dir = [] ∨ t.contains (pathTo dir) = true then (.ok (), t)
      else ((t.makeDirectories (pathsTo dir)).1.mapError (.io (pathTo dir)),
        (t.makeDirectories (pathsTo dir)).2) := by
  unfold prepareDirectory
  rw [h.ancestors_eq]
  cases dir with
  | nil => rfl
  | cons last above => simp only [pathsTo, reduceCtorEq, false_or]

/-- The directory is found if there is something at its place. -/
theorem contains_directory_iff (h : store.currentPath.Spells (name :: dir)) :
    dir = [] ∨ t.contains (pathTo dir) = true ↔ ShortNames dir ∧ t.entry dir ≠ none := by
  by_cases hdir : dir = []
  · subst hdir
    have hroot : t.entry [] ≠ none := by
      rw [t.root_directory]
      nofun
    exact iff_of_true (.inl rfl) ⟨nofun, hroot⟩
  · rw [or_iff_right hdir, contains_iff (h.spellable dir (List.suffix_cons name dir) hdir)]

/-- Where nothing is in the way, the directories above the fixed file are made. -/
theorem exists_prepareDirectory (h : store.currentPath.Spells (name :: dir))
    (hpass : t.Passable dir) :
    ∃ t', store.prepareDirectory t = (.ok (), t') ∧ MadeDown dir t t' := by
  rw [prepareDirectory_of_spells h]
  split
  · next hthere =>
    obtain ⟨-, hentry⟩ := (contains_directory_iff h).1 hthere
    exact ⟨t, rfl, .refl (hpass.directory hentry)⟩
  · obtain ⟨t', hmake⟩ := exists_makeDirectories h.spellable.of_cons hpass
    obtain ⟨-, hmade⟩ := madeDown_of_makeDirectories h.spellable.of_cons hmake
    rw [hmake]
    exact ⟨t', rfl, hmade⟩

/-- The directory of the fixed file is there or can be made, unless a name is too long or a file
    stands above it. -/
theorem prepareDirectory_eq_ok_iff (h : store.currentPath.Spells (name :: dir)) :
    (store.prepareDirectory t).1 = .ok () ↔
      ShortNames dir ∧ ∀ k, k <:+ dir.tail → ∀ b, t.entry k ≠ some (.file b) := by
  have hpass := makeDirectories_eq_ok_iff (t := t) h.spellable.of_cons
  rw [prepareDirectory_of_spells h]
  constructor
  · intro hok
    split at hok
    · next hthere =>
      -- above whatever stands there, there are directories only
      obtain ⟨hshort, hentry⟩ := (contains_directory_iff h).1 hthere
      refine ⟨hshort, fun k hk b hfile => ?_⟩
      have habove : t.entry dir.tail = some .directory := by
        cases dir with
        | nil => exact t.root_directory
        | cons last above => exact t.parent_directory last above hentry
      rw [directory_of_suffix habove hk] at hfile
      cases hfile
    · obtain ⟨hshort, hnone⟩ := hpass.1 (eq_ok_of_mapError_eq_ok hok)
      exact ⟨hshort, fun k hk => hnone k (hk.trans (List.tail_suffix dir))⟩
  · rintro ⟨hshort, hnone⟩
    split
    · rfl
    · next hmissing =>
      have hentry : t.entry dir = none := by
        by_contra hentry
        exact hmissing ((contains_directory_iff h).2 ⟨hshort, hentry⟩)
      have hdir : t.Passable dir := by
        refine ⟨hshort, fun k hk b hfile => ?_⟩
        cases dir with
        | nil => exact hnone k hk b hfile
        | cons last above =>
          rcases List.suffix_cons_iff.1 hk with rfl | hk
          · rw [hentry] at hfile
            cases hfile
          · exact hnone k hk b hfile
      rw [hpass.2 hdir]
      rfl

/-! ## Writing -/

variable (hcodec : store.codec = .xml)

include hcodec

/-- An export writes the document of the profile. -/
theorem exportTo_eq_ok_iff : store.exportTo t profile path = .ok t' ↔
    t.write path (String.ofList (Document.write profile)).toUTF8 = .ok t' := by
  unfold exportTo
  rw [hcodec]
  show (t.write path _).mapError _ = .ok t' ↔ _
  cases t.write path (String.ofList (Document.write profile)).toUTF8 with
  | error e => exact iff_of_false nofun nofun
  | ok written => simp [Except.mapError]

/-- So a file is exported where the directory above it is there. -/
theorem exists_exportTo_iff (h : path.Spells (name :: dir)) :
    (∃ t', store.exportTo t profile path = .ok t') ↔
      t.Admits (name :: dir) ∧ t.entry dir = some .directory := by
  simp only [exportTo_eq_ok_iff hcodec, exists_write_iff h]
  constructor
  · rintro ⟨hshort, hdir, hfree⟩
    refine ⟨⟨hshort, fun k hk b hfile => ?_, hfree⟩, hdir⟩
    rw [directory_of_suffix hdir hk] at hfile
    cases hfile
  · rintro ⟨hadmits, hdir⟩
    exact ⟨hadmits.short, hdir, hadmits.free⟩

theorem entry_of_exportTo (h : path.Spells (name :: dir))
    (hexport : store.exportTo t profile path = .ok t') :
    t'.entry (name :: dir) = some (.file (String.ofList (Document.write profile)).toUTF8) ∧
      ∀ k, k ≠ name :: dir → t'.entry k = t.entry k :=
  entry_of_write h ((exportTo_eq_ok_iff hcodec).1 hexport)

/-- The fixed file is written where a file can be saved. It stands at its place then, all
    directories above it are there, and the rest of the tree is as before. -/
theorem exists_persistCurrent (h : store.currentPath.Spells (name :: dir))
    (hadmits : t.Admits (name :: dir)) :
    ∃ t', store.persistCurrent t profile = (.ok (), t') ∧
      t'.entry (name :: dir) = some (.file (String.ofList (Document.write profile)).toUTF8) ∧
      (∀ k, k <:+ dir → t'.entry k = some .directory) ∧
      ∀ k, ¬ k <:+ name :: dir → t'.entry k = t.entry k := by
  obtain ⟨between, hprepare, hmade⟩ := exists_prepareDirectory h hadmits.passable
  have hdir := hmade.directory dir List.suffix_rfl
  -- directories are made above the file only, so that its own place is as free as it was
  have hsame := hmade.same (name :: dir) (not_suffix_cons name dir)
  have hadmits' : between.Admits (name :: dir) := by
    refine ⟨hadmits.short, fun k hk b hfile => ?_, by rw [hsame]; exact hadmits.free⟩
    rw [hmade.directory k hk] at hfile
    cases hfile
  obtain ⟨t', hexport⟩ := (exists_exportTo_iff hcodec h).2 ⟨hadmits', hdir⟩
  obtain ⟨hnew, hother⟩ := entry_of_exportTo hcodec h hexport
  refine ⟨t', persistCurrent_eq_ok_iff.2 ⟨between, hprepare, hexport⟩, hnew, fun k hk => ?_,
    fun k hk => ?_⟩
  · rw [hother k fun heq => not_suffix_cons name dir (heq ▸ hk)]
    exact hmade.directory k hk
  · rw [hother k fun heq => hk (heq ▸ List.suffix_rfl)]
    exact hmade.same k fun hsuffix => hk (hsuffix.trans (List.suffix_cons name dir))

/-- It is written nowhere else. -/
theorem admits_of_persistCurrent (h : store.currentPath.Spells (name :: dir))
    (hpersist : store.persistCurrent t profile = (.ok (), t')) : t.Admits (name :: dir) := by
  obtain ⟨between, hprepare, hexport⟩ := persistCurrent_eq_ok_iff.1 hpersist
  obtain ⟨hadmits, -⟩ := (exists_exportTo_iff hcodec h).1 ⟨t', hexport⟩
  have hgrown := (grownBy_prepareDirectory store t).grown
  rw [hprepare] at hgrown
  exact hadmits.of_grown hgrown

omit hcodec in
/-- The error of a directory that cannot be made names the directory of the fixed file. -/
theorem exists_of_prepareDirectory_error (h : store.currentPath.Spells (name :: dir))
    (hprepare : store.prepareDirectory t = (.error error, t')) :
    ∃ cause, error = .io (pathTo dir) cause := by
  rw [prepareDirectory_of_spells h] at hprepare
  split at hprepare
  · cases hprepare
  · obtain ⟨cause, -, hcause⟩ := exists_of_mapError_eq_error (congrArg Prod.fst hprepare)
    exact ⟨cause, hcause.symm⟩

/-- An export that fails names the file. -/
theorem exists_of_exportTo_error (hexport : store.exportTo t profile path = .error error) :
    ∃ cause, error = .io path cause := by
  rcases exportTo_eq_error hexport with hserialize | hio
  · rw [hcodec] at hserialize
    cases hserialize
  · exact hio

end Store

/-! ## Saving -/

/-- **When saving succeeds**, for a plain path. The fixed file is written exactly if no name on its
    path is too long, no file stands where a directory is needed, and no directory stands where
    the file is to stand. The directories that are missing are made, and all else is as before.
    Another file is written exactly if its directory is there in addition; no directory is made
    for it. Every failure is one of the file system. Where the directory of the fixed file cannot
    be made the error names that directory, and in all other cases it names the file. -/
theorem saving_succeeds_iff (t : FileTree) (profile : Profile) (path : Path)
    (hplain : path.isPlain = true) (hnull : '\x00' ∉ path.text.toList)
    (hlimit : byteLength path.text.toList < pathLimit) :
    let store := Store.atPath path
    ((store.persistCurrent t profile).1 = .ok () ↔ t.Admits path.place) ∧
    (∀ t', store.persistCurrent t profile = (.ok (), t') →
      t'.entry path.place = some (.file (String.ofList (Document.write profile)).toUTF8) ∧
      (∀ l, l <:+ path.place.tail → t'.entry l = some .directory) ∧
      ∀ l, ¬ l <:+ path.place → t'.entry l = t.entry l) ∧
    (∀ error t', store.persistCurrent t profile = (.error error, t') →
      ∃ cause, (store.prepareDirectory t = (.error error, t') ∧
          error = .io (pathTo path.place.tail) cause) ∨
        store.prepareDirectory t = (.ok (), t') ∧ error = .io path cause) ∧
    ((store.prepareDirectory t).1 = .ok () ↔ ShortNames path.place.tail ∧
      ∀ l, l <:+ path.place.tail.tail → ∀ b, t.entry l ≠ some (.file b)) ∧
    ∀ other : Path,
      ((∃ t', (Store.atPath other).exportTo t profile path = .ok t') ↔
        t.Admits path.place ∧ t.entry path.place.tail = some .directory) ∧
      (∀ t', (Store.atPath other).exportTo t profile path = .ok t' →
        t'.entry path.place = some (.file (String.ofList (Document.write profile)).toUTF8) ∧
        ∀ l, l ≠ path.place → t'.entry l = t.entry l) ∧
      ∀ error, (Store.atPath other).exportTo t profile path = .error error →
        ∃ cause, error = .io path cause := by
  intro store
  have hspells := Path.Spells.of_isPlain hplain hnull hlimit
  obtain ⟨name, dir, hplace⟩ := List.exists_cons_of_ne_nil hspells.ne_nil
  rw [hplace] at hspells ⊢
  have hstore : store.currentPath.Spells (name :: dir) := hspells
  have hcodec : store.codec = .xml := rfl
  refine ⟨⟨fun hok => ?_, fun hadmits => ?_⟩, fun t' hpersist => ?_, fun error t' hpersist => ?_,
    Store.prepareDirectory_eq_ok_iff hstore, fun other =>
      ⟨Store.exists_exportTo_iff rfl hspells, fun t' => Store.entry_of_exportTo rfl hspells,
        fun error => Store.exists_of_exportTo_error rfl⟩⟩
  · exact Store.admits_of_persistCurrent hcodec hstore (Prod.ext hok rfl)
  · obtain ⟨t', hpersist, -⟩ := Store.exists_persistCurrent hcodec hstore hadmits
    exact congrArg Prod.fst hpersist
  · -- it succeeded, so the place admits a file, and there is only one outcome
    have hadmits := Store.admits_of_persistCurrent hcodec hstore hpersist
    obtain ⟨_, hpersist', hsaved⟩ := Store.exists_persistCurrent hcodec hstore hadmits
    rw [hpersist] at hpersist'
    cases hpersist'
    exact hsaved
  · rcases Store.persistCurrent_eq_error hpersist with hprepare | ⟨hprepare, hexport⟩
    · obtain ⟨cause, hcause⟩ := Store.exists_of_prepareDirectory_error hstore hprepare
      exact ⟨cause, .inl ⟨hprepare, hcause⟩⟩
    · obtain ⟨cause, hcause⟩ := Store.exists_of_exportTo_error hcodec hexport
      exact ⟨cause, .inr ⟨hprepare, hcause⟩⟩

/-- In an empty tree, a file two directories down is written if it is the fixed file, and the
    directories are made. It cannot be exported, and the error names it. -/
theorem saving_succeeds_iff_empty :
    let path : Path := ⟨"a/b/f"⟩
    (∃ t', (Store.atPath path).persistCurrent .empty .default = (.ok (), t') ∧
      t'.entry [['a']] = some .directory ∧ t'.entry [['b'], ['a']] = some .directory ∧
      ∃ content, t'.entry [['f'], ['b'], ['a']] = some (.file content)) ∧
    ∃ cause, (Store.atPath ⟨"g"⟩).exportTo .empty .default path = .error (.io path cause) := by
  intro path
  have hplace : path.place = [['f'], ['b'], ['a']] := by decide
  obtain ⟨hpersist, hsaved, -, -, hexport⟩ := saving_succeeds_iff .empty .default path (by decide)
    (by decide) (by decide)
  rw [hplace] at hpersist hsaved hexport
  constructor
  · have hshort : ShortNames [['f'], ['b'], ['a']] := by
      unfold ShortNames
      decide
    have hadmits : FileTree.empty.Admits [['f'], ['b'], ['a']] := by
      refine ⟨hshort, fun k _ b => ?_, by simp [FileTree.empty]⟩
      simp only [FileTree.empty]
      split <;> simp
    have hok := hpersist.2 hadmits
    obtain ⟨hfile, habove, -⟩ := hsaved _ (Prod.ext hok rfl)
    exact ⟨_, Prod.ext hok rfl, habove [['a']] (by simp), habove [['b'], ['a']] List.suffix_rfl,
      _, hfile⟩
  · obtain ⟨hiff, -, hfail⟩ := hexport ⟨"g"⟩
    cases hresult : (Store.atPath ⟨"g"⟩).exportTo .empty .default path with
    | error e =>
      obtain ⟨cause, rfl⟩ := hfail e hresult
      exact ⟨cause, rfl⟩
    | ok t' =>
      have hdir := (hiff.1 ⟨t', hresult⟩).2
      simp [FileTree.empty] at hdir

end ChipSettings

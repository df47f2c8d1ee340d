import TexBundle.Proofs.FileSystem.Frames
import TexBundle.Storage.Directory

/-!
# Uploads to directory stores

An upload is either refused, before anything is touched, or the bucket is there and the object is
written, with the directories that it lies in.

* `DirectoryStore.of_objectPath`: where objects are kept;
* `DirectoryStore.upload_cases`, `DirectoryStore.writeObject_cases`: how an upload ends;
* `DirectoryStore.upload_frame`: whether it works or not, nothing changes but below its bucket.
-/

namespace TexBundle.DirectoryStore

open FilePath (steps)

variable {d : DirectoryStore} {t t' t'' : Tree} {bucket key path : Text} {bytes : Bytes}
  {upsert : Bool} {result : Except StorageError Unit} {e : StorageError}

/-! ## Names of buckets -/

theorem isBucketName_iff : isBucketName bucket = true ↔
    bucket ≠ [] ∧ '/' ∉ bucket ∧ '\\' ∉ bucket ∧ Path.climbs bucket = false := by
  have hslash : bucket.any Path.isSlash = false ↔ '/' ∉ bucket ∧ '\\' ∉ bucket := by
    simp only [List.any_eq_false, Path.isSlash, Bool.or_eq_true, beq_iff_eq, not_or]
    exact ⟨fun h => ⟨fun hmem => (h _ hmem).1 rfl, fun hmem => (h _ hmem).2 rfl⟩,
      fun h c hc => ⟨fun e => h.1 (e ▸ hc), fun e => h.2 (e ▸ hc)⟩⟩
  simp [isBucketName, hslash, and_assoc]

theorem isAbsolute_bucket (h : isBucketName bucket = true) : Path.isAbsolute bucket = false := by
  obtain ⟨hne, hslash, -⟩ := isBucketName_iff.1 h
  refine Path.isAbsolute_eq_false ?_
  rw [Path.segments_eq_singleton hslash]
  simpa using hne.symm

/-- Only the bucket `.` is no name of a directory. -/
theorem isName_bucket (h : isBucketName bucket = true) (hdot : bucket ≠ ['.']) :
    Path.IsName bucket := by
  obtain ⟨hne, -, -, hclimbs⟩ := isBucketName_iff.1 h
  refine ⟨hne, hdot, ?_⟩
  rintro rfl
  exact absurd hclimbs (by decide)

theorem steps_bucket (h : isBucketName bucket = true) (hdot : bucket ≠ ['.']) :
    steps bucket = [bucket] := by
  obtain ⟨hne, hslash, -⟩ := isBucketName_iff.1 h
  simp [steps, Path.segments_eq_singleton hslash, hne, hdot]

/-! ## Paths of objects -/

/-- An object is kept below its bucket. -/
theorem of_objectPath (h : d.objectPath bucket key = .ok path) :
    isBucketName bucket = true ∧
      path = FilePath.join (FilePath.join d.root bucket) (Path.dropSlashes key) ∧
      ['.', '.'] ∉ steps (Path.dropSlashes key) := by
  simp only [objectPath, bucketPath] at h
  split at h
  · cases h
  · rename_i haccepted
    split at h
    · rename_i hname
      rw [not_or] at haccepted
      refine ⟨hname, (Except.ok.inj h).symm, fun hmem => ?_⟩
      have hparent : Path.hasParentSegment (Path.dropSlashes key) = false := by
        simpa using haccepted.2
      exact Path.not_dots_of_hasParentSegment hparent (List.mem_filter.1 hmem).1
    · cases h

theorem objectPath_of_relative (hb : isBucketName bucket = true) (hne : key ≠ [])
    (hrelative : Path.isAbsolute key = false) (hparent : Path.hasParentSegment key = false) :
    d.objectPath bucket key = .ok (FilePath.join (FilePath.join d.root bucket) key) := by
  simp [objectPath, bucketPath, Path.dropSlashes_eq_self hrelative, hne, hparent, hb, Except.map]

/-! ## Writing objects -/

theorem writeObject_of_ok (hmake : Tree.fileSystem.makeParent path t = (.ok (), t'))
    (hwrite : t'.write path bytes = .ok t'') :
    writeObject Tree.fileSystem path bytes t = (.ok (), t'') := by
  have hrun : Tree.fileSystem.write path bytes t' = (.ok (), t'') := by
    show Tree.change (·.write path bytes) t' = _
    rw [Tree.change, hwrite]
  rw [writeObject]
  simp only [bind, StateT.bind, hmake, hrun]
  rfl

/-- An object is written, or not more is done than to make directories for it. -/
theorem writeObject_cases (path : Text) (bytes : Bytes) (t : Tree) :
    (∃ t', writeObject Tree.fileSystem path bytes t = (.ok (), t')) ∨
    ∃ cause, writeObject Tree.fileSystem path bytes t =
      (.error (.io cause), (Tree.fileSystem.makeParent path t).2) := by
  rw [writeObject]
  obtain ⟨⟨made, t₁⟩, hmake⟩ : ∃ x, Tree.fileSystem.makeParent path t = x := ⟨_, rfl⟩
  have hwrite : Tree.fileSystem.write path bytes t₁ = Tree.change (·.write path bytes) t₁ := rfl
  simp only [bind, StateT.bind, hmake]
  cases made with
  | error cause => exact .inr ⟨cause, rfl⟩
  | ok _ =>
    simp only [StateT.bind, bind, hwrite, Tree.change]
    cases t₁.write path bytes with
    | error cause => exact .inr ⟨cause, rfl⟩
    | ok t₂ => exact .inl ⟨t₂, rfl⟩

/-! ## Uploads -/

section

variable {σ : Type} {fs : FileSystem (StateM σ)} {s s' : σ}

theorem bucketExists_of_name (hname : isBucketName bucket = true) (fs : FileSystem (StateM σ))
    (s : σ) : d.bucketExists fs bucket s =
      (.ok (fs.isDirectory (FilePath.join d.root bucket) s).1,
        (fs.isDirectory (FilePath.join d.root bucket) s).2) := by
  rw [bucketExists, bucketPath, if_pos hname]
  rfl

theorem upload_of_no_bucket (hbucket : d.bucketExists fs bucket s = (.ok false, s')) :
    d.upload fs bucket key bytes upsert s = (.error (.bucketNotFound bucket), s') := by
  rw [upload]
  simp only [bind, StateT.bind, hbucket]
  rfl

theorem upload_of_no_path (hbucket : d.bucketExists fs bucket s = (.ok true, s'))
    (hpath : d.objectPath bucket key = .error e) :
    d.upload fs bucket key bytes upsert s = (.error e, s') := by
  rw [upload]
  simp only [bind, StateT.bind, hbucket, hpath]
  rfl

end

theorem bucketExists_run (hname : isBucketName bucket = true) (t : Tree) :
    d.bucketExists Tree.fileSystem bucket t =
      (.ok (t.isDirectory (FilePath.join d.root bucket)), t) :=
  bucketExists_of_name hname Tree.fileSystem t

theorem upload_of_present (hbucket : d.bucketExists Tree.fileSystem bucket t = (.ok true, t))
    (hpath : d.objectPath bucket key = .ok path) (hpresent : t.isPresent path = true) :
    d.upload Tree.fileSystem bucket key bytes false t =
      (.error (.objectExists bucket key), t) := by
  have hrun : Tree.fileSystem.isPresent path t = (true, t) := congrArg (·, t) hpresent
  rw [upload]
  simp only [bind, StateT.bind, hbucket, hpath, Bool.not_false, if_true, hrun]
  rfl

theorem upload_eq_writeObject
    (hbucket : d.bucketExists Tree.fileSystem bucket t = (.ok true, t))
    (hpath : d.objectPath bucket key = .ok path)
    (hpresent : (!upsert && t.isPresent path) = false) :
    d.upload Tree.fileSystem bucket key bytes upsert t =
      writeObject Tree.fileSystem path bytes t := by
  rw [upload]
  simp only [bind, StateT.bind, hbucket, hpath]
  cases upsert with
  | true => rfl
  | false =>
    have hrun : Tree.fileSystem.isPresent path t = (false, t) := congrArg (·, t) hpresent
    simp only [Bool.not_false, if_true, StateT.bind, hrun]
    rfl

theorem upload_of_free (hbucket : d.bucketExists Tree.fileSystem bucket t = (.ok true, t))
    (hpath : d.objectPath bucket key = .ok path)
    (hpresent : (!upsert && t.isPresent path) = false)
    (hmake : Tree.fileSystem.makeParent path t = (.ok (), t'))
    (hwrite : t'.write path bytes = .ok t'') :
    d.upload Tree.fileSystem bucket key bytes upsert t = (.ok (), t'') := by
  rw [upload_eq_writeObject hbucket hpath hpresent, writeObject_of_ok hmake hwrite]

/-- An upload is refused with the tree left as it is, or it gets to writing the object. -/
theorem upload_cases (d : DirectoryStore) (bucket key : Text) (bytes : Bytes) (upsert : Bool)
    (t : Tree) :
    (∃ e, (∀ cause, e ≠ .io cause) ∧
      d.upload Tree.fileSystem bucket key bytes upsert t = (.error e, t)) ∨
    ∃ path, d.objectPath bucket key = .ok path ∧
      t.isDirectory (FilePath.join d.root bucket) = true ∧
      d.upload Tree.fileSystem bucket key bytes upsert t =
        writeObject Tree.fileSystem path bytes t := by
  by_cases hname : isBucketName bucket = true
  · have hexists := bucketExists_run (d := d) hname t
    cases hdir : t.isDirectory (FilePath.join d.root bucket) with
    | false =>
      rw [hdir] at hexists
      exact .inl ⟨.bucketNotFound bucket, by simp, upload_of_no_bucket hexists⟩
    | true =>
      rw [hdir] at hexists
      cases hpath : d.objectPath bucket key with
      | error e =>
        refine .inl ⟨e, fun cause => ?_, upload_of_no_path hexists hpath⟩
        rintro rfl
        simp only [objectPath, bucketPath, if_pos hname] at hpath
        split at hpath <;> cases hpath
      | ok path =>
        by_cases hpresent : (!upsert && t.isPresent path) = true
        · obtain ⟨hupsert, hthere⟩ := Bool.and_eq_true_iff.1 hpresent
          obtain rfl : upsert = false := by simpa using hupsert
          exact .inl ⟨.objectExists bucket key, by simp, upload_of_present hexists hpath hthere⟩
        · exact .inr ⟨path, rfl, rfl,
            upload_eq_writeObject hexists hpath (Bool.eq_false_iff.2 hpresent)⟩
  · refine .inl ⟨.invalidKey bucket, by simp, ?_⟩
    rw [upload, bucketExists, bucketPath, if_neg hname]
    rfl

/-- Whether it works or not, an upload changes nothing but below its bucket, and leaves all
directories there. -/
theorem upload_frame (hsound : t.Sound)
    (h : d.upload Tree.fileSystem bucket key bytes upsert t = (result, t')) :
    t.Grows t' ∧ t.Frame (t.placeOf (FilePath.join d.root bucket) <+: ·) t' := by
  obtain ⟨e, -, hrefused⟩ | ⟨path, hpath, hdir, hwritten⟩ :=
    upload_cases d bucket key bytes upsert t
  · obtain ⟨-, rfl⟩ := Prod.mk.inj (hrefused.symm.trans h)
    exact ⟨.refl t, .refl _ t⟩
  · rw [hwritten] at h
    have hgrows := writeObject_keeps ((Tree.fileSystem_looksKeep t.Grows).makeParent
      fun _ _ dir _ => Tree.makeDirectory_grows dir) (Tree.write_grows path bytes) t (.refl t)
    have hframe := writeObject_keeps
      ((Tree.fileSystem_looksKeep (t.Frame (t.OnWay path))).makeParent fun _ hparent dir hmem =>
        Tree.makeDirectory_frame
          (((t.onWay_placeOf dir).of_mem_ancestors hmem).of_parent? hparent))
      (Tree.write_frame (t.onWay_placeOf path) bytes) t (.refl _ t)
    rw [h] at hgrows hframe
    refine ⟨hgrows, hframe.cwd_eq, fun q hq => ?_⟩
    by_cases hway : t.OnWay path q
    · obtain ⟨-, rfl, hdots⟩ := of_objectPath hpath
      obtain hbucket | hbelow := Tree.onWay_join (Path.isAbsolute_dropSlashes key) hdots hway
      · have hthere := Tree.directory_of_onWay hsound hdir hbucket
        rw [hthere]
        exact hgrows.directory q hthere
      · exact absurd hbelow hq
    · exact hframe.node?_eq q hway

end TexBundle.DirectoryStore

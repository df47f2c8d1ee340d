import TexBundle.Proofs.FileSystem.Making
import TexBundle.Proofs.Storage.Access
import TexBundle.Proofs.Storage.Uploading

/-!
# Uploads that fail

An upload that fails writes no file and takes nothing away. But the directories that its object
should lie in are made before the object is written, and they are left behind.

* `DirectoryStore.objectDirectory?`: the directory that an object should lie in;
* `DirectoryStore.upload_failed`: what is left behind, and when;
* `DirectoryStore.upload_failed_leaves`: an upload that leaves a directory behind.
-/

namespace TexBundle.DirectoryStore

variable {d : DirectoryStore} {t t' : Tree} {bucket key path : Text} {bytes : Bytes}
  {upsert : Bool} {e : StorageError}

/-- The directory that an object should lie in. -/
def objectDirectory? (d : DirectoryStore) (bucket key : Text) : Option Text :=
  FilePath.parent? (FilePath.join (FilePath.join d.root bucket) (Path.dropSlashes key))

/-- An upload fails because it is refused, or not more is done than to make directories. -/
theorem upload_error_cases
    (h : d.upload Tree.fileSystem bucket key bytes upsert t = (.error e, t')) :
    (∀ cause, e ≠ .io cause) ∧ t' = t ∨
    ∃ path cause, d.objectPath bucket key = .ok path ∧
      t.isDirectory (FilePath.join d.root bucket) = true ∧ e = .io cause ∧
      t' = (Tree.fileSystem.makeParent path t).2 := by
  obtain ⟨e', hrefused, hrun⟩ | ⟨path, hpath, hdir, hrun⟩ :=
    upload_cases d bucket key bytes upsert t
  · obtain ⟨he, rfl⟩ := Prod.mk.inj (hrun.symm.trans h)
    exact .inl ⟨Except.error.inj he ▸ hrefused, rfl⟩
  · rw [hrun] at h
    obtain ⟨t'', hok⟩ | ⟨cause, hfailed⟩ := writeObject_cases path bytes t
    · rw [hok] at h
      cases h
    · obtain ⟨he, rfl⟩ := Prod.mk.inj (hfailed.symm.trans h)
      exact .inr ⟨path, cause, hpath, hdir, (Except.error.inj he).symm, rfl⟩

/-- Directories are made for an object below its bucket, on the way to where it should lie. -/
theorem of_node?_makeParent (hsound : t.Sound) (hpath : d.objectPath bucket key = .ok path)
    (hdir : t.isDirectory (FilePath.join d.root bucket) = true) {q : List Text}
    (hfree : t.node? q = none)
    (hmade : (Tree.fileSystem.makeParent path t).2.node? q = some .directory) :
    t.placeOf (FilePath.join d.root bucket) <+: q ∧
      ∃ dir, d.objectDirectory? bucket key = some dir ∧ t.OnWay dir q := by
  have hframe := Tree.makeParent_frame t path t (.refl _ t)
  obtain ⟨-, rfl, hdots⟩ := of_objectPath hpath
  obtain ⟨dir, hparent, hway⟩ : ∃ dir, d.objectDirectory? bucket key = some dir ∧
      t.OnWay dir q := by
    by_contra hnot
    rw [hframe.node?_eq q hnot, hfree] at hmade
    cases hmade
  refine ⟨?_, dir, hparent, hway⟩
  obtain hbucket | hbelow :=
    Tree.onWay_join (Path.isAbsolute_dropSlashes key) hdots (hway.of_parent? hparent)
  · rw [Tree.directory_of_onWay hsound hdir hbucket] at hfree
    cases hfree
  · exact hbelow

/-- If an upload fails, then everything is as before, but for directories that were missing, below
the bucket and on the way to the object. It leaves such directories behind exactly if it fails with
an i/o error, and the directory that the object should lie in was not found before. -/
theorem upload_failed (hsound : t.Sound)
    (h : d.upload Tree.fileSystem bucket key bytes upsert t = (.error e, t')) :
    t'.cwd = t.cwd ∧
    (∀ q, t'.node? q = t.node? q ∨
      t.node? q = none ∧ t'.node? q = some .directory ∧
        t.placeOf (FilePath.join d.root bucket) <+: q ∧
        ∃ dir, d.objectDirectory? bucket key = some dir ∧ t.OnWay dir q) ∧
    (t' ≠ t ↔ ∃ cause dir, e = .io cause ∧ d.objectDirectory? bucket key = some dir ∧ dir ≠ [] ∧
      t.find dir = .error .notFound) := by
  obtain ⟨hrefused, rfl⟩ | ⟨path, cause, hpath, hdir, rfl, rfl⟩ := upload_error_cases h
  · refine ⟨rfl, fun q => .inl rfl, iff_of_false (not_not_intro rfl) ?_⟩
    rintro ⟨cause, -, he, -⟩
    exact hrefused cause he
  · have hextends : t.Extends (Tree.fileSystem.makeParent path t).2 :=
      Tree.extends_of_makeParent rfl
    refine ⟨hextends.grows.cwd_eq, fun q => ?_, ?_⟩
    · obtain hsame | ⟨hfree, hmade⟩ := hextends.node?_cases q
      · exact .inl hsame
      · exact .inr ⟨hfree, hmade, of_node?_makeParent hsound hpath hdir hfree hmade⟩
    · rw [Tree.makeParent_ne_iff, (of_objectPath hpath).2.1]
      exact ⟨fun ⟨dir, hdir⟩ => ⟨cause, dir, rfl, hdir⟩, fun ⟨_, dir, _, hdir⟩ => ⟨dir, hdir⟩⟩

/-- Of two directories that an object should lie in, one is there and one is made, and then the path
turns out to be that of a directory itself. The slashes and the `.` between the two are kept. -/
theorem upload_failed_of_slash :
    let t : Tree := { nodes := [(["b", "d"], .directory), (["b"], .directory)] }
    let t' : Tree :=
      { nodes := [(["b", "d", "e"], .directory), (["b", "d"], .directory), (["b"], .directory)] }
    t.Sound ∧ objectDirectory? ⟨[]⟩ "b" "d//./e/x/" = some "b/d//./e" ∧
      upload ⟨[]⟩ Tree.fileSystem "b" "d//./e/x/" [88] false t = (.error (.io .isDirectory), t') ∧
      t' ≠ t ∧
      ∀ q, t'.node? q = t.node? q ∨ t'.node? q = some .directory ∧ [("b" : Text)] <+: q := by
  have hsound : Tree.Sound { nodes := [(["b", "d"], .directory), (["b"], .directory)] } :=
    ⟨Tree.closed_of_nodes (by decide), rfl⟩
  have hrun : upload ⟨[]⟩ Tree.fileSystem "b" "d//./e/x/" [88] false
      { nodes := [(["b", "d"], .directory), (["b"], .directory)] } =
      (.error (.io .isDirectory),
        { nodes := [(["b", "d", "e"], .directory), (["b", "d"], .directory),
          (["b"], .directory)] }) := by rfl
  have hdirectory : objectDirectory? ⟨[]⟩ "b" "d//./e/x/" = some "b/d//./e" := by decide
  obtain ⟨-, hnodes, hleft⟩ := upload_failed hsound hrun
  exact ⟨hsound, hdirectory, hrun,
    hleft.2 ⟨.isDirectory, "b/d//./e", rfl, hdirectory, by decide, by rfl⟩,
    fun q => (hnodes q).imp_right fun ⟨_, hmade, hbelow, _⟩ => ⟨hmade, hbelow⟩⟩

/-- A bucket with nothing in it, and after an upload that fails a directory in it. -/
theorem upload_failed_leaves :
    let store := DirectoryStore.store ⟨"store"⟩ Tree.fileSystem
    let t : Tree := { nodes := [(["store", "b"], .directory), (["store"], .directory)] }
    store.answer (.createBucket "b") {} = (.ok .done, t) ∧
      store.answer (.upload "b" "d/x/" [88] false) t =
        (.error (.io .isDirectory), t.put ["store", "b", "d"] .directory) ∧
      t.node? ["store", "b", "d"] = none := by
  intro store t
  exact ⟨rfl, rfl, rfl⟩

end TexBundle.DirectoryStore

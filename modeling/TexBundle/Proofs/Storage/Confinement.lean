import TexBundle.Proofs.FileSystem.Lexical
import TexBundle.Proofs.Storage.Failing
import TexBundle.Proofs.Storage.Touching

/-!
# Where directory stores reach

The calls of a directory store ask the file system for operations at paths that are made of the
root, the bucket and the key. Whatever these are, they cannot lead out of the bucket's directory.
What happens outside is that the directories are made which the bucket itself lies in.

* `DirectoryStore.Confined`: a call is refused, or all that it asks for is within its bucket, or
  among the exceptions that are allowed for;
* `DirectoryStore.Outside`, `DirectoryStore.OutsideOn`: the exceptions, on any file system, and on a
  directory tree;
* `DirectoryStore.store_confined`: all calls are confined;
* `DirectoryStore.not_confined_of_root`: without exceptions they are not.
-/

namespace TexBundle

/-- What is asked for to have a directory: to make it, or else to look whether it is there. -/
def Touch.Makes (dir : Text) (touch : Touch) : Prop := touch = .make dir ∨ touch = .look dir

namespace DirectoryStore

open FilePath (steps Within Through)

variable {σ : Type} {d : DirectoryStore} {t : Tree} {bucket key path : Text} {access : Access}
  {bytes : Bytes} {upsert : Bool} {e : StorageError} {found : Bool}
  {outside : Touch → Prop} {outcome : Except StorageError Reply × Touched σ}

/-- Why a call is refused: its bucket is not found, or no path can be made of its bucket or key. -/
def Refuses (d : DirectoryStore) (access : Access) (found : Bool) (e : StorageError) : Prop :=
  found = false ∧ e = .bucketNotFound access.bucket ∨
  isBucketName access.bucket = false ∧ e = .invalidKey access.bucket ∨
  ∃ key ∈ access.key?, d.objectPath access.bucket key = .error e ∧ e = .invalidKey key

/-- A call is refused, and nothing has been asked for but whether the bucket is there. -/
structure Refused (d : DirectoryStore) (access : Access) (found : Bool)
    (outcome : Except StorageError Reply × Touched σ) : Prop where
  error : ∃ e, outcome.1 = .error e ∧ d.Refuses access found e
  touches : ∀ touch ∈ outcome.2.touches, touch = .look (FilePath.join d.root access.bucket) ∧
    Within d.root (FilePath.join d.root access.bucket)

/-- What is within a bucket, or an exception. -/
def Allows (d : DirectoryStore) (bucket : Text) (outside : Touch → Prop) (touch : Touch) : Prop :=
  Within (FilePath.join d.root bucket) touch.path ∨ outside touch

/-- The directory of the bucket is within the root, the object is within this directory, and so is
all that has been asked for, but for exceptions. -/
structure Admitted (d : DirectoryStore) (access : Access) (outside : Touch → Prop)
    (outcome : Except StorageError Reply × Touched σ) : Prop where
  bucket : Within d.root (FilePath.join d.root access.bucket)
  object : ∀ key ∈ access.key?, ∃ path, d.objectPath access.bucket key = .ok path ∧
    Within (FilePath.join d.root access.bucket) path
  touches : ∀ touch ∈ outcome.2.touches, d.Allows access.bucket outside touch

/-- A call is refused, or it keeps to its bucket, but for exceptions. -/
def Confined (d : DirectoryStore) (access : Access) (found : Bool) (outside : Touch → Prop)
    (outcome : Except StorageError Reply × Touched σ) : Prop :=
  d.Refused access found outcome ∨ d.Admitted access outside outcome

/-- What may be asked for outside of a bucket, whatever the file system is: to make the directories
that the bucket lies in, before it or an object in it is made. -/
def Outside (d : DirectoryStore) (access : Access) (touch : Touch) : Prop :=
  match access with
  | .createBucket bucket | .upload bucket .. =>
    ∃ dir, Through (FilePath.join d.root bucket) dir ∧ touch.Makes dir
  | .bucketExists _ | .download .. => False

/-- If the file system is a directory tree, then this happens only as long as the root is missing,
or for a key without names in it, and then the directory is there already. -/
def OutsideOn (t : Tree) (d : DirectoryStore) (access : Access) (touch : Touch) : Prop :=
  match access with
  | .createBucket bucket =>
    t.isDirectory d.root = false ∧
      ∃ dir, Through (FilePath.join d.root bucket) dir ∧ touch.Makes dir
  | .upload bucket key .. =>
    steps (Path.dropSlashes key) = [] ∧
      ∃ dir, d.objectDirectory? bucket key = some dir ∧ t.isDirectory dir = true ∧ touch.Makes dir
  | .bucketExists _ | .download .. => False

/-! ## Paths of buckets and objects -/

theorem within_bucket (h : isBucketName bucket = true) (root : Text) :
    Within root (FilePath.join root bucket) := by
  refine FilePath.within_join (isAbsolute_bucket h) (fun hmem => ?_) root
  obtain ⟨-, hslash, -, hclimbs⟩ := isBucketName_iff.1 h
  have hsegment := (List.mem_filter.1 hmem).1
  rw [Path.segments_eq_singleton hslash, List.mem_singleton] at hsegment
  subst hsegment
  exact absurd hclimbs (by decide)

theorem within_object (h : d.objectPath bucket key = .ok path) :
    Within (FilePath.join d.root bucket) path := by
  obtain ⟨-, rfl, hdots⟩ := of_objectPath h
  exact FilePath.within_join (Path.isAbsolute_dropSlashes key) hdots _

theorem join_bucket_ne_nil (h : isBucketName bucket = true) (root : Text) :
    FilePath.join root bucket ≠ [] := by
  intro hnil
  have hsuffix := FilePath.isSuffix_join root bucket
  rw [hnil, List.suffix_nil] at hsuffix
  exact (isBucketName_iff.1 h).1 hsuffix

theorem bucketPath_eq_ok_iff : d.bucketPath bucket = .ok path ↔
    isBucketName bucket = true ∧ FilePath.join d.root bucket = path := by
  rw [bucketPath]
  split
  · rename_i h
    simp [h]
  · rename_i h
    simp [h]

/-- No path is made of a key that is refused, or of a bucket that is. -/
theorem of_objectPath_error (h : d.objectPath bucket key = .error e) :
    isBucketName bucket = false ∧ e = .invalidKey bucket ∨ e = .invalidKey key := by
  simp only [objectPath, bucketPath] at h
  split at h
  · exact .inr (Except.error.inj h).symm
  · split at h
    · cases h
    · exact .inl ⟨Bool.eq_false_iff.2 ‹_›, (Except.error.inj h).symm⟩

/-! ## Calls that are refused -/

theorem refuses_of_bucket (h : ¬ isBucketName access.bucket = true) :
    d.Refuses access found (.invalidKey access.bucket) :=
  .inr (.inl ⟨Bool.eq_false_iff.2 h, rfl⟩)

theorem refuses_of_objectPath (hkey : access.key? = some key)
    (h : d.objectPath access.bucket key = .error e) : d.Refuses access found e :=
  .inr ((of_objectPath_error h).imp_right fun he => ⟨key, hkey, h, he⟩)

theorem refused_of_error (access : Access) (he : d.Refuses access found e) (inner : σ) :
    d.Refused access found (.error e, ⟨inner, []⟩) :=
  ⟨⟨e, rfl, he⟩, by simp⟩

/-- The bucket has been looked for before. -/
theorem refused_of_look (access : Access) (he : d.Refuses access found e)
    (hname : isBucketName access.bucket = true) (inner : σ) : d.Refused access found
      (.error e, ⟨inner, [.look (FilePath.join d.root access.bucket)]⟩) :=
  ⟨⟨e, rfl, he⟩, fun _ htouch => ⟨List.mem_singleton.1 htouch, within_bucket hname d.root⟩⟩

theorem answer_upload_of_error {fs : FileSystem (StateM σ)} {s s' : σ}
    (h : d.upload fs bucket key bytes upsert s = (.error e, s')) :
    (d.store fs).answer (.upload bucket key bytes upsert) s = (.error e, s') := by
  have hanswer : (d.store fs).answer (.upload bucket key bytes upsert) s =
    ((d.upload fs bucket key bytes upsert s).1.map fun _ => .done,
      (d.upload fs bucket key bytes upsert s).2) := rfl
  rw [hanswer, h]
  rfl

/-! ## Calls that are admitted -/

section

variable {fs : FileSystem (StateM σ)} {J : σ → Prop} {s : σ}

theorem confined_of_keeps (hs : J s) (hname : isBucketName access.bucket = true)
    (hobject : ∀ key ∈ access.key?, ∃ path, d.objectPath access.bucket key = .ok path)
    (hkeeps : Keeps (Touched.Holds J (d.Allows access.bucket outside))
      ((d.store (Touched.fileSystem fs)).answer access)) :
    d.Confined access found outside
      ((d.store (Touched.fileSystem fs)).answer access ⟨s, []⟩) := by
  refine .inr ⟨within_bucket hname d.root, fun key hkey => ?_, (hkeeps ⟨s, []⟩ ⟨hs, by simp⟩).2⟩
  obtain ⟨path, hpath⟩ := hobject key hkey
  exact ⟨path, hpath, within_object hpath⟩

variable (hlooks : fs.LooksKeep J) (hwrite : ∀ path bytes, Keeps J (fs.write path bytes)) (hs : J s)

include hlooks

theorem look_keeps (path : Text) (hpath : d.bucketPath bucket = .ok path) :
    Keeps (Touched.Holds J (d.Allows bucket outside))
      ((Touched.fileSystem fs).isDirectory path) := by
  obtain ⟨-, rfl⟩ := bucketPath_eq_ok_iff.1 hpath
  exact Touched.note_keeps (hlooks.isDirectory _) (.inl (.refl _))

include hs

theorem bucketExists_confined (bucket : Text) : d.Confined (.bucketExists bucket) found outside
    ((d.store (Touched.fileSystem fs)).answer (.bucketExists bucket) ⟨s, []⟩) := by
  by_cases hname : isBucketName bucket = true
  · exact confined_of_keeps hs hname (by simp [Access.key?])
      (.bind (bucketExists_keeps (look_keeps hlooks)) fun _ => .pure _)
  · have hpath : d.bucketPath bucket = .error (.invalidKey bucket) := if_neg hname
    simp only [ObjectStore.answer, store, bucketExists, hpath]
    exact .inl (refused_of_error (.bucketExists bucket) (refuses_of_bucket hname) s)

theorem createBucket_confined
    (hmake : isBucketName bucket = true → Keeps (Touched.Holds J (d.Allows bucket outside))
      ((Touched.fileSystem fs).makeDirectories (FilePath.join d.root bucket))) :
    d.Confined (.createBucket bucket) found outside
      ((d.store (Touched.fileSystem fs)).answer (.createBucket bucket) ⟨s, []⟩) := by
  by_cases hname : isBucketName bucket = true
  · refine confined_of_keeps hs hname (by simp [Access.key?])
      (.bind (createBucket_keeps (look_keeps hlooks) fun path hpath => ?_) fun _ => .pure _)
    obtain ⟨-, rfl⟩ := bucketPath_eq_ok_iff.1 hpath
    exact hmake hname
  · have hpath : d.bucketPath bucket = .error (.invalidKey bucket) := if_neg hname
    simp only [ObjectStore.answer, store, createBucket, hpath]
    exact .inl (refused_of_error (.createBucket bucket) (refuses_of_bucket hname) s)

theorem download_confined (bucket key : Text) : d.Confined (.download bucket key) found outside
    ((d.store (Touched.fileSystem fs)).answer (.download bucket key) ⟨s, []⟩) := by
  cases hpath : d.objectPath bucket key with
  | ok path =>
    refine confined_of_keeps hs (of_objectPath hpath).1
      (by simp [Access.key?, Access.bucket, hpath]) (.bind (download_keeps fun path hpath => ?_) fun _ => .pure _)
    exact Touched.note_keeps (hlooks.read path) (.inl (within_object hpath))
  | error e =>
    simp only [ObjectStore.answer, store, download, hpath]
    exact .inl (refused_of_error (.download bucket key) (refuses_of_objectPath rfl hpath) s)

include hwrite

theorem upload_confined
    (hmake : (fs.isDirectory (FilePath.join d.root bucket) s).1 = true →
      ∀ path, d.objectPath bucket key = .ok path →
        Keeps (Touched.Holds J (d.Allows bucket outside))
          ((Touched.fileSystem fs).makeParent path)) :
    d.Confined (.upload bucket key bytes upsert)
      (fs.isDirectory (FilePath.join d.root bucket) s).1 outside
      ((d.store (Touched.fileSystem fs)).answer (.upload bucket key bytes upsert) ⟨s, []⟩) := by
  by_cases hname : isBucketName bucket = true
  · obtain ⟨⟨there, s'⟩, hlook⟩ :
      ∃ x, fs.isDirectory (FilePath.join d.root bucket) s = x := ⟨_, rfl⟩
    have hbucket : d.bucketExists (Touched.fileSystem fs) bucket ⟨s, []⟩ =
        (.ok there, ⟨s', [.look (FilePath.join d.root bucket)]⟩) := by
      rw [bucketExists_of_name hname, Touched.isDirectory_run hlook]
    cases there with
    | false =>
      rw [hlook, answer_upload_of_error (upload_of_no_bucket hbucket)]
      exact .inl (refused_of_look (.upload bucket key bytes upsert) (.inl ⟨rfl, rfl⟩) hname s')
    | true =>
      cases hpath : d.objectPath bucket key with
      | error e =>
        rw [answer_upload_of_error (upload_of_no_path hbucket hpath)]
        exact .inl (refused_of_look (.upload bucket key bytes upsert)
          (refuses_of_objectPath rfl hpath) hname s')
      | ok path =>
        refine confined_of_keeps hs hname (by simp [Access.key?, Access.bucket, hpath])
          (.bind (upload_keeps (look_keeps hlooks) (fun path hpath => ?_) fun path hpath => ?_)
            fun _ => .pure _)
        · exact Touched.note_keeps (hlooks.isPresent path) (.inl (within_object hpath))
        · exact writeObject_keeps (hmake (by rw [hlook]) path hpath)
            (Touched.note_keeps (hwrite path bytes) (.inl (within_object hpath)))
  · have hpath : d.bucketPath bucket = .error (.invalidKey bucket) := if_neg hname
    simp only [ObjectStore.answer, store, upload, bucketExists, hpath]
    exact .inl (refused_of_error (.upload bucket key bytes upsert) (refuses_of_bucket hname) s)

end

/-- Whatever the file system does, a directory is made at its own path or at one that this path goes
through. -/
theorem confined_outside (d : DirectoryStore) (access : Access) (fs : FileSystem (StateM σ))
    (s : σ) : d.Confined access (fs.isDirectory (FilePath.join d.root access.bucket) s).1
      (d.Outside access) ((d.store (Touched.fileSystem fs)).answer access ⟨s, []⟩) := by
  have hlooks : fs.LooksKeep fun _ => True :=
    ⟨fun _ _ _ => trivial, fun _ _ _ => trivial, fun _ _ _ => trivial⟩
  have hmake (path : Text) : Keeps (fun _ => True) (fs.makeDirectory path) := fun _ _ => trivial
  cases access with
  | bucketExists bucket => exact bucketExists_confined hlooks trivial bucket
  | download bucket key => exact download_confined hlooks trivial bucket key
  | createBucket bucket =>
    refine createBucket_confined hlooks trivial fun _ =>
      Touched.makeDirectories_keeps hlooks hmake fun q hq => ?_
    have hthrough := FilePath.through_of_mem_ancestors hq
    exact ⟨.inr ⟨q, hthrough, .inl rfl⟩, .inr ⟨q, hthrough, .inr rfl⟩⟩
  | upload bucket key bytes upsert =>
    refine upload_confined hlooks (fun _ _ _ _ => trivial) trivial fun _ path hpath => ?_
    obtain ⟨-, rfl, hdots⟩ := of_objectPath hpath
    rw [FileSystem.makeParent]
    split
    · rename_i parent hparent
      refine Touched.makeDirectories_keeps hlooks hmake fun q hq => ?_
      obtain hwithin | hthrough := ((FilePath.through_of_parent? hparent).trans
        (FilePath.through_of_mem_ancestors hq)).join (Path.isAbsolute_dropSlashes key) hdots
      · exact ⟨.inl hwithin, .inl hwithin⟩
      · exact ⟨.inr ⟨q, hthrough, .inl rfl⟩, .inr ⟨q, hthrough, .inr rfl⟩⟩
    · exact .pure _

/-! ## Calls on directory trees -/

/-- If the root is there, then so is what a bucket lies in. -/
theorem makeDirectory_bucket_ne (hname : isBucketName bucket = true)
    (hroot : t.isDirectory d.root = true) :
    t.makeDirectory (FilePath.join d.root bucket) ≠ .error .notFound := by
  intro hmissing
  have hrelative := isAbsolute_bucket hname
  obtain ⟨-, hwalk⟩ := Tree.walk_of_find (Tree.find_of_isDirectory hroot)
  obtain ⟨hpath, hnone⟩ := Tree.walk_of_find_notFound (join_bucket_ne_nil hname d.root)
    (Tree.find_of_missing (.inr hmissing))
  have hstart : t.start (FilePath.join d.root bucket) = t.start d.root := by
    rw [Tree.start, Tree.start, FilePath.isAbsolute_join hrelative]
  by_cases hdot : bucket = ['.']
  · subst hdot
    rw [hstart, FilePath.steps_join hrelative, show steps ['.'] = [] by decide, List.append_nil,
      hwalk] at hnone
    cases hnone
  · have hsteps : steps (FilePath.join d.root bucket) = steps d.root ++ [bucket] := by
      rw [FilePath.steps_join hrelative, steps_bucket hname hdot]
    have hlast : ((Path.segments (FilePath.join d.root bucket)).filter (· ≠ [])).getLast? =
        some bucket := by
      obtain ⟨hne, hslash, -⟩ := isBucketName_iff.1 hname
      have hsegments : (Path.segments (FilePath.join d.root bucket)).getLast? = some bucket := by
        rw [FilePath.getLast?_segments_join hrelative, Path.segments_eq_singleton hslash]
        rfl
      obtain ⟨segs, hsegs⟩ := List.getLast?_eq_some_iff.1 hsegments
      rw [hsegs, List.filter_append, List.filter_cons_of_pos (by simp [hne]), List.filter_nil,
        List.getLast?_concat]
    obtain ⟨t', hmade⟩ | ⟨-, hinit⟩ := Tree.makeDirectory_of_walk hpath hsteps hlast hnone
    · rw [hmade] at hmissing
      cases hmissing
    · rw [hstart, hwalk] at hinit
      cases hinit

theorem makeDirectory_run_ne {path : Text}
    (h : ∀ t', t.Grows t' → t'.makeDirectory path ≠ .error .notFound) (t' : Tree)
    (hgrows : t.Grows t') : (Tree.fileSystem.makeDirectory path t').1 ≠ .error .notFound := by
  have hne := h t' hgrows
  rw [Tree.makeDirectory_run, Tree.change]
  cases hmake : t'.makeDirectory path with
  | ok _ => simp
  | error e =>
    rw [hmake] at hne
    simpa using hne

/-- What a directory lies in need not be made, and is never found to be missing. -/
theorem upTo_stops (hdir : t.isDirectory path = true) (n : Nat) :
    FilePath.upTo path n = [] ∨ ∀ t', t.Grows t' →
      (Tree.fileSystem.makeDirectory (FilePath.upTo path n) t').1 ≠ .error .notFound := by
  by_cases hne : FilePath.upTo path n = []
  · exact .inl hne
  · refine .inr (makeDirectory_run_ne fun t' hgrows => ?_)
    rw [(Tree.makeDirectory_upTo (hgrows.isDirectory hdir) hne).2]
    simp

theorem createBucket_confinedOn (d : DirectoryStore) (t : Tree) (bucket : Text) :
    d.Confined (.createBucket bucket) found (d.OutsideOn t (.createBucket bucket))
      ((d.store (Touched.fileSystem Tree.fileSystem)).answer (.createBucket bucket) ⟨t, []⟩) := by
  have hlooks := Tree.fileSystem_looksKeep t.Grows
  refine createBucket_confined hlooks (.refl t) fun hname => ?_
  cases hroot : t.isDirectory d.root with
  | true =>
    -- The root is there, and nothing is missing but the directory of the bucket itself.
    have hstop : ∀ t', t.Grows t' →
        t'.makeDirectory (FilePath.join d.root bucket) ≠ .error .notFound :=
      fun t' hgrows => makeDirectory_bucket_ne hname (hgrows.isDirectory hroot)
    refine Touched.makeFirst_keeps hlooks Tree.makeDirectory_grows (fun q hq _ => ?_)
      (.inr ⟨_, List.mem_singleton_self _, .inr (makeDirectory_run_ne hstop)⟩)
    rw [List.mem_singleton.1 hq]
    exact ⟨.inl (.refl _), .inl (.refl _)⟩
  | false =>
    refine Touched.makeDirectories_keeps hlooks Tree.makeDirectory_grows fun q hq => ?_
    have hthrough := FilePath.through_of_mem_ancestors hq
    exact ⟨.inr ⟨hroot, q, hthrough, .inl rfl⟩, .inr ⟨hroot, q, hthrough, .inr rfl⟩⟩

/-- As the bucket is there, so is all that it lies in, which is asked for only if the key has no
names in it. -/
theorem makeParent_keepsOn (hpath : d.objectPath bucket key = .ok path)
    (hdir : t.isDirectory (FilePath.join d.root bucket) = true) :
    Keeps (Touched.Holds t.Grows
        (d.Allows bucket (d.OutsideOn t (.upload bucket key bytes upsert))))
      ((Touched.fileSystem Tree.fileSystem).makeParent path) := by
  have hlooks := Tree.fileSystem_looksKeep t.Grows
  obtain ⟨hname, rfl, hdots⟩ := of_objectPath hpath
  have hrelative := Path.isAbsolute_dropSlashes key
  have hne := join_bucket_ne_nil hname d.root
  rw [FileSystem.makeParent]
  split
  · rename_i parent hparent
    obtain ⟨hsteps, hbucket⟩ | ⟨n, hle, hlength, rfl⟩ :=
      FilePath.parent?_join hne hrelative hparent
    · obtain ⟨n, rfl⟩ := FilePath.eq_upTo_of_parent? hbucket
      refine Touched.makeFirst_keeps hlooks Tree.makeDirectory_grows (fun q hq hq' => ?_)
        (.inr ⟨_, List.mem_singleton_self _, upTo_stops hdir n⟩)
      obtain rfl := List.mem_singleton.1 hq
      have hthere := (Tree.makeDirectory_upTo hdir hq').1
      exact ⟨.inr ⟨hsteps, _, hparent, hthere, .inl rfl⟩,
        .inr ⟨hsteps, _, hparent, hthere, .inr rfl⟩⟩
    · obtain ⟨inner, outer, hall, hinner, hmem⟩ :=
        FilePath.ancestors_join hne hrelative hdots hle hlength
      rw [FileSystem.makeDirectories, hall]
      exact Touched.makeFirst_keeps hlooks Tree.makeDirectory_grows
        (fun q hq _ => ⟨.inl (hinner q hq), .inl (hinner q hq)⟩)
        (.inr ⟨_, hmem, upTo_stops hdir _⟩)
  · exact .pure _

/-- On a tree, what is asked for outside is limited further. -/
theorem confined_outsideOn (d : DirectoryStore) (access : Access) (t : Tree) :
    d.Confined access (t.isDirectory (FilePath.join d.root access.bucket)) (d.OutsideOn t access)
      ((d.store (Touched.fileSystem Tree.fileSystem)).answer access ⟨t, []⟩) := by
  have hlooks := Tree.fileSystem_looksKeep t.Grows
  cases access with
  | bucketExists bucket => exact bucketExists_confined hlooks (.refl t) bucket
  | download bucket key => exact download_confined hlooks (.refl t) bucket key
  | createBucket bucket => exact createBucket_confinedOn d t bucket
  | upload bucket key bytes upsert =>
    exact upload_confined hlooks Tree.write_grows (.refl t) fun hdir path hpath =>
      makeParent_keepsOn hpath hdir

/-! ## All calls -/

/-- Whatever bucket and key are passed to a call, and whatever the file system does: the call is
refused for one of them, and then at most the bucket has been looked for, or all that is asked for
is within the bucket, but for directories that are made because the bucket lies in them. In a
directory tree, that happens only as long as the root is missing, or for a key without names in it,
and then the directory is there. Writing down what is asked for changes neither results nor
states. -/
theorem store_confined (d : DirectoryStore) (access : Access) :
    (∀ {σ : Type} (fs : FileSystem (StateM σ)) (s : σ),
      let outcome := (d.store (Touched.fileSystem fs)).answer access ⟨s, []⟩
      d.Confined access (fs.isDirectory (FilePath.join d.root access.bucket) s).1
          (d.Outside access) outcome ∧
        outcome.1 = ((d.store fs).answer access s).1 ∧
        outcome.2.inner = ((d.store fs).answer access s).2) ∧
    ∀ t : Tree,
      d.Confined access (t.isDirectory (FilePath.join d.root access.bucket)) (d.OutsideOn t access)
        ((d.store (Touched.fileSystem Tree.fileSystem)).answer access ⟨t, []⟩) :=
  ⟨fun fs s => ⟨confined_outside d access fs s, Touched.answer_mimics access ⟨s, []⟩⟩,
    confined_outsideOn d access⟩

theorem not_confined_of_mem {touch : Touch} (hmem : touch ∈ outcome.2.touches)
    (hwithin : ¬ Within (FilePath.join d.root access.bucket) touch.path) :
    ¬ d.Confined access found (fun _ => False) outcome := by
  rintro (hrefused | hadmitted)
  · rw [(hrefused.touches touch hmem).1] at hwithin
    exact hwithin (.refl _)
  · exact (hadmitted.touches touch hmem).elim hwithin id

/-- The first bucket of a store, for which the root is made as well, and an object whose key is a
dot, so that the root is the directory that it should lie in. -/
theorem not_confined_of_root :
    let d : DirectoryStore := ⟨"store"⟩
    let store := d.store (Touched.fileSystem Tree.fileSystem)
    let t : Tree := { nodes := [(["store", "b"], .directory), (["store"], .directory)] }
    let created := store.answer (.createBucket "b") ⟨{}, []⟩
    let uploaded := store.answer (.upload "b" "." [] true) ⟨t, []⟩
    created.1 = .ok .done ∧ created.2.inner = t ∧ Touch.make "store" ∈ created.2.touches ∧
      ¬ d.Confined (.createBucket "b") false (fun _ => False) created ∧
      uploaded.1 = .error (.io .isDirectory) ∧ Touch.make "store" ∈ uploaded.2.touches ∧
      ¬ d.Confined (.upload "b" "." [] true) true (fun _ => False) uploaded := by
  intro d store t created uploaded
  have hout : ¬ Within (FilePath.join d.root "b") (Touch.path (.make "store")) := by
    rintro ⟨-, more, hmore, -⟩
    have hprefix : steps (FilePath.join "store" "b") <+: steps "store" := ⟨more, hmore.symm⟩
    exact absurd hprefix (by decide)
  have hmade : Touch.make "store" ∈ created.2.touches := by decide
  have hasked : Touch.make "store" ∈ uploaded.2.touches := by decide
  exact ⟨by decide, by decide, hmade, not_confined_of_mem hmade hout,
    by decide, hasked, not_confined_of_mem hasked hout⟩

end DirectoryStore

end TexBundle

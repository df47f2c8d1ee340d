import TexBundle.Proofs.FileSystem.Descents
import TexBundle.Proofs.Storage.Access
import TexBundle.Proofs.Storage.Uploading

/-!
# Buckets of a directory store

Different buckets are different directories of the root, so that what happens in one of them leaves
the others alone. The exception is the bucket `.`, which is accepted and is the root itself, with
all other buckets in it.

* `DirectoryStore.Isolated`: uploads to one bucket make no difference to downloads from another one;
* `DirectoryStore.isolated_of_ne`: so it is for all buckets but `.`;
* `DirectoryStore.isolated_iff`: when it is so, for any two buckets;
* `DirectoryStore.not_isolated_dot`: an object that comes up in a bucket from outside.
-/

namespace TexBundle

open FilePath (steps)

namespace Tree

variable {t : Tree} {path : Text} {place init : List Text} {name : Text}

/-- No path goes on behind a name that is too long. -/
theorem find_of_long_name (hpath : IsPath path) (hwalk : t.walk (t.start path) init = .ok place)
    (hsteps : init ++ [name] <+: steps path) (hname : Path.IsName name)
    (hlong : maxName < name.size) : t.find path = .error .nameTooLong := by
  have hstop (more : List Text) :
      t.walk (t.start path) ((init ++ [name]) ++ more) = .error .nameTooLong := by
    rw [walk_append, walk_append, hwalk]
    simp [Except.bind, walk, hname.2.1, hname.2.2, hlong]
  rw [find]
  obtain hlocate | ⟨init', last, hends, hlocate⟩ := locate_cases hpath
  · obtain ⟨more, hmore⟩ := hsteps
    rw [hlocate, ← hmore, hstop]
    rfl
  · rw [hends.steps_eq] at hsteps
    obtain hall | ⟨more, hmore⟩ := List.prefix_concat_iff.1 hsteps
    · obtain ⟨rfl, hlast⟩ := List.append_inj' hall rfl
      obtain rfl := List.singleton_inj.1 hlast
      rw [hlocate, hwalk]
      simp only [Except.map, bind, Except.bind, hlong, if_true]
      rfl
    · rw [hlocate, ← hmore, hstop]
      rfl

end Tree

namespace DirectoryStore

open TexBundle.Path (segments)

variable {d : DirectoryStore} {t t' : Tree} {bucket bucket' key key' path path' : Text}
  {bytes : Bytes} {upsert : Bool}

/-- A successful upload to one bucket makes no difference to what is downloaded from another one:
no object comes up there, none changes and none goes away. -/
def Isolated (bucket bucket' : Text) : Prop :=
  ∀ (d : DirectoryStore) (t t' : Tree) (key : Text) (bytes : Bytes) (upsert : Bool), t.Sound →
    d.upload Tree.fileSystem bucket key bytes upsert t = (.ok (), t') →
    ∀ key', (d.download Tree.fileSystem bucket' key' t').1 =
      (d.download Tree.fileSystem bucket' key' t).1

/-- A directory can have this name. -/
def Nameable (bucket : Text) : Prop := '\x00' ∉ bucket ∧ bucket.size ≤ Tree.maxName

instance (bucket : Text) : Decidable (Nameable bucket) := inferInstanceAs (Decidable (_ ∧ _))

/-! ## Directories of buckets -/

/-- The directory of a bucket lies in the root, and has the name of the bucket. -/
theorem placeOf_bucket (h : isBucketName bucket = true) (hdot : bucket ≠ ['.']) (t : Tree) :
    t.placeOf (FilePath.join d.root bucket) = t.placeOf d.root ++ [bucket] := by
  have hsteps := steps_bucket h hdot
  have hdots : ['.', '.'] ∉ steps bucket := by
    rw [hsteps, List.mem_singleton]
    exact (isName_bucket h hdot).2.2.symm
  rw [Tree.placeOf_join (isAbsolute_bucket h) hdots, hsteps]

theorem of_upload (h : d.upload Tree.fileSystem bucket key bytes upsert t = (.ok (), t')) :
    t.isDirectory (FilePath.join d.root bucket) = true := by
  obtain ⟨e, -, hrefused⟩ | ⟨path, -, hdir, -⟩ := upload_cases d bucket key bytes upsert t
  · rw [hrefused] at h
    cases h
  · exact hdir

/-! ## What is seen of other buckets -/

/-- What is downloaded depends on nothing but what stands at the path of the object. -/
theorem download_congr
    (h : ∀ path, d.objectPath bucket key = .ok path → t'.find path = t.find path) :
    (d.download Tree.fileSystem bucket key t').1 = (d.download Tree.fileSystem bucket key t).1 := by
  cases hpath : d.objectPath bucket key with
  | error e =>
    rw [download, hpath]
    rfl
  | ok path => rw [fst_download hpath, fst_download hpath, Tree.read, Tree.read, h path hpath]

/-- Two buckets that are directories of the root have nothing in common but the way to the root,
which is there, and stays. -/
theorem isolated_of_ne (hb : isBucketName bucket = true) (hb' : isBucketName bucket' = true)
    (hdot : bucket ≠ ['.']) (hdot' : bucket' ≠ ['.']) (hne : bucket ≠ bucket') :
    Isolated bucket bucket' := by
  intro d t t' key bytes upsert hsound h key'
  obtain ⟨hgrows, hframe⟩ := upload_frame hsound h
  refine download_congr fun path hpath => Tree.find_congr hframe.cwd_eq fun q hq => ?_
  by_cases hbelow : t.placeOf (FilePath.join d.root bucket) <+: q
  · obtain ⟨-, rfl, hdots⟩ := of_objectPath hpath
    have hapart : ¬ t.placeOf (FilePath.join d.root bucket') <+: q := by
      intro hbelow'
      rw [placeOf_bucket hb hdot] at hbelow
      rw [placeOf_bucket hb' hdot'] at hbelow'
      have hsame : t.placeOf d.root ++ [bucket] = t.placeOf d.root ++ [bucket'] :=
        (List.prefix_of_prefix_length_le hbelow hbelow' (by simp)).eq_of_length (by simp)
      exact hne (List.singleton_inj.1 (List.append_cancel_left hsame))
    have hway := (Tree.onWay_join (Path.isAbsolute_dropSlashes key') hdots hq).resolve_right hapart
    obtain hroot | rfl := Tree.onWay_join_name (isAbsolute_bucket hb') (steps_bucket hb' hdot') hway
    · have hway' := hroot.join (isAbsolute_bucket hb)
      have hthere := Tree.directory_of_onWay hsound (of_upload h) hway'
      rw [hthere]
      exact hgrows.directory q hthere
    · exact absurd (List.prefix_refl _) hapart
  · exact hframe.node?_eq q hbelow

/-! ## Names that no directory can have -/

theorem nameable_of_isDirectory (hb : isBucketName bucket = true) (hdot : bucket ≠ ['.'])
    (h : t.isDirectory (FilePath.join d.root bucket) = true) : Nameable bucket := by
  obtain ⟨hpath, hwalk⟩ := Tree.walk_of_find (Tree.find_of_isDirectory h)
  have hname := isName_bucket hb hdot
  refine ⟨fun hnul => hpath.not_nul ((FilePath.isSuffix_join ..).subset hnul),
    Tree.size_le_of_walk hwalk ?_ hname.2.1 hname.2.2⟩
  rw [FilePath.steps_join (isAbsolute_bucket hb), steps_bucket hb hdot]
  exact List.mem_concat_self

/-- Nothing is found in a bucket with such a name, whatever there is in the root. -/
theorem exists_find_eq_error (hpath : d.objectPath bucket key = .ok path) (hdot : bucket ≠ ['.'])
    (h : ¬ Nameable bucket) : ∃ e, ∀ t : Tree, ∀ place,
      t.walk (t.start d.root) (steps d.root) = .ok place → t.find path = .error e := by
  obtain ⟨hb, hjoin, -⟩ := of_objectPath hpath
  have hrelative := Path.isAbsolute_dropSlashes key
  by_cases hvalid : Tree.IsPath path
  · have hlong : Tree.maxName < bucket.size := by
      by_contra hsize
      refine h ⟨fun hnul => hvalid.not_nul ?_, Nat.not_lt.1 hsize⟩
      have hmem := (FilePath.isSuffix_join d.root bucket).subset hnul
      exact hjoin ▸ (FilePath.isPrefix_join hrelative _).subset hmem
    have hsteps : steps d.root ++ [bucket] <+: steps path := by
      rw [hjoin, FilePath.steps_join hrelative, FilePath.steps_join (isAbsolute_bucket hb),
        steps_bucket hb hdot]
      exact List.prefix_append ..
    refine ⟨.nameTooLong, fun t place hwalk => ?_⟩
    have hroot : t.walk (t.start path) (steps d.root) = .ok place := by
      rwa [hjoin, Tree.start, FilePath.isAbsolute_join hrelative,
        FilePath.isAbsolute_join (isAbsolute_bucket hb)]
    exact Tree.find_of_long_name hvalid hroot hsteps (isName_bucket hb hdot) hlong
  · obtain ⟨e, -, he⟩ := Tree.locate_of_not_isPath hvalid
    refine ⟨e, fun t place _ => ?_⟩
    rw [Tree.find, he]
    rfl

/-- The root stays where it is, and so does what is seen of a bucket that cannot be there. -/
theorem isolated_of_not_nameable (hdot : bucket ≠ ['.']) (h : ¬ Nameable bucket) :
    Isolated ['.'] bucket := by
  intro d t t' key bytes upsert hsound hupload key'
  obtain ⟨hgrows, -⟩ := upload_frame hsound hupload
  obtain ⟨-, hwalk⟩ := Tree.walk_of_find (Tree.find_of_isDirectory (of_upload hupload))
  have hroot : t.walk (t.start d.root) (steps d.root) =
      .ok (t.placeOf (FilePath.join d.root ['.'])) := by
    rwa [FilePath.steps_join (by decide), show steps ['.'] = [] by decide, List.append_nil,
      Tree.start, FilePath.isAbsolute_join (by decide)] at hwalk
  have hroot' : t'.walk (t'.start d.root) (steps d.root) =
      .ok (t.placeOf (FilePath.join d.root ['.'])) := by
    rw [Tree.start_congr hgrows.cwd_eq]
    exact hgrows.walk hroot
  refine download_congr fun path hpath => ?_
  obtain ⟨e, he⟩ := exists_find_eq_error hpath hdot h
  rw [he t _ hroot, he t' _ hroot']

/-! ## One object in two buckets -/

section

variable {base r : List Text} {name : Text} (hsound : t.Sound)
  (hdir : t.isDirectory (FilePath.join d.root bucket) = true)
  (hpath : d.objectPath bucket key = .ok path) (hpath' : d.objectPath bucket' key' = .ok path')
  (hroute : t.Route path base (r ++ [name])) (hroute' : t.Route path' base (r ++ [name]))
  (hr : r ≠ []) (hfree : t.node? (base ++ (r ++ [name])) = none)

include hsound hdir hpath hpath' hroute hroute' hr hfree

/-- An object that has two paths, in different buckets, comes up in the one if it is uploaded to the
other. -/
theorem seen_of_routes (bytes : Bytes) :
    ∃ t', d.upload Tree.fileSystem bucket key bytes false t = (.ok (), t') ∧
      (d.download Tree.fileSystem bucket' key' t).1 = .error (.notFound bucket' key') ∧
      (d.download Tree.fileSystem bucket' key' t').1 = .ok bytes := by
  have hne : r ++ [name] ≠ [] := List.concat_ne_nil name r
  obtain ⟨t₁, hmake, hmade⟩ := hroute.makeParent hsound.closed hr
  have hthere := hmade.directory r (List.prefix_refl r)
  have hfree₁ : t₁.node? (base ++ (r ++ [name])) ≠ some .directory := by
    rw [hmade.node?_eq _ fun q hq e => ?_, hfree]
    · simp
    · exact ne_concat_of_isPrefix hq name (List.append_cancel_left e).symm
  have hwrite := (hroute.of_made hmade).write_eq hmade.closed hthere hfree₁ bytes
  have hbucket := bucketExists_run (d := d) (of_objectPath hpath).1 t
  rw [hdir] at hbucket
  refine ⟨_, upload_of_free hbucket hpath ?_ hmake hwrite, ?_, ?_⟩
  · rw [hroute.isPresent_eq hsound.closed hne, hfree]
    rfl
  · have hnothing : t.node? (base ++ (r ++ [name])) = (none : Option Bytes).map .file := hfree
    rw [fst_download hpath', hroute'.read_eq hsound.closed hne hnothing]
    rfl
  · have hroute₁ := hroute'.of_made hmade
    have hlocate : t₁.locate path' = .ok (.entry (base ++ r) name false) := by
      rw [hroute₁.locate_eq, hroute₁.walk_init_eq hmade.closed, if_pos hthere]
      rfl
    rw [← List.append_assoc] at hfree₁ ⊢
    have hput := Tree.node?_put (List.concat_ne_nil name (base ++ r)) t₁ (.file bytes)
    have hread := Tree.read_eq_ok_iff.2 ⟨base ++ r, name,
      (Tree.grows_put (List.concat_ne_nil name _) hfree₁ (.file bytes)).locate hlocate,
      Nat.not_lt.2 (hroute'.plain name List.mem_concat_self).2, (hput _).trans (if_pos rfl)⟩
    rw [fst_download hpath', hread]

theorem not_isolated_of_routes : ¬ Isolated bucket bucket' := by
  intro h
  obtain ⟨t', hupload, hbefore, hafter⟩ :=
    seen_of_routes hsound hdir hpath hpath' hroute hroute' hr hfree []
  have hsame := h d t t' key [] false hsound hupload key'
  rw [hbefore, hafter] at hsame
  cases hsame

end

section

variable {name : Text} (hb : isBucketName name = true) (hdot : name ≠ ['.'])
  (hname : Nameable name)

include hb hdot hname

/-- A path of an object in a bucket, as seen from the root. -/
theorem descends_object : Tree.Descends (name ++ ['/', 'x']) ∧
    steps (name ++ ['/', 'x']) = [name, ['x']] := by
  have hsteps : steps (name ++ ['/', 'x']) = [name, ['x']] := by
    rw [steps, Path.segments_append_cons, List.filter_append]
    exact congrArg (· ++ [['x']]) (steps_bucket hb hdot)
  refine ⟨⟨?_, ?_, ?_, ?_⟩, hsteps⟩
  · simpa using hname.1
  · have hrelative := isAbsolute_bucket hb
    obtain ⟨c, more, rfl⟩ := List.exists_cons_of_ne_nil (isBucketName_iff.1 hb).1
    exact hrelative
  · rw [hsteps]
    simpa using ⟨⟨isName_bucket hb hdot, hname.2⟩, by decide⟩
  · rw [Path.fileName_append_cons name (by decide)]
    decide

theorem objectPath_root :
    objectPath ⟨[]⟩ ['.'] (name ++ ['/', 'x']) =
        .ok (FilePath.join ['.'] (name ++ ['/', 'x'])) ∧
      objectPath ⟨[]⟩ name ['x'] = .ok (FilePath.join [] (name ++ ['/', 'x'])) := by
  obtain ⟨hne, hslash, hbackslash, -⟩ := isBucketName_iff.1 hb
  constructor
  · have hsplit : name.splitBy Path.isSlash = [name] := by
      refine Text.splitBy_eq_singleton fun c hc => ?_
      have hc' : c ≠ '/' ∧ c ≠ '\\' := ⟨fun e => hslash (e ▸ hc), fun e => hbackslash (e ▸ hc)⟩
      simp [Path.isSlash, hc']
    refine objectPath_of_relative (by decide) (by simp)
      (descends_object hb hdot hname).1.relative ?_
    rw [Path.hasParentSegment, Text.splitBy_append_cons (by decide), hsplit]
    simpa using ⟨(isName_bucket hb hdot).2.2, by decide⟩
  · have hroot : FilePath.join [] name = name := by simp [FilePath.join]
    have hjoin : FilePath.join name ['x'] = FilePath.join [] (name ++ ['/', 'x']) := by
      have hlast : name.getLast? ≠ some '/' := fun h => hslash (List.mem_of_getLast? h)
      simp [FilePath.join, hne, hlast, Path.isAbsolute]
    rw [objectPath_of_relative hb (by decide) (by decide) (by decide), hroot, hjoin]

/-- In a tree with the directory of the bucket alone, the path leads to the same place from the
root and from `.`. -/
theorem route_object {t : Tree} (ht : t = { nodes := [([name], .directory)] }) {dir : Text}
    (hdir : dir = [] ∨ dir = ['.']) :
    t.Route (FilePath.join dir (name ++ ['/', 'x'])) [] [name, ['x']] := by
  obtain ⟨hdescends, hsteps⟩ := descends_object hb hdot hname
  have hsound : t.Sound := ht ▸ ⟨Tree.closed_singleton name, rfl⟩
  obtain ⟨hstands, hplace⟩ : t.Stands dir ∧ t.placeOf dir = [] := by
    obtain rfl | rfl := hdir
    · exact ⟨⟨hsound, by decide, rfl⟩, by rw [ht]; rfl⟩
    · exact ⟨⟨hsound, by decide, rfl⟩, by rw [ht]; rfl⟩
  have hsize : (FilePath.join dir (name ++ ['/', 'x'])).size ≤ Tree.maxPath := by
    have hlength : name.size ≤ 255 := hname.2
    have hobject : (name ++ ['/', 'x']).size = name.size + 2 := Text.size_append name _
    obtain rfl | rfl := hdir
    · rw [FilePath.join, if_pos (.inr rfl), hobject, Tree.maxPath]
      omega
    · have hjoin : (FilePath.join ['.'] (name ++ ['/', 'x'])).size =
          2 + (name ++ ['/', 'x']).size := by
        rw [FilePath.join, hdescends.relative]
        exact Text.size_append ['.', '/'] _
      rw [hjoin, hobject, Tree.maxPath]
      omega
  have hroute := hstands.route hdescends hsize fun q _ _ bytes => ?_
  · rwa [hsteps, hplace] at hroute
  · rw [hplace, List.nil_append]
    by_cases hnil : q = []
    · simp [hnil, Tree.node?]
    · by_cases hq : q = [name]
      · simp [hq, ht, Tree.node?]
      · simp [ht, Tree.node?_singleton hnil hq]

theorem isDirectory_bucket {t : Tree} (ht : t = { nodes := [([name], .directory)] }) :
    t.isDirectory (FilePath.join [] name) = true := by
  have hwalk : t.walk (t.start name) (steps name) = .ok [name] := by
    have hthere : t.node? [name] = some .directory := by simp [ht, Tree.node?]
    have hstart : t.start name = [] := by simp [Tree.start, ht]
    have hplain := isName_bucket hb hdot
    rw [steps_bucket hb hdot, hstart]
    exact (Tree.walk_singleton_eq_ok_iff hplain.2.1 hplain.2.2).2
      ⟨Nat.not_lt.2 hname.2, hthere, rfl⟩
  have hvalid : Tree.IsPath name :=
    ⟨hname.1, (isBucketName_iff.1 hb).1, hname.2.trans (by decide)⟩
  have hroot : FilePath.join [] name = name := by simp [FilePath.join]
  rw [hroot, Tree.isDirectory, (Tree.find_of_walk hvalid hwalk).1]

/-- An object that is uploaded to the root can be downloaded from the bucket that it comes to lie
in, and one that is uploaded to a bucket can be downloaded from the root. -/
theorem not_isolated_root : ¬ Isolated ['.'] name ∧ ¬ Isolated name ['.'] := by
  obtain ⟨t, ht⟩ : ∃ t : Tree, t = { nodes := [([name], .directory)] } := ⟨_, rfl⟩
  have hsound : t.Sound := ht ▸ ⟨Tree.closed_singleton name, rfl⟩
  have hdots : t.isDirectory (FilePath.join [] ['.']) = true := by rw [ht]; rfl
  have hbucket := isDirectory_bucket hb hdot hname ht
  obtain ⟨hpath, hpath'⟩ := objectPath_root hb hdot hname
  have hroute := route_object hb hdot hname ht (.inr rfl)
  have hroute' := route_object hb hdot hname ht (.inl rfl)
  have hr : [name] ≠ [] := by simp
  have hfree : t.node? ([] ++ ([name] ++ [['x']])) = none := by
    rw [ht, Tree.node?_singleton (by simp) (by simp)]
  exact ⟨not_isolated_of_routes hsound hdots hpath hpath' hroute hroute' hr hfree,
    not_isolated_of_routes hsound hbucket hpath' hpath hroute' hroute hr hfree⟩

end

/-- Two buckets are isolated from each other, unless one of them is `.`, which is the root, and the
other one can be there. -/
theorem isolated_iff (hb : isBucketName bucket = true) (hb' : isBucketName bucket' = true)
    (hne : bucket ≠ bucket') : Isolated bucket bucket' ↔
      (bucket = ['.'] → ¬ Nameable bucket') ∧ (bucket' = ['.'] → ¬ Nameable bucket) := by
  by_cases hdot : bucket = ['.']
  · subst hdot
    have hdot' : bucket' ≠ ['.'] := hne.symm
    refine ⟨fun h => ⟨fun _ hname => ?_, fun e => absurd e hdot'⟩,
      fun h => isolated_of_not_nameable hdot' (h.1 rfl)⟩
    exact (not_isolated_root hb' hdot' hname).1 h
  · by_cases hdot' : bucket' = ['.']
    · subst hdot'
      refine ⟨fun h => ⟨fun e => absurd e hdot, fun _ hname => ?_⟩,
        fun h d t t' key bytes upsert hsound hupload => ?_⟩
      · exact (not_isolated_root hb hdot hname).2 h
      · exact absurd (nameable_of_isDirectory hb hdot (of_upload hupload)) (h.2 rfl)
    · exact iff_of_true (isolated_of_ne hb hb' hdot hdot' hne)
        ⟨fun e => absurd e hdot, fun e => absurd e hdot'⟩

/-- Two buckets beside each other, and one that is inside of the other. -/
theorem isolated_iff_of_three :
    isBucketName "a" = true ∧ isBucketName "b" = true ∧ isBucketName "." = true ∧
      Isolated "a" "b" ∧ ¬ Isolated "." "b" := by
  refine ⟨by decide, by decide, by decide,
    (isolated_iff (by decide) (by decide) (by decide)).2 ⟨by decide, by decide⟩, fun h => ?_⟩
  have hname : Nameable "b" := by decide
  exact ((isolated_iff (by decide) (by decide) (by decide)).1 h).1 rfl hname

/-- Nothing has been uploaded to a bucket, and yet an object comes up in it. -/
theorem not_isolated_dot :
    let store := DirectoryStore.store ⟨"store"⟩ Tree.fileSystem
    let accesses : List Access :=
      [.createBucket "b", .download "b" "x", .upload "." "b/x" [88] false, .download "b" "x"]
    let results : List (Except StorageError Reply) :=
      [.ok .done, .error (.notFound "b" "x"), .ok .done, .ok (.content [88])]
    isBucketName "b" = true ∧ isBucketName "." = true ∧
      (store.answers accesses {}).1 = results := by
  intro store accesses results
  obtain ⟨t, ht⟩ : ∃ t : Tree,
    t = { nodes := [(["store", "b"], .directory), (["store"], .directory)] } := ⟨_, rfl⟩
  have hcreate : store.answer (.createBucket "b") {} = (.ok .done, t) := by rw [ht]; rfl
  have hbefore : store.answer (.download "b" "x") t = (.error (.notFound "b" "x"), t) := by
    rw [ht]; rfl
  have hupload : store.answer (.upload "." "b/x" [88] false) t =
      (.ok .done, t.put ["store", "b", "x"] (.file [88])) := by rw [ht]; rfl
  have hafter : (store.answer (.download "b" "x") (t.put ["store", "b", "x"] (.file [88]))).1 =
      .ok (.content [88]) := by rw [ht]; rfl
  refine ⟨by decide, by decide, ?_⟩
  simp only [accesses, ObjectStore.fst_answers_cons, hcreate, hbefore, hupload, hafter]
  rfl

end DirectoryStore

end TexBundle

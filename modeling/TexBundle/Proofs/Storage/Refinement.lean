import TexBundle.Proofs.FileSystem.Routes
import TexBundle.Proofs.Storage.Access
import TexBundle.Proofs.Storage.Agreement
import TexBundle.Proofs.Storage.Memory
import TexBundle.Proofs.Storage.Uploading

/-!
# Directory stores behave as stores in memory

On an empty store, any sequence of calls has the same answers from a directory as from memory, as
long as the names and keys can be those of directories and files, and no object has to stand where a
directory has to be for another one.

* `ObjectStore.answers_agree`: stores that answer each call alike answer all of them alike;
* `DirectoryStore.Admits`, `DirectoryStore.Vacant`: which calls, and on what stores;
* `DirectoryStore.Mirrors`: how the tree stands for the store in memory, as the calls go on;
* `DirectoryStore.answers_eq`: the answers are the same.
-/

namespace TexBundle

open TexBundle.Path (segments)

/-- By induction on the calls, each of which keeps the states related. -/
theorem ObjectStore.answers_agree {σ τ : Type} {R : σ → τ → Prop} {store : ObjectStore (StateM σ)}
    {store' : ObjectStore (StateM τ)} {accesses : List Access}
    (h : ∀ access ∈ accesses, Agree R (store.answer access) (store'.answer access)) :
    Agree R (store.answers accesses) (store'.answers accesses) := by
  induction accesses with
  | nil => exact .pure _
  | cons access accesses ih =>
    obtain ⟨haccess, haccesses⟩ := List.forall_mem_cons.1 h
    exact haccess.bind fun _ => (ih haccesses).bind fun _ => .pure _

namespace DirectoryStore

/-! ## Calls and empty stores -/

/-- What the name of a bucket has to be. -/
structure IsBucket (d : DirectoryStore) (bucket : Text) : Prop where
  ne_nil : bucket ≠ []
  ne_dot : bucket ≠ ['.']
  not_climbs : Path.climbs bucket = false
  not_slash : '/' ∉ bucket
  not_backslash : '\\' ∉ bucket
  size_le : bucket.size ≤ Tree.maxName
  path_le : (FilePath.join d.root bucket).size ≤ Tree.maxPath

/-- What a key has to be. -/
structure IsKey (d : DirectoryStore) (bucket key : Text) : Prop where
  plain : ∀ name ∈ segments key, Tree.IsPlain name
  not_backslash : '\\' ∉ key
  not_nul : '\x00' ∉ key
  path_le : (FilePath.join (FilePath.join d.root bucket) key).size ≤ Tree.maxPath

/-- Calls with such buckets and keys, of which no key lies below another one in its bucket. -/
structure Admits (d : DirectoryStore) (accesses : List Access) : Prop where
  bucket : ∀ a ∈ accesses, d.IsBucket a.bucket
  key : ∀ a ∈ accesses, ∀ key ∈ a.key?, d.IsKey a.bucket key
  apart : ∀ a ∈ accesses, ∀ a' ∈ accesses, a.bucket = a'.bucket →
    ∀ key ∈ a.key?, ∀ key' ∈ a'.key?, ¬ key ++ ['/'] <+: key'

instance (d : DirectoryStore) (bucket : Text) : Decidable (d.IsBucket bucket) :=
  decidable_of_iff (bucket ≠ [] ∧ bucket ≠ ['.'] ∧ Path.climbs bucket = false ∧ '/' ∉ bucket ∧
      '\\' ∉ bucket ∧ bucket.size ≤ Tree.maxName ∧
      (FilePath.join d.root bucket).size ≤ Tree.maxPath)
    ⟨fun ⟨h₁, h₂, h₃, h₄, h₅, h₆, h₇⟩ => ⟨h₁, h₂, h₃, h₄, h₅, h₆, h₇⟩,
      fun ⟨h₁, h₂, h₃, h₄, h₅, h₆, h₇⟩ => ⟨h₁, h₂, h₃, h₄, h₅, h₆, h₇⟩⟩

instance (d : DirectoryStore) (bucket key : Text) : Decidable (d.IsKey bucket key) :=
  decidable_of_iff ((∀ name ∈ segments key, Tree.IsPlain name) ∧ '\\' ∉ key ∧ '\x00' ∉ key ∧
      (FilePath.join (FilePath.join d.root bucket) key).size ≤ Tree.maxPath)
    ⟨fun ⟨h₁, h₂, h₃, h₄⟩ => ⟨h₁, h₂, h₃, h₄⟩, fun ⟨h₁, h₂, h₃, h₄⟩ => ⟨h₁, h₂, h₃, h₄⟩⟩

instance (d : DirectoryStore) (accesses : List Access) : Decidable (d.Admits accesses) :=
  decidable_of_iff ((∀ a ∈ accesses, d.IsBucket a.bucket) ∧
      (∀ a ∈ accesses, ∀ key ∈ a.key?, d.IsKey a.bucket key) ∧
      ∀ a ∈ accesses, ∀ a' ∈ accesses, a.bucket = a'.bucket →
        ∀ key ∈ a.key?, ∀ key' ∈ a'.key?, ¬ key ++ ['/'] <+: key')
    ⟨fun ⟨h₁, h₂, h₃⟩ => ⟨h₁, h₂, h₃⟩, fun ⟨h₁, h₂, h₃⟩ => ⟨h₁, h₂, h₃⟩⟩

/-- The root of a store is reached from the directory `base` along the names `missing`, which need
not be there yet. -/
structure Rooted (d : DirectoryStore) (t : Tree) (base missing : List Text) : Prop where
  not_nul : '\x00' ∉ d.root
  leads : t.Leads d.root base missing
  directory : t.node? base = some .directory
  plain : ∀ name ∈ missing, Tree.IsPlain name

/-- There is nothing in the root of a store. The root itself may not be there yet. -/
def Vacant (d : DirectoryStore) (t : Tree) : Prop :=
  ∃ base missing, d.Rooted t base missing ∧
    ∀ q, q ≠ [] → q <+: missing ∨ missing <+: q → t.node? (base ++ q) = none

/-! ## Stores side by side -/

/-- A tree stands for a store in memory: buckets are directories, objects are files, and there are
no files where directories may have to be. -/
structure Mirrors (d : DirectoryStore) (base missing : List Text) (accesses : List Access)
    (t : Tree) (s : Memory) : Prop where
  closed : t.Closed
  rooted : d.Rooted t base missing
  bucket : ∀ a ∈ accesses, t.node? (base ++ (missing ++ [a.bucket])) =
    if a.bucket ∈ s.buckets then some .directory else none
  object : ∀ a ∈ accesses, ∀ key ∈ a.key?,
    t.node? (base ++ (missing ++ a.bucket :: segments key)) = (s.get? a.bucket key).map .file
  clear_root : ∀ q, q <+: missing → ∀ bytes, t.node? (base ++ q) ≠ some (.file bytes)
  clear : ∀ a ∈ accesses, ∀ key ∈ a.key?, ∀ q, q <+: missing ++ a.bucket :: segments key →
    q ≠ missing ++ a.bucket :: segments key → ∀ bytes, t.node? (base ++ q) ≠ some (.file bytes)

variable {d : DirectoryStore} {base missing : List Text} {accesses : List Access} {t : Tree}
  {s : Memory} {a : Access} {bucket key : Text}

theorem IsBucket.accepted (h : d.IsBucket bucket) : isBucketName bucket = true :=
  isBucketName_iff.2 ⟨h.ne_nil, h.not_slash, h.not_backslash, h.not_climbs⟩

theorem bucketPath_eq (h : d.IsBucket bucket) :
    d.bucketPath bucket = .ok (FilePath.join d.root bucket) := by
  rw [bucketPath, if_pos h.accepted]

theorem IsKey.isAbsolute_eq (h : d.IsKey bucket key) : Path.isAbsolute key = false :=
  Path.isAbsolute_eq_false fun hnil => (h.plain [] hnil).1.1 rfl

theorem objectPath_eq (hb : d.IsBucket bucket) (hk : d.IsKey bucket key) :
    d.objectPath bucket key = .ok (FilePath.join (FilePath.join d.root bucket) key) := by
  have hne : key ≠ [] := fun e => (hk.plain [] (by rw [e]; exact List.mem_cons_self)).1.1 rfl
  have hsegments : key.splitBy Path.isSlash = segments key := by
    refine Text.splitBy_congr fun c hc => ?_
    have hslash : c ≠ '\\' := fun e => hk.not_backslash (e ▸ hc)
    simp [Path.isSlash, hslash]
  have hparent : Path.hasParentSegment key = false := by
    rw [Path.hasParentSegment, hsegments, List.any_eq_false]
    intro name hname
    simpa using (hk.plain name hname).1.2.2
  exact objectPath_of_relative hb.accepted hne hk.isAbsolute_eq hparent

section

variable {t' : Tree} {path : Text}

theorem createBucket_of_present (hpath : d.bucketPath bucket = .ok path)
    (hpresent : t.isDirectory path = true) :
    d.createBucket Tree.fileSystem bucket t = (.error (.bucketExists bucket), t) := by
  have hrun : Tree.fileSystem.isDirectory path t = (true, t) := congrArg (·, t) hpresent
  rw [createBucket, hpath]
  simp only [bind, StateT.bind, hrun]
  rfl

theorem createBucket_of_free (hpath : d.bucketPath bucket = .ok path)
    (hpresent : t.isDirectory path = false)
    (hmake : Tree.fileSystem.makeDirectories path t = (.ok (), t')) :
    d.createBucket Tree.fileSystem bucket t = (.ok (), t') := by
  have hrun : Tree.fileSystem.isDirectory path t = (false, t) := congrArg (·, t) hpresent
  rw [createBucket, hpath]
  simp only [bind, StateT.bind, hrun, Bool.false_eq_true, if_false, hmake]
  rfl

end

theorem Rooted.of_grows {t' : Tree} (h : d.Rooted t base missing) (hgrows : t.Grows t') :
    d.Rooted t' base missing :=
  { h with
    leads := h.leads.of_grows hgrows
    directory := hgrows.directory base h.directory }

/-- No key is in the way of another one. -/
theorem Admits.eq_of_isPrefix {a' : Access} {key' : Text} (h : d.Admits accesses)
    (ha : a ∈ accesses) (ha' : a' ∈ accesses) (hkey : key ∈ a.key?) (hkey' : key' ∈ a'.key?)
    (hpre : a.bucket :: segments key <+: a'.bucket :: segments key') :
    a.bucket = a'.bucket ∧ key = key' := by
  obtain ⟨hbucket, hsegments⟩ := List.cons_prefix_cons.1 hpre
  refine ⟨hbucket, ?_⟩
  by_contra hne
  refine h.apart a ha a' ha' hbucket key hkey key' hkey' ?_
  refine Path.isPrefix_of_segments_isPrefix hsegments fun e => hne ?_
  rw [← Path.ofSegments_segments key, e, Path.ofSegments_segments]

namespace Mirrors

theorem bucket_route (h : d.Mirrors base missing accesses t s) (hb : d.IsBucket bucket)
    (hnul : '\x00' ∉ bucket) :
    t.Route (FilePath.join d.root bucket) base (missing ++ [bucket]) := by
  have hsegments : segments bucket = [bucket] := Path.segments_eq_singleton hb.not_slash
  have habsolute := isAbsolute_bucket hb.accepted
  have hsteps := steps_bucket hb.accepted hb.ne_dot
  refine ⟨fun hc => ?_, hb.path_le, hsteps ▸ h.rooted.leads.join habsolute, ?_, h.rooted.directory,
    fun name hname => ?_, fun q hq hne bytes => ?_⟩
  · obtain hc | hc | hc := FilePath.mem_join hc
    · exact h.rooted.not_nul hc
    · cases hc
    · exact hnul hc
  · rw [FilePath.getLast?_segments_join habsolute, hsegments, List.getLast?_concat]
    rfl
  · obtain hname | hname := List.mem_append.1 hname
    · exact h.rooted.plain name hname
    · obtain rfl := List.mem_singleton.1 hname
      exact ⟨isName_bucket hb.accepted hb.ne_dot, hb.size_le⟩
  · exact h.clear_root q ((List.prefix_concat_iff.1 hq).resolve_left hne) bytes

theorem object_route (h : d.Mirrors base missing accesses t s) (hadmits : d.Admits accesses)
    (ha : a ∈ accesses) (hnul : '\x00' ∉ a.bucket) (hkey : key ∈ a.key?) :
    t.Route (FilePath.join (FilePath.join d.root a.bucket) key) base
      (missing ++ a.bucket :: segments key) := by
  have hb := h.bucket_route (hadmits.bucket a ha) hnul
  have hk := hadmits.key a ha key hkey
  have happend : missing ++ a.bucket :: segments key = missing ++ [a.bucket] ++ segments key := by
    simp
  have hsteps : FilePath.steps key = segments key :=
    List.filter_eq_self.2 fun name hname => by
      obtain ⟨⟨hne, hdot, -⟩, -⟩ := hk.plain name hname
      simp [hne, hdot]
  refine ⟨fun hc => ?_, hk.path_le, happend ▸ hsteps ▸ hb.leads.join hk.isAbsolute_eq, ?_,
    h.rooted.directory, fun name hname => ?_, h.clear a ha key hkey⟩
  · obtain hc | hc | hc := FilePath.mem_join hc
    · exact hb.not_nul hc
    · cases hc
    · exact hk.not_nul hc
  · rw [FilePath.getLast?_segments_join hk.isAbsolute_eq, happend, List.getLast?_append_of_ne_nil]
    exact Text.splitBy_ne_nil _ key
  · obtain hname | hname := List.mem_append.1 (happend ▸ hname)
    · exact hb.plain name hname
    · exact hk.plain name hname

/-! ## Calls -/

theorem isDirectory_eq (h : d.Mirrors base missing accesses t s) (hadmits : d.Admits accesses)
    (ha : a ∈ accesses) (hnul : '\x00' ∉ a.bucket) :
    t.isDirectory (FilePath.join d.root a.bucket) = decide (a.bucket ∈ s.buckets) := by
  rw [(h.bucket_route (hadmits.bucket a ha) hnul).isDirectory_eq h.closed
    (List.concat_ne_nil _ _), h.bucket a ha]
  split <;> simp_all

theorem isPresent_eq (h : d.Mirrors base missing accesses t s) (hadmits : d.Admits accesses)
    (ha : a ∈ accesses) (hnul : '\x00' ∉ a.bucket) (hkey : key ∈ a.key?) :
    t.isPresent (FilePath.join (FilePath.join d.root a.bucket) key) =
      (s.get? a.bucket key).isSome := by
  rw [(h.object_route hadmits ha hnul hkey).isPresent_eq h.closed (by simp),
    h.object a ha key hkey, Option.isSome_map]

theorem bucketExists_eq (h : d.Mirrors base missing accesses t s) (hadmits : d.Admits accesses)
    (ha : a ∈ accesses) (hnul : '\x00' ∉ a.bucket) :
    d.bucketExists Tree.fileSystem a.bucket t = (.ok (decide (a.bucket ∈ s.buckets)), t) := by
  rw [bucketExists_run (hadmits.bucket a ha).accepted, h.isDirectory_eq hadmits ha hnul]

theorem download_eq (h : d.Mirrors base missing accesses t s) (hadmits : d.Admits accesses)
    (ha : a ∈ accesses) (hnul : '\x00' ∉ a.bucket) (hkey : key ∈ a.key?) :
    d.download Tree.fileSystem a.bucket key t = (s.download a.bucket key, t) := by
  have hread : Tree.fileSystem.read (FilePath.join (FilePath.join d.root a.bucket) key) t =
      ((s.get? a.bucket key).elim (.error .notFound) .ok, t) :=
    congrArg (·, t) ((h.object_route hadmits ha hnul hkey).read_eq h.closed (by simp)
      (h.object a ha key hkey))
  rw [download, objectPath_eq (hadmits.bucket a ha) (hadmits.key a ha key hkey), Memory.download]
  simp only [bind, StateT.bind, hread]
  cases s.get? a.bucket key <;> rfl

/-- Making directories that are in no object's place makes the bucket that they are in, and is
nothing else to the store in memory. -/
theorem of_made {t' : Tree} {s' : Memory} {ks : List Text} (h : d.Mirrors base missing accesses t s)
    (hmade : t.Made t' base (missing ++ bucket :: ks))
    (hks : ∀ a ∈ accesses, ∀ key ∈ a.key?, ¬ a.bucket :: segments key <+: bucket :: ks)
    (hbuckets : ∀ b, b ∈ s'.buckets ↔ b = bucket ∨ b ∈ s.buckets)
    (hobjects : s'.objects = s.objects) : d.Mirrors base missing accesses t' s' := by
  have hgrows := hmade.grows
  refine ⟨hmade.closed, h.rooted.of_grows hgrows, fun a ha => ?_, fun a ha key hkey => ?_,
    fun q hq bytes => hmade.ne_file (h.clear_root q hq bytes),
    fun a ha key hkey q hq hne bytes => hmade.ne_file (h.clear a ha key hkey q hq hne bytes)⟩
  · by_cases hb : a.bucket = bucket
    · rw [if_pos ((hbuckets _).2 (.inl hb)), hb]
      exact hmade.directory _ ((List.prefix_append_right_inj missing).2 ⟨ks, rfl⟩)
    · have hother : ∀ q, q <+: missing ++ bucket :: ks →
          base ++ (missing ++ [a.bucket]) ≠ base ++ q := by
        intro q hq e
        rw [← List.append_cancel_left e, List.prefix_append_right_inj, List.cons_prefix_cons] at hq
        exact hb hq.1
      rw [hmade.node?_eq _ hother, h.bucket a ha]
      simp only [hbuckets, hb, false_or]
  · have hother : ∀ q, q <+: missing ++ bucket :: ks →
        base ++ (missing ++ a.bucket :: segments key) ≠ base ++ q := by
      intro q hq e
      rw [← List.append_cancel_left e, List.prefix_append_right_inj] at hq
      exact hks a ha key hkey hq
    rw [hmade.node?_eq _ hother, h.object a ha key hkey, Memory.get?, Memory.get?, hobjects]

/-- An object stands below its bucket. -/
theorem length_lt_object (missing : List Text) (bucket key : Text) :
    missing.length + 1 < (missing ++ bucket :: segments key).length := by
  have hpos := List.length_pos_of_ne_nil (Text.splitBy_ne_nil (· == '/') key)
  rw [List.length_append, List.length_cons]
  exact Nat.add_lt_add_left (Nat.lt_add_of_pos_left hpos) _

/-- Writing a file puts an object. -/
theorem put {r : List Text} {name : Text} (h : d.Mirrors base missing accesses t s)
    (hadmits : d.Admits accesses) (ha : a ∈ accesses) (hkey : key ∈ a.key?)
    (hplace : missing ++ a.bucket :: segments key = r ++ [name])
    (hdir : t.node? (base ++ r) = some .directory) (bytes : Bytes) :
    d.Mirrors base missing accesses
      (t.put (base ++ (missing ++ a.bucket :: segments key)) (.file bytes))
      (s.put a.bucket key bytes) := by
  have hne : t.node? (base ++ (missing ++ a.bucket :: segments key)) ≠ some .directory := by
    rw [h.object a ha key hkey]
    cases s.get? a.bucket key <;> simp
  have hkept {q : List Text} (hq : q ≠ missing ++ a.bucket :: segments key) :
      (t.put (base ++ (missing ++ a.bucket :: segments key)) (.file bytes)).node? (base ++ q) =
        t.node? (base ++ q) := by
    rw [Tree.node?_put (by simp), if_neg fun e => hq (List.append_cancel_left e)]
  have hshort {q : List Text} (hq : q.length ≤ missing.length + 1) :
      q ≠ missing ++ a.bucket :: segments key := fun e =>
    Nat.not_lt.2 hq (e ▸ length_lt_object missing a.bucket key)
  have hclosed : (t.put (base ++ (missing ++ a.bucket :: segments key)) (.file bytes)).Closed := by
    rw [hplace, ← List.append_assoc] at hne ⊢
    exact h.closed.put hdir hne _
  refine ⟨hclosed, h.rooted.of_grows (Tree.grows_put (by simp) hne _), fun a' ha' => ?_,
    fun a' ha' key' hkey' => ?_, fun q hq bytes' => ?_,
    fun a' ha' key' hkey' q hq hqne bytes' => ?_⟩
  · rw [hkept (hshort (by simp))]
    exact h.bucket a' ha'
  · rw [Memory.get?_put]
    by_cases hsame : (a'.bucket, key') = (a.bucket, key)
    · obtain ⟨hbucket, rfl⟩ := Prod.mk.inj hsame
      rw [if_pos hsame, hbucket, Tree.node?_put (by simp), if_pos rfl]
      rfl
    · have hother : missing ++ a'.bucket :: segments key' ≠ missing ++ a.bucket :: segments key :=
        fun e => by
          obtain ⟨hbucket, hkeys⟩ := hadmits.eq_of_isPrefix ha' ha hkey' hkey
            (List.append_cancel_left e ▸ List.prefix_refl _)
          exact hsame (by rw [hbucket, hkeys])
      rw [if_neg hsame, hkept hother]
      exact h.object a' ha' key' hkey'
  · rw [hkept (hshort (hq.length_le.trans (Nat.le_succ _)))]
    exact h.clear_root q hq bytes'
  · have hother : q ≠ missing ++ a.bucket :: segments key := by
      rintro rfl
      obtain ⟨hbucket, hkeys⟩ := hadmits.eq_of_isPrefix ha ha' hkey hkey'
        ((List.prefix_append_right_inj missing).1 hq)
      exact hqne (by rw [hbucket, hkeys])
    rw [hkept hother]
    exact h.clear a' ha' key' hkey' q hq hqne bytes'

/-- The directory of an object can be made if its bucket is there, and the store in memory stays as
it is. -/
theorem exists_makeParent (h : d.Mirrors base missing accesses t s) (hadmits : d.Admits accesses)
    (ha : a ∈ accesses) (hnul : '\x00' ∉ a.bucket) (hkey : key ∈ a.key?)
    (hbucket : a.bucket ∈ s.buckets) :
    ∃ t' r name, missing ++ a.bucket :: segments key = r ++ [name] ∧
      Tree.fileSystem.makeParent (FilePath.join (FilePath.join d.root a.bucket) key) t =
        (.ok (), t') ∧
      t'.node? (base ++ r) = some .directory ∧ d.Mirrors base missing accesses t' s := by
  obtain ⟨init, last, hlast⟩ :=
    (List.eq_nil_or_concat' _).resolve_left (Text.splitBy_ne_nil (· == '/') key)
  have hplace : missing ++ a.bucket :: segments key = missing ++ a.bucket :: init ++ [last] := by
    rw [segments, hlast, List.append_assoc]
    rfl
  have hroute := h.object_route hadmits ha hnul hkey
  rw [hplace] at hroute
  obtain ⟨t', hmake, hmade⟩ := hroute.makeParent h.closed (by simp)
  refine ⟨t', _, last, hplace, hmake, hmade.directory _ (List.prefix_refl _), ?_⟩
  refine h.of_made hmade (fun a' ha' key' hkey' hpre => ?_)
    (fun b => ⟨.inr, fun hb => hb.elim (fun e => e ▸ hbucket) id⟩) rfl
  -- a key whose object were on the way would be the key itself, which is longer
  have hinit : a.bucket :: init <+: a.bucket :: segments key := by
    rw [segments, hlast]
    exact ⟨[last], rfl⟩
  obtain ⟨-, rfl⟩ := hadmits.eq_of_isPrefix ha' ha hkey' hkey (hpre.trans hinit)
  have hlength := hpre.length_le
  rw [segments, hlast, List.length_cons, List.length_cons, List.length_append] at hlength
  exact Nat.not_succ_le_self _ (Nat.le_of_succ_le_succ hlength)

theorem createBucket_agree (hadmits : d.Admits accesses) (ha : a ∈ accesses)
    (hnul : '\x00' ∉ a.bucket) :
    Agree (d.Mirrors base missing accesses) (d.createBucket Tree.fileSystem a.bucket)
      (Memory.store.createBucket a.bucket) := by
  intro t s h
  have hb := hadmits.bucket a ha
  have hpresent := h.isDirectory_eq hadmits ha hnul
  have hmemory : Memory.store.createBucket a.bucket s =
      Memory.change (·.createBucket a.bucket) s := rfl
  rw [hmemory, Memory.change, Memory.createBucket]
  by_cases hbucket : a.bucket ∈ s.buckets
  · rw [createBucket_of_present (bucketPath_eq hb) (by simpa [hbucket] using hpresent),
      if_pos hbucket]
    exact ⟨rfl, h⟩
  · have hnode := h.bucket a ha
    rw [if_neg hbucket] at hnode
    obtain ⟨t', hmake, hmade⟩ := (h.bucket_route hb hnul).makeDirectories h.closed (by simp [hnode])
    rw [createBucket_of_free (bucketPath_eq hb) (by simpa [hbucket] using hpresent) hmake,
      if_neg hbucket]
    exact ⟨rfl, h.of_made hmade
      (fun a' _ key _ hpre => Nat.not_lt.2 hpre.length_le (length_lt_object [] a'.bucket key))
      (fun b => List.mem_cons) rfl⟩

theorem upload_agree (hadmits : d.Admits accesses) (ha : a ∈ accesses)
    (hnul : '\x00' ∉ a.bucket) (hkey : key ∈ a.key?) (bytes : Bytes) (upsert : Bool) :
    Agree (d.Mirrors base missing accesses) (d.upload Tree.fileSystem a.bucket key bytes upsert)
      (Memory.store.upload a.bucket key bytes upsert) := by
  intro t s h
  have hexists := h.bucketExists_eq hadmits ha hnul
  have hpath := objectPath_eq (hadmits.bucket a ha) (hadmits.key a ha key hkey)
  have hpresent := h.isPresent_eq hadmits ha hnul hkey
  have hmemory : Memory.store.upload a.bucket key bytes upsert s =
      Memory.change (·.upload a.bucket key bytes upsert) s := rfl
  rw [hmemory, Memory.change, Memory.upload]
  by_cases hbucket : a.bucket ∈ s.buckets
  · rw [if_neg (not_not_intro hbucket)]
    rw [decide_eq_true hbucket] at hexists
    by_cases hfree : (!upsert && (s.get? a.bucket key).isSome) = true
    · obtain ⟨hupsert, hstored⟩ := Bool.and_eq_true_iff.1 hfree
      obtain rfl : upsert = false := by simpa using hupsert
      rw [upload_of_present hexists hpath (hpresent.trans hstored), if_pos hfree]
      exact ⟨rfl, h⟩
    · obtain ⟨t', r, name, hplace, hmake, hdir, h'⟩ :=
        h.exists_makeParent hadmits ha hnul hkey hbucket
      have hfile := h'.object a ha key hkey
      have hroute := h'.object_route hadmits ha hnul hkey
      rw [hplace] at hfile hroute
      have hwrite := hroute.write_eq h'.closed hdir
        (by rw [hfile]; cases s.get? a.bucket key <;> simp) bytes
      rw [← hplace] at hwrite
      rw [upload_of_free hexists hpath (hpresent ▸ Bool.eq_false_iff.2 hfree) hmake hwrite,
        if_neg hfree]
      exact ⟨rfl, h'.put hadmits ha hkey hplace hdir bytes⟩
  · rw [decide_eq_false hbucket] at hexists
    rw [upload_of_no_bucket hexists, if_pos hbucket]
    exact ⟨rfl, h⟩

theorem answer_agree (hadmits : d.Admits accesses) (ha : a ∈ accesses)
    (hnul : '\x00' ∉ a.bucket) :
    Agree (d.Mirrors base missing accesses) ((d.store Tree.fileSystem).answer a)
      (Memory.store.answer a) := by
  cases a with
  | createBucket bucket => exact (createBucket_agree hadmits ha hnul).bind fun _ => .pure _
  | bucketExists bucket =>
    refine Agree.bind (fun t s h => ?_) fun _ => .pure _
    have hexists : (d.store Tree.fileSystem).bucketExists bucket t =
        (.ok (decide (bucket ∈ s.buckets)), t) := h.bucketExists_eq hadmits ha hnul
    rw [hexists, ← List.contains_eq_mem]
    exact ⟨rfl, h⟩
  | upload bucket key bytes upsert =>
    exact (upload_agree hadmits ha hnul rfl bytes upsert).bind fun _ => .pure _
  | download bucket key =>
    refine Agree.bind (fun t s h => ?_) fun _ => .pure _
    have hdownload : (d.store Tree.fileSystem).download bucket key t =
        (s.download bucket key, t) := h.download_eq hadmits ha hnul rfl
    rw [hdownload]
    exact ⟨rfl, h⟩

end Mirrors

/-- An empty store stands for the store in memory that holds nothing. -/
theorem Vacant.mirrors (h : d.Vacant t) (hclosed : t.Closed) (accesses : List Access) :
    ∃ base missing, d.Mirrors base missing accesses t {} := by
  obtain ⟨base, missing, hrooted, hfree⟩ := h
  have hclear : ∀ q, q <+: missing ∨ missing <+: q →
      ∀ bytes, t.node? (base ++ q) ≠ some (.file bytes) := by
    intro q hq bytes
    by_cases hnil : q = []
    · rw [hnil, List.append_nil, hrooted.directory]
      simp
    · rw [hfree q hnil hq]
      simp
  refine ⟨base, missing, hclosed, hrooted, fun a _ => ?_, fun a _ key _ => ?_,
    fun q hq => hclear q (.inl hq), fun a _ key _ q hq _ => hclear q ?_⟩
  · rw [hfree _ (List.concat_ne_nil _ _) (.inr (List.prefix_append ..))]
    rfl
  · rw [hfree _ (by simp) (.inr (List.prefix_append ..))]
    rfl
  · exact List.prefix_or_prefix_of_prefix hq (List.prefix_append ..)

/-- On an empty store, calls are answered from a directory as from memory, whatever calls they are,
if their buckets and keys can be names of directories and files, no bucket has a NUL in its name,
and no key lies below another one of its bucket. -/
theorem answers_eq (hclosed : t.Closed) (hvacant : d.Vacant t) (hadmits : d.Admits accesses)
    (hnul : ∀ a ∈ accesses, '\x00' ∉ a.bucket) :
    ((d.store Tree.fileSystem).answers accesses t).1 = (Memory.store.answers accesses {}).1 := by
  obtain ⟨base, missing, h⟩ := hvacant.mirrors hclosed accesses
  exact (ObjectStore.answers_agree
    (fun a ha => Mirrors.answer_agree hadmits ha (hnul a ha)) t {} h).1

/-- A root that is not there yet, and calls that succeed and fail. -/
theorem answers_eq_of_nine :
    let d : DirectoryStore := ⟨"data/store"⟩
    let t : Tree := { nodes := [(["data"], .directory)] }
    let accesses : List Access := [
      .bucketExists "b", .createBucket "b", .createBucket "b", .upload "b" "k/x" [1] false,
      .upload "b" "k/x" [2] false, .upload "b" "k/x" [2] true, .download "b" "k/x",
      .download "b" "k/y", .upload "c" "k" [] true]
    let results : List (Except StorageError Reply) := [
      .ok (.present false), .ok .done, .error (.bucketExists "b"), .ok .done,
      .error (.objectExists "b" "k/x"), .ok .done, .ok (.content [2]),
      .error (.notFound "b" "k/y"), .error (.bucketNotFound "c")]
    ((d.store Tree.fileSystem).answers accesses t).1 = results := by
  intro d t accesses results
  have hclosed : t.Closed := Tree.closed_singleton "data"
  have hvacant : d.Vacant t := by
    refine ⟨["data"], ["store"], ⟨by decide, ⟨["data"], by decide, by decide⟩, by decide,
      by decide +kernel⟩, fun q hq _ => ?_⟩
    exact Tree.node?_singleton (by simp) (by simpa using hq)
  have hadmits : d.Admits accesses := by decide +kernel
  rw [answers_eq hclosed hvacant hadmits (by decide)]
  rfl

/-- A bucket in memory can have any name, but a directory cannot have a NUL in it. -/
theorem answers_ne_of_nul :
    let d : DirectoryStore := ⟨"store"⟩
    let t : Tree := { nodes := [(["store"], .directory)] }
    let accesses : List Access := [.createBucket "a\x00b"]
    t.Closed ∧ d.Vacant t ∧ d.Admits accesses ∧
      ((d.store Tree.fileSystem).answers accesses t).1 = [.error (.io .nulByte)] ∧
      (Memory.store.answers accesses {}).1 = [.ok .done] := by
  intro d t accesses
  refine ⟨Tree.closed_singleton "store", ⟨["store"], [], ⟨by decide, ⟨["store"], by decide,
    by decide⟩, by decide, by decide⟩, fun q hq _ => ?_⟩, by decide +kernel, by decide +kernel, rfl⟩
  exact Tree.node?_singleton (by simp) (by simpa using hq)

end DirectoryStore

end TexBundle

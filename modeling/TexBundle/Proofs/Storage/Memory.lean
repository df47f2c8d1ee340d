import TexBundle.Proofs.FileSystem.Tree
import TexBundle.Proofs.Storage.Access
import TexBundle.Storage.Memory
import Mathlib.Data.Finset.Card
import Mathlib.Data.List.Nodup

/-!
# What stores in memory hold

A store in memory holds exactly what its history says: the bytes that were written last at each
bucket and key, in buckets that are there.

* `Memory.Operation`, `Memory.run`: calls and direct insertions, one after the other, with their
  answers;
* `Memory.lastWritten`: what has been written last, as the history tells;
* `Memory.Records`: how the store stands for its history, with `Memory.Records.perform` for one
  operation and `Memory.records_run` for all;
* `Memory.run_holds`: what can be said of the store after any run.
-/

namespace TexBundle.Memory

/-- A call of a store in memory, or an object that is put in without any question. -/
inductive Operation where
  | call (access : Access)
  | insert (bucket key : Text) (bytes : Bytes)
deriving DecidableEq, Repr

def perform : Operation → StateM Memory (Except StorageError Reply)
  | .call access => store.answer access
  | .insert bucket key bytes => fun s => (.ok .done, s.insert bucket key bytes)

/-- Operations with their answers, the first one first. -/
abbrev History := List (Operation × Except StorageError Reply)

def run : List Operation → StateM Memory History
  | [] => return []
  | operation :: operations => do
    let answer ← perform operation
    return (operation, answer) :: (← run operations)

/-- The object that an operation writes, if it succeeds. -/
def written? : Operation × Except StorageError Reply → Option ((Text × Text) × Bytes)
  | (.call (.upload bucket key bytes _), .ok _) => some ((bucket, key), bytes)
  | (.insert bucket key bytes, .ok _) => some ((bucket, key), bytes)
  | _ => none

/-- The objects that have been written, the last one first. -/
def written (history : History) : List ((Text × Text) × Bytes) :=
  (history.filterMap written?).reverse

/-- The bytes that have been written last under a bucket and key. -/
def lastWritten (history : History) (bucket key : Text) : Option Bytes :=
  (written history).lookup (bucket, key)

theorem get?_put (s : Memory) (bucket key : Text) (bytes : Bytes) (bucket' key' : Text) :
    (s.put bucket key bytes).get? bucket' key' =
      if (bucket', key') = (bucket, key) then some bytes else s.get? bucket' key' := by
  rw [get?, put, get?]
  by_cases h : (bucket', key') = (bucket, key)
  · rw [if_pos h, h, List.lookup_cons_self]
  · have hne : ((bucket', key') == (bucket, key)) = false := by simpa using h
    rw [if_neg h, List.lookup_cons, hne]
    exact lookup_filter_ne h _

variable {history : History} {s s' : Memory} {bucket key : Text} {bytes : Bytes}
  {operation : Operation} {answer : Except StorageError Reply}

/-! ## Operations -/

theorem perform_createBucket (s : Memory) (bucket : Text) :
    perform (.call (.createBucket bucket)) s =
      if bucket ∈ s.buckets then (.error (.bucketExists bucket), s)
      else (.ok .done, { s with buckets := bucket :: s.buckets }) := by
  show ((change (·.createBucket bucket) s).1.map fun _ => Reply.done,
    (change (·.createBucket bucket) s).2) = _
  rw [change, createBucket]
  by_cases hbucket : bucket ∈ s.buckets
  · rw [if_pos hbucket, if_pos hbucket]
    rfl
  · rw [if_neg hbucket, if_neg hbucket]
    rfl

theorem perform_upload (s : Memory) (bucket key : Text) (bytes : Bytes) (upsert : Bool) :
    perform (.call (.upload bucket key bytes upsert)) s =
      if bucket ∉ s.buckets then (.error (.bucketNotFound bucket), s)
      else if !upsert && (s.get? bucket key).isSome then (.error (.objectExists bucket key), s)
      else (.ok .done, s.put bucket key bytes) := by
  show ((change (·.upload bucket key bytes upsert) s).1.map fun _ => Reply.done,
    (change (·.upload bucket key bytes upsert) s).2) = _
  rw [change, upload]
  by_cases hbucket : bucket ∉ s.buckets
  · rw [if_pos hbucket, if_pos hbucket]
    rfl
  · rw [if_neg hbucket, if_neg hbucket]
    by_cases hthere : (!upsert && (s.get? bucket key).isSome) = true
    · rw [if_pos hthere, if_pos hthere]
      rfl
    · rw [if_neg hthere, if_neg hthere]
      rfl

theorem perform_bucketExists (s : Memory) (bucket : Text) :
    perform (.call (.bucketExists bucket)) s =
      (.ok (.present (decide (bucket ∈ s.buckets))), s) := by
  rw [← List.contains_eq_mem]
  rfl

theorem perform_download (s : Memory) (bucket key : Text) :
    perform (.call (.download bucket key)) s =
      ((s.get? bucket key).elim (.error (.notFound bucket key)) (.ok <| .content ·), s) := by
  show ((s.download bucket key).map Reply.content, s) = _
  rw [download]
  cases s.get? bucket key <;> rfl

/-! ## Histories -/

theorem written_concat (history : History) (x : Operation × Except StorageError Reply) :
    written (history ++ [x]) = (written? x).toList ++ written history := by
  rw [written, List.filterMap_append, List.reverse_append]
  cases h : written? x <;> simp [h, written]

theorem lastWritten_concat_of_none (h : written? (operation, answer) = none) (bucket key : Text) :
    lastWritten (history ++ [(operation, answer)]) bucket key =
      lastWritten history bucket key := by
  rw [lastWritten, written_concat, h]
  rfl

theorem lastWritten_concat (h : written? (operation, answer) = some ((bucket, key), bytes))
    (bucket' key' : Text) :
    lastWritten (history ++ [(operation, answer)]) bucket' key' =
      if (bucket', key') = (bucket, key) then some bytes else lastWritten history bucket' key' := by
  rw [lastWritten, written_concat, h, Option.toList_some, List.singleton_append, List.lookup_cons]
  by_cases heq : (bucket', key') = (bucket, key)
  · rw [if_pos heq, heq, beq_self_eq_true]
  · rw [if_neg heq, beq_false_of_ne heq]
    rfl

/-! ## Stores and their histories -/

/-- A store stands for its history. -/
structure Records (history : History) (s : Memory) : Prop where
  get?_eq : ∀ bucket key, s.get? bucket key = lastWritten history bucket key
  nodup : (s.objects.map (·.1)).Nodup
  bucket_mem : ∀ o ∈ s.objects, o.1.1 ∈ s.buckets

namespace Records

/-- Nothing has been written, and no bucket has been lost. -/
theorem keep (h : Records history s) (hwritten : written? (operation, answer) = none)
    (hobjects : s'.objects = s.objects) (hbuckets : s.buckets ⊆ s'.buckets) :
    Records (history ++ [(operation, answer)]) s' where
  get?_eq bucket key := by
    rw [lastWritten_concat_of_none hwritten, ← h.get?_eq, get?, get?, hobjects]
  nodup := hobjects ▸ h.nodup
  bucket_mem o ho := hbuckets (h.bucket_mem o (hobjects ▸ ho))

theorem put (h : Records history s)
    (hwritten : written? (operation, answer) = some ((bucket, key), bytes))
    (hbucket : bucket ∈ s.buckets) :
    Records (history ++ [(operation, answer)]) (s.put bucket key bytes) where
  get?_eq bucket' key' := by rw [get?_put, lastWritten_concat hwritten, h.get?_eq]
  nodup := by
    refine List.nodup_cons.2 ⟨fun hmem => ?_, h.nodup.sublist (List.filter_sublist.map _)⟩
    obtain ⟨o, ho, heq⟩ := List.mem_map.1 hmem
    exact absurd heq (by simpa using (List.mem_filter.1 ho).2)
  bucket_mem := List.forall_mem_cons.2
    ⟨hbucket, fun o ho => h.bucket_mem o (List.mem_filter.1 ho).1⟩

/-- What is there is what has been written. -/
theorem mem_keys_iff (h : Records history s) (id : Text × Text) :
    id ∈ s.objects.map (·.1) ↔ id ∈ (written history).map (·.1) := by
  have hlookup (l : List ((Text × Text) × Bytes)) :
      id ∈ l.map (·.1) ↔ (l.lookup id).isSome := by
    rw [List.lookup_isSome_iff, List.mem_map]
    exact exists_congr fun o => and_congr_right fun _ => eq_comm.trans beq_iff_eq.symm
  rw [hlookup, hlookup]
  exact iff_of_eq (congrArg (fun o => o.isSome = true) (h.get?_eq id.1 id.2))

theorem size_eq (h : Records history s) :
    s.size = ((written history).map (·.1)).toFinset.card := by
  rw [size, ← List.length_map (·.1), ← List.toFinset_card_of_nodup h.nodup]
  congr 1
  ext id
  rw [List.mem_toFinset, List.mem_toFinset, h.mem_keys_iff]

/-- What one operation does. -/
theorem perform (h : Records history s) (operation : Operation) :
    Records (history ++ [(operation, (Memory.perform operation s).1)])
      (Memory.perform operation s).2 := by
  cases operation with
  | insert bucket key bytes =>
    have hbuckets : Records history { s with buckets := s.buckets.insert bucket } :=
      ⟨h.get?_eq, h.nodup, fun o ho => List.mem_insert_of_mem (h.bucket_mem o ho)⟩
    exact hbuckets.put rfl List.mem_insert_self
  | call access =>
    cases access with
    | createBucket bucket =>
      rw [perform_createBucket]
      split
      · exact h.keep rfl rfl (List.Subset.refl _)
      · exact h.keep rfl rfl (List.subset_cons_self _ _)
    | bucketExists bucket => exact h.keep rfl rfl (List.Subset.refl _)
    | upload bucket key bytes upsert =>
      rw [perform_upload]
      split
      · exact h.keep rfl rfl (List.Subset.refl _)
      · split
        · exact h.keep rfl rfl (List.Subset.refl _)
        · exact h.put rfl (not_not.1 ‹_›)
    | download bucket key => exact h.keep rfl rfl (List.Subset.refl _)

end Records

/-- By induction on the operations. -/
theorem records_append_run (h : Records history s) (operations : List Operation) :
    Records (history ++ (run operations s).1) (run operations s).2 := by
  induction operations generalizing history s with
  | nil => rwa [run, show (pure [] : StateM Memory History) s = ([], s) from rfl, List.append_nil]
  | cons operation operations ih =>
    have hrun := ih (h.perform operation)
    rw [List.append_assoc] at hrun
    exact hrun

theorem records_run (operations : List Operation) :
    Records (run operations {}).1 (run operations {}).2 := by
  have hnew : Records [] {} := ⟨fun _ _ => rfl, List.nodup_nil, List.forall_mem_nil _⟩
  exact records_append_run hnew operations

/-- An operation that fails changes nothing. -/
theorem perform_error {e : StorageError} (h : (perform operation s).1 = .error e) :
    (perform operation s).2 = s := by
  cases operation with
  | insert bucket key bytes => cases h
  | call access =>
    cases access with
    | createBucket bucket =>
      rw [perform_createBucket] at h ⊢
      split_ifs at h ⊢
      rfl
    | bucketExists bucket => rfl
    | upload bucket key bytes upsert =>
      rw [perform_upload] at h ⊢
      split_ifs at h ⊢
      · rfl
      · rfl
    | download bucket key => rfl

/-- After any run of operations on a new store, whether they succeeded or not: every object lies in
a bucket that is there; an operation that fails changes nothing; what is downloaded is what has been
written last under the same bucket and key, and is not found if nothing has; an upload without
upsert succeeds only where nothing has been written; and the size is the number of different pairs
of bucket and key that have been written. -/
theorem run_holds (operations : List Operation) :
    let history := (run operations {}).1
    let s := (run operations {}).2
    (∀ o ∈ s.objects, (perform (.call (.bucketExists o.1.1)) s).1 = .ok (.present true)) ∧
      (∀ operation e, (perform operation s).1 = .error e → (perform operation s).2 = s) ∧
      (∀ bucket key, (perform (.call (.download bucket key)) s).1 =
        match lastWritten history bucket key with
        | some bytes => .ok (.content bytes)
        | none => .error (.notFound bucket key)) ∧
      (∀ bucket key bytes reply,
        (perform (.call (.upload bucket key bytes false)) s).1 = .ok reply →
          lastWritten history bucket key = none) ∧
      s.size = ((written history).map (·.1)).toFinset.card := by
  intro history s
  have h : Records history s := records_run operations
  refine ⟨fun o ho => ?_, fun operation e => perform_error, fun bucket key => ?_,
    fun bucket key bytes reply hupload => ?_, h.size_eq⟩
  · rw [perform_bucketExists, decide_eq_true (h.bucket_mem o ho)]
  · rw [perform_download, h.get?_eq]
    cases lastWritten history bucket key <;> rfl
  · rw [perform_upload] at hupload
    split_ifs at hupload with hbucket hthere
    rw [← h.get?_eq]
    simpa using hthere

end TexBundle.Memory

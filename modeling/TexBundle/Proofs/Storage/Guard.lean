import TexBundle.Proofs.Storage.Keeping

/-!
# Making sure of a bucket

What a guard does to a store that is a state, call by call.

* `Guard.ensure_ready`, `Guard.ensure_not_ready`: a guard that is ready makes no call, and otherwise
  it remembers whether the bucket is there;
* `Guard.check_eq`, `Guard.create_eq`: the calls that it makes;
* `Guard.bucket_ensure`: its bucket stays the same;
* `Guard.ensure_keeps`: what these calls keep, a guard keeps.
-/

namespace TexBundle.Guard

variable {σ : Type} {g : Guard} {store : ObjectStore (StateM σ)} {I : σ → Prop}

/-- The guard once it has been tried to get its bucket. -/
def after (g : Guard) : Except StorageError Unit → Guard
  | .ok () => { g with ready := true }
  | .error _ => g

theorem ensure_ready (h : g.ready = true) (s : σ) : g.ensure store s = ((.ok (), g), s) := by
  rw [ensure, if_pos h]
  rfl

theorem ensure_not_ready (h : g.ready = false) (s : σ) :
    g.ensure store s =
      (((g.check store s).1, g.after (g.check store s).1), (g.check store s).2) := by
  rw [ensure, if_neg (by simp [h])]
  obtain ⟨⟨result, s'⟩, hcheck⟩ : ∃ x, g.check store s = x := ⟨_, rfl⟩
  simp only [bind, StateT.bind, hcheck]
  cases result <;> rfl

theorem check_eq (s : σ) :
    g.check store s =
      match store.bucketExists g.bucket s with
      | (.error e, s') => (.error e, s')
      | (.ok true, s') => (.ok (), s')
      | (.ok false, s') => g.create store s' := by
  obtain ⟨⟨result, s'⟩, hexists⟩ : ∃ x, store.bucketExists g.bucket s = x := ⟨_, rfl⟩
  simp only [check, bind, StateT.bind, hexists]
  match result with
  | .error e => rfl
  | .ok true => rfl
  | .ok false => rfl

theorem create_eq (s : σ) :
    g.create store s =
      match store.createBucket g.bucket s with
      | (.error (.bucketExists _), s') => (.ok (), s')
      | (result, s') => (result, s') := by
  obtain ⟨⟨result, s'⟩, hcreate⟩ : ∃ x, store.createBucket g.bucket s = x := ⟨_, rfl⟩
  simp only [create, bind, StateT.bind, hcreate]
  cases result with
  | ok _ => rfl
  | error e => cases e <;> rfl

theorem bucket_after (g : Guard) (result : Except StorageError Unit) :
    (g.after result).bucket = g.bucket := by
  cases result <;> rfl

theorem bucket_ensure (g : Guard) (store : ObjectStore (StateM σ)) (s : σ) :
    (g.ensure store s).1.2.bucket = g.bucket := by
  cases hready : g.ready with
  | true => rw [ensure_ready hready]
  | false =>
    rw [ensure_not_ready hready]
    exact g.bucket_after _

theorem create_keeps (hcreate : Keeps I (store.createBucket g.bucket)) :
    Keeps I (g.create store) := by
  refine .bind hcreate fun result => ?_
  cases result with
  | ok _ => exact .pure _
  | error e => cases e <;> exact .pure _

theorem ensure_keeps (hexists : Keeps I (store.bucketExists g.bucket))
    (hcreate : Keeps I (store.createBucket g.bucket)) : Keeps I (g.ensure store) := by
  have hcheck : Keeps I (g.check store) := by
    refine .bind hexists fun result => ?_
    match result with
    | .error e => exact .pure _
    | .ok true => exact .pure _
    | .ok false => exact create_keeps hcreate
  rw [ensure]
  split
  · exact .pure _
  · refine .bind hcheck fun result => ?_
    cases result <;> exact .pure _

end TexBundle.Guard

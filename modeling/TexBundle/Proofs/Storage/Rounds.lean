import TexBundle.Proofs.Storage.Access
import TexBundle.Proofs.Storage.Guard
import Mathlib.Data.List.Chain

/-!
# A guard that is called again and again

What a guard asks its store, and what it makes of the answers. The store may answer anything, so
that every call may succeed or fail, in any pattern.

* `Recorded.store`: a store whose calls are written down with their answers;
* `Guard.Round`, `Guard.rounds`: what happens in one call of `ensure`, and in calls one after the
  other;
* `Guard.round_cases`, `Guard.round_of_ready`: what one call can come to;
* `Guard.Proceeds`, `Guard.History`: what a guard makes of one call, and of all of them;
* `Guard.history_rounds`: so it does whatever the store answers.
-/

namespace TexBundle

variable {σ α : Type}

/-- A store's state with the exchanges so far, the last one first. -/
structure Recorded (σ : Type) where
  inner : σ
  exchanges : List Exchange := []

namespace Recorded

/-- Makes a call and writes it down with its answer. -/
def call (access : Access) (reply : α → Reply) (act : StateM σ (Except StorageError α)) :
    StateM (Recorded σ) (Except StorageError α) := fun s =>
  let (result, inner) := act s.inner
  (result, ⟨inner, ⟨access, result.map reply⟩ :: s.exchanges⟩)

def store (inner : ObjectStore (StateM σ)) : ObjectStore (StateM (Recorded σ)) where
  download bucket key := call (.download bucket key) .content (inner.download bucket key)
  upload bucket key bytes upsert :=
    call (.upload bucket key bytes upsert) (fun _ => .done) (inner.upload bucket key bytes upsert)
  bucketExists bucket := call (.bucketExists bucket) .present (inner.bucketExists bucket)
  createBucket bucket := call (.createBucket bucket) (fun _ => .done) (inner.createBucket bucket)

end Recorded

namespace Guard

/-- A call of `ensure`: the guard before it, what it asked the store with the answers, the first one
first, what it came to, and the guard after it. -/
structure Round where
  before : Guard
  exchanges : List Exchange
  result : Except StorageError Unit
  after : Guard

def round (store : ObjectStore (StateM σ)) (g : Guard) : StateM σ Round := fun s =>
  let ((result, after), s') := g.ensure (Recorded.store store) ⟨s, []⟩
  (⟨g, s'.exchanges.reverse, result, after⟩, s'.inner)

/-- So many calls of `ensure`, whatever they come to. -/
def rounds (store : ObjectStore (StateM σ)) : Nat → Guard → StateM σ (List Round)
  | 0, _ => return []
  | n + 1, g => do
    let r ← g.round store
    return r :: (← rounds store n r.after)

/-! ## One call -/

/-- A bucket is made sure of: it has been found, or else created, perhaps by somebody else. -/
inductive Secures (bucket : Text) : List Exchange → Prop where
  | found : Secures bucket [⟨.bucketExists bucket, .ok (.present true)⟩]
  | created : Secures bucket
      [⟨.bucketExists bucket, .ok (.present false)⟩, ⟨.createBucket bucket, .ok .done⟩]
  | overtaken (other : Text) : Secures bucket
      [⟨.bucketExists bucket, .ok (.present false)⟩,
        ⟨.createBucket bucket, .error (.bucketExists other)⟩]

/-- A bucket is not made sure of: it could not be looked for, or not be created. -/
inductive Fails (bucket : Text) (e : StorageError) : List Exchange → Prop where
  | search : Fails bucket e [⟨.bucketExists bucket, .error e⟩]
  | creation (h : ∀ other, e ≠ .bucketExists other) : Fails bucket e
      [⟨.bucketExists bucket, .ok (.present false)⟩, ⟨.createBucket bucket, .error e⟩]

section

variable {bucket : Text} {exchanges : List Exchange} {e e' : StorageError}

theorem Secures.not_fails (h : Secures bucket exchanges) : ¬ Fails bucket e exchanges := by
  intro h'
  cases h with
  | found => cases h'
  | created => cases h'
  | overtaken other =>
    cases h' with
    | creation hne => exact hne other rfl

theorem Fails.unique (h : Fails bucket e exchanges) (h' : Fails bucket e' exchanges) : e = e' := by
  cases h <;> cases h' <;> rfl

theorem Secures.starts (h : Secures bucket exchanges) :
    ∃ answer, exchanges.head? = some ⟨.bucketExists bucket, answer⟩ := by
  cases h with
  | found => exact ⟨_, rfl⟩
  | created => exact ⟨_, rfl⟩
  | overtaken => exact ⟨_, rfl⟩

theorem Fails.starts (h : Fails bucket e exchanges) :
    ∃ answer, exchanges.head? = some ⟨.bucketExists bucket, answer⟩ := by
  cases h with
  | search => exact ⟨_, rfl⟩
  | creation => exact ⟨_, rfl⟩

end

/-- What a guard makes of a call. -/
structure Proceeds (r : Round) : Prop where
  /-- If it is not ready it succeeds by those answers that make sure of its bucket. -/
  secures : r.before.ready = false →
    (r.result = .ok () ↔ Secures r.before.bucket r.exchanges)
  /-- By all others it fails, with the error that it was answered. -/
  fails : r.before.ready = false →
    ∀ e, r.result = .error e ↔ Fails r.before.bucket e r.exchanges
  /-- It always looks for the bucket first. -/
  starts : r.before.ready = false →
    ∃ answer, r.exchanges.head? = some ⟨.bucketExists r.before.bucket, answer⟩
  /-- If it is ready it succeeds without any question. -/
  asks : r.before.ready = true → r.exchanges = [] ∧ r.result = .ok ()
  /-- It remembers success, and nothing else. -/
  after : r.after = { r.before with ready := r.result.isOk }

variable {store : ObjectStore (StateM σ)} {g : Guard} {bucket : Text}

theorem round_of_ready (h : g.ready = true) (s : σ) :
    g.round store s = (⟨g, [], .ok (), g⟩, s) := by
  rw [round, ensure_ready h]
  rfl

/-- A guard that is not ready asks for the bucket, and creates it if that is not there. -/
theorem round_cases (h : g.ready = false) (store : ObjectStore (StateM σ)) (s : σ) :
    (∃ exchanges s', g.round store s = (⟨g, exchanges, .ok (), { g with ready := true }⟩, s') ∧
      Secures g.bucket exchanges) ∨
    ∃ exchanges e s', g.round store s = (⟨g, exchanges, .error e, g⟩, s') ∧
      Fails g.bucket e exchanges := by
  have hexists : (Recorded.store store).bucketExists g.bucket ⟨s, []⟩ =
      ((store.bucketExists g.bucket s).1, ⟨(store.bucketExists g.bucket s).2,
        [⟨.bucketExists g.bucket, (store.bucketExists g.bucket s).1.map .present⟩]⟩) := rfl
  simp only [round, ensure_not_ready h, check_eq, hexists]
  obtain ⟨found, s₁⟩ := store.bucketExists g.bucket s
  match found with
  | .error e => exact .inr ⟨_, e, _, rfl, .search⟩
  | .ok true => exact .inl ⟨_, _, rfl, .found⟩
  | .ok false =>
    have hcreate : (Recorded.store store).createBucket g.bucket
        ⟨s₁, [⟨.bucketExists g.bucket, .ok (.present false)⟩]⟩ =
        ((store.createBucket g.bucket s₁).1, ⟨(store.createBucket g.bucket s₁).2,
          [⟨.createBucket g.bucket, (store.createBucket g.bucket s₁).1.map fun _ => .done⟩,
            ⟨.bucketExists g.bucket, .ok (.present false)⟩]⟩) := rfl
    simp only [Except.map, create_eq, hcreate]
    obtain ⟨created, s₂⟩ := store.createBucket g.bucket s₁
    match created with
    | .ok () => exact .inl ⟨_, _, rfl, .created⟩
    | .error e =>
      cases e with
      | bucketExists other => exact .inl ⟨_, _, rfl, .overtaken other⟩
      | _ => exact .inr ⟨_, _, _, rfl, .creation fun _ => by simp⟩

theorem proceeds_round (store : ObjectStore (StateM σ)) (g : Guard) (s : σ) :
    Proceeds (g.round store s).1 := by
  obtain ⟨bucket, ready⟩ := g
  cases ready with
  | true =>
    rw [round_of_ready rfl]
    exact ⟨nofun, nofun, nofun, fun _ => ⟨rfl, rfl⟩, rfl⟩
  | false =>
    obtain ⟨exchanges, s', hround, h⟩ | ⟨exchanges, e, s', hround, h⟩ :=
      round_cases (g := ⟨bucket, false⟩) rfl store s
    · rw [hround]
      exact ⟨fun _ => iff_of_true rfl h, fun _ e => iff_of_false (by simp) h.not_fails,
        fun _ => h.starts, nofun, rfl⟩
    · rw [hround]
      exact ⟨fun _ => iff_of_false (by simp) fun hs => hs.not_fails h,
        fun _ e' => ⟨fun he => Except.error.inj he ▸ h, fun h' => congrArg _ (h.unique h')⟩,
        fun _ => h.starts, nofun, rfl⟩

/-! ## Buckets that are created -/

/-- Each bucket that is created has just been looked for in vain. -/
def CreatesMissing (bucket : Text) (exchanges : List Exchange) : Prop :=
  ∀ done x rest, exchanges = done ++ x :: rest → ∀ other, x.access = .createBucket other →
    other = bucket ∧ done.getLast? = some ⟨.bucketExists bucket, .ok (.present false)⟩

namespace CreatesMissing

theorem nil (bucket : Text) : CreatesMissing bucket [] :=
  fun done x rest h => absurd h (by simp)

theorem append {exchanges more : List Exchange} (h : CreatesMissing bucket exchanges)
    (hmore : CreatesMissing bucket more) : CreatesMissing bucket (exchanges ++ more) := by
  intro done x rest heq other hx
  obtain ⟨between, rfl, hrest⟩ | ⟨between, hdone, hrest⟩ := List.append_eq_append_iff.1 heq
  · obtain ⟨rfl, hlast⟩ := hmore between x rest hrest other hx
    exact ⟨rfl, by rw [List.getLast?_append, hlast]; rfl⟩
  · cases between with
    | nil =>
      obtain ⟨rfl, hlast⟩ := hmore [] x rest hrest.symm other hx
      cases hlast
    | cons y between =>
      obtain ⟨rfl, -⟩ := List.cons.inj hrest
      exact h done x between hdone other hx

theorem search (bucket : Text) (answer : Except StorageError Reply) :
    CreatesMissing bucket [⟨.bucketExists bucket, answer⟩] := by
  intro done x rest heq other hx
  obtain ⟨-, hrest⟩ | ⟨_, -, hrest⟩ := List.cons_eq_append_iff.1 heq
  · obtain ⟨rfl, -⟩ := List.cons.inj hrest
    cases hx
  · simp at hrest

theorem creation (bucket : Text) (answer : Except StorageError Reply) :
    CreatesMissing bucket
      [⟨.bucketExists bucket, .ok (.present false)⟩, ⟨.createBucket bucket, answer⟩] := by
  intro done x rest heq other hx
  obtain ⟨-, hrest⟩ | ⟨done', rfl, heq'⟩ := List.cons_eq_append_iff.1 heq
  · obtain ⟨rfl, -⟩ := List.cons.inj hrest
    cases hx
  · obtain ⟨rfl, hrest⟩ | ⟨_, -, hrest⟩ := List.cons_eq_append_iff.1 heq'
    · obtain ⟨rfl, -⟩ := List.cons.inj hrest
      cases hx
      exact ⟨rfl, rfl⟩
    · simp at hrest

end CreatesMissing

theorem createsMissing_round (store : ObjectStore (StateM σ)) (g : Guard) (s : σ) :
    CreatesMissing g.bucket (g.round store s).1.exchanges := by
  cases hready : g.ready with
  | true =>
    rw [round_of_ready hready]
    exact .nil g.bucket
  | false =>
    obtain ⟨exchanges, s', hround, h⟩ | ⟨exchanges, e, s', hround, h⟩ :=
      round_cases hready store s
    · rw [hround]
      cases h with
      | found => exact .search g.bucket _
      | created => exact .creation g.bucket _
      | overtaken => exact .creation g.bucket _
    · rw [hround]
      cases h with
      | search => exact .search g.bucket _
      | creation => exact .creation g.bucket _

/-! ## Calls one after the other -/

/-- What comes of a guard that is called again and again. -/
structure History (g : Guard) (rounds : List Round) : Prop where
  proceeds : ∀ r ∈ rounds, Proceeds r
  /-- Each call finds the guard as the one before has left it. -/
  first : ∀ r ∈ rounds.head?, r.before = g
  next : rounds.IsChain fun r next => next.before = r.after
  /-- In all the calls, the bucket is created only when it has just been looked for in vain. -/
  creates : CreatesMissing g.bucket (rounds.flatMap Round.exchanges)
  /-- Once the guard has succeeded it stays ready, and asks for nothing. -/
  remembers : rounds.Pairwise fun r later =>
    r.result = .ok () → r.after.ready = true ∧ later = ⟨r.after, [], .ok (), r.after⟩

theorem rounds_succ (store : ObjectStore (StateM σ)) (n : Nat) (g : Guard) (s : σ) :
    (rounds store (n + 1) g s).1 = (g.round store s).1 ::
      (rounds store n (g.round store s).1.after (g.round store s).2).1 := rfl

theorem length_rounds (store : ObjectStore (StateM σ)) (n : Nat) (g : Guard) (s : σ) :
    (rounds store n g s).1.length = n := by
  induction n generalizing g s with
  | zero => rfl
  | succ n ih => rw [rounds_succ, List.length_cons, ih]

theorem rounds_of_ready (h : g.ready = true) (n : Nat) (s : σ) :
    (rounds store n g s).1 = List.replicate n ⟨g, [], .ok (), g⟩ := by
  induction n with
  | zero => rfl
  | succ n ih => rw [rounds_succ, round_of_ready h, ih, List.replicate_succ]

/-- However often a guard is called, and whatever its store answers, it gets ready by the first
answers that make sure of its bucket. Until then it fails and starts over, and from then on it makes
no more calls. -/
theorem history_rounds (store : ObjectStore (StateM σ)) (g : Guard) (n : Nat) (s : σ) :
    (rounds store n g s).1.length = n ∧ History g (rounds store n g s).1 := by
  refine ⟨length_rounds store n g s, ?_⟩
  induction n generalizing g s with
  | zero => exact ⟨List.forall_mem_nil _, nofun, .nil, .nil _, .nil⟩
  | succ n ih =>
    have hproceeds := proceeds_round store g s
    have hcreates := createsMissing_round store g s
    have hbucket : (g.round store s).1.after.bucket = g.bucket := by rw [hproceeds.after]; rfl
    obtain ⟨hrest, hfirst, hnext, hcreatesRest, hremembers⟩ :=
      ih (g.round store s).1.after (g.round store s).2
    rw [rounds_succ]
    refine ⟨List.forall_mem_cons.2 ⟨hproceeds, hrest⟩, fun r hr => ?_,
      List.isChain_cons.2 ⟨hfirst, hnext⟩, hcreates.append (hbucket ▸ hcreatesRest),
      List.pairwise_cons.2 ⟨fun later hlater hok => ?_, hremembers⟩⟩
    · rw [← Option.some.inj hr]
      rfl
    · have hready : (g.round store s).1.after.ready = true := by rw [hproceeds.after, hok]; rfl
      rw [rounds_of_ready hready] at hlater
      exact ⟨hready, List.eq_of_mem_replicate hlater⟩

end Guard

end TexBundle

import TexBundle.Proofs.Bundler.Keeping
import TexBundle.Proofs.Storage.Guard
import TexBundle.Proofs.Storage.Watched

/-!
# Serving requests

Requests are served one after the other, with one guard for all of them. Whatever they are and
however the calls of the store end, they read, and create the default bucket at most once.

* `Request`, `Bundler.handle`, `Bundler.serve`: the operations as data, and runs of them;
* `Frugal`: what may have been called so far; `Frugal.ensure`: making sure of the default bucket;
* `Bundler.handle_maintains`, `Bundler.serve_maintains`: one request, and a run;
* `Bundler.watch_frugal`: what runs do to a store, with any calls failing.
-/

namespace TexBundle

variable {σ O : Type}

/-! ## Requests -/

/-- The operations, each with what it is asked. -/
inductive Request where
  | loadDocument (id : Text)
  | mergedSource (id : Text)
  | referenceSection (id : Text)
  | preview (id : Text)
  | buildPackage (id : Text)
  | resolveFile (id requested : Text)
  | fetchFile (id requested : Text)
deriving DecidableEq, Repr

/-- What a request is answered with. -/
def Request.Answer : Request → Type
  | loadDocument _ => Document
  | mergedSource _ => Text
  | referenceSection _ => Option ReferenceSection
  | preview _ => Preview
  | buildPackage _ => Package
  | resolveFile _ _ => Resolution
  | fetchFile _ _ => Resolution × Bytes

/-- A request with what the document store answers at that time. -/
structure Visit where
  documents : Text → Except Text (Option Document)
  request : Request

namespace Bundler

def handle {m : Type → Type} [Monad m] (b : Bundler m) : (r : Request) → Operation m r.Answer
  | .loadDocument id => b.loadDocument id
  | .mergedSource id => b.mergedSource id
  | .referenceSection id => b.referenceSection id
  | .preview id => b.preview id
  | .buildPackage id => b.buildPackage id
  | .resolveFile id requested => b.resolveFile id requested
  | .fetchFile id requested => b.fetchFile id requested

/-- The bundler that a visit meets. -/
def visited (store : ObjectStore (StateM σ)) (settings : Settings) (v : Visit) :
    Bundler (StateM σ) where
  store := store
  documents := ⟨fun id => return v.documents id⟩
  settings := settings

/-- Serves one visit after the other, from a guard and a state of the store. -/
def serve (store : ObjectStore (StateM σ)) (settings : Settings) :
    List Visit → Guard → σ → Guard × σ
  | [], g, s => (g, s)
  | v :: vs, g, s =>
    let ((_, g'), s') := ((Bundler.visited store settings v).handle v.request).exec g s
    serve store settings vs g' s'

end Bundler

/-! ## What is created -/

/-- A call that has created a bucket. -/
def Event.creates (e : Event) : Bool := e.call.kind == .createBucket && e.succeeded

/-- The events of a run, and the guard that it has come to: nothing is uploaded, no bucket but the
default one is to be created, and that one has been created at most once. Then the guard knows of
it. -/
structure Frugal (settings : Settings) (g : Guard) (events : List Event) : Prop where
  bucket : g.bucket = settings.defaultBucket
  uploads : ∀ e ∈ events, e.call.kind ≠ .upload
  buckets : ∀ e ∈ events, e.call.kind = .createBucket → e.call.bucket = settings.defaultBucket
  created : events.countP Event.creates ≤ if g.ready then 1 else 0

namespace Frugal

variable {settings : Settings} {g : Guard} {events : List Event} {e : Event} {faults : Faults}
  {store : ObjectStore (StateM σ)} {s : Watched σ}

theorem ready (h : Frugal settings g events) : Frugal settings { g with ready := true } events where
  bucket := h.bucket
  uploads := h.uploads
  buckets := h.buckets
  created := by
    have hcreated := h.created
    rw [if_pos rfl]
    split at hcreated <;> omega

/-- A call that creates nothing. -/
theorem cons (h : Frugal settings g events) (hupload : e.call.kind ≠ .upload)
    (hbucket : e.call.kind = .createBucket → e.call.bucket = g.bucket)
    (hcreates : e.creates = false) : Frugal settings g (e :: events) where
  bucket := h.bucket
  uploads := List.forall_mem_cons.2 ⟨hupload, h.uploads⟩
  buckets := List.forall_mem_cons.2 ⟨fun he => (hbucket he).trans h.bucket, h.buckets⟩
  created := by
    rw [List.countP_cons_of_neg (by simp [hcreates])]
    exact h.created

/-- Creating the bucket, while the guard does not know of it. -/
theorem create (h : Frugal settings g events) (hready : g.ready = false)
    (hkind : e.call.kind = .createBucket) (hbucket : e.call.bucket = g.bucket) :
    Frugal settings { g with ready := true } (e :: events) where
  bucket := h.bucket
  uploads := List.forall_mem_cons.2 ⟨by simp [hkind], h.uploads⟩
  buckets := List.forall_mem_cons.2 ⟨fun _ => hbucket.trans h.bucket, h.buckets⟩
  created := by
    have hcreated := h.created
    rw [hready, if_neg (by decide)] at hcreated
    rw [if_pos rfl, List.countP_cons]
    split <;> omega

theorem create_after (h : Frugal settings g s.events) (hready : g.ready = false) :
    let r := g.create (Watched.store faults store) s
    Frugal settings (g.after r.1) r.2.events := by
  rw [Guard.create_eq]
  obtain ⟨⟨result, s'⟩, hcall⟩ :
    ∃ x, (Watched.store faults store).createBucket g.bucket s = x := ⟨_, rfl⟩
  have hevents := Watched.events_of_call hcall
  rw [hcall]
  cases result with
  | ok _ =>
    show Frugal settings { g with ready := true } s'.events
    rw [hevents]
    exact h.create hready rfl rfl
  | error e =>
    have hcons : Frugal settings g s'.events := by
      rw [hevents]
      exact h.cons (by simp) (fun _ => rfl) rfl
    cases e with
    -- Somebody else was faster: the bucket is there, but not by this call.
    | bucketExists _ => exact hcons.ready
    | _ => exact hcons

theorem check_after (h : Frugal settings g s.events) (hready : g.ready = false) :
    let r := g.check (Watched.store faults store) s
    Frugal settings (g.after r.1) r.2.events := by
  rw [Guard.check_eq]
  obtain ⟨⟨result, s'⟩, hcall⟩ :
    ∃ x, (Watched.store faults store).bucketExists g.bucket s = x := ⟨_, rfl⟩
  have hcons : Frugal settings g s'.events := by
    rw [Watched.events_of_call hcall]
    exact h.cons (by simp) (fun _ => rfl) rfl
  rw [hcall]
  match result with
  | .error e => exact hcons
  | .ok true => exact hcons.ready
  | .ok false => exact hcons.create_after hready

/-- Making sure of the bucket, whatever its calls come to. -/
theorem ensure (h : Frugal settings g s.events) :
    let r := g.ensure (Watched.store faults store) s
    Frugal settings r.1.2 r.2.events := by
  cases hready : g.ready with
  | true =>
    rw [Guard.ensure_ready hready]
    exact h
  | false =>
    rw [Guard.ensure_not_ready hready]
    exact h.check_after hready

end Frugal

/-! ## Runs -/

namespace Bundler

variable {settings : Settings} {store : ObjectStore (StateM σ)} {v : Visit} {faults : Faults}

theorem callsKeep_frugal (faults : Faults) (store : ObjectStore (StateM σ)) (v : Visit) :
    (visited (Watched.store faults store) settings v).CallsKeep
      fun g s => Frugal settings g s.events where
  documents _ _ _ h := h
  download g bucket key s h := by
    obtain ⟨⟨result, s'⟩, hcall⟩ :
      ∃ x, (Watched.store faults store).download bucket key s = x := ⟨_, rfl⟩
    have hcons : Frugal settings g s'.events := by
      rw [Watched.events_of_call hcall]
      exact h.cons (by simp) (by simp) rfl
    exact hcall ▸ hcons
  ensure := ensureDefault_maintains fun _ _ h => h.ensure

theorem callsKeep_objects {objects : σ → O} (h : store.KeepsObjects objects) (faults : Faults)
    (v : Visit) (o : O) :
    (visited (Watched.store faults store) settings v).CallsKeep
      fun _ s => objects s.inner = o where
  documents _ _ _ h := h
  download g bucket key s hs :=
    (Watched.objects_call (h.download bucket key) faults _ s).trans hs
  ensure := by
    refine ensureDefault_maintains fun g => Guard.ensure_keeps ?_ ?_
    · exact fun s hs => (Watched.objects_call (h.bucketExists g.bucket) faults _ s).trans hs
    · exact fun s hs => (Watched.objects_call (h.createBucket g.bucket) faults _ s).trans hs

/-- Whatever the calls keep, every operation keeps. -/
theorem handle_maintains {b : Bundler (StateM σ)} {I : Guard → σ → Prop} (h : b.CallsKeep I)
    (r : Request) : Operation.Maintains I (b.handle r) := by
  cases r with
  | loadDocument id => exact h.loadDocument id
  | mergedSource id => exact .bind (h.loadDocument id) h.merge
  | referenceSection id => exact .bind (h.preview id) fun _ => .pure _
  | preview id => exact h.preview id
  | buildPackage id => exact h.buildPackage id
  | resolveFile id requested => exact .bind (h.resolveById id requested) fun _ => .pure _
  | fetchFile id requested => exact h.fetchFile id requested

/-- What the calls of every visit keep, a run keeps. By induction on the visits. -/
theorem serve_maintains {I : Guard → σ → Prop}
    (h : ∀ v, (visited store settings v).CallsKeep I) (visits : List Visit) {g : Guard} {s : σ}
    (hs : I g s) : I (serve store settings visits g s).1 (serve store settings visits g s).2 := by
  induction visits generalizing g s with
  | nil => exact hs
  | cons v visits ih => exact ih (handle_maintains (h v) v.request g s hs)

/-- A run on a store that is watched, from a guard that knows nothing. -/
def watch (faults : Faults) (store : ObjectStore (StateM σ)) (settings : Settings)
    (visits : List Visit) (s : σ) : Watched σ :=
  (serve (Watched.store faults store) settings visits { bucket := settings.defaultBucket }
    { inner := s }).2

/-- Whatever is requested, of whatever documents, and whichever calls of the store fail: nothing is
ever uploaded, the objects of the store stay as they are, no bucket but the default one is to be
created, and at most one such call succeeds. -/
theorem watch_frugal (faults : Faults) (store : ObjectStore (StateM σ)) (settings : Settings)
    (visits : List Visit) (s : σ) :
    let run := watch faults store settings visits s
    (∀ e ∈ run.events, e.call.kind ≠ .upload) ∧
    (∀ {O : Type} (objects : σ → O), store.KeepsObjects objects →
      objects run.inner = objects s) ∧
    (∀ e ∈ run.events, e.call.kind = .createBucket → e.call.bucket = settings.defaultBucket) ∧
    run.events.countP Event.creates ≤ 1 := by
  intro run
  have hstart : Frugal settings { bucket := settings.defaultBucket } ([] : List Event) :=
    ⟨rfl, by simp, by simp, by simp⟩
  have hrun := serve_maintains (callsKeep_frugal faults store) visits
    (s := { inner := s }) hstart
  refine ⟨hrun.uploads, fun objects hobjects => ?_, hrun.buckets, Nat.le_trans hrun.created ?_⟩
  · exact serve_maintains (fun v => callsKeep_objects hobjects faults v (objects s)) visits
      (s := { inner := s }) rfl
  · split <;> decide

/-- A source is asked for three times. First the default bucket cannot be created, then it is, and
after that it is known. In all of this, its entry is not there. In a directory, no file is changed by
that, either. -/
theorem watch_frugal_of_faults :
    let m : Manifest := { basePrefix := "p", entryPath := "main.tex" }
    let visit : Visit := ⟨fun _ => .ok (some { id := "d", manifest := some m }), .mergedSource "d"⟩
    let faults : Faults := fun events _ =>
      if events.length = 1 then some (.backend "offline") else none
    let s : Memory := { buckets := ["b"], objects := [(("b", "k"), [1])] }
    let run := watch faults Memory.store {} [visit, visit, visit] s
    let t : Tree := { nodes := [(["f".toList], .file [1])] }
    let run' := watch faults ((DirectoryStore.mk "r").store Tree.fileSystem) {} [visit, visit] t
    run.events.map (fun e => (e.call.kind, e.succeeded)) =
        [(.download, false), (.download, false), (.createBucket, true), (.bucketExists, true),
          (.createBucket, false), (.bucketExists, true)] ∧
      (∀ e ∈ run.events, e.call.kind ≠ .upload) ∧ run.inner.objects = s.objects ∧
      run.events.countP Event.creates ≤ 1 ∧ run'.inner.file? = t.file? := by
  intro m visit faults s run t run'
  obtain ⟨huploads, hobjects, -, hcreated⟩ :=
    watch_frugal faults Memory.store {} [visit, visit, visit] s
  obtain ⟨-, hfiles, -, -⟩ :=
    watch_frugal faults ((DirectoryStore.mk "r").store Tree.fileSystem) {} [visit, visit] t
  exact ⟨by decide +kernel, huploads, hobjects Memory.objects Memory.store_keepsObjects, hcreated,
    hfiles Tree.file? (DirectoryStore.mk "r").store_keepsObjects⟩

end Bundler

end TexBundle

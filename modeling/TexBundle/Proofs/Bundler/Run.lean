import TexBundle.Bundler
import TexBundle.Proofs.Collection

/-!
# Running operations

Operations on a store that is a state, step by step.

* `Operation.exec`: an operation, run from a guard and a state;
* `Operation.exec_bind_eq_ok`: what comes of a sequence that succeeds came of its parts;
* `Bundler.exec_merge_bundle`: a merged source is the expansion of the entry over the stored texts.
-/

namespace TexBundle

variable {σ α β : Type}

/-- Runs an operation: its result, the guard, and the state of the store. -/
def Operation.exec (op : Operation (StateM σ) α) (g : Guard) (s : σ) :
    (Except BundleError α × Guard) × σ :=
  op.run g s

namespace Operation

variable {op : Operation (StateM σ) α} {next : α → Operation (StateM σ) β} {g g' : Guard} {s s' : σ}

@[simp] theorem exec_give (result : Except BundleError α) (g : Guard) (s : σ) :
    exec (Bundler.give result : Operation (StateM σ) α) g s = ((result, g), s) :=
  rfl

@[simp] theorem exec_call (act : StateM σ α) (g : Guard) (s : σ) :
    exec (Bundler.call act) g s = ((.ok (act s).1, g), (act s).2) :=
  rfl

theorem exec_bind (op : Operation (StateM σ) α) (next : α → Operation (StateM σ) β) (g : Guard)
    (s : σ) :
    exec (op >>= next) g s =
      match exec op g s with
      | ((.ok a, g'), s') => exec (next a) g' s'
      | ((.error e, g'), s') => ((.error e, g'), s') := by
  show (ExceptT.bindCont next (exec op g s).1.1).run (exec op g s).1.2 (exec op g s).2 = _
  obtain ⟨⟨r, g'⟩, s'⟩ := exec op g s
  cases r <;> rfl

theorem exec_bind_ok {a : α} (h : exec op g s = ((.ok a, g'), s')) :
    exec (op >>= next) g s = exec (next a) g' s' := by
  rw [exec_bind, h]

theorem exec_bind_error {e : BundleError} (h : exec op g s = ((.error e, g'), s')) :
    exec (op >>= next) g s = ((.error e, g'), s') := by
  rw [exec_bind, h]

theorem exec_bind_eq_ok {b : β} (h : exec (op >>= next) g s = ((.ok b, g'), s')) :
    ∃ a g₁ s₁, exec op g s = ((.ok a, g₁), s₁) ∧ exec (next a) g₁ s₁ = ((.ok b, g'), s') := by
  obtain ⟨⟨⟨r, g₁⟩, s₁⟩, hop⟩ : ∃ x, exec op g s = x := ⟨_, rfl⟩
  cases r with
  | ok a => exact ⟨a, g₁, s₁, hop, (exec_bind_ok hop).symm.trans h⟩
  | error e => cases (exec_bind_error hop).symm.trans h

/-- A call that only reads gives what is in view, and leaves the view and the guard as they are. -/
theorem exec_call_reads {read : σ → View} {act : StateM σ α} {post : View → α → Prop}
    (hact : Reads read act post) {a : α}
    (h : exec (Bundler.call act) g s = ((.ok a, g'), s')) :
    post (read s') a ∧ g' = g ∧ read s' = read s := by
  simp only [exec_call, Prod.mk.injEq, Except.ok.injEq] at h
  obtain ⟨⟨rfl, rfl⟩, rfl⟩ := h
  obtain ⟨hpost, hs⟩ := hact s
  exact ⟨hs ▸ hpost, rfl, hs⟩

theorem exec_give_eq_ok {result : Except BundleError α} {a : α}
    (h : exec (Bundler.give result : Operation (StateM σ) α) g s = ((.ok a, g'), s')) :
    result = .ok a ∧ g' = g ∧ s' = s := by
  simp only [exec_give, Prod.mk.injEq] at h
  exact ⟨h.1.1, h.1.2.symm, h.2.symm⟩

end Operation

/-- A document with a manifest is a bundle, and its manifest is valid. -/
theorem Document.origin_cases {d : Document} {o : Origin} (h : d.origin = .ok o) :
    (∃ m, d.manifest = some m ∧ m.validate = .ok () ∧ o = .bundle m) ∨
      d.manifest = none ∧ ∃ latex, o = .inline latex := by
  cases hm : d.manifest with
  | some m =>
    simp only [origin, hm] at h
    cases hv : m.validate with
    | ok _ =>
      rw [hv] at h
      exact .inl ⟨m, rfl, hv, (Except.ok.inj h).symm⟩
    | error e =>
      rw [hv] at h
      cases h
  | none =>
    simp only [origin, hm] at h
    cases hl : d.metadata.latex with
    | some latex =>
      rw [hl] at h
      exact .inr ⟨rfl, latex, (Except.ok.inj h).symm⟩
    | none =>
      rw [hl] at h
      cases h

namespace Bundler

open Operation

variable {b : Bundler (StateM σ)} {read : σ → View} {document : Document} {g g' : Guard} {s s' : σ}
  {bucket text : Text}

/-- The bucket that the files of a document are read from, made sure of. -/
def bucketOf {m : Type → Type} [Monad m] (b : Bundler m) (document : Document) :
    Operation m Text := do
  match ← give document.origin with
  | .inline _ => b.bucketForInline
  | .bundle manifest => b.bucketFor manifest

theorem eq_bucketOr_of_exec {m : Manifest}
    (h : exec (b.bucketFor m) g s = ((.ok bucket, g'), s')) :
    bucket = m.bucketOr b.settings.defaultBucket := by
  simp only [bucketFor] at h
  split at h
  · obtain ⟨_, _, _, -, h⟩ := exec_bind_eq_ok h
    cases h
    rfl
  · cases h
    rfl

/-- The texts that the directives of a bundle may refer to, as far as they can be read. -/
def sourcesOf (view : View) (m : Manifest) (bucket : Text) : Sources :=
  (m.texFiles.filterMap (Collection.textOf? view m bucket)).reverse

/-- The source of a bundle is the expansion of its entry over the texts of its other files. -/
theorem exec_merge_bundle (hstore : b.store.Readable read) {m : Manifest}
    (hm : document.manifest = some m) (h : exec (b.merge document) g s = ((.ok text, g'), s')) :
    let bucket := m.bucketOr b.settings.defaultBucket
    m.validate = .ok () ∧ ∃ entry,
      read s' bucket (m.storageKey m.entryPath) = .ok entry ∧
      text = (Expansion.ofRoot (sourcesOf (read s') m bucket) b.settings.limits m.entryPath
        (Utf8.decodeLossy entry)).text := by
  intro bucket
  obtain ⟨o, g₁, s₁, hgive, h⟩ := exec_bind_eq_ok h
  obtain ⟨ho, rfl, rfl⟩ := exec_give_eq_ok hgive
  obtain ⟨m', hm', hv, rfl⟩ | ⟨hm', -⟩ := Document.origin_cases ho
  · obtain rfl := Option.some.inj (hm.symm.trans hm')
    refine ⟨hv, ?_⟩
    obtain ⟨bucket', g₂, s₂, hbucket, h⟩ := exec_bind_eq_ok h
    obtain rfl : bucket' = bucket := eq_bucketOr_of_exec hbucket
    obtain ⟨result, g₃, s₃, hdown, h⟩ := exec_bind_eq_ok h
    obtain ⟨hentry, -, -⟩ := exec_call_reads (hstore bucket (m.storageKey m.entryPath)) hdown
    cases result with
    | error e => cases h
    | ok entry =>
      obtain ⟨sources, g₄, s₄, hload, h⟩ := exec_bind_eq_ok h
      obtain ⟨texts, g₅, s₅, hcall, hload⟩ := exec_bind_eq_ok hload
      obtain ⟨htexts, -, hs₅⟩ := exec_call_reads
        (Collection.loadTexts_reads hstore m bucket m.texFiles) hcall
      cases hload
      cases h
      exact ⟨entry, hs₅ ▸ hentry.symm, by rw [htexts, sourcesOf]⟩
  · rw [hm] at hm'
    cases hm'

end Bundler

end TexBundle

import TexBundle.Collection
import TexBundle.Proofs.Asset
import TexBundle.Proofs.Source.Figure
import TexBundle.Proofs.Storage.Agreement
import TexBundle.Storage.Memory
import TexBundle.Storage.Traced

/-!
# What the figures of a document depend on

Figures are looked up only under keys of their document. So nothing else in a store has an effect on
what they come to. Documents whose ids clash have such keys in common, and with them figures.

* `Collection.validateAssets_alike`: stores that agree on a document's own figures give it the same
  result, and only these figures are downloaded;
* `Collection.share_iff`: which documents can be packaged with the same object.
-/

namespace TexBundle.Collection

open Asset (IsObject Clash)

variable {σ τ : Type} {R : σ → τ → Prop} {store : ObjectStore (StateM σ)}
  {store' : ObjectStore (StateM τ)} {bucket document key : Text}

/-! ## Two stores -/

theorem fetch_agree {object : Text}
    (h : Agree R (store.download bucket object) (store'.download bucket object)) (label : Text) :
    Agree R (fetch store bucket object label) (fetch store' bucket object label) := by
  refine h.bind fun result => ?_
  match result with
  | .ok [] => exact .pure _
  | .ok (_ :: _) => exact .pure _
  | .error _ => exact .pure _

theorem collectAsset_agree (h : store.Alike R store' bucket (IsObject document)) (key : Text) :
    Agree R (collectAsset store bucket document key) (collectAsset store' bucket document key) := by
  rw [collectAsset, collectAsset]
  cases ho : Asset.isOwnedBy key document with
  | false => exact .pure _
  | true =>
    cases hw : Asset.isWellFormed key with
    | false => exact .pure _
    | true =>
      refine .bind (fetch_agree (h _ (Asset.isObject_path ho hw)) key) fun result => ?_
      cases result <;> exact .pure _

theorem collectKeys_agree (h : store.Alike R store' bucket (IsObject document)) (keys : List Text) :
    Agree R (collectKeys store bucket document keys) (collectKeys store' bucket document keys) := by
  induction keys with
  | nil => exact .pure _
  | cons key keys ih =>
    exact .bind (collectAsset_agree h key) fun outcome => .bind ih fun rest => .pure _

theorem validateAssets_agree (h : store.Alike R store' bucket (IsObject document))
    (source : Text) :
    Agree R (validateAssets store source document bucket)
      (validateAssets store' source document bucket) :=
  .bind (collectKeys_agree h (Source.figureKeys source)) fun _ => .pure _

/-! ## Calls -/

/-- The log has only calls of some kind behind those that it started with. -/
def LoggedSince (calls : List Call) (allowed : Call → Prop) (t : Traced σ) : Prop :=
  ∃ log, t.calls = log ++ calls ∧ ∀ c ∈ log, allowed c

/-- A download is logged, whether a fault hits it or not. -/
theorem calls_download (store : ObjectStore (StateM σ)) (bucket object : Text) (t : Traced σ) :
    ((Traced.store store).download bucket object t).2.calls =
      ⟨.download, bucket, some object⟩ :: t.calls := by
  simp only [Traced.store, Traced.call]
  split <;> rfl

/-- Only the own figures of a document are downloaded. -/
theorem validateAssets_calls (store : ObjectStore (StateM σ)) (source document bucket : Text)
    (t : Traced σ) :
    LoggedSince t.calls (fun c => ∃ object, IsObject document object ∧
        c = ⟨.download, bucket, some object⟩)
      (validateAssets (Traced.store store) source document bucket t).2 := by
  -- A run beside itself: what is kept is a property of one state.
  let R (u v : Traced σ) : Prop := u = v ∧ LoggedSince t.calls (fun c => ∃ object,
    IsObject document object ∧ c = ⟨.download, bucket, some object⟩) u
  have halike : (Traced.store store).Alike R (Traced.store store) bucket (IsObject document) := by
    rintro object ho u _ ⟨rfl, log, hlog, hallowed⟩
    refine ⟨rfl, rfl, ⟨.download, bucket, some object⟩ :: log, ?_, fun c hc => ?_⟩
    · rw [calls_download, hlog, List.cons_append]
    · rcases List.mem_cons.1 hc with rfl | hc
      · exact ⟨object, ho, rfl⟩
      · exact hallowed c hc
  exact (validateAssets_agree halike source t t ⟨rfl, [], rfl, by simp⟩).2.2

/-- Stores that cannot be told apart by the own figures of a document give it the same result, and
no other object is ever downloaded. -/
theorem validateAssets_alike (h : store.Alike R store' bucket (IsObject document)) (source : Text)
    {s : σ} {t : τ} (hst : R s t) :
    (validateAssets store source document bucket s).1 =
        (validateAssets store' source document bucket t).1 ∧
      ∀ traced : Traced σ, LoggedSince traced.calls (fun c => ∃ object,
          IsObject document object ∧ c = ⟨.download, bucket, some object⟩)
        (validateAssets (Traced.store store) source document bucket traced).2 :=
  ⟨(validateAssets_agree h source s t hst).1, validateAssets_calls store source document bucket⟩

/-- Two stores in memory, which differ in a figure of another document that the text refers to and
in another bucket. -/
theorem validateAssets_alike_of_foreign :
    let s : Memory := { objects := [
      (("b", "assets/d__x"), [1]), (("b", "assets/e__y"), [2]), (("c", "assets/d__x"), [3])] }
    let t : Memory := { objects := [(("b", "assets/d__x"), [1])] }
    let R (s t : Memory) : Prop :=
      ∀ object, IsObject "d" object → s.download "b" object = t.download "b" object
    let source : Text := "\\includegraphics\x7bassets/d__x\x7d\\includegraphics\x7bassets/e__y\x7d"
    Memory.store.Alike R Memory.store "b" (IsObject "d") ∧ R s t ∧
      (validateAssets Memory.store source "d" "b" s).1 =
        (validateAssets Memory.store source "d" "b" t).1 := by
  intro s t R source
  have halike : Memory.store.Alike R Memory.store "b" (IsObject "d") :=
    fun object ho u v huv => ⟨huv object ho, huv⟩
  have hst : R s t := by
    rintro object ⟨suffix, -, -, rfl⟩
    have hget (object : Text) (h : object ≠ "assets/e__y") :
        s.get? "b" object = t.get? "b" object := by
      have hy : (("b".toList, object) == (("b", "assets/e__y") : Text × Text)) = false := by
        simpa using h
      have hc : (("b".toList, object) == (("c", "assets/d__x") : Text × Text)) = false := rfl
      simp only [Memory.get?, s, t, List.lookup_cons, hy, hc, List.lookup_nil]
    rw [Memory.download, Memory.download, hget]
    intro e
    replace e : Source.figurePrefix ++ _ = Source.figurePrefix ++ "e__y".toList := e
    exact absurd (List.cons.inj (List.append_cancel_left e)).1 (by decide)
  exact ⟨halike, hst, (validateAssets_alike halike source hst).1⟩

/-! ## Two documents -/

/-- What is packed of an asset is an own figure of the document, under the path that it has in the
store. -/
theorem path_of_collectAsset {s : σ} {f : PackagedFile}
    (h : (collectAsset store bucket document key s).1 = .ok f) :
    Asset.isOwnedBy key document = true ∧ Asset.isWellFormed key = true ∧
      f.path = Asset.path key := by
  rw [collectAsset] at h
  cases ho : Asset.isOwnedBy key document with
  | false =>
    rw [ho] at h
    cases h
  | true =>
    cases hw : Asset.isWellFormed key with
    | false =>
      rw [ho, hw] at h
      cases h
    | true =>
      rw [ho, hw] at h
      refine ⟨rfl, rfl, ?_⟩
      obtain ⟨⟨result, s'⟩, hfetch⟩ : ∃ r, fetch store bucket (Asset.path key) key s = r := ⟨_, rfl⟩
      simp only [Bool.not_true, Bool.false_eq_true, if_false, bind, StateT.bind, hfetch] at h
      cases result with
      | error d => cases h
      | ok bytes =>
        cases h
        rfl

theorem exists_collectAsset_of_mem {keys : List Text} {s : σ} {o : Outcome}
    (h : o ∈ (collectKeys store bucket document keys s).1) :
    ∃ key ∈ keys, ∃ s', (collectAsset store bucket document key s').1 = o := by
  induction keys generalizing s with
  | nil => cases h
  | cons key keys ih =>
    rcases List.mem_cons.1 h with rfl | h
    · exact ⟨key, List.mem_cons_self, s, rfl⟩
    · obtain ⟨key', hmem, s', ho⟩ := ih h
      exact ⟨key', List.mem_cons_of_mem _ hmem, s', ho⟩

theorem ok_mem_of_mem_files {outcomes : List Outcome} {f : PackagedFile}
    (h : f ∈ files outcomes) : .ok f ∈ outcomes := by
  obtain ⟨o, ho, hf⟩ := List.mem_filterMap.1 h
  cases o with
  | error d => cases hf
  | ok f' =>
    obtain rfl := Option.some.inj hf
    exact ho

theorem settle_eq_ok {outcomes : List Outcome} {fs : List PackagedFile}
    (h : settle outcomes = .ok fs) : files outcomes = fs := by
  rw [settle] at h
  split at h
  · exact Except.ok.inj h
  · cases h

/-- What is packed are own figures of the document that the text refers to. -/
theorem exists_key_of_validateAssets {source : Text} {s : σ} {fs : List PackagedFile}
    (h : (validateAssets store source document bucket s).1 = .ok fs) {f : PackagedFile}
    (hf : f ∈ fs) :
    ∃ key ∈ Source.figureKeys source, Asset.isOwnedBy key document = true ∧
      Asset.isWellFormed key = true ∧ f.path = Asset.path key := by
  rw [← settle_eq_ok h] at hf
  obtain ⟨key, hkey, s', ho⟩ := exists_collectAsset_of_mem (ok_mem_of_mem_files hf)
  exact ⟨key, hkey, path_of_collectAsset ho⟩

/-- A text that refers to one own figure of a document, which is stored. -/
theorem validateAssets_plain {s : Memory} {bytes : Bytes}
    (hchars : ∀ c ∈ key, Source.isKeyChar c = true)
    (ho : Asset.isOwnedBy key document = true) (hw : Asset.isWellFormed key = true)
    (hs : s.get? bucket (Asset.path key) = some bytes) (hne : bytes ≠ []) :
    (validateAssets Memory.store (Source.Figure.plain key) document bucket s).1 =
      .ok [⟨Asset.path key, bytes⟩] := by
  obtain ⟨hkey, hslash⟩ := Asset.isWellFormed_iff.1 hw
  have hkeys : Source.figureKeys (Source.Figure.plain key) = [key] :=
    Source.figureKeys_plain hkey hchars fun hm => by simpa [Path.isSlash] using hslash _ hm
  have hdownload : Memory.store.download bucket (Asset.path key) s = (.ok bytes, s) := by
    show (s.download bucket (Asset.path key), s) = _
    rw [Memory.download, hs]
    rfl
  have hfetch : fetch Memory.store bucket (Asset.path key) key s = (.ok bytes, s) := by
    obtain ⟨b, bytes, rfl⟩ := List.exists_cons_of_ne_nil hne
    simp only [fetch, bind, StateT.bind, hdownload]
    rfl
  have hasset : collectAsset Memory.store bucket document key s =
      (.ok ⟨Asset.path key, bytes⟩, s) := by
    rw [collectAsset, ho, hw]
    simp only [Bool.not_true, Bool.false_eq_true, if_false, bind, StateT.bind, hfetch]
    rfl
  rw [validateAssets, collectAssets, hkeys]
  simp only [collectKeys, bind, StateT.bind, hasset]
  rfl

/-- There are texts and a store for which two documents are both packaged with the same object. -/
def Share (d e : Text) : Prop :=
  ∃ (σ : Type) (store : ObjectStore (StateM σ)) (bucket source source' : Text) (s s' : σ)
    (fs fs' : List PackagedFile),
    (validateAssets store source d bucket s).1 = .ok fs ∧
    (validateAssets store source' e bucket s').1 = .ok fs' ∧
    ∃ f ∈ fs, ∃ f' ∈ fs', f.path = f'.path

variable {d e : Text}

theorem Share.symm (h : Share d e) : Share e d := by
  obtain ⟨σ, store, bucket, source, source', s, s', fs, fs', h, h', f, hf, f', hf', hp⟩ := h
  exact ⟨σ, store, bucket, source', source, s', s, fs', fs, h', h, f', hf', f, hf, hp.symm⟩

/-- An object that is packaged for two documents has a key that both own. -/
theorem Share.exists_key (h : Share d e) :
    ∃ key, Asset.isOwnedBy key d = true ∧ Asset.isOwnedBy key e = true ∧
      ∀ c ∈ key, Source.isKeyChar c = true ∧ Path.isSlash c = false := by
  obtain ⟨σ, store, bucket, source, source', s, s', fs, fs', h, h', f, hf, f', hf', hp⟩ := h
  obtain ⟨key, hkey, ho, hw, hpath⟩ := exists_key_of_validateAssets h hf
  obtain ⟨key', -, ho', hw', hpath'⟩ := exists_key_of_validateAssets h' hf'
  have heq : key = key' := by
    rw [hpath, hpath', Asset.path_eq hw, Asset.path_eq hw'] at hp
    exact List.append_cancel_left hp
  exact ⟨key, ho, heq ▸ ho', fun c hc =>
    ⟨(Source.isKeyChar_of_mem_figureKeys hkey).2 c hc, (Asset.isWellFormed_iff.1 hw).2 c hc⟩⟩

/-- If an id continues another and can stand in a key, both documents can be packaged with a figure
of the longer id. -/
theorem share_of_continues (hd : d ≠ []) (h : Asset.Continues d e)
    (hchars : ∀ c ∈ e, Source.isKeyChar c = true ∧ Path.isSlash c = false) : Share d e := by
  let key : Text := e ++ ['_', '_', 'x']
  have he : e ≠ [] := fun hnil => hd (List.prefix_nil.1 (hnil ▸ h.isPrefix))
  have hown : Asset.isOwnedBy key e = true :=
    Asset.isOwnedBy_iff.2 ⟨he, ['x'], List.cons_ne_nil _ _, rfl⟩
  have hkey : ∀ c ∈ key, Source.isKeyChar c = true ∧ Path.isSlash c = false := by
    intro c hc
    rcases List.mem_append.1 hc with hc | hc
    · exact hchars c hc
    · have hsuffix : ['_', '_', 'x'].all (fun c => Source.isKeyChar c && !Path.isSlash c) = true := by
        decide
      simpa using List.all_eq_true.1 hsuffix c hc
  have hw : Asset.isWellFormed key = true :=
    Asset.isWellFormed_iff.2 ⟨by simp [key], fun c hc => (hkey c hc).2⟩
  let s : Memory := { objects := [((['b'], Asset.path key), [1])] }
  have hs : s.get? ['b'] (Asset.path key) = some [1] := by simp [s, Memory.get?]
  have hread {document : Text} (ho : Asset.isOwnedBy key document = true) :=
    validateAssets_plain (fun c hc => (hkey c hc).1) ho hw hs (List.cons_ne_nil _ _)
  exact ⟨Memory, Memory.store, ['b'], _, _, s, s, _, _, hread (h.isOwnedBy hd hown), hread hown,
    _, List.mem_singleton_self _, _, List.mem_singleton_self _, rfl⟩

/-- Two documents own a key together exactly if their ids clash, and they can be packaged with the
same object exactly if, besides, both ids can stand in a key. -/
theorem share_iff (hne : d ≠ e) :
    ((∃ key, Asset.isOwnedBy key d = true ∧ Asset.isOwnedBy key e = true) ↔ Clash d e) ∧
      (Share d e ↔
        Clash d e ∧ ∀ c ∈ d ++ e, Source.isKeyChar c = true ∧ Path.isSlash c = false) := by
  refine ⟨Asset.exists_isOwnedBy_iff hne, ?_⟩
  constructor
  · intro h
    obtain ⟨key, ho, ho', hkey⟩ := h.exists_key
    refine ⟨(Asset.exists_isOwnedBy_iff hne).1 ⟨key, ho, ho'⟩, fun c hc => hkey c ?_⟩
    -- Both ids are prefixes of the key.
    obtain ⟨-, t, -, rfl⟩ := Asset.isOwnedBy_iff.1 ho
    obtain ⟨-, u, -, hu⟩ := Asset.isOwnedBy_iff.1 ho'
    rcases List.mem_append.1 hc with hc | hc
    · exact List.mem_append_left _ hc
    · exact hu ▸ List.mem_append_left _ hc
  · rintro ⟨⟨hd, he, h | h⟩, hchars⟩
    · exact share_of_continues hd h fun c hc => hchars c (List.mem_append_right _ hc)
    · exact (share_of_continues he h fun c hc => hchars c (List.mem_append_left _ hc)).symm

/-- One id continues `a`, and another one only starts with it. -/
theorem share_iff_of_three :
    ("a".toList ≠ "a__b" ∧ Share "a" "a__b") ∧ ("a".toList ≠ "ab" ∧ ¬ Share "a" "ab") := by
  have hab : "a".toList ≠ "a__b" := by decide
  have hac : "a".toList ≠ "ab" := by decide
  have hchars : ("a" ++ "a__b").toList.all
      (fun c => Source.isKeyChar c && !Path.isSlash c) = true := by decide
  have hplain : ∀ c ∈ "a".toList ++ "a__b", Source.isKeyChar c = true ∧ Path.isSlash c = false :=
    fun c hc => by simpa using List.all_eq_true.1 hchars c hc
  exact ⟨⟨hab, (share_iff hab).2.2 ⟨by decide, hplain⟩⟩, hac,
    fun h => absurd ((share_iff hac).2.1 h).1 (by decide)⟩

/-- A figure that two documents own, and that is packaged for either of them. -/
theorem validateAssets_nested_ids :
    let key : Text := "a__b__x"
    let source : Text := "\\includegraphics\x7bassets/a__b__x\x7d"
    let s : Memory := { objects := [(("b", "assets/a__b__x"), [1])] }
    Asset.isOwnedBy key "a" = true ∧ Asset.isOwnedBy key "a__b" = true ∧
      (validateAssets Memory.store source "a" "b" s).1 = .ok [⟨"assets/a__b__x", [1]⟩] ∧
      (validateAssets Memory.store source "a__b" "b" s).1 = .ok [⟨"assets/a__b__x", [1]⟩] := by
  intro key source s
  have hchars : ∀ c ∈ key, Source.isKeyChar c = true := List.all_eq_true.1 (by decide)
  have hw : Asset.isWellFormed key = true := by decide
  have hs : s.get? "b" (Asset.path key) = some [1] := by decide
  have hread {document : Text} (ho : Asset.isOwnedBy key document = true) :=
    validateAssets_plain hchars ho hw hs (List.cons_ne_nil _ _)
  have ha : Asset.isOwnedBy key "a" = true := by decide
  have hab : Asset.isOwnedBy key "a__b" = true := by decide
  exact ⟨ha, hab, hread ha, hread hab⟩

end TexBundle.Collection

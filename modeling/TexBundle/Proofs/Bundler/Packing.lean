import TexBundle.Proofs.Bundler.Run

/-!
# Packing

A package is built from everything that a document needs, or not at all.

* `Document.resourceFiles`, `Document.stored`: the files of its bundle that a document needs;
* `pack_of_nil`, `pack_of_ne_nil`: a package is made exactly if nothing is missing;
* `exists_of_resources`, `exists_of_buildPackage`: the steps that lead to a package;
* `exec_resources`, `exec_buildPackage`: one outcome for each resource file and for each figure;
* `buildPackage_result`: when a package is built, what it holds, and what is reported otherwise.
-/

namespace TexBundle

/-- The files of its bundle that a document needs besides LaTeX sources. -/
def Document.resourceFiles (d : Document) : List ListedFile := d.manifest.elim [] (·.resourceFiles)

/-- A file of its bundle as it is stored. -/
def Document.stored (d : Document) (view : View) (bucket : Text) (f : ListedFile) :
    Except StorageError Bytes :=
  view bucket (d.manifest.elim f.path (·.storageKey f.path))

namespace Bundler

open Operation Collection

/-! ## Making a package of outcomes -/

variable {source : Text} {rs as : List Outcome}

theorem pack_of_nil (hr : defects rs = []) (ha : defects as = []) :
    pack source rs as = .ok
      ⟨source, files rs ++ (files as).filter fun f => f.path ∉ (files rs).map (·.path)⟩ := by
  rw [pack, hr, ha]
  rfl

theorem pack_of_ne_nil (h : defects rs ++ defects as ≠ []) :
    pack source rs as = .error (.incomplete (defects rs ++ defects as)) := by
  rw [pack]
  split
  · rename_i hn
    exact absurd hn h
  · rfl

/-- A package is made if there is no defect, and then it has all files. -/
theorem of_pack {p : Package} (h : pack source rs as = .ok p) :
    defects rs = [] ∧ defects as = [] ∧
      p = ⟨source, files rs ++ (files as).filter fun f => f.path ∉ (files rs).map (·.path)⟩ := by
  by_cases hdefects : defects rs ++ defects as = []
  · obtain ⟨hr, ha⟩ := List.append_eq_nil_iff.1 hdefects
    exact ⟨hr, ha, Except.ok.inj (h.symm.trans (pack_of_nil hr ha))⟩
  · cases (pack_of_ne_nil hdefects).symm.trans h

/-! ## Collecting the outcomes -/

variable {σ : Type} {b : Bundler (StateM σ)} {read : σ → View} {document : Document} {p : Package}
  {id bucket : Text} {g g' g₀ g₁ g₂ : Guard} {s s' s₀ s₁ s₂ : σ}

/-- Resource files are those of a bundle, collected from its bucket, or there are none. -/
theorem exists_of_resources (h : exec (b.resources document) g s = ((.ok (bucket, rs), g'), s')) :
    (∃ m s₁, document.manifest = some m ∧ m.validate = .ok () ∧
      (rs, s') = collectResources b.store m bucket m.resourceFiles s₁) ∨
    document.manifest = none ∧ rs = [] := by
  obtain ⟨o, g₁, s₁, hgive, h⟩ := exec_bind_eq_ok h
  obtain ⟨ho, rfl, rfl⟩ := exec_give_eq_ok hgive
  obtain ⟨m, hm, hvalid, rfl⟩ | ⟨hm, latex, rfl⟩ := Document.origin_cases ho
  · obtain ⟨bucket', g₂, s₂, -, h⟩ := exec_bind_eq_ok h
    obtain ⟨outcomes, g₃, s₃, hcall, h⟩ := exec_bind_eq_ok h
    cases hcall
    cases h
    exact .inl ⟨m, s₂, hm, hvalid, rfl⟩
  · obtain ⟨bucket', g₂, s₂, -, h⟩ := exec_bind_eq_ok h
    cases h
    exact .inr ⟨hm, rfl⟩

/-- The steps that lead to a package. -/
theorem exists_of_buildPackage (h : exec (b.buildPackage id) g s = ((.ok p, g'), s')) :
    ∃ document source bucket rs g₁ s₁ g₂ s₂ s₃,
      exec (b.loadDocument id) g s = ((.ok document, g₁), s₁) ∧
      exec (b.merge document) g₁ s₁ = ((.ok source, g₂), s₂) ∧
      exec (b.resources document) g₂ s₂ = ((.ok (bucket, rs), g'), s₃) ∧
      let (as, s₄) := collectAssets b.store bucket document.id source s₃
      pack source rs as = .ok p ∧ s' = s₄ := by
  obtain ⟨document, g₁, s₁, hd, h⟩ := exec_bind_eq_ok h
  obtain ⟨source, g₂, s₂, hm, h⟩ := exec_bind_eq_ok h
  obtain ⟨⟨bucket, rs⟩, g₃, s₃, hr, h⟩ := exec_bind_eq_ok h
  obtain ⟨as, g₄, s₄, ha, h⟩ := exec_bind_eq_ok h
  obtain ⟨hpack, rfl, rfl⟩ := exec_give_eq_ok h
  cases ha
  exact ⟨document, source, bucket, rs, g₁, s₁, g₂, s₂, s₃, hd, hm, hr, hpack, rfl⟩

theorem exec_resources (hstore : b.store.Readable read)
    (hb : exec (b.bucketOf document) g s = ((.ok bucket, g₂), s₂)) :
    ∃ rs s₃, exec (b.resources document) g s = ((.ok (bucket, rs), g₂), s₃) ∧ read s₃ = read s₂ ∧
      List.Forall₂ (Resource (document.stored (read s₂) bucket)) document.resourceFiles rs := by
  obtain ⟨o, g', s', hgive, hb⟩ := exec_bind_eq_ok hb
  rw [resources, exec_bind_ok hgive]
  obtain ⟨ho, -, -⟩ := exec_give_eq_ok hgive
  obtain ⟨m, hm, -, rfl⟩ | ⟨hm, latex, rfl⟩ := Document.origin_cases ho
  · obtain ⟨hrs, hs⟩ := collectResources_reads hstore m bucket m.resourceFiles s₂
    refine ⟨_, _, (exec_bind_ok hb).trans rfl, hs, ?_⟩
    have hstored : document.stored (read s₂) bucket =
        fun f => read s₂ bucket (m.storageKey f.path) := by
      funext f
      rw [Document.stored, hm]
      rfl
    rw [Document.resourceFiles, hm, hstored]
    exact hrs
  · refine ⟨[], s₂, (exec_bind_ok hb).trans rfl, rfl, ?_⟩
    rw [Document.resourceFiles, hm]
    exact .nil

/-- What is left to do when the source is merged and the resource files have been seen to. -/
theorem exec_buildPackage_eq (hd : exec (b.loadDocument id) g s = ((.ok document, g₀), s₀))
    (hm : exec (b.merge document) g₀ s₀ = ((.ok source, g₁), s₁))
    (hr : exec (b.resources document) g₁ s₁ = ((.ok (bucket, rs), g₂), s₂)) :
    let as := collectKeys b.store bucket document.id (Source.figureKeys source) s₂
    exec (b.buildPackage id) g s = ((pack source rs as.1, g₂), as.2) := by
  rw [buildPackage, exec_bind_ok hd, exec_bind_ok hm, exec_bind_ok hr]
  rfl

/-- If the source can be merged and the bucket is there, building a package comes down to packing
one outcome for each resource file and one for each figure. -/
theorem exec_buildPackage (hstore : b.store.Readable read)
    (hd : exec (b.loadDocument id) g s = ((.ok document, g₀), s₀))
    (hm : exec (b.mergedSource id) g s = ((.ok source, g₁), s₁))
    (hb : exec (b.bucketOf document) g₁ s₁ = ((.ok bucket, g₂), s₂)) :
    ∃ rs as, (exec (b.buildPackage id) g s).1.1 = pack source rs as ∧
      List.Forall₂ (Resource (document.stored (read s₂) bucket)) document.resourceFiles rs ∧
      List.Forall₂ (Figure document.id fun key => read s₂ bucket (Asset.path key))
        (Source.figureKeys source) as := by
  rw [mergedSource, exec_bind_ok hd] at hm
  obtain ⟨rs, s₃, hr, hs₃, hrs⟩ := exec_resources hstore hb
  obtain ⟨has, -⟩ := collectKeys_reads hstore bucket document.id (Source.figureKeys source) s₃
  rw [hs₃] at has
  refine ⟨rs, _, ?_, hrs, has⟩
  rw [exec_buildPackage_eq hd hm hr]

/-! ## Packages -/

theorem map_path_of_forall₂ {α : Type} {path : α → Text} {xs : List α} {fs : List PackagedFile}
    (h : List.Forall₂ (fun x f => f.path = path x) xs fs) : fs.map (·.path) = xs.map path := by
  induction h with
  | nil => rfl
  | cons hx _ ih => rw [List.map_cons, List.map_cons, hx, ih]

theorem map_path_of_holds {α : Type} {path : α → Text} {stored : α → Except StorageError Bytes}
    {xs : List α} {fs : List PackagedFile}
    (h : List.Forall₂ (fun x => PackagedFile.Holds (path x) (stored x)) xs fs) :
    fs.map (·.path) = xs.map path :=
  map_path_of_forall₂ (h.imp fun _ _ hx => hx.path_eq)

/-- What is stored settles the files that hold it. -/
theorem eq_map_of_holds {α : Type} {path : α → Text} {stored : α → Except StorageError Bytes}
    {xs : List α} {fs : List PackagedFile}
    (h : List.Forall₂ (fun x => PackagedFile.Holds (path x) (stored x)) xs fs) :
    fs = xs.map fun x => ⟨path x, (stored x).toOption.getD []⟩ := by
  induction h with
  | nil => rfl
  | cons hx _ ih =>
    obtain ⟨hpath, hbytes⟩ := hx
    rw [List.map_cons, ← ih, ← hpath, hbytes]
    rfl

/-- Files that are chosen by their paths are those of the things with these paths. -/
theorem filter_holds {α : Type} {path : α → Text} {stored : α → Except StorageError Bytes}
    {xs : List α} {fs : List PackagedFile} (p : Text → Bool)
    (h : List.Forall₂ (fun x => PackagedFile.Holds (path x) (stored x)) xs fs) :
    List.Forall₂ (fun x => PackagedFile.Holds (path x) (stored x)) (xs.filter fun x => p (path x))
      (fs.filter fun f => p f.path) :=
  List.rel_filter (fun _ _ hx => by simp [hx.path_eq]) h

/-- A package is built exactly if every resource file and every figure is intact. It holds the
merged source, the resource files, and those figures that are no resource files, each as it is
stored. Otherwise there is one defect for each resource file that is not intact, and then one for
each figure that is not. -/
theorem buildPackage_result (hstore : b.store.Readable read)
    (hd : exec (b.loadDocument id) g s = ((.ok document, g₀), s₀))
    (hm : exec (b.mergedSource id) g s = ((.ok source, g₁), s₁))
    (hb : exec (b.bucketOf document) g₁ s₁ = ((.ok bucket, g₂), s₂)) :
    let result := (exec (b.buildPackage id) g s).1.1
    let needed := document.resourceFiles
    let stored := document.stored (read s₂) bucket
    let keys := Source.figureKeys source
    let figure (key : Text) := read s₂ bucket (Asset.path key)
    ((∃ p, result = .ok p) ↔
      (∀ f ∈ needed, f.Intact (stored f)) ∧
        ∀ key ∈ keys, Asset.Intact document.id key (figure key)) ∧
    (∀ p, result = .ok p → p.mainSource = source ∧ ∃ files figures, p.files = files ++ figures ∧
      List.Forall₂ (fun f => PackagedFile.Holds f.path (stored f)) needed files ∧
      List.Forall₂ (fun key => PackagedFile.Holds (Asset.path key) (figure key))
        (keys.filter fun key => Asset.path key ∉ needed.map (·.path)) figures) ∧
    (∀ e, result = .error e → ∃ ds₁ ds₂, e = .incomplete (ds₁ ++ ds₂) ∧
      List.Forall₂ (fun f => f.Flaw (stored f)) (needed.filter fun f => ¬ f.Intact (stored f)) ds₁ ∧
      List.Forall₂ (fun key => Asset.Flaw document.id key (figure key))
        (keys.filter fun key => ¬ Asset.Intact document.id key (figure key)) ds₂) := by
  intro result needed stored keys figure
  obtain ⟨rs, as, hresult, hrs, has⟩ := exec_buildPackage hstore hd hm hb
  have hr := defects_eq_nil_iff hrs
  have ha := defects_eq_nil_iff has
  by_cases hgood : (∀ f ∈ needed, f.Intact (stored f)) ∧
      ∀ key ∈ keys, Asset.Intact document.id key (figure key)
  · have hok : result = _ := hresult.trans (pack_of_nil (hr.2 hgood.1) (ha.2 hgood.2))
    have hfiles := files_of_judged hrs hgood.1
    have hfigures := files_of_judged has hgood.2
    refine ⟨iff_of_true ⟨_, hok⟩ hgood, fun p hp => ?_, fun e he => ?_⟩
    · obtain rfl := Except.ok.inj (hok.symm.trans hp)
      refine ⟨rfl, _, _, rfl, hfiles, ?_⟩
      rw [map_path_of_holds hfiles]
      exact filter_holds (fun path => path ∉ needed.map (·.path)) hfigures
    · cases hok.symm.trans he
  · have hne : defects rs ++ defects as ≠ [] := fun hnil => by
      rw [List.append_eq_nil_iff, hr, ha] at hnil
      exact hgood hnil
    have herror : result = _ := hresult.trans (pack_of_ne_nil hne)
    refine ⟨iff_of_false (fun ⟨p, hp⟩ => ?_) hgood, fun p hp => ?_, fun e he => ?_⟩
    · cases herror.symm.trans hp
    · cases herror.symm.trans hp
    · obtain rfl := Except.error.inj (herror.symm.trans he)
      exact ⟨_, _, rfl, defects_of_judged hrs, defects_of_judged has⟩

/-- A bundle with two pictures of its own, one of them with its digest, and with two figures. One of
the figures has the path of a picture, and is not packed once more. -/
theorem buildPackage_result_of_intact :
    let m : Manifest :=
      { bucket := "b", basePrefix := "p", entryPath := "m.tex", files := [
        ⟨"a.png", some "4BF5122F344554C53BDE2EBB8CD2B7E3D1600AD631C385A5D7CCE23C7785459A", none⟩,
        ⟨"assets/d__g.png", none, none⟩] }
    let document : Document := { id := "d", manifest := some m }
    let b : Bundler (StateM Memory) := ⟨Memory.store, Shelf.store { documents := [document] }, {}⟩
    let source : Text := "\\includegraphics{assets/d__f.png}\\includegraphics{assets/d__g.png}"
    let s : Memory := { objects := [
      (("b", "p/m.tex"), Utf8.encode source),
      (("b", "p/a.png"), [1]),
      (("b", "p/assets/d__g.png"), [2]),
      (("b", "assets/d__f.png"), [3]),
      (("b", "assets/d__g.png"), [4])] }
    exec (b.loadDocument "d") b.guard s = ((.ok document, b.guard), s) ∧
      exec (b.mergedSource "d") b.guard s = ((.ok source, b.guard), s) ∧
      exec (b.bucketOf document) b.guard s = ((.ok "b", b.guard), s) ∧
      (exec (b.buildPackage "d") b.guard s).1.1 = .ok
        ⟨source, [⟨"a.png", [1]⟩, ⟨"assets/d__g.png", [2]⟩, ⟨"assets/d__f.png", [3]⟩]⟩ := by
  intro m document b source s
  have hd : exec (b.loadDocument "d") b.guard s = ((.ok document, b.guard), s) := rfl
  have hm : exec (b.mergedSource "d") b.guard s = ((.ok source, b.guard), s) := by decide +kernel
  have hb : exec (b.bucketOf document) b.guard s = ((.ok "b", b.guard), s) := by decide +kernel
  -- Merging does not reduce by itself, but here it has nothing to merge with.
  have hkeys : Source.figureKeys source = ["d__f.png", "d__g.png"] := by
    have hnil : Source.figuresBy Source.Figure.readDetokenized? source = [] :=
      List.eq_nil_of_length_eq_zero (by decide +kernel)
    rw [Source.figureKeys, hnil, List.nil_merge]
    decide +kernel
  obtain ⟨hbuilt, hholds, -⟩ := buildPackage_result Memory.store_readable hd hm hb
  rw [hkeys] at hbuilt hholds
  obtain ⟨p, hp⟩ := hbuilt.2 ⟨by decide +kernel, by decide +kernel⟩
  obtain ⟨hsource, files, figures, hfiles, hneeded, hfigures⟩ := hholds p hp
  refine ⟨hd, hm, hb, hp.trans (congrArg Except.ok ?_)⟩
  obtain ⟨mainSource, all⟩ := p
  obtain rfl : mainSource = source := hsource
  obtain rfl : all = files ++ figures := hfiles
  rw [eq_map_of_holds hneeded, eq_map_of_holds hfigures]
  decide +kernel

end Bundler

end TexBundle

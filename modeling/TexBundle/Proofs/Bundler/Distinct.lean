import TexBundle.Proofs.Bundler.Packing
import TexBundle.Proofs.Collection.Isolation
import TexBundle.Proofs.References
import TexBundle.Proofs.Source.Include
import TexBundle.Proofs.Source.PrintedFigures

/-!
# Paths of packages

A package has the resource files of a bundle as often as they are listed. The figures of its source
come once each, and not at all if they are resource files.

* `Collection.Names`: an outcome that is a file has a certain path;
* `Collection.map_path_files`: the paths of files that are all there;
* `Bundler.exists_figures_of_buildPackage`: the paths of a package;
* `Bundler.nodup_buildPackage_iff`: the packages in which no path occurs twice.
-/

namespace TexBundle

/-! ## Sources -/

theorem Expansion.text_ofRoot_of_directives {sources : Sources} {limits : Limits}
    {path source : Text} (h : Source.directives source = .tail source) :
    (ofRoot sources limits path source).text = source := by
  simp only [ofRoot, expand, h, splice]

theorem Source.nodup_figureKeys (source : Text) : (figureKeys source).Nodup := by
  rw [figureKeys]
  refine (firstUses_eraseDups _).pairwise.imp ?_
  rintro a _ hlt rfl
  exact Nat.lt_irrefl _ hlt

/-! ## Paths of outcomes -/

namespace Collection

variable {σ α : Type} {store : ObjectStore (StateM σ)} {m : Manifest} {bucket document : Text}
  {path : α → Text} {as : List α} {outcomes : List Outcome}

/-- If something comes to a file, that file has its path. -/
def Names (path : α → Text) (a : α) (outcome : Outcome) : Prop :=
  ∀ file, outcome = .ok file → file.path = path a

theorem names_collectResource (f : ListedFile) (s : σ) :
    Names (·.path) f (collectResource store m bucket f s).1 := by
  intro file h
  obtain ⟨⟨result, s'⟩, hfetch⟩ :
    ∃ x, fetch store bucket (m.storageKey f.path) f.path s = x := ⟨_, rfl⟩
  simp only [collectResource, bind, StateT.bind, hfetch] at h
  cases result with
  | error d => cases h
  | ok bytes =>
    cases hverify : f.verify bytes with
    | true =>
      simp only [hverify] at h
      cases h
      rfl
    | false =>
      simp only [hverify] at h
      cases h

theorem names_collectResources (fs : List ListedFile) (s : σ) :
    List.Forall₂ (Names (·.path)) fs (collectResources store m bucket fs s).1 := by
  induction fs generalizing s with
  | nil => exact .nil
  | cons f fs ih => exact .cons (names_collectResource f s) (ih _)

theorem names_collectKeys (keys : List Text) (s : σ) :
    List.Forall₂ (Names (Source.figurePrefix ++ ·)) keys
      (collectKeys store bucket document keys s).1 := by
  induction keys generalizing s with
  | nil => exact .nil
  | cons key keys ih =>
    refine .cons (fun file h => ?_) (ih _)
    obtain ⟨-, hkey, hpath⟩ := path_of_collectAsset h
    rw [hpath, Asset.path_eq hkey]

/-- If there are no defects, everything has come to a file. -/
theorem forall₂_files {R : α → Outcome → Prop} (h : List.Forall₂ R as outcomes)
    (hd : defects outcomes = []) :
    List.Forall₂ (fun a file => R a (.ok file)) as (files outcomes) := by
  induction h with
  | nil => exact .nil
  | @cons a outcome as outcomes ha _ ih =>
    cases outcome with
    | error d => cases hd
    | ok file => exact .cons ha (ih hd)

theorem map_path_files (h : List.Forall₂ (Names path) as outcomes) (hd : defects outcomes = []) :
    (files outcomes).map (·.path) = as.map path :=
  Bundler.map_path_of_forall₂ ((forall₂_files h hd).imp fun _ file hfile => hfile file rfl)

/-- The figures of a source, if they are all there, have different paths. -/
theorem nodup_map_path_collectAssets {source : Text} {s : σ}
    (hd : defects (collectAssets store bucket document source s).1 = []) :
    ((files (collectAssets store bucket document source s).1).map (·.path)).Nodup := by
  have hpaths := map_path_files (names_collectKeys (Source.figureKeys source) s) hd
  rw [collectAssets, hpaths]
  exact (Source.nodup_figureKeys source).map (List.append_right_injective _)

end Collection

namespace Bundler

open Operation Collection

variable {σ : Type} {b : Bundler (StateM σ)} {document : Document} {id bucket : Text}
  {rs : List Outcome} {p : Package} {g g' : Guard} {s s' : σ}

theorem names_resources (h : exec (b.resources document) g s = ((.ok (bucket, rs), g'), s')) :
    List.Forall₂ (Names (·.path)) document.resourceFiles rs := by
  rw [Document.resourceFiles]
  obtain ⟨m, s₁, hm, -, hcollect⟩ | ⟨hm, rfl⟩ := exists_of_resources h
  · obtain ⟨rfl, rfl⟩ := Prod.mk.inj hcollect
    rw [hm]
    exact names_collectResources m.resourceFiles s₁
  · rw [hm]
    exact .nil

/-- The paths of a package: those of the resource files as they are listed, and behind them others,
all different. -/
theorem exists_figures_of_buildPackage
    (h : exec (b.buildPackage id) g s = ((.ok p, g'), s')) :
    ∃ document g₁ s₁ figures, exec (b.loadDocument id) g s = ((.ok document, g₁), s₁) ∧
      p.files.map (·.path) = document.resourceFiles.map (·.path) ++ figures ∧ figures.Nodup ∧
        ∀ path ∈ figures, path ∉ document.resourceFiles.map (·.path) := by
  obtain ⟨document, source, bucket, rs, g₁, s₁, g₂, s₂, s₃, hd, -, hr, hpack, -⟩ :=
    exists_of_buildPackage h
  obtain ⟨hrs, has, rfl⟩ := of_pack hpack
  have hlisted := map_path_files (names_resources hr) hrs
  let figures := (files (collectAssets b.store bucket document.id source s₃).1).filter
    fun f => f.path ∉ (files rs).map (·.path)
  refine ⟨document, g₁, s₁, figures.map (·.path), hd, ?_, ?_, ?_⟩
  · exact List.map_append.trans (congrArg (· ++ figures.map (·.path)) hlisted)
  · exact (nodup_map_path_collectAssets has).sublist (List.filter_sublist.map _)
  · intro path hpath
    obtain ⟨file, hfile, rfl⟩ := List.mem_map.1 hpath
    rw [← hlisted]
    exact of_decide_eq_true (List.mem_filter.1 hfile).2

/-- Every path of a package occurs in it as often as the resource files list it, or once if they do
not. So all of them are different exactly if the resource files are. -/
theorem nodup_buildPackage_iff (h : exec (b.buildPackage id) g s = ((.ok p, g'), s')) :
    ∃ document g₁ s₁, exec (b.loadDocument id) g s = ((.ok document, g₁), s₁) ∧
      let packed := p.files.map (·.path)
      let listed := document.resourceFiles.map (·.path)
      (∀ path ∈ packed, packed.count path = max 1 (listed.count path)) ∧
        (packed.Nodup ↔ listed.Nodup) := by
  obtain ⟨document, g₁, s₁, figures, hd, hpaths, hfigures, hothers⟩ :=
    exists_figures_of_buildPackage h
  refine ⟨document, g₁, s₁, hd, ?_⟩
  intro packed listed
  have hpacked : packed = listed ++ figures := hpaths
  refine ⟨fun path hpath => ?_, ?_⟩
  · rw [hpacked, List.count_append]
    by_cases hlisted : path ∈ listed
    · have hnone : figures.count path = 0 :=
        List.count_eq_zero.2 fun hfigure => hothers path hfigure hlisted
      have hsome := List.count_pos_iff.2 hlisted
      omega
    · have hfigure : path ∈ figures := (List.mem_append.1 (hpacked ▸ hpath)).resolve_left hlisted
      have hone := List.count_eq_one_of_mem hfigures hfigure
      have hnone := List.count_eq_zero.2 hlisted
      omega
  · rw [hpacked, List.nodup_append']
    exact ⟨And.left, fun hlisted => ⟨hlisted, hfigures, fun path hlisted hfigure =>
      hothers path hfigure hlisted⟩⟩

/-- A picture of the bundle that the source refers to as a figure, and that is packed once. -/
theorem nodup_buildPackage_iff_of_figure :
    let m : Manifest :=
      { bucket := "b", basePrefix := "p", entryPath := "m.tex",
        files := [⟨"assets/d__f.png", none, none⟩] }
    let document : Document := { id := "d", manifest := some m }
    let b : Bundler (StateM Memory) := ⟨Memory.store, Shelf.store { documents := [document] }, {}⟩
    let s : Memory := { objects := [
      (("b", "p/m.tex"), Utf8.encode (Source.Figure.plain "d__f.png")),
      (("b", "p/assets/d__f.png"), [1]),
      (("b", "assets/d__f.png"), [2])] }
    ∃ p g' s', exec (b.buildPackage "d") b.guard s = ((.ok p, g'), s') ∧
      p.files = [⟨"assets/d__f.png", [1]⟩] ∧ (p.files.map (·.path)).Nodup := by
  intro m document b s
  let source := Source.Figure.plain "d__f.png"
  have hkeys : Source.figureKeys source = ["d__f.png".toList] :=
    Source.figureKeys_plain (by decide) (List.all_eq_true.1 (by decide)) (by decide)
  have hdirectives : Source.directives source = .tail source := by
    have hcut : Segments.cut Source.Directive.read? source =
        (Segments.cut Source.Directive.read? source.tail).prepend ['\\'] := Segments.cut_cons rfl
    have htail : Segments.cut Source.Directive.read? source.tail = .tail source.tail :=
      Segments.cut_eq_tail_of_not_mem Source.Directive.read?_backslash (by decide)
    rw [Source.directives, hcut, htail]
    rfl
  have hd : exec (b.loadDocument "d") b.guard s = ((.ok document, b.guard), s) := rfl
  have hm : exec (b.merge document) b.guard s =
      ((.ok (Expansion.ofRoot [] {} "m.tex" source).text, b.guard), s) := by rfl
  rw [Expansion.text_ofRoot_of_directives hdirectives] at hm
  have hr : exec (b.resources document) b.guard s =
      ((.ok ("b", [.ok ⟨"assets/d__f.png", [1]⟩]), b.guard), s) := by rfl
  have hbuild := exec_buildPackage_eq hd hm hr
  rw [hkeys] at hbuild
  have hp : exec (b.buildPackage "d") b.guard s =
      ((.ok ⟨source, [⟨"assets/d__f.png", [1]⟩]⟩, b.guard), s) := hbuild.trans (by rfl)
  obtain ⟨document', g₁, s₁, hd', -, hnodup⟩ := nodup_buildPackage_iff hp
  cases hd.symm.trans hd'
  exact ⟨_, _, _, hp, rfl, hnodup.2 (by decide)⟩

/-- A valid manifest that lists a picture twice, which is then packed twice. -/
theorem not_nodup_buildPackage :
    let m : Manifest :=
      { bucket := "b", basePrefix := "p", entryPath := "main.tex",
        files := [⟨"a.png", none, none⟩, ⟨"a.png", none, none⟩] }
    let b : Bundler (StateM Memory) :=
      ⟨Memory.store, Shelf.store { documents := [{ id := "d", manifest := some m }] }, {}⟩
    let s : Memory := { objects := [(("b", "p/main.tex"), [0x78]), (("b", "p/a.png"), [0x41])] }
    let p : Package := ⟨"x", [⟨"a.png", [0x41]⟩, ⟨"a.png", [0x41]⟩]⟩
    m.validate = .ok () ∧ exec (b.buildPackage "d") b.guard s = ((.ok p, b.guard), s) ∧
      ¬(p.files.map (·.path)).Nodup := by
  intro m b s p
  have hd : exec (b.loadDocument "d") b.guard s =
      ((.ok { id := "d", manifest := some m }, b.guard), s) := rfl
  have hkeys : Source.figureKeys "x" = [] := Source.figureKeys_of_not_mem (by decide)
  have hm : exec (b.merge { id := "d", manifest := some m }) b.guard s =
      ((.ok (Expansion.ofRoot [] {} "main.tex" "x").text, b.guard), s) := by rfl
  rw [Expansion.text_ofRoot_of_directives (Source.directives_of_not_mem (by decide))] at hm
  have hr : exec (b.resources { id := "d", manifest := some m }) b.guard s =
      ((.ok ("b", [.ok ⟨"a.png", [0x41]⟩, .ok ⟨"a.png", [0x41]⟩]), b.guard), s) := by
    rfl
  have hbuild := exec_buildPackage_eq hd hm hr
  rw [hkeys] at hbuild
  exact ⟨by rfl, hbuild, by decide⟩

end Bundler

end TexBundle

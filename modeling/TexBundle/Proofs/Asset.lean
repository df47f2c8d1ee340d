import TexBundle.Asset

/-!
# Owners of figures

A key is the id of a document, two underscores and a suffix. As an id or a suffix may hold
underscores too, this does not say which document a key belongs to: with `a__b__x`, the document
`a__b` owns the figure `x`, and the document `a` the figure `b__x`.

* `Asset.Clash`: one of two ids continues the other like a key, or by a single underscore;
* `Asset.exists_isOwnedBy_iff`: these are the pairs of documents that own a key together;
* `Asset.IsObject`: where the figures of a document may be stored.
-/

namespace TexBundle.Asset

variable {key d e : Text}

theorem isOwnedBy_iff :
    isOwnedBy key d = true ↔ d ≠ [] ∧ ∃ suffix, suffix ≠ [] ∧ key = d ++ '_' :: '_' :: suffix := by
  have hsuffix (o : Option Text) :
      o.any (!·.isEmpty) = true ↔ ∃ suffix, suffix ≠ [] ∧ o = some suffix := by
    cases o <;> simp
  rw [isOwnedBy, Bool.and_eq_true, hsuffix]
  simp [Text.stripPrefix?_eq_some_iff]

theorem isWellFormed_iff :
    isWellFormed key = true ↔ key ≠ [] ∧ ∀ c ∈ key, Path.isSlash c = false := by
  simp [isWellFormed]

/-! ## Ids that share keys -/

/-- An id continues another by one underscore, or by two and anything. -/
def Continues (d e : Text) : Prop := e = d ++ ['_'] ∨ d ++ ['_', '_'] <+: e

instance (d e : Text) : Decidable (Continues d e) := inferInstanceAs (Decidable (_ ∨ _))

theorem Continues.isPrefix (h : Continues d e) : d <+: e := by
  rcases h with rfl | h
  · exact List.prefix_append d _
  · exact (List.prefix_append d _).trans h

/-- If an id continues another, the other one owns all of its keys. -/
theorem Continues.isOwnedBy (h : Continues d e) (hd : d ≠ []) (he : isOwnedBy key e = true) :
    isOwnedBy key d = true := by
  obtain ⟨-, suffix, -, rfl⟩ := isOwnedBy_iff.1 he
  rcases h with rfl | ⟨v, rfl⟩
  · exact isOwnedBy_iff.2 ⟨hd, '_' :: suffix, List.cons_ne_nil _ _, by simp⟩
  · exact isOwnedBy_iff.2 ⟨hd, v ++ '_' :: '_' :: suffix, by simp, by simp⟩

/-- Of two owners of a key, the longer one continues the shorter one. -/
theorem continues_of_append_eq {v t u : Text} (hv : v ≠ [])
    (h : '_' :: '_' :: t = v ++ '_' :: '_' :: u) : Continues d (d ++ v) := by
  match v, hv with
  | [c], _ =>
    -- The separator behind the longer id starts inside the one behind the shorter id.
    obtain ⟨rfl, -⟩ := List.cons.inj h
    exact .inl rfl
  | c :: c' :: v, _ =>
    obtain ⟨rfl, htail⟩ := List.cons.inj h
    obtain ⟨rfl, -⟩ := List.cons.inj htail
    exact .inr ⟨v, by simp⟩

theorem continues_of_isOwnedBy (hne : d ≠ e) (hd : isOwnedBy key d = true)
    (he : isOwnedBy key e = true) : Continues d e ∨ Continues e d := by
  obtain ⟨-, t, -, rfl⟩ := isOwnedBy_iff.1 hd
  obtain ⟨-, u, -, h⟩ := isOwnedBy_iff.1 he
  rcases List.append_eq_append_iff.1 h with ⟨v, rfl, hv⟩ | ⟨v, rfl, hv⟩
  · exact .inl (continues_of_append_eq (fun e => hne (by simp [e])) hv)
  · exact .inr (continues_of_append_eq (fun e => hne (by simp [e])) hv)

/-- One of two ids, none of which is empty, continues the other. -/
def Clash (d e : Text) : Prop := d ≠ [] ∧ e ≠ [] ∧ (Continues d e ∨ Continues e d)

instance (d e : Text) : Decidable (Clash d e) := inferInstanceAs (Decidable (_ ∧ _))

theorem Clash.symm (h : Clash d e) : Clash e d := ⟨h.2.1, h.1, h.2.2.symm⟩

/-- Two documents own a key together exactly if their ids clash. -/
theorem exists_isOwnedBy_iff (hne : d ≠ e) :
    (∃ key, isOwnedBy key d = true ∧ isOwnedBy key e = true) ↔ Clash d e := by
  have howned {d : Text} (hd : d ≠ []) : isOwnedBy (d ++ ['_', '_', 'x']) d = true :=
    isOwnedBy_iff.2 ⟨hd, ['x'], List.cons_ne_nil _ _, rfl⟩
  constructor
  · rintro ⟨key, hd, he⟩
    exact ⟨(isOwnedBy_iff.1 hd).1, (isOwnedBy_iff.1 he).1, continues_of_isOwnedBy hne hd he⟩
  · rintro ⟨hd, he, h | h⟩
    · exact ⟨_, h.isOwnedBy hd (howned he), howned he⟩
    · exact ⟨_, howned hd, h.isOwnedBy he (howned hd)⟩

/-! ## Stored figures -/

/-- Where a figure of a document may be stored: in the figure directory, under a key that is the
document's own and one segment. -/
def IsObject (document object : Text) : Prop :=
  ∃ suffix, suffix ≠ [] ∧ (∀ c ∈ document ++ '_' :: '_' :: suffix, Path.isSlash c = false) ∧
    object = Source.figurePrefix ++ (document ++ '_' :: '_' :: suffix)

theorem path_eq (h : isWellFormed key = true) : path key = Source.figurePrefix ++ key := by
  obtain ⟨hne, h⟩ := isWellFormed_iff.1 h
  obtain ⟨c, key, rfl⟩ := List.exists_cons_of_ne_nil hne
  have hc : (c == '/') = false := by
    have := h c List.mem_cons_self
    simp only [Path.isSlash, Bool.or_eq_false_iff] at this
    exact this.1
  have hbase : Path.dropEndSlashes Source.figurePrefix = "assets" := by decide
  rw [path, Path.below, hbase, Path.dropSlashes, List.dropWhile_cons_of_neg (by simp [hc])]
  rfl

theorem isObject_path (ho : isOwnedBy key d = true) (hw : isWellFormed key = true) :
    IsObject d (path key) := by
  obtain ⟨-, suffix, hne, rfl⟩ := isOwnedBy_iff.1 ho
  exact ⟨suffix, hne, (isWellFormed_iff.1 hw).2, path_eq hw⟩

end TexBundle.Asset

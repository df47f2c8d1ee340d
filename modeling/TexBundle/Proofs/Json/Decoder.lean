import TexBundle.Json.Decoder
import TexBundle.Proofs.Json.Reading

/-!
# Decoding what has been written

* `Decoder.run_compact`, `Decoder.run_pretty`: decoding a text is decoding the value's reading;
* `Decoder.list_tree`, `Decoder.word_tree`: the basic decoders;
* `Record.decoder_tree`: an object is decoded as a structure if its keys are field names, in order;
* `Record.ofMembers_field`, `Record.member_of_lookup`: and each field is decoded from its member.
-/

namespace TexBundle.Json

open Reading

theorem trees_eq_map (vs : List Json) : trees vs = vs.map tree := by
  induction vs with
  | nil => rw [trees, List.map_nil]
  | cons v vs ih => rw [trees, ih, List.map_cons]

theorem memberTrees_eq_map (ms : List (Text × Json)) :
    memberTrees ms = ms.map fun m => (some m.1, tree m.2) := by
  induction ms with
  | nil => rw [memberTrees, List.map_nil]
  | cons m ms ih => rw [memberTrees, ih, List.map_cons]

/-! ## Values that fit -/

@[simp] theorem fits_null : Fits null := by
  rw [Fits] <;> simp

@[simp] theorem fits_string (s : Text) : Fits (string s) := by
  rw [Fits] <;> simp

@[simp] theorem fits_word (n : UInt64) : Fits (number n.toNat) := by
  rw [Fits]
  exact Nat.le_pred_of_lt n.toNat_lt

@[simp] theorem fits_byte (n : UInt8) : Fits (number n.toNat) := by
  rw [Fits]
  exact (Nat.le_of_lt n.toNat_lt).trans (by decide)

theorem allFit_iff {vs : List Json} : AllFit vs ↔ ∀ v ∈ vs, Fits v := by
  induction vs with
  | nil => simp [AllFit]
  | cons v vs ih => rw [AllFit, ih, List.forall_mem_cons]

theorem membersFit_iff {ms : List (Text × Json)} : MembersFit ms ↔ ∀ m ∈ ms, Fits m.2 := by
  induction ms with
  | nil => simp [MembersFit]
  | cons m ms ih => rw [MembersFit, ih, List.forall_mem_cons]

@[simp] theorem fits_array_iff {vs : List Json} : Fits (array vs) ↔ ∀ v ∈ vs, Fits v := by
  rw [Fits, allFit_iff]

@[simp] theorem fits_object_iff {ms : List (Text × Json)} :
    Fits (object ms) ↔ ∀ m ∈ ms, Fits m.2 := by
  rw [Fits, membersFit_iff]

theorem fits_optionalMember {α : Type} {toJson : α → Json} (h : ∀ a, Fits (toJson a)) (name : Text)
    (o : Option α) : ∀ m ∈ optionalMember name (o.map toJson), Fits m.2 := by
  cases o with
  | none => exact fun m hm => absurd hm List.not_mem_nil
  | some a =>
    intro m hm
    rw [List.mem_singleton.1 hm]
    exact h a

namespace Decoder

variable {α : Type} {d : Decoder α} {v : Json} {a : α} {depth : Nat}

/-! ## Texts -/

theorem run_compact (hfits : Fits v) : d.run v.compact = d maxDepth (tree v) := by
  rw [run, ofText_compact hfits]
  cases h : d maxDepth (tree v) <;> simp only [h, if_true]

theorem run_pretty (hfits : Fits v) : d.run v.pretty = d maxDepth (tree v) := by
  rw [run, ofText_pretty hfits]
  cases h : d maxDepth (tree v) <;> simp only [h, if_true]

/-! ## Basic decoders -/

theorem text_tree (s : Text) (depth : Nat) : text depth (tree (.string s)) = .ok s := by
  rw [tree, text]

theorem below_tree {n bound : Nat} (h : n < bound) (name : Text) (depth : Nat) :
    below bound name depth (tree (.number n)) = .ok n := by
  rw [tree, below, if_pos ⟨Int.natCast_nonneg n, Int.ofNat_lt.2 h⟩, Int.toNat_natCast]

theorem word_tree (name : Text) (n : UInt64) (depth : Nat) :
    word name depth (tree (.number n.toNat)) = .ok n := by
  rw [word, map, below_tree n.toNat_lt, Except.map, UInt64.ofNat_toNat]

theorem byte_tree (n : UInt8) (depth : Nat) : byte depth (tree (.number n.toNat)) = .ok n := by
  rw [byte, map, below_tree n.toNat_lt, Except.map, UInt8.ofNat_toNat]

theorem list_tree {toJson : α → Json} {as : List α}
    (h : ∀ a ∈ as, d depth (tree (toJson a)) = .ok a) :
    d.list (depth + 1) (tree (.array (as.map toJson))) = .ok as := by
  have helements : elements d depth true ((as.map toJson).map tree) = .ok as := by
    induction as with
    | nil => rfl
    | cons a as ih =>
      obtain ⟨ha, has⟩ := List.forall_mem_cons.1 h
      rw [List.map_cons, List.map_cons, elements, ha, ih has]
      rfl
  rw [tree, trees_eq_map]
  exact helements

theorem option_tree (h : d depth (tree v) = .ok a) (hnull : tree v ≠ .null) :
    d.option depth (tree v) = .ok (some a) := by
  rw [option]
  · rw [h]
    rfl
  · exact hnull

end Decoder

namespace Record

variable {α β : Type} {r : Record α} {d : Decoder α} {absent : Absent α} {a : α} {name : Text}
  {ms : List (Text × Json)} {v : Json} {depth : Nat}

/-! ## Members -/

/-- Field names that are distinct are no fault. -/
theorem faultyMember?_eq_none {names : List Text} (hnodup : (ms.map (·.1)).Nodup)
    (hnames : ∀ m ∈ ms, m.1 ∈ names) (i : Nat) (seen : List Text) (hseen : ∀ m ∈ ms, m.1 ∉ seen) :
    faultyMember? names i seen (memberTrees ms) = none := by
  induction ms generalizing i seen with
  | nil => rw [memberTrees, faultyMember?]
  | cons m ms ih =>
    obtain ⟨hm, hms⟩ := List.forall_mem_cons.1 hnames
    obtain ⟨hm', hms'⟩ := List.forall_mem_cons.1 hseen
    rw [List.map_cons, List.nodup_cons] at hnodup
    rw [memberTrees, faultyMember?, if_neg hm', if_pos hm]
    refine ih hnodup.2 hms _ _ fun m' hmem hcons => ?_
    obtain heq | hmem' := List.mem_cons.1 hcons
    · exact hnodup.1 (List.mem_map.2 ⟨m', hmem, heq⟩)
    · exact hms' m' hmem hmem'

theorem checkMembers_eq_ok {names : List Text} (hnodup : names.Nodup)
    (hkeys : (ms.map (·.1)).Sublist names) : checkMembers names (memberTrees ms) none = .ok () := by
  rw [checkMembers, faultyMember?_eq_none (hnodup.sublist hkeys)
    (fun m hm => hkeys.subset (List.mem_map_of_mem hm)) 0 [] (fun _ _ => List.not_mem_nil)]
  rfl

theorem fromMembers_eq_ok (hnodup : r.names.Nodup) (hkeys : (ms.map (·.1)).Sublist r.names)
    (h : r.ofMembers depth (memberTrees ms) = .ok a) :
    r.fromMembers depth (memberTrees ms) none = .ok a := by
  rw [fromMembers, checkMembers_eq_ok hnodup hkeys, h]
  rfl

/-- An object whose keys are field names, in order, is decoded from its members. -/
theorem decoder_tree (title : Text) (hnodup : r.names.Nodup)
    (hkeys : (ms.map (·.1)).Sublist r.names)
    (h : r.ofMembers depth (memberTrees ms) = .ok a) :
    r.decoder title (depth + 1) (tree (.object ms)) = .ok a := by
  rw [tree]
  exact fromMembers_eq_ok hnodup hkeys h

theorem ofMembers_field {r : Record (α → β)} {f : α → β} {ms : List (Option Text × Reading)}
    (hr : r.ofMembers depth ms = .ok f) (ha : member name d absent depth ms = .ok a) :
    (r.field name d absent).ofMembers depth ms = .ok (f a) := by
  show (bothPlaced (r.ofMembers depth ms) (member name d absent depth ms)).map _ = _
  rw [hr, ha]
  rfl

theorem findIdx?_memberTrees (name : Text) (ms : List (Text × Json)) :
    (memberTrees ms).findIdx? (·.1 == some name) = ms.findIdx? (name == ·.1) := by
  rw [memberTrees_eq_map, List.findIdx?_map]
  congr 1
  funext m
  simp [eq_comm]

theorem getElem?_findIdx? (hlookup : ms.lookup name = some v) :
    ∃ i, ms.findIdx? (name == ·.1) = some i ∧ ∃ key, ms[i]? = some (key, v) := by
  induction ms with
  | nil => cases hlookup
  | cons m ms ih =>
    rw [List.lookup_cons] at hlookup
    rw [List.findIdx?_cons]
    cases hm : name == m.1 with
    | true =>
      rw [hm] at hlookup
      exact ⟨0, rfl, m.1, by rw [← Option.some.inj hlookup]; rfl⟩
    | false =>
      rw [hm] at hlookup
      obtain ⟨i, hi, key, hkey⟩ := ih hlookup
      exact ⟨i + 1, by rw [hi]; rfl, key, hkey⟩

theorem member_of_lookup (hlookup : ms.lookup name = some v) (h : d depth (tree v) = .ok a) :
    member name d absent depth (memberTrees ms) = .ok a := by
  obtain ⟨i, hi, key, hkey⟩ := getElem?_findIdx? hlookup
  have hget : (memberTrees ms)[i]? = some (some key, tree v) := by
    rw [memberTrees_eq_map, List.getElem?_map, hkey, Option.map_some]
  simp only [member, findIdx?_memberTrees, hi, hget]
  exact congrArg (Except.mapError _) h

theorem member_of_lookup_eq_none (hlookup : ms.lookup name = none)
    (h : absent.inObject name = .ok a) :
    member name d absent depth (memberTrees ms) = .ok a := by
  have hnone : ms.findIdx? (name == ·.1) = none := by
    rw [List.findIdx?_eq_none_iff]
    exact fun m hm => beq_false_of_ne (bne_iff_ne.1 (List.lookup_eq_none_iff.1 hlookup m hm))
  rw [member, findIdx?_memberTrees, hnone]
  exact congrArg (Except.mapError _) h

/-- A member that is left out if it has no value. -/
theorem member_of_optional (toJson : α → Json) {o : Option α}
    (hlookup : ms.lookup name = o.map toJson)
    (h : ∀ a, d depth (tree (toJson a)) = .ok a)
    (hnull : ∀ a, tree (toJson a) ≠ .null) :
    member name d.option (.always none) depth (memberTrees ms) = .ok o := by
  cases o with
  | none => exact member_of_lookup_eq_none hlookup rfl
  | some a => exact member_of_lookup hlookup (Decoder.option_tree (h a) (hnull a))

end Record

theorem keys_optionalMember_sublist (name : Text) (value : Option Json) :
    ((optionalMember name value).map (·.1)).Sublist [name] := by
  cases value with
  | none => exact List.nil_sublist _
  | some v => exact List.Sublist.refl _

end TexBundle.Json

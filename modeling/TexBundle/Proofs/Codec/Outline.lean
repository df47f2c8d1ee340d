import TexBundle.Codec.Outline
import TexBundle.Proofs.Json.Decoder

/-!
# Decoding the outlines that are written

A node is decoded in two steps: its members are split into the type and the others, which are then
those of a structure. Only the outermost node has its type read from the text, so the induction over
the tree is for any way of reading the types that knows the two names.

* `decodeWith_tree`: what decoding one node takes;
* `decodeWith_toJson`: an outline is decoded if it nests no more than the levels that are left;
* `fits_toJson`: all of its numbers are bytes.
-/

namespace TexBundle.Outline

open Json Json.Record

variable {read : Reading → Except DecodeError Kind} {pass : Reading → Bool}
  {node : Decoder Outline} {kind : Kind} {x : Outline} {ms : List (Text × Json)} {depth : Nat}

theorem childrenJson_eq_map (nodes : List Outline) : childrenJson nodes = nodes.map toJson := by
  induction nodes with
  | nil => rw [childrenJson, List.map_nil]
  | cons node nodes ih => rw [childrenJson, ih, List.map_cons]

/-! ## One node -/

theorem nodup_names (node : Decoder Outline) (kind : Kind) :
    (("type" : Text) :: (recordOf node kind).names).Nodup := by
  cases kind with
  | heading =>
    exact (by decide : (["type", "id", "title", "level", "children"] : List Text).Nodup)
  | paragraph => exact (by decide : (["type", "text"] : List Text).Nodup)

/-- The type is taken out of the members. -/
theorem splitMembers_type {name : Text} (hread : read (.string name) = .ok kind) :
    splitMembers read pass none (memberTrees (("type", .string name) :: ms)) =
      splitMembers read pass (some kind) (memberTrees ms) := by
  rw [memberTrees, tree, splitMembers, if_pos rfl]
  show (do splitMembers read _ (some (← read _)) _) = _
  rw [hread]
  rfl

/-- The other members are kept if all of them pass. -/
theorem splitMembers_eq_ok (hpass : ∀ m ∈ ms, pass (tree m.2) = true)
    (htype : ("type" : Text) ∉ ms.map (·.1)) :
    splitMembers read pass (some kind) (memberTrees ms) = .ok (some kind, memberTrees ms) := by
  induction ms with
  | nil => rw [memberTrees, splitMembers]
  | cons m ms ih =>
    obtain ⟨key, v⟩ := m
    obtain ⟨hv, hms⟩ := List.forall_mem_cons.1 hpass
    rw [List.map_cons, List.mem_cons, not_or] at htype
    rw [memberTrees, splitMembers, if_neg (Ne.symm htype.1), if_pos hv, ih hms htype.2]
    rfl

/-- A node whose members are its type and its fields, in order. -/
theorem decodeWith_tree {name : Text} (hread : read (.string name) = .ok kind)
    (hkeys : ms.map (·.1) = (recordOf node kind).names) (hdepth : depthOfMembers ms ≤ depth)
    (h : (recordOf node kind).ofMembers depth (memberTrees ms) = .ok x) :
    decodeWith read node (depth + 1) (tree (.object (("type", .string name) :: ms))) = .ok x := by
  obtain ⟨htype, hnodup⟩ := List.nodup_cons.1 (nodup_names node kind)
  rw [tree, decodeWith, splitMembers_type hread,
    splitMembers_eq_ok (depthOfMembers_le_iff.1 hdepth) (hkeys ▸ htype)]
  exact fromMembers_eq_ok hnodup (hkeys ▸ List.Sublist.refl _) h

/-- `read` knows the names of both kinds. -/
structure ReadsKinds (read : Reading → Except DecodeError Kind) : Prop where
  heading : read (.string "section") = .ok .heading
  paragraph : read (.string "paragraph") = .ok .paragraph

theorem readsKinds_readKind : ReadsKinds readKind := ⟨by decide, by decide⟩

theorem readsKinds_nestedKind : ReadsKinds nestedKind := ⟨by decide, by decide⟩

/-! ## The whole tree -/

mutual

theorem decodeWith_toJson : ∀ (x : Outline) {read : Reading → Except DecodeError Kind}
    {levels depth : Nat}, ReadsKinds read → x.toJson.depth ≤ depth → depth ≤ levels →
    decodeWith read (nestedDecoder levels) depth (tree x.toJson) = .ok x
  | heading id title level children, read, levels, depth, hread, hdepth, hlevels => by
    rw [toJson] at hdepth ⊢
    simp only [Json.depth, depthOfMembers] at hdepth
    -- the object and the array of its children are two levels, but only one step of the decoder
    obtain ⟨depth, rfl⟩ := Nat.exists_eq_add_of_le' (show 2 ≤ depth by omega)
    obtain ⟨levels, rfl⟩ := Nat.exists_eq_add_of_le' (show 1 ≤ levels by omega)
    have hchildren := nestedDecoder_children children levels depth (by omega) (by omega)
    refine decodeWith_tree hread.heading rfl ?_
      (ofMembers_field (ofMembers_field (ofMembers_field (ofMembers_field rfl ?_) ?_) ?_) ?_)
    · simp only [Json.depth, depthOfMembers]
      omega
    · exact member_of_lookup rfl (Decoder.text_tree id _)
    · exact member_of_lookup rfl (Decoder.text_tree title _)
    · exact member_of_lookup rfl (Decoder.byte_tree level _)
    · refine member_of_lookup rfl ?_
      rw [childrenJson_eq_map]
      exact Decoder.list_tree hchildren
  | paragraph text, read, levels, depth, hread, hdepth, hlevels => by
    rw [toJson] at hdepth ⊢
    simp only [Json.depth, depthOfMembers] at hdepth
    obtain ⟨depth, rfl⟩ := Nat.exists_eq_add_of_le' (show 1 ≤ depth by omega)
    refine decodeWith_tree hread.paragraph rfl ?_ (ofMembers_field rfl ?_)
    · simp [depthOfMembers, Json.depth]
    · exact member_of_lookup rfl (Decoder.text_tree text _)

theorem nestedDecoder_children : ∀ (xs : List Outline) (levels depth : Nat),
    depthOfAll (childrenJson xs) ≤ depth → depth ≤ levels →
    ∀ x ∈ xs, nestedDecoder (levels + 1) depth (tree x.toJson) = .ok x
  | [], _, _, _, _ => fun _ hx => absurd hx List.not_mem_nil
  | x :: xs, levels, depth, hdepth, hlevels => by
    rw [childrenJson, depthOfAll] at hdepth
    exact List.forall_mem_cons.2 ⟨decodeWith_toJson x readsKinds_nestedKind (by omega) hlevels,
      nestedDecoder_children xs levels depth (by omega) hlevels⟩

end

mutual

theorem fits_toJson : ∀ x : Outline, Fits x.toJson
  | heading id title level children => by
    rw [toJson]
    simpa using fits_children children
  | paragraph text => by
    rw [toJson]
    simp

theorem fits_children : ∀ xs : List Outline, ∀ v ∈ childrenJson xs, Fits v
  | [] => fun _ hv => absurd hv List.not_mem_nil
  | x :: xs => List.forall_mem_cons.2 ⟨fits_toJson x, fits_children xs⟩

end

end TexBundle.Outline

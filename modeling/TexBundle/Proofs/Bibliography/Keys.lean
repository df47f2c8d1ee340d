import TexBundle.Proofs.Bibliography.Blocks
import Mathlib.Data.List.Nodup

/-!
# Entries by key

* `nodup_keys`: no two entries of a text have one key;
* `last?_eq_some_iff`, `get?_eq_last?`: so it does not matter whether one looks for the first or for
  the last entry of a key;
* `located_first_of_key`: the entries are the first ones of each key among those that a scan finds.
-/

namespace TexBundle.Bibliography

variable {b : Bibliography} {key : Text} {e : Entry}

/-- The entries of a bibliography that has been read have distinct keys. -/
theorem nodup_keys (t : Text) : ((ofText t).entries.map (·.key)).Nodup := by
  rw [ofText, located_eq_firsts, List.map_map]
  exact nodup_map_firsts _ _

theorem find?_key_eq_some_iff {entries : List Entry} (h : (entries.map (·.key)).Nodup) :
    entries.find? (·.key == key) = some e ↔ e ∈ entries ∧ e.key = key := by
  constructor
  · intro hfind
    exact ⟨List.mem_of_find?_eq_some hfind, by simpa using List.find?_some hfind⟩
  · rintro ⟨he, rfl⟩
    cases hfind : entries.find? (·.key == e.key) with
    | none => simpa using List.find?_eq_none.1 hfind e he
    | some e' =>
      have hkey : e'.key = e.key := by simpa using List.find?_some hfind
      rw [List.inj_on_of_nodup_map h (List.mem_of_find?_eq_some hfind) he hkey]

theorem last?_eq_some_iff (h : (b.entries.map (·.key)).Nodup) :
    b.last? key = some e ↔ e ∈ b.entries ∧ e.key = key := by
  have hreverse : (b.entries.reverse.map (·.key)).Nodup := by
    rw [List.map_reverse]
    exact List.nodup_reverse.2 h
  rw [last?, find?_key_eq_some_iff hreverse, List.mem_reverse]

theorem get?_eq_last? (h : (b.entries.map (·.key)).Nodup) (key : Text) :
    b.get? key = b.last? key :=
  Option.ext fun _ => by rw [get?, find?_key_eq_some_iff h, last?_eq_some_iff h]

/-- The entries that are found for a list of keys are those of the keys that have one. -/
theorem map_key_filterMap_last? (h : (b.entries.map (·.key)).Nodup) (keys : List Text) :
    (keys.filterMap b.last?).map (·.key) = keys.filter (· ∈ b.entries.map (·.key)) := by
  induction keys with
  | nil => rfl
  | cons key keys ih =>
    cases hlast : b.last? key with
    | some e =>
      obtain ⟨he, rfl⟩ := (last?_eq_some_iff h).1 hlast
      rw [List.filterMap_cons_some hlast, List.map_cons, ih,
        List.filter_cons_of_pos (by simpa using ⟨e, he, rfl⟩)]
    | none =>
      have hnone : key ∉ b.entries.map (·.key) := fun hkey => by
        obtain ⟨e, he⟩ := List.mem_map.1 hkey
        rw [(last?_eq_some_iff h).2 he] at hlast
        cases hlast
      rw [List.filterMap_cons_none hlast, ih, List.filter_cons_of_neg (by simpa using hnone)]

/-- The entries of a text are, in order and each as it stands there, the first ones of each key
among those that a scan for blocks finds. Later ones are found as well, but dropped. With distinct
keys, the first and the last entry of a key are the same, and it is the first that was found. -/
theorem located_first_of_key (t : Text) :
    ∃ found, (∀ os, Occurrences Block.read? 0 t os ↔ os = found) ∧
      let holding := found.filterMap holding?
      (located t).Sublist holding ∧
      (∀ e, e ∈ located t ↔ ∃ before after, holding = before ++ e :: after ∧
        ∀ d ∈ before, d.value.key ≠ e.value.key) ∧
      ((ofText t).entries.map (·.key)).Nodup ∧
      ∀ key, (ofText t).get? key = (ofText t).last? key ∧
        (ofText t).get? key = (holding.find? (·.value.key == key)).map (·.value) := by
  refine ⟨(blocks t).locate 0, fun _ => occurrences_blocks_iff, ?_, ?_, nodup_keys t, ?_⟩
  · rw [located_eq_firsts]
    exact firsts_sublist _ _
  · intro e
    rw [located_eq_firsts]
    exact mem_firsts_iff
  · intro key
    refine ⟨get?_eq_last? (nodup_keys t) key, ?_⟩
    rw [get?, ofText, List.find?_map, located_eq_firsts]
    exact congrArg _ (find?_firsts _ key _)

/-- Of three blocks, the last one has the key of the first, and is dropped. -/
example :
    let t : Text := "@misc{a,x={1}}@misc{b,x={2}}@misc{a,x={3}}"
    (((blocks t).locate 0).filterMap holding?).map (·.value.key) = ["a", "b", "a"] ∧
      (ofText t).entries = [⟨"misc", "a", [("x", "1")]⟩, ⟨"misc", "b", [("x", "2")]⟩] := by
  decide +kernel

end TexBundle.Bibliography

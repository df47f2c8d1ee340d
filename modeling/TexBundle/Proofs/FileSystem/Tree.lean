import TexBundle.FileSystem.Tree

/-!
# Files in directory trees

* `Tree.node?_put`: putting a node at a place changes what stands there, and nothing else;
* `Tree.file?_makeDirectory`: making a directory leaves all files as they are.
-/

namespace TexBundle

/-- Without the pairs of one key, all other keys are looked up as before. -/
theorem lookup_filter_ne {α β : Type} [BEq α] [LawfulBEq α] [DecidableEq α] {a k : α} (h : a ≠ k)
    (l : List (α × β)) : (l.filter (·.1 ≠ k)).lookup a = l.lookup a := by
  induction l with
  | nil => rfl
  | cons x l ih =>
    by_cases hx : x.1 = k
    · have ha : (a == x.1) = false := by simpa [hx] using h
      rw [List.filter_cons_of_neg (by simpa using hx), ih, List.lookup_cons, ha]
    · rw [List.filter_cons_of_pos (by simpa using hx), List.lookup_cons, List.lookup_cons, ih]

namespace Tree

variable {t t' : Tree} {place q : List Text} {node : Node} {path : Text}

/-- The file at a place. -/
def file? (t : Tree) (place : List Text) : Option Bytes :=
  match t.node? place with
  | some (.file bytes) => some bytes
  | _ => none

theorem node?_put (hplace : place ≠ []) (t : Tree) (node : Node) (q : List Text) :
    (t.put place node).node? q = if q = place then some node else t.node? q := by
  rw [node?, put, node?]
  by_cases hq : q = place
  · rw [if_neg (hq ▸ hplace), if_pos hq, hq, List.lookup_cons_self]
  · have hne : (q == place) = false := by simpa using hq
    rw [if_neg hq, List.lookup_cons, hne]
    simp only [lookup_filter_ne hq]

/-- Nothing stands below a place if nothing has it in front. -/
theorem node?_append_eq_none (hplace : place ≠ []) (h : ∀ n ∈ t.nodes, ¬ place <+: n.1)
    (q : List Text) : t.node? (place ++ q) = none := by
  rw [node?, if_neg (by simp [hplace]), List.lookup_eq_none_iff]
  intro n hn
  have hne : place ++ q ≠ n.1 := fun e => h n hn (e ▸ List.prefix_append place q)
  simpa using hne

theorem file?_put_directory (hplace : place ≠ []) (hfree : t.node? place = none) :
    (t.put place .directory).file? = t.file? := by
  funext q
  rw [file?, file?, node?_put hplace]
  by_cases hq : q = place
  · rw [if_pos hq, hq, hfree]
  · rw [if_neg hq]

theorem file?_makeDirectory (h : t.makeDirectory path = .ok t') : t'.file? = t.file? := by
  rw [makeDirectory] at h
  cases hloc : t.locate path with
  | error e => rw [hloc] at h; cases h
  | ok location =>
    rw [hloc] at h
    cases location with
    | directory place => cases h
    | entry place name slash =>
      simp only [bind, Except.bind] at h
      split at h
      · cases h
      · split at h
        · cases h
        · rename_i hfree
          obtain rfl := Except.ok.inj h
          exact file?_put_directory (by simp) (by simpa using hfree)

end Tree

end TexBundle

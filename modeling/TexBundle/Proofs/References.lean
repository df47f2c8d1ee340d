import TexBundle.Proofs.Bibliography.Keys
import TexBundle.References
import TexBundle.Source.Citation

/-!
# What a reference section lists

* `FirstUses`, `Source.firstUses_citedKeys`: cited keys come once each, in the order in which they
  are first cited;
* `Reference.chosen_of_ne_nil`: the listed entries are those of the cited keys that have one;
* `Reference.section?_eq_none_iff`: there is no section exactly if there is nothing to list.
-/

namespace TexBundle

/-! ## Items by first use -/

/-- The items of a list, each once, in the order in which they first occur in it. -/
structure FirstUses {α : Type} [BEq α] (items all : List α) : Prop where
  mem_iff : ∀ a, a ∈ items ↔ a ∈ all
  pairwise : items.Pairwise fun a b => all.idxOf a < all.idxOf b

section

open Bibliography (firsts eraseDupsBy_eq_firsts)

variable {α β : Type}

theorem firstUses_firsts [BEq α] [LawfulBEq α] [DecidableEq α] (l : List α) :
    FirstUses (firsts id l) l := by
  induction l with
  | nil => exact ⟨fun _ => Iff.rfl, .nil⟩
  | cons a l ih =>
    have hmem : ∀ b ∈ (firsts id l).filter fun b => id b ≠ id a, b ≠ a := fun b hb => by
      simpa using (List.mem_filter.1 hb).2
    have hidx : ∀ b, b ≠ a → (a :: l).idxOf b = l.idxOf b + 1 := fun b hb =>
      List.idxOf_cons_ne l hb.symm
    refine ⟨fun b => ?_, List.pairwise_cons.2 ⟨fun b hb => ?_, ?_⟩⟩
    · rw [firsts, List.mem_cons, List.mem_cons, List.mem_filter, ih.mem_iff]
      by_cases hb : b = a <;> simp [hb]
    · rw [List.idxOf_cons_self, hidx b (hmem b hb)]
      exact Nat.succ_pos _
    · refine (ih.pairwise.filter _).imp_of_mem fun {b c} hb hc hlt => ?_
      rw [hidx b (hmem b hb), hidx c (hmem c hc)]
      exact Nat.succ_lt_succ hlt

theorem firstUses_eraseDups [BEq α] [LawfulBEq α] [DecidableEq α] (l : List α) :
    FirstUses l.eraseDups l := by
  have hfirsts : l.eraseDups = firsts id l :=
    eraseDupsBy_eq_firsts id (fun _ _ => beq_iff_eq) l
  rw [hfirsts]
  exact firstUses_firsts l

end

namespace Source

/-- The keys that are cited, as often as they are, in the order of the source. -/
def citations (source : Text) : List Text :=
  (uncommented (.cut Citation.read? source)).values.flatMap keysOfList

theorem firstUses_citedKeys (source : Text) : FirstUses (citedKeys source) (citations source) :=
  firstUses_eraseDups _

end Source

/-! ## Sections -/

namespace Reference

variable {settings : Settings} {id : Text} {cited : List Text} {b : Bibliography}

theorem section?_eq_none_iff :
    Reference.section? settings id cited b = none ↔ chosen settings cited b = [] := by
  rw [Reference.section?]
  split <;> simp_all

theorem lines_of_section? {s : ReferenceSection} (h : section? settings id cited b = some s) :
    s.lines = (chosen settings cited b).map (formatEntry settings) := by
  rw [section?] at h
  split at h
  · cases h
  · obtain rfl := Option.some.inj h
    rfl

/-- If something is cited, the entries of the cited keys are listed, in the order of the keys. -/
theorem chosen_of_ne_nil (settings : Settings) (h : (b.entries.map (·.key)).Nodup)
    (hcited : cited ≠ []) :
    (∀ e ∈ chosen settings cited b, e ∈ b.entries) ∧
      (chosen settings cited b).map (·.key) = cited.filter (· ∈ b.entries.map (·.key)) := by
  rw [chosen, if_neg hcited]
  refine ⟨fun e he => ?_, Bibliography.map_key_filterMap_last? h cited⟩
  obtain ⟨key, -, hlast⟩ := List.mem_filterMap.1 he
  exact ((Bibliography.last?_eq_some_iff h).1 hlast).1

theorem chosen_nil :
    chosen settings [] b = b.entries.take settings.referenceFallbackLimit.toNat :=
  rfl

end Reference

end TexBundle

import TexBundle.Storage.Store

/-!
# Two runs side by side

What two actions have in common that run on different stores, or on one store in different states.

* `Agree`: from related states come equal answers, and related states again;
* `ObjectStore.Alike`: two stores cannot be told apart by downloading certain objects.
-/

namespace TexBundle

variable {σ τ α β : Type} {R : σ → τ → Prop}

/-- From states that `R` relates, two actions give the same answer and end in states that `R`
relates. -/
def Agree (R : σ → τ → Prop) (act : StateM σ α) (act' : StateM τ α) : Prop :=
  ∀ s t, R s t → (act s).1 = (act' t).1 ∧ R (act s).2 (act' t).2

theorem Agree.pure (a : α) : Agree R (pure a) (pure a) :=
  fun _ _ h => ⟨rfl, h⟩

theorem Agree.bind {act : StateM σ α} {act' : StateM τ α} {next : α → StateM σ β}
    {next' : α → StateM τ β} (h : Agree R act act') (hnext : ∀ a, Agree R (next a) (next' a)) :
    Agree R (act >>= next) (act' >>= next') := by
  intro s t hst
  obtain ⟨ha, hst'⟩ := h s t hst
  have hrun : (act' >>= next') t = next' (act s).1 (act' t).2 := by rw [ha]; rfl
  rw [hrun]
  exact hnext (act s).1 (act s).2 (act' t).2 hst'

/-- Downloads of certain objects of a bucket agree, whenever they are made. -/
def ObjectStore.Alike (R : σ → τ → Prop) (store : ObjectStore (StateM σ))
    (store' : ObjectStore (StateM τ)) (bucket : Text) (objects : Text → Prop) : Prop :=
  ∀ object, objects object → Agree R (store.download bucket object) (store'.download bucket object)

end TexBundle

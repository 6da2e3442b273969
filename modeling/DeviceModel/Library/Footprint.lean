import DeviceModel.Library.Runs

/-!
# Footprints

Two parties share a memory. One of them stores anything anywhere, and says so in its labels; the
other one changes only the places that it may. Where every step of the second keeps to that, the
rest of the memory is what the first has stored there last.
-/

namespace DeviceModel

universe u v w x

variable {α : Type u} {β : Type v} {σ : Type w} {ℓ : Type x} {p : α → Prop} {m m' m'' : α → β}

/-- The memories are the same outside `p`. -/
def SameOutside (p : α → Prop) (m m' : α → β) : Prop := ∀ a, ¬ p a → m' a = m a

namespace SameOutside

theorem refl (p : α → Prop) (m : α → β) : SameOutside p m m := fun _ _ => rfl

theorem trans (h : SameOutside p m m') (h' : SameOutside p m' m'') : SameOutside p m m'' :=
  fun a ha => (h' a ha).trans (h a ha)

end SameOutside

/-- What a run leaves at a place that only its stores change. -/
def lastStored (stores : ℓ → Option (α → β)) (a : α) (v : β) (ls : List ℓ) : β :=
  ls.foldl (fun v l => (stores l).elim v (· a)) v

theorem lastStored_snoc (stores : ℓ → Option (α → β)) (a : α) (v : β) (ls : List ℓ) (l : ℓ) :
    lastStored stores a v (ls ++ [l]) = (stores l).elim (lastStored stores a v ls) (· a) := by
  rw [lastStored, List.foldl_append]
  rfl

/-- One step, in terms of what its label stores. -/
def StepOutside (p : α → Prop) (stored : Option (α → β)) (m m' : α → β) : Prop :=
  match stored with
  | none => SameOutside p m m'
  | some m'' => m' = m''

/-- **The footprint rule.** What every step changes it changes within `p`, or its label stores
it. -/
theorem Run.outside {step : σ → ℓ → σ → Prop} {mem : σ → α → β} {stores : ℓ → Option (α → β)}
    {I : σ → Prop}
    (hstep : ∀ s l t, I s → step s l t → I t ∧ StepOutside p (stores l) (mem s) (mem t))
    {s t : σ} {ls : List ℓ} (h : Run step s ls t) (hs : I s) :
    ∀ a, ¬ p a → mem t a = lastStored stores a (mem s a) ls := by
  have hboth : I t ∧ ∀ a, ¬ p a → mem t a = lastStored stores a (mem s a) ls := by
    induction h with
    | nil => exact ⟨hs, fun _ _ => rfl⟩
    | @snoc t u ls l _ hlast ih =>
      obtain ⟨ht, hmem⟩ := ih
      obtain ⟨hu, hout⟩ := hstep _ _ _ ht hlast
      refine ⟨hu, fun a ha => ?_⟩
      rw [lastStored_snoc, ← hmem a ha]
      cases hl : stores l with
      | none =>
        rw [hl] at hout
        exact hout a ha
      | some m =>
        rw [hl] at hout
        exact congrFun hout a
  exact hboth.2

end DeviceModel

import DeviceModel.Library.Runs

/-!
# Registers with read-only bits

A write changes the bits of a mask and leaves the others (`maskedPut`). After any number of
writes the bits of the mask are those of the last one, and the others are as they were
(`Run.masked`).
-/

namespace DeviceModel

variable {w : Nat}

/-- The register after a write of `new`, or after none. -/
def maskedPut (mask old : BitVec w) : Option (BitVec w) → BitVec w
  | none => old
  | some new => (old &&& ~~~mask) ||| (new &&& mask)

/-- The last value that is written, where `f` says what each label writes. -/
def lastWrite {ℓ α : Type*} (f : ℓ → Option α) (ls : List ℓ) : Option α :=
  (ls.filterMap f).getLast?

theorem lastWrite_snoc {ℓ α : Type*} (f : ℓ → Option α) (ls : List ℓ) (l : ℓ) :
    lastWrite f (ls ++ [l]) = (f l).or (lastWrite f ls) := by
  rw [lastWrite, List.filterMap_append, List.getLast?_append, lastWrite]
  congr 1
  cases h : f l with
  | none => rw [List.filterMap_cons_none h]; rfl
  | some v => rw [List.filterMap_cons_some h]; rfl

theorem getLsbD_maskedPut (mask old new : BitVec w) (i : Nat) :
    (maskedPut mask old (some new)).getLsbD i =
      if mask.getLsbD i then new.getLsbD i else old.getLsbD i := by
  rw [maskedPut, BitVec.getLsbD_or, BitVec.getLsbD_and, BitVec.getLsbD_and, BitVec.getLsbD_not]
  by_cases hi : i < w
  · cases mask.getLsbD i <;> simp [hi]
  · simp [BitVec.getLsbD_of_ge _ i (Nat.le_of_not_lt hi)]

/-- A register without read-only bits is a memory cell. -/
theorem maskedPut_allOnes (old : BitVec w) (new : Option (BitVec w)) :
    maskedPut (BitVec.allOnes w) old new = new.getD old := by
  cases new with
  | none => rfl
  | some v => simp [maskedPut]

/-- Nor does a write change a register that has only those. -/
theorem maskedPut_zero (old : BitVec w) (new : Option (BitVec w)) : maskedPut 0 old new = old := by
  cases new with
  | none => rfl
  | some v => simp [maskedPut]

/-- The bits of a mask and the others come from two writes, whichever is made last. -/
theorem maskedPut_not (mask old new new' : BitVec w) :
    maskedPut (~~~mask) (maskedPut mask old (some new)) (some new') =
      maskedPut mask new' (some new) := by
  refine BitVec.eq_of_getLsbD_eq fun i hi => ?_
  rw [getLsbD_maskedPut, getLsbD_maskedPut, getLsbD_maskedPut, BitVec.getLsbD_not]
  cases mask.getLsbD i <;> simp [hi]

/-- The bits that a write leaves. -/
theorem maskedPut_readonly (mask old : BitVec w) (new : Option (BitVec w)) :
    maskedPut mask old new &&& ~~~mask = old &&& ~~~mask := by
  cases new with
  | none => rfl
  | some v =>
    refine BitVec.eq_of_getLsbD_eq fun i hi => ?_
    rw [BitVec.getLsbD_and, getLsbD_maskedPut, BitVec.getLsbD_and, BitVec.getLsbD_not]
    cases mask.getLsbD i <;> simp

/-- Of two writes the later one counts. -/
theorem maskedPut_maskedPut (mask old : BitVec w) (new new' : Option (BitVec w)) :
    maskedPut mask (maskedPut mask old new) new' = maskedPut mask old (new'.or new) := by
  cases new' with
  | none => rfl
  | some v =>
    rw [maskedPut, maskedPut_readonly]
    rfl

/-- **Last write.** Where each step writes the register as `f` says, so does a whole run. -/
theorem Run.masked {σ ℓ : Type*} {step : σ → ℓ → σ → Prop} {I : σ → Prop} {get : σ → BitVec w}
    {mask : BitVec w} {f : ℓ → Option (BitVec w)}
    (hstep : ∀ s l t, I s → step s l t → I t ∧ get t = maskedPut mask (get s) (f l)) {s t : σ}
    {ls : List ℓ} (h : Run step s ls t) (hs : I s) :
    I t ∧ get t = maskedPut mask (get s) (lastWrite f ls) := by
  induction h with
  | nil => exact ⟨hs, rfl⟩
  | snoc _ h ih =>
    obtain ⟨hmid, hget⟩ := ih
    obtain ⟨hend, hput⟩ := hstep _ _ _ hmid h
    refine ⟨hend, ?_⟩
    rw [hput, hget, maskedPut_maskedPut, lastWrite_snoc]

end DeviceModel

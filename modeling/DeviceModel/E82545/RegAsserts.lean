import DeviceModel.E82545.DisableWaits

/-!
# The assertions of the register functions

`e82545_write_ra` and `e82545_read_ra` assert that the index is below 15, one less than
the case range `E1000_RAL(0) ... E1000_RAH(15)` lets through and than `esc_uni` holds.
Writes of RDBAH and RDLEN assert that receive is disabled. Nothing else asserts, and in a
run of register accesses everything else returns.
-/

namespace DeviceModel

/-! ## Accesses -/

/-- A guest access to one of the BARs. -/
inductive RegAccess : Type where
  | write (baridx : Nat) (offset : U64) (size : Nat) (value : U64)
  | read (baridx : Nat) (offset : U64) (size : Nat)

/-- What an access does to the device. -/
def regAccess (fuel : Nat) (sc : E82545Softc) : RegAccess → Except Stop E82545Softc
  | .write baridx offset size value => e82545Write fuel sc baridx offset size value
  | .read baridx offset size => (e82545Read sc baridx offset size).map Prod.fst

/-- An access that returns. -/
def RegStep (sc : E82545Softc) (a : RegAccess) (t : E82545Softc) : Prop :=
  ∃ fuel, regAccess fuel sc a = .ok t

/-- After `e82545_init`. -/
def RegInitial (sc : E82545Softc) : Prop := ∃ ctx, sc = e82545Init ctx

/-- No assertion fails. -/
def AssertFree {α : Type} (m : Except Stop α) : Prop := ∀ expr, m ≠ .error (.assertion expr)

theorem assertFree_ok {α : Type} (a : α) : AssertFree (.ok a) := by
  intro expr h
  cases h

theorem assertFree_bind {α β : Type} {m : Except Stop α} {f : α → Except Stop β}
    (hm : AssertFree m) (hf : ∀ a, AssertFree (f a)) : AssertFree (m >>= f) := by
  cases m with
  | ok a => exact hf a
  | error e =>
    intro expr h
    exact hm expr (congrArg Except.error (Except.error.inj h))

/-- A function that starts with an assertion. -/
theorem assertFree_assert {α : Type} {expr : String} {b : Bool} {f : Unit → Except Stop α}
    (hf : AssertFree (f ())) : AssertFree (assert expr b >>= f) ↔ b = true := by
  cases b with
  | true => exact iff_of_true hf rfl
  | false => exact iff_of_false (fun h => h expr rfl) Bool.false_ne_true

/-- The array that a register's case indexes, as the index and the array's length. -/
def E1000Reg.index : E1000Reg → Option (Nat × Nat)
  | .ra ridx => some (ridx / 2, 16)
  | .mta idx => some (idx, 128)
  | .vfta idx => some (idx, 128)
  | _ => none

/-- The case of the register at an offset indexes its array within its bounds. -/
def IndexInBounds (offset : U32) : Prop :=
  ∀ i n, (E1000Reg.ofOffset offset.toNat).index = some (i, n) → i < n

/-- A write of a register fails no assertion and stays in its array. -/
def WriteSafe (sc : E82545Softc) (offset value : U32) : Prop :=
  (∀ fuel, AssertFree (e82545WriteRegister fuel sc offset value)) ∧ IndexInBounds offset

/-- A read of a register fails no assertion and stays in its array. -/
def ReadSafe (sc : E82545Softc) (offset : U32) : Prop :=
  AssertFree (e82545ReadRegister sc offset) ∧ IndexInBounds offset

/-! ## One register -/

theorem condWaitWhile_assertFree (active : E82545Softc → Bool) (fuel : Nat) :
    ∀ sc, AssertFree (condWaitWhile active fuel sc) := by
  induction fuel with
  | zero =>
    intro sc expr h
    cases h
  | succ fuel ih =>
    intro sc
    rw [condWaitWhile]
    split
    · exact ih _
    · exact assertFree_ok _

/-- A register accepts a write: it is not the last receive address, and receive is off
where it is a base or a length of the receive ring. -/
def E1000Reg.Accepts (sc : E82545Softc) : E1000Reg → Prop
  | .ra ridx => ridx / 2 < 15
  | .rdbah | .rdlen => sc.rx.escRxEnabled = false
  | _ => True

theorem e82545WriteReg_assertFree_iff (fuel : Nat) (sc : E82545Softc) (reg : E1000Reg)
    (value : U32) : AssertFree (e82545WriteReg fuel sc reg value) ↔ reg.Accepts sc := by
  cases reg with
  | ra ridx =>
    rw [e82545WriteReg, e82545WriteRa, assertFree_assert, decide_eq_true_iff]
    · rfl
    · exact assertFree_ok _
  | rdbah | rdlen =>
    rw [e82545WriteReg, assertFree_assert, Bool.not_eq_true']
    · rfl
    · exact assertFree_ok _
  | ctrl | ctrlDup =>
    refine iff_of_true ?_ trivial
    rw [e82545WriteReg, e82545Devctl]
    split
    · apply assertFree_bind (condWaitWhile_assertFree _ fuel _)
      intro t
      apply assertFree_bind (condWaitWhile_assertFree _ fuel _)
      intro u
      exact assertFree_ok _
    · exact assertFree_ok _
  | rctl =>
    refine iff_of_true ?_ trivial
    rw [e82545WriteReg, e82545RxCtl]
    split
    · split
      · exact assertFree_ok _
      · apply assertFree_bind (condWaitWhile_assertFree _ fuel _)
        intro t
        exact assertFree_ok _
    · exact assertFree_ok _
  | tctl =>
    refine iff_of_true ?_ trivial
    rw [e82545WriteReg, e82545TxCtl]
    split
    · exact assertFree_ok _
    · split
      · exact assertFree_ok _
      · apply assertFree_bind (condWaitWhile_assertFree _ fuel _)
        intro t
        exact assertFree_ok _
  | _ => exact iff_of_true (assertFree_ok _) trivial

/-- With neither ring active the disables do not wait, and an accepted write returns. -/
theorem e82545WriteReg_returns {sc : E82545Softc} {reg : E1000Reg} (value : U32)
    (hrx : sc.rx.escRxActive = false) (htx : sc.tx.escTxActive = false) (h : reg.Accepts sc) :
    Returns (e82545WriteReg 1 sc reg value) := by
  cases reg with
  | ra ridx =>
    have hidx : decide (ridx / 2 < 15) = true := decide_eq_true h
    rw [e82545WriteReg, e82545WriteRa, hidx]
    exact ⟨_, rfl⟩
  | rdbah | rdlen =>
    have hoff : sc.rx.escRxEnabled = false := h
    rw [e82545WriteReg, hoff]
    exact ⟨_, rfl⟩
  | ctrl | ctrlDup =>
    rw [e82545WriteReg, e82545Devctl]
    split
    · exact ⟨_, e82545Reset_eq_ok.2 ⟨Nat.one_pos, hrx, htx, rfl⟩⟩
    · exact ⟨_, rfl⟩
  | rctl =>
    rw [e82545WriteReg, e82545RxCtl]
    split
    · split
      · exact ⟨_, rfl⟩
      · exact .bind (condWaitWhile_eq_ok.2 ⟨Nat.one_pos, hrx, rfl⟩) ⟨_, rfl⟩
    · exact ⟨_, rfl⟩
  | tctl =>
    rw [e82545WriteReg, e82545TxCtl]
    split
    · exact ⟨_, rfl⟩
    · split
      · exact ⟨_, rfl⟩
      · exact .bind (condWaitWhile_eq_ok.2 ⟨Nat.one_pos, htx, rfl⟩) ⟨_, rfl⟩
  | _ => exact ⟨_, rfl⟩

/-- What a read asserts. -/
theorem e82545ReadReg_assertFree_iff (sc : E82545Softc) (reg : E1000Reg) :
    AssertFree (e82545ReadReg sc reg) ↔ ∀ ridx, reg = .ra ridx → ridx / 2 < 15 := by
  cases reg with
  | ra ridx =>
    have hra : AssertFree (e82545ReadRa sc ridx) ↔ ridx / 2 < 15 := by
      rw [e82545ReadRa, assertFree_assert, decide_eq_true_iff]
      exact assertFree_ok _
    rw [e82545ReadReg]
    constructor
    · intro h ridx' hridx
      cases hridx
      apply hra.1
      intro expr herr
      apply h expr
      rw [herr]
      rfl
    · intro h
      exact assertFree_bind (hra.2 (h ridx rfl)) fun v => assertFree_ok _
  | _ => exact iff_of_true (assertFree_ok _) (by intro ridx h; cases h)

/-! ## Offsets -/

/-- The cases of the arrays, by their offsets. -/
theorem index_ofOffset (offset : Nat) :
    (E1000Reg.ofOffset offset).index =
      if 0x5400 ≤ offset ∧ offset ≤ 0x547C then some ((offset - 0x5400) / 4 / 2, 16)
      else if 0x5200 ≤ offset ∧ offset ≤ 0x53FC then some ((offset - 0x5200) / 4, 128)
      else if 0x5600 ≤ offset ∧ offset ≤ 0x57FC then some ((offset - 0x5600) / 4, 128)
      else none := by
  unfold E1000Reg.ofOffset
  split
  · rfl
  · split
    · rfl
    · split
      · rfl
      · split <;> rfl

/-- They stay within them. -/
theorem indexInBounds (offset : U32) : IndexInBounds offset := by
  intro i n h
  rw [index_ofOffset] at h
  split at h
  · next hra =>
    cases h
    omega
  · split at h
    · next hmta =>
      cases h
      omega
    · split at h
      · next hvfta =>
        cases h
        omega
      · cases h

/-- The registers that do not accept every write, by their offsets. -/
theorem accepts_ofOffset {sc : E82545Softc} {offset : Nat} (haligned : offset % 4 = 0) :
    (E1000Reg.ofOffset offset).Accepts sc ↔
      offset ≠ 0x5478 ∧ offset ≠ 0x547C ∧
        (offset = 0x2804 ∨ offset = 0x2808 → sc.rx.escRxEnabled = false) := by
  unfold E1000Reg.ofOffset
  split
  · next hra =>
    rw [E1000Reg.Accepts]
    omega
  · next hra =>
    split
    · next hmta =>
      refine iff_of_true trivial ?_
      omega
    · split
      · next hvfta =>
        refine iff_of_true trivial ?_
        omega
      · have hral : offset ≠ 0x5478 := by omega
        have hrah : offset ≠ 0x547C := by omega
        split <;> simp [E1000Reg.Accepts]
        -- what is left is `default`, at none of the labels
        refine ⟨hral, hrah, ?_⟩
        rintro (h | h) <;> contradiction

theorem aligned_iff {offset : U32} : offset &&& 3#32 = 0 ↔ offset.toNat % 4 = 0 := by
  rw [← BitVec.toNat_inj, BitVec.toNat_and]
  exact iff_of_eq (congrArg (· = 0) (Nat.and_two_pow_sub_one_eq_mod offset.toNat 2))

/-- A read asserts less than a write. -/
theorem reads_ofOffset {offset : Nat} (haligned : offset % 4 = 0) :
    (∀ ridx, E1000Reg.ofOffset offset = .ra ridx → ridx / 2 < 15) ↔
      offset ≠ 0x5478 ∧ offset ≠ 0x547C := by
  constructor
  · intro h
    constructor
    · rintro rfl
      exact absurd (h 30 rfl) (by decide)
    · rintro rfl
      exact absurd (h 31 rfl) (by decide)
  · rintro ⟨hral, hrah⟩ ridx h
    have hindex := index_ofOffset offset
    rw [h, E1000Reg.index] at hindex
    split at hindex
    · next hra =>
      have hridx : ridx / 2 = (offset - 0x5400) / 4 / 2 :=
        congrArg Prod.fst (Option.some.inj hindex)
      omega
    · -- the other arrays have 128 entries
      split at hindex
      · have hlen : 16 = 128 := congrArg Prod.snd (Option.some.inj hindex)
        cases hlen
      · split at hindex
        · have hlen : 16 = 128 := congrArg Prod.snd (Option.some.inj hindex)
          cases hlen
        · cases hindex

/-! ## Runs of accesses -/

/-- Neither ring is active: nothing but a poll or an interrupt makes one so. -/
theorem inactive_of_reaches {sc : E82545Softc} (h : Reaches RegStep RegInitial sc) :
    sc.rx.escRxActive = false ∧ sc.tx.escTxActive = false := by
  refine h.invariant (I := fun sc => sc.rx.escRxActive = false ∧ sc.tx.escTxActive = false) ?_ ?_
  · rintro _ ⟨ctx, rfl⟩
    exact ⟨rfl, rfl⟩
  · rintro s a t ⟨hrx, htx⟩ ⟨fuel, hstep⟩
    cases a with
    | write baridx offset size value =>
      obtain ⟨htx', hrx', -⟩ := e82545Write_flags hstep
      exact ⟨hrx'.trans hrx, htx'.trans htx⟩
    | read baridx offset size =>
      cases hread : e82545Read s baridx offset size with
      | error e =>
        rw [regAccess, hread] at hstep
        cases hstep
      | ok r =>
        obtain ⟨u, v⟩ := r
        rw [regAccess, hread] at hstep
        cases hstep
        obtain ⟨mtx, pi, intr, hframe⟩ := e82545Read_frame hread
        rw [hframe]
        exact ⟨hrx, htx⟩

/-- **Assertions.** In every state that register accesses reach, a write of a register is
safe if and only if it is not one of RAL(15) and RAH(15), nor one of RDBAH and RDLEN while
receive is enabled, and a read is if and only if it is not one of RAL(15) and RAH(15). A
safe write returns. -/
theorem register_access_safe_iff {sc : E82545Softc} (h : Reaches RegStep RegInitial sc)
    (offset value : U32) :
    (WriteSafe sc offset value ↔
      offset ≠ 0x5478 ∧ offset ≠ 0x547C ∧
        (offset = 0x2804 ∨ offset = 0x2808 → sc.rx.escRxEnabled = false)) ∧
    (ReadSafe sc offset ↔ offset ≠ 0x5478 ∧ offset ≠ 0x547C) ∧
    (WriteSafe sc offset value → Returns (e82545WriteRegister 1 sc offset value)) := by
  obtain ⟨hrx, htx⟩ := inactive_of_reaches h
  by_cases haligned : offset &&& 3#32 = 0
  · have hmod := aligned_iff.1 haligned
    have hwrite : ∀ fuel, e82545WriteRegister fuel sc offset value =
        e82545WriteReg fuel sc (.ofOffset offset.toNat) value := by
      intro fuel
      rw [e82545WriteRegister, if_neg (not_not.2 haligned)]
    have hread : e82545ReadRegister sc offset = e82545ReadReg sc (.ofOffset offset.toNat) := by
      rw [e82545ReadRegister, if_neg (not_not.2 haligned)]
    have hsafe : WriteSafe sc offset value ↔ (E1000Reg.ofOffset offset.toNat).Accepts sc := by
      simp only [WriteSafe, hwrite, e82545WriteReg_assertFree_iff, indexInBounds, and_true,
        forall_const]
    have hnat : ∀ n : Nat, n < 2 ^ 32 → (offset = BitVec.ofNat 32 n ↔ offset.toNat = n) := by
      intro n hn
      rw [← BitVec.toNat_inj, BitVec.toNat_ofNat, Nat.mod_eq_of_lt hn]
    have h15 := hnat 0x5478 (by decide)
    have h15' := hnat 0x547C (by decide)
    refine ⟨?_, ?_, ?_⟩
    · rw [hsafe, accepts_ofOffset hmod]
      apply and_congr (not_congr h15.symm)
      apply and_congr (not_congr h15'.symm)
      apply imp_congr_left
      exact or_congr (hnat 0x2804 (by decide)).symm (hnat 0x2808 (by decide)).symm
    · rw [ReadSafe, hread, e82545ReadReg_assertFree_iff, reads_ofOffset hmod]
      apply (and_iff_left (indexInBounds offset)).trans
      exact and_congr (not_congr h15.symm) (not_congr h15'.symm)
    · intro hok
      rw [hwrite]
      exact e82545WriteReg_returns value hrx htx (hsafe.1 hok)
  · -- the registers named are aligned
    have hne : ∀ x : U32, x &&& 3#32 = 0 → offset ≠ x := by
      rintro x hx rfl
      exact haligned hx
    have hwrite : ∀ fuel, e82545WriteRegister fuel sc offset value = .ok sc :=
      fun fuel => if_pos haligned
    have hread : e82545ReadRegister sc offset = .ok (sc, 0) := if_pos haligned
    refine ⟨iff_of_true ⟨?_, indexInBounds offset⟩ ⟨hne _ rfl, hne _ rfl, ?_⟩,
      iff_of_true ⟨?_, indexInBounds offset⟩ ⟨hne _ rfl, hne _ rfl⟩, fun _ => ⟨sc, hwrite 1⟩⟩
    · intro fuel
      rw [hwrite]
      exact assertFree_ok sc
    · rintro (hoff | hoff)
      · exact absurd hoff (hne _ rfl)
      · exact absurd hoff (hne _ rfl)
    · rw [hread]
      exact assertFree_ok _

/-- Accesses one after another. -/
theorem regAccesses_reaches {fuel : Nat} :
    ∀ (as : List RegAccess) {s t : E82545Softc}, Reaches RegStep RegInitial s →
      as.foldlM (regAccess fuel) s = .ok t → Reaches RegStep RegInitial t := by
  intro as
  induction as with
  | nil =>
    intro s t hs h
    cases h
    exact hs
  | cons a as ih =>
    intro s t hs h
    rw [List.foldlM_cons] at h
    obtain ⟨u, hu, h⟩ := Except.bind_eq_ok.1 h
    exact ih (.next hs ⟨fuel, hu⟩) h

/-- Receive has been enabled, after the base and the length of its ring: a write of RDT is safe,
and one of RDLEN is not. -/
theorem register_access_safe_iff_receiving : ∃ sc,
    [.write 0 0x2800 4 0x1000, .write 0 0x2808 4 0x80, .write 0 0x100 4 2].foldlM (regAccess 1)
      (e82545Init ⟨0⟩) = .ok sc ∧
    WriteSafe sc 0x2818 4 ∧ Returns (e82545WriteRegister 1 sc 0x2818 4) ∧
    ¬ WriteSafe sc 0x2808 0x100 := by
  refine ⟨_, rfl, ?_⟩
  have hreach := @regAccesses_reaches 1
    [.write 0 0x2800 4 0x1000, .write 0 0x2808 4 0x80, .write 0 0x100 4 2]
    _ _ (.start ⟨⟨0⟩, rfl⟩) rfl
  have htail := register_access_safe_iff hreach 0x2818 4
  have hsafe := htail.1.2 ⟨by decide, by decide, by decide⟩
  refine ⟨hsafe, htail.2.2 hsafe, fun hlen => ?_⟩
  have hdisabled := ((register_access_safe_iff hreach 0x2808 0x100).1.1 hlen).2.2 (.inr rfl)
  exact absurd hdisabled (by decide)

/-- A read of RAL(15) fails its assertion. -/
theorem read_ra_asserts :
    ¬ ∀ sc, Reaches RegStep RegInitial sc → ∀ offset value : U32, offset.toNat < 0x20000 →
      WriteSafe sc offset value ∧ ReadSafe sc offset := by
  intro h
  have hsafe := (h (e82545Init ⟨0⟩) (.start ⟨⟨0⟩, rfl⟩) 0x5478 0 (by decide)).2
  have hread : AssertFree (e82545ReadReg (e82545Init ⟨0⟩) (.ra 30)) := hsafe.1
  exact absurd ((e82545ReadReg_assertFree_iff _ _).1 hread 30 rfl) (by decide)

end DeviceModel

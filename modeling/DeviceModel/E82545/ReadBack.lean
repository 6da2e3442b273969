import DeviceModel.E82545.Regs

/-!
# Control registers read back

A write of a control register stores the value without the register's reserved bits, and a
read returns what is stored. The two enables save the register too: `e82545_rx_ctl` before
anything else, `e82545_tx_ctl` at its end, behind an early return for a write that leaves
the enable bit as it is.
-/

namespace DeviceModel

/-- The reserved bits of the control registers. -/
def controlMask : E1000Reg → Option U32
  | .fcal | .tipg => some 0#32
  | .fcah | .fct | .vet | .fcttv | .rdtr | .radv | .tidv | .tadv => some 0xFFFF0000#32
  | .ledctl => some 0x30303000#32
  | .pba => some (~~~0x0000FF80#32)
  | .rctl => some 0xF9204c01#32
  | .fcrtl | .fcrth => some 0xFFFF0007#32
  | .rsrpd => some 0xFFFFF000#32
  | .rxcsum => some 0xFFFFF800#32
  | .txcw => some 0x3FFF0000#32
  | .tctl => some 0xFE800005#32
  | .txdctl => some 0xC0C0C0#32
  | _ => none

/-- What the control registers hold. -/
def controlFile (sc : E82545Softc) : E1000Reg → U32
  | .fcal => sc.gen.escFCAL
  | .fcah => sc.gen.escFCAH
  | .fct => sc.gen.escFCT
  | .vet => sc.gen.escVET
  | .fcttv => sc.gen.escFCTTV
  | .ledctl => sc.gen.escLEDCTL
  | .pba => sc.gen.escPBA
  | .rctl => sc.rx.escRCTL
  | .fcrtl => sc.rx.escFCRTL
  | .fcrth => sc.rx.escFCRTH
  | .rdtr => sc.rx.escRDTR
  | .radv => sc.rx.escRADV
  | .rsrpd => sc.rx.escRSRPD
  | .rxcsum => sc.rx.escRXCSUM
  | .txcw => sc.tx.escTXCW
  | .tctl => sc.tx.escTCTL
  | .tipg => sc.tx.escTIPG
  | .tidv => sc.tx.escTIDV
  | .txdctl => sc.tx.escTXDCTL
  | .tadv => sc.tx.escTADV
  | _ => 0

variable {sc t : E82545Softc} {reg : E1000Reg} {m value : U32}

/-- A read of a control register returns what it holds, and changes nothing. -/
theorem e82545ReadReg_control (sc : E82545Softc) (h : controlMask reg = some m) :
    e82545ReadReg sc reg = .ok (sc, controlFile sc reg) := by
  cases reg <;> first | rfl | cases h

/-- `e82545_rx_ctl` saves RCTL on all its ways. -/
theorem e82545RxCtl_control {fuel : Nat} (h : e82545RxCtl fuel sc value = .ok t) :
    controlFile t = Function.update (controlFile sc) .rctl (value &&& ~~~0xF9204c01#32) := by
  rw [e82545RxCtl] at h
  split at h
  · split at h
    · cases h
      funext reg
      cases reg <;> rfl
    · obtain ⟨u, hu, h⟩ := Except.bind_eq_ok.1 h
      obtain ⟨-, -, rfl⟩ := condWaitWhile_eq_ok.1 hu
      cases h
      funext reg
      cases reg <;> rfl
  · cases h
    funext reg
    cases reg <;> rfl

/-- A write of TCTL leaves the enable bit as it is. -/
def KeepsEnable (sc : E82545Softc) (value : U32) : Prop :=
  (value &&& e1000TctlEN == e1000TctlEN) = sc.tx.escTxEnabled

/-- `e82545_tx_ctl` saves TCTL where the enable bit changes, and else does nothing. -/
theorem e82545TxCtl_control {fuel : Nat} (h : e82545TxCtl fuel sc value = .ok t) :
    (KeepsEnable sc value ∧ t = sc) ∨
      (¬ KeepsEnable sc value ∧
        controlFile t = Function.update (controlFile sc) .tctl (value &&& ~~~0xFE800005#32)) := by
  rw [e82545TxCtl] at h
  split at h
  · next hkeep =>
    cases h
    exact .inl ⟨eq_of_beq hkeep, rfl⟩
  · next hkeep =>
    refine .inr ⟨fun heq => hkeep (beq_iff_eq.2 heq), ?_⟩
    split at h
    · cases h
      funext reg
      cases reg <;> rfl
    · obtain ⟨u, hu, h⟩ := Except.bind_eq_ok.1 h
      obtain ⟨-, -, rfl⟩ := condWaitWhile_eq_ok.1 hu
      cases h
      funext reg
      cases reg <;> rfl

/-- A write of any other control register stores its value without the reserved bits. -/
theorem e82545WriteReg_control {fuel : Nat} (hreg : controlMask reg = some m)
    (hne : reg ≠ .tctl) (h : e82545WriteReg fuel sc reg value = .ok t) :
    controlFile t = Function.update (controlFile sc) reg (value &&& ~~~m) := by
  cases reg with
  | rctl =>
    cases hreg
    exact e82545RxCtl_control h
  | tctl => exact absurd rfl hne
  | fcal | tipg =>
    cases hreg
    cases h
    rw [BitVec.not_zero, BitVec.and_allOnes]
    funext reg
    cases reg <;> rfl
  | pba =>
    cases hreg
    cases h
    rw [BitVec.not_not]
    funext reg
    cases reg <;> rfl
  | fcah | fct | vet | fcttv | rdtr | radv | tidv | tadv | ledctl | fcrtl | fcrth | rsrpd |
      rxcsum | txcw | txdctl =>
    cases hreg
    cases h
    funext reg
    cases reg <;> rfl
  | _ => cases hreg

/-! ## Read-back -/

/-- After a write of `value` to `reg`, with the reserved bits `m`, the register reads as
the value without them, and every other control register as before. -/
structure ReadsBack (sc t : E82545Softc) (reg : E1000Reg) (m value : U32) : Prop where
  written : e82545ReadReg t reg = .ok (t, value &&& ~~~m)
  others : ∀ reg' m', controlMask reg' = some m' → reg' ≠ reg →
    ∃ v, e82545ReadReg sc reg' = .ok (sc, v) ∧ e82545ReadReg t reg' = .ok (t, v)

/-- The law, in terms of what the registers hold. -/
theorem readsBack_iff (hreg : controlMask reg = some m) :
    ReadsBack sc t reg m value ↔
      controlFile t reg = value &&& ~~~m ∧
        ∀ reg' m', controlMask reg' = some m' → reg' ≠ reg →
          controlFile t reg' = controlFile sc reg' := by
  constructor
  · rintro ⟨hwritten, hothers⟩
    refine ⟨?_, fun reg' m' hreg' hne => ?_⟩
    · rw [e82545ReadReg_control t hreg] at hwritten
      exact congrArg Prod.snd (Except.ok.inj hwritten)
    · obtain ⟨v, hsc, ht⟩ := hothers reg' m' hreg' hne
      rw [e82545ReadReg_control _ hreg'] at hsc ht
      exact (congrArg Prod.snd (Except.ok.inj ht)).trans
        (congrArg Prod.snd (Except.ok.inj hsc)).symm
  · rintro ⟨hwritten, hothers⟩
    refine ⟨?_, fun reg' m' hreg' hne => ⟨controlFile sc reg', ?_, ?_⟩⟩
    · rw [e82545ReadReg_control t hreg, hwritten]
    · exact e82545ReadReg_control sc hreg'
    · rw [e82545ReadReg_control t hreg', hothers reg' m' hreg' hne]

/-- An updated file reads back. -/
theorem readsBack_of_update (hreg : controlMask reg = some m)
    (h : controlFile t = Function.update (controlFile sc) reg (value &&& ~~~m)) :
    ReadsBack sc t reg m value := by
  rw [readsBack_iff hreg, h]
  exact ⟨Function.update_self _ _ _, fun reg' _ _ hne => Function.update_of_ne hne _ _⟩

/-- **Read-back.** A write that returns reads back if and only if the register is not TCTL,
or the write changes its enable bit, or TCTL holds the value already. -/
theorem control_readback_iff {fuel : Nat} (hreg : controlMask reg = some m)
    (h : e82545WriteReg fuel sc reg value = .ok t) :
    ReadsBack sc t reg m value ↔
      (reg = .tctl → KeepsEnable sc value → sc.tx.escTCTL = value &&& ~~~0xFE800005#32) := by
  by_cases htctl : reg = .tctl
  · subst htctl
    cases hreg
    rcases e82545TxCtl_control h with ⟨hkeep, rfl⟩ | ⟨hchange, hupdate⟩
    · rw [readsBack_iff rfl]
      constructor
      · rintro ⟨hwritten, -⟩ - -
        exact hwritten
      · intro hheld
        exact ⟨hheld rfl hkeep, fun _ _ _ _ => rfl⟩
    · exact iff_of_true (readsBack_of_update rfl hupdate) fun _ hkeep => absurd hkeep hchange
  · refine iff_of_true ?_ fun heq => absurd heq htctl
    exact readsBack_of_update hreg (e82545WriteReg_control hreg htctl h)

/-- TCTL has been written with its enable bit, and the other control registers too: TCTL
without that bit reads back, and so does RCTL. -/
theorem control_readback_iff_disable : ∃ sc t u,
    [(.fcah, 0x100), (.rctl, 0x8002), (.tctl, 0x1FA)].foldlM
      (fun sc w => e82545WriteReg 1 sc w.1 w.2) (e82545Init ⟨0⟩) = .ok sc ∧
    e82545WriteReg 1 sc .tctl 0xF8 = .ok t ∧ ReadsBack sc t .tctl 0xFE800005 0xF8 ∧
    e82545WriteReg 1 t .rctl 0x4 = .ok u ∧ ReadsBack t u .rctl 0xF9204C01 0x4 := by
  refine ⟨_, _, _, rfl, rfl, ?_, rfl, ?_⟩
  · refine (@control_readback_iff _ _ _ _ _ 1 rfl rfl).2 ?_
    intro _ hkeep
    cases hkeep
  · refine (@control_readback_iff _ _ _ _ _ 1 rfl rfl).2 ?_
    intro htctl
    cases htctl

/-- TCTL without its enable bit, after init: the write is lost. -/
theorem tctl_write_lost :
    ¬ ∀ (fuel : Nat) (sc t : E82545Softc) (reg : E1000Reg) (m value : U32),
      controlMask reg = some m → e82545WriteReg fuel sc reg value = .ok t →
        ReadsBack sc t reg m value := by
  intro h
  have hback := h 1 (e82545Init ⟨0⟩) (e82545Init ⟨0⟩) .tctl _ 0xF8 rfl rfl
  have hheld := ((readsBack_iff rfl).1 hback).1
  exact absurd hheld (by decide)

end DeviceModel

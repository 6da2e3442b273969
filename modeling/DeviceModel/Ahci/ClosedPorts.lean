import DeviceModel.Ahci.System

/-!
# Ports that are not opened

A port without a disk has no block context. A write to one of its registers changes
nothing but the port, or follows a null pointer.
-/

namespace DeviceModel

/-- `d` is `c` after something has been done on a port that is not opened. -/
structure Closed (c d : PortCtx) : Prop where
  closed : d.p.opened = false
  silent : c.p.is = 0 → d.p.is = 0
  same : ∃ m p, d = { c with p := p, blk := { c.blk with mem := m } }

/-- The stops of a function on a port that is not opened. -/
def ClosedStop (e : Stop) : Prop := e = .undefined ∨ e = .outOfFuel

namespace Closed

variable {c d e : PortCtx}

theorem refl (h : c.p.opened = false) : Closed c c := ⟨h, id, c.mem, c.p, rfl⟩

theorem trans (h : Closed c d) (h' : Closed d e) : Closed c e := by
  obtain ⟨-, hsilent, m, p, rfl⟩ := h
  obtain ⟨hclosed, hsilent', m', p', rfl⟩ := h'
  exact ⟨hclosed, fun hz => hsilent' (hsilent hz), m', p', rfl⟩

/-- A change of the port's own fields. -/
theorem port {p : AhciPort} (h : p.opened = false) (hsilent : c.p.is = 0 → p.is = 0) :
    Closed c { c with p := p } :=
  ⟨h, hsilent, c.mem, p, rfl⟩

end Closed

section

variable {c : PortCtx}

theorem ahciVisit_closed (h : c.p.opened = false) : Ensures ClosedStop (Closed c) (ahciVisit c) := by
  rw [ahciVisit]
  split
  · rw [ahciHandleSlot]
    have hclosed : c.p.setCmdCcs.opened = false := h
    rw [hclosed]
    exact Ensures.error (.inl rfl)
  · exact Closed.refl h

theorem ahciPortLoop_closed :
    ∀ (fuel : Nat) (M : Nat → Mem) (c : PortCtx), c.p.opened = false →
      Ensures ClosedStop (Closed c) (ahciPortLoop fuel M c) := by
  intro fuel
  induction fuel with
  | zero => exact fun _ _ _ => Ensures.error (.inr rfl)
  | succ fuel ih =>
    intro M c h
    rw [ahciPortLoop]
    split
    · exact Closed.refl h
    · split
      · exact Closed.refl h
      · split
        · exact Closed.refl h
        · have hmem : Closed c (c.setMem (M 0)) := ⟨h, id, M 0, c.p, rfl⟩
          refine (ahciVisit_closed (c := c.setMem (M 0)) h).bind fun t ht => ?_
          have hnext : Closed t t.nextCcs := Closed.port ht.closed id
          refine (ih _ t.nextCcs hnext.closed).mono fun u hu => ?_
          exact ((hmem.trans ht).trans hnext).trans hu

theorem ahciHandlePort_closed (h : c.p.opened = false) (fuel : Nat) (M : Nat → Mem) :
    Ensures ClosedStop (Closed c) (ahciHandlePort fuel M c) := by
  rw [ahciHandlePort]
  split
  · exact Closed.refl h
  · exact ahciPortLoop_closed fuel M c h

theorem ahciPortReset_closed (h : c.p.opened = false) : Closed c (ahciPortReset c) := by
  have hregs : (ahciPortResetRegs c.p).opened = false := h
  rw [ahciPortReset]
  simp only [hregs, Bool.not_false, if_true]
  exact Closed.port rfl id

theorem ahciResetPort_closed (h : c.p.opened = false) : Closed c (ahciResetPort c) := by
  have hset : ∀ cmd, Closed c { c with p := { c.p with ie := 0, is := 0, cmd := cmd, sctl := 0 } } :=
    fun _ => Closed.port h fun _ => rfl
  rw [ahciResetPort]
  exact (hset _).trans (ahciPortReset_closed h)

theorem ahciCmdRest_eq (ctx : Vmctx) (p : AhciPort) (value : U32) :
    ∃ cmd rfis tfd, ahciCmdRest ctx p value = { p with cmd := cmd, rfis := rfis, tfd := tfd } := by
  rw [ahciCmdRest]
  split <;> split <;> split <;> exact ⟨_, _, _, rfl⟩

/-- On a port that is opened `ahci_port_intr` follows no null pointer. -/
theorem ahciPortIntrOn_opened (h : c.p.opened = true) :
    ahciPortIntrOn c = .ok { c with sc := ahciPortIntr c.sc c.p } := by
  rw [ahciPortIntrOn, if_neg]
  rw [h]
  exact Bool.false_ne_true

theorem ahciPortIntrOn_closed (h : c.p.opened = false) : ahciPortIntrOn c = .error .undefined := by
  rw [ahciPortIntrOn, if_pos]
  rw [h]
  rfl

theorem ahciCmdWrite_closed (h : c.p.opened = false) (value : U32) :
    Ensures ClosedStop (Closed c) (ahciCmdWrite c value) := by
  rw [ahciCmdWrite]
  split
  · rw [ahciPortStop]
    have hbits : (ahciCmdBits c.p value).opened = false := h
    simp only [hbits, Bool.not_false, if_true]
    exact Ensures.error (.inl rfl)
  · obtain ⟨cmd, rfis, tfd, heq⟩ :=
      ahciCmdRest_eq c.sc.vmctx (ahciCmdStart c.sc.vmctx (ahciCmdBits c.p value)) value
    rw [heq]
    exact Closed.port h id

/-- **A register write** on a port that is not opened. -/
theorem ahciPortWriteReg_closed (h : c.p.opened = false) (fuel : Nat) (M : Nat → Mem)
    (reg : AhciPortReg) (value : U32) :
    Ensures ClosedStop (Closed c) (ahciPortWriteReg fuel M c reg value) := by
  cases reg with
  | clb | clbu | fb | fbu | serr | sact => exact Closed.port h id
  | other => exact Closed.refl h
  | is | ie =>
    rw [ahciPortWriteReg, ahciPortIntrOn_closed]
    · exact Ensures.error (.inl rfl)
    · exact h
  | sctl =>
    rw [ahciPortWriteReg]
    have hset : Closed c { c with p := { c.p with sctl := value } } := Closed.port h id
    split
    · exact hset.trans (ahciPortReset_closed hset.closed)
    · exact hset
  | ci =>
    have hset : Closed c { c with p := { c.p with ci := c.p.ci ||| value } } := Closed.port h id
    exact (ahciHandlePort_closed hset.closed fuel M).mono fun t ht => hset.trans ht
  | cmd =>
    refine (ahciCmdWrite_closed h value).bind fun t ht => ?_
    exact (ahciHandlePort_closed ht.closed fuel M).mono fun u hu => ht.trans hu

end

end DeviceModel

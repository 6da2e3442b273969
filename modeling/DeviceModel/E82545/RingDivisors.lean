import DeviceModel.E82545.RingBounds
import DeviceModel.E82545.RxFrames

/-!
# The divisors of the ring arithmetic

Both rings compute modulo their size, which is 0 after a reset. Transmit enters its loop
only for a size of at least 4. Receive computes the room in its ring before any check, so
it relies on `RDLEN` being set when receive is turned on.
-/

namespace DeviceModel

/-! ## What is divided by -/

/-- The divisors of the descriptor loop of `e82545_transmit`, one for each step. -/
def e82545TxScanDivisors (env : TxEnv) (ring : Nat → E1000TxUdesc) (tail dsize : Nat) :
    (fuel head desc : Nat) → TxLocals → List Nat
  | 0, _, _, _ => []
  | fuel + 1, head, desc, l =>
    let dsc := ring head
    let dtype := dsc.dtype env.build
    if head = tail then []
    else if desc = 0 ∧ dtype = e1000TxdTypC then []
    else if desc ≠ 0 ∧ dtype ≠ l.ntype then []
    else
      let l := if desc = 0 then l.first env.build dsc else l
      let l := l.addBuffer env dsc
      if dsc.eop env.build then []
      else dsize :: e82545TxScanDivisors env ring tail dsize fuel ((head + 1) % dsize) (desc + 1) l

/-- The divisors from the `done:` label of `e82545_transmit` on: one for the head, and one
for each descriptor of `e82545_transmit_done`. -/
def e82545TxDoneDivisors (fuel ohead head dsize : Nat) : List Nat :=
  dsize :: (e82545TransmitDoneUses ((head + 1) % dsize) dsize fuel ohead).map fun _ => dsize

/-- The divisors of `e82545_transmit`. -/
def e82545TransmitDivisors (env : TxEnv) (fuel : Nat) (x : TxSide) (head tail dsize : Nat) :
    List Nat :=
  e82545TxScanDivisors env x.ring tail dsize fuel head 0 .start ++
    match e82545TxScan env x.txctx x.ring tail dsize fuel head 0 .start with
    | .ok (.context _) => e82545TxDoneDivisors fuel head head dsize
    | .ok (.packet dsc last _ l) =>
      if (e82545TransmitPacket env fuel x.txctx dsc l).isOk then
        e82545TxDoneDivisors fuel head last dsize
      else []
    | _ => []

/-- The divisors of the loop of `e82545_tx_run`. -/
def e82545TxRunLoopDivisors (env : TxEnv) (tail dsize fuel : Nat) :
    (n : Nat) → (lim : Nat) → (x : TxSide) → (head : Nat) → (tdwb : Bool) → List Nat
  | 0, _, _, _, _ => []
  | n + 1, lim, x, head, tdwb =>
    if lim = 0 then []
    else
      e82545TransmitDivisors env fuel x head tail dsize ++
        match e82545Transmit env fuel x head tail dsize tdwb with
        | .ok r =>
          if r.sent = 0 then []
          else e82545TxRunLoopDivisors env tail dsize fuel n (lim - r.sent) r.side r.rhead r.tdwb
        | .error _ => []

/-- The divisors of `e1000_poll`. -/
def e1000PollDivisors (b : Build) (fuel : Nat) (s : E1000) : List Nat :=
  if e82545TxWork s.sc then
    e82545TxRunLoopDivisors (s.txEnv b) s.sc.tx.escTDT.toNat s.sc.txSize fuel fuel
      (s.sc.txSize / 4) s.txSide s.sc.tx.escTDH.toNat false
  else []

/-- The divisors from the loop condition of `e82545_tap_callback` on: one for each buffer
up to the next `virtionet_read`, or the one at the `done:` label. -/
def e82545RxLoopDivisors (rctl : U32) (size : Nat) : NetIntr → List Nat
  | .reading l => List.replicate (rxMaxpktdesc rctl) l.size
  | _ => [size]

/-- The divisors of `e82545_tap_callback` up to its first `virtionet_read`. -/
def e82545TapCallbackDivisors (s : E1000) : List Nat :=
  if !s.sc.rx.escRxEnabled || s.sc.rx.escRxLoopback then []
  else if s.sc.rxSize = 0 then [0]
  else
    s.sc.rxSize ::
      if (rxLocals s.sc).left < rxMaxpktdesc s.sc.rx.escRCTL then []
      else
        e82545RxLoopDivisors s.sc.rx.escRCTL s.sc.rxSize
          (e82545RxLoop (rxEnter s) (rxLocals s.sc)).2

/-- The divisors of the rest of the loop body: one for each descriptor, the one of the
last one's `length`, and the one of `head`. -/
def e82545RxPacketDivisors (s : E1000) (l : RxLocals) (len : Nat) : List Nat :=
  if rxVlanDrops s.sc s.mem (l.vec.headD 0) then []
  else
    List.replicate (rxPacketDescs s.sc.rx.escRCTL len) l.size ++
      [e82545Bufsz s.sc.rx.escRCTL, l.size]

/-- The divisors after one call of `virtionet_read`, up to the next one. -/
def e82545RxReadDivisors (s : E1000) (l : RxLocals) : List Frame → List Nat
  | [] => [l.size]
  | f :: _ =>
    let len := (f.bytes.take (e82545Bufsz s.sc.rx.escRCTL)).length
    if rxMaxpktdesc s.sc.rx.escRCTL ≤ l.i + 1 then
      e82545RxPacketDivisors (rxStored s l f) l len ++
        e82545RxLoopDivisors s.sc.rx.escRCTL l.size (e82545RxPacket (rxStored s l f) l len).2
    else []

/-- No interrupt and no poll that runs in this state divides by zero: neither a poll, nor
an interrupt that starts, nor one that has come to a `virtionet_read`. -/
structure RingDefined (b : Build) (s : E1000Sys) : Prop where
  poll : s.netIntr = .idle → ∀ fuel, ∀ d ∈ e1000PollDivisors b fuel s.dev, d ≠ 0
  take : s.netIntr = .idle → ∀ d ∈ e82545TapCallbackDivisors s.dev, d ≠ 0
  rx : ∀ l, s.netIntr = .reading l → ∀ d ∈ e82545RxReadDivisors s.dev l s.waiting, d ≠ 0

/-! ## Transmit -/

section Transmit

variable {env : TxEnv} {tail dsize : Nat}

theorem e82545TxScanDivisors_eq {ring : Nat → E1000TxUdesc} :
    ∀ {fuel head desc : Nat} {l : TxLocals},
      ∀ d ∈ e82545TxScanDivisors env ring tail dsize fuel head desc l, d = dsize := by
  intro fuel
  induction fuel with
  | zero =>
    intro head desc l d hd
    cases hd
  | succ fuel ih =>
    intro head desc l d hd
    rw [e82545TxScanDivisors] at hd
    simp only [List.mem_ite_nil_left, List.mem_cons] at hd
    rcases hd.2.2.2.2 with heq | hd
    · exact heq
    · exact ih d hd

theorem e82545TxDoneDivisors_eq {fuel ohead head : Nat} :
    ∀ d ∈ e82545TxDoneDivisors fuel ohead head dsize, d = dsize := by
  intro d hd
  rcases List.mem_cons.1 hd with heq | hd
  · exact heq
  · obtain ⟨_, -, heq⟩ := List.mem_map.1 hd
    exact heq.symm

/-- `e82545_transmit` divides by the size that it is given. -/
theorem e82545TransmitDivisors_eq {fuel head : Nat} {x : TxSide} :
    ∀ d ∈ e82545TransmitDivisors env fuel x head tail dsize, d = dsize := by
  intro d hd
  rw [e82545TransmitDivisors] at hd
  rcases List.mem_append.1 hd with hd | hd
  · exact e82545TxScanDivisors_eq d hd
  · split at hd
    · exact e82545TxDoneDivisors_eq d hd
    · split at hd
      · exact e82545TxDoneDivisors_eq d hd
      · cases hd
    · cases hd

theorem e82545TxRunLoopDivisors_eq {fuel : Nat} :
    ∀ {n lim head : Nat} {x : TxSide} {tdwb : Bool},
      ∀ d ∈ e82545TxRunLoopDivisors env tail dsize fuel n lim x head tdwb, d = dsize := by
  intro n
  induction n with
  | zero =>
    intro lim head x tdwb d hd
    cases hd
  | succ n ih =>
    intro lim head x tdwb d hd
    rw [e82545TxRunLoopDivisors, List.mem_ite_nil_left] at hd
    rcases List.mem_append.1 hd.2 with hd | hd
    · exact e82545TransmitDivisors_eq d hd
    · split at hd
      · rw [List.mem_ite_nil_left] at hd
        exact ih d hd.2
      · cases hd

/-- A poll divides by no zero, in any state: its loop is not entered for an empty ring. -/
theorem e1000PollDivisors_ne_zero (b : Build) (fuel : Nat) (s : E1000) :
    ∀ d ∈ e1000PollDivisors b fuel s, d ≠ 0 := by
  intro d hd
  rw [e1000PollDivisors, List.mem_ite_nil_right] at hd
  have heq : d = s.sc.txSize := e82545TxRunLoopDivisors_eq d hd.2
  intro hzero
  have hempty : s.sc.txSize = 0 := heq.symm.trans hzero
  have hdivs := hd.2
  rw [hempty] at hdivs
  cases fuel with
  | zero => cases hdivs
  | succ fuel => cases hdivs

end Transmit

/-! ## Receive -/

theorem e82545RxLoopDivisors_eq {rctl : U32} {s : E1000} {l : RxLocals} {size : Nat}
    (hsize : l.size = size) :
    ∀ d ∈ e82545RxLoopDivisors rctl size (e82545RxLoop s l).2, d = size := by
  intro d hd
  rcases e82545RxLoop_cases s l with ⟨-, -, hloop⟩ | ⟨-, hloop⟩
  · rw [hloop] at hd
    exact (List.eq_of_mem_replicate hd).trans hsize
  · rw [hloop] at hd
    exact List.mem_singleton.1 hd

/-- A run that has entered its loop with a ring divides by no zero. -/
theorem e82545RxReadDivisors_ne_zero {s : E1000} {l : RxLocals} (hsize : l.size ≠ 0)
    (frames : List Frame) : ∀ d ∈ e82545RxReadDivisors s l frames, d ≠ 0 := by
  intro d hd
  cases frames with
  | nil =>
    rw [List.mem_singleton.1 hd]
    exact hsize
  | cons f rest =>
    rw [e82545RxReadDivisors, List.mem_ite_nil_right] at hd
    rcases List.mem_append.1 hd.2 with hd | hd
    · rw [e82545RxPacketDivisors, List.mem_ite_nil_left] at hd
      rcases List.mem_append.1 hd.2 with hd | hd
      · rw [List.eq_of_mem_replicate hd]
        exact hsize
      · obtain ⟨hmin, -⟩ := e82545Bufsz_bounds (rxStored s l f).sc.rx.escRCTL
        simp only [List.mem_cons, List.not_mem_nil, or_false] at hd
        rcases hd with rfl | rfl
        · omega
        · exact hsize
    · obtain ⟨t, l', heq, -, hsize'⟩ := e82545RxPacket_loop (rxStored s l f) l
        (f.bytes.take (e82545Bufsz s.sc.rx.escRCTL)).length
      rw [heq] at hd
      rw [e82545RxLoopDivisors_eq hsize' d hd]
      exact hsize

/-- Receive is enabled and not in loopback: the first test of `e82545_tap_callback`. -/
def rxOn (sc : E82545Softc) : Bool := sc.rx.escRxEnabled && !sc.rx.escRxLoopback

/-- An interrupt that starts divides by no zero if and only if receive is off or has a
ring. -/
theorem e82545TapCallbackDivisors_ne_zero_iff (s : E1000) :
    (∀ d ∈ e82545TapCallbackDivisors s, d ≠ 0) ↔ (rxOn s.sc = true → s.sc.rxSize ≠ 0) := by
  have hon : (!s.sc.rx.escRxEnabled || s.sc.rx.escRxLoopback) = !rxOn s.sc := by
    rw [rxOn, Bool.not_and, Bool.not_not]
  rw [e82545TapCallbackDivisors, hon]
  cases rxOn s.sc with
  | false => simp
  | true =>
    by_cases hsize : s.sc.rxSize = 0
    · simp [hsize]
    · refine iff_of_true ?_ fun _ => hsize
      intro d hd
      simp only [Bool.not_true, Bool.false_eq_true, if_false, if_neg hsize, List.mem_cons,
        List.mem_ite_nil_left] at hd
      rcases hd with rfl | ⟨-, hd⟩
      · exact hsize
      · rw [e82545RxLoopDivisors_eq rfl d hd]
        exact hsize

/-! ## Writes -/

/-- A write of `value` to `RCTL` turns receive on, and not in loopback. -/
def rxTurnsOn (sc : E82545Softc) (value : U32) : Bool :=
  value &&& e1000RctlEN == e1000RctlEN && !sc.rx.escRxEnabled &&
    value &&& e1000RctlLBM_TCVR == 0

/-- `RCTL` is saved with its loopback bits. -/
theorem rctl_loopback (value : U32) :
    value &&& ~~~0xF9204c01#32 &&& e1000RctlLBM_TCVR = value &&& e1000RctlLBM_TCVR := by
  rw [BitVec.and_assoc]
  congr 1

theorem e82545RxCtl_rxOn {fuel : Nat} {sc t : E82545Softc} {value : U32}
    (h : e82545RxCtl fuel sc value = .ok t) :
    t.rxSize = sc.rxSize ∧ (rxTurnsOn sc value = true → rxOn t = true) ∧
      (rxOn t = true → rxOn sc = true ∨ rxTurnsOn sc value = true) := by
  unfold e82545RxCtl at h
  rw [rxTurnsOn]
  cases hon : (value &&& e1000RctlEN) == e1000RctlEN <;> cases hen : sc.rx.escRxEnabled <;>
    simp only [hon, hen, bne_self_eq_false, Bool.bne_true, Bool.bne_false, Bool.not_false,
      if_true, if_false, Bool.false_eq_true, Bool.false_and, Bool.true_and, Bool.not_true] at h ⊢
  case false.true =>
    obtain ⟨u, hu, h⟩ := Except.bind_eq_ok.1 h
    obtain ⟨-, -, rfl⟩ := condWaitWhile_eq_ok.1 hu
    cases h
    exact ⟨rfl, False.elim, fun hrx => absurd hrx (by simp [rxOn])⟩
  case false.false =>
    cases h
    exact ⟨rfl, False.elim, fun hrx => absurd hrx (by simp [rxOn])⟩
  case true.true =>
    -- the loopback flag is set only where receive is turned on
    cases h
    refine ⟨rfl, False.elim, fun hrx => .inl ?_⟩
    rw [rxOn, hen]
    exact hrx
  case true.false =>
    have hrx : rxOn t = (value &&& e1000RctlLBM_TCVR == 0) := by
      cases h
      rw [← rctl_loopback value]
      simp only [rxOn, e82545RxEnable, e82545RxUpdateRdba, Bool.true_and, bne, Bool.not_not]
    cases h
    exact ⟨rfl, fun hlb => hrx.trans hlb, fun hon => .inr (hrx.symm.trans hon)⟩

/-- Only a write of `RCTL` turns receive on, and it leaves the ring's size alone. Where
receive stays on, no other write changes that size. -/
theorem e82545WriteReg_rxOn {fuel : Nat} {sc t : E82545Softc} {reg : E1000Reg} {value : U32}
    (h : e82545WriteReg fuel sc reg value = .ok t) (hon : rxOn t = true) :
    t.rxSize = sc.rxSize ∧
      (rxOn sc = true ∨ reg = .rctl ∧ rxTurnsOn sc value = true) := by
  cases reg with
  | ctrl | ctrlDup =>
    simp only [e82545WriteReg, e82545Devctl] at h
    split at h
    · obtain ⟨-, -, -, rfl⟩ := e82545Reset_eq_ok.1 h
      simp [rxOn, e82545ResetRegs, e82545ResetTx, e82545ResetRx, e82545ResetIntr] at hon
    · cases h
      exact ⟨rfl, .inl hon⟩
  | rctl =>
    obtain ⟨hsize, -, hsource⟩ := e82545RxCtl_rxOn h
    exact ⟨hsize, (hsource hon).imp_right fun hturns => ⟨rfl, hturns⟩⟩
  | tctl =>
    simp only [e82545WriteReg, e82545TxCtl] at h
    split at h
    · cases h
      exact ⟨rfl, .inl hon⟩
    · split at h
      · cases h
        exact ⟨rfl, .inl hon⟩
      · obtain ⟨u, hu, h⟩ := Except.bind_eq_ok.1 h
        obtain ⟨-, -, rfl⟩ := condWaitWhile_eq_ok.1 hu
        cases h
        exact ⟨rfl, .inl hon⟩
  | icr | itr | ics | ims | imc =>
    cases h
    obtain ⟨pi, intr, hframe⟩ := e82545IntrWrite_frame sc _ value
    rw [hframe] at hon ⊢
    exact ⟨rfl, .inl hon⟩
  | rdbal | tdbal | tdt =>
    simp only [e82545WriteReg] at h
    cases h
    split at hon <;> exact ⟨by split <;> rfl, .inl hon⟩
  | rdlen =>
    obtain ⟨u, hoff, h⟩ := Except.bind_eq_ok.1 h
    cases h
    have hoff' : sc.rx.escRxEnabled = false := by simpa using hoff
    simp [rxOn, hoff'] at hon
  | rdbah | ra _ =>
    obtain ⟨u, -, h⟩ := Except.bind_eq_ok.1 h
    cases h
    exact ⟨rfl, .inl hon⟩
  | _ =>
    cases h
    exact ⟨rfl, .inl hon⟩

/-! ## Runs -/

/-- A write does not turn receive on while its ring is empty. -/
def TurnsOnSized (s : E1000Sys) : E1000Event → Prop
  | .write baridx offset size value =>
    e82545BarRegister s.dev.sc baridx offset size = some .rctl →
      rxTurnsOn s.dev.sc (value.setWidth 32) = true → s.dev.sc.rxSize ≠ 0
  | _ => True

/-- Receive has a ring while it is on, and so has its loop. -/
structure SizedInv (s : E1000Sys) : Prop where
  on : rxOn s.dev.sc = true → s.dev.sc.rxSize ≠ 0
  reading : ∀ l, s.netIntr = .reading l → l.size ≠ 0

/-- The invariant is about the receive registers and the locals of the loop. -/
theorem SizedInv.congr {s t : E1000Sys} (h : SizedInv s) (hrx : t.dev.sc.rx = s.dev.sc.rx)
    (hat : t.netIntr = s.netIntr) : SizedInv t := by
  refine ⟨?_, ?_⟩
  · rw [rxOn, E82545Softc.rxSize, hrx]
    exact h.on
  · rw [hat]
    exact h.reading

theorem SizedInv.ringDefined {s : E1000Sys} (b : Build) (h : SizedInv s) : RingDefined b s where
  poll _ fuel := e1000PollDivisors_ne_zero b fuel s.dev
  take _ := (e82545TapCallbackDivisors_ne_zero_iff s.dev).2 h.on
  rx l hl := e82545RxReadDivisors_ne_zero (h.reading l hl) s.waiting

theorem sizedInv_initial {s : E1000Sys} (h : E1000Initial s) : SizedInv s := by
  obtain ⟨⟨ctx, hsc⟩, -, -, hidle, -, -⟩ := h
  refine ⟨?_, ?_⟩
  · intro hon
    rw [hsc] at hon
    cases hon
  · intro l hl
    cases hidle.symm.trans hl

/-- A write keeps the invariant if it meets the condition, and else the next interrupt
divides by zero. -/
theorem write_sized {s : E1000Sys} {sc : E82545Softc} {fuel baridx : Nat} {offset : U64}
    {size : Nat} {value : U64} (hs : SizedInv s) (hidle : s.netIntr = .idle)
    (hw : e82545Write fuel s.dev.sc baridx offset size value = .ok sc) :
    TurnsOnSized s (.write baridx offset size value) ↔
      SizedInv { s with dev := { s.dev with sc := sc }, handled := true } := by
  rcases e82545Write_cases hw with ⟨hnone, w, rfl⟩ | ⟨reg, u, hreg, hu, rfl⟩
  · refine iff_of_true ?_ (hs.congr rfl rfl)
    intro hrctl
    cases hnone.symm.trans hrctl
  · constructor
    · intro hok
      refine ⟨fun hon => ?_, fun l hl => by cases hidle.symm.trans hl⟩
      obtain ⟨hsize, hsource⟩ := e82545WriteReg_rxOn hu hon
      have hsized : s.dev.sc.rxSize ≠ 0 := by
        rcases hsource with hon' | ⟨rfl, hturns⟩
        · exact hs.on hon'
        · exact hok hreg hturns
      exact fun hzero => hsized (hsize.symm.trans hzero)
    · intro hinv hrctl hturns
      cases hreg.symm.trans hrctl
      obtain ⟨hsize, hon, -⟩ := e82545RxCtl_rxOn hu
      exact fun hzero => hinv.on (hon hturns) (hsize.trans hzero)

/-- An interrupt keeps the registers that the invariant is about. -/
theorem e82545RxLoop_sized {s : E1000Sys} {t : E1000} {l : RxLocals}
    (hon : rxOn t.sc = true → t.sc.rxSize ≠ 0) (hsize : l.size ≠ 0) :
    SizedInv { s with dev := (e82545RxLoop t l).1, netIntr := (e82545RxLoop t l).2 } := by
  rcases e82545RxLoop_cases t l with ⟨-, -, heq⟩ | ⟨-, heq⟩
  · rw [heq]
    refine ⟨hon, fun l' hl' => ?_⟩
    cases hl'
    exact hsize
  · obtain ⟨mtx, pi, intr, hframe⟩ := e82545RxDone_frame t.sc l
    rw [heq, hframe]
    exact ⟨hon, fun l' hl' => by cases hl'⟩

theorem rx_sized {s : E1000Sys} {l : RxLocals} {waiting : List Frame} (hs : SizedInv s)
    (hat : s.netIntr = .reading l) :
    SizedInv { s with
      dev := (e82545RxRead s.dev l s.waiting).1.1
      netIntr := (e82545RxRead s.dev l s.waiting).1.2
      waiting := waiting } := by
  have hsize := hs.reading l hat
  cases s.waiting with
  | nil =>
    obtain ⟨mtx, pi, intr, hframe⟩ := e82545RxDone_frame s.dev.sc l
    rw [e82545RxRead, hframe]
    exact ⟨hs.on, fun l' hl' => by cases hl'⟩
  | cons f rest =>
    rw [e82545RxRead_cons]
    split
    · obtain ⟨t, l', heq, hsc, hsize'⟩ := e82545RxPacket_loop (rxStored s.dev l f) l
        (f.bytes.take (e82545Bufsz s.dev.sc.rx.escRCTL)).length
      rw [heq]
      refine @e82545RxLoop_sized { s with waiting := waiting } t l' ?_ ?_
      · rw [hsc]
        exact hs.on
      · rw [hsize']
        exact hsize
    · refine ⟨hs.on, fun l' hl' => ?_⟩
      cases hl'
      exact hsize

/-- One event keeps the invariant if and only if it meets the condition. -/
theorem e1000Step_sized {b : Build} {s t : E1000Sys} {e : E1000Event} (hs : SizedInv s)
    (h : E1000Step b s e t) : TurnsOnSized s e ↔ SizedInv t := by
  cases h with
  | write fuel baridx offset size value hidle _ hw => exact write_sized hs hidle hw
  | read baridx offset size hidle _ hr =>
    obtain ⟨mtx, pi, intr, rfl⟩ := e82545Read_frame hr
    exact iff_of_true trivial (hs.congr rfl rfl)
  | poll fuel hidle hp => exact iff_of_true trivial (hs.congr (e1000Poll_txActive hp).2 rfl)
  | guest => exact iff_of_true trivial (hs.congr rfl rfl)
  | itr hidle _ =>
    obtain ⟨mtx, pi, intr, hframe⟩ := e82545ItrCallback_frame s.dev.sc
    refine iff_of_true trivial (hs.congr ?_ rfl)
    simp only [hframe]
  | arrive f => exact iff_of_true trivial (hs.congr rfl rfl)
  | take hidle _ ht =>
    refine iff_of_true trivial ?_
    rcases e82545TapCallback_cases ht with ⟨-, rfl, rfl⟩ | ⟨hopen, hloop⟩
    · exact ⟨hs.on, fun l hl => by cases hl⟩
    · obtain ⟨-, -, hsize, -⟩ := e82545RxOpen_iff.1 hopen
      have hinv := @e82545RxLoop_sized s (rxEnter s.dev) (rxLocals s.dev.sc) hs.on hsize
      rw [hloop] at hinv
      exact hinv
  | rx l hl => exact iff_of_true trivial (rx_sized hs hl)
  | ack hack =>
    refine iff_of_true trivial ⟨hs.on, fun l hl => ?_⟩
    cases hl

/-- **No zero divisor.** In every run in which no write turns receive on while its ring is
empty, no interrupt and no poll divides by zero; and any other event that can follow leads
to a state in which an interrupt does. -/
theorem ring_divisors_nonzero {b : Build} {s : E1000Sys}
    (h : Reaches (Guarded (E1000Step b) TurnsOnSized) E1000Initial s) :
    RingDefined b s ∧ ∀ e t, E1000Step b s e t → (RingDefined b t ↔ TurnsOnSized s e) := by
  have hs : SizedInv s := by
    refine h.invariant (fun _ => sizedInv_initial) ?_
    rintro s e t hs ⟨hstep, hok⟩
    exact (e1000Step_sized hs hstep).1 hok
  refine ⟨hs.ringDefined b, fun e t hstep => ⟨fun hdefined => ?_, fun hok => ?_⟩⟩
  · cases hstep with
    | write fuel baridx offset size value hidle _ hw =>
      refine (write_sized hs hidle hw).2 ⟨?_, fun l hl => by cases hidle.symm.trans hl⟩
      exact (e82545TapCallbackDivisors_ne_zero_iff _).1 (hdefined.take hidle)
    | _ => trivial
  · exact ((e1000Step_sized hs hstep).1 hok).ringDefined b

/-- With `RDLEN` written first, receive is on and has a ring of eight descriptors. -/
theorem ring_divisors_nonzero_sized :
    ∃ s : E1000Sys, rxOn s.dev.sc = true ∧ s.dev.sc.rxSize = 8 ∧ RingDefined .integer s := by
  have h₁ := @writePoll_reaches TurnsOnSized _ 0x2808 0x80 (.start e1000Start_initial) rfl rfl
    (by decide +kernel) (by decide +kernel) (fun hrctl => absurd hrctl (by decide)) trivial
  have h₂ := writePoll_reaches 0x100 2 h₁ rfl rfl
    (by decide +kernel) (by decide +kernel) (fun _ _ => by decide +kernel) trivial
  exact ⟨_, by decide +kernel, by decide +kernel, (ring_divisors_nonzero h₂).1⟩

/-- With `RCTL` written first, the interrupt of the first frame divides by zero. -/
theorem rx_divides_by_zero :
    ¬ ∀ s, Reaches (E1000Step .integer) E1000Initial s → RingDefined .integer s := by
  intro h
  have hrun := @writePoll_reaches (fun _ _ => True) _ 0x100 2
    (.start e1000Start_initial) rfl rfl (by decide +kernel) (by decide +kernel) trivial trivial
  have hdefined := h _ (hrun.of_guarded.next (.arrive oneByte))
  have hzero : e82545TapCallbackDivisors (arriveNet (writePoll e1000Start 0x100 2)).dev = [0] := by
    decide +kernel
  exact hdefined.take rfl 0 (hzero ▸ List.mem_singleton_self 0) rfl

end DeviceModel

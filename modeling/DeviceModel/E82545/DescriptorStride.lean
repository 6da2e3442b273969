import DeviceModel.Library.CLayout
import DeviceModel.E82545.RingDivisors
import DeviceModel.E82545.RxWakeup

/-!
# Ring sizes and descriptor strides

The loops count the descriptors of a ring as its length over 16, and index it as an array
of C objects. The two agree where an object takes 16 bytes. `struct e1000_context_desc`
starts with eight bytes `reserved` "align for capabilities" in both builds, so that the
union of the transmit descriptors takes 24 bytes in the integer build, and every structure
with a capability takes 32.
-/

namespace DeviceModel

/-! ## The descriptors as C objects -/

/-- `buffer_addr`: `uint64_t` or `void * __capability`. -/
def bufferAddrType : Build → CType
  | .integer => .scalar 8
  | .purecap => .scalar 16

/-- A union of a word with its fields. -/
def wordUnion (fields : List CType) : CType := .union [.scalar 4, .struct fields]

/-- `struct e1000_rx_desc`. -/
def e1000RxDescType (b : Build) : CType :=
  .struct [bufferAddrType b, .scalar 2, .scalar 2, .scalar 1, .scalar 1, .scalar 2]

/-- `struct e1000_tx_desc`. -/
def e1000TxDescType (b : Build) : CType :=
  .struct [bufferAddrType b, wordUnion [.scalar 2, .scalar 1, .scalar 1],
    wordUnion [.scalar 1, .scalar 1, .scalar 2]]

/-- `struct e1000_context_desc`, in which `reserved` stands in both builds. -/
def e1000ContextDescType : CType :=
  .struct [.scalar 8, wordUnion [.scalar 1, .scalar 1, .scalar 2],
    wordUnion [.scalar 1, .scalar 1, .scalar 2], .scalar 4,
    wordUnion [.scalar 1, .scalar 1, .scalar 2]]

/-- `struct e1000_data_desc`. -/
def e1000DataDescType (b : Build) : CType :=
  .struct [bufferAddrType b, wordUnion [.scalar 2, .scalar 1, .scalar 1],
    wordUnion [.scalar 1, .scalar 1, .scalar 2]]

/-- `union e1000_tx_udesc`. -/
def e1000TxUdescType (b : Build) : CType :=
  .union [e1000TxDescType b, e1000ContextDescType, e1000DataDescType b]

/-- A transmit descriptor is larger than 16 bytes in each build: its context member is. -/
theorem e1000TxUdescType_size (b : Build) : 16 < (e1000TxUdescType b).size := by
  have hcd : e1000ContextDescType.size = 24 := by decide
  have hle : e1000ContextDescType.size ≤ (e1000TxUdescType b).size := by
    apply CType.size_le_union
    simp
  omega

/-- A receive descriptor takes 16 bytes where it holds no capability. -/
theorem e1000RxDescType_size_le (b : Build) : (e1000RxDescType b).size ≤ 16 ↔ b = .integer := by
  cases b <;> decide

/-! ## The indices used -/

/-- The indices at which one call of `e82545_transmit` uses `esc_txdesc`. -/
def e82545TransmitUses (env : TxEnv) (fuel : Nat) (x : TxSide) (head tail dsize : Nat) :
    List Nat :=
  e82545TxScanUses env x.ring tail dsize fuel head 0 .start ++
    match e82545TxScan env x.txctx x.ring tail dsize fuel head 0 .start with
    | .ok (.context _) => e82545TransmitDoneUses ((head + 1) % dsize) dsize fuel head
    | .ok (.packet dsc last _ l) =>
      if (e82545TransmitPacket env fuel x.txctx dsc l).isOk then
        e82545TransmitDoneUses ((last + 1) % dsize) dsize fuel head
      else []
    | _ => []

/-- The indices at which the loop of `e82545_tx_run` uses `esc_txdesc`. -/
def e82545TxRunLoopUses (env : TxEnv) (tail dsize fuel : Nat) :
    (n : Nat) → (lim : Nat) → (x : TxSide) → (head : Nat) → (tdwb : Bool) → List Nat
  | 0, _, _, _, _ => []
  | n + 1, lim, x, head, tdwb =>
    if lim = 0 then []
    else
      e82545TransmitUses env fuel x head tail dsize ++
        match e82545Transmit env fuel x head tail dsize tdwb with
        | .ok r =>
          if r.sent = 0 then []
          else e82545TxRunLoopUses env tail dsize fuel n (lim - r.sent) r.side r.rhead r.tdwb
        | .error _ => []

/-- The indices at which `e1000_poll` uses `esc_txdesc`. -/
def e1000PollUses (b : Build) (fuel : Nat) (s : E1000) : List Nat :=
  if e82545TxWork s.sc then
    e82545TxRunLoopUses (s.txEnv b) s.sc.tx.escTDT.toNat s.sc.txSize fuel fuel
      (s.sc.txSize / 4) s.txSide s.sc.tx.escTDH.toNat false
  else []

/-- The indices of `n` descriptors from `head` on. -/
def rxUses (size head n : Nat) : List Nat := (List.range n).map fun i => (head + i) % size

/-- The indices at which the receive loop uses `esc_rxdesc` up to its next
`virtionet_read`. -/
def e82545RxLoopUses (rctl : U32) : NetIntr → List Nat
  | .reading l => rxUses l.size l.head (rxMaxpktdesc rctl)
  | _ => []

/-- The indices at which `e82545_tap_callback` uses `esc_rxdesc` up to its first
`virtionet_read`. -/
def e82545TapCallbackUses (s : E1000) : List Nat :=
  match e82545TapCallback s with
  | .ok (t, at') => e82545RxLoopUses t.sc.rx.escRCTL at'
  | .error _ => []

/-- The indices at which the rest of the loop body uses `esc_rxdesc`. -/
def e82545RxPacketUses (s : E1000) (l : RxLocals) (len : Nat) : List Nat :=
  if rxVlanDrops s.sc s.mem (l.vec.headD 0) then []
  else rxUses l.size l.head (rxPacketDescs s.sc.rx.escRCTL len)

/-- The indices used after one call of `virtionet_read`, up to the next one. -/
def e82545RxReadUses (s : E1000) (l : RxLocals) : List Frame → List Nat
  | [] => []
  | f :: _ =>
    let len := (f.bytes.take (e82545Bufsz s.sc.rx.escRCTL)).length
    if rxMaxpktdesc s.sc.rx.escRCTL ≤ l.i + 1 then
      e82545RxPacketUses (rxStored s l f) l len ++
        e82545RxLoopUses s.sc.rx.escRCTL (e82545RxPacket (rxStored s l f) l len).2
    else []

/-- Every index below the count of a ring that is used in this state addresses a structure
within the ring's bytes. -/
structure RingsAddressed (b : Build) (s : E1000Sys) : Prop where
  poll : s.netIntr = .idle → ∀ fuel, ∀ i ∈ e1000PollUses b fuel s.dev,
    i < s.dev.sc.tx.escTDLEN.toNat / 16 →
      ((e1000TxUdescType b).elem i).Within s.dev.sc.tx.escTDLEN.toNat
  take : s.netIntr = .idle → ∀ i ∈ e82545TapCallbackUses s.dev,
    i < s.dev.sc.rx.escRDLEN.toNat / 16 →
      ((e1000RxDescType b).elem i).Within s.dev.sc.rx.escRDLEN.toNat
  rx : ∀ l, s.netIntr = .reading l → ∀ i ∈ e82545RxReadUses s.dev l s.waiting,
    i < s.dev.sc.rx.escRDLEN.toNat / 16 →
      ((e1000RxDescType b).elem i).Within s.dev.sc.rx.escRDLEN.toNat

/-- What a write of `v` to `TDLEN` or `RDLEN` stores. -/
def ringLen (v : U32) : U32 := v &&& ~~~0xFFF0007F#32

/-! ## Writes to a device that is off -/

section Writes

variable {b : Build} {s : E1000Sys}

/-- A reachable state between two requests, with transmit off. -/
structure E1000Quiet (b : Build) (s : E1000Sys) : Prop where
  reaches : Reaches (E1000Step b) E1000Initial s
  idle : s.netIntr = .idle
  unhandled : s.handled = false
  txOff : s.dev.sc.tx.escTxEnabled = false

theorem e1000Quiet_start (b : Build) : E1000Quiet b e1000Start :=
  ⟨.start e1000Start_initial, rfl, rfl, rfl⟩

/-- The guest writes `v` to the register at `off`. -/
theorem E1000Quiet.write (hs : E1000Quiet b s) (off v : U32) {u : E82545Softc}
    (hw : e82545WriteRegister 1 s.dev.sc.lockMtx off v = .ok u) :
    ∃ t, Reaches (E1000Step b) E1000Initial t ∧ t.netIntr = .idle ∧ t.dev.sc.tx = u.tx ∧
      t.dev.sc.rx = u.rx := by
  have hbar : e82545Write 1 s.dev.sc 0 (off.setWidth 64) 4 (v.setWidth 64) = .ok u.unlockMtx := by
    apply Except.bind_eq_ok.2
    refine ⟨u, ?_, rfl⟩
    simpa [e82545WriteBar] using hw
  exact ⟨_, hs.reaches.next (.write 1 0 _ 4 _ hs.idle hs.unhandled hbar), hs.idle, rfl, rfl⟩

/-- The same with the poll after it, where the write leaves transmit off. -/
theorem E1000Quiet.writePoll (hs : E1000Quiet b s) (off v : U32) {u : E82545Softc}
    (hw : e82545WriteRegister 1 s.dev.sc.lockMtx off v = .ok u)
    (hoff : u.tx.escTxEnabled = false) :
    ∃ t, E1000Quiet b t ∧ t.dev.sc.tx = { u.tx with escTxActive := false } ∧
      t.dev.sc.rx = u.rx := by
  obtain ⟨t, ht, hidle, htx, hrx⟩ := hs.write off v hw
  have hskip : ¬ (t.dev.sc.lockMtx.tx.escTxEnabled = true ∧
      t.dev.sc.lockMtx.tx.escTDHr ≠ t.dev.sc.lockMtx.tx.escTDT) := by
    intro hon
    have hen : u.tx.escTxEnabled = true := htx ▸ hon.1
    simp [hoff] at hen
  have hpoll : e1000Poll b 1 t.dev =
      .ok { t.dev with sc := { t.dev.sc.lockMtx with tx.escTxActive := false }.unlockMtx } := by
    apply Except.bind_eq_ok.2
    exact ⟨_, if_neg hskip, rfl⟩
  refine ⟨_, ⟨ht.next (.poll 1 hidle hpoll), hidle, rfl, ?_⟩, ?_, hrx⟩
  · change t.dev.sc.tx.escTxEnabled = false
    rw [htx, hoff]
  · rw [← htx]
    rfl

/-- With transmit off, a write of `TCTL` that sets its enable bit turns it on. -/
theorem E1000Quiet.write_tctl (hs : E1000Quiet b s) :
    e82545WriteRegister 1 s.dev.sc.lockMtx 0x400 2 =
      .ok { e82545TxEnable (e82545TxUpdateTdba s.dev.sc.lockMtx) with tx.escTCTL := 2 } := by
  have hoff : s.dev.sc.lockMtx.tx.escTxEnabled = false := hs.txOff
  change e82545TxCtl 1 s.dev.sc.lockMtx 2 = _
  rw [e82545TxCtl, hoff]
  rfl

/-- With receive off, a write of `RCTL` that sets its enable bit alone turns it on. -/
theorem E1000Quiet.write_rctl (hs : E1000Quiet b s) (hoff : s.dev.sc.rx.escRxEnabled = false) :
    ∃ t, Reaches (E1000Step b) E1000Initial t ∧ t.netIntr = .idle ∧
      t.dev.sc.tx = s.dev.sc.tx ∧ t.dev.sc.rx.escRxEnabled = true ∧
      t.dev.sc.rx.escRxLoopback = false ∧ t.dev.sc.rx.escRCTL = 2 ∧
      t.dev.sc.rx.escRDLEN = s.dev.sc.rx.escRDLEN ∧ t.dev.sc.rx.escRDH = s.dev.sc.rx.escRDH ∧
      t.dev.sc.rx.escRDT = s.dev.sc.rx.escRDT := by
  have hoff' : s.dev.sc.lockMtx.rx.escRxEnabled = false := hoff
  have hctl : ∃ u, e82545WriteRegister 1 s.dev.sc.lockMtx 0x100 2 = .ok u ∧ u.tx = s.dev.sc.tx ∧
      u.rx.escRxEnabled = true ∧ u.rx.escRxLoopback = false ∧ u.rx.escRCTL = 2 ∧
      u.rx.escRDLEN = s.dev.sc.rx.escRDLEN ∧ u.rx.escRDH = s.dev.sc.rx.escRDH ∧
      u.rx.escRDT = s.dev.sc.rx.escRDT := by
    change ∃ u, e82545RxCtl 1 s.dev.sc.lockMtx 2 = .ok u ∧ _
    rw [e82545RxCtl, hoff']
    refine ⟨_, rfl, rfl, rfl, ?_, ?_, rfl, rfl, rfl⟩
    · simp [e82545RxEnable, e82545RxUpdateRdba, e1000RctlLBM_TCVR]
    · simp [e82545RxEnable, e82545RxUpdateRdba]
  obtain ⟨u, hw, hu⟩ := hctl
  obtain ⟨t, ht, hidle, htx, hrx⟩ := hs.write 0x100 2 hw
  rw [← htx, ← hrx] at hu
  exact ⟨t, ht, hidle, hu⟩

/-- The guest has programmed both lengths. -/
theorem lengths_programmed (b : Build) (v w : U32) :
    ∃ s, E1000Quiet b s ∧ s.dev.sc.tx.escTDLEN = ringLen v ∧ s.dev.sc.tx.escTDT = 0 ∧
      s.dev.sc.rx.escRDLEN = ringLen w ∧ s.dev.sc.rx.escRxEnabled = false := by
  obtain ⟨s, hs, htx, hrx⟩ := (e1000Quiet_start b).writePoll 0x2808 w rfl rfl
  obtain ⟨t, ht, htx', hrx'⟩ := hs.writePoll 0x3808 v rfl hs.txOff
  refine ⟨t, ht, ?_, ?_, ?_, ?_⟩
  · rw [htx']
    rfl
  · rw [htx']
    change s.dev.sc.tx.escTDT = 0
    rw [htx]
    rfl
  · rw [hrx']
    change s.dev.sc.rx.escRDLEN = ringLen w
    rw [hrx]
    rfl
  · rw [hrx']
    change s.dev.sc.rx.escRxEnabled = false
    rw [hrx]
    rfl

/-- A ring that is not empty has at least eight slots, as many as `uint16_t` counts. -/
theorem ringLen_slots {v : U32} (hv : ringLen v ≠ 0) :
    8 ≤ (ringLen v).toNat / 16 ∧ (ringLen v).toNat / 16 < 65536 := by
  obtain ⟨hdvd, hle⟩ := ringLen_toNat v
  have hpos : 0 < (ringLen v).toNat := Nat.pos_of_ne_zero fun h => hv (BitVec.eq_of_toNat_eq h)
  change 128 ∣ (ringLen v).toNat at hdvd
  change (ringLen v).toNat ≤ 1048448 at hle
  omega

/-- The last slot of a transmit ring is used, whatever the receive ring is. -/
theorem tx_last_used (b : Build) {v : U32} (w : U32) (hv : ringLen v ≠ 0) :
    ∃ s, Reaches (E1000Step b) E1000Initial s ∧ s.netIntr = .idle ∧
      s.dev.sc.tx.escTDLEN = ringLen v ∧ s.dev.sc.rx.escRDLEN = ringLen w ∧
      (ringLen v).toNat / 16 - 1 ∈ e1000PollUses b 1 s.dev := by
  obtain ⟨hmin, hmax⟩ := ringLen_slots hv
  obtain ⟨s, hs, htdlen, htdt, hrdlen, -⟩ := lengths_programmed b v w
  generalize hn : (ringLen v).toNat / 16 = n at hmin hmax ⊢
  obtain ⟨t, ht, htx, hrx⟩ := hs.writePoll 0x3810 (BitVec.ofNat 32 (n - 1)) rfl hs.txOff
  obtain ⟨u, hu, hidle, htx', hrx'⟩ := ht.write 0x400 2 ht.write_tctl
  have hfields : u.dev.sc.tx.escTDLEN = ringLen v ∧ u.dev.sc.tx.escTDT = 0 ∧
      u.dev.sc.tx.escTDH = (BitVec.ofNat 32 (n - 1)).setWidth 16 ∧
      u.dev.sc.tx.escTDHr = (BitVec.ofNat 32 (n - 1)).setWidth 16 ∧
      u.dev.sc.tx.escTxEnabled = true := by
    rw [htx', ← htdlen, ← htdt]
    change t.dev.sc.tx.escTDLEN = _ ∧ t.dev.sc.tx.escTDT = _ ∧ t.dev.sc.tx.escTDH = _ ∧
      t.dev.sc.tx.escTDHr = _ ∧ true = true
    rw [htx]
    exact ⟨rfl, rfl, rfl, rfl, rfl⟩
  obtain ⟨htdlen', htdt', htdh, htdhr, hon⟩ := hfields
  refine ⟨u, hu, hidle, htdlen', ?_, ?_⟩
  · rw [hrx', ← hrdlen]
    change t.dev.sc.rx.escRDLEN = _
    rw [hrx]
    rfl
  -- the head is the last slot and differs from the tail, which is 0
  have hhead : ((BitVec.ofNat 32 (n - 1)).setWidth 16 : U16).toNat = n - 1 := by
    rw [BitVec.toNat_setWidth, BitVec.toNat_ofNat]
    omega
  have hne : (BitVec.ofNat 32 (n - 1)).setWidth 16 ≠ (0 : U16) := by
    intro h
    rw [h] at hhead
    simp at hhead
    omega
  have hwork : e82545TxWork u.dev.sc = true := by simpa [e82545TxWork, hon, htdhr, htdt'] using hne
  have hsize : u.dev.sc.txSize = n := by
    rw [E82545Softc.txSize, htdlen', hn]
    exact Nat.mod_eq_of_lt hmax
  rw [e1000PollUses, if_pos hwork, hsize, htdh, htdt', hhead, e82545TxRunLoopUses,
    if_neg (by omega)]
  apply List.mem_append_left
  apply List.mem_append_left
  apply head_mem_e82545TxScanUses
  simp
  omega

/-- A ring that lacks one descriptor of being full, with its head at the last slot. -/
theorem rxLeft_last {n : Nat} (h : 2 ≤ n) (rdt : U16) (hrdt : rdt.toNat = n - 2) :
    rxLeft n rdt (n - 1) = n - 1 := by
  rw [rxLeft, hrdt, Int.tmod_eq_emod_of_nonneg (by omega)]
  have hcast : ((n - 2 : Nat) : Int) = n - 2 := by omega
  rw [hcast, Int.emod_eq_of_lt] <;> omega

/-- The last slot of a receive ring is used, whatever the transmit ring is. -/
theorem rx_last_used (b : Build) (v : U32) {w : U32} (hw : ringLen w ≠ 0) :
    ∃ s, Reaches (E1000Step b) E1000Initial s ∧ s.netIntr = .idle ∧
      s.dev.sc.tx.escTDLEN = ringLen v ∧ s.dev.sc.rx.escRDLEN = ringLen w ∧
      (ringLen w).toNat / 16 - 1 ∈ e82545TapCallbackUses s.dev := by
  obtain ⟨hmin, hmax⟩ := ringLen_slots hw
  obtain ⟨s, hs, htdlen, -, hrdlen, hoff⟩ := lengths_programmed b v w
  generalize hn : (ringLen w).toNat / 16 = n at hmin hmax ⊢
  obtain ⟨t, ht, htx, hrx⟩ := hs.writePoll 0x2810 (BitVec.ofNat 32 (n - 1)) rfl hs.txOff
  obtain ⟨u, hu, htx', hrx'⟩ := ht.writePoll 0x2818 (BitVec.ofNat 32 (n - 2)) rfl ht.txOff
  have hfields : u.dev.sc.rx.escRxEnabled = false ∧ u.dev.sc.rx.escRDLEN = ringLen w ∧
      u.dev.sc.rx.escRDH = (BitVec.ofNat 32 (n - 1)).setWidth 16 ∧
      u.dev.sc.rx.escRDT = (BitVec.ofNat 32 (n - 2)).setWidth 16 := by
    rw [hrx', ← hrdlen, ← hoff]
    change t.dev.sc.rx.escRxEnabled = _ ∧ t.dev.sc.rx.escRDLEN = _ ∧ t.dev.sc.rx.escRDH = _ ∧ _
    rw [hrx]
    exact ⟨rfl, rfl, rfl, rfl⟩
  obtain ⟨hoff', hrdlen', hrdh, hrdt⟩ := hfields
  obtain ⟨x, hx, hidle, htx'', hon, hloop, hrctl, hlen, hh, htl⟩ := hu.write_rctl hoff'
  rw [hrdlen'] at hlen
  refine ⟨x, hx, hidle, ?_, hlen, ?_⟩
  · rw [htx'', htx', ← htdlen]
    change t.dev.sc.tx.escTDLEN = _
    rw [htx]
    rfl
  have hhead : x.dev.sc.rx.escRDH.toNat = n - 1 := by
    rw [hh, hrdh, BitVec.toNat_setWidth, BitVec.toNat_ofNat]
    omega
  have htail : x.dev.sc.rx.escRDT.toNat = n - 2 := by
    rw [htl, hrdt, BitVec.toNat_setWidth, BitVec.toNat_ofNat]
    omega
  have hsize : x.dev.sc.rxSize = n := by rw [E82545Softc.rxSize, hlen, hn]
  have hleft := rxLeft_last (by omega) x.dev.sc.rx.escRDT htail
  have hdesc : rxMaxpktdesc 2 = 1 := by decide
  have hopen : ¬ (rxLocals x.dev.sc).left < rxMaxpktdesc x.dev.sc.rx.escRCTL := by
    change ¬ rxLeft x.dev.sc.rxSize x.dev.sc.rx.escRDT x.dev.sc.rx.escRDH.toNat < _
    rw [hsize, hhead, hrctl, hdesc, hleft]
    omega
  have hgo : 0 < (rxLocals x.dev.sc).lim ∧
      (rxMaxpktdesc (rxEnter x.dev).sc.rx.escRCTL : Int) ≤ (rxLocals x.dev.sc).left := by
    refine ⟨?_, Int.not_lt.1 hopen⟩
    change 0 < x.dev.sc.rxSize / 4
    rw [hsize]
    omega
  have htap : e82545TapCallback x.dev = .ok (rxEnter x.dev, .reading { rxLocals x.dev.sc with
      vec := rxVec (rxEnter x.dev) (rxLocals x.dev.sc).size (rxLocals x.dev.sc).head, i := 0 }) := by
    rw [e82545TapCallback, hon, hloop, hsize, if_neg (by decide), if_neg (by omega), if_neg hopen,
      e82545RxLoop, if_pos hgo]
  rw [e82545TapCallbackUses, htap]
  change n - 1 ∈ rxUses x.dev.sc.rxSize x.dev.sc.rx.escRDH.toNat
    (rxMaxpktdesc x.dev.sc.rx.escRCTL)
  rw [hsize, hhead, hrctl, hdesc]
  simp [rxUses]

end Writes

/-! ## Count and stride -/

/-- The last slot of a ring does not end within it where a descriptor takes more than
16 bytes. -/
theorem last_not_within {t : CType} {v : U32} (hv : ringLen v ≠ 0) (ht : 16 < t.size) :
    ¬ (t.elem ((ringLen v).toNat / 16 - 1)).Within (ringLen v).toNat := by
  obtain ⟨hdvd, -⟩ := ringLen_toNat v
  obtain ⟨hmin, -⟩ := ringLen_slots hv
  change 128 ∣ (ringLen v).toNat at hdvd
  rw [CType.elem_within, Nat.sub_add_cancel (by omega)]
  intro hle
  have hlt : (ringLen v).toNat / 16 * 16 < (ringLen v).toNat / 16 * t.size :=
    Nat.mul_lt_mul_of_pos_left ht (by omega)
  omega

/-- Every slot of a ring ends within it where a descriptor takes no more than 16 bytes. -/
theorem slots_within {t : CType} {v : U32} (ht : ringLen v = 0 ∨ t.size ≤ 16) :
    ∀ i < (ringLen v).toNat / 16, (t.elem i).Within (ringLen v).toNat := by
  intro i hi
  by_cases hv : ringLen v = 0
  · rw [hv] at hi
    cases hi
  · obtain ⟨hdvd, -⟩ := ringLen_toNat v
    have hne : (ringLen v).toNat ≠ 0 := fun h => hv (BitVec.eq_of_toNat_eq h)
    exact (CType.forall_elem_within_iff (Dvd.dvd.trans (by decide) hdvd) hne).2
      (ht.resolve_left hv) i hi

/-- **Count and stride.** The descriptors that the two loops use below the counts of their
rings lie in the rings' bytes, in every state with these lengths, if and only if there is no
transmit ring, and the build has no capabilities in its descriptors or there is no receive
ring. -/
theorem descriptor_stride_iff (b : Build) (v w : U32) :
    (∀ s, Reaches (E1000Step b) E1000Initial s → s.dev.sc.tx.escTDLEN = ringLen v →
        s.dev.sc.rx.escRDLEN = ringLen w → RingsAddressed b s) ↔
      ringLen v = 0 ∧ (b = .integer ∨ ringLen w = 0) := by
  constructor
  · intro h
    constructor
    · by_contra hv
      obtain ⟨hmin, -⟩ := ringLen_slots hv
      obtain ⟨s, hs, hidle, htdlen, hrdlen, huse⟩ := tx_last_used b w hv
      have hin := (h s hs htdlen hrdlen).poll hidle 1 _ huse
      rw [htdlen] at hin
      exact last_not_within hv (e1000TxUdescType_size b) (hin (by omega))
    · by_contra hno
      rw [not_or] at hno
      obtain ⟨hmin, -⟩ := ringLen_slots hno.2
      obtain ⟨s, hs, hidle, htdlen, hrdlen, huse⟩ := rx_last_used b v hno.2
      have hin := (h s hs htdlen hrdlen).take hidle _ huse
      rw [hrdlen] at hin
      have hlarge : 16 < (e1000RxDescType b).size :=
        Nat.lt_of_not_le fun hle => hno.1 ((e1000RxDescType_size_le b).1 hle)
      exact last_not_within hno.2 hlarge (hin (by omega))
  · rintro ⟨hv, hw⟩ s - htdlen hrdlen
    have htx := @slots_within (e1000TxUdescType b) v (.inl hv)
    have hrx := @slots_within (e1000RxDescType b) w
      (hw.symm.imp_right (e1000RxDescType_size_le b).2)
    rw [← htdlen] at htx
    rw [← hrdlen] at hrx
    exact ⟨fun _ _ i _ => htx i, fun _ i _ => hrx i, fun _ _ i _ => hrx i⟩

/-- With eight descriptors of 24 bytes the last one starts past the 128 bytes of the ring. -/
theorem descriptor_past_ring :
    ¬ ∀ (b : Build) (v w : U32) s, Reaches (E1000Step b) E1000Initial s →
      s.dev.sc.tx.escTDLEN = ringLen v → s.dev.sc.rx.escRDLEN = ringLen w →
        RingsAddressed b s := by
  intro h
  have hv : ringLen 0x80 ≠ 0 := by decide
  obtain ⟨s, hs, hidle, htdlen, hrdlen, huse⟩ := tx_last_used .integer 0 hv
  have hin := (h .integer 0x80 0 s hs htdlen hrdlen).poll hidle 1 _ huse
  rw [htdlen] at hin
  exact last_not_within hv (e1000TxUdescType_size .integer) (hin (by decide))

end DeviceModel

import DeviceModel.Library.Ring
import DeviceModel.E82545.RxWakeup

/-!
# Received packets in the ring

For each packet `e82545_tap_callback` writes the descriptors that it takes: a full buffer
in each but the last, and what is left over in the last. It looks for room before the
read, for as many descriptors as the longest packet may take; how many a packet takes is
only known after its length has been padded and has grown by the CRC.
-/

namespace DeviceModel

/-! ## The descriptors of one packet -/

def e1000RxdStatDD : U8 := 0x01#8
def e1000RxdStatEOP : U8 := 0x02#8

theorem e82545Bufsz_bounds (rctl : U32) : 256 ≤ e82545Bufsz rctl ∧ e82545Bufsz rctl ≤ 16384 := by
  rw [e82545Bufsz]
  split <;> decide

section Update

variable {ring : Nat → E1000RxDesc} {size head bufsz len n : Nat}

/-- What `e82545_tap_callback` writes to the descriptor `k` of a packet. -/
theorem rxUpdate_ringPos {k : Nat} (hroom : n ≤ size) (hk : k < n) :
    rxUpdate ring size head bufsz len n (ringPos size head k) =
      { ring (ringPos size head k) with
        length := BitVec.ofNat 16 (if k + 1 = n then len % bufsz else bufsz)
        csum := 0, errors := 0, special := 0, status := if k + 1 = n then 0x87 else 0x01 } := by
  have hinner := fun x => @foldl_update_window size head _ (fun d : E1000RxDesc =>
    { d with length := BitVec.ofNat 16 bufsz, csum := 0, errors := 0, special := 0, status := 0x01 })
    ring x (n - 1) (by omega)
  have hlast : ¬ inWindow size head 0 (n - 1) (ringPos size head (n - 1)) :=
    not_inWindow_ringPos (by omega) (by omega) (.inr (Nat.le_refl _))
  simp only [ringPos] at hinner hlast
  by_cases hend : k + 1 = n
  · obtain rfl : k = n - 1 := by omega
    rw [rxUpdate, if_pos hend, if_pos hend]
    dsimp only
    rw [ringPos, Function.update_self, hinner, if_neg hlast]
  · have hne : ringPos size head k ≠ ringPos size head (n - 1) := by
      intro heq
      rw [ringPos_inj (by omega) (by omega)] at heq
      omega
    have hin : inWindow size head 0 (n - 1) (ringPos size head k) :=
      ⟨k, Nat.zero_le k, by omega, rfl⟩
    rw [rxUpdate, if_neg hend, if_neg hend]
    dsimp only
    simp only [ringPos] at hne hin ⊢
    rw [Function.update_of_ne hne, hinner, if_pos hin]

end Update

/-- The `n` descriptors from `head` on account for a frame of `len` bytes in buffers of
`bufsz` bytes. -/
structure RxAccounts (ring : Nat → E1000RxDesc) (size head bufsz len n : Nat) : Prop where
  done : ∀ k < n, (ring (ringPos size head k)).status &&& e1000RxdStatDD ≠ 0
  total : ((List.range n).map fun k => (ring (ringPos size head k)).length.toNat).sum = len
  bounds : ∀ k < n, 1 ≤ (ring (ringPos size head k)).length.toNat ∧
    (ring (ringPos size head k)).length.toNat ≤ bufsz
  last : ∀ k < n, ((ring (ringPos size head k)).status &&& e1000RxdStatEOP ≠ 0 ↔ k + 1 = n)

/-- The descriptors of a packet account for it unless it fills its last buffer. -/
theorem rxUpdate_accounts {ring : Nat → E1000RxDesc} {size head bufsz len : Nat}
    (hbuf : 0 < bufsz) (hmax : bufsz < 65536) (hlen : 1 ≤ len)
    (hroom : (len + bufsz - 1) / bufsz ≤ size) :
    RxAccounts (rxUpdate ring size head bufsz len ((len + bufsz - 1) / bufsz)) size head bufsz len
        ((len + bufsz - 1) / bufsz) ↔
      ¬ bufsz ∣ len := by
  have hpos : 0 < (len + bufsz - 1) / bufsz := Nat.div_pos (by omega) hbuf
  obtain ⟨m, hm⟩ : ∃ m, (len + bufsz - 1) / bufsz = m + 1 := Nat.exists_eq_add_of_lt hpos |>.imp
    fun m h => by omega
  rw [hm] at hroom ⊢
  have hrem := Nat.mod_lt len hbuf
  have hsplit := Nat.div_add_mod len bufsz
  -- the lengths as the loop writes them
  have hlengths : ∀ k < m + 1, (rxUpdate ring size head bufsz len (m + 1)
      (ringPos size head k)).length.toNat = if k = m then len % bufsz else bufsz := by
    intro k hk
    rw [rxUpdate_ringPos hroom hk]
    simp only [Nat.add_right_cancel_iff]
    split
    · exact Nat.mod_eq_of_lt (by omega)
    · exact Nat.mod_eq_of_lt hmax
  have hsum : ((List.range (m + 1)).map fun k => (rxUpdate ring size head bufsz len (m + 1)
      (ringPos size head k)).length.toNat).sum = m * bufsz + len % bufsz := by
    have hinner : (List.range m).map (fun k => (rxUpdate ring size head bufsz len (m + 1)
        (ringPos size head k)).length.toNat) = (List.range m).map fun _ => bufsz := by
      apply List.map_congr_left
      intro k hk
      rw [List.mem_range] at hk
      rw [hlengths k (by omega), if_neg (by omega)]
    rw [List.range_succ, List.map_append, List.sum_append, hinner]
    simp [hlengths]
  constructor
  · intro h hdvd
    have hone := (h.bounds m (Nat.lt_succ_self m)).1
    rw [hlengths m (Nat.lt_succ_self m), if_pos rfl, Nat.mod_eq_zero_of_dvd hdvd] at hone
    omega
  · intro hdvd
    have hpos : 0 < len % bufsz := by
      rw [Nat.pos_iff_ne_zero]
      exact fun hzero => hdvd (Nat.dvd_of_mod_eq_zero hzero)
    have hcount : m = len / bufsz := by
      have hdiv : (len + bufsz - 1) / bufsz = (len % bufsz + bufsz - 1) / bufsz + len / bufsz := by
        have hadd : len + bufsz - 1 = (len % bufsz + bufsz - 1) + bufsz * (len / bufsz) := by omega
        rw [hadd, Nat.add_mul_div_left _ _ hbuf]
      have hone : (len % bufsz + bufsz - 1) / bufsz = 1 := by
        apply Nat.div_eq_of_lt_le <;> omega
      omega
    refine ⟨fun k hk => ?_, ?_, fun k hk => ?_, fun k hk => ?_⟩
    · rw [rxUpdate_ringPos hroom hk]
      dsimp only
      split <;> decide
    · rw [hsum, hcount, Nat.mul_comm]
      exact hsplit
    · rw [hlengths k hk]
      split <;> omega
    · rw [rxUpdate_ringPos hroom hk]
      dsimp only
      split
      · next hend => exact iff_of_true (by decide) hend
      · next hend => exact iff_of_false (by decide) hend

theorem e82545RxLoop_rxRing (s : E1000) (l : RxLocals) :
    (e82545RxLoop s l).1.rxRing = s.rxRing := by
  rcases e82545RxLoop_cases s l with ⟨-, -, h⟩ | ⟨-, h⟩ <;> rw [h]

/-- A packet that the filter lets through is in the ring. -/
theorem e82545RxPacket_rxRing {s : E1000} {l : RxLocals} {len : Nat}
    (h : rxVlanDrops s.sc s.mem (l.vec.headD 0) = false) :
    (e82545RxPacket s l len).1.rxRing =
      rxUpdate s.rxRing l.size l.head (e82545Bufsz s.sc.rx.escRCTL) (rxPacketLen s.sc.rx.escRCTL len)
        (rxPacketDescs s.sc.rx.escRCTL len) := by
  rw [e82545RxPacket]
  simp only [h, Bool.false_eq_true, if_false]
  exact e82545RxLoop_rxRing _ _

/-- **Receive descriptors** account for a packet if and only if its length, padded and with
the CRC, is not a multiple of the buffer size. -/
theorem rx_descriptors_account_iff {s : E1000} {l : RxLocals} {len : Nat}
    (hpass : rxVlanDrops s.sc s.mem (l.vec.headD 0) = false)
    (hroom : rxPacketDescs s.sc.rx.escRCTL len ≤ l.size) :
    RxAccounts (e82545RxPacket s l len).1.rxRing l.size l.head (e82545Bufsz s.sc.rx.escRCTL)
        (rxPacketLen s.sc.rx.escRCTL len) (rxPacketDescs s.sc.rx.escRCTL len) ↔
      ¬ e82545Bufsz s.sc.rx.escRCTL ∣ rxPacketLen s.sc.rx.escRCTL len := by
  obtain ⟨hmin, hmax⟩ := e82545Bufsz_bounds s.sc.rx.escRCTL
  have hlen : 1 ≤ rxPacketLen s.sc.rx.escRCTL len := by
    rw [rxPacketLen]
    split <;> split <;> omega
  rw [e82545RxPacket_rxRing hpass, rxPacketDescs]
  exact rxUpdate_accounts (by omega) (by omega) hlen hroom

/-- A device that receives into a ring of eight descriptors, up to `rdt`. -/
def rxDevice (rctl : U32) (rdt : U16) : E1000 :=
  { e1000Start.dev with
    sc := { e82545Init ⟨0⟩ with
      rx := { (e82545Init ⟨0⟩).rx with
        escRxEnabled := true, escRCTL := rctl, escRDLEN := 0x80, escRDH := 0, escRDT := rdt } } }

/-- A packet of 700 bytes in buffers of 256 bytes, with the CRC: three descriptors, the last of
them with 192 bytes. -/
theorem rx_descriptors_account_iff_three :
    rxPacketDescs (rxDevice 0x30002 7).sc.rx.escRCTL 700 = 3 ∧
    RxAccounts (e82545RxPacket (rxDevice 0x30002 7) (rxLocals (rxDevice 0x30002 7).sc) 700).1.rxRing
      (rxLocals (rxDevice 0x30002 7).sc).size (rxLocals (rxDevice 0x30002 7).sc).head
      (e82545Bufsz (rxDevice 0x30002 7).sc.rx.escRCTL)
      (rxPacketLen (rxDevice 0x30002 7).sc.rx.escRCTL 700)
      (rxPacketDescs (rxDevice 0x30002 7).sc.rx.escRCTL 700) :=
  ⟨by decide, (@rx_descriptors_account_iff (rxDevice 0x30002 7)
    (rxLocals (rxDevice 0x30002 7).sc) 700 (by decide) (by decide)).2 (by decide)⟩

/-- The last descriptor of a packet of 2048 bytes has the length 0. -/
theorem rx_last_length_zero :
    ¬ ∀ (s : E1000) (l : RxLocals) (len : Nat), rxVlanDrops s.sc s.mem (l.vec.headD 0) = false →
      rxPacketDescs s.sc.rx.escRCTL len ≤ l.size →
      RxAccounts (e82545RxPacket s l len).1.rxRing l.size l.head (e82545Bufsz s.sc.rx.escRCTL)
        (rxPacketLen s.sc.rx.escRCTL len) (rxPacketDescs s.sc.rx.escRCTL len) := by
  intro h
  have haccounts := h (rxDevice 2 4) (rxLocals (rxDevice 2 4).sc) 2044 (by decide) (by decide)
  exact absurd (haccounts.bounds 0 (by decide)).1 (by decide)

/-! ## The loop over packets -/

/-- One return of `dm_process_rx`: the length, and memory with the packet in it. -/
structure RxInput where
  len : Nat
  mem : Mem

/-- The receive loop, for what `dm_process_rx` returns each time; after that it returns 0. -/
def rxPackets : E1000 → RxLocals → List RxInput → E1000 × NetIntr
  | s, l, [] => ({ s with sc := e82545RxDone s.sc l }, .ack)
  | s, l, r :: rs =>
    match e82545RxPacket { s with mem := r.mem } l r.len with
    | (t, .reading l') => rxPackets t l' rs
    | (t, at') => (t, at')

/-- The descriptors that a packet takes. -/
def rxTakes (s : E1000) (l : RxLocals) (r : RxInput) : Nat :=
  if rxVlanDrops s.sc r.mem (l.vec.headD 0) then 0 else rxPacketDescs s.sc.rx.escRCTL r.len

/-- One turn of the loop: the descriptors that it writes, and `head` and `left` after it. -/
structure RxTurn where
  writes : List Nat
  head : Nat
  left : Int

def rxTurn (s : E1000) (l : RxLocals) (r : RxInput) : RxTurn where
  writes := (List.range (rxTakes s l r)).map fun i => (l.head + i) % l.size
  head := if rxTakes s l r = 0 then l.head else (l.head + rxTakes s l r) % l.size
  left := l.left - rxTakes s l r

/-- The turns of the loop. -/
def rxTurns : E1000 → RxLocals → List RxInput → List RxTurn
  | _, _, [] => []
  | s, l, r :: rs =>
    rxTurn s l r ::
      match e82545RxPacket { s with mem := r.mem } l r.len with
      | (t, .reading l') => rxTurns t l' rs
      | _ => []

/-! ### One turn -/

theorem rxPacketDescs_pos (rctl : U32) (len : Nat) : 0 < rxPacketDescs rctl len := by
  obtain ⟨hmin, -⟩ := e82545Bufsz_bounds rctl
  apply Nat.div_pos
  · rw [rxPacketLen]
    split <;> split <;> omega
  · omega

theorem rxUpdate_bufferAddr {ring : Nat → E1000RxDesc} {size head bufsz len n : Nat} (x : Nat) :
    (rxUpdate ring size head bufsz len n x).bufferAddr = (ring x).bufferAddr := by
  have hupdate : ∀ (r : Nat → E1000RxDesc) (y : Nat) (d : E1000RxDesc),
      d.bufferAddr = (r y).bufferAddr → (Function.update r y d x).bufferAddr = (r x).bufferAddr := by
    intro r y d hd
    by_cases hx : x = y
    · rw [hx, Function.update_self, hd]
    · rw [Function.update_of_ne hx]
  have hinner : ∀ (is : List Nat) (r : Nat → E1000RxDesc),
      (is.foldl (fun r i => Function.update r ((head + i) % size)
        { r ((head + i) % size) with
          length := BitVec.ofNat 16 bufsz, csum := 0, errors := 0, special := 0, status := 0x01 })
        r x).bufferAddr = (r x).bufferAddr := by
    intro is
    induction is with
    | nil => intro r; rfl
    | cons i is ih =>
      intro r
      rw [List.foldl_cons, ih]
      exact hupdate _ _ _ rfl
  rw [rxUpdate]
  refine (hupdate _ _ _ ?_).trans (hinner _ _)
  rfl

/-- What a packet does to the loop. -/
theorem e82545RxPacket_turn (s : E1000) (l : RxLocals) (r : RxInput) :
    ∃ t l', e82545RxPacket { s with mem := r.mem } l r.len = e82545RxLoop t l' ∧ t.sc = s.sc ∧
      (∀ i, (t.rxRing i).bufferAddr = (s.rxRing i).bufferAddr) ∧ l'.size = l.size ∧
      l'.head = (rxTurn s l r).head ∧ l'.left = (rxTurn s l r).left ∧
      l'.lim = l.lim - rxTakes s l r := by
  rw [rxTurn]
  dsimp only
  cases hdrop : rxVlanDrops s.sc r.mem (l.vec.headD 0) with
  | true =>
    have hnone : rxTakes s l r = 0 := if_pos hdrop
    refine ⟨{ s with mem := r.mem }, l, if_pos hdrop, rfl, fun _ => rfl, rfl, ?_⟩
    rw [hnone]
    simp
  | false =>
    have hpass : ¬ rxVlanDrops s.sc r.mem (l.vec.headD 0) = true := by
      rw [hdrop]
      exact Bool.false_ne_true
    have hsome : rxTakes s l r = rxPacketDescs s.sc.rx.escRCTL r.len := if_neg hpass
    have hpos := rxPacketDescs_pos s.sc.rx.escRCTL r.len
    have hne : ¬ rxTakes s l r = 0 := by omega
    refine ⟨_, _, if_neg hpass, rfl, fun i => rxUpdate_bufferAddr i, rfl, ?_, ?_, ?_⟩
    · rw [if_neg hne, hsome]
    · rw [hsome]
    · rw [hsome]

/-- Past a packet the loop goes on, with the same registers and the same ring. -/
theorem e82545RxPacket_loop (s : E1000) (l : RxLocals) (len : Nat) :
    ∃ t l', e82545RxPacket s l len = e82545RxLoop t l' ∧ t.sc = s.sc ∧ l'.size = l.size := by
  obtain ⟨t, l', heq, hsc, -, hsize, -⟩ := e82545RxPacket_turn s l ⟨len, s.mem⟩
  exact ⟨t, l', heq, hsc, hsize⟩

/-- The loop ends when the frames do. -/
theorem rxPackets_ends : ∀ (rs : List RxInput) (s : E1000) (l : RxLocals),
    (rxPackets s l rs).2 = .ack := by
  intro rs
  induction rs with
  | nil => intro s l; rfl
  | cons r rs ih =>
    intro s l
    obtain ⟨t, l', heq, -⟩ := e82545RxPacket_turn s l r
    rw [rxPackets, heq]
    rcases e82545RxLoop_cases t l' with ⟨-, -, h⟩ | ⟨-, h⟩
    · rw [h]
      exact ih _ _
    · rw [h]

/-! ### The room that is left -/

/-- The free descriptors before the run. -/
def rxFree (s : E1000) : Nat := ringDist s.sc.rxSize s.sc.rx.escRDH.toNat s.sc.rx.escRDT.toNat

/-- Whether the filter drops the packet that is read after `sum` descriptors. -/
def rxDropsAt (s : E1000) (sum : Nat) (r : RxInput) : Bool :=
  rxVlanDrops s.sc r.mem (paddrGuest2host s.sc.escCtx
    (s.rxRing (ringPos s.sc.rxSize s.sc.rx.escRDH.toNat sum)).bufferAddr)

/-- The descriptors that it takes. -/
def rxTakesAt (s : E1000) (sum : Nat) (r : RxInput) : Nat :=
  if rxDropsAt s sum r then 0 else rxPacketDescs s.sc.rx.escRCTL r.len

/-- The packet, with its CRC, is longer than the vectors that it was read into. -/
def RxSpills (s : E1000) (sum : Nat) (r : RxInput) : Prop :=
  rxDropsAt s sum r = false ∧ s.sc.rx.escRCTL &&& e1000RctlSECRC = 0 ∧
    rxMaxpktdesc s.sc.rx.escRCTL * e82545Bufsz s.sc.rx.escRCTL < r.len + 4

/-- No packet that spills is read while there is just room for the longest packet. -/
def RxRoomKept (s : E1000) : (sum : Nat) → List RxInput → Prop
  | _, [] => True
  | sum, r :: rs =>
    sum < s.sc.rxSize / 4 → sum + rxMaxpktdesc s.sc.rx.escRCTL ≤ rxFree s →
      ¬ (sum + rxMaxpktdesc s.sc.rx.escRCTL = rxFree s ∧ RxSpills s sum r) ∧
        RxRoomKept s (sum + rxTakesAt s sum r) rs

/-- The loop of a run that has started in `s`, at a read after `sum` descriptors. -/
structure RxAt (s t : E1000) (l : RxLocals) (sum : Nat) : Prop where
  sc : t.sc = (rxEnter s).sc
  addr : ∀ i, (t.rxRing i).bufferAddr = (s.rxRing i).bufferAddr
  size : l.size = s.sc.rxSize
  head : l.head = ringPos s.sc.rxSize s.sc.rx.escRDH.toNat sum
  left : l.left = (rxFree s : Int) - sum
  lim : l.lim = s.sc.rxSize / 4 - sum
  lim_pos : sum < s.sc.rxSize / 4
  room : sum + rxMaxpktdesc s.sc.rx.escRCTL ≤ rxFree s
  vec : l.vec = rxVec t l.size l.head

theorem rxMaxpktdesc_pos (rctl : U32) : 0 < rxMaxpktdesc rctl := by
  obtain ⟨hmin, -⟩ := e82545Bufsz_bounds rctl
  apply Nat.div_pos
  · rw [rxMaxpktsz]
    split <;> omega
  · omega

/-- The first buffer is the head's. -/
theorem rxVec_headD {s : E1000} {size head : Nat} :
    (rxVec s size head).headD 0 =
      paddrGuest2host s.sc.escCtx (s.rxRing (head % size)).bufferAddr := by
  obtain ⟨m, hm⟩ := Nat.exists_eq_add_of_lt (rxMaxpktdesc_pos s.sc.rx.escRCTL)
  rw [rxVec, hm, Nat.zero_add, List.range_succ_eq_map]
  rfl

theorem RxAt.takes {s t : E1000} {l : RxLocals} {sum : Nat} (h : RxAt s t l sum) (r : RxInput) :
    rxTakes t l r = rxTakesAt s sum r := by
  have hhead : l.head % l.size = l.head := by
    rw [h.head, h.size, ringPos, Nat.mod_mod]
  rw [rxTakes, rxTakesAt, rxDropsAt, h.vec, rxVec_headD, hhead, h.addr, h.head, h.sc]
  rfl

/-- A packet takes at most one descriptor more than was looked for. -/
theorem rxPacketDescs_le_iff {rctl : U32} {len m : Nat} (hm : 0 < m)
    (hlen : len ≤ m * e82545Bufsz rctl) :
    rxPacketDescs rctl len ≤ m + 1 ∧
      (rxPacketDescs rctl len ≤ m ↔
        ¬ (rctl &&& e1000RctlSECRC = 0 ∧ m * e82545Bufsz rctl < len + 4)) := by
  obtain ⟨hmin, -⟩ := e82545Bufsz_bounds rctl
  have hbuf : 0 < e82545Bufsz rctl := by omega
  have hone : e82545Bufsz rctl ≤ m * e82545Bufsz rctl := Nat.le_mul_of_pos_left _ hm
  have hsucc : e82545Bufsz rctl * (m + 1) = m * e82545Bufsz rctl + e82545Bufsz rctl := by
    rw [Nat.mul_comm, Nat.succ_mul]
  rw [rxPacketDescs, Nat.div_le_iff_le_mul_add_pred hbuf, Nat.div_le_iff_le_mul_add_pred hbuf, hsucc,
    Nat.mul_comm _ m, rxPacketLen]
  split
  · next hcrc =>
    simp only [hcrc, true_and]
    split <;> omega
  · next hcrc =>
    simp only [hcrc, false_and, not_false_eq_true, iff_true]
    split <;> omega

/-- A turn stays in the ring: it writes descriptors that were free before the run, and
`left` is how far it is from `head` to the tail. -/
def TurnStays (s : E1000) (turn : RxTurn) : Prop :=
  (∀ i ∈ turn.writes, inWindow s.sc.rxSize s.sc.rx.escRDH.toNat 0 (rxFree s) i) ∧
    turn.left = ringDist s.sc.rxSize turn.head s.sc.rx.escRDT.toNat

namespace RxAt

variable {s t : E1000} {l : RxLocals} {sum : Nat}

theorem turn_head (h : RxAt s t l sum) (r : RxInput) :
    (rxTurn t l r).head = ringPos s.sc.rxSize s.sc.rx.escRDH.toNat (sum + rxTakesAt s sum r) := by
  rw [rxTurn]
  dsimp only
  rw [h.takes, h.size, h.head, ringPos, ringPos, Nat.mod_add_mod, Nat.add_assoc]
  split
  · next hnone => rw [hnone, Nat.add_zero]
  · rfl

theorem turn_left (h : RxAt s t l sum) (r : RxInput) :
    (rxTurn t l r).left = (rxFree s : Int) - (sum + rxTakesAt s sum r : Nat) := by
  rw [rxTurn]
  dsimp only
  rw [h.takes, h.left]
  omega

/-- A turn stays in the ring if it takes no more than was free. -/
theorem turn_iff (h : RxAt s t l sum) (r : RxInput)
    (hhead : s.sc.rx.escRDH.toNat < s.sc.rxSize) (htail : s.sc.rx.escRDT.toNat < s.sc.rxSize) :
    TurnStays s (rxTurn t l r) ↔ sum + rxTakesAt s sum r ≤ rxFree s := by
  rw [TurnStays, h.turn_left, h.turn_head]
  constructor
  · rintro ⟨-, hleft⟩
    omega
  · intro hle
    refine ⟨fun i hi => ?_, ?_⟩
    · simp only [rxTurn, List.mem_map, List.mem_range, h.takes, h.size, h.head] at hi
      obtain ⟨k, hk, rfl⟩ := hi
      refine ⟨sum + k, Nat.zero_le _, by omega, ?_⟩
      rw [ringPos, ringPos, Nat.mod_add_mod, Nat.add_assoc]
    · rw [ringDist_ringPos hhead htail hle, rxFree]
      rw [rxFree] at hle
      omega

/-- It takes more where the packet spills and there was just room. -/
theorem takes_le_iff (h : RxAt s t l sum) {r : RxInput}
    (hlen : r.len ≤ rxMaxpktdesc s.sc.rx.escRCTL * e82545Bufsz s.sc.rx.escRCTL) :
    sum + rxTakesAt s sum r ≤ rxFree s ↔
      ¬ (sum + rxMaxpktdesc s.sc.rx.escRCTL = rxFree s ∧ RxSpills s sum r) := by
  have hroom := h.room
  obtain ⟨hone, hle⟩ := rxPacketDescs_le_iff (rxMaxpktdesc_pos s.sc.rx.escRCTL) hlen
  rw [rxTakesAt, RxSpills]
  cases hdrop : rxDropsAt s sum r with
  | true =>
    simp only [if_true, Bool.true_eq_false, false_and, and_false, not_false_eq_true, iff_true]
    omega
  | false =>
    simp only [Bool.false_eq_true, if_false, true_and]
    rcases Nat.lt_or_ge (rxMaxpktdesc s.sc.rx.escRCTL) (rxPacketDescs s.sc.rx.escRCTL r.len) with
      hmore | hfits
    · have hspill := mt hle.2 (by omega)
      rw [not_not] at hspill
      simp only [hspill, and_self, and_true]
      omega
    · have hno := hle.1 hfits
      simp only [hno, and_false, not_false_eq_true, iff_true]
      omega

/-- The loop goes on where the next packet has room, and ends otherwise. -/
theorem next (h : RxAt s t l sum) (r : RxInput) :
    (∃ t' l', e82545RxPacket { t with mem := r.mem } l r.len = (t', .reading l') ∧
      RxAt s t' l' (sum + rxTakesAt s sum r)) ∨
    (∃ t', e82545RxPacket { t with mem := r.mem } l r.len = (t', .ack) ∧
      ¬ (sum + rxTakesAt s sum r < s.sc.rxSize / 4 ∧
        sum + rxTakesAt s sum r + rxMaxpktdesc s.sc.rx.escRCTL ≤ rxFree s)) := by
  obtain ⟨t', l', heq, hsc, haddr, hsize, hhead, hleft, hlim⟩ := e82545RxPacket_turn t l r
  rw [h.turn_head] at hhead
  rw [h.turn_left] at hleft
  rw [h.takes, h.lim] at hlim
  have hrctl : t'.sc.rx.escRCTL = s.sc.rx.escRCTL := by rw [hsc, h.sc]; rfl
  rw [heq]
  rcases e82545RxLoop_cases t' l' with ⟨hgo, hroom, hloop⟩ | ⟨hend, hloop⟩
  · rw [hrctl] at hroom
    refine .inl ⟨_, _, hloop, hsc.trans h.sc, fun i => (haddr i).trans (h.addr i), hsize.trans h.size,
      hhead, hleft, ?_, by omega, by omega, rfl⟩
    dsimp only
    omega
  · rw [hrctl] at hend
    refine .inr ⟨_, hloop, fun hroom => hend ⟨by omega, by omega⟩⟩

/-- **The turns of the loop** all stay in the ring if and only if the room is kept. -/
theorem turns_iff (hhead : s.sc.rx.escRDH.toNat < s.sc.rxSize)
    (htail : s.sc.rx.escRDT.toNat < s.sc.rxSize) : ∀ {rs : List RxInput} {t : E1000} {l : RxLocals}
      {sum : Nat}, RxAt s t l sum →
      (∀ r ∈ rs, r.len ≤ rxMaxpktdesc s.sc.rx.escRCTL * e82545Bufsz s.sc.rx.escRCTL) →
      ((∀ turn ∈ rxTurns t l rs, TurnStays s turn) ↔ RxRoomKept s sum rs) := by
  intro rs
  induction rs with
  | nil =>
    intro t l sum _ _
    simp [rxTurns, RxRoomKept]
  | cons r rs ih =>
    intro t l sum h hlen
    obtain ⟨hr, hrs⟩ := List.forall_mem_cons.1 hlen
    have hturn := (h.turn_iff r hhead htail).trans (h.takes_le_iff hr)
    have hkept : RxRoomKept s sum (r :: rs) ↔
        ¬ (sum + rxMaxpktdesc s.sc.rx.escRCTL = rxFree s ∧ RxSpills s sum r) ∧
          RxRoomKept s (sum + rxTakesAt s sum r) rs :=
      ⟨fun hk => hk h.lim_pos h.room, fun hk _ _ => hk⟩
    rw [rxTurns, List.forall_mem_cons, hkept, hturn]
    refine and_congr_right fun _ => ?_
    rcases h.next r with ⟨t', l', heq, hnext⟩ | ⟨t', heq, hend⟩
    · rw [heq]
      exact ih hnext hrs
    · -- the loop has ended, and no more packets are read
      rw [heq]
      refine iff_of_true (by simp) ?_
      cases rs with
      | nil => exact trivial
      | cons r' rs' => exact fun hlim hroom => absurd ⟨hlim, hroom⟩ hend

end RxAt

/-! ### The whole run -/

theorem rxLeft_eq_ringDist {size head : Nat} {rdt : U16} (h : head < size) :
    rxLeft size rdt head = ringDist size head rdt.toNat := by
  have hcast : (size : Int) + rdt.toNat - head = (size + rdt.toNat - head : Nat) := by omega
  rw [rxLeft_of_lt rdt h, ringDist, hcast]
  exact (Int.natCast_emod _ _).symm

/-- A run of `e82545_tap_callback` on what `dm_process_rx` returns stays in the ring. -/
structure RxRunStays (s t : E1000) (l : RxLocals) (rs : List RxInput) : Prop where
  first : l.left = ringDist s.sc.rxSize l.head s.sc.rx.escRDT.toNat
  turns : ∀ turn ∈ rxTurns t l rs, TurnStays s turn
  ends : (rxPackets t l rs).2 = .ack

/-- The receive head never passes the tail. -/
def RxHeadStays (s : E1000) (rs : List RxInput) : Prop :=
  ∃ t at', e82545TapCallback s = .ok (t, at') ∧ ∀ l, at' = .reading l → RxRunStays s t l rs

/-- **The receive head** never passes the tail if and only if receive is closed, or no
packet that spills is read while there is just room for the longest packet. -/
theorem rx_head_stays_iff {s : E1000} {rs : List RxInput}
    (hhead : s.sc.rx.escRDH.toNat < s.sc.rxSize) (htail : s.sc.rx.escRDT.toNat < s.sc.rxSize)
    (hlen : ∀ r ∈ rs, 1 ≤ r.len ∧
      r.len ≤ rxMaxpktdesc s.sc.rx.escRCTL * e82545Bufsz s.sc.rx.escRCTL) :
    RxHeadStays s rs ↔ (e82545RxOpen s.sc = true → RxRoomKept s 0 rs) := by
  have hfree := @rxLeft_eq_ringDist s.sc.rxSize s.sc.rx.escRDH.toNat s.sc.rx.escRDT hhead
  have hreturns : ∃ t at', e82545TapCallback s = .ok (t, at') := by
    rw [e82545TapCallback]
    split
    · exact ⟨_, _, rfl⟩
    · rw [if_neg (by omega)]
      split
      · exact ⟨_, _, rfl⟩
      · exact ⟨_, _, rfl⟩
  obtain ⟨t, at', hcall⟩ := hreturns
  have honly : RxHeadStays s rs ↔ ∀ l, at' = .reading l → RxRunStays s t l rs := by
    constructor
    · rintro ⟨u, at'', hcall', hstays⟩
      cases hcall.symm.trans hcall'
      exact hstays
    · exact fun hstays => ⟨t, at', hcall, hstays⟩
  rw [honly]
  rcases e82545TapCallback_cases hcall with ⟨hclosed, -, rfl⟩ | ⟨hopen, hloop⟩
  · rw [hclosed]
    refine iff_of_true (fun l hl => ?_) fun hno => ?_
    · cases hl
    · cases hno
  · rw [hopen]
    simp only [true_implies]
    obtain ⟨-, -, -, hroom⟩ := e82545RxOpen_iff.1 hopen
    rcases e82545RxLoop_cases (rxEnter s) (rxLocals s.sc) with ⟨hlim, -, heq⟩ | ⟨hend, heq⟩
    · cases hloop.symm.trans heq
      have hstart : RxAt s (rxEnter s)
          { rxLocals s.sc with
            vec := rxVec (rxEnter s) (rxLocals s.sc).size (rxLocals s.sc).head, i := 0 } 0 := by
        refine ⟨rfl, fun _ => rfl, rfl, (ringPos_zero hhead).symm, ?_, rfl, hlim, ?_, rfl⟩
        · simp only [rxLocals, hfree, rxFree]
          omega
        · rw [hfree] at hroom
          rw [rxFree]
          omega
      rw [← hstart.turns_iff hhead htail fun r hr => (hlen r hr).2]
      constructor
      · exact fun hstays => (hstays _ rfl).turns
      · intro hturns l hl
        cases hl
        exact ⟨hfree, hturns, rxPackets_ends _ _ _⟩
    · -- a ring of fewer than four descriptors
      cases hloop.symm.trans heq
      refine iff_of_true (fun l hl => ?_) ?_
      · cases hl
      · cases rs with
        | nil => exact trivial
        | cons r rs => exact fun hlim _ => absurd ⟨hlim, hroom⟩ hend

/-- Four descriptors of 2048 bytes are free, and a packet of 2048 bytes is followed by a short
one. -/
theorem rx_head_stays_iff_room :
    RxHeadStays (rxDevice 2 4) [⟨2048, fun _ => 0⟩, ⟨60, fun _ => 0⟩] := by
  have hlen : ∀ r ∈ [RxInput.mk 2048 fun _ => 0, ⟨60, fun _ => 0⟩], 1 ≤ r.len ∧
      r.len ≤ rxMaxpktdesc (rxDevice 2 4).sc.rx.escRCTL * e82545Bufsz (rxDevice 2 4).sc.rx.escRCTL := by
    simp only [List.mem_cons, List.not_mem_nil, or_false, forall_eq_or_imp, forall_eq]
    decide
  refine (rx_head_stays_iff (by decide) (by decide) hlen).2 fun _ _ _ => ⟨?_, fun _ _ => ⟨?_, trivial⟩⟩
  · rintro ⟨h, -⟩
    exact absurd h (by decide)
  · rintro ⟨h, -⟩
    exact absurd h (by decide)

/-- With one of them free, a packet of 2048 bytes takes two. -/
theorem rx_head_passes_tail :
    ¬ ∀ (s : E1000) (rs : List RxInput), s.sc.rx.escRDH.toNat < s.sc.rxSize →
      s.sc.rx.escRDT.toNat < s.sc.rxSize →
      (∀ r ∈ rs, 1 ≤ r.len ∧
        r.len ≤ rxMaxpktdesc s.sc.rx.escRCTL * e82545Bufsz s.sc.rx.escRCTL) →
      RxHeadStays s rs := by
  intro h
  obtain ⟨t, at', hcall, hstays⟩ := h (rxDevice 2 1) [⟨2048, fun _ => 0⟩] (by decide) (by decide)
    (by simp only [List.mem_singleton, forall_eq]; decide)
  have hreading : e82545TapCallback (rxDevice 2 1) =
      .ok (rxEnter (rxDevice 2 1), .reading ⟨8, 0, 1, 2, 0, [0], 0⟩) := rfl
  cases hreading.symm.trans hcall
  have hleft := ((hstays _ rfl).turns _ (List.mem_cons_self)).2
  exact absurd hleft (by decide)

end DeviceModel

import DeviceModel.E82545.RxPackets

/-!
# Frames and packets

`dm_process_rx` stands for a `readv`, which puts one packet into several buffers. It reads
a frame into each of its buffers instead, until they are full or no frame waits, and
returns what its last read has returned. Whether frames get lost depends on how many
buffers it is given, that is, on the buffer size and on `LPE`.
-/

namespace DeviceModel

/-! ## The log of a run -/

/-- A packet that is published in the ring: what its buffers hold, and the length that
`dm_process_rx` has returned for it. -/
structure RxPublished where
  bytes : List U8
  len : Nat
  deriving DecidableEq

/-- The packet of a frame. -/
def Frame.packet (f : Frame) : RxPublished := ⟨f.bytes, f.bytes.length⟩

/-- What the buffers of a packet of `len` bytes hold. -/
def rxPublished (s : E1000) (l : RxLocals) (len : Nat) : RxPublished :=
  ⟨(l.vec.flatMap fun a => s.mem.readBytes a (e82545Bufsz s.sc.rx.escRCTL)).take len, len⟩

/-- The device with the frame in the next buffer. -/
def rxStored (s : E1000) (l : RxLocals) (f : Frame) : E1000 :=
  { s with
    mem := s.mem.writeBytes (l.vec.getD l.i 0) (f.bytes.take (e82545Bufsz s.sc.rx.escRCTL)) }

/-- What a run takes from virtio, and what it publishes. -/
structure RxLog where
  taken : List Frame
  published : List RxPublished

/-- What is published when a frame is read: the packet that it completes, unless the VLAN
filter drops it. -/
def rxPublishes (s : E1000) (l : RxLocals) (f : Frame) : List RxPublished :=
  match rxDelivers s l f with
  | some _ =>
    [rxPublished (rxStored s l f) l (f.bytes.take (e82545Bufsz s.sc.rx.escRCTL)).length]
  | none => []

/-- The receive loop from a read on, with the frames that wait. -/
def rxLog : E1000 → RxLocals → List Frame → RxLog
  | _, _, [] => ⟨[], []⟩
  | s, l, f :: rest =>
    let more : RxLog :=
      match (e82545RxRead s l (f :: rest)).1 with
      | (t, .reading l') => rxLog t l' rest
      | _ => ⟨[], []⟩
    ⟨f :: more.taken, rxPublishes s l f ++ more.published⟩

/-- One run of `e82545_tap_callback`. -/
def rxRunLog (s : E1000) (waiting : List Frame) : RxLog :=
  match e82545TapCallback s with
  | .ok (t, .reading l) => rxLog t l waiting
  | _ => ⟨[], []⟩

/-- The frames taken are the packets published. -/
def RxLog.Lossless (log : RxLog) : Prop := log.published = log.taken.map Frame.packet

/-! ## One read -/

/-- A read that finds a frame: it fills a buffer, or it ends a packet. -/
theorem e82545RxRead_cons (s : E1000) (l : RxLocals) (f : Frame) (rest : List Frame) :
    (e82545RxRead s l (f :: rest)).1 =
      if rxMaxpktdesc s.sc.rx.escRCTL ≤ l.i + 1 then
        e82545RxPacket (rxStored s l f) l (f.bytes.take (e82545Bufsz s.sc.rx.escRCTL)).length
      else (rxStored s l f, .reading { l with i := l.i + 1 }) := by
  simp only [e82545RxRead, rxStored]
  split <;> rfl

/-- Past a packet, the loop is before its first buffer again. -/
theorem e82545RxPacket_restarts (s : E1000) (l : RxLocals) (len : Nat) :
    (∃ t l', e82545RxPacket s l len = (t, .reading l') ∧ t.sc = s.sc ∧ l'.i = 0 ∧
      l'.vec = rxVec t l'.size l'.head) ∨
    ∃ t, e82545RxPacket s l len = (t, .ack) := by
  obtain ⟨t, l', heq, hsc, -⟩ := e82545RxPacket_loop s l len
  rw [heq]
  rcases e82545RxLoop_cases t l' with ⟨-, -, hloop⟩ | ⟨-, hloop⟩
  · exact .inl ⟨_, _, hloop, hsc, rfl, rfl⟩
  · exact .inr ⟨_, hloop⟩

theorem rxPublishes_length (s : E1000) (l : RxLocals) (f : Frame) :
    (rxPublishes s l f).length ≤ 1 ∧
      (l.i + 1 < rxMaxpktdesc s.sc.rx.escRCTL → rxPublishes s l f = []) := by
  rw [rxPublishes]
  split
  · next n hn =>
    refine ⟨Nat.le_refl 1, fun hlt => ?_⟩
    simp only [rxDelivers, Option.ite_none_right_eq_some] at hn
    omega
  · exact ⟨Nat.zero_le 1, fun _ => rfl⟩

/-! ## Several buffers -/

/-- A packet costs as many frames as there are buffers. -/
theorem rxLog_published_le {m : Nat} : ∀ (waiting : List Frame) {s : E1000} {l : RxLocals},
    rxMaxpktdesc s.sc.rx.escRCTL = m → l.i < m →
    m * (rxLog s l waiting).published.length ≤ (rxLog s l waiting).taken.length + l.i := by
  intro waiting
  induction waiting with
  | nil =>
    intro s l _ _
    simp [rxLog]
  | cons f rest ih =>
    intro s l hm hi
    obtain ⟨hone, hnone⟩ := rxPublishes_length s l f
    rw [hm] at hnone
    rw [rxLog]
    dsimp only
    rw [e82545RxRead_cons, hm, List.length_append, List.length_cons, Nat.mul_add]
    by_cases hfull : m ≤ l.i + 1
    · -- the last buffer: the count of frames starts again
      have hle := Nat.mul_le_mul_left m hone
      rw [if_pos hfull]
      rcases e82545RxPacket_restarts (rxStored s l f) l
          (f.bytes.take (e82545Bufsz s.sc.rx.escRCTL)).length with ⟨t, l', heq, hsc, hzero, -⟩ | ⟨t, heq⟩
      · have hrest := @ih t l' (by rw [hsc]; exact hm) (by omega)
        rw [heq]
        dsimp only
        omega
      · rw [heq]
        simp only [List.length_nil]
        omega
    · have hrest := @ih (rxStored s l f) { l with i := l.i + 1 } hm (by dsimp only; omega)
      rw [if_neg hfull, hnone (by omega)]
      simp only [List.length_nil] at hrest ⊢
      omega

/-! ## One buffer -/

/-- With one buffer a frame is a packet. -/
theorem rxPublishes_single {s : E1000} {l : RxLocals} {f : Frame}
    (hone : rxMaxpktdesc s.sc.rx.escRCTL = 1) (hvfe : s.sc.rx.escRCTL &&& e1000RctlVFE = 0)
    (hi : l.i = 0) (hvec : l.vec = rxVec s l.size l.head)
    (hfit : f.bytes.length ≤ e82545Bufsz s.sc.rx.escRCTL) :
    rxPublishes s l f = [f.packet] := by
  obtain ⟨-, hmax⟩ := e82545Bufsz_bounds s.sc.rx.escRCTL
  obtain ⟨a, ha⟩ : ∃ a, l.vec = [a] := by
    rw [hvec, rxVec, hone]
    exact ⟨_, rfl⟩
  have hdelivers : rxDelivers s l f = some (rxPacketDescs s.sc.rx.escRCTL f.bytes.length) := by
    rw [rxDelivers, List.take_of_length_le hfit, if_pos]
    refine ⟨by omega, ?_⟩
    simp [rxVlanDrops, hvfe]
  obtain ⟨k, hk⟩ : ∃ k, e82545Bufsz s.sc.rx.escRCTL = f.bytes.length + k :=
    Nat.exists_eq_add_of_le hfit
  have hstored : (rxStored s l f).mem.readBytes a f.bytes.length = f.bytes := by
    simp only [rxStored, ha, hi, List.take_of_length_le hfit]
    exact Mem.readBytes_writeBytes _ _ _ (by omega)
  rw [rxPublishes, hdelivers]
  dsimp only
  rw [rxPublished, Frame.packet, List.take_of_length_le hfit, ha]
  have hsc : (rxStored s l f).sc = s.sc := rfl
  rw [hsc, List.flatMap_cons, List.flatMap_nil, List.append_nil, hk, Mem.readBytes_add,
    List.take_left' (Mem.length_readBytes _ _ _), hstored]

/-- With one buffer nothing is lost. -/
theorem rxLog_lossless : ∀ (waiting : List Frame) {s : E1000} {l : RxLocals},
    rxMaxpktdesc s.sc.rx.escRCTL = 1 → s.sc.rx.escRCTL &&& e1000RctlVFE = 0 → l.i = 0 →
    l.vec = rxVec s l.size l.head →
    (∀ f ∈ waiting, f.bytes.length ≤ e82545Bufsz s.sc.rx.escRCTL) →
    (rxLog s l waiting).Lossless := by
  intro waiting
  induction waiting with
  | nil => intro s l _ _ _ _ _; rfl
  | cons f rest ih =>
    intro s l hone hvfe hi hvec hfit
    obtain ⟨hf, hrest⟩ := List.forall_mem_cons.1 hfit
    rw [RxLog.Lossless, rxLog]
    dsimp only
    rw [e82545RxRead_cons, if_pos (by omega), rxPublishes_single hone hvfe hi hvec hf, List.map_cons,
      List.singleton_append]
    congr 1
    rcases e82545RxPacket_restarts (rxStored s l f) l
        (f.bytes.take (e82545Bufsz s.sc.rx.escRCTL)).length with ⟨t, l', heq, hsc, hzero, hvec'⟩ | ⟨t, heq⟩
    · have hsc' : t.sc = s.sc := hsc
      rw [heq]
      apply ih
      · rw [hsc']
        exact hone
      · rw [hsc']
        exact hvfe
      · exact hzero
      · exact hvec'
      · rw [hsc']
        exact hrest
    · rw [heq]
      rfl

/-! ## A run -/

/-- **No frame is lost** in a run if and only if a packet may take one descriptor only, or
no frame waits, or the ring is too small for the loop. -/
theorem rx_lossless_iff {s : E1000} {waiting : List Frame} (hopen : e82545RxOpen s.sc = true)
    (hvfe : s.sc.rx.escRCTL &&& e1000RctlVFE = 0)
    (hfit : ∀ f ∈ waiting, f.bytes.length ≤ e82545Bufsz s.sc.rx.escRCTL) :
    (rxRunLog s waiting).Lossless ↔
      rxMaxpktdesc s.sc.rx.escRCTL = 1 ∨ waiting = [] ∨ s.sc.rxSize / 4 = 0 := by
  obtain ⟨hen, hlb, hsize, hroom⟩ := e82545RxOpen_iff.1 hopen
  have hcall : e82545TapCallback s = .ok (e82545RxLoop (rxEnter s) (rxLocals s.sc)) := by
    have hleft : ¬ (rxLocals s.sc).left < rxMaxpktdesc s.sc.rx.escRCTL := Int.not_lt.2 hroom
    rw [e82545TapCallback, if_neg (by simp [hen, hlb]), if_neg hsize, if_neg hleft]
  rw [rxRunLog, hcall]
  rcases e82545RxLoop_cases (rxEnter s) (rxLocals s.sc) with ⟨hlim, -, heq⟩ | ⟨hend, heq⟩
  · rw [heq]
    dsimp only
    have hlim' : ¬ s.sc.rxSize / 4 = 0 := Nat.pos_iff_ne_zero.1 hlim
    constructor
    · intro hlossless
      cases waiting with
      | nil => exact .inr (.inl rfl)
      | cons f rest =>
        left
        have hpos := rxMaxpktdesc_pos s.sc.rx.escRCTL
        have hle := @rxLog_published_le (rxMaxpktdesc s.sc.rx.escRCTL) (f :: rest) (rxEnter s)
          { rxLocals s.sc with
            vec := rxVec (rxEnter s) (rxLocals s.sc).size (rxLocals s.sc).head, i := 0 } rfl hpos
        rw [hlossless, List.length_map, Nat.add_zero] at hle
        have htaken : 0 < (rxLog (rxEnter s)
            { rxLocals s.sc with
              vec := rxVec (rxEnter s) (rxLocals s.sc).size (rxLocals s.sc).head, i := 0 }
            (f :: rest)).taken.length := Nat.succ_pos _
        have hmul := Nat.le_of_mul_le_mul_right (hle.trans (Nat.le_of_eq (Nat.one_mul _).symm)) htaken
        omega
    · rintro (hone | rfl | hzero)
      · exact rxLog_lossless waiting hone hvfe rfl rfl hfit
      · rfl
      · exact absurd hzero hlim'
  · rw [heq]
    have hsmall : s.sc.rxSize / 4 = 0 := by
      by_contra hne
      exact hend ⟨Nat.pos_iff_ne_zero.2 hne, hroom⟩
    exact iff_of_true rfl (.inr (.inr hsmall))

theorem rx_lossless_iff_single : (rxRunLog (rxDevice 2 4) [oneByte, oneByte]).Lossless :=
  (@rx_lossless_iff (rxDevice 2 4) [oneByte, oneByte] (by decide) (by decide)
    (by decide)).2 (.inl (by decide))

/-- With buffers of 1024 bytes a packet may take two: the second read finds no frame, and
the first one's is lost. -/
theorem rx_frame_lost :
    ¬ ∀ (s : E1000) (waiting : List Frame), e82545RxOpen s.sc = true →
      s.sc.rx.escRCTL &&& e1000RctlVFE = 0 →
      (∀ f ∈ waiting, f.bytes.length ≤ e82545Bufsz s.sc.rx.escRCTL) →
      (rxRunLog s waiting).Lossless := by
  intro h
  have hlossless := h (rxDevice 0x10002 4) [oneByte] (by decide) (by decide)
    (by decide)
  exact absurd (congrArg List.length hlossless) (by decide)

end DeviceModel

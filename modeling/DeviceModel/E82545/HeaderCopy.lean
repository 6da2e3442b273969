import DeviceModel.E82545.RingBounds
import DeviceModel.E82545.Segments

/-!
# Gathering a packet and copying its header

The descriptor loop makes a vector of each descriptor that has a length. The loop after
it copies a header out of these vectors, and its length comes from the VLAN, checksum or
TSO settings, not from the vectors: it goes from vector to vector until the header is
complete, and does not look at how many there are.
-/

namespace DeviceModel

/-! ## The vectors of a packet -/

/-- The length field of a descriptor. -/
def E1000TxUdesc.lenField (b : Build) (d : E1000TxUdesc) : Nat :=
  if d.dtype b = e1000TxdTypL then (halfAt (d.lower b) 0).toNat
  else (d.lower b &&& 0xFFFFF#32).toNat

/-- "Strip checksum supplied by guest": at the end of a packet without `IFCS`. -/
def E1000TxUdesc.strips (b : Build) (d : E1000TxUdesc) : Bool :=
  d.eop b && d.lower b &&& e1000TxdCmdIFCS == 0

/-- The vector of a descriptor. -/
def txBuffer (env : TxEnv) (d : E1000TxUdesc) : TxIovec :=
  .guest (paddrGuest2host env.ctx d.bufferAddr)
    (((d.lenField env.build : Int) - if d.strips env.build then 2 else 0) % 2 ^ 64).toNat

theorem E1000TxUdesc.lenField_lt (b : Build) (d : E1000TxUdesc) : d.lenField b < 2 ^ 20 := by
  rw [lenField]
  split
  · have hlt := (halfAt (d.lower b) 0).isLt
    omega
  · have hand : (d.lower b &&& 0xFFFFF#32).toNat ≤ 0xFFFFF := by
      rw [BitVec.toNat_and]
      exact Nat.and_le_right
    omega

/-- A vector is as long as its descriptor says, or two bytes shorter. Where there is one
byte to take the two from, the length goes round. -/
theorem txBuffer_len (env : TxEnv) {d : E1000TxUdesc} (h : 0 < d.lenField env.build) :
    (txBuffer env d).len =
      if d.strips env.build = true ∧ d.lenField env.build = 1 then 2 ^ 64 - 1
      else d.lenField env.build - if d.strips env.build then 2 else 0 := by
  have hlt := d.lenField_lt env.build
  rw [txBuffer, TxIovec.len]
  cases d.strips env.build with
  | false =>
    simp only [Bool.false_eq_true, false_and, if_false]
    omega
  | true =>
    simp only [true_and, if_true]
    split <;> omega

theorem TxLocals.addBuffer_eq (env : TxEnv) (l : TxLocals) (d : E1000TxUdesc) :
    l.addBuffer env d =
      if 0 < d.lenField env.build then
        { l with
          iov := if l.iovcnt < i82545MaxTxsegs then l.iov ++ [txBuffer env d] else l.iov
          iovcnt := l.iovcnt + 1 }
      else l := by
  have hcast : (if d.dtype env.build = e1000TxdTypL then ((halfAt (d.lower env.build) 0).toNat : Int)
      else ((d.lower env.build &&& 0xFFFFF#32).toNat : Int)) = d.lenField env.build := by
    rw [E1000TxUdesc.lenField]
    split <;> rfl
  have hstrip : ∀ len : Int, (if d.eop env.build = true ∧ d.lower env.build &&& e1000TxdCmdIFCS = 0
      then len - 2 else len) = len - if d.strips env.build then 2 else 0 := by
    intro len
    rw [E1000TxUdesc.strips]
    cases d.eop env.build <;> by_cases hifcs : d.lower env.build &&& e1000TxdCmdIFCS = 0#32 <;>
      simp [hifcs]
  simp only [TxLocals.addBuffer, hcast, hstrip, Int.natCast_pos]
  rfl

/-- The descriptors that have a length. -/
def txBuffered (b : Build) (ds : List E1000TxUdesc) : List E1000TxUdesc :=
  ds.filter fun d => decide (0 < d.lenField b)

theorem txBuffered_append (b : Build) (ds : List E1000TxUdesc) (d : E1000TxUdesc) :
    txBuffered b (ds ++ [d]) = txBuffered b ds ++ if 0 < d.lenField b then [d] else [] := by
  rw [txBuffered, List.filter_append]
  split
  · next h => simp [txBuffered, h]
  · next h => simp [txBuffered, h]

/-- What the descriptor loop has gathered from the descriptors `ds`. -/
structure TxLocals.Gathered (env : TxEnv) (l : TxLocals) (ds : List E1000TxUdesc) : Prop where
  iov : l.iov = ((txBuffered env.build ds).map (txBuffer env)).take i82545MaxTxsegs
  iovcnt : l.iovcnt = (txBuffered env.build ds).length

namespace TxLocals.Gathered

variable {env : TxEnv} {l : TxLocals} {ds : List E1000TxUdesc}

theorem start (env : TxEnv) : TxLocals.start.Gathered env [] := ⟨rfl, rfl⟩

theorem congr {l' : TxLocals} (h : l.Gathered env ds) (hiov : l'.iov = l.iov)
    (hcnt : l'.iovcnt = l.iovcnt) : l'.Gathered env ds :=
  ⟨hiov.trans h.iov, hcnt.trans h.iovcnt⟩

theorem first (h : l.Gathered env ds) (b : Build) (d : E1000TxUdesc) :
    (l.first b d).Gathered env ds := by
  rw [TxLocals.first]
  split
  · exact h.congr rfl rfl
  · split
    · exact h.congr rfl rfl
    · exact h

/-- The step: one more descriptor. -/
theorem addBuffer (h : l.Gathered env ds) (d : E1000TxUdesc) :
    (l.addBuffer env d).Gathered env (ds ++ [d]) := by
  obtain ⟨hiov, hcnt⟩ := h
  rw [TxLocals.addBuffer_eq]
  by_cases hpos : 0 < d.lenField env.build
  · rw [if_pos hpos]
    refine ⟨?_, ?_⟩
    · rw [txBuffered_append, if_pos hpos, List.map_append, List.take_append, List.length_map, ← hcnt,
        ← hiov]
      dsimp only
      split
      · next hroom =>
        have hone : 1 ≤ i82545MaxTxsegs - l.iovcnt := by omega
        rw [List.map_singleton, List.take_of_length_le hone]
      · next hfull =>
        have hzero : i82545MaxTxsegs - l.iovcnt = 0 := by omega
        rw [hzero, List.take_zero, List.append_nil]
    · rw [txBuffered_append, if_pos hpos, List.length_append, ← hcnt]
      rfl
  · rw [if_neg hpos]
    refine ⟨?_, ?_⟩
    · rw [txBuffered_append, if_neg hpos, List.append_nil]
      exact hiov
    · rw [txBuffered_append, if_neg hpos, List.append_nil]
      exact hcnt

theorem final (h : l.Gathered env ds) (b : Build) (cd : E1000ContextDesc) (d : E1000TxUdesc) :
    (l.final b cd d).Gathered env ds := by
  refine h.congr (l.final_iov b cd d) ?_
  rw [TxLocals.final]
  dsimp only
  split
  · split <;> rfl
  · rfl

/-- A packet that is not dropped has all its vectors. -/
theorem length (h : l.Gathered env ds) (hcnt : l.iovcnt ≤ i82545MaxTxsegs) :
    l.iov = (txBuffered env.build ds).map (txBuffer env) ∧ l.iov.length = l.iovcnt := by
  have hall : l.iov = (txBuffered env.build ds).map (txBuffer env) := by
    rw [h.iov, List.take_of_length_le]
    rw [List.length_map, ← h.iovcnt]
    exact hcnt
  refine ⟨hall, ?_⟩
  rw [hall, List.length_map, ← h.iovcnt]

end TxLocals.Gathered

/-- **The descriptor loop** gathers the descriptors that it reads, of which only the last
ends a packet. -/
theorem e82545TxScan_gathered {env : TxEnv} {cd : E1000ContextDesc} {ring : Nat → E1000TxUdesc}
    {tail dsize : Nat} {dsc : E1000TxUdesc} {last n : Nat} {l' : TxLocals} :
    ∀ {fuel head desc : Nat} {l : TxLocals} {ds : List E1000TxUdesc}, l.Gathered env ds →
      e82545TxScan env cd ring tail dsize fuel head desc l = .ok (.packet dsc last n l') →
      ∃ inner, (e82545TxScanUses env ring tail dsize fuel head desc l).map ring = inner ++ [dsc] ∧
        (∀ d ∈ inner, d.eop env.build = false) ∧ dsc.eop env.build = true ∧
        l'.Gathered env (ds ++ (inner ++ [dsc])) := by
  intro fuel
  induction fuel with
  | zero => intro head desc l ds _ h; cases h
  | succ fuel ih =>
    intro head desc l ds hl h
    rw [e82545TxScan] at h
    rw [e82545TxScanUses]
    dsimp only at h ⊢
    split at h
    · cases h
    next htail =>
    split at h
    · cases h
    next hctx =>
    split at h
    · cases h
    next htype =>
    rw [if_neg htail, if_neg hctx, if_neg htype]
    have hnext : ((if desc = 0 then l.first env.build (ring head) else l).addBuffer env
        (ring head)).Gathered env (ds ++ [ring head]) := by
      split
      · exact (hl.first _ _).addBuffer _
      · exact hl.addBuffer _
    split at h
    · next heop =>
      cases h
      rw [if_pos heop]
      exact ⟨[], rfl, by simp, heop, hnext.final _ _ _⟩
    · next heop =>
      obtain ⟨inner, huses, hinner, hlast, hl'⟩ := ih hnext h
      rw [if_neg heop]
      refine ⟨ring head :: inner, ?_, ?_, hlast, ?_⟩
      · rw [List.map_cons, huses]
        rfl
      · intro d hd
        rcases List.mem_cons.1 hd with rfl | hd
        · simpa using heop
        · exact hinner d hd
      · rw [List.append_assoc] at hl'
        exact hl'

/-! ## The header copy -/

/-- What is copied and what is left are the packet. -/
theorem txCopyHeader_bytes {mem : Mem} : ∀ {iov rest : List TxIovec} {n : Nat} {hdr : List U8},
    txCopyHeader mem iov n = .ok (hdr, rest) → hdr ++ iovBytes mem rest = iovBytes mem iov := by
  intro iov
  induction iov with
  | nil =>
    intro rest n hdr h
    cases n with
    | zero =>
      cases h
      rfl
    | succ n => cases h
  | cons v vs ih =>
    intro rest n hdr h
    cases n with
    | zero =>
      cases h
      rfl
    | succ n =>
      rw [txCopyHeader] at h
      dsimp only at h
      have hread : v.read mem 0 (min (n + 1) v.len) = (v.bytes mem).take (min (n + 1) v.len) :=
        v.read_eq mem (by omega)
      split at h
      · next hall =>
        obtain ⟨⟨more, iov'⟩, hcopy, h⟩ := Except.bind_eq_ok.1 h
        cases h
        rw [hread, hall, List.take_of_length_le (Nat.le_of_eq (v.length_bytes mem)),
          List.append_assoc, ih hcopy, iovBytes_cons]
      · cases h
        have hfirst := v.bytes_first_advance mem (Nat.min_le_right (n + 1) v.len)
        have hlen := (v.first (min (n + 1) v.len)).length_bytes mem
        rw [TxIovec.len_first (Nat.min_le_right _ _)] at hlen
        have htake : (v.first (min (n + 1) v.len)).bytes mem = (v.bytes mem).take (min (n + 1) v.len) := by
          rw [← hfirst, List.take_left' hlen]
        rw [hread, ← htake, iovBytes_cons, ← List.append_assoc, hfirst, iovBytes_cons]

/-- The values of `iovcnt` at the turns of the copy loop, up to the first turn that has
no vector to read. -/
def txCopyCounts : List TxIovec → (iovcnt left : Nat) → List Nat
  | _, _, 0 => []
  | [], iovcnt, _ + 1 => [iovcnt]
  | v :: vs, iovcnt, left + 1 =>
    let now := min (left + 1) v.len
    iovcnt :: if now = v.len then txCopyCounts vs (iovcnt - 1) (left + 1 - now) else []

/-- `iovcnt` stays at least 1 as long as there are bytes to copy. -/
theorem txCopyCounts_pos : ∀ {iov : List TxIovec} {left : Nat},
    (∀ c ∈ txCopyCounts iov iov.length left, 1 ≤ c) ↔ left ≤ txBytes iov := by
  intro iov
  induction iov with
  | nil =>
    intro left
    cases left <;> simp [txCopyCounts]
  | cons v vs ih =>
    intro left
    cases left with
    | zero => simp [txCopyCounts]
    | succ left =>
      have hstep := @ih (left + 1 - min (left + 1) v.len)
      rw [txCopyCounts, List.forall_mem_cons, txBytes_cons]
      simp only [List.length_cons, Nat.add_sub_cancel]
      split
      · rw [hstep]
        omega
      · simp only [List.not_mem_nil, false_implies, implies_true, and_true]
        omega

/-- The header copy of a packet reads only vectors of the packet. A packet that is
dropped has none. -/
def HeaderCopyStays (env : TxEnv) (cd : E1000ContextDesc) (dsc : E1000TxUdesc) (l : TxLocals) : Prop :=
  l.iovcnt ≤ i82545MaxTxsegs →
    ∀ c ∈ txCopyCounts l.iov l.iovcnt (txHdrlen l cd (txVlan env dsc)), 1 ≤ c

/-- **The header copy** stays in the packet if and only if the packet is dropped, or has
as many bytes as the header. -/
theorem header_copy_stays_iff {env : TxEnv} {x : TxSide} {head tail dsize fuel : Nat}
    {dsc : E1000TxUdesc} {last n : Nat} {l : TxLocals}
    (hscan : e82545TxScan env x.txctx x.ring tail dsize fuel head 0 .start =
      .ok (.packet dsc last n l)) :
    HeaderCopyStays env x.txctx dsc l ↔
      (l.iovcnt ≤ i82545MaxTxsegs → txHdrlen l x.txctx (txVlan env dsc) ≤ txBytes l.iov) := by
  obtain ⟨inner, -, -, -, hgathered⟩ := e82545TxScan_gathered (.start env) hscan
  refine forall_congr' fun hcnt => ?_
  rw [← (hgathered.length hcnt).2]
  exact txCopyCounts_pos

/-- A legacy packet of 4 bytes that asks for a checksum at 10. -/
def shortPacket : TxSide where
  ring := fun _ => ⟨0, 0, 0x070a0004, 0, 0, 0⟩
  txctx := ⟨0, 0, 0, 0⟩
  wire := []

/-- The locals past its one descriptor. -/
def shortLocals : TxLocals :=
  ((TxLocals.start.first .integer (shortPacket.ring 0)).addBuffer
    ⟨.integer, ⟨0⟩, 0, 0, fun _ => 0⟩ (shortPacket.ring 0)).final .integer shortPacket.txctx
      (shortPacket.ring 0)

theorem header_copy_stays_iff_short :
    HeaderCopyStays ⟨.integer, ⟨0⟩, 0, 0, fun _ => 0⟩ shortPacket.txctx (shortPacket.ring 0) shortLocals ↔
      (1 ≤ i82545MaxTxsegs → 12 ≤ txBytes [.guest 0 4]) :=
  @header_copy_stays_iff ⟨.integer, ⟨0⟩, 0, 0, fun _ => 0⟩ shortPacket 0 1 8 1 (shortPacket.ring 0) 0 0
    shortLocals rfl

/-- A header of 12 bytes is copied out of 4. -/
theorem header_copy_runs_off :
    ¬ ∀ (env : TxEnv) (x : TxSide) (head tail dsize fuel : Nat) (dsc : E1000TxUdesc) (last n : Nat)
      (l : TxLocals),
      e82545TxScan env x.txctx x.ring tail dsize fuel head 0 .start = .ok (.packet dsc last n l) →
      HeaderCopyStays env x.txctx dsc l := by
  intro h
  have hstays := h ⟨.integer, ⟨0⟩, 0, 0, fun _ => 0⟩ shortPacket 0 1 8 1 (shortPacket.ring 0) 0 0
    shortLocals rfl
  exact absurd (hstays (by decide)) (by decide)

end DeviceModel

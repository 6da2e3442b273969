import DeviceModel.E82545.Transmit

/-!
# Accesses to the header copy

Past the descriptor loop, `e82545_transmit` reads and writes the header through `hdr`,
and `e82545_transmit_checksum` through `iov[0]`, at offsets that come from the context
descriptor. Each function here has its trace: the accesses that it makes, in order, up
to the end of the call. An offset counts from the start of the buffer, which is where
`hdr` points once the VLAN tag is in.
-/

namespace DeviceModel

/-! ## Traces -/

/-- An access to `len` bytes of the header from `off` on. -/
structure HdrAccess where
  off : Nat
  len : Nat
  deriving DecidableEq, Repr

/-- The access stays in a buffer of `n` bytes. -/
def HdrAccess.Inside (n : Nat) (a : HdrAccess) : Prop := a.off + a.len ≤ n

instance (n : Nat) : DecidablePred (HdrAccess.Inside n) := fun a =>
  inferInstanceAs (Decidable (a.off + a.len ≤ n))

/-- All accesses stay in a buffer of `n` bytes. -/
def Inside (n : Nat) (tr : List HdrAccess) : Prop := ∀ a ∈ tr, a.Inside n

instance (n : Nat) : DecidablePred (Inside n) := fun tr =>
  inferInstanceAs (Decidable (∀ a ∈ tr, a.Inside n))

@[simp] theorem inside_nil (n : Nat) : Inside n [] := fun _ h => absurd h List.not_mem_nil

@[simp] theorem inside_cons {n : Nat} {a : HdrAccess} {tr : List HdrAccess} :
    Inside n (a :: tr) ↔ a.off + a.len ≤ n ∧ Inside n tr := List.forall_mem_cons

@[simp] theorem inside_append {n : Nat} {tr tr' : List HdrAccess} :
    Inside n (tr ++ tr') ↔ Inside n tr ∧ Inside n tr' := List.forall_mem_append

/-- An update of a header of `n` bytes with the accesses `tr`: it returns a header of
that size if all of them stay inside, and stops if one does not. -/
structure Touches (n : Nat) (tr : List HdrAccess) (m : Except Stop (List U8)) : Prop where
  inside : Inside n tr → ∃ hdr, m = .ok hdr ∧ hdr.length = n
  outside : ¬ Inside n tr → ∃ e, m = .error e

namespace Touches

variable {n : Nat} {tr tr' : List HdrAccess} {m : Except Stop (List U8)}

theorem ok {hdr : List U8} (h : hdr.length = n) : Touches n [] (.ok hdr) :=
  ⟨fun _ => ⟨hdr, rfl, h⟩, fun hno => absurd (inside_nil n) hno⟩

/-- Accesses in sequence. -/
theorem bind {f : List U8 → Except Stop (List U8)} (h : Touches n tr m)
    (hf : ∀ hdr, hdr.length = n → Touches n tr' (f hdr)) : Touches n (tr ++ tr') (m >>= f) := by
  by_cases hin : Inside n tr
  · obtain ⟨hdr, rfl, hlen⟩ := h.inside hin
    obtain ⟨hok, herr⟩ := hf hdr hlen
    refine ⟨fun hall => hok (inside_append.1 hall).2, fun hno => herr fun hin' => hno ?_⟩
    exact inside_append.2 ⟨hin, hin'⟩
  · obtain ⟨e, rfl⟩ := h.outside hin
    exact ⟨fun hall => absurd (inside_append.1 hall).1 hin, fun _ => ⟨e, rfl⟩⟩

theorem writeHdr {hdr bytes : List U8} {k : Nat} (hlen : hdr.length = n)
    (hbytes : bytes.length = k) (off : Nat) : Touches n [⟨off, k⟩] (writeHdr hdr off bytes) := by
  subst hlen hbytes
  by_cases hin : off + bytes.length ≤ hdr.length
  · refine ⟨fun _ => ⟨_, if_pos hin, ?_⟩, fun hno => absurd ?_ hno⟩
    · rw [List.length_append, List.length_append, List.length_take, List.length_drop]
      omega
    · exact inside_cons.2 ⟨hin, inside_nil _⟩
  · exact ⟨fun hall => absurd (inside_cons.1 hall).1 hin, fun _ => ⟨_, if_neg hin⟩⟩

/-- A store before other accesses. -/
theorem write_bind {hdr bytes : List U8} {k off : Nat} {f : List U8 → Except Stop (List U8)}
    (hlen : hdr.length = n) (hbytes : bytes.length = k)
    (hf : ∀ hdr, hdr.length = n → Touches n tr' (f hdr)) :
    Touches n (⟨off, k⟩ :: tr') (DeviceModel.writeHdr hdr off bytes >>= f) :=
  (writeHdr hlen hbytes off).bind hf

end Touches

theorem readHdr_returns {hdr : List U8} {off k : Nat} :
    Returns (readHdr hdr off k) ↔ off + k ≤ hdr.length := by
  rw [readHdr]
  split
  · next h => exact ⟨fun _ => h, fun _ => ⟨_, rfl⟩⟩
  · next h => exact ⟨fun ⟨_, he⟩ => (nomatch he), fun hin => absurd hin h⟩

/-! ## Checksums -/

/-- The length that `e82545_transmit_checksum` sums. -/
def CkInfo.cklen (ck : CkInfo) : Nat :=
  if ck.ckLen ≠ 0 then ((ck.ckLen.toNat : Int) - ck.ckStart.toNat + 1).toNat else 2147483647

/-- What `e82545_transmit_checksum` reads through `iov[0]`, a vector of `n` bytes: the
vector is skipped where it ends before `ck_start`. -/
def CkInfo.reads (n : Nat) (ck : CkInfo) : List HdrAccess :=
  if n ≤ ck.ckStart.toNat ∧ 0 < ck.ckStart.toNat then []
  else [⟨ck.ckStart.toNat, min ck.cklen (n - ck.ckStart.toNat)⟩]

/-- The accesses of `e82545_transmit_checksum`. -/
def CkInfo.trace (n : Nat) (ck : CkInfo) : List HdrAccess := ck.reads n ++ [⟨ck.ckOff.toNat, 2⟩]

/-- The sum never leaves the vector. -/
theorem CkInfo.reads_inside (n : Nat) (ck : CkInfo) : Inside n (ck.reads n) := by
  rw [reads]
  split
  · exact inside_nil n
  · next h =>
    refine inside_cons.2 ⟨?_, inside_nil n⟩
    have hmin := Nat.min_le_right ck.cklen (n - ck.ckStart.toNat)
    simp only
    omega

theorem CkInfo.inside_trace {n : Nat} {ck : CkInfo} :
    Inside n (ck.trace n) ↔ ck.ckOff.toNat + 2 ≤ n := by
  rw [trace, inside_append, inside_cons]
  exact ⟨fun h => h.2.1, fun h => ⟨ck.reads_inside n, h, inside_nil n⟩⟩

theorem le16_length (v : U16) : (le16 v).length = 2 := rfl

theorem be32_length (v : U32) : (be32 v).length = 4 := rfl

theorem le32_length (v : U32) : (le32 v).length = 4 := rfl

theorem Touches.checksum {n : Nat} {mem : Mem} {hdr : List U8} {rest : List TxIovec} {ck : CkInfo}
    (hlen : hdr.length = n) : Touches n (ck.trace n) (e82545TransmitChecksum mem hdr rest ck) := by
  obtain ⟨hok, herr⟩ := @Touches.writeHdr n hdr (le16 (~~~(e82545IovChecksum mem
    (.host hdr :: rest) ck.ckStart.toNat
    (if ck.ckLen ≠ 0 then (ck.ckLen.toNat : Int) - ck.ckStart.toNat + 1 else 2147483647))))
    2 hlen (le16_length _) ck.ckOff.toNat
  rw [inside_cons] at hok herr
  refine ⟨fun h => hok ⟨CkInfo.inside_trace.1 h, inside_nil n⟩, fun hno => herr fun h => hno ?_⟩
  exact CkInfo.inside_trace.2 h.1

/-- The accesses of `txChecksum`. -/
def CkInfo.traceIf (n : Nat) (ck : CkInfo) : List HdrAccess := if ck.ckValid then ck.trace n else []

theorem Touches.txChecksum {n : Nat} {mem : Mem} {hdr : List U8} {rest : List TxIovec} {ck : CkInfo}
    (hlen : hdr.length = n) : Touches n (ck.traceIf n) (txChecksum mem hdr rest ck) := by
  rw [DeviceModel.txChecksum, CkInfo.traceIf]
  split
  · exact .checksum hlen
  · exact .ok hlen

/-! ## The VLAN tag -/

/-- The bytes that are allocated for the header: none if there is nothing to write. -/
def txHdrRoom (hdrlen : Nat) (vlan : Bool) : Nat :=
  if hdrlen = 0 then 0 else hdrlen + if vlan then 4 else 0

/-- The accesses of "Insert VLAN tag": the two addresses move to the front, and the
four bytes of the tag follow them. -/
def txVlanTrace (vlan : Bool) : List HdrAccess :=
  if vlan then [⟨4, 12⟩, ⟨0, 12⟩, ⟨12, 1⟩, ⟨13, 1⟩, ⟨14, 1⟩, ⟨15, 1⟩] else []

theorem inside_txVlanTrace {hdrlen : Nat} {vlan : Bool} :
    Inside (txHdrRoom hdrlen vlan) (txVlanTrace vlan) ↔ (vlan = true → 12 ≤ hdrlen) := by
  cases vlan with
  | false => exact ⟨fun _ h => (nomatch h), fun _ => inside_nil _⟩
  | true =>
    simp only [txHdrRoom, txVlanTrace, if_true, inside_cons]
    split
    · next h =>
      rw [h]
      exact ⟨fun hin => absurd hin.1 (by decide), fun hno => absurd (hno trivial) (by decide)⟩
    · refine ⟨fun hin _ => ?_, fun hle => ?_⟩
      · have hfirst := hin.1
        omega
      · have h12 := hle trivial
        exact ⟨by omega, by omega, by omega, by omega, by omega, by omega, inside_nil _⟩

/-- The header has the size of its buffer once the tag is in. -/
theorem txInsertVlan_touches {vlan : Bool} {hdr : List U8} (vet special : U16) :
    Touches (txHdrRoom hdr.length vlan) (txVlanTrace vlan) (txInsertVlan vlan vet special hdr) := by
  refine ⟨fun hin => ?_, fun hout => ?_⟩
  · rw [inside_txVlanTrace] at hin
    cases vlan with
    | false =>
      refine ⟨hdr, rfl, ?_⟩
      rw [txHdrRoom]
      split
      · next h => exact h
      · rfl
    | true =>
      have h12 := hin rfl
      refine ⟨_, if_neg (Nat.not_lt.2 h12), ?_⟩
      rw [txHdrRoom, if_neg (by omega)]
      simp only [List.length_append, List.length_take, List.length_drop, be16, List.length_cons,
        List.length_nil, if_true]
      omega
  · rw [inside_txVlanTrace] at hout
    cases vlan with
    | false => exact absurd (fun h => (nomatch h)) hout
    | true => exact ⟨_, if_pos (Nat.not_le.1 fun h => hout fun _ => h)⟩

/-! ## Segmentation -/

/-- The accesses at the start of "Doing TSO". -/
def txTsoInfoTrace (ck0 ck1 : CkInfo) : List HdrAccess :=
  [⟨ck0.ckStart.toNat + 4, 2⟩, ⟨ck1.ckStart.toNat + 4, 4⟩, ⟨ck0.ckOff.toNat, 2⟩] ++
    if ck1.ckValid then [⟨ck1.ckOff.toNat, 2⟩] else []

/-- What the segments of a packet are cut by. -/
structure TsoInfo.Cut (o : TsoInfo) (cd : E1000ContextDesc) (ck0 ck1 : CkInfo) : Prop where
  tcp : o.tcp = ((cd.cmdAndLength &&& e1000TxdCmdTCP) != 0)
  mss : o.mss = (halfAt cd.tcpSegSetup 16).toNat
  paylen : o.paylen = (cd.cmdAndLength &&& 0x000fffff#32).toNat
  ipcs : o.ipcs.length = 2
  ck0 : o.ck0 = ck0
  ck1 : o.ck1 = ck1

theorem txTcpcs_returns {hdr : List U8} {ck1 : CkInfo} :
    Returns (txTcpcs hdr ck1) ↔ (ck1.ckValid = true → ck1.ckOff.toNat + 2 ≤ hdr.length) := by
  rw [txTcpcs]
  split
  · next h => exact readHdr_returns.trans ⟨fun hle _ => hle, fun hle => hle h⟩
  · next h => exact ⟨fun _ hv => absurd hv h, fun _ => ⟨_, rfl⟩⟩

theorem inside_txTsoInfoTrace {n : Nat} {ck0 ck1 : CkInfo} :
    Inside n (txTsoInfoTrace ck0 ck1) ↔
      ck0.ckStart.toNat + 4 + 2 ≤ n ∧ ck1.ckStart.toNat + 4 + 4 ≤ n ∧ ck0.ckOff.toNat + 2 ≤ n ∧
        (ck1.ckValid = true → ck1.ckOff.toNat + 2 ≤ n) := by
  have hlast : Inside n (if ck1.ckValid then [⟨ck1.ckOff.toNat, 2⟩] else []) ↔
      (ck1.ckValid = true → ck1.ckOff.toNat + 2 ≤ n) := by
    cases ck1.ckValid with
    | false => exact ⟨fun _ h => (nomatch h), fun _ => inside_nil n⟩
    | true => exact ⟨fun h _ => (inside_cons.1 h).1, fun h => inside_cons.2 ⟨h rfl, inside_nil n⟩⟩
  rw [txTsoInfoTrace, inside_append, hlast, inside_cons, inside_cons, inside_cons]
  exact ⟨fun ⟨⟨h0, h1, h2, _⟩, h3⟩ => ⟨h0, h1, h2, h3⟩,
    fun ⟨h0, h1, h2, h3⟩ => ⟨⟨h0, h1, h2, inside_nil n⟩, h3⟩⟩

theorem readHdr_length {hdr bytes : List U8} {off k : Nat} (h : readHdr hdr off k = .ok bytes) :
    bytes.length = k := by
  rw [readHdr] at h
  split at h
  · cases h
    rw [List.length_take, List.length_drop]
    omega
  · cases h

/-- What the reads have found. -/
theorem txTsoInfo_eq_ok {cd : E1000ContextDesc} {hdr : List U8} {ck0 ck1 : CkInfo} {o : TsoInfo}
    (ho : txTsoInfo cd hdr ck0 ck1 = .ok o) :
    Inside hdr.length (txTsoInfoTrace ck0 ck1) ∧ o.Cut cd ck0 ck1 := by
  obtain ⟨ipid, hipid, ho⟩ := Except.bind_eq_ok.1 ho
  obtain ⟨tcpseq, hseq, ho⟩ := Except.bind_eq_ok.1 ho
  obtain ⟨ipcs, hipcs, ho⟩ := Except.bind_eq_ok.1 ho
  obtain ⟨tcpcs, htcpcs, ho⟩ := Except.bind_eq_ok.1 ho
  cases ho
  refine ⟨inside_txTsoInfoTrace.2 ⟨readHdr_returns.1 ⟨_, hipid⟩, readHdr_returns.1 ⟨_, hseq⟩,
    readHdr_returns.1 ⟨_, hipcs⟩, txTcpcs_returns.1 ⟨_, htcpcs⟩⟩, ?_⟩
  exact ⟨rfl, rfl, rfl, readHdr_length hipcs, rfl, rfl⟩

/-- The reads return if and only if they stay inside. -/
theorem txTsoInfo_returns {cd : E1000ContextDesc} {hdr : List U8} {ck0 ck1 : CkInfo} :
    Inside hdr.length (txTsoInfoTrace ck0 ck1) ↔
      ∃ o, txTsoInfo cd hdr ck0 ck1 = .ok o ∧ o.Cut cd ck0 ck1 := by
  refine ⟨fun h => ?_, fun ⟨o, ho, _⟩ => (txTsoInfo_eq_ok ho).1⟩
  obtain ⟨hipid, hseq, hipcs, htcpcs⟩ := inside_txTsoInfoTrace.1 h
  obtain ⟨ipid, hipid⟩ := readHdr_returns.2 hipid
  obtain ⟨tcpseq, hseq⟩ := readHdr_returns.2 hseq
  obtain ⟨ipcs, hipcs⟩ := readHdr_returns.2 hipcs
  obtain ⟨tcpcs, htcpcs⟩ := txTcpcs_returns.2 htcpcs
  refine ⟨_, (Except.bind_ok hipid).trans ((Except.bind_ok hseq).trans
    ((Except.bind_ok hipcs).trans (Except.bind_ok htcpcs))), ?_⟩
  exact ⟨rfl, rfl, rfl, readHdr_length hipcs, rfl, rfl⟩

/-- The accesses of "Update IP header". -/
def TsoInfo.ipTrace (o : TsoInfo) : List HdrAccess :=
  if o.ip then [⟨o.ck0.ckStart.toNat + 2, 2⟩, ⟨o.ck0.ckStart.toNat + 4, 2⟩]
  else [⟨o.ck0.ckStart.toNat + 4, 2⟩]

/-- The accesses of "Update TCP/UDP headers". -/
def TsoInfo.tcpTrace (o : TsoInfo) (left now : Nat) : List HdrAccess :=
  ⟨o.ck1.ckStart.toNat + 4, 4⟩ ::
    if o.tcp ∧ now < left then [⟨o.ck1.ckStart.toNat + 13, 1⟩, ⟨o.ck1.ckStart.toNat + 13, 1⟩] else []

/-- The accesses for one checksum of a segment. -/
def CkInfo.segTrace (n : Nat) (ck : CkInfo) : List HdrAccess :=
  if ck.ckValid then ⟨ck.ckOff.toNat, 2⟩ :: ck.trace n else []

/-- The accesses of one segment. -/
def TsoInfo.trace (n : Nat) (o : TsoInfo) (left now : Nat) : List HdrAccess :=
  o.ipTrace ++ (o.tcpTrace left now ++ (o.ck0.segTrace n ++ o.ck1.segTrace n))

/-- "Update IP header". -/
def TsoInfo.updateIp (o : TsoInfo) (hdr : List U8) (seg now : Nat) : Except Stop (List U8) :=
  if o.ip then do
    let hdr' ← writeHdr hdr (o.ck0.ckStart.toNat + 2)
      (le16 (htons ((hdr.length : Int) - o.ck0.ckStart.toNat + now)))
    writeHdr hdr' (o.ck0.ckStart.toNat + 4) (le16 (htons (o.ipid + seg)))
  else writeHdr hdr (o.ck0.ckStart.toNat + 4)
    (le16 (htons ((hdr.length : Int) - o.ck0.ckStart.toNat - 40 + now)))

/-- "Update TCP/UDP headers", in a header of `n` bytes. -/
def TsoInfo.updateTcp (o : TsoInfo) (n : Nat) (hdr : List U8) (left now : Nat) :
    Except Stop (List U8) :=
  if o.tcp then do
    let hdr ← writeHdr hdr (o.ck1.ckStart.toNat + 4)
      (be32 (BitVec.ofInt 32 ((o.tcpseq : Int) + o.paylen - left)))
    if now < left then do
      let flags ← readHdr hdr (o.ck1.ckStart.toNat + 13) 1
      writeHdr hdr (o.ck1.ckStart.toNat + 13) (flags.map (· &&& ~~~0x09#8))
    else .ok hdr
  else writeHdr hdr (o.ck1.ckStart.toNat + 4)
    (le32 (BitVec.ofInt 32 ((n : Int) - o.ck1.ckStart.toNat + now)))

/-- Store what the sum starts with, and fill in a checksum of a segment. -/
def CkInfo.segment (mem : Mem) (hdr : List U8) (pieces : List TxIovec) (bytes : List U8)
    (ck : CkInfo) : Except Stop (List U8) :=
  if ck.ckValid then do
    let hdr ← writeHdr hdr ck.ckOff.toNat bytes
    e82545TransmitChecksum mem hdr pieces ck
  else .ok hdr

theorem txSegmentHeader_eq (mem : Mem) (o : TsoInfo) (hdr : List U8) (pieces : List TxIovec)
    (seg left now : Nat) : txSegmentHeader mem o hdr pieces seg left now = (do
      let hdr₁ ← o.updateIp hdr seg now
      let hdr₂ ← o.updateTcp hdr.length hdr₁ left now
      let hdr₃ ← o.ck0.segment mem hdr₂ pieces o.ipcs
      o.ck1.segment mem hdr₃ pieces (le16 (e82545Carry (o.tcpcs.setWidth 32 +
        (htons ((hdr.length : Int) - o.ck1.ckStart.toNat + now)).setWidth 32)))) := by
  simp only [txSegmentHeader, TsoInfo.updateIp, TsoInfo.updateTcp, CkInfo.segment]
  split <;> split <;> (try split) <;> split <;> simp only [bind_assoc]

theorem TsoInfo.updateIp_touches {n : Nat} {o : TsoInfo} {hdr : List U8} (hlen : hdr.length = n)
    (seg now : Nat) : Touches n o.ipTrace (o.updateIp hdr seg now) := by
  rw [ipTrace, updateIp]
  split
  · exact .write_bind hlen (le16_length _) fun _ hlen' => .writeHdr hlen' (le16_length _) _
  · exact .writeHdr hlen (le16_length _) _

/-- Clear flags in one byte: the read and the write are at one place. -/
theorem Touches.flags {n : Nat} {hdr : List U8} (hlen : hdr.length = n) (off : Nat) (f : U8 → U8) :
    Touches n [⟨off, 1⟩, ⟨off, 1⟩] (do
      let flags ← readHdr hdr off 1
      DeviceModel.writeHdr hdr off (flags.map f)) := by
  by_cases hin : off + 1 ≤ hdr.length
  · obtain ⟨flags, hread⟩ := readHdr_returns.2 hin
    have hbytes : (flags.map f).length = 1 := by rw [List.length_map, readHdr_length hread]
    obtain ⟨hok, herr⟩ := @Touches.writeHdr n hdr (flags.map f) 1 hlen hbytes off
    rw [inside_cons] at hok herr
    rw [Except.bind_ok hread]
    exact ⟨fun h => hok (inside_cons.1 (inside_cons.1 h).2),
      fun hno => herr fun h => hno (inside_cons.2 ⟨h.1, inside_cons.2 h⟩)⟩
  · refine ⟨fun h => absurd (inside_cons.1 h).1 (hlen ▸ hin), fun _ => ⟨.undefined, ?_⟩⟩
    rw [readHdr, if_neg hin]
    rfl

theorem TsoInfo.updateTcp_touches {n : Nat} {o : TsoInfo} {hdr : List U8} (hlen : hdr.length = n)
    (left now : Nat) : Touches n (o.tcpTrace left now) (o.updateTcp n hdr left now) := by
  rw [tcpTrace, updateTcp]
  cases o.tcp with
  | false =>
    rw [if_neg Bool.false_ne_true, if_neg fun h => Bool.false_ne_true h.1]
    exact .writeHdr hlen (le32_length _) _
  | true =>
    rw [if_pos rfl]
    refine .write_bind hlen (be32_length _) fun hdr' hlen' => ?_
    by_cases hnow : now < left
    · rw [if_pos hnow, if_pos ⟨rfl, hnow⟩]
      exact .flags hlen' _ _
    · rw [if_neg hnow, if_neg fun h => hnow h.2]
      exact .ok hlen'

theorem CkInfo.inside_segTrace {n : Nat} {ck : CkInfo} :
    Inside n (ck.segTrace n) ↔ (ck.ckValid = true → ck.ckOff.toNat + 2 ≤ n) := by
  rw [segTrace]
  split
  · next hv =>
    rw [inside_cons, inside_trace]
    exact ⟨fun h _ => h.1, fun h => ⟨h hv, h hv⟩⟩
  · next hv => exact ⟨fun _ h => absurd h hv, fun _ => inside_nil n⟩

theorem CkInfo.segment_touches {n : Nat} {mem : Mem} {hdr bytes : List U8}
    {pieces : List TxIovec} {ck : CkInfo} (hlen : hdr.length = n) (hbytes : bytes.length = 2) :
    Touches n (ck.segTrace n) (ck.segment mem hdr pieces bytes) := by
  rw [segTrace, segment]
  split
  · exact .write_bind hlen hbytes fun _ hlen' => .checksum hlen'
  · exact .ok hlen

/-- **One segment** stops exactly where an access leaves the header. -/
theorem txSegmentHeader_touches {mem : Mem} {o : TsoInfo} {hdr : List U8}
    {pieces : List TxIovec} (hipcs : o.ipcs.length = 2) (seg left now : Nat) :
    Touches hdr.length (o.trace hdr.length left now)
      (txSegmentHeader mem o hdr pieces seg left now) := by
  rw [txSegmentHeader_eq]
  refine (TsoInfo.updateIp_touches rfl seg now).bind fun hdr₁ h₁ => ?_
  refine (TsoInfo.updateTcp_touches h₁ left now).bind fun hdr₂ h₂ => ?_
  refine (CkInfo.segment_touches h₂ hipcs).bind fun hdr₃ h₃ => ?_
  exact CkInfo.segment_touches h₃ (le16_length _)

/-- What a segment adds to the reads before the first one: only the flags of a segment
that is not the last. -/
theorem TsoInfo.inside_trace {n left now : Nat} {o : TsoInfo}
    (h : Inside n (txTsoInfoTrace o.ck0 o.ck1)) :
    Inside n (o.trace n left now) ↔
      (o.tcp = true ∧ now < left → o.ck1.ckStart.toNat + 14 ≤ n) := by
  obtain ⟨hip, hseq, hipcs, htcpcs⟩ := inside_txTsoInfoTrace.1 h
  have hipt : Inside n o.ipTrace := by
    rw [ipTrace]
    split
    · exact inside_cons.2 ⟨by dsimp only; omega, inside_cons.2 ⟨hip, inside_nil n⟩⟩
    · exact inside_cons.2 ⟨hip, inside_nil n⟩
  have htcp : Inside n (o.tcpTrace left now) ↔
      (o.tcp = true ∧ now < left → o.ck1.ckStart.toNat + 14 ≤ n) := by
    rw [tcpTrace, inside_cons]
    split
    · next hflags =>
      rw [inside_cons, inside_cons]
      exact ⟨fun hin _ => hin.2.1, fun hle => ⟨hseq, hle hflags, hle hflags, inside_nil n⟩⟩
    · next hflags => exact ⟨fun _ hno => absurd hno hflags, fun _ => ⟨hseq, inside_nil n⟩⟩
  rw [trace, inside_append, inside_append, inside_append, htcp, CkInfo.inside_segTrace,
    CkInfo.inside_segTrace]
  exact ⟨fun hin => hin.2.1, fun hin => ⟨hipt, hin, fun _ => hipcs, htcpcs⟩⟩

/-! ## A packet -/

/-- The descriptors ask for a VLAN tag. -/
def txVlan (env : TxEnv) (dsc : E1000TxUdesc) : Bool :=
  (env.ctrl &&& e1000CtrlVME) != 0 && (dsc.lower env.build &&& e1000TxdCmdVLE) != 0

/-- A header of `n` bytes has room for all segments when `left` bytes are left. -/
structure TsoInfo.Fits (o : TsoInfo) (n left : Nat) : Prop where
  info : Inside n (txTsoInfoTrace o.ck0 o.ck1)
  flags : o.tcp = true ∧ o.mss < left → o.ck1.ckStart.toNat + 14 ≤ n

theorem TsoInfo.Fits.segment {o : TsoInfo} {n left : Nat} (h : o.Fits n left) :
    Inside n (o.trace n left (min left o.mss)) :=
  (TsoInfo.inside_trace h.info).2 fun hmore => h.flags ⟨hmore.1, by omega⟩

theorem TsoInfo.Fits.next {o : TsoInfo} {n left : Nat} (h : o.Fits n left) (now : Nat) :
    o.Fits n (left - now) :=
  ⟨h.info, fun hmore => h.flags ⟨hmore.1, by omega⟩⟩

/-- The bytes of a packet. -/
def txBytes (iov : List TxIovec) : Nat := (iov.map (·.len)).sum

theorem TxIovec.length_read (mem : Mem) (v : TxIovec) {n : Nat} (h : n ≤ v.len) :
    (v.read mem 0 n).length = n := by
  cases v with
  | guest base len => exact Mem.length_readBytes _ _ _
  | host bytes =>
    rw [TxIovec.read, List.drop_zero, List.length_take]
    exact Nat.min_eq_left h

/-- The copy loop returns a header of the size asked for, unless the packet is shorter. -/
theorem txCopyHeader_spec (mem : Mem) : ∀ (iov : List TxIovec) (n : Nat),
    (n ≤ txBytes iov → ∃ hdr rest, txCopyHeader mem iov n = .ok (hdr, rest) ∧ hdr.length = n) ∧
    (txBytes iov < n → ∃ e, txCopyHeader mem iov n = .error e) := by
  intro iov
  induction iov with
  | nil =>
    intro n
    cases n with
    | zero => exact ⟨fun _ => ⟨[], [], rfl, rfl⟩, fun h => absurd h (Nat.lt_irrefl 0)⟩
    | succ n => exact ⟨fun h => absurd h (Nat.not_succ_le_zero n), fun _ => ⟨_, rfl⟩⟩
  | cons v vs ih =>
    intro n
    cases n with
    | zero => exact ⟨fun _ => ⟨[], v :: vs, rfl, rfl⟩, fun h => absurd h (Nat.not_lt_zero _)⟩
    | succ n =>
      have hbytes : txBytes (v :: vs) = v.len + txBytes vs := rfl
      rw [hbytes, txCopyHeader]
      dsimp only
      split
      · next hnow =>
        obtain ⟨hok, herr⟩ := ih (n + 1 - min (n + 1) v.len)
        refine ⟨fun hle => ?_, fun hlt => ?_⟩
        · have hmore : n + 1 - min (n + 1) v.len ≤ txBytes vs := by omega
          obtain ⟨hdr, rest, hcopy, hlen⟩ := hok hmore
          refine ⟨v.read mem 0 (min (n + 1) v.len) ++ hdr, rest, Except.bind_ok hcopy, ?_⟩
          rw [List.length_append, TxIovec.length_read mem v (Nat.min_le_right _ _), hlen]
          exact Nat.add_sub_cancel' (Nat.min_le_left _ _)
        · have hmore : txBytes vs < n + 1 - min (n + 1) v.len := by omega
          obtain ⟨e, hcopy⟩ := herr hmore
          rw [hcopy]
          exact ⟨e, rfl⟩
      · next hnow =>
        refine ⟨fun _ => ⟨_, _, rfl, ?_⟩, fun hlt => absurd hlt (by omega)⟩
        rw [TxIovec.length_read mem v (Nat.min_le_right _ _)]
        omega

theorem txCopyHeader_hdr {mem : Mem} {iov rest : List TxIovec} {n : Nat} {hdr : List U8}
    (h : txCopyHeader mem iov n = .ok (hdr, rest)) : hdr.length = n := by
  obtain ⟨hok, herr⟩ := txCopyHeader_spec mem iov n
  rcases Nat.lt_or_ge (txBytes iov) n with hlt | hge
  · obtain ⟨e, he⟩ := herr hlt
    rw [h] at he
    cases he
  · obtain ⟨hdr', rest', hcopy, hlen⟩ := hok hge
    rw [h] at hcopy
    cases hcopy
    exact hlen

/-! ## The fields of the context -/

/-- The checksum that the context names for IP, with the flag of the last descriptor. -/
def E1000ContextDesc.ipCk (cd : E1000ContextDesc) (valid : Bool) : CkInfo :=
  ⟨valid, byteAt cd.lowerSetup 0, byteAt cd.lowerSetup 8, halfAt cd.lowerSetup 16⟩

/-- The checksum that the context names for TCP or UDP. -/
def E1000ContextDesc.tcpCk (cd : E1000ContextDesc) (valid : Bool) : CkInfo :=
  ⟨valid, byteAt cd.upperSetup 0, byteAt cd.upperSetup 8, halfAt cd.upperSetup 16⟩

namespace E1000TxUdesc

variable (b : Build) (d : E1000TxUdesc)

/-- The packet that ends here asks for segmentation. -/
def tse : Bool := d.dtype b != e1000TxdTypL && (d.lower b &&& e1000TxdCmdTSE) != 0

/-- `E1000_TXD_POPTS_IXSM` -/
def ixsm : Bool := (byteAt (d.upper b) 8 &&& e1000TxdPoptsIXSM) != 0

/-- `E1000_TXD_POPTS_TXSM` -/
def txsm : Bool := (byteAt (d.upper b) 8 &&& e1000TxdPoptsTXSM) != 0

end E1000TxUdesc

/-- The fields that a context descriptor names lie in a header of `hdr_len` bytes and
the VLAN tag. The checksums are those after the tag is inserted. -/
structure TsoHdrFits (cd : E1000ContextDesc) (vlan : Bool) (ck0 ck1 : CkInfo) : Prop where
  /-- the addresses are in the header -/
  addrs : vlan = true → 12 ≤ (byteAt cd.tcpSegSetup 8).toNat
  ipid : ck0.ckStart.toNat + 4 + 2 ≤ txHdrRoom (byteAt cd.tcpSegSetup 8).toNat vlan
  seq : ck1.ckStart.toNat + 4 + 4 ≤ txHdrRoom (byteAt cd.tcpSegSetup 8).toNat vlan
  ipcs : ck0.ckOff.toNat + 2 ≤ txHdrRoom (byteAt cd.tcpSegSetup 8).toNat vlan
  tcpcs : ck1.ckValid = true →
    ck1.ckOff.toNat + 2 ≤ txHdrRoom (byteAt cd.tcpSegSetup 8).toNat vlan
  /-- with TCP and more than one segment, the flags are in the header too -/
  flags : (cd.cmdAndLength &&& e1000TxdCmdTCP) ≠ 0 →
    (halfAt cd.tcpSegSetup 16).toNat < (cd.cmdAndLength &&& 0x000fffff#32).toNat →
    ck1.ckStart.toNat + 14 ≤ txHdrRoom (byteAt cd.tcpSegSetup 8).toNat vlan

/-- What "Doing TSO" finds in a header with room for the context's fields. -/
theorem TsoHdrFits.info {cd : E1000ContextDesc} {vlan : Bool} {ck0 ck1 : CkInfo} {hdr : List U8}
    (h : TsoHdrFits cd vlan ck0 ck1)
    (hlen : hdr.length = txHdrRoom (byteAt cd.tcpSegSetup 8).toNat vlan) :
    ∃ o, txTsoInfo cd hdr ck0 ck1 = .ok o ∧ o.Cut cd ck0 ck1 ∧ o.Fits hdr.length o.paylen := by
  obtain ⟨-, hipid, hseq, hipcs, htcpcs, hflags⟩ := h
  rw [← hlen] at hipid hseq hipcs htcpcs hflags
  have hinfo := inside_txTsoInfoTrace.2 ⟨hipid, hseq, hipcs, htcpcs⟩
  obtain ⟨o, ho, hcut⟩ := txTsoInfo_returns.1 hinfo
  refine ⟨o, ho, hcut, ?_, fun ⟨htcp, hmore⟩ => ?_⟩
  · rw [hcut.ck0, hcut.ck1]
    exact hinfo
  · rw [hcut.mss, hcut.paylen] at hmore
    rw [hcut.tcp, bne_iff_ne] at htcp
    rw [hcut.ck1]
    exact hflags htcp hmore

/-! ## The simple case -/

/-- The writable space that the tag and the checksums need, before it is rounded up to
the first vector. -/
def txHdrWanted (l : TxLocals) (vlan : Bool) : Nat :=
  let hdrlen := if vlan then 12 else 0
  let hdrlen := if l.ck0.ckValid then max hdrlen (l.ck0.ckOff.toNat + 2) else hdrlen
  if l.ck1.ckValid then max hdrlen (l.ck1.ckOff.toNat + 2) else hdrlen

/-- The space is what is wanted, or it is rounded up to the first vector. -/
theorem txHdrlen_cases {l : TxLocals} (cd : E1000ContextDesc) (vlan : Bool) (htso : l.tso = false) :
    txHdrlen l cd vlan = txHdrWanted l vlan ∨
      ∃ v vs, l.iov = v :: vs ∧ txHdrWanted l vlan < v.len ∧ txHdrlen l cd vlan = v.len := by
  rw [txHdrlen, if_neg (htso ▸ Bool.false_ne_true)]
  cases hiov : l.iov with
  | nil => exact .inl rfl
  | cons v vs =>
    change (if txHdrWanted l vlan ≠ 0 ∧ txHdrWanted l vlan < v.len ∧
      v.len < txHdrWanted l vlan + 100 then v.len else txHdrWanted l vlan) = _ ∨ _
    by_cases hnear : txHdrWanted l vlan ≠ 0 ∧ txHdrWanted l vlan < v.len ∧
        v.len < txHdrWanted l vlan + 100
    · exact .inr ⟨v, vs, rfl, hnear.2.1, if_pos hnear⟩
    · exact .inl (if_neg hnear)

/-- The space that is made writable holds the checksums, tag or not. -/
theorem txHdrlen_plain {l : TxLocals} {cd : E1000ContextDesc} {vlan : Bool} (htso : l.tso = false) :
    (vlan = true → 12 ≤ txHdrlen l cd vlan) ∧
    (l.ck0.ckValid = true → l.ck0.ckOff.toNat + 2 ≤ txHdrlen l cd vlan) ∧
    (l.ck1.ckValid = true → l.ck1.ckOff.toNat + 2 ≤ txHdrlen l cd vlan) := by
  have hle : txHdrWanted l vlan ≤ txHdrlen l cd vlan := by
    rcases txHdrlen_cases cd vlan htso with heq | ⟨v, vs, -, hlt, heq⟩
    · exact Nat.le_of_eq heq.symm
    · rw [heq]
      exact Nat.le_of_lt hlt
  refine ⟨fun hv => Nat.le_trans ?_ hle, fun h0 => Nat.le_trans ?_ hle,
    fun h1 => Nat.le_trans ?_ hle⟩
  · rw [txHdrWanted, if_pos hv]
    split <;> split <;> omega
  · rw [txHdrWanted, if_pos h0]
    split <;> split <;> omega
  · rw [txHdrWanted, if_pos h1]
    omega

/-- The offset of a checksum moves with the tag, and stays in the header also where it
goes round. -/
theorem CkInfo.shift_off {ck : CkInfo} {vlan : Bool} {n : Nat} (h : ck.ckOff.toNat + 2 ≤ n) :
    (ck.shift vlan).ckOff.toNat + 2 ≤ txHdrRoom n vlan := by
  rw [txHdrRoom, if_neg (by omega), CkInfo.shift]
  cases vlan with
  | false => exact h
  | true =>
    simp only [if_true]
    rw [BitVec.toNat_add]
    have hmod := Nat.mod_le (ck.ckOff.toNat + (4 : U8).toNat) (2 ^ 8)
    have h4 : (4 : U8).toNat = 4 := rfl
    omega

theorem CkInfo.shift_valid (ck : CkInfo) (vlan : Bool) : (ck.shift vlan).ckValid = ck.ckValid := by
  cases vlan <;> rfl

theorem CkInfo.inside_traceIf {n : Nat} {ck : CkInfo} :
    Inside n (ck.traceIf n) ↔ (ck.ckValid = true → ck.ckOff.toNat + 2 ≤ n) := by
  rw [traceIf]
  split
  · next hv => exact inside_trace.trans ⟨fun h _ => h, fun h => h hv⟩
  · next hv => exact ⟨fun _ h => absurd h hv, fun _ => inside_nil n⟩

theorem TxLocals.first_tso (l : TxLocals) (b : Build) (dsc : E1000TxUdesc) :
    (l.first b dsc).tso = l.tso := by
  rw [TxLocals.first]
  split
  · rfl
  · split <;> rfl

theorem TxLocals.addBuffer_tso (l : TxLocals) (env : TxEnv) (dsc : E1000TxUdesc) :
    (l.addBuffer env dsc).tso = l.tso :=
  (apply_ite TxLocals.tso _ _ _).trans (ite_self _)

/-- What the descriptor loop makes of the last descriptor of a packet. A property `P` of
the locals that each descriptor keeps holds of those before it. -/
theorem e82545TxScan_packet {env : TxEnv} {cd : E1000ContextDesc} {ring : Nat → E1000TxUdesc}
    {tail dsize : Nat} {dsc : E1000TxUdesc} {last n : Nat} {l' : TxLocals} {P : TxLocals → Prop}
    (hfirst : ∀ l dsc, P l → P (l.first env.build dsc))
    (hadd : ∀ l dsc, P l → P (l.addBuffer env dsc)) :
    ∀ {fuel head desc : Nat} {l : TxLocals}, P l →
      e82545TxScan env cd ring tail dsize fuel head desc l = .ok (.packet dsc last n l') →
      0 < fuel ∧ ∃ l₀ : TxLocals, P l₀ ∧ l' = l₀.final env.build cd dsc := by
  intro fuel
  induction fuel with
  | zero => intro head desc l _ h; cases h
  | succ fuel ih =>
    intro head desc l hl h
    rw [e82545TxScan] at h
    dsimp only at h
    split at h
    · cases h
    split at h
    · cases h
    split at h
    · cases h
    have hnext : P ((if desc = 0 then l.first env.build (ring head) else l).addBuffer env
        (ring head)) := by
      apply hadd
      split
      · exact hfirst _ _ hl
      · exact hl
    split at h
    · cases h
      exact ⟨Nat.succ_pos _, _, hnext, rfl⟩
    · exact ⟨Nat.succ_pos _, (ih hnext h).2⟩

/-- The locals of a packet that asks for segmentation come from the context. -/
theorem TxLocals.final_tso {b : Build} {cd : E1000ContextDesc} {dsc : E1000TxUdesc} {l : TxLocals}
    (htso : l.tso = false) :
    (l.final b cd dsc).tso = dsc.tse b ∧
    (dsc.tse b = true → (l.final b cd dsc).ck0 = cd.ipCk (dsc.ixsm b) ∧
      (l.final b cd dsc).ck1 = cd.tcpCk (dsc.txsm b)) := by
  rw [TxLocals.final, E1000TxUdesc.tse]
  dsimp only
  by_cases htype : dsc.dtype b = e1000TxdTypL
  · rw [if_pos htype, htype]
    refine ⟨?_, fun h => absurd h (by simp)⟩
    split <;> simp [htso]
  · rw [if_neg htype]
    have hne : (dsc.dtype b != e1000TxdTypL) = true := bne_iff_ne.2 htype
    rw [hne, Bool.true_and]
    refine ⟨rfl, fun h => ?_⟩
    dsimp only
    rw [h, Bool.or_true, Bool.or_true]
    exact ⟨rfl, rfl⟩

/-- A scan from the start that ends with a packet. -/
theorem e82545TxScan_tso {env : TxEnv} {cd : E1000ContextDesc} {ring : Nat → E1000TxUdesc}
    {tail dsize fuel head : Nat} {dsc : E1000TxUdesc} {last n : Nat} {l : TxLocals}
    (hscan : e82545TxScan env cd ring tail dsize fuel head 0 .start =
      .ok (.packet dsc last n l)) :
    0 < fuel ∧ l.tso = dsc.tse env.build ∧
      (dsc.tse env.build = true → l.ck0 = cd.ipCk (dsc.ixsm env.build) ∧
        l.ck1 = cd.tcpCk (dsc.txsm env.build)) := by
  obtain ⟨hfuel, l₀, htso, rfl⟩ := @e82545TxScan_packet _ _ _ _ _ _ _ _ _ (fun l => l.tso = false)
    (fun l dsc h => (l.first_tso _ dsc).trans h) (fun l dsc h => (l.addBuffer_tso _ dsc).trans h)
    _ _ _ _ rfl hscan
  exact ⟨hfuel, TxLocals.final_tso htso⟩

end DeviceModel

import DeviceModel.E82545.UdpSegments
import DeviceModel.E82545.VlanInsert

/-!
# Frames of a segmented packet

What is on the wire for a packet that asks for segmentation: its header once for every
piece of its payload, with nothing changed but the fields that a segment has of its own.
-/

namespace DeviceModel

/-! ## What a segment changes -/

/-- The fields of a header that the loop over the segments writes to. -/
def segmentFields (ip tcp : Bool) (ck0 ck1 : CkInfo) : List Extent :=
  (if ip then [ck0.ipLen, ck0.ipId] else [ck0.ip6Len]) ++
    (if tcp then [ck1.tcpSeq, ck1.tcpFlags] else [ck1.udpLen, ck1.udpSum]) ++
    (ck0.field ++ ck1.field)

/-- "Update TCP/UDP headers", for both protocols. -/
theorem TsoInfo.updateTcp_sameBut {o : TsoInfo} {n : Nat} {hdr hdr' : List U8} {left now : Nat}
    (h : o.updateTcp n hdr left now = .ok hdr') :
    SameBut (if o.tcp then [o.ck1.tcpSeq, o.ck1.tcpFlags] else [o.ck1.udpLen, o.ck1.udpSum])
      hdr hdr' := by
  cases htcp : o.tcp with
  | true => exact (TsoInfo.updateTcp_spec htcp h).2.2
  | false => exact (TsoInfo.updateTcp_udp htcp h).2

/-- **One segment** changes its own fields only. -/
theorem txSegmentHeader_sameBut {mem : Mem} {o : TsoInfo} {hdr hdr' : List U8}
    {pieces : List TxIovec} {seg left now : Nat} (hipcs : o.ipcs.length = 2)
    (h : txSegmentHeader mem o hdr pieces seg left now = .ok hdr') :
    SameBut (segmentFields o.ip o.tcp o.ck0 o.ck1) hdr hdr' := by
  rw [txSegmentHeader_eq] at h
  obtain ⟨hdr₁, hupdip, h⟩ := Except.bind_eq_ok.1 h
  obtain ⟨hdr₂, hupdtcp, h⟩ := Except.bind_eq_ok.1 h
  have hip := TsoInfo.updateIp_sameBut hupdip
  have htcp := TsoInfo.updateTcp_sameBut hupdtcp
  have hck := ckSegments_sameBut hipcs (le16_length _) h
  refine (hip.mono ?_).trans ((htcp.mono ?_).trans (hck.mono ?_))
  · exact fun e he => List.mem_append_left _ (List.mem_append_left _ he)
  · exact fun e he => List.mem_append_left _ (List.mem_append_right _ he)
  · exact fun e he => List.mem_append_right _ he

/-! ## The frames -/

/-- A packet with its header, of `n` bytes, and its payload, and the frames that it is sent as. -/
structure TsoFrames (mem : Mem) (n mss : Nat) (hdr : List U8) (fields : List Extent)
    (payload : List TxIovec) (pieces : List (List TxIovec)) (frames : List (List U8)) : Prop where
  header : hdr.length = n
  /-- each frame is the header, but for its own fields, and one piece -/
  frame : List.Forall₂ (IsFrame mem (SameBut fields hdr)) pieces frames
  cut : CutBy mss (pieces.map (iovBytes mem)) (iovBytes mem payload)
  /-- the header and the piece fit into `tiov` -/
  vectors : ∀ p ∈ pieces, 1 + p.length ≤ i82545MaxTxsegs + 2

/-- **Segmentation splits the payload exactly.** The header copy and the payload are the bytes
that the descriptors name. Where the payload has the length that the context announces, the
frames carry it in order, `mss` bytes in each but the last, each behind the header copy with
its tag, which differs in the fields of a segment only; and where the context's fields are in the
header, the packet is sent. -/
theorem tso_splits_payload {env : TxEnv} {x : TxSide} {head tail dsize fuel : Nat}
    {dsc : E1000TxUdesc} {last n : Nat} {l : TxLocals} {hdr : List U8} {rest : List TxIovec}
    (hscan : e82545TxScan env x.txctx x.ring tail dsize fuel head 0 .start =
      .ok (.packet dsc last n l))
    (htse : dsc.tse env.build = true) (hcnt : l.iovcnt ≤ i82545MaxTxsegs)
    (hmss : 1 ≤ (halfAt x.txctx.tcpSegSetup 16).toNat)
    (hcopy : txCopyHeader env.mem l.iov (byteAt x.txctx.tcpSegSetup 8).toNat = .ok (hdr, rest))
    (hpaylen : txBytes rest = (x.txctx.cmdAndLength &&& 0x000fffff#32).toNat) :
    hdr ++ iovBytes env.mem rest = iovBytes env.mem l.iov ∧
    (∀ fuel' frames, e82545TransmitPacket env fuel' x.txctx dsc l = .ok frames →
      TsoFrames env.mem (txHdrRoom (byteAt x.txctx.tcpSegSetup 8).toNat (txVlan env dsc))
        (halfAt x.txctx.tcpSegSetup 16).toNat (txTagged env dsc hdr)
        (segmentFields ((x.txctx.cmdAndLength &&& e1000TxdCmdIP) != 0)
          ((x.txctx.cmdAndLength &&& e1000TxdCmdTCP) != 0)
          ((x.txctx.ipCk (dsc.ixsm env.build)).shift (txVlan env dsc))
          ((x.txctx.tcpCk (dsc.txsm env.build)).shift (txVlan env dsc))) rest
        (txPieces (halfAt x.txctx.tcpSegSetup 16).toNat (txBytes rest) rest (txBytes rest)) frames) ∧
    (TsoHdrFits x.txctx (txVlan env dsc)
        ((x.txctx.ipCk (dsc.ixsm env.build)).shift (txVlan env dsc))
        ((x.txctx.tcpCk (dsc.txsm env.build)).shift (txVlan env dsc)) →
      ∃ fuel' frames, e82545TransmitPacket env fuel' x.txctx dsc l = .ok frames) := by
  obtain ⟨-, l₀, ⟨htso, hbuf⟩, rfl⟩ := @e82545TxScan_packet _ _ _ _ _ _ _ _ _
    (fun l => l.tso = false ∧ l.Buffers)
    (fun l dsc h => ⟨(l.first_tso _ dsc).trans h.1, h.2.first _ dsc⟩)
    (fun l dsc h => ⟨(l.addBuffer_tso _ dsc).trans h.1, h.2.addBuffer _ dsc⟩)
    _ _ _ _ ⟨rfl, Nat.le_refl _, Nat.zero_le _⟩ hscan
  obtain ⟨htse', hcks⟩ := @TxLocals.final_tso env.build x.txctx dsc l₀ htso
  obtain ⟨h0, h1⟩ := hcks htse
  have hhdr := txCopyHeader_hdr hcopy
  have hroom := txHdrRoom_le (Nat.le_of_lt_succ (byteAt x.txctx.tcpSegSetup 8).isLt) (txVlan env dsc)
  have hmax : (halfAt x.txctx.tcpSegSetup 16).toNat < 2 ^ 16 := (halfAt x.txctx.tcpSegSetup 16).isLt
  have hinsert := @txInsertVlan_touches (txVlan env dsc) hdr (env.vet.setWidth 16)
    (halfAt (dsc.upper env.build) 16)
  rw [hhdr] at hinsert
  refine ⟨txCopyHeader_bytes hcopy, fun fuel' frames h => ?_, fun hfits => ?_⟩
  · rw [e82545TransmitPacket_tso (htse'.trans htse) hcnt hcopy, h0, h1] at h
    obtain ⟨hdr', hvlan, h⟩ := Except.bind_eq_ok.1 h
    obtain ⟨o, ho, h⟩ := Except.bind_eq_ok.1 h
    obtain ⟨-, hcut⟩ := txTsoInfo_eq_ok ho
    obtain ⟨hip, -, -⟩ := txTsoInfo_fields ho
    have hlen := hinsert.length hvlan
    obtain rfl := txInsertVlan_tagged hvlan
    rw [hcut.paylen, ← hpaylen] at h
    -- every segment edits the copy that the one before it has left
    obtain ⟨new, rfl, hnew⟩ := txSegments_frames
      (H := SameBut (segmentFields o.ip o.tcp o.ck0 o.ck1) (txTagged env dsc hdr)) (hcut.mss ▸ hmss)
      (hcut.mss ▸ hmax) hroom (fun sent hsent => hsent.length.trans hlen)
      (fun hbefore hseg => hbefore.trans (txSegmentHeader_sameBut hcut.ipcs hseg)) (.refl _ _)
      (Nat.le_refl _) h
    rw [hcut.mss, hip, hcut.tcp, hcut.ck0, hcut.ck1] at hnew
    refine ⟨hlen, hnew, txPieces_cutBy env.mem hmss rfl (Nat.le_refl _), fun p hp => ?_⟩
    have hrest := txCopyHeader_length hcopy
    rw [TxLocals.final_iov] at hrest
    have hpieces := txPieces_length env.mem (Nat.le_trans hrest hbuf.2) p hp
    omega
  · rw [← hhdr] at hinsert
    obtain ⟨hdr', hvlan, hlen⟩ := hinsert.inside (inside_txVlanTrace.2 (hhdr ▸ hfits.addrs))
    rw [hhdr] at hlen
    obtain ⟨o, ho, hcut, hofits⟩ := hfits.info hlen
    obtain ⟨frames, hframes⟩ := @txSegments_returns env.mem o hcut.ipcs (hcut.mss ▸ hmss)
      (hcut.mss ▸ hmax) (o.paylen + 1) hdr' rest 0 o.paylen [] (hlen ▸ hroom)
      (Nat.lt_succ_self _) hofits
    refine ⟨o.paylen + 1, frames, ?_⟩
    rw [e82545TransmitPacket_tso (htse'.trans htse) hcnt hcopy, h0, h1]
    exact (Except.bind_ok hvlan).trans ((Except.bind_ok ho).trans hframes)

/-- Memory in which a byte is its own address. -/
def countEnv : TxEnv := ⟨.integer, ⟨0⟩, 0, 0, fun a => a.setWidth 8⟩

/-- The three segments of a packet with a header of 40 bytes and 24 bytes of payload. -/
theorem tso_splits_payload_three : ∃ fuel frames,
    e82545TransmitPacket countEnv fuel tsoPacket.txctx (tsoPacket.ring 0)
      (((TxLocals.start.first .integer (tsoPacket.ring 0)).addBuffer countEnv
        (tsoPacket.ring 0)).final .integer tsoPacket.txctx (tsoPacket.ring 0)) = .ok frames ∧
      TsoFrames countEnv.mem 40 10 (List.ofFn fun i : Fin 40 => BitVec.ofNat 8 i)
        (segmentFields false true (tsoPacket.txctx.ipCk false) (tsoPacket.txctx.tcpCk false))
        [.guest 40 24] [[.guest 40 10], [.guest 50 10], [.guest 60 4]] frames := by
  obtain ⟨-, hframes, hsent⟩ := @tso_splits_payload countEnv tsoPacket 0 1 8 1 (tsoPacket.ring 0) 0 0 _
    (List.ofFn fun i : Fin 40 => BitVec.ofNat 8 i) [.guest 40 24] rfl (by decide) (by decide)
    (by decide) rfl (by decide)
  obtain ⟨fuel, frames, hok⟩ := hsent ⟨by decide, by decide, by decide, by decide, by decide, by decide⟩
  exact ⟨fuel, frames, hok, hframes fuel frames hok⟩

end DeviceModel

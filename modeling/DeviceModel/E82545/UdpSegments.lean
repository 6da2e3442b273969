import DeviceModel.E82545.TsoHeaders

/-!
# Headers of UDP segments

The length of a UDP datagram is stored as a word of four bytes in the order of the host.
The first two of them are the length field, with its bytes the wrong way round, and the
other two are the checksum. What is added to the sum of the pseudo-header is in the
order of the network.
-/

namespace DeviceModel

/-! ## The fields -/

namespace CkInfo

variable (ck : CkInfo)

/-- The payload length of an IPv6 header that starts at `ck_start`. -/
def ip6Len : Extent := ⟨ck.ckStart.toNat + 4, 2⟩

/-- The length of a UDP header that starts at `ck_start`. -/
def udpLen : Extent := ⟨ck.ckStart.toNat + 4, 2⟩

/-- Its checksum. -/
def udpSum : Extent := ⟨ck.ckStart.toNat + 6, 2⟩

end CkInfo

/-- The fields that the segments of a UDP packet differ in. -/
def udpFields (ip : Bool) (ck0 ck1 : CkInfo) : List Extent :=
  (if ip then [ck0.ipLen, ck0.ipId] else [ck0.ip6Len]) ++ [ck1.udpLen, ck1.udpSum] ++
    (ck0.field ++ ck1.field)

/-- No checksum that is asked for is where the UDP length is. -/
def UdpLenClear (ck0 ck1 : CkInfo) : Prop := ∀ d ∈ ck0.field ++ ck1.field, d.Clear ck1.udpLen

instance (ck0 ck1 : CkInfo) : Decidable (UdpLenClear ck0 ck1) :=
  inferInstanceAs (Decidable (∀ d ∈ ck0.field ++ ck1.field, d.Clear ck1.udpLen))

/-! ## The stores -/

/-- "Update IP header", for both versions. -/
theorem TsoInfo.updateIp_sameBut {o : TsoInfo} {hdr hdr' : List U8} {seg now : Nat}
    (h : o.updateIp hdr seg now = .ok hdr') :
    SameBut (if o.ip then [o.ck0.ipLen, o.ck0.ipId] else [o.ck0.ip6Len]) hdr hdr' := by
  cases hip : o.ip with
  | true => exact (TsoInfo.updateIp_spec hip h).2.2
  | false =>
    rw [updateIp, hip, if_neg Bool.false_ne_true] at h
    exact (@writeHdr_spec o.ck0.ip6Len _ _ _ (le16_length _) h).2

/-- "Update payload length". -/
theorem TsoInfo.updateTcp_udp {o : TsoInfo} {n : Nat} {hdr hdr' : List U8} {left now : Nat}
    (htcp : o.tcp = false) (h : o.updateTcp n hdr left now = .ok hdr') :
    o.ck1.udpLen.get hdr' =
      (le32 (BitVec.ofInt 32 ((n : Int) - o.ck1.ckStart.toNat + now))).take 2 ∧
    SameBut [o.ck1.udpLen, o.ck1.udpSum] hdr hdr' := by
  rw [updateTcp, htcp, if_neg Bool.false_ne_true] at h
  obtain ⟨hget, hsame⟩ := @writeHdr_spec ⟨o.ck1.ckStart.toNat + 4, 2 + 2⟩ _ _ _ (le32_length _) h
  refine ⟨?_, hsame.split⟩
  rw [← hget, Extent.take_get 2 hdr' (by decide)]
  rfl

/-- What is stored in the length field, read in the order of the network. -/
theorem ofBe_le32_take (n : Nat) :
    ofBe ((le32 (BitVec.ofInt 32 n)).take 2) = n % 256 * 256 + n / 256 % 256 := by
  rw [BitVec.ofInt_natCast]
  simp only [le32, byteAt, List.take_succ_cons, List.take_zero, ofBe, List.foldl_cons,
    List.foldl_nil, BitVec.extractLsb'_toNat, BitVec.toNat_ofNat, Nat.shiftRight_eq_div_pow]
  omega

/-- The header of a segment with `left` bytes to go. -/
structure TsoInfo.UdpSent (o : TsoInfo) (hdr : List U8) (left : Nat) (sent : List U8) : Prop where
  len : UdpLenClear o.ck0 o.ck1 → o.ck1.udpLen.get sent =
    (le32 (BitVec.ofInt 32 ((hdr.length : Int) - o.ck1.ckStart.toNat + (min left o.mss : Nat)))).take 2
  same : SameBut (udpFields o.ip o.ck0 o.ck1) hdr sent

/-- **One segment** of a UDP packet. -/
theorem txSegmentHeader_udp {mem : Mem} {o : TsoInfo} {hdr now hdr' : List U8}
    {pieces : List TxIovec} {seg left : Nat} (hipcs : o.ipcs.length = 2) (htcp : o.tcp = false)
    (hbefore : SameBut (udpFields o.ip o.ck0 o.ck1) hdr now)
    (h : txSegmentHeader mem o now pieces seg left (min left o.mss) = .ok hdr') :
    o.UdpSent hdr left hdr' := by
  rw [txSegmentHeader_eq] at h
  obtain ⟨hdr₁, hupdip, h⟩ := Except.bind_eq_ok.1 h
  obtain ⟨hdr₂, hupdtcp, h⟩ := Except.bind_eq_ok.1 h
  have hsame₁ := TsoInfo.updateIp_sameBut hupdip
  obtain ⟨hlen, hsame₂⟩ := TsoInfo.updateTcp_udp htcp hupdtcp
  have hsame₃ := ckSegments_sameBut hipcs (le16_length _) h
  refine ⟨fun hclear => ?_, hbefore.trans ?_⟩
  · rw [hsame₃.get_eq hclear, hlen, hbefore.length]
  · refine (hsame₁.mono ?_).trans ((hsame₂.mono ?_).trans (hsame₃.mono ?_))
    · exact fun e he => List.mem_append_left _ (List.mem_append_left _ he)
    · exact fun e he => List.mem_append_left _ (List.mem_append_right _ he)
    · exact fun e he => List.mem_append_right _ he

/-! ## What the headers should say -/

/-- The header of a segment for which `now` bytes of payload were counted and which has
`paylen`, against the header of the packet. -/
structure UdpHeaderOk (ip : Bool) (ck0 ck1 : CkInfo) (hdr : List U8) (now paylen : Nat)
    (seg : List U8) : Prop where
  len : ofBe (ck1.udpLen.get seg) = hdr.length - ck1.ckStart.toNat + paylen
  /-- the sum of the pseudo-header has the same length added -/
  sum : ofBe (ck1.udpLen.get seg) =
    ofBe (le16 (htons ((hdr.length : Int) - ck1.ckStart.toNat + now)))
  same : SameBut (udpFields ip ck0 ck1) hdr seg

/-- All frames have the headers they should. -/
def UdpHeadersOk (ip : Bool) (ck0 ck1 : CkInfo) (hdr : List U8) (mss paylen : Nat)
    (frames : List (List U8)) : Prop :=
  ∀ k frame, frames[k]? = some frame →
    UdpHeaderOk ip ck0 ck1 hdr (min (paylen - k * mss) mss) (frame.length - hdr.length)
      (frame.take hdr.length)

/-- A number whose two bytes are alike. -/
theorem swap_eq_iff {n : Nat} :
    n % 256 * 256 + n / 256 % 256 = n % 2 ^ 16 ∧ n < 2 ^ 16 ↔ 257 ∣ n ∧ n < 2 ^ 16 := by
  constructor
  · rintro ⟨hswap, hsmall⟩
    exact ⟨⟨n / 256, by omega⟩, hsmall⟩
  · rintro ⟨⟨d, rfl⟩, hsmall⟩
    have hd : d < 256 := by omega
    have hdiv : 257 * d / 256 = d := by omega
    have hmod : 257 * d % 256 = d := by omega
    rw [hdiv, hmod, Nat.mod_eq_of_lt hd, Nat.mod_eq_of_lt hsmall]
    omega

/-- **The headers are right** if and only if there is nothing to send, or the payload is
there and every length has two like bytes. -/
theorem udpHeadersOk_iff {o : TsoInfo} {hdr : List U8} {frames : List (List U8)} {avail : Nat}
    (hmss : 1 ≤ o.mss) (hmax : o.mss < 2 ^ 16) (hroom : hdr.length ≤ 259)
    (hstart : o.ck1.ckStart.toNat + 8 ≤ hdr.length) (hclear : UdpLenClear o.ck0 o.ck1)
    (hcnt : ∀ k, k < frames.length ↔ k * o.mss < o.paylen)
    (hframes : ∀ k frame, frames[k]? = some frame →
      SegmentFrame hdr.length o.mss (o.paylen - k * o.mss) (avail - k * o.mss)
        (o.UdpSent hdr (o.paylen - k * o.mss)) frame) :
    UdpHeadersOk o.ip o.ck0 o.ck1 hdr o.mss o.paylen frames ↔
      (o.paylen = 0 ∨ o.paylen ≤ avail) ∧ ∀ k, k * o.mss < o.paylen →
        257 ∣ hdr.length - o.ck1.ckStart.toNat + min (o.paylen - k * o.mss) o.mss ∧
        hdr.length - o.ck1.ckStart.toNat + min (o.paylen - k * o.mss) o.mss < 2 ^ 16 := by
  -- what frame `k` has in its length field, and how long it is
  have hfield : ∀ k frame, frames[k]? = some frame →
      frame.length - hdr.length = min (min (o.paylen - k * o.mss) o.mss) (avail - k * o.mss) ∧
      ofBe (o.ck1.udpLen.get (frame.take hdr.length)) =
        (hdr.length - o.ck1.ckStart.toNat + min (o.paylen - k * o.mss) o.mss) % 256 * 256 +
          (hdr.length - o.ck1.ckStart.toNat + min (o.paylen - k * o.mss) o.mss) / 256 % 256 := by
    intro k frame hframe
    obtain ⟨hlen, hs⟩ := hframes k frame hframe
    have hcast : (hdr.length : Int) - o.ck1.ckStart.toNat + (min (o.paylen - k * o.mss) o.mss : Nat) =
        (hdr.length - o.ck1.ckStart.toNat + min (o.paylen - k * o.mss) o.mss : Nat) := by omega
    refine ⟨by omega, ?_⟩
    rw [hs.len hclear, hcast, ofBe_le32_take]
  have hadded : ∀ m : Nat, ofBe (le16 (htons ((hdr.length : Int) - o.ck1.ckStart.toNat + m))) =
      (hdr.length - o.ck1.ckStart.toNat + m) % 2 ^ 16 := by
    intro m
    have hbe := ofBe_htons ((hdr.length : Int) - o.ck1.ckStart.toNat + m)
    omega
  constructor
  · intro hok
    have hall : ∀ k, k * o.mss < o.paylen →
        257 ∣ hdr.length - o.ck1.ckStart.toNat + min (o.paylen - k * o.mss) o.mss ∧
        hdr.length - o.ck1.ckStart.toNat + min (o.paylen - k * o.mss) o.mss < 2 ^ 16 ∧
        min (o.paylen - k * o.mss) o.mss ≤ avail - k * o.mss := by
      intro k hk
      have hframe := List.getElem?_eq_getElem ((hcnt k).2 hk)
      obtain ⟨hlen, hswap⟩ := hfield k _ hframe
      obtain ⟨hval, hsum, -⟩ := hok k _ hframe
      rw [hadded] at hsum
      have hlike := @swap_eq_iff
        (hdr.length - o.ck1.ckStart.toNat + min (o.paylen - k * o.mss) o.mss)
      have hsmall : hdr.length - o.ck1.ckStart.toNat + min (o.paylen - k * o.mss) o.mss < 2 ^ 16 := by
        omega
      obtain ⟨hdvd, -⟩ := hlike.1 ⟨hswap ▸ hsum, hsmall⟩
      exact ⟨hdvd, hsmall, by omega⟩
    refine ⟨?_, fun k hk => ⟨(hall k hk).1, (hall k hk).2.1⟩⟩
    rcases Nat.eq_zero_or_pos o.paylen with hzero | hpos
    · exact .inl hzero
    · right
      have hsome : 0 < frames.length := (hcnt 0).2 (by omega)
      obtain ⟨k, hk⟩ : ∃ k, k + 1 = frames.length := ⟨frames.length - 1, by omega⟩
      have hklt : k * o.mss < o.paylen := (hcnt k).1 (by omega)
      have hkend := (last_frame_iff hcnt (by omega)).1 hk
      have havail := (hall k hklt).2.2
      omega
  · rintro ⟨havail, hall⟩ k frame hframe
    have hklt := (hcnt k).1 (List.getElem?_eq_some_iff.1 hframe).1
    obtain ⟨hlen, hswap⟩ := hfield k frame hframe
    have hlike := @swap_eq_iff
      (hdr.length - o.ck1.ckStart.toNat + min (o.paylen - k * o.mss) o.mss)
    obtain ⟨hsame, hsmall⟩ := hlike.2 (hall k hklt)
    refine ⟨by omega, ?_, (hframes k frame hframe).header.same⟩
    rw [hadded]
    omega

/-! ## A packet -/

/-- **UDP segments.** With the fields that the context names inside the header, a packet
is sent; and where no checksum is in the place of the UDP length, all its headers are
right if and only if its payload is there and every segment's length is a multiple of 257
below 65536. -/
theorem udp_segments_iff {env : TxEnv} {x : TxSide} {head tail dsize fuel : Nat}
    {dsc : E1000TxUdesc} {last n : Nat} {l : TxLocals} {hdr hdr' : List U8} {rest : List TxIovec}
    (hscan : e82545TxScan env x.txctx x.ring tail dsize fuel head 0 .start =
      .ok (.packet dsc last n l))
    (htse : dsc.tse env.build = true) (hcnt : l.iovcnt ≤ i82545MaxTxsegs)
    (hudp : x.txctx.cmdAndLength &&& e1000TxdCmdTCP = 0)
    (hmss : 1 ≤ (halfAt x.txctx.tcpSegSetup 16).toNat)
    (hcopy : txCopyHeader env.mem l.iov (byteAt x.txctx.tcpSegSetup 8).toNat = .ok (hdr, rest))
    (hvlan : txInsertVlan (txVlan env dsc) (env.vet.setWidth 16) (halfAt (dsc.upper env.build) 16)
      hdr = .ok hdr')
    (hfits : TsoHdrFits x.txctx (txVlan env dsc)
      ((x.txctx.ipCk (dsc.ixsm env.build)).shift (txVlan env dsc))
      ((x.txctx.tcpCk (dsc.txsm env.build)).shift (txVlan env dsc)))
    {fuel' : Nat} (hfuel : (x.txctx.cmdAndLength &&& 0x000fffff#32).toNat < fuel') :
    ∃ frames, e82545TransmitPacket env fuel' x.txctx dsc l = .ok frames ∧
      (UdpLenClear ((x.txctx.ipCk (dsc.ixsm env.build)).shift (txVlan env dsc))
          ((x.txctx.tcpCk (dsc.txsm env.build)).shift (txVlan env dsc)) →
        (UdpHeadersOk ((x.txctx.cmdAndLength &&& e1000TxdCmdIP) != 0)
            ((x.txctx.ipCk (dsc.ixsm env.build)).shift (txVlan env dsc))
            ((x.txctx.tcpCk (dsc.txsm env.build)).shift (txVlan env dsc)) hdr'
            (halfAt x.txctx.tcpSegSetup 16).toNat
            (x.txctx.cmdAndLength &&& 0x000fffff#32).toNat frames ↔
          ((x.txctx.cmdAndLength &&& 0x000fffff#32).toNat = 0 ∨
            (x.txctx.cmdAndLength &&& 0x000fffff#32).toNat ≤ txBytes rest) ∧
          ∀ k, k * (halfAt x.txctx.tcpSegSetup 16).toNat <
              (x.txctx.cmdAndLength &&& 0x000fffff#32).toNat →
            257 ∣ hdr'.length -
                ((x.txctx.tcpCk (dsc.txsm env.build)).shift (txVlan env dsc)).ckStart.toNat +
              min ((x.txctx.cmdAndLength &&& 0x000fffff#32).toNat -
                k * (halfAt x.txctx.tcpSegSetup 16).toNat) (halfAt x.txctx.tcpSegSetup 16).toNat ∧
            hdr'.length -
                ((x.txctx.tcpCk (dsc.txsm env.build)).shift (txVlan env dsc)).ckStart.toNat +
              min ((x.txctx.cmdAndLength &&& 0x000fffff#32).toNat -
                k * (halfAt x.txctx.tcpSegSetup 16).toNat) (halfAt x.txctx.tcpSegSetup 16).toNat <
              2 ^ 16)) := by
  have hhdr := txCopyHeader_hdr hcopy
  have hlen := (@txInsertVlan_touches (txVlan env dsc) hdr (env.vet.setWidth 16)
    (halfAt (dsc.upper env.build) 16)).length hvlan
  rw [hhdr] at hlen
  have hstart := hfits.seq
  rw [← hlen] at hstart
  obtain ⟨hroom, o, ho, hsend⟩ := e82545TransmitPacket_segments hscan htse hcnt hmss hcopy hvlan hfits
  have hcut := (txTsoInfo_eq_ok ho).2
  obtain ⟨hoip, -, -⟩ := txTsoInfo_fields ho
  have hmax : o.mss < 2 ^ 16 := hcut.mss ▸ (halfAt x.txctx.tcpSegSetup 16).isLt
  have htcp : o.tcp = false := by rw [hcut.tcp, hudp]; rfl
  rw [← hcut.paylen] at hfuel ⊢
  rw [← hcut.mss] at hmss ⊢
  rw [← hcut.ck1] at hstart
  rw [← hoip, ← hcut.ck0, ← hcut.ck1]
  obtain ⟨frames, hpacket, hframes⟩ := hsend fuel' hfuel
  obtain ⟨new, hnew, hcount, hsent⟩ := @txSegments_run env.mem o hdr'.length
    (fun _ => SameBut (udpFields o.ip o.ck0 o.ck1) hdr') (fun _ => o.UdpSent hdr')
    hcut.ipcs hmss hmax hroom
    (fun _ hbefore hseg =>
      have hudp := txSegmentHeader_udp hcut.ipcs htcp hbefore hseg
      ⟨hudp, fun _ => hudp.same⟩)
    _ _ _ _ _ _ _ rfl (fun _ => .refl _ _) hframes
  rw [List.nil_append] at hnew
  subst hnew
  exact ⟨frames, hpacket, fun hclear =>
    udpHeadersOk_iff hmss hmax hroom hstart hclear hcount hsent⟩

/-- 64 bytes to be sent as a UDP/IPv4 header of 28 bytes and segments of 10 bytes. -/
def udpPacket : TxSide where
  ring := fun _ => ⟨0, 0, 0x27100040, 0x0300, 0, 0⟩
  txctx := ⟨0x20000a00, 0x1a14, 0x02000024, 0x000a1c00⟩
  wire := []

/-- The locals past its one descriptor. -/
def udpLocals : TxLocals :=
  ((TxLocals.start.first .integer (udpPacket.ring 0)).addBuffer tcpEnv (udpPacket.ring 0)).final
    .integer udpPacket.txctx (udpPacket.ring 0)

theorem udpPacket_fits :
    TsoHdrFits udpPacket.txctx false (udpPacket.txctx.ipCk true) (udpPacket.txctx.tcpCk true) :=
  ⟨by decide, by decide, by decide, by decide, by decide, by decide⟩

theorem udp_segments_iff_four : ∃ frames,
    e82545TransmitPacket tcpEnv 37 udpPacket.txctx (udpPacket.ring 0) udpLocals = .ok frames ∧
      (UdpLenClear (udpPacket.txctx.ipCk true) (udpPacket.txctx.tcpCk true) →
        (UdpHeadersOk true (udpPacket.txctx.ipCk true) (udpPacket.txctx.tcpCk true)
            (List.replicate 28 0xff) 10 36 frames ↔
          (36 = 0 ∨ 36 ≤ txBytes [.guest 28 36]) ∧
          ∀ k, k * 10 < 36 → 257 ∣ 28 - 20 + min (36 - k * 10) 10 ∧
            28 - 20 + min (36 - k * 10) 10 < 2 ^ 16)) :=
  @udp_segments_iff tcpEnv udpPacket 0 1 8 1 (udpPacket.ring 0) 0 0 udpLocals
    (List.replicate 28 0xff) (List.replicate 28 0xff) [.guest 28 36] rfl (by decide) (by decide)
    (by decide) (by decide) rfl rfl udpPacket_fits 37 (by decide)

/-- The length of a datagram of 18 bytes is stored as 0x1200. -/
theorem udp_length_swapped :
    ¬ ∀ (env : TxEnv) (x : TxSide) (head tail dsize fuel : Nat) (dsc : E1000TxUdesc) (last n : Nat)
      (l : TxLocals) (hdr hdr' : List U8) (rest : List TxIovec),
      e82545TxScan env x.txctx x.ring tail dsize fuel head 0 .start = .ok (.packet dsc last n l) →
      dsc.tse env.build = true → l.iovcnt ≤ i82545MaxTxsegs →
      x.txctx.cmdAndLength &&& e1000TxdCmdTCP = 0 → 1 ≤ (halfAt x.txctx.tcpSegSetup 16).toNat →
      txCopyHeader env.mem l.iov (byteAt x.txctx.tcpSegSetup 8).toNat = .ok (hdr, rest) →
      txInsertVlan (txVlan env dsc) (env.vet.setWidth 16) (halfAt (dsc.upper env.build) 16) hdr =
        .ok hdr' →
      TsoHdrFits x.txctx (txVlan env dsc)
        ((x.txctx.ipCk (dsc.ixsm env.build)).shift (txVlan env dsc))
        ((x.txctx.tcpCk (dsc.txsm env.build)).shift (txVlan env dsc)) →
      ∀ fuel' frames, e82545TransmitPacket env fuel' x.txctx dsc l = .ok frames →
        UdpHeadersOk ((x.txctx.cmdAndLength &&& e1000TxdCmdIP) != 0)
          ((x.txctx.ipCk (dsc.ixsm env.build)).shift (txVlan env dsc))
          ((x.txctx.tcpCk (dsc.txsm env.build)).shift (txVlan env dsc)) hdr'
          (halfAt x.txctx.tcpSegSetup 16).toNat
          (x.txctx.cmdAndLength &&& 0x000fffff#32).toNat frames := by
  intro h
  have hsent : e82545TransmitPacket tcpEnv 37 udpPacket.txctx (udpPacket.ring 0) udpLocals =
      .ok (outcome (e82545TransmitPacket tcpEnv 37 udpPacket.txctx (udpPacket.ring 0) udpLocals)
        []) := eq_ok_outcome (by decide +kernel)
  have hok := h tcpEnv udpPacket 0 1 8 1 (udpPacket.ring 0) 0 0 udpLocals
    (List.replicate 28 0xff) (List.replicate 28 0xff) [.guest 28 36] rfl (by decide) (by decide)
    (by decide) (by decide) rfl rfl udpPacket_fits 37 _ hsent
  have hlen := (hok 0 _ (List.getElem?_eq_getElem (by decide +kernel))).len
  revert hlen
  decide +kernel

end DeviceModel

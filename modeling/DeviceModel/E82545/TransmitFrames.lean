import DeviceModel.E82545.TransmitSchedule
import DeviceModel.E82545.VlanInsert

/-!
# The transmit ring delivers its packets

The guest puts contexts and packets into the ring. However it publishes them, and whenever the
device polls, the frames on the wire are the packets in their order, each the bytes of its buffers
with the tag and the checksums that its descriptors ask for.
-/

namespace DeviceModel

open Relation

/-! ## What the ring holds -/

/-- What the guest puts into the ring: a context, or the descriptors of a packet. -/
inductive TxItem : Type where
  | context (dsc : E1000TxUdesc)
  | packet (inner : List E1000TxUdesc) (last : E1000TxUdesc)

def TxItem.descs : TxItem → List E1000TxUdesc
  | .context dsc => [dsc]
  | .packet inner last => inner ++ [last]

/-- The descriptors `ds` stand from offset `k` on. -/
def RingHolds (ring : Nat → E1000TxUdesc) (n h k : Nat) (ds : List E1000TxUdesc) : Prop :=
  ∀ i d, ds[i]? = some d → ring (ringPos n h (k + i)) = d

section RingHolds

variable {ring ring' : Nat → E1000TxUdesc} {n h k : Nat} {d : E1000TxUdesc} {ds es : List E1000TxUdesc}

theorem RingHolds.append_iff :
    RingHolds ring n h k (ds ++ es) ↔ RingHolds ring n h k ds ∧ RingHolds ring n h (k + ds.length) es := by
  constructor
  · intro hall
    refine ⟨fun i d hi => hall i d ?_, fun i d hi => ?_⟩
    · have hlt : i < ds.length := (List.getElem?_eq_some_iff.1 hi).1
      rw [List.getElem?_append_left hlt]
      exact hi
    · rw [Nat.add_assoc]
      refine hall _ d ?_
      rw [List.getElem?_append_right (Nat.le_add_right _ _), Nat.add_sub_cancel_left]
      exact hi
  · rintro ⟨hds, hes⟩ i d hi
    rcases Nat.lt_or_ge i ds.length with hlt | hge
    · rw [List.getElem?_append_left hlt] at hi
      exact hds i d hi
    · rw [List.getElem?_append_right hge] at hi
      have hplace := hes (i - ds.length) d hi
      rwa [Nat.add_assoc, Nat.add_sub_cancel' hge] at hplace

theorem RingHolds.head (h' : RingHolds ring n h k (d :: ds)) : ring (ringPos n h k) = d :=
  h' 0 d rfl

theorem RingHolds.tail (h' : RingHolds ring n h k (d :: ds)) : RingHolds ring n h (k + 1) ds :=
  ((@append_iff ring n h k [d] ds).1 h').2

/-- What lies past the offset `k` is not marked up to there. -/
theorem RingHolds.markDone {j m : Nat} (b : Build) (h' : RingHolds ring n h k ds) (hkm : k + ds.length ≤ m)
    (hmn : m < n) : RingHolds (markDone b n h j k ring) n h k ds := by
  intro i d hi
  have hlt : i < ds.length := (List.getElem?_eq_some_iff.1 hi).1
  rw [DeviceModel.markDone, if_neg]
  · exact h' i d hi
  · rintro ⟨hin, -⟩
    exact not_inWindow_ringPos (by omega) (by omega) (.inr (Nat.le_add_right k i)) hin

end RingHolds

/-! ## One packet -/

/-- The descriptors of a packet are all legacy ones or all data ones, and the last ends it. -/
structure PacketDescs (b : Build) (inner : List E1000TxUdesc) (last : E1000TxUdesc) (t : U32) : Prop where
  type : t = e1000TxdTypL ∨ t = e1000TxdTypD
  dtype : ∀ d ∈ inner ++ [last], d.dtype b = t
  inner : ∀ d ∈ inner, d.eop b = false
  last : last.eop b = true

/-- The locals after the descriptor loop. -/
def txGather (env : TxEnv) (cd : E1000ContextDesc) (inner : List E1000TxUdesc) (last : E1000TxUdesc) :
    TxLocals :=
  ((inner ++ [last]).foldl (TxLocals.addBuffer env)
    (TxLocals.start.first env.build (inner.headD last))).final env.build cd last

/-- The bytes of the buffers of a packet. -/
def packetBytes (env : TxEnv) (inner : List E1000TxUdesc) (last : E1000TxUdesc) : List U8 :=
  iovBytes env.mem ((txBuffered env.build (inner ++ [last])).map (txBuffer env))

section Scan

variable {env : TxEnv} {cd : E1000ContextDesc} {ring : Nat → E1000TxUdesc} {n h d k : Nat} {t : U32}
  {inner : List E1000TxUdesc} {last : E1000TxUdesc}

theorem PacketDescs.not_context (hp : PacketDescs env.build inner last t) : t ≠ e1000TxdTypC := by
  rcases hp.type with rfl | rfl <;> decide

/-- One turn of the descriptor loop, at a descriptor of type `t` before the tail. -/
theorem e82545TxScan_turn {e : E1000TxUdesc} {desc fuel : Nat} {l l₁ : TxLocals} (hne : ringPos n h k ≠ ringPos n h d)
    (he : ring (ringPos n h k) = e) (hctx : t ≠ e1000TxdTypC) (het : e.dtype env.build = t)
    (hl : l₁ = if desc = 0 then l.first env.build e else l) (htype : l₁.ntype = t) :
    e82545TxScan env cd ring (ringPos n h d) n (fuel + 1) (ringPos n h k) desc l =
      if e.eop env.build then
        .ok (.packet e (ringPos n h k) desc ((l₁.addBuffer env e).final env.build cd e))
      else e82545TxScan env cd ring (ringPos n h d) n fuel (ringPos n h (k + 1)) (desc + 1)
        (l₁.addBuffer env e) := by
  rw [e82545TxScan]
  dsimp only
  rw [if_neg hne, he, het, if_neg (fun hc => hctx hc.2), if_neg, ← hl, ringPos_succ]
  rintro ⟨hdesc, hnot⟩
  rw [if_neg hdesc] at hl
  exact hnot (by rw [← hl, htype])

/-- **The descriptor loop** reads the descriptors of a packet and no more. -/
theorem e82545TxScan_reads (hp : PacketDescs env.build inner last t)
    (hring : RingHolds ring n h k (inner ++ [last])) (hkd : k + inner.length < d) (hdn : d < n)
    {desc : Nat} {l l₁ : TxLocals} (hl : l₁ = if desc = 0 then l.first env.build (inner.headD last) else l)
    (htype : l₁.ntype = t) :
    ∃ fuel, e82545TxScan env cd ring (ringPos n h d) n fuel (ringPos n h k) desc l =
      .ok (.packet last (ringPos n h (k + inner.length)) (desc + inner.length)
        (((inner ++ [last]).foldl (TxLocals.addBuffer env) l₁).final env.build cd last)) := by
  induction inner generalizing k desc l l₁ with
  | nil =>
    refine ⟨1, ?_⟩
    have hlt : k < d := hkd
    have hne : ringPos n h k ≠ ringPos n h d := by
      rw [ne_eq, ringPos_inj (Nat.lt_trans hlt hdn) hdn]
      exact Nat.ne_of_lt hlt
    rw [e82545TxScan_turn hne hring.head hp.not_context (hp.dtype last (by simp)) hl htype, if_pos hp.last]
    rfl
  | cons e inner ih =>
    rw [List.length_cons] at hkd
    have hne : ringPos n h k ≠ ringPos n h d := by
      rw [ne_eq, ringPos_inj (by omega) hdn]
      omega
    have hrest : PacketDescs env.build inner last t :=
      ⟨hp.type, fun d hd => hp.dtype d (List.mem_cons_of_mem _ hd),
        fun d hd => hp.inner d (List.mem_cons_of_mem _ hd), hp.last⟩
    have hnext : (l₁.addBuffer env e).ntype = t := (l₁.addBuffer_ntype env e).trans htype
    obtain ⟨fuel, hscan⟩ := ih hrest hring.tail (by omega) (if_neg (Nat.succ_ne_zero desc)).symm hnext
    refine ⟨fuel + 1, ?_⟩
    rw [e82545TxScan_turn hne hring.head hp.not_context (hp.dtype e (by simp)) hl htype,
      if_neg (by rw [hp.inner e (by simp)]; exact Bool.false_ne_true), hscan, List.length_cons]
    have hplace : k + 1 + inner.length = k + (inner.length + 1) := by omega
    have hcount : desc + 1 + inner.length = desc + (inner.length + 1) := by omega
    rw [hplace, hcount]
    rfl

/-- The loop from the first descriptor of a packet. -/
theorem PacketDescs.scan (hp : PacketDescs env.build inner last t)
    (hring : RingHolds ring n h k (inner ++ [last])) (hkd : k + (inner ++ [last]).length ≤ d) (hdn : d < n) :
    ∃ fuel, e82545TxScan env cd ring (ringPos n h d) n fuel (ringPos n h k) 0 .start =
      .ok (.packet last (ringPos n h (k + inner.length)) inner.length (txGather env cd inner last)) := by
  rw [List.length_append, List.length_singleton] at hkd
  have hhead : (inner.headD last).dtype env.build = t := by
    cases inner with
    | nil => exact hp.dtype last (by simp)
    | cons e inner => exact hp.dtype e (by simp)
  have htype : (TxLocals.start.first env.build (inner.headD last)).ntype = t := by
    rw [TxLocals.first_ntype, txNtype, hhead]
    rcases hp.type with rfl | rfl <;> rfl
  obtain ⟨fuel, hscan⟩ := @e82545TxScan_reads env cd ring n h d k t inner last hp hring hkd hdn 0 .start _
    (if_pos rfl).symm htype
  refine ⟨fuel, ?_⟩
  rw [hscan, Nat.zero_add]
  rfl

/-- What the loop has gathered. -/
theorem txGather_gathered (env : TxEnv) (cd : E1000ContextDesc) (inner : List E1000TxUdesc)
    (last : E1000TxUdesc) : (txGather env cd inner last).Gathered env (inner ++ [last]) := by
  have hall : ∀ (ds before : List E1000TxUdesc) (l : TxLocals), l.Gathered env before →
      (ds.foldl (TxLocals.addBuffer env) l).Gathered env (before ++ ds) := by
    intro ds
    induction ds with
    | nil => intro before l hl; rwa [List.append_nil]
    | cons d ds ih =>
      intro before l hl
      have hmore := ih _ _ (hl.addBuffer d)
      rwa [List.append_assoc] at hmore
  exact (hall _ [] _ ((TxLocals.Gathered.start env).first _ _)).final _ _ _

end Scan

/-! ## One item -/

/-- What becomes of an item: a context is kept for the packets after it, and a packet that does not
ask for segmentation is sent as one frame, or dropped if it has more than 64 buffers. -/
inductive TxItem.Sends (env : TxEnv) (cd : E1000ContextDesc) :
    TxItem → E1000ContextDesc → List (List U8) → Prop where
  | context {dsc : E1000TxUdesc} : dsc.dtype env.build = e1000TxdTypC →
      Sends env cd (.context dsc) dsc.cd []
  | packet {inner : List E1000TxUdesc} {last : E1000TxUdesc} {t : U32} {mid frame : List U8} :
      PacketDescs env.build inner last t → (txGather env cd inner last).tso = false →
      (txGather env cd inner last).iovcnt ≤ i82545MaxTxsegs →
      txHdrlen (txGather env cd inner last) cd (txVlan env last) ≤ (packetBytes env inner last).length →
      (packetBytes env inner last).length + 4 < virtioMaxBuf →
      ((txGather env cd inner last).ck0.shift (txVlan env last)).Fills
        (txTagged env last (packetBytes env inner last)) mid →
      ((txGather env cd inner last).ck1.shift (txVlan env last)).Fills mid frame →
      Sends env cd (.packet inner last) cd [frame]
  | dropped {inner : List E1000TxUdesc} {last : E1000TxUdesc} {t : U32} :
      PacketDescs env.build inner last t →
      i82545MaxTxsegs < (txGather env cd inner last).iovcnt →
      Sends env cd (.packet inner last) cd []

/-- A packet that asks for nothing is sent as it is. -/
theorem TxItem.Sends.plain {env : TxEnv} {cd : E1000ContextDesc} {inner : List E1000TxUdesc}
    {last : E1000TxUdesc} {t : U32} (hp : PacketDescs env.build inner last t)
    (htso : (txGather env cd inner last).tso = false) (hck₀ : (txGather env cd inner last).ck0.ckValid = false)
    (hck₁ : (txGather env cd inner last).ck1.ckValid = false) (hvlan : txVlan env last = false)
    (hcnt : (txGather env cd inner last).iovcnt ≤ i82545MaxTxsegs)
    (hmax : (packetBytes env inner last).length + 4 < virtioMaxBuf) :
    TxItem.Sends env cd (.packet inner last) cd [packetBytes env inner last] := by
  have hfills : ∀ {ck : CkInfo} (bytes : List U8), ck.ckValid = false →
      (ck.shift (txVlan env last)).Fills bytes bytes := by
    intro ck bytes hck
    rw [CkInfo.Fills, CkInfo.shift_valid, hck, if_neg Bool.false_ne_true]
  have hwanted : txHdrlen (txGather env cd inner last) cd (txVlan env last) = 0 := by
    rw [txHdrlen, htso, hck₀, hck₁, hvlan]
    simp only [Bool.false_eq_true, if_false, ne_eq, not_true_eq_false, false_and]
    cases (txGather env cd inner last).iov <;> rfl
  have htagged : txTagged env last (packetBytes env inner last) = packetBytes env inner last := by
    rw [txTagged, hvlan, if_neg Bool.false_ne_true]
  exact .packet hp htso hcnt (hwanted ▸ Nat.zero_le _) hmax (htagged.symm ▸ hfills _ hck₀) (hfills _ hck₁)

/-- The items of a window, one after the other. -/
inductive TxItemsSend (env : TxEnv) :
    E1000ContextDesc → List TxItem → E1000ContextDesc → List (List U8) → Prop where
  | nil (cd : E1000ContextDesc) : TxItemsSend env cd [] cd []
  | cons {cd cd' cd'' : E1000ContextDesc} {item : TxItem} {items : List TxItem}
      {frames more : List (List U8)} : item.Sends env cd cd' frames →
      TxItemsSend env cd' items cd'' more → TxItemsSend env cd (item :: items) cd'' (frames ++ more)

section Items

variable {env : TxEnv} {cd cd' : E1000ContextDesc} {n h d k : Nat} {x : TxSide} {item : TxItem}
  {items : List TxItem} {frames : List (List U8)}

/-- What the guest asks for is what is sent. -/
theorem e82545TransmitPacket_frame {inner : List E1000TxUdesc} {last : E1000TxUdesc} {mid frame : List U8}
    (htso : (txGather env cd inner last).tso = false)
    (hcnt : (txGather env cd inner last).iovcnt ≤ i82545MaxTxsegs)
    (hhdr : txHdrlen (txGather env cd inner last) cd (txVlan env last) ≤ (packetBytes env inner last).length)
    (hmax : (packetBytes env inner last).length + 4 < virtioMaxBuf)
    (hmid : ((txGather env cd inner last).ck0.shift (txVlan env last)).Fills
      (txTagged env last (packetBytes env inner last)) mid)
    (hframe : ((txGather env cd inner last).ck1.shift (txVlan env last)).Fills mid frame) (fuel : Nat) :
    e82545TransmitPacket env fuel cd last (txGather env cd inner last) = .ok [frame] := by
  obtain ⟨hiov, hvecs⟩ := (txGather_gathered env cd inner last).length hcnt
  have hbytes : iovBytes env.mem (txGather env cd inner last).iov = packetBytes env inner last := by
    rw [hiov, packetBytes]
  have hlen : txBytes (txGather env cd inner last).iov = (packetBytes env inner last).length := by
    rw [← hbytes, length_iovBytes]
  obtain ⟨mid', frame', hsent, hmid', hframe'⟩ := e82545TransmitPacket_fills htso hcnt (hvecs ▸ hcnt)
    (hlen.symm ▸ hhdr) (hlen.symm ▸ hmax)
  rw [hbytes] at hmid'
  obtain rfl := hmid'.unique hmid
  obtain rfl := hframe'.unique hframe
  exact hsent fuel

theorem TxOne.of_packet {inner : List E1000TxUdesc} {last : E1000TxUdesc} {t : U32}
    (hp : PacketDescs env.build inner last t) (hring : RingHolds x.ring n h k (inner ++ [last]))
    (hkd : k + (inner ++ [last]).length ≤ d) (hdn : d < n)
    (hsent : ∀ fuel, e82545TransmitPacket env fuel x.txctx last (txGather env x.txctx inner last) = .ok frames) :
    TxOne env n h d (k, x) (k + (inner ++ [last]).length,
      ⟨markDone env.build n h k (k + (inner ++ [last]).length) x.ring, x.txctx, x.wire ++ frames⟩) := by
  obtain ⟨fuel, hscan⟩ := @PacketDescs.scan env x.txctx x.ring n h d k t inner last hp hring hkd hdn
  have hcount : inner.length + 1 = (inner ++ [last]).length := by
    rw [List.length_append, List.length_singleton]
  refine ⟨fuel, _, { x with wire := x.wire ++ frames }, hscan, Nat.succ_pos _, ?_, ?_, ?_⟩
  · exact Except.bind_ok (hsent fuel)
  · rw [TxScan.count, hcount]
    exact hkd
  · rw [TxScan.count, hcount]

/-- **One item** is one step along the window. -/
theorem TxItem.Sends.one (hsend : item.Sends env x.txctx cd' frames)
    (hring : RingHolds x.ring n h k item.descs) (hkd : k + item.descs.length ≤ d) (hdn : d < n) :
    TxOne env n h d (k, x) (k + item.descs.length,
      ⟨markDone env.build n h k (k + item.descs.length) x.ring, cd', x.wire ++ frames⟩) := by
  cases hsend with
  | @context dsc hctx =>
    have hne : ringPos n h k ≠ ringPos n h d := by
      have hlt : k + 1 ≤ d := hkd
      rw [ne_eq, ringPos_inj (by omega) hdn]
      omega
    have hscan : txScanFrom env x n h k d 1 = .ok (.context dsc.cd) := by
      rw [txScanFrom, e82545TxScan]
      dsimp only
      rw [if_neg hne, hring.head, if_pos ⟨rfl, hctx⟩]
    exact ⟨1, _, _, hscan, Nat.one_pos, rfl, hkd, by rw [List.append_nil]; rfl⟩
  | @packet inner last t mid frame hp htso hcnt hhdr hmax hmid hframe =>
    refine TxOne.of_packet hp hring hkd hdn fun fuel => ?_
    exact e82545TransmitPacket_frame htso hcnt hhdr hmax hmid hframe fuel
  | @dropped inner last t hp hcnt =>
    refine TxOne.of_packet hp hring hkd hdn fun fuel => ?_
    rw [e82545TransmitPacket, if_pos hcnt]

/-- **All items**, one after the other. -/
theorem TxItemsSend.chain (hsend : TxItemsSend env x.txctx items cd' frames)
    (hring : RingHolds x.ring n h k (items.flatMap TxItem.descs))
    (hkd : k + (items.flatMap TxItem.descs).length ≤ d) (hdn : d < n) :
    ReflTransGen (TxOne env n h d) (k, x) (k + (items.flatMap TxItem.descs).length,
      ⟨markDone env.build n h k (k + (items.flatMap TxItem.descs).length) x.ring, cd', x.wire ++ frames⟩) := by
  generalize hcd : x.txctx = cd at hsend
  induction hsend generalizing x k with
  | nil cd =>
    subst hcd
    rw [List.flatMap_nil, List.length_nil, Nat.add_zero, markDone_self, List.append_nil]
  | @cons cd cd₁ cd₂ item items frames more hone _ ih =>
    subst hcd
    rw [List.flatMap_cons] at hring hkd ⊢
    rw [List.length_append] at hkd ⊢
    obtain ⟨hhere, hrest⟩ := RingHolds.append_iff.1 hring
    have hstep := hone.one hhere (by omega) hdn
    have hmore := ih
      (x := ⟨markDone env.build n h k (k + item.descs.length) x.ring, cd₁, x.wire ++ frames⟩)
      (hrest.markDone (m := d) env.build (by omega) hdn) (by omega) rfl
    refine .head hstep ?_
    rwa [markDone_markDone (Nat.le_add_right _ _) (Nat.le_add_right _ _), List.append_assoc, Nat.add_assoc] at hmore

end Items

/-! ## Any schedule -/

section Schedule

variable {b : Build} {s₀ s₁ : E1000} {h : Nat} {items : List TxItem} {cd : E1000ContextDesc}
  {frames : List (List U8)} {evs : List TxEvent}

/-- **The ring delivers its packets.** The guest puts contexts and packets into an idle ring of at
least 8 descriptors, and publishes them in any pieces, with polls in between. Then enough polls
look at all of them, and once that is so the wire has the frames of the packets in their order and
nothing else: none is lost, sent twice or mixed with another. -/
theorem transmit_delivers_packets (hidle : TxIdle s₀ h)
    (hfit : (items.flatMap TxItem.descs).length < s₀.sc.txSize)
    (hring : RingHolds s₀.txRing s₀.sc.txSize h 0 (items.flatMap TxItem.descs))
    (hsend : TxItemsSend (s₀.txEnv b) s₀.sc.tx.escTxctx items cd frames)
    (hrun : Run (TxScheduleStep b s₀.sc.txSize h (items.flatMap TxItem.descs).length) (s₀, 0) evs
      (s₁, (items.flatMap TxItem.descs).length)) :
    (∃ m s₂, Run (TxScheduleStep b s₀.sc.txSize h (items.flatMap TxItem.descs).length)
        (s₁, (items.flatMap TxItem.descs).length) (List.replicate m .poll)
        (s₂, (items.flatMap TxItem.descs).length) ∧ s₂.sc.tx.escTDHr = s₂.sc.tx.escTDT) ∧
    (s₁.sc.tx.escTDHr = s₁.sc.tx.escTDT →
      s₁.wire = s₀.wire ++ frames ∧ s₁.sc.tx.escTxctx = cd ∧ s₁.sc.tx.escTDH = s₁.sc.tx.escTDT ∧
      s₁.txRing = markDone b s₀.sc.txSize h 0 (items.flatMap TxItem.descs).length s₀.txRing) := by
  generalize hd : (items.flatMap TxItem.descs).length = d at *
  obtain ⟨k, q, hat⟩ := txAt_of_run hidle hfit hrun
  have hchain := TxItemsSend.chain (x := s₀.txSide) hsend hring (by rw [hd, Nat.zero_add]) hfit
  rw [hd, Nat.zero_add] at hchain
  have hend : ∀ x, TxStuck (s₀.txEnv b) s₀.sc.txSize h d (d, x) := fun x => ⟨1, if_pos rfl⟩
  refine ⟨hat.finish hidle hfit hchain (hend _), fun hdone => ?_⟩
  obtain rfl : q = d := (hat.seen_eq_tail_iff hfit).1 hdone
  have hsame := hat.stuck.unique (hend _) hat.chain hchain
  obtain ⟨rfl, hside⟩ := Prod.mk.inj hsame
  refine ⟨congrArg TxSide.wire hside, congrArg TxSide.txctx hside, ?_, congrArg TxSide.ring hside⟩
  exact BitVec.eq_of_toNat_eq (hat.head.trans hat.tail.symm)

end Schedule

/-- The two descriptors of `twoDescriptors`, as one packet. -/
def twoItems : List TxItem := [.packet [twoDescriptors.txRing 0] (twoDescriptors.txRing 1)]

/-- The packet of two buffers comes out as one frame of 64 bytes. -/
theorem transmit_delivers_packets_two : ∃ evs s₁,
    Run (TxScheduleStep .integer 8 0 2) (twoDescriptors, 0) evs (s₁, 2) ∧
      s₁.wire = [List.replicate 64 0] ∧ s₁.sc.tx.escTDH = s₁.sc.tx.escTDT := by
  have hpublish : Run (TxScheduleStep .integer 8 0 2) (twoDescriptors, 0) [.publish 2] (publishExample 2 twoDescriptors, 2) :=
    .single (.publish 0 (by decide) (by decide) (eq_ok_outcome (by rw [e82545Write_tdt]; rfl)))
  have hidle : TxIdle twoDescriptors 0 := ⟨rfl, by decide, rfl, by decide, rfl, rfl⟩
  have hring : RingHolds twoDescriptors.txRing 8 0 0 (twoItems.flatMap TxItem.descs) := by
    intro i d hi
    match i with
    | 0 | 1 => exact Option.some.inj hi
    | i + 2 => cases hi
  have hpacket : PacketDescs .integer [twoDescriptors.txRing 0] (twoDescriptors.txRing 1) e1000TxdTypL :=
    ⟨.inl rfl, by decide, by decide, by decide⟩
  have hsend : TxItemsSend (twoDescriptors.txEnv .integer) twoDescriptors.sc.tx.escTxctx twoItems
      twoDescriptors.sc.tx.escTxctx ([List.replicate 64 0] ++ []) := by
    have hbytes : packetBytes (twoDescriptors.txEnv .integer) [twoDescriptors.txRing 0]
        (twoDescriptors.txRing 1) = List.replicate 64 0 := by decide +kernel
    refine .cons ?_ (.nil _)
    rw [← hbytes]
    exact .plain hpacket (by decide +kernel) (by decide +kernel) (by decide +kernel) (by decide +kernel)
      (by decide +kernel) (by decide +kernel)
  obtain ⟨m, s₁, hpolls, hdone⟩ :=
    (transmit_delivers_packets hidle (by decide) hring hsend hpublish).1
  have hall := hpublish.trans hpolls
  obtain ⟨hwire, -, hhead, -⟩ := (transmit_delivers_packets hidle (by decide) hring hsend hall).2 hdone
  exact ⟨_, s₁, hall, hwire, hhead⟩

end DeviceModel

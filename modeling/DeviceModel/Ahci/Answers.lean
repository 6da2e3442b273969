import DeviceModel.Ahci.Dma

/-!
# What a command is answered with

Most of the ATA and ATAPI commands never get to the disk. `ahciAnswer` says what each of them
is answered with: its data, its status, and the fields of the port that it sets. It says
nothing of the order in which a handler stores all that. `ahciCmdSwitch_answers` shows that
every handler prepares the answer, and then sends one frame.
-/

namespace DeviceModel

/-! ## Answers -/

/-- What a command is answered with. -/
structure AhciAnswer where
  /-- the fields of the port that only commands use -/
  dev : AhciDev
  /-- the byte of its own frame that it sets -/
  edit : Option (Nat × U8)
  /-- what goes into the buffers of its PRDT -/
  data : Option (List U8)
  tfd : U32

namespace AhciAnswer

section

variable (c : PortCtx) (cfis : U64)

/-- Only a status. -/
def status (tfd : U32) : AhciAnswer := ⟨c.p.dev, none, none, tfd⟩

/-- The data of an ATA command. -/
def reply (buf : List U8) : AhciAnswer := ⟨c.p.dev, none, some buf, ataOk⟩

/-- A packet command sets the interrupt reason. -/
def packet (data : Option (List U8)) (tfd : U32) : AhciAnswer :=
  ⟨c.p.dev, some (4, c.cfis cfis 4 &&& ~~~7#8 ||| 3#8), data, tfd⟩

/-- A packet command that is refused leaves sense data. -/
def sense (asc : U8) : AhciAnswer :=
  { packet c cfis none (atapiTfd ataSenseIllegalRequest) with
    dev := { c.p.dev with senseKey := ataSenseIllegalRequest, asc := asc } }

/-- The data of a packet command, if it is not refused. -/
def packetReply (asc : U8) : Option (List U8) → AhciAnswer
  | some buf => packet c cfis (some buf) ataOk
  | none => sense c cfis asc

end

end AhciAnswer

/-! ### The data of packet commands -/

section Data

variable (c : PortCtx) (cfis : U64)

def inquiryData : Option (List U8) :=
  let vpd := acmd c cfis 1 &&& 1#8 ≠ 0
  if vpd ∧ acmd c cfis 2 ≠ 0 then none
  else
    let buf : List U8 :=
      if vpd then [0x05, 0, 0, 1, 0]
      else [0x05, 0x80, 0x00, 0x21, 31, 0, 0, 0] ++ atapiString (ascii "BHYVE") 8 ++
        atapiString (ascii "BHYVE DVD-ROM") 16 ++ atapiString (ascii "001") 4
    some (buf.take (acmd c cfis 4).toNat)

def readCapacityData : List U8 :=
  be32enc ((BitVec.ofNat 64 (c.blk.bc.bcSize / 2048) - 1).setWidth 32) ++ be32enc 2048

/-- The three tables of contents, before they are cut off. -/
def tocData : Option (List U8) :=
  let msf := acmd c cfis 1 &&& 2#8 != 0
  let sectors := c.blk.bc.bcSize / c.blk.bc.bcSectsz / 4
  let format := acmd c cfis 9 >>> 6
  let zero : List U8 := if msf then 0 :: lbaToMsf 0 else [0, 0, 0, 0]
  if format = 0 then
    let startTrack := acmd c cfis 6
    if startTrack > 1 ∧ startTrack ≠ 0xaa#8 then none
    else
      let first : List U8 := if startTrack ≤ 1 then [0, 0x14, 1, 0] ++ zero else []
      some (withSize ([1, 1] ++ first ++ [0, 0x14#8, 0xaa#8, 0] ++ tocAddress msf sectors))
  else if format = 1 then some ([0, 0xa#8, 1, 1] ++ List.replicate 8 0)
  else if format = 2 then
    some (withSize ([1, 1] ++ [1, 0x14#8, 0, 0xa0#8, 0, 0, 0, 0, 1, 0, 0] ++
      [1, 0x14#8, 0, 0xa1#8, 0, 0, 0, 0, 1, 0, 0] ++
      [1, 0x14#8, 0, 0xa2#8, 0, 0, 0] ++ tocAddress msf sectors ++ [1, 0x14#8, 0, 1, 0, 0, 0] ++ zero))
  else none

def readTocData : Option (List U8) := (tocData c cfis).map (·.take (acmd16 c cfis 7).toNat)

def requestSenseData : List U8 :=
  (((((List.replicate 64 0).set 0 0xf0#8).set 2 c.p.dev.senseKey).set 7 10).set 12
    c.p.dev.asc).take (acmd c cfis 4).toNat

def modeSenseData : Option (List U8) :=
  if acmd c cfis 2 >>> 6 = 0 then
    (modePage (acmd c cfis 2 &&& 0x3f#8)).map (·.take (acmd16 c cfis 7).toNat)
  else none

def eventStatusData : Option (List U8) :=
  if acmd c cfis 1 &&& 1#8 = 0 then none
  else some (([0, 6, 0x04, 0x10, 0, 0x02, 0, 0] : List U8).take (acmd16 c cfis 7).toNat)

end Data

/-! ### The answers -/

section Table

open AhciAnswer

/-- The answer to a packet command. A read gets to the disk. -/
def scsiAnswer (c : PortCtx) (cfis : U64) : Option AhciAnswer :=
  match scsiCmd (acmd c cfis 0) with
  | .testUnitReady | .preventAllow => some (packet c cfis none ataOk)
  | .inquiry => some (packetReply c cfis 0x24#8 (inquiryData c cfis))
  | .readCapacity => some (packet c cfis (some (readCapacityData c)) ataOk)
  | .readToc => some (packetReply c cfis 0x24#8 (readTocData c cfis))
  | .reportLuns => some (packet c cfis (some ((List.replicate 16 0).set 3 8)) ataOk)
  | .read => none
  | .requestSense => some (packet c cfis (some (requestSenseData c cfis)) ataOk)
  | .startStopUnit =>
    some (if acmd c cfis 4 &&& 3#8 = 2#8 then sense c cfis 0x53#8 else packet c cfis none ataOk)
  | .modeSense =>
    let asc : U8 := if acmd c cfis 2 >>> 6 = 3 then 0x39#8 else 0x24#8
    some (packetReply c cfis asc (modeSenseData c cfis))
  | .getEventStatusNotification => some (packetReply c cfis 0x24#8 (eventStatusData c cfis))
  | .other => some (sense c cfis 0x20#8)

/-- The answer to a command. Reads and writes, flushes and TRIM get to the disk. -/
def ahciAnswer (c : PortCtx) (slot : Slot) (cfis : U64) : Option AhciAnswer :=
  match ataCmd (c.cfis cfis 2) with
  | .ataIdentify =>
    some (if c.p.atapi || c.prdtl slot == 0 then status c ataAborted else reply c (identifyBuf c))
  | .setfeatures =>
    let (xfermode, tfd) := ataSetfeatures c cfis
    some { status c tfd with dev := { c.p.dev with xfermode := xfermode } }
  | .setMulti =>
    let (multSectors, tfd) := ataSetMulti c cfis
    some { status c tfd with dev := { c.p.dev with multSectors := multSectors } }
  | .rw | .flushcache => none
  | .dataSetManagement => if ataIsDsmTrim c cfis then none else some (status c ataAborted)
  | .sendFpdmaQueued => if ataIsSendTrim c cfis then none else some (status c ataAborted)
  | .readLog =>
    let page := if readLogRefused c slot cfis then none else readLogPage c (c.cfis cfis 4)
    some (page.elim (status c ataAborted) (reply c))
  | .securityFreezeLock | .unsupported => some (status c ataAborted)
  | .checkPowerMode => some { status c ataOk with edit := some (12, 0xff#8) }
  | .standby => some (status c ataOk)
  | .atapiIdentify =>
    some (if !c.p.atapi then status c ataAborted else reply c (atapiIdentifyBuf c))
  | .packetCmd => if !c.p.atapi then some (status c ataAborted) else scsiAnswer c cfis

end Table

/-! ## Places -/

section Places

variable (c : PortCtx) (slot : Slot) (cfis : U64)

/-- What the controller reads of a command: its header without `prdbc`, its frame, and its
table. -/
def cmdControl : List U64 :=
  Mem.addrs (c.hdr slot) 4 ++ Mem.addrs (c.hdr slot + 8) 8 ++ Mem.addrs cfis (0x80 + 16 * c.prdtl slot)

/-- What it writes besides the data: `prdbc` and the area for received frames. -/
def cmdStatus : List U64 := Mem.addrs (c.hdr slot + 4) 4 ++ Mem.addrs c.p.rfis 0x100

/-- The buffers are apart from one another, and nothing that is written overlaps what is
read. -/
structure CmdLayout : Prop where
  nodup : (prdtAddrs c slot cfis).Nodup
  data : (prdtAddrs c slot cfis).Disjoint (cmdControl c slot cfis)
  status : (cmdStatus c slot).Disjoint (prdtAddrs c slot cfis ++ cmdControl c slot cfis)
  prdbc : (Mem.addrs (c.hdr slot + 4) 4).Disjoint (Mem.addrs c.p.rfis 0x100)
  header : (Mem.addrs (c.hdr slot) 4).Disjoint (Mem.addrs cfis 0x80)

/-- Where an answer is stored, but for the frames. -/
def answerPlaces (edit : Option (Nat × U8)) (data : Option (List U8)) : List U64 :=
  (edit.elim [] fun e => [cfis + BitVec.ofNat 64 e.1]) ++
    data.elim [] fun buf =>
      (prdtAddrs c slot cfis).take buf.length ++ Mem.addrs (c.hdr slot + 4) 4

/-- The memory `m` has an answer in it, but for the frames. -/
structure HoldsAnswer (edit : Option (Nat × U8)) (data : Option (List U8)) (m : Mem) : Prop where
  edited : ∀ e, edit = some e → e.1 < 0x80 ∧ m (cfis + BitVec.ofNat 64 e.1) = e.2
  delivered : ∀ buf, data = some buf → ((prdtAddrs c slot cfis).take buf.length).map m =
    buf.take (prdtAddrs c slot cfis).length
  prdbc : ∀ buf, data = some buf → m.read32 (c.hdr slot + 4) =
    BitVec.ofNat 32 (min buf.length (prdtAddrs c slot cfis).length)
  kept : ∀ x, x ∉ answerPlaces c slot cfis edit data → x ∉ Mem.addrs c.p.rfis 0x100 → m x = c.mem x

end Places

section Stores

variable {c d : PortCtx} {slot : Slot} {cfis : U64} {edit : Option (Nat × U8)}
  {data : Option (List U8)} {m m' : Mem}

theorem mem_frame {i : Nat} (hi : i < 0x80) : cfis + BitVec.ofNat 64 i ∈ Mem.addrs cfis 0x80 :=
  Mem.mem_addrs.2 ⟨i, hi, rfl⟩

theorem frame_mem_control (c : PortCtx) (slot : Slot) (cfis : U64) {i : Nat} (hi : i < 0x80) :
    cfis + BitVec.ofNat 64 i ∈ cmdControl c slot cfis := by
  rw [cmdControl, Mem.addrs_add]
  exact List.mem_append_right _ (List.mem_append_left _ (mem_frame hi))

/-- The frames are stored apart from the rest of an answer. -/
theorem CmdLayout.places_rfis (hl : CmdLayout c slot cfis) (hedit : ∀ e, edit = some e → e.1 < 0x80) :
    (answerPlaces c slot cfis edit data).Disjoint (Mem.addrs c.p.rfis 0x100) := by
  intro x hx hr
  have hout : x ∉ prdtAddrs c slot cfis ++ cmdControl c slot cfis :=
    hl.status (List.mem_append_right _ hr)
  rw [List.mem_append, not_or] at hout
  rcases List.mem_append.1 hx with hx | hx
  · cases edit with
    | none => cases hx
    | some e =>
      rw [List.mem_singleton.1 hx] at hout
      exact hout.2 (frame_mem_control c slot cfis (hedit e rfl))
  · cases data with
    | none => cases hx
    | some buf =>
      rcases List.mem_append.1 hx with hx | hx
      · exact hout.1 (List.mem_of_mem_take hx)
      · exact hl.prdbc hx hr

theorem HoldsAnswer.start (c : PortCtx) (slot : Slot) (cfis : U64) :
    HoldsAnswer c slot cfis none none c.mem :=
  ⟨fun _ h => (nomatch h), fun _ h => (nomatch h), fun _ h => (nomatch h), fun _ _ _ => rfl⟩

/-- A frame does not get in the way. -/
theorem HoldsAnswer.frame (hl : CmdLayout c slot cfis) (h : HoldsAnswer c slot cfis edit data m)
    (hm : ∀ x, x ∉ Mem.addrs c.p.rfis 0x100 → m' x = m x) : HoldsAnswer c slot cfis edit data m' := by
  have hplaces : ∀ x ∈ answerPlaces c slot cfis edit data, m' x = m x := fun x hx =>
    hm x fun hr => hl.places_rfis (fun e he => (h.edited e he).1) hx hr
  refine ⟨fun e he => ⟨(h.edited e he).1, ?_⟩, fun buf hb => ?_, fun buf hb => ?_, fun x hx hr => ?_⟩
  · subst he
    rw [hplaces _ (List.mem_append_left _ (List.mem_singleton.2 rfl)), (h.edited e rfl).2]
  · subst hb
    rw [← h.delivered buf rfl]
    exact List.map_congr_left fun x hx =>
      hplaces x (List.mem_append_right _ (List.mem_append_left _ hx))
  · subst hb
    rw [← h.prdbc buf rfl]
    exact Mem.read32_congr fun x hx =>
      hplaces x (List.mem_append_right _ (List.mem_append_right _ hx))
  · rw [hm x hr, h.kept x hx hr]

/-- A byte of the command's own frame is set. -/
theorem HoldsAnswer.setByte (hl : CmdLayout c slot cfis) (h : HoldsAnswer c slot cfis none data m)
    {i : Nat} (hi : i < 0x80) (v : U8) :
    HoldsAnswer c slot cfis (some (i, v)) data (m.write8 (cfis + BitVec.ofNat 64 i) v) := by
  have hmem := frame_mem_control c slot cfis hi
  have hother : ∀ x, x ≠ cfis + BitVec.ofNat 64 i →
      m.write8 (cfis + BitVec.ofNat 64 i) v x = m x := fun x hx => if_neg hx
  refine ⟨fun e he => ?_, fun buf hb => ?_, fun buf hb => ?_, fun x hx hr => ?_⟩
  · cases he
    exact ⟨hi, if_pos rfl⟩
  · rw [← h.delivered buf hb]
    refine List.map_congr_left fun x hx => hother x fun heq => ?_
    exact hl.data (List.mem_of_mem_take hx) (heq ▸ hmem)
  · rw [← h.prdbc buf hb]
    refine Mem.read32_congr fun x hx => hother x fun heq => ?_
    exact hl.status (List.mem_append_left _ hx) (List.mem_append_right _ (heq ▸ hmem))
  · rw [answerPlaces, List.mem_append, not_or] at hx
    rw [hother x fun heq => hx.1 (List.mem_singleton.2 heq)]
    exact h.kept x (fun hd => hx.2 hd) hr

/-- The header and the table are as they were while there is no data. -/
theorem HoldsAnswer.control (hl : CmdLayout c slot cfis) (h : HoldsAnswer c slot cfis edit none m)
    {x : U64} (hx : x ∈ cmdControl c slot cfis) (hframe : x ∉ Mem.addrs cfis 0x80) : m x = c.mem x := by
  refine h.kept x (fun hp => hframe ?_) fun hr =>
    hl.status (List.mem_append_right _ hr) (List.mem_append_right _ hx)
  cases edit with
  | none => cases hp
  | some e =>
    rw [answerPlaces, Option.elim_none, List.append_nil, Option.elim_some, List.mem_singleton] at hp
    rw [hp]
    exact mem_frame (h.edited e rfl).1

/-- `write_prdt` finds the command as the guest has laid it out. -/
theorem HoldsAnswer.prdt (hl : CmdLayout c slot cfis) (hf : SameFrame c d)
    (h : HoldsAnswer c slot cfis edit none d.mem) :
    d.hdr slot = c.hdr slot ∧ prdtAddrs d slot cfis = prdtAddrs c slot cfis ∧
      PrdtApart d slot cfis := by
  have hhdr : d.hdr slot = c.hdr slot := by rw [PortCtx.hdr, PortCtx.hdr, hf.cmdLst]
  have htwo : ∀ x ∈ Mem.addrs (c.hdr slot + 2) 2, x ∈ Mem.addrs (c.hdr slot) 4 := by
    intro x hx
    have hsplit := Mem.addrs_add (c.hdr slot) 2 2
    rw [hsplit]
    exact List.mem_append_right _ hx
  have hcontrol : ∀ x ∈ Mem.addrs (c.hdr slot + 2) 2, x ∈ cmdControl c slot cfis := fun x hx =>
    List.mem_append_left _ (List.mem_append_left _ (htwo x hx))
  have htable : ∀ x ∈ Mem.addrs (cfis + 0x80) (16 * c.prdtl slot), x ∈ cmdControl c slot cfis := by
    intro x hx
    rw [cmdControl, Mem.addrs_add]
    exact List.mem_append_right _ (List.mem_append_right _ hx)
  have hprdtl : d.prdtl slot = c.prdtl slot := by
    have hread : d.mem.read16 (c.hdr slot + 2) = c.mem.read16 (c.hdr slot + 2) :=
      Mem.read16_congr fun x hx => h.control hl (hcontrol x hx) fun hframe =>
        hl.header (htwo x hx) hframe
    rw [PortCtx.prdtl, PortCtx.prdtl, hhdr, hread]
  -- the table comes after the frame
  have hsize : 0x80 + 16 * c.prdtl slot ≤ 2 ^ 64 := by
    have hlt : c.prdtl slot < 2 ^ 16 := BitVec.isLt _
    omega
  have hafter : ∀ x ∈ Mem.addrs (cfis + 0x80) (16 * c.prdtl slot), x ∉ Mem.addrs cfis 0x80 := by
    intro x hx hframe
    have hnodup := Mem.nodup_addrs cfis hsize
    rw [Mem.addrs_add] at hnodup
    exact List.disjoint_of_nodup_append hnodup hframe hx
  have haddrs : prdtAddrs d slot cfis = prdtAddrs c slot cfis := by
    rw [prdtAddrs, prdtAddrs, hprdtl, hf.vmctx]
    exact congrArg List.flatten (prdtRegions_congr fun x hx =>
      h.control hl (htable x hx) (hafter x hx))
  refine ⟨hhdr, haddrs, ?_, ?_, ?_⟩
  · rw [haddrs, addrs_header, hhdr]
    intro x hx hmem
    rcases List.mem_append.1 hmem with hmem | hmem
    · exact hl.data hx (hcontrol x hmem)
    · exact hl.status (List.mem_append_left _ hmem) (List.mem_append_left _ hx)
  · rw [haddrs, prdtTable, hprdtl]
    exact fun x hx hmem => hl.data hx (htable x hmem)
  · rw [prdtTable, hprdtl, hhdr]
    exact fun x hx hmem =>
      hl.status (List.mem_append_left _ hx) (List.mem_append_right _ (htable x hmem))

/-- `write_prdt` puts the data in. -/
theorem HoldsAnswer.putData (hl : CmdLayout c slot cfis) (hf : SameFrame c d)
    (h : HoldsAnswer c slot cfis edit none d.mem) (buf : List U8) :
    HoldsAnswer c slot cfis edit (some buf) (writePrdt d slot cfis buf).mem := by
  obtain ⟨hhdr, haddrs, hapart⟩ := h.prdt hl hf
  have hmem := writePrdt_mem hapart buf
  rw [haddrs, hhdr] at hmem
  generalize (writePrdt d slot cfis buf).mem = m at hmem
  have hplaces : ∀ x, x ∉ (prdtAddrs c slot cfis).take buf.length →
      x ∉ Mem.addrs (c.hdr slot + 4) 4 → m x = d.mem x := by
    intro x hx hx'
    rw [hmem, Mem.write32_of_notMem hx', scatter_of_notMem hx]
  refine ⟨fun e he => ⟨(h.edited e he).1, ?_⟩, fun b hb => ?_, fun b hb => ?_, fun x hx hr => ?_⟩
  · have hframe := frame_mem_control c slot cfis (h.edited e he).1
    rw [← (h.edited e he).2]
    refine hplaces _ (fun hx => ?_) fun hx => ?_
    · exact hl.data (List.mem_of_mem_take hx) hframe
    · exact hl.status (List.mem_append_left _ hx) (List.mem_append_right _ hframe)
  · cases hb
    rw [← map_scatter (m := d.mem) hl.nodup, hmem]
    refine List.map_congr_left fun x hx => Mem.write32_of_notMem fun hx' => ?_
    exact hl.status (List.mem_append_left _ hx') (List.mem_append_left _ (List.mem_of_mem_take hx))
  · cases hb
    rw [hmem]
    exact Mem.read32_write32 _ _ _
  · rw [answerPlaces, Option.elim_some, List.mem_append, List.mem_append, not_or, not_or] at hx
    obtain ⟨hedit, hdata, hprdbc⟩ := hx
    rw [hplaces x hdata hprdbc]
    refine h.kept x (fun hp => hedit ?_) hr
    rwa [answerPlaces, Option.elim_none, List.append_nil] at hp

/-- The frame of a command with the byte in it that its answer sets. -/
def editFis (edit : Option (Nat × U8)) (fis : Nat → U8) : Nat → U8 :=
  edit.elim fis fun e => Function.update fis e.1 e.2

theorem HoldsAnswer.fis (hl : CmdLayout c slot cfis) (h : HoldsAnswer c slot cfis edit data m)
    {i : Nat} (hi : i < 0x80) : m (cfis + BitVec.ofNat 64 i) = editFis edit (c.cfis cfis) i := by
  have hframe := frame_mem_control c slot cfis hi
  have hkept : (∀ e, edit = some e → i ≠ e.1) →
      m (cfis + BitVec.ofNat 64 i) = c.mem (cfis + BitVec.ofNat 64 i) := by
    intro hne
    refine h.kept _ (fun hx => ?_) fun hr =>
      hl.status (List.mem_append_right _ hr) (List.mem_append_right _ hframe)
    rcases List.mem_append.1 hx with hx | hx
    · cases edit with
      | none => cases hx
      | some e =>
        have hlt := (h.edited e rfl).1
        have heq := congrArg BitVec.toNat ((BitVec.add_right_inj cfis).1 (List.mem_singleton.1 hx))
        rw [BitVec.toNat_ofNat, BitVec.toNat_ofNat, Nat.mod_eq_of_lt (by omega),
          Nat.mod_eq_of_lt (by omega)] at heq
        exact hne e rfl heq
    · cases data with
      | none => cases hx
      | some buf =>
        rcases List.mem_append.1 hx with hx | hx
        · exact hl.data (List.mem_of_mem_take hx) hframe
        · exact hl.status (List.mem_append_left _ hx) (List.mem_append_right _ hframe)
  cases edit with
  | none => exact hkept fun _ he => (nomatch he)
  | some e =>
    rw [editFis, Option.elim_some, Function.update_apply]
    split
    · next heq =>
      rw [heq]
      exact (h.edited e rfl).2
    · next hne =>
      refine hkept fun e' he => ?_
      cases he
      exact hne

end Stores

/-! ## Every handler prepares its answer -/

namespace AhciAnswer

/-- In `e` the answer has been prepared since `c`. -/
structure Prepared (a : AhciAnswer) (slot : Slot) (cfis : U64) (c e : PortCtx) : Prop where
  quiet : Quiet c e
  dev : e.p.dev = a.dev
  holds : HoldsAnswer c slot cfis a.edit a.data e.mem

/-- The handler that returns `d` has prepared the answer and sent the frame. -/
def Sent (a : AhciAnswer) (slot : Slot) (cfis : U64) (c d : PortCtx) : Prop :=
  ∃ e, a.Prepared slot cfis c e ∧ d = ahciWriteFisD2h e slot cfis a.tfd

section Handlers

variable {c d e : PortCtx} {slot : Slot} {cfis : U64} {data : Option (List U8)}

theorem sent_status (c : PortCtx) (slot : Slot) (cfis : U64) (tfd : U32) :
    (status c tfd).Sent slot cfis c (ahciWriteFisD2h c slot cfis tfd) :=
  ⟨c, ⟨.refl c, rfl, .start c slot cfis⟩, rfl⟩

/-- ATA data, after a PIO setup frame or without one. -/
theorem sent_reply (hl : CmdLayout c slot cfis) (buf : List U8) (pio : Bool) :
    (reply c buf).Sent slot cfis c
      (ahciWriteFisD2h (writePrdt (if pio then ahciWriteFisPiosetup c else c) slot cfis buf) slot cfis
        ataOk) := by
  cases pio with
  | false =>
    exact ⟨writePrdt c slot cfis buf, ⟨.writePrdt c slot cfis buf, rfl,
      (HoldsAnswer.start c slot cfis).putData hl rfl buf⟩, rfl⟩
  | true =>
    have hquiet := Quiet.piosetup c
    have hframe : SameFrame c (ahciWriteFisPiosetup c) := by
      obtain ⟨m, heq⟩ := ahciWriteFisPiosetup_eq c
      rw [heq]
      rfl
    have hdev : (ahciWriteFisPiosetup c).p.dev = c.p.dev := by
      obtain ⟨m, heq⟩ := ahciWriteFisPiosetup_eq c
      rw [heq]
      rfl
    have hholds : HoldsAnswer c slot cfis none none (ahciWriteFisPiosetup c).mem :=
      (HoldsAnswer.start c slot cfis).frame hl fun x hx => ahciWriteFis_mem _ _ hx
    exact ⟨_, ⟨hquiet.trans (.writePrdt _ slot cfis buf), hdev, hholds.putData hl hframe buf⟩, rfl⟩

/-- The interrupt reason is set in an answer that has none yet. -/
theorem holds_ireason (hl : CmdLayout c slot cfis) (h : HoldsAnswer c slot cfis none data d.mem) :
    HoldsAnswer c slot cfis (some (4, c.cfis cfis 4 &&& ~~~7#8 ||| 3#8)) data
      (atapiIreason d cfis).mem := by
  have hbyte : d.cfis cfis 4 = c.cfis cfis 4 := h.fis hl (by decide)
  have hset := h.setByte hl (show 4 < 0x80 by decide) (c.cfis cfis 4 &&& ~~~7#8 ||| 3#8)
  rw [← hbyte] at hset ⊢
  exact hset

theorem sent_done (hl : CmdLayout c slot cfis) (tfd : U32) :
    (packet c cfis none tfd).Sent slot cfis c (ahciWriteFisD2h (atapiIreason c cfis) slot cfis tfd) :=
  ⟨_, ⟨.ireason c cfis, rfl, holds_ireason hl (.start c slot cfis)⟩, rfl⟩

theorem sent_sense (hl : CmdLayout c slot cfis) (asc : U8) :
    (sense c cfis asc).Sent slot cfis c (atapiRefuse c slot cfis asc) := by
  have hholds : HoldsAnswer c slot cfis none none (atapiSense c asc).mem := .start c slot cfis
  exact ⟨_, ⟨(Quiet.sense c asc).trans (.ireason _ cfis), rfl, holds_ireason hl hholds⟩, rfl⟩

/-- The data comes before the interrupt reason. -/
theorem sent_answer (hl : CmdLayout c slot cfis) (buf : List U8) :
    (packet c cfis (some buf) ataOk).Sent slot cfis c (atapiAnswer c slot cfis buf) := by
  have hholds := (HoldsAnswer.start c slot cfis).putData hl rfl buf
  exact ⟨_, ⟨(Quiet.writePrdt c slot cfis buf).trans (.ireason _ cfis), rfl, holds_ireason hl hholds⟩,
    rfl⟩

/-- The data comes after it. -/
theorem sent_ireason (hl : CmdLayout c slot cfis) (buf : List U8) :
    (packet c cfis (some buf) ataOk).Sent slot cfis c
      (ahciWriteFisD2h (writePrdt (atapiIreason c cfis) slot cfis buf) slot cfis ataOk) := by
  have hholds := (holds_ireason hl (HoldsAnswer.start c slot cfis)).putData (d := atapiIreason c cfis)
    hl rfl buf
  exact ⟨_, ⟨(Quiet.ireason c cfis).trans (.writePrdt _ slot cfis buf), rfl, hholds⟩, rfl⟩

/-! ### Packet commands -/

theorem inquiry_sent (hl : CmdLayout c slot cfis) :
    (packetReply c cfis 0x24#8 (inquiryData c cfis)).Sent slot cfis c (atapiInquiry c slot cfis) := by
  rw [atapiInquiry, inquiryData]
  dsimp only
  split
  · exact sent_sense hl _
  · exact sent_ireason hl _

theorem readToc_sent (hl : CmdLayout c slot cfis) :
    (packetReply c cfis 0x24#8 (readTocData c cfis)).Sent slot cfis c (atapiReadToc c slot cfis) := by
  rw [atapiReadToc, readTocData, tocData]
  dsimp only
  split
  · split
    · exact sent_sense hl _
    · exact sent_answer hl _
  · split
    · exact sent_answer hl _
    · split
      · exact sent_answer hl _
      · exact sent_sense hl _

theorem modeSense_sent (hl : CmdLayout c slot cfis) :
    (packetReply c cfis (if acmd c cfis 2 >>> 6 = 3 then 0x39#8 else 0x24#8)
      (modeSenseData c cfis)).Sent slot cfis c (atapiModeSense c slot cfis) := by
  rw [atapiModeSense, modeSenseData]
  by_cases hzero : acmd c cfis 2 >>> 6 = 0
  · rw [hzero, if_pos rfl, if_pos rfl, if_neg (by decide)]
    cases modePage (acmd c cfis 2 &&& 0x3f#8) with
    | none => exact sent_sense hl _
    | some buf => exact sent_answer hl _
  · rw [if_neg hzero, if_neg hzero]
    split
    · exact sent_sense hl _
    · exact sent_sense hl _

/-- **`handle_packet_cmd`** answers every packet command that does not read. -/
theorem handlePacketCmd_sent (hl : CmdLayout c slot cfis) {a : AhciAnswer}
    (ha : scsiAnswer c cfis = some a) :
    ∃ d, handlePacketCmd c slot cfis = .ok d ∧ a.Sent slot cfis c d := by
  rw [scsiAnswer] at ha
  rw [handlePacketCmd]
  generalize scsiCmd (acmd c cfis 0) = cmd at ha ⊢
  cases cmd with
  | read => cases ha
  | testUnitReady | preventAllow =>
    cases ha
    exact ⟨_, rfl, sent_done hl _⟩
  | inquiry =>
    cases ha
    exact ⟨_, rfl, inquiry_sent hl⟩
  | readCapacity | reportLuns =>
    cases ha
    exact ⟨_, rfl, sent_ireason hl _⟩
  | readToc =>
    cases ha
    exact ⟨_, rfl, readToc_sent hl⟩
  | requestSense =>
    cases ha
    exact ⟨_, rfl, sent_answer hl _⟩
  | startStopUnit =>
    cases ha
    refine ⟨_, rfl, ?_⟩
    rw [atapiStartStopUnit]
    split
    · exact sent_sense hl _
    · exact sent_done hl _
  | modeSense =>
    cases ha
    exact ⟨_, rfl, modeSense_sent hl⟩
  | getEventStatusNotification =>
    cases ha
    refine ⟨_, rfl, ?_⟩
    rw [atapiGetEventStatusNotification, eventStatusData]
    split
    · exact sent_sense hl _
    · exact sent_answer hl _
  | other =>
    cases ha
    exact ⟨_, rfl, sent_sense hl _⟩

/-! ### ATA commands -/

theorem readLog_sent (hl : CmdLayout c slot cfis) :
    ((if readLogRefused c slot cfis then none else readLogPage c (c.cfis cfis 4)).elim
      (status c ataAborted) (reply c)).Sent slot cfis c (ahciHandleReadLog c slot cfis) := by
  rw [ahciHandleReadLog]
  cases readLogRefused c slot cfis with
  | true => exact sent_status c slot cfis ataAborted
  | false =>
    simp only [Bool.false_eq_true, if_false]
    cases readLogPage c (c.cfis cfis 4) with
    | none => exact sent_status c slot cfis ataAborted
    | some buf =>
      have hsent := sent_reply hl buf (decide (c.cfis cfis 2 = 0x2f#8))
      simp only [decide_eq_true_eq] at hsent
      exact hsent

/-- **`ahci_handle_cmd`** answers every command that does not get to the disk. -/
theorem ahciCmdSwitch_sent (hl : CmdLayout c slot cfis) {a : AhciAnswer}
    (ha : ahciAnswer c slot cfis = some a) :
    ∃ d, ahciCmdSwitch c slot cfis = .ok d ∧ a.Sent slot cfis c d := by
  rw [ahciAnswer] at ha
  rw [ahciCmdSwitch]
  generalize ataCmd (c.cfis cfis 2) = cmd at ha ⊢
  cases cmd with
  | rw | flushcache => cases ha
  | ataIdentify =>
    cases ha
    refine ⟨_, rfl, ?_⟩
    rw [handleIdentify]
    split
    · exact sent_status c slot cfis ataAborted
    · exact sent_reply hl _ true
  | setfeatures =>
    cases ha
    exact ⟨_, rfl, _, ⟨⟨c.mem, _, _, rfl⟩, rfl, .start c slot cfis⟩, rfl⟩
  | setMulti =>
    cases ha
    exact ⟨_, rfl, _, ⟨⟨c.mem, _, _, rfl⟩, rfl, .start c slot cfis⟩, rfl⟩
  | dataSetManagement | sendFpdmaQueued =>
    dsimp only at ha ⊢
    split at ha
    · cases ha
    · next hno =>
      cases ha
      rw [if_neg hno]
      exact ⟨_, rfl, sent_status c slot cfis ataAborted⟩
  | readLog =>
    cases ha
    exact ⟨_, rfl, readLog_sent hl⟩
  | securityFreezeLock | unsupported =>
    cases ha
    exact ⟨_, rfl, sent_status c slot cfis ataAborted⟩
  | checkPowerMode =>
    cases ha
    have hholds := (HoldsAnswer.start c slot cfis).setByte hl (show 12 < 0x80 by decide) 0xff#8
    exact ⟨_, rfl, c.setMem (c.mem.write8 (cfis + 12) 0xff#8), ⟨.setMem c _, rfl, hholds⟩, rfl⟩
  | standby =>
    cases ha
    exact ⟨_, rfl, sent_status c slot cfis ataOk⟩
  | atapiIdentify =>
    cases ha
    refine ⟨_, rfl, ?_⟩
    rw [handleAtapiIdentify]
    split
    · exact sent_status c slot cfis ataAborted
    · exact sent_reply hl _ true
  | packetCmd =>
    dsimp only at ha ⊢
    split at ha
    · next hdisk =>
      cases ha
      rw [if_pos hdisk]
      exact ⟨_, rfl, sent_status c slot cfis ataAborted⟩
    · next hatapi =>
      rw [if_neg hatapi]
      exact handlePacketCmd_sent hl ha

end Handlers

end AhciAnswer

end DeviceModel

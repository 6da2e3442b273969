import DeviceModel.Block.Geometry
import DeviceModel.Ahci.Requests

/-!
# Commands that are answered at once

The ATA and ATAPI commands that put their data into the guest's buffers themselves and
end with `ahci_write_fis_d2h`.
-/

namespace DeviceModel

/-! ## Data -/

/-- A string, as bytes. -/
def ascii (s : String) : List U8 := s.toList.map fun ch => BitVec.ofNat 8 ch.toNat

/-- A list of 16-bit words, little endian. -/
def wordBytes (ws : List U16) : List U8 :=
  ws.flatMap fun w => [w.extractLsb' 0 8, w.extractLsb' 8 8]

/-- `be16enc`. -/
def be16enc (w : U16) : List U8 := [w.extractLsb' 8 8, w.extractLsb' 0 8]

/-- `be32enc`. -/
def be32enc (w : U32) : List U8 :=
  [w.extractLsb' 24 8, w.extractLsb' 16 8, w.extractLsb' 8 8, w.extractLsb' 0 8]

/-- `atapi_string`. -/
def atapiString (src : List U8) (len : Nat) : List U8 :=
  (List.range len).map fun i => src.getD i 0x20#8

/-- `ata_string`, as words: the first of two bytes goes to the high half. -/
def ataString (src : List U8) (len : Nat) : List U16 :=
  (List.range (len / 2)).map fun i => src.getD (2 * i) 0x20#8 ++ src.getD (2 * i + 1) 0x20#8

/-- `ahci_checksum`: the last byte makes the sum of all bytes 0. -/
def ahciChecksum (buf : List U8) : List U8 := buf.dropLast ++ [-buf.dropLast.sum]

/-- Store words in a buffer, at the places given. -/
def setWords (ws : List (Nat × U16)) (buf : List U16) : List U16 :=
  ws.foldl (fun buf w => buf.set w.1 w.2) buf

/-- Numbered words one after another. -/
def wordsFrom (i : Nat) (ws : List U16) : List (Nat × U16) := ws.mapIdx fun k w => (i + k, w)

/-- `1 << ((p->xfermode & 7) + 8)`, where the mode is of the kind `mode`. -/
def xfermodeWord (p : AhciPort) (mode : U8) : U16 :=
  if p.dev.xfermode &&& mode ≠ 0 then 1#16 <<< ((p.dev.xfermode &&& 7#8).toNat + 8) else 0

/-- `(p->ssts & ATA_SS_SPD_MASK) >> 3`. -/
def speedWord (p : AhciPort) : U16 := ((p.ssts &&& ataSsSpdMask) >>> 3).setWidth 16

/-! ## ATA -/

/-- `blockif_candelete(p->bctx) && !blockif_is_ro(p->bctx)`. -/
def ahciTrims (bc : BlockifCtxt) : Bool := bc.bcCandelete && !bc.bcRdonly

/-- The page of `ahci_handle_read_log`, if there is one of that number. -/
def readLogPage (c : PortCtx) (page : U8) : Option (List U8) :=
  if page = 0x00#8 then
    some (wordBytes (setWords [(0x00, 1), (0x10, 1), (0x13, 1)] (List.replicate 256 0)))
  else if page = 0x10#8 then
    some (ahciChecksum (c.p.dev.errCfis ++ List.replicate (512 - c.p.dev.errCfis.length) 0))
  else if page = 0x13#8 then
    some (wordBytes (setWords (if ahciTrims c.blk.bc then [(0x00, 1), (0x02, 1)] else [])
      (List.replicate 256 0)))
  else none

/-- The test at the start of `ahci_handle_read_log`. -/
def readLogRefused (c : PortCtx) (slot : Slot) (cfis : U64) : Bool :=
  c.p.atapi || c.prdtl slot == 0 || c.cfis cfis 5 != 0 || c.cfis cfis 9 != 0 ||
    c.cfis cfis 12 != 1 || c.cfis cfis 13 != 0

/-- `ahci_handle_read_log`. -/
def ahciHandleReadLog (c : PortCtx) (slot : Slot) (cfis : U64) : PortCtx :=
  if readLogRefused c slot cfis then ahciWriteFisD2h c slot cfis ataAborted
  else
    match readLogPage c (c.cfis cfis 4) with
    | none => ahciWriteFisD2h c slot cfis ataAborted
    | some buf =>
      -- `ATA_READ_LOG_EXT`
      let c := if c.cfis cfis 2 = 0x2f#8 then ahciWriteFisPiosetup c else c
      ahciWriteFisD2h (writePrdt c slot cfis buf) slot cfis ataOk

/-- The words of `handle_identify` that depend on the size of the disk. -/
def identifySize (bc : BlockifCtxt) : List (Nat × U16) :=
  let sectors := bc.bcSize / bc.bcSectsz
  let word (i : Nat) : U16 := BitVec.ofNat 16 (sectors / 2 ^ (16 * i))
  let (cyl, heads, sech) := blockifChs bc
  [(1, BitVec.ofNat 16 cyl), (3, BitVec.ofNat 16 heads), (6, BitVec.ofNat 16 sech)] ++
    (if sectors ≤ 0x0fffffff then [(60, word 0), (61, word 1)]
      else [(60, 0xffff#16), (61, 0x0fff#16)]) ++
    [(100, word 0), (101, word 1), (102, word 2), (103, word 3)]

/-- The words of `handle_identify` that depend on the sectors of the disk. -/
def identifySectors (bc : BlockifCtxt) : List (Nat × U16) :=
  let ratio := BitVec.ofNat 64 (bc.bcPsectsz / bc.bcSectsz)
  let large : U16 := if bc.bcSectsz > 512 then 0x1000 else 0
  (if bc.bcPsectsz > bc.bcSectsz then
    [(106, 0x4000#16 ||| 0x2000#16 ||| ratio.ctz.setWidth 16 ||| large),
      (209, 0x4000#16 ||| BitVec.ofNat 16 (bc.bcPsectoff / bc.bcSectsz))]
    else [(106, 0x4000#16 ||| large), (209, 0x4000#16)]) ++
  (if bc.bcSectsz > 512 then
    [(117, BitVec.ofNat 16 (bc.bcSectsz / 2)), (118, BitVec.ofNat 16 (bc.bcSectsz / 2 / 65536))]
    else [])

/-- The answer of `handle_identify`. -/
def identifyBuf (c : PortCtx) : List U8 :=
  let p := c.p
  ahciChecksum <| wordBytes <| setWords
    ([(0, 0x0040#16)] ++ wordsFrom 10 (ataString p.dev.ident 20) ++
      wordsFrom 23 (ataString (ascii "001") 8) ++
      wordsFrom 27 (ataString (ascii "BHYVE SATA DISK") 40) ++
      [(47, 0x8080#16), (49, 0x0b00#16), (50, 0x4000#16), (53, 0x0006#16)] ++
      (if p.dev.multSectors ≠ 0 then [(59, 0x0100#16 ||| p.dev.multSectors.setWidth 16)] else []) ++
      identifySize c.blk.bc ++
      [(63, 0x0007#16 ||| xfermodeWord p ataWdma0), (64, 0x0003#16), (65, 120#16), (66, 120#16),
        (67, 120#16), (68, 120#16), (75, 31#16), (76, 0x010e#16), (77, 0x0040#16 ||| speedWord p),
        (80, 0x03f0#16), (81, 0x0028#16), (82, 0x4068#16), (83, 0x7400#16), (84, 0x4000#16),
        (85, 0x4068#16), (86, 0xb400#16), (87, 0x4000#16),
        (88, 0x007f#16 ||| xfermodeWord p ataUdma0)] ++
      (if ahciTrims c.blk.bc then [(69, 0x4020#16), (105, 1#16), (169, 1#16)] else []) ++
      identifySectors c.blk.bc ++
      [(119, 0x4008#16), (120, 0x4008#16), (222, 0x1020#16), (255, 0x00a5#16)])
    (List.replicate 256 0)

/-- `handle_identify`. -/
def handleIdentify (c : PortCtx) (slot : Slot) (cfis : U64) : PortCtx :=
  if c.p.atapi || c.prdtl slot == 0 then ahciWriteFisD2h c slot cfis ataAborted
  else
    ahciWriteFisD2h (writePrdt (ahciWriteFisPiosetup c) slot cfis (identifyBuf c)) slot cfis ataOk

/-- The answer of `handle_atapi_identify`. -/
def atapiIdentifyBuf (c : PortCtx) : List U8 :=
  let p := c.p
  ahciChecksum <| wordBytes <| setWords
    ([(0, 0x85c0#16)] ++ wordsFrom 10 (ataString p.dev.ident 20) ++
      wordsFrom 23 (ataString (ascii "001") 8) ++
      wordsFrom 27 (ataString (ascii "BHYVE SATA DVD ROM") 40) ++
      [(49, 0x0300#16), (50, 0x4001#16), (53, 0x0006#16), (62, 0x003f#16),
        (63, 0x0007#16 ||| xfermodeWord p ataWdma0), (64, 0x0003#16), (65, 120#16), (66, 120#16),
        (67, 120#16), (68, 120#16), (76, 0x000e#16), (77, speedWord p), (78, 0x0020#16),
        (80, 0x03f0#16), (82, 0x4218#16), (83, 0x4000#16), (84, 0x4000#16), (85, 0x4218#16),
        (87, 0x4000#16), (88, 0x007f#16 ||| xfermodeWord p ataUdma0), (222, 0x1020#16),
        (255, 0x00a5#16)])
    (List.replicate 256 0)

/-- `handle_atapi_identify`. -/
def handleAtapiIdentify (c : PortCtx) (slot : Slot) (cfis : U64) : PortCtx :=
  if !c.p.atapi then ahciWriteFisD2h c slot cfis ataAborted
  else
    ahciWriteFisD2h (writePrdt (ahciWriteFisPiosetup c) slot cfis (atapiIdentifyBuf c)) slot cfis
      ataOk

/-! ## ATAPI -/

/-- `acmd[i]`. -/
def acmd (c : PortCtx) (cfis : U64) (i : Nat) : U8 := c.cfis cfis (0x40 + i)

/-- The status of a command with sense data: `(p->sense_key << 12) | ATA_S_READY |
ATA_S_ERROR`. -/
def atapiTfd (senseKey : U8) : U32 := senseKey.setWidth 32 <<< 12 ||| ataSReady ||| ataSError

/-- Set `sense_key` and `asc`. -/
def atapiSense (c : PortCtx) (asc : U8) : PortCtx :=
  { c with p := { c.p with dev.senseKey := ataSenseIllegalRequest, dev.asc := asc } }

/-- The end of a command that is refused. -/
def atapiRefuse (c : PortCtx) (slot : Slot) (cfis : U64) (asc : U8) : PortCtx :=
  ahciWriteFisD2h (atapiIreason (atapiSense c asc) cfis) slot cfis
    (atapiTfd ataSenseIllegalRequest)

/-- The end of a command that writes its data first. -/
def atapiAnswer (c : PortCtx) (slot : Slot) (cfis : U64) (buf : List U8) : PortCtx :=
  ahciWriteFisD2h (atapiIreason (writePrdt c slot cfis buf) cfis) slot cfis ataOk

/-- The end of a command without data. -/
def atapiDone (c : PortCtx) (slot : Slot) (cfis : U64) : PortCtx :=
  ahciWriteFisD2h (atapiIreason c cfis) slot cfis ataOk

/-- `atapi_inquiry`. -/
def atapiInquiry (c : PortCtx) (slot : Slot) (cfis : U64) : PortCtx :=
  let vpd := acmd c cfis 1 &&& 1#8 ≠ 0
  if vpd ∧ acmd c cfis 2 ≠ 0 then atapiRefuse c slot cfis 0x24#8
  else
    let buf : List U8 :=
      if vpd then [0x05, 0, 0, 1, 0]
      else [0x05, 0x80, 0x00, 0x21, 31, 0, 0, 0] ++ atapiString (ascii "BHYVE") 8 ++
        atapiString (ascii "BHYVE DVD-ROM") 16 ++ atapiString (ascii "001") 4
    let buf := buf.take (acmd c cfis 4).toNat
    ahciWriteFisD2h (writePrdt (atapiIreason c cfis) slot cfis buf) slot cfis ataOk

/-- `atapi_read_capacity`. -/
def atapiReadCapacity (c : PortCtx) (slot : Slot) (cfis : U64) : PortCtx :=
  let sectors : U64 := BitVec.ofNat 64 (c.blk.bc.bcSize / 2048)
  let buf := be32enc ((sectors - 1).setWidth 32) ++ be32enc 2048
  ahciWriteFisD2h (writePrdt (atapiIreason c cfis) slot cfis buf) slot cfis ataOk

/-- `lba_to_msf`. -/
def lbaToMsf (lba : Nat) : List U8 :=
  [BitVec.ofNat 8 ((lba + 150) / 75 / 60), BitVec.ofNat 8 ((lba + 150) / 75 % 60),
    BitVec.ofNat 8 ((lba + 150) % 75)]

/-- The address of a track, in either form. -/
def tocAddress (msf : Bool) (lba : Nat) : List U8 :=
  if msf then 0 :: lbaToMsf lba else be32enc (BitVec.ofNat 32 lba)

/-- A table of contents, after its length. -/
def withSize (entries : List U8) : List U8 := be16enc (BitVec.ofNat 16 entries.length) ++ entries

/-- `atapi_read_toc`. -/
def atapiReadToc (c : PortCtx) (slot : Slot) (cfis : U64) : PortCtx :=
  let len := (acmd16 c cfis 7).toNat
  let msf := acmd c cfis 1 &&& 2#8 != 0
  let sectors := c.blk.bc.bcSize / c.blk.bc.bcSectsz / 4
  let format := acmd c cfis 9 >>> 6
  if format = 0 then
    let startTrack := acmd c cfis 6
    if startTrack > 1 ∧ startTrack ≠ 0xaa#8 then atapiRefuse c slot cfis 0x24#8
    else
      let first : List U8 :=
        if startTrack ≤ 1 then [0, 0x14, 1, 0] ++ (if msf then 0 :: lbaToMsf 0 else [0, 0, 0, 0])
        else []
      let buf := withSize
        ([1, 1] ++ first ++ [0, 0x14#8, 0xaa#8, 0] ++ tocAddress msf sectors)
      atapiAnswer c slot cfis (buf.take len)
  else if format = 1 then
    atapiAnswer c slot cfis (([0, 0xa#8, 1, 1] ++ List.replicate 8 0).take len)
  else if format = 2 then
    let buf := withSize
      ([1, 1] ++ [1, 0x14#8, 0, 0xa0#8, 0, 0, 0, 0, 1, 0, 0] ++
        [1, 0x14#8, 0, 0xa1#8, 0, 0, 0, 0, 1, 0, 0] ++
        [1, 0x14#8, 0, 0xa2#8, 0, 0, 0] ++ tocAddress msf sectors ++
        [1, 0x14#8, 0, 1, 0, 0, 0] ++ (if msf then 0 :: lbaToMsf 0 else [0, 0, 0, 0]))
    atapiAnswer c slot cfis (buf.take len)
  else atapiRefuse c slot cfis 0x24#8

/-- `atapi_report_luns`. -/
def atapiReportLuns (c : PortCtx) (slot : Slot) (cfis : U64) : PortCtx :=
  let buf : List U8 := (List.replicate 16 0).set 3 8
  ahciWriteFisD2h (writePrdt (atapiIreason c cfis) slot cfis buf) slot cfis ataOk

/-- `atapi_request_sense`. -/
def atapiRequestSense (c : PortCtx) (slot : Slot) (cfis : U64) : PortCtx :=
  let buf := ((((List.replicate 64 0).set 0 0xf0#8).set 2 c.p.dev.senseKey).set 7 10).set 12
    c.p.dev.asc
  atapiAnswer c slot cfis (buf.take (acmd c cfis 4).toNat)

/-- `atapi_start_stop_unit`. -/
def atapiStartStopUnit (c : PortCtx) (slot : Slot) (cfis : U64) : PortCtx :=
  if acmd c cfis 4 &&& 3#8 = 2#8 then atapiRefuse c slot cfis 0x53#8 else atapiDone c slot cfis

/-- The page of `atapi_mode_sense`, if there is one of that number. -/
def modePage (code : U8) : Option (List U8) :=
  -- `MODEPAGE_RW_ERROR_RECOVERY` and `MODEPAGE_CD_CAPABILITIES`
  if code = 0x01#8 then some [0, 14, 0x70, 0, 0, 0, 0, 0, 0x01, 6, 0, 0x05, 0, 0, 0, 0]
  else if code = 0x2A#8 then
    some ([0, 28, 0x70, 0, 0, 0, 0, 0, 0x2A, 20, 0x08, 0, 0x71, 0, 0, 0, 0, 0] ++ be16enc 2 ++
      be16enc 512 ++ List.replicate 8 0)
  else none

/-- `atapi_mode_sense`. -/
def atapiModeSense (c : PortCtx) (slot : Slot) (cfis : U64) : PortCtx :=
  let len := (acmd16 c cfis 7).toNat
  let pc := acmd c cfis 2 >>> 6
  if pc = 0 then
    match modePage (acmd c cfis 2 &&& 0x3f#8) with
    | some buf => atapiAnswer c slot cfis (buf.take len)
    | none => atapiRefuse c slot cfis 0x24#8
  else if pc = 3 then atapiRefuse c slot cfis 0x39#8
  else atapiRefuse c slot cfis 0x24#8

/-- `atapi_get_event_status_notification`. -/
def atapiGetEventStatusNotification (c : PortCtx) (slot : Slot) (cfis : U64) : PortCtx :=
  if acmd c cfis 1 &&& 1#8 = 0 then atapiRefuse c slot cfis 0x24#8
  else
    let buf : List U8 := [0, 6, 0x04, 0x10, 0, 0x02, 0, 0]
    atapiAnswer c slot cfis (buf.take (acmd16 c cfis 7).toNat)

end DeviceModel

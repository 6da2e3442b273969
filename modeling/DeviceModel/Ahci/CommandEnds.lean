import DeviceModel.Ahci.Effects

/-!
# How a command ends

`cmdEnd` reads off the command table, the PRDT and the command list how
`ahci_handle_cmd` will end, for each of the ATA and ATAPI commands, and
`ahciHandleCmd_spec` proves it right.
-/

namespace DeviceModel

/-! ## The ends -/

/-- How a call of `ahci_handle_cmd` ends. -/
inductive CmdEnd : Type where
  /-- an `ahci_write_fis_d2h` with an error -/
  | fails
  /-- an `ahci_write_fis_d2h` without -/
  | succeeds
  /-- a TRIM command that names no range is answered -/
  | trims (ncq : Bool)
  /-- a request is submitted -/
  | issues (ncq : Bool)
  /-- a read of length zero is answered, and a request is submitted all the same -/
  | readsNothing
  /-- an assertion of `ahci_build_iov` fails -/
  | aborts
  deriving DecidableEq, Repr

/-- The end of a command that is answered at once. -/
def answerEnd (err : Bool) : CmdEnd := if err then .fails else .succeeds

/-- The end of a command that submits a request, by what goes into it. -/
def fillEnd (fill : BlockifReq → Except Stop (AhciIoreq × BlockifReq)) (ncq : Bool) : CmdEnd :=
  if (fill ⟨0, 0, []⟩).isOk then .issues ncq else .aborts

/-- The end of a TRIM command. -/
def trimEnd (c : PortCtx) (slot : Slot) (cfis : U64) : CmdEnd :=
  match ahciTrimNext (readPrdt c slot cfis 512) (ahciTrimLen c cfis) 64 0 with
  | .ok .finished => .trims (ahciTrimNcq c cfis)
  | .ok (.range _ _ _) => .issues (ahciTrimNcq c cfis)
  | .error _ => .aborts

/-- Whether `atapi_read_toc` refuses. -/
def tocRefused (c : PortCtx) (cfis : U64) : Bool :=
  let format := acmd c cfis 9 >>> 6
  (format == 0 && decide (acmd c cfis 6 > 1) && acmd c cfis 6 != 0xaa#8) ||
    (format != 0 && format != 1 && format != 2)

/-- The end of a packet command. -/
def packetEnd (c : PortCtx) (slot : Slot) (cfis : U64) : CmdEnd :=
  match scsiCmd (acmd c cfis 0) with
  | .testUnitReady | .readCapacity | .preventAllow | .reportLuns | .requestSense => .succeeds
  | .inquiry => answerEnd (acmd c cfis 1 &&& 1#8 != 0 && acmd c cfis 2 != 0)
  | .readToc => answerEnd (tocRefused c cfis)
  | .read =>
    if atapiReadLen c cfis = 0 then .readsNothing
    else
      fillEnd (atapiReadFill c slot cfis ((acmd32 c cfis 2).setWidth 64) (atapiReadLen c cfis) 0)
        false
  | .startStopUnit => answerEnd (acmd c cfis 4 &&& 3#8 == 2#8)
  | .modeSense =>
    answerEnd (acmd c cfis 2 >>> 6 != 0 || (modePage (acmd c cfis 2 &&& 0x3f#8)).isNone)
  | .getEventStatusNotification => answerEnd (acmd c cfis 1 &&& 1#8 == 0)
  | .other => .fails

/-- The end of a command. -/
def cmdEnd (c : PortCtx) (slot : Slot) (cfis : U64) : CmdEnd :=
  match ataCmd (c.cfis cfis 2) with
  | .ataIdentify => answerEnd (c.p.atapi || c.prdtl slot == 0)
  | .setfeatures => answerEnd (tfdError (ataSetfeatures c cfis).2)
  | .setMulti => answerEnd (tfdError (ataSetMulti c cfis).2)
  | .rw => fillEnd (ahciRwFill c slot cfis 0) (ataRwFpdma (c.cfis cfis 2))
  | .flushcache => .issues false
  | .dataSetManagement => if ataIsDsmTrim c cfis then trimEnd c slot cfis else .fails
  | .sendFpdmaQueued => if ataIsSendTrim c cfis then trimEnd c slot cfis else .fails
  | .readLog => answerEnd (readLogRefused c slot cfis || (readLogPage c (c.cfis cfis 4)).isNone)
  | .securityFreezeLock | .unsupported => .fails
  | .checkPowerMode | .standby => .succeeds
  | .atapiIdentify => answerEnd !c.p.atapi
  | .packetCmd => if !c.p.atapi then .fails else packetEnd c slot cfis

/-! ## What a request structure is filled with -/

/-- What a command puts into its request structure says whose it is. -/
def FillsFor (slot : Slot) (cfis : U64)
    (fill : BlockifReq → Except Stop (AhciIoreq × BlockifReq)) : Prop :=
  ∀ breq aior breq', fill breq = .ok (aior, breq') → aior.slot = slot ∧ aior.cfis = cfis

/-- Filling in a request structure stops for one reason at most. -/
def FillStops (fill : BlockifReq → Except Stop (AhciIoreq × BlockifReq)) : Prop :=
  ∀ breq e, fill breq = .error e → e = .assertion "todo > 0"

/-- Whether it stops does not depend on what the request structure holds. -/
def FillUniform (fill : BlockifReq → Except Stop (AhciIoreq × BlockifReq)) : Prop :=
  ∀ breq breq', (fill breq).isOk = (fill breq').isOk

/-- What is known of every command's `fill`. -/
structure Filling (slot : Slot) (cfis : U64)
    (fill : BlockifReq → Except Stop (AhciIoreq × BlockifReq)) : Prop where
  isFor : FillsFor slot cfis fill
  stops : FillStops fill
  uniform : FillUniform fill

/-- `ahci_build_iov` looks at no field of the block request. -/
theorem ahciBuildIov_eq (c : PortCtx) (aior : AhciIoreq) (prdt : U64) (prdtl : Nat) :
    ∃ (b : Bool) (aior' : AhciIoreq) (iov : List Iovec) (resid : Nat), aior'.slot = aior.slot ∧ aior'.cfis = aior.cfis ∧
      ∀ breq, ahciBuildIov c aior breq prdt prdtl =
        if b then .ok (aior', { breq with brIov := iov, brResid := resid })
        else .error (.assertion "todo > 0") := by
  refine ⟨_, _, _, _, ?_, ?_, fun _ => assert_bind _ _ _⟩ <;> rfl

theorem ahciBuildIov_filling (c : PortCtx) (aior : AhciIoreq) (prdt : U64) (prdtl : Nat)
    (off : U64) :
    Filling aior.slot aior.cfis
      (fun breq => ahciBuildIov c aior { breq with brOffset := off } prdt prdtl) := by
  obtain ⟨b, aior', iov, resid, hslot, hcfis, heq⟩ := ahciBuildIov_eq c aior prdt prdtl
  simp only [heq]
  refine ⟨?_, ?_, ?_⟩
  · intro breq aior'' breq' h
    cases b with
    | true =>
      cases h
      exact ⟨hslot, hcfis⟩
    | false => cases h
  · intro breq e h
    cases b with
    | true => cases h
    | false =>
      cases h
      rfl
  · intro breq breq'
    cases b <;> rfl

theorem ahciRwFill_filling (c : PortCtx) (slot : Slot) (cfis : U64) (done : U32) :
    Filling slot cfis (ahciRwFill c slot cfis done) :=
  ahciBuildIov_filling c (AhciIoreq.mk cfis _ done slot false) _ _ _

theorem atapiReadFill_filling (c : PortCtx) (slot : Slot) (cfis lba : U64) (len done : U32) :
    Filling slot cfis (atapiReadFill c slot cfis lba len done) :=
  ahciBuildIov_filling c (AhciIoreq.mk cfis _ done slot false) _ _ _

theorem filling_ok {slot : Slot} {cfis : U64} {aior : AhciIoreq} (f : BlockifReq → BlockifReq)
    (hslot : aior.slot = slot) (hcfis : aior.cfis = cfis) :
    Filling slot cfis (fun breq => .ok (aior, f breq)) := by
  refine ⟨?_, fun _ _ h => (nomatch h), fun _ _ => rfl⟩
  intro breq aior' breq' h
  cases h
  exact ⟨hslot, hcfis⟩

/-- A read of length zero puts nothing into its request structure. -/
theorem atapiReadFill_zero (c : PortCtx) (slot : Slot) (cfis lba : U64) (breq : BlockifReq) :
    (atapiReadFill c slot cfis lba 0 0 breq).isOk = true := by
  have hloop : ∀ n prdt, ahciIovLoop c.sc.vmctx c.mem n prdt ⟨[], 0, 0, 0⟩ = (⟨[], 0, 0, 0⟩, n) := by
    intro n prdt
    cases n with
    | zero => rfl
    | succ n => rw [ahciIovLoop, if_neg (by decide)]
  have hzero : (0 : U32) * 2048 - 0 = 0 := by decide
  rw [atapiReadFill, ahciBuildIov, hzero, hloop]
  rfl

/-! ## Trimming -/

/-- `d` is `c` after a TRIM command with no range left has been answered. -/
structure Trimmed (c d : PortCtx) (slot : Slot) (ncq first : Bool) : Prop where
  reports : Reports c d
  log : d.log = c.log ++
    if ncq then (if first then [.d2hNcq slot] else []) ++ [.sdb slot ataOk] else [.d2h slot ataOk]
  ci : d.p.ci = if ncq && !first then c.p.ci else c.p.ci &&& ~~~slotBit slot
  busy : first = true → tfdBusy d.p.tfd = false
  wait : d.p.waitforclear = c.p.waitforclear

theorem ahciWriteFisD2hNcq_reports (c : PortCtx) (slot : Slot) :
    Reports c (ahciWriteFisD2hNcq c slot) := by
  obtain ⟨m, heq⟩ := ahciWriteFisD2hNcq_spec c slot
  rw [heq]
  exact ⟨.refl c.sc _ _ _, rfl⟩

theorem ahciWriteFisSdb_reports (c : PortCtx) (slot : Slot) (cfis : U64) (tfd : U32) :
    Reports c (ahciWriteFisSdb c slot cfis tfd) := by
  obtain ⟨is, sc, m, dev, sact, hsc, heq⟩ := ahciWriteFisSdb_spec c slot cfis tfd
  rw [heq]
  exact ⟨hsc, rfl⟩

theorem ahciWriteFisD2h_reports (c : PortCtx) (slot : Slot) (cfis : U64) (tfd : U32) :
    Reports c (ahciWriteFisD2h c slot cfis tfd) := by
  obtain ⟨is, sc, m, dev, hsc, heq⟩ := ahciWriteFisD2h_spec c slot cfis tfd
  rw [heq]
  exact ⟨hsc, rfl⟩

theorem ahciTrimAnswer_trimmed (c : PortCtx) (slot : Slot) (cfis : U64) (first : Bool) :
    Trimmed c (ahciTrimAnswer c slot cfis first) slot (ahciTrimNcq c cfis) first := by
  have hok : tfdError ataOk = false := by decide
  have hbusy : tfdBusy ataOk = false := by decide
  have hbusy' : tfdBusy (ataOk &&& ~~~0x77#32 ||| ataOk &&& 0x77#32) = false := by decide
  rw [ahciTrimAnswer]
  cases ahciTrimNcq c cfis with
  | false =>
    obtain ⟨is, sc, m, dev, hsc, heq⟩ := ahciWriteFisD2h_spec c slot cfis ataOk
    rw [if_neg Bool.false_ne_true, heq, hok]
    exact ⟨⟨hsc, rfl⟩, rfl, rfl, fun _ => hbusy, by simp⟩
  | true =>
    rw [if_pos rfl]
    cases first with
    | false =>
      obtain ⟨is, sc, m, dev, sact, hsc, heq⟩ := ahciWriteFisSdb_spec c slot cfis ataOk
      rw [if_neg Bool.false_ne_true, heq, hok]
      exact ⟨⟨hsc, rfl⟩, rfl, rfl, fun h => (nomatch h), by simp⟩
    | true =>
      obtain ⟨m, heq⟩ := ahciWriteFisD2hNcq_spec c slot
      obtain ⟨is, sc, m', dev, sact, hsc, heq'⟩ :=
        ahciWriteFisSdb_spec (ahciWriteFisD2hNcq c slot) slot cfis ataOk
      rw [if_pos rfl, heq', hok, heq]
      rw [heq] at hsc
      refine ⟨⟨hsc, rfl⟩, ?_, rfl, fun _ => hbusy', by simp⟩
      rw [List.append_assoc]
      rfl

/-- A TRIM command of 512 bytes never looks past its buffer. -/
theorem ahciTrimNext_isOk (buf : Nat → U8) {len : U32} (hlen : len.toNat ≤ 512) :
    ∀ n done, done + 8 * n = 512 → 0 < n → (ahciTrimNext buf len n done).isOk = true := by
  intro n
  induction n with
  | zero => intro done _ hpos; omega
  | succ n ih =>
    intro done hdone _
    rw [ahciTrimNext, if_neg (by omega)]
    simp only []
    split
    · rfl
    · split
      · rfl
      · exact ih (done + 8) (by omega) (by omega)

/-! ## Every command ends as it should -/

/-- What an end says of a call of `ahci_handle_cmd`. -/
inductive EndsWith (c : PortCtx) (slot : Slot) (cfis : U64) :
    CmdEnd → Except Stop PortCtx → Prop where
  | fails {d : PortCtx} : Answers c d slot true → EndsWith c slot cfis .fails (.ok d)
  | succeeds {d : PortCtx} : Answers c d slot false → EndsWith c slot cfis .succeeds (.ok d)
  | trims {d : PortCtx} {ncq : Bool} : Trimmed c d slot ncq true →
      EndsWith c slot cfis (.trims ncq) (.ok (ahciFinished d slot))
  | issues {fill : BlockifReq → Except Stop (AhciIoreq × BlockifReq)} {ncq : Bool} {op : Blockop} :
      Filling slot cfis fill → (fill ⟨0, 0, []⟩).isOk = true →
      EndsWith c slot cfis (.issues ncq) (ahciIssue c slot fill ncq op)
  | readsNothing {d : PortCtx} {fill : BlockifReq → Except Stop (AhciIoreq × BlockifReq)} :
      Answers c d slot false → Filling slot cfis fill → (fill ⟨0, 0, []⟩).isOk = true →
      EndsWith c slot cfis .readsNothing (ahciIssue d slot fill false .read)
  | aborts {fill : BlockifReq → Except Stop (AhciIoreq × BlockifReq)} {ncq : Bool} {op : Blockop} :
      Filling slot cfis fill → (fill ⟨0, 0, []⟩).isOk = false →
      EndsWith c slot cfis .aborts (ahciIssue c slot fill ncq op)

namespace EndsWith

variable {c d : PortCtx} {slot : Slot} {cfis : U64}

theorem answer {err : Bool} (h : Answers c d slot err) :
    EndsWith c slot cfis (answerEnd err) (.ok d) := by
  cases err with
  | true => exact .fails h
  | false => exact .succeeds h

theorem fill {fill : BlockifReq → Except Stop (AhciIoreq × BlockifReq)}
    (h : Filling slot cfis fill) (ncq : Bool) (op : Blockop) :
    EndsWith c slot cfis (fillEnd fill ncq) (ahciIssue c slot fill ncq op) := by
  rw [fillEnd]
  cases hok : (fill ⟨0, 0, []⟩).isOk with
  | true => exact .issues h hok
  | false => exact .aborts h hok

end EndsWith

/-- `ahci_handle_dsm_trim`, on a new command. -/
theorem ahciHandleDsmTrim_ends (c : PortCtx) (slot : Slot) (cfis : U64)
    (hlen : (ahciTrimLen c cfis).toNat ≤ 512) :
    EndsWith c slot cfis (trimEnd c slot cfis) ((ahciHandleDsmTrim c slot cfis 0).map (·.1)) := by
  have hok := ahciTrimNext_isOk (readPrdt c slot cfis 512) hlen 64 0 (by omega) (by omega)
  have hzero : (0 : U32).toNat = 0 := rfl
  rw [trimEnd, ahciHandleDsmTrim, hzero]
  cases hnext : ahciTrimNext (readPrdt c slot cfis 512) (ahciTrimLen c cfis) 64 0 with
  | error e =>
    rw [hnext] at hok
    cases hok
  | ok next =>
    cases next with
    | finished => exact .trims (ahciTrimAnswer_trimmed c slot cfis true)
    | range elba elen done =>
      have hmap : ∀ r : Except Stop PortCtx,
          Except.map (·.1) (r >>= fun t => Except.ok (t, false)) = r := by
        intro r
        cases r <;> rfl
      have hissue := @EndsWith.issues c slot cfis
        (ahciTrimFill c slot cfis (ahciTrimLen c cfis) elen done elba) (ahciTrimNcq c cfis) .delete
        (filling_ok _ rfl rfl) rfl
      simp only [bind, Except.bind]
      exact (hmap _).symm ▸ (by simpa using hissue)

/-! ### Answers with data -/

theorem handleIdentify_answers (c : PortCtx) (slot : Slot) (cfis : U64) :
    Answers c (handleIdentify c slot cfis) slot (c.p.atapi || c.prdtl slot == 0) := by
  rw [handleIdentify]
  generalize identifyBuf c = buf
  cases c.p.atapi || c.prdtl slot == 0 with
  | true => exact .aborted (.refl c)
  | false => exact .ok ((Quiet.piosetup c).trans (Quiet.writePrdt _ slot cfis buf))

theorem handleAtapiIdentify_answers (c : PortCtx) (slot : Slot) (cfis : U64) :
    Answers c (handleAtapiIdentify c slot cfis) slot !c.p.atapi := by
  rw [handleAtapiIdentify]
  generalize atapiIdentifyBuf c = buf
  cases !c.p.atapi with
  | true => exact .aborted (.refl c)
  | false => exact .ok ((Quiet.piosetup c).trans (Quiet.writePrdt _ slot cfis buf))

theorem ahciHandleReadLog_answers (c : PortCtx) (slot : Slot) (cfis : U64) :
    Answers c (ahciHandleReadLog c slot cfis) slot
      (readLogRefused c slot cfis || (readLogPage c (c.cfis cfis 4)).isNone) := by
  rw [ahciHandleReadLog]
  cases readLogRefused c slot cfis with
  | true => exact .aborted (.refl c)
  | false =>
    cases readLogPage c (c.cfis cfis 4) with
    | none => exact .aborted (.refl c)
    | some buf =>
      simp only [Bool.false_eq_true, if_false, Option.isNone_some, Bool.or_self]
      split
      · exact .ok ((Quiet.piosetup c).trans (Quiet.writePrdt _ slot cfis buf))
      · exact .ok (Quiet.writePrdt c slot cfis buf)

theorem atapiInquiry_answers (c : PortCtx) (slot : Slot) (cfis : U64) :
    Answers c (atapiInquiry c slot cfis) slot
      (acmd c cfis 1 &&& 1#8 != 0 && acmd c cfis 2 != 0) := by
  rw [atapiInquiry]
  cases h : (acmd c cfis 1 &&& 1#8 != 0 && acmd c cfis 2 != 0) with
  | true =>
    rw [Bool.and_eq_true, bne_iff_ne, bne_iff_ne] at h
    rw [if_pos h]
    exact .refuse c slot cfis _
  | false =>
    rw [← Bool.not_eq_true, Bool.and_eq_true, bne_iff_ne, bne_iff_ne] at h
    rw [if_neg h]
    exact .ireason_answer c slot cfis _

theorem atapiReadToc_answers (c : PortCtx) (slot : Slot) (cfis : U64) :
    Answers c (atapiReadToc c slot cfis) slot (tocRefused c cfis) := by
  rw [atapiReadToc, tocRefused]
  generalize hformat : acmd c cfis 9 >>> 6 = format
  simp only []
  by_cases h0 : format = 0
  · rw [if_pos h0]
    by_cases htrack : acmd c cfis 6 > 1 ∧ acmd c cfis 6 ≠ 0xaa#8
    · rw [if_pos htrack, h0, decide_eq_true htrack.1, bne_iff_ne.2 htrack.2]
      exact .refuse c slot cfis _
    · rw [if_neg htrack, h0]
      have hno : (decide (acmd c cfis 6 > 1) && acmd c cfis 6 != 0xaa#8) = false := by
        simpa using htrack
      rw [Bool.and_assoc, hno]
      exact .answer c slot cfis _
  · rw [if_neg h0, beq_false_of_ne h0, bne_iff_ne.2 h0]
    simp only [Bool.false_and, Bool.false_or, Bool.true_and]
    by_cases h1 : format = 1
    · rw [if_pos h1, h1]
      exact .answer c slot cfis _
    · by_cases h2 : format = 2
      · rw [if_neg h1, if_pos h2, h2]
        exact .answer c slot cfis _
      · rw [if_neg h1, if_neg h2, bne_iff_ne.2 h1, bne_iff_ne.2 h2]
        exact .refuse c slot cfis _

theorem atapiStartStopUnit_answers (c : PortCtx) (slot : Slot) (cfis : U64) :
    Answers c (atapiStartStopUnit c slot cfis) slot (acmd c cfis 4 &&& 3#8 == 2#8) := by
  rw [atapiStartStopUnit]
  cases h : acmd c cfis 4 &&& 3#8 == 2#8 with
  | true =>
    rw [if_pos (beq_iff_eq.1 h)]
    exact .refuse c slot cfis _
  | false =>
    rw [if_neg (beq_eq_false_iff_ne.1 h)]
    exact .done c slot cfis

theorem atapiModeSense_answers (c : PortCtx) (slot : Slot) (cfis : U64) :
    Answers c (atapiModeSense c slot cfis) slot
      (acmd c cfis 2 >>> 6 != 0 || (modePage (acmd c cfis 2 &&& 0x3f#8)).isNone) := by
  rw [atapiModeSense]
  by_cases hpc : acmd c cfis 2 >>> 6 = 0
  · rw [if_pos hpc, hpc, bne_self_eq_false, Bool.false_or]
    cases modePage (acmd c cfis 2 &&& 0x3f#8) with
    | none => exact .refuse c slot cfis _
    | some buf => exact .answer c slot cfis _
  · rw [if_neg hpc, bne_iff_ne.2 hpc, Bool.true_or]
    split <;> exact .refuse c slot cfis _

theorem atapiGetEventStatusNotification_answers (c : PortCtx) (slot : Slot) (cfis : U64) :
    Answers c (atapiGetEventStatusNotification c slot cfis) slot (acmd c cfis 1 &&& 1#8 == 0) := by
  rw [atapiGetEventStatusNotification]
  cases h : acmd c cfis 1 &&& 1#8 == 0 with
  | true =>
    rw [if_pos (beq_iff_eq.1 h)]
    exact .refuse c slot cfis _
  | false =>
    rw [if_neg (beq_eq_false_iff_ne.1 h)]
    exact .answer c slot cfis _

/-! ### All commands -/

/-- `atapi_read`, on a new command. -/
theorem atapiRead_ends (c : PortCtx) (slot : Slot) (cfis : U64) :
    EndsWith c slot cfis
      (if atapiReadLen c cfis = 0 then .readsNothing
        else fillEnd (atapiReadFill c slot cfis ((acmd32 c cfis 2).setWidth 64)
          (atapiReadLen c cfis) 0) false)
      (atapiRead c slot cfis 0) := by
  rw [atapiRead]
  by_cases hlen : atapiReadLen c cfis = 0
  · rw [if_pos hlen, if_pos hlen, hlen]
    exact .readsNothing (.done c slot cfis) (atapiReadFill_filling _ slot cfis _ 0 0)
      (atapiReadFill_zero _ slot cfis _ _)
  · rw [if_neg hlen, if_neg hlen]
    exact .fill (atapiReadFill_filling c slot cfis _ _ 0) false .read

theorem handlePacketCmd_ends (c : PortCtx) (slot : Slot) (cfis : U64) :
    EndsWith c slot cfis (packetEnd c slot cfis) (handlePacketCmd c slot cfis) := by
  rw [packetEnd, handlePacketCmd]
  cases scsiCmd (acmd c cfis 0) with
  | testUnitReady | preventAllow => exact .succeeds (.done c slot cfis)
  | inquiry => exact .answer (atapiInquiry_answers c slot cfis)
  | readCapacity | reportLuns => exact .succeeds (.ireason_answer c slot cfis _)
  | readToc => exact .answer (atapiReadToc_answers c slot cfis)
  | read => exact atapiRead_ends c slot cfis
  | requestSense => exact .succeeds (.answer c slot cfis _)
  | startStopUnit => exact .answer (atapiStartStopUnit_answers c slot cfis)
  | modeSense => exact .answer (atapiModeSense_answers c slot cfis)
  | getEventStatusNotification =>
    exact .answer (atapiGetEventStatusNotification_answers c slot cfis)
  | other => exact .fails (.refuse c slot cfis _)

theorem tfdBusy_done : tfdBusy (ataSDsc ||| ataSReady) = false := by decide

theorem tfdBusy_refused : tfdBusy ataRefused = false := by decide

theorem ataSetfeatures_notBusy (c : PortCtx) (cfis : U64) :
    tfdBusy (ataSetfeatures c cfis).2 = false := by
  rw [ataSetfeatures]
  repeat' split
  all_goals first
    | exact tfdBusy_done
    | exact tfdBusy_refused

theorem ataSetMulti_notBusy (c : PortCtx) (cfis : U64) :
    tfdBusy (ataSetMulti c cfis).2 = false := by
  rw [ataSetMulti]
  split
  · exact tfdBusy_refused
  · exact tfdBusy_done

theorem ahciTrimLen_dsm {c : PortCtx} {cfis : U64} (h : ataIsDsmTrim c cfis = true) :
    (ahciTrimLen c cfis).toNat ≤ 512 := by
  simp only [ataIsDsmTrim, Bool.and_eq_true, beq_iff_eq] at h
  obtain ⟨⟨⟨h11, h3⟩, h13⟩, h12⟩ := h
  rw [ahciTrimLen]
  simp only [h11, h3, h13, h12]
  split <;> decide

theorem ahciTrimLen_send {c : PortCtx} {cfis : U64} (hcmd : ataCmd (c.cfis cfis 2) = .sendFpdmaQueued)
    (h : ataIsSendTrim c cfis = true) : (ahciTrimLen c cfis).toNat ≤ 512 := by
  have h64 : ahciTrimNcq c cfis = true := by
    rw [ahciTrimNcq]
    by_contra hno
    have h06 : c.cfis cfis 2 = 0x06#8 := by simpa using hno
    rw [h06] at hcmd
    exact absurd hcmd (by decide)
  simp only [ataIsSendTrim, Bool.and_eq_true, beq_iff_eq] at h
  obtain ⟨⟨⟨⟨h13, h17⟩, h16⟩, h11⟩, h3⟩ := h
  rw [ahciTrimLen]
  simp only [h64, h11, h3, if_true]
  decide

/-- **The end of every command.** -/
theorem ahciCmdSwitch_ends (c : PortCtx) (slot : Slot) (cfis : U64) :
    EndsWith c slot cfis (cmdEnd c slot cfis) (ahciCmdSwitch c slot cfis) := by
  rw [cmdEnd, ahciCmdSwitch]
  cases hcmd : ataCmd (c.cfis cfis 2) with
  | ataIdentify => exact .answer (handleIdentify_answers c slot cfis)
  | setfeatures =>
    exact .answer (.of_quiet ⟨c.mem, _, _, rfl⟩ (.d2h _ slot cfis (ataSetfeatures_notBusy c cfis)))
  | setMulti =>
    exact .answer (.of_quiet ⟨c.mem, _, _, rfl⟩ (.d2h _ slot cfis (ataSetMulti_notBusy c cfis)))
  | rw =>
    simp only []
    rw [ahciHandleRw, beq_self_eq_true, Bool.and_true]
    exact .fill (ahciRwFill_filling c slot cfis 0) _ _
  | flushcache => exact .issues (filling_ok id rfl rfl) rfl
  | dataSetManagement =>
    cases htrim : ataIsDsmTrim c cfis with
    | true => exact ahciHandleDsmTrim_ends c slot cfis (ahciTrimLen_dsm htrim)
    | false => exact .fails (.aborted (.refl c))
  | sendFpdmaQueued =>
    cases htrim : ataIsSendTrim c cfis with
    | true => exact ahciHandleDsmTrim_ends c slot cfis (ahciTrimLen_send hcmd htrim)
    | false => exact .fails (.aborted (.refl c))
  | readLog => exact .answer (ahciHandleReadLog_answers c slot cfis)
  | securityFreezeLock | unsupported => exact .fails (.aborted (.refl c))
  | checkPowerMode => exact .succeeds (.ok (Quiet.setMem c _))
  | standby => exact .succeeds (.ok (.refl c))
  | atapiIdentify => exact .answer (handleAtapiIdentify_answers c slot cfis)
  | packetCmd =>
    cases hatapi : c.p.atapi with
    | false => exact .fails (.aborted (.refl c))
    | true => exact handlePacketCmd_ends c slot cfis

end DeviceModel

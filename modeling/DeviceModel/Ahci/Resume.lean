import DeviceModel.Ahci.Slots

/-!
# How a completion callback ends

`callbackEnd` says, as `cmdEnd` does for a new command, how the callback of a request
goes on: it resumes the command, or it ends it.
-/

namespace DeviceModel

/-- How `ata_ioreq_cb` or `atapi_ioreq_cb` ends, up to `ahci_handle_port`. -/
inductive CallbackEnd : Type where
  /-- the command is over, and its status is written -/
  | ends (ncq : Bool)
  /-- a TRIM command has no range left -/
  | trims (ncq first : Bool)
  /-- a TRIM command looks past its buffer -/
  | overruns
  /-- another request is submitted -/
  | issues
  /-- a read of length zero is answered, and another request is submitted -/
  | readsNothing
  deriving DecidableEq, Repr

/-- The state in which the callback of request `a` decides. -/
def callbackCtx (c : PortCtx) (a : Nat) (err : Errno) : PortCtx :=
  ahciSetPrdbc (ahciReap c a) (c.p.ioreq a) err

/-- The end of the callback of request `a`. -/
def callbackEnd (c : PortCtx) (a : Nat) (err : Errno) : CallbackEnd :=
  let aior := c.p.ioreq a
  let d := callbackCtx c a err
  if err = .zero ∧ aior.more = true then
    if c.p.atapi then
      if atapiReadLen d aior.cfis = 0 then .readsNothing else .issues
    else if ataDsm c aior.cfis then
      match ahciTrimNext (readPrdt d aior.slot aior.cfis 512) (ahciTrimLen d aior.cfis) 64
          aior.done.toNat with
      | .ok .finished => .trims (ahciTrimNcq d aior.cfis) (aior.done == 0)
      | .ok (.range _ _ _) => .issues
      | .error _ => .overruns
    else .issues
  else .ends (!c.p.atapi && ataNcq (c.cfis aior.cfis 2))

/-- What an end says of the callback, from the state in which it decides. -/
inductive Resumes (c : PortCtx) (slot : Slot) (cfis : U64) :
    CallbackEnd → Except Stop (PortCtx × Bool) → Prop where
  | ends {d : PortCtx} {ncq : Bool} (tfd : U32) : Reports c d →
      d.log = c.log ++ [if ncq then .sdb slot tfd else .d2h slot tfd] →
      Resumes c slot cfis (.ends ncq) (.ok (ahciFinished d slot, true))
  | trims {d : PortCtx} {ncq first : Bool} : Trimmed c d slot ncq first →
      Resumes c slot cfis (.trims ncq first) (.ok (ahciFinished d slot, !first))
  | overruns : Resumes c slot cfis .overruns (.error .undefined)
  | issues {fill : BlockifReq → Except Stop (AhciIoreq × BlockifReq)} {ncq : Bool} {op : Blockop} :
      Filling slot cfis fill →
      Resumes c slot cfis .issues (ahciIssue c slot fill ncq op >>= fun t => .ok (t, false))
  | readsNothing {d : PortCtx} {fill : BlockifReq → Except Stop (AhciIoreq × BlockifReq)} :
      Answers c d slot false → Filling slot cfis fill →
      Resumes c slot cfis .readsNothing
        (ahciIssue d slot fill false .read >>= fun t => .ok (t, false))

theorem Except.map_eq_bind {α β : Type} (m : Except Stop α) (f : α → β) :
    m.map f = m >>= fun a => .ok (f a) := by
  cases m <;> rfl

section

variable (c : PortCtx) (slot : Slot) (cfis : U64)

/-- The search for a range to trim stops the program in one way. -/
theorem ahciTrimNext_error {buf : Nat → U8} {len : U32} {e : Stop} :
    ∀ {n done : Nat}, ahciTrimNext buf len n done = .error e → e = .undefined := by
  intro n
  induction n with
  | zero =>
    intro done h
    cases h
    rfl
  | succ n ih =>
    intro done h
    rw [ahciTrimNext] at h
    split at h
    · cases h
      rfl
    · simp only [] at h
      split at h
      · cases h
      · split at h
        · cases h
        · exact ih h

/-- `ahci_handle_dsm_trim`, on a command that goes on. -/
theorem ahciHandleDsmTrim_resumes (done : U32) :
    Resumes c slot cfis
      (match ahciTrimNext (readPrdt c slot cfis 512) (ahciTrimLen c cfis) 64 done.toNat with
        | .ok .finished => .trims (ahciTrimNcq c cfis) (done == 0)
        | .ok (.range _ _ _) => .issues
        | .error _ => .overruns)
      (ahciHandleDsmTrim c slot cfis done) := by
  rw [ahciHandleDsmTrim]
  cases hnext : ahciTrimNext (readPrdt c slot cfis 512) (ahciTrimLen c cfis) 64 done.toNat with
  | error e =>
    obtain rfl := ahciTrimNext_error hnext
    simp only [bind, Except.bind]
    exact .overruns
  | ok next =>
    simp only [bind, Except.bind]
    cases next with
    | finished => exact .trims (ahciTrimAnswer_trimmed c slot cfis (done == 0))
    | range elba elen next => exact .issues (filling_ok _ rfl rfl)

/-- `atapi_read`, on a command that goes on. -/
theorem atapiRead_resumes (done : U32) :
    Resumes c slot cfis (if atapiReadLen c cfis = 0 then .readsNothing else .issues)
      ((atapiRead c slot cfis done).map (·, false)) := by
  rw [Except.map_eq_bind, atapiRead]
  by_cases hlen : atapiReadLen c cfis = 0
  · simp only [hlen, if_true]
    exact .readsNothing (.ok (Quiet.ireason c cfis)) (atapiReadFill_filling _ slot cfis _ _ done)
  · simp only [hlen, if_false]
    exact .issues (atapiReadFill_filling c slot cfis _ _ done)

end

/-- **The end of every callback.** -/
theorem ahciIoreqBody_resumes (c : PortCtx) (a : Nat) (err : Errno) :
    Resumes (callbackCtx c a err) (c.p.ioreq a).slot (c.p.ioreq a).cfis (callbackEnd c a err)
      (ahciIoreqBody c a err) := by
  have hctx : ahciSetPrdbc (ahciReap c a) (c.p.ioreq a) err = callbackCtx c a err := rfl
  rw [ahciIoreqBody, callbackEnd]
  cases hport : c.p.atapi with
  | true =>
    simp only [if_true, Bool.not_true, Bool.false_and]
    rw [atapiIoreqBody]
    simp only [hctx]
    split
    · exact atapiRead_resumes _ _ _ _
    · rw [atapiIoreqEnd]
      split
      · obtain ⟨tfd, hlog, -⟩ := (Answers.done (callbackCtx c a err) (c.p.ioreq a).slot
          (c.p.ioreq a).cfis).log
        exact .ends tfd (Answers.done _ _ _).reports hlog
      · obtain ⟨tfd, hlog, -⟩ := (Answers.refuse (callbackCtx c a err) (c.p.ioreq a).slot
          (c.p.ioreq a).cfis 0x21#8).log
        exact .ends tfd (Answers.refuse _ _ _ _).reports hlog
  | false =>
    simp only [Bool.false_eq_true, if_false, Bool.not_false, Bool.true_and]
    rw [ataIoreqBody]
    simp only [hctx]
    split
    · split
      · exact ahciHandleDsmTrim_resumes _ _ _ _
      · rw [Except.map_eq_bind]
        exact .issues (ahciRwFill_filling _ _ _ _)
    · rw [ataIoreqEnd]
      cases ataNcq (c.cfis (c.p.ioreq a).cfis 2) with
      | true =>
        refine .ends (ataIoreqTfd err) (ahciWriteFisSdb_reports _ _ _ _) ?_
        rw [if_pos rfl, ahciWriteFisSdb_log]
        rfl
      | false =>
        refine .ends (ataIoreqTfd err) (ahciWriteFisD2h_reports _ _ _ _) ?_
        rw [if_neg Bool.false_ne_true, ahciWriteFisD2h_log]
        rfl

end DeviceModel

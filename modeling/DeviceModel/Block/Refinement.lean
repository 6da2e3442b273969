import DeviceModel.Block.Queue
import DeviceModel.Block.Transfer

/-!
# The block interface refines the sequential disk

A run is a sequence of calls of the block interface by callers that keep to its rules
(`Prepared`): buffers are distinct places outside the disk, transfers stay inside the
disk, and what an outstanding request uses is left alone. Each such run is a run of the
sequential disk with the same return values and the same callbacks.
-/

namespace DeviceModel

/-! ## Calls -/

/-- The block interface with a client whose callbacks only take note. -/
structure BlockCalls where
  blk : BlockState
  made : List Callback

/-- A callback that submits nothing. -/
def noteCallback (breq : Nat) (err : Errno) (s : BlockCalls) : Except Stop BlockCalls :=
  .ok { s with made := s.made ++ [⟨breq, err, (bufAddrs (s.blk.reqs breq).brIov).map s.blk.mem⟩] }

def noteClient : BlockifClient BlockCalls where
  blk := fun s => s.blk
  setBlk := fun s blk => { s with blk := blk }
  callback := noteCallback

/-- The guest memory that a request uses. -/
def touched (op : Blockop) (r : BlockifReq) : List U64 :=
  match op with
  | .read | .write => bufAddrs r.brIov
  | .flush | .delete => []

/-- The buffers are distinct places outside the disk, and the transfer stays inside. -/
structure ReqOk (bc : BlockifCtxt) (op : Blockop) (r : BlockifReq) : Prop where
  nodup : (touched op r).Nodup
  apart : ∀ x ∈ diskAddrs bc, x ∉ touched op r
  inside : op = .read ∨ op = .write → r.brOffset.toNat + iovTotal r.brIov ≤ bc.bcSize

/-- The caller fills in a request structure and memory before a call. It leaves alone
the disk and what the outstanding requests use. -/
structure Prepared (s : BlockState) (op : Blockop) (req : Nat) (r : BlockifReq) (mem : Mem) :
    Prop where
  ok : ReqOk s.bc op r
  same : ∀ be ∈ s.bc.bcPendq, be.beReq = req → s.reqs req = r
  apart : ∀ be ∈ s.bc.bcPendq, ∀ x ∈ touched be.beOp (s.reqs be.beReq),
    x ∉ touched op r ∧ mem x = s.mem x
  disk : ∀ x ∈ diskAddrs s.bc, mem x = s.mem x

/-- The state that the call finds. -/
def BlockState.prepare (s : BlockState) (req : Nat) (r : BlockifReq) (mem : Mem) : BlockState :=
  { s with reqs := Function.update s.reqs req r, mem := mem }

/-- A call and its return value. A call that does not return has no next state. -/
inductive BlockStep : BlockCalls → BlockCall × Errno → BlockCalls → Prop where
  | request {s : BlockCalls} (op : Blockop) (req : Nat) (r : BlockifReq) (mem : Mem) :
      Prepared s.blk op req r mem →
      BlockStep s
        (.request op req r.brOffset.toNat (iovTotal r.brIov) ((bufAddrs r.brIov).map mem),
          (blockifRequest (s.blk.prepare req r mem) req op).2)
        { s with blk := (blockifRequest (s.blk.prepare req r mem) req op).1 }
  | cancel {s : BlockCalls} {blk : BlockState} {err : Errno} (req : Nat) :
      blockifCancel s.blk req = .ok (blk, err) →
      BlockStep s (.cancel req, err) { s with blk := blk }
  | thr {s t : BlockCalls} (fuel : Nat) : blockifThr noteClient fuel s = .ok t →
      BlockStep s (.thr, .zero) t

/-! ## The relation -/

/-- The ticket of an element. -/
structure TicketOf (s : BlockState) (be : BlockifElem) (t : Ticket) : Prop where
  req : t.req = be.beReq
  op : t.op = be.beOp
  offset : t.offset = (s.reqs be.beReq).brOffset.toNat
  len : t.len = iovTotal (s.reqs be.beReq).brIov
  data : t.op = .write → t.data = (bufAddrs (s.reqs be.beReq).brIov).map s.mem
  ok : ReqOk s.bc be.beOp (s.reqs be.beReq)

/-- Two elements use different places. -/
def ElemsApart (s : BlockState) (be be' : BlockifElem) : Prop :=
  ∀ x ∈ touched be.beOp (s.reqs be.beReq), x ∉ touched be'.beOp (s.reqs be'.beReq)

/-- The block interface, between calls of `blockif_dequeue`, stands for a sequential
disk. -/
structure DiskRefines (s : BlockCalls) (a : SeqDisk) : Prop where
  queues : QueueOk s.blk.bc s.blk.reqs
  idle : s.blk.bc.bcBusyq = []
  rdonly : s.blk.bc.bcRdonly = false
  size : s.blk.bc.bcSize ≤ 2 ^ 64
  tickets : List.Forall₂ (TicketOf s.blk) s.blk.bc.bcPendq a.queue
  apart : s.blk.bc.bcPendq.Pairwise (ElemsApart s.blk)
  disk : ∀ i < s.blk.bc.bcSize, diskIn s.blk.bc s.blk.mem i = a.disk i
  made : s.made = a.served.map (·.2)

/-- What a ticket says does not depend on the marks. -/
theorem TicketOf.congr {s s' : BlockState} {be be' : BlockifElem} {t : Ticket}
    (h : TicketOf s be t) (hreq : be'.beReq = be.beReq) (hop : be'.beOp = be.beOp)
    (hsize : s'.bc.bcSize = s.bc.bcSize) (hbase : s'.bc.bcBase = s.bc.bcBase)
    (hoff : (s'.reqs be.beReq).brOffset = (s.reqs be.beReq).brOffset)
    (hiov : (s'.reqs be.beReq).brIov = (s.reqs be.beReq).brIov)
    (hmem : ∀ x ∈ touched be.beOp (s.reqs be.beReq), s'.mem x = s.mem x) : TicketOf s' be' t := by
  have htouched : touched be.beOp (s'.reqs be.beReq) = touched be.beOp (s.reqs be.beReq) := by
    cases be.beOp <;> simp only [touched, hiov]
  refine ⟨h.req.trans hreq.symm, h.op.trans hop.symm, ?_, ?_, ?_, ?_, ?_, ?_⟩
  · rw [hreq, hoff, h.offset]
  · rw [hreq, hiov, h.len]
  · intro hw
    have hbe : be.beOp = .write := h.op.symm.trans hw
    rw [hreq, hiov, h.data hw]
    refine List.map_congr_left fun x hx => (hmem x ?_).symm
    rw [hbe]
    exact hx
  · rw [hreq, hop, htouched]
    exact h.ok.nodup
  · rw [hreq, hop, htouched, diskAddrs, hsize, hbase]
    exact h.ok.apart
  · rw [hreq, hop, hoff, hiov, hsize]
    exact h.ok.inside

/-! ## One transfer -/

/-- The callback of an element, after its transfer. -/
def callbackOf (s : BlockState) (be : BlockifElem) : Callback where
  req := be.beReq
  err := (blockifTransfer s be).2
  data := (bufAddrs (s.reqs be.beReq).brIov).map (blockifTransfer s be).1.mem

/-- **One request.** A transfer does to the disk what its ticket says, gets the
callback that its ticket asks for, and touches nothing else. -/
theorem blockifTransfer_spec {s : BlockState} {be : BlockifElem} {t : Ticket} {d : Disk}
    (ht : TicketOf s be t) (hro : s.bc.bcRdonly = false) (hsize : s.bc.bcSize ≤ 2 ^ 64)
    (hd : ∀ i < s.bc.bcSize, diskIn s.bc s.mem i = d i) :
    t.Answers d (callbackOf s be) ∧
    (∀ i < s.bc.bcSize, diskIn s.bc (blockifTransfer s be).1.mem i = t.serve d i) ∧
    ∀ x, x ∉ diskAddrs s.bc → x ∉ touched be.beOp (s.reqs be.beReq) →
      (blockifTransfer s be).1.mem x = s.mem x := by
  obtain ⟨hreq, hop, hoff, hlen, hdata, hok⟩ := ht
  cases hbe : be.beOp with
  | read =>
    rw [hbe] at hok
    have hin := hok.inside (.inl rfl)
    have hsub := addrs_subset_disk hin
    have hmem : (blockifTransfer s be).1.mem =
        blockifCopyIn (s.reqs be.beReq).brIov (s.bc.bcBase + (s.reqs be.beReq).brOffset) s.mem := by
      rw [blockifTransfer, hbe]
    have herr : (blockifTransfer s be).2 = if t.op = .delete then .eopnotsupp else .zero := by
      rw [blockifTransfer, hop, hbe]
      rfl
    refine ⟨⟨hreq.symm, herr, fun _ => ?_⟩, ?_, ?_⟩
    · rw [callbackOf, hmem, map_blockifCopyIn _ _ _ hok.nodup fun x hx => hok.apart x (hsub x hx),
        readBytes_disk, ← hoff, ← hlen]
      refine List.map_congr_left fun i hi => hd _ ?_
      rw [List.mem_range] at hi
      omega
    · intro i hi
      have hout : s.bc.bcBase + BitVec.ofNat 64 i ∉ bufAddrs (s.reqs be.beReq).brIov :=
        hok.apart _ (List.mem_map.2 ⟨i, List.mem_range.2 hi, rfl⟩)
      rw [diskIn, hmem, blockifCopyIn_of_notMem _ _ _ hout, Ticket.serve, hop, hbe]
      exact hd i hi
    · intro x _ hx
      rw [hmem]
      exact blockifCopyIn_of_notMem _ _ _ hx
  | write =>
    rw [hbe] at hok
    have hin := hok.inside (.inr rfl)
    have hsub := addrs_subset_disk hin
    have hlendata : t.data.length = iovTotal (s.reqs be.beReq).brIov := by
      rw [hdata (hop.trans hbe), List.length_map, length_bufAddrs]
    have hmem : (blockifTransfer s be).1.mem =
        blockifCopyOut (s.reqs be.beReq).brIov (s.bc.bcBase + (s.reqs be.beReq).brOffset) s.mem := by
      rw [blockifTransfer, hbe]
      simp only [hro, Bool.false_eq_true, if_false]
    have herr : (blockifTransfer s be).2 = if t.op = .delete then .eopnotsupp else .zero := by
      rw [blockifTransfer, hop, hbe]
      simp only [hro, Bool.false_eq_true, if_false, reduceCtorEq]
    refine ⟨⟨hreq.symm, herr, fun hr => ?_⟩, ?_, ?_⟩
    · rw [hop, hbe] at hr
      cases hr
    · intro i hi
      have hstored : (Mem.addrs (s.bc.bcBase + (s.reqs be.beReq).brOffset) t.data.length).map
          (blockifTransfer s be).1.mem = t.data := by
        rw [hlendata, hmem, hdata (hop.trans hbe)]
        refine map_blockifCopyOut _ _ _ (Mem.nodup_addrs _ (by omega)) ?_
        exact fun x hx => hok.apart x (hsub x hx)
      have hkept : ∀ x, x ∉ Mem.addrs (s.bc.bcBase + (s.reqs be.beReq).brOffset) t.data.length →
          (blockifTransfer s be).1.mem x = s.mem x := by
        intro x hx
        rw [hlendata] at hx
        rw [hmem]
        exact blockifCopyOut_of_notMem _ _ _ hx
      rw [Ticket.serve, hop, hbe, hoff, diskIn_store hsize (by omega) hstored hkept hi]
      exact Disk.store_congr _ _ (hd i hi)
    · intro x hx _
      rw [hmem]
      exact blockifCopyOut_of_notMem _ _ _ fun hx' => hx (hsub x hx')
  | flush | delete =>
    have hmem : (blockifTransfer s be).1.mem = s.mem := by rw [blockifTransfer, hbe]
    have herr : (blockifTransfer s be).2 = if t.op = .delete then .eopnotsupp else .zero := by
      rw [blockifTransfer, hop, hbe]
      rfl
    refine ⟨⟨hreq.symm, herr, fun hr => ?_⟩, ?_, ?_⟩
    · rw [hop, hbe] at hr
      cases hr
    · intro i hi
      rw [hmem, Ticket.serve, hop, hbe]
      exact hd i hi
    · intro x _ _
      rw [hmem]

/-! ## Serving the queue -/

/-- The relation does not read the mutex. -/
theorem DiskRefines.setMtx {s : BlockCalls} {a : SeqDisk} (h : DiskRefines s a)
    (f : PthreadMutex → PthreadMutex) : DiskRefines (blockifSetMtx noteClient s f) a where
  queues := h.queues.congr rfl rfl rfl fun _ _ => rfl
  idle := h.idle
  rdonly := h.rdonly
  size := h.size
  tickets := h.tickets.imp fun _ _ ht => ht.congr rfl rfl rfl rfl rfl rfl fun _ _ => rfl
  apart := h.apart
  disk := h.disk
  made := h.made

/-- The state after one turn of the loop of `blockif_thr`, on the element `be` with `q`
behind it. -/
def afterTurn (s : BlockCalls) (be : BlockifElem) (q : List BlockifElem) : BlockCalls where
  blk :=
    { bc := { s.blk.bc with
                bcPendq := q.map (blockifUnblock (blockifTransfer s.blk be).1.reqs be.beBlock)
                bcBusyq := []
                bcFreeq := s.blk.bc.bcFreeq ++ [be.beIdx] }
      reqs := (blockifTransfer s.blk be).1.reqs
      mem := (blockifTransfer s.blk be).1.mem }
  made := s.made ++ [callbackOf s.blk be]

/-- The state in which the callback of `be` leaves the client. -/
def afterProc (s : BlockCalls) (be : BlockifElem) (q : List BlockifElem) : BlockCalls where
  blk :=
    { bc := { s.blk.bc with bcPendq := q, bcBusyq := [{ be with beStatus := .done }] }
      reqs := (blockifTransfer s.blk be).1.reqs
      mem := (blockifTransfer s.blk be).1.mem }
  made := s.made ++ [callbackOf s.blk be]

theorem blockifProc_note (s : BlockCalls) (be : BlockifElem) (q : List BlockifElem) :
    blockifProc noteClient
        { s with blk := { s.blk with
            bc := { s.blk.bc with bcPendq := q, bcBusyq := [{ be with beStatus := .busy }] } } }
        { be with beStatus := .busy } = .ok (afterProc s be q) := by
  have hiov := (blockifTransfer_frame s.blk be).2.2 be.beReq
  simp only [blockifProc, blockifProcBody, noteClient, noteCallback, blockifTransfer_bc,
    blockifSetDone, List.map_cons, List.map_nil, if_true, hiov]
  rfl

theorem blockifFinish_note {s : BlockCalls} {be : BlockifElem} {q : List BlockifElem}
    (hq : QueueOk s.blk.bc s.blk.reqs) (hidle : s.blk.bc.bcBusyq = [])
    (hpend : s.blk.bc.bcPendq = be :: q) :
    blockifFinish noteClient { be with beStatus := .done } (afterProc s be q) = afterTurn s be q ∧
      QueueOk (afterTurn s be q).blk.bc (afterTurn s be q).blk.reqs := by
  have hoff := (blockifTransfer_frame s.blk be).2.1
  have hserving : QueueOk (afterProc s be q).blk.bc (afterProc s be q).blk.reqs :=
    (hq.serving hidle hpend .done (by decide)).congr rfl rfl rfl fun e _ => hoff e.beReq
  obtain ⟨heq, hok⟩ := hserving.finish rfl { be with beStatus := .done } rfl rfl rfl
  have hturn : (afterTurn s be q).blk.bc = blockifComplete (afterProc s be q).blk.bc
      (afterProc s be q).blk.reqs { be with beStatus := .done } := heq.symm
  refine ⟨?_, ?_⟩
  · have hfin : blockifFinish noteClient { be with beStatus := .done } (afterProc s be q) =
        { afterProc s be q with blk := { (afterProc s be q).blk with
            bc := blockifComplete (afterProc s be q).blk.bc (afterProc s be q).blk.reqs
              { be with beStatus := .done } } } := rfl
    rw [hfin, ← hturn]
    rfl
  · rw [hturn]
    exact hok

/-- One turn of the loop. -/
theorem blockifThrLoop_cons {s : BlockCalls} {be : BlockifElem} {q : List BlockifElem}
    (hq : QueueOk s.blk.bc s.blk.reqs) (hidle : s.blk.bc.bcBusyq = [])
    (hpend : s.blk.bc.bcPendq = be :: q) (fuel : Nat) :
    blockifThrLoop noteClient (fuel + 1) s = blockifThrLoop noteClient fuel (afterTurn s be q) := by
  have hdeq : blockifDequeue s.blk.bc = .ok (some { be with beStatus := .busy },
      { s.blk.bc with bcPendq := q, bcBusyq := [{ be with beStatus := .busy }] }) := by
    rw [blockifDequeue_eq hq hidle, hpend]
  rw [← (blockifFinish_note hq hidle hpend).1]
  exact (Except.bind_ok hdeq).trans (Except.bind_ok (blockifProc_note s be q))

theorem forall₂_imp_mem {α β : Type} {R S : α → β → Prop} {l : List α} {u : List β}
    (h : List.Forall₂ R l u) (himp : ∀ a ∈ l, ∀ b, R a b → S a b) : List.Forall₂ S l u := by
  induction h with
  | nil => exact .nil
  | cons hab _ ih =>
    exact .cons (himp _ List.mem_cons_self _ hab)
      (ih fun a ha => himp a (List.mem_cons_of_mem _ ha))

/-- One turn of the loop serves one ticket. -/
theorem DiskRefines.turn {s : BlockCalls} {a : SeqDisk} {be : BlockifElem} {q : List BlockifElem}
    (h : DiskRefines s a) (hpend : s.blk.bc.bcPendq = be :: q) :
    ∃ t ts, a.queue = t :: ts ∧ t.Answers a.disk (callbackOf s.blk be) ∧
      DiskRefines (afterTurn s be q) (a.serveNext t ts (callbackOf s.blk be)) := by
  have htickets := h.tickets
  have happart := h.apart
  rw [hpend] at htickets happart
  obtain ⟨t, ts, ht, hts, hqueue⟩ := List.forall₂_cons_left_iff.1 htickets
  rw [List.pairwise_cons] at happart
  obtain ⟨hanswers, hdisk, hmem⟩ := blockifTransfer_spec ht h.rdonly h.size h.disk
  obtain ⟨hbc, hoff, hiov⟩ := blockifTransfer_frame s.blk be
  have htouched : ∀ (op : Blockop) (n : Nat),
      touched op ((blockifTransfer s.blk be).1.reqs n) = touched op (s.blk.reqs n) := by
    intro op n
    cases op <;> simp only [touched, hiov]
  refine ⟨t, ts, hqueue, hanswers, ?_⟩
  refine ⟨(blockifFinish_note h.queues h.idle hpend).2, rfl, h.rdonly, h.size, ?_, ?_, hdisk, ?_⟩
  · refine List.forall₂_map_left_iff.2 (forall₂_imp_mem hts fun e he t' ht' => ?_)
    refine ht'.congr (blockifUnblock_req _ _ _) (blockifUnblock_op _ _ _) rfl rfl (hoff _) (hiov _) ?_
    intro x hx
    exact hmem x (fun hd => ht'.ok.apart x hd hx) fun hbe => happart.1 e he x hbe hx
  · refine List.pairwise_map.2 (happart.2.imp fun {e e'} hee' => ?_)
    intro x hx hx'
    rw [blockifUnblock_op, blockifUnblock_req] at hx hx'
    exact hee' x (htouched _ _ ▸ hx) (htouched _ _ ▸ hx')
  · simp only [afterTurn, SeqDisk.serveNext, List.map_append, List.map_cons, List.map_nil, h.made]

/-- The loop ends where nothing is pending. -/
theorem blockifThrLoop_nil {s : BlockCalls} (hq : QueueOk s.blk.bc s.blk.reqs)
    (hidle : s.blk.bc.bcBusyq = []) (hpend : s.blk.bc.bcPendq = []) (fuel : Nat) :
    blockifThrLoop noteClient (fuel + 1) s = .ok s := by
  have hdeq : blockifDequeue s.blk.bc = .ok (none, s.blk.bc) := by
    rw [blockifDequeue_eq hq hidle, hpend]
  exact Except.bind_ok hdeq

/-- **The loop of `blockif_thr`** serves every ticket, in order, and ends. -/
theorem blockifThrLoop_drains : ∀ (n : Nat) {s : BlockCalls} {a : SeqDisk},
    DiskRefines s a → s.blk.bc.bcPendq.length = n →
    ∃ t b, SeqDrain a b ∧ DiskRefines t b ∧ t.blk.bc.bcPendq = [] ∧
      (∀ fuel, n < fuel → blockifThrLoop noteClient fuel s = .ok t) ∧
      ∀ fuel u, blockifThrLoop noteClient fuel s = .ok u → u = t := by
  intro n
  induction n with
  | zero =>
    intro s a h hlen
    have hpend := List.length_eq_zero_iff.1 hlen
    have htickets := h.tickets
    rw [hpend] at htickets
    have hloop := blockifThrLoop_nil h.queues h.idle hpend
    refine ⟨s, a, .empty (List.forall₂_nil_left_iff.1 htickets), h, hpend, ?_, ?_⟩
    · intro fuel hfuel
      obtain ⟨m, rfl⟩ := Nat.exists_eq_add_of_lt hfuel
      exact hloop _
    · intro fuel u hu
      cases fuel with
      | zero => cases hu
      | succ fuel =>
        rw [hloop] at hu
        exact (Except.ok.inj hu).symm
  | succ n ih =>
    intro s a h hlen
    obtain ⟨be, q, hpend⟩ := List.exists_cons_of_length_eq_add_one hlen
    obtain ⟨t, ts, hqueue, hanswers, hturn⟩ := h.turn hpend
    have hlen' : (afterTurn s be q).blk.bc.bcPendq.length = n := by
      rw [hpend, List.length_cons] at hlen
      rw [afterTurn, List.length_map]
      omega
    have hloop := blockifThrLoop_cons h.queues h.idle hpend
    obtain ⟨u, b, hdrain, hu, hempty, hok, huniq⟩ := ih hturn hlen'
    refine ⟨u, b, .serve hqueue hanswers hdrain, hu, hempty, ?_, ?_⟩
    · intro fuel hfuel
      cases fuel with
      | zero => omega
      | succ fuel => exact (hloop fuel).trans (hok fuel (by omega))
    · intro fuel v hv
      cases fuel with
      | zero => cases hv
      | succ fuel =>
        rw [hloop] at hv
        exact huniq fuel v hv

/-! ## The other calls -/

/-- `blockif_request` refuses a request when no element is free, and then changes
nothing. -/
theorem blockifRequest_cases (s : BlockState) (hlock : s.bc.bcMtx.lock = 0) (req : Nat)
    (op : Blockop) :
    (s.bc.bcFreeq = [] ∧ blockifRequest s req op = (s, .e2big)) ∨
    ∃ be free, s.bc.bcFreeq = be :: free ∧ blockifRequest s req op =
      ({ s with bc := (blockifEnqueue s.bc.lockMtx s.reqs be req op).unlockMtx }, .zero) := by
  cases hfree : s.bc.bcFreeq with
  | nil =>
    refine .inl ⟨rfl, ?_⟩
    have hmtx := PthreadMutex.unlock_lock hlock
    rw [blockifRequest, hfree]
    simp only [BlockifCtxt.lockMtx, BlockifCtxt.unlockMtx, hmtx]
  | cons be free => exact .inr ⟨be, free, rfl, by rw [blockifRequest, hfree]⟩

/-- The number of tickets is the number of elements in use. -/
theorem DiskRefines.outstanding {s : BlockCalls} {a : SeqDisk} (h : DiskRefines s a) :
    a.queue.length + s.blk.bc.bcFreeq.length = blockifMaxreq := by
  have hlen := h.queues.length
  rw [h.idle, h.tickets.length_eq] at hlen
  rw [List.length_nil] at hlen
  omega

theorem Prepared.reqs_eq {s : BlockState} {op : Blockop} {req : Nat} {r : BlockifReq} {mem : Mem}
    (hp : Prepared s op req r mem) :
    ∀ be ∈ s.bc.bcPendq, (s.prepare req r mem).reqs be.beReq = s.reqs be.beReq := by
  intro be hbe
  simp only [BlockState.prepare, Function.update_apply]
  split
  · next heq => rw [heq, hp.same be hbe heq]
  · rfl

/-- The caller's preparations touch no ticket. -/
theorem DiskRefines.prepare {s : BlockCalls} {a : SeqDisk} {op : Blockop} {req : Nat}
    {r : BlockifReq} {mem : Mem} (h : DiskRefines s a) (hp : Prepared s.blk op req r mem) :
    DiskRefines { s with blk := s.blk.prepare req r mem } a := by
  have hreqs := hp.reqs_eq
  refine ⟨?_, h.idle, h.rdonly, h.size, ?_, ?_, ?_, h.made⟩
  · exact h.queues.congr rfl rfl rfl fun be hbe => congrArg _ (hreqs be hbe)
  · refine forall₂_imp_mem h.tickets fun be hbe t ht => ?_
    refine ht.congr rfl rfl rfl rfl (congrArg _ (hreqs be hbe)) (congrArg _ (hreqs be hbe)) ?_
    exact fun x hx => (hp.apart be hbe x hx).2
  · refine h.apart.imp_of_mem fun {be be'} hbe hbe' hapart => ?_
    intro x hx hx'
    simp only [hreqs be hbe, hreqs be' hbe'] at hx hx'
    exact hapart x hx hx'
  · intro i hi
    rw [← h.disk i hi]
    exact hp.disk _ (List.mem_map.2 ⟨i, List.mem_range.2 hi, rfl⟩)

/-- A request that is accepted appends a ticket. -/
theorem DiskRefines.accept {s : BlockCalls} {a : SeqDisk} {op : Blockop} {req : Nat}
    {r : BlockifReq} {mem : Mem} {be : Nat} {free : List Nat} (h : DiskRefines s a)
    (hp : Prepared s.blk op req r mem) (hfree : s.blk.bc.bcFreeq = be :: free) :
    DiskRefines
      { s with blk := { s.blk.prepare req r mem with
          bc := (blockifEnqueue s.blk.bc.lockMtx (s.blk.prepare req r mem).reqs be req op).unlockMtx } }
      { a with accepted := a.accepted + 1
               queue := a.queue ++ [⟨a.accepted, req, op, r.brOffset.toNat, iovTotal r.brIov,
                 (bufAddrs r.brIov).map mem⟩] } := by
  have h' := h.prepare hp
  have hnew : (s.blk.prepare req r mem).reqs req = r := by simp [BlockState.prepare]
  have hq : QueueOk s.blk.bc.lockMtx (s.blk.prepare req r mem).reqs :=
    h'.queues.congr rfl rfl rfl fun _ _ => rfl
  refine ⟨?_, h.idle, h.rdonly, h.size, ?_, ?_, h'.disk, h.made⟩
  · exact (hq.enqueue hfree req op).congr rfl rfl rfl fun _ _ => rfl
  · refine List.rel_append ?_ ?_
    · exact h'.tickets.imp fun _ _ ht => ht.congr rfl rfl rfl rfl rfl rfl fun _ _ => rfl
    · refine .cons ⟨rfl, rfl, ?_, ?_, fun _ => ?_, ?_⟩ .nil
      · exact congrArg (·.brOffset.toNat) hnew.symm
      · exact congrArg (fun r => iovTotal r.brIov) hnew.symm
      · exact congrArg (fun r => (bufAddrs r.brIov).map mem) hnew.symm
      · show ReqOk _ op ((s.blk.prepare req r mem).reqs req)
        rw [hnew]
        exact ⟨hp.ok.nodup, hp.ok.apart, hp.ok.inside⟩
  · refine List.pairwise_append.2 ⟨h'.apart, List.pairwise_singleton _ _, ?_⟩
    intro e he e' he' x hx hx'
    rw [List.mem_singleton] at he'
    subst he'
    have hx₁ : x ∈ touched e.beOp ((s.blk.prepare req r mem).reqs e.beReq) := hx
    have hx₂ : x ∈ touched op ((s.blk.prepare req r mem).reqs req) := hx'
    rw [hp.reqs_eq e he] at hx₁
    rw [hnew] at hx₂
    exact (hp.apart e he x hx₁).1 hx₂

/-- Where one list splits, a related one does too. -/
theorem forall₂_split {α β : Type} {R : α → β → Prop} {r : List α} {x : α} :
    ∀ {l : List α} {u : List β}, List.Forall₂ R (l ++ x :: r) u →
      ∃ l' y r', u = l' ++ y :: r' ∧ List.Forall₂ R l l' ∧ R x y ∧ List.Forall₂ R r r' := by
  intro l
  induction l with
  | nil =>
    intro u h
    obtain ⟨y, r', hxy, hr, rfl⟩ := List.forall₂_cons_left_iff.1 h
    exact ⟨[], y, r', rfl, .nil, hxy, hr⟩
  | cons z l ih =>
    intro u h
    obtain ⟨w, u', hzw, hu, rfl⟩ := List.forall₂_cons_left_iff.1 h
    obtain ⟨l', y, r', rfl, hl, hxy, hr⟩ := ih hu
    exact ⟨w :: l', y, r', rfl, .cons hzw hl, hxy, hr⟩

theorem forall₂_right_of_left {α β : Type} {R : α → β → Prop} {P : α → Prop} {Q : β → Prop}
    {l : List α} {u : List β} (h : List.Forall₂ R l u) (hl : ∀ a ∈ l, P a)
    (himp : ∀ a b, R a b → P a → Q b) : ∀ b ∈ u, Q b := by
  induction h with
  | nil => exact fun b hb => absurd hb List.not_mem_nil
  | cons hab _ ih =>
    intro b hb
    rcases List.mem_cons.1 hb with rfl | hb
    · exact himp _ _ hab (hl _ List.mem_cons_self)
    · exact ih (fun a ha => hl a (List.mem_cons_of_mem _ ha)) b hb

/-- **Cancelling** takes the first ticket of the request out, if there is one. -/
theorem DiskRefines.cancel {s : BlockCalls} {a : SeqDisk} {req : Nat} {blk : BlockState}
    {err : Errno} (h : DiskRefines s a) (hc : blockifCancel s.blk req = .ok (blk, err)) :
    ∃ b, SeqStep a (.cancel req, err) b ∧ DiskRefines { s with blk := blk } b := by
  cases hfind : s.blk.bc.bcPendq.find? (·.beReq == req) with
  | none =>
    have hnone : s.blk.bc.bcBusyq.find? (·.beReq == req) = none := by rw [h.idle]; rfl
    simp only [blockifCancel, hfind, hnone, Except.ok.injEq, Prod.mk.injEq] at hc
    obtain ⟨rfl, rfl⟩ := hc
    have habsent : ∀ t ∈ a.queue, t.req ≠ req := by
      refine forall₂_right_of_left h.tickets (P := fun be => be.beReq ≠ req) ?_ ?_
      · intro be hbe
        simpa using List.find?_eq_none.1 hfind be hbe
      · intro be t ht hne heq
        exact hne (ht.req.symm.trans heq)
    refine ⟨a, .absent req habsent, ?_⟩
    exact h.setMtx fun m => pthreadMutexUnlock (pthreadMutexLock m)
  | some be =>
    simp only [blockifCancel, hfind, Except.ok.injEq, Prod.mk.injEq] at hc
    obtain ⟨rfl, rfl⟩ := hc
    obtain ⟨hbe, q, r, hpend, hfirst⟩ := List.find?_eq_some_iff_append.1 hfind
    have htickets := h.tickets
    have happart := h.apart
    rw [hpend] at htickets happart
    obtain ⟨q', t, r', hqueue, hq, ht, hr⟩ := forall₂_split htickets
    have hreq : t.req = req := ht.req.trans (beq_iff_eq.1 hbe)
    subst hreq
    have hq' : ∀ x ∈ q', x.req ≠ t.req := by
      refine forall₂_right_of_left hq (P := fun be => be.beReq ≠ t.req) ?_ ?_
      · intro be' hbe'
        simpa using hfirst be' hbe'
      · intro be' x hx hne heq
        exact hne (hx.req.symm.trans heq)
    refine ⟨_, .cancel t hqueue hq', ?_⟩
    have hlocked : QueueOk s.blk.bc.lockMtx s.blk.reqs :=
      h.queues.congr rfl rfl rfl fun _ _ => rfl
    have hpend' : s.blk.bc.lockMtx.bcPendq = q ++ be :: r := hpend
    obtain ⟨heq, hok⟩ := hlocked.cancel hpend'
    have hcongr : ∀ (e : BlockifElem) (x : Ticket), TicketOf s.blk e x →
        TicketOf { s.blk with bc := (blockifComplete s.blk.bc.lockMtx s.blk.reqs be).unlockMtx }
          (blockifUnblock s.blk.reqs be.beBlock e) x := by
      intro e x hx
      rw [heq]
      exact hx.congr (blockifUnblock_req _ _ _) (blockifUnblock_op _ _ _) rfl rfl rfl rfl
        fun _ _ => rfl
    have happart' : (q ++ r).Pairwise (ElemsApart s.blk) :=
      happart.sublist (List.Sublist.append_left (List.sublist_cons_self be r) q)
    refine ⟨(hok h.idle).congr rfl rfl rfl fun _ _ => rfl, ?_, ?_, ?_, ?_, ?_, ?_, h.made⟩
    · rw [heq]
      exact h.idle
    · rw [heq]
      exact h.rdonly
    · rw [heq]
      exact h.size
    · have hboth : List.Forall₂ (TicketOf s.blk) (q ++ r) (q' ++ r') := List.rel_append hq hr
      have hqueue' : (blockifComplete s.blk.bc.lockMtx s.blk.reqs be).unlockMtx.bcPendq =
          (q ++ r).map (blockifUnblock s.blk.reqs be.beBlock) := by rw [heq]; rfl
      simp only [hqueue']
      exact List.forall₂_map_left_iff.2 (hboth.imp hcongr)
    · have hqueue' : (blockifComplete s.blk.bc.lockMtx s.blk.reqs be).unlockMtx.bcPendq =
          (q ++ r).map (blockifUnblock s.blk.reqs be.beBlock) := by rw [heq]; rfl
      simp only [hqueue']
      refine List.pairwise_map.2 (happart'.imp fun {e e'} hee' => ?_)
      intro x hx hx'
      rw [blockifUnblock_op, blockifUnblock_req] at hx hx'
      exact hee' x hx hx'
    · rw [heq]
      exact h.disk

/-! ## Runs -/

theorem blockifCancel_unlocked {s t : BlockState} {req : Nat} {err : Errno}
    (h : blockifCancel s req = .ok (t, err)) : t.bc.bcMtx.lock = 0 := by
  unfold blockifCancel at h
  split at h
  · cases h
    rfl
  · split at h
    · cases h
      rfl
    · split at h
      · cases h
      · cases h
        rfl

/-- What holds between calls. -/
structure BlockInv (s : BlockCalls) (a : SeqDisk) : Prop where
  refines : DiskRefines s a
  unlocked : s.blk.bc.bcMtx.lock = 0

/-- A request is refused with all elements in use, and takes a free one otherwise. -/
theorem BlockInv.request_cases {s : BlockCalls} {a : SeqDisk} (h : BlockInv s a) (op : Blockop)
    (req : Nat) (r : BlockifReq) (mem : Mem) :
    (a.queue.length = blockifMaxreq ∧
      blockifRequest (s.blk.prepare req r mem) req op = (s.blk.prepare req r mem, .e2big)) ∨
    ∃ be free, a.queue.length < blockifMaxreq ∧ s.blk.bc.bcFreeq = be :: free ∧
      blockifRequest (s.blk.prepare req r mem) req op =
        ({ s.blk.prepare req r mem with
          bc := (blockifEnqueue s.blk.bc.lockMtx (s.blk.prepare req r mem).reqs be req
            op).unlockMtx }, .zero) := by
  have hout := h.refines.outstanding
  rcases blockifRequest_cases (s.blk.prepare req r mem) h.unlocked req op with
    ⟨hfree, heq⟩ | ⟨be, free, hfree, heq⟩
  · have hfree' : s.blk.bc.bcFreeq = [] := hfree
    rw [hfree', List.length_nil, Nat.add_zero] at hout
    exact .inl ⟨hout, heq⟩
  · have hfree' : s.blk.bc.bcFreeq = be :: free := hfree
    rw [hfree', List.length_cons] at hout
    exact .inr ⟨be, free, by omega, hfree', heq⟩

/-- `blockif_thr` returns, and serves every ticket. -/
theorem blockifThr_drains {s : BlockCalls} {a : SeqDisk} (h : DiskRefines s a) :
    ∃ t b, SeqDrain a b ∧ BlockInv t b ∧ t.blk.bc.bcPendq = [] ∧
      (∃ fuel, blockifThr noteClient fuel s = .ok t) ∧
      ∀ fuel u, blockifThr noteClient fuel s = .ok u → u = t := by
  obtain ⟨t, b, hdrain, ht, hempty, hok, huniq⟩ :=
    blockifThrLoop_drains _ (h.setMtx pthreadMutexLock) rfl
  refine ⟨blockifSetMtx noteClient t pthreadMutexUnlock, b, hdrain,
    ⟨ht.setMtx pthreadMutexUnlock, rfl⟩, hempty, ?_, ?_⟩
  · exact ⟨_, Except.bind_ok (hok _ (Nat.lt_succ_self _))⟩
  · intro fuel u hu
    obtain ⟨v, hv, hu⟩ := Except.bind_eq_ok.1 hu
    rw [huniq fuel v hv] at hu
    exact (Except.ok.inj hu).symm

/-- Each call is a call of the sequential disk. -/
theorem BlockInv.step {s t : BlockCalls} {a : SeqDisk} {l : BlockCall × Errno}
    (h : BlockInv s a) (hstep : BlockStep s l t) : ∃ b, SeqStep a l b ∧ BlockInv t b := by
  have hr := h.refines
  cases hstep with
  | request op req r mem hp =>
    rcases h.request_cases op req r mem with ⟨hfull, heq⟩ | ⟨be, free, hroom, hfree, heq⟩
    · rw [heq]
      exact ⟨a, .refuse op req _ _ _ hfull, hr.prepare hp, h.unlocked⟩
    · rw [heq]
      exact ⟨_, .accept op req _ _ _ hroom, hr.accept hp hfree, rfl⟩
  | cancel req hc =>
    obtain ⟨b, hb, hr'⟩ := hr.cancel hc
    exact ⟨b, hb, hr', blockifCancel_unlocked hc⟩
  | thr fuel hthr =>
    obtain ⟨u, b, hdrain, hu, -, -, huniq⟩ := blockifThr_drains hr
    rw [huniq fuel t hthr]
    exact ⟨b, .thr hdrain, hu⟩

theorem blockInv_open {s : BlockCalls} {base : U64} (hbc : s.blk.bc = blockifOpen base)
    (hmade : s.made = []) :
    BlockInv s (SeqDisk.start (diskIn s.blk.bc s.blk.mem)) := by
  refine ⟨⟨?_, ?_, ?_, ?_, ?_, ?_, fun _ _ => rfl, hmade⟩, ?_⟩ <;> rw [hbc]
  · exact queueOk_open base _
  · rfl
  · rfl
  · show 0x00d00000 ≤ 2 ^ 64
    decide
  · exact .nil
  · exact .nil
  · rfl

/-- Every run is a run of the sequential disk. -/
theorem blockInv_of_run {s₀ s : BlockCalls} {base : U64} {ls : List (BlockCall × Errno)}
    (hbc : s₀.blk.bc = blockifOpen base) (hmade : s₀.made = []) (h : Run BlockStep s₀ ls s) :
    ∃ a, Run SeqStep (SeqDisk.start (diskIn s₀.blk.bc s₀.blk.mem)) ls a ∧ BlockInv s a := by
  induction h with
  | nil => exact ⟨_, .nil _, blockInv_open hbc hmade⟩
  | snoc _ hstep ih =>
    obtain ⟨a, hrun, ha⟩ := ih
    obtain ⟨b, hb, hinv⟩ := ha.step hstep
    exact ⟨b, .snoc hrun hb, hinv⟩

/-- **The block interface refines a sequential disk.** From `blockif_open` on, every
run of calls is one of the sequential disk, with the same return values and callbacks
and the same contents. A request is refused exactly when `BLOCKIF_MAXREQ` are
outstanding, and that changes nothing. `blockif_thr` returns and leaves the queues
empty. -/
theorem blockif_refines_seqDisk {s₀ s : BlockCalls} {base : U64} {ls : List (BlockCall × Errno)}
    (hbc : s₀.blk.bc = blockifOpen base) (hmade : s₀.made = []) (h : Run BlockStep s₀ ls s) :
    ∃ a, Run SeqStep (SeqDisk.start (diskIn s₀.blk.bc s₀.blk.mem)) ls a ∧
      SeqLaws (diskIn s₀.blk.bc s₀.blk.mem) a ∧ s.made = a.served.map (·.2) ∧
      (∀ i < s.blk.bc.bcSize, diskIn s.blk.bc s.blk.mem i = a.disk i) ∧
      (∀ op req r mem,
        ((blockifRequest (s.blk.prepare req r mem) req op).2 = .e2big ↔
          a.queue.length = blockifMaxreq) ∧
        ((blockifRequest (s.blk.prepare req r mem) req op).2 = .e2big →
          (blockifRequest (s.blk.prepare req r mem) req op).1 = s.blk.prepare req r mem)) ∧
      (∃ fuel t, blockifThr noteClient fuel s = .ok t) ∧
      ∀ fuel t, blockifThr noteClient fuel s = .ok t →
        t.blk.bc.bcPendq = [] ∧ t.blk.bc.bcBusyq = [] := by
  obtain ⟨a, hrun, hinv⟩ := blockInv_of_run hbc hmade h
  have hr := hinv.refines
  obtain ⟨t, b, -, ht, hempty, ⟨fuel, hok⟩, huniq⟩ := blockifThr_drains hr
  refine ⟨a, hrun, seqLaws_of_run hrun, hr.made, hr.disk, ?_, ⟨fuel, t, hok⟩, ?_⟩
  · intro op req r mem
    rcases hinv.request_cases op req r mem with ⟨hfull, heq⟩ | ⟨be, free, hroom, hfree, heq⟩
    · rw [heq]
      exact ⟨⟨fun _ => hfull, fun _ => rfl⟩, fun _ => rfl⟩
    · rw [heq]
      exact ⟨⟨fun he => (nomatch he), fun he => absurd he hroom.ne⟩, fun he => (nomatch he)⟩
  · intro fuel u hu
    rw [huniq fuel u hu]
    exact ⟨hempty, ht.refines.idle⟩

/-- Writes of one byte at 0, 1 and 5, from buffers at `0x80000000` that follow one another. -/
def byteReqs (i : Nat) : BlockifReq :=
  ⟨if i = 2 then 5 else BitVec.ofNat 64 i, 1, [⟨0x80000000#64 + BitVec.ofNat 64 i, 1⟩]⟩

/-- A disk at address 0, and 7 in the buffers. -/
def blockStart : BlockCalls where
  blk := { bc := blockifOpen 0, reqs := byteReqs
           mem := fun x => if 0x80000000 ≤ x ∧ x < 0x80000003 then 7 else 0 }
  made := []

/-- One of them is prepared while others are outstanding. -/
theorem prepared_byte {s : BlockState} {req : Nat} (hdisk : s.bc.bcBase = 0 ∧ s.bc.bcSize = 0x00d00000)
    (hreqs : s.reqs = byteReqs) (hreq : req < 3)
    (hpend : s.bc.bcPendq.all (fun be => be.beReq < req) = true) :
    Prepared s .write req (byteReqs req) s.mem := by
  have hbuf : ∀ i, touched .write (byteReqs i) = [0x80000000#64 + BitVec.ofNat 64 i] := fun _ =>
    congrArg ([·]) (BitVec.add_zero _)
  have hplace : ∀ i < 3, (0x80000000#64 + BitVec.ofNat 64 i).toNat = 0x80000000 + i := by decide
  have hinside : ∀ i < 3, (byteReqs i).brOffset.toNat + iovTotal (byteReqs i).brIov ≤ 0x00d00000 := by
    decide
  have hless : ∀ be ∈ s.bc.bcPendq, be.beReq < req := fun be hbe =>
    of_decide_eq_true (List.all_eq_true.1 hpend be hbe)
  refine ⟨⟨?_, ?_, fun _ => ?_⟩, fun be hbe heq => ?_, fun be hbe x hx => ⟨?_, rfl⟩, fun _ _ => rfl⟩
  · exact List.nodup_singleton _
  · intro x hx hx'
    rw [hbuf, List.mem_singleton] at hx'
    rw [diskAddrs, hdisk.1, hdisk.2] at hx
    obtain ⟨i, hi, rfl⟩ := List.mem_map.1 hx
    rw [List.mem_range] at hi
    have hnat := congrArg BitVec.toNat hx'
    have hzero : (0 : U64) + BitVec.ofNat 64 i = BitVec.ofNat 64 i := BitVec.zero_add _
    rw [hplace req hreq, hzero, BitVec.toNat_ofNat, Nat.mod_eq_of_lt (by omega)] at hnat
    omega
  · rw [hdisk.2]
    exact hinside req hreq
  · exact absurd heq (hless be hbe).ne
  · intro hx'
    have hlt := hless be hbe
    have hop : x ∈ touched .write (byteReqs be.beReq) := by
      rw [hreqs] at hx
      cases hbop : be.beOp with
      | read | write =>
        rw [hbop] at hx
        exact hx
      | flush | delete =>
        rw [hbop] at hx
        cases hx
    rw [hbuf, List.mem_singleton] at hx' hop
    have hnat := congrArg BitVec.toNat (hop.symm.trans hx')
    rw [hplace _ (by omega), hplace _ hreq] at hnat
    omega

/-- `blockif_write` of one of them. -/
def writeByte (s : BlockCalls) (req : Nat) : BlockCalls :=
  { s with blk := (blockifRequest s.blk req .write).1 }

theorem writeByte_step {s : BlockCalls} {req : Nat}
    (hdisk : s.blk.bc.bcBase = 0 ∧ s.blk.bc.bcSize = 0x00d00000) (hreqs : s.blk.reqs = byteReqs)
    (hreq : req < 3) (hpend : s.blk.bc.bcPendq.all (fun be => be.beReq < req) = true) :
    BlockStep s (.request .write req (byteReqs req).brOffset.toNat (iovTotal (byteReqs req).brIov)
      ((bufAddrs (byteReqs req).brIov).map s.blk.mem), (blockifRequest s.blk req .write).2)
      (writeByte s req) := by
  have hsame : s.blk.prepare req (byteReqs req) s.blk.mem = s.blk := by
    rw [BlockState.prepare, ← hreqs, Function.update_eq_self]
  have hstep := BlockStep.request .write req _ _ (prepared_byte hdisk hreqs hreq hpend)
  rw [hsame] at hstep
  exact hstep

/-- The write at 1 has to wait for the one at 0, and the one at 5 is cancelled. -/
theorem blockif_refines_seqDisk_writes :
    (writeByte (writeByte blockStart 0) 1).blk.bc.bcPendq.map (·.beStatus) = [.pend, .block] ∧
    ∃ (s : BlockCalls) (a : SeqDisk),
      Run SeqStep (SeqDisk.start (diskIn blockStart.blk.bc blockStart.blk.mem))
        [(.request .write 0 0 1 [7], .zero), (.request .write 1 1 1 [7], .zero),
          (.request .write 2 5 1 [7], .zero), (.cancel 2, .zero), (.thr, .zero)] a ∧
      SeqLaws (diskIn blockStart.blk.bc blockStart.blk.mem) a ∧ s.made = a.served.map (·.2) ∧
      s.made.map (·.req) = [0, 1] := by
  have h₁ : BlockStep blockStart (.request .write 0 0 1 [7], .zero) (writeByte blockStart 0) :=
    writeByte_step ⟨rfl, rfl⟩ rfl (by decide) (by decide +kernel)
  have h₂ : BlockStep (writeByte blockStart 0) (.request .write 1 1 1 [7], .zero)
      (writeByte (writeByte blockStart 0) 1) :=
    writeByte_step ⟨rfl, rfl⟩ rfl (by decide) (by decide +kernel)
  have h₃ : BlockStep (writeByte (writeByte blockStart 0) 1) (.request .write 2 5 1 [7], .zero)
      (writeByte (writeByte (writeByte blockStart 0) 1) 2) :=
    writeByte_step ⟨rfl, rfl⟩ rfl (by decide) (by decide +kernel)
  have h₄ := BlockStep.cancel (s := writeByte (writeByte (writeByte blockStart 0) 1) 2) 2 rfl
  have hrun := (((Run.single h₁).snoc h₂).snoc h₃).snoc h₄
  have hthr := hrun.snoc (BlockStep.thr 3 (@eq_ok_outcome _ _ blockStart (by decide +kernel)))
  obtain ⟨a, ha, hlaws, hmade, -⟩ := blockif_refines_seqDisk rfl rfl hthr
  exact ⟨by decide +kernel, _, a, ha, hlaws, hmade, by decide +kernel⟩

end DeviceModel

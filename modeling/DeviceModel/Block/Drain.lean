import DeviceModel.Block.Queue

/-!
# One call of `blockif_thr` drains its queue

The callbacks belong to a `BlockUser`. A callback may change the user's own state and
memory, and it may submit further requests to the context that it was called from, as
long as there is an end to them.
-/

namespace DeviceModel

/-! ## Users of a block context -/

/-- A request as its caller submits it: the structure, what the caller writes there,
and the operation. -/
structure BlockRequest where
  req : Nat
  fill : BlockifReq
  op : Blockop
  deriving DecidableEq

/-- Fill in a request structure and call `blockif_read` or one of its siblings. A
structure that is outstanding is not filled in again. -/
def BlockState.submit (s : BlockState) (x : BlockRequest) : BlockState :=
  if s.bc.bcPendq.any (·.beReq == x.req) then s
  else (blockifRequest { s with reqs := Function.update s.reqs x.req x.fill } x.req x.op).1

/-- A device model with the callback of its requests. -/
structure BlockUser (δ : Type) where
  /-- the state and the memory that a callback leaves, and what it submits -/
  callback : Nat → Errno → δ → Mem → δ × Mem × List BlockRequest
  /-- how many requests the callbacks can still submit -/
  budget : δ → Nat
  budget_callback : ∀ req err d m,
    (callback req err d m).2.2.length + budget (callback req err d m).1 ≤ budget d

/-- A user and the block interface below it. -/
structure UserState (δ : Type) where
  dev : δ
  blk : BlockState

variable {δ : Type} (u : BlockUser δ)

/-- The callback on the whole state. -/
def BlockUser.call (req : Nat) (err : Errno) (s : UserState δ) : UserState δ :=
  let next := u.callback req err s.dev s.blk.mem
  ⟨next.1, next.2.2.foldl BlockState.submit { s.blk with mem := next.2.1 }⟩

def BlockUser.client : BlockifClient (UserState δ) where
  blk := fun s => s.blk
  setBlk := fun s blk => { s with blk := blk }
  callback := fun req err s => .ok (u.call req err s)

/-! ## Submitting -/

/-- A submission keeps the queues in order and adds at most one element. -/
theorem BlockState.submit_spec {s : BlockState} (x : BlockRequest) (hq : QueueOk s.bc s.reqs) :
    QueueOk (s.submit x).bc (s.submit x).reqs ∧ (s.submit x).bc.bcBusyq = s.bc.bcBusyq ∧
      (s.submit x).bc.bcPendq.length ≤ s.bc.bcPendq.length + 1 := by
  rw [submit]
  split
  · exact ⟨hq, rfl, Nat.le_succ _⟩
  · next hfree =>
    -- no pending element uses the structure that is filled in
    have hfill : QueueOk s.bc (Function.update s.reqs x.req x.fill) := by
      refine hq.congr rfl rfl rfl fun be hbe => ?_
      rw [Function.update_of_ne]
      intro heq
      exact hfree (List.any_eq_true.2 ⟨be, hbe, beq_iff_eq.2 heq⟩)
    cases hlist : s.bc.bcFreeq with
    | nil =>
      simp only [blockifRequest, hlist]
      exact ⟨hfill.congr rfl rfl rfl fun _ _ => rfl, rfl, Nat.le_succ _⟩
    | cons be free =>
      have hlock : QueueOk s.bc.lockMtx (Function.update s.reqs x.req x.fill) :=
        hfill.congr rfl rfl rfl fun _ _ => rfl
      simp only [blockifRequest, hlist]
      refine ⟨(hlock.enqueue hlist x.req x.op).congr rfl rfl rfl fun _ _ => rfl, rfl, ?_⟩
      exact Nat.le_of_eq List.length_append

theorem BlockState.submitAll_spec (xs : List BlockRequest) : ∀ {s : BlockState},
    QueueOk s.bc s.reqs →
    QueueOk (xs.foldl submit s).bc (xs.foldl submit s).reqs ∧
      (xs.foldl submit s).bc.bcBusyq = s.bc.bcBusyq ∧
      (xs.foldl submit s).bc.bcPendq.length ≤ s.bc.bcPendq.length + xs.length := by
  induction xs with
  | nil => intro s hq; exact ⟨hq, rfl, Nat.le_refl _⟩
  | cons x xs ih =>
    intro s hq
    obtain ⟨hx, hbusy, hlen⟩ := submit_spec x hq
    obtain ⟨hxs, hbusy', hlen'⟩ := ih hx
    rw [List.foldl_cons, List.length_cons]
    exact ⟨hxs, hbusy'.trans hbusy, by omega⟩

/-! ## Serving -/

/-- The queues between two turns of the loop. -/
structure UserState.Ready (s : UserState δ) : Prop where
  queue : QueueOk s.blk.bc s.blk.reqs
  idle : s.blk.bc.bcBusyq = []

/-- What is left to do: the requests that are pending and those that can still come. -/
def UserState.work (s : UserState δ) : Nat := s.blk.bc.bcPendq.length + u.budget s.dev

/-- The state in which the callback of `be` is called, with `q` pending behind it. -/
def UserState.called (s : UserState δ) (be : BlockifElem) (q : List BlockifElem) : UserState δ where
  dev := s.dev
  blk :=
    { bc := { s.blk.bc with bcPendq := q, bcBusyq := [{ be with beStatus := .done }] }
      reqs := (blockifTransfer s.blk be).1.reqs
      mem := (blockifTransfer s.blk be).1.mem }

theorem blockifProc_user (s : UserState δ) (be : BlockifElem) (q : List BlockifElem) :
    blockifProc u.client
        { s with blk := { s.blk with
            bc := { s.blk.bc with bcPendq := q, bcBusyq := [{ be with beStatus := .busy }] } } }
        { be with beStatus := .busy } =
      .ok (u.call be.beReq (blockifTransfer s.blk be).2 (s.called be q)) := by
  simp only [blockifProc, blockifProcBody, BlockUser.client, blockifTransfer_bc, blockifSetDone,
    List.map_cons, List.map_nil, if_true]
  rfl

/-- The queues after the callback: the element that is served is still the only busy
one, and what the callback has submitted is paid for. -/
theorem UserState.Ready.call {s : UserState δ} (h : s.Ready) {be : BlockifElem}
    {q : List BlockifElem} (hpend : s.blk.bc.bcPendq = be :: q) (err : Errno) :
    QueueOk (u.call be.beReq err (s.called be q)).blk.bc
        (u.call be.beReq err (s.called be q)).blk.reqs ∧
      (u.call be.beReq err (s.called be q)).blk.bc.bcBusyq = [{ be with beStatus := .done }] ∧
      (u.call be.beReq err (s.called be q)).work u ≤ q.length + u.budget s.dev := by
  have hoff := (blockifTransfer_frame s.blk be).2.1
  have hserving : QueueOk (s.called be q).blk.bc (s.called be q).blk.reqs :=
    (h.queue.serving h.idle hpend .done (by decide)).congr rfl rfl rfl fun e _ => hoff e.beReq
  obtain ⟨hqueue, hbusy, hlen⟩ :=
    @BlockState.submitAll_spec (u.callback be.beReq err s.dev (s.called be q).blk.mem).2.2
      { (s.called be q).blk with
        mem := (u.callback be.beReq err s.dev (s.called be q).blk.mem).2.1 } hserving
  have hbudget := u.budget_callback be.beReq err s.dev (s.called be q).blk.mem
  refine ⟨hqueue, hbusy, Nat.le_trans (Nat.add_le_add_right hlen _) ?_⟩
  rw [Nat.add_assoc]
  exact Nat.add_le_add_left hbudget q.length

/-- One turn of the loop leaves less to do. -/
theorem UserState.Ready.turn {s : UserState δ} (h : s.Ready) {be : BlockifElem}
    {q : List BlockifElem} (hpend : s.blk.bc.bcPendq = be :: q) :
    ∃ t : UserState δ, t.Ready ∧ t.work u < s.work u ∧
      ∀ fuel, blockifThrLoop u.client (fuel + 1) s = blockifThrLoop u.client fuel t := by
  obtain ⟨hqueue, hbusy, hwork⟩ := h.call u hpend (blockifTransfer s.blk be).2
  obtain ⟨heq, hok⟩ := hqueue.finish hbusy { be with beStatus := .done } rfl rfl rfl
  have hdeq : blockifDequeue s.blk.bc = .ok (some { be with beStatus := .busy },
      { s.blk.bc with bcPendq := q, bcBusyq := [{ be with beStatus := .busy }] }) := by
    rw [blockifDequeue_eq h.queue h.idle, hpend]
  refine ⟨blockifFinish u.client { be with beStatus := .done }
    (u.call be.beReq (blockifTransfer s.blk be).2 (s.called be q)), ⟨hok, ?_⟩, ?_, ?_⟩
  · exact congrArg (·.bcBusyq) heq
  · have hlen := congrArg (fun bc => bc.bcPendq.length) heq
    simp only [List.length_map] at hlen
    have hstep : (blockifFinish u.client { be with beStatus := .done }
        (u.call be.beReq (blockifTransfer s.blk be).2 (s.called be q))).work u =
        (u.call be.beReq (blockifTransfer s.blk be).2 (s.called be q)).work u :=
      congrArg (· + u.budget _) hlen
    have hwas : s.work u = q.length + 1 + u.budget s.dev :=
      congrArg (fun l => List.length l + u.budget s.dev) hpend
    rw [hstep, hwas]
    omega
  · intro fuel
    exact (Except.bind_ok hdeq).trans (Except.bind_ok (blockifProc_user u s be q))

/-- The loop ends where nothing is pending. -/
theorem blockifThrLoop_user_nil {s : UserState δ} (h : s.Ready) (hpend : s.blk.bc.bcPendq = [])
    {n fuel : Nat} (hfuel : n < fuel) : blockifThrLoop u.client fuel s = .ok s := by
  have hdeq : blockifDequeue s.blk.bc = .ok (none, s.blk.bc) := by
    rw [blockifDequeue_eq h.queue h.idle, hpend]
  cases fuel with
  | zero => omega
  | succ fuel => exact Except.bind_ok hdeq

/-- The loop ends, with nothing pending. -/
theorem blockifThrLoop_user : ∀ (n : Nat) {s : UserState δ}, s.Ready → s.work u ≤ n →
    ∃ t : UserState δ, t.Ready ∧ t.blk.bc.bcPendq = [] ∧
      ∀ fuel, n < fuel → blockifThrLoop u.client fuel s = .ok t := by
  intro n
  induction n with
  | zero =>
    intro s h hwork
    have hlen : s.blk.bc.bcPendq.length + u.budget s.dev ≤ 0 := hwork
    have hpend : s.blk.bc.bcPendq = [] := List.length_eq_zero_iff.1 (by omega)
    exact ⟨s, h, hpend, fun _ hfuel => blockifThrLoop_user_nil u h hpend hfuel⟩
  | succ n ih =>
    intro s h hwork
    cases hpend : s.blk.bc.bcPendq with
    | nil => exact ⟨s, h, hpend, fun _ hfuel => blockifThrLoop_user_nil u h hpend hfuel⟩
    | cons be q =>
      obtain ⟨s', h', hless, hloop⟩ := h.turn u hpend
      obtain ⟨t, ht, hempty, hrun⟩ := ih h' (by omega)
      refine ⟨t, ht, hempty, fun fuel hfuel => ?_⟩
      cases fuel with
      | zero => omega
      | succ fuel => exact (hloop fuel).trans (hrun fuel (by omega))

/-- **`blockif_thr` drains the queue of its context.** -/
theorem blockifThr_user {s : UserState δ} (h : s.Ready) : ∃ t : UserState δ,
    t.blk.bc.bcPendq = [] ∧ ∀ fuel, s.work u < fuel → blockifThr u.client fuel s = .ok t := by
  have hlock : (blockifSetMtx u.client s pthreadMutexLock).Ready :=
    ⟨h.queue.congr rfl rfl rfl fun _ _ => rfl, h.idle⟩
  obtain ⟨t, -, hempty, hrun⟩ := blockifThrLoop_user u (s.work u) hlock (Nat.le_refl _)
  exact ⟨blockifSetMtx u.client t pthreadMutexUnlock, hempty,
    fun fuel hfuel => Except.bind_ok (hrun fuel hfuel)⟩

end DeviceModel

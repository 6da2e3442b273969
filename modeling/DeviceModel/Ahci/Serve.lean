import DeviceModel.Block.Queue
import DeviceModel.Ahci.System

/-!
# Serving a request of the port

One iteration of the loop of `blockif_thr` takes the first element of the pending queue,
moves its bytes, and calls the port back.
-/

namespace DeviceModel

/-- The state in which the callback for `be` starts, with `q` behind it in the queue. -/
def serveEntry (c : PortCtx) (be : BlockifElem) (q : List BlockifElem) : PortCtx :=
  { c with blk := { (blockifTransfer c.blk be).1 with
      bc := { c.blk.bc with bcPendq := q, bcBusyq := [{ be with beStatus := .done }] } } }

/-- The error that the callback for `be` is given. -/
def serveErr (c : PortCtx) (be : BlockifElem) : Errno := (blockifTransfer c.blk be).2

/-- A TRIM request is never served: it is given an error. -/
theorem serveErr_delete {c : PortCtx} {be : BlockifElem} (h : be.beOp = .delete) :
    serveErr c be = .eopnotsupp := by
  rw [serveErr, blockifTransfer, h]

section

variable {c : PortCtx} {fuel : Nat} {M : Nat → Mem}

theorem blockifServe_nil (hq : QueueOk c.blk.bc c.blk.reqs) (hidle : c.blk.bc.bcBusyq = [])
    (hpend : c.blk.bc.bcPendq = []) : blockifServe (ahciClient fuel M) c = .ok none := by
  have hdeq : blockifDequeue c.blk.bc = .ok (none, c.blk.bc) := by
    rw [blockifDequeue_eq hq hidle, hpend]
  exact Except.bind_ok hdeq

theorem blockifProc_port (be : BlockifElem) (q : List BlockifElem) :
    blockifProc (ahciClient fuel M)
        { c with blk := { c.blk with
            bc := { c.blk.bc with bcPendq := q, bcBusyq := [{ be with beStatus := .busy }] } } }
        { be with beStatus := .busy } =
      ahciIoreqCb fuel M be.beReq (serveErr c be) (serveEntry c be q) := by
  simp only [blockifProc, blockifProcBody, ahciClient, blockifTransfer_bc, blockifSetDone,
    List.map_cons, List.map_nil, if_true]
  rfl

/-- **Serving** the first element. -/
theorem blockifServe_cons (hq : QueueOk c.blk.bc c.blk.reqs) (hidle : c.blk.bc.bcBusyq = [])
    {be : BlockifElem} {q : List BlockifElem} (hpend : c.blk.bc.bcPendq = be :: q) :
    blockifServe (ahciClient fuel M) c =
      (ahciIoreqCb fuel M be.beReq (serveErr c be) (serveEntry c be q) >>= fun t =>
        .ok (some (blockifFinish (ahciClient fuel M) { be with beStatus := .done } t))) := by
  have hdeq : blockifDequeue c.blk.bc = .ok (some { be with beStatus := .busy },
      { c.blk.bc with bcPendq := q, bcBusyq := [{ be with beStatus := .busy }] }) := by
    rw [blockifDequeue_eq hq hidle, hpend]
  rw [← blockifProc_port]
  exact Except.bind_ok hdeq

/-- The queue during the callback. -/
theorem serveEntry_queue (hq : QueueOk c.blk.bc c.blk.reqs) (hidle : c.blk.bc.bcBusyq = [])
    {be : BlockifElem} {q : List BlockifElem} (hpend : c.blk.bc.bcPendq = be :: q) :
    QueueOk (serveEntry c be q).blk.bc (serveEntry c be q).blk.reqs :=
  (hq.serving hidle hpend .done (by decide)).congr rfl rfl rfl fun e _ =>
    (blockifTransfer_frame c.blk be).2.1 e.beReq

/-- The state after the callback has returned in `c`, and its element `x` is free again. -/
def serveExit (c : PortCtx) (x : BlockifElem) : PortCtx :=
  { c with blk := { c.blk with
      bc := { c.blk.bc with
        bcBusyq := []
        bcPendq := c.blk.bc.bcPendq.map (blockifUnblock c.blk.reqs x.beBlock)
        bcFreeq := c.blk.bc.bcFreeq ++ [x.beIdx] } } }

theorem blockifFinish_port {x : BlockifElem} (hq : QueueOk c.blk.bc c.blk.reqs)
    (hbusy : c.blk.bc.bcBusyq = [x]) (hdone : x.beStatus = .done) :
    blockifFinish (ahciClient fuel M) x c = serveExit c x ∧
      QueueOk (serveExit c x).blk.bc (serveExit c x).blk.reqs := by
  obtain ⟨heq, hok⟩ := hq.finish hbusy x rfl rfl hdone
  rw [heq] at hok
  refine ⟨?_, hok⟩
  rw [serveExit, ← heq]
  rfl

end

end DeviceModel

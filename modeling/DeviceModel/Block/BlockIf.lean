import DeviceModel.Library.Outcome
import DeviceModel.Machine
import DeviceModel.Pthread

/-!
# The block interface

`bhyve/block_if.c` keeps requests in queues and serves them when `dm_loop` calls
`blockif_thr`. The disk is a part of memory, so a transfer is a `memcpy`.

A request structure belongs to the caller and is named by its number, in place of its
address. An element of `bc_reqs` is named by its place there. A free element holds
nothing: `bc_freeq` is a list of places, so `be_status` is `BST_FREE` on it by
construction, and only there.

`blockif_thr` calls back into the device model whose request it has served, so the
functions that lead there work on the state of a `BlockifClient`.
-/

namespace DeviceModel

/-! ## Data -/

/-- `BLOCKIF_MAXREQ`. -/
def blockifMaxreq : Nat := 64 + 8

/-- The error numbers of `block_if.c`, and 0. -/
inductive Errno : Type where
  | zero
  | e2big
  | einval
  | ebusy
  | erofs
  | eopnotsupp
  deriving DecidableEq, Repr

/-- `struct iovec`. -/
structure Iovec where
  iovBase : U64
  iovLen : Nat
  deriving DecidableEq, Repr

/-- `struct blockif_req`, with `br_iovcnt` entries in `brIov`. The callback is the
client's, and `br_param` is the number of the request. -/
structure BlockifReq where
  brOffset : U64
  brResid : Nat
  brIov : List Iovec
  deriving DecidableEq, Repr

/-- `enum blockop`. -/
inductive Blockop : Type where
  | read
  | write
  | flush
  | delete
  deriving DecidableEq, Repr

/-- `enum blockstat`, without `BST_FREE`. -/
inductive Blockstat : Type where
  | block
  | pend
  | busy
  | done
  deriving DecidableEq, Repr

/-- `struct blockif_elem` on the pending or the busy queue. -/
structure BlockifElem where
  /-- its place in `bc_reqs` -/
  beIdx : Nat
  beReq : Nat
  beOp : Blockop
  beStatus : Blockstat
  beBlock : U64
  deriving DecidableEq, Repr

/-- `struct blockif_ctxt`. -/
structure BlockifCtxt where
  bcCandelete : Bool
  bcRdonly : Bool
  bcBase : U64
  bcSize : Nat
  bcSectsz : Nat
  bcPsectsz : Nat
  bcPsectoff : Nat
  bcMtx : PthreadMutex
  bcFreeq : List Nat
  bcPendq : List BlockifElem
  bcBusyq : List BlockifElem

/-- What the block interface works on: its context, the request structures that its
callers have, and memory. -/
structure BlockState where
  bc : BlockifCtxt
  reqs : Nat → BlockifReq
  mem : Mem

/-- `blockif_open`. -/
def blockifOpen (base : U64) : BlockifCtxt where
  bcCandelete := false
  bcRdonly := false
  bcBase := base
  bcSize := 0x00d00000
  bcSectsz := 512
  bcPsectsz := 512
  bcPsectoff := 0
  bcMtx := pthreadMutexInit
  bcFreeq := (List.range blockifMaxreq).reverse
  bcPendq := []
  bcBusyq := []

/-- `blockif_queuesz`. -/
def blockifQueuesz : Nat := blockifMaxreq - 1

/-- The sectors per track and the heads that `blockif_chs` chooses. `heads` is a byte. -/
def blockifSecptHeads (sectors : Nat) : Nat × Nat :=
  if 65536 * 16 * 63 ≤ sectors then (255, 16)
  else
    let heads := (sectors / 17 + 1023) / 1024 % 256
    let heads := if heads < 4 then 4 else heads
    if sectors / 17 < heads * 1024 ∧ heads ≤ 16 then (17, heads)
    else if sectors / 31 < 16 * 1024 then (31, 16)
    else (63, 16)

/-- `blockif_chs`: cylinders, heads and sectors per track. -/
def blockifChs (bc : BlockifCtxt) : Nat × Nat × Nat :=
  let sectors := min (bc.bcSize / bc.bcSectsz) (65535 * 16 * 255)
  let (secpt, heads) := blockifSecptHeads sectors
  (sectors / secpt / heads, heads, secpt)

/-! ## The queues -/

/-- `OFF_MAX`. -/
def offMax : U64 := 0x7fffffffffffffff#64

/-- The block after the last one of a request. -/
def blockifEnd (r : BlockifReq) : Blockop → U64
  | .read | .write | .delete => r.brOffset + BitVec.ofNat 64 (r.brIov.map (·.iovLen)).sum
  | .flush => offMax

/-- `blockif_enqueue`, on the free element `be`. -/
def blockifEnqueue (bc : BlockifCtxt) (reqs : Nat → BlockifReq) (be breq : Nat) (op : Blockop) :
    BlockifCtxt :=
  let off := (reqs breq).brOffset
  let waits := bc.bcPendq.any (·.beBlock == off) || bc.bcBusyq.any (·.beBlock == off)
  { bc with
    bcFreeq := bc.bcFreeq.tail
    bcPendq := bc.bcPendq ++
      [{ beIdx := be, beReq := breq, beOp := op
         beStatus := if waits then .block else .pend, beBlock := blockifEnd (reqs breq) op }] }

/-- The search of `blockif_dequeue`: the first element that is `BST_PEND`. -/
def blockifFirstPend : List BlockifElem → Except Stop (Option BlockifElem)
  | [] => .ok none
  | be :: q =>
    if be.beStatus = .pend then .ok (some be)
    else do
      assert "be->be_status == BST_BLOCK" (be.beStatus == .block)
      blockifFirstPend q

/-- `TAILQ_REMOVE`. -/
def blockifRemove (be : BlockifElem) (q : List BlockifElem) : List BlockifElem :=
  q.filter (·.beIdx != be.beIdx)

/-- Move an element to the busy queue. -/
def blockifTake (bc : BlockifCtxt) (be : BlockifElem) : BlockifCtxt :=
  { bc with
    bcPendq := blockifRemove be bc.bcPendq
    bcBusyq := bc.bcBusyq ++ [{ be with beStatus := .busy }] }

/-- `blockif_dequeue`. -/
def blockifDequeue (bc : BlockifCtxt) : Except Stop (Option BlockifElem × BlockifCtxt) := do
  match ← blockifFirstPend bc.bcPendq with
  | none => .ok (none, bc)
  | some be => .ok (some { be with beStatus := .busy }, blockifTake bc be)

/-- Release an element that waits for the block `off`. -/
def blockifUnblock (reqs : Nat → BlockifReq) (off : U64) (tbe : BlockifElem) : BlockifElem :=
  if (reqs tbe.beReq).brOffset = off then { tbe with beStatus := .pend } else tbe

/-- `blockif_complete`. -/
def blockifComplete (bc : BlockifCtxt) (reqs : Nat → BlockifReq) (be : BlockifElem) :
    BlockifCtxt :=
  let bc :=
    if be.beStatus = .done ∨ be.beStatus = .busy then
      { bc with bcBusyq := blockifRemove be bc.bcBusyq }
    else { bc with bcPendq := blockifRemove be bc.bcPendq }
  { bc with
    bcPendq := bc.bcPendq.map (blockifUnblock reqs be.beBlock)
    bcFreeq := bc.bcFreeq ++ [be.beIdx] }

/-! ## Transfers -/

/-- The loop of `BOP_READ`: from the disk at `addr` to the buffers. -/
def blockifCopyIn : List Iovec → U64 → Mem → Mem
  | [], _, m => m
  | v :: vs, addr, m =>
    blockifCopyIn vs (addr + BitVec.ofNat 64 v.iovLen) (m.copy v.iovBase addr v.iovLen)

/-- The loop of `BOP_WRITE`: from the buffers to the disk at `addr`. -/
def blockifCopyOut : List Iovec → U64 → Mem → Mem
  | [], _, m => m
  | v :: vs, addr, m =>
    blockifCopyOut vs (addr + BitVec.ofNat 64 v.iovLen) (m.copy addr v.iovBase v.iovLen)

/-- `br->br_resid = 0`. -/
def blockifNoResid (reqs : Nat → BlockifReq) (breq : Nat) : Nat → BlockifReq :=
  Function.update reqs breq { reqs breq with brResid := 0 }

/-- The `switch` of `blockif_proc`, with the error it ends with. -/
def blockifTransfer (s : BlockState) (be : BlockifElem) : BlockState × Errno :=
  let br := s.reqs be.beReq
  match be.beOp with
  | .read =>
    ({ s with mem := blockifCopyIn br.brIov (s.bc.bcBase + br.brOffset) s.mem
              reqs := blockifNoResid s.reqs be.beReq }, .zero)
  | .write =>
    if s.bc.bcRdonly then (s, .erofs)
    else
      ({ s with mem := blockifCopyOut br.brIov (s.bc.bcBase + br.brOffset) s.mem
                reqs := blockifNoResid s.reqs be.beReq }, .zero)
  | .flush => (s, .zero)
  | .delete => (s, .eopnotsupp)

/-- `be->be_status = BST_DONE`. -/
def blockifSetDone (bc : BlockifCtxt) (be : BlockifElem) : BlockifCtxt :=
  { bc with bcBusyq := bc.bcBusyq.map fun tbe =>
      if tbe.beIdx = be.beIdx then { tbe with beStatus := .done } else tbe }

/-! ## Serving the queue -/

/-- A device model that uses the block interface. -/
structure BlockifClient (σ : Type) where
  /-- the block interface in the client's state -/
  blk : σ → BlockState
  setBlk : σ → BlockState → σ
  /-- `br_callback` of a request, with the error it is given -/
  callback : Nat → Errno → σ → Except Stop σ

section

variable {σ : Type} (cl : BlockifClient σ)

/-- `blockif_proc` up to the callback, with the error for it. -/
def blockifProcBody (s : σ) (be : BlockifElem) : σ × Errno :=
  let next := blockifTransfer (cl.blk s) be
  (cl.setBlk s { next.1 with bc := blockifSetDone next.1.bc be }, next.2)

/-- `blockif_proc`. -/
def blockifProc (s : σ) (be : BlockifElem) : Except Stop σ :=
  cl.callback be.beReq (blockifProcBody cl s be).2 (blockifProcBody cl s be).1

/-- `blockif_complete` on the client's state. -/
def blockifFinish (be : BlockifElem) (s : σ) : σ :=
  cl.setBlk s { cl.blk s with bc := blockifComplete (cl.blk s).bc (cl.blk s).reqs be }

/-- Set `bc_mtx`. -/
def blockifSetMtx (s : σ) (f : PthreadMutex → PthreadMutex) : σ :=
  cl.setBlk s { cl.blk s with bc := { (cl.blk s).bc with bcMtx := f (cl.blk s).bc.bcMtx } }

/-- The loop of `blockif_thr`. -/
def blockifThrLoop : Nat → σ → Except Stop σ
  | 0, _ => .error .outOfFuel
  | fuel + 1, s => do
    match ← blockifDequeue (cl.blk s).bc with
    | (none, _) => .ok s
    | (some be, bc) =>
      let t ← blockifProc cl (cl.setBlk s { cl.blk s with bc := bc }) be
      blockifThrLoop fuel (blockifFinish cl { be with beStatus := .done } t)

/-- One iteration of that loop; none if the queue is empty. -/
def blockifServe (s : σ) : Except Stop (Option σ) := do
  match ← blockifDequeue (cl.blk s).bc with
  | (none, _) => .ok none
  | (some be, bc) =>
    let t ← blockifProc cl (cl.setBlk s { cl.blk s with bc := bc }) be
    .ok (some (blockifFinish cl { be with beStatus := .done } t))

/-- `blockif_thr`. -/
def blockifThr (fuel : Nat) (s : σ) : Except Stop σ := do
  let t ← blockifThrLoop cl fuel (blockifSetMtx cl s pthreadMutexLock)
  .ok (blockifSetMtx cl t pthreadMutexUnlock)

end

/-! ## Requests -/

namespace BlockifCtxt

/-- `pthread_mutex_lock(&bc->bc_mtx)`. -/
def lockMtx (bc : BlockifCtxt) : BlockifCtxt := { bc with bcMtx := pthreadMutexLock bc.bcMtx }

/-- `pthread_mutex_unlock(&bc->bc_mtx)`. -/
def unlockMtx (bc : BlockifCtxt) : BlockifCtxt := { bc with bcMtx := pthreadMutexUnlock bc.bcMtx }

end BlockifCtxt

/-- `blockif_request`, which `blockif_read`, `blockif_write`, `blockif_flush` and
`blockif_delete` call with their operation. The element is there when it calls
`blockif_enqueue`, so the two assertions on it hold. -/
def blockifRequest (s : BlockState) (breq : Nat) (op : Blockop) : BlockState × Errno :=
  match s.bc.bcFreeq with
  | be :: _ =>
    ({ s with bc := (blockifEnqueue s.bc.lockMtx s.reqs be breq op).unlockMtx }, .zero)
  | [] => ({ s with bc := s.bc.lockMtx.unlockMtx }, .e2big)

/-- `blockif_cancel`. The wait for an element that is being processed never ends:
`pthread_cond_wait` returns at once and changes nothing. -/
def blockifCancel (s : BlockState) (breq : Nat) : Except Stop (BlockState × Errno) :=
  match s.bc.bcPendq.find? (·.beReq == breq) with
  | some be => .ok ({ s with bc := (blockifComplete s.bc.lockMtx s.reqs be).unlockMtx }, .zero)
  | none =>
    match s.bc.bcBusyq.find? (·.beReq == breq) with
    | none => .ok ({ s with bc := s.bc.lockMtx.unlockMtx }, .einval)
    | some be =>
      if be.beStatus = .busy then .error .outOfFuel
      else .ok ({ s with bc := s.bc.lockMtx.unlockMtx }, .ebusy)

end DeviceModel

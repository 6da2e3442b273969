import Mathlib.Data.List.Nodup
import Mathlib.Data.List.Perm.Basic
import DeviceModel.Library.WaitQueue
import DeviceModel.Block.BlockIf

/-!
# The block queue is served in order

`blockif_enqueue` marks a request `BST_BLOCK` when an earlier one ends where it starts,
and `blockif_complete` releases it. The marks never reorder anything: a blocked element
has an earlier element that it waits for, so the first element is not blocked, and
`blockif_dequeue` takes the first one that is not.
-/

namespace DeviceModel

/-! ## The invariant -/

/-- Each blocked element waits for an element before it. -/
def BlockWitnessed (reqs : Nat → BlockifReq) (q : List BlockifElem) : Prop :=
  Witnessed (·.beBlock) (fun be => (reqs be.beReq).brOffset) (·.beStatus = .block) [] q

/-- The queues of a block context, with the busy queue before the pending one. -/
structure QueueOk (bc : BlockifCtxt) (reqs : Nat → BlockifReq) : Prop where
  pendq : ∀ be ∈ bc.bcPendq, be.beStatus = .block ∨ be.beStatus = .pend
  busyq : ∀ be ∈ bc.bcBusyq, be.beStatus ≠ .block
  witnessed : BlockWitnessed reqs (bc.bcBusyq ++ bc.bcPendq)
  /-- each element of `bc_reqs` is on one of the three queues -/
  elems : ((bc.bcBusyq ++ bc.bcPendq).map (·.beIdx) ++ bc.bcFreeq).Perm (List.range blockifMaxreq)

namespace QueueOk

variable {bc : BlockifCtxt} {reqs : Nat → BlockifReq}

theorem nodup (h : QueueOk bc reqs) : ((bc.bcBusyq ++ bc.bcPendq).map (·.beIdx)).Nodup :=
  (List.nodup_append.1 (h.elems.nodup_iff.2 List.nodup_range)).1

theorem length (h : QueueOk bc reqs) :
    bc.bcBusyq.length + bc.bcPendq.length + bc.bcFreeq.length = blockifMaxreq := by
  have hlen := h.elems.length_eq
  rwa [List.length_append, List.length_map, List.length_append, List.length_range] at hlen

/-- The invariant reads only the queues, and only the requests on the pending one. -/
theorem congr {bc' : BlockifCtxt} {reqs' : Nat → BlockifReq} (h : QueueOk bc reqs)
    (hfree : bc'.bcFreeq = bc.bcFreeq) (hpend : bc'.bcPendq = bc.bcPendq)
    (hbusy : bc'.bcBusyq = bc.bcBusyq)
    (hreqs : ∀ be ∈ bc.bcPendq, (reqs' be.beReq).brOffset = (reqs be.beReq).brOffset) :
    QueueOk bc' reqs' := by
  refine ⟨hpend ▸ h.pendq, hbusy ▸ h.busyq, ?_, ?_⟩
  · rw [hbusy, hpend]
    refine h.witnessed.congr_wants fun be hbe hblock => ?_
    rcases List.mem_append.1 hbe with hbe | hbe
    · exact absurd hblock (h.busyq be hbe)
    · exact hreqs be hbe
  · rw [hbusy, hpend, hfree]
    exact h.elems

end QueueOk

theorem queueOk_open (base : U64) (reqs : Nat → BlockifReq) : QueueOk (blockifOpen base) reqs where
  pendq := fun _ h => absurd h List.not_mem_nil
  busyq := fun _ h => absurd h List.not_mem_nil
  witnessed := trivial
  elems := List.reverse_perm _

/-! ## Submitting -/

/-- The element that `blockif_enqueue` appends. -/
def blockifNewElem (bc : BlockifCtxt) (reqs : Nat → BlockifReq) (be breq : Nat) (op : Blockop) :
    BlockifElem where
  beIdx := be
  beReq := breq
  beOp := op
  beStatus :=
    if bc.bcPendq.any (·.beBlock == (reqs breq).brOffset) ||
      bc.bcBusyq.any (·.beBlock == (reqs breq).brOffset) then .block else .pend
  beBlock := blockifEnd (reqs breq) op

theorem QueueOk.enqueue {bc : BlockifCtxt} {reqs : Nat → BlockifReq} {be : Nat} {free : List Nat}
    (h : QueueOk bc reqs) (hfree : bc.bcFreeq = be :: free) (breq : Nat) (op : Blockop) :
    QueueOk (blockifEnqueue bc reqs be breq op) reqs := by
  refine ⟨?_, h.busyq, ?_, ?_⟩
  · intro e he
    rcases List.mem_append.1 he with he | he
    · exact h.pendq e he
    · rw [List.mem_singleton] at he
      subst he
      simp only
      split
      · exact .inl rfl
      · exact .inr rfl
  · rw [BlockWitnessed, blockifEnqueue, ← List.append_assoc]
    refine h.witnessed.snoc fun hblock => ?_
    -- the search has found the element that the new one waits for
    have hfound : (bc.bcPendq.any (·.beBlock == (reqs breq).brOffset) ||
        bc.bcBusyq.any (·.beBlock == (reqs breq).brOffset)) = true := by
      by_contra hno
      simp only [if_neg hno, reduceCtorEq] at hblock
    simp only [Bool.or_eq_true, List.any_eq_true, beq_iff_eq] at hfound
    rcases hfound with ⟨w, hw, heq⟩ | ⟨w, hw, heq⟩
    · exact ⟨w, List.mem_append_right bc.bcBusyq hw, heq⟩
    · exact ⟨w, List.mem_append_left bc.bcPendq hw, heq⟩
  · have helems := h.elems
    rw [hfree] at helems
    refine List.Perm.trans ?_ helems
    simp only [blockifEnqueue, hfree, List.tail_cons, ← List.append_assoc, List.map_append,
      List.map_cons, List.map_nil]
    rw [List.append_assoc (_ ++ _)]
    rfl

/-! ## Serving -/

/-- The first element of the queue is the first that is not blocked. -/
theorem blockifFirstPend_eq {reqs : Nat → BlockifReq} {q : List BlockifElem}
    (hw : BlockWitnessed reqs q) (hq : ∀ be ∈ q, be.beStatus = .block ∨ be.beStatus = .pend) :
    blockifFirstPend q = .ok q.head? := by
  cases q with
  | nil => rfl
  | cons e q =>
    have hpend : e.beStatus = .pend := by
      rcases hq e List.mem_cons_self with hb | hp
      · exact absurd hb hw.head_not_blocked
      · exact hp
    rw [blockifFirstPend, if_pos hpend]
    rfl

/-- Taking an element off a queue takes nothing else. -/
theorem blockifRemove_mid {e x : BlockifElem} {q r : List BlockifElem} (hidx : x.beIdx = e.beIdx)
    (h : ((q ++ e :: r).map (·.beIdx)).Nodup) : blockifRemove x (q ++ e :: r) = q ++ r := by
  have hne : ∀ y ∈ q ++ r, y.beIdx ≠ e.beIdx := by
    intro y hy heq
    rw [List.map_append, List.map_cons, List.nodup_middle, List.nodup_cons] at h
    refine h.1 ?_
    rw [← List.map_append, ← heq]
    exact List.mem_map_of_mem hy
  rw [blockifRemove, List.filter_append, List.filter_cons, hidx]
  simp only [bne_self_eq_false, Bool.false_eq_true, if_false]
  rw [← List.filter_append, List.filter_eq_self]
  intro y hy
  rw [bne_iff_ne]
  exact hne y hy

/-- **In order.** With nothing being served, `blockif_dequeue` takes the first element. -/
theorem blockifDequeue_eq {bc : BlockifCtxt} {reqs : Nat → BlockifReq} (h : QueueOk bc reqs)
    (hbusy : bc.bcBusyq = []) :
    blockifDequeue bc =
      match bc.bcPendq with
      | [] => .ok (none, bc)
      | be :: q =>
        .ok (some { be with beStatus := .busy },
          { bc with bcPendq := q, bcBusyq := [{ be with beStatus := .busy }] }) := by
  have hw := h.witnessed
  have hn := h.nodup
  rw [hbusy, List.nil_append] at hw hn
  have hfirst := blockifFirstPend_eq hw h.pendq
  cases hq : bc.bcPendq with
  | nil =>
    rw [hq] at hfirst
    rw [blockifDequeue, hq, hfirst]
    rfl
  | cons be q =>
    rw [hq] at hfirst hn
    have hremove : blockifRemove be (be :: q) = q := @blockifRemove_mid be be [] q rfl hn
    have htake : blockifTake bc be =
        { bc with bcPendq := q, bcBusyq := [{ be with beStatus := .busy }] } := by
      rw [blockifTake, hq, hremove, hbusy, List.nil_append]
    rw [blockifDequeue, hq, hfirst]
    exact congrArg (fun next => Except.ok (some { be with beStatus := .busy }, next)) htake

/-- A transfer reads of the context only where the disk is. -/
theorem blockifTransfer_bc (s : BlockState) (be : BlockifElem) (q r : List BlockifElem)
    (st : Blockstat) :
    blockifTransfer { s with bc := { s.bc with bcPendq := q, bcBusyq := r } }
        { be with beStatus := st } =
      ({ (blockifTransfer s be).1 with bc := { s.bc with bcPendq := q, bcBusyq := r } },
        (blockifTransfer s be).2) := by
  simp only [blockifTransfer]
  cases be.beOp with
  | write =>
    simp only
    split <;> rfl
  | _ => rfl

theorem blockifNoResid_offset (reqs : Nat → BlockifReq) (breq n : Nat) :
    (blockifNoResid reqs breq n).brOffset = (reqs n).brOffset := by
  rw [blockifNoResid, Function.update_apply]
  split
  · next h => rw [h]
  · rfl

theorem blockifNoResid_iov (reqs : Nat → BlockifReq) (breq n : Nat) :
    (blockifNoResid reqs breq n).brIov = (reqs n).brIov := by
  rw [blockifNoResid, Function.update_apply]
  split
  · next h => rw [h]
  · rfl

/-- What a transfer leaves alone. -/
theorem blockifTransfer_frame (s : BlockState) (be : BlockifElem) :
    (blockifTransfer s be).1.bc = s.bc ∧
    (∀ n, ((blockifTransfer s be).1.reqs n).brOffset = (s.reqs n).brOffset) ∧
    ∀ n, ((blockifTransfer s be).1.reqs n).brIov = (s.reqs n).brIov := by
  rw [blockifTransfer]
  split
  · exact ⟨rfl, blockifNoResid_offset _ _, blockifNoResid_iov _ _⟩
  · split
    · exact ⟨rfl, fun _ => rfl, fun _ => rfl⟩
    · exact ⟨rfl, blockifNoResid_offset _ _, blockifNoResid_iov _ _⟩
  · exact ⟨rfl, fun _ => rfl, fun _ => rfl⟩
  · exact ⟨rfl, fun _ => rfl, fun _ => rfl⟩

/-- Serving the first element: it goes to the busy queue under another mark. -/
theorem QueueOk.serving {bc : BlockifCtxt} {reqs : Nat → BlockifReq} {be : BlockifElem}
    {q : List BlockifElem} (h : QueueOk bc reqs) (hbusy : bc.bcBusyq = [])
    (hpend : bc.bcPendq = be :: q) (st : Blockstat) (hst : st ≠ .block) :
    QueueOk { bc with bcPendq := q, bcBusyq := [{ be with beStatus := st }] } reqs := by
  have hw := h.witnessed
  have helems := h.elems
  rw [hbusy, hpend, List.nil_append] at hw helems
  refine ⟨?_, ?_, ⟨fun hb => absurd hb hst, ?_⟩, helems⟩
  · intro e he
    exact h.pendq e (by rw [hpend]; exact List.mem_cons_of_mem be he)
  · intro e he
    rw [List.mem_singleton] at he
    subst he
    exact hst
  · have hrest := hw.2
    rw [List.nil_append] at hrest ⊢
    exact hrest.congr_pre fun w hw' => ⟨_, List.mem_singleton_self _, by
      rw [List.mem_singleton] at hw'
      rw [hw']⟩

theorem blockifUnblock_idx (reqs : Nat → BlockifReq) (off : U64) (be : BlockifElem) :
    (blockifUnblock reqs off be).beIdx = be.beIdx := by
  rw [blockifUnblock]
  split <;> rfl

theorem blockifUnblock_req (reqs : Nat → BlockifReq) (off : U64) (be : BlockifElem) :
    (blockifUnblock reqs off be).beReq = be.beReq := by
  rw [blockifUnblock]
  split <;> rfl

theorem blockifUnblock_op (reqs : Nat → BlockifReq) (off : U64) (be : BlockifElem) :
    (blockifUnblock reqs off be).beOp = be.beOp := by
  rw [blockifUnblock]
  split <;> rfl

theorem blockifUnblock_status {reqs : Nat → BlockifReq} {off : U64} {be : BlockifElem}
    (h : be.beStatus = .block ∨ be.beStatus = .pend) :
    (blockifUnblock reqs off be).beStatus = .block ∨
      (blockifUnblock reqs off be).beStatus = .pend := by
  rw [blockifUnblock]
  split
  · exact .inr rfl
  · exact h

/-- `blockif_complete` releases the elements that wait for the completed one. -/
theorem BlockWitnessed.release {reqs : Nat → BlockifReq} {q r : List BlockifElem} {be : BlockifElem}
    (h : BlockWitnessed reqs (q ++ be :: r)) :
    BlockWitnessed reqs ((q ++ r).map (blockifUnblock reqs be.beBlock)) := by
  refine Witnessed.release ?_ ?_ ?_ h
  · intro e
    rw [blockifUnblock]
    split <;> rfl
  · intro e
    rw [blockifUnblock_req]
  · intro e hb
    rw [blockifUnblock] at hb
    split at hb
    · cases hb
    · next hne => exact ⟨hb, hne⟩

/-- Taking one place out of the elements in use and adding it to the free ones. -/
theorem elems_free {q r : List BlockifElem} {be : BlockifElem} {free : List Nat}
    {f : BlockifElem → BlockifElem} (hf : ∀ e, (f e).beIdx = e.beIdx)
    (h : ((q ++ be :: r).map (·.beIdx) ++ free).Perm (List.range blockifMaxreq)) :
    (((q ++ r).map f).map (·.beIdx) ++ (free ++ [be.beIdx])).Perm (List.range blockifMaxreq) := by
  have hmap : ((q ++ r).map f).map (·.beIdx) = (q ++ r).map (·.beIdx) := by
    rw [List.map_map]
    exact List.map_congr_left fun e _ => hf e
  rw [hmap]
  refine List.Perm.trans ?_ h
  rw [List.map_append, List.map_append, List.map_cons, ← List.append_assoc]
  refine (List.perm_append_singleton _ _).trans ?_
  rw [List.append_assoc, List.append_assoc, List.cons_append]
  exact List.perm_middle.symm

/-- **Completing the element that is served.** -/
theorem QueueOk.finish {bc : BlockifCtxt} {reqs : Nat → BlockifReq} {x : BlockifElem}
    (h : QueueOk bc reqs) (hbusy : bc.bcBusyq = [x]) (be : BlockifElem) (hidx : be.beIdx = x.beIdx)
    (hblock : be.beBlock = x.beBlock) (hdone : be.beStatus = .done) :
    blockifComplete bc reqs be =
        { bc with bcBusyq := [], bcPendq := bc.bcPendq.map (blockifUnblock reqs be.beBlock)
                  bcFreeq := bc.bcFreeq ++ [be.beIdx] } ∧
      QueueOk (blockifComplete bc reqs be) reqs := by
  have heq : blockifComplete bc reqs be =
      { bc with bcBusyq := [], bcPendq := bc.bcPendq.map (blockifUnblock reqs be.beBlock)
                bcFreeq := bc.bcFreeq ++ [be.beIdx] } := by
    have hremove : blockifRemove be [x] = [] := by simp [blockifRemove, hidx]
    rw [blockifComplete, if_pos (.inl hdone), hbusy, hremove]
  refine ⟨heq, ?_⟩
  have hw := h.witnessed
  have helems := h.elems
  rw [hbusy] at hw helems
  rw [heq, hblock, hidx]
  refine ⟨?_, fun _ hmem => absurd hmem List.not_mem_nil, hw.release (q := []), ?_⟩
  · intro e he
    obtain ⟨e', he', rfl⟩ := List.mem_map.1 he
    exact blockifUnblock_status (h.pendq e' he')
  · exact elems_free (q := []) (blockifUnblock_idx reqs _) helems

/-- **Cancelling** takes one element out of the pending queue. -/
theorem QueueOk.cancel {bc : BlockifCtxt} {reqs : Nat → BlockifReq} {be : BlockifElem}
    {q r : List BlockifElem} (h : QueueOk bc reqs) (hpend : bc.bcPendq = q ++ be :: r) :
    blockifComplete bc reqs be =
        { bc with bcPendq := (q ++ r).map (blockifUnblock reqs be.beBlock)
                  bcFreeq := bc.bcFreeq ++ [be.beIdx] } ∧
      (bc.bcBusyq = [] → QueueOk (blockifComplete bc reqs be) reqs) := by
  have hmem : be ∈ bc.bcPendq := by simp [hpend]
  have hn := h.nodup
  have hn' : ((q ++ be :: r).map (·.beIdx)).Nodup := by
    rw [List.map_append, hpend] at hn
    exact (List.nodup_append.1 hn).2.1
  have hstatus : ¬ (be.beStatus = .done ∨ be.beStatus = .busy) := by
    rcases h.pendq be hmem with hs | hs <;> simp [hs]
  have heq : blockifComplete bc reqs be =
      { bc with bcPendq := (q ++ r).map (blockifUnblock reqs be.beBlock)
                bcFreeq := bc.bcFreeq ++ [be.beIdx] } := by
    rw [blockifComplete, if_neg hstatus, hpend, blockifRemove_mid rfl hn']
  refine ⟨heq, fun hbusy => ?_⟩
  have hw := h.witnessed
  have helems := h.elems
  rw [hbusy, hpend, List.nil_append] at hw helems
  rw [heq]
  refine ⟨?_, h.busyq, ?_, ?_⟩
  · intro e he
    obtain ⟨e', he', rfl⟩ := List.mem_map.1 he
    refine blockifUnblock_status (h.pendq e' ?_)
    rw [hpend, List.mem_append, List.mem_cons]
    exact (List.mem_append.1 he').imp_right .inr
  · simp only [hbusy, List.nil_append]
    exact hw.release
  · simp only [hbusy, List.nil_append]
    exact elems_free (blockifUnblock_idx reqs _) helems

end DeviceModel

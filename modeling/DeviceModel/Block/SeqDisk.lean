import Mathlib.Data.List.Nodup
import DeviceModel.Library.Runs
import DeviceModel.Block.BlockIf

/-!
# A sequential disk

What the block interface is for: a disk that serves the requests it has accepted one
after another, in the order in which it has accepted them. There are no marks here and
no elements, only a queue of tickets with consecutive numbers.
-/

namespace DeviceModel

/-- The contents of a disk. -/
abbrev Disk : Type := Nat → U8

namespace Disk

/-- The `len` bytes from `off` on. -/
def slice (d : Disk) (off len : Nat) : List U8 := (List.range len).map fun i => d (off + i)

/-- Store bytes from `off` on. -/
def store (d : Disk) (off : Nat) (vs : List U8) : Disk :=
  fun i => if off ≤ i ∧ i < off + vs.length then vs.getD (i - off) 0 else d i

theorem store_congr {d d' : Disk} {i : Nat} (off : Nat) (vs : List U8) (h : d i = d' i) :
    d.store off vs i = d'.store off vs i := by
  simp only [store, h]

end Disk

/-- An accepted request. -/
structure Ticket where
  /-- its place in the order of submission -/
  num : Nat
  req : Nat
  op : Blockop
  offset : Nat
  len : Nat
  /-- what its buffers held when it was submitted -/
  data : List U8

/-- A call of a request's callback. -/
structure Callback where
  req : Nat
  err : Errno
  /-- what the request's buffers hold at that time -/
  data : List U8

/-- The disk after a request has been served. -/
def Ticket.serve (t : Ticket) (d : Disk) : Disk :=
  match t.op with
  | .write => d.store t.offset t.data
  | _ => d

/-- The callback that a request must get when the disk is `d`. -/
structure Ticket.Answers (t : Ticket) (d : Disk) (cb : Callback) : Prop where
  req : cb.req = t.req
  err : cb.err = if t.op = .delete then .eopnotsupp else .zero
  data : t.op = .read → cb.data = d.slice t.offset t.len

/-- A sequential disk and its history. -/
structure SeqDisk where
  disk : Disk
  /-- the number of requests accepted so far -/
  accepted : Nat
  /-- the requests that are outstanding, in order -/
  queue : List Ticket
  cancelled : List Ticket
  served : List (Ticket × Callback)

/-- A disk that has not been used. -/
def SeqDisk.start (d : Disk) : SeqDisk := ⟨d, 0, [], [], []⟩

/-- A call of the block interface. -/
inductive BlockCall : Type where
  /-- `blockif_read`, `blockif_write`, `blockif_flush` or `blockif_delete`, for `len`
  bytes at `offset` and with `data` in the buffers -/
  | request (op : Blockop) (req offset len : Nat) (data : List U8)
  | cancel (req : Nat)
  | thr

/-- Serve the first ticket. -/
def SeqDisk.serveNext (a : SeqDisk) (t : Ticket) (ts : List Ticket) (cb : Callback) : SeqDisk :=
  { a with disk := t.serve a.disk, queue := ts, served := a.served ++ [(t, cb)] }

/-- Serve tickets until none is left. -/
inductive SeqDrain : SeqDisk → SeqDisk → Prop where
  | empty {a : SeqDisk} : a.queue = [] → SeqDrain a a
  | serve {a b : SeqDisk} {t : Ticket} {ts : List Ticket} {cb : Callback} :
      a.queue = t :: ts → t.Answers a.disk cb → SeqDrain (a.serveNext t ts cb) b → SeqDrain a b

/-- A call and its return value. -/
inductive SeqStep : SeqDisk → BlockCall × Errno → SeqDisk → Prop where
  | accept {a : SeqDisk} (op : Blockop) (req offset len : Nat) (data : List U8) :
      a.queue.length < blockifMaxreq →
      SeqStep a (.request op req offset len data, .zero)
        { a with accepted := a.accepted + 1
                 queue := a.queue ++ [⟨a.accepted, req, op, offset, len, data⟩] }
  | refuse {a : SeqDisk} (op : Blockop) (req offset len : Nat) (data : List U8) :
      a.queue.length = blockifMaxreq →
      SeqStep a (.request op req offset len data, .e2big) a
  | cancel {a : SeqDisk} {q r : List Ticket} (t : Ticket) : a.queue = q ++ t :: r →
      (∀ x ∈ q, x.req ≠ t.req) →
      SeqStep a (.cancel t.req, .zero)
        { a with queue := q ++ r, cancelled := a.cancelled ++ [t] }
  | absent {a : SeqDisk} (req : Nat) : (∀ x ∈ a.queue, x.req ≠ req) →
      SeqStep a (.cancel req, .einval) a
  | thr {a b : SeqDisk} : SeqDrain a b → SeqStep a (.thr, .zero) b

/-! ## What such a disk does -/

/-- The disk after the requests of a history. -/
def diskAfter (d : Disk) (served : List (Ticket × Callback)) : Disk :=
  served.foldl (fun d x => x.1.serve d) d

theorem diskAfter_snoc (d : Disk) (served : List (Ticket × Callback)) (x : Ticket × Callback) :
    diskAfter d (served ++ [x]) = x.1.serve (diskAfter d served) := by
  rw [diskAfter, List.foldl_append]
  rfl

/-- The laws of a history that has begun with the contents `d`. -/
structure SeqLaws (d : Disk) (a : SeqDisk) : Prop where
  /-- what is not cancelled is served once and in order, or still outstanding -/
  order : a.served.map (·.1.num) ++ a.queue.map (·.num) =
    (List.range a.accepted).filter fun n => n ∉ a.cancelled.map (·.num)
  cancelled_lt : ∀ t ∈ a.cancelled, t.num < a.accepted
  disk : a.disk = diskAfter d a.served
  /-- each callback answers for the disk as its predecessors have left it -/
  answers : ∀ pre t cb post, a.served = pre ++ (t, cb) :: post → t.Answers (diskAfter d pre) cb

theorem seqLaws_start (d : Disk) : SeqLaws d (SeqDisk.start d) where
  order := rfl
  cancelled_lt := fun _ h => absurd h List.not_mem_nil
  disk := rfl
  answers := fun pre t cb post h => absurd h.symm (by simp [SeqDisk.start])

theorem SeqLaws.serveNext {d : Disk} {a : SeqDisk} {t : Ticket} {ts : List Ticket} {cb : Callback}
    (h : SeqLaws d a) (hq : a.queue = t :: ts) (hcb : t.Answers a.disk cb) :
    SeqLaws d (a.serveNext t ts cb) := by
  refine ⟨?_, h.cancelled_lt, ?_, ?_⟩
  · have horder := h.order
    rw [hq] at horder
    simp only [SeqDisk.serveNext, List.map_append, List.map_cons, List.map_nil, List.append_assoc]
    exact horder
  · rw [SeqDisk.serveNext, diskAfter_snoc, ← h.disk]
  · intro pre t' cb' post heq
    rcases List.append_eq_append_iff.1 heq with ⟨rest, hpre, hpost⟩ | ⟨rest, hpre, hpost⟩
    · cases rest with
      | nil =>
        rw [List.nil_append] at hpost
        cases hpost
        rw [List.append_nil] at hpre
        rw [hpre, ← h.disk]
        exact hcb
      | cons x rest => simp at hpost
    · cases rest with
      | nil =>
        rw [List.nil_append] at hpost
        cases hpost
        rw [List.append_nil] at hpre
        rw [← hpre, ← h.disk]
        exact hcb
      | cons x rest =>
        rw [List.cons_append] at hpost
        cases hpost
        exact h.answers pre t' cb' rest hpre

theorem SeqLaws.drain {d : Disk} {a b : SeqDisk} (h : SeqLaws d a) (hd : SeqDrain a b) :
    SeqLaws d b ∧ b.queue = [] := by
  induction hd with
  | empty hq => exact ⟨h, hq⟩
  | serve hq hcb _ ih => exact ih (h.serveNext hq hcb)

/-- Without repetitions, an element can be filtered out. -/
theorem filter_ne_middle {l r : List Nat} {n : Nat} (h : (l ++ n :: r).Nodup) :
    (l ++ n :: r).filter (· ≠ n) = l ++ r := by
  rw [List.nodup_middle, List.nodup_cons] at h
  have hne : ∀ m ∈ l ++ r, decide (m ≠ n) = true :=
    fun m hm => decide_eq_true fun heq => h.1 (heq ▸ hm)
  rw [List.filter_append, List.filter_cons_of_neg (by simp), ← List.filter_append,
    List.filter_eq_self.2 hne]

/-- One call keeps the laws. -/
theorem SeqLaws.step {d : Disk} {a b : SeqDisk} {l : BlockCall × Errno} (h : SeqLaws d a)
    (hstep : SeqStep a l b) : SeqLaws d b := by
  cases hstep with
  | accept op req offset len data hlt =>
    refine ⟨?_, fun t ht => Nat.lt_succ_of_lt (h.cancelled_lt t ht), h.disk, h.answers⟩
    have hnew : a.accepted ∉ a.cancelled.map (·.num) := by
      intro hmem
      obtain ⟨t, ht, heq⟩ := List.mem_map.1 hmem
      exact absurd (h.cancelled_lt t ht) (by omega)
    rw [List.map_append, ← List.append_assoc, h.order, List.range_succ, List.filter_append]
    have hkept : [a.accepted].filter (fun n => n ∉ a.cancelled.map (·.num)) = [a.accepted] :=
      List.filter_cons_of_pos (decide_eq_true hnew)
    exact congrArg _ hkept.symm
  | refuse => exact h
  | @cancel q r t hq hfirst =>
    have horder := h.order
    rw [hq] at horder
    have hnodup : (a.served.map (·.1.num) ++ (q ++ t :: r).map (·.num)).Nodup := by
      rw [horder]
      exact List.nodup_range.filter _
    refine ⟨?_, ?_, h.disk, h.answers⟩
    · -- the numbers that are left are those that are not the cancelled one
      rw [List.map_append, List.map_cons, ← List.append_assoc] at hnodup horder
      rw [List.map_append, ← List.append_assoc, ← filter_ne_middle hnodup, horder,
        List.filter_filter]
      refine List.filter_congr fun n _ => ?_
      rw [← Bool.decide_and, decide_eq_decide, List.map_append, List.mem_append, List.map_cons,
        List.map_nil, List.mem_singleton, not_or, and_comm]
    · intro x hx
      rcases List.mem_append.1 hx with hx | hx
      · exact h.cancelled_lt x hx
      · rw [List.mem_singleton] at hx
        subst hx
        have hmem : x.num ∈ (List.range a.accepted).filter fun n => n ∉ a.cancelled.map (·.num) := by
          rw [← horder]
          simp
        exact List.mem_range.1 (List.mem_filter.1 hmem).1
  | absent => exact h
  | thr hd => exact (h.drain hd).1

theorem seqLaws_of_run {d : Disk} {a : SeqDisk} {ls : List (BlockCall × Errno)}
    (h : Run SeqStep (SeqDisk.start d) ls a) : SeqLaws d a :=
  h.invariant (fun _ _ _ ha hstep => ha.step hstep) (seqLaws_start d)

end DeviceModel

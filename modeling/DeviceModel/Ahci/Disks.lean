import Mathlib.Data.List.Basic
import DeviceModel.Ahci.Defs
import DeviceModel.Block.Drain

/-!
# Every disk that is opened

`pci_ahci_init` calls `blockif_open` for each port that its option string names. Each
call sets the one pointer `blockif_sc->bc` to the context that it makes, and
`blockif_thr` serves the context that this pointer names: the last one.
-/

namespace DeviceModel

/-! ## The option string -/

/-- `strstr`: the place of the first occurrence. -/
def strstr (s pat : List Char) : Option Nat := s.tails.findIdx? pat.isPrefixOf

/-- Identify and cut off the type of a port. Without a type it is that of the port
before. -/
def ahciPortType (atapi : Bool) (opts : List Char) : Bool × List Char :=
  if "hd:".toList.isPrefixOf opts then (false, opts.drop 3)
  else if "cd:".toList.isPrefixOf opts then (true, opts.drop 3)
  else (atapi, opts)

/-- The comma before the next port's options. -/
def ahciNextPort (opts : List Char) : Option Nat :=
  match strstr opts ",hd:".toList, strstr opts ",cd:".toList with
  | none, next2 => next2
  | some next, none => some next
  | some next, some next2 => if next2 < next then some next2 else some next

/-- A port for which `pci_ahci_init` calls `blockif_open`, with its options. -/
structure AhciPortOpts where
  port : Nat
  atapi : Bool
  opts : List Char
  deriving DecidableEq

/-- The loop of `pci_ahci_init` over `opts`, with `n` ports left from port `p` on. Every
call of `blockif_open` succeeds. -/
def ahciOpenLoop : (n p : Nat) → Bool → Option (List Char) → List AhciPortOpts
  | 0, _, _, _ => []
  | _ + 1, _, _, none => []
  | n + 1, p, atapi, some s =>
    let (atapi, opts) := ahciPortType atapi s
    let next := ahciNextPort opts
    let rest := ahciOpenLoop n (p + 1) atapi (next.map fun i => opts.drop (i + 1))
    match next.elim opts opts.take with
    | [] => rest
    | c :: cs => ⟨p, atapi, c :: cs⟩ :: rest

/-- The ports that `pci_ahci_init` opens. -/
def ahciOpenPorts (opts : Option (List Char)) (atapi : Bool) : List AhciPortOpts :=
  ahciOpenLoop ahciMaxPorts 0 atapi opts

example : ahciOpenPorts (some "hd:a,cd:b".toList) false =
    [⟨0, false, "a".toList⟩, ⟨1, true, "b".toList⟩] := by decide

/-! ## The contexts -/

/-- The block contexts in the order in which they were opened, with the request
structures of each. -/
structure Disks (δ : Type) where
  dev : δ
  ctxts : List BlockifCtxt
  reqs : Nat → Nat → BlockifReq
  mem : Mem
  /-- the context of `blockif_sc->bc`, if `blockif_sc` is set -/
  sc : Option Nat

namespace Disks

variable {δ : Type} (u : Nat → BlockUser δ)

/-- `blockif_open` on the pointer too. -/
def openDisk (base : U64) (s : Disks δ) : Disks δ :=
  { s with ctxts := s.ctxts ++ [blockifOpen base], sc := some s.ctxts.length }

/-- The block interface of one context. -/
def user (s : Disks δ) (i : Nat) (bc : BlockifCtxt) : UserState δ := ⟨s.dev, bc, s.reqs i, s.mem⟩

/-- The disks after a call on one context. -/
def put (s : Disks δ) (i : Nat) (t : UserState δ) : Disks δ :=
  { s with dev := t.dev, ctxts := s.ctxts.set i t.blk.bc
           reqs := Function.update s.reqs i t.blk.reqs, mem := t.blk.mem }

/-- A request for context `i`, where there is one. -/
def submit (s : Disks δ) (x : Nat × BlockRequest) : Disks δ :=
  match s.ctxts[x.1]? with
  | none => s
  | some bc => s.put x.1 { s.user x.1 bc with blk := (s.user x.1 bc).blk.submit x.2 }

/-- `blockif_thr(NULL)`. -/
def thr (fuel : Nat) (s : Disks δ) : Except Stop (Disks δ) :=
  match s.sc with
  | none => .ok s
  | some i =>
    match s.ctxts[i]? with
    | none => .error .undefined
    | some bc => (blockifThr (u i).client fuel (s.user i bc)).map (s.put i)

/-- The disks that `pci_ahci_init` opens. -/
def ofOpts (opts : Option (List Char)) (atapi : Bool) (base : U64) (dev : δ)
    (reqs : Nat → Nat → BlockifReq) (mem : Mem) : Disks δ :=
  (ahciOpenPorts opts atapi).foldl (fun s _ => s.openDisk base) ⟨dev, [], reqs, mem, none⟩

/-- Nothing is pending on any context. -/
def Served (s : Disks δ) : Prop := ∀ bc ∈ s.ctxts, bc.bcPendq = []

/-- Nothing is pending on any context but the one that was opened last. -/
def ServedButLast (s : Disks δ) : Prop := ∀ bc ∈ s.ctxts.dropLast, bc.bcPendq = []

/-! ## What holds between calls -/

/-- The queues of each context are in order, and `blockif_sc` names the last one. -/
structure Ok (s : Disks δ) : Prop where
  ready : ∀ i bc, s.ctxts[i]? = some bc → (s.user i bc).Ready
  sc : s.sc = if s.ctxts = [] then none else some (s.ctxts.length - 1)

/-- A call on one context leaves the others alone. -/
theorem Ok.put {s : Disks δ} (h : s.Ok) {i : Nat} {t : UserState δ} (ht : t.Ready) :
    (s.put i t).Ok := by
  refine ⟨fun j bc hj => ?_, ?_⟩
  · have hj' : (s.ctxts.set i t.blk.bc)[j]? = some bc := hj
    rw [List.getElem?_set] at hj'
    by_cases hij : i = j
    · subst hij
      rw [if_pos rfl] at hj'
      split at hj'
      · cases hj'
        have hreqs : (s.put i t).reqs i = t.blk.reqs := Function.update_self _ _ _
        refine ⟨?_, ht.idle⟩
        simp only [user, hreqs]
        exact ht.queue
      · cases hj'
    · rw [if_neg hij] at hj'
      have hreqs : (s.put i t).reqs j = s.reqs j := Function.update_of_ne (Ne.symm hij) _ _
      have hready := h.ready j bc hj'
      refine ⟨?_, hready.idle⟩
      simp only [user, hreqs]
      exact hready.queue
  · simp only [Disks.put, List.length_set, List.set_eq_nil_iff]
    exact h.sc

theorem Ok.openDisk {s : Disks δ} (h : s.Ok) (base : U64) : (s.openDisk base).Ok := by
  refine ⟨fun j bc hj => ?_, ?_⟩
  · have hj' : (s.ctxts ++ [blockifOpen base])[j]? = some bc := hj
    rw [List.getElem?_append] at hj'
    split at hj'
    · exact h.ready j bc hj'
    · rw [List.getElem?_singleton] at hj'
      split at hj'
      · cases hj'
        exact ⟨queueOk_open base _, rfl⟩
      · cases hj'
  · simp [Disks.openDisk]

theorem ofOpts_ok (opts : Option (List Char)) (atapi : Bool) (base : U64) (dev : δ)
    (reqs : Nat → Nat → BlockifReq) (mem : Mem) : (ofOpts opts atapi base dev reqs mem).Ok := by
  have hfold : ∀ (l : List AhciPortOpts) (s : Disks δ), s.Ok →
      (l.foldl (fun s _ => s.openDisk base) s).Ok := by
    intro l
    induction l with
    | nil => intro s h; exact h
    | cons _ l ih => intro s h; exact ih _ (h.openDisk base)
  refine hfold _ _ ⟨fun j bc hj => ?_, rfl⟩
  cases hj

theorem Ok.submit {s : Disks δ} (h : s.Ok) (x : Nat × BlockRequest) : (s.submit x).Ok := by
  rw [Disks.submit]
  split
  · exact h
  · next bc hbc =>
    have hready := h.ready x.1 bc hbc
    obtain ⟨hqueue, hbusy, -⟩ := BlockState.submit_spec x.2 hready.queue
    exact h.put ⟨hqueue, hbusy.trans hready.idle⟩

theorem Ok.submitAll (xs : List (Nat × BlockRequest)) : ∀ {s : Disks δ}, s.Ok →
    (xs.foldl Disks.submit s).Ok := by
  induction xs with
  | nil => intro s h; exact h
  | cons x xs ih => intro s h; exact ih (h.submit x)

/-- One call serves the last context and no other. -/
theorem Ok.thr {s : Disks δ} (h : s.Ok) : ∃ t, (∃ n, ∀ fuel, n < fuel → s.thr u fuel = .ok t) ∧
    (t.Served ↔ s.ServedButLast) := by
  have hsc := h.sc
  cases hlast : s.ctxts.getLast? with
  | none =>
    rw [List.getLast?_eq_none_iff] at hlast
    rw [if_pos hlast] at hsc
    refine ⟨s, ⟨0, fun fuel _ => ?_⟩, ?_⟩
    · rw [Disks.thr, hsc]
    · rw [Served, ServedButLast, hlast]
      exact Iff.rfl
  | some bc =>
    obtain ⟨pre, hctxts⟩ := List.getLast?_eq_some_iff.1 hlast
    have hne : s.ctxts ≠ [] := by
      rw [hctxts]
      exact List.append_ne_nil_of_right_ne_nil _ (List.cons_ne_nil _ _)
    have hi : s.ctxts.length - 1 = pre.length := by
      rw [hctxts, List.length_append, List.length_singleton, Nat.add_sub_cancel]
    rw [if_neg hne, hi] at hsc
    have hget : s.ctxts[pre.length]? = some bc := by
      rw [hctxts]
      exact List.getElem?_concat_length
    obtain ⟨t, hempty, hrun⟩ := blockifThr_user (u pre.length) (h.ready _ bc hget)
    refine ⟨s.put pre.length t, ⟨(s.user pre.length bc).work (u pre.length), ?_⟩, ?_⟩
    · intro fuel hfuel
      rw [Disks.thr, hsc]
      simp only [hget]
      rw [hrun fuel hfuel]
      rfl
    · have hset : (s.put pre.length t).ctxts = pre ++ [t.blk.bc] := by
        simp [Disks.put, hctxts]
      rw [Served, ServedButLast, hset, hctxts, List.dropLast_concat, List.forall_mem_append]
      exact and_iff_left (List.forall_mem_singleton.2 hempty)

end Disks

/-! ## The result -/

/-- **Which disks are served.** For every option string and all requests submitted to
the contexts that it opens, one call of `blockif_thr` returns, and nothing is left
pending if and only if nothing was pending but on the context that was opened last. -/
theorem opened_disks_served_iff {δ : Type} (u : Nat → BlockUser δ) (opts : Option (List Char))
    (atapi : Bool) (base : U64) (dev : δ) (reqs : Nat → Nat → BlockifReq) (mem : Mem)
    (xs : List (Nat × BlockRequest)) :
    ∃ t, (∃ n, ∀ fuel, n < fuel →
        (xs.foldl Disks.submit (.ofOpts opts atapi base dev reqs mem)).thr u fuel = .ok t) ∧
      (t.Served ↔ (xs.foldl Disks.submit (.ofOpts opts atapi base dev reqs mem)).ServedButLast) :=
  (Disks.Ok.submitAll xs (Disks.ofOpts_ok opts atapi base dev reqs mem)).thr u

/-- A user whose callbacks do nothing. -/
def idleUser : BlockUser Unit where
  callback := fun _ _ d m => (d, m, [])
  budget := fun _ => 0
  budget_callback := fun _ _ _ _ => Nat.le_refl _

/-- Two disks, and a flush for the first of them. -/
def twoDisks : Disks Unit :=
  [(0, ⟨0, ⟨0, 0, []⟩, .flush⟩)].foldl Disks.submit
    (.ofOpts (some "hd:a,hd:b".toList) false 0 () (fun _ _ => ⟨0, 0, []⟩) fun _ => 0)

theorem twoDisks_ok : twoDisks.Ok := .submitAll _ (Disks.ofOpts_ok _ _ _ _ _ _)

theorem twoDisks_waits : ¬ twoDisks.ServedButLast := by
  rw [Disks.ServedButLast]
  decide

/-- Of two disks the first is not served. -/
theorem opened_disk_not_served :
    ¬ ∀ (δ : Type) (u : Nat → BlockUser δ) opts atapi base (dev : δ) reqs mem
      (xs : List (Nat × BlockRequest)), ahciOpenPorts opts atapi ≠ [] →
      ∃ t, (∃ n, ∀ fuel, n < fuel →
          (xs.foldl Disks.submit (.ofOpts opts atapi base dev reqs mem)).thr u fuel = .ok t) ∧
        t.Served := by
  intro h
  obtain ⟨t, ⟨n, hn⟩, hserved⟩ := h Unit (fun _ => idleUser) (some "hd:a,hd:b".toList) false 0 ()
    (fun _ _ => ⟨0, 0, []⟩) (fun _ => 0) [(0, ⟨0, ⟨0, 0, []⟩, .flush⟩)] (by decide)
  obtain ⟨t', ⟨n', hn'⟩, hiff⟩ := twoDisks_ok.thr fun _ => idleUser
  have heq := (hn (n + n' + 1) (by omega)).symm.trans (hn' (n + n' + 1) (by omega))
  cases heq
  exact twoDisks_waits (hiff.1 hserved)

end DeviceModel

import Mathlib.Order.Basic
import Mathlib.Data.List.Induction

/-!
# Labelled transition systems and their runs

A step relation `σ → ℓ → σ → Prop` says how a state answers a label. This file
packages the two inductions every later module needs, once:

* `Reaches` — the states some run from an initial state passes through, with
  the invariant rule `Reaches.invariant`;
* `Run` — a run together with its labels, for statements that speak of what
  happened on the way and not only of where it ended.

`Guarded step ok` keeps the steps that meet a condition `ok` on the state before
them. A property of "every run whose steps all meet the condition" is a property
of `Reaches (Guarded step ok) init`.
-/

namespace DeviceModel

universe u v

variable {σ : Type u} {ℓ : Type v}

/-! ## Reachable states -/

/-- The states on some run of `step` that starts in `init`. -/
inductive Reaches (step : σ → ℓ → σ → Prop) (init : σ → Prop) : σ → Prop where
  /-- a run may be empty -/
  | start {s : σ} : init s → Reaches step init s
  /-- a run may be extended by one step -/
  | next {s t : σ} {l : ℓ} : Reaches step init s → step s l t → Reaches step init t

/-- The steps that meet the condition `ok` on the state before them. -/
def Guarded (step : σ → ℓ → σ → Prop) (ok : σ → ℓ → Prop) : σ → ℓ → σ → Prop :=
  fun s l t => step s l t ∧ ok s l

namespace Reaches

variable {step : σ → ℓ → σ → Prop} {init : σ → Prop}

/-- **Invariant rule.** What holds initially and is kept by every step holds in
every reachable state. -/
theorem invariant {I : σ → Prop} (hinit : ∀ s, init s → I s)
    (hstep : ∀ s l t, I s → step s l t → I t) {s : σ} (h : Reaches step init s) : I s := by
  induction h with
  | start h => exact hinit _ h
  | next _ h ih => exact hstep _ _ _ ih h

/-- Fewer steps reach fewer states. -/
theorem mono {step' : σ → ℓ → σ → Prop} (hle : ∀ s l t, step s l t → step' s l t)
    {s : σ} (h : Reaches step init s) : Reaches step' init s := by
  induction h with
  | start h => exact .start h
  | next _ h ih => exact .next ih (hle _ _ _ h)

/-- A run has started somewhere. -/
theorem exists_start {s : σ} (h : Reaches step init s) : ∃ s₀, init s₀ ∧ Reaches step (· = s₀) s := by
  induction h with
  | start h => exact ⟨_, h, .start rfl⟩
  | next _ h ih =>
    obtain ⟨s₀, hinit, hrun⟩ := ih
    exact ⟨s₀, hinit, .next hrun h⟩

/-- A run is one whose steps meet no condition. -/
theorem guarded {s : σ} (h : Reaches step init s) : Reaches (Guarded step fun _ _ => True) init s :=
  h.mono fun _ _ _ h => ⟨h, trivial⟩

/-- A run whose steps meet a condition is a run. -/
theorem of_guarded {ok : σ → ℓ → Prop} {s : σ} (h : Reaches (Guarded step ok) init s) :
    Reaches step init s :=
  h.mono fun _ _ _ h => h.1

/-- The rule for steps that are computed: what a list of labels computes is reached. -/
theorem execAll {exec : σ → ℓ → Option σ} {execAll : List ℓ → σ → Option σ}
    (hnil : ∀ s, execAll [] s = some s)
    (hcons : ∀ l ls s, execAll (l :: ls) s = (exec s l).bind (execAll ls)) {ls : List ℓ}
    (hexec : ∀ s t, ∀ l ∈ ls, exec s l = some t → step s l t) :
    ∀ {s t : σ}, Reaches step init s → execAll ls s = some t → Reaches step init t := by
  induction ls with
  | nil =>
    intro s t hs h
    obtain rfl := Option.some.inj ((hnil s).symm.trans h)
    exact hs
  | cons l ls ih =>
    intro s t hs h
    rw [hcons] at h
    obtain ⟨u, hu, h⟩ := Option.bind_eq_some_iff.1 h
    have hstep := hexec s u l List.mem_cons_self hu
    exact ih (fun s t l hl => hexec s t l (List.mem_cons_of_mem _ hl)) (.next hs hstep) h

end Reaches

/-! ## Runs with their labels -/

/-- `Run step s ls t`: from `s`, answering the labels `ls` in order, to `t`. -/
inductive Run (step : σ → ℓ → σ → Prop) : σ → List ℓ → σ → Prop where
  /-- the empty run -/
  | nil (s : σ) : Run step s [] s
  /-- one more step at the end -/
  | snoc {s t u : σ} {ls : List ℓ} {l : ℓ} :
      Run step s ls t → step t l u → Run step s (ls ++ [l]) u

namespace Run

variable {step : σ → ℓ → σ → Prop}

/-- A run of one step. -/
theorem single {s t : σ} {l : ℓ} (h : step s l t) : Run step s [l] t :=
  .snoc (.nil s) h

/-- Runs compose. -/
theorem trans {s t u : σ} {ls ls' : List ℓ} (h : Run step s ls t) (h' : Run step t ls' u) :
    Run step s (ls ++ ls') u := by
  induction h' with
  | nil => rwa [List.append_nil]
  | snoc _ hstep ih =>
    rw [← List.append_assoc]
    exact .snoc ih hstep

/-- The last step of a run. -/
theorem last {s u : σ} {ls : List ℓ} {l : ℓ} (h : Run step s (ls ++ [l]) u) :
    ∃ t, Run step s ls t ∧ step t l u := by
  generalize hls : ls ++ [l] = ls' at h
  cases h with
  | nil => exact absurd hls (by simp)
  | snoc hrun hstep =>
    obtain ⟨rfl, hl⟩ := List.append_inj' hls rfl
    obtain rfl := List.singleton_inj.1 hl
    exact ⟨_, hrun, hstep⟩

/-- A step in the middle of a run. -/
theorem step_at {s u : σ} {before after : List ℓ} {l : ℓ} (h : Run step s (before ++ l :: after) u) :
    ∃ t t', Run step s before t ∧ step t l t' ∧ Run step t' after u := by
  induction after using List.reverseRecOn generalizing u with
  | nil =>
    obtain ⟨t, hrun, hstep⟩ := h.last
    exact ⟨t, u, hrun, hstep, .nil u⟩
  | append_singleton after l' ih =>
    rw [← List.cons_append, ← List.append_assoc] at h
    obtain ⟨v, hrun, hlast⟩ := h.last
    obtain ⟨t, t', hbefore, hstep, hafter⟩ := ih hrun
    exact ⟨t, t', hbefore, hstep, .snoc hafter hlast⟩

/-- A run from a reachable state ends in one. -/
theorem extends_reaches {init : σ → Prop} {s t : σ} {ls : List ℓ} (h : Run step s ls t)
    (hs : Reaches step init s) : Reaches step init t := by
  induction h with
  | nil => exact hs
  | snoc _ h ih => exact .next ih h

/-- The invariant rule for a run that starts anywhere. -/
theorem invariant {I : σ → Prop} (hstep : ∀ s l t, I s → step s l t → I t)
    {s t : σ} {ls : List ℓ} (h : Run step s ls t) (hs : I s) : I t := by
  induction h with
  | nil => exact hs
  | snoc _ h ih => exact hstep _ _ _ ih h

/-- **The simulation rule.** Where each step from a related state is a run of the abstract steps
that `f` names, so is each run. -/
theorem simulates {τ : Type*} {ℓ' : Type*} {step' : τ → ℓ' → τ → Prop} {R : σ → τ → Prop}
    {f : ℓ → List ℓ'}
    (hstep : ∀ s l t a, R s a → step s l t → ∃ b, Run step' a (f l) b ∧ R t b) {s t : σ} {a : τ}
    {ls : List ℓ} (h : Run step s ls t) (hs : R s a) : ∃ b, Run step' a (ls.flatMap f) b ∧ R t b := by
  induction h with
  | nil => exact ⟨a, .nil a, hs⟩
  | snoc _ h ih =>
    obtain ⟨b, hrun, hb⟩ := ih
    obtain ⟨b', hrun', hb'⟩ := hstep _ _ _ _ hb h
    refine ⟨b', ?_, hb'⟩
    rw [List.flatMap_append, List.flatMap_singleton]
    exact hrun.trans hrun'

end Run

end DeviceModel

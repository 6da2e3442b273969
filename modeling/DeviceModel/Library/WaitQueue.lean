import Mathlib.Data.List.Basic

/-!
# Queues whose elements wait for earlier ones

An element of such a queue has a key, may be blocked, and then wants some key. It
waits for an element *before* it that has the key it wants. `Witnessed` says that
every blocked element still has one. So the first element is never blocked, and a
queue that is served from the first unblocked element is served in order.

The server takes an element out and releases the elements that want its key
(`Witnessed.release`). It need not know whether another holder of the key is left.
-/

namespace DeviceModel

section

variable {α κ : Type*} (key wants : α → κ) (blocked : α → Prop)

/-- Each blocked element of `q` wants the key of an element before it: one of `q`, or
one of `pre`, which goes before `q`. -/
def Witnessed : List α → List α → Prop
  | _, [] => True
  | pre, e :: q => (blocked e → ∃ w ∈ pre, key w = wants e) ∧ Witnessed (pre ++ [e]) q

variable {key wants blocked}

theorem witnessed_append {q : List α} : ∀ {pre r : List α},
    Witnessed key wants blocked pre (q ++ r) ↔
      Witnessed key wants blocked pre q ∧ Witnessed key wants blocked (pre ++ q) r := by
  induction q with
  | nil =>
    intro pre r
    rw [List.nil_append, List.append_nil]
    exact ⟨fun h => ⟨trivial, h⟩, fun h => h.2⟩
  | cons e q ih =>
    intro pre r
    rw [List.cons_append, Witnessed, Witnessed, ih, and_assoc, List.append_assoc]
    rfl

/-- A new element may be blocked if it finds the key it wants. -/
theorem Witnessed.snoc {pre q : List α} {e : α} (h : Witnessed key wants blocked pre q)
    (he : blocked e → ∃ w ∈ pre ++ q, key w = wants e) :
    Witnessed key wants blocked pre (q ++ [e]) :=
  witnessed_append.2 ⟨h, he, trivial⟩

/-- Where nothing goes before the queue, its first element is not blocked. -/
theorem Witnessed.head_not_blocked {e : α} {q : List α}
    (h : Witnessed key wants blocked [] (e :: q)) : ¬ blocked e := by
  intro hb
  obtain ⟨w, hw, -⟩ := h.1 hb
  exact absurd hw List.not_mem_nil

theorem Witnessed.congr_wants {wants' : α → κ} {q : List α} : ∀ {pre : List α},
    Witnessed key wants blocked pre q → (∀ e ∈ q, blocked e → wants' e = wants e) →
      Witnessed key wants' blocked pre q := by
  induction q with
  | nil => intro _ _ _; trivial
  | cons e q ih =>
    intro pre h heq
    refine ⟨fun hb => ?_, ih h.2 fun x hx => heq x (List.mem_cons_of_mem e hx)⟩
    rw [heq e List.mem_cons_self hb]
    exact h.1 hb

theorem Witnessed.congr_pre {q : List α} : ∀ {pre pre' : List α},
    Witnessed key wants blocked pre q → (∀ w ∈ pre, ∃ w' ∈ pre', key w' = key w) →
      Witnessed key wants blocked pre' q := by
  induction q with
  | nil => intro _ _ _ _; trivial
  | cons e q ih =>
    intro pre pre' h hpre
    refine ⟨fun hb => ?_, ih h.2 ?_⟩
    · obtain ⟨w, hw, hk⟩ := h.1 hb
      obtain ⟨w', hw', hk'⟩ := hpre w hw
      exact ⟨w', hw', hk'.trans hk⟩
    · intro w hw
      rcases List.mem_append.1 hw with hw | hw
      · obtain ⟨w', hw', hk'⟩ := hpre w hw
        exact ⟨w', List.mem_append_left _ hw', hk'⟩
      · exact ⟨w, List.mem_append_right _ hw, rfl⟩

/-- Elements before the queue may be exchanged for others with the same keys, as long
as `f` releases the elements that want a key that is lost. -/
theorem Witnessed.map {f : α → α} (lost : κ → Prop) (hkey : ∀ e, key (f e) = key e)
    (hwants : ∀ e, wants (f e) = wants e)
    (hf : ∀ e, blocked (f e) → blocked e ∧ ¬ lost (wants e)) {q : List α} :
    ∀ {pre pre' : List α},
      (∀ w ∈ pre, lost (key w) ∨ ∃ w' ∈ pre', key w' = key w) →
      Witnessed key wants blocked pre q → Witnessed key wants blocked pre' (q.map f) := by
  induction q with
  | nil => intro _ _ _ _; trivial
  | cons e q ih =>
    intro pre pre' hpre h
    refine ⟨?_, ih ?_ h.2⟩
    · intro hb
      obtain ⟨hb, hlost⟩ := hf e hb
      obtain ⟨w, hw, hkw⟩ := h.1 hb
      rcases hpre w hw with hl | ⟨w', hw', hkw'⟩
      · exact absurd (hkw ▸ hl) hlost
      · exact ⟨w', hw', by rw [hkw', hkw, hwants]⟩
    · intro w hw
      rcases List.mem_append.1 hw with hw | hw
      · exact (hpre w hw).imp_right fun ⟨w', hw', hk⟩ => ⟨w', List.mem_append_left _ hw', hk⟩
      · rw [List.mem_singleton] at hw
        subst hw
        exact .inr ⟨f w, List.mem_append_right _ (List.mem_singleton_self _), hkey w⟩

/-- **Release.** Take `x` out of the queue and release, with `f`, the elements that
want its key. -/
theorem Witnessed.release {f : α → α} {x : α} (hkey : ∀ e, key (f e) = key e)
    (hwants : ∀ e, wants (f e) = wants e)
    (hf : ∀ e, blocked (f e) → blocked e ∧ ¬ wants e = key x) {q r : List α}
    (h : Witnessed key wants blocked [] (q ++ x :: r)) :
    Witnessed key wants blocked [] ((q ++ r).map f) := by
  obtain ⟨hq, -, hr⟩ := witnessed_append.1 h
  rw [List.map_append]
  refine witnessed_append.2 ⟨?_, ?_⟩
  · exact hq.map (· = key x) hkey hwants hf (fun w hw => absurd hw List.not_mem_nil)
  · refine hr.map (· = key x) hkey hwants hf ?_
    intro w hw
    rw [List.nil_append, List.mem_append, List.mem_singleton] at hw
    rcases hw with hw | rfl
    · refine .inr ⟨f w, ?_, hkey w⟩
      exact List.mem_append_right _ (List.mem_map_of_mem hw)
    · exact .inl rfl

end

end DeviceModel

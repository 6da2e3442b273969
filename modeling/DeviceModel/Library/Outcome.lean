import Mathlib.Algebra.Group.Nat.Defs
import Mathlib.Logic.Basic

/-!
# Outcomes of a C function

A function of the source either returns or stops the program. `Stop` names the
ways to stop, and a modelled function returns `Except Stop α`. Loops that need
not end take a number of iterations and stop with `outOfFuel` when it is used
up: "the loop ends" is `∃ fuel`, "it never ends" is `∀ fuel`.
-/

namespace DeviceModel

universe u

/-- The ways a C function can fail to return. -/
inductive Stop : Type where
  /-- an `assert` that is false, with the text of its expression -/
  | assertion (expr : String)
  /-- a call of `panic` -/
  | panic
  /-- an access or an operation the language gives no meaning -/
  | undefined
  /-- the iterations granted to a loop were not enough -/
  | outOfFuel
  deriving DecidableEq, Repr

namespace Except

variable {ε α β : Type u}

/-- Inversion for `bind`: a sequence returns when both parts do. -/
theorem bind_eq_ok {m : Except ε α} {f : α → Except ε β} {b : β} :
    (m >>= f) = .ok b ↔ ∃ a, m = .ok a ∧ f a = .ok b := by
  cases m with
  | error e => simp [bind, Except.bind]
  | ok a => simp [bind, Except.bind]

/-- Introduction for `bind`. -/
theorem bind_ok {m : Except ε α} {f : α → Except ε β} {a : α} (h : m = .ok a) :
    (m >>= f) = f a := by
  rw [h]
  rfl

end Except

/-- `assert (expr)`, where `b` is the value of the expression. -/
def assert (expr : String) (b : Bool) : Except Stop Unit :=
  if b then .ok () else .error (.assertion expr)

@[simp] theorem assert_eq_ok {expr : String} {b : Bool} {u : Unit} :
    assert expr b = .ok u ↔ b = true := by
  cases b <;> simp [assert]

/-- An assertion at the end of a function that otherwise returns. -/
theorem assert_bind {α : Type} (expr : String) (b : Bool) (a : α) :
    (assert expr b >>= fun _ => Except.ok a) =
      if b then .ok a else .error (.assertion expr) := by
  cases b <;> rfl

/-- A division of numbers, which has no meaning if the divisor is 0. -/
def divide (a b : Nat) : Except Stop Nat := if b = 0 then .error .undefined else .ok (a / b)

theorem divide_of_pos (a : Nat) {b : Nat} (h : 0 < b) : divide a b = .ok (a / b) :=
  if_neg (Nat.ne_of_gt h)

/-- A result in a signed type of `w` bits, which has no meaning if it does not fit. -/
def signed (w n : Nat) : Except Stop Nat :=
  if n < 2 ^ (w - 1) then .ok n else .error .undefined

theorem signed_of_lt {w n : Nat} (h : n < 2 ^ (w - 1)) : signed w n = .ok n := if_pos h

/-- The value of a call that returned, for runs on concrete inputs. -/
def outcome {α : Type u} (m : Except Stop α) (default : α) : α :=
  match m with
  | .ok a => a
  | .error _ => default

theorem eq_ok_outcome {α : Type u} {m : Except Stop α} {default : α} (h : m.isOk = true) :
    m = .ok (outcome m default) := by
  cases m with
  | ok a => rfl
  | error e => cases h

/-- Whether a function returned. -/
def Returns {α : Type u} (m : Except Stop α) : Prop := ∃ a, m = .ok a

/-- A sequence returns when the first part does and the second does after it. -/
theorem Returns.bind {α β : Type u} {m : Except Stop α} {f : α → Except Stop β} {a : α}
    (hm : m = .ok a) (hf : Returns (f a)) : Returns (m >>= f) := by
  rw [hm]
  exact hf

/-! ## Postconditions -/

/-- A function returns a value that satisfies `Q`, or it stops in an allowed way. -/
def Ensures {α : Type u} (allowed : Stop → Prop) (Q : α → Prop) : Except Stop α → Prop
  | .ok a => Q a
  | .error e => allowed e

namespace Ensures

variable {α β : Type u} {allowed : Stop → Prop} {P Q : α → Prop} {R : β → Prop}
  {m : Except Stop α}

theorem ok {a : α} (h : Q a) : Ensures allowed Q (.ok a) := h

theorem error {e : Stop} (h : allowed e) : Ensures allowed Q (.error e) := h

/-- A sequence: what the first part ensures is what the second may rely on. -/
theorem bind {f : α → Except Stop β} (hm : Ensures allowed P m)
    (hf : ∀ a, P a → Ensures allowed R (f a)) : Ensures allowed R (m >>= f) := by
  cases m with
  | error e => exact hm
  | ok a => exact hf a hm

theorem map {f : α → β} (hm : Ensures allowed P m) (hf : ∀ a, P a → R (f a)) :
    Ensures allowed R (m.map f) := by
  cases m with
  | error e => exact hm
  | ok a => exact hf a hm

theorem mono (hm : Ensures allowed P m) (h : ∀ a, P a → Q a) : Ensures allowed Q m := by
  cases m with
  | error e => exact hm
  | ok a => exact h a hm

/-- More stops are allowed. -/
theorem allow {allowed' : Stop → Prop} (hm : Ensures allowed Q m)
    (h : ∀ e, allowed e → allowed' e) : Ensures allowed' Q m := by
  cases m with
  | error e => exact h e hm
  | ok a => exact hm

/-- An assertion whose failure is allowed. -/
theorem assert {expr : String} {b : Bool} (h : b = false → allowed (.assertion expr)) :
    Ensures allowed (fun _ => b = true) (DeviceModel.assert expr b) := by
  cases b with
  | true => exact rfl
  | false => exact h rfl

theorem of_ok (hm : Ensures allowed Q m) {a : α} (h : m = .ok a) : Q a := by
  rw [h] at hm
  exact hm

theorem of_error (hm : Ensures allowed Q m) {e : Stop} (h : m = .error e) : allowed e := by
  rw [h] at hm
  exact hm

end Ensures

/-- What holds where a function returns. -/
abbrev IfReturns {α : Type u} (Q : α → Prop) (m : Except Stop α) : Prop := Ensures (fun _ => True) Q m

theorem ifReturns_iff {α : Type u} {Q : α → Prop} {m : Except Stop α} :
    IfReturns Q m ↔ ∀ a, m = .ok a → Q a := by
  constructor
  · intro h a ha
    exact h.of_ok ha
  · intro h
    cases m with
    | error e => exact trivial
    | ok a => exact h a rfl

end DeviceModel

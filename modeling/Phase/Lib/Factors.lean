import Mathlib.Data.Option.Basic

/-! What a function shows of its argument: it factors through another one when it shows no more
than that one, and so do the functions built from it on lists and options. -/
namespace Factors
open Function
variable {α β γ : Type*} {f : α → γ} {g : α → β}

theorem option_bind {f : α → Option γ} (factors : f.FactorsThrough g) :
    (Option.bind · f).FactorsThrough (Option.map g) := by
  intro x y same
  cases x with
  | none =>
    cases y with
    | none => rfl
    | some y => cases same
  | some x =>
    cases y with
    | none => cases same
    | some y => exact factors (Option.some.inj same)

theorem option_map (factors : f.FactorsThrough g) : (Option.map f).FactorsThrough (Option.map g) := by
  intro x y same
  simp only [Option.map_eq_bind]
  exact option_bind (factors.comp_left some) same

theorem list_getElem? (i : Nat) :
    (fun xs : List α => (xs[i]?).map g).FactorsThrough (List.map g) := by
  intro xs ys same
  simpa only [List.getElem?_map] using congrArg (·[i]?) same

theorem list_length : (List.length : List α → Nat).FactorsThrough (List.map g) := by
  intro xs ys same
  simpa only [List.length_map] using congrArg List.length same

end Factors

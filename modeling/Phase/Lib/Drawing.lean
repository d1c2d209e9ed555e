import Mathlib.Data.List.Basic

/-! Computations that draw numbers and may fail: the results they can have. -/
namespace Drawing

/-- The numbers that will be drawn, before they are cut to a bound. -/
abbrev Rolls := Nat → Nat

abbrev Draw := StateT Rolls Option

/-- A number below the bound; drawing one below zero fails. -/
def below (bound : Nat) : Draw Nat := fun rolls =>
  if bound = 0 then none else some (rolls 0 % bound, fun k => rolls (k + 1))

def repeated {α : Type} (d : Draw α) : Nat → Draw (List α)
  | 0 => pure []
  | count + 1 => do
      let a ← d
      let rest ← repeated d count
      return a :: rest

/-- `d` never fails, and its results are those of `A`: each of them comes up, and whatever is to be
drawn later may follow it. -/
structure Draws {α : Type} (d : Draw α) (A : α → Prop) : Prop where
  safe : ∀ rolls, ∃ a later, d rolls = some (a, later) ∧ A a
  every : ∀ a, A a → ∀ later, ∃ rolls, d rolls = some (a, later)

/-- Some numbers make `d` fail. -/
def Fails {α : Type} (d : Draw α) : Prop := ∃ rolls, d rolls = none

section
variable {α β : Type} {d : Draw α} {f : α → Draw β} {A : α → Prop} {B : α → β → Prop}

theorem Draws.some_result (draws : Draws d A) : ∃ a, A a := by
  obtain ⟨a, -, -, drawn⟩ := draws.safe fun _ => 0
  exact ⟨a, drawn⟩

theorem Draws.congr {A' : α → Prop} (draws : Draws d A) (same : ∀ a, A a ↔ A' a) : Draws d A' := by
  obtain rfl : A = A' := funext fun a => propext (same a)
  exact draws

theorem bind_some {rolls between : Rolls} {a : α} (first : d rolls = some (a, between)) :
    (d >>= f) rolls = f a between := by
  show (d rolls).bind _ = _
  rw [first]
  rfl

theorem bind_none {rolls : Rolls} (failed : d rolls = none) : (d >>= f) rolls = none := by
  show (d rolls).bind _ = _
  rw [failed]
  rfl

theorem draws_pure (a : α) : Draws (pure a) fun b => b = a where
  safe := fun rolls => ⟨a, rolls, rfl, rfl⟩
  every := fun _ same later => ⟨later, by rw [same]; rfl⟩

theorem draws_lift {o : Option α} {a : α} (found : o = some a) :
    Draws (liftM o : Draw α) fun b => o = some b := by
  subst found
  exact (draws_pure a).congr fun b => by rw [Option.some.injEq, eq_comm]

theorem fails_lift {o : Option α} (missing : o = none) : Fails (liftM o : Draw α) := by
  subst missing
  exact ⟨fun _ => 0, rfl⟩

theorem draws_below {bound : Nat} (some_ : 0 < bound) : Draws (below bound) (· < bound) where
  safe := fun rolls => ⟨_, _, if_neg (Nat.ne_of_gt some_), Nat.mod_lt _ some_⟩
  every := by
    intro roll small later
    refine ⟨fun k => if k = 0 then roll else later (k - 1), (if_neg (Nat.ne_of_gt some_)).trans ?_⟩
    simp [Nat.mod_eq_of_lt small]

theorem fails_below_zero : Fails (below 0) := ⟨fun _ => 0, rfl⟩

theorem Draws.bind (first : Draws d A) (second : ∀ a, A a → Draws (f a) (B a)) :
    Draws (d >>= f) fun b => ∃ a, A a ∧ B a b where
  safe := by
    intro rolls
    obtain ⟨a, between, result, drawn⟩ := first.safe rolls
    obtain ⟨b, later, result', drawn'⟩ := (second a drawn).safe between
    exact ⟨b, later, (bind_some result).trans result', a, drawn, drawn'⟩
  every := by
    rintro b ⟨a, drawn, drawn'⟩ later
    obtain ⟨between, result'⟩ := (second a drawn).every b drawn' later
    obtain ⟨rolls, result⟩ := first.every a drawn between
    exact ⟨rolls, (bind_some result).trans result'⟩

theorem Draws.map (draws : Draws d A) (g : α → β) :
    Draws (do let a ← d; return g a) fun b => ∃ a, A a ∧ b = g a :=
  draws.bind fun a _ => draws_pure (g a)

theorem Fails.bind (failed : Fails d) : Fails (d >>= f) := by
  obtain ⟨rolls, result⟩ := failed
  exact ⟨rolls, bind_none result⟩

theorem Draws.bind_fails (draws : Draws d A) {a : α} (drawn : A a) (failed : Fails (f a)) :
    Fails (d >>= f) := by
  obtain ⟨between, result'⟩ := failed
  obtain ⟨rolls, result⟩ := draws.every a drawn between
  exact ⟨rolls, (bind_some result).trans result'⟩

theorem Draws.repeated (draws : Draws d A) (count : Nat) :
    Draws (repeated d count) fun xs => xs.length = count ∧ ∀ x ∈ xs, A x := by
  induction count with
  | zero =>
    refine (draws_pure []).congr fun xs => ⟨?_, fun drawn => List.length_eq_zero_iff.mp drawn.1⟩
    rintro rfl
    exact ⟨rfl, fun _ inside => (nomatch inside)⟩
  | succ count ih =>
    refine (draws.bind fun a _ => ih.map fun rest => a :: rest).congr fun xs => ?_
    constructor
    · rintro ⟨a, drawn, rest, ⟨rfl, others⟩, rfl⟩
      exact ⟨rfl, List.forall_mem_cons.mpr ⟨drawn, others⟩⟩
    · rintro ⟨length, all⟩
      cases xs with
      | nil => cases length
      | cons a rest =>
        obtain ⟨drawn, others⟩ := List.forall_mem_cons.mp all
        exact ⟨a, drawn, rest, ⟨Nat.succ.inj length, others⟩, rfl⟩

theorem Fails.repeated (failed : Fails d) {count : Nat} (some_ : 0 < count) :
    Fails (repeated d count) := by
  cases count with
  | zero => cases some_
  | succ count => exact failed.bind

end

end Drawing

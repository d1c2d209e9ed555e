/-! Peeling apart computations that may refuse, and rerunning a transcript of them. -/
namespace Fallible
open List

variable {ε α β : Type}

variable {f : α → Except ε β} {x : Except ε α} {b : β} {xs : List α}

theorem bind_eq_ok : (x >>= f) = .ok b ↔ ∃ a, x = .ok a ∧ f a = .ok b := by
  cases x with
  | error e => simp [bind, Except.bind]
  | ok a => simp [bind, Except.bind]

variable {e : ε}

theorem bind_eq_error : (x >>= f) = .error e ↔ x = .error e ∨ ∃ a, x = .ok a ∧ f a = .error e := by
  cases x with
  | error e => simp [bind, Except.bind]
  | ok a => simp [bind, Except.bind]

theorem map_eq_ok {f : α → β} : x.map f = .ok b ↔ ∃ a, x = .ok a ∧ f a = b := by
  cases x with
  | error e => simp [Except.map]
  | ok a => simp [Except.map]

theorem mapError_ok {δ : Type} (a : α) (f : ε → δ) : (Except.ok a).mapError f = .ok a := rfl

variable {c : Prop}

section
variable [Decidable c] {x : Except ε β}

/-- A guard at the head of a `do` block. -/
theorem guard_eq_ok : (if c then throw e >>= f else x) = .ok b ↔ ¬c ∧ x = .ok b := by
  by_cases h : c
  · simp [h, throw, throwThe, MonadExceptOf.throw, bind, Except.bind]
  · simp [h]

theorem ite_throw_eq_ok : (if c then throw e else x) = .ok b ↔ ¬c ∧ x = .ok b := by
  by_cases h : c
  · simp [h, throw, throwThe, MonadExceptOf.throw]
  · simp [h]

theorem ite_error_eq_ok : (if c then .error e else x) = .ok b ↔ ¬c ∧ x = .ok b := by
  by_cases h : c <;> simp [h]

end

theorem pure_eq_ok {a b : α} : (pure a : Except ε α) = .ok b ↔ a = b :=
  ⟨Except.ok.inj, congrArg Except.ok⟩

/-- `expect` of an absent value panics with its message. -/
def expect (message : ε) : Option α → Except ε α
  | some a => .ok a
  | none => .error message

@[simp] theorem expect_some (message : ε) (a : α) : expect message (some a) = .ok a := rfl

@[simp] theorem ok_bind (a : α) (f : α → Except ε β) : (Except.ok a >>= f) = f a := rfl

theorem mapM_eq_ok {g : α → β} (each : ∀ x ∈ xs, f x = .ok (g x)) : xs.mapM f = .ok (xs.map g) := by
  induction xs with
  | nil => rfl
  | cons x xs ih =>
    rw [mapM_cons, each x mem_cons_self, ih fun y hy => each y (mem_cons_of_mem x hy)]
    rfl

theorem forM_eq_ok {f : α → Except ε Unit} : xs.forM f = .ok () ↔ ∀ x ∈ xs, f x = .ok () := by
  induction xs with
  | nil => simp [pure, Except.pure]
  | cons x xs ih =>
    rw [forM_eq_forM, forM_cons, bind_eq_ok, forall_mem_cons, ← ih]
    constructor
    · rintro ⟨⟨⟩, first, rest⟩
      exact ⟨first, rest⟩
    · rintro ⟨first, rest⟩
      exact ⟨(), first, rest⟩

/-- A fold of partial calls that succeeds has a result for every element. -/
theorem exists_of_mapM_eq_some {f : α → Option β} {ys : List β} (h : xs.mapM f = some ys) {x : α}
    (mem : x ∈ xs) : ∃ y ∈ ys, f x = some y := by
  induction xs generalizing ys with
  | nil => cases mem
  | cons x' xs ih =>
    simp only [mapM_cons, Option.bind_eq_bind, Option.bind_eq_some_iff, Option.pure_def,
      Option.some.injEq] at h
    obtain ⟨y, here, rest, later, rfl⟩ := h
    rcases mem_cons.mp mem with rfl | mem
    · exact ⟨y, mem_cons_self, here⟩
    · obtain ⟨z, inside, result⟩ := ih later mem
      exact ⟨z, mem_cons_of_mem y inside, result⟩

variable {bad : ε → Prop}

/-- A computation that never fails in a bad way. -/
def Avoids (bad : ε → Prop) (x : Except ε α) : Prop := ∀ e, x = .error e → ¬bad e

theorem avoids_of_ok {a : α} (h : x = .ok a) : Avoids bad x := by
  intro e failed
  rw [h] at failed
  cases failed

theorem avoids_ok (a : α) : Avoids bad (.ok a : Except ε α) := avoids_of_ok rfl

theorem avoids_error (h : ¬bad e) : Avoids bad (.error e : Except ε α) := by
  intro e' same
  cases same
  exact h

theorem Avoids.bind (first : Avoids bad x) (then_ : ∀ a, x = .ok a → Avoids bad (f a)) :
    Avoids bad (x >>= f) := by
  cases x with
  | error e =>
    intro e' failed
    cases failed
    exact first e rfl
  | ok a => exact then_ a rfl

theorem Avoids.map (f : α → β) (h : Avoids bad x) : Avoids bad (x.map f) := by
  cases x with
  | error e =>
    intro e' failed
    cases failed
    exact h e rfl
  | ok a => exact avoids_ok _

theorem avoids_ite [Decidable c] {y : Except ε α} (yes : c → Avoids bad x)
    (no : ¬c → Avoids bad y) : Avoids bad (if c then x else y) := by
  by_cases h : c
  · rw [if_pos h]
    exact yes h
  · rw [if_neg h]
    exact no h

theorem avoids_guard [Decidable c] {x : Except ε β} (fine : ¬bad e) (rest : ¬c → Avoids bad x) :
    Avoids bad (if c then throw e >>= f else x) :=
  avoids_ite (fun _ => avoids_error fine) rest

end Fallible

/-! ## Rerunning a transcript

A state that is rebuilt from its start with every entry, the new one last, is the state at hand with
the new entry alone. -/
namespace Rerun

variable {S A ε : Type}

/-- Every entry in order, until one of them fails the run. -/
def rerun (act : S → A → Except ε (Option S)) (start : S) : List A → Except ε (Option S)
  | [] => .ok (some start)
  | entry :: entries => do
      match ← act start entry with
      | none => return none
      | some next => rerun act next entries

theorem rerun_snoc {act : S → A → Except ε (Option S)} {start reached : S} {entries : List A}
    (here : rerun act start entries = .ok (some reached)) (entry : A) :
    rerun act start (entries ++ [entry]) = act reached entry := by
  induction entries generalizing start with
  | nil =>
    obtain rfl : start = reached := Option.some.inj (Except.ok.inj here)
    show (act start entry >>= _) = act start entry
    cases act start entry with
    | error e => rfl
    | ok next => cases next <;> rfl
  | cons first entries ih =>
    obtain ⟨next, acted, rest⟩ := Fallible.bind_eq_ok.mp here
    show (act start first >>= _) = _
    rw [acted]
    cases next with
    | none => cases rest
    | some next => exact ih rest

end Rerun

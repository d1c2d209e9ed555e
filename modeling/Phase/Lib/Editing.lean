import Mathlib.Data.List.Basic

/-! Calls that edit a state in place and may stop midway, with the state as it then is. -/
namespace Editing

variable {ε σ α : Type}

/-- How a call ends: with `Q` when it succeeds, with `E` when it stops. -/
def Ends (Q : α → σ → Prop) (E : ε → σ → Prop) : EStateM.Result ε σ α → Prop
  | .ok a t => Q a t
  | .error e t => E e t

/-- The state a call leaves, whether it succeeds or stops. -/
def after (call : EStateM ε σ α) (s : σ) : σ :=
  match call.run s with
  | .ok _ t | .error _ t => t

/-- The state a run of calls leaves: a call that stops ends nothing but itself. -/
def afterAll (calls : List (EStateM ε σ α)) (s : σ) : σ :=
  calls.foldl (fun t call => after call t) s

variable {Q : α → σ → Prop} {E : ε → σ → Prop} {call : EStateM ε σ α} {s t : σ}

theorem Ends.ok (h : Ends Q E (call.run s)) {a : α} (done : call.run s = .ok a t) : Q a t := by
  rw [done] at h
  exact h

theorem Ends.error (h : Ends Q E (call.run s)) {e : ε} (stopped : call.run s = .error e t) :
    E e t := by
  rw [stopped] at h
  exact h

theorem Ends.after {I : σ → Prop} (h : Ends Q E (call.run s)) (ok : ∀ a t, Q a t → I t)
    (error : ∀ e t, E e t → I t) : I (after call s) := by
  unfold Editing.after
  cases ended : call.run s with
  | ok a t => exact ok a t (h.ok ended)
  | error e t => exact error e t (h.error ended)

theorem afterAll_induction {I : σ → Prop} {calls : List (EStateM ε σ α)}
    (step : ∀ call ∈ calls, ∀ s, I s → I (after call s)) (start : I s) :
    I (afterAll calls s) := by
  induction calls generalizing s with
  | nil => exact start
  | cons call calls ih =>
    exact ih (fun next mem => step next (List.mem_cons_of_mem _ mem))
      (step call List.mem_cons_self s start)

/-! ## Refusals

A call may stop by refusing, or otherwise; only a refusal is held to where it leaves the
state. -/

variable {β : Type} {refusal : ε → Prop} {R : σ → σ → Prop}

/-- Wherever the call succeeds or refuses, it has moved the state along `R` only. -/
def Steady (refusal : ε → Prop) (R : σ → σ → Prop) (call : EStateM ε σ α) : Prop :=
  ∀ s, Ends (fun _ t => R s t) (fun e t => refusal e → R s t) (call.run s)

/-- Wherever the call refuses, it has moved the state along `R` only. -/
def Atomic (refusal : ε → Prop) (R : σ → σ → Prop) (call : EStateM ε σ α) : Prop :=
  ∀ s, Ends (fun _ _ => True) (fun e t => refusal e → R s t) (call.run s)

/-- The call never refuses. -/
def Granted (refusal : ε → Prop) (call : EStateM ε σ α) : Prop :=
  ∀ s, Ends (fun _ _ => True) (fun e _ => ¬refusal e) (call.run s)

theorem Ends.mono {r : EStateM.Result ε σ α} {Q' : α → σ → Prop} {E' : ε → σ → Prop}
    (h : Ends Q E r) (ok : ∀ a t, Q a t → Q' a t) (error : ∀ e t, E e t → E' e t) :
    Ends Q' E' r := by
  cases r with
  | ok a t => exact ok a t h
  | error e t => exact error e t h

variable {f : α → EStateM ε σ β}

/-- A call in sequence ends as its first part does, or as the second does from there. -/
theorem Ends.bind {Q' : β → σ → Prop} (first : Ends Q E (call.run s))
    (rest : ∀ a t, Q a t → Ends Q' E ((f a).run t)) : Ends Q' E ((call >>= f).run s) := by
  rw [EStateM.run_bind]
  cases ended : call.run s with
  | ok a t => exact rest a t (first.ok ended)
  | error e t => exact first.error ended

theorem Steady.atomic (h : Steady refusal R call) : Atomic refusal R call :=
  fun s => (h s).mono (fun _ _ _ => trivial) fun _ _ moved => moved

theorem Granted.atomic (h : Granted refusal call) : Atomic refusal R call :=
  fun s => (h s).mono (fun _ _ granted => granted) fun _ _ not refused => absurd refused not

theorem Steady.bind (trans : ∀ {a b c}, R a b → R b c → R a c) (first : Steady refusal R call)
    (rest : ∀ a, Steady refusal R (f a)) :
    Steady refusal R (call >>= f) := fun s =>
  Ends.bind (first s) fun a t moved =>
    (rest a t).mono (fun _ _ => trans moved) fun _ _ on refused => trans moved (on refused)

/-- Steady steps may come before a call that is atomic. -/
theorem Steady.then (trans : ∀ {a b c}, R a b → R b c → R a c) (first : Steady refusal R call)
    (rest : ∀ a, Atomic refusal R (f a)) :
    Atomic refusal R (call >>= f) := fun s =>
  Ends.bind (first s) fun a t moved =>
    (rest a t).mono (fun _ _ done => done) fun _ _ on refused => trans moved (on refused)

theorem Granted.bind (first : Granted refusal call) (rest : ∀ a, Granted refusal (f a)) :
    Granted refusal (call >>= f) := fun s =>
  Ends.bind (first s) fun a t _ => rest a t

theorem granted_pure (a : α) : Granted refusal (pure a : EStateM ε σ α) := fun _ => trivial

theorem granted_modify (f : σ → σ) : Granted refusal (modify f : EStateM ε σ PUnit) :=
  fun _ => trivial

theorem granted_get : Granted refusal (get : EStateM ε σ σ) := fun _ => trivial

theorem granted_set (s : σ) : Granted refusal (set s : EStateM ε σ PUnit) := fun _ => trivial

theorem granted_forM {f : α → EStateM ε σ PUnit} {xs : List α}
    (each : ∀ x, Granted refusal (f x)) : Granted refusal (xs.forM f) := by
  induction xs with
  | nil => exact granted_pure _
  | cons x xs ih => exact (each x).bind fun _ => ih

theorem steady_get (refl : ∀ s, R s s) : Steady refusal R (get : EStateM ε σ σ) := refl

theorem steady_pure (refl : ∀ s, R s s) (a : α) : Steady refusal R (pure a : EStateM ε σ α) := refl

theorem steady_throw (refl : ∀ s, R s s) (e : ε) :
    Steady refusal R (throw e : EStateM ε σ α) := fun s _ => refl s

theorem steady_modify {f : σ → σ} (moves : ∀ s, R s (f s)) :
    Steady refusal R (modify f : EStateM ε σ PUnit) := moves

end Editing

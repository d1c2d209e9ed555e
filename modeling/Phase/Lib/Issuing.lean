import Mathlib.Data.List.Basic

/-! Secrets issued to holders, the latest first, and none of them twice. -/
namespace Issuing

variable {Holder Item Secret : Type} {secret : Item → Secret} {ledger : Holder → List Item}

/-- No secret occurs in two places of the ledger. -/
def IssuedOnce (secret : Item → Secret) (ledger : Holder → List Item) : Prop :=
  ∀ ⦃h h' : Holder⦄ ⦃i j : Nat⦄ ⦃a b : Item⦄, (ledger h)[i]? = some a → (ledger h')[j]? = some b →
    secret a = secret b → h = h' ∧ i = j

def New (secret : Item → Secret) (ledger : Holder → List Item) (s : Secret) : Prop :=
  ∀ h, ∀ a ∈ ledger h, secret a ≠ s

/-- `item` becomes the latest of `h`. -/
def issue [DecidableEq Holder] (ledger : Holder → List Item) (h : Holder) (item : Item) :
    Holder → List Item :=
  Function.update ledger h (item :: ledger h)

/-- The secret of `h` that counts. -/
def Current (secret : Item → Secret) (ledger : Holder → List Item) (h : Holder) (s : Secret) :
    Prop :=
  ∃ latest, (ledger h).head? = some latest ∧ secret latest = s

/-- A secret of `h` that another one has replaced. -/
def Superseded (secret : Item → Secret) (ledger : Holder → List Item) (h : Holder)
    (s : Secret) : Prop :=
  ∃ old ∈ (ledger h).tail, secret old = s

theorem once_nil : IssuedOnce secret (fun _ : Holder => []) := by
  intro h h' i j a b first
  simp at first

theorem IssuedOnce.holder (once : IssuedOnce secret ledger) {h h' : Holder} {a b : Item}
    (first : a ∈ ledger h) (second : b ∈ ledger h') (same : secret a = secret b) : h = h' := by
  obtain ⟨i, there⟩ := List.mem_iff_getElem?.mp first
  obtain ⟨j, there'⟩ := List.mem_iff_getElem?.mp second
  exact (once there there' same).1

theorem IssuedOnce.not_current (once : IssuedOnce secret ledger) {h h' : Holder} {s : Secret}
    (superseded : Superseded secret ledger h s) : ¬Current secret ledger h' s := by
  rintro ⟨latest, first, same⟩
  obtain ⟨old, mem, rfl⟩ := superseded
  obtain ⟨i, there⟩ := List.mem_iff_getElem?.mp mem
  rw [List.getElem?_tail] at there
  rw [List.head?_eq_getElem?] at first
  exact absurd (once first there same).2 (Nat.succ_ne_zero i).symm

variable [DecidableEq Holder]

theorem issue_self (h : Holder) (item : Item) : issue ledger h item h = item :: ledger h :=
  Function.update_self h _ _

theorem issue_of_ne {h h' : Holder} (ne : h' ≠ h) (item : Item) :
    issue ledger h item h' = ledger h' :=
  Function.update_of_ne ne _ _

theorem issue_once (once : IssuedOnce secret ledger) {item : Item}
    (new : New secret ledger (secret item)) (h : Holder) :
    IssuedOnce secret (issue ledger h item) := by
  -- an entry of the new ledger is the new one, or an old one in its place
  have place : ∀ {k : Holder} {i : Nat} {a : Item}, (issue ledger h item k)[i]? = some a →
      (k = h ∧ i = 0 ∧ a = item) ∨
        ∃ i', (ledger k)[i']? = some a ∧ i = if k = h then i' + 1 else i' := by
    intro k i a there
    by_cases own : k = h
    · subst own
      rw [issue_self] at there
      cases i with
      | zero => exact .inl ⟨rfl, rfl, (Option.some.inj there).symm⟩
      | succ i => exact .inr ⟨i, there, by simp⟩
    · rw [issue_of_ne own] at there
      exact .inr ⟨i, there, by simp [own]⟩
  intro k k' i j a b first second same
  rcases place first with ⟨rfl, rfl, rfl⟩ | ⟨i', old, rfl⟩ <;>
    rcases place second with ⟨rfl, rfl, rfl⟩ | ⟨j', old', rfl⟩
  · exact ⟨rfl, rfl⟩
  · exact absurd same.symm (new k' b (List.mem_of_getElem? old'))
  · exact absurd same (new k a (List.mem_of_getElem? old))
  · obtain ⟨rfl, rfl⟩ := once old old' same
    exact ⟨rfl, rfl⟩

end Issuing

import Mathlib.Data.List.Basic

/-! Comparisons that read two values piece by piece, as words are looked up in a dictionary. -/
namespace Encoding
open Std

/-- A piece of a value: a number or a text. -/
structure Piece where
  value : Nat
  content : String

instance : Ord Piece := ⟨compareLex (compareOn Piece.value) (compareOn Piece.content)⟩

instance : TransOrd Piece :=
  inferInstanceAs (TransCmp (compareLex (compareOn Piece.value) (compareOn Piece.content)))

/-- How a value is written before what comes later. -/
abbrev Code := List Piece → List Piece

def number (n : Nat) : Code := List.cons ⟨n, ""⟩

def text (s : String) : Code := List.cons ⟨0, s⟩

/-- Two written values are told apart by their pieces as the ordering says, whatever comes later,
and where it says that they are equal they are the same. -/
structure Agree (code code' : Code) (order : Ordering) (same : Prop) : Prop where
  codes : ∀ later later', compare (code later) (code' later') = order.then (compare later later')
  same : order = .eq → same

/-- A value compared so with every other. -/
def Reads {α : Type} (code : α → Code) (cmp : α → α → Ordering) (a : α) : Prop :=
  ∀ b, Agree (code a) (code b) (cmp a b) (a = b)

theorem Agree.imp {code code' : Code} {order : Ordering} {same same' : Prop}
    (agree : Agree code code' order same) (more : same → same') : Agree code code' order same' :=
  ⟨agree.codes, more ∘ agree.same⟩

/-- Two values of one shape, written under a number for the shape. -/
theorem Agree.under {code code' : Code} {order : Ordering} {same same' : Prop} (shape : Nat)
    (agree : Agree code code' order same) (inside : same → same') :
    Agree (number shape ∘ code) (number shape ∘ code') order same' where
  codes later later' := by
    refine List.compare_cons_cons.trans ?_
    show ((compare shape shape).then .eq).then _ = _
    rw [ReflOrd.compare_self]
    exact agree.codes later later'
  same equal := inside (agree.same equal)

theorem Agree.append {code code' next next' : Code} {order order' : Ordering} {same same' : Prop}
    (first : Agree code code' order same) (second : Agree next next' order' same') :
    Agree (code ∘ next) (code' ∘ next') (order.then order') (same ∧ same') where
  codes later later' := by
    rw [Function.comp, Function.comp, first.codes, second.codes, Ordering.then_assoc]
  same equal := (Ordering.then_eq_eq.mp equal).imp first.same second.same

theorem reads_number (n : Nat) : Reads number compare n := fun m => by
  refine ⟨fun later later' => List.compare_cons_cons.trans ?_, LawfulEqOrd.eq_of_compare⟩
  show ((compare n m).then (compare "" "")).then _ = _
  rw [ReflOrd.compare_self, Ordering.then_eq]

theorem reads_rank {α : Type} (rank : α → Nat) (distinct : ∀ a b, rank a = rank b → a = b)
    (a : α) : Reads (number ∘ rank) (compareOn rank) a :=
  fun b => (reads_number (rank a) (rank b)).imp (distinct a b)

theorem reads_text (s : String) : Reads text compare s :=
  fun _ => ⟨fun _ _ => List.compare_cons_cons, LawfulEqOrd.eq_of_compare⟩

variable {α : Type} {code : α → Code} {cmp : α → α → Ordering}

def optional (code : α → Code) : Option α → Code
  | none => number 0
  | some a => number 1 ∘ code a

def each (code : α → Code) : List α → Code
  | [] => number 0
  | a :: as => number 1 ∘ code a ∘ each code as

theorem reads_optional [Ord α] (reads : ∀ a : α, Reads code compare a) :
    ∀ value, Reads (optional code) compare value
  | none, none => ⟨fun _ _ => rfl, fun _ => rfl⟩
  | some a, some b => (reads a b).under 1 (congrArg some)
  | none, some _ | some _, none => ⟨fun _ _ => rfl, nofun⟩

/-- Lists are compared element by element; where one ends first it is the smaller one. -/
theorem reads_each (reads : ∀ a : α, Reads code cmp a) :
    ∀ as, Reads (each code) (List.compareLex cmp) as
  | [], [] => ⟨fun _ _ => rfl, fun _ => rfl⟩
  | a :: as, b :: bs => by
    rw [List.compareLex_cons_cons]
    refine ((reads a b).append (reads_each reads as bs)).under 1 ?_
    rintro ⟨rfl, rfl⟩
    rfl
  | [], _ :: _ | _ :: _, [] => ⟨fun _ _ => rfl, nofun⟩

/-- A comparison that is read so is a total order in which only equal values are equal. -/
theorem total (reads : ∀ a, Reads code cmp a) (a b c : α) :
    cmp b a = (cmp a b).swap ∧
      ((cmp a b).isLE = true → (cmp b c).isLE = true → (cmp a c).isLE = true) ∧
      (cmp a b = .eq ↔ a = b) := by
  have read (a b : α) : cmp a b = compare (code a []) (code b []) :=
    ((reads a b).codes [] []).trans Ordering.then_eq |>.symm
  refine ⟨?_, fun first second => ?_, (reads a b).same, ?_⟩
  · rw [read, read]
    exact OrientedCmp.eq_swap
  · rw [read] at *
    exact TransCmp.isLE_trans first second
  · rintro rfl
    rw [read]
    exact ReflCmp.compare_self

end Encoding

import Mathlib.Data.List.Infix

/-! States that carry the branch they lie on, for systems that can go back to an earlier state
and continue from there. -/
namespace Branch
open List

/-- A state that was left, how and for which, and the time at which it had come about. -/
structure Moment (S L : Type) where
  state : S
  label : L
  after : S
  time : Nat
  deriving DecidableEq

/-- A state with the moments that led there, oldest first, and its time. -/
structure Traced (S L : Type) where
  now : S
  past : List (Moment S L)
  time : Nat
  deriving DecidableEq

variable {S L : Type} {a b c : Traced S L} {label : L}

def Traced.leave (pre : Traced S L) (label : L) (post : S) : List (Moment S L) :=
  pre.past ++ [⟨pre.now, label, post, pre.time⟩]

def Traced.move (pre : Traced S L) (label : L) (post : S) : Traced S L :=
  ⟨post, pre.leave label post, pre.time + 1⟩

/-- Goes on from an earlier state, in place of a later one. -/
def Traced.resume (target replaced : Traced S L) (label : L) (post : S) : Traced S L :=
  ⟨post, target.leave label post, replaced.time + 1⟩

/-- The branch of `b` passes through `a`, which it leaves in this way. -/
def LeftBy (label : L) (a b : Traced S L) : Prop := ∃ post, a.leave label post <+: b.past

def Before (a b : Traced S L) : Prop := ∃ label, LeftBy label a b

def OnBranch (a b : Traced S L) : Prop := a = b ∨ Before a b

theorem leftBy_move (pre : Traced S L) (label : L) (post : S) :
    LeftBy label pre (pre.move label post) :=
  ⟨post, prefix_rfl⟩

theorem leftBy_resume (target replaced : Traced S L) (label : L) (post : S) :
    LeftBy label target (target.resume replaced label post) :=
  ⟨post, prefix_rfl⟩

theorem LeftBy.length_lt (left : LeftBy label a b) : a.past.length < b.past.length := by
  obtain ⟨post, isPrefix⟩ := left
  have bound := isPrefix.length_le
  rw [Traced.leave, length_append, length_singleton] at bound
  omega

theorem OnBranch.length_le (on : OnBranch a b) : a.past.length ≤ b.past.length := by
  rcases on with rfl | ⟨label, left⟩
  · exact le_rfl
  · exact left.length_lt.le

theorem LeftBy.past_prefix (left : LeftBy label a b) : a.past <+: b.past := by
  obtain ⟨post, isPrefix⟩ := left
  exact (prefix_append _ _).trans isPrefix

theorem OnBranch.past_prefix (on : OnBranch a b) : a.past <+: b.past := by
  rcases on with rfl | ⟨label, left⟩
  · exact prefix_rfl
  · exact left.past_prefix

theorem LeftBy.trans (left : LeftBy label a b) (on : OnBranch b c) : LeftBy label a c :=
  left.imp fun _ isPrefix => isPrefix.trans on.past_prefix

theorem Before.trans (before : Before a b) (on : OnBranch b c) : Before a c :=
  before.imp fun _ left => left.trans on

theorem OnBranch.before (on : OnBranch a b) (before : Before b c) : Before a c := by
  rcases on with rfl | earlier
  · exact before
  · exact earlier.trans (.inr before)

/-- Of two states on one branch, the one with the shorter past is the earlier. -/
theorem LeftBy.of_length (left : LeftBy label a c) (on : OnBranch b c)
    (shorter : a.past.length < b.past.length) : LeftBy label a b := by
  obtain ⟨post, isPrefix⟩ := left
  refine ⟨post, prefix_of_prefix_length_le isPrefix on.past_prefix ?_⟩
  rw [Traced.leave, length_append, length_singleton]
  omega

theorem leave_inj {label' : L} {post post' : S} (same : a.leave label post = b.leave label' post')
    (length : a.past.length = b.past.length) : a = b := by
  obtain ⟨samePast, sameMoment⟩ := append_inj same length
  obtain ⟨sameNow, -, -, sameTime⟩ := Moment.mk.inj (singleton_inj.mp sameMoment)
  cases a
  cases samePast
  cases sameNow
  cases sameTime
  rfl

theorem OnBranch.of_length (onA : OnBranch a c) (onB : OnBranch b c)
    (shorter : a.past.length ≤ b.past.length) : OnBranch a b := by
  rcases onA with rfl | ⟨label, left⟩
  · rcases onB with rfl | ⟨label, left⟩
    · exact .inl rfl
    · exact absurd left.length_lt (not_lt.mpr shorter)
  · rcases shorter.lt_or_eq with strictly | same
    · exact .inr ⟨label, left.of_length onB strictly⟩
    · rcases onB with rfl | ⟨label', left'⟩
      · exact .inr ⟨label, left⟩
      · obtain ⟨post, isPrefix⟩ := left
        obtain ⟨post', isPrefix'⟩ := left'
        have length : (a.leave label post).length = (b.leave label' post').length := by
          simp [Traced.leave, same]
        have equal := (prefix_of_prefix_length_le isPrefix isPrefix' length.le).eq_of_length length
        exact .inl (leave_inj equal same)

end Branch

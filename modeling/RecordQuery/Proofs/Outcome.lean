import Mathlib.Tactic.Common

/-!
# Outcomes of steps that may fail

A sequence of steps succeeds if each of them does.
-/

namespace RecordQuery

variable {ε α β : Type}

/-- Two steps succeed if the first does and the second does with its result. -/
lemma Outcome.bind_eq_ok_iff {x : Except ε α} {f : α → Except ε β} {b : β} :
    (x >>= f) = .ok b ↔ ∃ a, x = .ok a ∧ f a = .ok b := by
  cases x with
  | error e => simp [bind, Except.bind]
  | ok a => simp [bind, Except.bind]

lemma Outcome.pure_eq_ok_iff {a b : α} : (pure a : Except ε α) = .ok b ↔ b = a := by
  simp [pure, Except.pure, eq_comm]

lemma Outcome.eq_ok_of_toOption {x : Except ε α} {a : α} (h : x.toOption = some a) : x = .ok a := by
  cases x with
  | error e => cases h
  | ok b => exact congrArg _ (Option.some.inj h)

/-- Whatever steps over a list give is given by the step of an element. -/
lemma Outcome.exists_of_mem_mapM {f : α → Except ε β} {l : List α} {bs : List β} {b : β}
    (h : l.mapM f = .ok bs) (hb : b ∈ bs) : ∃ a ∈ l, f a = .ok b := by
  induction l generalizing bs with
  | nil =>
    cases h
    cases hb
  | cons a l ih =>
    rw [List.mapM_cons] at h
    obtain ⟨first, hfirst, h⟩ := bind_eq_ok_iff.mp h
    obtain ⟨rest, hrest, h⟩ := bind_eq_ok_iff.mp h
    rw [pure_eq_ok_iff.mp h] at hb
    rcases List.mem_cons.mp hb with rfl | hb
    · exact ⟨a, List.mem_cons_self, hfirst⟩
    · obtain ⟨a', ha', hab⟩ := ih hrest hb
      exact ⟨a', List.mem_cons_of_mem a ha', hab⟩

/-! ### Faults -/

/-- A step that fails does so with a fault of some kind. -/
def Outcome.FailsWithin (P : ε → Prop) (x : Except ε α) : Prop := ∀ e, x = .error e → P e

namespace Outcome.FailsWithin

variable {P Q : ε → Prop} {x : Except ε α} {f : α → Except ε β}

@[simp] lemma ok (a : α) : FailsWithin P (.ok a : Except ε α) := by
  simp [FailsWithin]

@[simp] lemma pure (a : α) : FailsWithin P (Pure.pure a : Except ε α) := ok a

@[simp] lemma error_iff {e : ε} : FailsWithin P (.error e : Except ε α) ↔ P e := by
  simp [FailsWithin]

/-- Two steps fail as the first one does, or as the second one does after it. -/
lemma bind (hx : FailsWithin P x) (hf : ∀ a, x = .ok a → FailsWithin P (f a)) :
    FailsWithin P (x >>= f) := by
  cases x with
  | error e => exact error_iff.mpr (error_iff.mp hx)
  | ok a => exact hf a rfl

end Outcome.FailsWithin

/-! ### Two outcomes -/

variable {γ δ : Type}

/-- Where a step succeeds another one does too, and their results are related. -/
def Outcome.Carries (R : α → γ → Prop) (x : Except ε α) (y : Except ε γ) : Prop :=
  ∀ a, x = .ok a → ∃ c, y = .ok c ∧ R a c

namespace Outcome.Carries

variable {R : α → γ → Prop} {S : β → δ → Prop} {x : Except ε α} {y : Except ε γ}
variable {f : α → Except ε β} {g : γ → Except ε δ}

@[simp] lemma ok_iff {a : α} {c : γ} : Carries R (.ok a : Except ε α) (.ok c) ↔ R a c := by
  simp [Carries]

@[simp] lemma pure_iff {a : α} {c : γ} :
    Carries R (Pure.pure a : Except ε α) (Pure.pure c) ↔ R a c := ok_iff

@[simp] lemma error (e : ε) : Carries R (.error e) y := by
  simp [Carries]

/-- Of two steps each, the second one may depend on the result of the first. -/
lemma bind (hx : Carries R x y) (hf : ∀ a c, R a c → Carries S (f a) (g c)) :
    Carries S (x >>= f) (y >>= g) := by
  intro b h
  obtain ⟨a, rfl, hb⟩ := bind_eq_ok_iff.mp h
  obtain ⟨c, rfl, hac⟩ := hx a rfl
  exact hf a c hac b hb

lemma refl (x : Except ε α) : Carries Eq x x := fun a h => ⟨a, h, rfl⟩

lemma eq_ok {x y : Except ε α} {a : α} (h : Carries Eq x y) (hx : x = .ok a) : y = .ok a := by
  obtain ⟨b, hy, rfl⟩ := h a hx
  exact hy

/-- Steps over a list carry over if each of them does. -/
lemma mapM {f g : α → Except ε β} {l : List α} (h : ∀ a ∈ l, Carries Eq (f a) (g a)) :
    Carries Eq (l.mapM f) (l.mapM g) := by
  induction l with
  | nil => exact refl _
  | cons a l ih =>
    obtain ⟨ha, hl⟩ := List.forall_mem_cons.mp h
    rw [List.mapM_cons, List.mapM_cons]
    refine ha.bind fun b _ hb => (ih hl).bind fun bs _ hbs => ?_
    rw [hb, hbs]
    exact refl _

end Outcome.Carries

end RecordQuery

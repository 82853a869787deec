import Mathlib.Tactic.Lemma

/-!
# Postconditions of programs that mutate a state and may fail

A method of an imperative program changes its receiver in place and may return an error *after*
it has changed it. `EStateM` is that: the error result carries the state as the failure left it.
`Ensures x s Q E` says what a run of `x` from `s` may end in — a value and a state in `Q`, or an
error and a state in `E` — and the rules below take it apart along the program text. A callee
enters a caller's proof through its own `Ensures` lemma and `Ensures.mono`, never through its
body.
-/

namespace Crane.Program

variable {ε σ α β : Type}

/-- Started in `s`, the program returns into `Q` or fails into `E`. -/
def Ensures (x : EStateM ε σ α) (s : σ) (Q : α → σ → Prop) (E : ε → σ → Prop) : Prop :=
  match x s with
  | .ok a t => Q a t
  | .error e t => E e t

section Rules

variable {s : σ} {Q : α → σ → Prop} {R : β → σ → Prop} {E : ε → σ → Prop}

lemma Ensures.of_ok {x : EStateM ε σ α} (h : Ensures x s Q E) {a : α} {t : σ}
    (hx : x s = .ok a t) : Q a t := by
  simpa only [Ensures, hx] using h

lemma Ensures.of_error {x : EStateM ε σ α} (h : Ensures x s Q E) {e : ε} {t : σ}
    (hx : x s = .error e t) : E e t := by
  simpa only [Ensures, hx] using h

lemma Ensures.mono {x : EStateM ε σ α} {Q' : α → σ → Prop} {E' : ε → σ → Prop}
    (h : Ensures x s Q E) (hQ : ∀ a t, Q a t → Q' a t) (hE : ∀ e t, E e t → E' e t) : Ensures x s Q' E' := by
  unfold Ensures at h ⊢
  cases hx : x s with
  | ok a t => rw [hx] at h; exact hQ a t h
  | error e t => rw [hx] at h; exact hE e t h

@[simp] lemma ensures_pure {a : α} : Ensures (pure a : EStateM ε σ α) s Q E ↔ Q a s := Iff.rfl

@[simp] lemma ensures_throw {e : ε} : Ensures (throw e : EStateM ε σ α) s Q E ↔ E e s := Iff.rfl

@[simp] lemma ensures_get {Q : σ → σ → Prop} : Ensures (get : EStateM ε σ σ) s Q E ↔ Q s s := Iff.rfl

@[simp] lemma ensures_set {t : σ} {Q : PUnit → σ → Prop} :
    Ensures (set t : EStateM ε σ PUnit) s Q E ↔ Q ⟨⟩ t := Iff.rfl

@[simp] lemma ensures_modify {f : σ → σ} {Q : PUnit → σ → Prop} :
    Ensures (modify f : EStateM ε σ PUnit) s Q E ↔ Q ⟨⟩ (f s) := Iff.rfl

@[simp] lemma ensures_bind {x : EStateM ε σ α} {f : α → EStateM ε σ β} :
    Ensures (x >>= f) s R E ↔ Ensures x s (fun a t => Ensures (f a) t R E) E := by
  unfold Ensures
  change (match EStateM.bind x f s with | .ok a t => R a t | .error e t => E e t) ↔ _
  unfold EStateM.bind
  cases x s <;> rfl

lemma ensures_ite {c : Prop} [Decidable c] {x y : EStateM ε σ α} :
    Ensures (if c then x else y) s Q E ↔ (c → Ensures x s Q E) ∧ (¬ c → Ensures y s Q E) := by
  by_cases hc : c <;> simp [hc]

/-- A fallible pure computation run inside a program. -/
def lift (x : Except ε α) : EStateM ε σ α := fun s =>
  match x with
  | .ok a => .ok a s
  | .error e => .error e s

@[simp] lemma ensures_lift {x : Except ε α} : Ensures (lift x : EStateM ε σ α) s Q E ↔
    (∀ a, x = .ok a → Q a s) ∧ (∀ e, x = .error e → E e s) := by
  cases x <;> simp [Ensures, lift]

lemma ensures_lift_ok {x : Except ε α} {a : α} (h : x = .ok a) :
    Ensures (lift x : EStateM ε σ α) s Q E ↔ Q a s := by
  subst h
  rfl

/-- Run a program for every element of a list, in order. -/
def each : List α → (α → EStateM ε σ PUnit) → EStateM ε σ PUnit
  | [], _ => pure ⟨⟩
  | a :: rest, f => do f a; each rest f

/-- The loop rule: a state predicate that may speak of the elements already passed. -/
lemma ensures_each {f : α → EStateM ε σ PUnit} {I : List α → σ → Prop} {E : ε → σ → Prop}
    {xs : List α} {s : σ} (h0 : I [] s) (hstep : ∀ done a rest t, xs = done ++ a :: rest → I done t →
      Ensures (f a) t (fun _ t' => I (done ++ [a]) t') E) : Ensures (each xs f) s (fun _ t => I xs t) E := by
  -- Generalise over the elements already passed, which the loop itself does not see.
  have go : ∀ rest done t, xs = done ++ rest → I done t → Ensures (each rest f) t (fun _ t' => I xs t') E := by
    intro rest
    induction rest with
    | nil =>
      intro done t hxs hI
      rw [List.append_nil] at hxs
      subst hxs
      exact ensures_pure.mpr hI
    | cons a rest ih =>
      intro done t hxs hI
      refine ensures_bind.mpr ((hstep done a rest t hxs hI).mono (fun _ t' h => ?_) fun _ _ h => h)
      exact ih (done ++ [a]) t' (by rw [hxs]; simp) h
  exact go xs [] s rfl h0

end Rules

/-! ## Checks that come first

A pure computation in `Except` is a chain of checks with a result at its end. -/

section Checks

variable {ε α : Type} {c : Prop} [Decidable c] {e : ε} {x : Except ε α} {a : α}

lemma ite_error_eq_ok : (if c then .error e else x) = .ok a ↔ ¬ c ∧ x = .ok a := by
  by_cases hc : c
  · simp [hc]
  · simp [hc]

lemma ok_of_ite (h : (if c then .error e else x) = .ok a) : x = .ok a := (ite_error_eq_ok.mp h).2

lemma ok_of_not (hc : ¬ c) (hx : x = .ok a) : (if c then .error e else x) = .ok a :=
  ite_error_eq_ok.mpr ⟨hc, hx⟩

omit [Decidable c] in
lemma toOption_eq_some : x.toOption = some a ↔ x = .ok a := by
  cases x with
  | error => exact ⟨nofun, nofun⟩
  | ok => exact ⟨fun h => congrArg Except.ok (Option.some.inj h), fun h => by cases h; rfl⟩

end Checks

end Crane.Program

import Transocks.Lib.Run

/-!
# Objects that rest on others

A program creates objects, uses them and releases them. An object may rest on others, as an event
rests on its event base. `Step` says which call is right when the objects `H` exist: an object is
created once and on what it rests on, used while it exists, and released before what it rests on.
A call that follows a null pointer is never right, so it has no step.
-/

namespace Tenure

open Runs

inductive Call (ρ : Type*)
  | acquire (r : ρ)
  | use (r : ρ)
  | release (r : ρ)
  | fault
  deriving DecidableEq, Repr

variable {ρ : Type*} {rests : ρ → Set ρ} {H H' : Set ρ} {r : ρ} {es : List (Call ρ)}

inductive Step (rests : ρ → Set ρ) (H : Set ρ) : Call ρ → Set ρ → Prop
  | acquire {r : ρ} (hr : r ∉ H) (hd : rests r ⊆ H) : Step rests H (.acquire r) (insert r H)
  | use {r : ρ} (hr : r ∈ H) : Step rests H (.use r) H
  | release {r : ρ} (hr : r ∈ H) (hd : ∀ x ∈ H, r ∉ rests x) : Step rests H (.release r) (H \ {r})

theorem Step.deterministic {H₁ H₂ : Set ρ} {e : Call ρ} (h₁ : Step rests H e H₁)
    (h₂ : Step rests H e H₂) : H₁ = H₂ := by
  cases h₁ <;> cases h₂ <;> rfl

/-! ## Calls one by one -/

theorem run_acquire (hr : r ∉ H) (hd : rests r ⊆ H) (hH : ∀ x, x ∈ H' ↔ x = r ∨ x ∈ H) :
    Run (Step rests) H [.acquire r] H' := by
  obtain rfl : insert r H = H' := Set.ext fun x => (hH x).symm
  exact .one (.acquire hr hd)

theorem run_release (hr : r ∈ H) (hd : ∀ x ∈ H, r ∉ rests x)
    (hH : ∀ x, x ∈ H' ↔ x ∈ H ∧ x ≠ r) : Run (Step rests) H [.release r] H' := by
  obtain rfl : H \ {r} = H' := Set.ext fun x => (hH x).symm
  exact .one (.release hr hd)

theorem run_acquire_if {b : Prop} [Decidable b] (hr : b → r ∉ H) (hd : b → rests r ⊆ H)
    (hH : ∀ x, x ∈ H' ↔ (x = r ∧ b) ∨ x ∈ H) :
    Run (Step rests) H (if b then [.acquire r] else []) H' := by
  split
  · rename_i hb
    exact run_acquire (hr hb) (hd hb) fun x => by simp [hH, hb]
  · rename_i hb
    obtain rfl : H = H' := Set.ext fun x => by simp [hH, hb]
    exact .nil

theorem run_release_if {b : Prop} [Decidable b] (hr : b ↔ r ∈ H) (hd : ∀ x ∈ H, r ∉ rests x)
    (hH : ∀ x, x ∈ H' ↔ x ∈ H ∧ x ≠ r) :
    Run (Step rests) H (if b then [.release r] else []) H' := by
  split
  · rename_i hb
    exact run_release (hr.mp hb) hd hH
  · rename_i hb
    obtain rfl : H = H' := Set.ext fun x => by
      rw [hH]
      exact ⟨fun hx => ⟨hx, fun he => hb (hr.mpr (he ▸ hx))⟩, fun hx => hx.1⟩
    exact .nil

/-! ## Calls that are never right -/

/-- A null pointer is never followed. -/
theorem not_run_fault {us vs : List (Call ρ)} :
    ¬ Run (Step rests) H (us ++ .fault :: vs) H' := by
  intro h
  obtain ⟨K, -, hK⟩ := h.split
  obtain ⟨K', hs, -⟩ := hK.first
  cases hs

/-- What does not exist any more is never released. -/
theorem not_run_again {us vs : List (Call ρ)} {K : Set ρ} (hus : Run (Step rests) H us K)
    (hr : r ∉ K) : ¬ Run (Step rests) H (us ++ .release r :: vs) H' := by
  intro h
  obtain ⟨K', hus', hK⟩ := h.split
  obtain rfl := hus.unique (fun _ _ _ _ h h' => h.deterministic h') hus'
  obtain ⟨K', hs, -⟩ := hK.first
  cases hs with
  | release hr' => exact hr hr'

end Tenure

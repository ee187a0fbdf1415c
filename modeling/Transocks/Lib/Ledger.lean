import Mathlib.Tactic

/-!
# What was acquired and not given back

A history is a list of calls, each of which may acquire a resource or give one back. A resource is
outstanding when a call acquired it and no later call gave it back. `Covered` says that an owner
accounts for everything outstanding; an owner that gives back all it accounts for leaves nothing.
-/

namespace Ledger

variable {ε ρ : Type*} (acquires releases : ε → Option ρ)

/-- A call acquired `x`, and no later call gave it back. -/
def Outstanding (es : List ε) (x : ρ) : Prop :=
  ∃ us e vs, es = us ++ e :: vs ∧ acquires e = some x ∧ ∀ e' ∈ vs, releases e' ≠ some x

/-- Everything outstanding is accounted for by `owns`. -/
def Covered (owns : ρ → Prop) (es : List ε) : Prop :=
  ∀ x, Outstanding acquires releases es x → owns x

variable {acquires releases} {es fs : List ε} {x : ρ} {owns owns' : ρ → Prop}

theorem outstanding_nil : ¬ Outstanding acquires releases [] x := by
  rintro ⟨us, e, vs, h, -⟩
  simp at h

theorem Outstanding.of_mem {us vs : List ε} {e : ε} (he : acquires e = some x)
    (hvs : ∀ e' ∈ vs, releases e' ≠ some x) :
    Outstanding acquires releases (us ++ e :: vs) x := ⟨us, e, vs, rfl, he, hvs⟩

theorem Outstanding.append (h : Outstanding acquires releases es x)
    (hfs : ∀ e ∈ fs, releases e ≠ some x) : Outstanding acquires releases (es ++ fs) x := by
  obtain ⟨us, e, vs, rfl, he, hvs⟩ := h
  refine ⟨us, e, vs ++ fs, by simp, he, fun e' he' => ?_⟩
  rcases List.mem_append.mp he' with he' | he'
  · exact hvs e' he'
  · exact hfs e' he'

theorem Outstanding.prepend (h : Outstanding acquires releases fs x) :
    Outstanding acquires releases (es ++ fs) x := by
  obtain ⟨us, e, vs, rfl, he, hvs⟩ := h
  exact ⟨es ++ us, e, vs, (List.append_assoc ..).symm, he, hvs⟩

theorem outstanding_singleton {e : ε} (h : Outstanding acquires releases [e] x) :
    acquires e = some x := by
  obtain ⟨us, e', vs, heq, he, -⟩ := h
  have hmem : e' ∈ [e] := by simp [heq]
  rwa [List.mem_singleton.mp hmem] at he

/-- What is outstanding after more calls was acquired by them, or was so before and is not given
back. -/
theorem outstanding_append (h : Outstanding acquires releases (es ++ fs) x) :
    (∃ e ∈ fs, acquires e = some x) ∨
      (Outstanding acquires releases es x ∧ ∀ e ∈ fs, releases e ≠ some x) := by
  obtain ⟨us, e, vs, heq, he, hvs⟩ := h
  rcases List.append_eq_append_iff.mp heq with ⟨as, rfl, rfl⟩ | ⟨as, rfl, hvs'⟩
  · exact .inl ⟨e, by simp, he⟩
  · cases as with
    | nil =>
      rw [List.nil_append] at hvs'
      exact .inl ⟨e, by simp [← hvs'], he⟩
    | cons a as =>
      rw [List.cons_append, List.cons.injEq] at hvs'
      obtain ⟨rfl, rfl⟩ := hvs'
      refine .inr ⟨⟨us, e, as, rfl, he, fun e' he' => hvs e' (by simp [he'])⟩, fun e' he' => ?_⟩
      exact hvs e' (by simp [he'])

/-- Calls that acquire only what the new owner has, when it has kept what they did not give back. -/
theorem Covered.append (h : Covered acquires releases owns es)
    (hacq : ∀ e ∈ fs, ∀ x, acquires e = some x → owns' x)
    (hkeep : ∀ x, owns x → (∀ e ∈ fs, releases e ≠ some x) → owns' x) :
    Covered acquires releases owns' (es ++ fs) := by
  intro x hx
  rcases outstanding_append hx with ⟨e, he, hex⟩ | ⟨hx, hrel⟩
  · exact hacq e he x hex
  · exact hkeep x (h x hx) hrel

theorem Covered.settle (h : Covered acquires releases owns es)
    (hacq : ∀ e ∈ fs, acquires e = none) (hrel : ∀ x, owns x → ∃ e ∈ fs, releases e = some x) :
    ∀ x, ¬ Outstanding acquires releases (es ++ fs) x := by
  intro x hx
  rcases outstanding_append hx with ⟨e, he, hex⟩ | ⟨hx, hnot⟩
  · exact absurd ((hacq e he).symm.trans hex) (by simp)
  · obtain ⟨e, he, hex⟩ := hrel x (h x hx)
    exact hnot e he hex

end Ledger

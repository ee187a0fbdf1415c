import Mathlib.Tactic

/-!
# Runs of a labelled transition system

A system is a relation `step s e t` between a state, a label and the next state. `Run step s es t`
says that the labels `es`, in order, lead from `s` to `t`. A condition on steps is a predicate on
the state before the step and the label; a run all of whose steps meet it is a run of
`Meeting step P`.
-/

namespace Runs

variable {σ ε : Type*} {step : σ → ε → σ → Prop}

inductive Run (step : σ → ε → σ → Prop) (s : σ) : List ε → σ → Prop
  | nil : Run step s [] s
  | snoc {es : List ε} {t u : σ} {e : ε} : Run step s es t → step t e u → Run step s (es ++ [e]) u

/-- The steps of a system that meet a condition on the state before the step and the label. -/
def Meeting (step : σ → ε → σ → Prop) (P : σ → ε → Prop) (s : σ) (e : ε) (t : σ) : Prop :=
  P s e ∧ step s e t

/-- What holds at the start and is kept by every step holds in every state a run reaches. -/
theorem Run.invariant {s t : σ} {es : List ε} (h : Run step s es t) {I : σ → Prop} (h0 : I s)
    (hstep : ∀ u e v, I u → step u e v → I v) : I t := by
  induction h with
  | nil => exact h0
  | snoc _ he ih => exact hstep _ _ _ ih he

theorem Run.mono {step' : σ → ε → σ → Prop} {s t : σ} {es : List ε} (h : Run step s es t)
    (hle : ∀ u e v, step u e v → step' u e v) : Run step' s es t := by
  induction h with
  | nil => exact .nil
  | snoc _ he ih => exact .snoc ih (hle _ _ _ he)

theorem Run.meeting {P : σ → ε → Prop} {s t : σ} {es : List ε} (h : Run step s es t)
    (hP : ∀ e ∈ es, ∀ u, P u e) : Run (Meeting step P) s es t := by
  induction h with
  | nil => exact .nil
  | @snoc es u v e _ he ih =>
    refine .snoc (ih fun e' he' => hP e' (List.mem_append_left _ he')) ⟨hP e ?_ u, he⟩
    exact List.mem_append_right _ (List.mem_singleton_self e)

/-- What holds at the end and is taken back by no step holds at the start. -/
theorem Run.back {I : σ → Prop} {s t : σ} {es : List ε} (h : Run step s es t)
    (hback : ∀ u e v, step u e v → I v → I u) (ht : I t) : I s := by
  induction h with
  | nil => exact ht
  | snoc _ he ih => exact ih (hback _ _ _ he ht)

/-- A condition that is met while `I` holds is met by a run that ends inside `I`, when no step leads
back into `I`. -/
theorem Run.meeting_while {P : σ → ε → Prop} {I : σ → Prop} {s t : σ} {es : List ε}
    (h : Run (Meeting step fun u e => I u → P u e) s es t)
    (hback : ∀ u e v, step u e v → I v → I u) (ht : I t) : Run (Meeting step P) s es t := by
  induction h with
  | nil => exact .nil
  | snoc _ he ih =>
    have hu := hback _ _ _ he.2 ht
    exact (ih hu).snoc ⟨he.1 hu, he.2⟩

theorem Run.one {s t : σ} {e : ε} (h : step s e t) : Run step s [e] t := Run.snoc Run.nil h

theorem Run.trans {s t u : σ} {es fs : List ε} (h₁ : Run step s es t) (h₂ : Run step t fs u) :
    Run step s (es ++ fs) u := by
  induction h₂ with
  | nil => rwa [List.append_nil]
  | snoc _ he ih => rw [← List.append_assoc]; exact .snoc ih he

/-- Every label, in order, is a step to the state that `next` computes. -/
def Follows (step : σ → ε → σ → Prop) (next : σ → ε → σ) : σ → List ε → Prop
  | _, [] => True
  | s, e :: es => step s e (next s e) ∧ Follows step next (next s e) es

theorem Run.foldl {next : σ → ε → σ} {s : σ} {es : List ε} (h : Follows step next s es) :
    Run step s es (es.foldl next s) := by
  induction es generalizing s with
  | nil => exact .nil
  | cons e es ih => exact (Run.one h.1).trans (ih h.2)

/-- The last step of a run. -/
theorem Run.last {s u : σ} {es : List ε} {e : ε} (h : Run step s (es ++ [e]) u) :
    ∃ t, Run step s es t ∧ step t e u := by
  generalize hfs : es ++ [e] = fs at h
  cases h with
  | nil => simp at hfs
  | snoc hrun he =>
    obtain ⟨rfl, hcons⟩ := List.append_inj' hfs rfl
    obtain rfl := List.singleton_injective hcons
    exact ⟨_, hrun, he⟩

theorem Run.split {s u : σ} {es fs : List ε} (h : Run step s (es ++ fs) u) :
    ∃ t, Run step s es t ∧ Run step t fs u := by
  induction fs using List.reverseRecOn generalizing u with
  | nil => exact ⟨u, by rwa [List.append_nil] at h, .nil⟩
  | append_singleton fs e ih =>
    rw [← List.append_assoc] at h
    obtain ⟨v, hv, he⟩ := h.last
    obtain ⟨t, ht, hfs⟩ := ih hv
    exact ⟨t, ht, hfs.snoc he⟩

theorem Run.first {s u : σ} {es : List ε} {e : ε} (h : Run step s (e :: es) u) :
    ∃ t, step s e t ∧ Run step t es u := by
  have happ : Run step s ([e] ++ es) u := h
  obtain ⟨t, hone, hes⟩ := happ.split
  have hlast : Run step s ([] ++ [e]) t := hone
  obtain ⟨v, hnil, he⟩ := hlast.last
  generalize hfs : ([] : List ε) = fs at hnil
  cases hnil with
  | nil => exact ⟨t, he, hes⟩
  | snoc => simp at hfs

/-- Where every label has one outcome, a run has one end. -/
theorem Run.unique (hdet : ∀ s e t t', step s e t → step s e t' → t = t') {s t t' : σ} {es : List ε}
    (h : Run step s es t) (h' : Run step s es t') : t = t' := by
  induction h generalizing t' with
  | nil =>
    generalize hfs : ([] : List ε) = fs at h'
    cases h' with
    | nil => rfl
    | snoc => simp at hfs
  | snoc _ he ih =>
    obtain ⟨w, hw, he'⟩ := h'.last
    obtain rfl := ih hw
    exact hdet _ _ _ _ he he'

/-- **Good and bad runs.** When a step that meets the condition keeps the state good, a step that
does not makes it bad, and bad states stay bad, the runs that end in a good state are the ones all
of whose steps meet the condition. -/
theorem Run.good_or_bad (hdet : ∀ s e t t', step s e t → step s e t' → t = t')
    {P : σ → ε → Prop} {Good Bad : σ → Prop} {s t : σ} {es : List ε} (h : Run step s es t)
    (h0 : Good s) (hgood : ∀ u e v, Good u → step u e v → P u e → Good v)
    (hslip : ∀ u e v, Good u → step u e v → ¬ P u e → Bad v)
    (hbad : ∀ u e v, Bad u → step u e v → Bad v) :
    (Run (Meeting step P) s es t ∧ Good t) ∨ (¬ Run (Meeting step P) s es t ∧ Bad t) := by
  induction h with
  | nil => exact .inl ⟨.nil, h0⟩
  | @snoc es u v e hrun he ih =>
    rcases ih with ⟨hm, hu⟩ | ⟨hm, hu⟩
    · by_cases hP : P u e
      · exact .inl ⟨hm.snoc ⟨hP, he⟩, hgood _ _ _ hu he hP⟩
      · refine .inr ⟨fun h' => ?_, hslip _ _ _ hu he hP⟩
        obtain ⟨w, hw, hPw, -⟩ := h'.last
        obtain rfl := (hw.mono fun _ _ _ h => h.2).unique hdet hrun
        exact hP hPw
    · refine .inr ⟨fun h' => ?_, hbad _ _ _ hu he⟩
      obtain ⟨w, hw, -, -⟩ := h'.last
      obtain rfl := (hw.mono fun _ _ _ h => h.2).unique hdet hrun
      exact hm hw

/-- **Runs that stay inside.** When a step that meets the condition keeps the invariant `J`, which
is inside `I`, and a step that does not leaves `I`, the runs all of whose states are in `I` are the
ones all of whose steps meet the condition. -/
theorem Run.always_iff (hdet : ∀ s e t t', step s e t → step s e t' → t = t')
    {P : σ → ε → Prop} {I J : σ → Prop} {s t : σ} {es : List ε} (h : Run step s es t) (h0 : J s)
    (hJ : ∀ u, J u → I u) (hgood : ∀ u e v, J u → step u e v → P u e → J v)
    (hslip : ∀ u e v, J u → step u e v → ¬ P u e → ¬ I v) :
    (∀ us vs u, es = us ++ vs → Run step s us u → I u) ↔ Run (Meeting step P) s es t := by
  have hmeet : ∀ {es t}, Run (Meeting step P) s es t → J t := fun hm =>
    hm.invariant h0 fun u e v hu he => hgood u e v hu he.2 he.1
  constructor
  · intro hall
    induction h with
    | nil => exact .nil
    | @snoc es u v e hrun he ih =>
      have hm := ih fun us vs w hes hw => hall us (vs ++ [e]) w (by rw [hes, List.append_assoc]) hw
      refine hm.snoc ⟨?_, he⟩
      by_contra hP
      have hv : I v := hall (es ++ [e]) [] v (List.append_nil _).symm (hrun.snoc he)
      exact hslip u e v (hmeet hm) he hP hv
  · intro hm
    clear h
    induction hm with
    | nil =>
      intro us vs u hes hu
      obtain ⟨rfl, -⟩ := List.append_eq_nil_iff.mp hes.symm
      obtain rfl := hu.unique hdet .nil
      exact hJ _ h0
    | @snoc es u v e hrun he ih =>
      intro us vs w hes hw
      rcases List.eq_nil_or_concat vs with rfl | ⟨vs', e', rfl⟩
      · rw [List.append_nil] at hes
        obtain rfl := hw.unique hdet (hes ▸ (hrun.snoc he).mono fun _ _ _ h => h.2)
        exact hJ _ (hmeet (hrun.snoc he))
      · rw [List.concat_eq_append, ← List.append_assoc] at hes
        exact ih us vs' w (List.append_inj' hes rfl).1 hw

/-- A run in which `k` steps are as `P` says. -/
inductive Paced (step : σ → ε → σ → Prop) (P : σ → ε → Prop) (s : σ) : List ε → σ → ℕ → Prop
  | nil : Paced step P s [] s 0
  | hit {es : List ε} {t u : σ} {e : ε} {k : ℕ} : Paced step P s es t k → step t e u → P t e →
    Paced step P s (es ++ [e]) u (k + 1)
  | miss {es : List ε} {t u : σ} {e : ε} {k : ℕ} : Paced step P s es t k → step t e u → ¬ P t e →
    Paced step P s (es ++ [e]) u k

theorem Paced.run {P : σ → ε → Prop} {s t : σ} {es : List ε} {k : ℕ} (h : Paced step P s es t k) :
    Run step s es t := by
  induction h with
  | nil => exact .nil
  | hit _ he _ ih => exact ih.snoc he
  | miss _ he _ ih => exact ih.snoc he

theorem Paced.meeting_while {P Q : σ → ε → Prop} {I : σ → Prop} {s t : σ} {es : List ε} {k : ℕ}
    (h : Paced (Meeting step fun u e => I u → P u e) Q s es t k)
    (hback : ∀ u e v, step u e v → I v → I u) (ht : I t) : Paced (Meeting step P) Q s es t k := by
  induction h with
  | nil => exact .nil
  | hit _ he hQ ih =>
    have hu := hback _ _ _ he.2 ht
    exact (ih hu).hit ⟨he.1 hu, he.2⟩ hQ
  | miss _ he hQ ih =>
    have hu := hback _ _ _ he.2 ht
    exact (ih hu).miss ⟨he.1 hu, he.2⟩ hQ

/-- **Runs that cannot go on for ever.** When no step raises the measure and the steps as `P` says
lower it, a run has no more of these than the measure at its start. -/
theorem Paced.bounded {P : σ → ε → Prop} {s t : σ} {es : List ε} {k : ℕ}
    (h : Paced step P s es t k) {I : σ → Prop} {r : σ → ℕ} (h0 : I s)
    (hI : ∀ u e v, I u → step u e v → I v)
    (hle : ∀ u e v, I u → step u e v → r v ≤ r u)
    (hlt : ∀ u e v, I u → step u e v → P u e → r v < r u) : k + r t ≤ r s := by
  induction h with
  | nil => omega
  | @hit es u v e k hrun he hP ih =>
    have hdown : r v < r u := hlt u e v (hrun.run.invariant h0 hI) he hP
    omega
  | @miss es u v e k hrun he hP ih =>
    have hdown : r v ≤ r u := hle u e v (hrun.run.invariant h0 hI) he
    omega

end Runs

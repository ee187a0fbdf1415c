import Mathlib.Data.Set.Card
import Mathlib.Logic.Function.Basic
import Mathlib.Tactic

/-!
# Numbers, who they belong to, and clients that close only their own

A table says whom each number belongs to. A client opens and closes numbers under handles of its
own; the table hands out a number only when nobody has it, but a `close` is done whatever the number
belongs to. `Obeys` is the discipline of one client, stated without the table: it closes a number
only under the handle that holds it, or once more right after it closed it itself.
`Obeys.safe` says that this local discipline is enough: whatever the other clients hold stays
theirs, and every close hits a number of the client's own or of nobody.
-/

namespace Handles

variable {η ν ω : Type*}

/-- What a client does with a number. -/
inductive Op (η ν : Type*)
  | acquire (h : η) (n : ν)
  | close (h : η) (n : ν)
  deriving DecidableEq

/-- A `close` that was done: the handle it was meant for, the number, and whom it belonged to. -/
structure Hit (η ν ω : Type*) where
  handle : η
  number : ν
  owner : Option ω
  deriving DecidableEq

/-! ## The table -/

section Table

variable [DecidableEq ν]

/-- The table after one operation of the client whose handle `h` is the owner `mk h`. -/
def apply (mk : η → ω) (T : ν → Option ω) : Op η ν → (ν → Option ω)
  | .acquire h n => Function.update T n (some (mk h))
  | .close _ n => Function.update T n none

def applyAll (mk : η → ω) (T : ν → Option ω) (ops : List (Op η ν)) : ν → Option ω :=
  ops.foldl (apply mk) T

def hits (mk : η → ω) : (ν → Option ω) → List (Op η ν) → List (Hit η ν ω)
  | _, [] => []
  | T, .acquire h n :: ops => hits mk (apply mk T (.acquire h n)) ops
  | T, .close h n :: ops => ⟨h, n, T n⟩ :: hits mk (apply mk T (.close h n)) ops

/-- The operation is a close of `h`. -/
def Op.closes [DecidableEq η] (h : η) : Op η ν → Bool
  | .acquire _ _ => false
  | .close h' _ => h' == h

theorem countP_hits [DecidableEq η] (mk : η → ω) (T : ν → Option ω) (ops : List (Op η ν)) (h : η) :
    (hits mk T ops).countP (fun x => x.handle == h) = ops.countP (Op.closes h) := by
  induction ops generalizing T with
  | nil => rfl
  | cons op ops ih =>
    cases op with
    | acquire h' n => rw [List.countP_cons_of_neg (by simp [Op.closes])]; exact ih _
    | close h' n =>
      show (_ :: hits mk (apply mk T (.close h' n)) ops).countP _ = _
      rw [List.countP_cons, List.countP_cons, ih]
      rfl

/-- Numbers are handed out only when nobody has them. -/
def Unused (mk : η → ω) : (ν → Option ω) → List (Op η ν) → Prop
  | _, [] => True
  | T, .acquire h n :: ops => T n = none ∧ Unused mk (apply mk T (.acquire h n)) ops
  | T, .close h n :: ops => Unused mk (apply mk T (.close h n)) ops

theorem unused_closes (mk : η → ω) (T : ν → Option ω) (xs : List (η × ν)) :
    Unused mk T (xs.map fun x => Op.close x.1 x.2) := by
  induction xs generalizing T with
  | nil => trivial
  | cons x xs ih => exact ih _

/-- A number stays when no close under its own handle gives it up, and every close that is done hits
its own number or nobody's. -/
theorem kept_of_hits {mk : η → ω} {T : ν → Option ω} {ops : List (Op η ν)} {n : ν} {w : ω}
    (hu : Unused mk T ops)
    (hown : ∀ x ∈ hits mk T ops, x.owner = none ∨ x.owner = some (mk x.handle))
    (hT : T n = some w) (hops : ∀ h, w = mk h → .close h n ∉ ops) :
    applyAll mk T ops n = some w := by
  induction ops generalizing T with
  | nil => exact hT
  | cons op ops ih =>
    have hrest : ∀ h, w = mk h → .close h n ∉ ops := fun h hw hmem =>
      hops h hw (List.mem_cons_of_mem _ hmem)
    cases op with
    | acquire h a =>
      obtain ⟨ha, hu⟩ := hu
      have hne : n ≠ a := by
        rintro rfl
        exact absurd (ha.symm.trans hT) (by simp)
      exact ih hu hown ((Function.update_of_ne hne ..).trans hT) hrest
    | close h a =>
      have hne : n ≠ a := by
        rintro rfl
        rcases hown ⟨h, n, T n⟩ List.mem_cons_self with hnone | hmine
        · exact absurd (hnone.symm.trans hT) (by simp)
        · have hw : w = mk h := Option.some.inj (hT.symm.trans hmine)
          exact hops h hw List.mem_cons_self
      exact ih hu (fun x hx => hown x (List.mem_cons_of_mem _ hx))
        ((Function.update_of_ne hne ..).trans hT) hrest

end Table

/-- A table has no more numbers than there are owners, when no owner has two. -/
theorem card_table_le {T : ν → Option ω} {os : List ω} (hos : ∀ x o, T x = some o → o ∈ os)
    (hone : ∀ x y o, T x = some o → T y = some o → x = y) :
    {x | T x ≠ none}.Finite ∧ {x | T x ≠ none}.ncard ≤ os.length := by
  classical
  have hmaps : ∀ x ∈ {x | T x ≠ none}, T x ∈ ((os.map some).toFinset : Set (Option ω)) := by
    intro x hx
    obtain ⟨o, ho⟩ := Option.ne_none_iff_exists'.mp hx
    rw [ho]
    simpa using hos x o ho
  have hinj : Set.InjOn T {x | T x ≠ none} := by
    intro x hx y _ hxy
    obtain ⟨o, ho⟩ := Option.ne_none_iff_exists'.mp hx
    exact hone x y o ho (hxy.symm.trans ho)
  have hfin := Finset.finite_toSet (os.map some).toFinset
  refine ⟨.of_injOn hmaps hinj hfin, ?_⟩
  calc {x | T x ≠ none}.ncard
      ≤ ((os.map some).toFinset : Set (Option ω)).ncard :=
        Set.ncard_le_ncard_of_injOn T hmaps hinj hfin
    _ = (os.map some).toFinset.card := Set.ncard_coe_finset _
    _ ≤ (os.map some).length := List.toFinset_card_le _
    _ = os.length := List.length_map _

/-! ## The discipline of one client -/

/-- `held` has nothing that `held'` does not have. -/
def Sub (held held' : η → Option ν) : Prop := ∀ h n, held h = some n → held' h = some n

theorem Sub.refl (held : η → Option ν) : Sub held held := fun _ _ h => h

theorem Sub.trans {h₁ h₂ h₃ : η → Option ν} (h : Sub h₁ h₂) (h' : Sub h₂ h₃) : Sub h₁ h₃ :=
  fun a n ha => h' a n (h a n ha)

variable [DecidableEq η]

/-- One client keeps to the discipline: it starts with `held` and ends with `held'`. The numbers
`spare` it closed since it last acquired one; it may close them again under a handle in `loose`. -/
inductive Obeys (loose : η → Prop) :
    (η → Option ν) → List ν → List (Op η ν) → (η → Option ν) → Prop
  | done {held : η → Option ν} {spare : List ν} : Obeys loose held spare [] held
  | acquire {held held' : η → Option ν} {spare : List ν} {h : η} {n : ν} {ops : List (Op η ν)} :
    Obeys loose (Function.update held h (some n)) [] ops held' →
      Obeys loose held spare (.acquire h n :: ops) held'
  | close {held held' : η → Option ν} {spare : List ν} {h : η} {n : ν} {ops : List (Op η ν)} :
    held h = some n → Obeys loose (Function.update held h none) (n :: spare) ops held' →
      Obeys loose held spare (.close h n :: ops) held'
  | again {held held' : η → Option ν} {spare : List ν} {h : η} {n : ν} {ops : List (Op η ν)} :
    loose h → n ∈ spare → Obeys loose held spare ops held' →
      Obeys loose held spare (.close h n :: ops) held'

theorem Sub.update {held held' : η → Option ν} (hs : Sub held held') (h : η) (v : Option ν) :
    Sub (Function.update held h v) (Function.update held' h v) := by
  intro a n ha
  by_cases hah : a = h
  · subst hah
    rw [Function.update_self] at ha ⊢
    exact ha
  · rw [Function.update_of_ne hah] at ha ⊢
    exact hs a n ha

section Obeys

variable {loose : η → Prop} {held held' held₀ : η → Option ν} {spare spare' : List ν}
  {ops ops' : List (Op η ν)}

/-- Holding more does no harm. -/
theorem Obeys.mono (ho : Obeys loose held spare ops held') (hs : Sub held held₀)
    (hsp : ∀ n ∈ spare, n ∈ spare') :
    ∃ held₁, Obeys loose held₀ spare' ops held₁ ∧ Sub held' held₁ := by
  induction ho generalizing held₀ spare' with
  | done => exact ⟨held₀, .done, hs⟩
  | acquire _ ih =>
    obtain ⟨held₁, ho', hs'⟩ := ih (hs.update _ _) fun n hn => absurd hn (by simp)
    exact ⟨held₁, .acquire ho', hs'⟩
  | @close held held' spare h n ops hh _ ih =>
    have hsp' : ∀ a ∈ n :: spare, a ∈ n :: spare' := fun a ha => by
      rcases List.mem_cons.mp ha with rfl | ha
      · exact List.mem_cons_self
      · exact List.mem_cons_of_mem _ (hsp _ ha)
    obtain ⟨held₁, ho', hs'⟩ := ih (hs.update _ _) hsp'
    exact ⟨held₁, .close (hs _ _ hh) ho', hs'⟩
  | again hl hn _ ih =>
    obtain ⟨held₁, ho', hs'⟩ := ih hs hsp
    exact ⟨held₁, .again hl (hsp _ hn) ho', hs'⟩

theorem Obeys.append {held'' : η → Option ν} (ho : Obeys loose held spare ops held')
    (ho' : Obeys loose held' [] ops' held'') :
    ∃ held₀, Obeys loose held spare (ops ++ ops') held₀ ∧ Sub held'' held₀ := by
  induction ho with
  | done => exact ho'.mono (Sub.refl _) fun n hn => absurd hn (by simp)
  | acquire _ ih =>
    obtain ⟨held₀, h, hs⟩ := ih ho'
    exact ⟨held₀, .acquire h, hs⟩
  | close hh _ ih =>
    obtain ⟨held₀, h, hs⟩ := ih ho'
    exact ⟨held₀, .close hh h, hs⟩
  | again hl hn _ ih =>
    obtain ⟨held₀, h, hs⟩ := ih ho'
    exact ⟨held₀, .again hl hn h, hs⟩

/-- Closing numbers that are held, and loose ones once more. -/
theorem Obeys.closes (xs : List (η × ν))
    (hx : ∀ x ∈ xs, held x.1 = some x.2 ∨ (loose x.1 ∧ x.2 ∈ spare))
    (hp : xs.Pairwise fun x y => x.1 = y.1 → loose y.1 ∧ x.2 = y.2) :
    ∃ held', Obeys loose held spare (xs.map fun x => .close x.1 x.2) held' := by
  induction xs generalizing held spare with
  | nil => exact ⟨held, .done⟩
  | cons x xs ih =>
    rw [List.pairwise_cons] at hp
    rcases hx x List.mem_cons_self with hh | ⟨hl, hn⟩
    · obtain ⟨held', ho⟩ := ih
        (show ∀ y ∈ xs, Function.update held x.1 none y.1 = some y.2 ∨
            (loose y.1 ∧ y.2 ∈ x.2 :: spare) from fun y hy => by
          by_cases hyx : y.1 = x.1
          · obtain ⟨hl, he⟩ := hp.1 y hy hyx.symm
            exact .inr ⟨hl, he ▸ List.mem_cons_self⟩
          · rw [Function.update_of_ne hyx]
            exact (hx y (List.mem_cons_of_mem x hy)).imp_right fun h =>
              ⟨h.1, List.mem_cons_of_mem _ h.2⟩) hp.2
      exact ⟨held', .close hh ho⟩
    · obtain ⟨held', ho⟩ := ih (fun y hy => hx y (List.mem_cons_of_mem x hy)) hp.2
      exact ⟨held', .again hl hn ho⟩

end Obeys

variable [DecidableEq ν]

/-- **Local discipline, global safety.** -/
theorem Obeys.safe {loose : η → Prop} {held held' : η → Option ν} {spare : List ν}
    {ops : List (Op η ν)} {mk : η → ω} (hmk : Function.Injective mk) {T : ν → Option ω}
    (ho : Obeys loose held spare ops held') (hu : Unused mk T ops)
    (hT : ∀ h n, held h = some n → T n = some (mk h)) (hsp : ∀ n ∈ spare, T n = none) :
    (∀ h n, held' h = some n → applyAll mk T ops n = some (mk h)) ∧
      (∀ x ∈ hits mk T ops, x.owner = some (mk x.handle) ∨ (loose x.handle ∧ x.owner = none)) ∧
      ∀ n w, T n = some w → (∀ h, w ≠ mk h) → applyAll mk T ops n = some w := by
  induction ho generalizing T with
  | done => exact ⟨hT, fun x hx => absurd hx (by simp [hits]), fun n w hw _ => hw⟩
  | @acquire held held' spare h n ops _ ih =>
    obtain ⟨hn, hu⟩ := hu
    have hkeep : ∀ a w, T a = some w → apply mk T (.acquire h n) a = some w := fun a w ha => by
      have hne : a ≠ n := fun he => by rw [he, hn] at ha; cases ha
      rw [← ha]
      exact Function.update_of_ne hne ..
    have hT' : ∀ a x, Function.update held h (some n) a = some x →
        apply mk T (.acquire h n) x = some (mk a) := fun a x ha => by
      by_cases hah : a = h
      · subst hah
        rw [Function.update_self] at ha
        obtain rfl := Option.some.inj ha
        exact Function.update_self ..
      · rw [Function.update_of_ne hah] at ha
        exact hkeep _ _ (hT a x ha)
    obtain ⟨h₁, h₂, h₃⟩ := ih hu hT' fun a ha => absurd ha (by simp)
    exact ⟨h₁, h₂, fun a w ha hw => h₃ a w (hkeep a w ha) hw⟩
  | @close held held' spare h n ops hh _ ih =>
    have hown := hT h n hh
    have hT' : ∀ a x, Function.update held h none a = some x →
        apply mk T (.close h n) x = some (mk a) := fun a x ha => by
      by_cases hah : a = h
      · subst hah
        rw [Function.update_self] at ha
        cases ha
      · rw [Function.update_of_ne hah] at ha
        have hx := hT a x ha
        have hne : x ≠ n := fun he => by
          rw [he, hown] at hx
          exact hah (hmk (Option.some.inj hx)).symm
        rw [← hx]
        exact Function.update_of_ne hne ..
    have hsp' : ∀ a ∈ n :: spare, apply mk T (.close h n) a = none := fun a ha => by
      by_cases han : a = n
      · subst han
        exact Function.update_self ..
      · rw [← hsp a ((List.mem_cons.mp ha).resolve_left han)]
        exact Function.update_of_ne han ..
    obtain ⟨h₁, h₂, h₃⟩ := ih hu hT' hsp'
    refine ⟨h₁, fun x hx => ?_, fun a w ha hw => h₃ a w ?_ hw⟩
    · rcases List.mem_cons.mp hx with rfl | hx
      · exact .inl hown
      · exact h₂ x hx
    · have hne : a ≠ n := fun he => by
        rw [he, hown] at ha
        exact hw h (Option.some.inj ha).symm
      rw [← ha]
      exact Function.update_of_ne hne ..
  | @again held held' spare h n ops hl hn _ ih =>
    have hfree := hsp n hn
    have hsame : apply mk T (.close h n) = T := by
      funext a
      by_cases han : a = n
      · subst han
        exact (Function.update_self ..).trans hfree.symm
      · exact Function.update_of_ne han ..
    have hu' : Unused mk T ops := by rw [← hsame]; exact hu
    obtain ⟨h₁, h₂, h₃⟩ := ih hu' hT hsp
    have hall : applyAll mk T (.close h n :: ops) = applyAll mk T ops := by
      show (ops.foldl (apply mk) (apply mk T (.close h n))) = _
      rw [hsame]
      rfl
    rw [hall]
    refine ⟨h₁, fun x hx => ?_, h₃⟩
    have hhits : hits mk T (.close h n :: ops) = ⟨h, n, T n⟩ :: hits mk T ops := by
      show _ :: hits mk (apply mk T (.close h n)) ops = _
      rw [hsame]
    rw [hhits] at hx
    rcases List.mem_cons.mp hx with rfl | hx
    · exact .inr ⟨hl, hfree⟩
    · exact h₂ x hx

end Handles

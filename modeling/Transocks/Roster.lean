import Transocks.Clients

/-!
# The list of clients as a data structure

The calls that touch the list, taken on their own: `transocks_client_new` links a record to itself,
`listener_cb` puts it at the tail and `transocks_client_free` unlinks it, wherever it is and also
when it was never put on the list. A sequence of them may come in any order that creates a record
before it is used and releases it once; the memory of a released record may be allocated again.

`current ops` is what the list is for: the clients that were registered and not yet released, in
the order of their registration. The pointers in memory form the ring of exactly these.
-/

namespace Transocks

open Circular Runs

/-- A call that touches the list, with the record it is about. `release` has the contents of the
record when it is freed. -/
inductive RosterOp
  | create (i : ℕ) (k : AcceptCalls)
  | register (i : ℕ)
  | release (i : ℕ) (c : Conn)

/-- The calls it makes. -/
def RosterOp.effects : RosterOp → List Effect
  | .create _ k => (clientNew k).2
  | .register _ => [.listAddTail]
  | .release _ c => (clientFree c).out

/-- What a record's memory is used for. -/
inductive Slot
  | unused
  | created
  | registered
  deriving DecidableEq, Repr

/-- The pointers in memory, and the records that exist. -/
structure Roster where
  reg : Registry
  slot : ℕ → Slot

def Roster.init : Roster := ⟨(World.init 0).reg, fun _ => .unused⟩

/-- The calls of `op` on behalf of record `i`, which becomes `s`. -/
def Roster.perform (r : Roster) (op : RosterOp) (i : ℕ) (s : Slot) : Roster :=
  ⟨op.effects.foldl (Registry.perform i) r.reg, Function.update r.slot i s⟩

/-- A client is created in memory that is not in use, registered at most once, and released once.
When an address cannot be allocated, `transocks_client_new` frees the record again. -/
inductive RosterStep (r : Roster) : RosterOp → Roster → Prop
  | create {i : ℕ} {k : AcceptCalls} (hi : r.slot i = .unused) (hk : k.mallocClient = true) :
    RosterStep r (.create i k)
      (r.perform (.create i k) i (if (clientNew k).1.isSome then .created else .unused))
  | register {i : ℕ} (hi : r.slot i = .created) :
    RosterStep r (.register i) (r.perform (.register i) i .registered)
  | release {i : ℕ} {c : Conn} (hi : r.slot i ≠ .unused) (hl : c.released = false)
      (hs : c.clientState ≠ .destroyed ∧ c.clientState ≠ .destroying) (hq : c.out = []) :
    RosterStep r (.release i c) (r.perform (.release i c) i .unused)

/-! ## What the list is for -/

def RosterOp.releases (i : ℕ) : RosterOp → Bool
  | .release j _ => j == i
  | _ => false

/-- The clients that were registered and are not released later, in the order of registration. -/
def current : List RosterOp → List ℕ
  | [] => []
  | .register i :: ops => if ops.any (RosterOp.releases i) then current ops else i :: current ops
  | _ :: ops => current ops

section Current

variable (ops : List RosterOp) (i : ℕ)

theorem current_create (k : AcceptCalls) : current (ops ++ [.create i k]) = current ops := by
  induction ops with
  | nil => rfl
  | cons op ops ih =>
    cases op with
    | create j k' => exact ih
    | register j => simp [current, ih, RosterOp.releases]
    | release j c => exact ih

theorem current_register : current (ops ++ [.register i]) = current ops ++ [i] := by
  induction ops with
  | nil => rfl
  | cons op ops ih =>
    cases op with
    | create j k => exact ih
    | register j =>
      simp only [List.cons_append, current, List.any_append, ih]
      by_cases hj : ops.any (RosterOp.releases j) <;> simp [hj, RosterOp.releases]
    | release j c => exact ih

/-- A release takes its own client out and leaves the order of the others. -/
theorem current_release (c : Conn) :
    current (ops ++ [.release i c]) = (current ops).filter (· ≠ i) := by
  induction ops with
  | nil => rfl
  | cons op ops ih =>
    cases op with
    | create j k => exact ih
    | register j =>
      simp only [List.cons_append, current, List.any_append, ih]
      by_cases hj : ops.any (RosterOp.releases j)
      · simp [hj]
      · by_cases hji : j = i
        · subst hji
          rw [if_neg hj, if_pos (by simp [RosterOp.releases]), List.filter_cons_of_neg (by simp)]
        · rw [if_neg hj, if_neg (by simp [hj, RosterOp.releases, Ne.symm hji]),
            List.filter_cons_of_pos (by simpa using hji)]
    | release j c' => exact ih

end Current

/-! ## One call -/

/-- The pointers run through the clients `l`, which are the registered ones; a record that was
created and not registered only points to itself. -/
structure Roster.Exact (r : Roster) (l : List ℕ) : Prop where
  fault : r.reg.fault = none
  ring : IsRing r.reg.links l
  listed : ∀ i, i ∈ l ↔ r.slot i = .registered
  lone : ∀ i, r.slot i = .created → Linked r.reg.links (.entry i) (.entry i)

section Step

variable {r r' : Roster} {l : List ℕ} {i : ℕ} {op : RosterOp} {s : Slot}

/-- An op on record `i` that leaves the pointers of the other unregistered records alone. -/
theorem Roster.Exact.perform {l' : List ℕ} (h : r.Exact l)
    (hf : (r.perform op i s).reg.fault = none) (hring : IsRing (r.perform op i s).reg.links l')
    (hother : ∀ j, j ≠ i → (j ∈ l' ↔ j ∈ l)) (hi : i ∈ l' ↔ s = .registered)
    (hsame : ∀ j, j ≠ i → j ∉ l → SameAt r.reg.links (r.perform op i s).reg.links (.entry j))
    (hlone : s = .created → Linked (r.perform op i s).reg.links (.entry i) (.entry i)) :
    (r.perform op i s).Exact l' := by
  have hslot : ∀ j, j ≠ i → (r.perform op i s).slot j = r.slot j :=
    fun j hj => Function.update_of_ne hj ..
  have hslot' : (r.perform op i s).slot i = s := Function.update_self ..
  refine ⟨hf, hring, fun j => ?_, fun j hj => ?_⟩
  · by_cases hji : j = i
    · rw [hji, hslot']
      exact hi
    · rw [hslot j hji, hother j hji]
      exact h.listed j
  · by_cases hji : j = i
    · subst hji
      exact hlone (hslot'.symm.trans hj)
    · rw [hslot j hji] at hj
      have hout : j ∉ l := fun hm => absurd (((h.listed j).mp hm).symm.trans hj) (by decide)
      exact Linked.self_same (h.lone j hj) (hsame j hji hout)

theorem entry_ne {i j : ℕ} (h : j ≠ i) : Node.entry j ≠ Node.entry i :=
  fun he => h (Node.entry.inj he)

theorem create_reg (k : AcceptCalls) (hk : k.mallocClient = true) (r : Registry) :
    (clientNew k).2.foldl (Registry.perform i) r =
      { r with links := r.links.init (.entry i) } := by
  have hnotes : (clientNew k).2.filter Effect.notable = [.listInit] := by
    rcases clientNew_cases k with h | h | ⟨es, h, hes⟩
    · simp [clientNew, hk] at h
      split at h <;> cases h
    · rw [h]
      exact notes_newEffects k
    · rw [h]
      exact hes
  rw [Registry.foldl_notes, hnotes]
  rfl

theorem Roster.Exact.create {k : AcceptCalls} (h : r.Exact l) (hi : r.slot i = .unused)
    (hk : k.mallocClient = true) (hs : s ≠ .registered) :
    (r.perform (.create i k) i s).Exact l := by
  have hout : i ∉ l := fun hm => absurd (((h.listed i).mp hm).symm.trans hi) (by decide)
  have hreg : (r.perform (.create i k) i s).reg =
      { r.reg with links := r.reg.links.init (.entry i) } := create_reg k hk r.reg
  refine h.perform ?_ ?_ (fun _ _ => Iff.rfl) ?_ (fun j hj _ => ?_) fun _ => ?_
  · rw [hreg]
    exact h.fault
  · rw [hreg]
    exact h.ring.init hout
  · simp [hout, hs]
  · rw [hreg]
    exact sameAt_init (entry_ne hj)
  · rw [hreg]
    exact init_linked ..

theorem Roster.Exact.register (h : r.Exact l) (hi : r.slot i = .created) :
    (r.perform (.register i) i .registered).Exact (l ++ [i]) := by
  have hout : i ∉ l := fun hm => absurd (((h.listed i).mp hm).symm.trans hi) (by decide)
  obtain ⟨L, hL, hring⟩ := h.ring.addTail hout
  have hreg : (r.perform (.register i) i .registered).reg = { r.reg with links := L } := by
    show r.reg.relink (r.reg.links.addTail i) = _
    rw [hL]
    rfl
  refine h.perform ?_ ?_ (fun j hj => ?_) (by simp) (fun j hj hjl => ?_) (by simp)
  · rw [hreg]
    exact h.fault
  · rw [hreg]
    exact hring
  · simp [hj]
  · rw [hreg]
    exact h.ring.addTail_frame hL (entry_ne hj) fun hm => hjl (entry_mem_nodes.mp hm)

theorem release_reg {c : Conn} {L : Links ℕ} (hl : c.released = false)
    (hs : c.clientState ≠ .destroyed ∧ c.clientState ≠ .destroying) (hq : c.out = [])
    (hL : r.reg.links.del i = some L) :
    (r.perform (.release i c) i .unused).reg.links = L ∧
      (r.perform (.release i c) i .unused).reg.fault = r.reg.fault := by
  obtain ⟨a, ha, hnotes⟩ := plain_clientFreeEffects c
  have hfold : (r.perform (.release i c) i .unused).reg =
      (a ++ [Effect.listDel]).foldl (Registry.perform i) r.reg := by
    show (clientFree c).out.foldl (Registry.perform i) r.reg = _
    rw [clientFree_out hl hs, hq, List.nil_append, Registry.foldl_notes, hnotes]
  rw [hfold]
  exact Registry.foldl_del ha (by rfl) hL

/-- A release takes the record out of the ring. The pointers of the ring stay as they are when it
was not in it. -/
theorem Roster.Exact.release {c : Conn} (h : r.Exact l) (hi : r.slot i ≠ .unused)
    (hl : c.released = false) (hs : c.clientState ≠ .destroyed ∧ c.clientState ≠ .destroying)
    (hq : c.out = []) :
    (r.perform (.release i c) i .unused).Exact (l.filter (· ≠ i)) ∧
      (i ∉ l → ∀ a ∈ nodes l,
        SameAt r.reg.links (r.perform (.release i c) i .unused).reg.links a) := by
  by_cases hm : i ∈ l
  · obtain ⟨l₁, l₂, rfl⟩ := List.append_of_mem hm
    obtain ⟨L, hL, hring⟩ := h.ring.del
    obtain ⟨hlinks, hf⟩ := release_reg hl hs hq hL
    have hfilter : (l₁ ++ i :: l₂).filter (· ≠ i) = l₁ ++ l₂ := by
      have hnd := h.ring.nodup
      rw [List.nodup_append, List.nodup_cons] at hnd
      obtain ⟨-, ⟨h₂, -⟩, h₁⟩ := hnd
      have hleft : l₁.filter (· ≠ i) = l₁ := List.filter_eq_self.mpr fun x hx => by
        simpa using h₁ x hx i List.mem_cons_self
      have hright : l₂.filter (· ≠ i) = l₂ := List.filter_eq_self.mpr fun x hx => by
        simpa using fun he : x = i => h₂ (he ▸ hx)
      rw [List.filter_append, List.filter_cons_of_neg (by simp), hleft, hright]
    refine ⟨h.perform (hf.trans h.fault) ?_ (fun j hj => by simp [hj]) (by simp)
      (fun j hj hjl => ?_) (by simp), fun hn => absurd hm hn⟩
    · rw [hlinks, hfilter]
      exact hring
    · rw [hlinks]
      exact h.ring.del_frame hm hL fun hjm => hjl (entry_mem_nodes.mp hjm)
  · -- the record only points to itself
    have hcreated : r.slot i = .created := by
      have := mt (h.listed i).mpr hm
      cases hst : r.slot i <;> simp_all
    obtain ⟨L, hL, hsame⟩ := del_self (h.lone i hcreated)
    obtain ⟨hlinks, hf⟩ := release_reg hl hs hq hL
    have hfilter : l.filter (· ≠ i) = l := List.filter_eq_self.mpr fun x hx => by
      simpa using fun he : x = i => hm (he ▸ hx)
    have hpointers : ∀ a ∈ nodes l,
        SameAt r.reg.links (r.perform (.release i c) i .unused).reg.links a := by
      rw [hlinks]
      exact fun a ha => hsame a (entry_ne_of_mem hm ha)
    rw [hfilter]
    refine ⟨h.perform (hf.trans h.fault) (h.ring.congr hpointers) (fun _ _ => Iff.rfl)
      (by simp [hm]) (fun j hj _ => ?_) (by simp), fun _ => hpointers⟩
    rw [hlinks]
    exact hsame _ (entry_ne hj)

end Step

/-! ## All sequences of calls -/

section Run

variable {r r' : Roster} {ops : List RosterOp} {op : RosterOp}

theorem exact_init : Roster.init.Exact [] :=
  ⟨rfl, isRing_nil _, fun i => by simp [Roster.init], fun i hi => by cases hi⟩

theorem Roster.Exact.step (h : r.Exact (current ops)) (hs : RosterStep r op r') :
    r'.Exact (current (ops ++ [op])) := by
  cases hs with
  | create hi hk =>
    rw [current_create]
    refine h.create hi hk ?_
    split <;> decide
  | register hi =>
    rw [current_register]
    exact h.register hi
  | release hi hl hs hq =>
    rw [current_release]
    exact (h.release hi hl hs hq).1

theorem exact_run (hrun : Run RosterStep Roster.init ops r) : r.Exact (current ops) := by
  induction hrun with
  | nil => exact exact_init
  | snoc _ hs ih => exact ih.step hs

/-- **The list of clients is exact.** After any sequence of creations, registrations and releases no
bad pointer was followed, and the pointers from the sentinel form one ring, `next` and `prev`
inverse to each other, through the clients that were registered and not released, once each and in
the order of registration. A release takes its client out of that order and changes nothing about
the others; when its client was never registered, no pointer of the ring changes. -/
theorem roster_exact (hrun : Run RosterStep Roster.init ops r) :
    r.reg.fault = none ∧ IsRing r.reg.links (current ops) ∧
      (∀ a ∈ nodes (current ops), ∀ b ∈ nodes (current ops),
        r.reg.links.next a = some b ↔ r.reg.links.prev b = some a) ∧
      ∀ i c r', RosterStep r (.release i c) r' →
        r'.reg.fault = none ∧ IsRing r'.reg.links ((current ops).filter (· ≠ i)) ∧
          (i ∉ current ops → ∀ a ∈ nodes (current ops), SameAt r.reg.links r'.reg.links a) := by
  have h := exact_run hrun
  refine ⟨h.fault, h.ring, fun a ha b hb => h.ring.inverse ha hb, fun i c r' hs => ?_⟩
  cases hs with
  | release hi hl hs hq =>
    obtain ⟨h', hsame⟩ := h.release hi hl hs hq
    exact ⟨h'.fault, h'.ring, hsame⟩

end Run

/-- Two clients are registered and a third one is created. -/
def threeClients : List RosterOp :=
  [.create 0 AcceptCalls.ok, .register 0, .create 1 AcceptCalls.ok, .register 1,
    .create 2 AcceptCalls.ok]

/-- Releasing the first client leaves the second, and releasing the third leaves both. -/
theorem roster_exact_threeClients :
    ∃ r, Run RosterStep Roster.init threeClients r ∧ IsRing r.reg.links [0, 1] ∧
      (∃ r', RosterStep r (.release 0 Conn.new) r' ∧ IsRing r'.reg.links [1]) ∧
      ∃ r', RosterStep r (.release 2 Conn.new) r' ∧
        ∀ a ∈ nodes [0, 1], SameAt r.reg.links r'.reg.links a := by
  have hrun : ∃ r, Run RosterStep Roster.init threeClients r ∧ r.slot 0 = .registered ∧
      r.slot 2 = .created := by
    refine ⟨_, .snoc (.snoc (.snoc (.snoc (Run.one (.create rfl rfl)) (.register rfl))
      (.create rfl rfl)) (.register rfl)) (.create rfl rfl), rfl, rfl⟩
  obtain ⟨r, hrun, h0, h2⟩ := hrun
  obtain ⟨-, hring, -, hrel⟩ := roster_exact hrun
  have hstep : ∀ i, r.slot i ≠ .unused → RosterStep r (.release i Conn.new) _ := fun i hi =>
    .release hi rfl (by decide) rfl
  have h0' := hstep 0 (by rw [h0]; decide)
  have h2' := hstep 2 (by rw [h2]; decide)
  exact ⟨r, hrun, hring, ⟨_, h0', (hrel _ _ _ h0').2.1⟩, _, h2', (hrel _ _ _ h2').2.2 (by decide)⟩

end Transocks

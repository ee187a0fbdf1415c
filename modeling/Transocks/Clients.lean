import Transocks.AcceptSteps
import Transocks.Handover
import Transocks.World

/-!
# The list of clients over whole runs

`Registered m w l` is the state of the program between two callbacks that went well: the pointers
of the list run through the clients `l`, each of them is in one of its phases, and every other
client is released. A step keeps this up or sets the fault, and the only way to release a client
twice is a start of the splice pump that fails with the pump record attached.

`transocks_drop_all_clients` walks the list while its body unlinks entries. It always ends and
visits every client once, but a client that has no pump yet survives the splice pump's free
function.
-/

namespace Transocks

open Circular Handles Runs

/-! ## What calls do to the registry -/

namespace Registry

variable {i : ℕ} {r : Registry} {e x : Effect} {es : List Effect}

theorem perform_unnoted (h : e.notable = false) : r.perform i e = r := by
  cases e with
  | shutdown => rfl
  | alloc => rfl
  | free => rfl
  | _ => cases h

/-- Only the notable calls matter to the registry. -/
theorem foldl_notes (r : Registry) (es : List Effect) :
    es.foldl (perform i) r = (es.filter Effect.notable).foldl (perform i) r := by
  induction es generalizing r with
  | nil => rfl
  | cons e es ih =>
    rw [List.foldl_cons, ih, List.filter_cons]
    split
    · rfl
    · rename_i h
      rw [perform_unnoted (by simpa using h)]

theorem perform_fault (h : r.fault = some x) : (r.perform i e).fault = some x := by
  have hrel : ∀ L, (r.relink L).fault = some x := by
    intro L
    cases L with
    | none => simp [relink, faulted, h]
    | some L => exact h
  cases e with
  | listAddTail => exact hrel _
  | listDel => exact hrel _
  | doubleFree => simp [perform, faulted, h]
  | useAfterFree => simp [perform, faulted, h]
  | badPointer => simp [perform, faulted, h]
  | _ => exact h

theorem foldl_fault (h : r.fault = some x) : (es.foldl (perform i) r).fault = some x := by
  induction es generalizing r with
  | nil => exact h
  | cons e es ih => exact ih (perform_fault h)

/-- A call that is no use of a freed record can at most run into a bad pointer. -/
theorem perform_benign (hr : r.fault = none ∨ r.fault = some .badPointer)
    (he : e ≠ .doubleFree ∧ e ≠ .useAfterFree) :
    (r.perform i e).fault = none ∨ (r.perform i e).fault = some .badPointer := by
  rcases hr with hr | hr
  swap
  · exact .inr (perform_fault hr)
  have hrel : ∀ L, (r.relink L).fault = none ∨ (r.relink L).fault = some .badPointer := by
    intro L
    cases L with
    | none => simp [relink, faulted, hr]
    | some L => exact .inl hr
  cases e with
  | listAddTail => exact hrel _
  | listDel => exact hrel _
  | doubleFree => exact absurd rfl he.1
  | useAfterFree => exact absurd rfl he.2
  | badPointer => simp [perform, faulted, hr]
  | _ => exact .inl hr

theorem foldl_benign (hr : r.fault = none ∨ r.fault = some .badPointer)
    (hes : ∀ e ∈ es, e ≠ .doubleFree ∧ e ≠ .useAfterFree) :
    (es.foldl (perform i) r).fault = none ∨ (es.foldl (perform i) r).fault = some .badPointer := by
  induction es generalizing r with
  | nil => exact hr
  | cons e es ih =>
    exact ih (perform_benign hr (hes e List.mem_cons_self))
      fun x hx => hes x (List.mem_cons_of_mem e hx)

theorem foldl_crashed (hr : r.fault = none) (h : Crashed es) :
    (es.foldl (perform i) r).fault = some .badPointer := by
  obtain ⟨pre, post, rfl, hpre⟩ := h
  rw [List.foldl_append, List.foldl_cons]
  refine foldl_fault ?_
  rcases foldl_benign (i := i) (.inl hr) hpre with h | h
  · simp [perform, faulted, h]
  · exact perform_fault h

theorem perform_plain (h : e.plain = true) :
    (r.perform i e).links = r.links ∧ (r.perform i e).fault = r.fault := by
  cases e with
  | opened => exact ⟨rfl, rfl⟩
  | closed => exact ⟨rfl, rfl⟩
  | bevFree => exact ⟨rfl, rfl⟩
  | _ => cases h

theorem foldl_plain (h : Plain es) :
    (es.foldl (perform i) r).links = r.links ∧ (es.foldl (perform i) r).fault = r.fault := by
  induction es generalizing r with
  | nil => exact ⟨rfl, rfl⟩
  | cons e es ih =>
    unfold Plain at h
    rw [List.all_cons, Bool.and_eq_true] at h
    obtain ⟨hl, hf⟩ := perform_plain (i := i) (r := r) h.1
    obtain ⟨hl', hf'⟩ := ih (r := r.perform i e) h.2
    exact ⟨hl'.trans hl, hf'.trans hf⟩

variable {l l₁ l₂ : List ℕ}

/-- Plain calls, then an unlinking of entry `i`, then plain calls. -/
theorem foldl_del {L : Links ℕ} {a b : List Effect} (ha : Plain a)
    (hb : Plain b) (hd : r.links.del i = some L) :
    ((a ++ .listDel :: b).foldl (perform i) r).links = L ∧
      ((a ++ .listDel :: b).foldl (perform i) r).fault = r.fault := by
  rw [List.foldl_append, List.foldl_cons]
  obtain ⟨hl, hf⟩ := foldl_plain (i := i) (r := r) ha
  have hperf : (a.foldl (perform i) r).perform i .listDel =
      { a.foldl (perform i) r with links := L } := by
    show relink _ ((a.foldl (perform i) r).links.del i) = _
    rw [hl, hd]
    rfl
  rw [hperf]
  obtain ⟨hl', hf'⟩ := foldl_plain (i := i) (r := { a.foldl (perform i) r with links := L }) hb
  exact ⟨hl', hf'.trans hf⟩

theorem foldl_releaseNotes (h : IsRing r.links (l₁ ++ i :: l₂)) (f : Side → ℕ) (g : Side → Fd) :
    IsRing ((releaseNotes f g).foldl (perform i) r).links (l₁ ++ l₂) ∧
      ((releaseNotes f g).foldl (perform i) r).fault = r.fault := by
  obtain ⟨L, hd, hring⟩ := h.del
  obtain ⟨hl, hf⟩ := foldl_del (r := r) (a := [.closed (.sock .client) (f .client),
    .closed (.sock .relay) (f .relay), .bevFree .relay (g .relay), .bevFree .client (g .client)])
    (b := []) rfl rfl hd
  exact ⟨hl ▸ hring, hf⟩

theorem foldl_piping {st : List Effect} (h : Piping st) (r : Registry) :
    st.foldl (perform i) r = r := by
  induction st generalizing r with
  | nil => rfl
  | cons e st ih =>
    have he := h e List.mem_cons_self
    have hperf : r.perform i e = r := by
      cases e with
      | opened => rfl
      | closed => rfl
      | startPump => rfl
      | _ => cases he
    rw [List.foldl_cons, hperf]
    exact ih (fun x hx => h x (List.mem_cons_of_mem e hx)) r

theorem foldl_init (h : IsRing r.links l) (hi : i ∉ l) {x : List Effect} (hx : Plain x) :
    IsRing ((x ++ [Effect.listInit]).foldl (perform i) r).links l ∧
      ((x ++ [Effect.listInit]).foldl (perform i) r).fault = r.fault ∧
      ((x ++ [Effect.listInit]).foldl (perform i) r).links = r.links.init (.entry i) := by
  obtain ⟨hl, hf⟩ := foldl_plain (i := i) (r := r) hx
  have hlinks : ((x ++ [Effect.listInit]).foldl (perform i) r).links = r.links.init (.entry i) := by
    rw [List.foldl_append]
    show (x.foldl (perform i) r).links.init _ = _
    rw [hl]
  refine ⟨hlinks ▸ h.init hi, ?_, hlinks⟩
  rw [List.foldl_append]
  exact hf

theorem foldl_register (h : IsRing r.links l) (hi : i ∉ l) {x : List Effect} (hx : Plain x) :
    IsRing ((x ++ [Effect.listInit, .listAddTail]).foldl (perform i) r).links (l ++ [i]) ∧
      ((x ++ [Effect.listInit, .listAddTail]).foldl (perform i) r).fault = r.fault := by
  obtain ⟨hring, hf, -⟩ := foldl_init h hi hx
  obtain ⟨L, ha, hring'⟩ := hring.addTail hi
  have hfold : (x ++ [Effect.listInit, .listAddTail]).foldl (perform i) r =
      { (x ++ [Effect.listInit]).foldl (perform i) r with links := L } := by
    rw [show x ++ [Effect.listInit, .listAddTail] =
        (x ++ [Effect.listInit]) ++ [.listAddTail] by simp,
      List.foldl_append]
    show relink _ (((x ++ [Effect.listInit]).foldl (perform i) r).links.addTail i) = _
    rw [ha]
    rfl
  rw [hfold]
  exact ⟨hring', hf⟩

/-- An accept that freed its record again leaves the list as it was. -/
theorem foldl_discarded (h : IsRing r.links l) (hi : i ∉ l) (hd : Discarded es) :
    IsRing (es.foldl (perform i) r).links l ∧ (es.foldl (perform i) r).fault = r.fault := by
  cases hd with
  | @lone x a b hx ha hb =>
    obtain ⟨-, hf, hlinks⟩ := foldl_init h hi hx
    obtain ⟨L, hdel, hring⟩ := h.del_lone hi
    obtain ⟨hl, hf'⟩ := foldl_del (r := (x ++ [Effect.listInit]).foldl (perform i) r) ha hb
      (by rw [hlinks]; exact hdel)
    rw [show x ++ Effect.listInit :: (a ++ .listDel :: b) =
        (x ++ [Effect.listInit]) ++ (a ++ .listDel :: b) by simp,
      List.foldl_append]
    exact ⟨hl ▸ hring, hf'.trans hf⟩
  | @tail x a b hx ha hb =>
    obtain ⟨hreg, hf⟩ := foldl_register h hi hx
    obtain ⟨L, hdel, hring⟩ := hreg.del
    obtain ⟨hl, hf'⟩ := foldl_del ha hb hdel
    rw [List.append_nil] at hring
    rw [show x ++ Effect.listInit :: .listAddTail :: (a ++ .listDel :: b) =
      (x ++ [Effect.listInit, .listAddTail]) ++ (a ++ .listDel :: b) by simp, List.foldl_append]
    exact ⟨hl ▸ hring, hf'.trans hf⟩

/-- An accept that never filled in its record leaves the list as it was. -/
theorem foldl_refused (h : IsRing r.links l) (hi : i ∉ l)
    (hn : Plain es ∨ ∃ x a, es = x ++ .listInit :: a ∧ Plain x ∧ Plain a) :
    IsRing (es.foldl (perform i) r).links l ∧ (es.foldl (perform i) r).fault = r.fault := by
  rcases hn with hn | ⟨x, a, rfl, hx, ha⟩
  · obtain ⟨hl, hf⟩ := foldl_plain (i := i) (r := r) hn
    exact ⟨hl ▸ h, hf⟩
  · obtain ⟨hring, hf, -⟩ := foldl_init h hi hx
    obtain ⟨hl, hf'⟩ := foldl_plain (i := i)
      (r := (x ++ [Effect.listInit]).foldl (perform i) r) ha
    rw [show x ++ Effect.listInit :: a = (x ++ [Effect.listInit]) ++ a by simp, List.foldl_append]
    exact ⟨hl ▸ hring, hf'.trans hf⟩

end Registry

/-! ## The clients that are registered -/

theorem Attached.rewrite {c : Conn} {f : Side → ℕ} {g : Side → Fd} (h : Attached c f g)
    (es : List Effect) : Attached { c with out := es } f g := ⟨h.live, h.notFreed, h.fd, h.bev⟩

theorem Phase.rewrite {m : PumpMethod} {c : Conn} {f : Side → ℕ} (h : Phase m c f)
    (es : List Effect) : Phase m { c with out := es } f := by
  cases h with
  | handshaking b h =>
    exact .handshaking b ⟨h.toAttached.rewrite es, h.noPump, h.shutRead, h.shutWrite, h.client,
      h.relay,
      h.relayFd, h.writecb, h.readcb, h.eventcb⟩
  | copying h => exact .copying ⟨h.toAttached.rewrite es, h.noPump, h.timer, h.cbs⟩
  | splicing p h =>
    exact .splicing p ⟨h.toAttached.rewrite es, h.pumping, h.pump, h.timer, h.pipefd, h.unfinished⟩

theorem Inert.rewrite {c : Conn} (h : Inert c) (es : List Effect) : Inert { c with out := es } :=
  ⟨h.released, h.bev, h.timer, h.events⟩

theorem Phase.live {m : PumpMethod} {c : Conn} {f : Side → ℕ} (h : Phase m c f) :
    c.released = false := by
  cases h with
  | handshaking b h => exact h.live
  | copying h => exact h.live
  | splicing p h => exact h.live

/-- The list runs through the clients `l`; these are in their phases and all others are released. -/
structure Registered (m : PumpMethod) (w : World) (l : List ℕ) : Prop where
  ring : IsRing w.reg.links l
  on : ∀ i ∈ l, ∃ c f, w.conns i = some c ∧ Phase m c f
  off : ∀ i c, w.conns i = some c → i ∉ l → Inert c
  quiet : ∀ i c, w.conns i = some c → c.out = []
  fresh : ∀ i, w.nextId ≤ i → w.conns i = none

section Registered

variable {m : PumpMethod} {w w' : World} {l l₁ l₂ : List ℕ} {i : ℕ} {c : Conn} {f : Side → ℕ}
  {st : List Effect}

theorem registered_init (m : PumpMethod) (n : ℕ) : Registered m (World.init n) [] where
  ring := isRing_nil _
  on := fun _ hi => absurd hi (by simp)
  off := fun _ _ hc => absurd hc (by simp [World.init])
  quiet := fun _ _ hc => absurd hc (by simp [World.init])
  fresh := fun _ _ => rfl

theorem Registered.mem (h : Registered m w l) (hc : w.conns i = some c) :
    i ∈ l ↔ c.released = false := by
  constructor
  · intro hi
    obtain ⟨c', f, hc', hp⟩ := h.on i hi
    obtain rfl := Option.some.inj (hc.symm.trans hc')
    exact hp.live
  · intro hl
    by_contra hi
    exact absurd ((h.off i c hc hi).released.symm.trans hl) (by decide)

theorem Registered.nextId_notMem (h : Registered m w l) : w.nextId ∉ l := fun hi => by
  obtain ⟨c, f, hc, -⟩ := h.on _ hi
  rw [h.fresh _ le_rfl] at hc
  cases hc

theorem ran_conns_same : (w.ran i c).conns i = some { c with out := [] } := Function.update_self ..

theorem ran_conns_ne {j : ℕ} (h : j ≠ i) : (w.ran i c).conns j = w.conns j :=
  Function.update_of_ne h ..

theorem ran_reg : (w.ran i c).reg = c.notes.foldl (Registry.perform i) w.reg :=
  Registry.foldl_notes ..

theorem Registered.ran {l' : List ℕ} (h : Registered m w l) (hi : i < w.nextId)
    (hring : IsRing (w.ran i c).reg.links l') (hl : ∀ j, j ≠ i → (j ∈ l' ↔ j ∈ l))
    (hin : i ∈ l' → ∃ f, Phase m c f) (hout : i ∉ l' → Inert c) : Registered m (w.ran i c) l' := by
  refine ⟨hring, fun j hj => ?_, fun j d hd hj => ?_, fun j d hd => ?_, fun j hj => ?_⟩
  · by_cases hji : j = i
    · subst hji
      obtain ⟨f, hp⟩ := hin hj
      exact ⟨_, f, ran_conns_same, hp.rewrite []⟩
    · rw [ran_conns_ne hji]
      exact h.on j ((hl j hji).mp hj)
  · by_cases hji : j = i
    · subst hji
      obtain rfl := Option.some.inj (ran_conns_same.symm.trans hd)
      exact (hout hj).rewrite []
    · rw [ran_conns_ne hji] at hd
      exact h.off j d hd fun hjl => hj ((hl j hji).mpr hjl)
  · by_cases hji : j = i
    · subst hji
      obtain rfl := Option.some.inj (ran_conns_same.symm.trans hd)
      rfl
    · rw [ran_conns_ne hji] at hd
      exact h.quiet j d hd
  · have hji : j ≠ i := fun he => absurd hi (by
      rw [← he]
      exact Nat.not_lt.mpr hj)
    rw [ran_conns_ne hji]
    exact h.fresh j hj

theorem Registered.lt_nextId (h : Registered m w l) (hc : w.conns i = some c) : i < w.nextId := by
  by_contra hi
  rw [h.fresh i (Nat.not_lt.mp hi)] at hc
  cases hc

theorem Registered.stays (h : Registered m w l) (hi : i ∈ l) (hp : Phase m c f)
    (hn : c.notes = st) (hst : Piping st) :
    Registered m (w.ran i c) l ∧ (w.ran i c).reg.fault = w.reg.fault := by
  obtain ⟨c₀, f₀, hc₀, -⟩ := h.on i hi
  have hreg : (w.ran i c).reg = w.reg := by rw [ran_reg, hn, Registry.foldl_piping hst]
  exact ⟨h.ran (h.lt_nextId hc₀) (by rw [hreg]; exact h.ring) (fun _ _ => Iff.rfl)
    (fun _ => ⟨f, hp⟩)
    fun hn => absurd hi hn, by rw [hreg]⟩

theorem Registered.release (h : Registered m w (l₁ ++ i :: l₂)) (hc : Inert c) {g : Side → Fd}
    (hn : c.notes = st ++ releaseNotes f g) (hst : Piping st) :
    Registered m (w.ran i c) (l₁ ++ l₂) ∧ (w.ran i c).reg.fault = w.reg.fault := by
  obtain ⟨c₀, f₀, hc₀, -⟩ := h.on i (by simp)
  have hnd := h.ring.nodup
  rw [List.nodup_append, List.nodup_cons] at hnd
  obtain ⟨-, ⟨hi₂, -⟩, hi₁⟩ := hnd
  obtain ⟨hring, hf⟩ := Registry.foldl_releaseNotes h.ring f g
  have hreg : (w.ran i c).reg = (releaseNotes f g).foldl (Registry.perform i) w.reg := by
    rw [ran_reg, hn, List.foldl_append, Registry.foldl_piping hst]
  have hnot : i ∉ l₁ ++ l₂ := fun hi => by
    rcases List.mem_append.mp hi with hi | hi
    · exact hi₁ i hi i List.mem_cons_self rfl
    · exact hi₂ hi
  refine ⟨h.ran (h.lt_nextId hc₀) (by rw [hreg]; exact hring) (fun j hj => ?_)
    (fun hi => absurd hi hnot) fun _ => hc, by rw [hreg]; exact hf⟩
  simp [hj]

theorem Registered.reserve (h : Registered m w l) (n : ℕ) (hn : w.nextId ≤ n) :
    Registered m { w with nextId := n } l :=
  ⟨h.ring, h.on, h.off, h.quiet, fun i hi => h.fresh i (hn.trans hi)⟩

/-- A change to the descriptor table, the closes or the finalizers. -/
theorem Registered.of_same (h : Registered m w l) (hc : w'.conns = w.conns)
    (hn : w'.nextId = w.nextId) (hr : IsRing w'.reg.links l) : Registered m w' l :=
  ⟨hr, by rw [hc]; exact h.on, by rw [hc]; exact h.off, by rw [hc]; exact h.quiet,
    by rw [hc, hn]; exact h.fresh⟩

theorem finalized_reg (w : World) (j : ℕ) (d : Deferred) :
    (w.finalized j d).reg.links = w.reg.links ∧ (w.finalized j d).reg.fault = w.reg.fault ∧
      (w.finalized j d).conns = w.conns ∧ (w.finalized j d).nextId = w.nextId := by
  unfold World.finalized
  split <;> exact ⟨rfl, rfl, rfl, rfl⟩

end Registered

/-! ## One step -/

/-- Nothing went wrong so far, or a null pointer or a pointer to a freed bufferevent stopped the
program. -/
def Healthy (m : PumpMethod) (w : World) : Prop :=
  (w.reg.fault = none ∧ ∃ l, Registered m w l) ∨ w.reg.fault = some .badPointer

/-- The step does not start the splice pump badly. -/
def StartsWell (m : PumpMethod) (w : World) : Act → Prop
  | .callback i ev => ∀ c, w.conns i = some c → ¬ c.StartsBadly m ev
  | _ => True

section Step

variable {m : PumpMethod} {w w' : World} {l : List ℕ} {i : ℕ} {c : Conn} {ev : Ev} {act : Act}

/-- The loop runs callbacks of registered clients only. -/
theorem Registered.enabled (h : Registered m w l) (hc : w.conns i = some c) (hen : c.Enabled ev) :
    i ∈ l ∧ ∃ f, Phase m c f := by
  by_cases hi : i ∈ l
  · obtain ⟨c', f, hc', hp⟩ := h.on i hi
    obtain rfl := Option.some.inj (hc.symm.trans hc')
    exact ⟨hi, f, hp⟩
  · exact absurd hen ((h.off i c hc hi).not_enabled ev)

theorem Registered.notes (h : Registered m w l) (hc : w.conns i = some c) : c.notes = [] :=
  Conn.notes_nil (h.quiet i c hc)

theorem ran_crashed {st : List Effect} (hf : w.reg.fault = none) (hst : Piping st)
    (hn : c.notes = st ++ [.badPointer]) : (w.ran i c).reg.fault = some .badPointer := by
  rw [ran_reg, hn, List.foldl_append, Registry.foldl_piping hst]
  simp [Registry.perform, Registry.faulted, hf]

theorem Registered.callback (h : Registered m w l) (hf : w.reg.fault = none)
    (hc : w.conns i = some c) (hen : c.Enabled ev) (hbad : ¬ c.StartsBadly m ev) :
    Healthy m (w.ran i (c.step m ev)) := by
  obtain ⟨hi, f, hp⟩ := h.enabled hc hen
  obtain ⟨st, hst, hnext⟩ := phase_step hp hen hbad
  rw [h.notes hc, List.nil_append] at hnext
  cases hnext with
  | stays hp' hn =>
    obtain ⟨h', hf'⟩ := h.stays hi hp' hn hst
    exact .inl ⟨hf'.trans hf, l, h'⟩
  | released g hg hin hn =>
    obtain ⟨l₁, l₂, rfl⟩ := List.append_of_mem hi
    obtain ⟨h', hf'⟩ := h.release hin hn hst
    exact .inl ⟨hf'.trans hf, _, h'⟩
  | crashed hn => exact .inr (ran_crashed hf hst hn)

/-- A bad start enters `transocks_client_free` with a freed record. -/
theorem Registered.callback_twice (h : Registered m w l) (hf : w.reg.fault = none)
    (hc : w.conns i = some c) (hen : c.Enabled ev) (hbad : c.StartsBadly m ev) :
    (w.ran i (c.step m ev)).reg.fault = some .doubleFree := by
  obtain ⟨hi, f, hp⟩ := h.enabled hc hen
  obtain ⟨st, hst, hn⟩ := phase_step_twice hp hen hbad
  obtain ⟨l₁, l₂, rfl⟩ := List.append_of_mem hi
  obtain ⟨-, hf'⟩ := Registry.foldl_releaseNotes h.ring f handedOver
  rw [ran_reg, hn, h.notes hc, List.nil_append, List.foldl_append, List.foldl_append,
    Registry.foldl_piping hst]
  show (Registry.faulted _ .doubleFree).fault = _
  simp [Registry.faulted, hf', hf]

theorem Registered.accept (h : Registered m w l) (hf : w.reg.fault = none) (k : AcceptCalls) :
    Healthy m (w.accepted k) := by
  have hres := h.reserve (w.nextId + 1) (Nat.le_succ _)
  have hni := h.nextId_notMem
  have hlt : w.nextId < ({ w with nextId := w.nextId + 1 } : World).nextId := Nat.lt_succ_self _
  unfold World.accepted
  cases accept_next k with
  | registered c n r b hcb hp hn =>
    simp only [hcb]
    obtain ⟨hring, hf'⟩ := Registry.foldl_register (x := [.opened (.sock .client) n]) h.ring hni rfl
    have hreg : (w.ran w.nextId c).reg = _ := ran_reg.trans (by rw [hn])
    refine .inl ⟨?_, l ++ [w.nextId], hres.ran (i := w.nextId) hlt ?_ (fun j hj => ?_)
      (fun _ => ⟨socketsOf n r, .handshaking b hp⟩) fun hn => absurd (by simp) hn⟩
    · exact (congrArg Registry.fault hreg).trans (hf'.trans hf)
    · exact (congrArg Registry.links hreg) ▸ hring
    · simp [hj]
  | discarded c hcb hin hu hn =>
    simp only [hcb]
    obtain ⟨hring, hf'⟩ := Registry.foldl_discarded h.ring hni hn
    have hreg : (w.ran w.nextId c).reg = _ := ran_reg
    refine .inl ⟨?_, l, hres.ran (i := w.nextId) hlt ?_ (fun j hj => Iff.rfl)
      (fun hi => absurd hi hni) fun _ => hin⟩
    · exact (congrArg Registry.fault hreg).trans (hf'.trans hf)
    · exact (congrArg Registry.links hreg) ▸ hring
  | crashed c hcb hu hn =>
    simp only [hcb]
    exact .inr ((congrArg Registry.fault ran_reg).trans (Registry.foldl_crashed hf hn))
  | refused es hcb hn =>
    simp only [hcb]
    have hreg : (w.exec w.nextId es).reg = _ := Registry.foldl_notes (i := w.nextId) w.reg es
    rcases hn with hn | hn
    · exact .inr ((congrArg Registry.fault hreg).trans (Registry.foldl_crashed hf hn))
    · obtain ⟨hring, hf'⟩ := Registry.foldl_refused h.ring hni hn
      refine .inl ⟨(congrArg Registry.fault hreg).trans (hf'.trans hf), l, hres.of_same rfl rfl ?_⟩
      exact (congrArg Registry.links hreg) ▸ hring

end Step

/-! ## Dropping all clients -/

/-- `transocks_pump_free` leaves the client alone. -/
def Conn.survives (m : PumpMethod) (c : Conn) : Bool := m == .splicepump && c.userArg.isNone

/-- `transocks_pump_free` on a live client. -/
theorem Phase.pumpFree {m : PumpMethod} {c : Conn} {f : Side → ℕ} (h : Phase m c f) :
    (c.survives m = true ∧ pumpFree m c = c) ∨
      (c.survives m = false ∧ Inert (pumpFree m c) ∧
        ∃ st g, Piping st ∧ (pumpFree m c).notes = c.notes ++ st ++ releaseNotes f g) := by
  cases h with
  | handshaking b h =>
    cases m with
    | splicepump =>
      exact .inl ⟨by simp [Conn.survives, h.noPump], splicepumpFree_unattached h.live h.noPump⟩
    | bufferpump =>
      obtain ⟨hi, hn⟩ := h.toAttached.bufferpumpFree h.noPump
      exact .inr ⟨rfl, hi, [], _, Piping.nil, by rw [List.append_nil]; exact hn⟩
  | copying h =>
    obtain ⟨hi, hn⟩ := h.toAttached.bufferpumpFree h.noPump
    exact .inr ⟨rfl, hi, [], _, Piping.nil, by rw [List.append_nil]; exact hn⟩
  | splicing p h =>
    obtain ⟨hi, hn⟩ := h.toAttached.splicepumpFree h.pump
    exact .inr ⟨by simp [Conn.survives, h.pump], hi, _, _, piping_splicepumpFreeEffects p, hn⟩

def World.survivor (m : PumpMethod) (w : World) (i : ℕ) : Bool := (w.conns i).any (Conn.survives m)

/-- The state in the middle of a drop that started in `w` with the clients `l` on the list: the
clients `rest` are still to come. -/
structure Dropping (m : PumpMethod) (w : World) (l kept rest : List ℕ) (w' : World) : Prop where
  registered : Registered m w' (kept ++ rest)
  fault : w'.reg.fault = none
  visited : ∃ past, l = past ++ rest ∧ kept = past.filter (w.survivor m)
  same : ∀ i ∈ rest, w'.conns i = w.conns i
  stays : ∀ i ∈ kept, w'.conns i = w.conns i
  gone : ∀ i ∈ l, i ∉ kept ++ rest → ∃ c, w'.conns i = some c ∧ c.released = true

section Drop

variable {m : PumpMethod} {w w' : World} {l kept rest : List ℕ} {i : ℕ}

theorem Dropping.body (h : Dropping m w l kept (i :: rest) w') :
    ∃ w'', World.dropped m i w' = some w'' ∧
      (Dropping m w l kept rest w'' ∨ Dropping m w l (kept ++ [i]) rest w'') := by
  obtain ⟨c, f, hc, hp⟩ := h.registered.on i (by simp)
  obtain ⟨past, hl, hk⟩ := h.visited
  have hnd := h.registered.ring.nodup
  rw [List.nodup_append, List.nodup_cons] at hnd
  obtain ⟨-, ⟨hirest, -⟩, hdisj⟩ := hnd
  have hikept : i ∉ kept := fun hi => hdisj i hi i List.mem_cons_self rfl
  have hsurv : w.survivor m i = c.survives m := by
    unfold World.survivor
    rw [← h.same i List.mem_cons_self, hc]
    rfl
  refine ⟨w'.ran i (Transocks.pumpFree m c), by simp [World.dropped, hc], ?_⟩
  have hframe : ∀ j ≠ i, (w'.ran i (Transocks.pumpFree m c)).conns j = w'.conns j :=
    fun j hj => ran_conns_ne hj
  have hne : ∀ j ∈ rest, j ≠ i := fun j hj he => hirest (he ▸ hj)
  have hne' : ∀ j ∈ kept, j ≠ i := fun j hj he => hikept (he ▸ hj)
  rcases hp.pumpFree with ⟨hs, heq⟩ | ⟨hs, hin, st, g, hst, hn⟩
  · -- the client stays on the list
    rw [heq] at hframe ⊢
    have hout := h.registered.quiet i c hc
    obtain ⟨hr, hf⟩ := h.registered.stays (i := i) (by simp) hp (h.registered.notes hc) Piping.nil
    have hsame : (w'.ran i c).conns i = w'.conns i := by
      rw [ran_conns_same, hc, ← hout]
    refine .inr ⟨by simpa using hr, hf.trans h.fault, ⟨past ++ [i], by simp [hl], ?_⟩,
      fun j hj => ?_, fun j hj => ?_, fun j hj hjn => ?_⟩
    · rw [List.filter_append, ← hk, List.filter_singleton, hsurv, hs]
      rfl
    · rw [hframe j (hne j hj)]
      exact h.same j (List.mem_cons_of_mem i hj)
    · rcases List.mem_append.mp hj with hj | hj
      · rw [hframe j (hne' j hj)]
        exact h.stays j hj
      · rw [List.mem_singleton.mp hj, hsame]
        exact h.same i List.mem_cons_self
    · have hji : j ≠ i := fun he => hjn (by simp [he])
      rw [hframe j hji]
      exact h.gone j hj fun hm => hjn (by simpa using hm)
  · -- the client is released
    rw [h.registered.notes hc, List.nil_append] at hn
    obtain ⟨hr, hf⟩ := h.registered.release hin hn hst
    refine .inl ⟨hr, hf.trans h.fault, ⟨past ++ [i], by simp [hl], ?_⟩, fun j hj => ?_,
      fun j hj => ?_, fun j hj hjn => ?_⟩
    · rw [List.filter_append, ← hk, List.filter_singleton, hsurv, hs]
      simp
    · rw [hframe j (hne j hj)]
      exact h.same j (List.mem_cons_of_mem i hj)
    · rw [hframe j (hne' j hj)]
      exact h.stays j hj
    · by_cases hji : j = i
      · subst hji
        exact ⟨_, ran_conns_same, hin.released⟩
      · rw [hframe j hji]
        exact h.gone j hj fun hm => hjn (by simpa [hji] using hm)

/-- **The drop.** It ends, visits every client on the list once, and leaves on the list exactly the
clients that survive it. -/
theorem Registered.dropAll (h : Registered m w l) (hf : w.reg.fault = none) :
    ∃ w', w.dropAllClients m (l.length + 1) = some (w', l) ∧
      Registered m w' (l.filter (w.survivor m)) ∧ w'.reg.fault = none ∧
      (∀ i ∈ l, w.survivor m i = true → w'.conns i = w.conns i) ∧
      ∀ i ∈ l, w.survivor m i = false → ∃ c, w'.conns i = some c ∧ c.released = true := by
  have h0 : Dropping m w l [] l w :=
    ⟨h, hf, ⟨[], rfl, rfl⟩, fun _ _ => rfl, fun _ hi => absurd hi (by simp),
      fun _ hi hn => absurd hi (by simpa using hn)⟩
  obtain ⟨w', kept, hwalk, hd⟩ := forEachSafe_visits (P := Dropping m w l)
    (fun _ _ _ hd => hd.registered.ring) (fun _ _ _ _ hd => hd.body) h0
  obtain ⟨past, hl, rfl⟩ := hd.visited
  rw [List.append_nil] at hl
  subst hl
  have hreg := hd.registered
  rw [List.append_nil] at hreg
  refine ⟨w', hwalk, hreg, hd.fault, fun i hi hs => hd.stays i (by simp [hi, hs]),
    fun i hi hs => ?_⟩
  exact hd.gone i hi (by simp [hs])

/-- What every visit of the drop keeps, the drop keeps. -/
theorem Registered.dropAll_keeps {fuel : ℕ} {visited : List ℕ} {J : World → Prop}
    (h : Registered m w l) (hf : w.reg.fault = none) (hJ : J w)
    (hstep : ∀ l u i c f, Registered m u l → J u → i ∈ l → u.conns i = some c → Phase m c f →
      J (u.ran i (Transocks.pumpFree m c)))
    (hd : w.dropAllClients m fuel = some (w', visited)) : J w' := by
  have h0 : Dropping m w l [] l w ∧ J w :=
    ⟨⟨h, hf, ⟨[], rfl, rfl⟩, fun _ _ => rfl, fun _ hi => absurd hi (by simp),
      fun _ hi hn => absurd hi (by simpa using hn)⟩, hJ⟩
  obtain ⟨w'', kept, hwalk, -, hJ'⟩ := forEachSafe_visits
    (P := fun kept rest u => Dropping m w l kept rest u ∧ J u)
    (fun _ _ _ hd => hd.1.registered.ring) (fun kept i rest u hd => by
      obtain ⟨c, f, hc, hp⟩ := hd.1.registered.on i (by simp)
      have hJu := hstep _ u i c f hd.1.registered hd.2 (by simp) hc hp
      obtain ⟨u', hu', hnext⟩ := hd.1.body
      obtain rfl : u.ran i (Transocks.pumpFree m c) = u' := by
        simpa [World.dropped, hc] using hu'
      exact ⟨_, hu', hnext.imp (fun h => ⟨h, hJu⟩) fun h => ⟨h, hJu⟩⟩) h0
  obtain rfl : w' = w'' := congrArg Prod.fst (forEachSafe_unique hd hwalk)
  exact hJ'

theorem IsRing.eq_nil {L : Links ℕ} (h : IsRing L l) (h₀ : IsRing L []) : l = [] := by
  cases l with
  | nil => rfl
  | cons i l =>
    exact absurd (Option.some.inj (h.next_head.symm.trans h₀.next_head)) (by simp [first])

end Drop

/-! ## Whole runs -/

section Run

variable {m : PumpMethod} {n : ℕ} {w w' : World} {l : List ℕ} {act : Act} {acts : List Act}

theorem Healthy.step (h : Healthy m w) (hs : World.Step m w act w') (hw : StartsWell m w act) :
    Healthy m w' := by
  rcases h with ⟨-, l, h⟩ | hbad
  swap
  · cases hs with
    | accept hf => exact absurd (hbad.symm.trans hf) (by simp)
    | callback hf => exact absurd (hbad.symm.trans hf) (by simp)
    | finalize hf => exact absurd (hbad.symm.trans hf) (by simp)
    | dropAll hf => exact absurd (hbad.symm.trans hf) (by simp)
  cases hs with
  | @accept k hf hk => exact h.accept hf k
  | callback hf hc hen hk => exact h.callback hf hc hen (hw _ hc)
  | @finalize j d hf hd =>
    obtain ⟨hl, hf', hc, hn⟩ := finalized_reg w j d
    exact .inl ⟨hf'.trans hf, l, h.of_same hc hn (by rw [hl]; exact h.ring)⟩
  | dropAll hf hdrop =>
    obtain ⟨w'', hdrop', h', hf', -, -⟩ := h.dropAll hf
    obtain rfl : w' = w'' := congrArg Prod.fst (forEachSafe_unique hdrop hdrop')
    exact .inl ⟨hf', _, h'⟩

/-- `transocks_client_free` was entered for a released client, or a field of one was used. -/
def World.Misused (w : World) : Prop :=
  w.reg.fault = some .doubleFree ∨ w.reg.fault = some .useAfterFree

theorem healthy_init (m : PumpMethod) (n : ℕ) : Healthy m (World.init n) :=
  .inl ⟨rfl, [], registered_init m n⟩

theorem Healthy.not_misused (h : Healthy m w) : ¬ w.Misused := by
  rintro (hd | hu)
  · rcases h with ⟨hf, -⟩ | hf
    · exact absurd (hd.symm.trans hf) (by simp)
    · exact absurd (hd.symm.trans hf) (by simp)
  · rcases h with ⟨hf, -⟩ | hf
    · exact absurd (hu.symm.trans hf) (by simp)
    · exact absurd (hu.symm.trans hf) (by simp)

theorem World.Step.not_faulted (hs : World.Step m w act w') : w.reg.fault = none := by
  cases hs with
  | accept hf => exact hf
  | callback hf => exact hf
  | finalize hf => exact hf
  | dropAll hf => exact hf

/-- While nothing went wrong the list of clients is in order. -/
theorem Registered.step (h : Registered m w l) (hs : World.Step m w act w')
    (hf' : w'.reg.fault = none) : ∃ l', Registered m w' l' := by
  by_cases hw : StartsWell m w act
  · rcases Healthy.step (.inl ⟨hs.not_faulted, l, h⟩) hs hw with ⟨-, h'⟩ | hbad
    · exact h'
    · exact absurd (hbad.symm.trans hf') (by simp)
  · cases hs with
    | accept => exact absurd trivial hw
    | finalize => exact absurd trivial hw
    | dropAll => exact absurd trivial hw
    | @callback i c ev hf hc hen hk =>
      refine absurd (fun c' hc' hbad => ?_) hw
      obtain rfl := Option.some.inj (hc.symm.trans hc')
      exact absurd ((h.callback_twice hf hc hen hbad).symm.trans hf') (by simp)

/-- A run ends in a healthy state, or one of its steps was a bad start and released a client
twice. -/
theorem run_healthy_or_misused (hrun : Run (World.Step m) (World.init n) acts w) :
    (Run (Meeting (World.Step m) (StartsWell m)) (World.init n) acts w ∧ Healthy m w) ∨
      (¬ Run (Meeting (World.Step m) (StartsWell m)) (World.init n) acts w ∧
        w.reg.fault = some .doubleFree) := by
  have hslip : ∀ u e v, Healthy m u → World.Step m u e v → ¬ StartsWell m u e →
      v.reg.fault = some .doubleFree := by
    intro u e v hu hs hw
    rcases hu with ⟨hf, l, h⟩ | hbad
    swap
    · exact absurd (hbad.symm.trans hs.not_faulted) (by simp)
    cases hs with
    | accept => exact absurd trivial hw
    | finalize => exact absurd trivial hw
    | dropAll => exact absurd trivial hw
    | @callback i c ev _ hc hen hk =>
      have hbad : c.StartsBadly m ev := by
        by_contra hn
        refine hw fun c' hc' => ?_
        obtain rfl := Option.some.inj (hc.symm.trans hc')
        exact hn
      exact h.callback_twice hf hc hen hbad
  have hgood : ∀ u e v, Healthy m u → World.Step m u e v → StartsWell m u e → Healthy m v :=
    fun _ _ _ hu hs hw => hu.step hs hw
  have hstuck : ∀ u e v, u.reg.fault = some .doubleFree → World.Step m u e v →
      v.reg.fault = some .doubleFree :=
    fun _ _ _ hu hs => absurd (hu.symm.trans hs.not_faulted) (by simp)
  have hdet : ∀ u e v v', World.Step m u e v → World.Step m u e v' → v = v' :=
    fun _ _ _ _ h h' => h.deterministic h'
  exact hrun.good_or_bad hdet (healthy_init m n) hgood hslip hstuck

theorem run_registered (hrun : Run (World.Step m) (World.init n) acts w)
    (hf : w.reg.fault = none) : ∃ l, Registered m w l := by
  rcases run_healthy_or_misused hrun with ⟨-, ⟨-, h⟩ | hw⟩ | ⟨-, hw⟩
  · exact h
  · exact absurd (hw.symm.trans hf) (by simp)
  · exact absurd (hw.symm.trans hf) (by simp)

/-- Identities are handed out in order. -/
theorem run_lt_nextId {i : ℕ} {c : Conn} (hrun : Run (World.Step m) (World.init n) acts w)
    (hc : w.conns i = some c) : i < w.nextId := by
  have heach : w.Each fun _ => True :=
    hrun.invariant (World.each_init _ n) fun _ _ _ hu hs =>
      (hs.each (R := fun _ _ => True) (fun _ => trivial) (fun _ _ _ _ _ => trivial)
        (fun _ _ _ _ => trivial) (fun _ _ _ _ _ _ _ => ⟨trivial, trivial⟩)
        (fun _ _ => ⟨trivial, trivial⟩) hu).1
  by_contra hi
  exact absurd (hc.symm.trans (heach.fresh i (Nat.not_lt.mp hi))) (by simp)

/-- **A client is released once and not used afterwards** exactly in the runs that never start the
splice pump badly. -/
theorem released_once_iff (hrun : Run (World.Step m) (World.init n) acts w) :
    ¬ w.Misused ↔ Run (Meeting (World.Step m) (StartsWell m)) (World.init n) acts w := by
  rcases run_healthy_or_misused hrun with ⟨hm, hw⟩ | ⟨hm, hw⟩
  · exact ⟨fun _ => hm, fun _ => hw.not_misused⟩
  · exact ⟨fun h => absurd (.inl hw) h, fun h => absurd h hm⟩

end Run

/-! ### Runs of one client -/

/-- A client is accepted and gets as far as waiting for the connect reply. -/
def toReply : List Act :=
  [.accept AcceptCalls.ok, .callback 0 .relayConnected, .callback 0 .methodSelected]

def World.after (m : PumpMethod) (acts : List Act) : World :=
  acts.foldl (World.next m) (World.init 3)

theorem follows_toReply (m : PumpMethod) {acts : List Act}
    (h : Follows (World.Step m) (World.next m) (World.after m toReply) acts) :
    Follows (World.Step m) (World.next m) (World.init 3) (toReply ++ acts) :=
  ⟨.accept rfl ⟨rfl, rfl, trivial⟩, .callback rfl rfl ⟨_, rfl, by decide, by decide, rfl⟩ trivial,
    .callback rfl rfl ⟨_, rfl, by decide, rfl⟩ trivial, h⟩

def replyWith (k : StartCalls) : Act :=
  .callback 0 (.read .relay ipv4Reply { HandshakeCalls.ok with start := k })

/-- A start in which the last `event_add` fails. -/
def StartCalls.lastAddFails : StartCalls :=
  { StartCalls.ok with addWriteEv := fun d => d == .inbound }

/-- A client that gets as far as pumping through its pipes. -/
def toPump : List Act := toReply ++ [replyWith StartCalls.ok]

theorem run_toPump :
    Run (World.Step .splicepump) (World.init 3) toPump (World.after .splicepump toPump) := by
  refine Run.foldl (follows_toReply .splicepump ⟨?_, trivial⟩)
  exact .callback rfl rfl ⟨_, rfl, by decide, rfl⟩ ⟨rfl, rfl, rfl, rfl, trivial⟩

/-- A client pumps, and a second one waits for the connect reply when the drop comes. -/
def pumpAndWait : List Act :=
  toPump ++ [.accept { AcceptCalls.ok with accept := some 11, socket := some 12 }]

theorem run_pumpAndWait : Run (World.Step .splicepump) (World.init 3) pumpAndWait
    (World.after .splicepump pumpAndWait) :=
  run_toPump.trans (Run.one (.accept rfl ⟨rfl, rfl, trivial⟩))

theorem released_once_iff_pumpAndWait :
    ¬ (World.after .splicepump (pumpAndWait ++ [.dropAll])).Misused ∧
      Run (Meeting (World.Step .splicepump) (StartsWell .splicepump)) (World.init 3)
        (pumpAndWait ++ [.dropAll]) (World.after .splicepump (pumpAndWait ++ [.dropAll])) ∧
      (∃ c, (World.after .splicepump (pumpAndWait ++ [.dropAll])).conns 0 = some c ∧
        c.released = true) ∧
      ∃ c, (World.after .splicepump (pumpAndWait ++ [.dropAll])).conns 1 = some c ∧
        c.released = false := by
  have hrun : Run (World.Step .splicepump) (World.init 3) (pumpAndWait ++ [.dropAll])
      (World.after .splicepump (pumpAndWait ++ [.dropAll])) :=
    run_pumpAndWait.snoc (@World.Step.dropAll _ _ 3 _ _ rfl rfl)
  have hok : ¬ (World.after .splicepump (pumpAndWait ++ [.dropAll])).Misused := by
    rintro (h | h) <;> cases h
  exact ⟨hok, (released_once_iff hrun).mp hok, ⟨_, rfl, rfl⟩, ⟨_, rfl, rfl⟩⟩

/-- The start fails with the pump record attached, and the client is released twice. -/
theorem bad_start_releases_twice :
    Run (World.Step .splicepump) (World.init 3) (toReply ++ [replyWith StartCalls.lastAddFails])
        (World.after .splicepump (toReply ++ [replyWith StartCalls.lastAddFails])) ∧
      (World.after .splicepump (toReply ++ [replyWith StartCalls.lastAddFails])).Misused := by
  refine ⟨Run.foldl (follows_toReply .splicepump ⟨?_, trivial⟩), .inl rfl⟩
  exact .callback rfl rfl ⟨_, rfl, by decide, rfl⟩ ⟨rfl, rfl, rfl, rfl, trivial⟩

/-! ## The drop after any run -/

/-- **The drop ends and visits every client on the list once.** It empties the list and releases all
of them exactly when no client survives it: with the buffer pump, or when every client on the list
has a pump. -/
theorem drop_all_iff {m : PumpMethod} {n : ℕ} {w : World} {acts : List Act}
    (hrun : Run (World.Step m) (World.init n) acts w) (hf : w.reg.fault = none) :
    ∃ l fuel w', IsRing w.reg.links l ∧ w.dropAllClients m fuel = some (w', l) ∧
      ((IsRing w'.reg.links [] ∧ ∀ i ∈ l, ∃ c, w'.conns i = some c ∧ c.released = true) ↔
        (m = .bufferpump ∨ ∀ i ∈ l, ∀ c, w.conns i = some c → c.userArg.isSome = true)) := by
  obtain ⟨l, h⟩ := run_registered hrun hf
  obtain ⟨w', hdrop, h', -, hstays, hgone⟩ := h.dropAll hf
  refine ⟨l, _, w', h.ring, hdrop, fun ⟨hnil, _⟩ => ?_, fun hc => ?_⟩
  · -- no client survived
    have hnone := IsRing.eq_nil h'.ring hnil
    cases m with
    | bufferpump => exact .inl rfl
    | splicepump =>
      refine .inr fun i hi c hc => ?_
      have hns := List.filter_eq_nil_iff.mp hnone i hi
      rw [Option.isSome_iff_ne_none]
      simpa [World.survivor, hc, Conn.survives] using hns
  · have hns : ∀ i ∈ l, w.survivor m i = false := fun i hi => by
      obtain ⟨c, f, hc', -⟩ := h.on i hi
      rcases hc with rfl | hc
      · simp [World.survivor, hc', Conn.survives]
      · simp [World.survivor, hc', Conn.survives, hc i hi c hc']
    have hnil : l.filter (w.survivor m) = [] :=
      List.filter_eq_nil_iff.mpr fun i hi => by simp [hns i hi]
    exact ⟨hnil ▸ h'.ring, fun i hi => hgone i hi (hns i hi)⟩

/-- Of a client that pumps and one that waits, the buffer pump's drop releases both. The splice
pump's does not. -/
theorem drop_all_iff_pumpAndWait :
    (∃ l fuel w', (World.after .bufferpump pumpAndWait).dropAllClients .bufferpump fuel =
        some (w', l) ∧ IsRing w'.reg.links [] ∧
        ∀ i ∈ l, ∃ c, w'.conns i = some c ∧ c.released = true) ∧
      ∃ l fuel w', (World.after .splicepump pumpAndWait).dropAllClients .splicepump fuel =
        some (w', l) ∧
        ¬ (IsRing w'.reg.links [] ∧ ∀ i ∈ l, ∃ c, w'.conns i = some c ∧ c.released = true) := by
  constructor
  · have hrun : Run (World.Step .bufferpump) (World.init 3) pumpAndWait
        (World.after .bufferpump pumpAndWait) := by
      refine Run.foldl (follows_toReply .bufferpump ⟨?_, .accept rfl ⟨rfl, rfl, trivial⟩, trivial⟩)
      exact .callback rfl rfl ⟨_, rfl, by decide, rfl⟩ trivial
    obtain ⟨l, fuel, w', -, hdrop, hiff⟩ := drop_all_iff hrun rfl
    exact ⟨l, fuel, w', hdrop, hiff.mpr (.inl rfl)⟩
  · obtain ⟨l, fuel, w', -, hdrop, hiff⟩ := drop_all_iff run_pumpAndWait rfl
    refine ⟨l, fuel, w', hdrop, fun hall => ?_⟩
    obtain rfl : l = [0, 1] := congrArg Prod.snd (forEachSafe_unique hdrop
      (show (World.after .splicepump pumpAndWait).dropAllClients .splicepump 3 = some (_, [0, 1])
        from rfl))
    rcases hiff.mp hall with h | h
    · cases h
    · exact absurd (h 1 (by simp) _ rfl) (by decide)

/-- A client that waits for the connect reply stays on the list and is not released. -/
theorem drop_leaves_client :
    Run (World.Step .splicepump) (World.init 3) toReply (World.after .splicepump toReply) ∧
      (World.after .splicepump toReply).reg.fault = none ∧
      ∃ w', (World.after .splicepump toReply).dropAllClients .splicepump 2 = some (w', [0]) ∧
        ¬ IsRing w'.reg.links [] ∧ ∃ c, w'.conns 0 = some c ∧ c.released = false := by
  refine ⟨?_, rfl, _, rfl, fun h => ?_, _, rfl, rfl⟩
  · exact Run.foldl (follows_toReply .splicepump trivial)
  · exact absurd (Option.some.inj h.next_head) (by decide)

end Transocks

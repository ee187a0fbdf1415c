import Transocks.Loop
import Transocks.Lib.Circular
import Transocks.Lib.Handles
import Transocks.Lib.Run

/-!
# All connections together

A `World` is the program between two callbacks of the event loop: every client it ever allocated,
the descriptor table of the process, the list of clients as the pointers in memory, the
bufferevents that were freed and whose finalizer libevent has not run yet, and the closes so far.
A step of the world runs one callback to its end and carries out the calls it made, in order.

The kernel hands out any number that is not in use. A step that double-frees a client, uses a freed
one or follows a bad pointer sets `fault`, and nothing runs after it.
-/

namespace Transocks

open Circular Handles Runs

inductive Owner
  | listener
  | conn (i : ℕ) (h : Handle)
  deriving DecidableEq, Repr

/-- What a call does to the descriptor table. -/
def Effect.op : Effect → Option (Op Handle ℕ)
  | .opened h n => some (.acquire h n)
  | .closed h fd => if 0 ≤ fd then some (.close h fd.toNat) else none
  | _ => none

/-- The operations on descriptors among some calls. -/
def fdOps (es : List Effect) : List (Op Handle ℕ) := es.filterMap Effect.op

/-- A freed bufferevent whose finalizer has not run. -/
structure Deferred where
  client : ℕ
  side : Side
  fd : Fd
  deriving DecidableEq, Repr

/-- The parts of the world that calls other than the ones on descriptors change. -/
structure Registry where
  links : Links ℕ
  deferred : List Deferred
  fault : Option Effect

namespace Registry

def faulted (r : Registry) (e : Effect) : Registry := { r with fault := r.fault.or (some e) }

def relink (r : Registry) : Option (Links ℕ) → Registry
  | some L => { r with links := L }
  | none => r.faulted .badPointer

/-- A call made on behalf of client `i`. -/
def perform (i : ℕ) (r : Registry) : Effect → Registry
  | .bevFree s fd => { r with deferred := r.deferred ++ [⟨i, s, fd⟩] }
  | .listInit => { r with links := r.links.init (.entry i) }
  | .listAddTail => r.relink (r.links.addTail i)
  | .listDel => r.relink (r.links.del i)
  | .doubleFree => r.faulted .doubleFree
  | .useAfterFree => r.faulted .useAfterFree
  | .badPointer => r.faulted .badPointer
  | _ => r

end Registry

/-- The program between two callbacks. -/
structure World where
  conns : ℕ → Option Conn
  nextId : ℕ
  fds : ℕ → Option Owner
  closes : List (ℕ × Hit Handle ℕ Owner)
  reg : Registry

/-- The program once it listens on the descriptor `l` and `INIT_LIST_HEAD` has run. -/
def World.init (l : ℕ) : World where
  conns := fun _ => none
  nextId := 0
  fds := Function.update (fun _ => none) l (some .listener)
  closes := []
  reg := ⟨Links.init ⟨fun _ => none, fun _ => none⟩ .head, [], none⟩

namespace World

/-- The calls `es`, made on behalf of client `i`. -/
def exec (w : World) (i : ℕ) (es : List Effect) : World :=
  { w with
    fds := applyAll (Owner.conn i) w.fds (fdOps es)
    closes := w.closes ++ (hits (Owner.conn i) w.fds (fdOps es)).map fun x => (i, x)
    reg := es.foldl (Registry.perform i) w.reg }

/-- The kernel hands out only numbers that are not in use. -/
def KernelOk (w : World) (i : ℕ) (es : List Effect) : Prop := Unused (Owner.conn i) w.fds (fdOps es)

def ran (w : World) (i : ℕ) (c : Conn) : World :=
  { w.exec i c.out with conns := Function.update w.conns i (some { c with out := [] }) }

/-- The accept callback. -/
def accepted (w : World) (k : AcceptCalls) : World :=
  match listenerCb k with
  | (some c, _) => { w.ran w.nextId c with nextId := w.nextId + 1 }
  | (none, es) => { w.exec w.nextId es with nextId := w.nextId + 1 }

/-- The calls of the accept callback. -/
def acceptEffects (k : AcceptCalls) : List Effect :=
  match listenerCb k with
  | (some c, _) => c.out
  | (none, es) => es

/-- libevent runs the `j`th pending finalizer, which closes the descriptor that the bufferevent
still held. -/
def finalized (w : World) (j : ℕ) (d : Deferred) : World :=
  let w' := if 0 ≤ d.fd then w.exec d.client [.closed (.sock d.side) d.fd] else w
  { w' with reg := { w'.reg with deferred := w'.reg.deferred.eraseIdx j } }

/-- The body of the loop in `transocks_drop_all_clients`. -/
def dropped (m : PumpMethod) (i : ℕ) (w : World) : Option World :=
  (w.conns i).map fun c => w.ran i (pumpFree m c)

/-- `transocks_drop_all_clients`: the world it leaves and the clients it visited. -/
def dropAllClients (m : PumpMethod) (fuel : ℕ) (w : World) : Option (World × List ℕ) :=
  forEachSafe (fun w => w.reg.links) (dropped m) fuel w

end World

inductive Act
  | accept (k : AcceptCalls)
  | callback (i : ℕ) (ev : Ev)
  | finalize (j : ℕ)
  | dropAll

inductive World.Step (m : PumpMethod) (w : World) : Act → World → Prop
  | accept {k : AcceptCalls} (hf : w.reg.fault = none)
      (hk : w.KernelOk w.nextId (acceptEffects k)) : Step m w (.accept k) (w.accepted k)
  | callback {i : ℕ} {c : Conn} {ev : Ev} (hf : w.reg.fault = none) (hc : w.conns i = some c)
      (hen : c.Enabled ev) (hk : w.KernelOk i (c.step m ev).out) :
    Step m w (.callback i ev) (w.ran i (c.step m ev))
  | finalize {j : ℕ} {d : Deferred} (hf : w.reg.fault = none) (hd : w.reg.deferred[j]? = some d) :
    Step m w (.finalize j) (w.finalized j d)
  | dropAll {fuel : ℕ} {w' : World} {visited : List ℕ} (hf : w.reg.fault = none)
      (h : w.dropAllClients m fuel = some (w', visited)) : Step m w .dropAll w'

/-- Every act has one outcome. -/
theorem World.Step.deterministic {m : PumpMethod} {w w₁ w₂ : World} {act : Act}
    (h₁ : World.Step m w act w₁) (h₂ : World.Step m w act w₂) : w₁ = w₂ := by
  cases h₁ with
  | accept => cases h₂; rfl
  | callback _ hc =>
    cases h₂ with
    | callback _ hc' =>
      obtain rfl := Option.some.inj (hc.symm.trans hc')
      rfl
  | finalize _ hd =>
    cases h₂ with
    | finalize _ hd' =>
      obtain rfl := Option.some.inj (hd.symm.trans hd')
      rfl
  | dropAll _ h =>
    cases h₂ with
    | dropAll _ h' => exact congrArg Prod.fst (forEachSafe_unique h h')

/-- The outcome of an act that the loop can do. -/
def World.next (m : PumpMethod) (w : World) : Act → World
  | .accept k => w.accepted k
  | .callback i ev => ((w.conns i).map fun c => w.ran i (c.step m ev)).getD w
  | .finalize j => (w.reg.deferred[j]?.map fun d => w.finalized j d).getD w
  | .dropAll => ((w.dropAllClients m (w.nextId + 1)).map Prod.fst).getD w

/-! ## From one client to all -/

section Lift

variable {m : PumpMethod} {w w' : World} {act : Act} {Q : Conn → Prop} {R : Conn → Conn → Prop}

/-- Every client is as `Q` says. -/
structure World.Each (Q : Conn → Prop) (w : World) : Prop where
  client : ∀ i c, w.conns i = some c → Q c
  fresh : ∀ i, w.nextId ≤ i → w.conns i = none

/-- Every client went on as `R` says. -/
def World.Onward (R : Conn → Conn → Prop) (w w' : World) : Prop :=
  ∀ i c, w.conns i = some c → ∃ c', w'.conns i = some c' ∧ R c c'

theorem World.each_init (Q : Conn → Prop) (n : ℕ) : (World.init n).Each Q :=
  ⟨fun _ _ h => absurd h (by simp [World.init]), fun _ _ => rfl⟩

/-- One client runs. -/
theorem World.Each.ran {i : ℕ} {c c' : Conn} (h : w.Each Q) (hrefl : ∀ c, R c c)
    (hc : w.conns i = some c) (hQ : Q { c' with out := [] }) (hR : R c { c' with out := [] }) :
    (w.ran i c').Each Q ∧ w.Onward R (w.ran i c') := by
  have hsame : (w.ran i c').conns i = some { c' with out := [] } := Function.update_self ..
  have hne : ∀ j, j ≠ i → (w.ran i c').conns j = w.conns j := fun j hj =>
    Function.update_of_ne hj ..
  refine ⟨⟨fun j d hd => ?_, fun j hj => ?_⟩, fun j d hd => ?_⟩
  · by_cases hj : j = i
    · subst hj
      obtain rfl := Option.some.inj (hsame.symm.trans hd)
      exact hQ
    · exact h.client j d ((hne j hj).symm.trans hd)
  · have hji : j ≠ i := by
      rintro rfl
      rw [h.fresh j hj] at hc
      cases hc
    rw [hne j hji]
    exact h.fresh j hj
  · by_cases hj : j = i
    · subst hj
      obtain rfl := Option.some.inj (hc.symm.trans hd)
      exact ⟨_, hsame, hR⟩
    · exact ⟨d, (hne j hj).trans hd, hrefl d⟩

theorem World.Each.accepted {k : AcceptCalls} (h : w.Each Q) (hrefl : ∀ c, R c c)
    (hacc : ∀ c, (listenerCb k).1 = some c → Q { c with out := [] }) :
    (w.accepted k).Each Q ∧ w.Onward R (w.accepted k) := by
  unfold World.accepted
  rcases hcb : listenerCb k with ⟨_ | c, es⟩
  · exact ⟨⟨h.client, fun i hi => h.fresh i (Nat.le_of_succ_le hi)⟩,
      fun i c hc => ⟨c, hc, hrefl c⟩⟩
  · have hsame : (w.ran w.nextId c).conns w.nextId = some { c with out := [] } :=
      Function.update_self ..
    have hne : ∀ j, j ≠ w.nextId → (w.ran w.nextId c).conns j = w.conns j := fun j hj =>
      Function.update_of_ne hj ..
    refine ⟨⟨fun j d hd => ?_, fun j hj => ?_⟩, fun j d hd => ?_⟩
    · by_cases hj : j = w.nextId
      · subst hj
        obtain rfl := Option.some.inj (hsame.symm.trans hd)
        exact hacc c (by rw [hcb])
      · exact h.client j d ((hne j hj).symm.trans hd)
    · exact (hne j (Nat.ne_of_gt hj)).trans (h.fresh j (Nat.le_of_succ_le hj))
    · have hj : j ≠ w.nextId := by
        rintro rfl
        rw [h.fresh _ le_rfl] at hd
        cases hd
      exact ⟨d, (hne j hj).trans hd, hrefl d⟩

/-- **What one client keeps, all clients keep.** -/
theorem World.Step.each (hrefl : ∀ c, R c c) (htrans : ∀ c c' c'', R c c' → R c' c'' → R c c'')
    (hacc : ∀ k c, act = .accept k → (listenerCb k).1 = some c → Q { c with out := [] })
    (hcall : ∀ i c ev, act = .callback i ev → w.conns i = some c → Q c → c.Enabled ev →
      Q { c.step m ev with out := [] } ∧ R c { c.step m ev with out := [] })
    (hdrop : ∀ c, Q c → Q { pumpFree m c with out := [] } ∧ R c { pumpFree m c with out := [] })
    (h : w.Each Q) (hs : World.Step m w act w') : w'.Each Q ∧ w.Onward R w' := by
  cases hs with
  | accept hf hk => exact h.accepted hrefl fun c hc => hacc _ c rfl hc
  | callback hf hc hen hk =>
    obtain ⟨hQ, hR⟩ := hcall _ _ _ rfl hc (h.client _ _ hc) hen
    exact h.ran hrefl hc hQ hR
  | @finalize j d hf hd =>
    have hsame : (w.finalized j d).conns = w.conns ∧ (w.finalized j d).nextId = w.nextId := by
      unfold World.finalized
      split <;> exact ⟨rfl, rfl⟩
    refine ⟨⟨fun i c hc => h.client i c (hsame.1 ▸ hc), fun i hi => ?_⟩,
      fun i c hc => ⟨c, ?_, hrefl c⟩⟩
    · rw [hsame.1]
      exact h.fresh i (hsame.2 ▸ hi)
    · rw [hsame.1]
      exact hc
  | dropAll hf hd =>
    refine forEachSafe_keeps (J := fun u => u.Each Q ∧ w.Onward R u) ?_
      ⟨h, fun i c hc => ⟨c, hc, hrefl c⟩⟩ hd
    rintro i u u' ⟨hu, hon⟩ hbody
    obtain ⟨c, hc, rfl⟩ := Option.map_eq_some_iff.mp hbody
    obtain ⟨hQ, hR⟩ := hdrop c (hu.client i c hc)
    obtain ⟨hu', hon'⟩ := hu.ran hrefl hc hQ hR
    refine ⟨hu', fun j d hd => ?_⟩
    obtain ⟨d', hd', hR'⟩ := hon j d hd
    obtain ⟨d'', hd'', hR''⟩ := hon' j d' hd'
    exact ⟨d'', hd'', htrans _ _ _ hR' hR''⟩

end Lift

end Transocks

import Transocks.Clients
import Transocks.Held

/-!
# What an accept undoes when it fails

`listener_cb`, `transocks_client_new` and `transocks_start_connect_relay` make their calls in one
fixed order, and what is unwound depends only on the first call whose failure makes the accept give
up. (A failed timer call does not, nor does a failed `getsockopt` for IPv6 that the one for IPv4
makes up for.) `unwound` lists the calls of every such path. Five of them go wrong. When the record
cannot be allocated, the label `fail` reads its fields through the null pointer. When the client's
bufferevent cannot be made or set up, the client's descriptor is closed through the record and then
again through the local. When the relay's bufferevent cannot be made, its descriptor is closed
through the local and then again through the record. When the connection attempt fails, the
bufferevent is freed that way as well.
-/

namespace Transocks

open Circular Handles Runs

/-- The calls of an accept that can fail, grouped by where they unwind to, in order. -/
inductive FailPoint
  | accept | clientOptions | record | addresses | origdst | clientBev | clientBevSetup
  | relaySocket | relayOptions | relayBev | connect
  deriving DecidableEq, Repr

/-- The first call of `transocks_start_connect_relay` whose failure makes it give up. -/
def AcceptCalls.connectFailsAt (k : AcceptCalls) : Option FailPoint :=
  if k.socket = none then some .relaySocket
  else if !(k.relayNonblock && k.relayKeepalive && k.relayNodelay) then some .relayOptions
  else if !k.relayBevNew then some .relayBev
  else if !k.connect then some .connect
  else none

/-- Likewise from the client's bufferevent on. -/
def AcceptCalls.setupFailsAt (k : AcceptCalls) : Option FailPoint :=
  if !k.bevNew then some .clientBev
  else if !(k.bevDisable && k.bevSetfd) then some .clientBevSetup
  else k.connectFailsAt

/-- The first call whose failure makes the accept give up. -/
def AcceptCalls.failsAt (k : AcceptCalls) : Option FailPoint :=
  if k.accept = none then some .accept
  else if k.srcLenZero || !(k.nonblock && k.keepalive && k.nodelay) then some .clientOptions
  else if !k.mallocClient then some .record
  else if !(k.mallocClientAddr && k.mallocDestAddr) then some .addresses
  else if k.origdst = none then some .origdst
  else k.setupFailsAt

/-- The failures that are unwound as the source means to. -/
def FailPoint.unwinds : FailPoint → Bool
  | .record | .clientBev | .clientBevSetup | .relayBev | .connect => false
  | _ => true

def AcceptCalls.clientFd (k : AcceptCalls) : ℕ := k.accept.getD 0

def AcceptCalls.relayFd (k : AcceptCalls) : ℕ := k.socket.getD 0

/-- The last calls of `transocks_client_free`. -/
def freeRecord : List Effect := [.free .clientAddr, .free .destAddr, .listDel, .free .record]

/-- The calls up to the return of `transocks_client_new`. -/
def created (k : AcceptCalls) : List Effect := .opened (.sock .client) k.clientFd :: newEffects k

/-- The calls up to the start of `transocks_start_connect_relay`. -/
def prepared (k : AcceptCalls) : List Effect := created k ++ [.alloc (.bev .client), .listAddTail]

/-- `transocks_client_free` shuts down and closes the client's socket. -/
def closeClient (k : AcceptCalls) : List Effect :=
  [.shutdown .client k.clientFd .rdwr, .closed (.sock .client) k.clientFd]

/-- `transocks_client_free` frees the client's bufferevent and the record. -/
def freeClientBev (k : AcceptCalls) : List Effect :=
  [.bevFree .client k.clientFd, .free (.bev .client)] ++ freeRecord

def closeBoth (k : AcceptCalls) : List Effect :=
  [.shutdown .client k.clientFd .rdwr, .shutdown .relay k.relayFd .rdwr,
    .closed (.sock .client) k.clientFd, .closed (.sock .relay) k.relayFd]

/-- The calls of an accept that gives up at the given point. -/
def unwound (k : AcceptCalls) : FailPoint → List Effect
  | .accept => []
  | .clientOptions =>
    [.opened (.sock .client) k.clientFd, .closed (.sock .client) k.clientFd]
  | .record =>
    [.opened (.sock .client) k.clientFd, .badPointer, .closed (.sock .client) k.clientFd]
  | .addresses =>
    created k ++ (if k.mallocClientAddr then [.free .clientAddr] else []) ++
      (if k.mallocDestAddr then [.free .destAddr] else []) ++
      [.free .record, .closed (.sock .client) k.clientFd]
  | .origdst => created k ++ freeRecord ++ [.closed (.sock .client) k.clientFd]
  | .clientBev =>
    created k ++ closeClient k ++ freeRecord ++ [.closed (.sock .client) k.clientFd]
  | .clientBevSetup =>
    created k ++ [.alloc (.bev .client), .bevFree .client (-1), .free (.bev .client)] ++
      closeClient k ++ freeRecord ++ [.closed (.sock .client) k.clientFd]
  | .relaySocket => prepared k ++ closeClient k ++ freeClientBev k
  | .relayOptions =>
    prepared k ++ [.opened (.sock .relay) k.relayFd, .closed (.sock .relay) k.relayFd] ++
      closeClient k ++ freeClientBev k
  | .relayBev =>
    prepared k ++ [.opened (.sock .relay) k.relayFd, .closed (.sock .relay) k.relayFd] ++
      closeBoth k ++ freeClientBev k
  | .connect =>
    prepared k ++ [.opened (.sock .relay) k.relayFd, .alloc (.bev .relay)] ++
      (if k.timer.evtimerNew then [.alloc .timer] else []) ++
      [.bevFree .relay k.relayFd, .free (.bev .relay), .closed (.sock .relay) k.relayFd,
        .badPointer] ++
      closeBoth k ++ (if k.timer.evtimerNew then [.free .timer] else []) ++
      [.bevFree .relay k.relayFd, .free (.bev .relay)] ++ freeClientBev k

section Paths

variable {k : AcceptCalls} {p : FailPoint} {n r : ℕ} {a : SockAddr}

theorem Fresh.free_eq {c : Conn} (h : Fresh c) :
    (Transocks.clientFree c).out = c.out ++ clientFreeEffects c ∧
      (Transocks.clientFree c).released = true := by
  have hs : c.clientState ≠ .destroyed ∧ c.clientState ≠ .destroying := by simp [h.state]
  exact ⟨clientFree_out h.live hs, clientFree_released h.live hs⟩

theorem Fresh.listenerFree_eq {c : Conn} (h : Fresh c) (n : ℕ) :
    (listenerFreeClient c n).out = c.out ++ clientFreeEffects c ++ [.closed (.sock .client) n] ∧
      (listenerFreeClient c n).released = true := by
  refine ⟨?_, h.free_eq.2⟩
  show (Transocks.clientFree c).out ++ _ = _
  rw [h.free_eq.1]

theorem created_eq (ha : k.accept = some n) :
    created k = .opened (.sock .client) n :: newEffects k := by
  simp [created, AcceptCalls.clientFd, ha]

theorem freeEffects_emits (c : Conn) (es : List Effect) :
    clientFreeEffects (c.emits es) = clientFreeEffects c := rfl

/-- The record's part of a release before the client is on the list. -/
theorem addressed_free (ha : k.accept = some n) :
    clientFreeEffects (addressed k n a) = closeClient k ++ freeRecord := by
  simp [clientFreeEffects, addressed, allocated, closeClient, freeRecord, closeEffect, freeEffect,
    bevFreeEffect, Conn.setEnd_ne, Conn.new, End.new, AcceptCalls.clientFd, ha]

theorem listed_free (ha : k.accept = some n) :
    clientFreeEffects (listed k n a) = closeClient k ++ freeClientBev k := by
  simp [clientFreeEffects, listed, addressed, allocated, closeClient, freeClientBev, freeRecord,
    closeEffect, freeEffect, bevFreeEffect, Bufferevent.new, Conn.setEnd_ne, Conn.setBev_ne,
    Conn.new, End.new, AcceptCalls.clientFd, ha]

theorem relayed_free (ha : k.accept = some n) (hr : k.socket = some r) :
    clientFreeEffects ((listed k n a).setEnd .relay { (listed k n a).ends .relay with fd := r }) =
      closeBoth k ++ freeClientBev k := by
  simp [clientFreeEffects, listed, addressed, allocated, closeBoth, freeClientBev, freeRecord,
    closeEffect, freeEffect, bevFreeEffect, Bufferevent.new, Conn.setEnd_ne, Conn.setBev_ne,
    Conn.new, End.new, AcceptCalls.clientFd, AcceptCalls.relayFd, ha, hr]

theorem timed_free (ha : k.accept = some n) (hr : k.socket = some r) (es : List Effect) :
    clientFreeEffects (clientSetTimeout (connecting ((listed k n a).emits es) r) k.timer) =
      closeBoth k ++ (if k.timer.evtimerNew then [Effect.free .timer] else []) ++
        [.bevFree .relay k.relayFd, .free (.bev .relay)] ++ freeClientBev k := by
  rw [connecting_timer]
  simp only [clientFreeEffects, connecting, connectingBev, listed, addressed, allocated, closeBoth,
    freeClientBev, freeRecord, closeEffect, freeEffect, bevFreeEffect, Bufferevent.new,
    Conn.new, End.new, AcceptCalls.clientFd, AcceptCalls.relayFd, ha, hr]
  cases k.timer.evtimerNew <;>
    simp [Conn.setEnd_ne, Conn.setBev_ne]

theorem prepared_eq (ha : k.accept = some n) : (listed k n a).out = prepared k := by
  simp [listed, addressed, allocated, prepared, created_eq ha, Conn.new]

/-- The accept made these calls, and its record is gone. -/
def Undone (k : AcceptCalls) (es : List Effect) : Prop :=
  World.acceptEffects k = es ∧ ∀ c, (listenerCb k).1 = some c → c.released = true

theorem undone_none {es : List Effect} (h : listenerCb k = (none, es)) : Undone k es := by
  refine ⟨by simp only [World.acceptEffects, h], fun c hc => ?_⟩
  rw [h] at hc
  cases hc

theorem undone_some {c : Conn} {es : List Effect} (h : listenerCb k = (some c, []))
    (hc : c.out = es ∧ c.released = true) : Undone k es := by
  refine ⟨by simp only [World.acceptEffects, h]; exact hc.1, fun c' hc' => ?_⟩
  rw [h] at hc'
  obtain rfl := Option.some.inj hc'
  exact hc.2

theorem connect_fails (ha : k.accept = some n) (h : k.connectFailsAt = some p) :
    (startConnectRelay (listed k n a) k).out = unwound k p ∧
      (startConnectRelay (listed k n a) k).released = true := by
  have hfresh : Fresh (listed k n a) := ⟨rfl, rfl, rfl, rfl⟩
  unfold AcceptCalls.connectFailsAt at h
  cases hs : k.socket with
  | none =>
    rw [hs, if_pos rfl] at h
    obtain rfl := Option.some.inj h
    obtain ⟨ho, hrel⟩ := hfresh.free_eq
    rw [startConnectRelay_none hs]
    refine ⟨?_, hrel⟩
    rw [ho, prepared_eq ha, listed_free ha, ← List.append_assoc]
    rfl
  | some r =>
    have hfd : k.relayFd = r := by simp [AcceptCalls.relayFd, hs]
    rw [hs, if_neg (by simp)] at h
    rw [startConnectRelay_socket hs]
    have h₁ := hfresh.emits [.opened (.sock .relay) r]
    have h₂ := h₁.setEnd .relay
      { ((listed k n a).emits [.opened (.sock .relay) r]).ends .relay with fd := r }
    have h₃ : Fresh (connecting ((listed k n a).emits [.opened (.sock .relay) r]) r) :=
      (h₂.setBev .relay (some (connectingBev r))).emits [.alloc (.bev .relay)]
    have h₄ := (h₃.setTimeout k.timer).1
    simp only
    split_ifs at h ⊢ with hopt hbev hconn
    · obtain rfl := Option.some.inj h
      obtain ⟨ho, hrel⟩ := (h₁.emits [.closed (.sock .relay) (r : ℤ)]).free_eq
      refine ⟨ho.trans ?_, hrel⟩
      rw [freeEffects_emits, freeEffects_emits, listed_free ha, Conn.emits_out, Conn.emits_out,
        prepared_eq ha]
      simp [unwound, hfd]
    · obtain rfl := Option.some.inj h
      obtain ⟨ho, hrel⟩ := (h₂.emits [.closed (.sock .relay) (r : ℤ)]).free_eq
      refine ⟨ho.trans ?_, hrel⟩
      have hfree : clientFreeEffects ((((listed k n a).emits [.opened (.sock .relay) r]).setEnd
          .relay { ((listed k n a).emits [.opened (.sock .relay) r]).ends .relay with
            fd := r }).emits [.closed (.sock .relay) r]) =
          closeBoth k ++ freeClientBev k := relayed_free ha hs
      rw [hfree, Conn.emits_out, Conn.setEnd_out, Conn.emits_out, prepared_eq ha]
      simp [unwound, hfd]
    · obtain rfl := Option.some.inj h
      obtain ⟨ho, hrel⟩ := (h₄.emits [.bevFree .relay r, .free (.bev .relay),
        .closed (.sock .relay) r, .badPointer]).free_eq
      refine ⟨ho.trans ?_, hrel⟩
      rw [freeEffects_emits, timed_free ha hs, Conn.emits_out, connecting_timer]
      simp only [connecting, Conn.emits_out, Conn.setBev_out, Conn.setEnd_out, prepared_eq ha]
      simp [unwound, hfd]

theorem setup_fails (ha : k.accept = some n) (h : k.setupFailsAt = some p) :
    (listenerSetup (addressed k n a) n k).out = unwound k p ∧
      (listenerSetup (addressed k n a) n k).released = true := by
  have hfd : k.clientFd = n := by simp [AcceptCalls.clientFd, ha]
  have hfresh : Fresh (addressed k n a) := ⟨rfl, rfl, rfl, rfl⟩
  have hout : (addressed k n a).out = created k := by
    simp [addressed, allocated, created, hfd, Conn.new]
  unfold AcceptCalls.setupFailsAt at h
  unfold listenerSetup
  simp only
  split_ifs at h ⊢ with hbev hset
  · obtain rfl := Option.some.inj h
    obtain ⟨ho, hrel⟩ := hfresh.listenerFree_eq n
    refine ⟨ho.trans ?_, hrel⟩
    rw [hout, addressed_free ha]
    simp [unwound, hfd]
  · obtain rfl := Option.some.inj h
    obtain ⟨ho, hrel⟩ := ((hfresh.emits [.alloc (.bev .client)]).emits
      [.bevFree .client (-1), .free (.bev .client)]).listenerFree_eq n
    refine ⟨ho.trans ?_, hrel⟩
    rw [freeEffects_emits, freeEffects_emits, addressed_free ha, Conn.emits_out, Conn.emits_out,
      hout]
    simp [unwound, hfd]
  · exact connect_fails ha h

theorem clientNew_fails (h : k.mallocClient = true)
    (haddr : (k.mallocClientAddr && k.mallocDestAddr) = false) :
    clientNew k = (none, newEffects k ++
      (if k.mallocClientAddr then [Effect.free .clientAddr] else []) ++
      (if k.mallocDestAddr then [Effect.free .destAddr] else []) ++ [Effect.free .record]) := by
  simp only [clientNew, h, haddr]
  rfl

theorem clientNew_succeeds (h : k.mallocClient = true)
    (haddr : (k.mallocClientAddr && k.mallocDestAddr) = true) :
    clientNew k = (some Conn.new, newEffects k) := by
  simp only [clientNew, h, haddr]
  rfl

/-- **The calls of an accept that fails.** -/
theorem undone_of_failsAt (h : k.failsAt = some p) : Undone k (unwound k p) := by
  unfold AcceptCalls.failsAt at h
  cases ha : k.accept with
  | none =>
    rw [ha, if_pos rfl] at h
    obtain rfl := Option.some.inj h
    exact undone_none (by simp [listenerCb, ha, unwound])
  | some n =>
    have hfd : k.clientFd = n := by simp [AcceptCalls.clientFd, ha]
    rw [ha, if_neg (by simp)] at h
    split_ifs at h with hopt hrec haddr ho
    · obtain rfl := Option.some.inj h
      exact undone_none (by simp only [listenerCb, ha, if_pos hopt, unwound, hfd])
    · obtain rfl := Option.some.inj h
      have hnew : clientNew k = (none, [.badPointer]) := if_pos hrec
      refine undone_none ?_
      simp only [listenerCb, ha, if_neg hopt, hnew, unwound, hfd]
      rfl
    · obtain rfl := Option.some.inj h
      rw [Bool.not_eq_true'] at haddr
      have hnew := clientNew_fails (by simpa using hrec) haddr
      refine undone_none ?_
      simp only [listenerCb, ha, if_neg hopt, hnew, unwound, created, hfd]
      simp
    · obtain rfl := Option.some.inj h
      have hnew := clientNew_succeeds (by simpa using hrec) (by simpa using haddr)
      have hcb : listenerCb k = (some (listenerFreeClient (allocated k n) n), []) := by
        simp only [listenerCb, ha, if_neg hopt, hnew, ho]
        rfl
      have hfresh : Fresh (allocated k n) := ⟨rfl, rfl, rfl, rfl⟩
      obtain ⟨hout, hrel⟩ := hfresh.listenerFree_eq n
      refine undone_some hcb ⟨hout.trans ?_, hrel⟩
      simp [unwound, created, hfd, allocated, clientFreeEffects, closeEffect, freeEffect,
        bevFreeEffect, freeRecord, Conn.new, End.new]
    · obtain ⟨a, ho⟩ := Option.ne_none_iff_exists'.mp ho
      have hnew := clientNew_succeeds (by simpa using hrec) (by simpa using haddr)
      have hcb : listenerCb k = (some (listenerSetup (addressed k n a) n k), []) := by
        simp only [listenerCb, ha, if_neg hopt, hnew, ho]
        rfl
      exact undone_some hcb (setup_fails ha h)

theorem connect_waits {c : Conn} (hc : Fresh c) (h : k.connectFailsAt = none) :
    (startConnectRelay c k).underway = true ∧ (startConnectRelay c k).released = false := by
  unfold AcceptCalls.connectFailsAt at h
  split_ifs at h with hs hopt hbev hconn
  obtain ⟨r, hs⟩ := Option.ne_none_iff_exists'.mp hs
  have h₁ : Fresh (connecting (c.emits [.opened (.sock .relay) r]) r) :=
    (((hc.emits [.opened (.sock .relay) r]).setEnd .relay _).setBev .relay _).emits _
  rw [startConnectRelay_socket hs]
  simp only [if_neg hopt, if_neg hbev, if_neg hconn]
  exact ⟨trivial, (h₁.setTimeout k.timer).1.live⟩

/-- An accept that does not give up leaves the client waiting for its relay. -/
theorem waits_of_failsAt (h : k.failsAt = none) :
    ∃ c, (listenerCb k).1 = some c ∧ c.underway = true ∧ c.released = false := by
  unfold AcceptCalls.failsAt AcceptCalls.setupFailsAt at h
  split_ifs at h with ha hopt hrec haddr ho hbev hset
  obtain ⟨n, ha⟩ := Option.ne_none_iff_exists'.mp ha
  obtain ⟨a, ho⟩ := Option.ne_none_iff_exists'.mp ho
  have hnew := clientNew_succeeds (by simpa using hrec) (by simpa using haddr)
  have hcb : listenerCb k = (some (listenerSetup (addressed k n a) n k), []) := by
    simp only [listenerCb, ha, if_neg hopt, hnew, ho]
    rfl
  have hsetup : listenerSetup (addressed k n a) n k = startConnectRelay (listed k n a) k := by
    rw [listenerSetup, if_neg hbev]
    exact if_neg hset
  rw [hcb, hsetup]
  exact ⟨_, rfl, connect_waits ⟨rfl, rfl, rfl, rfl⟩ h⟩

end Paths

/-! ## All or nothing -/

/-- The call closes the number `n`. -/
def Effect.closesNumber (n : ℕ) : Effect → Bool
  | .closed _ fd => fd == n
  | _ => false

def World.Waits (w : World) (i : ℕ) : Prop :=
  ∃ c, w.conns i = some c ∧ c.underway = true ∧ c.released = false

/-- An accept that made the calls `es` left nothing behind: the list `l`, the descriptors and all
other clients are as they were, and what it acquired it gave back once. -/
structure AllOrNothing (w w' : World) (l : List ℕ) (es : List Effect) : Prop where
  list : ∀ a ∈ nodes l, SameAt w.reg.links w'.reg.links a
  clients : ∀ i, i ≠ w.nextId → w'.conns i = w.conns i
  table : w'.fds = w.fds
  sockets : ∀ h n, .opened h n ∈ es → es.countP (Effect.closesNumber n) = 1
  bufferevents : ∀ s, .alloc (.bev s) ∈ es → es.count (.free (.bev s)) = 1
  record : .alloc .record ∈ es → es.count (.free .record) = 1
  fault : w'.reg.fault = none

section World

variable {w : World} {k : AcceptCalls}

theorem accepted_fds :
    (w.accepted k).fds = applyAll (Owner.conn w.nextId) w.fds (fdOps (World.acceptEffects k)) := by
  unfold World.accepted World.acceptEffects
  split <;> rfl

theorem accepted_reg :
    (w.accepted k).reg = (World.acceptEffects k).foldl (Registry.perform w.nextId) w.reg := by
  unfold World.accepted World.acceptEffects
  split <;> rfl

theorem accepted_conns_ne {i : ℕ} (hi : i ≠ w.nextId) : (w.accepted k).conns i = w.conns i := by
  unfold World.accepted
  split
  · exact Function.update_of_ne hi ..
  · rfl

theorem accepted_conns_self (hnew : w.conns w.nextId = none) :
    (w.accepted k).conns w.nextId = (listenerCb k).1.map fun c => { c with out := [] } := by
  unfold World.accepted
  split
  · rename_i hcb
    rw [hcb]
    exact Function.update_self ..
  · rename_i hcb
    rw [hcb]
    exact hnew

end World

section Clean

variable {w : World} {k : AcceptCalls} {p : FailPoint} {l : List ℕ}

theorem created_notes (k : AcceptCalls) :
    (created k).filter Effect.notable = [.opened (.sock .client) k.clientFd, .listInit] := by
  unfold created
  rw [List.filter_cons_of_pos (by rfl), notes_newEffects]

/-- What a failure that is unwound does to the list. -/
theorem unwound_notes (k : AcceptCalls) (hp : p.unwinds = true) :
    Discarded ((unwound k p).filter Effect.notable) ∨ Plain ((unwound k p).filter Effect.notable) ∨
      ∃ x a, (unwound k p).filter Effect.notable = x ++ .listInit :: a ∧ Plain x ∧ Plain a := by
  have hx : Plain [.opened (.sock .client) k.clientFd] := rfl
  cases p with
  | accept => exact .inr (.inl rfl)
  | clientOptions => exact .inr (.inl rfl)
  | addresses =>
    refine .inr (.inr ⟨[.opened (.sock .client) k.clientFd], [.closed (.sock .client) k.clientFd],
      ?_, rfl, rfl⟩)
    simp only [unwound, List.filter_append, created_notes]
    cases k.mallocClientAddr <;> cases k.mallocDestAddr <;> rfl
  | origdst =>
    refine .inl ?_
    have hnotes : (unwound k .origdst).filter Effect.notable =
        [Effect.opened (.sock .client) k.clientFd] ++
          Effect.listInit :: ([] ++ Effect.listDel :: [.closed (.sock .client) k.clientFd]) := by
      simp only [unwound, List.filter_append, created_notes]
      rfl
    rw [hnotes]
    exact .lone hx rfl rfl
  | relaySocket =>
    refine .inl ?_
    have hnotes : (unwound k .relaySocket).filter Effect.notable =
        [Effect.opened (.sock .client) k.clientFd] ++ Effect.listInit :: .listAddTail ::
          ([.closed (.sock .client) (k.clientFd : ℤ), .bevFree .client k.clientFd] ++
            Effect.listDel :: []) := by
      simp only [unwound, prepared, List.filter_append, created_notes]
      rfl
    rw [hnotes]
    exact .tail hx rfl rfl
  | relayOptions =>
    refine .inl ?_
    have hnotes : (unwound k .relayOptions).filter Effect.notable =
        [Effect.opened (.sock .client) k.clientFd] ++ Effect.listInit :: .listAddTail ::
          ([.opened (.sock .relay) k.relayFd, .closed (.sock .relay) (k.relayFd : ℤ),
            .closed (.sock .client) (k.clientFd : ℤ), .bevFree .client k.clientFd] ++
            Effect.listDel :: []) := by
      simp only [unwound, prepared, List.filter_append, created_notes]
      rfl
    rw [hnotes]
    exact .tail hx rfl rfl
  | _ => cases hp

theorem unwound_registry (hp : p.unwinds = true) (hes : World.acceptEffects k = unwound k p)
    (hring : IsRing w.reg.links l) (hni : w.nextId ∉ l) :
    IsRing (w.accepted k).reg.links l ∧ (w.accepted k).reg.fault = w.reg.fault := by
  rw [accepted_reg, hes, Registry.foldl_notes]
  rcases unwound_notes k hp with h | h
  · exact Registry.foldl_discarded hring hni h
  · exact Registry.foldl_refused hring hni h

/-- Opening a number that nobody has and closing it again changes nothing. -/
theorem open_close {T : ℕ → Option Owner} {n : ℕ} {o : Owner} (h : T n = none) :
    Function.update (Function.update T n (some o)) n none = T := by
  rw [Function.update_idem, ← h, Function.update_eq_self]

theorem fdOps_created (k : AcceptCalls) :
    fdOps (created k) = [.acquire (.sock .client) k.clientFd] := by
  rw [← fdOps_notes, created_notes]
  rfl

theorem unwound_ops (k : AcceptCalls) (hp : p.unwinds = true) :
    fdOps (unwound k p) = [] ∨
      fdOps (unwound k p) =
        [.acquire (.sock .client) k.clientFd, .close (.sock .client) k.clientFd] ∨
      (p = .relayOptions ∧ fdOps (unwound k p) =
        [.acquire (.sock .client) k.clientFd, .acquire (.sock .relay) k.relayFd,
          .close (.sock .relay) k.relayFd, .close (.sock .client) k.clientFd]) := by
  cases p with
  | accept => exact .inl rfl
  | clientOptions =>
    refine .inr (.inl ?_)
    simp [unwound, fdOps, Effect.op]
  | addresses =>
    refine .inr (.inl ?_)
    simp only [unwound, fdOps_append, fdOps_created]
    cases k.mallocClientAddr <;> cases k.mallocDestAddr <;>
      simp [fdOps, List.filterMap_cons, Effect.op]
  | origdst =>
    refine .inr (.inl ?_)
    simp only [unwound, fdOps_append, fdOps_created]
    simp [fdOps, List.filterMap_cons, freeRecord, Effect.op]
  | relaySocket =>
    refine .inr (.inl ?_)
    simp only [unwound, prepared, fdOps_append, fdOps_created]
    simp [fdOps, List.filterMap_cons, closeClient, freeClientBev, freeRecord, Effect.op]
  | relayOptions =>
    refine .inr (.inr ⟨rfl, ?_⟩)
    simp only [unwound, prepared, fdOps_append, fdOps_created]
    simp [fdOps, List.filterMap_cons, closeClient, freeClientBev, freeRecord, Effect.op]
  | _ => cases hp

/-- The descriptor table after a failure that is unwound. -/
theorem unwound_table {T : ℕ → Option Owner} {i : ℕ} (hp : p.unwinds = true)
    (hk : Unused (Owner.conn i) T (fdOps (unwound k p))) :
    applyAll (Owner.conn i) T (fdOps (unwound k p)) = T := by
  rcases unwound_ops k hp with h | h | ⟨-, h⟩ <;> rw [h] at hk ⊢
  · rfl
  · exact open_close hk.1
  · obtain ⟨hn, hr, -⟩ := hk
    simp only [applyAll, List.foldl_cons, List.foldl_nil, Handles.apply] at hr ⊢
    rw [open_close hr, open_close hn]

/-- The kernel does not hand out the client's number for the relay. -/
theorem relayFd_ne {T : ℕ → Option Owner} {i : ℕ}
    (hk : Unused (Owner.conn i) T (fdOps (unwound k .relayOptions))) : k.relayFd ≠ k.clientFd := by
  rcases unwound_ops k (p := .relayOptions) rfl with h | h | ⟨-, h⟩
  · simp only [unwound, prepared, fdOps_append, fdOps_created] at h
    cases h
  · simp only [unwound, prepared, fdOps_append, fdOps_created] at h
    cases h
  · rw [h] at hk
    intro he
    have hr := hk.2.1
    rw [he] at hr
    simp [Handles.apply] at hr

@[simp] theorem opened_mem_created (k : AcceptCalls) (h : Handle) (n : ℕ) :
    .opened h n ∈ created k ↔ h = .sock .client ∧ n = k.clientFd := by
  unfold created newEffects
  split_ifs <;> simp

@[simp] theorem alloc_mem_created (k : AcceptCalls) (s : Side) :
    .alloc (.bev s) ∈ created k ↔ False := by
  unfold created newEffects
  split_ifs <;> simp

@[simp] theorem free_notMem_created (k : AcceptCalls) (o : Obj) :
    (created k).count (.free o) = 0 := by
  unfold created newEffects
  split_ifs <;> rfl

@[simp] theorem closes_created (k : AcceptCalls) (n : ℕ) :
    (created k).countP (Effect.closesNumber n) = 0 := by
  unfold created newEffects
  split_ifs <;> rfl

/-- What a failure that is unwound gives back. -/
theorem unwound_once (hp : p.unwinds = true) (hne : p = .relayOptions → k.relayFd ≠ k.clientFd) :
    (∀ h n, .opened h n ∈ unwound k p → (unwound k p).countP (Effect.closesNumber n) = 1) ∧
      (∀ s, .alloc (.bev s) ∈ unwound k p → (unwound k p).count (.free (.bev s)) = 1) ∧
      (.alloc .record ∈ unwound k p → (unwound k p).count (.free .record) = 1) := by
  cases p with
  | accept => simp [unwound]
  | clientOptions => simp [unwound, Effect.closesNumber]
  | addresses =>
    unfold unwound
    split_ifs <;> simp [Effect.closesNumber]
  | origdst => simp [unwound, freeRecord, Effect.closesNumber]
  | relaySocket =>
    simp [unwound, prepared, closeClient, freeClientBev, freeRecord, Effect.closesNumber]
  | relayOptions =>
    have hne := hne rfl
    refine ⟨fun h n hn => ?_, ?_⟩
    · obtain rfl | rfl : n = k.clientFd ∨ n = k.relayFd := by
        simp [unwound, prepared, closeClient, freeClientBev, freeRecord] at hn
        tauto
      · simp [unwound, prepared, closeClient, freeClientBev, freeRecord, Effect.closesNumber, hne]
      · simp [unwound, prepared, closeClient, freeClientBev, freeRecord, Effect.closesNumber,
          hne.symm]
    · simp [unwound, prepared, closeClient, freeClientBev, freeRecord]
  | _ => cases hp

end Clean

/-! ## The failures that are not unwound -/

section Wrong

variable {w w' : World} {k : AcceptCalls} {p : FailPoint} {l : List ℕ}

theorem foldl_badPointer {i : ℕ} {es : List Effect} (h : .badPointer ∈ es) (r : Registry) :
    (es.foldl (Registry.perform i) r).fault ≠ none := by
  obtain ⟨es₁, es₂, rfl⟩ := List.append_of_mem h
  rw [List.foldl_append, List.foldl_cons]
  have hbad : ∃ x, ((es₁.foldl (Registry.perform i) r).perform i .badPointer).fault = some x := by
    show ∃ x, ((es₁.foldl (Registry.perform i) r).fault.or (some .badPointer)) = some x
    cases (es₁.foldl (Registry.perform i) r).fault with
    | none => exact ⟨_, rfl⟩
    | some x => exact ⟨_, rfl⟩
  obtain ⟨x, hx⟩ := hbad
  rw [Registry.foldl_fault hx]
  simp

/-- Each of the other failures uses a bad pointer or gives something back twice. -/
theorem unwound_wrong (hp : p.unwinds = false) :
    .badPointer ∈ unwound k p ∨
      ∃ h n, .opened h n ∈ unwound k p ∧ 2 ≤ (unwound k p).countP (Effect.closesNumber n) := by
  cases p with
  | record => exact .inl (by simp [unwound])
  | connect => exact .inl (by simp [unwound])
  | clientBev =>
    refine .inr ⟨.sock .client, k.clientFd, by simp [unwound], ?_⟩
    simp [unwound, closeClient, freeRecord, Effect.closesNumber]
  | clientBevSetup =>
    refine .inr ⟨.sock .client, k.clientFd, by simp [unwound], ?_⟩
    simp [unwound, closeClient, freeRecord, Effect.closesNumber]
  | relayBev =>
    refine .inr ⟨.sock .relay, k.relayFd, by simp [unwound], ?_⟩
    simp [unwound, prepared, closeBoth, freeClientBev, freeRecord, Effect.closesNumber,
      List.countP_cons]
  | _ => cases hp

end Wrong

section Main

variable {m : PumpMethod} {w w' : World} {k : AcceptCalls} {l : List ℕ}

/-- When the accept gives up, it does so at a failure that is unwound. -/
def AcceptCalls.Unwinds (k : AcceptCalls) : Prop := ∀ p, k.failsAt = some p → p.unwinds = true

/-- **Accept is all or nothing** exactly when the call whose failure makes it give up, if there is
one, is not the allocation of the record, a call on one of the new bufferevents or the connection
attempt. -/
theorem accept_all_or_nothing_iff (hring : IsRing w.reg.links l) (hni : w.nextId ∉ l)
    (hnew : w.conns w.nextId = none) (hs : World.Step m w (.accept k) w') :
    (¬ w'.Waits w.nextId → AllOrNothing w w' l (World.acceptEffects k)) ↔ k.Unwinds := by
  cases hs with
  | accept hf hk =>
  cases hp : k.failsAt with
  | none =>
    obtain ⟨c, hc, hu, hl⟩ := waits_of_failsAt hp
    have hwaits : (w.accepted k).Waits w.nextId :=
      ⟨{ c with out := [] }, by rw [accepted_conns_self hnew, hc]; rfl, hu, hl⟩
    exact ⟨fun _ p h => absurd (hp.symm.trans h) (by simp), fun _ h => absurd hwaits h⟩
  | some p =>
    obtain ⟨hes, hgone⟩ := undone_of_failsAt hp
    have hnot : ¬ (w.accepted k).Waits w.nextId := by
      rintro ⟨c', hc', -, hl⟩
      rw [accepted_conns_self hnew, Option.map_eq_some_iff] at hc'
      obtain ⟨c, hc, rfl⟩ := hc'
      exact absurd ((hgone c hc).symm.trans hl) (by decide)
    refine ⟨fun h q hq => ?_, fun h _ => ?_⟩
    · obtain rfl := Option.some.inj (hp.symm.trans hq)
      by_contra hbad
      have hall := h hnot
      rw [hes] at hall
      rcases unwound_wrong (k := k) (by simpa using hbad) with hb | ⟨g, n, ho, h2⟩
      · have hfault := hall.fault
        rw [accepted_reg, hes] at hfault
        exact foldl_badPointer hb _ hfault
      · have := hall.sockets g n ho
        omega
    · have hun := h p hp
      rw [World.KernelOk, hes] at hk
      obtain ⟨hring', hfault⟩ := unwound_registry hun hes hring hni
      obtain ⟨hsock, hbev, hrec⟩ := unwound_once (k := k) hun fun he => relayFd_ne (by
        rw [he] at hk
        exact hk)
      rw [hes]
      refine ⟨fun a ha => hring.sameAt hring' ha, fun i hi => accepted_conns_ne hi, ?_, hsock, hbev,
        hrec, hfault.trans hf⟩
      rw [accepted_fds, hes]
      exact unwound_table hun hk

end Main

def AcceptCalls.noSocket : AcceptCalls := { AcceptCalls.ok with accept := some 7, socket := none }

def AcceptCalls.noClientBev : AcceptCalls := { AcceptCalls.ok with bevNew := false }

/-- A client waits for its connect reply while the accept of the next one fails. -/
theorem accept_all_or_nothing_iff_noSocket :
    ∃ l, 0 ∈ l ∧ ¬ ((World.after .bufferpump toReply).accepted .noSocket).Waits 1 ∧
      AllOrNothing (World.after .bufferpump toReply)
        ((World.after .bufferpump toReply).accepted .noSocket) l
        (World.acceptEffects .noSocket) := by
  have hrun : Run (World.Step .bufferpump) (World.init 3) toReply
      (World.after .bufferpump toReply) := Run.foldl (follows_toReply .bufferpump trivial)
  obtain ⟨l, h⟩ := run_registered hrun rfl
  have hs : World.Step .bufferpump (World.after .bufferpump toReply) (.accept .noSocket)
      ((World.after .bufferpump toReply).accepted .noSocket) := .accept rfl ⟨rfl, trivial⟩
  have hnot : ¬ ((World.after .bufferpump toReply).accepted .noSocket).Waits 1 := by
    rintro ⟨c, hc, -, hl⟩
    cases hc
    cases hl
  refine ⟨l, (h.mem rfl).mpr rfl, hnot,
    (accept_all_or_nothing_iff h.ring h.nextId_notMem rfl hs).mpr ?_ hnot⟩
  intro p hp
  cases hp
  rfl

/-- The client's descriptor is closed twice. -/
theorem failed_bufferevent_closes_twice :
    World.Step .bufferpump (World.init 3) (.accept .noClientBev)
        ((World.init 3).accepted .noClientBev) ∧
      IsRing (World.init 3).reg.links [] ∧
      ¬ ((World.init 3).accepted .noClientBev).Waits 0 ∧
      ¬ AllOrNothing (World.init 3) ((World.init 3).accepted .noClientBev) []
        (World.acceptEffects .noClientBev) := by
  refine ⟨.accept rfl ⟨rfl, trivial⟩, isRing_nil _, ?_, fun h => ?_⟩
  · rintro ⟨c, hc, -, hl⟩
    cases hc
    cases hl
  · have htwice : (World.acceptEffects .noClientBev).countP (Effect.closesNumber 5) = 2 := by decide
    exact absurd (htwice.symm.trans (h.sockets (.sock .client) 5 (by decide))) (by decide)

end Transocks

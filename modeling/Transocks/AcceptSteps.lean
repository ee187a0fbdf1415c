import Transocks.PhaseSteps

/-!
# What an accept can leave behind

An accept registers a client and leaves it waiting for its relay, or it cleans up after itself. The
cleanup closes some numbers twice, but it unlinks the record exactly once. One failure path ends in
a bad pointer: when `bufferevent_socket_connect` fails, the record still points to the bufferevent
that was just freed.
-/

namespace Transocks

/-- A notable call that neither touches the list nor is a fault. -/
def Effect.plain : Effect → Bool
  | .opened _ _ => true
  | .closed (.sock _) _ => true
  | .bevFree _ _ => true
  | _ => false

def Plain (es : List Effect) : Prop := es.all Effect.plain = true

theorem Plain.append {es es' : List Effect} (h : Plain es) (h' : Plain es') :
    Plain (es ++ es') := by
  unfold Plain at *
  rw [List.all_append, h, h']
  rfl

/-- The notable calls of an accept that freed its record again. -/
inductive Discarded : List Effect → Prop
  | lone {x a b : List Effect} (hx : Plain x) (ha : Plain a) (hb : Plain b) :
    Discarded (x ++ .listInit :: (a ++ .listDel :: b))
  | tail {x a b : List Effect} (hx : Plain x) (ha : Plain a) (hb : Plain b) :
    Discarded (x ++ .listInit :: .listAddTail :: (a ++ .listDel :: b))

/-- The notable calls of an accept that ran into a bad pointer. -/
def Crashed (es : List Effect) : Prop :=
  ∃ pre post, es = pre ++ .badPointer :: post ∧ ∀ e ∈ pre, e ≠ .doubleFree ∧ e ≠ .useAfterFree

def socketsOf (n r : ℕ) : Side → ℕ
  | .client => n
  | .relay => r

/-- The notable calls of an accept that succeeded. -/
def registerNotes (n r : ℕ) : List Effect :=
  [.opened (.sock .client) n, .listInit, .listAddTail, .opened (.sock .relay) r]

/-- The outcomes of an accept. -/
inductive AcceptNext (k : AcceptCalls) : Prop
  | registered (c : Conn) (n r : ℕ) (b : Bufferevent) (hcb : listenerCb k = (some c, []))
      (h : Handshaking c (socketsOf n r) b) (hn : c.notes = registerNotes n r)
  | discarded (c : Conn) (hcb : listenerCb k = (some c, [])) (h : Inert c) (hu : c.underway = false)
      (hn : Discarded c.notes)
  | crashed (c : Conn) (hcb : listenerCb k = (some c, [])) (hu : c.underway = false)
      (hn : Crashed c.notes)
  | refused (es : List Effect) (hcb : listenerCb k = (none, es))
      (hn : Crashed (es.filter Effect.notable) ∨ Plain (es.filter Effect.notable) ∨
        ∃ x a, es.filter Effect.notable = x ++ .listInit :: a ∧ Plain x ∧ Plain a)

section Discard

variable {c : Conn}

theorem plain_clientFreeEffects (c : Conn) :
    ∃ a, Plain a ∧
      (clientFreeEffects c).filter Effect.notable = a ++ [.listDel] := by
  have hclose : ∀ s fd,
      ((closeEffect (.sock s) fd).filter Effect.notable).all Effect.plain = true := by
    intro s fd
    unfold closeEffect
    split <;> rfl
  have hbev : ∀ s b, ((bevFreeEffect s b).filter Effect.notable).all Effect.plain = true := by
    intro s b
    cases b <;> rfl
  have hshut : ∀ s (fd : Fd), ((if 0 ≤ fd then [Effect.shutdown s fd .rdwr] else []).filter
      Effect.notable).all Effect.plain = true := by
    intro s fd
    split <;> rfl
  have hfree : ∀ (o : Obj) (b : Bool),
      ((if b then [Effect.free o] else []).filter Effect.notable).all Effect.plain = true := by
    intro o b
    cases b <;> rfl
  refine ⟨_, ?_, List.filter_append ..⟩
  unfold Plain
  simp only [List.filter_append, List.all_append, freeEffect, hclose, hbev, hshut, hfree,
    Bool.and_self]

theorem clientFree_discards (hl : c.released = false)
    (hs : c.clientState ≠ .destroyed ∧ c.clientState ≠ .destroying) (hp : c.userArg = none) :
    Inert (clientFree c) ∧ (clientFree c).underway = c.underway ∧
      ∃ a, Plain a ∧ (clientFree c).notes = c.notes ++ (a ++ [.listDel]) := by
  obtain ⟨a, ha, he⟩ := plain_clientFreeEffects c
  rw [clientFree_eq hl hs]
  refine ⟨⟨rfl, fun s => rfl, rfl, fun p hp' => absurd (hp.symm.trans hp') (by simp)⟩, rfl,
    a, ha, ?_⟩
  show (c.out ++ clientFreeEffects c).filter Effect.notable = _
  rw [List.filter_append, he]
  rfl

/-- A record that is being set up. -/
structure Fresh (c : Conn) : Prop where
  live : c.released = false
  state : c.clientState = .new
  noPump : c.userArg = none
  idle : c.underway = false

theorem Fresh.clientFree (h : Fresh c) :
    Inert (clientFree c) ∧ (clientFree c).underway = false ∧
      ∃ a, Plain a ∧ (clientFree c).notes = c.notes ++ (a ++ [.listDel]) := by
  obtain ⟨hi, hu, ha⟩ := clientFree_discards h.live (by simp [h.state]) h.noPump
  exact ⟨hi, hu.trans h.idle, ha⟩

theorem Fresh.emits (h : Fresh c) (es : List Effect) : Fresh (c.emits es) :=
  ⟨h.live, h.state, h.noPump, h.idle⟩

theorem Fresh.setEnd (h : Fresh c) (s : Side) (e : End) : Fresh (c.setEnd s e) :=
  ⟨h.live, h.state, h.noPump, h.idle⟩

theorem Fresh.setBev (h : Fresh c) (s : Side) (b : Option Bufferevent) : Fresh (c.setBev s b) :=
  ⟨h.live, h.state, h.noPump, h.idle⟩

theorem Fresh.setTimeout (h : Fresh c) (k : TimerCalls) :
    Fresh (clientSetTimeout c k) ∧ (clientSetTimeout c k).notes = c.notes ∧
      (clientSetTimeout c k).ends = c.ends := by
  unfold clientSetTimeout
  rw [Conn.touch_live h.live]
  split
  · split
    · refine ⟨⟨h.live, h.state, h.noPump, h.idle⟩, ?_, rfl⟩
      show (c.out ++ [Effect.alloc .timer]).filter Effect.notable = _
      rw [List.filter_append]
      exact List.append_nil _
    · exact ⟨h, rfl, rfl⟩
  · exact ⟨⟨h.live, h.state, h.noPump, h.idle⟩, rfl, rfl⟩

/-- The labels `freeClient` and `freeFd` of the accept callback. -/
theorem Fresh.freeClient (h : Fresh c) {x a : List Effect} (hx : Plain x) (ha : Plain a)
    (hn : c.notes = x ++ .listInit :: a) (n : ℕ) :
    Inert (listenerFreeClient c n) ∧ (listenerFreeClient c n).underway = false ∧
      Discarded (listenerFreeClient c n).notes := by
  obtain ⟨hi, hu, a', ha', hn'⟩ := h.clientFree
  refine ⟨⟨hi.released, hi.bev, hi.timer, hi.events⟩, hu, ?_⟩
  have hnotes : (listenerFreeClient c n).notes =
      x ++ .listInit :: ((a ++ a') ++ .listDel :: [.closed (.sock .client) (n : ℤ)]) := by
    unfold listenerFreeClient
    rw [notes_emits, hn', hn]
    simp [Effect.notable]
  rw [hnotes]
  exact .lone hx (ha.append ha') rfl

/-- The label `freeClient` of `transocks_start_connect_relay`, for a client that is on the list. -/
theorem Fresh.unregister (h : Fresh c) {x a : List Effect} (hx : Plain x) (ha : Plain a)
    (hn : c.notes = x ++ .listInit :: .listAddTail :: a) :
    Inert (Transocks.clientFree c) ∧ (Transocks.clientFree c).underway = false ∧
      Discarded (Transocks.clientFree c).notes := by
  obtain ⟨hi, hu, a', ha', hn'⟩ := h.clientFree
  refine ⟨hi, hu, ?_⟩
  rw [hn', hn]
  have heq : (x ++ .listInit :: .listAddTail :: a) ++ (a' ++ [.listDel]) =
      x ++ Effect.listInit :: .listAddTail :: ((a ++ a') ++ .listDel :: []) := by simp
  rw [heq]
  exact .tail hx (ha.append ha') rfl

end Discard

/-! ## The relay connection -/

/-- The outcomes of `transocks_start_connect_relay` for a client that was just put on the list. -/
inductive ConnectNext (c' : Conn) (n : ℕ) : Prop
  | registered (r : ℕ) (b : Bufferevent)
      (h : Handshaking c' (socketsOf n r) b)
      (hn : c'.notes = registerNotes n r)
  | discarded (h : Inert c') (hu : c'.underway = false) (hn : Discarded c'.notes)
  | crashed (hu : c'.underway = false) (hn : Crashed c'.notes)

/-- The relay's bufferevent while the connection attempt is under way. -/
def connectingBev (r : ℕ) : Bufferevent :=
  { Bufferevent.new r with eventcb := some .relayOnconnect }

theorem Fresh.handshaking {c : Conn} {n r : ℕ} (h : Fresh c)
    (hc : c.ends .client = { End.new with fd := n, bev := some (Bufferevent.new n) })
    (hr : c.ends .relay = { End.new with fd := r, bev := some (connectingBev r) }) :
    Handshaking { c with underway := true } (socketsOf n r) (connectingBev r) := by
  refine ⟨⟨h.live, by simp [h.state], fun s => ?_, fun s => ?_⟩, h.noPump, fun s => ?_, fun s => ?_,
    by simp [hc, socketsOf], by simp [hr], rfl, rfl, ?_, ?_⟩
  · cases s
    · simp [hc, socketsOf]
    · simp [hr, socketsOf]
  · cases s
    · exact ⟨Bufferevent.new n, by simp [hc], rfl⟩
    · exact ⟨connectingBev r, by simp [hr], rfl⟩
  · cases s
    · simp [hc, End.new]
    · simp [hr, End.new]
  · cases s
    · simp [hc, End.new]
    · simp [hr, End.new]
  · simp [connectingBev, Bufferevent.new]
  · simp [connectingBev]

/-- The client when `transocks_start_connect_relay` arms its timer. -/
def connecting (c : Conn) (r : ℕ) : Conn :=
  ((c.setEnd .relay { c.ends .relay with fd := r }).setBev .relay (some (connectingBev r))).emits
    [.alloc (.bev .relay)]

theorem connecting_client (c : Conn) (r : ℕ) : (connecting c r).ends .client = c.ends .client := by
  simp [connecting, Conn.setBev_ne, Conn.setEnd_ne]

theorem connecting_relay (c : Conn) (r : ℕ) : (connecting c r).ends .relay =
    { c.ends .relay with fd := r, bev := some (connectingBev r) } := by
  simp [connecting]

theorem startConnectRelay_socket {c : Conn} {k : AcceptCalls} {r : ℕ} (hs : k.socket = some r) :
    startConnectRelay c k =
      let c₁ := c.emits [.opened (.sock .relay) r]
      if !(k.relayNonblock && k.relayKeepalive && k.relayNodelay) then
        clientFree (c₁.emits [.closed (.sock .relay) r])
      else if !k.relayBevNew then
        clientFree ((c₁.setEnd .relay { c₁.ends .relay with fd := r }).emits
          [.closed (.sock .relay) r])
      else if !k.connect then
        clientFree ((clientSetTimeout (connecting c₁ r) k.timer).emits
          [.bevFree .relay r, .free (.bev .relay), .closed (.sock .relay) r, .badPointer])
      else { clientSetTimeout (connecting c₁ r) k.timer with underway := true } := by
  unfold startConnectRelay
  rw [hs]
  rfl

theorem startConnectRelay_none {c : Conn} {k : AcceptCalls} (hs : k.socket = none) :
    startConnectRelay c k = clientFree c := by
  unfold startConnectRelay
  rw [hs]

theorem connect_next {c : Conn} {n : ℕ} (h : Fresh c)
    (hn : c.notes = [.opened (.sock .client) n, .listInit, .listAddTail])
    (hc : c.ends .client = { End.new with fd := n, bev := some (Bufferevent.new n) })
    (hr : c.ends .relay = End.new) (k : AcceptCalls) : ConnectNext (startConnectRelay c k) n := by
  have hx : Plain [.opened (.sock .client) n] := rfl
  cases hs : k.socket with
  | none =>
    rw [startConnectRelay_none hs]
    obtain ⟨hi, hu, hd⟩ := h.unregister hx (a := []) rfl hn
    exact .discarded hi hu hd
  | some r =>
    rw [startConnectRelay_socket hs]
    have h₁ := h.emits [.opened (.sock .relay) r]
    have hn₁ : (c.emits [.opened (.sock .relay) r]).notes = registerNotes n r := by
      rw [notes_emits, hn]
      rfl
    simp only
    split
    · obtain ⟨hi, hu, hd⟩ := (h₁.emits [.closed (.sock .relay) (r : ℤ)]).unregister hx
        (a := [.opened (.sock .relay) r, .closed (.sock .relay) (r : ℤ)]) rfl
        (by rw [notes_emits, hn₁]; rfl)
      exact .discarded hi hu hd
    have h₂ := h₁.setEnd .relay { (c.emits [.opened (.sock .relay) r]).ends .relay with fd := r }
    split
    · obtain ⟨hi, hu, hd⟩ := (h₂.emits [.closed (.sock .relay) (r : ℤ)]).unregister hx
        (a := [.opened (.sock .relay) r, .closed (.sock .relay) (r : ℤ)]) rfl
        (by rw [notes_emits, notes_setEnd, hn₁]; rfl)
      exact .discarded hi hu hd
    have h₃ : Fresh (connecting (c.emits [.opened (.sock .relay) r]) r) :=
      (h₂.setBev .relay (some (connectingBev r))).emits [.alloc (.bev .relay)]
    have hn₃ : (connecting (c.emits [.opened (.sock .relay) r]) r).notes = registerNotes n r := by
      unfold connecting
      rw [notes_emits, notes_setBev, notes_setEnd, hn₁]
      rfl
    obtain ⟨h₄, hn₄, he₄⟩ := h₃.setTimeout k.timer
    split
    · -- the bufferevent is freed, then passed on once more by `transocks_client_free`
      obtain ⟨-, hu, a, ha, hfree⟩ := (h₄.emits [.bevFree .relay r, .free (.bev .relay),
        .closed (.sock .relay) r, .badPointer]).clientFree
      refine .crashed hu ⟨registerNotes n r ++ [.bevFree .relay r, .closed (.sock .relay) r],
        a ++ [.listDel], hfree.trans ?_, by simp [registerNotes]⟩
      rw [notes_emits, hn₄, hn₃, List.append_assoc, List.append_assoc]
      rfl
    · refine .registered r _ (h₄.handshaking ?_ ?_) (hn₄.trans hn₃)
      · rw [he₄, connecting_client]
        exact hc
      · rw [he₄, connecting_relay, Conn.emits_ends, hr]

theorem setup_next {c : Conn} {n : ℕ} (h : Fresh c)
    (hn : c.notes = [.opened (.sock .client) n, .listInit])
    (hc : c.ends .client = { End.new with fd := n }) (hr : c.ends .relay = End.new)
    (k : AcceptCalls) : ConnectNext (listenerSetup c n k) n := by
  have hx : Plain [.opened (.sock .client) n] := rfl
  unfold listenerSetup
  split
  · obtain ⟨hi, hu, hd⟩ := h.freeClient hx (a := []) rfl hn n
    exact .discarded hi hu hd
  have h₁ := h.emits [.alloc (.bev .client)]
  have hn₁ : (c.emits [.alloc (.bev .client)]).notes =
      [.opened (.sock .client) n, .listInit] := by
    rw [notes_emits, hn]
    rfl
  simp only
  split
  · obtain ⟨hi, hu, hd⟩ := (h₁.emits [.bevFree .client (-1), .free (.bev .client)]).freeClient hx
      (a := [.bevFree .client (-1)]) rfl (by rw [notes_emits, hn₁]; rfl) n
    exact .discarded hi hu hd
  · refine connect_next ((h₁.setBev .client _).emits [.listAddTail]) ?_ ?_ ?_ k
    · rw [notes_emits, notes_setBev, hn₁]
      rfl
    · simp [hc]
    · simpa [Conn.setBev_ne] using hr

/-- The calls `transocks_client_new` makes, when the record itself could be allocated. -/
def newEffects (k : AcceptCalls) : List Effect :=
  [.alloc .record, .listInit] ++ (if k.mallocClientAddr then [.alloc .clientAddr] else []) ++
    (if k.mallocDestAddr then [.alloc .destAddr] else [])

theorem notes_newEffects (k : AcceptCalls) :
    (newEffects k).filter Effect.notable = [.listInit] := by
  unfold newEffects
  split_ifs <;> rfl

theorem clientNew_cases (k : AcceptCalls) :
    clientNew k = (none, [.badPointer]) ∨ clientNew k = (some Conn.new, newEffects k) ∨
      ∃ es, clientNew k = (none, es) ∧ es.filter Effect.notable = [.listInit] := by
  have hfree : ∀ (o : Obj) (b : Bool),
      (if b then [Effect.free o] else []).filter Effect.notable = [] := by
    intro o b
    cases b <;> rfl
  unfold clientNew
  by_cases hm : (!k.mallocClient) = true
  · rw [if_pos hm]
    exact .inl rfl
  rw [if_neg hm]
  by_cases ha : (k.mallocClientAddr && k.mallocDestAddr) = true
  · simp only [if_pos ha]
    exact .inr (.inl rfl)
  · simp only [if_neg ha]
    refine .inr (.inr ⟨_, rfl, ?_⟩)
    simp only [List.filter_append, hfree, List.append_nil]
    have hnew := notes_newEffects k
    simp only [newEffects, List.filter_append] at hnew
    rw [hnew]
    rfl

/-- The record `listener_cb` gets from `transocks_client_new`, with the peer's address. -/
def allocated (k : AcceptCalls) (n : ℕ) : Conn :=
  { Conn.new.emits ([.opened (.sock .client) n] ++ newEffects k) with clientAddr := some k.srcAddr }

/-- The record once `getorigdst` has found the destination `a`. -/
def addressed (k : AcceptCalls) (n : ℕ) (a : SockAddr) : Conn :=
  { allocated k n with destAddr := some a }.setEnd .client { Conn.new.ends .client with fd := n }

theorem notes_allocated (k : AcceptCalls) (n : ℕ) :
    (allocated k n).notes = [.opened (.sock .client) n, .listInit] := by
  show ([Effect.opened (.sock .client) n] ++ newEffects k).filter Effect.notable = _
  rw [List.filter_append, notes_newEffects]
  rfl

theorem addressed_next (k : AcceptCalls) (n : ℕ) (a : SockAddr) :
    ConnectNext (listenerSetup (addressed k n a) n k) n := by
  have hfresh : Fresh (addressed k n a) := ⟨rfl, rfl, rfl, rfl⟩
  exact setup_next hfresh (notes_allocated k n) (Conn.setEnd_same ..)
    (Conn.setEnd_ne _ _ (by decide)) k

/-- **One accept.** -/
theorem accept_next (k : AcceptCalls) : AcceptNext k := by
  cases ha : k.accept with
  | none => exact .refused [] (by simp [listenerCb, ha]) (.inr (.inl rfl))
  | some n =>
    by_cases hopt : (k.srcLenZero || !(k.nonblock && k.keepalive && k.nodelay)) = true
    · exact .refused [.opened (.sock .client) n, .closed (.sock .client) n]
        (by simp only [listenerCb, ha, if_pos hopt]) (.inr (.inl rfl))
    obtain hnew | hnew | ⟨es, hnew, hes⟩ := clientNew_cases k
    · exact .refused ([.opened (.sock .client) n] ++ [.badPointer] ++ [.closed (.sock .client) n])
        (by simp only [listenerCb, ha, if_neg hopt, hnew])
        (.inl ⟨[.opened (.sock .client) n], [.closed (.sock .client) n], rfl, by simp⟩)
    · cases ho : k.origdst with
      | none =>
        have hcb : listenerCb k = (some (listenerFreeClient (allocated k n) n), []) := by
          simp only [listenerCb, ha, if_neg hopt, hnew, ho]
          rfl
        have hfresh : Fresh (allocated k n) := ⟨rfl, rfl, rfl, rfl⟩
        obtain ⟨hi, hu, hd⟩ := hfresh.freeClient (x := [.opened (.sock .client) n]) rfl
          (a := []) rfl (notes_allocated k n) n
        exact .discarded _ hcb hi hu hd
      | some a =>
        have hcb : listenerCb k = (some (listenerSetup (addressed k n a) n k), []) := by
          simp only [listenerCb, ha, if_neg hopt, hnew, ho]
          rfl
        cases addressed_next k n a with
        | registered r b h hn => exact .registered _ n r b hcb h hn
        | discarded h hu hn => exact .discarded _ hcb h hu hn
        | crashed hu hn => exact .crashed _ hcb hu hn
    · refine .refused ([.opened (.sock .client) n] ++ es ++ [.closed (.sock .client) n])
        (by simp only [listenerCb, ha, if_neg hopt, hnew])
        (.inr (.inr ⟨[.opened (.sock .client) n], [.closed (.sock .client) n], ?_, rfl, rfl⟩))
      rw [List.filter_append, List.filter_append, hes]
      rfl

/-! ## The accept that succeeds -/

/-- The record when `listener_cb` calls `transocks_start_connect_relay`. -/
def listed (k : AcceptCalls) (n : ℕ) (a : SockAddr) : Conn :=
  (((addressed k n a).emits [.alloc (.bev .client)]).setBev .client
    (some (Bufferevent.new n))).emits [.listAddTail]

/-- `transocks_start_connect_relay` arms the timer. -/
theorem connecting_timer (k : AcceptCalls) (n r : ℕ) (a : SockAddr) (es : List Effect) :
    clientSetTimeout (connecting ((listed k n a).emits es) r) k.timer =
      { connecting ((listed k n a).emits es) r with
        timeoutEv := if k.timer.evtimerNew then some ⟨k.timer.evtimerAdd, false⟩ else none
        out := (connecting ((listed k n a).emits es) r).out ++
          if k.timer.evtimerNew then [.alloc .timer] else [] } := by
  have hl : (connecting ((listed k n a).emits es) r).released = false := rfl
  have ht : (connecting ((listed k n a).emits es) r).timeoutEv = none := rfl
  unfold clientSetTimeout
  rw [Conn.touch_live hl]
  simp only [ht]
  cases k.timer.evtimerNew
  · simp [← ht]
  · simp

/-- The client that an accept leaves waiting for its relay. -/
def waitingConn (k : AcceptCalls) (n r : ℕ) (a : SockAddr) : Conn :=
  { clientSetTimeout (connecting ((listed k n a).emits [.opened (.sock .relay) r]) r) k.timer with
    underway := true }

/-- The relay's connection attempt is under way, or the record is freed. -/
theorem startConnectRelay_cases {c : Conn} (h : Fresh c) (k : AcceptCalls) :
    Inert (startConnectRelay c k) ∨ ∃ r, k.socket = some r ∧ startConnectRelay c k =
      { clientSetTimeout (connecting (c.emits [.opened (.sock .relay) r]) r) k.timer with
        underway := true } := by
  cases hr : k.socket with
  | none =>
    rw [startConnectRelay_none hr]
    exact .inl h.clientFree.1
  | some r =>
    rw [startConnectRelay_socket hr]
    have h₁ := h.emits [.opened (.sock .relay) r]
    have h₂ := h₁.setEnd .relay { (c.emits [.opened (.sock .relay) r]).ends .relay with fd := r }
    have h₃ : Fresh (connecting (c.emits [.opened (.sock .relay) r]) r) :=
      (h₂.setBev .relay (some (connectingBev r))).emits [.alloc (.bev .relay)]
    simp only
    split_ifs with hopt hbev hconn
    · exact .inl (h₁.emits _).clientFree.1
    · exact .inl (h₂.emits _).clientFree.1
    · exact .inl ((h₃.setTimeout k.timer).1.emits _).clientFree.1
    · exact .inr ⟨r, rfl, rfl⟩

/-- A record that is not freed is left behind by one path only, on which every call but those on the
timer succeeded. -/
theorem listenerCb_cases {k : AcceptCalls} {c : Conn} (hcb : (listenerCb k).1 = some c) :
    Inert c ∨ ∃ n r a, k.accept = some n ∧ k.socket = some r ∧ k.origdst = some a ∧
      c = waitingConn k n r a := by
  have hfree : ∀ {c₁ : Conn} (n : ℕ), Fresh c₁ → Inert (listenerFreeClient c₁ n) := fun n h =>
    ⟨h.clientFree.1.released, h.clientFree.1.bev, h.clientFree.1.timer, h.clientFree.1.events⟩
  unfold listenerCb at hcb
  split at hcb
  · cases hcb
  · rename_i n hacc
    split_ifs at hcb with hopt
    obtain hnew | hnew | ⟨es, hnew, -⟩ := clientNew_cases k
    · rw [hnew] at hcb
      cases hcb
    swap
    · rw [hnew] at hcb
      cases hcb
    rw [hnew] at hcb
    cases ho : k.origdst with
    | none =>
      rw [ho] at hcb
      obtain rfl := Option.some.inj hcb
      have hfresh : Fresh (allocated k n) := ⟨rfl, rfl, rfl, rfl⟩
      exact .inl (hfree n hfresh)
    | some a =>
      rw [ho] at hcb
      obtain rfl : listenerSetup (addressed k n a) n k = c := Option.some.inj hcb
      have hfresh : Fresh (addressed k n a) := ⟨rfl, rfl, rfl, rfl⟩
      unfold listenerSetup
      split_ifs with hbev hfd
      · exact .inl (hfree n hfresh)
      · exact .inl (hfree n ((hfresh.emits _).emits _))
      · rcases startConnectRelay_cases (c := listed k n a) ⟨rfl, rfl, rfl, rfl⟩ k with
          hi | ⟨r, hr, heq⟩
        · exact .inl hi
        · exact .inr ⟨n, r, a, hacc, hr, rfl, heq⟩

theorem listenerCb_live {k : AcceptCalls} {c : Conn} (hcb : (listenerCb k).1 = some c)
    (hl : c.released = false) :
    ∃ n r a, k.accept = some n ∧ k.socket = some r ∧ k.origdst = some a ∧
      c = waitingConn k n r a :=
  (listenerCb_cases hcb).resolve_left fun hi => absurd (hi.released.symm.trans hl) (by decide)

end Transocks

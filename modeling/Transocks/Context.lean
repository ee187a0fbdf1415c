import Transocks.Basic

/-!
# `context.c`: releasing a client and its handshake timer

`clientFree` is `transocks_client_free` in a build without `TRANSOCKS_DEBUG`. It closes both
sockets by the numbers in the record and then frees both bufferevents, which were made with
`BEV_OPT_CLOSE_ON_FREE` and may still hold the same numbers.
-/

namespace Transocks

/-- The calls `transocks_client_free` makes on a live record, in order. -/
def clientFreeEffects (c : Conn) : List Effect :=
  (if 0 ≤ (c.ends .client).fd then [.shutdown .client (c.ends .client).fd .rdwr] else []) ++
  (if 0 ≤ (c.ends .relay).fd then [.shutdown .relay (c.ends .relay).fd .rdwr] else []) ++
  closeEffect (.sock .client) (c.ends .client).fd ++
  closeEffect (.sock .relay) (c.ends .relay).fd ++
  freeEffect .timer c.timeoutEv ++
  bevFreeEffect .relay (c.ends .relay).bev ++
  bevFreeEffect .client (c.ends .client).bev ++
  freeEffect .clientAddr c.clientAddr ++
  freeEffect .destAddr c.destAddr ++
  [.listDel, .free .record]

/-- One side of the record after its descriptor was closed and its bufferevent freed. -/
def End.freed (e : End) : End := { e with fd := closeResult e.fd, bev := none }

/-- `transocks_client_free`. -/
def clientFree (c : Conn) : Conn :=
  if c.released then c.emits [.doubleFree]
  else if c.clientState = .destroyed ∨ c.clientState = .destroying then c
  else
    { c with
      ends := fun s => (c.ends s).freed
      timeoutEv := none
      clientState := .destroyed
      clientAddr := none
      destAddr := none
      released := true
      out := c.out ++ clientFreeEffects c }

/-- The results of the timer calls of `transocks_client_set_timeout`, `true` for success. -/
structure TimerCalls where
  evtimerNew : Bool
  evtimerAssign : Bool
  evtimerAdd : Bool
  deriving DecidableEq, Repr

/-- `transocks_client_set_timeout`. All its callers ignore the returned code. -/
def clientSetTimeout (c : Conn) (k : TimerCalls) : Conn :=
  c.touch fun c =>
    match c.timeoutEv with
    | none =>
      if k.evtimerNew then
        { c with timeoutEv := some ⟨k.evtimerAdd, false⟩, out := c.out ++ [.alloc .timer] }
      else c
    | some _ => { c with timeoutEv := some ⟨k.evtimerAssign && k.evtimerAdd, false⟩ }

/-- `evtimer_del` on the record's timer, which every handshake callback starts with. libevent
dereferences the pointer it is given. -/
def withTimerDeleted (c : Conn) (k : Conn → Conn) : Conn :=
  match c.timeoutEv with
  | none => c.emits [.badPointer]
  | some ev => k { c with timeoutEv := some ev.del }

/-! ## What `clientFree` does to a live record -/

section ClientFree

variable {c : Conn} (hl : c.released = false)
  (hs : c.clientState ≠ .destroyed ∧ c.clientState ≠ .destroying)

include hl hs

theorem clientFree_eq :
    clientFree c =
      { c with
        ends := fun s => (c.ends s).freed
        timeoutEv := none
        clientState := .destroyed
        clientAddr := none
        destAddr := none
        released := true
        out := c.out ++ clientFreeEffects c } := by
  unfold clientFree
  rw [if_neg (by rw [hl]; decide), if_neg (by tauto)]

theorem clientFree_released : (clientFree c).released = true := by rw [clientFree_eq hl hs]

theorem clientFree_out : (clientFree c).out = c.out ++ clientFreeEffects c := by
  rw [clientFree_eq hl hs]

theorem clientFree_kern : (clientFree c).kern = c.kern := by rw [clientFree_eq hl hs]

theorem clientFree_ends (s : Side) : (clientFree c).ends s = (c.ends s).freed := by
  rw [clientFree_eq hl hs]

omit hl hs in
theorem clientFree_again (hr : c.released = true) : clientFree c = c.emits [.doubleFree] := by
  unfold clientFree
  rw [if_pos hr]

end ClientFree

@[simp] theorem End.freed_shutRead (e : End) : e.freed.shutRead = e.shutRead := rfl
@[simp] theorem End.freed_shutWrite (e : End) : e.freed.shutWrite = e.shutWrite := rfl
@[simp] theorem End.freed_bev (e : End) : e.freed.bev = none := rfl
@[simp] theorem End.freed_rx (e : End) : e.freed.rx = e.rx := rfl
@[simp] theorem End.freed_tx (e : End) : e.freed.tx = e.tx := rfl

end Transocks

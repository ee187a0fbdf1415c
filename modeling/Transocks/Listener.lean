import Transocks.Socks5

/-!
# `listener.c`: accepting a connection and connecting to the relay

`listenerCb` is the accept callback with `transocks_client_new` and `transocks_start_connect_relay`
inlined where the source calls them. Its cleanup is a chain of labels that fall through, over a
local, a field of the record and a bufferevent that may all hold the same descriptor.
-/

namespace Transocks

/-- The results of the calls made while a connection is accepted, `true` for success. -/
structure AcceptCalls where
  accept : Option ℕ
  srcAddr : SockAddr
  srcLenZero : Bool
  nonblock : Bool
  keepalive : Bool
  nodelay : Bool
  mallocClient : Bool
  mallocClientAddr : Bool
  mallocDestAddr : Bool
  origdst : Option SockAddr
  bevNew : Bool
  bevDisable : Bool
  bevSetfd : Bool
  socket : Option ℕ
  relayNonblock : Bool
  relayKeepalive : Bool
  relayNodelay : Bool
  relayBevNew : Bool
  timer : TimerCalls
  connect : Bool
  deriving DecidableEq, Repr

/-- One side of a record that `transocks_client_new` has just filled in. -/
def End.new : End := ⟨-1, none, false, false, [], []⟩

/-- The record `transocks_client_new` returns. -/
def Conn.new : Conn where
  ends := fun _ => End.new
  timeoutEv := none
  userArg := none
  clientState := .new
  clientAddr := some (.other 0)
  destAddr := some (.other 0)
  underway := false
  released := false
  kern := fun _ => Kern.none
  out := []

/-- `transocks_client_new`. When the record itself cannot be allocated, the label `fail` reads
`client->client_addr` through the null pointer. -/
def clientNew (k : AcceptCalls) : Option Conn × List Effect :=
  if !k.mallocClient then (none, [.badPointer])
  else
    let es := [.alloc .record, .listInit] ++
      (if k.mallocClientAddr then [.alloc .clientAddr] else []) ++
      (if k.mallocDestAddr then [.alloc .destAddr] else [])
    if k.mallocClientAddr && k.mallocDestAddr then (some Conn.new, es)
    else
      (none, es ++ (if k.mallocClientAddr then [.free .clientAddr] else []) ++
        (if k.mallocDestAddr then [.free .destAddr] else []) ++ [.free .record])

/-- `transocks_start_connect_relay`. -/
def startConnectRelay (c : Conn) (k : AcceptCalls) : Conn :=
  match k.socket with
  | none => clientFree c
  | some r =>
    let c := c.emits [.opened (.sock .relay) r]
    if !(k.relayNonblock && k.relayKeepalive && k.relayNodelay) then
      clientFree (c.emits [.closed (.sock .relay) r])
    else
      let c := c.setEnd .relay { c.ends .relay with fd := r }
      if !k.relayBevNew then clientFree (c.emits [.closed (.sock .relay) r])
      else
        let c := (c.setBev .relay
          (some { Bufferevent.new r with eventcb := some .relayOnconnect })).emits
          [.alloc (.bev .relay)]
        let c := clientSetTimeout c k.timer
        if !k.connect then
          -- the record still points to the bufferevent that the label `freeBev` freed
          clientFree (c.emits [.bevFree .relay r, .free (.bev .relay), .closed (.sock .relay) r,
            .badPointer])
        else { c with underway := true }

/-- The labels `freeClient` and `freeFd` of `listener_cb`. -/
def listenerFreeClient (c : Conn) (n : ℕ) : Conn := (clientFree c).emits [.closed (.sock .client) n]

/-- The part of `listener_cb` after `getorigdst`. -/
def listenerSetup (c : Conn) (n : ℕ) (k : AcceptCalls) : Conn :=
  if !k.bevNew then listenerFreeClient c n
  else
    let c := c.emits [.alloc (.bev .client)]
    if !(k.bevDisable && k.bevSetfd) then
      listenerFreeClient (c.emits [.bevFree .client (-1), .free (.bev .client)]) n
    else startConnectRelay ((c.setBev .client (some (Bufferevent.new n))).emits [.listAddTail]) k

/-- `listener_cb`: the record it leaves behind, if one was allocated, and the calls it made when
none was. -/
def listenerCb (k : AcceptCalls) : Option Conn × List Effect :=
  match k.accept with
  | none => (none, [])
  | some n =>
    if k.srcLenZero || !(k.nonblock && k.keepalive && k.nodelay) then
      (none, [.opened (.sock .client) n, .closed (.sock .client) n])
    else
      match clientNew k with
      | (none, es) => (none, [.opened (.sock .client) n] ++ es ++ [.closed (.sock .client) n])
      | (some c, es) =>
        let c := c.emits ([.opened (.sock .client) n] ++ es)
        match k.origdst with
        | none => (some (listenerFreeClient { c with clientAddr := some k.srcAddr } n), [])
        | some a =>
          (some (listenerSetup
            ({ c with clientAddr := some k.srcAddr, destAddr := some a }.setEnd .client
              { c.ends .client with fd := n }) n k), [])

end Transocks

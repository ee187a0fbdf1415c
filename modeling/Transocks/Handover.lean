import Transocks.SpliceSteps

/-!
# The hand-over from the handshake to the pump

`AtHandover c L` describes a client for which `socks_on_server_connect_reply_readcb` calls
`transocks_start_pump`: no flag is set, both sockets and bufferevents are there, and `L` is what
the reply left in the relay's input buffer. `handoverConn L` is such a client, reached by running
the code from the accept on.
-/

namespace Transocks

/-- A client at the call of `transocks_start_pump`, with `L` left in the relay's input buffer. -/
structure AtHandover (c : Conn) (L : List Byte) : Prop where
  live : c.released = false
  noPump : c.userArg = none
  fd : ∀ s, 0 ≤ (c.ends s).fd
  shutRead : ∀ s, (c.ends s).shutRead = false
  shutWrite : ∀ s, (c.ends s).shutWrite = false
  clientBev : ∃ b, (c.ends .client).bev = some b ∧ b.input = [] ∧ b.output = []
  relayBev : ∃ b, (c.ends .relay).bev = some b ∧ b.input = L

/-! ## One way to get there -/

/-- An accept in which every call succeeds, with descriptors `5` and `6`. -/
def AcceptCalls.ok : AcceptCalls where
  accept := some 5
  srcAddr := .inet #v[10, 0, 0, 2] #v[200, 1]
  srcLenZero := false
  nonblock := true
  keepalive := true
  nodelay := true
  mallocClient := true
  mallocClientAddr := true
  mallocDestAddr := true
  origdst := some (.inet #v[93, 184, 216, 34] #v[0, 80])
  bevNew := true
  bevDisable := true
  bevSetfd := true
  socket := some 6
  relayNonblock := true
  relayKeepalive := true
  relayNodelay := true
  relayBevNew := true
  timer := ⟨true, true, true⟩
  connect := true

/-- A start in which every call succeeds, with pipe ends `7` to `10`. -/
def StartCalls.ok : StartCalls where
  bevDisable := fun _ => true
  mallocPump := true
  mallocPipe := fun _ => true
  pipe := fun d => match d with
    | .inbound => ⟨some (7, 8), true, true, 65536⟩
    | .outbound => ⟨some (9, 10), true, true, 65536⟩
  newReadEv := fun _ => true
  newWriteEv := fun _ => true
  addReadEv := fun _ => true
  addWriteEv := fun _ => true
  bevEnable := fun _ => true

/-- Handshake callbacks in which every call succeeds. -/
def HandshakeCalls.ok : HandshakeCalls := ⟨⟨true, true, true⟩, true, true, true, StartCalls.ok⟩

/-- The client that an accept in which every call succeeds leaves waiting for its relay. -/
def acceptedConn : Conn := ((listenerCb AcceptCalls.ok).1).getD Conn.new

def Ev.relayConnected : Ev :=
  .event .relay ⟨false, false, false, false, true⟩ (.other 0) HandshakeCalls.ok

def Ev.methodSelected : Ev := .read .relay [0x05, 0x00] HandshakeCalls.ok

/-- A success reply with an IPv4 address, ten bytes long. -/
def ipv4Reply : List Byte := [0x05, 0x00, 0x00, 0x01, 127, 0, 0, 1, 0x04, 0x38]

/-- The accepted client once it waits for the connect reply. -/
def awaitingConn : Conn :=
  (acceptedConn.step .splicepump .relayConnected).step .splicepump .methodSelected

/-- The relay bufferevent of the accepted client once it waits for the connect reply. -/
def awaitingBev : Bufferevent := ((awaitingConn.ends .relay).bev).getD (Bufferevent.new 6)

/-- The client at hand-over after a read of the reply followed by `L`. -/
def handoverConn (L : List Byte) : Conn :=
  replyAccepted
    { awaitingConn.received .relay awaitingBev (ipv4Reply ++ L) with
      timeoutEv := some ⟨false, false⟩ }
    { awaitingBev with input := ipv4Reply ++ L } 10 HandshakeCalls.ok

theorem atHandover_handoverConn (L : List Byte) : AtHandover (handoverConn L) L where
  live := rfl
  noPump := rfl
  fd := fun s => by
    cases s
    · show (0 : ℤ) ≤ 5
      decide
    · show (0 : ℤ) ≤ 6
      decide
  shutRead := fun s => by cases s <;> rfl
  shutWrite := fun s => by cases s <;> rfl
  clientBev := ⟨_, rfl, rfl, rfl⟩
  relayBev := ⟨_, rfl, rfl⟩

/-- The client after a handed-over connection with `L` in the relay's input buffer has started to
pump. -/
def startedConn (L : List Byte) : Conn := (startPump .splicepump (handoverConn L) StartCalls.ok).1

theorem startPump_handoverConn (L : List Byte) :
    startPump .splicepump (handoverConn L) StartCalls.ok = (startedConn L, true) := rfl

end Transocks

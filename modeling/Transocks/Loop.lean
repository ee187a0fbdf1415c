import Transocks.Listener

/-!
# The event loop, seen from one connection

`Ev` lists the callbacks the loop can run for one client, each with the results of the calls the
callback makes. `Conn.Enabled` says when libevent runs it: the event or bufferevent exists, is
added or enabled, and has the callback set. `Conn.step` runs it. A `Turn` is a callback or the
signal that drops all clients.
-/

namespace Transocks

inductive Ev
  /-- The event callback of the bufferevent of `s`, with the bits `w` and the current `errno`. -/
  | event (s : Side) (w : BevEvents) (e : Errno) (k : HandshakeCalls)
  /-- libevent read `bs` from the socket of `s`, and runs the read callback at the low watermark. -/
  | read (s : Side) (bs : List Byte) (k : HandshakeCalls)
  /-- libevent wrote `n` bytes to the socket of `s`, and runs the write callback when drained. -/
  | wrote (s : Side) (n : ℕ)
  | timeout
  /-- The event on the source socket of `d` fired, and `splice` did `k`. -/
  | spliceRead (d : Direction) (k : Splice)
  /-- The event on the read end of the pipe of `d` fired, and `splice` did `k`. -/
  | spliceWrite (d : Direction) (k : Splice)

def Armed (ev : Option Event) : Prop := ∃ e, ev = some e ∧ e.added = true

namespace Conn

/-- When libevent runs the callback of an event. -/
def Enabled (c : Conn) : Ev → Prop
  | .event s _ _ _ =>
    ∃ b, (c.ends s).bev = some b ∧ 0 ≤ b.fd ∧ (b.enRead ∨ b.enWrite) ∧ b.eventcb.isSome
  | .read s _ _ => ∃ b, (c.ends s).bev = some b ∧ 0 ≤ b.fd ∧ b.enRead
  | .wrote s _ => ∃ b, (c.ends s).bev = some b ∧ 0 ≤ b.fd ∧ b.enWrite
  | .timeout => ∃ ev, c.timeoutEv = some ev ∧ ev.added
  | .spliceRead d _ => ∃ p ev, c.userArg = some p ∧ p.readEv d = some ev ∧ ev.pending
  | .spliceWrite d _ => ∃ p ev, c.userArg = some p ∧ p.writeEv d = some ev ∧ ev.pending

/-- The read callback installed on the bufferevent of `s`. -/
def runReadcb (m : PumpMethod) (c : Conn) (s : Side) (k : HandshakeCalls) : ReadCb → Conn
  | .selectedMethod => socksOnServerSelectedMethodReadcb c k
  | .connectReply => socksOnServerConnectReplyReadcb m c k
  | .pump => match s with
    | .client => clientReadcb c
    | .relay => relayReadcb c

/-- The event callback installed on the bufferevent of `s`. -/
def runEventcb (c : Conn) (s : Side) (w : BevEvents) (e : Errno) (k : HandshakeCalls) :
    EventCb → Conn
  | .relayOnconnect => relayOnconnectEventcb c w k
  | .handshakeStageErr => socksHandshakeStageErrcb c w
  | .pump => match s with
    | .client => clientEventcb c w e
    | .relay => relayEventcb c w e

/-- The write callback installed on the bufferevent of `s`. -/
def runWritecb (c : Conn) : Side → Conn
  | .client => clientWritecb c
  | .relay => relayWritecb c

/-- libevent moves `bs` from the socket of `s` to the input buffer. -/
def received (c : Conn) (s : Side) (b : Bufferevent) (bs : List Byte) : Conn :=
  c.setEnd s { c.ends s with
    bev := some { b with input := b.input ++ bs }, rx := (c.ends s).rx ++ bs }

/-- libevent moves `n` bytes from the output buffer to the socket of `s`. -/
def flushed (c : Conn) (s : Side) (b : Bufferevent) (n : ℕ) : Conn :=
  c.setEnd s { c.ends s with
    bev := some { b with output := b.output.drop n }, tx := (c.ends s).tx ++ b.output.take n }

def step (m : PumpMethod) (c : Conn) : Ev → Conn
  | .event s w e k =>
    match (c.ends s).bev with
    | none => c
    | some b => match b.eventcb with
      | none => c
      | some cb => c.runEventcb s w e k cb
  | .read s bs k =>
    match (c.ends s).bev with
    | none => c
    | some b =>
      let c := c.received s b bs
      if (b.input ++ bs).length < b.readLow then c
      else match b.readcb with
        | none => c
        | some cb => c.runReadcb m s k cb
  | .wrote s n =>
    match (c.ends s).bev with
    | none => c
    | some b =>
      let c := c.flushed s b n
      if b.writecb && (b.output.drop n).length = 0 then c.runWritecb s else c
  | .timeout => socks5TimeoutCb { c with timeoutEv := c.timeoutEv.map Event.del }
  | .spliceRead d k =>
    let c := c.modPump fun p => p.setReadEv d ((p.readEv d).map fun e => { e with active := false })
    match d with
    | .outbound => splicepumpClientReadcb c k
    | .inbound => splicepumpRelayReadcb c k
  | .spliceWrite d k =>
    let c := c.modPump fun p => p.setWriteEv d
      ((p.writeEv d).map fun e => { e with active := false })
    match d with
    | .outbound => splicepumpRelayWritecb c k
    | .inbound => splicepumpClientWritecb c k

end Conn

/-- What can happen to a client: the loop runs a callback for it, or a signal drops it. -/
inductive Turn
  | callback (ev : Ev)
  | drop

/-- The loop can take the turn. -/
def Turn.Possible (c : Conn) : Turn → Prop
  | .callback ev => c.Enabled ev
  | .drop => True

def Conn.turn (m : PumpMethod) (c : Conn) : Turn → Conn
  | .callback ev => c.step m ev
  | .drop => pumpFree m c

/-- What libevent reads from the socket of a side in a turn. -/
def Turn.arrived : Turn → Side → List Byte
  | .callback (.read s bs _) => Function.update (fun _ => []) s bs
  | _ => fun _ => []

/-- A turn of the loop for a live client. -/
def LifeStep (m : PumpMethod) (c : Conn) (t : Turn) (c' : Conn) : Prop :=
  c.released = false ∧ t.Possible c ∧ c' = c.turn m t

end Transocks

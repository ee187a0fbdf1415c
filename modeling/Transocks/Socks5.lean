import Transocks.Bufferpump

/-!
# `socks5.c`: the handshake with the relay

The handshake is a chain of bufferevent callbacks. Each deletes the timer first and then either
installs the next callback and arms the timer again, starts the pump, or releases the client.
-/

namespace Transocks

/-- `SOCKS5_VERSION`. -/
def socks5Version : Byte := 0x05
/-- `SOCKS5_METHOD_NOAUTH`. -/
def socks5MethodNoauth : Byte := 0x00
/-- `SOCKS5_CMD_CONNECT`. -/
def socks5CmdConnect : Byte := 0x01
/-- `SOCKS5_ATYP_IPV4`. -/
def socks5AtypIpv4 : Byte := 0x01
/-- `SOCKS5_ATYP_IPV6`. -/
def socks5AtypIpv6 : Byte := 0x04
/-- `SOCKS5_REP_SUCCEEDED`. -/
def socks5RepSucceeded : Byte := 0x00

/-- The results of the calls made by the handshake callbacks, `true` for success. -/
structure HandshakeCalls where
  timer : TimerCalls
  drain : Bool
  malloc : Bool
  replyDisable : Bool
  start : StartCalls

/-- `socks_handshake_stage_errcb`. -/
def socksHandshakeStageErrcb (c : Conn) (w : BevEvents) : Conn :=
  c.touch fun c => withTimerDeleted c fun c => if w.eof || w.error then clientFree c else c

/-! ## The connect reply -/

/-- How many bytes `socks_on_server_connect_reply_readcb` drains for the reply at the head of the
buffer, or `none` when it takes a `freeClient` path. -/
def connectReplyLen : List Byte → Option ℕ
  | ver :: rep :: _ :: atyp :: _ =>
    if ver ≠ socks5Version then none
    else if rep ≠ socks5RepSucceeded then none
    else if atyp = socks5AtypIpv4 then some 10
    else if atyp = socks5AtypIpv6 then some 22
    else none
  | _ => none

/-- The state in which `socks_on_server_connect_reply_readcb` calls `transocks_start_pump`, after
`evbuffer_drain(input, n)`. -/
def replyAccepted (c : Conn) (b : Bufferevent) (n : ℕ) (k : HandshakeCalls) : Conn :=
  let b := { b with input := b.input.drop n }
  -- disable bufferevent until pump enable it again
  { c.setBev .relay (some (if k.replyDisable then b.disable else b)) with
    clientState := .socks5FinishHandshake }

/-- `socks_on_server_connect_reply_readcb`. -/
def socksOnServerConnectReplyReadcb (m : PumpMethod) (c : Conn) (k : HandshakeCalls) : Conn :=
  c.touch fun c => withTimerDeleted c fun c =>
    match (c.ends .relay).bev with
    | none => c.emits [.badPointer]
    | some b =>
      if b.input.length < 10 then clientFree c
      else
        match connectReplyLen b.input with
        | none => clientFree c
        | some n =>
          match startPump m (replyAccepted c b n k) k.start with
          | (c, true) => c
          | (c, false) => clientFree c

/-! ## The connect request -/

/-- `struct socks_request_ipv4` and `struct socks_request_ipv6` as bytes; `none` for an address
family that is neither. -/
def connectRequest : SockAddr → Option (List Byte)
  | .inet addr port =>
    some ([socks5Version, socks5CmdConnect, 0x00, socks5AtypIpv4] ++ addr.toList ++ port.toList)
  | .inet6 addr port =>
    some ([socks5Version, socks5CmdConnect, 0x00, socks5AtypIpv6] ++ addr.toList ++ port.toList)
  | .other _ => none

/-- `bufferevent_write`, `bufferevent_setwatermark`, `bufferevent_setcb` and
`bufferevent_enable(EV_READ)` as the two handshake writers call them. -/
def Bufferevent.await (b : Bufferevent) (msg : List Byte) (low : ℕ) (cb : ReadCb) : Bufferevent :=
  { b with output := b.output ++ msg, readLow := low, readHigh := bufsize, readcb := some cb,
           writecb := false, eventcb := some .handshakeStageErr, enRead := true }

/-- `socks_send_connect_request`. -/
def socksSendConnectRequest (c : Conn) (k : HandshakeCalls) : Conn :=
  c.touch fun c =>
    match (c.ends .relay).bev, c.destAddr with
    | some b, some a =>
      match connectRequest a with
      | none => clientFree c
      | some req =>
        if !k.malloc then clientFree c
        else clientSetTimeout (c.setBev .relay (some (b.await req 10 .connectReply))) k.timer
    | _, _ => c.emits [.badPointer]

/-! ## The method selection -/

/-- `socks_on_server_selected_method_readcb`. -/
def socksOnServerSelectedMethodReadcb (c : Conn) (k : HandshakeCalls) : Conn :=
  c.touch fun c => withTimerDeleted c fun c =>
    match (c.ends .relay).bev with
    | none => c.emits [.badPointer]
    | some b =>
      if b.input.length < 2 then clientFree c
      else if b.input.getD 0 0 ≠ socks5Version then clientFree c
      else if b.input.getD 1 0 ≠ socks5MethodNoauth then clientFree c
      else if !k.drain then clientFree c
      else
        let c := c.setBev .relay (some { b with input := b.input.drop 2 })
        if (b.input.drop 2).length ≠ 0 then clientFree c else socksSendConnectRequest c k

/-- The bytes of `struct socks_method_select_request`. -/
def methodSelectRequest : List Byte := [socks5Version, 0x01, socks5MethodNoauth]

/-- `socks_send_method_selection`. -/
def socksSendMethodSelection (c : Conn) (k : HandshakeCalls) : Conn :=
  c.touch fun c =>
    match (c.ends .relay).bev with
    | none => c.emits [.badPointer]
    | some b =>
      clientSetTimeout (c.setBev .relay (some (b.await methodSelectRequest 2 .selectedMethod)))
        k.timer

/-- `relay_onconnect_eventcb`. -/
def relayOnconnectEventcb (c : Conn) (w : BevEvents) (k : HandshakeCalls) : Conn :=
  c.touch fun c => withTimerDeleted c fun c =>
    if w.connected then socksSendMethodSelection { c with clientState := .relayConnected } k
    else if w.error then clientFree c
    else c

/-- `socks5_timeout_cb`. -/
def socks5TimeoutCb (c : Conn) : Conn := clientFree c

/-- The reply is judged by its first four bytes. -/
theorem connectReplyLen_append {bs : List Byte} (h : 4 ≤ bs.length) (cs : List Byte) :
    connectReplyLen (bs ++ cs) = connectReplyLen bs := by
  match bs, h with
  | _ :: _ :: _ :: _ :: _, _ => rfl

end Transocks

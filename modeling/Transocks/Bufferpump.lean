import Transocks.Splicepump

/-!
# `bufferpump.c`: the copying pump

The four data callbacks and the two event callbacks come in pairs that differ only in the side, so
each pair is one definition over `Side`; the members keep the source's names.
-/

namespace Transocks

/-- `transocks_bufferpump_free`. -/
def bufferpumpFree (c : Conn) : Conn :=
  c.touch fun c =>
    match (c.ends .client).bev, (c.ends .relay).bev with
    | some _, some _ =>
      clientFree ((c.mapBev .client Bufferevent.disable).mapBev .relay Bufferevent.disable)
    | _, _ => c.emits [.badPointer]

theorem bufferpumpFree_bev {c : Conn} {cb rb : Bufferevent} (hl : c.released = false)
    (hc : (c.ends .client).bev = some cb) (hr : (c.ends .relay).bev = some rb) :
    bufferpumpFree c =
      clientFree ((c.mapBev .client Bufferevent.disable).mapBev .relay Bufferevent.disable) := by
  unfold bufferpumpFree
  rw [Conn.touch_live hl]
  simp only [hc, hr]

/-- `transocks_check_close`. -/
def checkClose (c : Conn) : Bool :=
  (c.ends .client).shutRead && (c.ends .client).shutWrite &&
    (c.ends .relay).shutRead && (c.ends .relay).shutWrite

/-- The end of every write and event callback. -/
def closeIfDone (c : Conn) : Conn := if checkClose c then bufferpumpFree c else c

/-- `evbuffer_remove_buffer` of the whole input of side `s` to the output of the other side. -/
def pumpReadcb (s : Side) (c : Conn) : Conn :=
  c.touch fun c =>
    match (c.ends s).bev, (c.ends s.other).bev with
    | some b, some o =>
      (c.setBev s (some { b with input := [] })).setBev s.other
        (some { o with output := o.output ++ b.input })
    | _, _ => c.emits [.badPointer]

/-- `transocks_client_readcb`. -/
def clientReadcb (c : Conn) : Conn := pumpReadcb .client c

/-- `transocks_relay_readcb`. -/
def relayReadcb (c : Conn) : Conn := pumpReadcb .relay c

/-- Shut the write side of `s`. -/
def shutdownWrite (s : Side) (c : Conn) : Conn :=
  (c.setEnd s { c.ends s with shutWrite := true }).emits [.shutdown s (c.ends s).fd .wr]

/-- The write callback of side `s`: with its output drained and the other side at end of file, the
half-close that was put off is done now. -/
def pumpWritecb (s : Side) (c : Conn) : Conn :=
  c.touch fun c =>
    match (c.ends s).bev with
    | none => c.emits [.badPointer]
    | some b =>
      closeIfDone (if b.output.length = 0 && (c.ends s.other).shutRead then shutdownWrite s c
        else c)

/-- `transocks_relay_writecb`. -/
def relayWritecb (c : Conn) : Conn := pumpWritecb .relay c

/-- `transocks_client_writecb`. -/
def clientWritecb (c : Conn) : Conn := pumpWritecb .client c

/-- The read-EOF branch of the event callback of side `s`, up to the label `checkClose`. -/
def pumpReadEof (s : Side) (c : Conn) (b o : Bufferevent) : Conn :=
  let c₁ := (c.setEnd s
    { c.ends s with shutRead := true, bev := some { b with enRead := false } }).emits
      [.shutdown s (c.ends s).fd .rd]
  -- check if ouput cache is empty
  if o.output.length = 0 && (c₁.ends s).shutRead then shutdownWrite s.other c₁ else c₁

/-- The write-EOF branch of the event callback of side `s`, up to the label `checkClose`. -/
def pumpWriteEof (s : Side) (c : Conn) (b : Bufferevent) : Conn :=
  (c.setEnd s { c.ends s with shutWrite := true, bev := some { b with enWrite := false } }).emits
    [.shutdown s (c.ends s).fd .wr]

/-- The event callback of side `s`. -/
def pumpEventcb (s : Side) (c : Conn) (w : BevEvents) (e : Errno) : Conn :=
  c.touch fun c =>
    match (c.ends s).bev, (c.ends s.other).bev with
    | some b, some o =>
      if w.reading && w.eof then closeIfDone (pumpReadEof s c b o)
      else if w.writing && ((w.error && e == .econnreset) || w.eof) then
        closeIfDone (pumpWriteEof s c b)
      else if w.error then bufferpumpFree c
      else closeIfDone c
    | _, _ => c.emits [.badPointer]

/-- `transocks_client_eventcb`. -/
def clientEventcb (c : Conn) (w : BevEvents) (e : Errno) : Conn := pumpEventcb .client c w e

/-- `transocks_relay_eventcb`. -/
def relayEventcb (c : Conn) (w : BevEvents) (e : Errno) : Conn := pumpEventcb .relay c w e

/-- The watermarks and callbacks `transocks_bufferpump_start_pump` sets on a bufferevent. -/
def Bufferevent.forPump (b : Bufferevent) : Bufferevent :=
  { b with readLow := 0, readHigh := bufsize, readcb := some .pump, writecb := true,
           eventcb := some .pump }

def Bufferevent.enable (b : Bufferevent) : Bufferevent := { b with enRead := true, enWrite := true }

def bevEnableStage (c : Conn) (s : Side) (ok : Bool) : Stage :=
  if ok then .ok (c.mapBev s Bufferevent.enable) else .error c

def bufferpumpStages (c : Conn) (k : StartCalls) : Stage := do
  let c := (c.mapBev .client Bufferevent.forPump).mapBev .relay Bufferevent.forPump
  let c ← bevEnableStage c .client (k.bevEnable .client)
  bevEnableStage c .relay (k.bevEnable .relay)

/-- `transocks_bufferpump_start_pump`; `true` for the return value `0`. On failure the client is
left to the caller. -/
def bufferpumpStartPump (c : Conn) (k : StartCalls) : Conn × Bool :=
  match bufferpumpStages c k with
  | .ok c => (c, true)
  | .error c => (c, false)

/-! ## `pump.c` -/

/-- `pumpMethodImpl->start_pump_fn`. -/
def startPumpFn (m : PumpMethod) (c : Conn) (k : StartCalls) : Conn × Bool :=
  match m with
  | .splicepump => splicepumpStartPump c k
  | .bufferpump => bufferpumpStartPump c k

/-- `transocks_start_pump`; `true` for the return value `0`. -/
def startPump (m : PumpMethod) (c : Conn) (k : StartCalls) : Conn × Bool :=
  match (c.ends .client).bev, (c.ends .relay).bev with
  | some _, some rb =>
    match startPumpFn m (c.emits [.startPump rb.input]) k with
    | (c, true) => (c.touch fun c => { c with clientState := .pumpingData }, true)
    | (c, false) => (c, false)
  | _, _ => (c.emits [.badPointer], false)

/-- `transocks_pump_free`. -/
def pumpFree (m : PumpMethod) (c : Conn) : Conn :=
  match m with
  | .splicepump => splicepumpFree c
  | .bufferpump => bufferpumpFree c

end Transocks

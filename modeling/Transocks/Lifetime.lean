import Transocks.Handshake
import Transocks.History
import Transocks.CopySteps

/-!
# One connection from its accept on

`LifeStep` is one turn of the event loop for one client: a callback that libevent can run, or the
signal that drops all clients. Until the pump starts, a client is on one of the three legs of its
handshake, and `AtLeg` says for each of them which callbacks are installed and which bytes went over
the relay's socket.

`Handshaking.move` says once what a callback can do to a client in its handshake; every fact about
the handshake below and in the modules that follow is read off its cases.
-/

namespace Transocks

open Runs

/-! ## What a callback does during the handshake -/

def timerOff (c : Conn) : Conn := { c with timeoutEv := some ⟨false, false⟩ }

/-- The client after libevent has done its part of an event, before the callback runs. -/
def heard (c : Conn) (b : Bufferevent) : Ev → Conn
  | .read .relay bs _ => c.received .relay b bs
  | _ => c

/-- The client after a handshake writer has sent `msg` and armed the timer. -/
def awaits (c : Conn) (b : Bufferevent) (msg : List Byte) (low : ℕ) (cb : ReadCb)
    (t : TimerCalls) : Conn :=
  { c.setBev .relay (some (b.await msg low cb)) with
    timeoutEv := some ⟨t.evtimerAssign && t.evtimerAdd, false⟩ }

/-- The event bits `w` are none of the ones that the installed event callback looks at. -/
def Bufferevent.ignores (b : Bufferevent) (w : BevEvents) : Prop :=
  (b.eventcb = some .relayOnconnect ∧ w.connected = false ∧ w.error = false) ∨
    (b.eventcb = some .handshakeStageErr ∧ w.eof = false ∧ w.error = false)

/-- What a callback can do to a client with destination `a` that waits for its relay. -/
inductive HandshakeMove (m : PumpMethod) (a : SockAddr) (c : Conn) (b : Bufferevent) :
    Ev → Conn → Prop
  | crashed (ev : Ev) (ht : c.timeoutEv = none) :
    HandshakeMove m a c b ev ((heard c b ev).emits [.badPointer])
  | refused (ev : Ev) {b₁ : Bufferevent} (ht : c.timeoutEv ≠ none) (hfd : b₁.fd = b.fd) :
    HandshakeMove m a c b ev (clientFree ((timerOff (heard c b ev)).setBev .relay (some b₁)))
  | ignored {w : BevEvents} {e : Errno} {k : HandshakeCalls} (ht : c.timeoutEv ≠ none)
      (hw : b.ignores w) : HandshakeMove m a c b (.event .relay w e k) (timerOff c)
  | connected {w : BevEvents} {e : Errno} {k : HandshakeCalls} (ht : c.timeoutEv ≠ none)
      (hcb : b.eventcb = some .relayOnconnect) :
    HandshakeMove m a c b (.event .relay w e k)
      (awaits { c with clientState := .relayConnected } b methodSelectRequest 2 .selectedMethod
        k.timer)
  | short {bs : List Byte} {k : HandshakeCalls}
      (hs : (b.input ++ bs).length < b.readLow ∨ b.readcb = none) :
    HandshakeMove m a c b (.read .relay bs k) (c.received .relay b bs)
  | selected {bs req : List Byte} {k : HandshakeCalls} (ht : c.timeoutEv ≠ none)
      (hcb : b.readcb = some .selectedMethod) (hin : b.input ++ bs = methodReply)
      (hreq : connectRequest a = some req) :
    HandshakeMove m a c b (.read .relay bs k)
      (awaits (c.received .relay b bs) { b with input := [] } req 10 .connectReply k.timer)
  | started {bs : List Byte} {k : HandshakeCalls} {n : ℕ} (ht : c.timeoutEv ≠ none)
      (hcb : b.readcb = some .connectReply) (hlen : 10 ≤ (b.input ++ bs).length)
      (hn : connectReplyLen (b.input ++ bs) = some n) :
    HandshakeMove m a c b (.read .relay bs k)
      (afterStart (startPump m (replyAccepted (timerOff (c.received .relay b bs))
        { b with input := b.input ++ bs } n k) k.start))
  | flushed {n : ℕ} : HandshakeMove m a c b (.wrote .relay n) (c.flushed .relay b n)
  | idle {n : ℕ} : HandshakeMove m a c b (.wrote .client n) c

section Move

variable {m : PumpMethod} {a : SockAddr} {c : Conn} {f : Side → ℕ} {b : Bufferevent} {ev : Ev}

theorem Conn.setBev_self {s : Side} (h : (c.ends s).bev = some b) : c.setBev s (some b) = c := by
  have hend : { c.ends s with bev := some b } = c.ends s := by rw [← h]
  unfold Conn.setBev Conn.setEnd
  rw [hend, Function.update_eq_self]

theorem heard_relay (h : Handshaking c f b) (ev : Ev) :
    ∃ b₁, ((heard c b ev).ends .relay).bev = some b₁ ∧ b₁.fd = b.fd := by
  unfold heard
  split
  · rename_i bs _
    exact ⟨{ b with input := b.input ++ bs }, by simp [Conn.received], rfl⟩
  · exact ⟨b, h.relay, rfl⟩

theorem Handshaking.refuse (h : Handshaking c f b) (ev : Ev) (ht : c.timeoutEv ≠ none) :
    HandshakeMove m a c b ev (clientFree (timerOff (heard c b ev))) := by
  obtain ⟨b₁, hb₁, hfd⟩ := heard_relay h ev
  have heq : (timerOff (heard c b ev)).setBev .relay (some b₁) = timerOff (heard c b ev) :=
    Conn.setBev_self hb₁
  rw [← heq]
  exact .refused ev ht hfd

/-- A handshake callback without a timer follows the null pointer. -/
theorem withTimerDeleted_eq (hl : c.released = false) (k : Conn → Conn) :
    (c.touch fun c => withTimerDeleted c k) =
      if c.timeoutEv = none then c.emits [.badPointer] else k (timerOff c) := by
  rw [Conn.touch_live hl]
  unfold withTimerDeleted
  cases c.timeoutEv with
  | none => rw [if_pos rfl]
  | some ev => rw [if_neg (by simp)]; rfl

theorem Handshaking.move_event (h : Handshaking c f b) (w : BevEvents) (e : Errno)
    (k : HandshakeCalls) (hcb : b.eventcb.isSome) :
    HandshakeMove m a c b (.event .relay w e k) (c.step m (.event .relay w e k)) := by
  simp only [Conn.step, h.relay]
  cases hev : b.eventcb with
  | none => rw [hev] at hcb; cases hcb
  | some cb =>
    cases cb with
    | pump => exact absurd hev h.eventcb
    | relayOnconnect =>
      simp only [Conn.runEventcb, relayOnconnectEventcb]
      rw [withTimerDeleted_eq h.live]
      split_ifs with ht hw hw'
      · exact .crashed (.event .relay w e k) ht
      · unfold socksSendMethodSelection
        rw [Conn.touch_live (by exact h.live)]
        simp only [timerOff, h.relay]
        rw [clientSetTimeout_again (by exact h.live) rfl]
        exact .connected ht hev
      · exact h.refuse (.event .relay w e k) ht
      · exact .ignored ht (.inl ⟨hev, by simpa using hw, by simpa using hw'⟩)
    | handshakeStageErr =>
      simp only [Conn.runEventcb, socksHandshakeStageErrcb]
      rw [withTimerDeleted_eq h.live]
      split_ifs with ht hw
      · exact .crashed (.event .relay w e k) ht
      · exact h.refuse (.event .relay w e k) ht
      · rw [Bool.or_eq_true, not_or, Bool.not_eq_true, Bool.not_eq_true] at hw
        exact .ignored ht (.inr ⟨hev, hw⟩)

/-- Two bytes that pass the checks of the method selection, and nothing behind them. -/
theorem eq_methodReply {bs : List Byte} (hlen : ¬ bs.length < 2)
    (hver : ¬ bs.getD 0 0 ≠ socks5Version) (hmethod : ¬ bs.getD 1 0 ≠ socks5MethodNoauth)
    (hrest : ¬ (bs.drop 2).length ≠ 0) : bs = methodReply := by
  rw [not_not] at hver hmethod hrest
  match bs, hlen with
  | x :: y :: rest, _ =>
    obtain rfl : rest = [] := List.eq_nil_of_length_eq_zero hrest
    exact congrArg₂ (fun x y => [x, y]) hver hmethod

theorem Handshaking.move_sendConnectRequest (h : Handshaking c f b) (hd : c.destAddr = some a)
    (ht : c.timeoutEv ≠ none) (bs : List Byte) (k : HandshakeCalls)
    (hcb : b.readcb = some .selectedMethod) (hin : b.input ++ bs = methodReply) :
    HandshakeMove m a c b (.read .relay bs k) (socksSendConnectRequest
      ((timerOff (c.received .relay b bs)).setBev .relay (some { b with input := [] })) k) := by
  unfold socksSendConnectRequest
  rw [Conn.touch_live (by exact h.live)]
  have hdest : ((timerOff (c.received .relay b bs)).setBev .relay
      (some { b with input := [] })).destAddr = some a := hd
  simp only [Conn.setBev_same, hdest]
  cases hreq : connectRequest a with
  | none => exact .refused (.read .relay bs k) ht rfl
  | some req =>
    simp only
    split_ifs
    · exact .refused (.read .relay bs k) ht rfl
    · rw [clientSetTimeout_again (by exact h.live) rfl]
      have heq : ∀ o : Option Bufferevent, ((timerOff (c.received .relay b bs)).setBev .relay
          (some { b with input := [] })).setBev .relay o =
            (timerOff (c.received .relay b bs)).setBev .relay o := fun o => by
        unfold Conn.setBev Conn.setEnd
        simp only [Function.update_idem, Function.update_self]
      rw [heq]
      exact .selected ht hcb hin hreq

theorem Handshaking.move_selectedMethod (h : Handshaking c f b) (hd : c.destAddr = some a)
    (bs : List Byte) (k : HandshakeCalls) (hcb : b.readcb = some .selectedMethod) :
    HandshakeMove m a c b (.read .relay bs k)
      (socksOnServerSelectedMethodReadcb (c.received .relay b bs) k) := by
  have hrec := h.received bs
  unfold socksOnServerSelectedMethodReadcb
  rw [withTimerDeleted_eq hrec.live]
  have hbev : ((timerOff (c.received .relay b bs)).ends .relay).bev =
      some { b with input := b.input ++ bs } := hrec.relay
  simp only [hbev]
  split_ifs with ht h₁ h₂ h₃ h₄ h₅
  · exact .crashed (.read .relay bs k) ht
  · exact h.refuse (.read .relay bs k) ht
  · exact h.refuse (.read .relay bs k) ht
  · exact h.refuse (.read .relay bs k) ht
  · exact h.refuse (.read .relay bs k) ht
  · exact .refused (.read .relay bs k) ht rfl
  · have hin := eq_methodReply h₁ h₂ h₃ h₅
    rw [hin]
    exact h.move_sendConnectRequest hd ht bs k hcb hin

theorem Handshaking.move_connectReply (h : Handshaking c f b) (bs : List Byte)
    (k : HandshakeCalls) (hcb : b.readcb = some .connectReply) :
    HandshakeMove m a c b (.read .relay bs k)
      (socksOnServerConnectReplyReadcb m (c.received .relay b bs) k) := by
  have hrec := h.received bs
  cases ht : c.timeoutEv with
  | none =>
    have ht' : (c.received .relay b bs).timeoutEv = none := ht
    unfold socksOnServerConnectReplyReadcb
    rw [withTimerDeleted_eq hrec.live, if_pos ht']
    exact .crashed (.read .relay bs k) ht
  | some ev =>
    have ht' : (c.received .relay b bs).timeoutEv ≠ none := by simp [Conn.received, ht]
    by_cases hacc : 10 ≤ (b.input ++ bs).length ∧ connectReplyLen (b.input ++ bs) ≠ none
    · obtain ⟨n, hn⟩ := Option.ne_none_iff_exists'.mp hacc.2
      rw [connectReplyReadcb_accepted hrec ht hacc.1 hn]
      exact .started ht' hcb hacc.1 hn
    · have hbev : ((timerOff (c.received .relay b bs)).ends .relay).bev =
          some { b with input := b.input ++ bs } := hrec.relay
      unfold socksOnServerConnectReplyReadcb
      rw [withTimerDeleted_eq hrec.live, if_neg ht']
      simp only [hbev]
      split_ifs with hlen
      · exact h.refuse (.read .relay bs k) ht'
      · have hn : connectReplyLen (b.input ++ bs) = none := by
          by_contra hne
          exact hacc ⟨Nat.not_lt.mp hlen, hne⟩
        simp only [hn]
        exact h.refuse (.read .relay bs k) ht'

theorem Handshaking.move_read (h : Handshaking c f b) (hd : c.destAddr = some a)
    (bs : List Byte) (k : HandshakeCalls) :
    HandshakeMove m a c b (.read .relay bs k) (c.step m (.read .relay bs k)) := by
  simp only [Conn.step, h.relay]
  split_ifs with hlow
  · exact .short (.inl hlow)
  · cases hcb : b.readcb with
    | none => exact .short (.inr hcb)
    | some cb =>
      cases cb with
      | selectedMethod => exact h.move_selectedMethod hd bs k hcb
      | connectReply => exact h.move_connectReply bs k hcb
      | pump => exact absurd hcb h.readcb

/-- **One callback of the handshake.** -/
theorem Handshaking.move (h : Handshaking c f b) (hd : c.destAddr = some a)
    (hen : c.Enabled ev) : HandshakeMove m a c b ev (c.step m ev) := by
  cases ev with
  | event s w e k =>
    obtain ⟨o, ho, -, -, hcb⟩ := hen
    cases s with
    | client =>
      obtain rfl := Option.some.inj (h.client.symm.trans ho)
      cases hcb
    | relay =>
      obtain rfl := Option.some.inj (h.relay.symm.trans ho)
      exact h.move_event w e k hcb
  | read s bs k =>
    obtain ⟨o, ho, -, hr⟩ := hen
    cases s with
    | client =>
      obtain rfl := Option.some.inj (h.client.symm.trans ho)
      cases hr
    | relay => exact h.move_read hd bs k
  | wrote s n =>
    cases s with
    | client =>
      have heq : c.step m (.wrote .client n) = c := by
        simp only [Conn.step, h.client]
        exact h.flushed_client n
      rw [heq]
      exact .idle
    | relay =>
      simp only [Conn.step, h.relay, h.writecb, Bool.false_and, Bool.false_eq_true, if_false]
      exact .flushed
  | timeout =>
    obtain ⟨ev, hev, -⟩ := hen
    have heq : c.step m .timeout = clientFree (timerOff (heard c b .timeout)) := by
      simp only [Conn.step, socks5TimeoutCb, hev]
      rfl
    rw [heq]
    exact h.refuse .timeout (by simp [hev])
  | spliceRead d q =>
    obtain ⟨p, -, hp, -⟩ := hen
    exact absurd (h.noPump.symm.trans hp) (by simp)
  | spliceWrite d q =>
    obtain ⟨p, -, hp, -⟩ := hen
    exact absurd (h.noPump.symm.trans hp) (by simp)

end Move

/-! ## The legs of the handshake -/

/-- What a client in its handshake waits for. -/
inductive Leg
  | connect | method | reply
  deriving DecidableEq, Repr

namespace Leg

def clientState : Leg → ClientState
  | .connect => .new
  | .method => .relayConnected
  | .reply => .relayConnected

def eventcb : Leg → EventCb
  | .connect => .relayOnconnect
  | .method => .handshakeStageErr
  | .reply => .handshakeStageErr

def readcb : Leg → Option ReadCb
  | .connect => none
  | .method => some .selectedMethod
  | .reply => some .connectReply

/-- What the handshake has handed to the relay's bufferevent so far. -/
def sent (a : SockAddr) : Leg → List Byte
  | .connect => []
  | .method => methodSelectRequest
  | .reply => methodSelectRequest ++ (connectRequest a).getD []

/-- What the handshake has consumed of the relay's bytes so far. -/
def consumed : Leg → List Byte
  | .connect => []
  | .method => []
  | .reply => methodReply

end Leg

/-- A client with destination `a` on the leg `l` of its handshake. -/
structure AtLeg (l : Leg) (a : SockAddr) (c : Conn) (f : Side → ℕ) (b : Bufferevent) : Prop
    extends Handshaking c f b where
  state : c.clientState = l.clientState
  onEvent : b.eventcb = some l.eventcb
  onRead : b.readcb = l.readcb
  reads : b.enRead = l.readcb.isSome
  high : b.enRead = true → b.readHigh = bufsize
  dest : c.destAddr = some a
  sent : (c.ends .relay).tx ++ b.output = l.sent a
  got : (c.ends .relay).rx = l.consumed ++ b.input
  clientRx : (c.ends .client).rx = []
  pipes : ∀ d, c.kern d = Kern.none

section Legs

variable {m : PumpMethod} {l : Leg} {a : SockAddr} {c : Conn} {f : Side → ℕ} {b : Bufferevent}

theorem AtLeg.setTimer (h : AtLeg l a c f b) (t : Option Event) :
    AtLeg l a { c with timeoutEv := t } f b :=
  ⟨h.toHandshaking.setTimer t, h.state, h.onEvent, h.onRead, h.reads, h.high, h.dest, h.sent,
    h.got, h.clientRx, h.pipes⟩

theorem AtLeg.emits (h : AtLeg l a c f b) (es : List Effect) : AtLeg l a (c.emits es) f b :=
  ⟨h.toHandshaking.emits es, h.state, h.onEvent, h.onRead, h.reads, h.high, h.dest, h.sent,
    h.got, h.clientRx, h.pipes⟩

theorem AtLeg.received (h : AtLeg l a c f b) (bs : List Byte) :
    AtLeg l a (c.received .relay b bs) f { b with input := b.input ++ bs } := by
  refine ⟨h.toHandshaking.received bs, h.state, h.onEvent, h.onRead, h.reads, h.high, h.dest,
    ?_, ?_, ?_, h.pipes⟩
  · simpa [Conn.received] using h.sent
  · simp [Conn.received, h.got]
  · simpa [Conn.received, Conn.setEnd_ne] using h.clientRx

theorem AtLeg.flushed (h : AtLeg l a c f b) (n : ℕ) :
    AtLeg l a (c.flushed .relay b n) f { b with output := b.output.drop n } := by
  refine ⟨h.toHandshaking.flushed_relay n, h.state, h.onEvent, h.onRead, h.reads, h.high, h.dest,
    ?_, ?_, ?_, h.pipes⟩
  · simpa [Conn.flushed, List.append_assoc] using h.sent
  · simpa [Conn.flushed] using h.got
  · simpa [Conn.flushed, Conn.setEnd_ne] using h.clientRx

theorem AtLeg.connected (h : AtLeg .connect a c f b) (t : TimerCalls) :
    AtLeg .method a
      (awaits { c with clientState := .relayConnected } b methodSelectRequest 2 .selectedMethod t)
      f (b.await methodSelectRequest 2 .selectedMethod) := by
  have hw := ((h.toHandshaking.setState .relayConnected (by decide)).await methodSelectRequest 2
    .selectedMethod (by decide)).setTimer (some ⟨t.evtimerAssign && t.evtimerAdd, false⟩)
  refine ⟨hw, rfl, rfl, rfl, rfl, fun _ => rfl, h.dest, ?_, ?_, ?_, h.pipes⟩
  · have hsent := h.sent
    simp only [awaits, Conn.setBev_same, Bufferevent.await]
    rw [← List.append_assoc, hsent]
    rfl
  · simpa [awaits, Bufferevent.await, Leg.consumed] using h.got
  · simpa [awaits, Conn.setBev_ne] using h.clientRx

theorem AtLeg.selected {bs req : List Byte} (h : AtLeg .method a c f b)
    (hin : b.input ++ bs = methodReply) (hreq : connectRequest a = some req) (t : TimerCalls) :
    AtLeg .reply a (awaits (c.received .relay b bs) { b with input := [] } req 10 .connectReply t)
      f (Bufferevent.await { b with input := [] } req 10 .connectReply) := by
  have hrec := h.toHandshaking.received bs
  have hw := ((hrec.setRelay { b with input := [] } rfl h.writecb h.readcb h.eventcb).await req 10
    .connectReply (by decide)).setTimer (some ⟨t.evtimerAssign && t.evtimerAdd, false⟩)
  have heq : ∀ o : Option Bufferevent, ((c.received .relay b bs).setBev .relay
      (some { b with input := [] })).setBev .relay o = (c.received .relay b bs).setBev .relay o :=
    fun o => by
      unfold Conn.setBev Conn.setEnd
      simp only [Function.update_idem, Function.update_self]
  rw [heq] at hw
  refine ⟨hw, h.state, rfl, rfl, rfl, fun _ => rfl, h.dest, ?_, ?_, ?_, h.pipes⟩
  · have hsent := h.sent
    simp only [awaits, Conn.setBev_same, Bufferevent.await, Conn.received, Conn.setEnd_same]
    rw [← List.append_assoc, hsent]
    simp [Leg.sent, hreq]
  · have hgot := h.got
    simp only [awaits, Conn.setBev_same, Bufferevent.await, Conn.received, Conn.setEnd_same]
    rw [hgot, List.append_assoc, hin]
    rfl
  · simpa [awaits, Conn.setBev_ne, Conn.received, Conn.setEnd_ne] using h.clientRx

theorem waitingConn_timeoutEv (k : AcceptCalls) (n r : ℕ) (a : SockAddr) :
    (waitingConn k n r a).timeoutEv =
      if k.timer.evtimerNew then some ⟨k.timer.evtimerAdd, false⟩ else none := by
  unfold waitingConn
  rw [connecting_timer]

theorem atLeg_waitingConn (k : AcceptCalls) (n r : ℕ) (a : SockAddr) :
    AtLeg .connect a (waitingConn k n r a) (socketsOf n r) (connectingBev r) := by
  have h₀ : Fresh (connecting ((listed k n a).emits [.opened (.sock .relay) r]) r) :=
    ⟨rfl, rfl, rfl, rfl⟩
  obtain ⟨h₁, -, hends⟩ := h₀.setTimeout k.timer
  have hc : (clientSetTimeout (connecting ((listed k n a).emits [.opened (.sock .relay) r]) r)
      k.timer).ends .client = { End.new with fd := n, bev := some (Bufferevent.new n) } := by
    rw [hends, connecting_client]
    rfl
  have hr : (clientSetTimeout (connecting ((listed k n a).emits [.opened (.sock .relay) r]) r)
      k.timer).ends .relay = { End.new with fd := r, bev := some (connectingBev r) } := by
    rw [hends, connecting_relay]
    rfl
  have hsame : ∀ c : Conn, c.released = false →
      (clientSetTimeout c k.timer).destAddr = c.destAddr ∧
        (clientSetTimeout c k.timer).kern = c.kern := fun c hl => by
    unfold clientSetTimeout
    rw [Conn.touch_live hl]
    split
    · split <;> exact ⟨rfl, rfl⟩
    · exact ⟨rfl, rfl⟩
  obtain ⟨hdest, hkern⟩ :=
    hsame (connecting ((listed k n a).emits [.opened (.sock .relay) r]) r) rfl
  refine ⟨h₁.handshaking hc hr, h₁.state, rfl, rfl, rfl, ?_, hdest, ?_, ?_, ?_, fun d => ?_⟩
  · intro hen
    cases hen
  · rw [waitingConn, hr]
    rfl
  · rw [waitingConn, hr]
    rfl
  · rw [waitingConn, hc]
    rfl
  · rw [waitingConn, hkern]
    rfl

/-- A signal leaves a client in its handshake alone when the pump splices, and releases it when the
pump copies. -/
theorem Handshaking.drop (h : Handshaking c f b) :
    pumpFree .splicepump c = c ∧ pumpFree .bufferpump c =
      clientFree ((c.mapBev .client Bufferevent.disable).mapBev .relay Bufferevent.disable) := by
  constructor
  · exact splicepumpFree_unattached h.live h.noPump
  · exact bufferpumpFree_bev h.live h.client h.relay

/-- What libevent reads into the relay's input buffer keeps a client on its leg. -/
theorem AtLeg.heard (h : AtLeg l a c f b) (ev : Ev) : ∃ b₁, AtLeg l a (heard c b ev) f b₁ ∧
    b₁.input = b.input ++ (Turn.callback ev).arrived .relay := by
  unfold Transocks.heard
  split
  · exact ⟨_, h.received _, rfl⟩
  · rename_i hev
    refine ⟨b, h, ?_⟩
    cases ev with
    | read s bs k =>
      cases s with
      | client => simp [Turn.arrived]
      | relay => exact absurd rfl (hev bs k)
    | _ => simp [Turn.arrived]

/-- The client at the call of `transocks_start_pump` after a read of `bs` completed a reply of `n`
bytes. -/
def atStart (c : Conn) (b : Bufferevent) (bs : List Byte) (n : ℕ) (k : HandshakeCalls) : Conn :=
  replyAccepted (timerOff (c.received .relay b bs)) { b with input := b.input ++ bs } n k

def Leg.order : Leg → ℕ
  | .connect => 0
  | .method => 1
  | .reply => 2

/-- What a turn makes of a client on the leg `l`. -/
inductive LegOutcome (m : PumpMethod) (l : Leg) (a : SockAddr) (c : Conn) (f : Side → ℕ)
    (b : Bufferevent) (t : Turn) (c' : Conn) : Prop
  | waits (l' : Leg) (b' : Bufferevent) (h : AtLeg l' a c' f b') (hl : l.order ≤ l'.order)
      (hin : b'.input = [] ∨ b'.input = b.input ++ t.arrived .relay)
  | started (bs : List Byte) (n : ℕ) (k : HandshakeCalls) (ht : t = .callback (.read .relay bs k))
      (hl : l = .reply) (hlen : 10 ≤ (b.input ++ bs).length)
      (hn : connectReplyLen (b.input ++ bs) = some n)
      (hst : startPump m (atStart c b bs n k) k.start = (c', true))
  | gone (h : Inert c') (hto : toRelay c' = toRelay c) (hfrom : fromClient c' = fromClient c)

theorem toRelay_heard (c : Conn) (b : Bufferevent) (ev : Ev) :
    toRelay (Transocks.heard c b ev) = toRelay c ∧
      fromClient (Transocks.heard c b ev) = fromClient c := by
  unfold Transocks.heard
  split
  · have hne : Side.client ≠ Side.relay := by decide
    simp [toRelay, fromClient, Conn.received, Conn.setEnd_ne _ _ hne]
  · exact ⟨rfl, rfl⟩

theorem Attached.gone {g : Side → Fd} {c₁ : Conn} {t : Turn} (h : Attached c₁ f g)
    (hp : c₁.userArg = none) (hto : toRelay c₁ = toRelay c) (hfrom : fromClient c₁ = fromClient c) :
    LegOutcome m l a c f b t (Transocks.clientFree c₁) := by
  have hh := SameHistory.clientFree c₁
  refine .gone (h.clientFree fun p hp' => ?_).1 (hh.toRelay.trans hto) (hh.fromClient.trans hfrom)
  exact absurd (hp.symm.trans hp') (by simp)

theorem AtLeg.refused {ev : Ev} {b₁ : Bufferevent} (h : AtLeg l a c f b) (hfd : b₁.fd = b.fd) :
    LegOutcome m l a c f b (.callback ev)
      (clientFree ((timerOff (Transocks.heard c b ev)).setBev .relay (some b₁))) := by
  obtain ⟨b₂, h₂, -⟩ := h.heard ev
  obtain ⟨hto, hfrom⟩ := toRelay_heard c b ev
  have hh := SameHistory.setBev (timerOff (Transocks.heard c b ev)) .relay (some b₁)
  have hat := (h₂.toHandshaking.setTimer (some ⟨false, false⟩)).toAttached.setBev (s := .relay)
    (hfd.trans h.relayFd)
  exact hat.gone h₂.noPump (hh.toRelay.trans hto) (hh.fromClient.trans hfrom)

theorem AtLeg.unpiped (h : AtLeg l a c f b) : c.Unpiped := fun d => by
  rw [h.pipes d]
  exact ⟨rfl, rfl⟩

/-- The bytes that went through the sockets up to the call of `transocks_start_pump`. -/
theorem sameHistory_atStart (c : Conn) (b : Bufferevent) (bs : List Byte) (n : ℕ)
    (k : HandshakeCalls) : SameHistory (c.received .relay b bs) (atStart c b bs n k) := by
  have hh := SameHistory.setBev (timerOff (c.received .relay b bs)) .relay
    (some (repliedBev { b with input := b.input ++ bs } n k))
  exact ⟨hh.rx, hh.tx, hh.taken, hh.written⟩

theorem AtLeg.atStart (h : AtLeg l a c f b) (bs : List Byte) (n : ℕ) (k : HandshakeCalls) :
    Handshaking (atStart c b bs n k) f (repliedBev { b with input := b.input ++ bs } n k) :=
  ((h.toHandshaking.received bs).setTimer (some ⟨false, false⟩)).replied n k

theorem atStart_timer (c : Conn) (b : Bufferevent) (bs : List Byte) (n : ℕ) (k : HandshakeCalls) :
    ∀ ev, (Transocks.atStart c b bs n k).timeoutEv = some ev → ev.added = false := by
  rintro ev ⟨⟩
  rfl

theorem AtLeg.starts (h : AtLeg .reply a c f b) {bs : List Byte} {n : ℕ} {k : HandshakeCalls}
    (hlen : 10 ≤ (b.input ++ bs).length) (hn : connectReplyLen (b.input ++ bs) = some n) :
    LegOutcome m .reply a c f b (.callback (.read .relay bs k))
      (afterStart (startPump m (Transocks.atStart c b bs n k) k.start)) := by
  have hst := h.atStart bs n k
  rcases hst.afterStart_cases (m := m) k.start (atStart_timer c b bs n k) with
    ⟨c₁, hok, heq⟩ | hi
  · rw [heq]
    exact .started bs n k rfl rfl hlen hn hok
  · have hh := sameHistory_atStart c b bs n k
    have hu : (Transocks.atStart c b bs n k).Unpiped := h.unpiped
    have hstart := startPump_history (m := m) hst hu k.start
    obtain ⟨hto, hfrom⟩ := toRelay_heard c b (.read .relay bs k)
    exact .gone hi ((hh.trans hstart).toRelay.trans hto) ((hh.trans hstart).fromClient.trans hfrom)

/-- **One callback on a client in its handshake.** -/
theorem HandshakeMove.outcome {ev : Ev} {c' : Conn} (hm : HandshakeMove m a c b ev c')
    (h : AtLeg l a c f b) : LegOutcome m l a c f b (.callback ev) c' := by
  cases hm with
  | crashed _ ht =>
    obtain ⟨b₁, h₁, hin⟩ := h.heard ev
    exact .waits l b₁ (h₁.emits _) le_rfl (.inr hin)
  | refused _ ht hfd => exact h.refused hfd
  | ignored ht hw => exact .waits l b (h.setTimer _) le_rfl (.inr (List.append_nil _).symm)
  | connected ht hcb =>
    cases l with
    | connect => exact .waits .method _ (h.connected _) (by decide) (.inr (List.append_nil _).symm)
    | method => exact absurd (h.onEvent.symm.trans hcb) (by decide)
    | reply => exact absurd (h.onEvent.symm.trans hcb) (by decide)
  | short hs => exact .waits l _ (h.received _) le_rfl (.inr rfl)
  | selected ht hcb hin hreq =>
    cases l with
    | connect => exact absurd (h.onRead.symm.trans hcb) (by decide)
    | method => exact .waits .reply _ (h.selected hin hreq _) (by decide) (.inl rfl)
    | reply => exact absurd (h.onRead.symm.trans hcb) (by decide)
  | started ht hcb hlen hn =>
    cases l with
    | connect => exact absurd (h.onRead.symm.trans hcb) (by decide)
    | method => exact absurd (h.onRead.symm.trans hcb) (by decide)
    | reply => exact h.starts hlen hn
  | flushed => exact .waits l _ (h.flushed _) le_rfl (.inr (List.append_nil _).symm)
  | idle => exact .waits l b h le_rfl (.inr (List.append_nil _).symm)

/-- **One turn of a client in its handshake.** -/
theorem AtLeg.turn {t : Turn} {c' : Conn} (h : AtLeg l a c f b) (hs : LifeStep m c t c') :
    LegOutcome m l a c f b t c' := by
  obtain ⟨-, hpos, rfl⟩ := hs
  cases t with
  | callback ev => exact (h.toHandshaking.move h.dest hpos).outcome h
  | drop =>
    cases m with
    | splicepump =>
      have heq : c.turn .splicepump .drop = c := h.toHandshaking.drop.1
      rw [heq]
      exact .waits l b h le_rfl (.inr (List.append_nil _).symm)
    | bufferpump =>
      have heq : c.turn .bufferpump .drop = _ := h.toHandshaking.drop.2
      rw [heq]
      have hh := ((SameHistory.refl c).mapBev .client Bufferevent.disable).mapBev .relay
        Bufferevent.disable
      exact ((h.toAttached.disable .client).disable .relay).gone h.noPump hh.toRelay hh.fromClient

end Legs

/-! ## The pumps take over -/

section Pumps

variable {c₀ c₁ : Conn} {f : Side → ℕ} {b : Bufferevent} {k : StartCalls}

theorem Handshaking.atHandover (h : Handshaking c₀ f b) : AtHandover c₀ b.input :=
  ⟨h.live, h.noPump, fun s => by rw [h.fd s]; exact Int.natCast_nonneg _, h.shutRead, h.shutWrite,
    ⟨_, h.client, rfl, rfl⟩, ⟨_, h.relay, rfl⟩⟩

theorem Handshaking.serving_start (h : Handshaking c₀ f b)
    (ht : ∀ ev, c₀.timeoutEv = some ev → ev.added = false)
    (hok : startPump .bufferpump c₀ k = (c₁, true)) :
    c₁ = bufferStarted c₀ b.input ∧ Serving c₁
      fun s => (Side.both (Bufferevent.new (f .client)) b s).forPump.enable := by
  obtain ⟨rb, hrb, rfl⟩ := startPump_buffer_ok h.live hok
  obtain rfl := Option.some.inj (h.relay.symm.trans hrb)
  have hb : ∀ s, (c₀.ends s).bev = some (Side.both (Bufferevent.new (f .client)) b s) := fun s => by
    cases s
    · exact h.client
    · exact h.relay
  exact ⟨rfl, relaying_bufferStarted h.live hb b.input, h.noPump, ht⟩

section Leg

variable {m : PumpMethod} {l : Leg} {a : SockAddr} {c c' : Conn} (h : AtLeg l a c f b)

include h

/-- The pump has started at the end of the handshake. -/
theorem AtLeg.started {bs : List Byte} {n : ℕ} {k : HandshakeCalls}
    (hst : startPump m (Transocks.atStart c b bs n k) k.start = (c', true)) :
    (m = .bufferpump ∧ ∃ b', Serving c' b') ∨ (m = .splicepump ∧ ∃ p, Splicing c' f p) := by
  have h₀ := h.atStart bs n k
  have hoff := atStart_timer c b bs n k
  cases m with
  | bufferpump => exact .inl ⟨rfl, _, (h₀.serving_start hoff hst).2⟩
  | splicepump => exact .inr ⟨rfl, h₀.splicing_start hoff hst⟩

/-- The read that completes the reply leaves a client that pumps or is released. -/
theorem AtLeg.afterStart_done (bs : List Byte) (n : ℕ) (k : HandshakeCalls) :
    (afterStart (startPump m (Transocks.atStart c b bs n k) k.start)).released = true ∨
      (afterStart (startPump m (Transocks.atStart c b bs n k) k.start)).clientState =
        .pumpingData := by
  rcases (h.atStart bs n k).afterStart_cases (m := m) k.start (atStart_timer c b bs n k) with
    ⟨c₁, hok, heq⟩ | hi
  · rw [heq]
    rcases h.started hok with ⟨-, b', hserv⟩ | ⟨-, p, hp⟩
    · exact .inr hserv.state
    · exact .inr hp.pumping
  · exact .inl hi.released

end Leg

end Pumps

/-- A handshake in which the relay gets each message before it answers it. -/
def handshakeTurns : List Turn :=
  [.callback .relayConnected, .callback (.wrote .relay 3), .callback .methodSelected,
    .callback (.wrote .relay 10), .callback (.read .relay ipv4Reply HandshakeCalls.ok)]

end Transocks

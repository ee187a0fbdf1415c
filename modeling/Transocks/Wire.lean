import Transocks.Lifetime
import Transocks.BufferBytes
import Transocks.SpliceEof

/-!
# What the relay sees

For a relay that answers the connect request only after it has received it, everything written to
the relay is at all times a prefix of the method selection, the connect request and what was read
from the client; and nothing is read from the client before a success reply has come.
-/

namespace Transocks

open Runs

/-! ## A reader of connect requests -/

/-- The first `n` bytes, and the rest. -/
def readBytes (n : ℕ) (bs : List Byte) : Option (Vector Byte n × List Byte) :=
  if h : n ≤ bs.length then some (⟨(bs.take n).toArray, by simpa using h⟩, bs.drop n) else none

/-- An address of `n` bytes and a port of two, with nothing behind them. -/
def readAddrPort (n : ℕ) (bs : List Byte) : Option (Vector Byte n × Vector Byte 2) :=
  match readBytes n bs with
  | none => none
  | some (addr, rest) =>
    match readBytes 2 rest with
    | some (port, []) => some (addr, port)
    | _ => none

/-- How a SOCKS5 server reads a connect request: version, command, reserved byte and address type,
then the address and the port in network order. -/
def readConnectRequest : List Byte → Option SockAddr
  | ver :: cmd :: rsv :: atyp :: rest =>
    if ver ≠ 0x05 ∨ cmd ≠ 0x01 ∨ rsv ≠ 0x00 then none
    else if atyp = 0x01 then (readAddrPort 4 rest).map fun x => .inet x.1 x.2
    else if atyp = 0x04 then (readAddrPort 16 rest).map fun x => .inet6 x.1 x.2
    else none
  | _ => none

/-- How long the connect request for an address is. -/
def SockAddr.requestLen : SockAddr → ℕ
  | .inet _ _ => 10
  | .inet6 _ _ => 22
  | .other _ => 0

theorem readBytes_toList {n : ℕ} (v : Vector Byte n) (rest : List Byte) :
    readBytes n (v.toList ++ rest) = some (v, rest) := by
  have hlen : v.toList.length = n := Vector.length_toList
  unfold readBytes
  rw [dif_pos (by simp [hlen])]
  simp only [List.take_left' hlen, List.drop_left' hlen, Option.some.injEq, Prod.mk.injEq, and_true]
  exact Vector.toArray_inj.mp Array.toArray_toList

theorem readAddrPort_toList {n : ℕ} (addr : Vector Byte n) (port : Vector Byte 2) :
    readAddrPort n (addr.toList ++ port.toList) = some (addr, port) := by
  have hport : readBytes 2 port.toList = some (port, []) := by
    simpa using readBytes_toList port []
  unfold readAddrPort
  simp only [readBytes_toList, hport]

/-- **The request names the destination.** -/
theorem readConnectRequest_eq {a : SockAddr} {req : List Byte} (h : connectRequest a = some req) :
    readConnectRequest req = some a ∧ req.length = a.requestLen := by
  cases a with
  | inet addr port =>
    obtain rfl := Option.some.inj h
    refine ⟨?_, by simp [SockAddr.requestLen]⟩
    rw [List.append_assoc]
    simp [readConnectRequest, socks5Version, socks5CmdConnect, socks5AtypIpv4,
      readAddrPort_toList]
  | inet6 addr port =>
    obtain rfl := Option.some.inj h
    refine ⟨?_, by simp [SockAddr.requestLen]⟩
    rw [List.append_assoc]
    simp [readConnectRequest, socks5Version, socks5CmdConnect, socks5AtypIpv6,
      readAddrPort_toList]
  | other family => cases h

/-! ## What holds of the bytes -/

/-- The relay selected the method and then sent the header of a success reply. -/
def Replied (c : Conn) : Prop :=
  ∃ reply n, methodReply ++ reply <+: (c.ends .relay).rx ∧ 10 ≤ reply.length ∧ ReplyHeader n reply

/-- The bytes on the wire of a client with destination `a`. -/
structure WireOk (a : SockAddr) (c : Conn) : Prop where
  order : toRelay c <+: Leg.reply.sent a ++ fromClient c
  quiet : fromClient c ≠ [] → Leg.reply.sent a <+: toRelay c ∧ Replied c

structure Opened (a : SockAddr) (c : Conn) : Prop where
  sent : (c.ends .relay).tx = Leg.reply.sent a
  clientRx : (c.ends .client).rx = []
  unpiped : c.Unpiped
  replied : Replied c

/-- The relay sends its connect reply only after it has received the whole connect request. -/
def AnswersInOrder (a : SockAddr) (c : Conn) : Turn → Prop
  | .callback (.read .relay bs _) =>
    methodReply.length < ((c.ends .relay).rx ++ bs).length → Leg.reply.sent a <+: toRelay c
  | _ => True

/-- `splice` does what the kernel can do. -/
def SpliceSound (c : Conn) : Turn → Prop
  | .callback ev => ∀ p, c.userArg = some p → ev.isSplice = true → SpliceMoves c p ev
  | .drop => True

/-- A turn of the loop for a client with destination `a`. -/
def WireStep (m : PumpMethod) (a : SockAddr) : Conn → Turn → Conn → Prop :=
  Meeting (LifeStep m) fun c t => AnswersInOrder a c t ∧ SpliceSound c t

section Bytes

variable {m : PumpMethod} {l : Leg} {a : SockAddr} {c c' : Conn} {f : Side → ℕ} {b : Bufferevent}

theorem Leg.sent_prefix (l : Leg) (a : SockAddr) : l.sent a <+: Leg.reply.sent a := by
  cases l with
  | connect => exact List.nil_prefix
  | method => exact List.prefix_append ..
  | reply => exact List.prefix_rfl

theorem Replied.mono (h : Replied c) (hp : (c.ends .relay).rx <+: (c'.ends .relay).rx) :
    Replied c' := by
  obtain ⟨reply, n, hpre, hlen, hn⟩ := h
  exact ⟨reply, n, hpre.trans hp, hlen, hn⟩

theorem AtLeg.toRelay_eq (h : AtLeg l a c f b) : toRelay c = (c.ends .relay).tx := by
  unfold toRelay
  rw [h.pipes]
  exact List.append_nil _

theorem AtLeg.fromClient_eq (h : AtLeg l a c f b) : fromClient c = [] := by
  unfold fromClient
  rw [h.pipes, h.clientRx]
  rfl

theorem AtLeg.wireOk (h : AtLeg l a c f b) : WireOk a c := by
  refine ⟨?_, fun hne => absurd h.fromClient_eq hne⟩
  rw [h.toRelay_eq, h.fromClient_eq, List.append_nil]
  have hpre : (c.ends .relay).tx <+: l.sent a := by
    rw [← h.sent]
    exact List.prefix_append ..
  exact hpre.trans (l.sent_prefix a)

theorem SameHistory.wireOk (hh : SameHistory c c') (h : WireOk a c) : WireOk a c' := by
  refine ⟨?_, fun hne => ?_⟩
  · rw [hh.toRelay, hh.fromClient]
    exact h.order
  · rw [hh.fromClient] at hne
    rw [hh.toRelay]
    exact ⟨(h.quiet hne).1, (h.quiet hne).2.mono (by rw [hh.rx])⟩

/-- The pump starts when all of the request is written and nothing was read from the client. -/
theorem AtLeg.opened {bs : List Byte} {n : ℕ} {k : HandshakeCalls} (h : AtLeg .reply a c f b)
    (hord : AnswersInOrder a c (.callback (.read .relay bs k)))
    (hlen : 10 ≤ (b.input ++ bs).length) (hn : connectReplyLen (b.input ++ bs) = some n)
    (hst : startPump m (Transocks.atStart c b bs n k) k.start = (c', true)) :
    Opened a c' ∧ b.output = [] := by
  have hsent : (c.ends .relay).tx = Leg.reply.sent a ∧ b.output = [] := by
    have hpre : Leg.reply.sent a <+: (c.ends .relay).tx := by
      rw [← h.toRelay_eq]
      refine hord ?_
      have hconsumed : (Leg.consumed .reply).length = methodReply.length := rfl
      rw [h.got, List.append_assoc, List.length_append, hconsumed]
      omega
    have heq := h.sent
    rw [← heq] at hpre ⊢
    have hle := hpre.length_le
    rw [List.length_append] at hle
    have hnil : b.output = [] := List.length_eq_zero_iff.mp (by omega)
    exact ⟨by rw [hnil, List.append_nil], hnil⟩
  have hstart := startPump_history (m := m) (h.atStart bs n k) h.unpiped k.start
  rw [hst] at hstart
  have hh : SameHistory (c.received .relay b bs) c' := (sameHistory_atStart c b bs n k).trans hstart
  have hne : Side.client ≠ Side.relay := by decide
  refine ⟨⟨?_, ?_, fun d => ?_, b.input ++ bs, n, ?_, hlen, connectReplyLen_iff.mp hn⟩, hsent.2⟩
  · rw [hh.tx, ← hsent.1]
    simp [Conn.received]
  · rw [hh.rx, ← h.clientRx]
    simp [Conn.received, Conn.setEnd_ne _ _ hne]
  · rw [hh.taken, hh.written]
    exact h.unpiped d
  · rw [hh.rx]
    simp [Conn.received, h.got, Leg.consumed]

end Bytes

/-! ## Every state of a run -/

/-- A client with destination `a`, on a leg of its handshake, with either pump, or released. -/
inductive OnWire (m : PumpMethod) (a : SockAddr) (c : Conn) : Prop
  | waits (l : Leg) (f : Side → ℕ) (b : Bufferevent) (h : AtLeg l a c f b)
  | copies (c₁ : Conn) (b : Side → Bufferevent) (mv : Side → List Byte) (hm : m = .bufferpump)
      (ho : Opened a c₁) (hin : c₁.input .client = []) (hout : c₁.output .relay = [])
      (h : Serving c b) (hmv : Moved c₁ c b mv) (hk : c.kern = c₁.kern)
  | splices (f : Side → ℕ) (p : Splicepump) (hm : m = .splicepump) (h : Splicing c f p)
      (hacc : Accounting c p) (hsent : (c.ends .relay).tx = Leg.reply.sent a)
      (hrx : (c.ends .client).rx = []) (hr : Replied c)
  | gone (hr : c.released = true) (h : WireOk a c)

section Run

variable {m : PumpMethod} {a : SockAddr} {c c₁ c' : Conn} {b : Side → Bufferevent}
  {mv : Side → List Byte} {t : Turn}

theorem Moved.wireOk (ho : Opened a c₁) (hin : c₁.input .client = [])
    (hout : c₁.output .relay = []) (hmv : Moved c₁ c b mv) (hk : c.kern = c₁.kern) :
    WireOk a c := by
  have htx : toRelay c = Leg.reply.sent a ++ wroteSince c₁ c .relay := by
    unfold toRelay
    rw [hk, (ho.unpiped _).2, List.append_nil, hmv.tx, ho.sent]
  have hrx : fromClient c = readSince c₁ c .client := by
    unfold fromClient
    rw [hk, (ho.unpiped _).1, List.append_nil, hmv.rx, ho.clientRx, List.nil_append]
  have hmoved : wroteSince c₁ c .relay <+: mv .client := by
    have heq : c₁.output .relay ++ mv .client = wroteSince c₁ c .relay ++ (b .relay).output :=
      hmv.output .client
    rw [hout, List.nil_append] at heq
    rw [heq]
    exact List.prefix_append ..
  have hread : mv .client <+: readSince c₁ c .client := by
    have heq := hmv.input .client
    rw [hin, List.nil_append] at heq
    rw [heq]
    exact List.prefix_append ..
  refine ⟨?_, fun _ => ⟨?_, ho.replied.mono ?_⟩⟩
  · rw [htx, hrx]
    exact (List.prefix_append_right_inj _).mpr (hmoved.trans hread)
  · rw [htx]
    exact List.prefix_append ..
  · rw [hmv.rx]
    exact List.prefix_append ..

/-- The bytes of a client that pumped through its pipes. -/
theorem spliced_wireOk (hflow : ∃ f, (c.kern .outbound).Carries f)
    (hsent : (c.ends .relay).tx = Leg.reply.sent a) (hrx : (c.ends .client).rx = [])
    (hr : Replied c) : WireOk a c := by
  obtain ⟨f, hf⟩ := hflow
  refine ⟨?_, fun _ => ⟨?_, hr⟩⟩
  · unfold toRelay fromClient
    rw [hsent, hrx, List.nil_append]
    exact (List.prefix_append_right_inj _).mpr hf.written_prefix
  · unfold toRelay
    rw [hsent]
    exact List.prefix_append ..

theorem OnWire.wireOk (h : OnWire m a c) : WireOk a c := by
  cases h with
  | waits l f b h => exact h.wireOk
  | copies c₁ b mv hm ho hin hout h hmv hk => exact hmv.wireOk ho hin hout hk
  | splices f p hm h hacc hsent hrx hr => exact spliced_wireOk (hacc.pipes _).flow hsent hrx hr
  | gone hr h => exact h

theorem AtLeg.pumps {f : Side → ℕ} {b : Bufferevent} {bs : List Byte} {n : ℕ} {k : HandshakeCalls}
    (h : AtLeg .reply a c f b) (hord : AnswersInOrder a c (.callback (.read .relay bs k)))
    (hlen : 10 ≤ (b.input ++ bs).length) (hn : connectReplyLen (b.input ++ bs) = some n)
    (hst : startPump m (Transocks.atStart c b bs n k) k.start = (c', true)) : OnWire m a c' := by
  have h₀ := h.atStart bs n k
  have htimer := atStart_timer c b bs n k
  obtain ⟨ho, hempty⟩ := h.opened hord hlen hn hst
  cases m with
  | bufferpump =>
    obtain ⟨-, hserv⟩ := h₀.serving_start htimer hst
    have hrelay : (repliedBev { b with input := b.input ++ bs } n k).output = [] := by
      rw [repliedBev_output]
      exact hempty
    have hin := hserv.toRelaying.input_eq
    have hout := hserv.toRelaying.output_eq
    refine .copies c' _ (fun _ => []) rfl ho ?_ ?_ hserv ⟨?_, ?_, ?_, ?_⟩ rfl
    · rw [hin]
      rfl
    · rw [hout]
      exact hrelay
    · simp [readSince]
    · simp [wroteSince]
    · simp [readSince, hin]
    · simp [wroteSince, hout]
  | splicepump =>
    obtain ⟨p, hp⟩ := h₀.splicing_start htimer hst
    obtain ⟨p', hacc⟩ := accounting_start h₀.live hst
    obtain rfl := Option.some.inj (hp.pump.symm.trans hacc.pump)
    exact .splices f p rfl hp hacc ho.sent ho.clientRx ho.replied

theorem Relaying.sameHistory_free (h : Relaying c b) :
    SameHistory c (Transocks.bufferpumpFree c) := by
  obtain ⟨-, hkern, hends⟩ := h.bufferpumpFree
  exact ⟨fun s => by rw [hends]; rfl, fun s => by rw [hends]; rfl, fun d => by rw [hkern],
    fun d => by rw [hkern]⟩

theorem Serving.onWire (h : Serving c b) (ho : Opened a c₁) (hin : c₁.input .client = [])
    (hout : c₁.output .relay = []) (hmv : Moved c₁ c b mv) (hk : c.kern = c₁.kern)
    (hs : LifeStep .bufferpump c t c') : OnWire .bufferpump a c' := by
  obtain ⟨c₂, b₂, h₂, hmove, hc⟩ := h.turn hs
  have hnext : ∃ mv₂, Moved c₁ c₂ b₂ mv₂ ∧ c₂.kern = c₁.kern := by
    rcases hmove with ⟨ev, -, hm⟩ | ⟨rfl, rfl⟩
    · exact ⟨_, hm.moved h.toRelaying hmv, hm.frame.2.2.trans hk⟩
    · exact ⟨mv, hmv, hk⟩
  obtain ⟨mv₂, hmv₂, hk₂⟩ := hnext
  rcases hc with rfl | rfl
  · exact .copies c₁ b₂ mv₂ rfl ho hin hout h₂ hmv₂ hk₂
  · exact .gone h₂.toRelaying.bufferpumpFree.1
      (h₂.toRelaying.sameHistory_free.wireOk (hmv₂.wireOk ho hin hout hk₂))

theorem Splicing.onWire {f : Side → ℕ} {p : Splicepump} (h : Splicing c f p)
    (hacc : Accounting c p) (hsent : (c.ends .relay).tx = Leg.reply.sent a)
    (hrx : (c.ends .client).rx = []) (hr : Replied c) (hsound : SpliceSound c t)
    (hs : LifeStep .splicepump c t c') : OnWire .splicepump a c' := by
  obtain ⟨hlive, hpos, rfl⟩ := hs
  cases t with
  | drop =>
    have hok := spliced_wireOk (hacc.pipes _).flow hsent hrx hr
    exact .gone (splicepumpFree_released h.live h.pumping h.pump)
      ((SameHistory.splicepumpFree c).wireOk hok)
  | callback ev =>
    have hev : ev.isSplice = true := h.enabled hpos
    have hmoves : SpliceMoves c p ev := hsound p h.pump hev
    have hsock := splice_sockets (m := .splicepump) h.live h.pump hev
    have hsent' : ((c.step .splicepump ev).ends .relay).tx = Leg.reply.sent a :=
      (hsock .relay).2.trans hsent
    have hrx' : ((c.step .splicepump ev).ends .client).rx = [] := (hsock .client).1.trans hrx
    have hr' : Replied (c.step .splicepump ev) := hr.mono (by rw [(hsock .relay).1])
    rcases hacc.step ⟨h.live, ⟨p, h.pump, hmoves⟩, rfl⟩ with htorn | ⟨d, p', -, hw⟩
    · exact .gone htorn.1 (spliced_wireOk (htorn.2 _) hsent' hrx' hr')
    · rcases h.splice_cases hev with ⟨p'', hp''⟩ | hi
      · obtain rfl := Option.some.inj (hw.acc.pump.symm.trans hp''.pump)
        exact .splices f p' rfl hp'' hw.acc hsent' hrx' hr'
      · exact absurd (hw.acc.live.symm.trans hi.released) (by decide)

/-- **One turn.** -/
theorem OnWire.turn (h : OnWire m a c) (hs : WireStep m a c t c') : OnWire m a c' := by
  obtain ⟨⟨hord, hsound⟩, hs⟩ := hs
  cases h with
  | waits l f b h =>
    rcases h.turn hs with
      ⟨l', b', h', -, -⟩ | ⟨bs, n, k, rfl, rfl, hlen, hn, hst⟩ | ⟨hi, hto, hfrom⟩
    · exact .waits l' f b' h'
    · exact h.pumps hord hlen hn hst
    · refine .gone hi.released ⟨?_, fun hne => absurd (hfrom.trans h.fromClient_eq) hne⟩
      rw [hto, hfrom]
      exact h.wireOk.order
  | copies c₁ b mv hm ho hin hout h hmv hk =>
    subst hm
    exact h.onWire ho hin hout hmv hk hs
  | splices f p hm h hacc hsent hrx hr =>
    subst hm
    exact h.onWire hacc hsent hrx hr hsound hs
  | gone hr h => exact absurd (hr.symm.trans hs.1) (by decide)

/-- **What the relay sees.** For a client with an IPv4 or IPv6 destination `a` there is a request
that a SOCKS5 server reads as `a`, and in every run with either pump the bytes written to the relay
are a prefix of the method selection, that request and what was read from the client. When a byte
was read from the client, all of the request was written before and the relay has sent a success
reply, and a client that is still there is pumping. -/
theorem wire_to_relay {k : AcceptCalls} {c₀ : Conn} (hcb : (listenerCb k).1 = some c₀)
    (hl : c₀.released = false) (ha : k.origdst = some a) (hfam : ∀ n, a ≠ .other n) :
    ∃ req, readConnectRequest req = some a ∧ req.length = a.requestLen ∧
      ∀ m ts c, Run (WireStep m a) c₀ ts c →
        toRelay c <+: [0x05, 0x01, 0x00] ++ req ++ fromClient c ∧
        (fromClient c ≠ [] → [0x05, 0x01, 0x00] ++ req <+: toRelay c ∧ Replied c ∧
          (c.released = false → c.clientState = .pumpingData)) := by
  obtain ⟨n, r, a', -, -, ha', rfl⟩ := listenerCb_live hcb hl
  obtain rfl := Option.some.inj (ha.symm.trans ha')
  obtain ⟨req, hreq⟩ : ∃ req, connectRequest a = some req := by
    cases a with
    | inet addr port => exact ⟨_, rfl⟩
    | inet6 addr port => exact ⟨_, rfl⟩
    | other family => exact absurd rfl (hfam family)
  have hsent : Leg.reply.sent a = [0x05, 0x01, 0x00] ++ req := by
    simp only [Leg.sent, hreq]
    rfl
  obtain ⟨hread, hlen⟩ := readConnectRequest_eq hreq
  refine ⟨req, hread, hlen, fun m ts c hrun => ?_⟩
  have hwire : OnWire m a c := hrun.invariant (I := OnWire m a)
    (.waits .connect _ _ (atLeg_waitingConn k n r a)) fun _ _ _ h hs => h.turn hs
  have hok := hwire.wireOk
  rw [← hsent]
  refine ⟨hok.order, fun hne => ⟨(hok.quiet hne).1, (hok.quiet hne).2, fun hlive => ?_⟩⟩
  cases hwire with
  | waits l f b h => exact absurd h.fromClient_eq hne
  | copies c₁ b mv hm ho hin hout h hmv hk => exact h.state
  | splices f p hm h hacc hsent hrx hr => exact h.pumping
  | gone hr h => exact absurd (hr.symm.trans hlive) (by decide)

end Run

/-- A handshake, and one byte from the client that the splice pump passes on. -/
def oneByteThrough : List Turn :=
  handshakeTurns ++ [.callback (.spliceRead .outbound (.moved [0x61])),
    .callback (.spliceWrite .outbound (.moved [0x61]))]

def okDest : SockAddr := AcceptCalls.ok.origdst.getD (.other 0)

theorem run_oneByteThrough : Run (WireStep .splicepump okDest) acceptedConn oneByteThrough
    (oneByteThrough.foldl (Conn.turn .splicepump) acceptedConn) := by
  refine Run.foldl ⟨?_, ?_, ?_, ?_, ?_, ?_, ?_, trivial⟩
  · exact ⟨⟨trivial, by rintro p - ⟨⟩⟩, rfl, ⟨_, rfl, by decide, .inr rfl, rfl⟩, rfl⟩
  · exact ⟨⟨trivial, by rintro p - ⟨⟩⟩, rfl, ⟨_, rfl, by decide, rfl⟩, rfl⟩
  · exact ⟨⟨fun h => absurd h (by decide), by rintro p - ⟨⟩⟩, rfl, ⟨_, rfl, by decide, rfl⟩, rfl⟩
  · exact ⟨⟨trivial, by rintro p - ⟨⟩⟩, rfl, ⟨_, rfl, by decide, rfl⟩, rfl⟩
  · exact ⟨⟨fun _ => ⟨[], rfl⟩, by rintro p - ⟨⟩⟩, rfl, ⟨_, rfl, by decide, rfl⟩, rfl⟩
  · refine ⟨⟨trivial, ?_⟩, rfl, ⟨_, ⟨true, false⟩, rfl, rfl, rfl⟩, rfl⟩
    rintro p ⟨⟩ -
    exact fun _ => ⟨by decide, by decide⟩
  · refine ⟨⟨trivial, ?_⟩, rfl, ⟨_, ⟨true, false⟩, rfl, rfl, rfl⟩, rfl⟩
    rintro p ⟨⟩ -
    exact ⟨⟨[], rfl⟩, by decide⟩

theorem wire_to_relay_oneByteThrough :
    ∃ req, readConnectRequest req = some okDest ∧ req.length = 10 ∧
      [0x05, 0x01, 0x00] ++ req <+: toRelay
        (oneByteThrough.foldl (Conn.turn .splicepump) acceptedConn) ∧
      fromClient (oneByteThrough.foldl (Conn.turn .splicepump) acceptedConn) = [0x61] := by
  obtain ⟨req, hread, hlen, hrun⟩ := wire_to_relay (k := AcceptCalls.ok) (a := okDest) rfl rfl rfl
    (by rintro n ⟨⟩)
  have hfrom : fromClient (oneByteThrough.foldl (Conn.turn .splicepump) acceptedConn) = [0x61] :=
    rfl
  refine ⟨req, hread, hlen, ((hrun _ _ _ run_oneByteThrough).2 ?_).1, hfrom⟩
  rw [hfrom]
  decide

end Transocks

import Transocks.Descriptors
import Transocks.Projection
import Transocks.Streams

/-!
# From the accept to the release

`Opens` says what the handshake leaves to the pump, `Since` what went through a direction since
then. `connections_refine` follows a connection from its accept: it waits as a relay that has not
started, its start opens the two channels, and every turn of the pump is matched by moves on them.

The buffer pump goes on with everything that is under way at the start, the rest of the connect
request and the bytes behind the reply. The splice pump opens both channels empty: what was under
way is lost.

A record knows nothing of the closes that other clients do. The results are about the runs in which
every close has hit its own (`World.HitsOwn`), where `run_owned` makes sure that the numbers of a
record are the ones it was given.
-/

namespace Transocks

open Duplex Runs

/-- What a pump goes on with of the bytes under way at its start. -/
def PumpMethod.keeps : PumpMethod → List Byte → List Byte
  | .bufferpump, bs => bs
  | .splicepump, _ => []

/-- A client with destination `a` whose pump has just started in `o`, and the bytes `kept` that the
pump goes on with. -/
structure Opens (m : PumpMethod) (a : SockAddr) (o : Conn) (kept : Side → List Byte) : Prop where
  quiet : o.got .outbound = [] ∧ o.gave .inbound = []
  asked : ∃ unsent, o.gave .outbound ++ unsent = Leg.reply.sent a ∧ kept .client = m.keeps unsent
  replied : ∃ reply n, o.got .inbound = methodReply ++ reply ∧ 10 ≤ reply.length ∧
    ReplyHeader n reply ∧ kept .relay = m.keeps (reply.drop n)

/-- The channel holds what went through direction `d` since the pump started in `o`. -/
structure Since (o c : Conn) (d : Direction) (x : Channel Byte) : Prop where
  got : ∃ sent, c.got d = o.got d ++ sent ∧ x.queue.taken = x.kept ++ sent
  gave : c.gave d = o.gave d ++ x.queue.delivered
  ended : x.ended = c.readFlag d
  closed : x.closed = c.writeFlag d

/-- What a connection and a relay have in common. -/
inductive Shows (m : PumpMethod) (a : SockAddr) (c : Conn) : State Side Byte → Prop
  | waiting (hl : c.released = false) (hq : c.got .outbound = [] ∧ c.gave .inbound = []) :
    Shows m a c .waiting
  | flowing (o : Conn) (ch : Side → Channel Byte) (hl : c.released = false)
      (ho : Opens m a o fun s => (ch s).kept) (h : ∀ d : Direction, Since o c d (ch d.source))
      (hw : m = .splicepump → ∀ s, (ch s).refused = false) : Shows m a c (.flowing ch)
  | refused (hr : c.released = true) (hq : c.got .outbound = [] ∧ c.gave .inbound = []) :
    Shows m a c (.stopped none)
  | stopped (o : Conn) (ch : Side → Channel Byte) (hr : c.released = true)
      (ho : Opens m a o fun s => (ch s).kept) (h : ∀ d : Direction, Since o c d (ch d.source))
      (hw : m = .splicepump → ∀ s, (ch s).refused = false) : Shows m a c (.stopped (some ch))

/-- The loop runs a callback of the splice pump only when its event fires, and `splice` does what
the kernel can do with the pipe ends that this client has open. -/
def SpliceReady (m : PumpMethod) (c : Conn) : Turn → Prop
  | .callback ev => m = .splicepump → ∀ p, c.userArg = some p → ev.isSplice = true →
    SpliceMoves c p ev ∧ Fires c p ev ∧ PipeEof c p ev
  | .drop => True

/-- A connection that the relay in state `r` stands for. -/
inductive Relays (m : PumpMethod) (a : SockAddr) (c : Conn) : State Side Byte → Prop
  | waits (l : Leg) (f : Side → ℕ) (b : Bufferevent) (h : AtLeg l a c f b)
      (hg : c.gave .inbound = []) : Relays m a c .waiting
  | copies (o : Conn) (b : Side → Bufferevent) (ch : Side → Channel Byte) (hm : m = .bufferpump)
      (h : Serving c b) (ho : Opens m a o fun s => (ch s).kept) (hc : Copies o c b ch)
      (hk : c.kern = o.kern) (hu : o.Unpiped) : Relays m a c (.flowing ch)
  | splices (o : Conn) (f : Side → ℕ) (p : Splicepump) (ch : Side → Channel Byte)
      (hm : m = .splicepump) (h : Splicing c f p) (hp : Pumping c p)
      (ho : Opens m a o fun s => (ch s).kept) (hc : Splices c ch)
      (hs : ∀ s, (c.ends s).rx = (o.ends s).rx ∧ (c.ends s).tx = (o.ends s).tx)
      (hu : o.Unpiped) : Relays m a c (.flowing ch)
  | gone (r : State Side Byte) (hr : c.released = true) (h : Shows m a c r) : Relays m a c r

section Shows

variable {m : PumpMethod} {a : SockAddr} {o c c' : Conn} {b : Side → Bufferevent}
  {ch : Side → Channel Byte} {r : State Side Byte} {kept kept' : Side → List Byte}

theorem Opens.same (h : Opens m a o kept) (hk : ∀ s, kept' s = kept s) : Opens m a o kept' := by
  rw [funext hk]
  exact h

theorem Copies.since (h : Copies o c b ch) (hk : c.kern = o.kern) (hu : o.Unpiped)
    (d : Direction) : Since o c d (ch d.source) := by
  have hs := h d.source
  refine ⟨⟨readSince o c d.source, ?_, ?_⟩, ?_, hs.ended, ?_⟩
  · unfold Conn.got
    rw [hk, (hu d).1, List.append_nil, List.append_nil]
    exact hs.flow.rx
  · rw [hs.flow.taken, hs.kept]
  · unfold Conn.gave
    rw [hk, (hu d).2, List.append_nil, List.append_nil, hs.flow.delivered, ← Direction.source_other]
    exact hs.flow.tx
  · rw [hs.closed, Direction.source_other]
    rfl

theorem Splices.since (h : Splices c ch)
    (hs : ∀ s, (c.ends s).rx = (o.ends s).rx ∧ (c.ends s).tx = (o.ends s).tx) (hu : o.Unpiped)
    (d : Direction) : Since o c d (ch d.source) := by
  have hd := h d
  obtain ⟨ht, -, hw⟩ := hd.flow
  refine ⟨⟨(c.kern d).taken, ?_, ?_⟩, ?_, hd.ended, hd.closed⟩
  · unfold Conn.got
    rw [(hs _).1, (hu d).1, List.append_nil]
  · rw [hd.kept, List.nil_append, ht]
  · unfold Conn.gave
    rw [(hs _).2, (hu d).2, List.append_nil, hw]

theorem Splices.kept_eq {ch' : Side → Channel Byte} (h' : Splices c' ch') (h : Splices c ch)
    (s : Side) : (ch' s).kept = (ch s).kept := by
  cases s with
  | client => exact (h' .outbound).kept.trans (h .outbound).kept.symm
  | relay => exact (h' .inbound).kept.trans (h .inbound).kept.symm

theorem Splices.unrefused (h : Splices c ch) (s : Side) : (ch s).refused = false := by
  cases s with
  | client => exact (h .outbound).whole
  | relay => exact (h .inbound).whole

theorem Relays.shows (h : Relays m a c r) : Shows m a c r := by
  cases h with
  | waits l f b h hg =>
    exact .waiting h.live ⟨h.fromClient_eq, hg⟩
  | copies o b ch hm h ho hc hk hu =>
    refine .flowing o ch h.live ho (hc.since hk hu) fun he => ?_
    exact absurd (hm.symm.trans he) (by decide)
  | splices o f p ch hm h hp ho hc hs hu =>
    exact .flowing o ch h.live ho (hc.since hs hu) fun _ => hc.unrefused
  | gone r hr h => exact h

theorem Shows.stop (h : Shows m a c (.flowing ch)) (hh : SameHistory c c')
    (hr : c'.released = true) (hf : ∀ s, (c'.ends s).shutRead = (c.ends s).shutRead ∧
      (c'.ends s).shutWrite = (c.ends s).shutWrite) : Shows m a c' (.stopped (some ch)) := by
  cases h with
  | flowing o _ hl ho h hw =>
    refine .stopped o ch hr ho (fun d => ?_) hw
    obtain ⟨⟨sent, hgot, ht⟩, hgave, hended, hclosed⟩ := h d
    refine ⟨⟨sent, (hh.got d).trans hgot, ht⟩, (hh.gave d).trans hgave, hended.trans ?_,
      hclosed.trans ?_⟩
    · exact (hf d.source).1.symm
    · exact (hf d.target).2.symm

end Shows

/-! ## The handshake -/

section Handshake

variable {m : PumpMethod} {l : Leg} {a : SockAddr} {c c' : Conn} {f : Side → ℕ} {b : Bufferevent}

theorem gave_received (c : Conn) (b : Bufferevent) (bs : List Byte) :
    (c.received .relay b bs).gave .inbound = c.gave .inbound := by
  have hne : Side.client ≠ Side.relay := by decide
  simp [Conn.gave, Conn.received, Direction.target, Conn.setEnd_ne _ _ hne]

theorem gave_heard (c : Conn) (b : Bufferevent) (ev : Ev) :
    (heard c b ev).gave .inbound = c.gave .inbound := by
  unfold heard
  split
  · exact gave_received c b _
  · rfl

theorem gave_awaits (c : Conn) (b : Bufferevent) (msg : List Byte) (low : ℕ) (cb : ReadCb)
    (t : TimerCalls) : (awaits c b msg low cb t).gave .inbound = c.gave .inbound :=
  (SameHistory.setBev c .relay (some (b.await msg low cb))).gave .inbound

/-- No callback of the handshake writes to the client. -/
theorem HandshakeMove.gave {ev : Ev} (hm : HandshakeMove m a c b ev c') (h : AtLeg l a c f b) :
    c'.gave .inbound = c.gave .inbound := by
  cases hm with
  | crashed _ ht => exact gave_heard c b ev
  | @refused _ b₁ ht hfd =>
    have hh := (SameHistory.setBev (timerOff (heard c b ev)) .relay (some b₁)).trans
      (SameHistory.clientFree _)
    exact (hh.gave .inbound).trans (gave_heard c b ev)
  | ignored ht hw => rfl
  | connected ht hcb => exact gave_awaits _ b _ _ _ _
  | short hs => exact gave_received c b _
  | selected ht hcb hin hreq => exact (gave_awaits _ _ _ _ _ _).trans (gave_received c b _)
  | @started bs k n ht hcb hlen hn =>
    have hh := (sameHistory_atStart c b bs n k).trans
      (startPump_history (m := m) (h.atStart bs n k) h.unpiped k.start)
    exact (hh.gave .inbound).trans (gave_received c b bs)
  | flushed =>
    have hne : Side.client ≠ Side.relay := by decide
    simp [Conn.gave, Conn.flushed, Direction.target, Conn.setEnd_ne _ _ hne]
  | idle => rfl

theorem AtLeg.turn_gave {t : Turn} (h : AtLeg l a c f b) (hs : LifeStep m c t c') :
    c'.gave .inbound = c.gave .inbound := by
  obtain ⟨-, hpos, rfl⟩ := hs
  cases t with
  | callback ev => exact (h.toHandshaking.move h.dest hpos).gave h
  | drop =>
    cases m with
    | splicepump => exact (SameHistory.splicepumpFree c).gave .inbound
    | bufferpump =>
      have heq : c.turn .bufferpump .drop = _ := h.toHandshaking.drop.2
      rw [heq]
      exact ((((SameHistory.refl c).mapBev .client Bufferevent.disable).mapBev .relay
        Bufferevent.disable).trans (SameHistory.clientFree _)).gave .inbound

/-- What a pump finds when it starts. -/
theorem AtLeg.opens {bs : List Byte} {n : ℕ} {k : HandshakeCalls} {kept : Side → List Byte}
    (h : AtLeg .reply a c f b) (hg : c.gave .inbound = []) (hlen : 10 ≤ (b.input ++ bs).length)
    (hn : connectReplyLen (b.input ++ bs) = some n)
    (hst : startPump m (Transocks.atStart c b bs n k) k.start = (c', true))
    (hc : kept .client = m.keeps b.output)
    (hr : kept .relay = m.keeps ((b.input ++ bs).drop n)) :
    Opens m a c' kept ∧ c'.Unpiped := by
  have hstart := startPump_history (m := m) (h.atStart bs n k) h.unpiped k.start
  rw [hst] at hstart
  have hh : SameHistory (c.received .relay b bs) c' := (sameHistory_atStart c b bs n k).trans hstart
  have hne : Side.client ≠ Side.relay := by decide
  have hkern : ∀ d, ((c.received .relay b bs).kern d).taken = [] ∧
      ((c.received .relay b bs).kern d).written = [] := h.unpiped
  refine ⟨⟨⟨?_, ?_⟩, ⟨b.output, ?_, hc⟩, ⟨b.input ++ bs, n, ?_, hlen, connectReplyLen_iff.mp hn,
    hr⟩⟩, fun d => ?_⟩
  · rw [hh.got]
    unfold Conn.got
    rw [(hkern _).1, List.append_nil, ← h.clientRx]
    simp [Conn.received, Direction.source, Conn.setEnd_ne _ _ hne]
  · rw [hh.gave, gave_received, hg]
  · rw [hh.gave]
    unfold Conn.gave
    rw [(hkern _).2, List.append_nil, ← h.sent]
    simp [Conn.received, Direction.target]
  · rw [hh.got]
    unfold Conn.got
    rw [(hkern _).1, List.append_nil]
    simp [Conn.received, Direction.source, h.got, Leg.consumed]
  · rw [hh.taken, hh.written]
    exact h.unpiped d

/-- The start of the buffer pump opens channels that hold what is under way. -/
theorem AtLeg.copies {bs : List Byte} {n : ℕ} {k : HandshakeCalls} (h : AtLeg .reply a c f b)
    (hg : c.gave .inbound = []) (hlen : 10 ≤ (b.input ++ bs).length)
    (hn : connectReplyLen (b.input ++ bs) = some n)
    (hst : startPump .bufferpump (Transocks.atStart c b bs n k) k.start = (c', true)) :
    Relays .bufferpump a c' (.flowing fun s => Channel.start (backlog c' s)) := by
  have h₀ := h.atStart bs n k
  obtain ⟨heq, hserv⟩ := h₀.serving_start (atStart_timer c b bs n k) hst
  have hin := hserv.toRelaying.input_eq
  have hout := hserv.toRelaying.output_eq
  have hclient : backlog c' .client = b.output := by
    unfold backlog
    rw [hout, hin]
    show (repliedBev { b with input := b.input ++ bs } n k).output ++ [] = _
    rw [repliedBev_output, List.append_nil]
  have hrelay : backlog c' .relay = (b.input ++ bs).drop n := by
    unfold backlog
    rw [hout, hin]
    show [] ++ (repliedBev { b with input := b.input ++ bs } n k).input = _
    rw [repliedBev_input, List.nil_append]
  obtain ⟨ho, hu⟩ : Opens .bufferpump a c' (fun s => backlog c' s) ∧ c'.Unpiped :=
    h.opens hg hlen hn hst hclient hrelay
  have hflags : ∀ s, (c'.ends s).shutRead = false ∧ (c'.ends s).shutWrite = false := fun s => by
    rw [heq]
    exact ⟨h₀.shutRead s, h₀.shutWrite s⟩
  refine .copies c' _ _ rfl hserv ho (fun s => ?_) rfl hu
  refine ⟨⟨?_, ?_, ?_, ?_, ?_⟩, rfl, (hflags s).1.symm, (hflags s.other).2.symm, ?_, ?_, .inr ?_⟩
  · simp [readSince]
  · simp [wroteSince]
  · simp [readSince, Channel.start, Fifo.start]
  · rw [← hout, ← hin]
    rfl
  · simp [wroteSince, Channel.start, Fifo.start]
  · intro hc
    cases hc
  · intro hc
    cases hc
  · simp [readSince]

/-- The start of the splice pump opens empty channels. -/
theorem AtLeg.splices {bs : List Byte} {n : ℕ} {k : HandshakeCalls} (h : AtLeg .reply a c f b)
    (hg : c.gave .inbound = []) (hlen : 10 ≤ (b.input ++ bs).length)
    (hn : connectReplyLen (b.input ++ bs) = some n)
    (hst : startPump .splicepump (Transocks.atStart c b bs n k) k.start = (c', true)) :
    Relays .splicepump a c' (.flowing fun _ => Channel.start []) := by
  have h₀ := h.atStart bs n k
  obtain ⟨p, hp⟩ := h₀.splicing_start (atStart_timer c b bs n k) hst
  obtain ⟨p', hp'⟩ := pumping_start h₀.atHandover hst
  obtain rfl := Option.some.inj (hp.pump.symm.trans hp'.pump)
  obtain ⟨ho, hu⟩ : Opens .splicepump a c' (fun _ => []) ∧ c'.Unpiped :=
    h.opens hg hlen hn hst rfl rfl
  refine .splices c' f p _ rfl hp hp' ho (fun d => ?_) (fun _ => ⟨rfl, rfl⟩) hu
  obtain ⟨rb, r, w, -, -, rfl⟩ := startPump_splice_ok h₀.live hst
  refine ⟨⟨rfl, rfl, rfl⟩, rfl, ?_, ?_, rfl⟩
  · exact (h₀.shutRead d.source).symm
  · exact (h₀.shutWrite d.target).symm

end Handshake

/-! ## Turns -/

section Turn

variable {m : PumpMethod} {a : SockAddr} {o c c' : Conn} {t : Turn} {ch : Side → Channel Byte}
  {r : State Side Byte}

theorem AtLeg.relays {l : Leg} {f : Side → ℕ} {b : Bufferevent} (h : AtLeg l a c f b)
    (hg : c.gave .inbound = []) (hs : LifeStep m c t c') :
    ∃ acts r', Run Step (.waiting : State Side Byte) acts r' ∧ Relays m a c' r' := by
  have hg' : c'.gave .inbound = [] := (h.turn_gave hs).trans hg
  rcases h.turn hs with ⟨l', b', h', -, -⟩ | ⟨bs, n, k, rfl, rfl, hlen, hn, hst⟩ | ⟨hi, -, hfrom⟩
  · exact ⟨[], _, .nil, .waits l' f b' h' hg'⟩
  · cases m with
    | bufferpump => exact ⟨_, _, Run.one (.start _), h.copies hg hlen hn hst⟩
    | splicepump => exact ⟨_, _, Run.one (.start fun _ => []), h.splices hg hlen hn hst⟩
  · have hq : c'.got .outbound = [] := hfrom.trans h.fromClient_eq
    exact ⟨_, _, Run.one .giveUp, .gone _ hi.released (.refused hi.released ⟨hq, hg'⟩)⟩

theorem Serving.relays {b : Side → Bufferevent} (h : Serving c b)
    (ho : Opens .bufferpump a o fun s => (ch s).kept) (hc : Copies o c b ch)
    (hk : c.kern = o.kern) (hu : o.Unpiped) (hs : LifeStep .bufferpump c t c') :
    ∃ acts r', Run Step (.flowing ch) acts r' ∧ Relays .bufferpump a c' r' := by
  obtain ⟨c₂, b₂, h₂, hmove, hc'⟩ := h.turn hs
  have hans : Answers ch (Copies o c₂ b₂) ∧ c₂.kern = o.kern := by
    rcases hmove with ⟨ev, rfl, hm⟩ | ⟨rfl, rfl⟩
    · exact ⟨hm.answers h.bev hs.2.1 hc, hm.frame.2.2.trans hk⟩
    · exact ⟨.refl hc, hk⟩
  obtain ⟨⟨acts, ch₂, hrun, hc₂⟩, hk₂⟩ := hans
  have ho₂ : Opens .bufferpump a o fun s => (ch₂ s).kept :=
    ho.same fun s => (hc₂ s).kept.trans (hc s).kept.symm
  have hrel : Relays .bufferpump a c₂ (.flowing ch₂) := .copies o b₂ ch₂ rfl h₂ ho₂ hc₂ hk₂ hu
  rcases hc' with rfl | rfl
  · exact ⟨acts, _, hrun, hrel⟩
  · obtain ⟨hr, -, hends⟩ := h₂.toRelaying.bufferpumpFree
    refine ⟨_, _, hrun.snoc (.stop ch₂), .gone _ hr ?_⟩
    refine hrel.shows.stop h₂.toRelaying.sameHistory_free hr fun s => ?_
    rw [hends]
    exact ⟨rfl, rfl⟩

/-- The end of file of a pipe releases the client with the flag of that direction set. -/
theorem Pumping.step_end {p : Splicepump} {d : Direction} (h : Pumping c p)
    (hs : ReadyStep c (.spliceWrite d (.moved [])) c') :
    c.readFlag d = true ∧ (c.kern d).content = [] ∧
      c' = Transocks.splicepumpFree (readFromPipeEof c d p) := by
  obtain ⟨⟨-, ⟨p₁, hp₁, hk⟩, rfl⟩, p₂, hp₂, hf, he⟩ := hs
  obtain rfl : p = p₂ := Option.some.inj (h.pump.symm.trans hp₂)
  obtain ⟨hr, hc⟩ := h.eof_true hf he
  refine ⟨hr, hc, ?_⟩
  rcases step_spliceWrite (m := .splicepump) (d := d) (k := .moved []) h.live h.pump with
    ⟨-, hfd⟩ | ⟨-, hfat⟩ | ⟨c₁, hm, hst⟩
  · rw [isInvalidFd_eq_false (h.fd _), isInvalidFd_eq_false (h.pipefd d).1] at hfd
    cases hfd
  · cases hfat
  · rw [h.wokenWrite_eq, h.setPump_eq] at hm
    rw [hst]
    cases hm with
    | transfer hb => exact absurd rfl hb
    | eof =>
      have hread : (readFromPipeEof c d p).readFlag d = true := by
        simpa [readFromPipeEof, Conn.setWriteFlag, Conn.readFlag, Conn.setEnd_ne] using hr
      have hwrite : (readFromPipeEof c d p).writeFlag d = true := by
        simp [readFromPipeEof, Conn.setWriteFlag, Conn.writeFlag]
      rw [checkNormalTermination_live (by exact h.live),
        if_pos (by simp [normalTermination, hread, hwrite])]

theorem Shows.splicepumpFree {p : Splicepump} (h : Shows m a c (.flowing ch))
    (hl : c.released = false) (hst : c.clientState = .pumpingData) (hp : c.userArg = some p) :
    Relays m a (Transocks.splicepumpFree c) (.stopped (some ch)) := by
  have hr := splicepumpFree_released hl hst hp
  refine .gone _ hr (h.stop (SameHistory.splicepumpFree c) hr fun s => ?_)
  rw [splicepumpFree_end hl hst hp]
  exact ⟨rfl, rfl⟩

theorem Splicing.relays {f : Side → ℕ} {p : Splicepump} (h : Splicing c f p) (hp : Pumping c p)
    (ho : Opens .splicepump a o fun s => (ch s).kept) (hc : Splices c ch)
    (hsock : ∀ s, (c.ends s).rx = (o.ends s).rx ∧ (c.ends s).tx = (o.ends s).tx) (hu : o.Unpiped)
    (hready : SpliceReady .splicepump c t) (hs : LifeStep .splicepump c t c') :
    ∃ acts r', Run Step (.flowing ch) acts r' ∧ Relays .splicepump a c' r' := by
  have hshows : Shows .splicepump a c (.flowing ch) :=
    .flowing o ch h.live ho (hc.since hsock hu) fun _ => hc.unrefused
  obtain ⟨hlive, hpos, rfl⟩ := hs
  cases t with
  | drop => exact ⟨_, _, Run.one (.stop ch), hshows.splicepumpFree h.live h.pumping h.pump⟩
  | callback ev =>
    have hev : ev.isSplice = true := h.enabled hpos
    obtain ⟨hmoves, hfires, heof⟩ := hready rfl p h.pump hev
    have hstep : ReadyStep c ev (c.step .splicepump ev) :=
      ⟨⟨h.live, ⟨p, h.pump, hmoves⟩, rfl⟩, p, h.pump, hfires, heof⟩
    have hsame : ∀ s, ((c.step .splicepump ev).ends s).rx = (o.ends s).rx ∧
        ((c.step .splicepump ev).ends s).tx = (o.ends s).tx := fun s => by
      have hsp := splice_sockets (m := .splicepump) h.live h.pump hev s
      exact ⟨hsp.1.trans (hsock s).1, hsp.2.trans (hsock s).2⟩
    -- a client that goes on pumping
    have hgoes : ∀ p', Pumping (c.step .splicepump ev) p' →
        Answers ch (Splices (c.step .splicepump ev)) →
        ∃ acts r', Run Step (.flowing ch) acts r' ∧
          Relays .splicepump a (c.step .splicepump ev) r' := by
      rintro p' hp' ⟨acts, ch', hrun, hc'⟩
      rcases h.splice_cases hev with ⟨p'', hs''⟩ | hi
      swap
      · exact absurd (hp'.live.symm.trans hi.released) (by decide)
      obtain rfl := Option.some.inj (hp'.pump.symm.trans hs''.pump)
      have ho' := ho.same (hc'.kept_eq hc)
      exact ⟨acts, _, hrun, .splices o f p' ch' rfl hs'' hp' ho' hc' hsame hu⟩
    rcases hp.step_cases hstep with ⟨d, k, rfl, hm, p', hp'⟩ | ⟨d, k, rfl, hm, p', hp'⟩ |
      ⟨-, heq⟩ | ⟨d, rfl, -⟩
    · refine hgoes p' hp' (hm.answers hc ?_)
      obtain ⟨e, hread, hpend⟩ := hfires
      rw [hp.readEv d] at hread
      obtain rfl := Option.some.inj hread
      simpa [Event.pending] using hpend
    · exact hgoes p' hp' (hm.answers hc hmoves (hp'.writeFlag d))
    · rw [Conn.turn, heq]
      exact ⟨_, _, Run.one (.stop ch), hshows.splicepumpFree h.live h.pumping h.pump⟩
    · obtain ⟨hr, hcont, heq⟩ := hp.step_end hstep
      obtain ⟨acts, ch', hrun, hc'⟩ := hc.drainEof (p := p) hr hcont
      have hsock' : ∀ s, ((readFromPipeEof c d p).ends s).rx = (o.ends s).rx ∧
          ((readFromPipeEof c d p).ends s).tx = (o.ends s).tx := fun s => by
        rcases Side.eq_or_eq_other d.target s with rfl | rfl <;>
          simpa [readFromPipeEof, Conn.setWriteFlag, Conn.setEnd_ne] using hsock _
      have hshows' : Shows .splicepump a (readFromPipeEof c d p) (.flowing ch') :=
        .flowing o ch' h.live (ho.same (hc'.kept_eq hc)) (hc'.since hsock' hu)
          fun _ => hc'.unrefused
      rw [Conn.turn, heq]
      exact ⟨_, _, hrun.snoc (.stop ch'),
        hshows'.splicepumpFree (p := p) h.live h.pumping h.pump⟩

/-- **One turn of a connection is matched by the relay.** -/
theorem Relays.turn (h : Relays m a c r) (hs : LifeStep m c t c')
    (hready : SpliceReady m c t) :
    ∃ acts r', Run Step r acts r' ∧ Relays m a c' r' := by
  cases h with
  | waits l f b h hg => exact h.relays hg hs
  | copies o b ch hm h ho hc hk hu =>
    subst hm
    exact h.relays ho hc hk hu hs
  | splices o f p ch hm h hp ho hc hsock hu =>
    subst hm
    exact h.relays hp ho hc hsock hu hready hs
  | gone r hr h => exact absurd (hr.symm.trans hs.1) (by decide)

end Turn

/-! ## Runs -/

section Accept

variable {c₀ c : Conn} {k : AcceptCalls}

theorem SameHistory.emits (h : SameHistory c₀ c) (es : List Effect) : SameHistory c₀ (c.emits es) :=
  h.trans ⟨fun _ => rfl, fun _ => rfl, fun _ => rfl, fun _ => rfl⟩

theorem SameHistory.setFd (h : SameHistory c₀ c) (s : Side) (n : Fd) :
    SameHistory c₀ (c.setEnd s { c.ends s with fd := n }) := by
  refine h.trans ⟨fun t => ?_, fun t => ?_, fun _ => rfl, fun _ => rfl⟩ <;>
    rcases Side.eq_or_eq_other s t with rfl | rfl <;> simp

theorem SameHistory.setTimeout (h : SameHistory c₀ c) (k : TimerCalls) :
    SameHistory c₀ (clientSetTimeout c k) := by
  refine h.trans (SameHistory.touch ?_)
  split
  · split
    · exact ⟨fun _ => rfl, fun _ => rfl, fun _ => rfl, fun _ => rfl⟩
    · exact .refl c
  · exact ⟨fun _ => rfl, fun _ => rfl, fun _ => rfl, fun _ => rfl⟩

theorem SameHistory.connecting (h : SameHistory c₀ c) (r : ℕ) :
    SameHistory c₀ (connecting c r) :=
  ((h.setFd .relay r).trans (SameHistory.setBev _ .relay (some (connectingBev r)))).emits
    [.alloc (.bev .relay)]

theorem SameHistory.startConnectRelay (h : SameHistory c₀ c) (k : AcceptCalls) :
    SameHistory c₀ (startConnectRelay c k) := by
  cases hr : k.socket with
  | none =>
    rw [startConnectRelay_none hr]
    exact h.trans (SameHistory.clientFree c)
  | some r =>
    have h₁ := h.emits [.opened (.sock .relay) r]
    have h₂ := (h₁.connecting r).setTimeout k.timer
    rw [startConnectRelay_socket hr]
    simp only
    split_ifs
    · exact (h₁.emits _).trans (SameHistory.clientFree _)
    · exact ((h₁.setFd .relay r).emits _).trans (SameHistory.clientFree _)
    · exact (h₂.emits _).trans (SameHistory.clientFree _)
    · exact h₂.trans ⟨fun _ => rfl, fun _ => rfl, fun _ => rfl, fun _ => rfl⟩

theorem SameHistory.freeClient (h : SameHistory c₀ c) (n : ℕ) :
    SameHistory c₀ (listenerFreeClient c n) := (h.trans (SameHistory.clientFree c)).emits _

theorem SameHistory.setup (h : SameHistory c₀ c) (n : ℕ) (k : AcceptCalls) :
    SameHistory c₀ (listenerSetup c n k) := by
  unfold listenerSetup
  split_ifs
  · exact h.freeClient n
  · exact ((h.emits _).emits _).freeClient n
  · have h₁ := (h.emits [.alloc (.bev .client)]).trans
      (SameHistory.setBev _ .client (some (Bufferevent.new n)))
    exact (h₁.emits [.listAddTail]).startConnectRelay k

theorem listenerCb_history (hcb : (listenerCb k).1 = some c) : SameHistory Conn.new c := by
  unfold listenerCb at hcb
  split at hcb
  · cases hcb
  · rename_i n _
    split_ifs at hcb
    obtain hnew | hnew | ⟨es, hnew, -⟩ := clientNew_cases k
    all_goals rw [hnew] at hcb
    · cases hcb
    swap
    · cases hcb
    have h₀ : SameHistory Conn.new (allocated k n) :=
      ⟨fun _ => rfl, fun _ => rfl, fun _ => rfl, fun _ => rfl⟩
    cases ho : k.origdst with
    | none =>
      rw [ho] at hcb
      obtain rfl := Option.some.inj hcb
      exact h₀.freeClient n
    | some a =>
      rw [ho] at hcb
      obtain rfl : listenerSetup (addressed k n a) n k = c := Option.some.inj hcb
      have h₁ : SameHistory Conn.new { allocated k n with destAddr := some a } :=
        ⟨h₀.rx, h₀.tx, h₀.taken, h₀.written⟩
      exact (h₁.setFd .client n).setup n k

end Accept

/-- The accept that created client `i` made the calls `k`. -/
def AcceptedBy (acts : List Act) (i : ℕ) (k : AcceptCalls) : Prop :=
  ∃ pre post, acts = pre ++ .accept k :: post ∧ pre.countP Act.isAccept = i

section World

variable {m : PumpMethod} {i n : ℕ} {w : World} {acts : List Act} {a : SockAddr} {c c₀ c' : Conn}
  {k : AcceptCalls} {ts : List Turn} {r : State Side Byte}

/-- What a relay shows does not depend on the calls made before. -/
theorem Shows.atRest (h : Shows m a c r) : Shows m a c.atRest r := by
  have hsince : ∀ {o : Conn} {d x}, Since o c d x → Since o c.atRest d x :=
    fun h => ⟨h.got, h.gave, h.ended, h.closed⟩
  cases h with
  | waiting hl hq => exact .waiting hl hq
  | flowing o ch hl ho h hw => exact .flowing o ch hl ho (fun d => hsince (h d)) hw
  | refused hr hq => exact .refused hr hq
  | stopped o ch hr ho h hw => exact .stopped o ch hr ho (fun d => hsince (h d)) hw

/-- Every state of a run from an accept is the one of a relay. -/
theorem run_relays (hcb : (listenerCb k).1 = some c₀)
    (hrun : Run (OwnStep m (SpliceReady m)) c₀ ts c) :
    ∃ a acts r, (k.origdst = some a ∨ r = .stopped none) ∧
      Run Step (.waiting : State Side Byte) acts r ∧ Relays m a c r := by
  have hhist := listenerCb_history hcb
  by_cases hl : c₀.released = true
  · -- nothing runs for a client that the accept has released
    obtain rfl : c = c₀ := hrun.invariant (I := fun u => u = c₀) rfl fun u t v hu hs => by
      subst hu
      exact absurd (hl.symm.trans hs.2.1) (by decide)
    exact ⟨.other 0, _, _, .inr rfl, Run.one .giveUp,
      .gone _ hl (.refused hl ⟨hhist.got .outbound, hhist.gave .inbound⟩)⟩
  · rw [Bool.not_eq_true] at hl
    obtain ⟨x, e, a, -, -, hdst, rfl⟩ := listenerCb_live hcb hl
    have hgoal : ∃ acts r, Run Step (.waiting : State Side Byte) acts r ∧ Relays m a c r := by
      refine hrun.invariant (I := fun c => ∃ acts r, Run Step (.waiting : State Side Byte) acts r ∧
        Relays m a c r) ⟨[], _, .nil, .waits .connect _ _ (atLeg_waitingConn k x e a)
          (hhist.gave .inbound)⟩ ?_
      rintro u t v ⟨acts, r, hacts, hu⟩ ⟨hready, hs⟩
      obtain ⟨acts', r', hacts', hv⟩ := hu.turn hs (by cases t <;> exact hready)
      exact ⟨acts ++ acts', r', hacts.trans hacts', hv⟩
    obtain ⟨acts, r, hacts, hr⟩ := hgoal
    exact ⟨a, acts, r, .inl hdst, hacts, hr⟩

theorem Lives.shows (h : Lives m (SpliceReady m) i acts c) :
    ∃ k a ds r, AcceptedBy acts i k ∧ (k.origdst = some a ∨ r = .stopped none) ∧
      Run Step (.waiting : State Side Byte) ds r ∧ Shows m a c r := by
  obtain ⟨c', rfl, pre, post, k, c₀, ts, r, rfl, hi, hcb, hrun, -, -⟩ := h
  obtain ⟨a, ds, r, ha, hds, hrel⟩ := run_relays hcb hrun
  exact ⟨k, a, ds, r, ⟨pre, post, rfl, hi⟩, ha, hds, hrel.shows.atRest⟩

/-- The kernel serves the splice pump as `SpliceReady` says, as long as every close has hit its own:
another client's stale close of a pipe end or a socket would go behind the back of this record. -/
def PipesServe (m : PumpMethod) (w : World) (act : Act) : Prop :=
  w.HitsOwn → act.Meets (SpliceReady m) w

theorem run_served (hrun : Run (Meeting (World.Step m) (PipesServe m)) (World.init n) acts w)
    (hown : w.HitsOwn) :
    Run (Meeting (World.Step m) (Act.Meets (SpliceReady m))) (World.init n) acts w :=
  Run.meeting_while hrun (fun _ _ _ hs => hs.hitsOwn) hown

/-- What the client has received, when the relay has sent `reply` and then `later`. -/
structure Received (m : PumpMethod) (c : Conn) (reply later : List Byte) (n : ℕ) : Prop where
  got : c.got .inbound = methodReply ++ reply ++ later
  header : 10 ≤ reply.length ∧ ReplyHeader n reply
  order : c.gave .inbound <+: m.keeps (reply.drop n) ++ later
  whole : m = .splicepump → c.writeFlag .inbound = true →
    c.readFlag .inbound = true ∧ c.gave .inbound = later

theorem Since.received {o : Conn} {x : Channel Byte} {reply : List Byte} (h : Since o c .inbound x)
    (hg : o.gave .inbound = []) (hr : o.got .inbound = methodReply ++ reply)
    (hlen : 10 ≤ reply.length) (hn : ReplyHeader n reply) (hk : x.kept = m.keeps (reply.drop n))
    (hw : m = .splicepump → x.refused = false) : ∃ later, Received m c reply later n := by
  obtain ⟨⟨sent, hgot, ht⟩, hgave, hended, hclosed⟩ := h
  rw [hg, List.nil_append] at hgave
  refine ⟨sent, ⟨by rw [hgot, hr], ⟨hlen, hn⟩, ?_, fun hm hf => ?_⟩⟩
  · rw [hgave, ← hk]
    exact x.delivered_prefix ht
  · have hkept : x.kept = [] := by rw [hk, hm]; rfl
    rw [hkept, List.nil_append] at ht
    have hcl : x.closed = true := hclosed.trans hf
    obtain ⟨he, -⟩ := (x.told hcl).resolve_left (by rw [hw hm]; decide)
    refine ⟨hended.symm.trans he, ?_⟩
    rw [hgave]
    rcases x.complete hcl (hw hm) with hd | hd
    · rw [hd, ht]
    · have hnil : x.queue.taken = [] := hd.trans hkept
      have hpre := x.queue.delivered_prefix
      rw [hnil, List.prefix_nil] at hpre
      rw [hpre, ← ht, hnil]

end World

theorem run_toPump_served :
    Run (Meeting (World.Step .splicepump) (PipesServe .splicepump)) (World.init 3) toPump
      (World.after .splicepump toPump) := by
  refine run_toPump.meeting fun act hact u _ => ?_
  simp only [toPump, toReply, replyWith, List.cons_append, List.nil_append, List.mem_cons,
    List.not_mem_nil, or_false] at hact
  rcases hact with rfl | rfl | rfl | rfl
  · exact meets_accept _
  all_goals exact meets_callback fun _ _ _ _ _ hev => absurd hev (by decide)

end Transocks

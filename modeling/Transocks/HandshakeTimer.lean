import Transocks.Lifetime
import Transocks.Clients

/-!
# The handshake timer

Every handshake callback deletes the timer first and then arms it again, starts the pump or releases
the client, as long as the timer calls succeed and libevent reports nothing but the events that the
callbacks look at. So a client that waits for its relay always has a running timer, a client that
pumps never has one, and the state of a client only moves forward (`handshake_timer`).
-/

namespace Transocks

open Runs

/-- How far `enum transocks_client_state` has got. -/
def ClientState.rank : ClientState → ℕ
  | .new => 0
  | .relayConnected => 1
  | .socks5FinishHandshake => 2
  | .pumpingData => 3
  | .destroying => 4
  | .destroyed => 5

def TimerCalls.work (t : TimerCalls) : Prop :=
  t.evtimerNew = true ∧ t.evtimerAssign = true ∧ t.evtimerAdd = true

/-- The timer calls of the callback succeed, and libevent reports `CONNECTED` or an error while the
client connects, end of file or an error afterwards. -/
def Conn.Expects (c : Conn) : Ev → Prop
  | .event _ w _ k => k.timer.work ∧
    (c.clientState = .new → w.connected = true ∨ w.error = true) ∧
    (c.clientState ≠ .new → w.eof = true ∨ w.error = true)
  | .read _ _ k => k.timer.work
  | _ => True

/-- A client that waits with its timer running, pumps without one, or is released. -/
inductive Timed (m : PumpMethod) (c : Conn) : Prop
  | waits (l : Leg) (a : SockAddr) (f : Side → ℕ) (b : Bufferevent) (h : AtLeg l a c f b)
      (ht : Armed c.timeoutEv)
  | copies (b : Side → Bufferevent) (hm : m = .bufferpump) (h : Serving c b)
  | splices (f : Side → ℕ) (p : Splicepump) (hm : m = .splicepump) (h : Splicing c f p)
  | gone (h : Inert c)

/-- A client that is not released has not moved back. -/
def Ahead (c c' : Conn) : Prop :=
  c'.released = false → c.released = false ∧ c.clientState.rank ≤ c'.clientState.rank

theorem Ahead.refl (c : Conn) : Ahead c c := fun h => ⟨h, le_rfl⟩

theorem Ahead.trans {c c' c'' : Conn} (h : Ahead c c') (h' : Ahead c' c'') : Ahead c c'' :=
  fun hl => ⟨(h (h' hl).1).1, (h (h' hl).1).2.trans (h' hl).2⟩

theorem Inert.ahead {c c' : Conn} (h : Inert c') : Ahead c c' := fun hl =>
  absurd (h.released.symm.trans hl) (by decide)

section Client

variable {m : PumpMethod} {l : Leg} {a : SockAddr} {c c' : Conn} {f : Side → ℕ} {b : Bufferevent}
  {ev : Ev}

theorem Leg.rank_le {l l' : Leg} (h : l.order ≤ l'.order) :
    l.clientState.rank ≤ l'.clientState.rank := by
  revert h
  cases l <;> cases l' <;> decide

theorem HandshakeMove.armed (hm : HandshakeMove m a c b ev c') (h : AtLeg l a c f b)
    (ht : Armed c.timeoutEv) (hok : c.Expects ev) (hlive : c'.released = false)
    (hst : c'.clientState ≠ .pumpingData) : Armed c'.timeoutEv := by
  obtain ⟨e, he, hadd⟩ := ht
  cases hm with
  | crashed _ hnone => exact absurd (he.symm.trans hnone) (by simp)
  | @refused _ b₂ hne hfd =>
    obtain ⟨b₁, h₁, -⟩ := h.heard ev
    have hrel := clientFree_released (c := (timerOff (heard c b ev)).setBev .relay (some b₂))
      h₁.live h₁.notFreed
    exact absurd (hrel.symm.trans hlive) (by decide)
  | @ignored w _ _ hne hw =>
    -- the callback would return with the timer deleted
    have hbits := hok.2
    rcases hw with ⟨hcb, h₁, h₂⟩ | ⟨hcb, h₁, h₂⟩
    · have hnew : c.clientState = .new := by
        rw [h.state]
        cases l with
        | connect => rfl
        | method => exact absurd (h.onEvent.symm.trans hcb) (by decide)
        | reply => exact absurd (h.onEvent.symm.trans hcb) (by decide)
      rcases hbits.1 hnew with hc | hc
      · exact absurd (h₁.symm.trans hc) (by decide)
      · exact absurd (h₂.symm.trans hc) (by decide)
    · have hnew : c.clientState ≠ .new := by
        rw [h.state]
        cases l with
        | connect => exact absurd (h.onEvent.symm.trans hcb) (by decide)
        | method => decide
        | reply => decide
      rcases hbits.2 hnew with hc | hc
      · exact absurd (h₁.symm.trans hc) (by decide)
      · exact absurd (h₂.symm.trans hc) (by decide)
  | connected hne hcb => exact ⟨_, rfl, by simp [hok.1.2.1, hok.1.2.2]⟩
  | short hs => exact ⟨e, he, hadd⟩
  | selected hne hcb hin hreq => exact ⟨_, rfl, by simp [hok.2.1, hok.2.2]⟩
  | @started bs k n hne hcb hlen hn =>
    rcases h.afterStart_done (m := m) bs n k with hrel | hp
    · exact absurd (hrel.symm.trans hlive) (by decide)
    · exact absurd hp hst
  | flushed => exact ⟨e, he, hadd⟩
  | idle => exact ⟨e, he, hadd⟩

theorem Serving.inert_free {b : Side → Bufferevent} (h : Serving c b) :
    Inert (bufferpumpFree c) := by
  rw [h.toRelaying.bufferpumpFree_eq, clientFree_eq (by exact h.live) (by
    show c.clientState ≠ .destroyed ∧ c.clientState ≠ .destroying
    rw [h.state]
    decide)]
  exact ⟨rfl, fun _ => rfl, rfl, fun p hp => absurd (h.noPump.symm.trans hp) (by simp)⟩

/-- **One callback** keeps the timer as it should be and moves no client back. -/
theorem Timed.step (h : Timed m c) (hen : c.Enabled ev) (hok : c.Expects ev) :
    Timed m (c.step m ev) ∧ Ahead c (c.step m ev) := by
  cases h with
  | waits l a f b h ht =>
    have hm := h.toHandshaking.move (m := m) h.dest hen
    rcases hm.outcome h with ⟨l', b', h', hl, -⟩ | ⟨bs, n, k, -, rfl, -, -, hst⟩ | ⟨hi, -, -⟩
    · have hne : (c.step m ev).clientState ≠ .pumpingData := by
        rw [h'.state]
        cases l' <;> decide
      refine ⟨.waits l' a f b' h' (hm.armed h ht hok h'.live hne), fun _ => ⟨h.live, ?_⟩⟩
      rw [h.state, h'.state]
      exact Leg.rank_le hl
    · have hrank : c.clientState.rank ≤ ClientState.pumpingData.rank := by
        rw [h.state]
        decide
      rcases h.started hst with ⟨rfl, b', hserv⟩ | ⟨rfl, p, hp⟩
      · exact ⟨.copies b' rfl hserv, fun _ => ⟨h.live, by rw [hserv.state]; exact hrank⟩⟩
      · exact ⟨.splices f p rfl hp, fun _ => ⟨h.live, by rw [hp.pumping]; exact hrank⟩⟩
    · exact ⟨.gone hi, hi.ahead⟩
  | copies b hm h =>
    subst hm
    obtain ⟨c₂, b₂, h₂, -, hc⟩ := h.turn (t := .callback ev) ⟨h.live, hen, rfl⟩
    have hc' : c.step .bufferpump ev = c₂ ∨ c.step .bufferpump ev = bufferpumpFree c₂ := hc
    rcases hc' with heq | heq
    · rw [heq]
      exact ⟨.copies b₂ rfl h₂, fun _ => ⟨h.live, by rw [h.state, h₂.state]⟩⟩
    · rw [heq]
      exact ⟨.gone h₂.inert_free, h₂.inert_free.ahead⟩
  | splices f p hm h =>
    subst hm
    rcases h.splice_cases (h.enabled hen) with ⟨p', h'⟩ | hi
    · exact ⟨.splices f p' rfl h', fun _ => ⟨h.live, by rw [h.pumping, h'.pumping]⟩⟩
    · exact ⟨.gone hi, hi.ahead⟩
  | gone h => exact absurd hen (h.not_enabled ev)

theorem Timed.drop (h : Timed m c) : Timed m (pumpFree m c) ∧ Ahead c (pumpFree m c) := by
  have hgone : ∀ {c'}, Inert c' → Timed m c' ∧ Ahead c c' := fun hi => ⟨.gone hi, hi.ahead⟩
  cases h with
  | waits l a f b h ht =>
    cases m with
    | splicepump =>
      rw [h.toHandshaking.drop.1]
      exact ⟨.waits l a f b h ht, .refl c⟩
    | bufferpump =>
      rw [h.toHandshaking.drop.2]
      refine hgone (((h.toAttached.disable .client).disable .relay).clientFree fun p hp => ?_).1
      exact absurd (h.noPump.symm.trans hp) (by simp)
  | copies b hm h =>
    subst hm
    exact hgone h.inert_free
  | splices f p hm h =>
    subst hm
    exact hgone (h.toAttached.splicepumpFree h.pump).1
  | gone h =>
    have heq : pumpFree m c = c.emits [.useAfterFree] := by
      cases m with
      | splicepump => exact if_pos h.released
      | bufferpump => exact if_pos h.released
    rw [heq]
    exact hgone (h.rewrite _)

theorem Timed.rewrite (h : Timed m c) (es : List Effect) : Timed m { c with out := es } := by
  cases h with
  | waits l a f b h ht =>
    refine .waits l a f b ⟨⟨h.toAttached.rewrite es, h.noPump, h.shutRead, h.shutWrite, h.client,
      h.relay, h.relayFd, h.writecb, h.readcb, h.eventcb⟩, h.state, h.onEvent, h.onRead, h.reads,
      h.high, h.dest, h.sent, h.got, h.clientRx, h.pipes⟩ ht
  | copies b hm h =>
    exact .copies b hm ⟨⟨h.live, h.state, h.bev, h.readLow, h.cbs⟩, h.noPump, h.timer⟩
  | splices f p hm h =>
    exact .splices f p hm ⟨h.toAttached.rewrite es, h.pumping, h.pump, h.timer, h.pipefd,
      h.unfinished⟩
  | gone h => exact .gone (h.rewrite es)

/-- An accept whose timer calls succeed leaves a waiting client with its timer running. -/
theorem timed_accepted {k : AcceptCalls} (hk : k.timer.work) (hcb : (listenerCb k).1 = some c) :
    Timed m c := by
  rcases listenerCb_cases hcb with hi | ⟨n, r, a, -, -, -, rfl⟩
  · exact .gone hi
  · refine .waits .connect a _ _ (atLeg_waitingConn k n r a) ⟨⟨true, false⟩, ?_, rfl⟩
    rw [waitingConn_timeoutEv, if_pos hk.1, hk.2.2]

end Client

/-! ## All clients -/

def Expected (w : World) : Act → Prop
  | .accept k => k.timer.work
  | .callback i ev => ∀ c, w.conns i = some c → c.Expects ev
  | _ => True

section Run

variable {m : PumpMethod} {n : ℕ} {w w' : World} {acts acts' : List Act} {act : Act}

/-- One step of the event loop. -/
theorem timed_step (h : w.Each (Timed m)) (hs : Meeting (World.Step m) Expected w act w') :
    w'.Each (Timed m) ∧ w.Onward Ahead w' := by
  obtain ⟨hok, hs⟩ := hs
  refine hs.each Ahead.refl (fun _ _ _ => Ahead.trans) ?_ ?_ ?_ h
  · rintro k c rfl hcb
    exact (timed_accepted hok hcb).rewrite []
  · rintro i c ev rfl hc ht hen
    obtain ⟨ht', hahead⟩ := ht.step hen (hok c hc)
    exact ⟨ht'.rewrite [], hahead⟩
  · intro c ht
    obtain ⟨ht', hahead⟩ := ht.drop
    exact ⟨ht'.rewrite [], hahead⟩

theorem timed_run (h : w.Each (Timed m)) (hrun : Run (Meeting (World.Step m) Expected) w acts w') :
    w'.Each (Timed m) ∧ w.Onward Ahead w' := by
  induction hrun with
  | nil => exact ⟨h, fun i c hc => ⟨c, hc, .refl c⟩⟩
  | snoc _ hs ih =>
    obtain ⟨hu, hon⟩ := ih
    obtain ⟨hv, hon'⟩ := timed_step hu hs
    refine ⟨hv, fun i c hc => ?_⟩
    obtain ⟨c', hc', hR⟩ := hon i c hc
    obtain ⟨c'', hc'', hR'⟩ := hon' i c' hc'
    exact ⟨c'', hc'', hR.trans hR'⟩

/-- **The handshake timer.** Between callbacks a client that is not released waits for its relay
with the timer running, or pumps without one; the state in between is never seen. Its state never
moves back, and the timer never fires for a client that pumps. -/
theorem handshake_timer (hrun : Run (Meeting (World.Step m) Expected) (World.init n) acts w) :
    (∀ i c, w.conns i = some c → c.released = false →
      (((c.clientState = .new ∨ c.clientState = .relayConnected) ∧ Armed c.timeoutEv) ∨
          (c.clientState = .pumpingData ∧ ¬ Armed c.timeoutEv)) ∧
        c.clientState ≠ .socks5FinishHandshake ∧
        (c.clientState = .pumpingData → ¬ c.Enabled .timeout)) ∧
      ∀ acts' w' i c c', Run (Meeting (World.Step m) Expected) w acts' w' →
        w.conns i = some c → w'.conns i = some c' → c'.released = false →
          c.clientState.rank ≤ c'.clientState.rank := by
  have heach : w.Each (Timed m) := (timed_run (World.each_init _ n) hrun).1
  constructor
  · intro i c hc hl
    have hpump : c.clientState = .pumpingData → ¬ Armed c.timeoutEv →
        (((c.clientState = .new ∨ c.clientState = .relayConnected) ∧ Armed c.timeoutEv) ∨
            (c.clientState = .pumpingData ∧ ¬ Armed c.timeoutEv)) ∧
          c.clientState ≠ .socks5FinishHandshake ∧
          (c.clientState = .pumpingData → ¬ c.Enabled .timeout) := fun hst ht =>
      ⟨.inr ⟨hst, ht⟩, by rw [hst]; decide, fun _ => ht⟩
    cases heach.client i c hc with
    | waits l a f b h ht =>
      have hst := h.state
      cases l with
      | connect => exact ⟨.inl ⟨.inl hst, ht⟩, by rw [hst]; decide, by rw [hst]; rintro ⟨⟩⟩
      | method => exact ⟨.inl ⟨.inr hst, ht⟩, by rw [hst]; decide, by rw [hst]; rintro ⟨⟩⟩
      | reply => exact ⟨.inl ⟨.inr hst, ht⟩, by rw [hst]; decide, by rw [hst]; rintro ⟨⟩⟩
    | copies b hm h =>
      exact hpump h.state fun ⟨e, he, hadd⟩ => absurd ((h.timer e he).symm.trans hadd) (by decide)
    | splices f p hm h =>
      exact hpump h.pumping fun ⟨e, he, hadd⟩ => absurd ((h.timer e he).symm.trans hadd) (by decide)
    | gone h => exact absurd (h.released.symm.trans hl) (by decide)
  · intro acts' w' i c c' hrun' hc hc' hl
    obtain ⟨c'', hc'', hahead⟩ := (timed_run heach hrun').2 i c hc
    obtain rfl := Option.some.inj (hc'.symm.trans hc'')
    exact (hahead hl).2

end Run

theorem run_expected_toPump :
    Run (Meeting (World.Step .splicepump) Expected) (World.init 3) toPump
      (World.after .splicepump toPump) := by
  refine Run.foldl ⟨⟨?_, .accept rfl ⟨rfl, rfl, trivial⟩⟩,
    ⟨?_, .callback rfl rfl ⟨_, rfl, by decide, by decide, rfl⟩ trivial⟩,
    ⟨?_, .callback rfl rfl ⟨_, rfl, by decide, rfl⟩ trivial⟩,
    ⟨?_, .callback rfl rfl ⟨_, rfl, by decide, rfl⟩ ⟨rfl, rfl, rfl, rfl, trivial⟩⟩, trivial⟩
  · exact ⟨rfl, rfl, rfl⟩
  · rintro c ⟨⟩
    exact ⟨⟨rfl, rfl, rfl⟩, fun _ => .inl rfl, fun h => absurd rfl h⟩
  · rintro c ⟨⟩
    exact ⟨rfl, rfl, rfl⟩
  · rintro c ⟨⟩
    exact ⟨rfl, rfl, rfl⟩

theorem handshake_timer_toPump :
    ∃ c, (World.after .splicepump toPump).conns 0 = some c ∧ c.clientState = .pumpingData ∧
      ¬ c.Enabled .timeout :=
  ⟨_, rfl, rfl, ((handshake_timer run_expected_toPump).1 0 _ rfl rfl).2.2 rfl⟩

end Transocks

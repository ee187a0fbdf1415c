import Transocks.Lifetime

/-!
# How much the buffer pump holds

`transocks_bufferpump_start_pump` sets `TRANSOCKS_BUFSIZE` as the high watermark for reading and for
writing. libevent stops reading a socket at the first, but an output buffer takes whatever it is
given, and the read callbacks move the whole input of one side to the output of the other. So the
four buffers stay within `TRANSOCKS_BUFSIZE` exactly when every read fits into what is left of the
output buffer it is moved to (`buffers_bounded_iff`).
-/

namespace Transocks

open Runs

/-- libevent reads no more than there is room for below the high watermark of the input buffer. -/
def ReadLimit (c : Conn) : Turn → Prop
  | .callback (.read s bs _) => ∀ b, (c.ends s).bev = some b → b.readHigh ≠ 0 →
    b.input.length + bs.length ≤ b.readHigh
  | _ => True

def LimitedStep : Conn → Turn → Conn → Prop := Meeting (LifeStep .bufferpump) ReadLimit

/-- Each of the four buffers holds at most `TRANSOCKS_BUFSIZE` bytes. -/
def Bounded (c : Conn) : Prop :=
  ∀ s, (c.input s).length ≤ bufsize ∧ (c.output s).length ≤ bufsize

/-- What a read of the pump moves to the output buffer of the other side fits there. -/
def Fits (c : Conn) : Turn → Prop
  | .callback (.read s bs _) => c.clientState = .pumpingData →
    (c.output s.other).length + (c.input s).length + bs.length ≤ bufsize
  | _ => True

/-- A client whose buffers are bounded, in its handshake, with the pump or released. -/
inductive Holding (c : Conn) : Prop
  | waits (l : Leg) (a : SockAddr) (f : Side → ℕ) (b : Bufferevent) (h : AtLeg l a c f b)
      (hin : b.input.length ≤ bufsize)
  | serves (b : Side → Bufferevent) (h : Serving c b)
      (hb : ∀ s, (b s).input.length ≤ bufsize ∧ (b s).output.length ≤ bufsize)
  | gone (hr : c.released = true) (hb : ∀ s, (c.ends s).bev = none)

section Bounds

variable {l : Leg} {a : SockAddr} {c c' : Conn} {f : Side → ℕ} {b : Bufferevent} {t : Turn}

/-- The handshake sends at most 25 bytes. -/
theorem Leg.sent_length_le (l : Leg) (a : SockAddr) : (l.sent a).length ≤ 25 := by
  have hreq : ((connectRequest a).getD []).length ≤ 22 := by
    cases a with
    | inet addr port => simp [connectRequest]
    | inet6 addr port => simp [connectRequest]
    | other family => simp [connectRequest]
  cases l with
  | connect => simp [Leg.sent]
  | method => simp [Leg.sent, methodSelectRequest]
  | reply =>
    have hlen : (Leg.reply.sent a).length = 3 + ((connectRequest a).getD []).length := by
      simp [Leg.sent, methodSelectRequest]
      omega
    omega

theorem AtLeg.output_length_le (h : AtLeg l a c f b) : b.output.length ≤ bufsize := by
  have hsent := Leg.sent_length_le l a
  rw [← h.sent, List.length_append] at hsent
  unfold bufsize
  omega

theorem Holding.bounded (h : Holding c) : Bounded c := by
  cases h with
  | waits l a f b h hin =>
    intro s
    unfold Conn.input Conn.output
    cases s with
    | client =>
      rw [h.client]
      exact ⟨Nat.zero_le _, Nat.zero_le _⟩
    | relay =>
      rw [h.relay]
      exact ⟨hin, h.output_length_le⟩
  | serves b h hb =>
    intro s
    rw [h.toRelaying.input_eq, h.toRelaying.output_eq]
    exact hb s
  | gone hr hb =>
    intro s
    unfold Conn.input Conn.output
    rw [hb]
    exact ⟨Nat.zero_le _, Nat.zero_le _⟩

/-- During the handshake the read watermark bounds the relay's input buffer. -/
theorem AtLeg.input_limit (h : AtLeg l a c f b) (hin : b.input.length ≤ bufsize)
    (hpos : t.Possible c) (hlim : ReadLimit c t) :
    (b.input ++ t.arrived .relay).length ≤ bufsize := by
  have hnone : ∀ {bs : List Byte}, bs = [] → (b.input ++ bs).length ≤ bufsize := by
    rintro _ rfl
    simpa using hin
  cases t with
  | drop => exact hnone rfl
  | callback ev =>
    cases ev with
    | read s bs k =>
      cases s with
      | client => exact hnone (by simp [Turn.arrived])
      | relay =>
        obtain ⟨b', hb', -, hen⟩ := hpos
        obtain rfl := Option.some.inj (h.relay.symm.trans hb')
        have hhigh := h.high hen
        have hle := hlim b h.relay (by rw [hhigh]; decide)
        rw [hhigh] at hle
        simpa [Turn.arrived] using hle
    | _ => exact hnone rfl

theorem CopyMove.bounded {b b₂ : Side → Bufferevent} {ev : Ev} (hm : CopyMove c b ev c' b₂)
    (h : Relaying c b) (hb : ∀ s, (b s).input.length ≤ bufsize ∧ (b s).output.length ≤ bufsize)
    (hfit : Fits c (.callback ev)) (t : Side) :
    (b₂ t).input.length ≤ bufsize ∧ (b₂ t).output.length ≤ bufsize := by
  cases hm with
  | @read s bs k he =>
    have hle := hfit h.state
    rw [h.input_eq, h.output_eq] at hle
    rcases Side.eq_or_eq_other s t with rfl | rfl
    · rw [pumpedBev_same]
      exact ⟨Nat.zero_le _, (hb t).2⟩
    · rw [pumpedBev_other]
      refine ⟨(hb s.other).1, ?_⟩
      simp only [List.length_append]
      omega
  | @wrote s n hw =>
    rcases Side.eq_or_eq_other s t with rfl | rfl
    · rw [flushedBev_same]
      exact ⟨(hb t).1, (List.drop_sublist ..).length_le.trans (hb t).2⟩
    · rw [flushedBev_other]
      exact hb _
  | @drained s n ho hr =>
    rcases Side.eq_or_eq_other s t with rfl | rfl
    · rw [flushedBev_same]
      exact ⟨(hb t).1, (List.drop_sublist ..).length_le.trans (hb t).2⟩
    · rw [flushedBev_other]
      exact hb _
  | eof hw ho =>
    rw [eofBev_input, eofBev_output]
    exact hb t
  | eofDrained hw ho =>
    rw [eofBev_input, eofBev_output]
    exact hb t
  | @writeEof s w e k hr hw =>
    rcases Side.eq_or_eq_other s t with rfl | rfl
    · rw [writeEofBev_same]
      exact hb t
    · rw [writeEofBev_other]
      exact hb _
  | ignored hr => exact hb t

end Bounds

/-! ## Steps and runs -/

section Run

variable {c₀ c c' : Conn} {t : Turn} {ts : List Turn} {k : AcceptCalls}

theorem Relaying.gone {b : Side → Bufferevent} (h : Relaying c b) :
    Holding (Transocks.bufferpumpFree c) := by
  obtain ⟨hr, -, hends⟩ := h.bufferpumpFree
  exact .gone hr fun s => by rw [hends]; rfl

theorem Holding.turn (h : Holding c) (hs : LimitedStep c t c') (hfit : Fits c t) : Holding c' := by
  obtain ⟨hlim, hs⟩ := hs
  cases h with
  | waits l a f b h hin =>
    have hlimit := h.input_limit hin hs.2.1 hlim
    rcases h.turn hs with ⟨l', b', h', -, hin'⟩ | ⟨bs, n, k, rfl, rfl, -, -, hst⟩ | ⟨hi, -, -⟩
    · refine .waits l' a f b' h' ?_
      rcases hin' with he | he
      · rw [he]
        exact Nat.zero_le _
      · rw [he]
        exact hlimit
    · have h₀ := h.atStart bs n k
      obtain ⟨-, hserv⟩ := h₀.serving_start (atStart_timer c b bs n k) hst
      refine .serves _ hserv fun s => ?_
      cases s with
      | client => exact ⟨Nat.zero_le _, Nat.zero_le _⟩
      | relay =>
        refine ⟨?_, ?_⟩
        · show (repliedBev { b with input := b.input ++ bs } n k).input.length ≤ bufsize
          rw [repliedBev_input]
          exact (List.drop_sublist ..).length_le.trans (by simpa [Turn.arrived] using hlimit)
        · show (repliedBev { b with input := b.input ++ bs } n k).output.length ≤ bufsize
          rw [repliedBev_output]
          exact h.output_length_le
    · exact .gone hi.released hi.bev
  | serves b h hb =>
    obtain ⟨c₂, b₂, h₂, hmove, hc⟩ := h.turn hs
    have hb₂ : ∀ s, (b₂ s).input.length ≤ bufsize ∧ (b₂ s).output.length ≤ bufsize := by
      rcases hmove with ⟨ev, rfl, hm⟩ | ⟨rfl, rfl⟩
      · exact hm.bounded h.toRelaying hb hfit
      · exact hb
    rcases hc with rfl | rfl
    · exact .serves b₂ h₂ hb₂
    · exact h₂.toRelaying.gone
  | gone hr hb => exact absurd (hr.symm.trans hs.1) (by decide)

/-- A read that does not fit overfills an output buffer. -/
theorem Holding.overfilled (h : Holding c) (hs : LimitedStep c t c') (hfit : ¬ Fits c t) :
    ¬ Bounded c' := by
  obtain ⟨-, hlive, -, rfl⟩ := hs
  cases t with
  | drop => exact absurd trivial hfit
  | callback ev =>
    cases ev with
    | read s bs k =>
      obtain ⟨hst, hgt⟩ := Classical.not_imp.mp hfit
      cases h with
      | waits l a f b h hin =>
        have hne : l.clientState ≠ .pumpingData := by cases l <;> decide
        exact absurd (h.state.symm.trans hst) hne
      | serves b h hb =>
        intro hbound
        have hle := (hbound s.other).2
        have heq : c.turn .bufferpump (.callback (.read s bs k)) = pumped c b s bs :=
          step_read h.toRelaying bs k
        rw [h.toRelaying.input_eq, h.toRelaying.output_eq] at hgt
        rw [heq] at hle
        simp only [Conn.output, pumped_other, Option.map_some, Option.getD_some,
          List.length_append] at hle
        omega
      | gone hr hb => exact absurd (hr.symm.trans hlive) (by decide)
    | _ => exact absurd trivial hfit

theorem limitedStep_unique (c : Conn) (t : Turn) (u v : Conn) (hu : LimitedStep c t u)
    (hv : LimitedStep c t v) : u = v := hu.2.2.2.trans hv.2.2.2.symm

theorem holding_accepted (hcb : (listenerCb k).1 = some c₀) (hl : c₀.released = false) :
    Holding c₀ := by
  obtain ⟨n, r, a, -, -, -, rfl⟩ := listenerCb_live hcb hl
  exact .waits .connect a _ _ (atLeg_waitingConn k n r a) (Nat.zero_le _)

/-- **The four buffers are bounded exactly when every read fits.** In a run from the accept on,
every state on the way has at most `TRANSOCKS_BUFSIZE` bytes in each of the four buffers if and only
if whatever the pump reads from one side, with what is already in that side's input buffer, fits
into what is left of the other side's output buffer. -/
theorem buffers_bounded_iff (hcb : (listenerCb k).1 = some c₀) (hl : c₀.released = false)
    (hrun : Run LimitedStep c₀ ts c) :
    (∀ us vs u, ts = us ++ vs → Run LimitedStep c₀ us u → Bounded u) ↔
      Run (Meeting LimitedStep Fits) c₀ ts c :=
  hrun.always_iff limitedStep_unique (holding_accepted hcb hl) (fun _ h => h.bounded)
    (fun _ _ _ h hs hfit => h.turn hs hfit) fun _ _ _ h hs hfit => h.overfilled hs hfit

end Run

/-! ## A peer that takes nothing -/

/-- The accepted client when the buffer pump has just started. -/
def relayedConn : Conn := handshakeTurns.foldl (Conn.turn .bufferpump) acceptedConn

def relayedBev (s : Side) : Bufferevent := ((relayedConn.ends s).bev).getD (Bufferevent.new 0)

theorem relaying_relayedConn : Relaying relayedConn relayedBev :=
  ⟨rfl, rfl, fun s => by cases s <;> rfl, fun s => by cases s <;> rfl,
    fun s => by cases s <;> exact ⟨rfl, rfl, rfl⟩⟩

theorem run_handshakeTurns :
    Run (Meeting LimitedStep Fits) acceptedConn handshakeTurns relayedConn := by
  refine Run.foldl ⟨?_, ?_, ?_, ?_, ?_, trivial⟩
  · exact ⟨trivial, trivial, rfl, ⟨_, rfl, by decide, .inr rfl, rfl⟩, rfl⟩
  · exact ⟨trivial, trivial, rfl, ⟨_, rfl, by decide, rfl⟩, rfl⟩
  · refine ⟨fun h => (by cases h), ?_, rfl, ⟨_, rfl, by decide, rfl⟩, rfl⟩
    rintro b ⟨⟩ -
    decide
  · exact ⟨trivial, trivial, rfl, ⟨_, rfl, by decide, rfl⟩, rfl⟩
  · refine ⟨fun h => (by cases h), ?_, rfl, ⟨_, rfl, by decide, rfl⟩, rfl⟩
    rintro b ⟨⟩ -
    decide

/-- The client's socket was readable. -/
def Turn.clientRead (bs : List Byte) : Turn := .callback (.read .client bs HandshakeCalls.ok)

theorem run_clientRead : Run (Meeting LimitedStep Fits) acceptedConn
    (handshakeTurns ++ [.clientRead [0x61]])
    (relayedConn.turn .bufferpump (.clientRead [0x61])) := by
  refine run_handshakeTurns.snoc ⟨fun _ => by decide, ?_, rfl, ⟨_, rfl, by decide, rfl⟩, rfl⟩
  rintro b ⟨⟩ -
  decide

theorem buffers_bounded_clientRead :
    Bounded (relayedConn.turn .bufferpump (.clientRead [0x61])) :=
  (buffers_bounded_iff (k := AcceptCalls.ok) rfl rfl
    (run_clientRead.mono fun _ _ _ h => h.2)).mpr run_clientRead _ [] _
    (List.append_nil _).symm (run_clientRead.mono fun _ _ _ h => h.2)

def fullRead : List Byte := List.replicate bufsize 0

/-- The client after one full read and one more byte, with nothing written to the relay. -/
def overfilledConn : Conn :=
  (relayedConn.turn .bufferpump (.clientRead fullRead)).turn .bufferpump (.clientRead [0x61])

theorem turn_clientRead {c : Conn} {b : Side → Bufferevent} (h : Relaying c b) (bs : List Byte) :
    c.turn .bufferpump (.clientRead bs) = pumped c b .client bs := step_read h bs _

theorem limitedStep_clientRead {c : Conn} {b : Side → Bufferevent} (h : Relaying c b)
    (hin : (b .client).input = []) (hhigh : (b .client).readHigh = bufsize)
    (hfd : 0 ≤ (b .client).fd) (hen : (b .client).enRead = true) {bs : List Byte}
    (hlen : bs.length ≤ bufsize) :
    LimitedStep c (.clientRead bs) (c.turn .bufferpump (.clientRead bs)) := by
  refine ⟨?_, h.live, ⟨_, h.bev .client, hfd, hen⟩, rfl⟩
  intro b' hb' _
  obtain rfl := Option.some.inj ((h.bev .client).symm.trans hb')
  rw [hin, hhigh]
  simpa using hlen

/-- The client sends one byte more than `TRANSOCKS_BUFSIZE` while the relay takes nothing. -/
theorem slow_relay_overfills :
    (listenerCb AcceptCalls.ok).1 = some acceptedConn ∧ acceptedConn.released = false ∧
      Run LimitedStep acceptedConn
        (handshakeTurns ++ [.clientRead fullRead] ++ [.clientRead [0x61]]) overfilledConn ∧
      ¬ Bounded overfilledConn := by
  have hlen : fullRead.length = bufsize := List.length_replicate
  have h₁ := relaying_relayedConn
  have h₂ : Relaying (pumped relayedConn relayedBev .client fullRead)
      (pumpedBev relayedBev .client fullRead) :=
    (CopyMove.read (k := HandshakeCalls.ok) rfl).relaying h₁
  have hout : (overfilledConn.output .relay).length = bufsize + 1 := by
    have hempty : (relayedBev .relay).output = [] ∧ (relayedBev .client).input = [] := ⟨rfl, rfl⟩
    unfold overfilledConn
    rw [turn_clientRead h₁, turn_clientRead h₂, Conn.output,
      show Side.relay = Side.client.other from rfl, pumped_other, pumpedBev_other, pumpedBev_same]
    simp [Side.other, hempty.1, hempty.2, hlen]
  refine ⟨rfl, rfl, ?_, fun hb => ?_⟩
  · have hs₁ := limitedStep_clientRead h₁ rfl rfl (by decide) rfl hlen.le
    have hone : ([0x61] : List Byte).length ≤ bufsize := by decide
    have hs₂ := limitedStep_clientRead h₂ rfl rfl (by decide) rfl hone
    rw [← turn_clientRead h₁] at hs₂
    exact ((run_handshakeTurns.mono fun _ _ _ h => h.2).snoc hs₁).snoc hs₂
  · have hle := (hb .relay).2
    omega

end Transocks

import Transocks.AcceptSteps
import Transocks.Handover
import Transocks.Lib.Run
import Transocks.Lib.Watermark

/-!
# The two reply parsers against the relay's byte stream

The relay sends the bytes `M` before it has the connect request and the bytes `R` after that. A
`Session` is a client together with the bytes of both that are still to be read; a step is one read
of the relay's socket, of any size.

`stage_run` follows a session from the method selection on: the two read callbacks see exactly what
`collect` gives them, and the pump starts when the second of them finds a success header. The
length of the reply is not checked against the buffer, and bytes of `M` behind the selected
method are taken for the reply when they arrive late, so the handshake is exact only for the cuts of
`SafeCut`.
-/

namespace Transocks

open Runs Watermark

/-! ## The success reply -/

/-- The header of a success reply of `n` bytes. -/
def ReplyHeader (n : ℕ) (bs : List Byte) : Prop :=
  (∃ rsv rest, bs = 0x05 :: 0x00 :: rsv :: 0x01 :: rest ∧ n = 10) ∨
    ∃ rsv rest, bs = 0x05 :: 0x00 :: rsv :: 0x04 :: rest ∧ n = 22

def SuccessReply (bs : List Byte) : Prop := ReplyHeader bs.length bs

/-- The answer that selects `NOAUTH`. -/
def methodReply : List Byte := [0x05, 0x00]

/-- What `transocks_start_pump` found in the relay's input buffer when it was first called. -/
def pumpStarted (es : List Effect) : Option (List Byte) :=
  es.findSome? fun
    | .startPump left => some left
    | _ => none

section Spec

variable {bs cs : List Byte} {n : ℕ}

/-- The parser accepts the headers of success replies. -/
theorem connectReplyLen_iff : connectReplyLen bs = some n ↔ ReplyHeader n bs := by
  constructor
  · intro h
    unfold connectReplyLen at h
    split at h
    · rename_i ver rep rsv atyp rest
      split_ifs at h with hv hr h4 h6
      · rw [not_not] at hv hr
        exact .inl ⟨rsv, rest, by rw [hv, hr, h4]; rfl, (Option.some.inj h).symm⟩
      · rw [not_not] at hv hr
        exact .inr ⟨rsv, rest, by rw [hv, hr, h6]; rfl, (Option.some.inj h).symm⟩
    · cases h
  · rintro (⟨rsv, rest, rfl, rfl⟩ | ⟨rsv, rest, rfl, rfl⟩) <;> rfl

theorem ReplyHeader.cases (h : ReplyHeader n bs) : n = 10 ∨ n = 22 := by
  rcases h with ⟨-, -, -, rfl⟩ | ⟨-, -, -, rfl⟩
  · exact .inl rfl
  · exact .inr rfl

/-- A header is recognised by the first bytes. -/
theorem ReplyHeader.shorten (h : ReplyHeader n bs) (hp : cs <+: bs) (hlen : 10 ≤ cs.length) :
    ReplyHeader n cs := by
  obtain ⟨t, rfl⟩ := hp
  rw [← connectReplyLen_iff] at h ⊢
  rw [← h, connectReplyLen_append (by omega)]

theorem ReplyHeader.append (h : ReplyHeader n bs) (cs : List Byte) : ReplyHeader n (bs ++ cs) := by
  rcases h with ⟨rsv, rest, rfl, hn⟩ | ⟨rsv, rest, rfl, hn⟩
  · exact .inl ⟨rsv, rest ++ cs, rfl, hn⟩
  · exact .inr ⟨rsv, rest ++ cs, rfl, hn⟩

theorem pumpStarted_append (es es' : List Effect) :
    pumpStarted (es ++ es') = (pumpStarted es).or (pumpStarted es') := List.findSome?_append

end Spec

/-! ## One client -/

/-- A client that waits with the read callback `cb` at the low watermark `low`, and has `input` in
the relay's buffer. -/
structure Awaiting (c : Conn) (f : Side → ℕ) (cb : ReadCb) (low : ℕ) (input : List Byte)
    (b : Bufferevent) : Prop extends Handshaking c f b where
  cb : b.readcb = some cb
  low : b.readLow = low
  input : b.input = input
  enabled : b.enRead = true
  timer : ∃ ev, c.timeoutEv = some ev
  dest : ∃ a req, c.destAddr = some a ∧ connectRequest a = some req
  before : pumpStarted c.notes = none

section Client

variable {m : PumpMethod} {c : Conn} {f : Side → ℕ} {cb : ReadCb} {low : ℕ} {input bs : List Byte}
  {b : Bufferevent} {k : HandshakeCalls}

theorem Awaiting.canRead (h : Awaiting c f cb low input b) (bs : List Byte) (k : HandshakeCalls) :
    c.Enabled (.read .relay bs k) := by
  refine ⟨b, h.relay, ?_, h.enabled⟩
  rw [h.relayFd]
  exact Int.natCast_nonneg _

theorem Awaiting.received (h : Awaiting c f cb low input b) (bs : List Byte) :
    Awaiting (c.received .relay b bs) f cb low (input ++ bs) { b with input := b.input ++ bs } :=
  ⟨h.toHandshaking.received bs, h.cb, h.low, by simp [h.input], h.enabled, h.timer, h.dest,
    h.before⟩

theorem Awaiting.step_short (h : Awaiting c f cb low input b) (hlen : (input ++ bs).length < low) :
    Awaiting (c.step m (.read .relay bs k)) f cb low (input ++ bs)
      { b with input := b.input ++ bs } := by
  have hstep : c.step m (.read .relay bs k) = c.received .relay b bs := by
    simp only [Conn.step, h.relay, h.input, h.low, if_pos hlen]
  rw [hstep]
  exact h.received bs

theorem Awaiting.step_runs (h : Awaiting c f cb low input b) (hlen : ¬ (input ++ bs).length < low) :
    c.step m (.read .relay bs k) = (c.received .relay b bs).runReadcb m .relay k cb := by
  simp only [Conn.step, h.relay, h.input, h.low, if_neg hlen, h.cb]

theorem Handshaking.refuses (h : Handshaking c f b) (hn : pumpStarted c.notes = none) :
    Inert (clientFree c) ∧ pumpStarted (clientFree c).notes = none := by
  obtain ⟨hi, hnotes⟩ := h.toAttached.clientFree
    fun p hp => absurd (h.noPump.symm.trans hp) (by simp)
  refine ⟨hi, ?_⟩
  rw [hnotes, pumpStarted_append, hn]
  rfl

theorem Awaiting.setTimer (h : Awaiting c f cb low input b) (ev : Event) :
    Awaiting { c with timeoutEv := some ev } f cb low input b :=
  ⟨h.toHandshaking.setTimer _, h.cb, h.low, h.input, h.enabled, ⟨ev, rfl⟩, h.dest, h.before⟩

theorem clientSetTimeout_again (hl : c.released = false) {ev : Event} (hev : c.timeoutEv = some ev)
    (t : TimerCalls) : clientSetTimeout c t =
      { c with timeoutEv := some ⟨t.evtimerAssign && t.evtimerAdd, false⟩ } := by
  unfold clientSetTimeout
  rw [Conn.touch_live hl]
  simp only [hev]

theorem Awaiting.sendConnectRequest (h : Awaiting c f cb low [] b) (hm : k.malloc = true) :
    ∃ b', Awaiting (socksSendConnectRequest c k) f .connectReply 10 [] b' := by
  obtain ⟨a, req, ha, hreq⟩ := h.dest
  obtain ⟨ev, hev⟩ := h.timer
  have hw := h.toHandshaking.await req 10 .connectReply (by decide)
  unfold socksSendConnectRequest
  rw [Conn.touch_live h.live]
  simp only [h.relay, ha, hreq, hm, Bool.not_true, Bool.false_eq_true, if_false]
  rw [clientSetTimeout_again hw.live hev]
  exact ⟨_, hw.setTimer _, rfl, rfl, h.input, rfl, ⟨_, rfl⟩, ⟨a, req, ha, hreq⟩, h.before⟩

/-- **The method selection.** The client goes on exactly when the buffer holds `05 00` and nothing
else. -/
theorem Awaiting.selectedMethod (h : Awaiting c f .selectedMethod 2 input b)
    (hlen : 2 ≤ input.length) (hd : k.drain = true) (hm : k.malloc = true) :
    (input = methodReply ∧
      ∃ b', Awaiting (socksOnServerSelectedMethodReadcb c k) f .connectReply 10 [] b') ∨
    (input ≠ methodReply ∧ Inert (socksOnServerSelectedMethodReadcb c k) ∧
      pumpStarted (socksOnServerSelectedMethodReadcb c k).notes = none) := by
  obtain ⟨ev, hev⟩ := h.timer
  have h' := h.setTimer ev.del
  have hdrain := h'.toHandshaking.setRelay { b with input := input.drop 2 } rfl h.writecb h.readcb
    h.eventcb
  unfold socksOnServerSelectedMethodReadcb withTimerDeleted
  rw [Conn.touch_live h.live]
  simp only [hev, h.relay, h.input, hd, Bool.not_true, Bool.false_eq_true, if_false]
  match input, hlen with
  | ver :: method :: rest, _ =>
    split_ifs with h₁ h₂ h₃ h₄
    · exact absurd h₁ (by simp)
    · exact .inr ⟨fun he => h₂ (by rw [he]; rfl), h'.toHandshaking.refuses h.before⟩
    · exact .inr ⟨fun he => h₃ (by rw [he]; rfl), h'.toHandshaking.refuses h.before⟩
    · exact .inr ⟨fun he => h₄ (by rw [he]; rfl), hdrain.refuses h.before⟩
    · rw [not_not] at h₂ h₃ h₄
      have hnil : rest = [] := List.eq_nil_of_length_eq_zero h₄
      subst hnil
      have hwait : Awaiting _ f .selectedMethod 2 [] _ :=
        ⟨hdrain, h.cb, h.low, rfl, h.enabled, ⟨_, rfl⟩, h.dest, h.before⟩
      exact .inl ⟨congrArg₂ (fun x y => [x, y]) h₂ h₃, hwait.sendConnectRequest hm⟩

/-- **The connect reply.** The pump starts exactly when the buffer begins with a success header. -/
theorem Awaiting.connectReply (h : Awaiting c f .connectReply 10 input b)
    (hlen : 10 ≤ input.length) :
    (∃ n, connectReplyLen input = some n ∧
      pumpStarted (socksOnServerConnectReplyReadcb m c k).notes = some (input.drop n)) ∨
    (connectReplyLen input = none ∧ Inert (socksOnServerConnectReplyReadcb m c k) ∧
      pumpStarted (socksOnServerConnectReplyReadcb m c k).notes = none) := by
  obtain ⟨ev, hev⟩ := h.timer
  have hin := h.input
  subst hin
  cases hn : connectReplyLen b.input with
  | none =>
    refine .inr ⟨rfl, ?_⟩
    unfold socksOnServerConnectReplyReadcb withTimerDeleted
    rw [Conn.touch_live h.live]
    simp only [hev, h.relay, if_neg (Nat.not_lt.mpr hlen), hn]
    exact (h.setTimer ev.del).toHandshaking.refuses h.before
  | some n =>
    refine .inl ⟨n, rfl, ?_⟩
    have hrep := (h.setTimer ⟨false, false⟩).toHandshaking.replied n k
    obtain ⟨es, hes⟩ := hrep.afterStart_notes (m := m) k.start fun ev hev => by
      obtain rfl := Option.some.inj hev
      rfl
    have hbefore :
        pumpStarted (replyAccepted { c with timeoutEv := some ⟨false, false⟩ } b n k).notes =
        none := h.before
    rw [connectReplyReadcb_accepted h.toHandshaking hev hlen hn, hes, pumpStarted_append, hbefore,
      repliedBev_input]
    rfl

theorem Handshaking.sendMethodSelection (h : Handshaking c f b) (hin : b.input = []) {ev : Event}
    (hev : c.timeoutEv = some ev) {a : SockAddr} {req : List Byte} (ha : c.destAddr = some a)
    (hreq : connectRequest a = some req) (hn : pumpStarted c.notes = none) :
    ∃ b', Awaiting (socksSendMethodSelection c k) f .selectedMethod 2 [] b' := by
  have hw := h.await methodSelectRequest 2 .selectedMethod (by decide)
  unfold socksSendMethodSelection
  rw [Conn.touch_live h.live]
  simp only [h.relay]
  rw [clientSetTimeout_again hw.live hev]
  exact ⟨_, hw.setTimer _, rfl, rfl, hin, rfl, ⟨_, rfl⟩, ⟨a, req, ha, hreq⟩, hn⟩

end Client

/-! ## Sessions -/

/-- A client and the bytes of its relay that are still to be read. -/
structure Session where
  conn : Conn
  /-- Of the bytes that the relay sends before it has the connect request. -/
  early : List Byte
  /-- Of the bytes that the relay sends afterwards. -/
  late : List Byte

namespace Session

def requested (s : Session) : Bool :=
  (s.conn.ends .relay).bev.any fun b => b.readcb == some .connectReply

/-- The bytes that can be read next. -/
def visible (s : Session) : List Byte := if s.requested then s.early ++ s.late else s.early

def started (s : Session) : Option (List Byte) := pumpStarted s.conn.notes

def unread (s : Session) : List Byte := s.early ++ s.late

/-- libevent reads `bs` from the relay's socket. -/
def read (m : PumpMethod) (s : Session) (bs : List Byte) (k : HandshakeCalls) : Session where
  conn := s.conn.step m (.read .relay bs k)
  early := s.early.drop bs.length
  late := s.late.drop (bs.length - s.early.length)

/-- A read of the handshake, until the pump is started. The two calls that can fail before that
succeed. -/
inductive Step (m : PumpMethod) (s : Session) : List Byte × HandshakeCalls → Session → Prop
  | read {bs : List Byte} {k : HandshakeCalls} (hne : bs ≠ []) (hbs : bs <+: s.visible)
      (hen : s.conn.Enabled (.read .relay bs k)) (hs : s.started = none) (hd : k.drain = true)
      (hm : k.malloc = true) : Step m s (bs, k) (s.read m bs k)

/-- Everything that the relay sent was read, or the handshake is over. -/
def Done (m : PumpMethod) (s : Session) : Prop := ∀ e s', ¬ Step m s e s'

end Session

section Session

variable {m : PumpMethod} {s : Session} {f : Side → ℕ} {cb : ReadCb} {low : ℕ}
  {input bs : List Byte}
  {k : HandshakeCalls}

theorem Awaiting.visible {b : Bufferevent} (h : Awaiting s.conn f cb low input b) :
    s.visible = if cb = .connectReply then s.early ++ s.late else s.early := by
  have hreq : s.requested = decide (cb = .connectReply) := by
    unfold Session.requested
    rw [h.relay, Option.any_some, h.cb]
    cases cb <;> rfl
  unfold Session.visible
  rw [hreq]
  simp

theorem unread_read (h : bs <+: s.unread) : bs ++ (s.read m bs k).unread = s.unread := by
  obtain ⟨t, ht⟩ := h
  have hdrop : (s.read m bs k).unread = s.unread.drop bs.length := List.drop_append.symm
  rw [hdrop, ← ht, List.drop_left]

theorem early_read (h : bs <+: s.early) :
    bs ++ (s.read m bs k).early = s.early ∧ (s.read m bs k).late = s.late := by
  obtain ⟨t, ht⟩ := h
  constructor
  · show bs ++ s.early.drop bs.length = s.early
    rw [← ht, List.drop_left]
  · show s.late.drop (bs.length - s.early.length) = s.late
    have hle : bs.length - s.early.length = 0 := by
      rw [← ht, List.length_append]
      omega
    rw [hle, List.drop_zero]

/-- A client that waits has read everything when the session is done. -/
theorem Awaiting.done {b : Bufferevent} (h : Awaiting s.conn f cb low input b) (hd : s.Done m) :
    s.visible = [] := by
  by_contra hne
  exact hd _ _ (.read hne (List.prefix_refl _) (h.canRead s.visible HandshakeCalls.ok)
    h.before rfl rfl)

end Session

/-! ## Whole handshakes -/

/-- How far a session got with the bytes `M` and `R` after the reads `reads`. -/
inductive HandshakeStage (f : Side → ℕ) (M R : List Byte) (reads : List (List Byte)) (s : Session) :
    Prop
  | method {b : Bufferevent} (hc : collect 2 [] reads = none)
      (h : Awaiting s.conn f .selectedMethod 2 reads.flatten b)
      (hM : reads.flatten ++ s.early = M) (hR : s.late = R)
  | refusedMethod {A : List Byte} {rest : List (List Byte)}
      (hc : collect 2 [] reads = some (A, rest))
      (hA : A ≠ methodReply) (hM : A <+: M) (hi : Inert s.conn) (hs : s.started = none)
  | reply {rest : List (List Byte)} {b : Bufferevent}
      (hc : collect 2 [] reads = some (methodReply, rest))
      (hc' : collect 10 [] rest = none) (h : Awaiting s.conn f .connectReply 10 rest.flatten b)
      (hM : methodReply <+: M) (hS : methodReply ++ rest.flatten ++ s.unread = M ++ R)
  | refusedReply {rest rest' : List (List Byte)} {B : List Byte}
      (hc : collect 2 [] reads = some (methodReply, rest))
      (hc' : collect 10 [] rest = some (B, rest'))
      (hB : connectReplyLen B = none) (hM : methodReply <+: M) (hS : methodReply ++ B <+: M ++ R)
      (hi : Inert s.conn) (hs : s.started = none)
  | started {rest : List (List Byte)} {B : List Byte} {n : ℕ}
      (hc : collect 2 [] reads = some (methodReply, rest)) (hc' : collect 10 [] rest = some (B, []))
      (hB : connectReplyLen B = some n) (hM : methodReply <+: M)
      (hS : methodReply ++ B ++ s.unread = M ++ R) (hs : s.started = some (B.drop n))

section Stage

variable {m : PumpMethod} {f : Side → ℕ} {M R : List Byte} {reads : List (List Byte)}
  {s s' : Session}
  {bs : List Byte} {k : HandshakeCalls}

theorem HandshakeStage.readMethod {b : Bufferevent} (hc : collect 2 [] reads = none)
    (h : Awaiting s.conn f .selectedMethod 2 reads.flatten b) (hM : reads.flatten ++ s.early = M)
    (hR : s.late = R) (hbs : bs <+: s.visible) (hd : k.drain = true) (hm : k.malloc = true) :
    HandshakeStage f M R (reads ++ [bs]) (s.read m bs k) := by
  rw [h.visible, if_neg (by decide)] at hbs
  obtain ⟨hearly, hlate⟩ := early_read (m := m) (k := k) hbs
  have hM' : (reads.flatten ++ bs) ++ (s.read m bs k).early = M := by
    rw [List.append_assoc, hearly, hM]
  have hcollect := collect_concat_none (r := bs) hc
  rw [List.nil_append] at hcollect
  by_cases hlen : (reads.flatten ++ bs).length < 2
  · rw [if_neg (Nat.not_le.mpr hlen)] at hcollect
    have h' := h.step_short (m := m) (k := k) hlen
    have hflat : (reads ++ [bs]).flatten = reads.flatten ++ bs := by simp
    rw [← hflat] at h' hM'
    exact .method hcollect h' hM' (hlate.trans hR)
  · rw [if_pos (Nat.not_lt.mp hlen)] at hcollect
    have hrun : (s.read m bs k).conn =
        socksOnServerSelectedMethodReadcb (s.conn.received .relay b bs) k := h.step_runs hlen
    have hpre : reads.flatten ++ bs <+: M := ⟨_, hM'⟩
    rcases (h.received bs).selectedMethod (Nat.not_lt.mp hlen) hd hm with
      ⟨hA, b', hb'⟩ | ⟨hA, hi, hs⟩
    · rw [hA] at hcollect hpre hM'
      rw [← hrun] at hb'
      refine .reply hcollect rfl hb' hpre ?_
      rw [List.flatten_nil, List.append_nil]
      unfold Session.unread
      rw [← List.append_assoc, hM', hlate, hR]
    · rw [← hrun] at hi hs
      exact .refusedMethod hcollect hA hpre hi hs

theorem HandshakeStage.readReply {rest : List (List Byte)} {b : Bufferevent}
    (hc : collect 2 [] reads = some (methodReply, rest)) (hc' : collect 10 [] rest = none)
    (h : Awaiting s.conn f .connectReply 10 rest.flatten b) (hM : methodReply <+: M)
    (hS : methodReply ++ rest.flatten ++ s.unread = M ++ R) (hbs : bs <+: s.visible) :
    HandshakeStage f M R (reads ++ [bs]) (s.read m bs k) := by
  rw [h.visible, if_pos rfl] at hbs
  have hS' : methodReply ++ (rest.flatten ++ bs) ++ (s.read m bs k).unread = M ++ R := by
    rw [← hS, ← unread_read (m := m) (k := k) hbs]
    simp only [List.append_assoc]
  have hcollect := collect_concat_some (r := bs) hc
  have hcollect' := collect_concat_none (r := bs) hc'
  rw [List.nil_append] at hcollect'
  by_cases hlen : (rest.flatten ++ bs).length < 10
  · rw [if_neg (Nat.not_le.mpr hlen)] at hcollect'
    have h' := h.step_short (m := m) (k := k) hlen
    have hflat : (rest ++ [bs]).flatten = rest.flatten ++ bs := by simp
    rw [← hflat] at h' hS'
    exact .reply hcollect hcollect' h' hM hS'
  · rw [if_pos (Nat.not_lt.mp hlen)] at hcollect'
    have hrun : (s.read m bs k).conn =
        socksOnServerConnectReplyReadcb m (s.conn.received .relay b bs) k := h.step_runs hlen
    rcases (h.received bs).connectReply (m := m) (k := k) (Nat.not_lt.mp hlen) with
      ⟨n, hn, hs⟩ | ⟨hn, hi, hs⟩
    · rw [← hrun] at hs
      exact .started hcollect hcollect' hn hM hS' hs
    · rw [← hrun] at hi hs
      exact .refusedReply hcollect hcollect' hn hM ⟨_, hS'⟩ hi hs

theorem HandshakeStage.step (h : HandshakeStage f M R reads s)
    (hs : Session.Step m s (bs, k) s') : HandshakeStage f M R (reads ++ [bs]) s' := by
  cases hs with
  | read hne hbs hen hns hd hm =>
    cases h with
    | method hc h hM hR => exact .readMethod hc h hM hR hbs hd hm
    | refusedMethod _ _ _ hi => exact absurd hen (hi.not_enabled _)
    | reply hc hc' h hM hS => exact .readReply hc hc' h hM hS hbs
    | refusedReply _ _ _ _ _ hi => exact absurd hen (hi.not_enabled _)
    | started _ _ _ _ _ hs => exact absurd (hns.symm.trans hs) (by simp)

/-- **The session follows its reads.** -/
theorem stage_run {c₀ : Conn} {b₀ : Bufferevent} {es : List (List Byte × HandshakeCalls)}
    (h₀ : Awaiting c₀ f .selectedMethod 2 [] b₀) (hrun : Run (Session.Step m) ⟨c₀, M, R⟩ es s) :
    HandshakeStage f M R (es.map Prod.fst) s := by
  induction hrun with
  | nil => exact .method rfl h₀ rfl rfl
  | snoc _ hs ih =>
    rw [List.map_append]
    exact ih.step hs

end Stage

/-! ## Exactness -/

/-- The pump starts exactly for a proper answer of the relay, and then the handshake has consumed
that answer and nothing else. -/
structure ExactHandshake (M R : List Byte) (s : Session) : Prop where
  starts : s.started.isSome ↔ M = methodReply ∧ ∃ r, SuccessReply r ∧ r <+: R
  consumes : ∀ r left, M = methodReply → SuccessReply r → r <+: R → s.started = some left →
    r ++ (left ++ s.unread) = R

/-- When a success header is in the buffer that the reply callback first sees, the relay sent
nothing behind the selected method before it had the request, and the whole reply is in the buffer.
-/
def SafeCut (M : List Byte) (reads : List (List Byte)) : Prop :=
  ∀ rest B rest' n, collect 2 [] reads = some (methodReply, rest) →
    collect 10 [] rest = some (B, rest') → ReplyHeader n B → M = methodReply ∧ n ≤ B.length

section Exact

variable {m : PumpMethod} {f : Side → ℕ} {M R r B : List Byte} {n : ℕ} {s : Session}

theorem ReplyHeader.unique {n' : ℕ} (h : ReplyHeader n B) (h' : ReplyHeader n' B) : n = n' := by
  rw [← connectReplyLen_iff] at h h'
  exact Option.some.inj (h.symm.trans h')

theorem SuccessReply.ten_le (h : SuccessReply r) : 10 ≤ r.length := by
  have := h.cases
  omega

/-- A handshake that rightly did not start the pump. -/
theorem exact_of_not_started (hs : s.started = none)
    (hno : M = methodReply → ∀ r, SuccessReply r → ¬ r <+: R) : ExactHandshake M R s := by
  refine ⟨⟨fun h => ?_, fun ⟨hM, r, hr, hp⟩ => absurd hp (hno hM r hr)⟩,
    fun r left hM hr hp _ => absurd hp (hno hM r hr)⟩
  rw [hs] at h
  cases h

/-- A started pump, when the reply is in the buffer `B` with the length `n` that its header
gives. -/
theorem exact_of_started (hs : s.started = some (B.drop n)) (hB : ReplyHeader n B)
    (hR : B ++ s.unread = R) (hn : n ≤ B.length) : ExactHandshake methodReply R s := by
  have hlen : (B.take n).length = n := List.length_take_of_le hn
  have htake : SuccessReply (B.take n) := by
    unfold SuccessReply
    rw [hlen]
    exact hB.shorten (List.take_prefix n B) (hlen.symm ▸ by have := hB.cases; omega)
  have hpre : B.take n <+: R := (List.take_prefix n B).trans ⟨_, hR⟩
  refine ⟨⟨fun _ => ⟨rfl, _, htake, hpre⟩, fun _ => by rw [hs]; rfl⟩, fun r left _ hr hp hl => ?_⟩
  obtain rfl : B.drop n = left := Option.some.inj (hs.symm.trans hl)
  obtain ⟨t, rfl⟩ := hp
  have hrlen : r.length = n := (hr.append t).unique (hR ▸ hB.append _)
  have hr' : r = B.take n := by
    have htr : (r ++ t).take n = r := by rw [← hrlen, List.take_left]
    rw [← htr, ← hR, List.take_append_of_le_length hn]
  rw [hr', ← List.append_assoc, List.take_append_drop, hR, hr']

theorem ExactHandshake.le_length (h : ExactHandshake M R s) (hs : s.started = some (B.drop n))
    (hB : ReplyHeader n B) (hS : methodReply ++ B ++ s.unread = M ++ R) :
    M = methodReply ∧ n ≤ B.length := by
  obtain ⟨hM, r, hr, hp⟩ := h.starts.mp (by rw [hs]; rfl)
  refine ⟨hM, ?_⟩
  rw [hM, List.append_assoc] at hS
  have hR : B ++ s.unread = R := List.append_cancel_left hS
  have hcon := h.consumes r _ hM hr hp hs
  obtain ⟨t, rfl⟩ := hp
  have hrlen : r.length = n := (hr.append t).unique (hR ▸ hB.append _)
  have hlen := congrArg List.length (hcon.trans hR.symm)
  simp only [List.length_append, List.length_drop] at hlen
  omega

/-- **The handshake is exact** exactly for the safe cuts. -/
theorem handshake_exact_iff {c₀ : Conn} {b₀ : Bufferevent} {es : List (List Byte × HandshakeCalls)}
    (h₀ : Awaiting c₀ f .selectedMethod 2 [] b₀) (hrun : Run (Session.Step m) ⟨c₀, M, R⟩ es s)
    (hdone : s.Done m) : ExactHandshake M R s ↔ SafeCut M (es.map Prod.fst) := by
  cases stage_run h₀ hrun with
  | method hc h hM hR =>
    have hvis := h.done hdone
    rw [h.visible, if_neg (by decide)] at hvis
    have hshort := length_lt_of_collect hc (by simp)
    refine iff_of_true (exact_of_not_started h.before fun hM' => ?_) fun _ _ _ _ hc' => ?_
    · rw [hvis, List.append_nil, hM'] at hM
      rw [List.nil_append, hM] at hshort
      exact absurd hshort (by decide)
    · exact absurd (hc.symm.trans hc') (by simp)
  | @refusedMethod A rest hc hA hM hi hs =>
    have hlen := le_length_of_collect hc
    refine iff_of_true (exact_of_not_started hs fun hM' => ?_) fun _ _ _ _ hc' => ?_
    · rw [hM'] at hM
      exact absurd (hM.eq_of_length_le hlen) hA
    · obtain ⟨rfl, -⟩ := Prod.mk.inj (Option.some.inj (hc.symm.trans hc'))
      exact absurd rfl hA
  | @reply rest b hc hc' h hM hS =>
    have hvis : s.unread = [] := by
      have hvis := h.done hdone
      rw [h.visible, if_pos rfl] at hvis
      exact hvis
    have hshort := length_lt_of_collect hc' (by simp)
    refine iff_of_true (exact_of_not_started h.before fun hM' r hr hp => ?_)
      fun _ _ _ _ hc₂ hc₁₀ => ?_
    · rw [hM', hvis, List.append_nil] at hS
      have hR : rest.flatten = R := List.append_cancel_left hS
      rw [List.nil_append, hR] at hshort
      exact absurd (hr.ten_le.trans hp.length_le) (Nat.not_le.mpr hshort)
    · obtain ⟨-, rfl⟩ := Prod.mk.inj (Option.some.inj (hc.symm.trans hc₂))
      exact absurd (hc'.symm.trans hc₁₀) (by simp)
  | @refusedReply rest rest' B hc hc' hB hM hS hi hs =>
    have hlen := le_length_of_collect hc'
    refine iff_of_true (exact_of_not_started hs fun hM' r hr hp => ?_) fun _ _ _ _ hc₂ hc₁₀ hn => ?_
    · rw [hM', List.prefix_append_right_inj] at hS
      obtain ⟨t, rfl⟩ := hp
      have hhead := (hr.append t).shorten hS hlen
      exact absurd (hB.symm.trans (connectReplyLen_iff.mpr hhead)) (by simp)
    · obtain ⟨-, rfl⟩ := Prod.mk.inj (Option.some.inj (hc.symm.trans hc₂))
      obtain ⟨rfl, -⟩ := Prod.mk.inj (Option.some.inj (hc'.symm.trans hc₁₀))
      exact absurd (hB.symm.trans (connectReplyLen_iff.mpr hn)) (by simp)
  | @started rest B n hc hc' hB hM hS hs =>
    rw [connectReplyLen_iff] at hB
    constructor
    · intro h _ _ _ _ hc₂ hc₁₀ hn
      obtain ⟨-, rfl⟩ := Prod.mk.inj (Option.some.inj (hc.symm.trans hc₂))
      obtain ⟨rfl, -⟩ := Prod.mk.inj (Option.some.inj (hc'.symm.trans hc₁₀))
      obtain rfl := hB.unique hn
      exact h.le_length hs hB hS
    · intro h
      obtain ⟨rfl, hn⟩ := h _ _ _ _ hc hc' hB
      rw [List.append_assoc] at hS
      exact exact_of_started hs hB (List.append_cancel_left hS) hn

end Exact

/-! ### Two handshakes of an accepted client -/

/-- The accepted client when `relay_onconnect_eventcb` sends the method selection. -/
def connectedConn : Conn :=
  { acceptedConn with timeoutEv := some ⟨false, false⟩, clientState := .relayConnected }

theorem handshaking_connectedConn :
    Handshaking connectedConn (socketsOf 5 6) (connectingBev 6) where
  live := rfl
  notFreed := by decide
  fd := fun s => by cases s <;> rfl
  bev := fun s => by cases s <;> exact ⟨_, rfl, rfl⟩
  noPump := rfl
  shutRead := fun s => by cases s <;> rfl
  shutWrite := fun s => by cases s <;> rfl
  client := rfl
  relay := rfl
  relayFd := rfl
  writecb := rfl
  readcb := by decide
  eventcb := by decide

/-- The session of the accepted client with a relay that sends `M` and `R`. -/
def sessionOf (M R : List Byte) : Session :=
  ⟨socksSendMethodSelection connectedConn HandshakeCalls.ok, M, R⟩

def readsOf (reads : List (List Byte)) : List (List Byte × HandshakeCalls) :=
  reads.map fun bs => (bs, HandshakeCalls.ok)

def sessionAfter (M R : List Byte) (reads : List (List Byte)) : Session :=
  (readsOf reads).foldl (fun s e => s.read .splicepump e.1 e.2) (sessionOf M R)

theorem awaiting_sessionOf (M R : List Byte) :
    ∃ b, Awaiting (sessionOf M R).conn (socketsOf 5 6) .selectedMethod 2 [] b :=
  handshaking_connectedConn.sendMethodSelection rfl rfl rfl rfl rfl

/-- An IPv4 reply in pieces, the last of them with a byte for the pump. -/
def ipv4Pieces : List (List Byte) :=
  [[0x05], [0x00], ipv4Reply.take 4, ipv4Reply.drop 4 ++ [0x42]]

theorem handshake_exact_iff_ipv4Pieces :
    ExactHandshake methodReply (ipv4Reply ++ [0x42, 0x43])
        (sessionAfter methodReply (ipv4Reply ++ [0x42, 0x43]) ipv4Pieces) ∧
      (sessionAfter methodReply (ipv4Reply ++ [0x42, 0x43]) ipv4Pieces).started = some [0x42] := by
  obtain ⟨b, h₀⟩ := awaiting_sessionOf methodReply (ipv4Reply ++ [0x42, 0x43])
  have hf : Follows (Session.Step .splicepump) (fun s e => s.read .splicepump e.1 e.2)
      (sessionOf methodReply (ipv4Reply ++ [0x42, 0x43])) (readsOf ipv4Pieces) :=
    ⟨.read (by decide) ⟨_, rfl⟩ ⟨_, rfl, by decide, rfl⟩ rfl rfl rfl,
      .read (by decide) ⟨_, rfl⟩ ⟨_, rfl, by decide, rfl⟩ rfl rfl rfl,
      .read (by decide) ⟨_, rfl⟩ ⟨_, rfl, by decide, rfl⟩ rfl rfl rfl,
      .read (by decide) ⟨_, rfl⟩ ⟨_, rfl, by decide, rfl⟩ rfl rfl rfl, trivial⟩
  have hdone :
      (sessionAfter methodReply (ipv4Reply ++ [0x42, 0x43]) ipv4Pieces).Done .splicepump := by
    rintro e s' ⟨-, -, -, hs, -, -⟩
    cases hs
  refine ⟨(handshake_exact_iff h₀ (Run.foldl hf) hdone).mpr fun rest B rest' n hc hc' hn => ?_, rfl⟩
  cases hc
  cases hc'
  obtain rfl := hn.unique (.inl ⟨_, _, rfl, rfl⟩)
  exact ⟨rfl, by decide⟩

/-- A success reply with an IPv6 address, 22 bytes long. -/
def ipv6Reply : List Byte :=
  [0x05, 0x00, 0x00, 0x04, 0, 0, 0, 0, 0, 0, 0, 0, 0, 0, 0, 0, 0, 0, 0, 1, 0x04, 0x38]

/-- The selected method, and then the first ten bytes of an IPv6 reply. -/
def ipv6Pieces : List (List Byte) := [methodReply, ipv6Reply.take 10]

/-- The pump starts with twelve bytes of the reply unread, which it takes for data. -/
theorem handshake_cuts_ipv6_reply :
    Run (Session.Step .splicepump) (sessionOf methodReply (ipv6Reply ++ [0x42]))
        (readsOf ipv6Pieces)
        (sessionAfter methodReply (ipv6Reply ++ [0x42]) ipv6Pieces) ∧
      (sessionAfter methodReply (ipv6Reply ++ [0x42]) ipv6Pieces).Done .splicepump ∧
      SuccessReply ipv6Reply ∧
      (sessionAfter methodReply (ipv6Reply ++ [0x42]) ipv6Pieces).started = some [] ∧
      (sessionAfter methodReply (ipv6Reply ++ [0x42]) ipv6Pieces).unread =
        ipv6Reply.drop 10 ++ [0x42] ∧
      ¬ ExactHandshake methodReply (ipv6Reply ++ [0x42])
        (sessionAfter methodReply (ipv6Reply ++ [0x42]) ipv6Pieces) := by
  have hreply : SuccessReply ipv6Reply := .inr ⟨_, _, rfl, rfl⟩
  refine ⟨Run.foldl ⟨.read (by decide) ⟨_, rfl⟩ ⟨_, rfl, by decide, rfl⟩ rfl rfl rfl,
    .read (by decide) ⟨_, rfl⟩ ⟨_, rfl, by decide, rfl⟩ rfl rfl rfl, trivial⟩, ?_, hreply, rfl, rfl,
    fun h => ?_⟩
  · rintro e s' ⟨-, -, -, hs, -, -⟩
    cases hs
  · exact absurd (h.consumes ipv6Reply [] rfl hreply ⟨_, rfl⟩ rfl) (by decide)

end Transocks

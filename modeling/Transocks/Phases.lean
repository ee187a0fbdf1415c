import Transocks.SpliceSteps

/-!
# The phases of a connection

Between two callbacks a client whose connection attempt is under way is in one of four phases. It
is `Handshaking`, it pumps through its bufferevents (`Copying`) or through its pipes (`Splicing`),
or it was released and nothing of it is left that the loop could run (`Inert`).

`phase_step` says what one callback does: it keeps the client in a phase, releases it once, runs
into a null pointer, or releases it twice. The last happens in one way only, when the splice pump
fails to start after its record was attached.
-/

namespace Transocks

/-! ## The calls that matter to the rest of the program -/

/-- The calls that other parts of the program can notice. -/
def Effect.notable : Effect → Bool
  | .shutdown _ _ _ => false
  | .alloc _ => false
  | .free _ => false
  | .opened _ _ => true
  | .closed _ _ => true
  | .bevFree _ _ => true
  | .listInit => true
  | .listAddTail => true
  | .listDel => true
  | .startPump _ => true
  | .doubleFree => true
  | .useAfterFree => true
  | .badPointer => true

def Conn.notes (c : Conn) : List Effect := c.out.filter Effect.notable

theorem Conn.notes_nil {c : Conn} (h : c.out = []) : c.notes = [] := by
  unfold Conn.notes
  rw [h]
  rfl

@[simp] theorem notes_emits (c : Conn) (es : List Effect) :
    (c.emits es).notes = c.notes ++ es.filter Effect.notable := List.filter_append ..

@[simp] theorem notes_setEnd (c : Conn) (s : Side) (e : End) : (c.setEnd s e).notes = c.notes := rfl

@[simp] theorem notes_setBev (c : Conn) (s : Side) (b : Option Bufferevent) :
    (c.setBev s b).notes = c.notes := rfl

@[simp] theorem notes_setKern (c : Conn) (d : Direction) (k : Kern) :
    (c.setKern d k).notes = c.notes := rfl

@[simp] theorem notes_setPump (c : Conn) (p : Splicepump) : (c.setPump p).notes = c.notes := rfl

/-- The calls on pipes, and the one that starts a pump. -/
def Effect.piping : Effect → Bool
  | .opened _ _ => true
  | .closed (.pipeRead _) _ => true
  | .closed (.pipeWrite _) _ => true
  | .startPump _ => true
  | _ => false

def Piping (es : List Effect) : Prop := ∀ e ∈ es, e.piping = true

theorem Piping.nil : Piping [] := fun _ he => absurd he (by simp)

theorem Piping.append {es es' : List Effect} (h : Piping es) (h' : Piping es') :
    Piping (es ++ es') :=
  fun e he => (List.mem_append.mp he).elim (h e) (h' e)

theorem Piping.cons {e : Effect} {es : List Effect} (he : e.piping = true) (h : Piping es) :
    Piping (e :: es) := by
  intro x hx
  rcases List.mem_cons.mp hx with rfl | hx
  · exact he
  · exact h x hx

/-- Calls on pipes are notable. -/
theorem Piping.filter {es : List Effect} (h : Piping es) : es.filter Effect.notable = es := by
  refine List.filter_eq_self.mpr fun e he => ?_
  have hp := h e he
  cases e with
  | shutdown => cases hp
  | alloc => cases hp
  | free => cases hp
  | _ => rfl

/-- What a release does to the sockets `f`, to bufferevents that hold `g`, and to the list. -/
def releaseNotes (f : Side → ℕ) (g : Side → Fd) : List Effect :=
  [.closed (.sock .client) (f .client), .closed (.sock .relay) (f .relay),
    .bevFree .relay (g .relay), .bevFree .client (g .client), .listDel]

/-! ## The phases -/

/-- A live record with sockets `f` whose bufferevents hold `g`. -/
structure Attached (c : Conn) (f : Side → ℕ) (g : Side → Fd) : Prop where
  live : c.released = false
  notFreed : c.clientState ≠ .destroyed ∧ c.clientState ≠ .destroying
  fd : ∀ s, (c.ends s).fd = f s
  bev : ∀ s, ∃ b, (c.ends s).bev = some b ∧ b.fd = g s

/-- The descriptors a bufferevent holds until the splice pump takes them. -/
def holding (f : Side → ℕ) : Side → Fd := fun s => f s

/-- What a bufferevent holds after `bufferevent_setfd(bev, -1)`. -/
def handedOver : Side → Fd := fun _ => -1

/-- A client that waits for its relay to connect or to reply. -/
structure Handshaking (c : Conn) (f : Side → ℕ) (b : Bufferevent) : Prop
    extends Attached c f (holding f) where
  noPump : c.userArg = none
  shutRead : ∀ s, (c.ends s).shutRead = false
  shutWrite : ∀ s, (c.ends s).shutWrite = false
  client : (c.ends .client).bev = some (Bufferevent.new (f .client))
  relay : (c.ends .relay).bev = some b
  relayFd : b.fd = f .relay
  writecb : b.writecb = false
  readcb : b.readcb ≠ some .pump
  eventcb : b.eventcb ≠ some .pump

structure Copying (c : Conn) (f : Side → ℕ) : Prop extends Attached c f (holding f) where
  noPump : c.userArg = none
  timer : ∀ ev, c.timeoutEv = some ev → ev.added = false
  cbs : ∀ s b, (c.ends s).bev = some b → b.readcb = some .pump ∧ b.eventcb = some .pump

structure Splicing (c : Conn) (f : Side → ℕ) (p : Splicepump) : Prop
    extends Attached c f handedOver where
  pumping : c.clientState = .pumpingData
  pump : c.userArg = some p
  timer : ∀ ev, c.timeoutEv = some ev → ev.added = false
  pipefd : ∀ d, 0 ≤ (p.pipe d).pipeReadfd ∧ 0 ≤ (p.pipe d).pipeWritefd
  unfinished : ∀ d, ¬ (c.readFlag d = true ∧ c.writeFlag d = true)

structure Inert (c : Conn) : Prop where
  released : c.released = true
  bev : ∀ s, (c.ends s).bev = none
  timer : c.timeoutEv = none
  events : ∀ p, c.userArg = some p → ∀ d, p.readEv d = none ∧ p.writeEv d = none

inductive Phase : PumpMethod → Conn → (Side → ℕ) → Prop
  | handshaking {m : PumpMethod} {c : Conn} {f : Side → ℕ} (b : Bufferevent)
      (h : Handshaking c f b) : Phase m c f
  | copying {c : Conn} {f : Side → ℕ} (h : Copying c f) : Phase .bufferpump c f
  | splicing {c : Conn} {f : Side → ℕ} (p : Splicepump) (h : Splicing c f p) : Phase .splicepump c f

/-- The loop runs nothing for a released client. -/
theorem Inert.not_enabled {c : Conn} (h : Inert c) (ev : Ev) : ¬ c.Enabled ev := by
  cases ev with
  | event s w e k => rintro ⟨b, hb, -⟩; simp [h.bev s] at hb
  | read s bs k => rintro ⟨b, hb, -⟩; simp [h.bev s] at hb
  | wrote s n => rintro ⟨b, hb, -⟩; simp [h.bev s] at hb
  | timeout => rintro ⟨ev, hev, -⟩; simp [h.timer] at hev
  | spliceRead d q => rintro ⟨p, ev, hp, hev, -⟩; simp [(h.events p hp d).1] at hev
  | spliceWrite d q => rintro ⟨p, ev, hp, hev, -⟩; simp [(h.events p hp d).2] at hev

/-- A client with sockets `f` that waits for its relay. -/
def Waiting (f : Side → ℕ) (c : Conn) : Prop := ∃ b, Handshaking c f b

/-- What a callback leaves of a client with sockets `f`, when the notable calls before it were `n`:
the client is as `I` says, or it was released, or the callback ran into a bad pointer. -/
inductive Next (I : Conn → Prop) (f : Side → ℕ) (n : List Effect) (c' : Conn) : Prop
  | stays (h : I c') (hn : c'.notes = n)
  | released (g : Side → Fd) (hg : g = holding f ∨ g = handedOver) (h : Inert c')
      (hn : c'.notes = n ++ releaseNotes f g)
  | crashed (hn : c'.notes = n ++ [.badPointer])

theorem Next.imp {I J : Conn → Prop} {f : Side → ℕ} {n : List Effect} {c' : Conn}
    (h : Next I f n c') (hIJ : I c' → J c') : Next J f n c' := by
  cases h with
  | stays h hn => exact .stays (hIJ h) hn
  | released g hg h hn => exact .released g hg h hn
  | crashed hn => exact .crashed hn

theorem Next.of_notes {I : Conn → Prop} {f : Side → ℕ} {n n' : List Effect} {c' : Conn}
    (h : Next I f n c') (hn : n = n') : Next I f n' c' := hn ▸ h

theorem Next.notes {I : Conn → Prop} {f : Side → ℕ} {n : List Effect} {c' : Conn}
    (h : Next I f n c') : ∃ es, c'.notes = n ++ es := by
  cases h with
  | stays _ hn => exact ⟨[], by rw [hn, List.append_nil]⟩
  | released _ _ _ hn => exact ⟨_, hn⟩
  | crashed hn => exact ⟨_, hn⟩

/-- What a callback leaves of a client in one of its phases, after some calls on pipes. -/
def Outcome (m : PumpMethod) (f : Side → ℕ) (c c' : Conn) : Prop :=
  ∃ st, Piping st ∧ Next (Phase m · f) f (c.notes ++ st) c'

theorem Next.outcome {m : PumpMethod} {f : Side → ℕ} {c c' : Conn}
    (h : Next (Phase m · f) f c.notes c') : Outcome m f c c' :=
  ⟨[], Piping.nil, by rw [List.append_nil]; exact h⟩

theorem Outcome.after {m : PumpMethod} {f : Side → ℕ} {c c₁ c' : Conn} {es : List Effect}
    (h : Outcome m f c₁ c') (hes : Piping es) (hn : c₁.notes = c.notes ++ es) :
    Outcome m f c c' := by
  obtain ⟨st, hst, hnext⟩ := h
  rw [hn, List.append_assoc] at hnext
  exact ⟨es ++ st, hes.append hst, hnext⟩

/-! ## The release -/

section Release

variable {I : Conn → Prop} {c : Conn} {f : Side → ℕ} {g : Side → Fd}

theorem Attached.notes_clientFreeEffects (h : Attached c f g) :
    (clientFreeEffects c).filter Effect.notable = releaseNotes f g := by
  obtain ⟨cb, hcb, hcg⟩ := h.bev .client
  obtain ⟨rb, hrb, hrg⟩ := h.bev .relay
  have hopt : ∀ (o : Obj) (p : Option SockAddr), (freeEffect o p).filter Effect.notable = [] := by
    intro o p
    cases p <;> rfl
  have htim : ∀ p : Option Event, (freeEffect .timer p).filter Effect.notable = [] := by
    intro p
    cases p <;> rfl
  have hpos : ∀ n : ℕ, (0 : ℤ) ≤ n := fun n => Int.natCast_nonneg n
  simp only [clientFreeEffects, h.fd, closeEffect, hcb, hrb, bevFreeEffect, hcg, hrg,
    List.filter_append, hopt, htim, hpos, if_true, List.append_nil]
  rfl

theorem Attached.clientFree (h : Attached c f g)
    (hp : ∀ p, c.userArg = some p → ∀ d, p.readEv d = none ∧ p.writeEv d = none) :
    Inert (clientFree c) ∧ (clientFree c).notes = c.notes ++ releaseNotes f g := by
  rw [clientFree_eq h.live h.notFreed]
  refine ⟨⟨rfl, fun s => rfl, rfl, hp⟩, ?_⟩
  show (c.out ++ clientFreeEffects c).filter Effect.notable = _
  rw [List.filter_append, h.notes_clientFreeEffects]
  rfl

theorem Attached.next_clientFree (h : Attached c f g) (hg : g = holding f ∨ g = handedOver)
    (hp : c.userArg = none) : Next I f c.notes (Transocks.clientFree c) := by
  obtain ⟨hi, hn⟩ := h.clientFree fun p hp' => absurd (hp.symm.trans hp') (by simp)
  exact .released g hg hi hn

theorem piping_splicepumpFreeEffects (p : Splicepump) :
    Piping ((splicepumpFreeEffects p).filter Effect.notable) := by
  have hev : ∀ (o : Obj) (e : Option Event), (freeEffect o e).filter Effect.notable = [] := by
    intro o e
    cases e <;> rfl
  have hpipe : ∀ (d : Direction) (q : Splicepipe),
      Piping ((pipeFreeEffects d q).filter Effect.notable) := by
    intro d q
    unfold pipeFreeEffects closeEffect
    rw [List.filter_append, List.filter_append]
    refine Piping.append (Piping.append ?_ ?_) Piping.nil
    · split
      · exact Piping.cons rfl Piping.nil
      · exact Piping.nil
    · split
      · exact Piping.cons rfl Piping.nil
      · exact Piping.nil
  simp only [splicepumpFreeEffects, List.filter_append, hev, List.append_nil]
  exact ((hpipe _ _).append (hpipe _ _)).append Piping.nil

/-- A release with a pump. -/
theorem Attached.splicepumpFree (h : Attached c f g) {p : Splicepump} (hp : c.userArg = some p) :
    Inert (splicepumpFree c) ∧ (splicepumpFree c).notes =
      c.notes ++ (splicepumpFreeEffects p).filter Effect.notable ++ releaseNotes f g := by
  have hu : Attached (splicepumpUnwound c p) f g := ⟨h.live, h.notFreed, h.fd, h.bev⟩
  have hn : (splicepumpUnwound c p).notes =
      c.notes ++ (splicepumpFreeEffects p).filter Effect.notable := List.filter_append ..
  rw [splicepumpFree_eq h.live hp, ← hn]
  refine hu.clientFree fun q hq d => ?_
  obtain rfl : p.freed = q := Option.some.inj hq
  exact ⟨rfl, rfl⟩

end Release

/-! ## The handshake -/

section Handshake

variable {c : Conn} {f : Side → ℕ} {b : Bufferevent}

/-- The relay's bufferevent may change in everything but its descriptor and its owner. -/
theorem Handshaking.setRelay (h : Handshaking c f b) (b' : Bufferevent) (hfd : b'.fd = b.fd)
    (hw : b'.writecb = false) (hr : b'.readcb ≠ some .pump) (he : b'.eventcb ≠ some .pump) :
    Handshaking (c.setBev .relay (some b')) f b' := by
  have hne : Side.client ≠ Side.relay := by decide
  refine ⟨⟨h.live, h.notFreed, fun s => ?_, fun s => ?_⟩, h.noPump, fun s => ?_, fun s => ?_,
    ?_, ?_,
    hfd.trans h.relayFd, hw, hr, he⟩
  · cases s <;> simp [Conn.setBev_ne, hne, h.fd]
  · cases s with
    | client => simpa [Conn.setBev_ne, hne] using h.bev .client
    | relay => exact ⟨b', by simp, hfd.trans h.relayFd⟩
  · cases s <;> simp [Conn.setBev_ne, hne, h.shutRead]
  · cases s <;> simp [Conn.setBev_ne, hne, h.shutWrite]
  · simpa [Conn.setBev_ne, hne] using h.client
  · simp

theorem Handshaking.await (h : Handshaking c f b) (msg : List Byte) (low : ℕ) (cb : ReadCb)
    (hcb : cb ≠ .pump) :
    Handshaking (c.setBev .relay (some (b.await msg low cb))) f (b.await msg low cb) :=
  h.setRelay _ rfl rfl (by simpa [Bufferevent.await] using hcb) (by simp [Bufferevent.await])

theorem Handshaking.setTimer (h : Handshaking c f b) (t : Option Event) :
    Handshaking { c with timeoutEv := t } f b :=
  ⟨⟨h.live, h.notFreed, h.fd, h.bev⟩, h.noPump, h.shutRead, h.shutWrite, h.client, h.relay,
    h.relayFd,
    h.writecb, h.readcb, h.eventcb⟩

theorem Handshaking.setState (h : Handshaking c f b) (st : ClientState)
    (hst : st ≠ .destroyed ∧ st ≠ .destroying) : Handshaking { c with clientState := st } f b :=
  ⟨⟨h.live, hst, h.fd, h.bev⟩, h.noPump, h.shutRead, h.shutWrite, h.client, h.relay, h.relayFd,
    h.writecb, h.readcb, h.eventcb⟩

theorem Handshaking.emits (h : Handshaking c f b) (es : List Effect) :
    Handshaking (c.emits es) f b :=
  ⟨⟨h.live, h.notFreed, h.fd, h.bev⟩, h.noPump, h.shutRead, h.shutWrite, h.client, h.relay,
    h.relayFd,
    h.writecb, h.readcb, h.eventcb⟩

theorem Handshaking.received (h : Handshaking c f b) (bs : List Byte) :
    Handshaking (c.received .relay b bs) f { b with input := b.input ++ bs } := by
  have hne : Side.client ≠ Side.relay := by decide
  refine ⟨⟨h.live, h.notFreed, fun s => ?_, fun s => ?_⟩, h.noPump, fun s => ?_, fun s => ?_,
    ?_, ?_,
    h.relayFd, h.writecb, h.readcb, h.eventcb⟩
  · cases s <;> simp [Conn.received, Conn.setEnd_ne, hne, h.fd]
  · cases s with
    | client => simpa [Conn.received, Conn.setEnd_ne, hne] using h.bev .client
    | relay => exact ⟨{ b with input := b.input ++ bs }, by simp [Conn.received], h.relayFd⟩
  · cases s <;> simp [Conn.received, Conn.setEnd_ne, hne, h.shutRead]
  · cases s <;> simp [Conn.received, Conn.setEnd_ne, hne, h.shutWrite]
  · simpa [Conn.received, Conn.setEnd_ne, hne] using h.client
  · simp [Conn.received]

theorem Handshaking.setTimeout (h : Handshaking c f b) (k : TimerCalls) :
    Handshaking (clientSetTimeout c k) f b ∧ (clientSetTimeout c k).notes = c.notes := by
  unfold clientSetTimeout
  rw [Conn.touch_live h.live]
  split
  · split
    · refine ⟨(h.setTimer (some ⟨k.evtimerAdd, false⟩)).emits [.alloc .timer], ?_⟩
      show (c.out ++ [Effect.alloc .timer]).filter Effect.notable = _
      rw [List.filter_append]
      exact List.append_nil _
    · exact ⟨h, rfl⟩
  · exact ⟨h.setTimer _, rfl⟩

theorem Handshaking.next_stays (h : Handshaking c f b) : Next (Waiting f) f c.notes c :=
  .stays ⟨b, h⟩ rfl

theorem Handshaking.next_clientFree (h : Handshaking c f b) :
    Next (Waiting f) f c.notes (clientFree c) :=
  h.toAttached.next_clientFree (.inl rfl) h.noPump

/-- A handshake callback deletes the timer first; without one it crashes. -/
theorem Handshaking.next_timer (h : Handshaking c f b) {k : Conn → Conn}
    (hk : Next (Waiting f) f c.notes (k { c with timeoutEv := some ⟨false, false⟩ })) :
    Next (Waiting f) f c.notes (c.touch fun c => withTimerDeleted c k) := by
  rw [Conn.touch_live h.live]
  unfold withTimerDeleted
  split
  · exact .crashed (by simp [Effect.notable])
  · exact hk

theorem Handshaking.next_sendConnectRequest (h : Handshaking c f b) (k : HandshakeCalls) :
    Next (Waiting f) f c.notes (socksSendConnectRequest c k) := by
  unfold socksSendConnectRequest
  rw [Conn.touch_live h.live]
  simp only [h.relay]
  split
  · rename_i heq hb
    obtain rfl := Option.some.inj heq
    split
    · exact h.next_clientFree
    · rename_i req _
      split
      · exact h.next_clientFree
      · obtain ⟨ht, hn⟩ := (h.await req 10 .connectReply (by decide)).setTimeout k.timer
        exact .stays ⟨_, ht⟩ hn
  · exact .crashed (by simp [Effect.notable])

theorem Handshaking.next_selectedMethod (h : Handshaking c f b) (k : HandshakeCalls) :
    Next (Waiting f) f c.notes (socksOnServerSelectedMethodReadcb c k) := by
  refine h.next_timer ?_
  have h' := h.setTimer (some ⟨false, false⟩)
  simp only [h.relay]
  split_ifs
  · exact h'.next_clientFree
  · exact h'.next_clientFree
  · exact h'.next_clientFree
  · exact h'.next_clientFree
  · exact (h'.setRelay { b with input := b.input.drop 2 } rfl h.writecb h.readcb
      h.eventcb).next_clientFree.of_notes rfl
  · exact ((h'.setRelay { b with input := b.input.drop 2 } rfl h.writecb h.readcb
      h.eventcb).next_sendConnectRequest k).of_notes rfl

theorem Handshaking.next_sendMethodSelection (h : Handshaking c f b) (k : HandshakeCalls) :
    Next (Waiting f) f c.notes (socksSendMethodSelection c k) := by
  unfold socksSendMethodSelection
  rw [Conn.touch_live h.live]
  simp only [h.relay]
  obtain ⟨ht, hn⟩ :=
    (h.await methodSelectRequest 2 .selectedMethod (by decide)).setTimeout k.timer
  exact .stays ⟨_, ht⟩ hn

theorem Handshaking.next_onconnect (h : Handshaking c f b) (w : BevEvents) (k : HandshakeCalls) :
    Next (Waiting f) f c.notes (relayOnconnectEventcb c w k) := by
  refine h.next_timer ?_
  have h' := h.setTimer (some ⟨false, false⟩)
  split_ifs
  · exact ((h'.setState .relayConnected (by decide)).next_sendMethodSelection k).of_notes rfl
  · exact h'.next_clientFree
  · exact h'.next_stays

theorem Handshaking.next_stageErr (h : Handshaking c f b) (w : BevEvents) :
    Next (Waiting f) f c.notes (socksHandshakeStageErrcb c w) := by
  refine h.next_timer ?_
  have h' := h.setTimer (some ⟨false, false⟩)
  split_ifs
  · exact h'.next_clientFree
  · exact h'.next_stays

end Handshake

end Transocks

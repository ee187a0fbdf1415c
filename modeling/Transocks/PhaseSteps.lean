import Transocks.Starts

/-!
# What one callback does to a client

`phase_step` says what one callback does to a client in one of its phases: it keeps the client in a
phase, releases it once, runs into a null pointer, or releases it twice. The last happens in one way
only, when the splice pump fails to start after its record was attached.
-/

namespace Transocks

/-! ## The callbacks of the buffer pump -/

section Copy

variable {c : Conn} {f : Side → ℕ}

/-- A release by the buffer pump, in whichever phase. -/
theorem Attached.bufferpumpFree {g : Side → Fd} (h : Attached c f g) (hp : c.userArg = none) :
    Inert (bufferpumpFree c) ∧ (bufferpumpFree c).notes = c.notes ++ releaseNotes f g := by
  obtain ⟨cb, hcb, -⟩ := h.bev .client
  obtain ⟨rb, hrb, -⟩ := h.bev .relay
  rw [bufferpumpFree_bev h.live hcb hrb]
  exact ((h.disable .client).disable .relay).clientFree
    fun p hp' => absurd (hp.symm.trans hp') (by simp)

theorem Copying.bufferpumpFree (h : Copying c f) :
    Next (Copying · f) f c.notes (bufferpumpFree c) := by
  obtain ⟨hi, hn⟩ := h.toAttached.bufferpumpFree h.noPump
  exact .released _ (.inl rfl) hi hn

theorem Copying.closeIfDone (h : Copying c f) :
    Next (Copying · f) f c.notes (closeIfDone c) := by
  unfold Transocks.closeIfDone
  split
  · exact h.bufferpumpFree
  · exact h.next_stays

theorem Copying.shutdownWrite (h : Copying c f) (s : Side) : Copying (shutdownWrite s c) f := by
  obtain ⟨b, hb, hfd⟩ := h.bev s
  exact (h.setEnd (e := { c.ends s with shutWrite := true }) rfl hb hfd (h.cbs s b hb)).emits _

theorem Copying.readcb (h : Copying c f) (s : Side) :
    Next (Copying · f) f c.notes (pumpReadcb s c) := by
  obtain ⟨b, hb, hfd⟩ := h.bev s
  obtain ⟨o, ho, hofd⟩ := h.bev s.other
  unfold pumpReadcb
  rw [Conn.touch_live h.live]
  simp only [hb, ho]
  have h₁ : Copying (c.setBev s (some { b with input := [] })) f :=
    h.setEnd rfl rfl hfd (h.cbs s b hb)
  exact .stays ((h₁.setEnd rfl rfl hofd (h.cbs _ o ho))) rfl

theorem Copying.writecb (h : Copying c f) (s : Side) :
    Next (Copying · f) f c.notes (pumpWritecb s c) := by
  obtain ⟨b, hb, -⟩ := h.bev s
  unfold pumpWritecb
  rw [Conn.touch_live h.live]
  simp only [hb]
  split
  · exact (h.shutdownWrite s).closeIfDone.of_notes
      (by simp [Transocks.shutdownWrite, Effect.notable])
  · exact h.closeIfDone

theorem Copying.eventcb (h : Copying c f) (s : Side) (w : BevEvents) (e : Errno) :
    Next (Copying · f) f c.notes (pumpEventcb s c w e) := by
  obtain ⟨b, hb, hfd⟩ := h.bev s
  obtain ⟨o, ho, -⟩ := h.bev s.other
  have hcbs := h.cbs s b hb
  unfold pumpEventcb
  rw [Conn.touch_live h.live]
  simp only [hb, ho]
  split_ifs
  · unfold pumpReadEof
    have h₁ := (h.setEnd (e := { c.ends s with
      shutRead := true, bev := some { b with enRead := false } }) rfl rfl hfd hcbs).emits
        [.shutdown s (c.ends s).fd .rd]
    simp only
    split
    · exact (h₁.shutdownWrite s.other).closeIfDone.of_notes
        (by simp [Transocks.shutdownWrite, Effect.notable])
    · exact h₁.closeIfDone.of_notes (by simp [Effect.notable])
  · have h₁ : Copying (pumpWriteEof s c b) f :=
      (h.setEnd (e := { c.ends s with shutWrite := true, bev := some { b with enWrite := false } })
        rfl
        rfl hfd hcbs).emits _
    exact h₁.closeIfDone.of_notes (by simp [pumpWriteEof, Effect.notable])
  · exact h.bufferpumpFree
  · exact h.closeIfDone

end Copy

/-! ## The callbacks of the splice pump -/

/-- A splicing client in the middle of a callback of direction `d`, before the termination check. -/
structure Midway (c : Conn) (f : Side → ℕ) (p : Splicepump) (d : Direction) : Prop
    extends Attached c f handedOver where
  pumping : c.clientState = .pumpingData
  pump : c.userArg = some p
  timer : ∀ ev, c.timeoutEv = some ev → ev.added = false
  pipefd : ∀ d, 0 ≤ (p.pipe d).pipeReadfd ∧ 0 ≤ (p.pipe d).pipeWritefd
  other : ¬ (c.readFlag d.other = true ∧ c.writeFlag d.other = true)

def Ev.isSplice : Ev → Bool
  | .spliceRead _ _ => true
  | .spliceWrite _ _ => true
  | _ => false

section Splice

variable {m : PumpMethod} {c c₁ : Conn} {f : Side → ℕ} {p p₁ : Splicepump} {d : Direction}
  {k : Splice}

theorem Splicing.midway (h : Splicing c f p) (p₁ : Splicepump) (hp : p₁.pipe = p.pipe)
    (d : Direction) :
    Midway (c.setPump p₁) f p₁ d :=
  ⟨⟨h.live, h.notFreed, h.fd, h.bev⟩, h.pumping, rfl, h.timer, by rw [hp]; exact h.pipefd,
    h.unfinished d.other⟩

theorem isInvalidFd_natCast (n : ℕ) : isInvalidFd (n : ℤ) = false :=
  isInvalidFd_eq_false (Int.natCast_nonneg n)

theorem Midway.next_free (h : Midway c f p d) : Outcome .splicepump f c (splicepumpFree c) := by
  obtain ⟨hi, hn⟩ := h.toAttached.splicepumpFree h.pump
  exact ⟨_, piping_splicepumpFreeEffects p, .released handedOver (.inr rfl) hi hn⟩

theorem Midway.check_cases (h : Midway c f p d) :
    (checkNormalTermination c d = c ∧ Splicing c f p) ∨
      checkNormalTermination c d = splicepumpFree c := by
  rw [checkNormalTermination_live h.live]
  split
  · exact .inr rfl
  · rename_i hnt
    refine .inl ⟨rfl, h.toAttached, h.pumping, h.pump, h.timer, h.pipefd, fun e he => ?_⟩
    rcases Direction.eq_or_eq_other d e with rfl | rfl
    · simp [normalTermination, h.fd, isInvalidFd_natCast, he] at hnt
    · exact h.other he

theorem Midway.next_check (h : Midway c f p d) :
    Outcome .splicepump f c (checkNormalTermination c d) := by
  rcases h.check_cases with ⟨heq, hs⟩ | heq
  · rw [heq]
    exact Next.outcome (.stays (.splicing p hs) rfl)
  · rw [heq]
    exact h.next_free

/-- A move that keeps the sockets, the bufferevents, the numbers of the pipes and the flags of the
other direction. -/
theorem Midway.move (h : Midway c f p d) (hl : c₁.released = c.released)
    (hst : c₁.clientState = c.clientState) (hp : c₁.userArg = some p₁)
    (ht : c₁.timeoutEv = c.timeoutEv)
    (hends : ∀ s, (c₁.ends s).fd = (c.ends s).fd ∧ (c₁.ends s).bev = (c.ends s).bev)
    (hpipe : ∀ e, (p₁.pipe e).pipeReadfd = (p.pipe e).pipeReadfd ∧
      (p₁.pipe e).pipeWritefd = (p.pipe e).pipeWritefd)
    (hflag : c₁.readFlag d.other = c.readFlag d.other ∧
      c₁.writeFlag d.other = c.writeFlag d.other) :
    Midway c₁ f p₁ d := by
  refine ⟨⟨hl.trans h.live, by rw [hst]; exact h.notFreed, fun s => ?_, fun s => ?_⟩,
    hst.trans h.pumping, hp, by rw [ht]; exact h.timer, fun e => ?_, ?_⟩
  · rw [(hends s).1]
    exact h.fd s
  · rw [(hends s).2]
    exact h.bev s
  · rw [(hpipe e).1, (hpipe e).2]
    exact h.pipefd e
  · rw [hflag.1, hflag.2]
    exact h.other

theorem piping_closePipe {h : Handle} (hh : ∀ s, h ≠ .sock s) (fd : Fd) :
    Piping (closeEffect h fd) := by
  unfold closeEffect
  split
  · refine Piping.cons ?_ Piping.nil
    cases h with
    | sock s => exact absurd rfl (hh s)
    | pipeRead d => rfl
    | pipeWrite d => rfl
  · exact Piping.nil

theorem FillMove.midway (hm : FillMove c p d k c₁) (h : Midway c f p d) :
    ∃ p₁ es, Midway c₁ f p₁ d ∧ Piping es ∧ c₁.notes = c.notes ++ es := by
  cases hm with
  | transfer hb =>
    exact ⟨_, [], h.move rfl rfl rfl rfl (fun s => ⟨rfl, rfl⟩) (setPipe_fds _ _ _ rfl rfl)
      ⟨rfl, rfl⟩,
      Piping.nil, (List.append_nil _).symm⟩
  | retry he => exact ⟨p, [], h, Piping.nil, (List.append_nil _).symm⟩
  | activate he =>
    exact ⟨_, [], h.move rfl rfl rfl rfl (fun s => ⟨rfl, rfl⟩) (fun e => ⟨rfl, rfl⟩) ⟨rfl, rfl⟩,
      Piping.nil, (List.append_nil _).symm⟩
  | eof =>
    have hclose : Piping (closeEffect (.pipeWrite d) (p.pipe d).pipeWritefd) :=
      piping_closePipe (by simp) _
    refine ⟨p.setReadEv d ((p.readEv d).map Event.del), _, h.move rfl rfl rfl rfl (fun s => ?_)
      (fun e => ⟨rfl, rfl⟩) ?_, hclose, ?_⟩
    · rcases Side.eq_or_eq_other d.source s with rfl | rfl <;>
        simp [writeToPipeEof, Conn.setReadFlag, -Direction.source_other]
    · cases d <;> exact ⟨rfl, rfl⟩
    · unfold writeToPipeEof
      rw [notes_emits, List.filter_append, hclose.filter]
      rfl

theorem DrainMove.midway (hm : DrainMove c p d k c₁) (h : Midway c f p d) :
    ∃ p₁ es, Midway c₁ f p₁ d ∧ Piping es ∧ c₁.notes = c.notes ++ es := by
  cases hm with
  | transfer hb =>
    exact ⟨_, [], h.move rfl rfl rfl rfl (fun s => ⟨rfl, rfl⟩) (setPipe_fds _ _ _ rfl rfl)
      ⟨rfl, rfl⟩,
      Piping.nil, (List.append_nil _).symm⟩
  | retry he => exact ⟨p, [], h, Piping.nil, (List.append_nil _).symm⟩
  | eof =>
    have hclose : Piping (closeEffect (.pipeRead d) (p.pipe d).pipeReadfd) :=
      piping_closePipe (by simp) _
    refine ⟨p, _, h.move rfl rfl h.pump rfl (fun s => ?_) (fun e => ⟨rfl, rfl⟩) ?_, hclose, ?_⟩
    · rcases Side.eq_or_eq_other d.target s with rfl | rfl <;>
        simp [readFromPipeEof, Conn.setWriteFlag]
    · cases d <;> exact ⟨rfl, rfl⟩
    · unfold readFromPipeEof
      rw [notes_emits, List.filter_append, hclose.filter]
      rfl

theorem Splicing.spliceRead (h : Splicing c f p) :
    Outcome .splicepump f c (c.step .splicepump (.spliceRead d k)) := by
  have hmid := h.midway (wokenRead p d) rfl d
  rcases step_spliceRead (m := .splicepump) (d := d) (k := k) h.live h.pump with
    ⟨-, hfd⟩ | ⟨he, -⟩ | ⟨c₁, hm, he⟩
  · rw [h.fd, isInvalidFd_natCast, isInvalidFd_eq_false (h.pipefd d).2] at hfd
    cases hfd
  · rw [he]
    exact hmid.next_free
  · obtain ⟨p₁, es, hmid₁, hes, hn⟩ := hm.midway hmid
    rw [he]
    exact hmid₁.next_check.after hes hn

theorem Splicing.spliceWrite (h : Splicing c f p) :
    Outcome .splicepump f c (c.step .splicepump (.spliceWrite d k)) := by
  have hmid := h.midway (wokenWrite p d) rfl d
  rcases step_spliceWrite (m := .splicepump) (d := d) (k := k) h.live h.pump with
    ⟨-, hfd⟩ | ⟨he, -⟩ | ⟨c₁, hm, he⟩
  · rw [h.fd, isInvalidFd_natCast, isInvalidFd_eq_false (h.pipefd d).1] at hfd
    cases hfd
  · rw [he]
    exact hmid.next_free
  · obtain ⟨p₁, es, hmid₁, hes, hn⟩ := hm.midway hmid
    rw [he]
    exact hmid₁.next_check.after hes hn

/-- **Any callback of the splice pump.** It gives the client up, or makes one move and checks for
termination. -/
theorem step_splice {ev : Ev} (hl : c.released = false) (hp : c.userArg = some p)
    (hev : ev.isSplice = true) :
    ∃ p₀ d, (p₀ = wokenRead p d ∨ p₀ = wokenWrite p d) ∧
      (c.step m ev = splicepumpFree (c.setPump p₀) ∨
        ∃ c₁ k, (FillMove (c.setPump p₀) p₀ d k c₁ ∨ DrainMove (c.setPump p₀) p₀ d k c₁) ∧
          c.step m ev = checkNormalTermination c₁ d) := by
  cases ev with
  | spliceRead d k =>
    refine ⟨wokenRead p d, d, .inl rfl, ?_⟩
    rcases step_spliceRead (m := m) (d := d) (k := k) hl hp with
      ⟨he, -⟩ | ⟨he, -⟩ | ⟨c₁, hm, he⟩
    · exact .inl he
    · exact .inl he
    · exact .inr ⟨c₁, k, .inl hm, he⟩
  | spliceWrite d k =>
    refine ⟨wokenWrite p d, d, .inr rfl, ?_⟩
    rcases step_spliceWrite (m := m) (d := d) (k := k) hl hp with
      ⟨he, -⟩ | ⟨he, -⟩ | ⟨c₁, hm, he⟩
    · exact .inl he
    · exact .inl he
    · exact .inr ⟨c₁, k, .inr hm, he⟩
  | _ => cases hev

/-- **A callback of the splice pump** releases the client, or makes one move after which the client
goes on splicing. -/
theorem Splicing.splice_moves (h : Splicing c f p) {ev : Ev} (hev : ev.isSplice = true) :
    Inert (c.step .splicepump ev) ∨ ∃ p₀ d k p₁, p₀.pipe = p.pipe ∧ Midway (c.setPump p₀) f p₀ d ∧
      (FillMove (c.setPump p₀) p₀ d k (c.step .splicepump ev) ∨
        DrainMove (c.setPump p₀) p₀ d k (c.step .splicepump ev)) ∧
      Splicing (c.step .splicepump ev) f p₁ := by
  have hfree : ∀ {c₁ p₁ d}, Midway c₁ f p₁ d → Inert (splicepumpFree c₁) :=
    fun hm => (hm.toAttached.splicepumpFree hm.pump).1
  obtain ⟨p₀, d, hp₀, hstep⟩ := step_splice (m := .splicepump) h.live h.pump hev
  have hpipe : p₀.pipe = p.pipe := by rcases hp₀ with rfl | rfl <;> rfl
  have hmid : Midway (c.setPump p₀) f p₀ d := h.midway p₀ hpipe d
  rcases hstep with he | ⟨c₁, k, hm, he⟩
  · rw [he]
    exact .inl (hfree hmid)
  · obtain ⟨p₁, hmid₁⟩ : ∃ p₁, Midway c₁ f p₁ d := by
      rcases hm with hm | hm
      · obtain ⟨p₁, -, hmid₁, -⟩ := hm.midway hmid
        exact ⟨p₁, hmid₁⟩
      · obtain ⟨p₁, -, hmid₁, -⟩ := hm.midway hmid
        exact ⟨p₁, hmid₁⟩
    rw [he]
    rcases hmid₁.check_cases with ⟨heq, hs⟩ | heq
    · rw [heq]
      exact .inr ⟨p₀, d, k, p₁, hpipe, hmid, hm, hs⟩
    · rw [heq]
      exact .inl (hfree hmid₁)

theorem Splicing.splice_cases (h : Splicing c f p) {ev : Ev} (hev : ev.isSplice = true) :
    (∃ p', Splicing (c.step .splicepump ev) f p') ∨ Inert (c.step .splicepump ev) := by
  rcases h.splice_moves hev with hi | ⟨p₀, d, k, p₁, -, -, -, hs⟩
  · exact .inr hi
  · exact .inl ⟨p₁, hs⟩

end Splice

/-! ## Any callback -/

def Conn.Starts (c : Conn) (k : StartCalls) : Ev → Prop
  | .read .relay bs k' => k'.start = k ∧ ∃ b, (c.ends .relay).bev = some b ∧
    b.readcb = some .connectReply ∧ b.readLow ≤ (b.input ++ bs).length ∧
      AcceptsReply c (b.input ++ bs)
  | _ => False

/-- The callback starts the splice pump, and the start fails with the pump record attached. -/
def Conn.StartsBadly (m : PumpMethod) (c : Conn) (ev : Ev) : Prop :=
  m = .splicepump ∧ ∃ k, c.Starts k ev ∧ k.failsAttached = true

section Step

variable {m : PumpMethod} {c : Conn} {f : Side → ℕ} {ev : Ev}

theorem Handshaking.read_cases {b : Bufferevent} (h : Handshaking c f b) (bs : List Byte)
    (k : HandshakeCalls) :
    ((∀ k', ¬ c.Starts k' (.read .relay bs k)) ∧
      Next (Waiting f) f c.notes (c.step m (.read .relay bs k))) ∨
    (c.Starts k.start (.read .relay bs k) ∧
      PumpStart m f c.notes k.start (c.step m (.read .relay bs k))) := by
  have hrec := h.received bs
  have hinv : ∀ k', c.Starts k' (.read .relay bs k) → b.readcb = some .connectReply ∧
      b.readLow ≤ (b.input ++ bs).length ∧ AcceptsReply c (b.input ++ bs) := by
    rintro k' ⟨-, b', hb', hs⟩
    obtain rfl := Option.some.inj (h.relay.symm.trans hb')
    exact hs
  simp only [Conn.step, h.relay]
  split_ifs with hlow
  · exact .inl ⟨fun k' hs => absurd (hinv k' hs).2.1 (Nat.not_le.mpr hlow), hrec.next_stays⟩
  · cases hcb : b.readcb with
    | none => exact .inl ⟨fun k' hs => by simp [(hinv k' hs).1] at hcb, hrec.next_stays⟩
    | some cb =>
      cases cb with
      | selectedMethod =>
        exact .inl ⟨fun k' hs => by simp [(hinv k' hs).1] at hcb, hrec.next_selectedMethod k⟩
      | connectReply =>
        rcases hrec.connectReply_cases (m := m) (k := k) with ⟨hn, hnext⟩ | ⟨hs, hstart⟩
        · exact .inl ⟨fun k' hs => hn (hinv k' hs).2.2, hnext⟩
        · exact .inr ⟨⟨rfl, b, h.relay, hcb, Nat.not_lt.mp hlow, hs⟩, hstart⟩
      | pump => exact absurd hcb h.readcb

/-- libevent writes nothing to a client whose output buffer is empty. -/
theorem Handshaking.flushed_client {b : Bufferevent} (h : Handshaking c f b) (n : ℕ) :
    c.flushed .client (Bufferevent.new (f .client)) n = c := by
  have hend : ({ c.ends .client with
      bev := some { Bufferevent.new (f .client) with
        output := (Bufferevent.new (f .client)).output.drop n },
      tx := (c.ends .client).tx ++ (Bufferevent.new (f .client)).output.take n } : End) =
        c.ends .client := by
    have hb := h.client
    generalize c.ends .client = e at hb
    cases e
    simp_all [Bufferevent.new]
  unfold Conn.flushed Conn.setEnd
  rw [hend, Function.update_eq_self]

theorem Handshaking.flushed_relay {b : Bufferevent} (h : Handshaking c f b) (n : ℕ) :
    Handshaking (c.flushed .relay b n) f { b with output := b.output.drop n } := by
  have hne : Side.client ≠ Side.relay := by decide
  refine ⟨⟨h.live, h.notFreed, fun s => ?_, fun s => ?_⟩, h.noPump, fun s => ?_, fun s => ?_, ?_,
    ?_, h.relayFd, h.writecb, h.readcb, h.eventcb⟩
  · cases s <;> simp [Conn.flushed, Conn.setEnd_ne, hne, h.fd]
  · cases s with
    | client => simpa [Conn.flushed, Conn.setEnd_ne, hne] using h.bev .client
    | relay => exact ⟨{ b with output := b.output.drop n }, by simp [Conn.flushed], h.relayFd⟩
  · cases s <;> simp [Conn.flushed, Conn.setEnd_ne, hne, h.shutRead]
  · cases s <;> simp [Conn.flushed, Conn.setEnd_ne, hne, h.shutWrite]
  · simpa [Conn.flushed, Conn.setEnd_ne, hne] using h.client
  · simp [Conn.flushed]

theorem Handshaking.flushed {b : Bufferevent} (h : Handshaking c f b) {s : Side} {n : ℕ}
    {o : Bufferevent} (ho : (c.ends s).bev = some o) :
    o.writecb = false ∧ ∃ b', Handshaking (c.flushed s o n) f b' := by
  cases s with
  | client =>
    obtain rfl := Option.some.inj (h.client.symm.trans ho)
    exact ⟨rfl, b, by rw [h.flushed_client n]; exact h⟩
  | relay =>
    obtain rfl := Option.some.inj (h.relay.symm.trans ho)
    exact ⟨h.writecb, _, h.flushed_relay n⟩

/-- **A callback on a waiting client** starts the pump, or it keeps the client waiting, releases it
or runs into a null pointer. -/
theorem Handshaking.step_cases {b : Bufferevent} (h : Handshaking c f b) (hen : c.Enabled ev) :
    ((∀ k, ¬ c.Starts k ev) ∧ Next (Waiting f) f c.notes (c.step m ev)) ∨
      ∃ k, c.Starts k ev ∧ PumpStart m f c.notes k (c.step m ev) := by
  cases ev with
  | event s w e k =>
    obtain ⟨o, ho, -, -, hcb⟩ := hen
    refine .inl ⟨fun _ => id, ?_⟩
    cases s with
    | client =>
      obtain rfl := Option.some.inj (h.client.symm.trans ho)
      cases hcb
    | relay =>
      obtain rfl := Option.some.inj (h.relay.symm.trans ho)
      simp only [Conn.step, h.relay]
      cases hev : b.eventcb with
      | none => rw [hev] at hcb; cases hcb
      | some cb =>
        cases cb with
        | relayOnconnect => exact h.next_onconnect w k
        | handshakeStageErr => exact h.next_stageErr w
        | pump => exact absurd hev h.eventcb
  | read s bs k =>
    obtain ⟨o, ho, -, hr⟩ := hen
    cases s with
    | client =>
      obtain rfl := Option.some.inj (h.client.symm.trans ho)
      cases hr
    | relay =>
      rcases h.read_cases (m := m) bs k with hnext | hstart
      · exact .inl hnext
      · exact .inr ⟨_, hstart⟩
  | wrote s n =>
    obtain ⟨o, ho, -, -⟩ := hen
    obtain ⟨hw, b', hf⟩ := h.flushed (n := n) ho
    simp only [Conn.step, ho, hw, Bool.false_and, Bool.false_eq_true, if_false]
    exact .inl ⟨fun _ => id, hf.next_stays⟩
  | timeout => exact .inl ⟨fun _ => id, (h.setTimer (c.timeoutEv.map Event.del)).next_clientFree⟩
  | spliceRead d q =>
    obtain ⟨p, -, hp, -⟩ := hen
    exact absurd (h.noPump.symm.trans hp) (by simp)
  | spliceWrite d q =>
    obtain ⟨p, -, hp, -⟩ := hen
    exact absurd (h.noPump.symm.trans hp) (by simp)

theorem Copying.step (h : Copying c f) (hen : c.Enabled ev) :
    Next (Copying · f) f c.notes (c.step .bufferpump ev) := by
  cases ev with
  | event s w e k =>
    obtain ⟨b, hb, -⟩ := hen
    simp only [Conn.step, hb, (h.cbs s b hb).2]
    cases s with
    | client => exact h.eventcb .client w e
    | relay => exact h.eventcb .relay w e
  | read s bs k =>
    obtain ⟨b, hb, -⟩ := hen
    obtain ⟨b', hb', hfd⟩ := h.bev s
    obtain rfl := Option.some.inj (hb.symm.trans hb')
    have hrec : Copying (c.received s b bs) f := h.setEnd (e := { c.ends s with
      bev := some { b with input := b.input ++ bs }, rx := (c.ends s).rx ++ bs }) rfl rfl hfd
        (h.cbs s b hb)
    simp only [Conn.step, hb, (h.cbs s b hb).1]
    split_ifs
    · exact hrec.next_stays.of_notes rfl
    · cases s with
      | client => exact (hrec.readcb .client).of_notes rfl
      | relay => exact (hrec.readcb .relay).of_notes rfl
  | wrote s n =>
    obtain ⟨b, hb, -⟩ := hen
    obtain ⟨b', hb', hfd⟩ := h.bev s
    obtain rfl := Option.some.inj (hb.symm.trans hb')
    have hfl : Copying (c.flushed s b n) f := h.setEnd (e := { c.ends s with
      bev := some { b with output := b.output.drop n },
      tx := (c.ends s).tx ++ b.output.take n }) rfl rfl hfd (h.cbs s b hb)
    simp only [Conn.step, hb]
    split_ifs
    · cases s with
      | client => exact (hfl.writecb .client).of_notes rfl
      | relay => exact (hfl.writecb .relay).of_notes rfl
    · exact hfl.next_stays.of_notes rfl
  | timeout =>
    obtain ⟨e, he, hadd⟩ := hen
    rw [h.timer e he] at hadd
    cases hadd
  | spliceRead d q =>
    obtain ⟨p, -, hp, -⟩ := hen
    exact absurd (h.noPump.symm.trans hp) (by simp)
  | spliceWrite d q =>
    obtain ⟨p, -, hp, -⟩ := hen
    exact absurd (h.noPump.symm.trans hp) (by simp)

theorem Splicing.no_bev {p : Splicepump} (h : Splicing c f p) {s : Side} {b : Bufferevent}
    (hb : (c.ends s).bev = some b) : ¬ 0 ≤ b.fd := by
  obtain ⟨b', hb', hfd⟩ := h.bev s
  obtain rfl := Option.some.inj (hb.symm.trans hb')
  rw [hfd]
  show ¬ (0 : ℤ) ≤ -1
  decide

theorem Splicing.enabled {p : Splicepump} (h : Splicing c f p) (hen : c.Enabled ev) :
    ev.isSplice = true := by
  cases ev with
  | event s w e k =>
    obtain ⟨b, hb, hfd, -⟩ := hen
    exact absurd hfd (h.no_bev hb)
  | read s bs k =>
    obtain ⟨b, hb, hfd, -⟩ := hen
    exact absurd hfd (h.no_bev hb)
  | wrote s n =>
    obtain ⟨b, hb, hfd, -⟩ := hen
    exact absurd hfd (h.no_bev hb)
  | timeout =>
    obtain ⟨e, he, hadd⟩ := hen
    rw [h.timer e he] at hadd
    cases hadd
  | spliceRead d q => rfl
  | spliceWrite d q => rfl

theorem Splicing.step {p : Splicepump} (h : Splicing c f p) (hen : c.Enabled ev) :
    Outcome .splicepump f c (c.step .splicepump ev) := by
  have hev := h.enabled hen
  cases ev with
  | spliceRead d q => exact h.spliceRead
  | spliceWrite d q => exact h.spliceWrite
  | _ => cases hev

/-- **One callback.** Unless it starts the splice pump badly, it keeps the client in a phase,
releases it once or runs into a null pointer. -/
theorem phase_step (h : Phase m c f) (hen : c.Enabled ev) (hbad : ¬ c.StartsBadly m ev) :
    Outcome m f c (c.step m ev) := by
  cases h with
  | handshaking b h =>
    rcases h.step_cases (m := m) hen with ⟨-, hnext⟩ | ⟨k, hs, hstart⟩
    · exact (hnext.imp fun ⟨b', hb'⟩ => Phase.handshaking b' hb').outcome
    · refine hstart.outcome fun hm => ?_
      rw [← Bool.not_eq_true]
      exact fun hk => hbad ⟨hm, k, hs, hk⟩
  | copying h => exact ((h.step hen).imp Phase.copying).outcome
  | splicing p h => exact h.step hen

/-- Only a waiting client starts the pump. -/
theorem Phase.starts {k : StartCalls} (h : Phase m c f) (hen : c.Enabled ev) (hs : c.Starts k ev) :
    ∃ b, Handshaking c f b := by
  cases ev with
  | read s bs k' =>
    cases s with
    | client => exact absurd hs id
    | relay =>
      obtain ⟨-, b, hb, hcb, -⟩ := hs
      cases h with
      | handshaking b' h => exact ⟨b', h⟩
      | copying h =>
        have hpump := (h.cbs _ b hb).1
        rw [hcb] at hpump
        cases hpump
      | splicing p h =>
        obtain ⟨o, ho, hfd, -⟩ := hen
        exact absurd hfd (h.no_bev ho)
  | _ => exact absurd hs id

/-- **The bad start.** It releases the client and then releases it again. -/
theorem phase_step_twice (h : Phase m c f) (hen : c.Enabled ev) (hbad : c.StartsBadly m ev) :
    ∃ st, Piping st ∧ (c.step m ev).notes =
      c.notes ++ st ++ releaseNotes f handedOver ++ [.doubleFree] := by
  obtain ⟨rfl, k, hs, hk⟩ := hbad
  obtain ⟨b, h⟩ := h.starts hen hs
  rcases h.step_cases (m := .splicepump) hen with ⟨hno, -⟩ | ⟨k', hs', hstart⟩
  · exact absurd hs (hno k)
  · obtain rfl : k = k' := by
      cases ev with
      | read s bs k =>
        cases s with
        | client => exact absurd hs id
        | relay => exact hs.1.symm.trans hs'.1
      | _ => exact absurd hs id
    obtain ⟨c₀, b₀, h₀, hn, -, heq⟩ := hstart
    obtain ⟨st, hst, hnotes⟩ := afterStart_twice h₀ k hk
    rw [heq]
    exact ⟨_, Piping.cons rfl hst, hn ▸ hnotes⟩

end Step

end Transocks

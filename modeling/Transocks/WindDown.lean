import Transocks.BufferClose
import Transocks.SpliceLive
import Transocks.Refinement

/-!
# Connections wind down

A client whose peers have closed is not held up by the program. With the buffer pump, once both
sides have ended their streams, every write takes bytes out of the two output buffers and nothing
puts bytes in; the client is gone when they are empty, and until then libevent has bytes to write.
With the splice pump one direction is enough: its pipe has no writer any more, every callback of the
pipe takes bytes out of it, and the client is gone when it is empty.

So the turns that make progress are bounded by the bytes that wait, whatever the other clients do in
between. With the splice pump this needs that no close of theirs hits an end of the pipe.
-/

namespace Transocks

open Runs

/-! ## The buffer pump -/

/-- A bufferevent that is switched as the flags of its side say. -/
structure SwitchedBy (e : End) (b : Bufferevent) : Prop where
  fd : 0 ≤ b.fd
  reads : e.shutRead = true → b.enRead = false
  writes : e.shutWrite = false → b.enWrite = true

def Switched (c : Conn) (b : Side → Bufferevent) : Prop := ∀ s, SwitchedBy (c.ends s) (b s)

/-- A client that the buffer pump serves. -/
structure Engaged (c : Conn) (b : Side → Bufferevent) : Prop extends Serving c b, Closing c b where
  switched : Switched c b

theorem Side.forall_of {R : Side → Prop} (s : Side) (hs : R s) (ho : R s.other) (t : Side) :
    R t := by
  rcases Side.eq_or_eq_other s t with rfl | rfl
  · exact hs
  · exact ho

section Moves

variable {c c₂ : Conn} {b b₂ : Side → Bufferevent} {ev : Ev}

theorem Switched.flushed (h : Switched c b) (s : Side) (n : ℕ) :
    Switched (c.flushed s (b s) n) (flushedBev b s n) := by
  refine Side.forall_of s ?_ ?_
  · simpa [Conn.flushed] using ⟨(h s).fd, (h s).reads, (h s).writes⟩
  · simpa [Conn.flushed] using h s.other

theorem Switched.eofMarked (h : Switched c b) (s : Side) :
    Switched (eofMarked s c b) (eofBev b s) := by
  refine Side.forall_of s ?_ ?_
  · simpa [Transocks.eofMarked] using ⟨(h s).fd, fun _ => rfl, (h s).writes⟩
  · simpa [Transocks.eofMarked] using h s.other

theorem Switched.shutdownWrite (h : Switched c b) (s : Side) : Switched (shutdownWrite s c) b := by
  refine Side.forall_of s ?_ ?_
  · simpa [Transocks.shutdownWrite] using ⟨(h s).fd, (h s).reads, fun hw => by simp at hw⟩
  · simpa [Transocks.shutdownWrite] using h s.other

theorem CopyMove.switched (hm : CopyMove c b ev c₂ b₂) (h : Switched c b) : Switched c₂ b₂ := by
  cases hm with
  | @read s bs k he =>
    refine Side.forall_of s ?_ ?_
    · simpa using ⟨(h s).fd, (h s).reads, (h s).writes⟩
    · simpa using ⟨(h s.other).fd, (h s.other).reads, (h s.other).writes⟩
  | @wrote s n hw => exact h.flushed s n
  | @drained s n ho hr => exact (h.flushed s n).shutdownWrite s
  | @eof s w e k hw ho => exact h.eofMarked s
  | @eofDrained s w e k hw ho => exact (h.eofMarked s).shutdownWrite s.other
  | @writeEof s w e k hr hw =>
    refine Side.forall_of s ?_ ?_
    · simpa [pumpWriteEof] using ⟨(h s).fd, (h s).reads, fun hw => by simp at hw⟩
    · simpa [pumpWriteEof] using h s.other
  | ignored hr => exact h

theorem CopyMove.shutRead (hm : CopyMove c b ev c₂ b₂) {s : Side}
    (h : (c.ends s).shutRead = true) : (c₂.ends s).shutRead = true := by
  cases hm with
  | @read t bs k he =>
    rcases Side.eq_or_eq_other t s with rfl | rfl <;> simpa using h
  | @wrote t n hw =>
    rcases Side.eq_or_eq_other t s with rfl | rfl <;> simpa [Conn.flushed] using h
  | @drained t n ho hr =>
    rcases Side.eq_or_eq_other t s with rfl | rfl <;> simpa [shutdownWrite, Conn.flushed] using h
  | @eof t w e k hw ho =>
    rcases Side.eq_or_eq_other t s with rfl | rfl
    · simp [eofMarked]
    · simpa [eofMarked] using h
  | @eofDrained t w e k hw ho =>
    rcases Side.eq_or_eq_other t s with rfl | rfl
    · simp [shutdownWrite, eofMarked]
    · simpa [shutdownWrite, eofMarked] using h
  | @writeEof t w e k hr hw =>
    rcases Side.eq_or_eq_other t s with rfl | rfl <;> simpa [pumpWriteEof] using h
  | ignored hr => exact h

def outputs (b : Side → Bufferevent) : ℕ := (b .client).output.length + (b .relay).output.length

theorem outputs_eq (b : Side → Bufferevent) (s : Side) :
    outputs b = (b s).output.length + (b s.other).output.length := by
  cases s with
  | client => rfl
  | relay => exact Nat.add_comm _ _

theorem outputs_flushedBev (b : Side → Bufferevent) (s : Side) (n : ℕ) :
    outputs (flushedBev b s n) = outputs b - min n (b s).output.length := by
  rw [outputs_eq _ s, outputs_eq b s, flushedBev_same, flushedBev_other]
  simp only [List.length_drop]
  omega

/-- With both sides at end of file the output buffers only drain. -/
theorem CopyMove.outputs_le (hm : CopyMove c b ev c₂ b₂) (h : ∀ s, (b s).enRead = false) :
    outputs b₂ ≤ outputs b ∧
      ∀ s n, ev = .wrote s n → 0 < n → (b s).output ≠ [] → outputs b₂ < outputs b := by
  have hwrote : ∀ s n, outputs (flushedBev b s n) ≤ outputs b ∧
      (0 < n → (b s).output ≠ [] → outputs (flushedBev b s n) < outputs b) := by
    intro s n
    rw [outputs_flushedBev]
    refine ⟨by omega, fun hn hne => ?_⟩
    have hpos : 0 < (b s).output.length := List.length_pos_iff.mpr hne
    have hle : (b s).output.length ≤ outputs b := by
      rw [outputs_eq b s]
      omega
    omega
  have hsame : ∀ b' : Side → Bufferevent, (∀ s, (b' s).output = (b s).output) →
      outputs b' = outputs b := fun b' hb => by
    unfold outputs
    rw [hb, hb]
  cases hm with
  | @read s bs k he => exact absurd (he.symm.trans (h s)) (by decide)
  | @wrote s n hw =>
    refine ⟨(hwrote s n).1, ?_⟩
    rintro _ _ ⟨⟩
    exact (hwrote s n).2
  | @drained s n ho hr =>
    refine ⟨(hwrote s n).1, ?_⟩
    rintro _ _ ⟨⟩
    exact (hwrote s n).2
  | @eof s w e k hw ho =>
    refine ⟨(hsame _ eofBev_output).le, ?_⟩
    rintro _ _ ⟨⟩
  | @eofDrained s w e k hw ho =>
    refine ⟨(hsame _ eofBev_output).le, ?_⟩
    rintro _ _ ⟨⟩
  | @writeEof s w e k hr hw =>
    refine ⟨(hsame _ fun t => ?_).le, ?_⟩
    · rcases Side.eq_or_eq_other s t with rfl | rfl <;> simp
    · rintro _ _ ⟨⟩
  | ignored hr =>
    refine ⟨le_rfl, ?_⟩
    rintro _ _ ⟨⟩

end Moves

section Turns

variable {c c' : Conn} {b : Side → Bufferevent} {t : Turn}

/-- A turn of a client that the buffer pump serves is a move after which the pump goes on serving
it, or releases it; a write that releases it has found all four flags set. -/
theorem Engaged.turn (h : Engaged c b) (hs : LifeStep .bufferpump c t c') :
    (∃ ev b', t = .callback ev ∧ CopyMove c b ev c' b' ∧ Engaged c' b') ∨
      (c'.released = true ∧ ∀ s n, t = .callback (.wrote s n) →
        ∃ c₂ b₂, CopyMove c b (.wrote s n) c₂ b₂ ∧ checkClose c₂ = true ∧
          c' = bufferpumpFree c₂) := by
  have hcopy : CopyStep c t c' := by
    refine ⟨hs, fun ev hev => h.enabled ?_⟩
    subst hev
    exact hs.2.1
  rcases hcopy.cases h.toRelaying with ⟨hf, rfl⟩ | ⟨ev, c₂, b₂, rfl, hm, hc⟩
  · refine .inr ⟨h.bufferpumpFree.1, ?_⟩
    rintro s n rfl
    cases hf
  · have hrel := hm.relaying h.toRelaying
    obtain ⟨hp, ht, -⟩ := hm.frame
    rcases hc with ⟨rfl, hopen⟩ | ⟨rfl, hdone⟩
    · refine .inl ⟨ev, b₂, rfl, hm, ⟨hrel, hp.trans h.noPump, by rw [ht]; exact h.timer⟩,
        hopen h.unfinished, hm.pending h.pending, hm.switched h.switched⟩
    · refine .inr ⟨hrel.bufferpumpFree.1, ?_⟩
      rintro s n ⟨⟩
      exact ⟨c₂, b₂, hm, hdone, rfl⟩

/-- While a client lives after both sides have ended their streams, libevent has bytes to write. -/
theorem Engaged.writes (h : Engaged c b) (hend : ∀ s, (c.ends s).shutRead = true) :
    ∃ s, c.output s ≠ [] ∧ ∀ n, c.Enabled (.wrote s n) := by
  have hopen : ∃ s, (c.ends s).shutWrite = false := by
    by_contra hall
    have hdone : checkClose c = true := (checkClose_iff c).mpr fun s => ⟨hend s, by
      by_contra hne
      exact hall ⟨s, by simpa using hne⟩⟩
    exact absurd (h.unfinished.symm.trans hdone) (by decide)
  obtain ⟨s, hs⟩ := hopen
  have hpend := h.pending s.other (hend s.other)
  rw [Side.other_other, hs] at hpend
  have hne : (b s).output ≠ [] := hpend.resolve_left (by decide)
  refine ⟨s, ?_, fun n => ⟨b s, h.bev s, (h.switched s).fd, (h.switched s).writes hs⟩⟩
  rw [h.toRelaying.output_eq]
  exact hne

end Turns

/-! ### From the accept on -/

/-- A client of the buffer pump before, during and after the pumping. -/
inductive Afoot (c : Conn) : Prop
  | waits (l : Leg) (a : SockAddr) (f : Side → ℕ) (b : Bufferevent) (h : AtLeg l a c f b)
  | pumps (b : Side → Bufferevent) (h : Engaged c b)
  | gone (hr : c.released = true)

section Life

variable {P : Conn → Turn → Prop} {l : Leg} {a : SockAddr} {c c' c₀ : Conn} {f : Side → ℕ}
  {b : Bufferevent} {t : Turn} {ts : List Turn} {k : AcceptCalls} {acts : List Act} {i : ℕ}

theorem AtLeg.engaged (h : AtLeg l a c f b) {bs : List Byte} {n : ℕ} {k : HandshakeCalls}
    (hst : startPump .bufferpump (Transocks.atStart c b bs n k) k.start = (c', true)) :
    ∃ b', Engaged c' b' := by
  have h₀ := h.atStart bs n k
  obtain ⟨rfl, hserv⟩ := h₀.serving_start (atStart_timer c b bs n k) hst
  obtain ⟨b', hclosing⟩ := closing_start h₀.atHandover hst
  obtain rfl : b' = _ := funext fun s => Option.some.inj ((hclosing.bev s).symm.trans (hserv.bev s))
  refine ⟨_, hserv, hclosing.unfinished, hclosing.pending, fun s => ⟨?_, fun hr => ?_, ?_⟩⟩
  · cases s with
    | client => exact Int.natCast_nonneg _
    | relay =>
      have hfd := h₀.relayFd
      show 0 ≤ (repliedBev { b with input := b.input ++ bs } n k).fd
      rw [hfd]
      exact Int.natCast_nonneg _
  · exact absurd ((h₀.shutRead s).symm.trans hr) (by decide)
  · exact fun _ => rfl

theorem Afoot.turn (h : Afoot c) (hs : LifeStep .bufferpump c t c') : Afoot c' := by
  cases h with
  | waits l a f b h =>
    rcases h.turn hs with ⟨l', b', h', -, -⟩ | ⟨bs, n, k, rfl, rfl, hlen, hn, hst⟩ | ⟨hi, -, -⟩
    · exact .waits l' a f b' h'
    · obtain ⟨b', h'⟩ := h.engaged hst
      exact .pumps b' h'
    · exact .gone hi.released
  | pumps b h =>
    rcases h.turn hs with ⟨ev, b', -, -, h'⟩ | ⟨hr, -⟩
    · exact .pumps b' h'
    · exact .gone hr
  | gone hr => exact absurd (hr.symm.trans hs.1) (by decide)

theorem run_afoot (hcb : (listenerCb k).1 = some c₀)
    (hrun : Run (OwnStep .bufferpump P) c₀ ts c) : Afoot c := by
  refine hrun.invariant (I := Afoot) ?_ fun u t v hu hs => hu.turn hs.2
  cases hr : c₀.released with
  | true => exact .gone hr
  | false =>
    obtain ⟨x, r, a, -, -, -, rfl⟩ := listenerCb_live hcb hr
    exact .waits .connect a _ _ (atLeg_waitingConn k x r a)

theorem Lives.engaged {s : Side} (h : Lives .bufferpump P i acts c) (hl : c.released = false)
    (hend : (c.ends s).shutRead = true) : ∃ b, Engaged c b := by
  obtain ⟨c', rfl, pre, post, k, c₀, ts, r, -, -, hcb, hrun, -, -⟩ := h
  cases run_afoot hcb hrun with
  | waits l a f b h => exact absurd ((h.shutRead s).symm.trans hend) (by decide)
  | pumps b h =>
    exact ⟨b, ⟨⟨h.live, h.state, h.bev, h.readLow, h.cbs⟩, h.noPump, h.timer⟩, h.unfinished,
      h.pending, h.switched⟩
  | gone hr => exact absurd (hr.symm.trans hl) (by decide)

end Life

/-! ### Among the other clients -/

def Conn.pending (c : Conn) : ℕ :=
  if c.released then 0 else (c.output .client).length + (c.output .relay).length

/-- libevent writes some of the bytes in an output buffer. -/
def Conn.Writes (c : Conn) (ev : Ev) : Prop :=
  ∃ s n, ev = .wrote s n ∧ 0 < n ∧ c.output s ≠ []

def Turn.isWrite : Turn → Bool
  | .callback (.wrote _ _) => true
  | _ => false

/-- A client of the buffer pump whose sides have both ended their streams. -/
def Ebbing (c : Conn) : Prop :=
  c.released = false → (∃ b, Engaged c b) ∧ ∀ s, (c.ends s).shutRead = true

section World

variable {n i k : ℕ} {w w' : World} {acts acts' : List Act} {c c' : Conn} {b : Side → Bufferevent}
  {t : Turn}

theorem Engaged.atRest (h : Engaged c b) : Engaged c.atRest b :=
  ⟨⟨⟨h.live, h.state, h.bev, h.readLow, h.cbs⟩, h.noPump, h.timer⟩, h.unfinished, h.pending,
    h.switched⟩

theorem Engaged.pending_eq (h : Engaged c b) : c.pending = outputs b := by
  unfold Conn.pending
  rw [if_neg (by rw [h.live]; decide), h.toRelaying.output_eq, h.toRelaying.output_eq]
  rfl

theorem Ebbing.turn (h : Ebbing c) (hs : LifeStep .bufferpump c t c') :
    Ebbing c'.atRest ∧ c'.atRest.pending ≤ c.pending ∧
      ∀ ev, t = .callback ev → c.Writes ev → c'.atRest.pending < c.pending := by
  obtain ⟨⟨b, hb⟩, hend⟩ := h hs.1
  rw [hb.pending_eq]
  rcases hb.turn hs with ⟨ev, b', rfl, hm, hb'⟩ | ⟨hr, -⟩
  · obtain ⟨hle, hlt⟩ := hm.outputs_le fun s => (hb.switched s).reads (hend s)
    rw [hb'.atRest.pending_eq]
    refine ⟨fun _ => ⟨⟨b', hb'.atRest⟩, fun s => hm.shutRead (hend s)⟩, hle, ?_⟩
    rintro ev ⟨⟩ ⟨s, n, rfl, hn, hne⟩
    rw [hb.toRelaying.output_eq] at hne
    exact hlt s n rfl hn hne
  · have hzero : c'.atRest.pending = 0 := if_pos hr
    refine ⟨fun hl => absurd (hr.symm.trans hl) (by decide), by omega, ?_⟩
    rintro ev rfl ⟨s, n, rfl, hn, hne⟩
    rw [hb.toRelaying.output_eq] at hne
    have hpos : 0 < (b s).output.length := List.length_pos_iff.mpr hne
    rw [hzero, outputs_eq b s]
    omega

/-- A write takes nothing away from what a side gets. -/
theorem CopyMove.due {c₂ : Conn} {b₂ : Side → Bufferevent} {s : Side} {m : ℕ}
    (hm : CopyMove c b (.wrote s m) c₂ b₂) (r : Side) :
    (c₂.ends r).tx ++ (b₂ r).output = (c.ends r).tx ++ (b r).output ∧
      (((c.ends r).shutWrite = true → (b r).output = []) →
        (c₂.ends r).shutWrite = true → (b₂ r).output = []) := by
  have hflush : ∀ c' : Conn, (∀ r, (c'.ends r).tx = ((c.flushed s (b s) m).ends r).tx) →
      (c'.ends r).tx ++ (flushedBev b s m r).output = (c.ends r).tx ++ (b r).output := by
    intro c' hc'
    rw [hc']
    rcases Side.eq_or_eq_other s r with rfl | rfl
    · simp [Conn.flushed]
    · simp [Conn.flushed]
  cases hm with
  | wrote hw =>
    refine ⟨hflush _ fun _ => rfl, fun hempty hs => ?_⟩
    rcases Side.eq_or_eq_other s r with rfl | rfl
    · have hnil := hempty (by simpa [Conn.flushed] using hs)
      simp [hnil]
    · rw [flushedBev_other]
      exact hempty (by simpa [Conn.flushed] using hs)
  | drained ho hr =>
    refine ⟨hflush _ fun r' => ?_, fun hempty hs => ?_⟩
    · rcases Side.eq_or_eq_other s r' with rfl | rfl <;> simp [shutdownWrite]
    · rcases Side.eq_or_eq_other s r with rfl | rfl
      · simpa using ho
      · rw [flushedBev_other]
        exact hempty (by simpa [shutdownWrite, Conn.flushed] using hs)

/-- A client whose peers have closed, and what each of its sides gets in the end. -/
structure Saved (due : Side → List Byte) (c : Conn) : Prop where
  due : ∀ s, (c.ends s).tx ++ c.output s = due s
  gone : c.released = true → ∀ s, c.output s = []
  ebbing : Ebbing c
  empty : c.released = false → ∀ s, (c.ends s).shutWrite = true → c.output s = []

theorem Saved.turn {due : Side → List Byte} (h : Saved due c)
    (hs : LifeStep .bufferpump c t c') (ht : t.isWrite = true) : Saved due c'.atRest := by
  obtain ⟨s, m, rfl⟩ : ∃ s m, t = .callback (.wrote s m) := by
    cases t with
    | drop => cases ht
    | callback ev =>
      cases ev with
      | wrote s m => exact ⟨s, m, rfl⟩
      | _ => cases ht
  obtain ⟨⟨b, hb⟩, hend⟩ := h.ebbing hs.1
  have hout := hb.toRelaying.output_eq
  have hdue := h.due
  have hempty := h.empty hs.1
  simp only [hout] at hdue hempty
  have hebb := (h.ebbing.turn hs).1
  rcases hb.turn hs with ⟨ev, b', ⟨⟩, hm, hb'⟩ | ⟨hr, hfree⟩
  · have hout' := hb'.atRest.toRelaying.output_eq
    refine ⟨fun r => ?_, fun hr => ?_, hebb, fun _ r => ?_⟩
    · rw [hout']
      exact (hm.due r).1.trans (hdue r)
    · exact absurd (hb'.live.symm.trans hr) (by decide)
    · rw [hout']
      exact (hm.due r).2 (hempty r)
  · -- all four flags are set, and a side that is shut for writing has nothing left
    obtain ⟨c₂, b₂, hm, hdone, rfl⟩ := hfree s m rfl
    have hends := (hm.relaying hb.toRelaying).bufferpumpFree.2.2
    have hnil : ∀ r, (bufferpumpFree c₂).atRest.output r = [] := fun r => by
      show (((bufferpumpFree c₂).ends r).bev.map (·.output)).getD [] = []
      rw [hends]
      rfl
    refine ⟨fun r => ?_, fun _ => hnil, hebb, fun _ r _ => hnil r⟩
    have hdrained := (hm.due r).2 (hempty r) ((checkClose_iff c₂).mp hdone r).2
    have htx : ((bufferpumpFree c₂).atRest.ends r).tx = (c₂.ends r).tx := by
      show ((bufferpumpFree c₂).ends r).tx = _
      rw [hends, End.freed_tx]
    rw [hnil, htx, ← hdrained]
    exact (hm.due r).1.trans (hdue r)

end World

/-- A callback of the pipe of `d` that does not have to try again. -/
def Ev.drains (d : Direction) : Ev → Bool
  | .spliceWrite e (.moved _) => e == d
  | .spliceWrite e (.failed err) => e == d && !isRetriable err
  | _ => false

/-- What a live client has left in the pipe of `d`, with the end of file behind it. -/
def Conn.remaining (c : Conn) (d : Direction) : ℕ :=
  if c.released then 0 else (c.userArg.map fun p => (p.pipe d).dataInPipe + 1).getD 0

section Splice

variable {c c' : Conn} {p : Splicepump} {d e : Direction} {q : Splice} {ev : Ev}

theorem FillMove.readFlag (hm : FillMove c p e q c') (h : c.readFlag d = true) :
    c'.readFlag d = true := by
  cases hm with
  | transfer hb => exact h
  | retry he => exact h
  | activate he => exact h
  | eof =>
    rcases Direction.eq_or_eq_other e d with rfl | rfl
    · simp [writeToPipeEof, Conn.setReadFlag, Conn.readFlag]
    · simpa [writeToPipeEof, Conn.setReadFlag, Conn.readFlag, ← Direction.source_other] using h

theorem DrainMove.readFlag (hm : DrainMove c p e q c') (h : c.readFlag d = true) :
    c'.readFlag d = true := by
  cases hm with
  | transfer hb => exact h
  | retry he => exact h
  | eof =>
    rcases Side.eq_or_eq_other e.target d.source with hs | hs <;>
      simpa [readFromPipeEof, Conn.setWriteFlag, Conn.readFlag, hs] using h

/-- **One step towards the end of a direction.** It takes bytes out of the pipe, leaves the pipe
alone, or releases the client. -/
theorem Pumping.ebbs (h : Pumping c p) (hr : c.readFlag d = true) (hs : ReadyStep c ev c') :
    c'.released = true ∨ ∃ p', Pumping c' p' ∧ c'.readFlag d = true ∧
      (p'.pipe d).dataInPipe ≤ (p.pipe d).dataInPipe ∧
      (ev.drains d = true → (p'.pipe d).dataInPipe < (p.pipe d).dataInPipe) := by
  obtain ⟨⟨-, ⟨p₁, hp₁, hk⟩, -⟩, p₂, hp₂, hf, -⟩ := id hs
  obtain rfl : p = p₁ := Option.some.inj (h.pump.symm.trans hp₁)
  obtain rfl : p = p₂ := Option.some.inj (h.pump.symm.trans hp₂)
  rcases h.step_cases hs with ⟨e, q, rfl, hm, p', hp'⟩ | ⟨e, q, rfl, hm, p', hp'⟩ | ⟨-, rfl⟩ |
    ⟨e, -, hend⟩
  · obtain ⟨p₃, hw⟩ := hm.within h.toAccounting hk
    obtain rfl := Option.some.inj (hp'.pump.symm.trans hw.acc.pump)
    rcases Direction.eq_or_eq_other e d with rfl | rfl
    · -- the event on the source is deleted
      obtain ⟨x, hx, hpend⟩ := hf
      obtain rfl := Option.some.inj ((h.readEv d).symm.trans hx)
      simp [Event.pending, hr] at hpend
    · refine .inr ⟨p', hp', hm.readFlag hr, by rw [hw.pipe], fun hd => ?_⟩
      cases hd
  · obtain ⟨p₃, hw⟩ := hm.within h.toAccounting hk
    obtain rfl := Option.some.inj (hp'.pump.symm.trans hw.acc.pump)
    rcases Direction.eq_or_eq_other e d with rfl | rfl
    · rcases (h.drains hs).1 with ⟨p₄, hp₄, hlt⟩ | ⟨rfl, x, rfl, hx⟩ | hrel
      · obtain rfl := Option.some.inj (hp'.pump.symm.trans hp₄)
        exact .inr ⟨p', hp', hm.readFlag hr, hlt.le, fun _ => hlt⟩
      · obtain rfl := Option.some.inj (hp'.pump.symm.trans h.pump)
        refine .inr ⟨p', hp', hr, le_rfl, fun hd => ?_⟩
        simp [Ev.drains, hx] at hd
      · exact .inl hrel
    · refine .inr ⟨p', hp', hm.readFlag hr, by rw [hw.pipe], fun hd => ?_⟩
      have hne : e ≠ e.other := Direction.ne_other e
      cases q <;> simp [Ev.drains, hne] at hd
  · exact .inl h.fatal.released
  · exact .inl hend.released

end Splice

/-- A client of the splice pump whose source in direction `d` has ended its stream. -/
def PipeEbbing (d : Direction) (c : Conn) : Prop :=
  c.released = false → ∃ f p, Splicing c f p ∧ Pumping c p ∧ c.readFlag d = true

section SpliceWorld

variable {n i k : ℕ} {w w' : World} {acts acts' : List Act} {c c' : Conn} {p : Splicepump}
  {d : Direction} {f : Side → ℕ} {t : Turn}

theorem Pumping.atRest (h : Pumping c p) : Pumping c.atRest p :=
  ⟨⟨h.live, h.state, h.pump, h.pipes⟩, h.fd, h.pipefd, h.writeEv, h.readEv, h.writeOpen,
    h.readOpen, h.writeFlag⟩

theorem Splicing.atRest (h : Splicing c f p) : Splicing c.atRest f p :=
  ⟨h.toAttached.rewrite [], h.pumping, h.pump, h.timer, h.pipefd, h.unfinished⟩

theorem Pumping.remaining_eq (h : Pumping c p) : c.remaining d = (p.pipe d).dataInPipe + 1 := by
  unfold Conn.remaining
  rw [if_neg (by rw [h.live]; decide), h.pump]
  rfl

theorem PipeEbbing.turn (h : PipeEbbing d c) (hs : LifeStep .splicepump c t c')
    (hready : SpliceReady .splicepump c t) :
    PipeEbbing d c'.atRest ∧ c'.atRest.remaining d ≤ c.remaining d ∧
      ∀ ev, t = .callback ev → ev.drains d = true → c'.atRest.remaining d < c.remaining d := by
  obtain ⟨f, p, hsp, hp, hr⟩ := h hs.1
  rw [hp.remaining_eq]
  have hgone : c'.released = true → PipeEbbing d c'.atRest ∧ c'.atRest.remaining d = 0 :=
    fun hrel => ⟨fun hl => absurd (hrel.symm.trans hl) (by decide), if_pos hrel⟩
  obtain ⟨hl, hpos, rfl⟩ := hs
  cases t with
  | drop =>
    obtain ⟨hebb, hzero⟩ := hgone (splicepumpFree_released hl hsp.pumping hsp.pump)
    exact ⟨hebb, by omega, fun ev hev => by cases hev⟩
  | callback ev =>
    have hev : ev.isSplice = true := hsp.enabled hpos
    obtain ⟨hmoves, hfires, heof⟩ := hready rfl p hp.pump hev
    have hstep : ReadyStep c ev (c.step .splicepump ev) :=
      ⟨⟨hl, ⟨p, hp.pump, hmoves⟩, rfl⟩, p, hp.pump, hfires, heof⟩
    rcases hp.ebbs hr hstep with hrel | ⟨p', hp', hr', hle, hlt⟩
    · obtain ⟨hebb, hzero⟩ := hgone hrel
      exact ⟨hebb, by omega, fun _ _ _ => by omega⟩
    · rcases hsp.splice_cases hev with ⟨p'', hsp'⟩ | hi
      swap
      · exact absurd (hp'.live.symm.trans hi.released) (by decide)
      obtain rfl := Option.some.inj (hp'.pump.symm.trans hsp'.pump)
      refine ⟨fun _ => ⟨f, p', hsp'.atRest, hp'.atRest, hr'⟩, ?_, ?_⟩
      · show (c.step .splicepump ev).atRest.remaining d ≤ _
        rw [hp'.atRest.remaining_eq]
        omega
      · rintro ev' ⟨⟩ hd
        show (c.step .splicepump ev).atRest.remaining d < _
        rw [hp'.atRest.remaining_eq]
        have hlower := hlt hd
        omega

theorem Lives.ebbing (h : Lives .splicepump (SpliceReady .splicepump) i acts c)
    (hend : c.readFlag d = true) : PipeEbbing d c := by
  intro hl
  obtain ⟨c', rfl, pre, post, k, c₀, ts, r, -, -, hcb, hrun, -, -⟩ := h
  obtain ⟨a, ds, r, -, -, hrel⟩ := run_relays hcb hrun
  cases hrel with
  | waits l f b h hg => exact absurd ((h.shutRead d.source).symm.trans hend) (by decide)
  | copies o b ch hm h ho hc hk hu => cases hm
  | splices o f p ch hm h hp ho hc hs hu => exact ⟨f, p, h.atRest, hp.atRest, hend⟩
  | gone r hr h => exact absurd (hr.symm.trans hl) (by decide)

/-- **The splice pump winds down**, as long as every close hits its own. Once the source of a
direction of a live client has ended its stream, the callbacks of the pipe that do not have to try
again are at most one more than the bytes in it, whatever the other direction and the other clients
do in between. As long as the client lives, the read end of the pipe is its own and the event on it
fires. -/
theorem splicepump_winds_down
    (hrun : Run (Meeting (World.Step .splicepump) (PipesServe .splicepump)) (World.init n) acts w)
    (hc : w.conns i = some c) (hend : c.readFlag d = true)
    (hwind : Paced (Meeting (World.Step .splicepump) (PipesServe .splicepump))
      (Act.Hits i fun _ ev => ev.drains d = true) w acts' w' k)
    (hown : w'.HitsOwn) :
    ∃ c', w'.conns i = some c' ∧ k + c'.remaining d ≤ c.remaining d ∧
      (c'.released = false → ∃ p, c'.userArg = some p ∧
        (∀ q, c'.Enabled (.spliceWrite d q) ∧ Fires c' p (.spliceWrite d q)) ∧
        (w'.reg.fault = none →
          ∃ x : ℕ, (p.pipe d).pipeReadfd = x ∧ w'.fds x = some (.conn i (.pipeRead d)))) := by
  have hback : ∀ u e v, World.Step .splicepump u e v → v.HitsOwn → u.HitsOwn :=
    fun _ _ _ hs => hs.hitsOwn
  have hall : Run (World.Step .splicepump) (World.init n) (acts ++ acts') w' :=
    (hrun.mono fun _ _ _ hs => hs.2).trans (hwind.run.mono fun _ _ _ hs => hs.2)
  have hown₀ : w.HitsOwn := hwind.run.back (fun _ _ _ hs => hs.2.hitsOwn) hown
  replace hrun := run_served hrun hown₀
  replace hwind := Paced.meeting_while hwind hback hown
  have hebb : PipeEbbing d c := ((run_projected hrun).life i c hc).ebbing hend
  have hwatch : Watches .splicepump i (PipeEbbing d) w :=
    ⟨⟨n, acts, hrun.mono fun _ _ _ hs => hs.2⟩, c, hc, hebb⟩
  obtain ⟨c₁, c', hc₁, hc', hebb', hbound⟩ := hwatch.paced (r := fun c => c.remaining d) hwind
    (fun _ _ _ hs => hs.2) fun _ _ _ c t hs hc ht hJ hl hp =>
      hJ.turn ⟨hl, hp, rfl⟩ (hs.1 i c t hc hl ht)
  obtain rfl := Option.some.inj (hc.symm.trans hc₁)
  refine ⟨c', hc', hbound, fun hl' => ?_⟩
  obtain ⟨f, p, hsp, hp, hr⟩ := hebb' hl'
  have hclosed : (c'.kern d).writeOpen = false := by
    rw [hp.writeOpen d, hr]
    rfl
  refine ⟨p, hp.pump, fun q => ⟨⟨p, _, hp.pump, hp.writeEv d, rfl⟩, _, hp.writeEv d, ?_⟩,
    fun hf => ?_⟩
  · exact .inl ⟨rfl, .inr hclosed⟩
  · obtain ⟨x, hx⟩ := Int.eq_ofNat_of_zero_le (hp.pipefd d).1
    refine ⟨x, hx, run_owned hall hown hf i c' hc' (.pipeRead d) x ?_⟩
    simp [Conn.held, hl', hp.writeFlag d, hp.pump, hx, fdNumber]

end SpliceWorld

/-- The relay sends a byte and closes. -/
def byteThenEof : List Act :=
  toPump ++ [.callback 0 (.spliceRead .inbound (.moved [0x2a])),
    .callback 0 (.spliceRead .inbound (.moved []))]

/-- The pipe gives up the byte, and then reports the end of file. -/
def drainPipe : List Act :=
  [.callback 0 (.spliceWrite .inbound (.moved [0x2a])),
    .callback 0 (.spliceWrite .inbound (.moved []))]

theorem run_byteThenEof : Run (Meeting (World.Step .splicepump) (PipesServe .splicepump))
    (World.init 3) byteThenEof (World.after .splicepump byteThenEof) := by
  refine run_toPump_served.trans (Run.foldl ⟨⟨fun _ => meets_callback ?_, ?_⟩,
    ⟨fun _ => meets_callback ?_, ?_⟩, trivial⟩)
  · rintro c hc - p hp -
    cases hc
    cases hp
    exact ⟨fun _ => ⟨by decide, by decide⟩, ⟨⟨true, false⟩, rfl, rfl⟩, trivial⟩
  · exact .callback rfl rfl ⟨_, _, rfl, rfl, rfl⟩ trivial
  · rintro c hc - p hp -
    cases hc
    cases hp
    exact ⟨fun h => absurd rfl h, ⟨⟨true, false⟩, rfl, rfl⟩, trivial⟩
  · exact .callback rfl rfl ⟨_, _, rfl, rfl, rfl⟩ trivial

theorem paced_drainPipe :
    Paced (Meeting (World.Step .splicepump) (PipesServe .splicepump))
        (Act.Hits 0 fun _ ev => ev.drains .inbound = true) (World.after .splicepump byteThenEof)
        (drainPipe.take 1) (World.after .splicepump (byteThenEof ++ drainPipe.take 1)) 1 ∧
      Paced (Meeting (World.Step .splicepump) (PipesServe .splicepump))
        (Act.Hits 0 fun _ ev => ev.drains .inbound = true) (World.after .splicepump byteThenEof)
        drainPipe (World.after .splicepump (byteThenEof ++ drainPipe)) 2 := by
  have hbyte : Paced (Meeting (World.Step .splicepump) (PipesServe .splicepump))
      (Act.Hits 0 fun _ ev => ev.drains .inbound = true) (World.after .splicepump byteThenEof)
      (drainPipe.take 1) (World.after .splicepump (byteThenEof ++ drainPipe.take 1)) 1 := by
    refine .hit .nil ⟨fun _ => meets_callback ?_, .callback rfl rfl ⟨_, _, rfl, rfl, rfl⟩ trivial⟩
      ⟨_, _, rfl, rfl, rfl⟩
    rintro c hc - p hp -
    cases hc
    cases hp
    exact ⟨⟨List.prefix_rfl, by decide⟩, ⟨⟨true, false⟩, rfl, .inl ⟨rfl, .inl (by decide)⟩⟩,
      trivial⟩
  refine ⟨hbyte, hbyte.hit ⟨fun _ => meets_callback ?_, .callback rfl rfl ⟨_, _, rfl, rfl, rfl⟩
    trivial⟩ ⟨_, _, rfl, rfl, rfl⟩⟩
  rintro c hc - p hp -
  cases hc
  cases hp
  refine ⟨⟨List.prefix_rfl, by decide⟩, ⟨⟨true, false⟩, rfl, .inl ⟨rfl, .inr rfl⟩⟩, fun _ => ?_⟩
  exact ⟨rfl, rfl⟩

/-- The byte and the end of file take two callbacks of the pipe. In between, the pipe has only its
end of file left, and its read end is there to report it. -/
theorem splicepump_winds_down_drainPipe :
    (∃ c' p, (World.after .splicepump (byteThenEof ++ drainPipe.take 1)).conns 0 = some c' ∧
      1 + c'.remaining .inbound ≤ 2 ∧ Fires c' p (.spliceWrite .inbound (.moved [])) ∧
      ∃ x, (World.after .splicepump (byteThenEof ++ drainPipe.take 1)).fds x =
        some (.conn 0 (.pipeRead .inbound))) ∧
      ∃ c', (World.after .splicepump (byteThenEof ++ drainPipe)).conns 0 = some c' ∧
        2 + c'.remaining .inbound ≤ 2 ∧ c'.released = true := by
  obtain ⟨hbyte, heof⟩ := paced_drainPipe
  constructor
  · obtain ⟨c', hc', hle, hlive⟩ :=
      splicepump_winds_down (i := 0) run_byteThenEof (c := _) rfl rfl hbyte (by decide)
    obtain ⟨p, hp, hfires, hfd⟩ := hlive (by cases hc'; rfl)
    obtain ⟨x, -, hx⟩ := hfd rfl
    exact ⟨c', p, hc', hle, (hfires _).2, x, hx⟩
  · obtain ⟨c', hc', hle, -⟩ :=
      splicepump_winds_down (i := 0) run_byteThenEof (c := _) rfl rfl heof (by decide +kernel)
    exact ⟨c', hc', hle, by cases hc'; rfl⟩

end Transocks

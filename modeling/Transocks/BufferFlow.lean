import Transocks.CopySteps

/-!
# Delivery in the buffer pump

From a source socket a byte goes to the input buffer of its side, from there to the output buffer
of the other side, and from there to the other socket. The two buffers together are one `Fifo`: a
socket read pushes, a socket write pulls, and a read callback moves nothing in or out.

A write side is shut when the output buffer is empty and the source has reported end of file. That
is too early exactly when bytes still sit in the input buffer of the source. Every read callback
empties that buffer, so the only bytes that can be there are the ones the handshake left behind:
`bufferpump_delivers_iff`.
-/

namespace Transocks

open Runs

/-- `BEV_EVENT_READING | BEV_EVENT_EOF`. -/
def BevEvents.readEof : BevEvents := ⟨true, false, true, false, false⟩

/-- The callbacks libevent runs for the buffer pump when no socket fails: after a socket read, after
a socket write, and alone on end of file. -/
def BufferMoves : Ev → Prop
  | .read _ bs _ => bs ≠ []
  | .wrote _ _ => True
  | .event _ w _ _ => w = .readEof
  | _ => False

def BufferStep (c : Conn) (ev : Ev) (c' : Conn) : Prop :=
  c.released = false ∧ c.Enabled ev ∧ BufferMoves ev ∧ c' = c.step .bufferpump ev

/-- What libevent read from the socket of `s` since the pump started in `c₁`. -/
def readSince (c₁ c : Conn) (s : Side) : List Byte := (c.ends s).rx.drop (c₁.ends s).rx.length

/-- What libevent wrote to the socket of `s` since the pump started in `c₁`. -/
def wroteSince (c₁ c : Conn) (s : Side) : List Byte := (c.ends s).tx.drop (c₁.ends s).tx.length

/-- The bytes from `s` that were under way when the pump started. -/
def backlog (c₁ : Conn) (s : Side) : List Byte := c₁.output s.other ++ c₁.input s

/-- **Delivered before the half-close.** Once a write side is shut, every byte that was under way to
it and every byte read from the other side has been written to it. -/
def Delivered (c₁ c : Conn) : Prop :=
  ∀ s, (c.ends s.other).shutWrite = true →
    wroteSince c₁ c s.other = backlog c₁ s ++ readSince c₁ c s

/-! ## The two buffers of a direction as a flow -/

/-- The bytes from `s` to the other side, since the pump started in `c₁`, are the flow `f`. -/
structure Carried (c₁ c : Conn) (b : Side → Bufferevent) (s : Side) (f : Fifo Byte) : Prop where
  rx : (c.ends s).rx = (c₁.ends s).rx ++ readSince c₁ c s
  tx : (c.ends s.other).tx = (c₁.ends s.other).tx ++ wroteSince c₁ c s.other
  taken : f.taken = backlog c₁ s ++ readSince c₁ c s
  held : f.held = (b s.other).output ++ (b s).input
  delivered : f.delivered = wroteSince c₁ c s.other

/-- A client that pumps through the bufferevents `b`, started in `c₁`. -/
structure Buffering (c₁ c : Conn) (b : Side → Bufferevent) : Prop where
  live : c.released = false
  state : c.clientState = .pumpingData
  bev : ∀ s, (c.ends s).bev = some (b s)
  readLow : ∀ s, (b s).readLow = 0
  cbs : ∀ s, (b s).readcb = some .pump ∧ (b s).writecb = true ∧ (b s).eventcb = some .pump
  flow : ∀ s, ∃ f, Carried c₁ c b s f
  eof : ∀ s, (c.ends s).shutRead = true → (b s).enRead = false
  shut : ∀ s, (c.ends s).shutWrite = true → (c.ends s.other).shutRead = true ∧ (b s).output = []
  clientInput : (b .client).input = []
  untouched : (b .relay).input ≠ [] → (b .client).output = []

/-- What the client's fields say about delivery, whether the record is live or released. -/
structure SameStreams (c c' : Conn) : Prop where
  rx : ∀ s, (c'.ends s).rx = (c.ends s).rx
  tx : ∀ s, (c'.ends s).tx = (c.ends s).tx
  shutWrite : ∀ s, (c'.ends s).shutWrite = (c.ends s).shutWrite

theorem SameStreams.delivered_iff {c₁ c c' : Conn} (h : SameStreams c c') :
    Delivered c₁ c' ↔ Delivered c₁ c := by
  simp only [Delivered, readSince, wroteSince, h.rx, h.tx, h.shutWrite]

section Moves

variable {c₁ c : Conn} {b : Side → Bufferevent} {s : Side}

/-- A write side that is shut has everything exactly when the source's input buffer is empty. -/
theorem Buffering.delivered_iff (h : Buffering c₁ c b) :
    Delivered c₁ c ↔ ∀ s, (c.ends s.other).shutWrite = true → (b s).input = [] := by
  unfold Delivered
  refine forall_congr' fun s => imp_congr_right fun hw => ?_
  obtain ⟨f, hf⟩ := h.flow s
  have hheld : f.held = (b s).input := by rw [hf.held, (h.shut _ hw).2, List.nil_append]
  have hcons := f.conserve
  rw [hheld, hf.taken, hf.delivered] at hcons
  constructor
  · intro he
    rw [he] at hcons
    exact List.self_eq_append_right.mp hcons
  · intro he
    rw [he, List.append_nil] at hcons
    exact hcons.symm

/-! ### A socket read and its callback -/

theorem readSince_append {c c' : Conn} {bs : List Byte}
    (h : (c.ends s).rx = (c₁.ends s).rx ++ readSince c₁ c s)
    (h' : (c'.ends s).rx = (c.ends s).rx ++ bs) :
    readSince c₁ c' s = readSince c₁ c s ++ bs := by
  unfold readSince at h ⊢
  rw [h', h]
  simp

theorem wroteSince_append {c c' : Conn} {bs : List Byte}
    (h : (c.ends s).tx = (c₁.ends s).tx ++ wroteSince c₁ c s)
    (h' : (c'.ends s).tx = (c.ends s).tx ++ bs) :
    wroteSince c₁ c' s = wroteSince c₁ c s ++ bs := by
  unfold wroteSince at h ⊢
  rw [h', h]
  simp

/-- A step that reads `bs` from `s`, writes `ws` to the other side and turns the channel into
`f'`. -/
theorem Carried.next {c' : Conn} {b' : Side → Bufferevent} {f f' : Fifo Byte} (bs ws : List Byte)
    (h : Carried c₁ c b s f) (hrx : (c'.ends s).rx = (c.ends s).rx ++ bs)
    (htx : (c'.ends s.other).tx = (c.ends s.other).tx ++ ws) (ht : f'.taken = f.taken ++ bs)
    (hd : f'.delivered = f.delivered ++ ws) (hh : f'.held = (b' s.other).output ++ (b' s).input) :
    Carried c₁ c' b' s f' := by
  have hr := readSince_append h.rx hrx
  have hw := wroteSince_append h.tx htx
  exact ⟨by rw [hrx, hr, h.rx, List.append_assoc], by rw [htx, hw, h.tx, List.append_assoc],
    by rw [ht, hr, h.taken, List.append_assoc], hh, by rw [hd, hw, h.delivered]⟩

theorem Carried.same {c' : Conn} {b' : Side → Bufferevent} {f : Fifo Byte} (h : Carried c₁ c b s f)
    (hrx : (c'.ends s).rx = (c.ends s).rx) (htx : (c'.ends s.other).tx = (c.ends s.other).tx)
    (ho : (b' s.other).output = (b s.other).output) (hi : (b' s).input = (b s).input) :
    Carried c₁ c' b' s f :=
  h.next [] [] (by rw [hrx, List.append_nil]) (by rw [htx, List.append_nil])
    (by rw [List.append_nil]) (by rw [List.append_nil]) (by rw [ho, hi]; exact h.held)

theorem Buffering.pumped (h : Buffering c₁ c b) (bs : List Byte) (he : (b s).enRead = true) :
    Buffering c₁ (pumped c b s bs) (pumpedBev b s bs) := by
  have hopen : (c.ends s).shutRead = false := by
    by_contra hne
    exact absurd ((h.eof s (by simpa using hne)).symm.trans he) (by decide)
  refine ⟨h.live, h.state, ?_, ?_, ?_, ?_, ?_, ?_, ?_, ?_⟩
  · intro t
    rcases Side.eq_or_eq_other s t with rfl | rfl <;> simp
  · intro t
    rcases Side.eq_or_eq_other s t with rfl | rfl <;> simp [h.readLow]
  · intro t
    rcases Side.eq_or_eq_other s t with rfl | rfl <;> simp [h.cbs]
  · intro t
    rcases Side.eq_or_eq_other s t with rfl | rfl
    · obtain ⟨f, hf⟩ := h.flow t
      exact ⟨f.push bs, hf.next bs [] (by simp) (by simp) rfl (by simp [Fifo.push])
        (by simp [Fifo.push, hf.held])⟩
    · obtain ⟨f, hf⟩ := h.flow s.other
      exact ⟨f, hf.same (by simp) (by simp) (by simp) (by simp)⟩
  · intro t
    rcases Side.eq_or_eq_other s t with rfl | rfl
    · simp [hopen]
    · simpa using h.eof s.other
  · intro t
    rcases Side.eq_or_eq_other s t with rfl | rfl
    · simpa using h.shut t
    · intro ht
      have hsh := (h.shut s.other (by simpa using ht)).1
      rw [Side.other_other, hopen] at hsh
      cases hsh
  · cases s
    · rw [pumpedBev_same]
    · exact h.clientInput
  · intro hne
    cases s
    · exact h.untouched hne
    · rw [pumpedBev_same] at hne
      exact absurd rfl hne

/-! ### A socket write -/

theorem Buffering.flushed (h : Buffering c₁ c b) (n : ℕ) :
    Buffering c₁ (c.flushed s (b s) n) (flushedBev b s n) := by
  refine ⟨h.live, h.state, ?_, ?_, ?_, ?_, ?_, ?_, ?_, ?_⟩
  · intro t
    rcases Side.eq_or_eq_other s t with rfl | rfl <;> simp [Conn.flushed, h.bev]
  · intro t
    rcases Side.eq_or_eq_other s t with rfl | rfl <;> simp [h.readLow]
  · intro t
    rcases Side.eq_or_eq_other s t with rfl | rfl <;> simp [h.cbs]
  · intro t
    rcases Side.eq_or_eq_other s t with rfl | rfl
    · obtain ⟨f, hf⟩ := h.flow t
      exact ⟨f, hf.same (by simp [Conn.flushed]) (by simp [Conn.flushed]) (by simp) (by simp)⟩
    · obtain ⟨f, hf⟩ := h.flow s.other
      have hheld : f.held = (b s).output ++ (b s.other).input := by simpa using hf.held
      -- a write of more than the buffer holds takes what it holds
      refine ⟨f.pull (min n (b s).output.length), hf.next [] ((b s).output.take n)
        (by simp [Conn.flushed]) (by simp [Conn.flushed]) (by simp [Fifo.pull]) ?_ ?_⟩
      · simp [Fifo.pull, hheld, List.take_append]
      · simp [Fifo.pull, hheld, List.drop_append]
  · intro t
    rcases Side.eq_or_eq_other s t with rfl | rfl
    · simpa [Conn.flushed] using h.eof t
    · simpa [Conn.flushed] using h.eof s.other
  · intro t
    rcases Side.eq_or_eq_other s t with rfl | rfl
    · intro ht
      have hsh := h.shut t (by simpa [Conn.flushed] using ht)
      simp [Conn.flushed, hsh.1, hsh.2]
    · simpa [Conn.flushed] using h.shut s.other
  · cases s <;> exact h.clientInput
  · intro hne
    cases s
    · have hout : (flushedBev b .client n .client).output = (b .client).output.drop n := rfl
      rw [hout, h.untouched hne, List.drop_nil]
    · exact h.untouched hne

/-! ### The half-closes -/

/-- Shutting a write side whose output is empty, after the other side's end of file. -/
theorem Buffering.shutdownWrite (h : Buffering c₁ c b) (hr : (c.ends s.other).shutRead = true)
    (ho : (b s).output = []) : Buffering c₁ (shutdownWrite s c) b := by
  refine ⟨h.live, h.state, ?_, h.readLow, h.cbs, ?_, ?_, ?_, h.clientInput, h.untouched⟩
  · intro t
    rcases Side.eq_or_eq_other s t with rfl | rfl <;> simp [Transocks.shutdownWrite, h.bev]
  · intro t
    obtain ⟨f, hf⟩ := h.flow t
    refine ⟨f, hf.same ?_ ?_ rfl rfl⟩ <;>
      rcases Side.eq_or_eq_other s t with rfl | rfl <;> simp [Transocks.shutdownWrite]
  · intro t ht
    refine h.eof t ?_
    rcases Side.eq_or_eq_other s t with rfl | rfl <;> simpa [Transocks.shutdownWrite] using ht
  · intro t ht
    rcases Side.eq_or_eq_other s t with rfl | rfl
    · simp [Transocks.shutdownWrite, hr, ho]
    · simpa [Transocks.shutdownWrite] using h.shut s.other
        (by simpa [Transocks.shutdownWrite] using ht)

theorem Buffering.eofMarked (h : Buffering c₁ c b) :
    Buffering c₁ (eofMarked s c b) (eofBev b s) := by
  refine ⟨h.live, h.state, ?_, ?_, ?_, ?_, ?_, ?_, ?_, ?_⟩
  · intro t
    rcases Side.eq_or_eq_other s t with rfl | rfl <;> simp [Transocks.eofMarked, h.bev]
  · intro t
    rcases Side.eq_or_eq_other s t with rfl | rfl <;> simp [h.readLow]
  · intro t
    rcases Side.eq_or_eq_other s t with rfl | rfl <;> simp [h.cbs]
  · intro t
    obtain ⟨f, hf⟩ := h.flow t
    refine ⟨f, hf.same ?_ ?_ (eofBev_output _) (eofBev_input _)⟩ <;>
      rcases Side.eq_or_eq_other s t with rfl | rfl <;> simp [Transocks.eofMarked]
  · intro t ht
    rcases Side.eq_or_eq_other s t with rfl | rfl
    · simp
    · simpa using h.eof s.other (by simpa [Transocks.eofMarked] using ht)
  · intro t ht
    rw [eofBev_output]
    rcases Side.eq_or_eq_other s t with rfl | rfl
    · simpa [Transocks.eofMarked] using h.shut t (by simpa [Transocks.eofMarked] using ht)
    · simpa [Transocks.eofMarked] using (h.shut s.other (by simpa [Transocks.eofMarked] using ht)).2
  · rw [eofBev_input]
    exact h.clientInput
  · rw [eofBev_input, eofBev_output]
    exact h.untouched

/-! ### The close check -/

theorem Buffering.relaying (h : Buffering c₁ c b) : Relaying c b :=
  ⟨h.live, h.state, h.bev, h.readLow, h.cbs⟩

theorem Buffering.closeIfDone (h : Buffering c₁ c b) :
    closeIfDone c = c ∨ ((closeIfDone c).released = true ∧ SameStreams c (closeIfDone c)) := by
  rcases closeIfDone_cases c with ⟨-, heq⟩ | ⟨-, heq⟩
  · exact .inl heq
  · obtain ⟨hrel, -, hends⟩ := h.relaying.bufferpumpFree
    rw [heq]
    refine .inr ⟨hrel, fun t => ?_, fun t => ?_, fun t => ?_⟩ <;>
      · rw [hends]
        rfl

/-- What a callback of the buffer pump can do up to its close check. -/
inductive BufferMove (c : Conn) (b : Side → Bufferevent) : Ev → Conn → (Side → Bufferevent) → Prop
  | read {s : Side} {bs : List Byte} {k : HandshakeCalls} (he : (b s).enRead = true) :
    BufferMove c b (.read s bs k) (pumped c b s bs) (pumpedBev b s bs)
  | wrote {s : Side} {n : ℕ} :
    BufferMove c b (.wrote s n) (c.flushed s (b s) n) (flushedBev b s n)
  | drained {s : Side} {n : ℕ} (ho : (b s).output.drop n = [])
      (hr : (c.ends s.other).shutRead = true) :
    BufferMove c b (.wrote s n) (shutdownWrite s (c.flushed s (b s) n)) (flushedBev b s n)
  | eof {s : Side} {w : BevEvents} {e : Errno} {k : HandshakeCalls} (ho : (b s.other).output ≠ []) :
    BufferMove c b (.event s w e k) (eofMarked s c b) (eofBev b s)
  | eofDrained {s : Side} {w : BevEvents} {e : Errno} {k : HandshakeCalls}
      (ho : (b s.other).output = []) :
    BufferMove c b (.event s w e k) (shutdownWrite s.other (eofMarked s c b)) (eofBev b s)

theorem BufferMove.buffering {ev : Ev} {c₂ : Conn} {b₂ : Side → Bufferevent}
    (hm : BufferMove c b ev c₂ b₂) (h : Buffering c₁ c b) : Buffering c₁ c₂ b₂ := by
  cases hm with
  | read he => exact h.pumped _ he
  | wrote => exact h.flushed _
  | drained ho hr =>
    exact (h.flushed _).shutdownWrite (by simpa [Conn.flushed] using hr) (by simpa using ho)
  | eof ho => exact h.eofMarked
  | eofDrained ho =>
    exact h.eofMarked.shutdownWrite (by simp [Transocks.eofMarked]) (by simpa using ho)

theorem CopyMove.bufferMove {ev : Ev} {c₂ : Conn} {b₂ : Side → Bufferevent}
    (hm : CopyMove c b ev c₂ b₂) (hev : BufferMoves ev) : BufferMove c b ev c₂ b₂ := by
  cases hm with
  | read he => exact .read he
  | wrote hw => exact .wrote
  | drained ho hr => exact .drained ho hr
  | eof hw ho => exact .eof ho
  | eofDrained hw ho => exact .eofDrained ho
  | writeEof hr hw =>
    obtain rfl := hev
    cases hr
  | ignored hr =>
    obtain rfl := hev
    cases hr

/-- **One step.** A callback of the buffer pump makes one move and may then find all four flags
set. -/
theorem Buffering.step (h : Buffering c₁ c b) {ev : Ev} {c' : Conn} (hs : BufferStep c ev c') :
    ∃ c₂ b₂, BufferMove c b ev c₂ b₂ ∧ (c' = c₂ ∨ c' = Transocks.closeIfDone c₂) := by
  obtain ⟨-, hen, hmv, rfl⟩ := hs
  have hcp : ev.isCopying = true := by
    cases ev with
    | event s w e k => rfl
    | read s bs k => rfl
    | wrote s n => rfl
    | _ => exact absurd hmv id
  rcases h.relaying.step hen hcp with ⟨c₂, b₂, hm, hc⟩ | ⟨hfatal, -⟩
  · exact ⟨c₂, b₂, hm.bufferMove hmv, hc.symm.imp_left And.left⟩
  · cases ev with
    | event s w e k =>
      obtain rfl : w = .readEof := hmv
      cases hfatal
    | _ => cases hfatal

end Moves

/-! ## The bytes left by the handshake -/

/-- No byte is stuck behind the relay's end of file. -/
def Clean (c : Conn) (b : Side → Bufferevent) : Prop :=
  (c.ends .relay).shutRead = true → (b .relay).input = []

def Lost (c : Conn) (b : Side → Bufferevent) : Prop :=
  (c.ends .client).shutWrite = true ∧ (b .relay).input ≠ []

/-- The relay's end of file is handled only when its input buffer is empty. -/
def EofAfterData (c : Conn) : Ev → Prop
  | .event .relay _ _ _ => c.input .relay = []
  | _ => True

section Modes

variable {c₁ c c₂ c' : Conn} {b b₂ : Side → Bufferevent} {ev : Ev}

theorem Buffering.input_relay (h : Buffering c₁ c b) : c.input .relay = (b .relay).input := by
  simp [Conn.input, h.bev]

theorem Clean.delivered (hc : Clean c b) (h : Buffering c₁ c b) : Delivered c₁ c := by
  rw [h.delivered_iff]
  intro s hw
  cases s with
  | client => exact h.clientInput
  | relay => exact hc (h.shut _ hw).1

theorem Lost.not_delivered (hl : Lost c b) (h : Buffering c₁ c b) : ¬ Delivered c₁ c := by
  rw [h.delivered_iff]
  intro hd
  exact hl.2 (hd .relay hl.1)

theorem BufferMove.clean (hm : BufferMove c b ev c₂ b₂) (h : Buffering c₁ c b) (hc : Clean c b)
    (hP : EofAfterData c ev) : Clean c₂ b₂ := by
  cases hm with
  | @read s bs k he =>
    cases s with
    | client => exact hc
    | relay => exact fun _ => by rw [pumpedBev_same]
  | @wrote s n => cases s <;> exact hc
  | @drained s n ho hr => cases s <;> exact hc
  | @eof s w e k ho =>
    cases s with
    | client => exact hc
    | relay => exact fun _ => h.input_relay.symm.trans hP
  | @eofDrained s w e k ho =>
    cases s with
    | client => exact hc
    | relay => exact fun _ => h.input_relay.symm.trans hP

theorem BufferMove.lost_of_eof (hm : BufferMove c b ev c₂ b₂) (h : Buffering c₁ c b)
    (hP : ¬ EofAfterData c ev) : Lost c₂ b₂ := by
  cases hm with
  | read he => exact absurd trivial hP
  | wrote => exact absurd trivial hP
  | drained ho hr => exact absurd trivial hP
  | @eof s w e k ho =>
    cases s with
    | client => exact absurd trivial hP
    | relay =>
      have hne : (b .relay).input ≠ [] := fun he => hP (h.input_relay.trans he)
      exact absurd (h.untouched hne) ho
  | @eofDrained s w e k ho =>
    cases s with
    | client => exact absurd trivial hP
    | relay => exact ⟨rfl, fun he => hP (h.input_relay.trans he)⟩

theorem BufferMove.lost (hm : BufferMove c b ev c₂ b₂) (h : Buffering c₁ c b) (hl : Lost c b) :
    Lost c₂ b₂ := by
  cases hm with
  | @read s bs k he =>
    cases s with
    | client => exact hl
    | relay => exact absurd ((h.eof _ (h.shut _ hl.1).1).symm.trans he) (by decide)
  | @wrote s n => cases s <;> exact hl
  | @drained s n ho hr =>
    cases s with
    | client => exact ⟨rfl, hl.2⟩
    | relay => exact hl
  | @eof s w e k ho => cases s <;> exact hl
  | @eofDrained s w e k ho =>
    cases s with
    | client => exact hl
    | relay => exact ⟨rfl, hl.2⟩

end Modes

/-! ## Runs -/

def Good (c₁ c : Conn) : Prop :=
  Delivered c₁ c ∧ (c.released = false → ∃ b, Buffering c₁ c b ∧ Clean c b)

def Bad (c₁ c : Conn) : Prop :=
  ¬ Delivered c₁ c ∧ (c.released = false → ∃ b, Buffering c₁ c b ∧ Lost c b)

section Run

variable {c₀ c₁ c c₂ c' : Conn} {b₂ : Side → Bufferevent} {L : List Byte} {k : StartCalls}
  {es : List Ev}

/-- The close check does not change what was delivered. -/
theorem good_of_clean (h : Buffering c₁ c₂ b₂) (hc : Clean c₂ b₂)
    (hc' : c' = c₂ ∨ c' = closeIfDone c₂) : Good c₁ c' := by
  have hd := hc.delivered h
  have hlive : Good c₁ c₂ := ⟨hd, fun _ => ⟨b₂, h, hc⟩⟩
  rcases hc' with rfl | rfl
  · exact hlive
  · rcases h.closeIfDone with heq | ⟨hrel, hsame⟩
    · rw [heq]
      exact hlive
    · exact ⟨hsame.delivered_iff.mpr hd, fun hl => absurd (hrel.symm.trans hl) (by decide)⟩

theorem bad_of_lost (h : Buffering c₁ c₂ b₂) (hl : Lost c₂ b₂)
    (hc' : c' = c₂ ∨ c' = closeIfDone c₂) : Bad c₁ c' := by
  have hd := hl.not_delivered h
  have hlive : Bad c₁ c₂ := ⟨hd, fun _ => ⟨b₂, h, hl⟩⟩
  rcases hc' with rfl | rfl
  · exact hlive
  · rcases h.closeIfDone with heq | ⟨hrel, hsame⟩
    · rw [heq]
      exact hlive
    · exact ⟨fun h' => hd (hsame.delivered_iff.mp h'),
        fun hl' => absurd (hrel.symm.trans hl') (by decide)⟩

theorem buffering_start (h₀ : AtHandover c₀ L) (h : startPump .bufferpump c₀ k = (c₁, true)) :
    ∃ b, Buffering c₁ c₁ b ∧ Clean c₁ b ∧ (b .relay).input = L := by
  obtain ⟨rfl, b, hrel, hbev⟩ := relaying_start h₀ h
  obtain ⟨cb, hcb, hci, hco⟩ := h₀.clientBev
  obtain ⟨rb, hrb, hri⟩ := h₀.relayBev
  have hfor : ∀ {s b₀}, (c₀.ends s).bev = some b₀ → b s = b₀.forPump.enable := fun {s b₀} hb₀ => by
    obtain ⟨b₁, hb₁, heq⟩ := hbev s
    rw [heq, Option.some.inj (hb₁.symm.trans hb₀)]
  refine ⟨b, ⟨hrel.live, hrel.state, hrel.bev, hrel.readLow, hrel.cbs,
    fun s => ?_, fun s hs => ?_, fun s hs => ?_, by rw [hfor hcb]; exact hci,
    fun _ => by rw [hfor hcb]; exact hco⟩, fun hs => ?_, by rw [hfor hrb]; exact hri⟩
  · refine ⟨Fifo.start (backlog (bufferStarted c₀ L) s), ?_, ?_, ?_, ?_, ?_⟩
    · simp [readSince]
    · simp [wroteSince]
    · simp [Fifo.start, readSince]
    · simp [Fifo.start, backlog, Conn.input, Conn.output, hrel.bev]
    · simp [Fifo.start, wroteSince]
  · exact absurd ((h₀.shutRead s).symm.trans hs) (by decide)
  · exact absurd ((h₀.shutWrite s).symm.trans hs) (by decide)
  · exact absurd ((h₀.shutRead _).symm.trans hs) (by decide)

theorem bufferStep_unique (c : Conn) (ev : Ev) (u v : Conn) (hu : BufferStep c ev u)
    (hv : BufferStep c ev v) : u = v := hu.2.2.2.trans hv.2.2.2.symm

theorem bufferpump_good_or_bad (h₀ : AtHandover c₀ L)
    (hstart : startPump .bufferpump c₀ k = (c₁, true)) (hrun : Run BufferStep c₁ es c) :
    (Run (Meeting BufferStep EofAfterData) c₁ es c ∧ Good c₁ c) ∨
      (¬ Run (Meeting BufferStep EofAfterData) c₁ es c ∧ Bad c₁ c) := by
  obtain ⟨b, hb, hc, -⟩ := buffering_start h₀ hstart
  refine hrun.good_or_bad bufferStep_unique ⟨hc.delivered hb, fun _ => ⟨b, hb, hc⟩⟩ ?_ ?_ ?_
  · rintro u ev v ⟨-, hu⟩ hs hP
    obtain ⟨b, hb, hc⟩ := hu hs.1
    obtain ⟨c₂, b₂, hm, hv⟩ := hb.step hs
    exact good_of_clean (hm.buffering hb) (hm.clean hb hc hP) hv
  · rintro u ev v ⟨-, hu⟩ hs hP
    obtain ⟨b, hb, hc⟩ := hu hs.1
    obtain ⟨c₂, b₂, hm, hv⟩ := hb.step hs
    exact bad_of_lost (hm.buffering hb) (hm.lost_of_eof hb hP) hv
  · rintro u ev v ⟨-, hu⟩ hs
    obtain ⟨b, hb, hl⟩ := hu hs.1
    obtain ⟨c₂, b₂, hm, hv⟩ := hb.step hs
    exact bad_of_lost (hm.buffering hb) (hm.lost hb hl) hv

/-- **Everything is delivered before the half-close, unless the relay's end of file finds bytes of
the handshake.** In every state a run of the buffer pump reaches from `L` in the relay's input
buffer: a shut write side of the client has `L` and all that was read from the relay, and a shut
write side of the relay has all that was read from the client, exactly when each end of file of the
relay was handled with its input buffer empty. -/
theorem bufferpump_delivers_iff (h₀ : AtHandover c₀ L)
    (hstart : startPump .bufferpump c₀ k = (c₁, true)) (hrun : Run BufferStep c₁ es c) :
    (((c.ends .client).shutWrite = true →
        wroteSince c₁ c .client = L ++ readSince c₁ c .relay) ∧
      ((c.ends .relay).shutWrite = true →
        wroteSince c₁ c .relay = c₁.output .relay ++ readSince c₁ c .client)) ↔
      Run (Meeting BufferStep EofAfterData) c₁ es c := by
  obtain ⟨b, hb, -, hL⟩ := buffering_start h₀ hstart
  have hfromRelay : backlog c₁ .relay = L := by
    have hout : c₁.output .client = (b .client).output := by simp [Conn.output, hb.bev]
    have hclient : (b .client).output = [] := by
      obtain ⟨rb, -, heq⟩ := startPump_buffer_ok h₀.live hstart
      obtain ⟨cb, hcb, -, hco⟩ := h₀.clientBev
      have hsome : (c₁.ends .client).bev = some cb.forPump.enable := by
        rw [heq]
        simp [bufferStarted, hcb]
      rw [← Option.some.inj (hsome.symm.trans (hb.bev .client))]
      exact hco
    show c₁.output .client ++ c₁.input .relay = L
    rw [hout, hclient, hb.input_relay, hL, List.nil_append]
  have hfromClient : backlog c₁ .client = c₁.output .relay := by
    show c₁.output .relay ++ c₁.input .client = _
    have hin : c₁.input .client = (b .client).input := by simp [Conn.input, hb.bev]
    rw [hin, hb.clientInput, List.append_nil]
  have hiff : Delivered c₁ c ↔ Run (Meeting BufferStep EofAfterData) c₁ es c := by
    rcases bufferpump_good_or_bad h₀ hstart hrun with ⟨hm, hg⟩ | ⟨hm, hb⟩
    · exact iff_of_true hg.1 hm
    · exact iff_of_false hb.1 hm
  rw [← hiff, ← hfromRelay, ← hfromClient]
  exact ⟨fun h s => by cases s; exacts [h.2, h.1], fun h => ⟨h .relay, h .client⟩⟩

end Run

/-- The client after a handed-over connection with `L` in the relay's input buffer has started to
pump through its bufferevents. -/
def bufferedConn (L : List Byte) : Conn := (startPump .bufferpump (handoverConn L) StartCalls.ok).1

theorem startPump_bufferedConn (L : List Byte) :
    startPump .bufferpump (handoverConn L) StartCalls.ok = (bufferedConn L, true) := rfl

def Ev.eofOf (s : Side) : Ev := .event s .readEof (.other 0) HandshakeCalls.ok

/-- The relay sends one more byte and closes; the client takes both bytes after that. -/
def lateEof : List Ev := [.read .relay [0x49] HandshakeCalls.ok, .eofOf .relay, .wrote .client 2]

theorem run_lateEof : Run (Meeting BufferStep EofAfterData) (bufferedConn [0x48]) lateEof
    (lateEof.foldl (Conn.step .bufferpump) (bufferedConn [0x48])) := by
  have h₁ : Meeting BufferStep EofAfterData (bufferedConn [0x48])
      (.read .relay [0x49] HandshakeCalls.ok)
      ((bufferedConn [0x48]).step .bufferpump (.read .relay [0x49] HandshakeCalls.ok)) :=
    ⟨trivial, rfl, ⟨_, rfl, by decide, rfl⟩, List.cons_ne_nil _ _, rfl⟩
  have h₂ : Meeting BufferStep EofAfterData
      ((bufferedConn [0x48]).step .bufferpump (.read .relay [0x49] HandshakeCalls.ok))
      (.eofOf .relay)
      (([.read .relay [0x49] HandshakeCalls.ok, .eofOf .relay] : List Ev).foldl
        (Conn.step .bufferpump) (bufferedConn [0x48])) :=
    ⟨rfl, rfl, ⟨_, rfl, by decide, .inl rfl, rfl⟩, rfl, rfl⟩
  exact ((Run.one h₁).snoc h₂).snoc ⟨trivial, rfl, ⟨_, rfl, by decide, rfl⟩, trivial, rfl⟩

theorem bufferpump_delivers_lateEof :
    ((lateEof.foldl (Conn.step .bufferpump) (bufferedConn [0x48])).ends .client).shutWrite = true ∧
      wroteSince (bufferedConn [0x48])
        (lateEof.foldl (Conn.step .bufferpump) (bufferedConn [0x48])) .client =
          [0x48] ++ [0x49] := by
  have h := (bufferpump_delivers_iff (atHandover_handoverConn [0x48])
    (startPump_bufferedConn [0x48])
    (run_lateEof.mono fun _ _ _ h => h.2)).mpr run_lateEof
  exact ⟨rfl, h.1 rfl⟩

/-- One byte behind the reply, then the relay closes at once: the client's write side is shut before
the byte was written. -/
theorem bufferpump_loses_byte :
    AtHandover (handoverConn [0x48]) [0x48] ∧
      startPump .bufferpump (handoverConn [0x48]) StartCalls.ok = (bufferedConn [0x48], true) ∧
      Run BufferStep (bufferedConn [0x48]) [.eofOf .relay]
        ((bufferedConn [0x48]).step .bufferpump (.eofOf .relay)) ∧
      (((bufferedConn [0x48]).step .bufferpump (.eofOf .relay)).ends .client).shutWrite = true ∧
      wroteSince (bufferedConn [0x48]) ((bufferedConn [0x48]).step .bufferpump (.eofOf .relay))
          .client ≠
        [0x48] ++ readSince (bufferedConn [0x48])
          ((bufferedConn [0x48]).step .bufferpump (.eofOf .relay)) .relay := by
  refine ⟨atHandover_handoverConn _, startPump_bufferedConn _,
    Run.one ⟨rfl, ⟨_, rfl, by decide, .inl rfl, rfl⟩, rfl, rfl⟩, rfl, ?_⟩
  show ([] : List Byte) ≠ [0x48] ++ []
  decide

end Transocks

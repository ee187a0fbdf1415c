import Transocks.Handover
import Transocks.Lib.Run

/-!
# What one callback of the buffer pump does

`Relaying c b` is a client that the buffer pump serves through the bufferevents `b`. `CopyMove`
lists what a callback can do to it up to the close check at its end, for every event that libevent
can report: end of file, a failed write and an error included. `Relaying.step` is the case analysis.
-/

namespace Transocks

def Conn.input (c : Conn) (s : Side) : List Byte := ((c.ends s).bev.map (·.input)).getD []

def Conn.output (c : Conn) (s : Side) : List Byte := ((c.ends s).bev.map (·.output)).getD []

/-- The branch of the event callbacks for the end of file of the socket. -/
def BevEvents.isReadEof (w : BevEvents) : Bool := w.reading && w.eof

/-- The branch of the event callbacks for a peer that takes no more. -/
def BevEvents.isWriteEof (w : BevEvents) (e : Errno) : Bool :=
  w.writing && ((w.error && e == .econnreset) || w.eof)

/-- The branch of the event callbacks that gives the connection up. -/
def BevEvents.isFatal (w : BevEvents) (e : Errno) : Bool :=
  !w.isReadEof && !w.isWriteEof e && w.error

def Ev.isCopying : Ev → Bool
  | .event _ _ _ _ => true
  | .read _ _ _ => true
  | .wrote _ _ => true
  | _ => false

/-- A callback of the buffer pump for an error that it does not recover from. -/
def Ev.isFatal : Ev → Bool
  | .event _ w e _ => w.isFatal e
  | _ => false

/-- A client that the buffer pump serves through the bufferevents `b`. -/
structure Relaying (c : Conn) (b : Side → Bufferevent) : Prop where
  live : c.released = false
  state : c.clientState = .pumpingData
  bev : ∀ s, (c.ends s).bev = some (b s)
  readLow : ∀ s, (b s).readLow = 0
  cbs : ∀ s, (b s).readcb = some .pump ∧ (b s).writecb = true ∧ (b s).eventcb = some .pump

section Moves

variable {c : Conn} {b : Side → Bufferevent} {s : Side}

theorem Relaying.input_eq (h : Relaying c b) (s : Side) : c.input s = (b s).input := by
  simp [Conn.input, h.bev]

theorem Relaying.output_eq (h : Relaying c b) (s : Side) : c.output s = (b s).output := by
  simp [Conn.output, h.bev]

/-! ## A socket read and its callback -/

/-- The client after a socket read of `bs` from `s` and the read callback. -/
def pumped (c : Conn) (b : Side → Bufferevent) (s : Side) (bs : List Byte) : Conn :=
  (c.setEnd s
    { c.ends s with bev := some { b s with input := [] }, rx := (c.ends s).rx ++ bs }).setBev
    s.other (some { b s.other with output := (b s.other).output ++ ((b s).input ++ bs) })

/-- The bufferevents after a socket read of `bs` from `s` and the read callback. -/
def pumpedBev (b : Side → Bufferevent) (s : Side) (bs : List Byte) : Side → Bufferevent :=
  Function.update (Function.update b s { b s with input := [] }) s.other
    { b s.other with output := (b s.other).output ++ ((b s).input ++ bs) }

@[simp] theorem pumpedBev_same (bs : List Byte) :
    pumpedBev b s bs s = { b s with input := [] } := by
  simp [pumpedBev]

@[simp] theorem pumpedBev_other (bs : List Byte) : pumpedBev b s bs s.other =
    { b s.other with output := (b s.other).output ++ ((b s).input ++ bs) } := by
  simp [pumpedBev]

@[simp] theorem pumped_same (bs : List Byte) : (pumped c b s bs).ends s =
    { c.ends s with bev := some { b s with input := [] }, rx := (c.ends s).rx ++ bs } := by
  unfold pumped
  rw [Conn.setBev_ne _ _ (Side.ne_other s), Conn.setEnd_same]

@[simp] theorem pumped_other (bs : List Byte) : (pumped c b s bs).ends s.other =
    { c.ends s.other with
      bev := some { b s.other with output := (b s.other).output ++ ((b s).input ++ bs) } } := by
  simp [pumped]

theorem step_read (h : Relaying c b) (bs : List Byte) (k : HandshakeCalls) :
    c.step .bufferpump (.read s bs k) = pumped c b s bs := by
  have hcb : ∀ c' : Conn, c'.runReadcb .bufferpump s k .pump = pumpReadcb s c' := fun _ => by
    cases s <;> rfl
  simp only [Conn.step, h.bev s, h.readLow s, (h.cbs s).1, Nat.not_lt_zero, if_false, hcb]
  unfold pumpReadcb
  rw [Conn.touch_live (c := c.received s (b s) bs) h.live]
  simp only [Conn.received, Conn.setEnd_same, Conn.setEnd_other, h.bev]
  unfold pumped
  congr 1
  simp only [Conn.setBev, Conn.setEnd, Function.update_self, Function.update_idem]

/-! ## A socket write -/

/-- The bufferevents after a socket write of `n` bytes to `s`. -/
def flushedBev (b : Side → Bufferevent) (s : Side) (n : ℕ) : Side → Bufferevent :=
  Function.update b s { b s with output := (b s).output.drop n }

@[simp] theorem flushedBev_same (n : ℕ) :
    flushedBev b s n s = { b s with output := (b s).output.drop n } := Function.update_self ..

@[simp] theorem flushedBev_other (n : ℕ) : flushedBev b s n s.other = b s.other :=
  Function.update_of_ne (Side.other_ne s) ..

/-! ## End of file -/

/-- The client after the read-EOF branch of `s` has set its flag and disabled reading. -/
def eofMarked (s : Side) (c : Conn) (b : Side → Bufferevent) : Conn :=
  (c.setEnd s { c.ends s with shutRead := true, bev := some { b s with enRead := false } }).emits
    [.shutdown s (c.ends s).fd .rd]

/-- The bufferevents after the read-EOF branch of `s`. -/
def eofBev (b : Side → Bufferevent) (s : Side) : Side → Bufferevent :=
  Function.update b s { b s with enRead := false }

@[simp] theorem eofBev_same : eofBev b s s = { b s with enRead := false } := Function.update_self ..

@[simp] theorem eofBev_other : eofBev b s s.other = b s.other :=
  Function.update_of_ne (Side.other_ne s) ..

theorem eofBev_input (t : Side) : (eofBev b s t).input = (b t).input := by
  rcases Side.eq_or_eq_other s t with rfl | rfl <;> simp

theorem eofBev_output (t : Side) : (eofBev b s t).output = (b t).output := by
  rcases Side.eq_or_eq_other s t with rfl | rfl <;> simp

/-- The bufferevents after the write-EOF branch of `s`. -/
def writeEofBev (b : Side → Bufferevent) (s : Side) : Side → Bufferevent :=
  Function.update b s { b s with enWrite := false }

@[simp] theorem writeEofBev_same : writeEofBev b s s = { b s with enWrite := false } :=
  Function.update_self ..

@[simp] theorem writeEofBev_other : writeEofBev b s s.other = b s.other :=
  Function.update_of_ne (Side.other_ne s) ..

/-! ## The moves -/

/-- What a callback of the buffer pump can do up to its close check. -/
inductive CopyMove (c : Conn) (b : Side → Bufferevent) : Ev → Conn → (Side → Bufferevent) → Prop
  | read {s : Side} {bs : List Byte} {k : HandshakeCalls} (he : (b s).enRead = true) :
    CopyMove c b (.read s bs k) (pumped c b s bs) (pumpedBev b s bs)
  | wrote {s : Side} {n : ℕ}
      (hw : (b s).output.drop n ≠ [] ∨ (c.ends s.other).shutRead = false) :
    CopyMove c b (.wrote s n) (c.flushed s (b s) n) (flushedBev b s n)
  | drained {s : Side} {n : ℕ} (ho : (b s).output.drop n = [])
      (hr : (c.ends s.other).shutRead = true) :
    CopyMove c b (.wrote s n) (shutdownWrite s (c.flushed s (b s) n)) (flushedBev b s n)
  | eof {s : Side} {w : BevEvents} {e : Errno} {k : HandshakeCalls}
      (hw : w.isReadEof = true) (ho : (b s.other).output ≠ []) :
    CopyMove c b (.event s w e k) (eofMarked s c b) (eofBev b s)
  | eofDrained {s : Side} {w : BevEvents} {e : Errno} {k : HandshakeCalls}
      (hw : w.isReadEof = true) (ho : (b s.other).output = []) :
    CopyMove c b (.event s w e k) (shutdownWrite s.other (eofMarked s c b)) (eofBev b s)
  | writeEof {s : Side} {w : BevEvents} {e : Errno} {k : HandshakeCalls}
      (hr : w.isReadEof = false) (hw : w.isWriteEof e = true) :
    CopyMove c b (.event s w e k) (pumpWriteEof s c (b s)) (writeEofBev b s)
  | ignored {s : Side} {w : BevEvents} {e : Errno} {k : HandshakeCalls}
      (hr : w.isReadEof = false) : CopyMove c b (.event s w e k) c b

theorem Relaying.flushed (h : Relaying c b) (n : ℕ) :
    Relaying (c.flushed s (b s) n) (flushedBev b s n) := by
  refine ⟨h.live, h.state, fun t => ?_, fun t => ?_, fun t => ?_⟩ <;>
    rcases Side.eq_or_eq_other s t with rfl | rfl <;>
      simp [Conn.flushed, h.bev, h.readLow, h.cbs]

theorem Relaying.eofMarked (h : Relaying c b) : Relaying (eofMarked s c b) (eofBev b s) := by
  refine ⟨h.live, h.state, fun t => ?_, fun t => ?_, fun t => ?_⟩ <;>
    rcases Side.eq_or_eq_other s t with rfl | rfl <;>
      simp [Transocks.eofMarked, h.bev, h.readLow, h.cbs]

theorem Relaying.shutdownWrite (h : Relaying c b) (s : Side) : Relaying (shutdownWrite s c) b := by
  refine ⟨h.live, h.state, fun t => ?_, h.readLow, h.cbs⟩
  rcases Side.eq_or_eq_other s t with rfl | rfl <;> simp [Transocks.shutdownWrite, h.bev]

/-- Every move leaves the client with the pump. -/
theorem CopyMove.relaying {ev : Ev} {c₂ : Conn} {b₂ : Side → Bufferevent}
    (hm : CopyMove c b ev c₂ b₂) (h : Relaying c b) : Relaying c₂ b₂ := by
  cases hm with
  | @read s bs k he =>
    refine ⟨h.live, h.state, fun t => ?_, fun t => ?_, fun t => ?_⟩ <;>
      rcases Side.eq_or_eq_other s t with rfl | rfl <;> simp [h.readLow, h.cbs]
  | @wrote s n hw => exact h.flushed n
  | @drained s n ho hr => exact (h.flushed n).shutdownWrite s
  | @eof s w e k hw ho => exact h.eofMarked
  | @eofDrained s w e k hw ho => exact h.eofMarked.shutdownWrite s.other
  | @writeEof s w e k hr hw =>
    refine ⟨h.live, h.state, fun t => ?_, fun t => ?_, fun t => ?_⟩ <;>
      rcases Side.eq_or_eq_other s t with rfl | rfl <;>
        simp [pumpWriteEof, h.bev, h.readLow, h.cbs]
  | ignored hr => exact h

theorem pumpWritecb_flushed (h : Relaying c b) (n : ℕ) (ho : (b s).output.drop n = []) :
    pumpWritecb s (c.flushed s (b s) n) = closeIfDone (if (c.ends s.other).shutRead then
      shutdownWrite s (c.flushed s (b s) n) else c.flushed s (b s) n) := by
  unfold pumpWritecb
  rw [Conn.touch_live (c := c.flushed s (b s) n) h.live]
  simp [Conn.flushed, ho]

theorem pumpEventcb_readEof (h : Relaying c b) {w : BevEvents} (hw : w.isReadEof = true)
    (e : Errno) :
    pumpEventcb s c w e = closeIfDone (if (b s.other).output = [] then
      shutdownWrite s.other (eofMarked s c b) else eofMarked s c b) := by
  unfold BevEvents.isReadEof at hw
  unfold pumpEventcb
  rw [Conn.touch_live h.live]
  simp [h.bev, hw, pumpReadEof, eofMarked]

theorem pumpEventcb_rest (h : Relaying c b) {w : BevEvents} (hw : w.isReadEof = false)
    (e : Errno) :
    pumpEventcb s c w e = if w.isWriteEof e then closeIfDone (pumpWriteEof s c (b s))
      else if w.error then bufferpumpFree c else closeIfDone c := by
  unfold BevEvents.isReadEof at hw
  unfold pumpEventcb BevEvents.isWriteEof
  rw [Conn.touch_live h.live]
  simp only [h.bev, hw, Bool.false_eq_true, if_false]

theorem checkClose_of_flags {c₂ : Conn} (h : ∀ s, (c₂.ends s).shutRead = (c.ends s).shutRead ∧
    (c₂.ends s).shutWrite = (c.ends s).shutWrite) : checkClose c₂ = checkClose c := by
  unfold checkClose
  rw [(h .client).1, (h .client).2, (h .relay).1, (h .relay).2]

/-- **One callback of the buffer pump.** It makes one move and may then find all four flags set, or
it gives up on an error. -/
theorem Relaying.step (h : Relaying c b) {ev : Ev} (hen : c.Enabled ev)
    (hcp : ev.isCopying = true) :
    (∃ c₂ b₂, CopyMove c b ev c₂ b₂ ∧ (c.step .bufferpump ev = closeIfDone c₂ ∨
      (c.step .bufferpump ev = c₂ ∧ checkClose c₂ = checkClose c))) ∨
    (ev.isFatal = true ∧ c.step .bufferpump ev = bufferpumpFree c) := by
  cases ev with
  | read s bs k =>
    obtain ⟨b', hb', -, he⟩ := hen
    obtain rfl : b s = b' := Option.some.inj ((h.bev s).symm.trans hb')
    refine .inl ⟨_, _, .read he, .inr ⟨step_read h bs k, checkClose_of_flags fun t => ?_⟩⟩
    rcases Side.eq_or_eq_other s t with rfl | rfl <;> simp
  | wrote s n =>
    have hcb : ∀ c' : Conn, c'.runWritecb s = pumpWritecb s c' := fun _ => by cases s <;> rfl
    simp only [Conn.step, h.bev s, (h.cbs s).2.1, hcb, List.length_eq_zero_iff, Bool.true_and,
      decide_eq_true_eq]
    split_ifs with ho
    · rw [pumpWritecb_flushed h n ho]
      split_ifs with hr
      · exact .inl ⟨_, _, .drained ho hr, .inl rfl⟩
      · exact .inl ⟨_, _, .wrote (.inr (by simpa using hr)), .inl rfl⟩
    · refine .inl ⟨_, _, .wrote (.inl ho), .inr ⟨rfl, checkClose_of_flags fun t => ?_⟩⟩
      rcases Side.eq_or_eq_other s t with rfl | rfl <;> simp [Conn.flushed]
  | event s w e k =>
    have hcb : c.runEventcb s w e k .pump = pumpEventcb s c w e := by cases s <;> rfl
    simp only [Conn.step, h.bev s, (h.cbs s).2.2, hcb]
    cases hw : w.isReadEof with
    | true =>
      rw [pumpEventcb_readEof h hw]
      split_ifs with ho
      · exact .inl ⟨_, _, .eofDrained hw ho, .inl rfl⟩
      · exact .inl ⟨_, _, .eof hw ho, .inl rfl⟩
    | false =>
      rw [pumpEventcb_rest h hw]
      split_ifs with hwr herr
      · exact .inl ⟨_, _, .writeEof hw hwr, .inl rfl⟩
      · exact .inr ⟨by simp [Ev.isFatal, BevEvents.isFatal, hw, hwr, herr], rfl⟩
      · exact .inl ⟨_, _, .ignored hw, .inl rfl⟩
  | timeout => cases hcp
  | spliceRead d q => cases hcp
  | spliceWrite d q => cases hcp

/-! ## The release -/

theorem Relaying.bufferpumpFree_eq (h : Relaying c b) : bufferpumpFree c =
    clientFree ((c.mapBev .client Bufferevent.disable).mapBev .relay Bufferevent.disable) :=
  bufferpumpFree_bev h.live (h.bev .client) (h.bev .relay)

/-- A release keeps the flags and the history of the sockets and of the pipes. -/
theorem Relaying.bufferpumpFree (h : Relaying c b) :
    (bufferpumpFree c).released = true ∧ (bufferpumpFree c).kern = c.kern ∧
      ∀ t, (bufferpumpFree c).ends t = (c.ends t).freed := by
  have hne : Side.client ≠ Side.relay := by decide
  have hst : ((c.mapBev .client Bufferevent.disable).mapBev .relay
      Bufferevent.disable).clientState = .pumpingData := h.state
  have hs : ∀ x : ClientState, x = .pumpingData → x ≠ .destroyed ∧ x ≠ .destroying := by
    rintro x rfl
    decide
  rw [h.bufferpumpFree_eq]
  refine ⟨clientFree_released (by exact h.live) (hs _ hst),
    clientFree_kern (by exact h.live) (hs _ hst), fun t => ?_⟩
  rw [clientFree_ends (by exact h.live) (hs _ hst)]
  cases t <;> simp [Conn.mapBev, Conn.setBev_ne, hne, End.freed]

/-- The close check leaves a client alone or releases it with all four flags set. -/
theorem closeIfDone_cases (c : Conn) :
    (checkClose c = false ∧ closeIfDone c = c) ∨
      (checkClose c = true ∧ closeIfDone c = bufferpumpFree c) := by
  unfold closeIfDone
  cases checkClose c with
  | false => exact .inl ⟨rfl, by rw [if_neg (by decide)]⟩
  | true => exact .inr ⟨rfl, by rw [if_pos rfl]⟩

end Moves

/-! ## Turns -/

/-- A client of the buffer pump whose handshake is over. -/
structure Serving (c : Conn) (b : Side → Bufferevent) : Prop extends Relaying c b where
  noPump : c.userArg = none
  timer : ∀ ev, c.timeoutEv = some ev → ev.added = false

section Turns

variable {c : Conn} {b : Side → Bufferevent} {ev : Ev}

theorem Serving.enabled (h : Serving c b) (hen : c.Enabled ev) : ev.isCopying = true := by
  cases ev with
  | event s w e k => rfl
  | read s bs k => rfl
  | wrote s n => rfl
  | timeout =>
    obtain ⟨e, he, hadd⟩ := hen
    rw [h.timer e he] at hadd
    cases hadd
  | spliceRead d q =>
    obtain ⟨p, -, hp, -⟩ := hen
    exact absurd (h.noPump.symm.trans hp) (by simp)
  | spliceWrite d q =>
    obtain ⟨p, -, hp, -⟩ := hen
    exact absurd (h.noPump.symm.trans hp) (by simp)

theorem CopyMove.frame {c₂ : Conn} {b₂ : Side → Bufferevent} (hm : CopyMove c b ev c₂ b₂) :
    c₂.userArg = c.userArg ∧ c₂.timeoutEv = c.timeoutEv ∧ c₂.kern = c.kern := by
  cases hm <;> exact ⟨rfl, rfl, rfl⟩

end Turns

/-! ## The start of the pump -/

section Start

variable {c c' : Conn} {k : StartCalls}

theorem bevEnableStage_ok {s : Side} {ok : Bool} (h : bevEnableStage c s ok = .ok c') :
    c' = c.mapBev s Bufferevent.enable := by
  unfold bevEnableStage at h
  split at h
  · exact (Except.ok.inj h).symm
  · cases h

/-- A client that the buffer pump has just started on, with `left` in the relay's input buffer. -/
def bufferStarted (c : Conn) (left : List Byte) : Conn :=
  { c.emits [.startPump left] with
    clientState := .pumpingData
    ends := fun s => { c.ends s with bev := (c.ends s).bev.map fun b => b.forPump.enable } }

theorem startPump_buffer_ok (hl : c.released = false) (h : startPump .bufferpump c k = (c', true)) :
    ∃ rb, (c.ends .relay).bev = some rb ∧ c' = bufferStarted c rb.input := by
  unfold startPump at h
  split at h
  · rename_i cb rb hcb hrb
    simp only [startPumpFn, bufferpumpStartPump] at h
    cases hs : bufferpumpStages (c.emits [.startPump rb.input]) k with
    | error c₂ => simp [hs] at h
    | ok c₂ =>
      rw [hs] at h
      unfold bufferpumpStages at hs
      simp only [bind_ok_iff] at hs
      obtain ⟨c₃, h₃, h₂⟩ := hs
      obtain rfl := bevEnableStage_ok h₃
      obtain rfl := bevEnableStage_ok h₂
      refine ⟨rb, hrb, ?_⟩
      rw [← (Prod.mk.inj h).1, Conn.touch_live (by exact hl)]
      unfold bufferStarted Conn.mapBev Conn.setBev Conn.setEnd
      simp only [Conn.emits, Conn.mk.injEq, and_true]
      funext s
      cases s <;> simp [hcb, hrb]
  · simp at h

theorem relaying_bufferStarted {b : Side → Bufferevent} (hl : c.released = false)
    (hb : ∀ s, (c.ends s).bev = some (b s)) (left : List Byte) :
    Relaying (bufferStarted c left) fun s => (b s).forPump.enable :=
  ⟨hl, rfl, fun s => by simp [bufferStarted, hb], fun _ => rfl, fun _ => ⟨rfl, rfl, rfl⟩⟩

theorem relaying_start {c₀ c₁ : Conn} {L : List Byte} (h₀ : AtHandover c₀ L)
    (h : startPump .bufferpump c₀ k = (c₁, true)) :
    c₁ = bufferStarted c₀ L ∧ ∃ b, Relaying c₁ b ∧
      ∀ s, ∃ b₀, (c₀.ends s).bev = some b₀ ∧ b s = b₀.forPump.enable := by
  obtain ⟨rb', hrb', rfl⟩ := startPump_buffer_ok h₀.live h
  obtain ⟨cb, hcb, -, -⟩ := h₀.clientBev
  obtain ⟨rb, hrb, rfl⟩ := h₀.relayBev
  obtain rfl := Option.some.inj (hrb.symm.trans hrb')
  have hb : ∀ s, (c₀.ends s).bev = some (Side.both cb rb s) := fun s => by
    cases s
    · exact hcb
    · exact hrb
  exact ⟨rfl, _, relaying_bufferStarted h₀.live hb rb.input, fun s => ⟨_, hb s, rfl⟩⟩

end Start

/-! ## Runs of the pump -/

/-- A turn of the loop for a client of the buffer pump: one of the pump's callbacks, or the signal
that drops all clients. -/
def CopyStep (c : Conn) (t : Turn) (c' : Conn) : Prop :=
  LifeStep .bufferpump c t c' ∧ ∀ ev, t = .callback ev → ev.isCopying = true

def Turn.isForced : Turn → Bool
  | .callback ev => ev.isFatal
  | .drop => true

section Run

variable {c c' : Conn} {b : Side → Bufferevent} {t : Turn}

/-- **One turn of the buffer pump.** It gives the connection up, or makes one move; after the move
it leaves the client alone, or releases it with all four flags set. -/
theorem CopyStep.cases (hs : CopyStep c t c') (hb : Relaying c b) :
    (t.isForced = true ∧ c' = bufferpumpFree c) ∨
      ∃ ev c₂ b₂, t = .callback ev ∧ CopyMove c b ev c₂ b₂ ∧
        ((c' = c₂ ∧ (checkClose c = false → checkClose c₂ = false)) ∨
          (c' = bufferpumpFree c₂ ∧ checkClose c₂ = true)) := by
  obtain ⟨⟨-, hpos, rfl⟩, hcp⟩ := hs
  cases t with
  | drop => exact .inl ⟨rfl, rfl⟩
  | callback ev =>
    rcases hb.step hpos (hcp ev rfl) with ⟨c₂, b₂, hm, hc⟩ | ⟨hfatal, heq⟩
    · refine .inr ⟨ev, c₂, b₂, rfl, hm, ?_⟩
      rcases hc with hc | ⟨hc, hsame⟩
      · rcases closeIfDone_cases c₂ with ⟨hopen, hcl⟩ | ⟨hdone, hcl⟩
        · exact .inl ⟨hc.trans hcl, fun _ => hopen⟩
        · exact .inr ⟨hc.trans hcl, hdone⟩
      · exact .inl ⟨hc, fun hopen => hsame.trans hopen⟩
    · exact .inl ⟨hfatal, heq⟩

/-- A turn that leaves a client of the pump live is one move. -/
theorem CopyStep.move (hs : CopyStep c t c') (hb : Relaying c b) (hl : c'.released = false) :
    ∃ ev b', t = .callback ev ∧ CopyMove c b ev c' b' := by
  rcases hs.cases hb with ⟨-, rfl⟩ | ⟨ev, c₂, b₂, rfl, hm, ⟨rfl, -⟩ | ⟨rfl, -⟩⟩
  · exact absurd (hb.bufferpumpFree.1.symm.trans hl) (by decide)
  · exact ⟨ev, b₂, rfl, hm⟩
  · exact absurd ((hm.relaying hb).bufferpumpFree.1.symm.trans hl) (by decide)

/-- A turn of a client of the buffer pump makes at most one move, and then it may release the
client. -/
theorem Serving.turn (h : Serving c b) (hs : LifeStep .bufferpump c t c') :
    ∃ c₂ b₂, Serving c₂ b₂ ∧
      ((∃ ev, t = .callback ev ∧ CopyMove c b ev c₂ b₂) ∨ (c₂ = c ∧ b₂ = b)) ∧
      (c' = c₂ ∨ c' = bufferpumpFree c₂) := by
  have hcopy : CopyStep c t c' := by
    refine ⟨hs, fun ev hev => h.enabled ?_⟩
    subst hev
    exact hs.2.1
  rcases hcopy.cases h.toRelaying with ⟨-, rfl⟩ | ⟨ev, c₂, b₂, rfl, hm, hc⟩
  · exact ⟨c, b, h, .inr ⟨rfl, rfl⟩, .inr rfl⟩
  · obtain ⟨hp, ht, -⟩ := hm.frame
    refine ⟨c₂, b₂, ⟨hm.relaying h.toRelaying, hp.trans h.noPump, by rw [ht]; exact h.timer⟩,
      .inl ⟨ev, rfl, hm⟩, ?_⟩
    rcases hc with ⟨rfl, -⟩ | ⟨rfl, -⟩
    · exact .inl rfl
    · exact .inr rfl

end Run

end Transocks

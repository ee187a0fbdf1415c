import Transocks.BufferFlow

/-!
# Every byte of the buffer pump is accounted for

A run is recorded together with what left the input buffers. For each direction the bytes that came
into the source's input buffer are the ones that left it and the ones still there, and the ones that
left it came, after what was there before, into the target's output buffer, where they are the ones
written and the ones still there (`bufferpump_conserves`).
-/

namespace Transocks

open Runs

/-- What left the front of the input buffer of `s` in the turn `t` from `c` to `c'`. -/
def movedOut (c : Conn) (t : Turn) (c' : Conn) (s : Side) : List Byte :=
  (c.input s ++ t.arrived s).take ((c.input s ++ t.arrived s).length - (c'.input s).length)

/-- A turn that also records what left the input buffers. -/
def RecordedStep (x : Conn × (Side → List Byte)) (t : Turn) (y : Conn × (Side → List Byte)) :
    Prop :=
  CopyStep x.1 t y.1 ∧ y.2 = fun s => x.2 s ++ movedOut x.1 t y.1 s

/-- The two buffers of each direction since the pump started in `c₁`, when `mv s` has left the input
buffer of `s`. -/
structure Moved (c₁ c : Conn) (b : Side → Bufferevent) (mv : Side → List Byte) : Prop where
  rx : ∀ s, (c.ends s).rx = (c₁.ends s).rx ++ readSince c₁ c s
  tx : ∀ s, (c.ends s).tx = (c₁.ends s).tx ++ wroteSince c₁ c s
  input : ∀ s, c₁.input s ++ readSince c₁ c s = mv s ++ (b s).input
  output : ∀ s, c₁.output s.other ++ mv s = wroteSince c₁ c s.other ++ (b s.other).output

section Steps

variable {c₁ c c₂ : Conn} {b b₂ : Side → Bufferevent} {mv : Side → List Byte} {ev : Ev} {s : Side}
  {bs : List Byte}

theorem movedOut_of_same {t : Turn} (ha : t.arrived s = []) (hi : c₂.input s = c.input s) :
    movedOut c t c₂ s = [] := by
  unfold movedOut
  rw [ha, hi, List.append_nil, Nat.sub_self, List.take_zero]

/-- A step that reads `rs s` from each side and writes `ws s` to it, when `ms s` leaves the input
buffer of `s`. -/
theorem Moved.next {ms : Side → List Byte} (rs ws : Side → List Byte) (h : Moved c₁ c b mv)
    (hrx : ∀ s, (c₂.ends s).rx = (c.ends s).rx ++ rs s)
    (htx : ∀ s, (c₂.ends s).tx = (c.ends s).tx ++ ws s)
    (hi : ∀ s, (b s).input ++ rs s = ms s ++ (b₂ s).input)
    (ho : ∀ s, (b s.other).output ++ ms s = ws s.other ++ (b₂ s.other).output) :
    Moved c₁ c₂ b₂ fun s => mv s ++ ms s := by
  have hr : ∀ s, readSince c₁ c₂ s = readSince c₁ c s ++ rs s :=
    fun s => readSince_append (h.rx s) (hrx s)
  have hw : ∀ s, wroteSince c₁ c₂ s = wroteSince c₁ c s ++ ws s :=
    fun s => wroteSince_append (h.tx s) (htx s)
  refine ⟨fun s => ?_, fun s => ?_, fun s => ?_, fun s => ?_⟩
  · rw [hrx, hr, h.rx, List.append_assoc]
  · rw [htx, hw, h.tx, List.append_assoc]
  · calc c₁.input s ++ readSince c₁ c₂ s
        = mv s ++ ((b s).input ++ rs s) := by
          rw [hr, ← List.append_assoc, h.input, List.append_assoc]
      _ = mv s ++ ms s ++ (b₂ s).input := by rw [hi, List.append_assoc]
  · calc c₁.output s.other ++ (mv s ++ ms s)
        = wroteSince c₁ c s.other ++ ((b s.other).output ++ ms s) := by
          rw [← List.append_assoc, h.output, List.append_assoc]
      _ = wroteSince c₁ c₂ s.other ++ (b₂ s.other).output := by
          rw [ho, hw, List.append_assoc]

/-- A step that neither reads nor writes and leaves the buffers alone. -/
theorem Moved.same {t : Turn} (h : Moved c₁ c b mv) (hb : Relaying c b) (hb₂ : Relaying c₂ b₂)
    (ha : ∀ s, t.arrived s = []) (hrx : ∀ s, (c₂.ends s).rx = (c.ends s).rx)
    (htx : ∀ s, (c₂.ends s).tx = (c.ends s).tx) (hi : ∀ s, (b₂ s).input = (b s).input)
    (ho : ∀ s, (b₂ s).output = (b s).output) :
    Moved c₁ c₂ b₂ fun s => mv s ++ movedOut c t c₂ s := by
  have hms : ∀ s, movedOut c t c₂ s = [] := fun s =>
    movedOut_of_same (ha s) (by rw [hb.input_eq, hb₂.input_eq, hi])
  refine h.next (fun _ => []) (fun _ => []) ?_ ?_ ?_ ?_
  · intro s
    rw [hrx, List.append_nil]
  · intro s
    rw [htx, List.append_nil]
  · intro s
    rw [hms, hi, List.append_nil, List.nil_append]
  · intro s
    rw [hms, ho, List.append_nil, List.nil_append]

theorem Moved.pumped {k : HandshakeCalls} (h : Moved c₁ c b mv) (hb : Relaying c b)
    (hb₂ : Relaying (pumped c b s bs) (pumpedBev b s bs)) :
    Moved c₁ (pumped c b s bs) (pumpedBev b s bs)
      fun t => mv t ++ movedOut c (.callback (.read s bs k)) (pumped c b s bs) t := by
  have hsame : movedOut c (.callback (.read s bs k)) (Transocks.pumped c b s bs) s =
      (b s).input ++ bs := by
    unfold movedOut
    rw [hb.input_eq, hb₂.input_eq, pumpedBev_same]
    simp [Turn.arrived]
  have hother : movedOut c (.callback (.read s bs k)) (Transocks.pumped c b s bs) s.other = [] :=
    movedOut_of_same (by simp [Turn.arrived]) (by rw [hb.input_eq, hb₂.input_eq, pumpedBev_other])
  refine h.next (Function.update (fun _ => []) s bs) (fun _ => []) ?_ ?_ ?_ ?_ <;> intro t <;>
    rcases Side.eq_or_eq_other s t with rfl | rfl
  · simp
  · simp
  · simp
  · simp
  · simp [hsame]
  · simp [hother]
  · simp [hsame]
  · simp [hother]

theorem Moved.flushed (n : ℕ) (h : Moved c₁ c b mv) (hb : Relaying c b)
    (hb₂ : Relaying (c.flushed s (b s) n) (flushedBev b s n)) :
    Moved c₁ (c.flushed s (b s) n) (flushedBev b s n)
      fun t => mv t ++ movedOut c (.callback (.wrote s n)) (c.flushed s (b s) n) t := by
  have hms : ∀ t, movedOut c (.callback (.wrote s n)) (c.flushed s (b s) n) t = [] := by
    intro t
    refine movedOut_of_same rfl ?_
    rw [hb.input_eq, hb₂.input_eq]
    rcases Side.eq_or_eq_other s t with rfl | rfl <;> simp
  refine h.next (fun _ => []) (Function.update (fun _ => []) s ((b s).output.take n))
    ?_ ?_ ?_ ?_ <;> intro t <;> rcases Side.eq_or_eq_other s t with rfl | rfl
  · simp [Conn.flushed]
  · simp [Conn.flushed]
  · simp [Conn.flushed]
  · simp [Conn.flushed]
  · simp [hms]
  · simp [hms]
  · simp [hms]
  · simp [hms]

theorem Moved.shutdownWrite (s : Side) (h : Moved c₁ c b mv) :
    Moved c₁ (shutdownWrite s c) b mv := by
  have hrx : ∀ t, ((Transocks.shutdownWrite s c).ends t).rx = (c.ends t).rx := fun t => by
    rcases Side.eq_or_eq_other s t with rfl | rfl <;> simp [Transocks.shutdownWrite]
  have htx : ∀ t, ((Transocks.shutdownWrite s c).ends t).tx = (c.ends t).tx := fun t => by
    rcases Side.eq_or_eq_other s t with rfl | rfl <;> simp [Transocks.shutdownWrite]
  have hr : ∀ t, readSince c₁ (Transocks.shutdownWrite s c) t = readSince c₁ c t :=
    fun t => by simp only [readSince, hrx]
  have hw : ∀ t, wroteSince c₁ (Transocks.shutdownWrite s c) t = wroteSince c₁ c t :=
    fun t => by simp only [wroteSince, htx]
  exact ⟨fun t => by rw [hrx, hr, ← h.rx], fun t => by rw [htx, hw, ← h.tx],
    fun t => by rw [hr, h.input], fun t => by rw [hw, h.output]⟩

theorem movedOut_shutdownWrite (t : Turn) :
    movedOut c t (shutdownWrite s c₂) = movedOut c t c₂ := by
  have hin : ∀ r, (shutdownWrite s c₂).input r = c₂.input r := fun r => by
    rcases Side.eq_or_eq_other s r with rfl | rfl <;> simp [shutdownWrite, Conn.input]
  funext r
  simp only [movedOut, hin]

theorem CopyMove.moved (hm : CopyMove c b ev c₂ b₂) (hb : Relaying c b) (h : Moved c₁ c b mv) :
    Moved c₁ c₂ b₂ fun s => mv s ++ movedOut c (.callback ev) c₂ s := by
  have hb₂ := hm.relaying hb
  have heof : ∀ {s : Side} (w : BevEvents) (e : Errno) (k : HandshakeCalls),
      Moved c₁ (eofMarked s c b) (eofBev b s) fun t =>
        mv t ++ movedOut c (.callback (.event s w e k)) (eofMarked s c b) t := by
    intro s w e k
    refine h.same hb hb.eofMarked (fun _ => rfl) ?_ ?_ eofBev_input eofBev_output
    · intro t
      rcases Side.eq_or_eq_other s t with rfl | rfl <;> simp [eofMarked]
    · intro t
      rcases Side.eq_or_eq_other s t with rfl | rfl <;> simp [eofMarked]
  cases hm with
  | read he => exact h.pumped hb hb₂
  | wrote hw => exact h.flushed _ hb hb₂
  | @drained s n ho hr =>
    rw [movedOut_shutdownWrite]
    exact (h.flushed n hb (hb.flushed n)).shutdownWrite s
  | eof hw ho => exact heof _ _ _
  | eofDrained hw ho =>
    rw [movedOut_shutdownWrite]
    exact (heof _ _ _).shutdownWrite _
  | @writeEof s w e k hr hw =>
    refine h.same hb hb₂ (fun _ => rfl) ?_ ?_ ?_ ?_ <;> intro t <;>
      rcases Side.eq_or_eq_other s t with rfl | rfl <;> simp [pumpWriteEof]
  | @ignored s w e k hr =>
    have ha : ∀ t, (Turn.callback (.event s w e k)).arrived t = [] := fun _ => rfl
    exact h.same hb hb ha (fun _ => rfl) (fun _ => rfl) (fun _ => rfl) (fun _ => rfl)

end Steps

/-! ## Runs -/

section Run

variable {c₀ c₁ c : Conn} {L : List Byte} {k : StartCalls} {ts : List Turn}
  {mv : Side → List Byte}

/-- **Nothing is lost, duplicated, reordered or sent to the wrong side.** In every state that a run
of the buffer pump reaches before the release, and for each side `s`: what was in its input buffer
and what was read from it since are what left the buffer and what is there; what was in the other
side's output buffer and what left the input buffer of `s` are what was written to the other side
and what is still to be written. -/
theorem bufferpump_conserves (h₀ : AtHandover c₀ L)
    (hstart : startPump .bufferpump c₀ k = (c₁, true))
    (hrun : Run RecordedStep (c₁, fun _ => []) ts (c, mv)) (hlive : c.released = false) (s : Side) :
    (c.ends s).rx = (c₁.ends s).rx ++ readSince c₁ c s ∧
      (c.ends s).tx = (c₁.ends s).tx ++ wroteSince c₁ c s ∧
      c₁.input s ++ readSince c₁ c s = mv s ++ c.input s ∧
      c₁.output s.other ++ mv s = wroteSince c₁ c s.other ++ c.output s.other := by
  obtain ⟨-, b₁, hb₁, -⟩ := relaying_start h₀ hstart
  have hinv := hrun.invariant
    (I := fun x => x.1.released = false → ∃ b, Relaying x.1 b ∧ Moved c₁ x.1 b x.2) ?_ ?_
  · obtain ⟨b, hb, hm⟩ := hinv hlive
    rw [hb.input_eq, hb.output_eq]
    exact ⟨hm.rx s, hm.tx s, hm.input s, hm.output s⟩
  · intro _
    refine ⟨b₁, hb₁, ?_, ?_, ?_, ?_⟩
    · simp [readSince]
    · simp [wroteSince]
    · simp [readSince, hb₁.input_eq]
    · simp [wroteSince, hb₁.output_eq]
  · rintro x t y hx ⟨hs, hmv⟩ hl
    obtain ⟨b, hb, hm⟩ := hx hs.1.1
    obtain ⟨ev, b', rfl, hmove⟩ := hs.move hb hl
    rw [hmv]
    exact ⟨b', hmove.relaying hb, hmove.moved hb hm⟩

end Run

/-- With `H` of the relay still to be moved, the relay sends `I`, the client sends two bytes, and
the first byte to the client is written. -/
def crossTraffic : List Turn :=
  [.callback (.read .relay [0x49] HandshakeCalls.ok),
    .callback (.read .client [0x61, 0x62] HandshakeCalls.ok), .callback (.wrote .client 1)]

/-- The next state of a recorded run. -/
def recordedNext (x : Conn × (Side → List Byte)) (t : Turn) : Conn × (Side → List Byte) :=
  (x.1.turn .bufferpump t, fun s => x.2 s ++ movedOut x.1 t (x.1.turn .bufferpump t) s)

theorem run_crossTraffic : Run RecordedStep (bufferedConn [0x48], fun _ => []) crossTraffic
    (crossTraffic.foldl recordedNext (bufferedConn [0x48], fun _ => [])) := by
  refine Run.foldl ⟨?_, ?_, ?_, trivial⟩
  · exact ⟨⟨⟨rfl, ⟨_, rfl, by decide, rfl⟩, rfl⟩, by rintro ev ⟨⟩; rfl⟩, rfl⟩
  · exact ⟨⟨⟨rfl, ⟨_, rfl, by decide, rfl⟩, rfl⟩, by rintro ev ⟨⟩; rfl⟩, rfl⟩
  · exact ⟨⟨⟨rfl, ⟨_, rfl, by decide, rfl⟩, rfl⟩, by rintro ev ⟨⟩; rfl⟩, rfl⟩

theorem bufferpump_conserves_crossTraffic :
    (crossTraffic.foldl recordedNext (bufferedConn [0x48], fun _ => [])).2 .relay = [0x48, 0x49] ∧
      (bufferedConn [0x48]).output .client ++ [0x48, 0x49] =
        wroteSince (bufferedConn [0x48])
          (crossTraffic.foldl recordedNext (bufferedConn [0x48], fun _ => [])).1 .client ++
        (crossTraffic.foldl recordedNext (bufferedConn [0x48], fun _ => [])).1.output .client :=
  ⟨rfl, (bufferpump_conserves (atHandover_handoverConn [0x48]) (startPump_bufferedConn [0x48])
    run_crossTraffic rfl .relay).2.2.2⟩

end Transocks

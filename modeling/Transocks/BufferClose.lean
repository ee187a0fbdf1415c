import Transocks.BufferFlow

/-!
# When the buffer pump ends a connection

The half-close of a side is put off while bytes for it are pending, and the write callback does it
once they are written. So a side whose peer has reported end of file is shut for writing or has
bytes to write, and a client whose four flags are set is gone (`bufferpump_closes`). The callbacks
release a client for no other reason than the four flags, an error or the signal.
-/

namespace Transocks

open Runs

/-- A client of the buffer pump with no half-close overdue. -/
structure Closing (c : Conn) (b : Side → Bufferevent) : Prop extends Relaying c b where
  unfinished : checkClose c = false
  pending : ∀ s, (c.ends s).shutRead = true →
    (c.ends s.other).shutWrite = true ∨ (b s.other).output ≠ []

section Moves

variable {c c₂ : Conn} {b b₂ : Side → Bufferevent} {ev : Ev}

theorem CopyMove.pending (hm : CopyMove c b ev c₂ b₂)
    (h : ∀ s, (c.ends s).shutRead = true →
      (c.ends s.other).shutWrite = true ∨ (b s.other).output ≠ []) (t : Side) :
    (c₂.ends t).shutRead = true →
      (c₂.ends t.other).shutWrite = true ∨ (b₂ t.other).output ≠ [] := by
  intro ht
  cases hm with
  | @read s bs k he =>
    rcases Side.eq_or_eq_other s t with rfl | rfl
    · rw [pumped_same] at ht
      rw [pumped_other, pumpedBev_other]
      refine (h t ht).imp_right fun hne => ?_
      simp [hne]
    · rw [pumped_other] at ht
      simpa using h s.other ht
  | @wrote s n hw =>
    rcases Side.eq_or_eq_other s t with rfl | rfl
    · simpa [Conn.flushed] using h t (by simpa [Conn.flushed] using ht)
    · -- the bytes for `s` are not all written, or its peer has not reported end of file
      have ht' : (c.ends s.other).shutRead = true := by simpa [Conn.flushed] using ht
      rcases hw with hne | hno
      · exact .inr (by simpa using hne)
      · exact absurd (hno.symm.trans ht') (by decide)
  | @drained s n ho hr =>
    rcases Side.eq_or_eq_other s t with rfl | rfl
    · have ht' : (c.ends t).shutRead = true := by simpa [shutdownWrite, Conn.flushed] using ht
      simpa [shutdownWrite, Conn.flushed] using h t ht'
    · exact .inl (by simp [shutdownWrite])
  | @eof s w e k hw ho =>
    rcases Side.eq_or_eq_other s t with rfl | rfl
    · exact .inr (by simpa using ho)
    · have ht' : (c.ends s.other).shutRead = true := by simpa [eofMarked] using ht
      simpa [eofMarked] using h s.other ht'
  | @eofDrained s w e k hw ho =>
    rcases Side.eq_or_eq_other s t with rfl | rfl
    · exact .inl (by simp [shutdownWrite])
    · have ht' : (c.ends s.other).shutRead = true := by
        simpa [shutdownWrite, eofMarked] using ht
      simpa [shutdownWrite, eofMarked] using h s.other ht'
  | @writeEof s w e k hr hw =>
    rcases Side.eq_or_eq_other s t with rfl | rfl
    · have ht' : (c.ends t).shutRead = true := by simpa [pumpWriteEof] using ht
      simpa [pumpWriteEof] using h t ht'
    · exact .inl (by simp [pumpWriteEof])
  | ignored hr => exact h t ht

theorem checkClose_iff (c : Conn) :
    checkClose c = true ↔ ∀ s, (c.ends s).shutRead = true ∧ (c.ends s).shutWrite = true := by
  unfold checkClose
  simp only [Bool.and_eq_true]
  constructor
  · rintro ⟨⟨⟨h₁, h₂⟩, h₃⟩, h₄⟩ s
    cases s
    · exact ⟨h₁, h₂⟩
    · exact ⟨h₃, h₄⟩
  · intro h
    exact ⟨⟨h .client, (h .relay).1⟩, (h .relay).2⟩

theorem Relaying.checkClose_free (h : Relaying c b) :
    checkClose (Transocks.bufferpumpFree c) = checkClose c :=
  checkClose_of_flags fun s => by rw [h.bufferpumpFree.2.2 s]; exact ⟨rfl, rfl⟩

end Moves

section Run

variable {c₀ c₁ c : Conn} {L : List Byte} {k : StartCalls} {ts : List Turn}

theorem closing_start (h₀ : AtHandover c₀ L) (h : startPump .bufferpump c₀ k = (c₁, true)) :
    ∃ b, Closing c₁ b := by
  obtain ⟨rfl, b, hb, -⟩ := relaying_start h₀ h
  have hflag : ∀ s, ((bufferStarted c₀ L).ends s).shutRead = false := h₀.shutRead
  refine ⟨b, hb, ?_, fun s hs => absurd ((hflag s).symm.trans hs) (by decide)⟩
  unfold checkClose
  rw [hflag .client]
  rfl

/-- The states a run reaches: no half-close is overdue, and a release that nothing forced found the
four flags set. -/
theorem bufferpump_closing (h₀ : AtHandover c₀ L)
    (hstart : startPump .bufferpump c₀ k = (c₁, true)) (hrun : Run CopyStep c₁ ts c) :
    (c.released = false → ∃ b, Closing c b) ∧
      ((∀ t ∈ ts, t.isForced = false) → c.released = true → checkClose c = true) := by
  induction hrun with
  | nil =>
    obtain ⟨b, hb⟩ := closing_start h₀ hstart
    exact ⟨fun _ => ⟨b, hb⟩, fun _ hrel => absurd (hb.live.symm.trans hrel) (by decide)⟩
  | @snoc ts u v t _ hs ih =>
    obtain ⟨b, hb⟩ := ih.1 hs.1.1
    rcases hs.cases hb.toRelaying with ⟨hf, rfl⟩ | ⟨ev, c₂, b₂, rfl, hm, hv⟩
    · refine ⟨fun hl => ?_, fun hno => ?_⟩
      · exact absurd (hb.toRelaying.bufferpumpFree.1.symm.trans hl) (by decide)
      · exact absurd ((hno t (by simp)).symm.trans hf) (by decide)
    · have hrel := hm.relaying hb.toRelaying
      rcases hv with ⟨rfl, hopen⟩ | ⟨rfl, hdone⟩
      · refine ⟨fun _ => ⟨b₂, hrel, hopen hb.unfinished, hm.pending hb.pending⟩, fun _ hr => ?_⟩
        exact absurd (hrel.live.symm.trans hr) (by decide)
      · refine ⟨fun hl => ?_, fun _ _ => hrel.checkClose_free.trans hdone⟩
        exact absurd (hrel.bufferpumpFree.1.symm.trans hl) (by decide)

/-- **The buffer pump ends a connection exactly when it should.** In every state a run reaches: a
live client whose side `s` has reported end of file is shut for writing on the other side or has
bytes for it, and not all of its four flags are set; so it is gone once both sides have reported end
of file and nothing is left to be written. Unless an error or the signal forced it, a release found
all four flags set. -/
theorem bufferpump_closes (h₀ : AtHandover c₀ L)
    (hstart : startPump .bufferpump c₀ k = (c₁, true)) (hrun : Run CopyStep c₁ ts c) :
    (c.released = false → ∀ s, (c.ends s).shutRead = true →
        (c.ends s.other).shutWrite = true ∨ c.output s.other ≠ []) ∧
      (c.released = false →
        ¬ ∀ s, (c.ends s).shutRead = true ∧ (c.ends s).shutWrite = true) ∧
      ((∀ s, (c.ends s).shutRead = true ∧ c.output s = []) → c.released = true) ∧
      ((∀ t ∈ ts, t.isForced = false) → c.released = true →
        ∀ s, (c.ends s).shutRead = true ∧ (c.ends s).shutWrite = true) := by
  obtain ⟨hlive, hfreed⟩ := bufferpump_closing h₀ hstart hrun
  have hpending : c.released = false → ∀ s, (c.ends s).shutRead = true →
      (c.ends s.other).shutWrite = true ∨ c.output s.other ≠ [] := by
    intro hl s hs
    obtain ⟨b, hb⟩ := hlive hl
    rw [hb.toRelaying.output_eq]
    exact hb.pending s hs
  have hopen : c.released = false →
      ¬ ∀ s, (c.ends s).shutRead = true ∧ (c.ends s).shutWrite = true := by
    intro hl hall
    obtain ⟨b, hb⟩ := hlive hl
    exact absurd (hb.unfinished.symm.trans ((checkClose_iff c).mpr hall)) (by decide)
  refine ⟨hpending, hopen, fun hdone => ?_, fun hno hrel => (checkClose_iff c).mp (hfreed hno hrel)⟩
  by_contra hne
  have hl : c.released = false := by simpa using hne
  refine hopen hl fun s => ⟨(hdone s).1, ?_⟩
  have hs := hpending hl s.other (hdone s.other).1
  rw [Side.other_other] at hs
  exact hs.resolve_right fun ho => ho (hdone s).2

end Run

/-- Both sides close while bytes are pending for them, which are then written. -/
def bothClose : List Turn :=
  [.callback (.read .relay [0x49] HandshakeCalls.ok), .callback (.eofOf .client),
    .callback (.eofOf .relay), .callback (.wrote .client 2), .callback (.wrote .relay 13)]

def closedConn : Conn := bothClose.foldl (Conn.turn .bufferpump) (bufferedConn [0x48])

theorem run_bothClose : Run CopyStep (bufferedConn [0x48]) bothClose closedConn := by
  refine Run.foldl ⟨?_, ?_, ?_, ?_, ?_, trivial⟩
  · exact ⟨⟨rfl, ⟨_, rfl, by decide, rfl⟩, rfl⟩, by rintro ev ⟨⟩; rfl⟩
  · exact ⟨⟨rfl, ⟨_, rfl, by decide, .inl rfl, rfl⟩, rfl⟩, by rintro ev ⟨⟩; rfl⟩
  · exact ⟨⟨rfl, ⟨_, rfl, by decide, .inl rfl, rfl⟩, rfl⟩, by rintro ev ⟨⟩; rfl⟩
  · exact ⟨⟨rfl, ⟨_, rfl, by decide, rfl⟩, rfl⟩, by rintro ev ⟨⟩; rfl⟩
  · exact ⟨⟨rfl, ⟨_, rfl, by decide, rfl⟩, rfl⟩, by rintro ev ⟨⟩; rfl⟩

theorem bufferpump_closes_bothClose :
    closedConn.released = true ∧
      ∀ s, (closedConn.ends s).shutRead = true ∧ (closedConn.ends s).shutWrite = true := by
  obtain ⟨-, -, -, hflags⟩ := bufferpump_closes (atHandover_handoverConn [0x48])
    (startPump_bufferedConn [0x48]) run_bothClose
  refine ⟨rfl, hflags ?_ rfl⟩
  intro t ht
  simp only [bothClose, List.mem_cons, List.not_mem_nil, or_false] at ht
  rcases ht with rfl | rfl | rfl | rfl | rfl <;> rfl

end Transocks

import Transocks.SpliceEof
import Transocks.Wire
import Transocks.Lib.Duplex

/-!
# A connection is a relay

Both pumps do the same job by different means: one copies through the buffers of libevent, the other
splices through two kernel pipes. `Duplex` says what the job is, and `connections_refine` that
every connection does it, from its accept to its release: each turn of the loop is matched by moves
of a relay whose channels hold the bytes that the connection has read and not yet written.
-/

namespace Transocks

open Duplex Runs

/-- Everything read from the source of `d`: through its bufferevent, or into the pipe. -/
def Conn.got (c : Conn) (d : Direction) : List Byte := (c.ends d.source).rx ++ (c.kern d).taken

/-- Everything written to the target of `d`: through its bufferevent, or out of the pipe. -/
def Conn.gave (c : Conn) (d : Direction) : List Byte := (c.ends d.target).tx ++ (c.kern d).written

theorem SameHistory.got {c c' : Conn} (h : SameHistory c c') (d : Direction) :
    c'.got d = c.got d := by
  unfold Conn.got
  rw [h.rx, h.taken]

theorem SameHistory.gave {c c' : Conn} (h : SameHistory c c') (d : Direction) :
    c'.gave d = c.gave d := by
  unfold Conn.gave
  rw [h.tx, h.written]

/-- A relay with the channels `ch` can go on to channels that are as `P` says. -/
def Answers (ch : Side → Channel Byte) (P : (Side → Channel Byte) → Prop) : Prop :=
  ∃ acts ch', Run Step (.flowing ch) acts (.flowing ch') ∧ P ch'

section Answers

variable {ch : Side → Channel Byte} {P Q : (Side → Channel Byte) → Prop} {s : Side}
  {mv : Move Byte} {x : Channel Byte}

theorem Answers.refl (h : P ch) : Answers ch P := ⟨[], ch, .nil, h⟩

theorem Answers.bind (h : Answers ch P) (hq : ∀ ch', P ch' → Answers ch' Q) : Answers ch Q := by
  obtain ⟨acts, ch', hrun, hp⟩ := h
  obtain ⟨acts', ch'', hrun', hq'⟩ := hq ch' hp
  exact ⟨acts ++ acts', ch'', hrun.trans hrun', hq'⟩

theorem Answers.move (h : (ch s).Step mv x) (hp : P (Function.update ch s x)) : Answers ch P :=
  ⟨_, _, Run.one (.move h), hp⟩

/-- What holds of the moved channel and of the other one holds of both. -/
theorem forall_update {R : Side → Channel Byte → Prop} (hx : R s x) (ho : R s.other (ch s.other))
    (t : Side) : R t (Function.update ch s x t) := by
  rcases Side.eq_or_eq_other s t with rfl | rfl
  · rwa [Function.update_self]
  · rwa [Function.update_of_ne (Side.other_ne s)]

end Answers

/-! ## The buffer pump -/

/-- The channel of what `s` sends, when the buffer pump started in `o`. -/
structure CopyChannel (o c : Conn) (b : Side → Bufferevent) (s : Side) (x : Channel Byte) :
    Prop where
  flow : Carried o c b s x.queue
  kept : x.kept = backlog o s
  ended : x.ended = (c.ends s).shutRead
  closed : x.closed = (c.ends s.other).shutWrite
  reads : x.ended = true → (b s).enRead = false
  writes : x.closed = true → (b s.other).enWrite = false ∨
    (x.ended = true ∧ (b s.other).output = [])
  untouched : (b s).input = [] ∨ readSince o c s = []

section Copy

variable {o c c₂ : Conn} {b b₂ : Side → Bufferevent} {ch : Side → Channel Byte} {s : Side}

def Copies (o c : Conn) (b : Side → Bufferevent) (ch : Side → Channel Byte) : Prop :=
  ∀ s, CopyChannel o c b s (ch s)

theorem Copies.pumped (h : Copies o c b ch) (bs : List Byte) (he : (b s).enRead = true) :
    Answers ch (Copies o (pumped c b s bs) (pumpedBev b s bs)) := by
  have hs := h s
  have hopen : (ch s).ended = false := by
    by_contra hne
    exact absurd ((hs.reads (by simpa using hne)).symm.trans he) (by decide)
  refine .move (.take bs hopen) (forall_update ?_ ?_)
  · refine ⟨?_, hs.kept, ?_, ?_, fun hc => ?_, fun hc => ?_, ?_⟩
    · exact hs.flow.next bs [] (by simp) (by simp) rfl (by simp [Channel.take, Fifo.push])
        (by simp [Channel.take, Fifo.push, hs.flow.held])
    · simpa [Channel.take] using hs.ended
    · simpa [Channel.take] using hs.closed
    · exact absurd (hopen.symm.trans hc) (by decide)
    · refine (hs.writes hc).imp (fun hw => by simpa using hw) fun hw => ?_
      exact absurd (hopen.symm.trans hw.1) (by decide)
    · exact .inl (by simp)
  · have ho := h s.other
    refine ⟨?_, ho.kept, ?_, ?_, fun hc => ?_, fun hc => ?_, ?_⟩
    · exact ho.flow.same (by simp) (by simp) (by simp) (by simp)
    · simpa using ho.ended
    · simpa using ho.closed
    · simpa using ho.reads hc
    · simpa using ho.writes hc
    · simpa [readSince] using ho.untouched

theorem Copies.flushed (h : Copies o c b ch) (n : ℕ) (he : (b s).enWrite = true) :
    Answers ch (Copies o (c.flushed s (b s) n) (flushedBev b s n)) := by
  have hs := h s.other
  have hother : CopyChannel o (c.flushed s (b s) n) (flushedBev b s n) s (ch s) := by
    have ho := h s
    refine ⟨?_, ho.kept, ?_, ?_, fun hc => ?_, fun hc => ?_, ?_⟩
    · exact ho.flow.same (by simp [Conn.flushed]) (by simp [Conn.flushed]) (by simp) (by simp)
    · simpa [Conn.flushed] using ho.ended
    · simpa [Conn.flushed] using ho.closed
    · simpa using ho.reads hc
    · simpa using ho.writes hc
    · simpa [readSince, Conn.flushed] using ho.untouched
  have hheld : (ch s.other).queue.held = (b s).output ++ (b s.other).input := by
    simpa using hs.flow.held
  by_cases hc : (ch s.other).closed = true
  · -- the receiver was told of the end, and nothing is left to be written
    have hnil : (b s).output = [] := by
      rcases hs.writes hc with hw | ⟨-, hw⟩
      · rw [Side.other_other] at hw
        exact absurd (he.symm.trans hw) (by decide)
      · rwa [Side.other_other] at hw
    refine .refl fun t => ?_
    rcases Side.eq_or_eq_other s t with rfl | rfl
    · exact hother
    refine ⟨?_, hs.kept, ?_, ?_, fun hc => ?_, fun hc => ?_, ?_⟩
    · exact hs.flow.same (by simp [Conn.flushed]) (by simp [Conn.flushed, hnil]) (by simp [hnil])
        (by simp)
    · simpa [Conn.flushed] using hs.ended
    · simpa [Conn.flushed] using hs.closed
    · simpa using hs.reads hc
    · refine (hs.writes hc).imp (fun hw => by simpa using hw) fun hw => ⟨hw.1, ?_⟩
      simp [hnil]
    · simpa [readSince, Conn.flushed] using hs.untouched
  · rw [Bool.not_eq_true] at hc
    -- a write of more than the buffer holds takes what it holds
    refine .move (.give (min n (b s).output.length) hc) (forall_update ?_ ?_)
    · refine ⟨hs.flow.next [] ((b s).output.take n) (by simp [Conn.flushed])
        (by simp [Conn.flushed]) (by simp [Channel.give, Fifo.pull]) ?_ ?_, hs.kept, ?_, ?_,
        fun hc => ?_, fun hc' => absurd (hc.symm.trans hc') (by decide), ?_⟩
      · simp [Channel.give, Fifo.pull, hheld, List.take_append]
      · simp [Channel.give, Fifo.pull, hheld, List.drop_append]
      · simpa [Channel.give, Conn.flushed] using hs.ended
      · simpa [Channel.give, Conn.flushed] using hs.closed
      · simpa using hs.reads hc
      · simpa [readSince, Conn.flushed] using hs.untouched
    · rw [Side.other_other]
      exact hother

theorem Copies.eofMarked (h : Copies o c b ch) : Answers ch fun ch' =>
    Copies o (eofMarked s c b) (eofBev b s) ch' ∧ (ch' s).ended = true := by
  have hs := h s
  refine .move .finish ⟨forall_update ?_ ?_, by rw [Function.update_self]; rfl⟩
  · refine ⟨?_, hs.kept, ?_, ?_, fun _ => ?_, fun hc => ?_, ?_⟩
    · exact hs.flow.same (by simp [Transocks.eofMarked]) (by simp [Transocks.eofMarked]) (by simp)
        (by simp)
    · simp [Transocks.eofMarked, Channel.finish]
    · simpa [Transocks.eofMarked, Channel.finish] using hs.closed
    · simp
    · refine (hs.writes hc).imp (fun hw => by simpa using hw) fun hw => ⟨rfl, ?_⟩
      simpa using hw.2
    · simpa [readSince, Transocks.eofMarked] using hs.untouched
  · have ho := h s.other
    refine ⟨?_, ho.kept, ?_, ?_, fun hc => ?_, fun hc => ?_, ?_⟩
    · exact ho.flow.same (by simp [Transocks.eofMarked]) (by simp [Transocks.eofMarked]) (by simp)
        (by simp)
    · simpa [Transocks.eofMarked] using ho.ended
    · simpa [Transocks.eofMarked] using ho.closed
    · simpa using ho.reads hc
    · simpa using ho.writes hc
    · simpa [readSince, Transocks.eofMarked] using ho.untouched

/-- The half-close of `s`, when its peer has ended its stream and nothing is left to be written. -/
theorem Copies.shutdownWrite (h : Copies o c b ch) (hr : (ch s.other).ended = true)
    (ho : (b s).output = []) : Answers ch (Copies o (shutdownWrite s c) b) := by
  have hs := h s.other
  have hheld : (ch s.other).queue.held = (b s).output ++ (b s.other).input := by
    simpa using hs.flow.held
  have hdone : (ch s.other).queue.held = [] ∨ (ch s.other).queue.taken = (ch s.other).kept := by
    rcases hs.untouched with hi | hi
    · exact .inl (by rw [hheld, ho, hi]; rfl)
    · exact .inr (by rw [hs.flow.taken, hi, List.append_nil, hs.kept])
  refine .move (.shut hr hdone) (forall_update ?_ ?_)
  · refine ⟨?_, hs.kept, ?_, ?_, hs.reads, fun _ => .inr ⟨hr, ?_⟩, ?_⟩
    · exact hs.flow.same (by simp [Transocks.shutdownWrite]) (by simp [Transocks.shutdownWrite])
        rfl rfl
    · simpa [Transocks.shutdownWrite, Channel.shut] using hs.ended
    · simp [Transocks.shutdownWrite, Channel.shut]
    · rw [Side.other_other]
      exact ho
    · simpa [readSince, Transocks.shutdownWrite] using hs.untouched
  · rw [Side.other_other]
    have hs' := h s
    refine ⟨?_, hs'.kept, ?_, ?_, hs'.reads, hs'.writes, ?_⟩
    · exact hs'.flow.same (by simp [Transocks.shutdownWrite]) (by simp [Transocks.shutdownWrite])
        rfl rfl
    · simpa [Transocks.shutdownWrite] using hs'.ended
    · simpa [Transocks.shutdownWrite] using hs'.closed
    · simpa [readSince, Transocks.shutdownWrite] using hs'.untouched

/-- The receiver `s` takes no more. -/
theorem Copies.writeEof (h : Copies o c b ch) :
    Answers ch (Copies o (pumpWriteEof s c (b s)) (writeEofBev b s)) := by
  have hs := h s.other
  have hmove : (ch s.other).Step .refuse (ch s.other).refuse := .refuse
  refine .move hmove (forall_update ?_ ?_)
  · refine ⟨?_, hs.kept, ?_, ?_, fun hc => ?_, fun _ => .inl ?_, ?_⟩
    · exact hs.flow.same (by simp [pumpWriteEof]) (by simp [pumpWriteEof]) (by simp) (by simp)
    · simpa [pumpWriteEof, Channel.refuse] using hs.ended
    · simp [pumpWriteEof, Channel.refuse]
    · simpa using hs.reads hc
    · rw [Side.other_other]
      simp
    · simpa [readSince, pumpWriteEof] using hs.untouched
  · rw [Side.other_other]
    have hs' := h s
    refine ⟨?_, hs'.kept, ?_, ?_, fun hc => ?_, fun hc => ?_, ?_⟩
    · exact hs'.flow.same (by simp [pumpWriteEof]) (by simp [pumpWriteEof]) (by simp) (by simp)
    · simpa [pumpWriteEof] using hs'.ended
    · simpa [pumpWriteEof] using hs'.closed
    · simpa using hs'.reads hc
    · simpa using hs'.writes hc
    · simpa [readSince, pumpWriteEof] using hs'.untouched

/-- **One move of the buffer pump.** -/
theorem CopyMove.answers {ev : Ev} (hm : CopyMove c b ev c₂ b₂)
    (hb : ∀ s, (c.ends s).bev = some (b s)) (hen : c.Enabled ev) (h : Copies o c b ch) :
    Answers ch (Copies o c₂ b₂) := by
  have hwrites : ∀ {s n}, ev = .wrote s n → (b s).enWrite = true := by
    rintro s n rfl
    obtain ⟨b', hb', -, he⟩ := hen
    obtain rfl := Option.some.inj ((hb s).symm.trans hb')
    exact he
  cases hm with
  | read he => exact h.pumped _ he
  | wrote hw => exact h.flushed _ (hwrites rfl)
  | @drained s n ho hr =>
    refine (h.flushed n (hwrites rfl)).bind fun ch' h' => h'.shutdownWrite ?_ (by simpa using ho)
    rw [(h' s.other).ended]
    simpa [Conn.flushed] using hr
  | eof hw ho =>
    refine h.eofMarked.bind fun ch' h' => .refl h'.1
  | @eofDrained s w e k hw ho =>
    refine h.eofMarked.bind fun ch' h' => h'.1.shutdownWrite ?_ (by simpa using ho)
    rw [Side.other_other]
    exact h'.2
  | writeEof hr hw => exact h.writeEof
  | ignored hr => exact .refl h

end Copy

/-! ## The splice pump -/

/-- The channel of direction `d`, which starts empty and which nobody refuses. -/
structure SpliceChannel (c : Conn) (d : Direction) (x : Channel Byte) : Prop where
  flow : (c.kern d).Carries x.queue
  kept : x.kept = []
  ended : x.ended = c.readFlag d
  closed : x.closed = c.writeFlag d
  whole : x.refused = false

def Splices (c : Conn) (ch : Side → Channel Byte) : Prop :=
  ∀ d : Direction, SpliceChannel c d (ch d.source)

section Splice

variable {c c' : Conn} {p : Splicepump} {d : Direction} {k : Splice} {ch : Side → Channel Byte}

theorem SpliceChannel.same {x : Channel Byte} (h : SpliceChannel c d x)
    (hk : (c'.kern d).taken = (c.kern d).taken ∧ (c'.kern d).content = (c.kern d).content ∧
      (c'.kern d).written = (c.kern d).written)
    (hr : c'.readFlag d = c.readFlag d) (hw : c'.writeFlag d = c.writeFlag d) :
    SpliceChannel c' d x := by
  obtain ⟨ht, hc, hwr⟩ := h.flow
  exact ⟨⟨hk.1.trans ht, hk.2.1.trans hc, hk.2.2.trans hwr⟩, h.kept, h.ended.trans hr.symm,
    h.closed.trans hw.symm, h.whole⟩

theorem Splices.move {mv : Move Byte} {x : Channel Byte} (h : Splices c ch)
    (hm : (ch d.source).Step mv x) (hx : SpliceChannel c' d x)
    (hk : c'.kern d.other = c.kern d.other) (hr : c'.readFlag d.other = c.readFlag d.other)
    (hw : c'.writeFlag d.other = c.writeFlag d.other) : Answers ch (Splices c') := by
  refine .move hm fun e => ?_
  rcases Direction.eq_or_eq_other d e with rfl | rfl
  · rw [Function.update_self]
    exact hx
  · have hne : d.other.source ≠ d.source := by simp
    rw [Function.update_of_ne hne]
    exact (h d.other).same (by rw [hk]; exact ⟨rfl, rfl, rfl⟩) hr hw

theorem FillMove.answers (hm : FillMove c p d k c') (h : Splices c ch)
    (hr : c.readFlag d = false) : Answers ch (Splices c') := by
  have hd := h d
  have hopen : (ch d.source).ended = false := hd.ended.trans hr
  cases hm with
  | @transfer bs hb =>
    refine h.move (.take bs hopen) ⟨?_, hd.kept, hd.ended, hd.closed, hd.whole⟩ (by simp) rfl rfl
    simpa [Channel.take] using hd.flow.spliceIn bs
  | retry he => exact .refl h
  | activate he => exact .refl fun e => (h e).same ⟨rfl, rfl, rfl⟩ rfl rfl
  | eof =>
    have hmove : (ch d.source).Step .finish (ch d.source).finish := .finish
    refine h.move hmove ⟨?_, hd.kept, ?_, ?_, hd.whole⟩ ?_ ?_ ?_
    · obtain ⟨ht, hc, hw⟩ := hd.flow
      have hkern : (writeToPipeEof c d p).kern d = { c.kern d with writeOpen := false } := by
        simp [writeToPipeEof, Conn.setReadFlag]
      rw [hkern]
      exact ⟨ht, hc, hw⟩
    · simp [writeToPipeEof, Conn.setReadFlag, Conn.readFlag, Channel.finish]
    · simpa [writeToPipeEof, Conn.setReadFlag, Conn.writeFlag, Conn.setEnd_ne, Channel.finish] using
        hd.closed
    · simp [writeToPipeEof, Conn.setReadFlag]
    · simp [writeToPipeEof, Conn.setReadFlag, Conn.readFlag, ← Direction.source_other]
    · simp [writeToPipeEof, Conn.setReadFlag, Conn.writeFlag]

/-- A move of the pipe callback that is not the end of file. -/
theorem DrainMove.answers (hm : DrainMove c p d k c') (h : Splices c ch)
    (hk : SpliceMoves c p (.spliceWrite d k)) (hw : c'.writeFlag d = false) :
    Answers ch (Splices c') := by
  have hd := h d
  cases hm with
  | @transfer bs hb =>
    have hopen : (ch d.source).closed = false := hd.closed.trans hw
    refine h.move (.give bs.length hopen) ⟨?_, hd.kept, hd.ended, hd.closed, hd.whole⟩ (by simp)
      rfl rfl
    simpa [Channel.give] using hd.flow.spliceOut hk.1
  | retry he => exact .refl h
  | eof =>
    have hflag : (readFromPipeEof c d p).writeFlag d = true := by
      simp [readFromPipeEof, Conn.setWriteFlag, Conn.writeFlag]
    exact absurd (hflag.symm.trans hw) (by decide)

theorem Splices.drainEof (h : Splices c ch) (hr : c.readFlag d = true)
    (hc : (c.kern d).content = []) : Answers ch (Splices (readFromPipeEof c d p)) := by
  have hd := h d
  have hend : (ch d.source).ended = true := hd.ended.trans hr
  have hheld : (ch d.source).queue.held = [] := hd.flow.2.1.symm.trans hc
  refine h.move (.shut hend (.inl hheld)) ⟨?_, hd.kept, ?_, ?_, hd.whole⟩ ?_ ?_ ?_
  · obtain ⟨ht, hc, hw⟩ := hd.flow
    have hkern : (readFromPipeEof c d p).kern d = { c.kern d with readOpen := false } := by
      simp [readFromPipeEof, Conn.setWriteFlag]
    rw [hkern]
    exact ⟨ht, hc, hw⟩
  · simpa [readFromPipeEof, Conn.setWriteFlag, Conn.readFlag, Conn.setEnd_ne, Channel.shut] using
      hd.ended
  · simp [readFromPipeEof, Conn.setWriteFlag, Conn.writeFlag, Channel.shut]
  · simp [readFromPipeEof, Conn.setWriteFlag]
  · simp [readFromPipeEof, Conn.setWriteFlag, Conn.readFlag]
  · simp [readFromPipeEof, Conn.setWriteFlag, Conn.writeFlag, Conn.setEnd_ne]

end Splice

end Transocks

import Transocks.SpliceFlow

/-!
# End of file in the splice pump

A return value of `0` from a splice out of a pipe is ambiguous: it means that the pipe is empty and
has no writer, but also that `0` bytes were asked for. `Pumping` is the invariant that makes the
branch sound: the write end of a pipe is closed exactly when its source has reported end of file,
and the event on the read end stays added, so that it fires only on data or on that end of file.

The first direction to finish releases the client, whatever the other one is doing
(`Pumping.step`).
-/

namespace Transocks

open Runs

/-- When the loop runs a callback of the pump: an added event on a source socket may fire at any
time; one on the read end of a pipe fires when the pipe has data or its write end is closed; an
event made active by hand fires at once. -/
def Fires (c : Conn) (p : Splicepump) : Ev → Prop
  | .spliceRead d _ => ∃ e, p.readEv d = some e ∧ e.pending
  | .spliceWrite d _ => ∃ e, p.writeEv d = some e ∧
    ((e.added ∧ ((c.kern d).content ≠ [] ∨ (c.kern d).writeOpen = false)) ∨ e.active)
  | _ => False

/-- A splice of a positive number of bytes out of a pipe returns `0` only when the pipe is empty
and has no writer. -/
def PipeEof (c : Conn) (p : Splicepump) : Ev → Prop
  | .spliceWrite d (.moved []) => (p.pipe d).dataInPipe ≠ 0 →
    (c.kern d).content = [] ∧ (c.kern d).writeOpen = false
  | _ => True

/-- A callback of the splice pump when the loop runs it. -/
def ReadyStep (c : Conn) (ev : Ev) (c' : Conn) : Prop :=
  SpliceStep c ev c' ∧ ∃ p, c.userArg = some p ∧ Fires c p ev ∧ PipeEof c p ev

/-- The splice of a callback failed for good. -/
def Ev.spliceFatal : Ev → Bool
  | .spliceRead _ q => singleSplice q == .fatalFailure
  | .spliceWrite _ q => singleSplice q == .fatalFailure
  | _ => false

/-- A pumping client in which no direction has finished. -/
structure Pumping (c : Conn) (p : Splicepump) : Prop extends Accounting c p where
  fd : ∀ s, 0 ≤ (c.ends s).fd
  pipefd : ∀ d, 0 ≤ (p.pipe d).pipeReadfd ∧ 0 ≤ (p.pipe d).pipeWritefd
  writeEv : ∀ d, p.writeEv d = some ⟨true, false⟩
  readEv : ∀ d, p.readEv d = some ⟨!c.readFlag d, false⟩
  writeOpen : ∀ d, (c.kern d).writeOpen = !c.readFlag d
  readOpen : ∀ d, (c.kern d).readOpen = true
  writeFlag : ∀ d, c.writeFlag d = false

theorem pumping_start {c c₁ : Conn} {L : List Byte} {k : StartCalls} (h₀ : AtHandover c L)
    (h : startPump .splicepump c k = (c₁, true)) : ∃ p, Pumping c₁ p := by
  obtain ⟨rb, r, w, -, -, rfl⟩ := startPump_splice_ok h₀.live h
  have hflag : ∀ d : Direction, (c.ends d.source).shutRead = false := fun d => h₀.shutRead _
  exact ⟨startedPump k r w, ⟨h₀.live, rfl, rfl, fun d => Accounted.new ..⟩, h₀.fd,
    fun d => ⟨Int.natCast_nonneg _, Int.natCast_nonneg _⟩, fun d => rfl,
    fun d => by simp [Conn.readFlag, handOver, startedPump, hflag d],
    fun d => by simp [Conn.readFlag, handOver, Kern.new, hflag d], fun d => rfl,
    fun d => h₀.shutWrite _⟩

/-! ## The events stay as they are -/

theorem Splicepump.setReadEv_self (p : Splicepump) (d : Direction) :
    p.setReadEv d (p.readEv d) = p := by
  unfold Splicepump.setReadEv
  rw [Function.update_eq_self]

theorem Splicepump.setWriteEv_self (p : Splicepump) (d : Direction) :
    p.setWriteEv d (p.writeEv d) = p := by
  unfold Splicepump.setWriteEv
  rw [Function.update_eq_self]

section Events

variable {c : Conn} {p : Splicepump} (h : Pumping c p) (d : Direction)

include h

theorem Pumping.wokenRead_eq : wokenRead p d = p := by
  have he : ((p.readEv d).map fun e => { e with active := false }) = p.readEv d := by
    rw [h.readEv d]
    rfl
  unfold wokenRead
  rw [he, Splicepump.setReadEv_self]

theorem Pumping.wokenWrite_eq : wokenWrite p d = p := by
  have he : ((p.writeEv d).map fun e => { e with active := false }) = p.writeEv d := by
    rw [h.writeEv d]
    rfl
  unfold wokenWrite
  rw [he, Splicepump.setWriteEv_self]

/-- The event on the pipe is always added, so `TRANSOCKS_EVENT_ACTIVE` never activates it. -/
theorem Pumping.activate_eq : p.setWriteEv d ((p.writeEv d).map Event.activate) = p := by
  have he : (p.writeEv d).map Event.activate = p.writeEv d := by
    rw [h.writeEv d]
    rfl
  rw [he, Splicepump.setWriteEv_self]

theorem Pumping.setPump_eq : c.setPump p = c := setPump_self h.pump

/-- A direction whose source still delivers has its termination check fail. -/
theorem Pumping.check_eq : checkNormalTermination c d = c := by
  have hfd : ∀ s, isInvalidFd (c.ends s).fd = false := fun s => isInvalidFd_eq_false (h.fd s)
  rw [checkNormalTermination_live h.live, if_neg]
  simp [normalTermination, hfd, h.writeFlag d]

end Events

/-! ## What a step can do -/

/-- The client was released by a direction that had finished, while the other had not. -/
structure Ended (c : Conn) (d : Direction) : Prop where
  released : c.released = true
  readFlag : c.readFlag d = true
  writeFlag : c.writeFlag d = true
  otherFlag : c.writeFlag d.other = false
  empty : (c.kern d).content = []
  flow : ∀ e, ∃ f, (c.kern e).Carries f

/-- The client was released by a failure before any direction finished. -/
structure Failed (c : Conn) : Prop where
  released : c.released = true
  writeFlag : ∀ d, c.writeFlag d = false
  flow : ∀ e, ∃ f, (c.kern e).Carries f

section Step

variable {c c₁ : Conn} {p : Splicepump} {d : Direction} {k : Splice}

theorem Pumping.fatal (h : Pumping c p) : Failed (onFatalFailure c) := by
  refine ⟨splicepumpFree_released h.live h.state h.pump, fun d => ?_, fun e => ?_⟩
  · unfold Conn.writeFlag onFatalFailure
    rw [splicepumpFree_end h.live h.state h.pump]
    exact h.writeFlag d
  · unfold onFatalFailure
    rw [splicepumpFree_kern h.live h.state h.pump]
    exact (h.pipes e).flow

/-- A move that only transfers bytes leaves the client pumping. -/
theorem Pumping.of_within (h : Pumping c p) {p₁ : Splicepump} (hw : Within c p d c₁ p₁)
    (hends : c₁.ends = c.ends) (hr : p₁.readEv = p.readEv) (hwr : p₁.writeEv = p.writeEv)
    (hfd : (p₁.pipe d).pipeReadfd = (p.pipe d).pipeReadfd ∧
      (p₁.pipe d).pipeWritefd = (p.pipe d).pipeWritefd)
    (hop : (c₁.kern d).readOpen = (c.kern d).readOpen ∧
      (c₁.kern d).writeOpen = (c.kern d).writeOpen) : Pumping c₁ p₁ := by
  have hrf : c₁.readFlag = c.readFlag := by
    funext e
    simp only [Conn.readFlag, hends]
  refine ⟨hw.acc, by rw [hends]; exact h.fd, fun e => ?_, by rw [hwr]; exact h.writeEv,
    by rw [hr, hrf]; exact h.readEv, fun e => ?_, fun e => ?_, fun e => ?_⟩
  · rcases Direction.eq_or_eq_other d e with rfl | rfl
    · rw [hfd.1, hfd.2]
      exact h.pipefd _
    · rw [hw.pipe]
      exact h.pipefd _
  · rcases Direction.eq_or_eq_other d e with rfl | rfl
    · rw [hop.2, hrf]
      exact h.writeOpen _
    · rw [hw.kern, hrf]
      exact h.writeOpen _
  · rcases Direction.eq_or_eq_other d e with rfl | rfl
    · rw [hop.1]
      exact h.readOpen _
    · rw [hw.kern]
      exact h.readOpen _
  · unfold Conn.writeFlag
    rw [hends]
    exact h.writeFlag e

/-- The end of file of a source closes the write end of its pipe and stops its event. -/
theorem Pumping.fillEof (h : Pumping c p)
    (hw : Within c p d (writeToPipeEof c d p) (p.setReadEv d ((p.readEv d).map Event.del))) :
    Pumping (writeToPipeEof c d p) (p.setReadEv d ((p.readEv d).map Event.del)) := by
  have hends : ∀ s, ((writeToPipeEof c d p).ends s).fd = (c.ends s).fd ∧
      ((writeToPipeEof c d p).ends s).shutWrite = (c.ends s).shutWrite := fun s => by
    rcases Side.eq_or_eq_other d.source s with rfl | rfl <;>
      simp [writeToPipeEof, Conn.setReadFlag, -Direction.source_other]
  have hflag : (writeToPipeEof c d p).readFlag d = true ∧
      (writeToPipeEof c d p).readFlag d.other = c.readFlag d.other := by
    simp [writeToPipeEof, Conn.setReadFlag, Conn.readFlag, ← Direction.source_other]
  have hk : (writeToPipeEof c d p).kern d = { c.kern d with writeOpen := false } := by
    simp [writeToPipeEof, Conn.setReadFlag]
  refine ⟨hw.acc, fun s => by rw [(hends s).1]; exact h.fd s, h.pipefd, h.writeEv, fun e => ?_,
    fun e => ?_, fun e => ?_, fun e => ?_⟩
  · rcases Direction.eq_or_eq_other d e with rfl | rfl
    · rw [hflag.1, Splicepump.setReadEv_same, h.readEv]
      rfl
    · rw [hflag.2, Splicepump.setReadEv_other]
      exact h.readEv _
  · rcases Direction.eq_or_eq_other d e with rfl | rfl
    · rw [hflag.1, hk]
      rfl
    · rw [hflag.2, hw.kern]
      exact h.writeOpen _
  · rcases Direction.eq_or_eq_other d e with rfl | rfl
    · rw [hk]
      exact h.readOpen _
    · rw [hw.kern]
      exact h.readOpen _
  · unfold Conn.writeFlag
    rw [(hends _).2]
    exact h.writeFlag e

theorem FillMove.pumping (hm : FillMove c p d k c₁) (h : Pumping c p)
    (hk : SpliceMoves c p (.spliceRead d k)) : ∃ p₁, Pumping c₁ p₁ := by
  obtain ⟨p₁, hw⟩ := hm.within h.toAccounting hk
  cases hm with
  | transfer hb =>
    obtain rfl := Option.some.inj hw.acc.pump
    exact ⟨_, h.of_within hw rfl rfl rfl (by simp) (by simp [Kern.spliceIn])⟩
  | retry he => exact ⟨p, h⟩
  | activate he =>
    rw [h.activate_eq d, h.setPump_eq]
    exact ⟨p, h⟩
  | eof =>
    obtain rfl := Option.some.inj hw.acc.pump
    exact ⟨_, h.fillEof hw⟩

/-- **A zero from the pipe is end of file.** When the pipe callback of a pumping client sees a
return value of `0`, the source has reported end of file and the pipe is empty. -/
theorem Pumping.eof_true (h : Pumping c p) (hf : Fires c p (.spliceWrite d (.moved [])))
    (he : PipeEof c p (.spliceWrite d (.moved []))) :
    c.readFlag d = true ∧ (c.kern d).content = [] := by
  obtain ⟨e, hev, hfire⟩ := hf
  obtain rfl : (⟨true, false⟩ : Event) = e := Option.some.inj ((h.writeEv d).symm.trans hev)
  have hclosed : (c.kern d).content = [] ∧ (c.kern d).writeOpen = false := by
    by_cases hz : (p.pipe d).dataInPipe = 0
    · have hnil : (c.kern d).content = [] := by
        rw [← List.length_eq_zero_iff, ← (h.pipes d).data, hz]
      rcases hfire with ⟨-, hne | hw⟩ | hact
      · exact absurd hnil hne
      · exact ⟨hnil, hw⟩
      · cases hact
    · exact he hz
  have hopen := h.writeOpen d
  rw [hclosed.2] at hopen
  exact ⟨by simpa using hopen.symm, hclosed.1⟩

/-- The end of file of a pipe ends the connection. -/
theorem Pumping.drainEof (h : Pumping c p) (hr : c.readFlag d = true)
    (hc : (c.kern d).content = []) :
    Ended (checkNormalTermination (readFromPipeEof c d p) d) d := by
  have hl : (readFromPipeEof c d p).released = false := h.live
  have hst : (readFromPipeEof c d p).clientState = .pumpingData := h.state
  have hp : (readFromPipeEof c d p).userArg = some p := h.pump
  have hread : (readFromPipeEof c d p).readFlag d = true := by
    simpa [readFromPipeEof, Conn.setWriteFlag, Conn.readFlag, Conn.setEnd_ne] using hr
  have hwrite : (readFromPipeEof c d p).writeFlag d = true := by
    simp [readFromPipeEof, Conn.setWriteFlag, Conn.writeFlag]
  have hother : (readFromPipeEof c d p).writeFlag d.other = false := by
    simpa [readFromPipeEof, Conn.setWriteFlag, Conn.writeFlag, Conn.setEnd_ne] using
      h.writeFlag d.other
  have hkern : (readFromPipeEof c d p).kern d = { c.kern d with readOpen := false } := by
    simp [readFromPipeEof, Conn.setWriteFlag]
  have hflow : ∀ e, ∃ f, ((readFromPipeEof c d p).kern e).Carries f := fun e => by
    rcases Direction.eq_or_eq_other d e with rfl | rfl
    · rw [hkern]
      exact (h.pipes _).flow
    · simpa [readFromPipeEof, Conn.setWriteFlag] using (h.pipes _).flow
  rw [checkNormalTermination_live hl, if_pos (by simp [normalTermination, hread, hwrite])]
  refine ⟨splicepumpFree_released hl hst hp, ?_, ?_, ?_, ?_, fun e => ?_⟩
  · simpa [Conn.readFlag, splicepumpFree_end hl hst hp] using hread
  · simpa [Conn.writeFlag, splicepumpFree_end hl hst hp] using hwrite
  · simpa [Conn.writeFlag, splicepumpFree_end hl hst hp] using hother
  · rw [splicepumpFree_kern hl hst hp, hkern]
    exact hc
  · rw [splicepumpFree_kern hl hst hp]
    exact hflow e

theorem Pumping.spliceWrite_eof (h : Pumping c p) (hf : Fires c p (.spliceWrite d (.moved [])))
    (he : PipeEof c p (.spliceWrite d (.moved []))) :
    Ended (c.step .splicepump (.spliceWrite d (.moved []))) d := by
  rcases step_spliceWrite (m := .splicepump) (d := d) (k := .moved []) h.live h.pump with
    ⟨-, hfd⟩ | ⟨-, hfat⟩ | ⟨c₁, hm, hst⟩
  · rw [isInvalidFd_eq_false (h.fd _), isInvalidFd_eq_false (h.pipefd d).1] at hfd
    cases hfd
  · cases hfat
  · rw [h.wokenWrite_eq, h.setPump_eq] at hm
    rw [hst]
    obtain ⟨hr, hc⟩ := h.eof_true hf he
    cases hm with
    | transfer hb => exact absurd rfl hb
    | eof => exact h.drainEof hr hc

/-- **One step of a pumping client**, case by case: a move of the source callback or of the pipe
callback leaves it pumping, a splice failed fatally, or the direction whose pipe reached its end of
file releases it. -/
theorem Pumping.step_cases (h : Pumping c p) {ev : Ev} {c' : Conn} (hs : ReadyStep c ev c') :
    (∃ d k, ev = .spliceRead d k ∧ FillMove c p d k c' ∧ ∃ p', Pumping c' p') ∨
      (∃ d k, ev = .spliceWrite d k ∧ DrainMove c p d k c' ∧ ∃ p', Pumping c' p') ∨
      (ev.spliceFatal = true ∧ c' = onFatalFailure c) ∨
      ∃ d, ev = .spliceWrite d (.moved []) ∧ Ended c' d := by
  obtain ⟨⟨-, ⟨p₁, hp₁, hk⟩, rfl⟩, p₂, hp₂, hf, he⟩ := hs
  obtain rfl : p = p₁ := Option.some.inj (h.pump.symm.trans hp₁)
  obtain rfl : p = p₂ := Option.some.inj (h.pump.symm.trans hp₂)
  rcases hk.cases with ⟨d, k, rfl⟩ | ⟨d, k, rfl⟩
  · rcases step_spliceRead (m := .splicepump) (d := d) (k := k) h.live h.pump with
      ⟨-, hfd⟩ | ⟨hst, hfat⟩ | ⟨c₁, hm, hst⟩
    · rw [isInvalidFd_eq_false (h.fd _), isInvalidFd_eq_false (h.pipefd d).2] at hfd
      cases hfd
    · rw [hst, h.wokenRead_eq, h.setPump_eq]
      exact .inr (.inr (.inl ⟨beq_iff_eq.mpr hfat, rfl⟩))
    · rw [h.wokenRead_eq, h.setPump_eq] at hm
      obtain ⟨p', hp'⟩ := hm.pumping h hk
      rw [hst, hp'.check_eq]
      exact .inl ⟨d, k, rfl, hm, p', hp'⟩
  · rcases step_spliceWrite (m := .splicepump) (d := d) (k := k) h.live h.pump with
      ⟨-, hfd⟩ | ⟨hst, hfat⟩ | ⟨c₁, hm, hst⟩
    · rw [isInvalidFd_eq_false (h.fd _), isInvalidFd_eq_false (h.pipefd d).1] at hfd
      cases hfd
    · rw [hst, h.wokenWrite_eq, h.setPump_eq]
      exact .inr (.inr (.inl ⟨beq_iff_eq.mpr hfat, rfl⟩))
    · rw [h.wokenWrite_eq, h.setPump_eq] at hm
      rw [hst]
      obtain ⟨p', hw⟩ := hm.within h.toAccounting hk
      cases hm with
      | transfer hb =>
        obtain rfl := Option.some.inj hw.acc.pump
        have hp' := h.of_within hw rfl rfl rfl (by simp) (by simp [Kern.spliceOut])
        rw [hp'.check_eq]
        exact .inr (.inl ⟨d, _, rfl, .transfer hb, _, hp'⟩)
      | retry hr =>
        rw [h.check_eq]
        exact .inr (.inl ⟨d, _, rfl, .retry hr, p, h⟩)
      | eof =>
        rw [← hst]
        exact .inr (.inr (.inr ⟨d, rfl, h.spliceWrite_eof hf he⟩))

theorem Pumping.step (h : Pumping c p) {ev : Ev} {c' : Conn} (hs : ReadyStep c ev c') :
    (∃ p', Pumping c' p') ∨
      (Failed c' ∧ ev.spliceFatal = true) ∨
      ∃ d, ev = .spliceWrite d (.moved []) ∧ Ended c' d := by
  rcases h.step_cases hs with ⟨d, k, -, -, hp'⟩ | ⟨d, k, -, -, hp'⟩ | ⟨hfat, rfl⟩ | hend
  · exact .inl hp'
  · exact .inl hp'
  · exact .inr (.inl ⟨h.fatal, hfat⟩)
  · exact .inr (.inr hend)

end Step

/-! ## Runs -/

section Run

variable {c₀ c₁ c : Conn} {L : List Byte} {k : StartCalls} {es : List Ev}

/-- **Every run.** A client that started to pump is still pumping, failed, or was ended by one
direction. -/
theorem ready_run (h₀ : AtHandover c₀ L) (hstart : startPump .splicepump c₀ k = (c₁, true))
    (hrun : Run ReadyStep c₁ es c) : (∃ p, Pumping c p) ∨ Failed c ∨ ∃ d, Ended c d := by
  refine hrun.invariant (I := fun c => (∃ p, Pumping c p) ∨ Failed c ∨ ∃ d, Ended c d)
    (.inl (pumping_start h₀ hstart)) fun u ev v hu hs => ?_
  rcases hu with ⟨p, hp⟩ | hfail | ⟨d, hend⟩
  · rcases hp.step hs with hp' | ⟨hf, -⟩ | ⟨d, -, hd⟩
    · exact .inl hp'
    · exact .inr (.inl hf)
    · exact .inr (.inr ⟨d, hd⟩)
  · exact absurd (hfail.released.symm.trans hs.1.1) (by decide)
  · exact absurd (hend.released.symm.trans hs.1.1) (by decide)

theorem ready_run_live (h₀ : AtHandover c₀ L) (hstart : startPump .splicepump c₀ k = (c₁, true))
    (hrun : Run ReadyStep c₁ es c) (hl : c.released = false) : ∃ p, Pumping c p := by
  rcases ready_run h₀ hstart hrun with hp | hf | ⟨d, hd⟩
  · exact hp
  · exact absurd (hf.released.symm.trans hl) (by decide)
  · exact absurd (hd.released.symm.trans hl) (by decide)

/-- `transocks_read_from_pipe` gets to its `splice` call and takes the branch `read_eof`. -/
def TakesReadEof (c : Conn) (d : Direction) (q : Splice) : Prop :=
  ∃ p, c.userArg = some p ∧ isInvalidFd (p.pipe d).pipeReadfd = false ∧
    isInvalidFd (c.ends d.target).fd = false ∧ singleSplice q = .readEof

theorem singleSplice_eq_readEof {q : Splice} (h : singleSplice q = .readEof) : q = .moved [] := by
  cases q with
  | moved bs =>
    by_cases hb : bs = []
    · rw [hb]
    · rw [singleSplice_moved hb] at h
      cases h
  | failed e => by_cases he : isRetriable e = true <;> simp [singleSplice, he] at h

/-- **No false end of file.** Whenever `transocks_read_from_pipe` takes its `read_eof` branch and so
shuts the target's write side, the source has reported end of file, the pipe is empty and every
byte read from the source has been written to the target. -/
theorem no_false_eof {d : Direction} {q : Splice} {c' : Conn} (h₀ : AtHandover c₀ L)
    (hstart : startPump .splicepump c₀ k = (c₁, true)) (hrun : Run ReadyStep c₁ es c)
    (hs : ReadyStep c (.spliceWrite d q) c') (hb : TakesReadEof c d q) :
    c.readFlag d = true ∧ (c.kern d).content = [] ∧ (c.kern d).written = (c.kern d).taken ∧
      c'.writeFlag d = true := by
  obtain ⟨p, hp⟩ := ready_run_live h₀ hstart hrun hs.1.1
  obtain ⟨-, -, -, -, hq⟩ := hb
  obtain rfl := singleSplice_eq_readEof hq
  obtain ⟨p', hp', hf, he⟩ := hs.2
  obtain rfl : p = p' := Option.some.inj (hp.pump.symm.trans hp')
  obtain ⟨hread, hempty⟩ := hp.eof_true hf he
  obtain ⟨f, ht, hc, hw⟩ := (hp.pipes d).flow
  refine ⟨hread, hempty, ?_, ?_⟩
  · rw [ht, hw]
    exact f.delivered_eq_taken (hc.symm.trans hempty)
  · rw [hs.1.2.2]
    exact (hp.spliceWrite_eof hf he).writeFlag

/-- The source of `d` reports end of file before it sent anything, and the pipe callback runs. -/
def eofRun (d : Direction) : List Ev := [.spliceRead d (.moved []), .spliceWrite d (.moved [])]

def eofConn (L : List Byte) (d : Direction) : Conn :=
  ((startedConn L).step .splicepump (.spliceRead d (.moved []))).step .splicepump
    (.spliceWrite d (.moved []))

theorem eofRun_first (L : List Byte) (d : Direction) :
    ReadyStep (startedConn L) (.spliceRead d (.moved []))
      ((startedConn L).step .splicepump (.spliceRead d (.moved []))) := by
  cases d <;>
    exact ⟨⟨rfl, ⟨_, rfl, fun h => absurd rfl h⟩, rfl⟩, _, rfl, ⟨⟨true, false⟩, rfl, rfl⟩, trivial⟩

theorem eofRun_second (L : List Byte) (d : Direction) :
    ReadyStep ((startedConn L).step .splicepump (.spliceRead d (.moved [])))
      (.spliceWrite d (.moved [])) (eofConn L d) := by
  cases d <;>
    exact ⟨⟨rfl, ⟨_, rfl, List.nil_prefix, Nat.zero_le _⟩, rfl⟩, _, rfl,
      ⟨⟨true, false⟩, rfl, .inl ⟨rfl, .inr rfl⟩⟩, fun _ => ⟨rfl, rfl⟩⟩

theorem run_eofRun (L : List Byte) (d : Direction) :
    Run ReadyStep (startedConn L) (eofRun d) (eofConn L d) :=
  (Run.one (eofRun_first L d)).snoc (eofRun_second L d)

/-- The relay sends a byte and closes, and the client takes the byte. -/
def byteRun : List Ev :=
  [.spliceRead .inbound (.moved [0x2a]), .spliceRead .inbound (.moved []),
    .spliceWrite .inbound (.moved [0x2a])]

def byteConn (n : ℕ) : Conn := (byteRun.take n).foldl (Conn.step .splicepump) (startedConn [])

theorem run_byteSent : Run ReadyStep (startedConn []) (byteRun.take 2) (byteConn 2) := by
  have hsent : ReadyStep (byteConn 0) (.spliceRead .inbound (.moved [0x2a])) (byteConn 1) :=
    ⟨⟨rfl, ⟨_, rfl, fun _ => ⟨by decide, by decide⟩⟩, rfl⟩, _, rfl, ⟨⟨true, false⟩, rfl, rfl⟩,
      trivial⟩
  exact (Run.one hsent).snoc ⟨⟨rfl, ⟨_, rfl, fun h => absurd rfl h⟩, rfl⟩, _, rfl,
    ⟨⟨true, false⟩, rfl, rfl⟩, trivial⟩

theorem byteRun_taken :
    ReadyStep (byteConn 2) (.spliceWrite .inbound (.moved [0x2a])) (byteConn 3) :=
  ⟨⟨rfl, ⟨_, rfl, List.prefix_rfl, by decide⟩, rfl⟩, _, rfl,
    ⟨⟨true, false⟩, rfl, .inl ⟨rfl, .inl (by decide)⟩⟩, trivial⟩

theorem run_byteRun : Run ReadyStep (startedConn []) byteRun (byteConn 3) :=
  run_byteSent.snoc byteRun_taken

theorem byteRun_last : ReadyStep (byteConn 3) (.spliceWrite .inbound (.moved []))
    ((byteConn 3).step .splicepump (.spliceWrite .inbound (.moved []))) :=
  ⟨⟨rfl, ⟨_, rfl, List.nil_prefix, Nat.zero_le _⟩, rfl⟩, _, rfl,
    ⟨⟨true, false⟩, rfl, .inl ⟨rfl, .inr rfl⟩⟩, fun _ => ⟨rfl, rfl⟩⟩

theorem no_false_eof_byteRun :
    (byteConn 3).readFlag .inbound = true ∧ ((byteConn 3).kern .inbound).taken = [0x2a] ∧
      ((byteConn 3).kern .inbound).written = ((byteConn 3).kern .inbound).taken ∧
      ((byteConn 3).step .splicepump (.spliceWrite .inbound (.moved []))).writeFlag .inbound =
        true := by
  have h := no_false_eof (atHandover_handoverConn []) (startPump_handoverConn []) run_byteRun
    byteRun_last ⟨_, rfl, rfl, rfl, rfl⟩
  exact ⟨h.1, rfl, h.2.2.1, h.2.2.2⟩

/-! ## The bytes the handshake leaves behind -/

/-- **Nothing is lost at the hand-over.** In every run of the pump that starts with `L` in the
relay's input buffer, what was written to the client is a prefix of `L` followed by what was taken
from the relay, and the client's write side is shut only when all of that was written. -/
def HandoverSafe (L : List Byte) : Prop :=
  ∀ c₀ k c₁ es c, AtHandover c₀ L → startPump .splicepump c₀ k = (c₁, true) →
    Run ReadyStep c₁ es c →
    (c.kern .inbound).written <+: L ++ (c.kern .inbound).taken ∧
      (c.writeFlag .inbound = true → (c.kern .inbound).written = L ++ (c.kern .inbound).taken)

theorem Kern.Carries.written_prefix {q : Kern} {f : Fifo Byte} (h : q.Carries f) :
    q.written <+: q.taken := by
  rw [h.1, h.2.2]
  exact f.delivered_prefix

/-- In every state of a run, what was written to the client is a prefix of what the pump took from
the relay, and all of it once the client's write side is shut. -/
theorem inbound_delivery (h₀ : AtHandover c₀ L)
    (hstart : startPump .splicepump c₀ k = (c₁, true)) (hrun : Run ReadyStep c₁ es c) :
    (c.kern .inbound).written <+: (c.kern .inbound).taken ∧
      (c.writeFlag .inbound = true → (c.kern .inbound).written = (c.kern .inbound).taken) := by
  rcases ready_run h₀ hstart hrun with ⟨p, hp⟩ | hf | ⟨d, hd⟩
  · obtain ⟨f, hf⟩ := (hp.pipes .inbound).flow
    exact ⟨hf.written_prefix, fun h => absurd ((hp.writeFlag _).symm.trans h) (by decide)⟩
  · obtain ⟨f, hfl⟩ := hf.flow .inbound
    exact ⟨hfl.written_prefix, fun h => absurd ((hf.writeFlag _).symm.trans h) (by decide)⟩
  · obtain ⟨f, hfl⟩ := hd.flow .inbound
    refine ⟨hfl.written_prefix, fun h => ?_⟩
    cases d with
    | inbound =>
      rw [hfl.1, hfl.2.2]
      exact f.delivered_eq_taken (hfl.2.1.symm.trans hd.empty)
    | outbound => exact absurd (hd.otherFlag.symm.trans h) (by decide)

/-- **The hand-over is safe exactly when nothing was left.** The pump never looks at the
bufferevent's input buffer, so any byte the relay sent along with its reply is lost. -/
theorem handoverSafe_iff (L : List Byte) : HandoverSafe L ↔ L = [] := by
  constructor
  · intro h
    have hlost := (h _ _ _ _ _ (atHandover_handoverConn L) (startPump_handoverConn L)
      (run_eofRun L .inbound)).2 rfl
    have hwritten : ((eofConn L .inbound).kern .inbound).written = [] := rfl
    have htaken : ((eofConn L .inbound).kern .inbound).taken = [] := rfl
    rw [hwritten, htaken, List.append_nil] at hlost
    exact hlost.symm
  · rintro rfl c₀ k c₁ es c h₀ hstart hrun
    rw [List.nil_append]
    exact inbound_delivery h₀ hstart hrun

/-- One byte of application data behind the reply, then the relay closes: the client's write side is
shut and nothing was written to it. -/
theorem handover_loses_byte :
    AtHandover (handoverConn [0x48]) [0x48] ∧
      startPump .splicepump (handoverConn [0x48]) StartCalls.ok = (startedConn [0x48], true) ∧
      Run ReadyStep (startedConn [0x48]) (eofRun .inbound) (eofConn [0x48] .inbound) ∧
      (eofConn [0x48] .inbound).writeFlag .inbound = true ∧
      ((eofConn [0x48] .inbound).kern .inbound).written ≠
        [0x48] ++ ((eofConn [0x48] .inbound).kern .inbound).taken :=
  ⟨atHandover_handoverConn _, startPump_handoverConn _, run_eofRun _ _, rfl, by
    show ([] : List Byte) ≠ [0x48] ++ []
    decide⟩

/-! ## Normal termination -/

/-- A callback in which no splice fails fatally. -/
def NormalStep : Conn → Ev → Conn → Prop := Meeting ReadyStep fun _ ev => ev.spliceFatal = false

/-- Both directions are complete: all four flags are set, both pipes are empty, and every byte
`sent d` that the source of `d` sent before its end of file was written to its target. -/
def BothComplete (sent : Direction → List Byte) (c : Conn) : Prop :=
  (∀ s, (c.ends s).shutRead = true ∧ (c.ends s).shutWrite = true) ∧
    (∀ d, (c.kern d).content = []) ∧ ∀ d, (c.kern d).written = sent d

/-- **A normal end is one-sided.** Whenever the termination check releases a client, one direction
is complete and the write side of the other one is not even shut, so the connection as a whole is
not complete. -/
theorem normal_end_incomplete (sent : Direction → List Byte) (h₀ : AtHandover c₀ L)
    (hstart : startPump .splicepump c₀ k = (c₁, true)) (hrun : Run NormalStep c₁ es c)
    (hrel : c.released = true) : ¬ BothComplete sent c ∧ ∃ d, Ended c d := by
  have hinv : (∃ p, Pumping c p) ∨ ∃ d, Ended c d := by
    refine hrun.invariant (I := fun c => (∃ p, Pumping c p) ∨ ∃ d, Ended c d)
      (.inl (pumping_start h₀ hstart)) fun u ev v hu hs => ?_
    rcases hu with ⟨p, hp⟩ | ⟨d, hend⟩
    · rcases hp.step hs.2 with hp' | ⟨-, hfat⟩ | ⟨d, -, hd⟩
      · exact .inl hp'
      · exact absurd (hs.1.symm.trans hfat) (by decide)
      · exact .inr ⟨d, hd⟩
    · exact absurd (hend.released.symm.trans hs.2.1.1) (by decide)
  rcases hinv with ⟨p, hp⟩ | ⟨d, hd⟩
  · exact absurd (hp.live.symm.trans hrel) (by decide)
  · refine ⟨fun hc => ?_, d, hd⟩
    have hflag := (hc.1 d.other.target).2
    exact absurd (hd.otherFlag.symm.trans hflag) (by decide)

end Run

theorem normal_end_incomplete_byteRun :
    ∃ c, Run NormalStep (startedConn []) (byteRun ++ [.spliceWrite .inbound (.moved [])]) c ∧
      c.released = true ∧ (c.kern .inbound).written = [0x2a] ∧
      ¬ BothComplete (fun d => (c.kern d).taken) c := by
  have hrun : Run NormalStep (startedConn []) (byteRun ++ [.spliceWrite .inbound (.moved [])]) _ :=
    (run_byteRun.snoc byteRun_last).meeting fun ev hev _ => by
      revert ev
      decide
  exact ⟨_, hrun, rfl, rfl, (normal_end_incomplete _ (atHandover_handoverConn [])
    (startPump_handoverConn []) hrun rfl).1⟩

/-- The relay sends one byte; before the client takes it, the client itself reports end of file, and
the empty outbound pipe reaches its own. -/
def crossingEofs : List Ev :=
  [.spliceRead .inbound (.moved [0x2a]), .spliceRead .outbound (.moved []),
    .spliceWrite .outbound (.moved [])]

def crossedConn : Conn := crossingEofs.foldl (Conn.step .splicepump) (startedConn [])

theorem run_crossingEofs : Run NormalStep (startedConn []) crossingEofs crossedConn := by
  have h₁ : NormalStep (startedConn []) (.spliceRead .inbound (.moved [0x2a]))
      ((startedConn []).step .splicepump (.spliceRead .inbound (.moved [0x2a]))) :=
    ⟨rfl, ⟨rfl, ⟨_, rfl, fun _ => ⟨by decide, by decide⟩⟩, rfl⟩, _, rfl, ⟨⟨true, false⟩, rfl, rfl⟩,
      trivial⟩
  have h₂ : NormalStep ((startedConn []).step .splicepump (.spliceRead .inbound (.moved [0x2a])))
      (.spliceRead .outbound (.moved []))
      (([.spliceRead .inbound (.moved [0x2a]), .spliceRead .outbound (.moved [])] : List Ev).foldl
        (Conn.step .splicepump) (startedConn [])) :=
    ⟨rfl, ⟨rfl, ⟨_, rfl, fun h => absurd rfl h⟩, rfl⟩, _, rfl, ⟨⟨true, false⟩, rfl, rfl⟩, trivial⟩
  exact ((Run.one h₁).snoc h₂).snoc ⟨rfl, ⟨rfl, ⟨_, rfl, List.nil_prefix, Nat.zero_le _⟩, rfl⟩, _,
    rfl, ⟨⟨true, false⟩, rfl, .inl ⟨rfl, .inr rfl⟩⟩, fun _ => ⟨rfl, rfl⟩⟩

/-- The client is released normally with the relay's byte still in the inbound pipe and neither flag
of that direction set. -/
theorem normal_end_drops_byte :
    AtHandover (handoverConn []) [] ∧
      startPump .splicepump (handoverConn []) StartCalls.ok = (startedConn [], true) ∧
      Run NormalStep (startedConn []) crossingEofs crossedConn ∧
      crossedConn.released = true ∧
      (crossedConn.readFlag .inbound = false ∧ crossedConn.writeFlag .inbound = false ∧
        (crossedConn.kern .inbound).content = [0x2a] ∧
        (crossedConn.kern .inbound).taken = [0x2a] ∧ (crossedConn.kern .inbound).written = []) ∧
      ¬ BothComplete (fun d => (crossedConn.kern d).taken) crossedConn := by
  refine ⟨atHandover_handoverConn _, startPump_handoverConn _, run_crossingEofs, rfl,
    ⟨rfl, rfl, rfl, rfl, rfl⟩, fun h => ?_⟩
  have hc : (crossedConn.kern .inbound).content = [] := h.2.1 .inbound
  have hc' : (crossedConn.kern .inbound).content = [0x2a] := rfl
  rw [hc'] at hc
  cases hc

end Transocks

import Transocks.Handover
import Transocks.Lib.Run

/-!
# Byte accounting in the splice pump

Each kernel pipe, with everything that was spliced in and out, is a `Fifo`: a splice from the
source pushes, a splice to the target pulls. `Accounted` ties the pipe record of the source to it:
`data_in_pipe` is the length of the pipe's content and stays within `capacity`, so neither counter
update wraps. `splicepump_accounting` is the invariant over all runs.
-/

namespace Transocks

open Runs

/-! ## Pipes as flows -/

/-- The pipe and its history are the flow `f`. -/
def Kern.Carries (k : Kern) (f : Fifo Byte) : Prop :=
  k.taken = f.taken ∧ k.content = f.held ∧ k.written = f.delivered

theorem Kern.Carries.spliceIn {k : Kern} {f : Fifo Byte} (h : k.Carries f) (bs : List Byte) :
    (k.spliceIn (.moved bs)).Carries (f.push bs) := by
  obtain ⟨ht, hc, hw⟩ := h
  exact ⟨by simp [Kern.spliceIn, Fifo.push, ht], by simp [Kern.spliceIn, Fifo.push, hc], hw⟩

theorem Kern.Carries.spliceOut {k : Kern} {f : Fifo Byte} (h : k.Carries f) {bs : List Byte}
    (hb : bs <+: k.content) : (k.spliceOut (.moved bs)).Carries (f.pull bs.length) := by
  obtain ⟨ht, hc, hw⟩ := h
  refine ⟨ht, by simp [Kern.spliceOut, Fifo.pull, hc], ?_⟩
  rw [hc] at hb
  simp only [Kern.spliceOut, Fifo.pull, hw, ← List.prefix_iff_eq_take.mp hb]

/-- What ties a pipe record to the kernel pipe it stands for. -/
structure Accounted (k : Kern) (q : Splicepipe) : Prop where
  data : q.dataInPipe = k.content.length
  room : k.content.length ≤ q.capacity
  cap : q.capacity < sizeModulus
  flow : ∃ f, k.Carries f

namespace Accounted

variable {k : Kern} {q : Splicepipe} {bs : List Byte}

theorem new (r w : Fd) (n : ℤ) : Accounted Kern.new ⟨r, w, 0, toSize n⟩ :=
  ⟨rfl, Nat.zero_le _, toSize_lt n, Fifo.start [], rfl, rfl, rfl⟩

/-- A splice from the source that fits into the pipe. -/
theorem fill (h : Accounted k q) (hroom : k.content.length + bs.length ≤ q.capacity) :
    Accounted (k.spliceIn (.moved bs)) { q with dataInPipe := sizeAdd q.dataInPipe bs.length } := by
  obtain ⟨f, hf⟩ := h.flow
  have hcap := h.cap
  have hlen : (k.spliceIn (.moved bs)).content.length = k.content.length + bs.length := by
    simp [Kern.spliceIn]
  refine ⟨?_, by rw [hlen]; exact hroom, hcap, _, hf.spliceIn bs⟩
  rw [hlen]
  show sizeAdd q.dataInPipe bs.length = _
  rw [h.data, sizeAdd_eq (by omega)]

/-- A splice to the target never takes more than the counter says, so the subtraction is exact. -/
theorem sizeSub_exact (h : Accounted k q) (hb : bs <+: k.content) :
    bs.length ≤ q.dataInPipe ∧ sizeSub q.dataInPipe bs.length = q.dataInPipe - bs.length := by
  have hle : bs.length ≤ q.dataInPipe := by rw [h.data]; exact hb.length_le
  have hroom := h.room
  have hcap := h.cap
  have hdata := h.data
  exact ⟨hle, sizeSub_eq hle (by omega)⟩

theorem drain (h : Accounted k q) (hb : bs <+: k.content) :
    Accounted (k.spliceOut (.moved bs))
      { q with dataInPipe := sizeSub q.dataInPipe bs.length } := by
  obtain ⟨f, hf⟩ := h.flow
  have hlen : (k.spliceOut (.moved bs)).content.length = k.content.length - bs.length := by
    simp [Kern.spliceOut]
  have hroom := h.room
  refine ⟨?_, ?_, h.cap, _, hf.spliceOut hb⟩
  · rw [hlen]
    show sizeSub q.dataInPipe bs.length = _
    rw [(h.sizeSub_exact hb).2, h.data]
  · rw [hlen]
    show k.content.length - bs.length ≤ q.capacity
    omega

end Accounted

/-! ## Runs of the pump -/

/-- What `splice` may do in a callback: it moves the next bytes in order, no more than were asked
for, than the source has or than the pipe has room for; or it moves nothing and reports end of
file or an error; and it returns `0` when asked for `0` bytes. -/
def SpliceMoves (c : Conn) (p : Splicepump) : Ev → Prop
  | .spliceRead d (.moved bs) =>
    bs ≠ [] → bs.length ≤ (p.pipe d).capacity ∧
      (c.kern d).content.length + bs.length ≤ (p.pipe d).capacity
  | .spliceRead d (.failed _) => (p.pipe d).capacity ≠ 0
  | .spliceWrite d (.moved bs) => bs <+: (c.kern d).content ∧ bs.length ≤ (p.pipe d).dataInPipe
  | .spliceWrite d (.failed _) => (p.pipe d).dataInPipe ≠ 0
  | _ => False

/-- A callback of the splice pump on a live client, in any order and with any splice result that
`SpliceMoves` allows. -/
def SpliceStep (c : Conn) (ev : Ev) (c' : Conn) : Prop :=
  c.released = false ∧ (∃ p, c.userArg = some p ∧ SpliceMoves c p ev) ∧ c' = c.step .splicepump ev

def Ev.direction? : Ev → Option Direction
  | .spliceRead d _ => some d
  | .spliceWrite d _ => some d
  | _ => none

def pipeOf (c : Conn) (d : Direction) : Option Splicepipe := c.userArg.map fun p => p.pipe d

/-- A live client whose two pipes are accounted for. -/
structure Accounting (c : Conn) (p : Splicepump) : Prop where
  live : c.released = false
  state : c.clientState = .pumpingData
  pump : c.userArg = some p
  pipes : ∀ d, Accounted (c.kern d) (p.pipe d)

section Moves

variable {c c₁ : Conn} {p : Splicepump} {d : Direction} {k : Splice}

/-- What both kinds of move have in common: they stay within direction `d` and keep the account. -/
structure Within (c : Conn) (p : Splicepump) (d : Direction) (c₁ : Conn) (p₁ : Splicepump) :
    Prop where
  acc : Accounting c₁ p₁
  kern : c₁.kern d.other = c.kern d.other
  pipe : p₁.pipe d.other = p.pipe d.other

theorem Accounting.of_within (h : Accounting c p) {p₁ : Splicepump}
    (hl : c₁.released = c.released) (hs : c₁.clientState = c.clientState)
    (hp : c₁.userArg = some p₁) (hk : c₁.kern d.other = c.kern d.other)
    (hq : p₁.pipe d.other = p.pipe d.other) (hd : Accounted (c₁.kern d) (p₁.pipe d)) :
    Within c p d c₁ p₁ := by
  refine ⟨⟨hl.trans h.live, hs.trans h.state, hp, fun e => ?_⟩, hk, hq⟩
  rcases Direction.eq_or_eq_other d e with rfl | rfl
  · exact hd
  · rw [hk, hq]
    exact h.pipes _

theorem FillMove.within (hm : FillMove c p d k c₁) (h : Accounting c p)
    (hk : SpliceMoves c p (.spliceRead d k)) : ∃ p₁, Within c p d c₁ p₁ := by
  have hd := h.pipes d
  cases hm with
  | transfer hb => exact ⟨_, h.of_within rfl rfl rfl (by simp) (by simp)
      (by simpa using hd.fill (hk hb).2)⟩
  | retry he => exact ⟨p, h.of_within rfl rfl h.pump rfl rfl hd⟩
  | activate he => exact ⟨_, h.of_within rfl rfl rfl rfl rfl hd⟩
  | eof =>
    refine ⟨p.setReadEv d ((p.readEv d).map Event.del), h.of_within rfl rfl rfl
      (by simp [writeToPipeEof, Conn.setReadFlag]) rfl ?_⟩
    have hkern : (writeToPipeEof c d p).kern d = { c.kern d with writeOpen := false } := by
      simp [writeToPipeEof, Conn.setReadFlag]
    rw [hkern]
    exact ⟨hd.data, hd.room, hd.cap, hd.flow⟩

theorem DrainMove.within (hm : DrainMove c p d k c₁) (h : Accounting c p)
    (hk : SpliceMoves c p (.spliceWrite d k)) : ∃ p₁, Within c p d c₁ p₁ := by
  have hd := h.pipes d
  cases hm with
  | transfer hb => exact ⟨_, h.of_within rfl rfl rfl (by simp) (by simp)
      (by simpa using hd.drain hk.1)⟩
  | retry he => exact ⟨p, h.of_within rfl rfl h.pump rfl rfl hd⟩
  | eof =>
    refine ⟨p, h.of_within rfl rfl h.pump (by simp [readFromPipeEof, Conn.setWriteFlag]) rfl ?_⟩
    have hkern : (readFromPipeEof c d p).kern d = { c.kern d with readOpen := false } := by
      simp [readFromPipeEof, Conn.setWriteFlag]
    rw [hkern]
    exact ⟨hd.data, hd.room, hd.cap, hd.flow⟩

/-- A released client: the record is gone, the history of the two pipes is kept. -/
def Torn (c : Conn) : Prop := c.released = true ∧ ∀ d, ∃ f, (c.kern d).Carries f

theorem Accounting.free (h : Accounting c p) : Torn (splicepumpFree c) := by
  refine ⟨splicepumpFree_released h.live h.state h.pump, fun d => ?_⟩
  rw [splicepumpFree_kern h.live h.state h.pump]
  exact (h.pipes d).flow

theorem Accounting.check (h : Accounting c p) (e : Direction) :
    checkNormalTermination c e = c ∨ Torn (checkNormalTermination c e) := by
  rw [checkNormalTermination_live h.live]
  split
  · exact .inr h.free
  · exact .inl rfl

theorem Accounting.setPump (h : Accounting c p) (p₁ : Splicepump) (hq : p₁.pipe = p.pipe) :
    Accounting (c.setPump p₁) p₁ :=
  ⟨h.live, h.state, rfl, fun d => by rw [hq]; exact h.pipes d⟩

end Moves

theorem SpliceMoves.cases {c : Conn} {p : Splicepump} {ev : Ev} (h : SpliceMoves c p ev) :
    (∃ d k, ev = .spliceRead d k) ∨ ∃ d k, ev = .spliceWrite d k := by
  cases ev with
  | spliceRead d k => exact .inl ⟨d, k, rfl⟩
  | spliceWrite d k => exact .inr ⟨d, k, rfl⟩
  | _ => exact absurd h id

theorem Accounting.check_within {c c₁ : Conn} {p p₁ : Splicepump} {d : Direction}
    (h : Within c p d c₁ p₁) :
    Torn (checkNormalTermination c₁ d) ∨ Within c p d (checkNormalTermination c₁ d) p₁ := by
  rcases h.acc.check d with hc | hc
  · rw [hc]
    exact .inr h
  · exact .inl hc

theorem Accounting.spliceRead {c : Conn} {p : Splicepump} {d : Direction} {k : Splice}
    (h : Accounting c p) (hk : SpliceMoves c p (.spliceRead d k)) :
    Torn (c.step .splicepump (.spliceRead d k)) ∨
      ∃ p', Within c p d (c.step .splicepump (.spliceRead d k)) p' := by
  have hw := h.setPump (wokenRead p d) rfl
  rcases step_spliceRead (m := .splicepump) (d := d) (k := k) h.live h.pump with
    ⟨he, -⟩ | ⟨he, -⟩ | ⟨c₁, hm, he⟩
  · rw [he]
    exact .inl hw.free
  · rw [he]
    exact .inl hw.free
  · obtain ⟨p₁, hin⟩ := hm.within hw (by cases k <;> exact hk)
    rw [he]
    exact (Accounting.check_within hin).imp_right fun h => ⟨p₁, h.acc, h.kern, h.pipe⟩

theorem Accounting.spliceWrite {c : Conn} {p : Splicepump} {d : Direction} {k : Splice}
    (h : Accounting c p) (hk : SpliceMoves c p (.spliceWrite d k)) :
    Torn (c.step .splicepump (.spliceWrite d k)) ∨
      ∃ p', Within c p d (c.step .splicepump (.spliceWrite d k)) p' := by
  have hw := h.setPump (wokenWrite p d) rfl
  rcases step_spliceWrite (m := .splicepump) (d := d) (k := k) h.live h.pump with
    ⟨he, -⟩ | ⟨he, -⟩ | ⟨c₁, hm, he⟩
  · rw [he]
    exact .inl hw.free
  · rw [he]
    exact .inl hw.free
  · obtain ⟨p₁, hin⟩ := hm.within hw (by cases k <;> exact hk)
    rw [he]
    exact (Accounting.check_within hin).imp_right fun h => ⟨p₁, h.acc, h.kern, h.pipe⟩

/-- **One step.** A callback releases the client, or keeps the account and the other direction. -/
theorem Accounting.step {c c' : Conn} {p : Splicepump} {ev : Ev} (h : Accounting c p)
    (hs : SpliceStep c ev c') :
    Torn c' ∨ ∃ d p', ev.direction? = some d ∧ Within c p d c' p' := by
  obtain ⟨-, ⟨p', hp', hk⟩, rfl⟩ := hs
  obtain rfl : p = p' := Option.some.inj (h.pump.symm.trans hp')
  rcases hk.cases with ⟨d, k, rfl⟩ | ⟨d, k, rfl⟩
  · exact (h.spliceRead hk).imp_right fun ⟨p', hw⟩ => ⟨d, p', rfl, hw⟩
  · exact (h.spliceWrite hk).imp_right fun ⟨p', hw⟩ => ⟨d, p', rfl, hw⟩

theorem accounting_start {c c₁ : Conn} {k : StartCalls} (hl : c.released = false)
    (h : startPump .splicepump c k = (c₁, true)) : ∃ p, Accounting c₁ p := by
  obtain ⟨rb, r, w, -, -, rfl⟩ := startPump_splice_ok hl h
  exact ⟨startedPump k r w, hl, rfl, rfl, fun d => Accounted.new ..⟩

/-- **Every run.** A client that started to pump is released, or its two pipes are accounted for. -/
theorem splice_run {c₀ c₁ c : Conn} {k : StartCalls} {es : List Ev} (hl₀ : c₀.released = false)
    (hstart : startPump .splicepump c₀ k = (c₁, true)) (hrun : Run SpliceStep c₁ es c) :
    Torn c ∨ ∃ p, Accounting c p := by
  refine hrun.invariant (I := fun c => Torn c ∨ ∃ p, Accounting c p)
    (.inr (accounting_start hl₀ hstart)) fun u ev v hu hs => ?_
  rcases hu with hu | ⟨p, hu⟩
  · exact absurd (hu.1.symm.trans hs.1) (by decide)
  · exact (hu.step hs).imp_right fun ⟨_, p', _, hw⟩ => ⟨p', hw.acc⟩

/-- **Stream integrity and byte accounting.** In every state a run of the splice pump reaches, each
pipe holds exactly what was taken from its source and not yet written to its target. As long as the
client is not released, `data_in_pipe` is the length of that content and at most `capacity`, so
`transocks_read_from_pipe` asks for what the pipe holds and its subtraction does not wrap; and a
step of one direction leaves the other one alone. -/
theorem splicepump_accounting {c₀ c₁ c : Conn} {k : StartCalls} {es : List Ev}
    (hl₀ : c₀.released = false) (hstart : startPump .splicepump c₀ k = (c₁, true))
    (hrun : Run SpliceStep c₁ es c) :
    (∀ d, (c.kern d).taken = (c.kern d).written ++ (c.kern d).content) ∧
      (c.released = false → ∃ p, c.userArg = some p ∧
        (∀ d, (p.pipe d).dataInPipe = (c.kern d).content.length ∧
          (p.pipe d).dataInPipe ≤ (p.pipe d).capacity ∧
          ∀ bs, SpliceMoves c p (.spliceWrite d (.moved bs)) →
            sizeSub (p.pipe d).dataInPipe bs.length + bs.length = (p.pipe d).dataInPipe) ∧
        ∀ ev d c', SpliceStep c ev c' → ev.direction? = some d → c'.released = false →
          c'.kern d.other = c.kern d.other ∧ pipeOf c' d.other = pipeOf c d.other) := by
  have hrun' := splice_run hl₀ hstart hrun
  have hflow : ∀ d, ∃ f, (c.kern d).Carries f := by
    rcases hrun' with h | ⟨p, h⟩
    · exact h.2
    · exact fun d => (h.pipes d).flow
  refine ⟨fun d => ?_, fun hl => ?_⟩
  · obtain ⟨f, ht, hc, hw⟩ := hflow d
    rw [ht, hw, hc, f.conserve]
  obtain ⟨p, hp⟩ := hrun'.resolve_left fun h => absurd (h.1.symm.trans hl) (by decide)
  refine ⟨p, hp.pump, fun d => ?_, fun ev d c' hs hd hl' => ?_⟩
  · have hdata := (hp.pipes d).data
    have hroom := (hp.pipes d).room
    refine ⟨hdata, by omega, fun bs hbs => ?_⟩
    have hsub := (hp.pipes d).sizeSub_exact hbs.1
    omega
  · obtain ⟨e, p', he, hw⟩ :=
      (hp.step hs).resolve_left fun h => absurd (h.1.symm.trans hl') (by decide)
    obtain rfl : e = d := Option.some.inj (he.symm.trans hd)
    exact ⟨hw.kern, by simp only [pipeOf, hw.acc.pump, hp.pump, Option.map_some, hw.pipe]⟩

/-- The relay sends three bytes and the client one, and two of the three reach the client. -/
def shortTransfers : List Ev :=
  [.spliceRead .inbound (.moved [1, 2, 3]), .spliceRead .outbound (.moved [7]),
    .spliceWrite .inbound (.moved [1, 2])]

def shortConn (n : ℕ) : Conn :=
  (shortTransfers.take n).foldl (Conn.step .splicepump) (startedConn [])

theorem run_shortTransfers :
    Run SpliceStep (startedConn []) (shortTransfers.take 2) (shortConn 2) ∧
      SpliceStep (shortConn 2) (.spliceWrite .inbound (.moved [1, 2])) (shortConn 3) := by
  have h₁ : SpliceStep (shortConn 0) (.spliceRead .inbound (.moved [1, 2, 3])) (shortConn 1) :=
    ⟨rfl, ⟨_, rfl, fun _ => ⟨by decide, by decide⟩⟩, rfl⟩
  have h₂ : SpliceStep (shortConn 1) (.spliceRead .outbound (.moved [7])) (shortConn 2) :=
    ⟨rfl, ⟨_, rfl, fun _ => ⟨by decide, by decide⟩⟩, rfl⟩
  exact ⟨(Run.one h₁).snoc h₂, rfl, ⟨_, rfl, ⟨[3], rfl⟩, by decide⟩, rfl⟩

/-- The two bytes are taken off exactly, and the outbound pipe keeps its byte. -/
theorem splicepump_accounting_shortTransfers :
    ∃ p, (shortConn 2).userArg = some p ∧ (p.pipe .inbound).dataInPipe = 3 ∧
      sizeSub (p.pipe .inbound).dataInPipe 2 + 2 = (p.pipe .inbound).dataInPipe ∧
      (shortConn 3).kern .outbound = (shortConn 2).kern .outbound ∧
      ((shortConn 3).kern .inbound).content = [3] ∧
      ∀ d, ((shortConn 3).kern d).taken =
        ((shortConn 3).kern d).written ++ ((shortConn 3).kern d).content := by
  obtain ⟨hrun, hs⟩ := run_shortTransfers
  obtain ⟨p, hp, hpipe, hframe⟩ :=
    (splicepump_accounting rfl (startPump_handoverConn []) hrun).2 rfl
  have hmoves : SpliceMoves (shortConn 2) p (.spliceWrite .inbound (.moved [1, 2])) := by
    obtain ⟨-, ⟨p', hp', hk⟩, -⟩ := hs
    obtain rfl := Option.some.inj (hp.symm.trans hp')
    exact hk
  have hdata : (p.pipe .inbound).dataInPipe = 3 := (hpipe .inbound).1
  refine ⟨p, hp, hdata, (hpipe .inbound).2.2 [1, 2] hmoves, (hframe _ .inbound _ hs rfl rfl).1, rfl,
    (splicepump_accounting rfl (startPump_handoverConn []) (hrun.snoc hs)).1⟩

end Transocks

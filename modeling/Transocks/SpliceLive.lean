import Transocks.SpliceEof

/-!
# The splice pump is never stuck

A live client waits for each of its sources or, once a source has reported end of file, for the pipe
behind it. `splicepump_never_stuck` says that the event it waits for is armed on an open descriptor,
and that after the end of file every callback of the pipe empties it further, changes nothing, or
releases the client.
-/

namespace Transocks

open Runs

/-- The socket of `s` is the one the pump started with in `c₁`, and no call has closed it since. -/
def SocketOpen (c₁ c : Conn) (s : Side) : Prop :=
  0 ≤ (c.ends s).fd ∧ (c.ends s).fd = (c₁.ends s).fd ∧
    ∃ es, c.out = c₁.out ++ es ∧ ∀ fd, Effect.closed (.sock s) fd ∉ es

section Steps

variable {c₁ c c' : Conn} {p : Splicepump} {d : Direction} {q : Splice} {ev : Ev}

theorem SocketOpen.next {s : Side} (es : List Effect) (h : SocketOpen c₁ c s)
    (hfd : (c'.ends s).fd = (c.ends s).fd) (hout : c'.out = c.out ++ es)
    (hes : ∀ fd, Effect.closed (.sock s) fd ∉ es) : SocketOpen c₁ c' s := by
  obtain ⟨hpos, hsame, es₁, hout₁, hes₁⟩ := h
  refine ⟨by rw [hfd]; exact hpos, hfd.trans hsame, es₁ ++ es, ?_, fun fd hmem => ?_⟩
  · rw [hout, hout₁, List.append_assoc]
  · rcases List.mem_append.mp hmem with hm | hm
    · exact hes₁ fd hm
    · exact hes fd hm

theorem SocketOpen.same {s : Side} (h : SocketOpen c₁ c s)
    (hfd : (c'.ends s).fd = (c.ends s).fd) (hout : c'.out = c.out) : SocketOpen c₁ c' s :=
  h.next [] hfd (by rw [hout, List.append_nil]) fun _ => List.not_mem_nil

theorem FillMove.socketOpen {s : Side} (hm : FillMove c p d q c') (h : SocketOpen c₁ c s) :
    SocketOpen c₁ c' s := by
  cases hm with
  | transfer hb => exact h.same rfl rfl
  | retry hr => exact h
  | activate hr => exact h.same rfl rfl
  | eof =>
    refine h.next ([.shutdown d.source (c.ends d.source).fd .rd] ++
      closeEffect (.pipeWrite d) (p.pipe d).pipeWritefd) ?_ rfl fun fd => ?_
    · rcases Side.eq_or_eq_other d.source s with rfl | rfl <;>
        simp [writeToPipeEof, Conn.setReadFlag, -Direction.source_other]
    · unfold closeEffect
      split <;> simp

theorem DrainMove.socketOpen {s : Side} (hm : DrainMove c p d q c') (h : SocketOpen c₁ c s) :
    SocketOpen c₁ c' s := by
  cases hm with
  | transfer hb => exact h.same rfl rfl
  | retry hr => exact h
  | eof =>
    refine h.next ([.shutdown d.target (c.ends d.target).fd .wr] ++
      closeEffect (.pipeRead d) (p.pipe d).pipeReadfd) ?_ rfl fun fd => ?_
    · rcases Side.eq_or_eq_other d.target s with rfl | rfl <;>
        simp [readFromPipeEof, Conn.setWriteFlag]
    · unfold closeEffect
      split <;> simp

/-- **A callback of a pipe** moves bytes out of it, finds nothing to do, or releases the client; and
it releases the client when the pipe is empty. -/
theorem Pumping.drains (h : Pumping c p) (hs : ReadyStep c (.spliceWrite d q) c') :
    ((∃ p', c'.userArg = some p' ∧ (p'.pipe d).dataInPipe < (p.pipe d).dataInPipe) ∨
        (c' = c ∧ ∃ e, q = .failed e ∧ isRetriable e = true) ∨ c'.released = true) ∧
      ((p.pipe d).dataInPipe = 0 → c'.released = true) := by
  obtain ⟨p₁, hp₁, hk⟩ := hs.1.2.1
  obtain rfl : p = p₁ := Option.some.inj (h.pump.symm.trans hp₁)
  rcases h.step_cases hs with
    ⟨d', k', hev, -⟩ | ⟨d', k', hev, hm, p', hp'⟩ | ⟨-, rfl⟩ | ⟨d', -, hend⟩
  · cases hev
  · obtain ⟨rfl, rfl⟩ : d = d' ∧ q = k' := by simpa using hev
    cases hm with
    | @transfer bs hb =>
      obtain ⟨hle, hsub⟩ := (h.pipes d).sizeSub_exact hk.1
      have hpos : 0 < bs.length := List.length_pos_iff.mpr hb
      refine ⟨.inl ⟨_, rfl, ?_⟩, fun hz => by omega⟩
      rw [Splicepump.setPipe_same]
      show sizeSub _ _ < _
      rw [hsub]
      omega
    | @retry e hr => exact ⟨.inr (.inl ⟨rfl, e, rfl, hr⟩), fun hz => absurd hz hk⟩
    | eof =>
      -- the flag that this branch sets is not set in a client that goes on pumping
      have hflag : (readFromPipeEof c d p).writeFlag d = true := by
        simp [readFromPipeEof, Conn.setWriteFlag, Conn.writeFlag]
      exact absurd ((hp'.writeFlag d).symm.trans hflag) (by decide)
  · exact ⟨.inr (.inr h.fatal.released), fun _ => h.fatal.released⟩
  · exact ⟨.inr (.inr hend.released), fun _ => hend.released⟩

end Steps

section Run

variable {c₀ c₁ c : Conn} {L : List Byte} {k : StartCalls} {es : List Ev}

theorem pumping_socketOpen (h₀ : AtHandover c₀ L)
    (hstart : startPump .splicepump c₀ k = (c₁, true)) (hrun : Run ReadyStep c₁ es c)
    (hl : c.released = false) : ∃ p, Pumping c p ∧ ∀ s, SocketOpen c₁ c s := by
  refine hrun.invariant
    (I := fun c => c.released = false → ∃ p, Pumping c p ∧ ∀ s, SocketOpen c₁ c s) ?_ ?_ hl
  · intro _
    obtain ⟨p, hp⟩ := pumping_start h₀ hstart
    exact ⟨p, hp, fun s => ⟨hp.fd s, rfl, [], (List.append_nil _).symm, fun _ => List.not_mem_nil⟩⟩
  · intro u ev v hu hs hv
    obtain ⟨p, hp, ho⟩ := hu hs.1.1
    rcases hp.step_cases hs with ⟨d, q, -, hm, p', hp'⟩ | ⟨d, q, -, hm, p', hp'⟩ | ⟨-, rfl⟩ |
      ⟨d, -, hend⟩
    · exact ⟨p', hp', fun s => hm.socketOpen (ho s)⟩
    · exact ⟨p', hp', fun s => hm.socketOpen (ho s)⟩
    · exact absurd (hp.fatal.released.symm.trans hv) (by decide)
    · exact absurd (hend.released.symm.trans hv) (by decide)

/-- **The splice pump is never stuck.** In every live state that a run reaches, and for each
direction: before the source's end of file the event on the open source socket is armed; after it
the pipe has no writer any more, its read end is open and the event on it is armed, and every
callback of the pipe takes bytes out of it, finds nothing to do for now, or releases the client, as
it does once the pipe is empty. The flags of both ends of a direction are never set together. -/
theorem splicepump_never_stuck (h₀ : AtHandover c₀ L)
    (hstart : startPump .splicepump c₀ k = (c₁, true)) (hrun : Run ReadyStep c₁ es c)
    (hl : c.released = false) :
    ∃ p, c.userArg = some p ∧ ∀ d,
      (c.readFlag d = false → Armed (p.readEv d) ∧ SocketOpen c₁ c d.source) ∧
      (c.readFlag d = true →
        (c.kern d).writeOpen = false ∧ (c.kern d).readOpen = true ∧ Armed (p.writeEv d) ∧
          ∀ q c', ReadyStep c (.spliceWrite d q) c' →
            ((∃ p', c'.userArg = some p' ∧ (p'.pipe d).dataInPipe < (p.pipe d).dataInPipe) ∨
                (c' = c ∧ ∃ e, q = .failed e ∧ isRetriable e = true) ∨ c'.released = true) ∧
              ((p.pipe d).dataInPipe = 0 → c'.released = true)) ∧
      ¬ (c.readFlag d = true ∧ c.writeFlag d = true) := by
  obtain ⟨p, hp, ho⟩ := pumping_socketOpen h₀ hstart hrun hl
  refine ⟨p, hp.pump, fun d => ⟨fun hr => ?_, fun hr => ?_, fun hboth => ?_⟩⟩
  · exact ⟨⟨_, hp.readEv d, by rw [hr]; rfl⟩, ho d.source⟩
  · refine ⟨?_, hp.readOpen d, ⟨_, hp.writeEv d, rfl⟩, fun q c' hs => hp.drains hs⟩
    rw [hp.writeOpen d, hr]
    rfl
  · exact absurd ((hp.writeFlag d).symm.trans hboth.2) (by decide)

end Run

/-- The relay sends a byte and closes: the next callback of the pipe takes the byte, and the one
after it releases the client. -/
theorem splicepump_never_stuck_byteRun :
    ∃ p p', (byteConn 2).userArg = some p ∧ (byteConn 3).userArg = some p' ∧
      Armed (p.readEv .outbound) ∧ Armed (p.writeEv .inbound) ∧
      (p'.pipe .inbound).dataInPipe < (p.pipe .inbound).dataInPipe ∧
      ((byteConn 3).step .splicepump (.spliceWrite .inbound (.moved []))).released = true := by
  obtain ⟨p, hp, hd⟩ := splicepump_never_stuck (atHandover_handoverConn [])
    (startPump_handoverConn []) run_byteSent rfl
  obtain ⟨p', hp', hd'⟩ := splicepump_never_stuck (atHandover_handoverConn [])
    (startPump_handoverConn []) run_byteRun rfl
  obtain ⟨-, -, hev, hdrain⟩ := (hd .inbound).2.1 rfl
  obtain ⟨-, -, -, hdrain'⟩ := (hd' .inbound).2.1 rfl
  refine ⟨p, p', hp, hp', ((hd .outbound).1 rfl).1, hev, ?_, (hdrain' _ _ byteRun_last).2 ?_⟩
  · rcases (hdrain _ _ byteRun_taken).1 with ⟨p₁, hp₁, hlt⟩ | ⟨-, e, he, -⟩ | hrel
    · obtain rfl := Option.some.inj (hp'.symm.trans hp₁)
      exact hlt
    · cases he
    · cases hrel
  · obtain rfl := Option.some.inj hp'
    rfl

end Transocks

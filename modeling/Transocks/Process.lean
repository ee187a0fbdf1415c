import Transocks.Main
import Transocks.Dump
import Transocks.Settlement

/-!
# The whole program

`main` sets the environment up and enters the event loop, which runs the callbacks of the clients
and of the signals. `SIGTERM` and `SIGINT` break the loop; then `main` drops all clients, printing
each one, and releases the environment.
-/

namespace Transocks

open Circular Runs

/-- What the event loop does: something for the clients, or the callback of a signal. -/
inductive Tick
  | loop (act : Act)
  | signal (s : Sig)

/-- The process in its event loop, with what it printed; `broken` says that `event_base_loopbreak`
was called. -/
structure Proc where
  world : World
  printed : List Report
  broken : Bool

/-- The process when `event_base_dispatch` is called; it listens on the descriptor `n`. -/
def Proc.init (n : ℕ) : Proc := ⟨World.init n, [], false⟩

/-- One step of `event_base_dispatch`. After `event_base_loopbreak` it returns. -/
inductive Proc.Step (m : PumpMethod) (p : Proc) : Tick → Proc → Prop
  | loop {act : Act} {w : World} (hb : p.broken = false) (ha : act ≠ .dropAll)
      (hs : World.Step m p.world act w) : Step m p (.loop act) { p with world := w }
  /-- `terminate_signal_cb`. -/
  | terminate {s : Sig} (hb : p.broken = false) (hf : p.world.reg.fault = none)
      (hs : s = .term ∨ s = .int) : Step m p (.signal s) { p with broken := true }
  /-- `dump_client_info_signal_cb`. -/
  | dump {fuel : ℕ} {rs : List Report} (hb : p.broken = false) (hf : p.world.reg.fault = none)
      (h : p.world.dumpAllClientInfo m fuel = some rs) :
    Step m p (.signal .hup) { p with printed := p.printed ++ rs }
  /-- `drop_all_clients_signal_cb`. -/
  | drop {fuel : ℕ} {w : World} {rs : List Report} {visited : List ℕ} (hb : p.broken = false)
      (hf : p.world.reg.fault = none)
      (h : p.world.dropAllLoud m fuel = some ((w, rs), visited)) :
    Step m p (.signal .usr1) { p with world := w, printed := p.printed ++ rs }

def Tick.act? : Tick → Option Act
  | .loop act => some act
  | .signal .usr1 => some .dropAll
  | .signal _ => none

def Tick.Meets (P : Conn → Turn → Prop) (p : Proc) (t : Tick) : Prop :=
  ∀ act, t.act? = some act → act.Meets P p.world

/-- `main`, run with the options `opts`, has entered the event loop, which has done `ts` and is at
`p`. -/
def Executes (opts : List Opt) (k : MainCalls) (m : PumpMethod) (P : Conn → Turn → Prop)
    (ts : List Tick) (p : Proc) : Prop :=
  ∃ (env : GlobalEnv) (es : List (Tenure.Call Res)) (n : ℕ), boot opts k = .started env m es ∧
    env.listener = some ⟨n, true⟩ ∧ Run (Meeting (Proc.Step m) (Tick.Meets P)) (Proc.init n) ts p

section Process

variable {m : PumpMethod} {P : Conn → Turn → Prop} {p p' : Proc} {t : Tick} {ts : List Tick}
  {n i : ℕ} {w : World} {c : Conn} {acts : List Act} {opts : List Opt} {k : MainCalls}

/-- A step of the process is a step of the clients, or leaves them alone. -/
theorem Proc.Step.world (hs : Proc.Step m p t p') :
    (∃ act, t.act? = some act ∧ World.Step m p.world act p'.world) ∨
      (t.act? = none ∧ p'.world = p.world) := by
  cases hs with
  | loop hb ha hs => exact .inl ⟨_, rfl, hs⟩
  | terminate hb hf hs =>
    rcases hs with rfl | rfl
    · exact .inr ⟨rfl, rfl⟩
    · exact .inr ⟨rfl, rfl⟩
  | dump hb hf h => exact .inr ⟨rfl, rfl⟩
  | drop hb hf h => exact .inl ⟨_, rfl, .dropAll hf (dropAllLoud_quiet h)⟩

theorem run_world (hrun : Run (Meeting (Proc.Step m) (Tick.Meets P)) (Proc.init n) ts p) :
    Run (Meeting (World.Step m) (Act.Meets P)) (World.init n) (ts.filterMap Tick.act?) p.world := by
  induction hrun with
  | nil => exact .nil
  | @snoc ts p p' t _ hs ih =>
    rw [List.filterMap_append]
    rcases hs.2.world with ⟨act, hact, hw⟩ | ⟨hact, hw⟩
    · rw [List.filterMap_cons_some hact, List.filterMap_nil]
      exact ih.snoc ⟨hs.1 act hact, hw⟩
    · rw [List.filterMap_cons_none hact, List.filterMap_nil, List.append_nil, hw]
      exact ih

theorem Registered.survives {l visited : List ℕ} {fuel : ℕ} {w' : World} (h : Registered m w l)
    (hf : w.reg.fault = none) (hd : w.dropAllClients m fuel = some (w', visited))
    (hc : w'.conns i = some c) (hl : c.released = false) :
    m = .splicepump ∧ c.userArg = none ∧ w.conns i = some c := by
  rw [h.dropAll_conns hf hd] at hc
  obtain ⟨c₁, hc₁, rfl⟩ := Option.map_eq_some_iff.mp hc
  by_cases hr : c₁.released = true
  · rw [if_pos hr] at hl
    exact absurd (hr.symm.trans hl) (by decide)
  rw [if_neg hr] at hl ⊢
  rw [Bool.not_eq_true] at hr
  obtain ⟨c₂, f, hc₂, hp⟩ := h.on i ((h.mem hc₁).mpr hr)
  obtain rfl := Option.some.inj (hc₁.symm.trans hc₂)
  rcases hp.pumpFree with ⟨hs, heq⟩ | ⟨-, hin, -⟩
  · have hquiet : { c₁ with out := [] } = c₁ := by rw [← h.quiet i c₁ hc₁]
    rw [heq, hquiet]
    simp only [Conn.survives, Bool.and_eq_true, beq_iff_eq, Option.isNone_iff_eq_none] at hs
    exact ⟨hs.1, hs.2, hc₁⟩
  · exact absurd (hin.released.symm.trans hl) (by decide)

theorem Registered.spares {l visited : List ℕ} {fuel : ℕ} {w' : World}
    (h : Registered .splicepump w l) (hf : w.reg.fault = none)
    (hd : w.dropAllClients .splicepump fuel = some (w', visited)) (hc : w.conns i = some c)
    (hl : c.released = false) (hu : c.userArg = none) : w'.conns i = some c := by
  have hfree : Transocks.pumpFree .splicepump c = c := splicepumpFree_unattached hl hu
  rw [h.dropAll_conns hf hd, hc, Option.map_some, hl, if_neg (by decide), hfree]
  exact congrArg some (by rw [← h.quiet i c hc])

theorem signal_handled (hrun : Run (World.Step m) (World.init n) acts p.world)
    (hf : p.world.reg.fault = none) (hb : p.broken = false) (s : Sig) :
    ∃ p', Proc.Step m p (.signal s) p' := by
  obtain ⟨l, h, -⟩ := run_ordered hrun hf
  cases s with
  | term => exact ⟨_, .terminate hb hf (.inl rfl)⟩
  | int => exact ⟨_, .terminate hb hf (.inr rfl)⟩
  | hup =>
    obtain ⟨rs, hrs, -⟩ := h.dump hrun
    exact ⟨_, .dump hb hf hrs⟩
  | usr1 =>
    obtain ⟨w', rs, hloud, -⟩ := h.dropLoud hrun hf
    exact ⟨_, .drop hb hf hloud⟩

/-- **The end of the program.** In every state that the event loop reaches without a fault the
callback of each signal runs to its end. When `main` then drops all clients, the drop ends without a
fault. A client is left live exactly when the splice pump has not started for it, and then it is
still there with all it holds; every other one that was ever accepted has given back everything that
was acquired for it. -/
theorem process_ends (hrun : Executes opts k m (Lossless m) ts p)
    (hf : p.world.reg.fault = none) :
    (p.broken = false → ∀ s, ∃ p', Proc.Step m p (.signal s) p') ∧
    ∃ (w : World) (l : List ℕ) (rs : List Report),
      p.world.dropAllLoud m (l.length + 1) = some ((w, rs), l) ∧ w.reg.fault = none ∧
      ∀ i c, w.conns i = some c →
        (c.released = false ↔ m = .splicepump ∧
          ∃ c₀, p.world.conns i = some c₀ ∧ c₀.released = false ∧ c₀.userArg = none) ∧
        ∃ c', c = c'.atRest ∧ OwnLife m (Lossless m) i (ts.filterMap Tick.act? ++ [.dropAll]) c' ∧
          ((c'.released = true ∧ ∀ x, ¬ c'.Holds x) ∨
            (m = .splicepump ∧ c'.released = false ∧ c'.userArg = none ∧
              p.world.conns i = some c ∧ ∀ x, c'.Holds x → c'.owns x)) := by
  obtain ⟨env, es, n, -, -, hrun⟩ := hrun
  have hworld := run_world hrun
  have hplain := hworld.mono fun _ _ _ hs => hs.2
  refine ⟨fun hb s => signal_handled hplain hf hb s, ?_⟩
  obtain ⟨l, h, -⟩ := run_ordered hplain hf
  obtain ⟨w, rs, hloud, -⟩ := h.dropLoud hplain hf
  have hdrop := dropAllLoud_quiet hloud
  obtain ⟨w', hdrop', -, hf', -⟩ := h.dropAll hf
  obtain rfl : w = w' := congrArg Prod.fst (forEachSafe_unique hdrop hdrop')
  refine ⟨w, l, rs, hloud, hf', fun i c hc => ⟨⟨fun hl => ?_, ?_⟩, ?_⟩⟩
  · obtain ⟨hm, hu, hc₀⟩ := h.survives hf hdrop hc hl
    exact ⟨hm, c, hc₀, hl, hu⟩
  · rintro ⟨rfl, c₀, hc₀, hl, hu⟩
    obtain rfl := Option.some.inj (hc.symm.trans (h.spares hf hdrop hc₀ hl hu))
    exact hl
  have hmeets : Act.dropAll.Meets (Lossless m) p.world := by
    rintro j c₁ t - - ht
    obtain rfl : Turn.drop = t := Option.some.inj ht
    trivial
  have hend := hworld.snoc ⟨hmeets, .dropAll hf hdrop⟩
  obtain ⟨c', rfl, hlife⟩ := (run_projected hend).life i c hc
  refine ⟨c', rfl, hlife, ?_⟩
  rcases hlife.settled with ⟨hl, hx⟩ | ⟨hr, hx⟩
  · obtain ⟨hm, hu, hsame⟩ := h.survives hf hdrop hc hl
    exact .inr ⟨hm, hl, hu, hsame, hx⟩
  · exact .inl ⟨hr, hx⟩

theorem run_loop {w w' : World}
    (hrun : Run (Meeting (World.Step m) (Act.Meets P)) w acts w')
    (hacts : ∀ act ∈ acts, act ≠ .dropAll) (rs : List Report) :
    Run (Meeting (Proc.Step m) (Tick.Meets P)) ⟨w, rs, false⟩ (acts.map .loop) ⟨w', rs, false⟩ := by
  induction hrun with
  | nil => exact .nil
  | @snoc acts u v act _ hs ih =>
    rw [List.map_append]
    have hstep : Proc.Step m ⟨u, rs, false⟩ (.loop act) ⟨v, rs, false⟩ :=
      .loop rfl (hacts act (by simp)) hs.2
    refine (ih fun a ha => hacts a (List.mem_append_left _ ha)).snoc ⟨?_, hstep⟩
    rintro a ha
    obtain rfl := Option.some.inj ha
    exact hs.1

end Process

def someOptions : List Opt :=
  [.listenerAddrPort "10.0.0.2:51201", .socks5AddrPort "10.0.0.2:51201",
    .pumpMethod (some "splicepump")]

/-- Every call of `main` succeeds, and the listener gets the descriptor `3`. -/
def MainCalls.ok : MainCalls where
  evutil str len :=
    if str = "10.0.0.2:51201" ∧ 16 ≤ len then some (AcceptCalls.ok.srcAddr, 16) else none
  env := ⟨true, true, true, true⟩
  signal := ⟨fun _ => true, fun _ => true⟩
  listen := ⟨some 3, true, true, true, true, true, true, true, true, true⟩
  strdup := true

/-- A client comes to its pump, a second one is accepted, and the process is told to terminate. -/
def someTicks : List Tick := pumpAndWait.map .loop ++ [.signal .term]

theorem executes_someTicks : Executes someOptions MainCalls.ok .splicepump (Lossless .splicepump)
    someTicks ⟨World.after .splicepump pumpAndWait, [], true⟩ := by
  refine ⟨readyEnv (AcceptCalls.ok.srcAddr, 16) (AcceptCalls.ok.srcAddr, 16) .splicepump 3, _, 3,
    rfl, rfl,
    (run_loop run_pumpAndWait_lossless ?_ []).snoc ⟨?_, .terminate rfl rfl (.inl rfl)⟩⟩
  · simp [pumpAndWait, toPump, toReply, replyWith]
  · rintro act ha
    cases ha

/-- The program ends with the first client released and the second one left. -/
theorem process_ends_someTicks :
    ∃ (w : World) (rs : List Report),
      (World.after .splicepump pumpAndWait).dropAllLoud .splicepump 3 = some ((w, rs), [0, 1]) ∧
      (∃ c, w.conns 0 = some c ∧ c.released = true) ∧
      ∃ c, w.conns 1 = some c ∧ c.released = false := by
  obtain ⟨-, w, l, rs, hloud, -, hend⟩ := process_ends executes_someTicks rfl
  have hdrop : (World.after .splicepump pumpAndWait).dropAllClients .splicepump 3 =
      some (World.after .splicepump (pumpAndWait ++ [.dropAll]), [0, 1]) := rfl
  obtain ⟨rfl, rfl⟩ := Prod.mk.inj (forEachSafe_unique (dropAllLoud_quiet hloud) hdrop)
  refine ⟨_, rs, hloud, ⟨_, rfl, ?_⟩, ⟨_, rfl, (hend 1 _ rfl).1.mpr ⟨rfl, _, rfl, rfl, rfl⟩⟩⟩
  rw [← Bool.not_eq_false, (hend 0 _ rfl).1]
  rintro ⟨-, c₀, hc₀, -, hu⟩
  cases hc₀
  cases hu

end Transocks

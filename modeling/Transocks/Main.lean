import Transocks.Environment

/-!
# `main` up to the event loop, with what it uses of `util.c` and `pump.c`

`boot` takes the options as `getopt_long` returns them one after the other. It exits with the help
text, gives up while it sets the environment up, or enters the event loop with the environment and
the pump it found.
-/

namespace Transocks

open Tenure Runs

/-- A result of `getopt_long` with its `optarg`; `unknown` is `'?'`. -/
inductive Opt
  | listenerAddrPort (arg : String)
  | socks5AddrPort (arg : String)
  | pumpMethod (arg : Option String)
  | help
  | unknown
  deriving DecidableEq, Repr

/-- The variables that the loop over the options sets. -/
structure Args where
  listenerAddrPort : Option String
  socks5AddrPort : Option String
  pumpMethod : Option String
  deriving DecidableEq, Repr

/-- The body of the loop; `none` is `PRINTHELP_EXIT`. -/
def Args.take (a : Args) : Opt → Option Args
  | .listenerAddrPort arg => some { a with listenerAddrPort := some arg }
  | .socks5AddrPort arg => some { a with socks5AddrPort := some arg }
  | .pumpMethod arg => some { a with pumpMethod := arg }
  | .help => none
  | .unknown => none

def parseArgs (opts : List Opt) : Option Args := opts.foldlM Args.take ⟨none, none, none⟩

/-- `transocks_parse_sockaddr_port`, given `evutil_parse_sockaddr_port`, which takes the size of the
buffer and returns the address with its length. -/
def parseSockaddrPort (evutil : String → ℕ → Option (SockAddr × ℕ)) (str : String) :
    Option (SockAddr × ℕ) :=
  match evutil str 28 with
  | some r => some r
  | none => evutil str 16

/-- `IN6_IS_ADDR_V4MAPPED`. -/
def isV4Mapped (addr : Vector Byte 16) : Bool :=
  addr.toList.take 12 == List.replicate 10 0 ++ [255, 255]

def validateAddrPort : SockAddr → Bool
  | .inet _ port => !port.toList.all (· == 0)
  | .inet6 addr port => if port.toList.all (· == 0) then false else !isV4Mapped addr
  | .other _ => false

/-- `transocks_pump`: its name, and which handlers are registered. -/
structure Pump where
  name : String
  startPumpFn : Bool
  freePumpFn : Bool
  dumpInfoFn : Bool
  deriving DecidableEq, Repr

/-- `transocks_splicepump_ops` and `transocks_bufferpump_ops`. -/
def PumpMethod.ops : PumpMethod → Pump
  | .splicepump => ⟨"splicepump", true, true, true⟩
  | .bufferpump => ⟨"bufferpump", true, true, true⟩

/-- `transocks_pumps`. -/
def pumps : List PumpMethod := [.splicepump, .bufferpump]

/-- `transocks_pump_init`. -/
def pumpInit (name : String) : Option PumpMethod :=
  match pumps.find? fun m => m.ops.name == name with
  | none => none
  | some m =>
    if !m.ops.startPumpFn then none
    else if !m.ops.freePumpFn then none
    else if !m.ops.dumpInfoFn then none
    else some m

/-- The calls of `main` that may fail. -/
structure MainCalls where
  evutil : String → ℕ → Option (SockAddr × ℕ)
  env : EnvCalls
  signal : SignalCalls
  listen : ListenCalls
  strdup : Bool

/-- How `main` gets on before the event loop, with the calls it makes. -/
inductive Boot
  /-- The help text, after the message of `FATAL_WITH_HELPMSG` if there is one. -/
  | usage (msg : Option String)
  | bareExit (es : List (Call Res))
  | shutdown (env : GlobalEnv) (es : List (Call Res))
  | started (env : GlobalEnv) (m : PumpMethod) (es : List (Call Res))

/-- The two `memcpy` of `main`. -/
def GlobalEnv.withAddrs (env : GlobalEnv) (l s : SockAddr × ℕ) : GlobalEnv :=
  { env with bindAddr := some l.1, bindAddrLen := l.2, relayAddr := some s.1, relayAddrLen := s.2 }

/-- `main` from `listener_init` to `event_base_dispatch`, after the calls `es`. -/
def serveOn (env : GlobalEnv) (es : List (Call Res)) (name : String) (k : MainCalls) : Boot :=
  match listenerInit env k.listen with
  | (env, false, fs) => .shutdown env (es ++ fs)
  | (env, true, fs) =>
    if !k.strdup then .shutdown env (es ++ fs)
    else
      let env := { env with pumpMethodName := some name }
      let es := es ++ fs ++ [.acquire .pumpMethodName]
      match pumpInit name with
      | none => .shutdown env es
      | some m => .started env m es

/-- `main` from `transocks_global_env_new` to `event_base_dispatch`. -/
def serve (l s : SockAddr × ℕ) (name : String) (k : MainCalls) : Boot :=
  match globalEnvNew k.env with
  | (none, es) => .bareExit es
  | (some env, es) =>
    match signalInit env k.signal with
    | (env, false, fs) => .shutdown env (es ++ fs)
    | (env, true, fs) => serveOn (env.withAddrs l s) (es ++ fs) name k

/-- `main` up to `event_base_dispatch`. -/
def boot (opts : List Opt) (k : MainCalls) : Boot :=
  match parseArgs opts with
  | none => .usage none
  | some a =>
    match a.listenerAddrPort, a.socks5AddrPort with
    | some la, some sa =>
      match parseSockaddrPort k.evutil la with
      | none => .usage (some ("invalid listener address and port: " ++ la))
      | some l =>
        match parseSockaddrPort k.evutil sa with
        | none => .usage (some ("invalid socks5 address and port: " ++ sa))
        | some s =>
          if !validateAddrPort l.1 then
            .usage (some ("fail to parse listener address port: " ++ la))
          else if !validateAddrPort s.1 then
            .usage (some ("fail to parse socks5 address port: " ++ sa))
          else serve l s (a.pumpMethod.getD PumpMethod.bufferpump.ops.name) k
    | _, _ => .usage none

/-! ## The options -/

/-- The last option that `f` takes counts. -/
def lastOf {α : Type} (f : Opt → Option α) (opts : List Opt) : Option α :=
  (opts.filterMap f).getLast?

def Opt.listener? : Opt → Option String
  | .listenerAddrPort arg => some arg
  | _ => none

def Opt.socks5? : Opt → Option String
  | .socks5AddrPort arg => some arg
  | _ => none

def Opt.method? : Opt → Option (Option String)
  | .pumpMethod arg => some arg
  | _ => none

section Options

variable {α : Type} {f : Opt → Option α} {opts : List Opt} {o : Opt} {a : Args}

theorem lastOf_append : lastOf f (opts ++ [o]) = (f o).or (lastOf f opts) := by
  unfold lastOf
  cases ho : f o <;> simp [ho]

theorem parseArgs_eq_some : parseArgs opts = some a ↔
    (.help ∉ opts ∧ .unknown ∉ opts) ∧ a.listenerAddrPort = lastOf Opt.listener? opts ∧
      a.socks5AddrPort = lastOf Opt.socks5? opts ∧
      a.pumpMethod = (lastOf Opt.method? opts).join := by
  induction opts using List.reverseRecOn generalizing a with
  | nil =>
    obtain ⟨la, sa, pm⟩ := a
    simp [parseArgs, lastOf, eq_comm]
  | append_singleton opts o ih =>
    have hsnoc : parseArgs (opts ++ [o]) = (parseArgs opts).bind fun a => a.take o := by
      simp [parseArgs, List.foldlM_append]
    rw [hsnoc, Option.bind_eq_some_iff]
    simp only [ih, lastOf_append, List.mem_append, List.mem_singleton]
    constructor
    · rintro ⟨b, ⟨⟨hh, hu⟩, hla, hsa, hpm⟩, ht⟩
      cases o <;> simp_all [Args.take, Opt.listener?, Opt.socks5?, Opt.method?] <;> subst a <;>
        simp_all
    · rintro ⟨⟨hh, hu⟩, hla, hsa, hpm⟩
      refine ⟨⟨lastOf Opt.listener? opts, lastOf Opt.socks5? opts,
        (lastOf Opt.method? opts).join⟩, ⟨⟨by tauto, by tauto⟩, rfl, rfl, rfl⟩, ?_⟩
      obtain ⟨la, sa, pm⟩ := a
      cases o <;> simp_all [Args.take, Opt.listener?, Opt.socks5?, Opt.method?]

end Options

theorem pumpInit_eq_some {name : String} {m : PumpMethod} :
    pumpInit name = some m ↔ name = m.ops.name := by
  constructor
  · intro h
    unfold pumpInit at h
    cases hfind : pumps.find? (fun m => m.ops.name == name) with
    | none => simp [hfind] at h
    | some m' =>
      have hname := List.find?_some hfind
      have hm : m' = m := by
        rw [hfind] at h
        cases m' <;> simpa [PumpMethod.ops] using h
      rw [← hm]
      exact (beq_iff_eq.mp hname).symm
  · rintro rfl
    cases m <;> decide

/-! ## The calls of `main` -/

/-- `main` from the label `shutdown`, after `transocks_drop_all_clients`. The program never asks for
`event_base_loopexit`, so both questions are put to the base. -/
def teardown (env : GlobalEnv) : List (Call Res) :=
  [.use .base, .use .base] ++ globalEnvFree env

/-- The calls of the process from its start to its end, with `us` in the event loop. -/
def Boot.life (us : List (Call Res)) : Boot → List (Call Res)
  | .usage _ => []
  | .bareExit es => es
  | .shutdown env es => es ++ teardown env
  | .started env _ es => es ++ us ++ teardown env

def MainCalls.addressed (k : MainCalls) (l s : SockAddr × ℕ) : GlobalEnv :=
  { GlobalEnv.new true true true with sigEv := k.signal.evsignalNew }.withAddrs l s

/-- The calls of `transocks_global_env_new` and `signal_init` succeed. -/
def MainCalls.signalled (k : MainCalls) : Bool :=
  k.env.callocEnv && k.env.callocBindAddr && k.env.callocRelayAddr && k.env.eventBaseNew &&
    initOrder.all k.signal.evsignalNew && initOrder.all k.signal.evsignalAdd

/-- The record of the environment cannot be allocated, or `listener_init` slips. -/
def MainCalls.slips (k : MainCalls) (l s : SockAddr × ℕ) : Bool :=
  !k.env.callocEnv || (k.signalled && k.listen.slips (k.addressed l s))

section Serve

variable {env : GlobalEnv} {k : MainCalls} {l s : SockAddr × ℕ} {name : String}
  {us : List (Call Res)}

theorem run_teardown (hb : env.eventBaseLoop = true) :
    Run (Step Res.rests) env.owns (teardown env) ∅ := by
  have huse : Run (Step Res.rests) env.owns [.use .base] env.owns := .one (.use hb)
  exact (huse.trans huse).trans (run_globalEnvFree env)

theorem signalAdds_fst {add : Sig → Bool} {ss : List Sig} :
    (signalAdds add ss).1 = ss.all add := by
  induction ss with
  | nil => rfl
  | cons s ss ih =>
    unfold signalAdds
    split <;> simp_all

theorem signalInit_eq {j : SignalCalls} :
    (signalInit env j).1 = { env with sigEv := j.evsignalNew } ∧
    (signalInit env j).2.1 = (initOrder.all j.evsignalNew && initOrder.all j.evsignalAdd) := by
  unfold signalInit
  simp only [signalAdds_fst]
  split <;> simp_all

theorem globalEnvNew_eq {j : EnvCalls} : (globalEnvNew j).1 =
    if j.callocEnv && j.callocBindAddr && j.callocRelayAddr && j.eventBaseNew then
      some (.new true true true) else none := by
  obtain ⟨a, b, c, d⟩ := j
  cases a <;> cases b <;> cases c <;> cases d <;> rfl

/-- What exists does not depend on the values of the addresses. -/
theorem owns_withAddrs (hb : env.bindAddr.isSome) (hr : env.relayAddr.isSome) :
    (env.withAddrs l s).owns = env.owns := by
  ext r
  cases r <;> simp_all [GlobalEnv.LeadsTo, GlobalEnv.withAddrs]

theorem listenerInit_eq {j : ListenCalls} (hl : env.listener = none) : (listenerInit env j).1 =
    (if (listenerInit env j).2.1 then { env with listener := j.socket.map fun n => ⟨n, true⟩ }
      else env) ∧
    ((listenerInit env j).2.1 = true ↔
      j.socket.isSome ∧ j.listens env ∧ j.malloc ∧ j.eventNew ∧ j.eventAdd) := by
  have hnone : { env with listener := none } = env := by rw [← hl]
  unfold listenerInit
  cases hs : j.socket with
  | none => simp
  | some n =>
    simp only
    by_cases hlisten : j.listens env = true
    · by_cases hmalloc : j.malloc = true
      · by_cases hev : (j.eventNew && j.eventAdd) = true
        · obtain ⟨hnew, hadd⟩ := Bool.and_eq_true_iff.mp hev
          simp [hlisten, hmalloc, hnew, hadd]
        · have hoff : ¬ (j.eventNew = true ∧ j.eventAdd = true) := by simpa using hev
          simp only [hlisten, hmalloc, hev, Bool.not_true, Bool.not_false, Bool.false_eq_true,
            ↓reduceIte, listenerDeinit_fst, hnone]
          simp only [false_iff, not_and, true_and]
          tauto
      · simp [hlisten, hmalloc, listenerDeinit_fst, hnone]
    · simp [hlisten]

theorem orderly_strdup (hn : env.pumpMethodName = none) :
    Orderly env [.acquire .pumpMethodName] { env with pumpMethodName := some name } := by
  refine run_acquire ?_ ?_ fun x => ?_
  · simp [GlobalEnv.LeadsTo, hn]
  · simp [Res.rests, GlobalEnv.LeadsTo]
  · cases x <;> simp [GlobalEnv.LeadsTo]

theorem serve_cases :
    (k.env.callocEnv = false ∧ serve l s name k = .bareExit [.fault]) ∨
    (k.env.callocEnv = true ∧ k.signalled = false ∧
      ((∃ es, serve l s name k = .bareExit es ∧ Run (Step Res.rests) ∅ es ∅) ∨
        ∃ env es, serve l s name k = .shutdown env es ∧ env.eventBaseLoop = true ∧
          Run (Step Res.rests) ∅ es env.owns)) ∨
    (k.env.callocEnv = true ∧ k.signalled = true ∧
      ∃ es, serve l s name k = serveOn (k.addressed l s) es name k ∧
        Run (Step Res.rests) ∅ es (k.addressed l s).owns) := by
  by_cases hcalloc : k.env.callocEnv = true
  · refine .inr ?_
    have hnew := run_globalEnvNew hcalloc
    have henv := @globalEnvNew_eq k.env
    have hsig := @orderly_signalInit (.new true true true) k.signal rfl fun _ => rfl
    obtain ⟨hs₁, hs₂⟩ := @signalInit_eq (.new true true true) k.signal
    unfold serve
    rcases hn : globalEnvNew k.env with ⟨_ | env, es⟩
    · rw [hn] at hnew henv
      refine .inl ⟨hcalloc, ?_, .inl ⟨es, rfl, hnew⟩⟩
      by_contra hsigned
      rw [if_pos (by simp_all [MainCalls.signalled])] at henv
      cases henv
    rw [hn] at hnew henv
    obtain ⟨hok, rfl⟩ : _ ∧ GlobalEnv.new true true true = env := by simpa using henv.symm
    simp only
    rcases hs : signalInit (.new true true true) k.signal with ⟨env, _ | _, fs⟩
    all_goals
      rw [hs] at hsig hs₁ hs₂
      simp only at hs₁ hs₂ ⊢
      subst hs₁
    · refine .inl ⟨hcalloc, ?_, .inr ⟨_, _, rfl, rfl, hnew.trans hsig⟩⟩
      simp only [MainCalls.signalled, Bool.and_assoc]
      rw [← hs₂]
      simp
    · refine .inr ⟨hcalloc, by simp_all [MainCalls.signalled], _, rfl, ?_⟩
      rw [MainCalls.addressed, owns_withAddrs rfl rfl]
      exact hnew.trans hsig
  · have hc : k.env.callocEnv = false := by simpa using hcalloc
    exact .inl ⟨hc, by simp [serve, globalEnvNew, hc]⟩

/-- The process from `listener_init` on, without a slip. -/
theorem run_serveOn {es : List (Call Res)} (hl : env.listener = none)
    (hb : env.eventBaseLoop = true) (hn : env.pumpMethodName = none)
    (hes : Run (Step Res.rests) ∅ es env.owns) (hk : k.listen.slips env = false)
    (hus : ∀ env' m fs, serveOn env es name k = .started env' m fs →
      Run (Step Res.rests) env'.owns us env'.owns) :
    Run (Step Res.rests) ∅ ((serveOn env es name k).life us) ∅ := by
  have hlisten := orderly_listenerInit hl hb hk
  obtain ⟨hl₁, -⟩ := @listenerInit_eq env k.listen hl
  unfold serveOn at hus ⊢
  rcases hi : listenerInit env k.listen with ⟨env', _ | _, fs⟩
  all_goals
    rw [hi] at hlisten hl₁ hus
    simp only [Bool.false_eq_true, ↓reduceIte] at hl₁ hus ⊢
    subst hl₁
  · exact (hes.trans hlisten).trans (run_teardown hb)
  have hready := hes.trans hlisten
  by_cases hdup : (!k.strdup) = true
  · rw [if_pos hdup]
    exact hready.trans (run_teardown hb)
  rw [if_neg hdup] at hus ⊢
  have hnamed := hready.trans (@orderly_strdup _ name hn)
  cases hp : pumpInit name with
  | none => exact hnamed.trans (run_teardown hb)
  | some m =>
    rw [hp] at hus
    exact (hnamed.trans (hus _ _ _ rfl)).trans (run_teardown hb)

/-- **The process without a slip** leaves nothing, however far `main` gets. -/
theorem run_serve (hk : k.slips l s = false)
    (hus : ∀ env m es, serve l s name k = .started env m es →
      Run (Step Res.rests) env.owns us env.owns) :
    Run (Step Res.rests) ∅ ((serve l s name k).life us) ∅ := by
  rcases @serve_cases k l s name with ⟨hc, -⟩ | ⟨-, -, ⟨es, h, hes⟩ | ⟨env, es, h, hb, hes⟩⟩ |
    ⟨hc, hsigned, es, h, hes⟩
  · simp [MainCalls.slips, hc] at hk
  · rw [h]
    exact hes
  · rw [h]
    exact hes.trans (run_teardown hb)
  · rw [h] at hus ⊢
    exact run_serveOn rfl rfl rfl hes (by simpa [MainCalls.slips, hc, hsigned] using hk) hus

/-- **A slip** is a call on what does not exist, whatever happens afterwards. -/
theorem not_run_serve {H : Set Res} (hk : k.slips l s = true) :
    ¬ Run (Step Res.rests) ∅ ((serve l s name k).life us) H := by
  rcases @serve_cases k l s name with ⟨-, h⟩ | ⟨hc, hsigned, -⟩ | ⟨hc, hsigned, es, h, hes⟩
  · rw [h]
    have hfault : ¬ Run (Step Res.rests) ∅ ([] ++ Call.fault :: []) H := not_run_fault
    exact hfault
  · simp [MainCalls.slips, hc, hsigned] at hk
  · have hslip : k.listen.slips (k.addressed l s) = true := by
      simpa [MainCalls.slips, hc, hsigned] using hk
    obtain ⟨hfail, gs, hgs, horder⟩ := listenerInit_slips rfl rfl hslip
    have hdown : serve l s name k = .shutdown (listenerInit (k.addressed l s) k.listen).1
        (es ++ (gs ++ [.release .listenerFd])) := by
      rw [h, serveOn, ← hgs]
      generalize listenerInit (k.addressed l s) k.listen = r at hfail ⊢
      obtain ⟨env, ok, fs⟩ := r
      subst hfail
      rfl
    rw [hdown, Boot.life, ← List.append_assoc, List.append_assoc]
    refine not_run_again (hes.trans horder) ?_
    simp [GlobalEnv.LeadsTo, MainCalls.addressed, GlobalEnv.withAddrs, GlobalEnv.new]

/-! ## Entering the event loop -/

/-- Every call of `main` succeeds. -/
def MainCalls.succeed (k : MainCalls) (l s : SockAddr × ℕ) : Bool :=
  k.signalled && k.listen.socket.isSome && k.listen.listens (k.addressed l s) && k.listen.malloc &&
    k.listen.eventNew && k.listen.eventAdd && k.strdup

/-- The environment in the event loop: the four signals and the listener have their events. -/
def readyEnv (l s : SockAddr × ℕ) (m : PumpMethod) (n : ℕ) : GlobalEnv where
  pumpMethodName := some m.ops.name
  bindAddr := some l.1
  relayAddr := some s.1
  bindAddrLen := l.2
  relayAddrLen := s.2
  eventBaseLoop := true
  listener := some ⟨n, true⟩
  sigEv := fun _ => true

theorem addressed_signalled (h : k.signalled = true) : k.addressed l s =
    { GlobalEnv.new true true true with sigEv := fun _ => true }.withAddrs l s := by
  have hall : k.signal.evsignalNew = fun _ => true := by
    simp only [MainCalls.signalled, Bool.and_eq_true] at h
    funext x
    exact List.all_eq_true.mp h.1.2 x (by cases x <;> decide)
  rw [MainCalls.addressed, hall]

theorem serve_started {m : PumpMethod} : (∃ es, serve l s name k = .started env m es) ↔
    k.succeed l s = true ∧ name = m.ops.name ∧
      ∃ n, k.listen.socket = some n ∧ env = readyEnv l s m n := by
  rw [← pumpInit_eq_some]
  rcases @serve_cases k l s name with ⟨hc, h⟩ | ⟨hc, hsigned, ⟨es, h, -⟩ | ⟨env, es, h, -⟩⟩ |
    ⟨hc, hsigned, es, h, -⟩
  · simp [h, MainCalls.succeed, MainCalls.signalled, hc]
  · simp [h, MainCalls.succeed, hsigned]
  · simp [h, MainCalls.succeed, hsigned]
  rw [h]
  obtain ⟨hl₁, hl₂⟩ := @listenerInit_eq (k.addressed l s) k.listen rfl
  unfold serveOn
  rcases hi : listenerInit (k.addressed l s) k.listen with ⟨env', _ | _, fs⟩
  all_goals
    rw [hi] at hl₁ hl₂
    simp only [Bool.false_eq_true, ↓reduceIte, true_iff, false_iff] at hl₁ hl₂ ⊢
    subst hl₁
  · constructor
    · rintro ⟨gs, he⟩
      cases he
    · rintro ⟨hk, -⟩
      simp only [MainCalls.succeed, Bool.and_eq_true] at hk
      tauto
  obtain ⟨hsock, hlisten, hmalloc, hnew, hadd⟩ := hl₂
  obtain ⟨n, hsock⟩ := Option.isSome_iff_exists.mp hsock
  have hsucceed : k.succeed l s = k.strdup := by
    simp [MainCalls.succeed, hsigned, hsock, hlisten, hmalloc, hnew, hadd]
  have hready : ∀ m : PumpMethod, name = m.ops.name →
      { k.addressed l s with
        pumpMethodName := some name
        listener := k.listen.socket.map fun n => ⟨n, true⟩ } = readyEnv l s m n := by
    rintro m rfl
    rw [addressed_signalled hsigned, hsock]
    rfl
  rw [hsucceed]
  cases hdup : k.strdup with
  | false => simp
  | true =>
    cases hp : pumpInit name with
    | none => simp
    | some m' =>
      have hname := hready m' (pumpInit_eq_some.mp hp)
      constructor
      · rintro ⟨gs, he⟩
        obtain ⟨rfl, rfl, -⟩ := Boot.started.inj he
        exact ⟨rfl, rfl, n, hsock, hname⟩
      · rintro ⟨-, hm, n', hn', rfl⟩
        obtain rfl := Option.some.inj hm
        obtain rfl := Option.some.inj (hsock.symm.trans hn')
        exact ⟨_, congrArg (Boot.started · m' _) hname⟩

end Serve

/-- What the options ask for: the last of each kind counts, both addresses are there, and both are
addresses to use. A last pump method without a value asks for the default. -/
structure Asks (opts : List Opt) (evutil : String → ℕ → Option (SockAddr × ℕ))
    (l s : SockAddr × ℕ) (name : String) : Prop where
  help : .help ∉ opts
  unknown : .unknown ∉ opts
  listener : ∃ la, lastOf Opt.listener? opts = some la ∧ parseSockaddrPort evutil la = some l
  socks5 : ∃ sa, lastOf Opt.socks5? opts = some sa ∧ parseSockaddrPort evutil sa = some s
  validListener : validateAddrPort l.1 = true
  validSocks5 : validateAddrPort s.1 = true
  method : name = (lastOf Opt.method? opts).join.getD PumpMethod.bufferpump.ops.name

section BootIff

variable {opts : List Opt} {k : MainCalls} {env : GlobalEnv} {m : PumpMethod} {es : List (Call Res)}

theorem Asks.unique {evutil : String → ℕ → Option (SockAddr × ℕ)} {l s l' s' : SockAddr × ℕ}
    {name name' : String} (h : Asks opts evutil l s name) (h' : Asks opts evutil l' s' name') :
    l = l' ∧ s = s' ∧ name = name' := by
  obtain ⟨la, hla, hl⟩ := h.listener
  obtain ⟨sa, hsa, hs⟩ := h.socks5
  obtain ⟨la', hla', hl'⟩ := h'.listener
  obtain ⟨sa', hsa', hs'⟩ := h'.socks5
  obtain rfl := Option.some.inj (hla.symm.trans hla')
  obtain rfl := Option.some.inj (hsa.symm.trans hsa')
  exact ⟨Option.some.inj (hl.symm.trans hl'), Option.some.inj (hs.symm.trans hs'),
    h.method.trans h'.method.symm⟩

/-- **The options.** `main` sets the environment up for what the options ask for, or shows the help
text. -/
theorem boot_cases (opts : List Opt) (k : MainCalls) :
    (∃ l s name, Asks opts k.evutil l s name ∧ boot opts k = serve l s name k) ∨
    ((∀ l s name, ¬ Asks opts k.evutil l s name) ∧ ∃ msg, boot opts k = .usage msg) := by
  unfold boot
  cases hp : parseArgs opts with
  | none =>
    refine .inr ⟨fun l s name h => ?_, none, rfl⟩
    obtain ⟨la, hla, -⟩ := h.listener
    obtain ⟨sa, hsa, -⟩ := h.socks5
    have hsome := (@parseArgs_eq_some opts ⟨lastOf Opt.listener? opts, lastOf Opt.socks5? opts,
      (lastOf Opt.method? opts).join⟩).mpr ⟨⟨h.help, h.unknown⟩, rfl, rfl, rfl⟩
    rw [hp] at hsome
    cases hsome
  | some a =>
    obtain ⟨⟨hh, hu⟩, hla, hsa, hpm⟩ := parseArgs_eq_some.mp hp
    simp only
    cases hl₀ : a.listenerAddrPort with
    | none =>
      refine .inr ⟨fun l s name h => ?_, none, rfl⟩
      obtain ⟨la, hla', -⟩ := h.listener
      simp_all
    | some la =>
      cases hs₀ : a.socks5AddrPort with
      | none =>
        refine .inr ⟨fun l s name h => ?_, none, rfl⟩
        obtain ⟨sa, hsa', -⟩ := h.socks5
        simp_all
      | some sa =>
        rw [hl₀] at hla
        rw [hs₀] at hsa
        have hparts : ∀ l s name, Asks opts k.evutil l s name →
            parseSockaddrPort k.evutil la = some l ∧ parseSockaddrPort k.evutil sa = some s := by
          intro l s name h
          obtain ⟨la', hla', hl⟩ := h.listener
          obtain ⟨sa', hsa', hs⟩ := h.socks5
          obtain rfl := Option.some.inj (hla.trans hla')
          obtain rfl := Option.some.inj (hsa.trans hsa')
          exact ⟨hl, hs⟩
        simp only
        cases hl : parseSockaddrPort k.evutil la with
        | none =>
          refine .inr ⟨fun l s name h => ?_, _, rfl⟩
          exact absurd (hl.symm.trans (hparts _ _ _ h).1) (by simp)
        | some l =>
          cases hs : parseSockaddrPort k.evutil sa with
          | none =>
            refine .inr ⟨fun l s name h => ?_, _, rfl⟩
            exact absurd (hs.symm.trans (hparts _ _ _ h).2) (by simp)
          | some s =>
            have hsame : ∀ l' s' name, Asks opts k.evutil l' s' name → l = l' ∧ s = s' :=
              fun l' s' name h => ⟨Option.some.inj (hl.symm.trans (hparts _ _ _ h).1),
                Option.some.inj (hs.symm.trans (hparts _ _ _ h).2)⟩
            simp only
            by_cases hvl : validateAddrPort l.1 = true
            · by_cases hvs : validateAddrPort s.1 = true
              · rw [if_neg (by simp [hvl]), if_neg (by simp [hvs])]
                exact .inl ⟨l, s, _, ⟨hh, hu, ⟨la, hla.symm, hl⟩, ⟨sa, hsa.symm, hs⟩, hvl, hvs,
                  by rw [hpm]⟩, rfl⟩
              · rw [if_neg (by simp [hvl]), if_pos (by simp [hvs])]
                refine .inr ⟨fun l' s' name h => ?_, _, rfl⟩
                obtain ⟨-, rfl⟩ := hsame _ _ _ h
                exact hvs h.validSocks5
            · rw [if_pos (by simp [hvl])]
              refine .inr ⟨fun l' s' name h => ?_, _, rfl⟩
              obtain ⟨rfl, -⟩ := hsame _ _ _ h
              exact hvl h.validListener

/-- **`main` enters the event loop** exactly when the options ask for two addresses to use and for a
pump there is, and every call succeeds; and then everything the loop needs is there. -/
theorem boot_started : (∃ es, boot opts k = .started env m es) ↔
    ∃ l s n, Asks opts k.evutil l s m.ops.name ∧ k.succeed l s = true ∧
      k.listen.socket = some n ∧ env = readyEnv l s m n := by
  rcases boot_cases opts k with ⟨l, s, name, hasks, h⟩ | ⟨hno, msg, h⟩
  · rw [h, serve_started]
    constructor
    · rintro ⟨hk, rfl, n, hn, henv⟩
      exact ⟨l, s, n, hasks, hk, hn, henv⟩
    · rintro ⟨l', s', n, hasks', hk, hn, henv⟩
      obtain ⟨rfl, rfl, rfl⟩ := hasks.unique hasks'
      exact ⟨hk, rfl, n, hn, henv⟩
  · rw [h]
    constructor
    · rintro ⟨es, he⟩
      cases he
    · rintro ⟨l, s, n, hasks, -⟩
      exact absurd hasks (hno _ _ _)

theorem readyEnv_owns (l s : SockAddr × ℕ) (m : PumpMethod) (n : ℕ) (r : Res) :
    r ∈ (readyEnv l s m n).owns := by
  cases r <;> simp [readyEnv, GlobalEnv.LeadsTo]

theorem run_uses (us : List Res) {H : Set Res} (h : ∀ r, r ∈ H) :
    Run (Step Res.rests) H (us.map .use) H := by
  induction us with
  | nil => exact .nil
  | cons r us ih =>
    have hone : Run (Step Res.rests) H [.use r] H := .one (.use (h r))
    exact hone.trans ih

/-- **The process.** Whatever the options are, whichever calls fail and whatever the callbacks use,
in any order, while the event loop runs: `main` creates every object of the environment once and
after what it rests on, uses it while it exists, and releases it once and before what it rests on,
so that nothing is left when it returns, unless it slips. -/
theorem process_orderly (opts : List Opt) (k : MainCalls) (us : List Res) :
    Run (Step Res.rests) ∅ ((boot opts k).life (us.map .use)) ∅ ↔
      ∀ l s name, Asks opts k.evutil l s name → k.slips l s = false := by
  rcases boot_cases opts k with ⟨l, s, name, hasks, h⟩ | ⟨hno, msg, h⟩
  · rw [h]
    constructor
    · intro hrun l' s' name' hasks'
      obtain ⟨rfl, rfl, -⟩ := hasks.unique hasks'
      by_contra hslip
      exact not_run_serve (by simpa using hslip) hrun
    · intro hslip
      refine run_serve (hslip _ _ _ hasks) fun env m es hup => ?_
      obtain ⟨-, -, n, -, rfl⟩ := serve_started.mp ⟨es, hup⟩
      exact run_uses us (readyEnv_owns l s m n)
  · rw [h]
    exact ⟨fun _ l s name hasks => absurd hasks (hno _ _ _), fun _ => .nil⟩

end BootIff

end Transocks

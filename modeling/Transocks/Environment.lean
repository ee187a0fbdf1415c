import Transocks.Basic
import Transocks.Lib.Tenure

/-!
# The environment: `context.c`, `signal.c` and the start of `listener.c`

The part of the program that is not about one client: the environment record, the signal events and
the listening socket. Each function gives the calls it makes on the objects of the process, in
order. An event rests on the event base, and everything a field of the record points to rests on
the record.

`globalEnvFree` undoes whatever was set up: from every state of the record it releases what the
record leads to, each object once and before what it rests on.
-/

namespace Transocks

open Tenure Runs

inductive Sig
  | term | int | hup | usr1
  deriving DecidableEq, Repr

/-- What the process owns besides its clients. -/
inductive Res
  | env | bindAddr | relayAddr | base | listener | listenerFd | listenerEv | pumpMethodName
  | sigEv (s : Sig)
  deriving DecidableEq, Repr

def Res.rests : Res → Set Res
  | .env => ∅
  | .listenerFd => ∅
  | .listenerEv => {.listener, .listenerFd, .base}
  | .sigEv _ => {.env, .base}
  | _ => {.env}

/-- `transocks_listener`. -/
structure TransocksListener where
  listenerFd : Fd
  listenerEv : Bool
  deriving DecidableEq, Repr

/-- `transocks_global_env`; a pointer to an object of libevent is `true` when it is not null. -/
structure GlobalEnv where
  pumpMethodName : Option String
  bindAddr : Option SockAddr
  relayAddr : Option SockAddr
  bindAddrLen : ℕ
  relayAddrLen : ℕ
  eventBaseLoop : Bool
  listener : Option TransocksListener
  sigEv : Sig → Bool

/-- The results of the calls of `transocks_global_env_new`, `true` for success. -/
structure EnvCalls where
  callocEnv : Bool
  callocBindAddr : Bool
  callocRelayAddr : Bool
  eventBaseNew : Bool
  deriving DecidableEq, Repr

structure SignalCalls where
  evsignalNew : Sig → Bool
  evsignalAdd : Sig → Bool

structure ListenCalls where
  socket : Option ℕ
  reuseaddr : Bool
  reuseport : Bool
  nonblock : Bool
  ipv6only : Bool
  bind : Bool
  listen : Bool
  malloc : Bool
  eventNew : Bool
  eventAdd : Bool
  deriving DecidableEq, Repr

/-! ## The functions -/

/-- An allocation that may fail. -/
def allocCalls (ok : Bool) (r : Res) : List (Call Res) := if ok then [.acquire r] else []

def freeCalls (present : Bool) (r : Res) : List (Call Res) := if present then [.release r] else []

/-- The record as `tr_calloc` returns it, with the pointers to the addresses and to the base. -/
def GlobalEnv.new (bind relay base : Bool) : GlobalEnv where
  pumpMethodName := none
  bindAddr := if bind then some (.other 0) else none
  relayAddr := if relay then some (.other 0) else none
  bindAddrLen := 0
  relayAddrLen := 0
  eventBaseLoop := base
  listener := none
  sigEv := fun _ => false

/-- The label `fail` of `transocks_global_env_new`. -/
def globalEnvFail (env : GlobalEnv) : List (Call Res) :=
  freeCalls env.bindAddr.isSome .bindAddr ++ freeCalls env.relayAddr.isSome .relayAddr ++
    freeCalls env.eventBaseLoop .base ++ [.release .env]

/-- `transocks_global_env_new`. When the record itself cannot be allocated, the label `fail` reads
`env->bind_addr` through the null pointer. -/
def globalEnvNew (k : EnvCalls) : Option GlobalEnv × List (Call Res) :=
  if !k.callocEnv then (none, [.fault])
  else
    let es := [.acquire .env] ++ allocCalls k.callocBindAddr .bindAddr ++
      allocCalls k.callocRelayAddr .relayAddr
    if !(k.callocBindAddr && k.callocRelayAddr) then
      (none, es ++ globalEnvFail (.new k.callocBindAddr k.callocRelayAddr false))
    else if !k.eventBaseNew then (none, es ++ globalEnvFail (.new true true false))
    else (some (.new true true true), es ++ [.acquire .base])

/-- `evsignal_new` for each of `ss`. -/
def signalNews (new : Sig → Bool) (ss : List Sig) : List (Call Res) :=
  ss.flatMap fun s => .use .base :: allocCalls (new s) (.sigEv s)

/-- `evsignal_add` for each of `ss`, up to the first that fails. -/
def signalAdds (add : Sig → Bool) : List Sig → Bool × List (Call Res)
  | [] => (true, [])
  | s :: ss =>
    if add s then ((signalAdds add ss).1, .use (.sigEv s) :: (signalAdds add ss).2)
    else (false, [.use (.sigEv s)])

/-- The order in which `signal_init` goes through the signals. -/
def initOrder : List Sig := [.term, .int, .hup, .usr1]

/-- `signal_init`. -/
def signalInit (env : GlobalEnv) (k : SignalCalls) : GlobalEnv × Bool × List (Call Res) :=
  let env := { env with sigEv := k.evsignalNew }
  let es := signalNews k.evsignalNew initOrder
  if !initOrder.all k.evsignalNew then (env, false, es)
  else (env, (signalAdds k.evsignalAdd initOrder).1, es ++ (signalAdds k.evsignalAdd initOrder).2)

/-- `evsignal_del` and `event_free` for each of `ss` that exists. -/
def signalFrees (env : GlobalEnv) (ss : List Sig) : List (Call Res) :=
  ss.flatMap fun s => if env.sigEv s then [.use (.sigEv s), .release (.sigEv s)] else []

/-- `signal_deinit`. -/
def signalDeinit (env : GlobalEnv) : GlobalEnv × List (Call Res) :=
  ({ env with sigEv := fun _ => false }, signalFrees env [.int, .term, .hup, .usr1])

/-- `listener_deinit`. -/
def listenerDeinit (env : GlobalEnv) : GlobalEnv × List (Call Res) :=
  match env.listener with
  | none => (env, [])
  | some l =>
    ({ env with listener := none },
      (if l.listenerEv then [.use .listenerEv, .release .listenerEv] else []) ++
        (if 0 ≤ l.listenerFd then [.release .listenerFd] else []) ++ [.release .listener])

/-- The calls of `listener_init` between `socket` and `tr_malloc` all succeed. -/
def ListenCalls.listens (k : ListenCalls) (env : GlobalEnv) : Bool :=
  k.reuseaddr && k.reuseport && k.nonblock &&
    (match env.bindAddr with
      | some (.inet6 _ _) => k.ipv6only
      | _ => true) && k.bind && k.listen

/-- `listener_init`. After `listener_deinit` has closed the descriptor in the record, the label
`closeFd` closes the local one. -/
def listenerInit (env : GlobalEnv) (k : ListenCalls) : GlobalEnv × Bool × List (Call Res) :=
  match k.socket with
  | none => (env, false, [])
  | some n =>
    if !k.listens env then (env, false, [.acquire .listenerFd, .release .listenerFd])
    else if !k.malloc then
      let env := { env with listener := none }
      ((listenerDeinit env).1, false,
        [.acquire .listenerFd] ++ (listenerDeinit env).2 ++ [.release .listenerFd])
    else
      let env := { env with listener := some ⟨n, k.eventNew⟩ }
      let es := [.acquire .listenerFd, .acquire .listener] ++ allocCalls k.eventNew .listenerEv
      let fs := if k.eventNew then [.use .listenerEv] else []
      if !(k.eventNew && k.eventAdd) then
        ((listenerDeinit env).1, false,
          es ++ fs ++ (listenerDeinit env).2 ++ [.release .listenerFd])
      else (env, true, es ++ fs)

/-- `transocks_global_env_free`. -/
def globalEnvFree (env : GlobalEnv) : List (Call Res) :=
  freeCalls env.pumpMethodName.isSome .pumpMethodName ++
    freeCalls env.relayAddr.isSome .relayAddr ++ freeCalls env.bindAddr.isSome .bindAddr ++
    (listenerDeinit env).2 ++ (signalDeinit env).2 ++ freeCalls env.eventBaseLoop .base ++
    [.release .env]

/-! ## What the record leads to -/

def GlobalEnv.LeadsTo (env : GlobalEnv) : Res → Prop
  | .env => True
  | .bindAddr => env.bindAddr.isSome
  | .relayAddr => env.relayAddr.isSome
  | .base => env.eventBaseLoop
  | .listener => env.listener.isSome
  | .listenerFd => ∃ l, env.listener = some l ∧ 0 ≤ l.listenerFd
  | .listenerEv => ∃ l, env.listener = some l ∧ l.listenerEv
  | .pumpMethodName => env.pumpMethodName.isSome
  | .sigEv s => env.sigEv s

def GlobalEnv.owns (env : GlobalEnv) : Set Res := {r | env.LeadsTo r}

@[simp] theorem GlobalEnv.mem_owns {env : GlobalEnv} {r : Res} :
    r ∈ env.owns ↔ env.LeadsTo r := Iff.rfl

/-- The calls `es` are right, and lead from what `env` owns to what `env'` owns. -/
def Orderly (env : GlobalEnv) (es : List (Call Res)) (env' : GlobalEnv) : Prop :=
  Run (Step Res.rests) env.owns es env'.owns

/-- The pointer to the event of `s` is set. -/
def GlobalEnv.setSig (env : GlobalEnv) (s : Sig) (b : Bool) : GlobalEnv :=
  { env with sigEv := Function.update env.sigEv s b }

section Signals

variable {env : GlobalEnv} {s : Sig} {ss : List Sig} {b : Bool}

theorem setSig_ne {t : Sig} (h : t ≠ s) : (env.setSig s b).sigEv t = env.sigEv t :=
  Function.update_of_ne h ..

theorem leadsTo_setSig {r : Res} (h : r ≠ .sigEv s) :
    (env.setSig s b).LeadsTo r ↔ env.LeadsTo r := by
  cases r with
  | sigEv t =>
    have hne : t ≠ s := fun he => h (he ▸ rfl)
    simp [GlobalEnv.LeadsTo, setSig_ne hne]
  | _ => exact Iff.rfl

theorem leadsTo_setSig_same : (env.setSig s b).LeadsTo (.sigEv s) ↔ b = true := by
  simp [GlobalEnv.LeadsTo, GlobalEnv.setSig]

theorem orderly_evsignalNew (hb : env.eventBaseLoop = true) (hs : env.sigEv s = false) :
    Orderly env (.use .base :: allocCalls b (.sigEv s)) (env.setSig s b) := by
  have huse : Run (Step Res.rests) env.owns [.use .base] env.owns := .one (.use hb)
  refine huse.trans (run_acquire_if (fun _ h => ?_) (fun _ x hx => ?_) fun x => ?_)
  · exact absurd (hs.symm.trans h) (by decide)
  · rcases hx with rfl | rfl
    · trivial
    · exact hb
  · by_cases hx : x = .sigEv s
    · subst hx
      have hno : ¬ env.LeadsTo (.sigEv s) := by simp [GlobalEnv.LeadsTo, hs]
      simp [leadsTo_setSig_same, hno]
    · simp [leadsTo_setSig hx, hx]

theorem orderly_signalNews (new : Sig → Bool) (hb : env.eventBaseLoop = true) (hn : ss.Nodup)
    (hs : ∀ s ∈ ss, env.sigEv s = false) :
    Orderly env (signalNews new ss)
      { env with sigEv := fun s => if s ∈ ss then new s else env.sigEv s } := by
  induction ss generalizing env with
  | nil => exact .nil
  | cons s ss ih =>
    obtain ⟨hs', hn⟩ := List.nodup_cons.mp hn
    have hrest := @ih (env.setSig s (new s)) hb hn fun t ht => by
      have hne : t ≠ s := fun he => hs' (he ▸ ht)
      rw [setSig_ne hne]
      exact hs t (List.mem_cons_of_mem s ht)
    have hsame : (fun t => if t ∈ ss then new t else (env.setSig s (new s)).sigEv t) =
        fun t => if t ∈ s :: ss then new t else env.sigEv t := by
      funext t
      by_cases ht : t = s
      · subst ht
        simp [hs', GlobalEnv.setSig]
      · simp [ht, setSig_ne ht]
    have hnew := orderly_evsignalNew (b := new s) hb (hs s (by simp))
    rw [← hsame]
    exact hnew.trans hrest

theorem orderly_signalAdds (add : Sig → Bool) (hs : ∀ s ∈ ss, env.sigEv s = true) :
    Orderly env (signalAdds add ss).2 env := by
  induction ss with
  | nil => exact .nil
  | cons s ss ih =>
    have huse : Run (Step Res.rests) env.owns [.use (.sigEv s)] env.owns :=
      .one (.use (hs s (by simp)))
    unfold signalAdds
    split
    · exact huse.trans (ih fun t ht => hs t (List.mem_cons_of_mem s ht))
    · exact huse

theorem orderly_event_free :
    Orderly env (if env.sigEv s then [.use (.sigEv s), .release (.sigEv s)] else [])
      (env.setSig s false) := by
  have hno : ¬ (env.setSig s false).LeadsTo (.sigEv s) := by simp [leadsTo_setSig_same]
  split
  · rename_i hs
    have huse : Run (Step Res.rests) env.owns [.use (.sigEv s)] env.owns := .one (.use hs)
    refine huse.trans (run_release hs (fun x _ => ?_) fun x => ?_)
    · cases x <;> simp [Res.rests]
    · by_cases hx : x = .sigEv s
      · subst hx
        simp [hno]
      · simp [leadsTo_setSig hx, hx]
  · rename_i hs
    have hsame : env.setSig s false = env := by
      have hf : env.sigEv s = false := by simpa using hs
      unfold GlobalEnv.setSig
      rw [← hf, Function.update_eq_self]
    rw [hsame]
    exact .nil

theorem orderly_signalFrees (hn : ss.Nodup) :
    Orderly env (signalFrees env ss)
      { env with sigEv := fun s => if s ∈ ss then false else env.sigEv s } := by
  induction ss generalizing env with
  | nil => exact .nil
  | cons s ss ih =>
    obtain ⟨hs, hn⟩ := List.nodup_cons.mp hn
    have hfrees : signalFrees (env.setSig s false) ss = signalFrees env ss := by
      refine List.flatMap_congr fun t ht => ?_
      have hne : t ≠ s := fun he => hs (he ▸ ht)
      rw [setSig_ne hne]
    have hrest := @ih (env.setSig s false) hn
    have hsame : (fun t => if t ∈ ss then false else (env.setSig s false).sigEv t) =
        fun t => if t ∈ s :: ss then false else env.sigEv t := by
      funext t
      by_cases ht : t = s
      · subst ht
        simp [hs, GlobalEnv.setSig]
      · simp [ht, setSig_ne ht]
    rw [hfrees] at hrest
    rw [← hsame]
    exact orderly_event_free.trans hrest

/-- **`signal_init`**, whether it fails or not. -/
theorem orderly_signalInit (k : SignalCalls) (hb : env.eventBaseLoop = true)
    (hs : ∀ s, env.sigEv s = false) :
    Orderly env (signalInit env k).2.2 (signalInit env k).1 := by
  have hall : ∀ s, s ∈ initOrder := fun s => by cases s <;> decide
  have hnews := @orderly_signalNews env initOrder k.evsignalNew hb (by decide) fun s _ => hs s
  have hsame : (fun s => if s ∈ initOrder then k.evsignalNew s else env.sigEv s) =
      k.evsignalNew := funext fun s => if_pos (hall s)
  rw [hsame] at hnews
  unfold signalInit
  simp only
  split
  · exact hnews
  · rename_i hok
    refine hnews.trans (orderly_signalAdds _ fun s _ => ?_)
    have hok' : initOrder.all k.evsignalNew = true := by simpa using hok
    exact List.all_eq_true.mp hok' s (hall s)

/-- **`signal_deinit`.** -/
theorem orderly_signalDeinit (env : GlobalEnv) :
    Orderly env (signalDeinit env).2 (signalDeinit env).1 := by
  have hfrees := @orderly_signalFrees env [.int, .term, .hup, .usr1] (by decide)
  have hsame : (fun s => if s ∈ ([.int, .term, .hup, .usr1] : List Sig) then false
      else env.sigEv s) = fun _ => false := by
    funext s
    cases s <;> simp
  rw [hsame] at hfrees
  exact hfrees

end Signals

/-! ## The listener -/

section Listener

variable {env : GlobalEnv} {l : TransocksListener}

/-- **`listener_deinit`.** -/
theorem orderly_listenerDeinit (env : GlobalEnv) :
    Orderly env (listenerDeinit env).2 (listenerDeinit env).1 := by
  unfold listenerDeinit
  cases hl : env.listener with
  | none => exact .nil
  | some l =>
    simp only
    -- the event, then the descriptor, then the record
    have hev : Orderly env (if l.listenerEv then [.use .listenerEv, .release .listenerEv] else [])
        { env with listener := some { l with listenerEv := false } } := by
      split
      · rename_i he
        have hown : Res.listenerEv ∈ env.owns := ⟨l, hl, he⟩
        have huse : Run (Step Res.rests) env.owns [.use .listenerEv] env.owns := .one (.use hown)
        refine huse.trans (run_release hown (fun x _ => ?_) fun x => ?_)
        · cases x <;> simp [Res.rests]
        · cases x <;> simp [GlobalEnv.LeadsTo, hl]
      · rename_i he
        have hsame : { env with listener := some { l with listenerEv := false } } = env := by
          have hf : l.listenerEv = false := by simpa using he
          rw [← hf, ← hl]
        rw [hsame]
        exact .nil
    have hfd : Orderly { env with listener := some { l with listenerEv := false } }
        (if 0 ≤ l.listenerFd then [.release .listenerFd] else [])
        { env with listener := some ⟨-1, false⟩ } := by
      refine run_release_if (by simp [GlobalEnv.LeadsTo]) (fun x hx => ?_) fun x => ?_
      · cases x <;> simp_all [Res.rests, GlobalEnv.LeadsTo]
      · cases x <;> simp [GlobalEnv.LeadsTo]
    have hrec : Orderly { env with listener := some ⟨-1, false⟩ } [.release .listener]
        { env with listener := none } := by
      refine run_release rfl (fun x hx => ?_) fun x => ?_
      · cases x <;> simp_all [Res.rests, GlobalEnv.LeadsTo]
      · cases x <;> simp [GlobalEnv.LeadsTo]
    exact (hev.trans hfd).trans hrec

theorem listenerDeinit_fst (env : GlobalEnv) :
    (listenerDeinit env).1 = { env with listener := none } := by
  unfold listenerDeinit
  cases hl : env.listener with
  | none => simp only [← hl]
  | some l => rfl

theorem listenerDeinit_congr {env' : GlobalEnv} (h : env'.listener = env.listener) :
    (listenerDeinit env').2 = (listenerDeinit env).2 := by
  unfold listenerDeinit
  rw [h]
  cases env.listener <;> rfl

end Listener

/-! ## Releasing the environment -/

section Free

variable {env env' : GlobalEnv} {r : Res} {b : Bool}

/-- An object that only a field of the record points to and that nothing rests on. -/
theorem orderly_free (hb : b = true ↔ env.LeadsTo r) (hr : ∀ x, env.LeadsTo x → r ∉ x.rests)
    (hH : ∀ x, env'.LeadsTo x ↔ env.LeadsTo x ∧ x ≠ r) : Orderly env (freeCalls b r) env' :=
  run_release_if hb hr hH

/-- **`transocks_global_env_free`** undoes whatever was set up. -/
theorem run_globalEnvFree (env : GlobalEnv) :
    Run (Step Res.rests) env.owns (globalEnvFree env) ∅ := by
  let env₁ : GlobalEnv := { env with pumpMethodName := none }
  let env₂ : GlobalEnv := { env₁ with relayAddr := none }
  let env₃ : GlobalEnv := { env₂ with bindAddr := none }
  let env₄ : GlobalEnv := { env₃ with listener := none }
  let env₅ : GlobalEnv := { env₄ with sigEv := fun _ => false }
  let env₆ : GlobalEnv := { env₅ with eventBaseLoop := false }
  have h₁ : Orderly env (freeCalls env.pumpMethodName.isSome .pumpMethodName) env₁ := by
    refine orderly_free Iff.rfl (fun x _ => ?_) fun x => ?_ <;>
      cases x <;> simp [Res.rests, GlobalEnv.LeadsTo, env₁]
  have h₂ : Orderly env₁ (freeCalls env.relayAddr.isSome .relayAddr) env₂ := by
    refine orderly_free Iff.rfl (fun x _ => ?_) fun x => ?_ <;>
      cases x <;> simp [Res.rests, GlobalEnv.LeadsTo, env₁, env₂]
  have h₃ : Orderly env₂ (freeCalls env.bindAddr.isSome .bindAddr) env₃ := by
    refine orderly_free Iff.rfl (fun x _ => ?_) fun x => ?_ <;>
      cases x <;> simp [Res.rests, GlobalEnv.LeadsTo, env₁, env₂, env₃]
  have h₄ : Orderly env₃ (listenerDeinit env).2 env₄ := by
    have h := orderly_listenerDeinit env₃
    have hcalls : (listenerDeinit env₃).2 = (listenerDeinit env).2 := listenerDeinit_congr rfl
    rwa [listenerDeinit_fst, hcalls] at h
  have h₅ : Orderly env₄ (signalDeinit env).2 env₅ := orderly_signalDeinit env₄
  have h₆ : Orderly env₅ (freeCalls env.eventBaseLoop .base) env₆ := by
    refine orderly_free Iff.rfl (fun x hx => ?_) fun x => ?_ <;>
      cases x <;> simp_all [Res.rests, GlobalEnv.LeadsTo, env₄, env₅, env₆]
  have h₇ : Run (Step Res.rests) env₆.owns [.release .env] ∅ := by
    refine run_release trivial (fun x hx => ?_) fun x => ?_ <;>
      cases x <;> simp_all [Res.rests, GlobalEnv.LeadsTo, env₁, env₂, env₃, env₄, env₅, env₆]
  exact (((((h₁.trans h₂).trans h₃).trans h₄).trans h₅).trans h₆).trans h₇

end Free

/-! ## Setting the environment up -/

section New

variable {env : GlobalEnv}

/-- The label `fail` leaves nothing. -/
theorem run_globalEnvFail (bind relay : Bool) :
    Run (Step Res.rests) (GlobalEnv.new bind relay false).owns
      (globalEnvFail (.new bind relay false)) ∅ := by
  have h₁ : Orderly (.new bind relay false)
      (freeCalls (GlobalEnv.new bind relay false).bindAddr.isSome .bindAddr)
      (.new false relay false) := by
    refine orderly_free Iff.rfl (fun x _ => ?_) fun x => ?_ <;>
      cases x <;> simp [Res.rests, GlobalEnv.LeadsTo, GlobalEnv.new]
  have h₂ : Orderly (.new false relay false)
      (freeCalls (GlobalEnv.new bind relay false).relayAddr.isSome .relayAddr)
      (.new false false false) := by
    refine orderly_free Iff.rfl (fun x _ => ?_) fun x => ?_ <;>
      cases x <;> simp [Res.rests, GlobalEnv.LeadsTo, GlobalEnv.new]
  have h₃ : Run (Step Res.rests) (GlobalEnv.new false false false).owns [.release .env] ∅ := by
    refine run_release trivial (fun x hx => ?_) fun x => ?_ <;>
      cases x <;> simp_all [Res.rests, GlobalEnv.LeadsTo, GlobalEnv.new]
  have hbase : Orderly (.new false false false) (freeCalls false .base) (.new false false false) :=
    .nil
  exact ((h₁.trans h₂).trans hbase).trans h₃

/-- **`transocks_global_env_new`** leaves the record it returns, or nothing. -/
theorem run_globalEnvNew {k : EnvCalls} (hk : k.callocEnv = true) :
    Run (Step Res.rests) ∅ (globalEnvNew k).2
      (((globalEnvNew k).1.map GlobalEnv.owns).getD ∅) := by
  have h₀ : Run (Step Res.rests) ∅ [.acquire .env] (GlobalEnv.new false false false).owns := by
    refine run_acquire (Set.notMem_empty _) (Set.empty_subset _) fun x => ?_
    cases x <;> simp [GlobalEnv.LeadsTo, GlobalEnv.new]
  have h₁ : Orderly (.new false false false) (allocCalls k.callocBindAddr .bindAddr)
      (.new k.callocBindAddr false false) := by
    refine run_acquire_if (fun _ => ?_) (fun _ => ?_) fun x => ?_
    · simp [GlobalEnv.LeadsTo, GlobalEnv.new]
    · simp [Res.rests, GlobalEnv.LeadsTo]
    · cases x <;> simp [GlobalEnv.LeadsTo, GlobalEnv.new]
  have h₂ : Orderly (.new k.callocBindAddr false false)
      (allocCalls k.callocRelayAddr .relayAddr)
      (.new k.callocBindAddr k.callocRelayAddr false) := by
    refine run_acquire_if (fun _ => ?_) (fun _ => ?_) fun x => ?_
    · simp [GlobalEnv.LeadsTo, GlobalEnv.new]
    · simp [Res.rests, GlobalEnv.LeadsTo]
    · cases x <;> simp [GlobalEnv.LeadsTo, GlobalEnv.new]
  have h₁₂ := (h₀.trans h₁).trans h₂
  unfold globalEnvNew
  rw [if_neg (by simp [hk])]
  simp only
  split
  · exact h₁₂.trans (run_globalEnvFail _ _)
  · rename_i hok
    obtain ⟨hbind, hrelay⟩ : k.callocBindAddr = true ∧ k.callocRelayAddr = true := by
      simpa using hok
    rw [hbind, hrelay] at h₁₂ ⊢
    split
    · exact h₁₂.trans (run_globalEnvFail true true)
    · refine h₁₂.trans (run_acquire ?_ ?_ fun x => ?_)
      · simp [GlobalEnv.LeadsTo, GlobalEnv.new]
      · simp [Res.rests, GlobalEnv.LeadsTo]
      · cases x <;> simp [GlobalEnv.LeadsTo, GlobalEnv.new]

end New

section Listen

variable {env : GlobalEnv} {k : ListenCalls}

/-- `listener_init` gets as far as the record of the listener, and its event cannot be created or
added. -/
def ListenCalls.slips (k : ListenCalls) (env : GlobalEnv) : Bool :=
  k.socket.isSome && k.listens env && k.malloc && !(k.eventNew && k.eventAdd)

/-- The socket while only the local variable holds it. -/
def withSocket (env : GlobalEnv) : Set Res := insert .listenerFd env.owns

theorem run_socket (hl : env.listener = none) :
    Run (Step Res.rests) env.owns [.acquire .listenerFd] (withSocket env) := by
  refine run_acquire ?_ (Set.empty_subset _) fun x => Set.mem_insert_iff
  simp [GlobalEnv.LeadsTo, hl]

theorem run_closeFd (hl : env.listener = none) :
    Run (Step Res.rests) (withSocket env) [.release .listenerFd] env.owns := by
  have hno : ¬ env.LeadsTo .listenerFd := by simp [GlobalEnv.LeadsTo, hl]
  have hnoev : ¬ env.LeadsTo .listenerEv := by simp [GlobalEnv.LeadsTo, hl]
  refine run_release (Set.mem_insert _ _) (fun x hx => ?_) fun x => ?_
  · rcases Set.mem_insert_iff.mp hx with rfl | hx
    · simp [Res.rests]
    · cases x <;> simp_all [Res.rests]
  · by_cases hx : x = .listenerFd
    · subst hx
      simp [hno]
    · simp [withSocket, hx]

/-- The record of the listener takes the socket over, and its event is created. -/
theorem run_listener (hl : env.listener = none) (hb : env.eventBaseLoop = true) (n : ℕ)
    (ev : Bool) : Run (Step Res.rests) (withSocket env)
      ([.acquire .listener] ++ allocCalls ev .listenerEv ++ if ev then [.use .listenerEv] else [])
      { env with listener := some ⟨n, ev⟩ }.owns := by
  have h₁ : Run (Step Res.rests) (withSocket env) [.acquire .listener]
      { env with listener := some ⟨n, false⟩ }.owns := by
    refine run_acquire ?_ ?_ fun x => ?_
    · simp [withSocket, GlobalEnv.LeadsTo, hl]
    · simp [Res.rests, withSocket, GlobalEnv.LeadsTo]
    · cases x <;> simp [withSocket, GlobalEnv.LeadsTo, hl]
  have h₂ : Orderly { env with listener := some ⟨n, false⟩ } (allocCalls ev .listenerEv)
      { env with listener := some ⟨n, ev⟩ } := by
    refine run_acquire_if (fun _ => ?_) (fun _ => ?_) fun x => ?_
    · simp [GlobalEnv.LeadsTo]
    · intro x hx
      rcases hx with rfl | rfl | rfl <;> simp [GlobalEnv.LeadsTo, hb]
    · cases x <;> simp [GlobalEnv.LeadsTo]
  refine (h₁.trans h₂).trans ?_
  split
  · rename_i he
    exact .one (.use ⟨_, rfl, he⟩)
  · exact .nil

/-- **`listener_init`** without a slip. -/
theorem orderly_listenerInit (hl : env.listener = none) (hb : env.eventBaseLoop = true)
    (hk : k.slips env = false) : Orderly env (listenerInit env k).2.2 (listenerInit env k).1 := by
  have hdone := (run_socket hl).trans (run_closeFd hl)
  unfold listenerInit
  cases hs : k.socket with
  | none => exact .nil
  | some n =>
    simp only
    by_cases hlisten : (!k.listens env) = true
    · rw [if_pos hlisten]
      exact hdone
    rw [if_neg hlisten]
    by_cases hmalloc : (!k.malloc) = true
    · have hsame : { env with listener := none } = env := by rw [← hl]
      rw [if_pos hmalloc, hsame, listenerDeinit, hl]
      exact hdone
    rw [if_neg hmalloc]
    by_cases hev : (!(k.eventNew && k.eventAdd)) = true
    · have hslip : k.slips env = true := by simp_all [ListenCalls.slips]
      exact absurd (hslip.symm.trans hk) (by decide)
    rw [if_neg hev]
    have h := (run_socket hl).trans (run_listener hl hb n k.eventNew)
    rw [← List.append_assoc, ← List.append_assoc] at h
    exact h

/-- **A slip of `listener_init`** closes the socket twice: the last call is for a descriptor that
does not exist any more. -/
theorem listenerInit_slips (hl : env.listener = none) (hb : env.eventBaseLoop = true)
    (hk : k.slips env = true) : (listenerInit env k).2.1 = false ∧
      ∃ us, (listenerInit env k).2.2 = us ++ [.release .listenerFd] ∧ Orderly env us env := by
  simp only [ListenCalls.slips, Bool.and_eq_true] at hk
  obtain ⟨⟨⟨hs, hlisten⟩, hmalloc⟩, hev⟩ := hk
  obtain ⟨n, hs⟩ := Option.isSome_iff_exists.mp hs
  have hup := (run_socket hl).trans (run_listener hl hb n k.eventNew)
  have hdown := orderly_listenerDeinit { env with listener := some ⟨n, k.eventNew⟩ }
  have hsame : { env with listener := none } = env := by rw [← hl]
  rw [listenerDeinit_fst, hsame] at hdown
  unfold listenerInit
  simp only [hs]
  rw [if_neg (by simp [hlisten]), if_neg (by simp [hmalloc]), if_pos hev]
  refine ⟨rfl, _, rfl, ?_⟩
  have h := hup.trans hdown
  rw [← List.append_assoc, ← List.append_assoc] at h
  exact h

end Listen

end Transocks

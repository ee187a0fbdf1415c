import Transocks.Clients

/-!
# One client among many

The clients share the event loop, the descriptor table and the list, and nothing else: a callback
reads and writes the record it was registered for. `world_projects` says so for whole runs: whatever
the loop did, every client went through a run of `LifeStep` of its own, from its accept on, with
exactly the turns the loop gave it.

The world empties the list `out` of a record after each step, a run of `LifeStep` keeps it. So the
first part shows that no function of the source reads what was done before.
-/

namespace Transocks

open Circular Runs

/-! ## No function reads the calls made before -/

/-- The same client, when the calls `es` were made before. -/
def Conn.prior (es : List Effect) (c : Conn) : Conn := { c with out := es ++ c.out }

section Prior

variable (es : List Effect) (c : Conn)

@[simp] theorem prior_ends : (c.prior es).ends = c.ends := rfl
@[simp] theorem prior_timeoutEv : (c.prior es).timeoutEv = c.timeoutEv := rfl
@[simp] theorem prior_userArg : (c.prior es).userArg = c.userArg := rfl
@[simp] theorem prior_destAddr : (c.prior es).destAddr = c.destAddr := rfl
@[simp] theorem prior_released : (c.prior es).released = c.released := rfl

theorem prior_emits (fs : List Effect) : (c.prior es).emits fs = (c.emits fs).prior es := by
  unfold Conn.prior Conn.emits
  simp only [List.append_assoc]

end Prior

/-- The function does not read the calls that were made before. -/
def Blind (g : Conn → Conn) : Prop := ∀ es c, g (c.prior es) = (g c).prior es

theorem Blind.ite {p : Conn → Prop} [DecidablePred p] {g h : Conn → Conn}
    (hp : ∀ es c, p (c.prior es) ↔ p c) (hg : Blind g) (hh : Blind h) :
    Blind fun c => if p c then g c else h c := by
  intro es c
  show (if p (c.prior es) then g (c.prior es) else h (c.prior es)) =
    (if p c then g c else h c).prior es
  by_cases hc : p c
  · rw [if_pos ((hp es c).mpr hc), if_pos hc, hg]
  · rw [if_neg fun h => hc ((hp es c).mp h), if_neg hc, hh]

theorem Blind.comp {g h : Conn → Conn} (hg : Blind g) (hh : Blind h) : Blind fun c => g (h c) := by
  intro es c
  show g (h (c.prior es)) = (g (h c)).prior es
  rw [hh, hg]

theorem blind_id : Blind fun c => c := fun _ _ => rfl

theorem blind_emits (fs : List Effect) : Blind fun c => c.emits fs := fun es c =>
  prior_emits es c fs

theorem Blind.touch {g : Conn → Conn} (h : Blind g) : Blind fun c => c.touch g :=
  Blind.ite (p := fun c => c.released = true) (fun _ _ => Iff.rfl) (blind_emits _) h

theorem Blind.withTimerDeleted {g : Conn → Conn} (h : Blind g) :
    Blind fun c => withTimerDeleted c g := by
  intro es c
  show Transocks.withTimerDeleted (c.prior es) g = (Transocks.withTimerDeleted c g).prior es
  unfold Transocks.withTimerDeleted
  cases ht : c.timeoutEv with
  | none =>
    simp only [prior_timeoutEv, ht]
    exact prior_emits es c _
  | some ev =>
    simp only [prior_timeoutEv, ht]
    exact h es { c with timeoutEv := some ev.del }

theorem blind_clientFree : Blind clientFree := by
  refine Blind.ite (p := fun c => c.released = true) (fun _ _ => Iff.rfl) (blind_emits _) ?_
  refine Blind.ite (p := fun c => c.clientState = .destroyed ∨ c.clientState = .destroying)
    (fun _ _ => Iff.rfl) blind_id fun es c => ?_
  have heff : clientFreeEffects (c.prior es) = clientFreeEffects c := rfl
  rw [heff]
  unfold Conn.prior
  simp only [List.append_assoc]

theorem blind_clientSetTimeout (k : TimerCalls) : Blind fun c => clientSetTimeout c k := by
  refine Blind.touch fun es c => ?_
  cases ht : c.timeoutEv with
  | none =>
    simp only [prior_timeoutEv, ht]
    split_ifs
    · unfold Conn.prior
      simp only [List.append_assoc]
    · rfl
  | some ev =>
    simp only [prior_timeoutEv, ht]
    rfl

/-! ### The splice pump -/

theorem blind_splicepumpFree : Blind splicepumpFree := by
  refine Blind.touch fun es c => ?_
  cases hp : c.userArg with
  | none => simp only [prior_userArg, hp]
  | some p =>
    simp only [prior_userArg, hp]
    have hunwound : splicepumpUnwound (c.prior es) p = (splicepumpUnwound c p).prior es := by
      unfold splicepumpUnwound Conn.prior
      simp only [List.append_assoc]
    rw [hunwound]
    exact blind_clientFree es _

theorem blind_checkNormalTermination (d : Direction) :
    Blind fun c => checkNormalTermination c d :=
  Blind.touch (Blind.ite (p := fun c => normalTermination c d = true) (fun _ _ => Iff.rfl)
    blind_splicepumpFree blind_id)

theorem blind_writeToPipeRest (d : Direction) (p : Splicepump) (r : SpliceResult) :
    Blind fun c => writeToPipeRest c d p r := by
  have hcheck := blind_checkNormalTermination d
  cases r with
  | normalTransfer n => exact hcheck.comp fun _ _ => rfl
  | canRetry => exact Blind.ite (fun _ _ => Iff.rfl) (hcheck.comp fun _ _ => rfl) hcheck
  | fatalFailure => exact blind_splicepumpFree
  | readEof =>
    have heof : Blind fun c => writeToPipeEof c d p := fun es c =>
      prior_emits es (((c.setReadFlag d).setKern d { c.kern d with writeOpen := false }).setPump
        (p.setReadEv d ((p.readEv d).map Event.del))) _
    exact hcheck.comp heof

theorem blind_writeToPipe (d : Direction) (k : Splice) : Blind fun c => writeToPipe c d k := by
  refine Blind.touch fun es c => ?_
  cases hp : c.userArg with
  | none =>
    simp only [prior_userArg, hp]
    exact prior_emits es c _
  | some p =>
    simp only [prior_userArg, hp]
    have hrest : Blind fun c =>
        writeToPipeRest (c.setKern d ((c.kern d).spliceIn k)) d p (singleSplice k) :=
      (blind_writeToPipeRest d p (singleSplice k)).comp fun _ _ => rfl
    exact Blind.ite (p := fun c => (isInvalidFd (c.ends d.source).fd ||
      isInvalidFd (p.pipe d).pipeWritefd) = true) (fun _ _ => Iff.rfl) blind_splicepumpFree hrest
      es c

theorem blind_readFromPipeRest (d : Direction) (p : Splicepump) (r : SpliceResult) :
    Blind fun c => readFromPipeRest c d p r := by
  have hcheck := blind_checkNormalTermination d
  cases r with
  | normalTransfer n => exact hcheck.comp fun _ _ => rfl
  | canRetry => exact hcheck
  | fatalFailure => exact blind_splicepumpFree
  | readEof =>
    have heof : Blind fun c => readFromPipeEof c d p := fun es c =>
      prior_emits es ((c.setWriteFlag d).setKern d { c.kern d with readOpen := false }) _
    exact hcheck.comp heof

theorem blind_readFromPipe (d : Direction) (k : Splice) : Blind fun c => readFromPipe c d k := by
  refine Blind.touch fun es c => ?_
  cases hp : c.userArg with
  | none =>
    simp only [prior_userArg, hp]
    exact prior_emits es c _
  | some p =>
    simp only [prior_userArg, hp]
    have hrest : Blind fun c =>
        readFromPipeRest (c.setKern d ((c.kern d).spliceOut k)) d p (singleSplice k) :=
      (blind_readFromPipeRest d p (singleSplice k)).comp fun _ _ => rfl
    exact Blind.ite (p := fun c => (isInvalidFd (p.pipe d).pipeReadfd ||
      isInvalidFd (c.ends d.target).fd) = true) (fun _ _ => Iff.rfl) blind_splicepumpFree hrest
      es c

/-! ### Starting a pump -/

def Stage.prior (es : List Effect) : Stage → Stage
  | .ok c => .ok (c.prior es)
  | .error c => .error (c.prior es)

def BlindStage (g : Conn → Stage) : Prop := ∀ es c, g (c.prior es) = Stage.prior es (g c)

theorem BlindStage.bind {g h : Conn → Stage} (hg : BlindStage g) (hh : BlindStage h) :
    BlindStage fun c => g c >>= h := by
  intro es c
  show g (c.prior es) >>= h = Stage.prior es (g c >>= h)
  rw [hg]
  cases g c with
  | ok c' => exact hh es c'
  | error c' => rfl

theorem BlindStage.ite {g h : Conn → Stage} (ok : Bool) (hg : BlindStage g) (hh : BlindStage h) :
    BlindStage fun c => if ok then g c else h c := by
  cases ok with
  | false => exact hh
  | true => exact hg

theorem Blind.ok {g : Conn → Conn} (h : Blind g) : BlindStage fun c => .ok (g c) := fun es c =>
  congrArg Except.ok (h es c)

theorem Blind.error {g : Conn → Conn} (h : Blind g) : BlindStage fun c => .error (g c) :=
  fun es c => congrArg Except.error (h es c)

theorem blind_createpipe (d : Direction) (q : PipeCalls) :
    BlindStage fun c => createpipe c d q := by
  unfold createpipe
  cases q.pipe with
  | none => exact blind_id.error
  | some rw =>
    refine BlindStage.ite _ ?_ (blind_emits _).error
    refine Blind.ok fun es c => ?_
    exact prior_emits es ((c.modPump _).setKern d Kern.new) _

theorem blind_pipesizeStage (d : Direction) (q : PipeCalls) :
    BlindStage fun c => pipesizeStage c d q := by
  unfold pipesizeStage
  by_cases h : q.pipesz = -1
  · simp only [if_pos h]
    exact blind_id.error
  · simp only [if_neg h]
    exact Blind.ok fun _ _ => rfl

theorem blind_newReadEvStage (d : Direction) (ok : Bool) :
    BlindStage fun c => newReadEvStage c d ok :=
  BlindStage.ite ok (Blind.ok fun es c => prior_emits es (c.modPump _) _) blind_id.error

theorem blind_newWriteEvStage (d : Direction) (ok : Bool) :
    BlindStage fun c => newWriteEvStage c d ok :=
  BlindStage.ite ok (Blind.ok fun es c => prior_emits es (c.modPump _) _) blind_id.error

theorem blind_addReadEvStage (d : Direction) (ok : Bool) :
    BlindStage fun c => addReadEvStage c d ok :=
  BlindStage.ite ok (Blind.ok fun _ _ => rfl) blind_id.error

theorem blind_addWriteEvStage (d : Direction) (ok : Bool) :
    BlindStage fun c => addWriteEvStage c d ok :=
  BlindStage.ite ok (Blind.ok fun _ _ => rfl) blind_id.error

theorem blind_splicepumpNew (k : StartCalls) : BlindStage fun c => splicepumpNew c k :=
  BlindStage.ite _ blind_id.error <| BlindStage.ite _ (blind_emits _).error <|
    BlindStage.ite _ (blind_emits _).error <|
      Blind.ok fun es c => prior_emits es (c.setPump Splicepump.new) _

theorem blind_splicepumpTakeFds (k : StartCalls) : BlindStage fun c => splicepumpTakeFds c k := by
  have hdisable : ∀ s ok, BlindStage fun c => bevDisableStage c s ok := fun s ok =>
    BlindStage.ite ok (Blind.ok fun _ _ => rfl) blind_id.error
  exact (hdisable .client _).bind ((hdisable .relay _).bind (Blind.ok fun _ _ => rfl))

theorem blind_splicepumpFill (k : StartCalls) : BlindStage fun c => splicepumpFill c k :=
  (blind_createpipe .inbound _).bind <| (blind_createpipe .outbound _).bind <|
    (blind_pipesizeStage .inbound _).bind <| (blind_pipesizeStage .outbound _).bind <|
    (blind_newReadEvStage .outbound _).bind <| (blind_newWriteEvStage .inbound _).bind <|
    (blind_newReadEvStage .inbound _).bind <| (blind_newWriteEvStage .outbound _).bind <|
    (blind_addReadEvStage .outbound _).bind <| (blind_addWriteEvStage .inbound _).bind <|
    (blind_addReadEvStage .inbound _).bind (blind_addWriteEvStage .outbound _)

theorem blind_splicepumpStages (k : StartCalls) : BlindStage fun c => splicepumpStages c k :=
  (blind_splicepumpTakeFds k).bind ((blind_splicepumpNew k).bind (blind_splicepumpFill k))

theorem blind_bufferpumpStages (k : StartCalls) : BlindStage fun c => bufferpumpStages c k := by
  have henable : ∀ s ok, BlindStage fun c => bevEnableStage c s ok := fun s ok =>
    BlindStage.ite ok (Blind.ok fun _ _ => rfl) blind_id.error
  intro es c
  exact ((henable .client _).bind (henable .relay _)) es
    ((c.mapBev .client Bufferevent.forPump).mapBev .relay Bufferevent.forPump)

theorem prior_startPumpFn (m : PumpMethod) (k : StartCalls) (es : List Effect) (c : Conn) :
    startPumpFn m (c.prior es) k =
      ((startPumpFn m c k).1.prior es, (startPumpFn m c k).2) := by
  cases m with
  | splicepump =>
    have hst := blind_splicepumpStages k es c
    unfold startPumpFn splicepumpStartPump
    simp only [hst]
    cases splicepumpStages c k with
    | ok c' => rfl
    | error c' => exact congrArg (·, false) (blind_splicepumpFree es c')
  | bufferpump =>
    have hst := blind_bufferpumpStages k es c
    unfold startPumpFn bufferpumpStartPump
    simp only [hst]
    cases bufferpumpStages c k with
    | ok c' => rfl
    | error c' => rfl

theorem prior_startPump (m : PumpMethod) (k : StartCalls) (es : List Effect) (c : Conn) :
    startPump m (c.prior es) k = ((startPump m c k).1.prior es, (startPump m c k).2) := by
  unfold startPump
  rw [prior_ends]
  cases (c.ends .client).bev with
  | none => exact congrArg (·, false) (prior_emits es c _)
  | some cb =>
    cases (c.ends .relay).bev with
    | none => exact congrArg (·, false) (prior_emits es c _)
    | some rb =>
      simp only [prior_emits, prior_startPumpFn]
      rcases startPumpFn m (c.emits [.startPump rb.input]) k with ⟨c', ok⟩
      cases ok with
      | true =>
        refine congrArg (·, true) ?_
        exact Blind.touch (g := fun c => { c with clientState := .pumpingData }) (fun _ _ => rfl)
          es c'
      | false => rfl

/-! ### The buffer pump -/

theorem blind_bufferpumpFree : Blind bufferpumpFree := by
  refine Blind.touch fun es c => ?_
  simp only [prior_ends]
  cases (c.ends .client).bev with
  | none => exact prior_emits es c _
  | some cb =>
    cases (c.ends .relay).bev with
    | none => exact prior_emits es c _
    | some rb =>
      exact blind_clientFree es
        ((c.mapBev .client Bufferevent.disable).mapBev .relay Bufferevent.disable)

theorem blind_closeIfDone : Blind closeIfDone :=
  Blind.ite (p := fun c => checkClose c = true) (fun _ _ => Iff.rfl) blind_bufferpumpFree blind_id

theorem blind_pumpReadcb (s : Side) : Blind (pumpReadcb s) := by
  refine Blind.touch fun es c => ?_
  simp only [prior_ends]
  cases (c.ends s).bev with
  | none => exact prior_emits es c _
  | some b =>
    cases (c.ends s.other).bev with
    | none => exact prior_emits es c _
    | some o => rfl

theorem blind_shutdownWrite (s : Side) : Blind (shutdownWrite s) := fun es c =>
  prior_emits es (c.setEnd s { c.ends s with shutWrite := true }) _

theorem blind_pumpWritecb (s : Side) : Blind (pumpWritecb s) := by
  refine Blind.touch fun es c => ?_
  simp only [prior_ends]
  cases (c.ends s).bev with
  | none => exact prior_emits es c _
  | some b =>
    have hshut : Blind fun c => if (b.output.length = 0 && (c.ends s.other).shutRead) = true then
        shutdownWrite s c else c :=
      Blind.ite (fun _ _ => Iff.rfl) (blind_shutdownWrite s) blind_id
    exact (blind_closeIfDone.comp hshut) es c

theorem blind_pumpReadEof (s : Side) (b o : Bufferevent) : Blind fun c => pumpReadEof s c b o := by
  have hmark : Blind fun c => (c.setEnd s { c.ends s with
      shutRead := true, bev := some { b with enRead := false } }).emits
        [.shutdown s (c.ends s).fd .rd] := fun es c => prior_emits es (c.setEnd s _) _
  have hshut : Blind fun c => if (o.output.length = 0 && (c.ends s).shutRead) = true then
      shutdownWrite s.other c else c :=
    Blind.ite (fun _ _ => Iff.rfl) (blind_shutdownWrite s.other) blind_id
  exact hshut.comp hmark

theorem blind_pumpWriteEof (s : Side) (b : Bufferevent) : Blind fun c => pumpWriteEof s c b :=
  fun es c => prior_emits es (c.setEnd s _) _

theorem blind_pumpEventcb (s : Side) (w : BevEvents) (e : Errno) :
    Blind fun c => pumpEventcb s c w e := by
  refine Blind.touch fun es c => ?_
  simp only [prior_ends]
  cases (c.ends s).bev with
  | none => exact prior_emits es c _
  | some b =>
    cases (c.ends s.other).bev with
    | none => exact prior_emits es c _
    | some o =>
      simp only
      split_ifs
      · exact (blind_closeIfDone.comp (blind_pumpReadEof s b o)) es c
      · exact (blind_closeIfDone.comp (blind_pumpWriteEof s b)) es c
      · exact blind_bufferpumpFree es c
      · exact blind_closeIfDone es c

/-! ### The handshake -/

theorem blind_socksSendConnectRequest (k : HandshakeCalls) :
    Blind fun c => socksSendConnectRequest c k := by
  refine Blind.touch fun es c => ?_
  simp only [prior_ends, prior_destAddr]
  cases (c.ends .relay).bev with
  | none => exact prior_emits es c _
  | some b =>
    cases c.destAddr with
    | none => exact prior_emits es c _
    | some a =>
      simp only
      cases connectRequest a with
      | none => exact blind_clientFree es c
      | some req =>
        simp only
        split_ifs
        · exact blind_clientFree es c
        · exact blind_clientSetTimeout k.timer es (c.setBev .relay _)

theorem blind_socksOnServerSelectedMethodReadcb (k : HandshakeCalls) :
    Blind fun c => socksOnServerSelectedMethodReadcb c k := by
  refine Blind.touch (Blind.withTimerDeleted fun es c => ?_)
  simp only [prior_ends]
  cases (c.ends .relay).bev with
  | none => exact prior_emits es c _
  | some b =>
    simp only
    split_ifs
    · exact blind_clientFree es c
    · exact blind_clientFree es c
    · exact blind_clientFree es c
    · exact blind_clientFree es c
    · exact blind_clientFree es (c.setBev .relay _)
    · exact blind_socksSendConnectRequest k es (c.setBev .relay _)

theorem blind_socksOnServerConnectReplyReadcb (m : PumpMethod) (k : HandshakeCalls) :
    Blind fun c => socksOnServerConnectReplyReadcb m c k := by
  refine Blind.touch (Blind.withTimerDeleted fun es c => ?_)
  simp only [prior_ends]
  cases (c.ends .relay).bev with
  | none => exact prior_emits es c _
  | some b =>
    simp only
    split_ifs
    · exact blind_clientFree es c
    · cases connectReplyLen b.input with
      | none => exact blind_clientFree es c
      | some n =>
        simp only
        have hacc : replyAccepted (c.prior es) b n k = (replyAccepted c b n k).prior es := rfl
        rw [hacc, prior_startPump]
        rcases startPump m (replyAccepted c b n k) k.start with ⟨c', ok⟩
        cases ok with
        | true => rfl
        | false => exact blind_clientFree es c'

theorem blind_socksSendMethodSelection (k : HandshakeCalls) :
    Blind fun c => socksSendMethodSelection c k := by
  refine Blind.touch fun es c => ?_
  simp only [prior_ends]
  cases (c.ends .relay).bev with
  | none => exact prior_emits es c _
  | some b => exact blind_clientSetTimeout k.timer es (c.setBev .relay _)

theorem blind_relayOnconnectEventcb (w : BevEvents) (k : HandshakeCalls) :
    Blind fun c => relayOnconnectEventcb c w k := by
  refine Blind.touch (Blind.withTimerDeleted fun es c => ?_)
  split_ifs
  · exact blind_socksSendMethodSelection k es { c with clientState := .relayConnected }
  · exact blind_clientFree es c
  · rfl

theorem blind_socksHandshakeStageErrcb (w : BevEvents) :
    Blind fun c => socksHandshakeStageErrcb c w := by
  refine Blind.touch (Blind.withTimerDeleted fun es c => ?_)
  split_ifs
  · exact blind_clientFree es c
  · rfl

/-! ### The event loop -/

theorem blind_runReadcb (m : PumpMethod) (s : Side) (k : HandshakeCalls) (cb : ReadCb) :
    Blind fun c => c.runReadcb m s k cb := by
  cases cb with
  | selectedMethod => exact blind_socksOnServerSelectedMethodReadcb k
  | connectReply => exact blind_socksOnServerConnectReplyReadcb m k
  | pump =>
    cases s with
    | client => exact blind_pumpReadcb .client
    | relay => exact blind_pumpReadcb .relay

theorem blind_runEventcb (s : Side) (w : BevEvents) (e : Errno) (k : HandshakeCalls)
    (cb : EventCb) : Blind fun c => c.runEventcb s w e k cb := by
  cases cb with
  | relayOnconnect => exact blind_relayOnconnectEventcb w k
  | handshakeStageErr => exact blind_socksHandshakeStageErrcb w
  | pump =>
    cases s with
    | client => exact blind_pumpEventcb .client w e
    | relay => exact blind_pumpEventcb .relay w e

theorem blind_runWritecb (s : Side) : Blind fun c => c.runWritecb s := by
  cases s with
  | client => exact blind_pumpWritecb .client
  | relay => exact blind_pumpWritecb .relay

/-- **A callback does not read the calls that were made before.** -/
theorem blind_step (m : PumpMethod) (ev : Ev) : Blind fun c => c.step m ev := by
  intro es c
  cases ev with
  | event s w e k =>
    simp only [Conn.step, prior_ends]
    cases (c.ends s).bev with
    | none => rfl
    | some b =>
      simp only
      cases b.eventcb with
      | none => rfl
      | some cb => exact blind_runEventcb s w e k cb es c
  | read s bs k =>
    simp only [Conn.step, prior_ends]
    cases (c.ends s).bev with
    | none => rfl
    | some b =>
      simp only
      split_ifs
      · rfl
      · cases b.readcb with
        | none => rfl
        | some cb => exact blind_runReadcb m s k cb es (c.received s b bs)
  | wrote s n =>
    simp only [Conn.step, prior_ends]
    cases (c.ends s).bev with
    | none => rfl
    | some b =>
      simp only
      split_ifs
      · exact blind_runWritecb s es (c.flushed s b n)
      · rfl
  | timeout => exact blind_clientFree es { c with timeoutEv := c.timeoutEv.map Event.del }
  | spliceRead d k =>
    cases d with
    | outbound => exact blind_writeToPipe .outbound k es (c.modPump _)
    | inbound => exact blind_writeToPipe .inbound k es (c.modPump _)
  | spliceWrite d k =>
    cases d with
    | outbound => exact blind_readFromPipe .outbound k es (c.modPump _)
    | inbound => exact blind_readFromPipe .inbound k es (c.modPump _)

theorem blind_pumpFree (m : PumpMethod) : Blind (pumpFree m) := by
  cases m with
  | splicepump => exact blind_splicepumpFree
  | bufferpump => exact blind_bufferpumpFree

theorem blind_turn (m : PumpMethod) (t : Turn) : Blind fun c => c.turn m t := by
  cases t with
  | callback ev => exact blind_step m ev
  | drop => exact blind_pumpFree m

/-! ## What a drop does to one client -/

section Drop

variable {m : PumpMethod} {w w' : World} {l : List ℕ}

/-- A drop runs `transocks_pump_free` once for every live client and leaves the others alone. -/
theorem Registered.dropAll_conns (h : Registered m w l) (hf : w.reg.fault = none) {fuel : ℕ}
    {visited : List ℕ} (hd : w.dropAllClients m fuel = some (w', visited)) (i : ℕ) :
    w'.conns i = (w.conns i).map fun c =>
      if c.released then c else { Transocks.pumpFree m c with out := [] } := by
  have hphase : ∀ j c, w.conns j = some c → c.released = false → ∃ f, Phase m c f := by
    intro j c hc hl
    obtain ⟨c', f, hc', hp⟩ := h.on j ((h.mem hc).mpr hl)
    obtain rfl := Option.some.inj (hc.symm.trans hc')
    exact ⟨f, hp⟩
  have hsame : ∀ j c, w.conns j = some c → { c with out := [] } = c := fun j c hc => by
    rw [← h.quiet j c hc]
  -- every client is as it was, or dropped
  have hJ : ∀ j, w'.conns j = w.conns j ∨ ∃ c, w.conns j = some c ∧ c.released = false ∧
      w'.conns j = some { Transocks.pumpFree m c with out := [] } := by
    refine h.dropAll_keeps (J := fun u => ∀ j, u.conns j = w.conns j ∨ ∃ c, w.conns j = some c ∧
      c.released = false ∧ u.conns j = some { Transocks.pumpFree m c with out := [] }) hf
      (fun _ => .inl rfl) ?_ hd
    intro l' u j c f hu hJ hj hc hp k
    by_cases hk : k = j
    swap
    · rw [ran_conns_ne hk]
      exact hJ k
    subst hk
    refine .inr ?_
    rcases hJ k with hsame' | ⟨c₁, hc₁, hl₁, hc₁'⟩
    · exact ⟨c, hsame'.symm.trans hc, hp.live, ran_conns_same⟩
    obtain ⟨f₁, hp₁⟩ := hphase k c₁ hc₁ hl₁
    rcases hp₁.pumpFree with ⟨-, heq⟩ | ⟨-, hin, -⟩
    · obtain rfl : c = c₁ := by
        rw [heq, hsame k c₁ hc₁] at hc₁'
        exact Option.some.inj (hc.symm.trans hc₁')
      exact ⟨c, hc₁, hl₁, ran_conns_same⟩
    · obtain rfl := Option.some.inj (hc.symm.trans hc₁')
      exact absurd (hin.released.symm.trans hp.live) (by decide)
  cases hc : w.conns i with
  | none =>
    rcases hJ i with hi | ⟨c, hc', -⟩
    · rw [hi, hc]
      rfl
    · exact absurd (hc.symm.trans hc') (by simp)
  | some c =>
    rw [Option.map_some]
    by_cases hl : c.released = true
    · rw [if_pos hl]
      rcases hJ i with hi | ⟨c', hc', hl', -⟩
      · exact hi.trans hc
      · obtain rfl := Option.some.inj (hc.symm.trans hc')
        exact absurd (hl.symm.trans hl') (by decide)
    · rw [if_neg hl]
      rw [Bool.not_eq_true] at hl
      rcases hJ i with hi | ⟨c', hc', -, hi⟩
      swap
      · obtain rfl := Option.some.inj (hc.symm.trans hc')
        exact hi
      obtain ⟨f, hp⟩ := hphase i c hc hl
      rcases hp.pumpFree with ⟨-, heq⟩ | ⟨hs, -, -⟩
      · rw [hi, hc, heq, hsame i c hc]
      · obtain ⟨w'', hd', -, -, -, hgone⟩ := h.dropAll hf
        obtain rfl : w' = w'' := congrArg Prod.fst (forEachSafe_unique hd hd')
        have hsurv : w.survivor m i = false := by
          unfold World.survivor
          rw [hc]
          exact hs
        obtain ⟨c', hc', hr⟩ := hgone i ((h.mem hc).mpr hl) hsurv
        obtain rfl : c = c' := Option.some.inj (hc.symm.trans (hi.symm.trans hc'))
        exact absurd (hr.symm.trans hl) (by decide)

end Drop

/-! ## The life of one client -/

/-- The turn that an act of the loop gives client `i`. -/
def Act.turn (i : ℕ) : Act → Option Turn
  | .accept _ => none
  | .callback j ev => if j = i then some (.callback ev) else none
  | .finalize _ => none
  | .dropAll => some .drop

def Act.isAccept : Act → Bool
  | .accept _ => true
  | _ => false

/-- Every live client that gets a turn of what the loop does takes it as `P` says. -/
def Act.Meets (P : Conn → Turn → Prop) (w : World) (act : Act) : Prop :=
  ∀ i c t, w.conns i = some c → c.released = false → act.turn i = some t → P c t

/-- The client as the world keeps it, when the calls it made are carried out. -/
def Conn.atRest (c : Conn) : Conn := { c with out := [] }

def OwnStep (m : PumpMethod) (P : Conn → Turn → Prop) : Conn → Turn → Conn → Prop :=
  Meeting (LifeStep m) fun c t => P c.atRest t

/-- Client `i` is the one of an accept among `acts`. From then on it took every turn that the loop
gave it, in order, up to the state `c`, which still has all the calls made for it. After its release
there were only signals, which pass it by. -/
inductive OwnLife (m : PumpMethod) (P : Conn → Turn → Prop) (i : ℕ) (acts : List Act) (c : Conn) :
    Prop
  | intro (pre post : List Act) (k : AcceptCalls) (c₀ : Conn) (ts : List Turn) (r : ℕ)
      (hacts : acts = pre ++ .accept k :: post) (hi : pre.countP Act.isAccept = i)
      (hcb : (listenerCb k).1 = some c₀) (hrun : Run (OwnStep m P) c₀ ts c)
      (hts : post.filterMap (Act.turn i) = ts ++ List.replicate r .drop)
      (hr : r ≠ 0 → c.released = true)

section Life

variable {m : PumpMethod} {P : Conn → Turn → Prop} {i n : ℕ} {w w' : World} {acts : List Act}
  {act : Act} {c : Conn} {t : Turn}

theorem meets_accept (k : AcceptCalls) : (Act.accept k).Meets P w := by
  intro i c t _ _ ht
  cases ht

theorem meets_callback {j : ℕ} {ev : Ev} (h : ∀ c, w.conns j = some c → P c (.callback ev)) :
    (Act.callback j ev).Meets P w := by
  intro i c t hc _ ht
  obtain rfl : j = i := by
    by_contra hne
    simp [Act.turn, hne] at ht
  obtain rfl : Turn.callback ev = t := by simpa [Act.turn] using ht
  exact h c hc

theorem filterMap_concat (post : List Act) (act : Act) (i : ℕ) :
    (post ++ [act]).filterMap (Act.turn i) =
      post.filterMap (Act.turn i) ++ (act.turn i).toList := by
  rw [List.filterMap_append]
  cases h : act.turn i <;> simp [h]

/-- The loop does something for another client. -/
theorem OwnLife.other (h : OwnLife m P i acts c) (ht : act.turn i = none) :
    OwnLife m P i (acts ++ [act]) c := by
  obtain ⟨pre, post, k, c₀, ts, r, rfl, hi, hcb, hrun, hts, hr⟩ := h
  refine .intro pre (post ++ [act]) k c₀ ts r (by simp) hi hcb hrun ?_ hr
  rw [filterMap_concat, hts, ht]
  simp

theorem OwnLife.passed (h : OwnLife m P i acts c) (ht : act.turn i = some .drop)
    (hl : c.released = true) : OwnLife m P i (acts ++ [act]) c := by
  obtain ⟨pre, post, k, c₀, ts, r, rfl, hi, hcb, hrun, hts, hr⟩ := h
  refine .intro pre (post ++ [act]) k c₀ ts (r + 1) (by simp) hi hcb hrun ?_ fun _ => hl
  rw [filterMap_concat, hts, ht, List.append_assoc, List.replicate_succ']
  rfl

/-- A turn of a client does not read the calls made before. -/
theorem turn_prior (m : PumpMethod) (c : Conn) (t : Turn) :
    c.turn m t = (c.atRest.turn m t).prior c.out := by
  have hprior : c.atRest.prior c.out = c := by
    unfold Conn.prior Conn.atRest
    rw [List.append_nil]
  have hblind := blind_turn m t c.out c.atRest
  simp only [hprior] at hblind
  exact hblind

theorem turn_atRest (m : PumpMethod) (c : Conn) (t : Turn) :
    (c.atRest.turn m t).atRest = (c.turn m t).atRest := by
  rw [turn_prior m c t]
  rfl

theorem turn_out (m : PumpMethod) (c : Conn) (t : Turn) :
    (c.turn m t).out = c.out ++ (c.atRest.turn m t).out := by
  rw [turn_prior m c t]
  rfl

/-- What is possible for the record that the world keeps is possible for the client. -/
theorem Turn.Possible.lifeStep (hp : t.Possible c.atRest) (hl : c.released = false) :
    LifeStep m c t (c.turn m t) := by
  refine ⟨hl, ?_, rfl⟩
  cases t with
  | callback ev => cases ev <;> exact hp
  | drop => trivial

/-- The client takes its turn. -/
theorem OwnLife.turn (h : OwnLife m P i acts c) (ht : act.turn i = some t)
    (hl : c.released = false) (hp : t.Possible c.atRest) (hP : P c.atRest t) :
    OwnLife m P i (acts ++ [act]) (c.turn m t) := by
  obtain ⟨pre, post, k, c₀, ts, r, rfl, hi, hcb, hrun, hts, hr⟩ := h
  obtain rfl : r = 0 := by
    by_contra hr0
    exact absurd ((hr hr0).symm.trans hl) (by decide)
  refine .intro pre (post ++ [act]) k c₀ (ts ++ [t]) 0 (by simp) hi hcb
    (hrun.snoc ⟨hP, hp.lifeStep hl⟩) ?_ fun h => absurd rfl h
  rw [filterMap_concat, hts, ht]
  simp

/-- A client of the world and its own life. -/
def Lives (m : PumpMethod) (P : Conn → Turn → Prop) (i : ℕ) (acts : List Act) (c : Conn) : Prop :=
  ∃ c', c = c'.atRest ∧ OwnLife m P i acts c'

theorem Lives.other (h : Lives m P i acts c) (ht : act.turn i = none) :
    Lives m P i (acts ++ [act]) c := by
  obtain ⟨c', hc, h⟩ := h
  exact ⟨c', hc, h.other ht⟩

theorem Lives.passed (h : Lives m P i acts c) (ht : act.turn i = some .drop)
    (hl : c.released = true) : Lives m P i (acts ++ [act]) c := by
  obtain ⟨c', rfl, h⟩ := h
  exact ⟨c', rfl, h.passed ht hl⟩

theorem Lives.turn (h : Lives m P i acts c) (ht : act.turn i = some t)
    (hl : c.released = false) (hp : t.Possible c) (hP : P c t) :
    Lives m P i (acts ++ [act]) (c.turn m t).atRest := by
  obtain ⟨c', rfl, h⟩ := h
  exact ⟨c'.turn m t, turn_atRest m c' t, h.turn ht hl hp hP⟩

/-- Between two acts every client has gone through its own life. -/
structure Projected (m : PumpMethod) (P : Conn → Turn → Prop) (acts : List Act) (w : World) :
    Prop where
  accepts : acts.countP Act.isAccept = w.nextId
  list : w.reg.fault = none → ∃ l, Registered m w l
  life : ∀ i c, w.conns i = some c → Lives m P i acts c

theorem projected_init (m : PumpMethod) (P : Conn → Turn → Prop) (n : ℕ) :
    Projected m P [] (World.init n) where
  accepts := rfl
  list := fun _ => ⟨[], registered_init m n⟩
  life := fun _ _ hc => absurd hc (by simp [World.init])

theorem accepted_nextId (w : World) (k : AcceptCalls) : (w.accepted k).nextId = w.nextId + 1 := by
  unfold World.accepted
  split <;> rfl

theorem World.Step.nextId {l : List ℕ} (hr : Registered m w l) (hs : World.Step m w act w') :
    w'.nextId = w.nextId + if act.isAccept then 1 else 0 := by
  cases hs with
  | accept => exact accepted_nextId _ _
  | callback => rfl
  | @finalize j d => exact (finalized_reg w j d).2.2.2
  | dropAll hf hd =>
    exact hr.dropAll_keeps (J := fun u => u.nextId = w.nextId) hf rfl
      (fun _ _ _ _ _ _ hu _ _ _ => hu) hd

/-- What an act of the loop is for one client: nothing, or a turn of its own. -/
theorem Registered.own_step {l : List ℕ} (hreg : Registered m w l) (hs : World.Step m w act w')
    (hc : w.conns i = some c) :
    (w'.conns i = some c ∧ (act.turn i = none ∨ act.turn i = some .drop ∧ c.released = true)) ∨
      ∃ t, act.turn i = some t ∧ c.released = false ∧ t.Possible c ∧
        w'.conns i = some (c.turn m t).atRest := by
  cases hs with
  | @accept k hf hk =>
    refine .inl ⟨?_, .inl rfl⟩
    have hi : i ≠ w.nextId := by
      rintro rfl
      exact absurd (hc.symm.trans (hreg.fresh _ le_rfl)) (by simp)
    unfold World.accepted
    rcases listenerCb k with ⟨_ | c₀, es⟩
    · exact hc
    · exact (Function.update_of_ne hi ..).trans hc
  | @callback j c₁ ev hf hc₁ hen hk =>
    by_cases hi : i = j
    · subst hi
      obtain rfl := Option.some.inj (hc.symm.trans hc₁)
      exact .inr ⟨.callback ev, by simp [Act.turn], (hreg.mem hc).mp (hreg.enabled hc hen).1, hen,
        ran_conns_same⟩
    · exact .inl ⟨(ran_conns_ne hi).trans hc, .inl (by simp [Act.turn, Ne.symm hi])⟩
  | @finalize j d hf hd =>
    exact .inl ⟨(congrFun (finalized_reg w j d).2.2.1 i).trans hc, .inl rfl⟩
  | dropAll hf hd =>
    have hi := hreg.dropAll_conns hf hd i
    rw [hc, Option.map_some] at hi
    by_cases hl : c.released = true
    · rw [if_pos hl] at hi
      exact .inl ⟨hi, .inr ⟨rfl, hl⟩⟩
    · rw [if_neg hl] at hi
      exact .inr ⟨.drop, rfl, by simpa using hl, trivial, hi⟩

/-- A client that an act of the loop has added is the one of its accept. -/
theorem Registered.added {l : List ℕ} (hreg : Registered m w l) (hs : World.Step m w act w')
    (hc : w'.conns i = some c) (hnew : w.conns i = none) :
    i = w.nextId ∧ ∃ k c₀, act = .accept k ∧ (listenerCb k).1 = some c₀ ∧ c = c₀.atRest := by
  cases hs with
  | @accept k hf hk =>
    unfold World.accepted at hc
    rcases hcb : listenerCb k with ⟨_ | c₀, es⟩
    · rw [hcb] at hc
      exact absurd (hnew.symm.trans hc) (by simp)
    · rw [hcb] at hc
      have hi : i = w.nextId := by
        by_contra hne
        exact absurd (hnew.symm.trans ((Function.update_of_ne hne ..).symm.trans hc)) (by simp)
      subst hi
      obtain rfl := Option.some.inj (hc.symm.trans (Function.update_self ..))
      exact ⟨rfl, k, c₀, rfl, by rw [hcb], rfl⟩
  | @callback j c₁ ev hf hc₁ hen hk =>
    have hi : i ≠ j := by
      rintro rfl
      exact absurd (hnew.symm.trans hc₁) (by simp)
    exact absurd (hnew.symm.trans ((ran_conns_ne hi).symm.trans hc)) (by simp)
  | @finalize j d hf hd =>
    rw [(finalized_reg w j d).2.2.1] at hc
    exact absurd (hnew.symm.trans hc) (by simp)
  | dropAll hf hd =>
    rw [hreg.dropAll_conns hf hd, hnew] at hc
    cases hc

theorem Projected.step (h : Projected m P acts w) (hP : act.Meets P w)
    (hs : World.Step m w act w') : Projected m P (acts ++ [act]) w' := by
  obtain ⟨l, hreg⟩ := h.list hs.not_faulted
  refine ⟨?_, fun hf' => hreg.step hs hf', fun i c hc => ?_⟩
  · rw [List.countP_append, h.accepts, hs.nextId hreg]
    simp [List.countP_cons]
  cases hc₁ : w.conns i with
  | none =>
    obtain ⟨rfl, k, c₀, rfl, hcb, rfl⟩ := hreg.added hs hc hc₁
    exact ⟨c₀, rfl, .intro acts [] k c₀ [] 0 rfl h.accepts hcb .nil rfl fun h => absurd rfl h⟩
  | some c₁ =>
    have hlife := h.life i c₁ hc₁
    rcases hreg.own_step hs hc₁ with ⟨hc', hturn⟩ | ⟨t, ht, hl, hp, hc'⟩
    · obtain rfl := Option.some.inj (hc'.symm.trans hc)
      rcases hturn with hnone | ⟨hdrop, hr⟩
      · exact hlife.other hnone
      · exact hlife.passed hdrop hr
    · obtain rfl := Option.some.inj (hc'.symm.trans hc)
      exact hlife.turn ht hl hp (hP i c₁ t hc₁ hl ht)

theorem run_projected
    (hrun : Run (Meeting (World.Step m) (Act.Meets P)) (World.init n) acts w) :
    Projected m P acts w := by
  induction hrun with
  | nil => exact projected_init m P n
  | snoc _ hs ih => exact ih.step hs.1 hs.2

/-- **One client among many.** In every run of the program every client is the one of the accept
that created it, and has gone from there through a run of its own that takes exactly the turns the
loop gave it. What every turn of the loop meets, every turn of that run meets. -/
theorem world_projects
    (hrun : Run (Meeting (World.Step m) (Act.Meets P)) (World.init n) acts w)
    (hc : w.conns i = some c) : ∃ c', c = c'.atRest ∧ OwnLife m P i acts c' :=
  (run_projected hrun).life i c hc

/-! ## One client in a run that goes on -/

/-- A state that the program reaches, with a client `i` as `J` says. -/
structure Watches (m : PumpMethod) (i : ℕ) (J : Conn → Prop) (w : World) : Prop where
  reached : ∃ n acts, Run (World.Step m) (World.init n) acts w
  client : ∃ c, w.conns i = some c ∧ J c

def Act.Hits (i : ℕ) (hit : Conn → Ev → Prop) (w : World) (act : Act) : Prop :=
  ∃ c ev, w.conns i = some c ∧ act = .callback i ev ∧ hit c ev

/-- What the turns of a client do to it, a step of the program does to it or leaves undone. -/
theorem Watches.own_step {J : Conn → Prop} (h : Watches m i J w) (hs : World.Step m w act w') :
    ∃ c, w.conns i = some c ∧ J c ∧
      ((w'.conns i = some c ∧ ∀ ev, act ≠ .callback i ev) ∨
        ∃ t, act.turn i = some t ∧ c.released = false ∧ t.Possible c ∧
          w'.conns i = some (c.turn m t).atRest) := by
  obtain ⟨⟨n, acts, hrun⟩, c, hc, hJ⟩ := h
  have hproj : Projected m (fun _ _ => True) acts w :=
    run_projected (hrun.mono fun _ _ _ hs => ⟨fun _ _ _ _ _ _ => trivial, hs⟩)
  obtain ⟨l, hreg⟩ := hproj.list hs.not_faulted
  refine ⟨c, hc, hJ, (hreg.own_step hs hc).imp_left fun ⟨hc', hturn⟩ => ⟨hc', ?_⟩⟩
  rintro ev rfl
  have ht : (Act.callback i ev).turn i = some (.callback ev) := by simp [Act.turn]
  rw [ht] at hturn
  rcases hturn with hnone | ⟨hdrop, -⟩
  · cases hnone
  · cases hdrop

theorem Watches.step {J : Conn → Prop} (h : Watches m i J w) (hs : World.Step m w act w')
    (hturn : ∀ c t, w.conns i = some c → act.turn i = some t → J c → c.released = false →
      t.Possible c → J (c.turn m t).atRest) : Watches m i J w' := by
  obtain ⟨n, acts, hrun⟩ := h.reached
  refine ⟨⟨n, acts ++ [act], hrun.snoc hs⟩, ?_⟩
  obtain ⟨c, hc, hJ, ⟨hc', -⟩ | ⟨t, ht, hl, hp, hc'⟩⟩ := h.own_step hs
  · exact ⟨c, hc', hJ⟩
  · exact ⟨_, hc', hturn c t hc ht hJ hl hp⟩

/-- **The turns that make progress are bounded**, whatever the other clients do in between, when
no turn of the client raises its measure and those turns lower it. -/
theorem Watches.paced {J : Conn → Prop} {r : Conn → ℕ} {hit : Conn → Ev → Prop}
    {step : World → Act → World → Prop} {k : ℕ} (h : Watches m i J w)
    (hp : Paced step (Act.Hits i hit) w acts w' k)
    (hstep : ∀ u e v, step u e v → World.Step m u e v)
    (hturn : ∀ u e v c t, step u e v → u.conns i = some c → e.turn i = some t → J c →
      c.released = false → t.Possible c →
      J (c.turn m t).atRest ∧ r (c.turn m t).atRest ≤ r c ∧
        ∀ ev, t = .callback ev → hit c ev → r (c.turn m t).atRest < r c) :
    ∃ c c', w.conns i = some c ∧ w'.conns i = some c' ∧ J c' ∧ k + r c' ≤ r c := by
  have hkeep : ∀ u e v, Watches m i J u → step u e v → Watches m i J v := fun u e v hu hs =>
    hu.step (hstep u e v hs) fun c t hc ht hJ hl hp => (hturn u e v c t hs hc ht hJ hl hp).1
  have hbound := hp.bounded (I := Watches m i J) (r := fun u => ((u.conns i).map r).getD 0) h
    hkeep ?_ ?_
  · obtain ⟨c, hc, -⟩ := h.client
    obtain ⟨c', hc', hJ'⟩ := (hp.run.invariant h hkeep).client
    refine ⟨c, c', hc, hc', hJ', ?_⟩
    simpa [hc, hc'] using hbound
  · intro u e v hu hs
    obtain ⟨c, hc, hJ, ⟨hc', -⟩ | ⟨t, ht, hl, hposs, hc'⟩⟩ := hu.own_step (hstep u e v hs)
    · simp [hc, hc']
    · simpa [hc, hc'] using (hturn u e v c t hs hc ht hJ hl hposs).2.1
  · rintro u e v hu hs ⟨c₁, ev, hc₁, rfl, hhit⟩
    obtain ⟨c, hc, hJ, ⟨-, hne⟩ | ⟨t, ht, hl, hposs, hc'⟩⟩ := hu.own_step (hstep _ _ _ hs)
    · exact absurd rfl (hne ev)
    · obtain rfl := Option.some.inj (hc₁.symm.trans hc)
      have hlow := (hturn _ _ _ c₁ t hs hc₁ ht hJ hl hposs).2.2
      obtain rfl : Turn.callback ev = t := by simpa [Act.turn] using ht
      simpa [hc₁, hc'] using hlow ev rfl hhit

end Life

/-- A second client is accepted while the first one waits for its connect reply. -/
def twoClients : List Act :=
  toReply ++ [.accept { AcceptCalls.ok with accept := some 7, socket := some 8 }]

theorem run_twoClients {P : Conn → Turn → Prop} (hP : ∀ c t, P c t) :
    Run (Meeting (World.Step .bufferpump) (Act.Meets P)) (World.init 3) twoClients
      (World.after .bufferpump twoClients) := by
  have hrun : Run (World.Step .bufferpump) (World.init 3) twoClients
      (World.after .bufferpump twoClients) :=
    Run.foldl (follows_toReply .bufferpump ⟨.accept rfl ⟨rfl, rfl, trivial⟩, trivial⟩)
  exact hrun.mono fun _ _ _ hs => ⟨fun _ _ _ _ _ _ => hP _ _, hs⟩

/-- The signal drops both clients, and libevent runs a finalizer. -/
theorem world_projects_twoClients :
    ∃ c', (World.after .bufferpump (twoClients ++ [.dropAll, .finalize 0])).conns 0 =
        some c'.atRest ∧ c'.released = true ∧
      OwnLife .bufferpump (fun _ _ => True) 0 (twoClients ++ [.dropAll, .finalize 0]) c' := by
  have hend : Run (Meeting (World.Step .bufferpump) (Act.Meets fun _ _ => True)) (World.init 3)
      (twoClients ++ [.dropAll, .finalize 0])
      (World.after .bufferpump (twoClients ++ [.dropAll, .finalize 0])) := by
    refine (run_twoClients fun _ _ => trivial).trans (Run.foldl
      ⟨⟨fun _ _ _ _ _ _ => trivial, @World.Step.dropAll _ _ 3 _ _ rfl rfl⟩,
        ⟨fun _ _ _ _ _ _ => trivial, .finalize rfl rfl⟩, trivial⟩)
  obtain ⟨c', hc, hlife⟩ := world_projects (i := 0) hend (c := _) rfl
  refine ⟨c', congrArg some hc, ?_, hlife⟩
  show c'.atRest.released = true
  rw [← hc]
  rfl

end Transocks

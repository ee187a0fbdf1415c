import Transocks.Phases

/-!
# The start of a pump

`socks_on_server_connect_reply_readcb` accepts the connect reply and calls `transocks_start_pump`.
The buffer pump leaves the client to its caller when it fails. The splice pump does so only until
its record is attached to the client; from then on its label `fail` releases the client, and the
caller releases it once more.
-/

namespace Transocks

/-! ## The start of the splice pump -/

/-- A stage that keeps `I` and succeeds exactly when `ok`. -/
def Keeps (I : Conn → Prop) (ok : Bool) (x : Stage) : Prop :=
  ∃ c, I c ∧ x = if ok then .ok c else .error c

theorem Keeps.bind_imp {I J : Conn → Prop} {ok ok' : Bool} {x : Stage} {g : Conn → Stage}
    (h : Keeps I ok x) (hIJ : ∀ c, I c → J c) (hg : ∀ c, I c → Keeps J ok' (g c)) :
    Keeps J (ok && ok') (x >>= g) := by
  obtain ⟨c, hc, rfl⟩ := h
  cases ok with
  | false => exact ⟨c, hIJ c hc, rfl⟩
  | true => exact hg c hc

theorem Keeps.bind {I : Conn → Prop} {ok ok' : Bool} {x : Stage} {g : Conn → Stage}
    (h : Keeps I ok x) (hg : ∀ c, I c → Keeps I ok' (g c)) : Keeps I (ok && ok') (x >>= g) :=
  h.bind_imp (fun _ h => h) hg

theorem Keeps.ok {I : Conn → Prop} {ok : Bool} {c : Conn} (h : I c) (hok : ok = true) :
    Keeps I ok (.ok c) := ⟨c, h, by rw [hok]; rfl⟩

theorem Keeps.error {I : Conn → Prop} {ok : Bool} {c : Conn} (h : I c) (hok : ok = false) :
    Keeps I ok (.error c) := ⟨c, h, by rw [hok]; rfl⟩

def PipeCalls.created (q : PipeCalls) : Bool := q.pipe.isSome && (q.nonblockRead && q.nonblockWrite)

/-- The calls up to the one that attaches the pump record succeed. -/
def StartCalls.attaches (k : StartCalls) : Bool :=
  k.bevDisable .client && k.bevDisable .relay && k.mallocPump && k.mallocPipe .inbound &&
    k.mallocPipe .outbound

/-- The calls after the one that attaches the pump record succeed. -/
def StartCalls.fills (k : StartCalls) : Bool :=
  (k.pipe .inbound).created && ((k.pipe .outbound).created &&
    (!((k.pipe .inbound).pipesz == -1) && (!((k.pipe .outbound).pipesz == -1) &&
    (k.newReadEv .outbound && (k.newWriteEv .inbound && (k.newReadEv .inbound &&
    (k.newWriteEv .outbound && (k.addReadEv .outbound && (k.addWriteEv .inbound &&
    (k.addReadEv .inbound && k.addWriteEv .outbound))))))))))

/-- The start fails at a point where the pump record is attached to the client. -/
def StartCalls.failsAttached (k : StartCalls) : Bool := k.attaches && !k.fills

/-- A client whose pump record is attached and being filled in; the notable calls before that were
`n`. -/
structure Filling (c : Conn) (f : Side → ℕ) (n : List Effect) : Prop
    extends Attached c f handedOver where
  pump : ∃ p, c.userArg = some p
  notes : ∃ es, Piping es ∧ c.notes = n ++ es

section Start

variable {c : Conn} {f : Side → ℕ} {n : List Effect} {d : Direction}

theorem Filling.modPump (h : Filling c f n) (g : Splicepump → Splicepump) :
    Filling (c.modPump g) f n := by
  obtain ⟨p, hp⟩ := h.pump
  exact ⟨⟨h.live, h.notFreed, h.fd, h.bev⟩, ⟨g p, by simp [Conn.modPump, hp]⟩, h.notes⟩

theorem Filling.emits (h : Filling c f n) {es : List Effect}
    (he : Piping (es.filter Effect.notable)) : Filling (c.emits es) f n := by
  obtain ⟨es₀, h₀, hn⟩ := h.notes
  refine ⟨⟨h.live, h.notFreed, h.fd, h.bev⟩, h.pump, es₀ ++ es.filter Effect.notable,
    h₀.append he, ?_⟩
  rw [notes_emits, hn, List.append_assoc]

theorem Filling.setKern (h : Filling c f n) (k : Kern) : Filling (c.setKern d k) f n :=
  ⟨⟨h.live, h.notFreed, h.fd, h.bev⟩, h.pump, h.notes⟩

theorem createpipe_keeps (h : Filling c f n) (q : PipeCalls) :
    Keeps (Filling · f n) q.created (createpipe c d q) := by
  unfold createpipe PipeCalls.created
  split
  · rename_i hq
    exact .error h (by simp [hq])
  · rename_i r w hq
    have hopen : Piping ([.opened (.pipeRead d) r, .opened (.pipeWrite d) w] : List Effect) :=
      Piping.cons rfl (Piping.cons rfl Piping.nil)
    split
    · rename_i hn
      exact .ok (((h.modPump _).setKern _).emits hopen) (by simp [hq, hn])
    · rename_i hn
      exact .error (h.emits hopen) (by simp [hq, hn])

end Start

/-! ### The stages that fill the record -/

/-- `g` leaves the numbers of the pipe ends alone. -/
def KeepsFds (g : Splicepump → Splicepump) : Prop := ∀ p d,
  ((g p).pipe d).pipeReadfd = (p.pipe d).pipeReadfd ∧
    ((g p).pipe d).pipeWritefd = (p.pipe d).pipeWritefd

theorem setPipe_fds (p : Splicepump) (d : Direction) (q : Splicepipe)
    (hr : q.pipeReadfd = (p.pipe d).pipeReadfd) (hw : q.pipeWritefd = (p.pipe d).pipeWritefd)
    (e : Direction) : ((p.setPipe d q).pipe e).pipeReadfd = (p.pipe e).pipeReadfd ∧
      ((p.setPipe d q).pipe e).pipeWritefd = (p.pipe e).pipeWritefd := by
  rcases Direction.eq_or_eq_other d e with rfl | rfl <;> simp [hr, hw]

section Fill

variable {K : Conn → Prop} (hmod : ∀ c g, KeepsFds g → K c → K (c.modPump g))
  (halloc : ∀ c o, K c → K (c.emits [.alloc o])) {c : Conn} {d : Direction}

include hmod

theorem pipesizeStage_keeps (h : K c) (q : PipeCalls) :
    Keeps K (!(q.pipesz == -1)) (pipesizeStage c d q) := by
  unfold pipesizeStage
  split
  · rename_i hq
    exact .error h (by simp [hq])
  · rename_i hq
    have hg : KeepsFds fun p => p.setPipe d { p.pipe d with capacity := toSize q.pipesz } :=
      fun p e => setPipe_fds p d { p.pipe d with capacity := toSize q.pipesz } rfl rfl e
    exact .ok (hmod c _ hg h) (by simp [hq])

theorem addReadEvStage_keeps (h : K c) (ok : Bool) : Keeps K ok (addReadEvStage c d ok) := by
  cases ok with
  | false => exact .error h rfl
  | true => exact .ok (hmod c _ (fun _ _ => ⟨rfl, rfl⟩) h) rfl

theorem addWriteEvStage_keeps (h : K c) (ok : Bool) : Keeps K ok (addWriteEvStage c d ok) := by
  cases ok with
  | false => exact .error h rfl
  | true => exact .ok (hmod c _ (fun _ _ => ⟨rfl, rfl⟩) h) rfl

include halloc

theorem newReadEvStage_keeps (h : K c) (ok : Bool) : Keeps K ok (newReadEvStage c d ok) := by
  cases ok with
  | false => exact .error h rfl
  | true => exact .ok (halloc _ _ (hmod c _ (fun _ _ => ⟨rfl, rfl⟩) h)) rfl

theorem newWriteEvStage_keeps (h : K c) (ok : Bool) : Keeps K ok (newWriteEvStage c d ok) := by
  cases ok with
  | false => exact .error h rfl
  | true => exact .ok (halloc _ _ (hmod c _ (fun _ _ => ⟨rfl, rfl⟩) h)) rfl

/-- What the creation of the two pipes establishes, the rest of the start keeps. -/
theorem splicepumpFill_keeps {I J : Conn → Prop}
    (hin : ∀ c q, I c → Keeps J q.created (createpipe c .inbound q))
    (hout : ∀ c q, J c → Keeps K q.created (createpipe c .outbound q)) (hJK : ∀ c, J c → K c)
    (h : I c) (k : StartCalls) : Keeps K k.fills (splicepumpFill c k) := by
  refine (hin c _ h).bind_imp hJK fun c h => ?_
  refine (hout c _ h).bind fun c h => ?_
  refine (pipesizeStage_keeps hmod h _).bind fun c h => ?_
  refine (pipesizeStage_keeps hmod h _).bind fun c h => ?_
  refine (newReadEvStage_keeps hmod halloc h _).bind fun c h => ?_
  refine (newWriteEvStage_keeps hmod halloc h _).bind fun c h => ?_
  refine (newReadEvStage_keeps hmod halloc h _).bind fun c h => ?_
  refine (newWriteEvStage_keeps hmod halloc h _).bind fun c h => ?_
  refine (addReadEvStage_keeps hmod h _).bind fun c h => ?_
  refine (addWriteEvStage_keeps hmod h _).bind fun c h => ?_
  refine (addReadEvStage_keeps hmod h _).bind fun c h => ?_
  exact addWriteEvStage_keeps hmod h _

end Fill

section Start

variable {c : Conn} {f : Side → ℕ} {n : List Effect} {d : Direction}

theorem Filling.fill (h : Filling c f n) (k : StartCalls) :
    Keeps (Filling · f n) k.fills (splicepumpFill c k) :=
  splicepumpFill_keeps (fun _ g _ h => h.modPump g) (fun _ _ h => h.emits Piping.nil)
    (fun _ q h => createpipe_keeps h q) (fun _ q h => createpipe_keeps h q) (fun _ h => h) h k

theorem Attached.setBev {g : Side → Fd} (h : Attached c f g) {s : Side} {b' : Bufferevent}
    (hb : b'.fd = g s) : Attached (c.setBev s (some b')) f g := by
  refine ⟨h.live, h.notFreed, fun t => ?_, fun t => ?_⟩
  · rcases Side.eq_or_eq_other s t with rfl | rfl <;> simp [h.fd]
  · rcases Side.eq_or_eq_other s t with rfl | rfl
    · exact ⟨b', by simp, hb⟩
    · simpa using h.bev s.other

theorem Attached.disable {g : Side → Fd} (h : Attached c f g) (s : Side) :
    Attached (c.mapBev s Bufferevent.disable) f g := by
  obtain ⟨b, hb, hg⟩ := h.bev s
  unfold Conn.mapBev
  rw [hb]
  exact h.setBev hg

theorem Attached.handOver {g : Side → Fd} (h : Attached c f g) :
    Attached (handOver c) f handedOver := by
  refine ⟨h.live, h.notFreed, h.fd, fun s => ?_⟩
  obtain ⟨b, hb, -⟩ := h.bev s
  exact ⟨b.handedOver, by simp [Transocks.handOver, hb], rfl⟩

/-- The client with a fresh pump record attached. -/
def pumpAttached (c : Conn) : Conn :=
  ((handOver c).setPump Splicepump.new).emits
    [.alloc .pump, .alloc (.pipe .inbound), .alloc (.pipe .outbound)]

theorem splicepumpTakeFds_eq {k : StartCalls} (hc : k.bevDisable .client = true)
    (hr : k.bevDisable .relay = true) : splicepumpTakeFds c k = .ok (handOver c) := by
  cases ht : splicepumpTakeFds c k with
  | ok c' => rw [splicepumpTakeFds_ok ht]
  | error c' =>
    simp [splicepumpTakeFds, bevDisableStage, hc, hr, bind, Except.bind, pure, Except.pure] at ht

theorem splicepumpStages_attached {k : StartCalls} (hk : k.attaches = true) :
    splicepumpStages c k = splicepumpFill (pumpAttached c) k := by
  simp only [StartCalls.attaches, Bool.and_eq_true] at hk
  obtain ⟨⟨⟨⟨hc, hr⟩, hm⟩, hin⟩, hout⟩ := hk
  unfold splicepumpStages
  rw [splicepumpTakeFds_eq hc hr]
  show (splicepumpNew (handOver c) k >>= fun c => splicepumpFill c k) = _
  simp only [splicepumpNew, hm, hin, hout, Bool.not_true, Bool.false_eq_true, if_false]
  rfl

theorem Attached.filling {g : Side → Fd} (h : Attached c f g) :
    Filling (pumpAttached c) f c.notes := by
  have ho := h.handOver
  refine ⟨⟨ho.live, ho.notFreed, ho.fd, ho.bev⟩, ⟨_, rfl⟩, [], Piping.nil, ?_⟩
  rw [pumpAttached, notes_emits]
  rfl

/-- A start that fails before the pump record is attached. -/
theorem splicepumpStages_early (h : Attached c f (holding f)) (hp : c.userArg = none)
    {k : StartCalls} (hk : k.attaches = false) :
    ∃ c₁ g₁, splicepumpStages c k = .error c₁ ∧ Attached c₁ f g₁ ∧
      (g₁ = holding f ∨ g₁ = handedOver) ∧ c₁.userArg = none ∧ c₁.notes = c.notes := by
  by_cases hc : k.bevDisable .client = true
  swap
  · refine ⟨c, _, ?_, h, .inl rfl, hp, rfl⟩
    simp [splicepumpStages, splicepumpTakeFds, bevDisableStage, hc, bind, Except.bind]
  by_cases hr : k.bevDisable .relay = true
  swap
  · refine ⟨_, _, ?_, h.disable .client, .inl rfl, hp, rfl⟩
    simp [splicepumpStages, splicepumpTakeFds, bevDisableStage, hc, hr, bind, Except.bind]
  have hst : splicepumpStages c k =
      (splicepumpNew (handOver c) k >>= fun c => splicepumpFill c k) := by
    unfold splicepumpStages
    rw [splicepumpTakeFds_eq hc hr]
    rfl
  have ho := h.handOver
  have hof : ∀ es, Attached ((handOver c).emits es) f handedOver :=
    fun es => ⟨ho.live, ho.notFreed, ho.fd, ho.bev⟩
  rw [hst]
  unfold splicepumpNew
  split_ifs with h₁ h₂ h₃
  · exact ⟨_, _, rfl, ho, .inr rfl, hp, rfl⟩
  · exact ⟨_, _, rfl, hof _, .inr rfl, hp, by simp [Effect.notable]; rfl⟩
  · exact ⟨_, _, rfl, hof _, .inr rfl, hp, by simp [Effect.notable]; rfl⟩
  · simp_all [StartCalls.attaches]

/-- What `socks_on_server_connect_reply_readcb` makes of the result of `transocks_start_pump`. -/
def afterStart : Conn × Bool → Conn
  | (c, true) => c
  | (c, false) => clientFree c

/-- What `transocks_start_pump` makes of the result of the pump's start function. -/
def marked : Conn × Bool → Conn × Bool
  | (c, true) => (c.touch fun c => { c with clientState := .pumpingData }, true)
  | (c, false) => (c, false)

theorem startPump_eq {m : PumpMethod} {b : Bufferevent} (h : Handshaking c f b) (k : StartCalls) :
    startPump m c k = marked (startPumpFn m (c.emits [.startPump b.input]) k) := by
  unfold startPump
  simp only [h.client, h.relay]
  rcases startPumpFn m (c.emits [.startPump b.input]) k with ⟨c', _ | _⟩ <;> rfl

/-- `c'` is what the caller of `transocks_start_pump` leaves of a client that waited with sockets
`f`, when the notable calls before that were `n`. -/
def PumpStart (m : PumpMethod) (f : Side → ℕ) (n : List Effect) (k : StartCalls) (c' : Conn) :
    Prop :=
  ∃ c₀ b, Handshaking c₀ f b ∧ c₀.notes = n ∧
    (∀ ev, c₀.timeoutEv = some ev → ev.added = false) ∧ c' = afterStart (startPump m c₀ k)

section Splice

variable {b : Bufferevent} (h : Handshaking c f b)

include h

/-- A start of the splice pump that fails: the label `fail`, and then the caller. -/
theorem afterStart_failed {k : StartCalls} {c₁ : Conn}
    (hst : splicepumpStages (c.emits [.startPump b.input]) k = .error c₁) :
    afterStart (startPump .splicepump c k) = clientFree (splicepumpFree c₁) := by
  rw [startPump_eq h]
  simp only [startPumpFn, splicepumpStartPump, hst, marked, afterStart]

/-- A start of the splice pump that fails before the record is attached leaves the client to the
caller. -/
theorem afterStart_unattached {k : StartCalls} (hk : k.attaches = false) :
    ∃ c₁ g₁, afterStart (startPump .splicepump c k) = clientFree c₁ ∧ Attached c₁ f g₁ ∧
      (g₁ = holding f ∨ g₁ = handedOver) ∧ c₁.userArg = none ∧
      c₁.notes = c.notes ++ [.startPump b.input] := by
  have hemit := h.emits [.startPump b.input]
  obtain ⟨c₁, g₁, hst, hat, hg, hp, hn⟩ := splicepumpStages_early hemit.toAttached hemit.noPump hk
  refine ⟨c₁, g₁, ?_, hat, hg, hp, hn.trans (notes_emits ..)⟩
  rw [afterStart_failed h hst, splicepumpFree_unattached hat.live hp]

theorem startPump_filled {k : StartCalls} {c₁ : Conn} (hk : k.attaches = true)
    (hst : splicepumpFill (pumpAttached (c.emits [.startPump b.input])) k = .ok c₁)
    (hl : c₁.released = false) :
    startPump .splicepump c k = ({ c₁ with clientState := .pumpingData }, true) := by
  rw [startPump_eq h]
  simp only [startPumpFn, splicepumpStartPump, splicepumpStages_attached hk, hst, marked]
  rw [Conn.touch_live hl]

/-- A start of the splice pump that fails with the record attached: the label `fail` releases the
client, and the caller releases it again. -/
theorem afterStart_unfilled {k : StartCalls} {c₁ : Conn} (hk : k.attaches = true)
    (hst : splicepumpFill (pumpAttached (c.emits [.startPump b.input])) k = .error c₁)
    (hr : (splicepumpFree c₁).released = true) :
    afterStart (startPump .splicepump c k) = (splicepumpFree c₁).emits [.doubleFree] := by
  rw [afterStart_failed h ((splicepumpStages_attached hk).trans hst), clientFree_again hr]

theorem afterStart_early (k : StartCalls) (hk : k.attaches = false) :
    Next (Phase .splicepump · f) f (c.notes ++ [.startPump b.input])
      (afterStart (startPump .splicepump c k)) := by
  obtain ⟨c₁, g₁, heq, hat, hg, hp, hn⟩ := afterStart_unattached h hk
  rw [heq]
  exact (hat.next_clientFree hg hp).of_notes hn

/-- **A start of the splice pump that fails with the record attached releases the client twice.** -/
theorem afterStart_twice (k : StartCalls) (hk : k.failsAttached = true) :
    ∃ st, Piping st ∧ (afterStart (startPump .splicepump c k)).notes =
      c.notes ++ .startPump b.input :: st ++ releaseNotes f handedOver ++ [.doubleFree] := by
  have hk' : k.attaches = true ∧ k.fills = false := by
    simpa [StartCalls.failsAttached] using hk
  obtain ⟨c₁, hfill, hst⟩ := (h.emits [.startPump b.input]).toAttached.filling.fill k
  rw [hk'.2] at hst
  obtain ⟨p, hp⟩ := hfill.pump
  obtain ⟨es, hes, hn⟩ := hfill.notes
  obtain ⟨hi, hfree⟩ := hfill.toAttached.splicepumpFree hp
  refine ⟨es ++ (splicepumpFreeEffects p).filter Effect.notable,
    hes.append (piping_splicepumpFreeEffects p), ?_⟩
  rw [afterStart_unfilled h hk'.1 hst hi.released, notes_emits, hfree, hn, notes_emits]
  simp only [List.append_assoc, List.cons_append]
  rfl

omit h in
theorem Handshaking.splicing_start {k : StartCalls} {c₁ : Conn} (h : Handshaking c f b)
    (ht : ∀ ev, c.timeoutEv = some ev → ev.added = false)
    (hok : startPump .splicepump c k = (c₁, true)) : ∃ p, Splicing c₁ f p := by
  obtain ⟨rb, r, w, -, -, rfl⟩ := startPump_splice_ok h.live hok
  have ho := h.toAttached.handOver
  refine ⟨startedPump k r w, ⟨ho.live, by simp, ho.fd, ho.bev⟩, rfl, rfl, ht, fun d => ?_,
    fun d hd => ?_⟩
  · exact ⟨Int.natCast_nonneg _, Int.natCast_nonneg _⟩
  · exact absurd ((h.shutWrite _).symm.trans hd.2) (by decide)

theorem afterStart_splicing (k : StartCalls) (ht : ∀ ev, c.timeoutEv = some ev → ev.added = false)
    (ha : k.attaches = true) (hf : k.fills = true) :
    ∃ st, Piping st ∧ Next (Phase .splicepump · f) f (c.notes ++ .startPump b.input :: st)
      (afterStart (startPump .splicepump c k)) := by
  obtain ⟨c₁, hfill, hst⟩ := (h.emits [.startPump b.input]).toAttached.filling.fill k
  rw [hf, if_pos rfl] at hst
  have hok := startPump_filled h ha hst hfill.live
  obtain ⟨p, hp⟩ := h.splicing_start ht hok
  obtain ⟨es, hes, hn⟩ := hfill.notes
  rw [hok]
  refine ⟨es, hes, .stays (.splicing p hp) (hn.trans ?_)⟩
  rw [notes_emits, List.append_assoc]
  rfl

end Splice

/-! ## Pumping through bufferevents -/

theorem Copying.setEnd (h : Copying c f) {s : Side} {e : End} {b : Bufferevent}
    (hfd : e.fd = (c.ends s).fd) (hb : e.bev = some b) (hbfd : b.fd = f s)
    (hcbs : b.readcb = some .pump ∧ b.eventcb = some .pump) : Copying (c.setEnd s e) f := by
  refine ⟨⟨h.live, h.notFreed, fun t => ?_, fun t => ?_⟩, h.noPump, h.timer, fun t b' hb' => ?_⟩
  · rcases Side.eq_or_eq_other s t with rfl | rfl <;> simp [h.fd, hfd]
  · rcases Side.eq_or_eq_other s t with rfl | rfl
    · exact ⟨b, by simpa using hb, hbfd⟩
    · simpa using h.bev s.other
  · rcases Side.eq_or_eq_other s t with rfl | rfl
    · rw [Conn.setEnd_same, hb] at hb'
      obtain rfl := Option.some.inj hb'
      exact hcbs
    · exact h.cbs s.other b' (by simpa using hb')

theorem Copying.mapBev (h : Copying c f) (s : Side) {g : Bufferevent → Bufferevent}
    (hg : ∀ b, (g b).fd = b.fd ∧ (g b).readcb = b.readcb ∧ (g b).eventcb = b.eventcb) :
    Copying (c.mapBev s g) f := by
  obtain ⟨b, hb, hbfd⟩ := h.bev s
  have hcbs := h.cbs s b hb
  unfold Conn.mapBev Conn.setBev
  exact h.setEnd rfl (by rw [hb]; rfl) ((hg b).1.trans hbfd)
    ⟨(hg b).2.1.trans hcbs.1, (hg b).2.2.trans hcbs.2⟩

theorem Copying.emits (h : Copying c f) (es : List Effect) : Copying (c.emits es) f :=
  ⟨⟨h.live, h.notFreed, h.fd, h.bev⟩, h.noPump, h.timer, h.cbs⟩

theorem Copying.next_stays (h : Copying c f) : Next (Copying · f) f c.notes c := .stays h rfl

theorem bevEnableStage_keeps (h : Copying c f ∧ c.notes = n) (s : Side) (ok : Bool) :
    Keeps (fun c => Copying c f ∧ c.notes = n) ok (bevEnableStage c s ok) := by
  cases ok with
  | false => exact .error h rfl
  | true => exact .ok ⟨h.1.mapBev s fun b => ⟨rfl, rfl, rfl⟩, h.2⟩ rfl

/-- The bufferevents of a client that has just finished its handshake, with the pump's callbacks. -/
theorem Handshaking.forPump {b : Bufferevent} (h : Handshaking c f b)
    (ht : ∀ ev, c.timeoutEv = some ev → ev.added = false) :
    Copying ((c.mapBev .client Bufferevent.forPump).mapBev .relay Bufferevent.forPump) f := by
  have hends : ∀ s,
      ((c.mapBev .client Bufferevent.forPump).mapBev .relay Bufferevent.forPump).ends s =
      { c.ends s with bev := (c.ends s).bev.map Bufferevent.forPump } := fun s => by
    cases s <;> simp [Conn.mapBev, Conn.setBev_ne]
  refine ⟨⟨h.live, h.notFreed, fun s => ?_, fun s => ?_⟩, h.noPump, ht, fun s b' hb' => ?_⟩
  · rw [hends]
    exact h.fd s
  · obtain ⟨b, hb, hfd⟩ := h.bev s
    exact ⟨b.forPump, by rw [hends, hb]; rfl, hfd⟩
  · obtain ⟨b, hb, -⟩ := h.bev s
    rw [hends, hb] at hb'
    obtain rfl := Option.some.inj hb'
    exact ⟨rfl, rfl⟩

theorem afterStart_copying {b : Bufferevent} (h : Handshaking c f b) (k : StartCalls)
    (ht : ∀ ev, c.timeoutEv = some ev → ev.added = false) :
    Next (Phase .bufferpump · f) f (c.notes ++ [.startPump b.input])
      (afterStart (startPump .bufferpump c k)) := by
  have hcopy := (h.emits [.startPump b.input]).forPump ht
  have hst := (bevEnableStage_keeps ⟨hcopy, rfl⟩ .client (k.bevEnable .client)).bind fun c hc =>
    bevEnableStage_keeps hc .relay (k.bevEnable .relay)
  obtain ⟨c₁, ⟨hc, hn⟩, hst⟩ := hst
  have hn' : c₁.notes = c.notes ++ [.startPump b.input] := hn.trans (notes_emits ..)
  have hst' : bufferpumpStages (c.emits [.startPump b.input]) k =
      if (k.bevEnable .client && k.bevEnable .relay) = true then .ok c₁ else .error c₁ := hst
  rw [startPump_eq h]
  simp only [startPumpFn, bufferpumpStartPump, hst', marked]
  split_ifs
  · simp only [afterStart]
    rw [Conn.touch_live hc.live]
    exact .stays (.copying ⟨⟨hc.live, by simp, hc.fd, hc.bev⟩, hc.noPump, hc.timer, hc.cbs⟩) hn'
  · exact (hc.toAttached.next_clientFree (.inl rfl) hc.noPump).of_notes hn'

theorem Handshaking.afterStart_cases {m : PumpMethod} {b : Bufferevent} (h : Handshaking c f b)
    (k : StartCalls) (ht : ∀ ev, c.timeoutEv = some ev → ev.added = false) :
    (∃ c₁, startPump m c k = (c₁, true) ∧ afterStart (startPump m c k) = c₁) ∨
      Inert (afterStart (startPump m c k)) := by
  have hfree : ∀ {c₁ : Conn} {g : Side → Fd}, Attached c₁ f g → c₁.userArg = none →
      Inert (clientFree c₁) := fun hat hp =>
    (hat.clientFree fun p hp' => absurd (hp.symm.trans hp') (by simp)).1
  cases m with
  | bufferpump =>
    have hcopy := (h.emits [.startPump b.input]).forPump ht
    obtain ⟨c₁, ⟨hc, -⟩, hst⟩ :=
      (bevEnableStage_keeps ⟨hcopy, rfl⟩ .client (k.bevEnable .client)).bind fun c hc =>
        bevEnableStage_keeps hc .relay (k.bevEnable .relay)
    have hst' : bufferpumpStages (c.emits [.startPump b.input]) k =
        if (k.bevEnable .client && k.bevEnable .relay) = true then .ok c₁ else .error c₁ := hst
    rw [startPump_eq h]
    simp only [startPumpFn, bufferpumpStartPump, hst', marked]
    split_ifs
    · exact .inl ⟨_, rfl, rfl⟩
    · exact .inr (hfree hc.toAttached hc.noPump)
  | splicepump =>
    cases ha : k.attaches with
    | false =>
      obtain ⟨c₁, g₁, heq, hat, -, hp, -⟩ := afterStart_unattached h ha
      rw [heq]
      exact .inr (hfree hat hp)
    | true =>
      obtain ⟨c₁, hfill, hst⟩ := (h.emits [.startPump b.input]).toAttached.filling.fill k
      cases hf : k.fills with
      | false =>
        rw [hf] at hst
        obtain ⟨p, hp⟩ := hfill.pump
        have hi := (hfill.toAttached.splicepumpFree hp).1
        rw [afterStart_unfilled h ha hst hi.released]
        exact .inr ⟨hi.released, hi.bev, hi.timer, hi.events⟩
      | true =>
        rw [hf, if_pos rfl] at hst
        rw [startPump_filled h ha hst hfill.live]
        exact .inl ⟨_, rfl, rfl⟩

/-- A start of either pump, other than one that fails with the splice pump's record attached. -/
theorem PumpStart.outcome {m : PumpMethod} {k : StartCalls} {c' : Conn}
    (h : PumpStart m f c.notes k c') (hok : m = .splicepump → k.failsAttached = false) :
    Outcome m f c c' := by
  obtain ⟨c₀, b, h₀, hn, ht, rfl⟩ := h
  have hstart : Piping [.startPump b.input] := Piping.cons rfl Piping.nil
  cases m with
  | bufferpump => exact ⟨_, hstart, hn ▸ afterStart_copying h₀ k ht⟩
  | splicepump =>
    cases ha : k.attaches with
    | false => exact ⟨_, hstart, hn ▸ afterStart_early h₀ k ha⟩
    | true =>
      have hf : k.fills = true := by simpa [StartCalls.failsAttached, ha] using hok rfl
      obtain ⟨st, hst, hnext⟩ := afterStart_splicing h₀ k ht ha hf
      exact ⟨_, Piping.cons rfl hst, hn ▸ hnext⟩

/-- The first notable call of a start is the start itself, with what the handshake left in the
relay's input buffer. -/
theorem Handshaking.afterStart_notes {m : PumpMethod} {b : Bufferevent} (h : Handshaking c f b)
    (k : StartCalls) (ht : ∀ ev, c.timeoutEv = some ev → ev.added = false) :
    ∃ es, (afterStart (startPump m c k)).notes = c.notes ++ .startPump b.input :: es := by
  cases m with
  | bufferpump =>
    obtain ⟨es, he⟩ := (afterStart_copying h k ht).notes
    exact ⟨es, by rw [he, List.append_assoc]; rfl⟩
  | splicepump =>
    cases ha : k.attaches with
    | false =>
      obtain ⟨es, he⟩ := (afterStart_early h k ha).notes
      exact ⟨es, by rw [he, List.append_assoc]; rfl⟩
    | true =>
      cases hf : k.fills with
      | false =>
        obtain ⟨st, -, hn⟩ := afterStart_twice h k (by simp [StartCalls.failsAttached, ha, hf])
        exact ⟨st ++ releaseNotes f handedOver ++ [.doubleFree], by simp [hn]⟩
      | true =>
        obtain ⟨st, -, hnext⟩ := afterStart_splicing h k ht ha hf
        obtain ⟨es, he⟩ := hnext.notes
        exact ⟨st ++ es, by rw [he, List.append_assoc]; rfl⟩

end Start

/-! ## The connect reply -/

/-- The relay's bufferevent at the call of `transocks_start_pump`. -/
def repliedBev (b : Bufferevent) (n : ℕ) (k : HandshakeCalls) : Bufferevent :=
  if k.replyDisable then Bufferevent.disable { b with input := b.input.drop n }
  else { b with input := b.input.drop n }

section Reply

variable {m : PumpMethod} {c : Conn} {f : Side → ℕ} {b : Bufferevent} {n : ℕ} {k : HandshakeCalls}

theorem repliedBev_input : (repliedBev b n k).input = b.input.drop n := by
  unfold repliedBev
  split <;> rfl

theorem repliedBev_output : (repliedBev b n k).output = b.output := by
  unfold repliedBev
  split <;> rfl

theorem Handshaking.replied (h : Handshaking c f b) (n : ℕ) (k : HandshakeCalls) :
    Handshaking (replyAccepted c b n k) f (repliedBev b n k) := by
  have hfields : (repliedBev b n k).fd = b.fd ∧ (repliedBev b n k).writecb = b.writecb ∧
      (repliedBev b n k).readcb = b.readcb ∧ (repliedBev b n k).eventcb = b.eventcb := by
    unfold repliedBev
    split <;> exact ⟨rfl, rfl, rfl, rfl⟩
  exact (h.setRelay (repliedBev b n k) hfields.1 (hfields.2.1.trans h.writecb)
    (by rw [hfields.2.2.1]; exact h.readcb) (by rw [hfields.2.2.2]; exact h.eventcb)).setState
      .socks5FinishHandshake (by decide)

/-- The reply in the buffer is accepted and the pump starts. -/
theorem connectReplyReadcb_accepted (h : Handshaking c f b) {ev : Event}
    (ht : c.timeoutEv = some ev)
    (hlen : 10 ≤ b.input.length) (hn : connectReplyLen b.input = some n) :
    socksOnServerConnectReplyReadcb m c k = afterStart (startPump m
      (replyAccepted { c with timeoutEv := some ⟨false, false⟩ } b n k) k.start) := by
  unfold socksOnServerConnectReplyReadcb withTimerDeleted
  rw [Conn.touch_live h.live]
  simp only [ht, h.relay, if_neg (Nat.not_lt.mpr hlen), hn]
  show (match startPump m (replyAccepted { c with timeoutEv := some ⟨false, false⟩ } b n k)
    k.start with
    | (c, true) => c
    | (c, false) => clientFree c) = _
  rcases startPump m (replyAccepted { c with timeoutEv := some ⟨false, false⟩ } b n k) k.start with
    ⟨c₁, _ | _⟩ <;> rfl

/-- `socks_on_server_connect_reply_readcb` gets as far as starting the pump. -/
def AcceptsReply (c : Conn) (input : List Byte) : Prop :=
  c.timeoutEv ≠ none ∧ 10 ≤ input.length ∧ connectReplyLen input ≠ none

theorem Handshaking.connectReply_cases (h : Handshaking c f b) :
    (¬ AcceptsReply c b.input ∧
      Next (Waiting f) f c.notes (socksOnServerConnectReplyReadcb m c k)) ∨
    (AcceptsReply c b.input ∧
      PumpStart m f c.notes k.start (socksOnServerConnectReplyReadcb m c k)) := by
  cases ht : c.timeoutEv with
  | none =>
    refine .inl ⟨fun ha => ha.1 ht, ?_⟩
    unfold socksOnServerConnectReplyReadcb withTimerDeleted
    rw [Conn.touch_live h.live]
    simp only [ht]
    exact .crashed (by simp [Effect.notable])
  | some ev =>
    have h' := h.setTimer (some ⟨false, false⟩)
    by_cases hlen : 10 ≤ b.input.length
    swap
    · refine .inl ⟨fun ha => hlen ha.2.1, ?_⟩
      unfold socksOnServerConnectReplyReadcb withTimerDeleted
      rw [Conn.touch_live h.live]
      simp only [ht, h.relay, if_pos (Nat.not_le.mp hlen)]
      exact h'.next_clientFree
    cases hn : connectReplyLen b.input with
    | none =>
      refine .inl ⟨fun ha => ha.2.2 hn, ?_⟩
      unfold socksOnServerConnectReplyReadcb withTimerDeleted
      rw [Conn.touch_live h.live]
      simp only [ht, h.relay, if_neg (Nat.not_lt.mpr hlen), hn]
      exact h'.next_clientFree
    | some n =>
      refine .inr ⟨⟨by simp [ht], hlen, by simp [hn]⟩, _, _, h'.replied n k, rfl, ?_,
        connectReplyReadcb_accepted h ht hlen hn⟩
      rintro ev hev
      obtain rfl := Option.some.inj hev
      rfl

end Reply

end Transocks

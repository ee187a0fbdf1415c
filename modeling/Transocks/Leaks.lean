import Transocks.Ownership

/-!
# What is given back when a client is released

From the hand-over on, every way to a client's release gives back all it acquired, with one
exception: the start of the splice pump. `transocks_splicepump_new` returns without freeing the pump
record when one of the two pipe records cannot be allocated, and `createpipe` returns without
closing the two pipe ends when one of them cannot be made non-blocking. In both cases nothing leads
to what was acquired any more (`nothing_leaks_iff`).
-/

namespace Transocks

open Ledger Runs

/-- `createpipe` gives up on a pipe that it has created. -/
def PipeCalls.abandons (q : PipeCalls) : Bool :=
  q.pipe.isSome && !(q.nonblockRead && q.nonblockWrite)

/-- `transocks_splicepump_new` gives up on a pump record that it has allocated. -/
def StartCalls.losesRecord (k : StartCalls) : Bool :=
  k.bevDisable .client && k.bevDisable .relay && k.mallocPump &&
    !(k.mallocPipe .inbound && k.mallocPipe .outbound)

/-- A pipe is created and neither of its ends reaches the pump record. -/
def StartCalls.losesPipe (k : StartCalls) : Bool :=
  k.attaches && ((k.pipe .inbound).abandons ||
    ((k.pipe .inbound).created && (k.pipe .outbound).abandons))

def StartCalls.leaks (k : StartCalls) : Bool := k.losesRecord || k.losesPipe

/-! ## The stages of a start -/

/-- A stage that succeeds leaves the client as `J` says, one that jumps to `fail` as `I` says. -/
def Ends (J I : Conn → Prop) : Stage → Prop
  | .ok c => J c
  | .error c => I c

theorem Ends.bind {J K I : Conn → Prop} {x : Stage} {g : Conn → Stage} (h : Ends J I x)
    (hg : ∀ c, J c → Ends K I (g c)) : Ends K I (x >>= g) := by
  cases x with
  | ok c => exact hg c h
  | error c => exact h

def Filled (c : Conn) : Prop := Solvent c ∧ ∃ p, c.userArg = some p

section Stages

variable {c : Conn} {p : Splicepump} {d : Direction}

theorem Filled.modPump (h : Filled c) {g : Splicepump → Splicepump}
    (hg : ∀ p, PumpRetains p (g p)) : Filled (c.modPump g) := by
  obtain ⟨hs, p, hp⟩ := h
  have heq : c.modPump g = c.setPump (g p) := by simp [Conn.modPump, Conn.setPump, hp]
  rw [heq]
  exact ⟨hs.quiet ((Retains.refl c).setPump hp (hg p)) rfl hs.notFreed rfl, g p, rfl⟩

theorem Filled.alloc (h : Filled c) {g : Splicepump → Splicepump} {o : Obj}
    (hg : ∀ p, PumpRetains p (g p)) (ho : ∀ p, (g p).owns (.obj o)) :
    Filled ((c.modPump g).emits [.alloc o]) := by
  obtain ⟨hs, p, hp⟩ := h.modPump hg
  refine ⟨hs.step ((Retains.refl _).emits _) rfl hs.notFreed rfl fun e he x hx => ?_, p, hp⟩
  obtain rfl := List.mem_singleton.mp he
  obtain rfl := Option.some.inj hx
  obtain ⟨-, q, hq⟩ := h
  exact .inr ⟨g q, by simp [Conn.modPump, hq], ho q⟩

theorem pumpRetains_setPipe (p : Splicepump) {q : Splicepipe}
    (hr : ∀ n : ℕ, (p.pipe d).pipeReadfd = n → q.pipeReadfd = n)
    (hw : ∀ n : ℕ, (p.pipe d).pipeWritefd = n → q.pipeWritefd = n) :
    PumpRetains p (p.setPipe d q) := by
  refine ⟨fun t => ?_, fun t => ?_, fun _ h => h, fun _ h => h⟩
  · rcases Direction.eq_or_eq_other d t with rfl | rfl
    · simpa using hr
    · simp
  · rcases Direction.eq_or_eq_other d t with rfl | rfl
    · simpa using hw
    · simp

theorem pumpRetains_setReadEv (p : Splicepump) {e : Option Event}
    (he : (p.readEv d).isSome → e.isSome) : PumpRetains p (p.setReadEv d e) := by
  refine ⟨fun _ _ h => h, fun _ _ h => h, fun t => ?_, fun _ h => h⟩
  rcases Direction.eq_or_eq_other d t with rfl | rfl
  · simpa using he
  · simp

theorem pumpRetains_setWriteEv (p : Splicepump) {e : Option Event}
    (he : (p.writeEv d).isSome → e.isSome) : PumpRetains p (p.setWriteEv d e) := by
  refine ⟨fun _ _ h => h, fun _ _ h => h, fun _ h => h, fun t => ?_⟩
  rcases Direction.eq_or_eq_other d t with rfl | rfl
  · simpa using he
  · simp

theorem pipesizeStage_ends (h : Filled c) (q : PipeCalls) :
    Ends Filled Filled (pipesizeStage c d q) := by
  unfold pipesizeStage
  split
  · exact h
  · exact h.modPump fun p => pumpRetains_setPipe p (fun _ h => h) fun _ h => h

theorem newReadEvStage_ends (h : Filled c) (ok : Bool) :
    Ends Filled Filled (newReadEvStage c d ok) := by
  cases ok with
  | false => exact h
  | true =>
    refine h.alloc (fun p => pumpRetains_setReadEv p fun _ => rfl) fun p => ?_
    simp [Splicepump.owns]

theorem newWriteEvStage_ends (h : Filled c) (ok : Bool) :
    Ends Filled Filled (newWriteEvStage c d ok) := by
  cases ok with
  | false => exact h
  | true =>
    refine h.alloc (fun p => pumpRetains_setWriteEv p fun _ => rfl) fun p => ?_
    simp [Splicepump.owns]

theorem addReadEvStage_ends (h : Filled c) (ok : Bool) :
    Ends Filled Filled (addReadEvStage c d ok) := by
  cases ok with
  | false => exact h
  | true => exact h.modPump fun p => pumpRetains_setReadEv p (by simp)

theorem addWriteEvStage_ends (h : Filled c) (ok : Bool) :
    Ends Filled Filled (addWriteEvStage c d ok) := by
  cases ok with
  | false => exact h
  | true => exact h.modPump fun p => pumpRetains_setWriteEv p (by simp)

def Splicepump.Unpiped (p : Splicepump) (d : Direction) : Prop :=
  (p.pipe d).pipeReadfd = -1 ∧ (p.pipe d).pipeWritefd = -1

/-- The pump record once `createpipe` has stored the ends of a pipe. -/
def Splicepump.piped (p : Splicepump) (d : Direction) (r w : ℕ) : Splicepump :=
  p.setPipe d { p.pipe d with pipeReadfd := r, pipeWritefd := w }

/-- A pipe is created and its ends reach the record. -/
theorem Solvent.piped (h : Solvent c) (hp : c.userArg = some p) (hd : p.Unpiped d) (r w : ℕ) :
    Solvent (((c.setPump (p.piped d r w)).setKern d Kern.new).emits
      [.opened (.pipeRead d) r, .opened (.pipeWrite d) w]) := by
  have hnone : ∀ n : ℕ, ¬ (-1 : ℤ) = n := fun n hn => by omega
  have hret : PumpRetains p (p.piped d r w) :=
    pumpRetains_setPipe p (fun n hn => absurd (hd.1.symm.trans hn) (hnone n)) fun n hn =>
      absurd (hd.2.symm.trans hn) (hnone n)
  refine h.step ((((Retains.refl c).setPump hp hret).setKern d _).emits _) rfl h.notFreed rfl
    fun e he x hx => .inr ⟨p.piped d r w, rfl, ?_⟩
  simp only [List.mem_cons, List.not_mem_nil, or_false] at he
  rcases he with rfl | rfl <;> obtain rfl := Option.some.inj hx
  · simp [Splicepump.owns, Splicepump.piped]
  · simp [Splicepump.owns, Splicepump.piped]

/-- `createpipe` on a record without a pipe fails, abandons the pipe it created, or stores it. -/
theorem createpipe_cases (hp : c.userArg = some p) (q : PipeCalls) :
    (createpipe c d q = .error c ∧ q.created = false ∧ q.abandons = false) ∨
      ∃ r w, (q.abandons = true ∧ q.created = false ∧ createpipe c d q =
          .error (c.emits [.opened (.pipeRead d) r, .opened (.pipeWrite d) w])) ∨
        (q.abandons = false ∧ q.created = true ∧ createpipe c d q =
          .ok (((c.setPump (p.piped d r w)).setKern d Kern.new).emits
            [.opened (.pipeRead d) r, .opened (.pipeWrite d) w])) := by
  have hmod : ∀ r w : ℕ, (c.modPump fun p => p.setPipe d
      { p.pipe d with pipeReadfd := r, pipeWritefd := w }) = c.setPump (p.piped d r w) := by
    intro r w
    simp [Conn.modPump, Conn.setPump, hp, Splicepump.piped]
  unfold createpipe PipeCalls.created PipeCalls.abandons
  cases hq : q.pipe with
  | none => exact .inl ⟨rfl, rfl, rfl⟩
  | some rw =>
    obtain ⟨r, w⟩ := rw
    refine .inr ⟨r, w, ?_⟩
    simp only [hmod]
    cases q.nonblockRead && q.nonblockWrite with
    | false => exact .inl ⟨rfl, rfl, rfl⟩
    | true => exact .inr ⟨rfl, rfl, rfl⟩

/-- The part of the start after the pump record is attached, when it abandons no pipe. -/
theorem splicepumpFill_ends {k : StartCalls} (h : Solvent c)
    (hp : c.userArg = some Splicepump.new) (hin : (k.pipe .inbound).abandons = false)
    (hout : (k.pipe .inbound).created = true → (k.pipe .outbound).abandons = false) :
    Ends Filled Filled (splicepumpFill c k) := by
  unfold splicepumpFill
  refine Ends.bind (J := fun c => Solvent c ∧ (k.pipe .inbound).created = true ∧
    ∃ p, c.userArg = some p ∧ p.Unpiped .outbound) ?_ fun c hc => ?_
  · rcases createpipe_cases (d := .inbound) hp (k.pipe .inbound) with
      ⟨heq, -, -⟩ | ⟨r, w, ⟨hab, -, -⟩ | ⟨-, hcr, heq⟩⟩
    · rw [heq]
      exact ⟨h, _, hp⟩
    · exact absurd (hab.symm.trans hin) (by decide)
    · rw [heq]
      exact ⟨h.piped (d := .inbound) hp ⟨rfl, rfl⟩ r w, hcr, _, rfl, rfl, rfl⟩
  refine Ends.bind (J := Filled) ?_ fun c h => ?_
  · obtain ⟨h₁, hcr, p₁, hp₁, hu⟩ := hc
    rcases createpipe_cases (d := .outbound) hp₁ (k.pipe .outbound) with
      ⟨heq, -, -⟩ | ⟨r, w, ⟨hab, -, -⟩ | ⟨-, -, heq⟩⟩
    · rw [heq]
      exact ⟨h₁, _, hp₁⟩
    · exact absurd (hab.symm.trans (hout hcr)) (by decide)
    · rw [heq]
      exact ⟨h₁.piped hp₁ hu r w, _, rfl⟩
  refine (pipesizeStage_ends h _).bind fun c h => ?_
  refine (pipesizeStage_ends h _).bind fun c h => ?_
  refine (newReadEvStage_ends h _).bind fun c h => ?_
  refine (newWriteEvStage_ends h _).bind fun c h => ?_
  refine (newReadEvStage_ends h _).bind fun c h => ?_
  refine (newWriteEvStage_ends h _).bind fun c h => ?_
  refine (addReadEvStage_ends h _).bind fun c h => ?_
  refine (addWriteEvStage_ends h _).bind fun c h => ?_
  refine (addReadEvStage_ends h _).bind fun c h => ?_
  exact addWriteEvStage_ends h _

theorem Solvent.handOver (h : Solvent c) : Solvent (handOver c) := by
  refine h.quiet ⟨fun _ => rfl, fun s hb => ?_, fun h => h, fun h => h, fun h => h,
    fun p hp => ⟨p, hp, PumpRetains.refl p⟩⟩ rfl h.notFreed rfl
  simpa [Transocks.handOver] using hb

theorem Solvent.pumpAttached (h : Solvent c) (hp : c.userArg = none) :
    Solvent (pumpAttached c) := by
  have ho := h.handOver
  have hret : Retains (Transocks.handOver c) (Transocks.pumpAttached c) :=
    ⟨fun _ => rfl, fun _ h => h, fun h => h, fun h => h, fun h => h,
      fun p hp' => absurd (hp.symm.trans hp') (by simp)⟩
  refine ho.step hret rfl ho.notFreed rfl fun e he x hx => .inr ⟨Splicepump.new, rfl, ?_⟩
  simp only [List.mem_cons, List.not_mem_nil, or_false] at he
  rcases he with rfl | rfl | rfl <;> obtain rfl := Option.some.inj hx <;> trivial

theorem splicepumpStages_ends {k : StartCalls} (h : Solvent c) (hp : c.userArg = none)
    (hk : k.leaks = false) : Ends Solvent Solvent (splicepumpStages c k) := by
  by_cases hc : k.bevDisable .client = true
  swap
  · have heq : splicepumpStages c k = .error c := by
      simp [splicepumpStages, splicepumpTakeFds, bevDisableStage, hc, bind, Except.bind]
    rw [heq]
    exact h
  by_cases hr : k.bevDisable .relay = true
  swap
  · have heq : splicepumpStages c k = .error (c.mapBev .client Bufferevent.disable) := by
      simp [splicepumpStages, splicepumpTakeFds, bevDisableStage, hc, hr, bind, Except.bind]
    rw [heq]
    exact h.quiet ((Retains.refl c).mapBev .client _) rfl h.notFreed rfl
  by_cases hm : k.mallocPump = true
  swap
  · have heq : splicepumpStages c k = .error (handOver c) := by
      unfold splicepumpStages
      rw [splicepumpTakeFds_eq hc hr]
      show (splicepumpNew (Transocks.handOver c) k >>= _) = _
      simp [splicepumpNew, hm, bind, Except.bind]
    rw [heq]
    exact h.handOver
  simp only [StartCalls.leaks, StartCalls.losesRecord, StartCalls.losesPipe, hc, hr, hm,
    Bool.or_eq_false_iff, Bool.and_eq_false_imp, Bool.true_and, Bool.not_eq_false'] at hk
  obtain ⟨hpipes, hlose⟩ := hk
  have hatt : k.attaches = true := by
    simp only [Bool.and_eq_true] at hpipes
    simp [StartCalls.attaches, hc, hr, hm, hpipes]
  obtain ⟨hin, hout⟩ := hlose hatt
  rw [splicepumpStages_attached hatt]
  have hfill := splicepumpFill_ends (k := k) (h.pumpAttached hp) rfl hin hout
  cases hx : splicepumpFill (Transocks.pumpAttached c) k with
  | ok c' => rw [hx] at hfill; exact hfill.1
  | error c' => rw [hx] at hfill; exact hfill.1

end Stages

/-! ## From the start on -/

/-- A client from the call of `transocks_start_pump` on that can find everything it acquired, or has
given all of it back. -/
inductive Served (m : PumpMethod) (c : Conn) : Prop
  | copies (hm : m = .bufferpump) (b : Side → Bufferevent) (h : Serving c b) (hs : Solvent c)
  | splices (hm : m = .splicepump) (f : Side → ℕ) (p : Splicepump) (h : Splicing c f p)
      (hs : Solvent c)
  | gone (hr : c.released = true) (hg : GaveBack c)

section Start

variable {m : PumpMethod} {c : Conn} {f : Side → ℕ} {b : Bufferevent} {k : StartCalls}

theorem acquireless_startPump (left : List Byte) : Acquireless [.startPump left] := by
  simp [Acquireless, Effect.acquires]

theorem Solvent.startPump (h : Solvent c) (left : List Byte) :
    Solvent (c.emits [.startPump left]) :=
  h.retains ((Retains.refl c).emits _) rfl h.notFreed rfl (acquireless_startPump left)

theorem Solvent.pumping (h : Solvent c) : Solvent { c with clientState := .pumpingData } :=
  h.quiet ((Retains.refl c).setState _) rfl (by simp) rfl

/-- A second `transocks_client_free` of a freed record. -/
theorem GaveBack.again (hr : c.released = true) (h : GaveBack c) :
    (clientFree c).released = true ∧ GaveBack (clientFree c) := by
  rw [clientFree_again hr]
  refine ⟨hr, fun x hx => ?_, ?_⟩
  · rcases outstanding_append hx with ⟨e, he, hex⟩ | ⟨hx, -⟩
    · obtain rfl := List.mem_singleton.mp he
      cases hex
    · exact h.all x hx
  · obtain ⟨es, fs, hout, hfs⟩ := h.last
    refine ⟨es, fs ++ [.doubleFree], by simp [hout], fun e he => ?_⟩
    rcases List.mem_append.mp he with he | he
    · exact hfs e he
    · obtain rfl := List.mem_singleton.mp he
      exact ⟨rfl, rfl⟩

theorem afterStart_copies (h : Handshaking c f b) (hs : Solvent c)
    (ht : ∀ ev, c.timeoutEv = some ev → ev.added = false) :
    Served .bufferpump (afterStart (startPump .bufferpump c k)) := by
  have hret : ∀ s ok, ∀ c, Solvent c ∧ c.userArg = none →
      Ends (fun c => Solvent c ∧ c.userArg = none) (fun c => Solvent c ∧ c.userArg = none)
        (bevEnableStage c s ok) := by
    rintro s ok c ⟨hs, hp⟩
    cases ok with
    | false => exact ⟨hs, hp⟩
    | true => exact ⟨hs.quiet ((Retains.refl c).mapBev s _) rfl hs.notFreed rfl, hp⟩
  have hends : Ends (fun c => Solvent c ∧ c.userArg = none)
      (fun c => Solvent c ∧ c.userArg = none)
      (bufferpumpStages (c.emits [.startPump b.input]) k) := by
    have hs' := hs.startPump b.input
    have hbevs := hs'.quiet (((Retains.refl (c.emits [.startPump b.input])).mapBev .client
      Bufferevent.forPump).mapBev .relay Bufferevent.forPump) rfl hs'.notFreed rfl
    exact (hret .client _ _ ⟨hbevs, h.noPump⟩).bind (hret .relay _)
  cases hst : bufferpumpStages (c.emits [.startPump b.input]) k with
  | ok c₁ =>
    rw [hst] at hends
    have hok : startPump .bufferpump c k = ({ c₁ with clientState := .pumpingData }, true) := by
      rw [startPump_eq h]
      simp only [startPumpFn, bufferpumpStartPump, hst, marked]
      rw [Conn.touch_live hends.1.live]
    obtain ⟨-, hserving⟩ := h.serving_start ht hok
    rw [hok]
    exact .copies rfl _ hserving hends.1.pumping
  | error c₁ =>
    rw [hst] at hends
    have heq : afterStart (startPump .bufferpump c k) = clientFree c₁ := by
      rw [startPump_eq h]
      simp only [startPumpFn, bufferpumpStartPump, hst, marked, afterStart]
    rw [heq]
    obtain ⟨hr, hg⟩ := hends.1.clientFree hends.2
    exact .gone hr hg

theorem afterStart_splices (h : Handshaking c f b) (hs : Solvent c)
    (ht : ∀ ev, c.timeoutEv = some ev → ev.added = false) (hk : k.leaks = false) :
    Served .splicepump (afterStart (startPump .splicepump c k)) := by
  have hends := splicepumpStages_ends (k := k) (hs.startPump b.input) h.noPump hk
  cases hst : splicepumpStages (c.emits [.startPump b.input]) k with
  | ok c₁ =>
    rw [hst] at hends
    have hok : startPump .splicepump c k = ({ c₁ with clientState := .pumpingData }, true) := by
      rw [startPump_eq h]
      simp only [startPumpFn, splicepumpStartPump, hst, marked]
      rw [Conn.touch_live hends.live]
    obtain ⟨p, hp⟩ := h.splicing_start ht hok
    rw [hok]
    exact .splices rfl f p hp hends.pumping
  | error c₁ =>
    rw [hst] at hends
    rw [afterStart_failed h hst]
    cases hp : c₁.userArg with
    | none =>
      -- the label `fail` finds no pump and leaves the client to the caller
      rw [splicepumpFree_unattached hends.live hp]
      obtain ⟨hr, hg⟩ := hends.clientFree hp
      exact .gone hr hg
    | some p =>
      obtain ⟨hr, hg⟩ := hends.splicepumpFree hp
      obtain ⟨hr', hg'⟩ := hg.again hr
      exact .gone hr' hg'

/-- The pump record is allocated and one of the pipe records is not. -/
theorem splicepumpStages_losesRecord (hk : k.losesRecord = true) :
    ∃ es, Spares (.obj .pump) es ∧
      splicepumpStages c k = .error ((handOver c).emits (.alloc .pump :: es)) := by
  simp only [StartCalls.losesRecord, Bool.and_eq_true] at hk
  obtain ⟨⟨⟨hc, hr⟩, hm⟩, hpipes⟩ := hk
  have hst : splicepumpStages c k =
      (splicepumpNew (handOver c) k >>= fun c => splicepumpFill c k) := by
    unfold splicepumpStages
    rw [splicepumpTakeFds_eq hc hr]
    rfl
  rw [hst]
  unfold splicepumpNew
  cases hin : k.mallocPipe .inbound with
  | false =>
    refine ⟨[], by simp [Spares], ?_⟩
    simp [hm, bind, Except.bind]
  | true =>
    have hout : k.mallocPipe .outbound = false := by simpa [hin] using hpipes
    refine ⟨[.alloc (.pipe .inbound)], by simp [Spares, Effect.releases], ?_⟩
    simp [hm, hout, bind, Except.bind]

/-- One of the two pipes is created and abandoned. -/
theorem splicepumpFill_losesPipe (hp : c.userArg = some Splicepump.new)
    (hk : ((k.pipe .inbound).abandons ||
      ((k.pipe .inbound).created && (k.pipe .outbound).abandons)) = true) :
    ∃ (c₁ : Conn) (p : Splicepump) (d : Direction) (r w : ℕ), splicepumpFill c k =
        .error (c₁.emits [.opened (.pipeRead d) r, .opened (.pipeWrite d) w]) ∧
      c₁.userArg = some p ∧ p.Unpiped d ∧ c₁.released = c.released ∧
      c₁.clientState = c.clientState := by
  unfold splicepumpFill
  rcases createpipe_cases (d := .inbound) hp (k.pipe .inbound) with
    ⟨-, hcr, hab⟩ | ⟨r, w, ⟨-, -, heq⟩ | ⟨hab, -, heq⟩⟩
  · simp [hcr, hab] at hk
  · rw [heq]
    exact ⟨c, _, .inbound, r, w, rfl, hp, ⟨rfl, rfl⟩, rfl, rfl⟩
  · rw [heq]
    have hout : (k.pipe .outbound).abandons = true := by
      rw [hab, Bool.false_or, Bool.and_eq_true] at hk
      exact hk.2
    have hp₁ : (((c.setPump (Splicepump.new.piped .inbound r w)).setKern .inbound Kern.new).emits
        [.opened (.pipeRead .inbound) r, .opened (.pipeWrite .inbound) w]).userArg =
          some (Splicepump.new.piped .inbound r w) := rfl
    rcases createpipe_cases (d := .outbound) hp₁ (k.pipe .outbound) with
      ⟨-, -, hab'⟩ | ⟨r', w', ⟨-, -, heq'⟩ | ⟨hab', -, -⟩⟩
    · exact absurd (hab'.symm.trans hout) (by decide)
    · refine ⟨_, _, .outbound, r', w', ?_, hp₁, ⟨rfl, rfl⟩, rfl, rfl⟩
      show (createpipe _ .outbound _ >>= _) = _
      rw [heq']
      rfl
    · exact absurd (hab'.symm.trans hout) (by decide)

/-- **A start of the splice pump that loses something** releases the client without it. -/
theorem afterStart_leaks (h : Handshaking c f b) (hk : k.leaks = true) :
    (afterStart (startPump .splicepump c k)).released = true ∧
      ∃ x, (afterStart (startPump .splicepump c k)).Holds x := by
  have hemit := h.emits [.startPump b.input]
  have ho := hemit.toAttached.handOver
  rcases Bool.or_eq_true .. |>.mp hk with hrec | hpipe
  · obtain ⟨es, hes, hst⟩ := splicepumpStages_losesRecord (c := c.emits [.startPump b.input]) hrec
    rw [afterStart_failed h hst, splicepumpFree_unattached (by exact ho.live) (by exact h.noPump)]
    refine ⟨clientFree_released (by exact ho.live) (by exact ho.notFreed), .obj .pump, ?_⟩
    refine Conn.Holds.clientFree (Outstanding.of_mem rfl hes) ho.live ho.notFreed ?_
    rintro (hown | ⟨p, hp, -⟩)
    · exact hown
    · exact absurd (h.noPump.symm.trans hp) (by simp)
  · obtain ⟨hatt, hlost⟩ := Bool.and_eq_true .. |>.mp hpipe
    obtain ⟨c₁, p, d, r, w, hfill, hp, hd, hl, hs⟩ := splicepumpFill_losesPipe
      (c := pumpAttached (c.emits [.startPump b.input])) rfl hlost
    have hl₁ : c₁.released = false := hl.trans ho.live
    have hs₁ : c₁.clientState ≠ .destroyed ∧ c₁.clientState ≠ .destroying := by
      rw [hs]
      exact ho.notFreed
    have hst := (splicepumpStages_attached (c := c.emits [.startPump b.input]) hatt).trans hfill
    have hheld : (c₁.emits [.opened (.pipeRead d) r, .opened (.pipeWrite d) w]).Holds
        (.fd (.pipeRead d) r) := Outstanding.of_mem rfl (by simp [Effect.releases])
    have hlost : ¬ (c₁.emits [.opened (.pipeRead d) r, .opened (.pipeWrite d) w]).owns
        (.fd (.pipeRead d) r) := by
      rintro (hown | ⟨q, hq, hown⟩)
      · exact hown
      · obtain rfl := Option.some.inj (hp.symm.trans hq)
        have hneg : (-1 : ℤ) = r := hd.1.symm.trans hown
        omega
    have hkeep := hheld.splicepumpFree hl₁ hs₁ hp hlost
    have hrel : (splicepumpFree (c₁.emits
        [.opened (.pipeRead d) r, .opened (.pipeWrite d) w])).released = true := by
      rw [splicepumpFree_eq (by exact hl₁) (by exact hp)]
      exact clientFree_released (by exact hl₁) (by exact hs₁)
    rw [afterStart_failed h hst, clientFree_again hrel]
    exact ⟨hrel, _, hkeep.append (by simp [Effect.releases])⟩

end Start

/-! ## The pumps -/

section Pumps

variable {c c₁ : Conn} {b b₁ : Side → Bufferevent} {f : Side → ℕ} {p : Splicepump} {d : Direction}
  {ev : Ev} {k : Splice}

theorem Solvent.shutdownWrite (h : Solvent c) (s : Side) : Solvent (shutdownWrite s c) :=
  h.retains (((Retains.refl c).setEnd (by rfl) (by exact id)).emits _) rfl h.notFreed rfl
    (by simp [Acquireless, Effect.acquires])

theorem Solvent.eofMarked (h : Solvent c) (s : Side) (b : Side → Bufferevent) :
    Solvent (eofMarked s c b) :=
  h.retains (((Retains.refl c).setEnd (by rfl) (by simp)).emits _) rfl h.notFreed rfl
    (by simp [Acquireless, Effect.acquires])

theorem CopyMove.solvent (hm : CopyMove c b ev c₁ b₁) (h : Solvent c) : Solvent c₁ := by
  have hflush : ∀ s n, Solvent (c.flushed s (b s) n) := fun s n =>
    h.quiet ((Retains.refl c).setEnd (by rfl) (by simp)) rfl h.notFreed rfl
  cases hm with
  | @read s bs k he =>
    exact h.quiet (((Retains.refl c).setEnd (by rfl) (by simp)).setBev _ _) rfl h.notFreed rfl
  | @wrote s n hw => exact hflush s n
  | @drained s n ho hr => exact (hflush s n).shutdownWrite s
  | @eof s w e k hw ho => exact h.eofMarked s b
  | @eofDrained s w e k hw ho => exact (h.eofMarked s b).shutdownWrite s.other
  | @writeEof s w e k hr hw =>
    exact h.retains (((Retains.refl c).setEnd (by rfl) (by simp)).emits _) rfl h.notFreed rfl
      (by simp [Acquireless, Effect.acquires])
  | ignored hr => exact h

theorem Serving.free (h : Serving c b) (hs : Solvent c) :
    (bufferpumpFree c).released = true ∧ GaveBack (bufferpumpFree c) := by
  rw [h.toRelaying.bufferpumpFree_eq]
  refine (hs.quiet (((Retains.refl c).mapBev .client _).mapBev .relay _) rfl hs.notFreed
    rfl).clientFree ?_
  exact h.noPump

/-- Calls that shut a socket down and close a pipe end. -/
theorem acquireless_eof (s : Side) (fd fd' : Fd) (how : How) (g : Handle) :
    Acquireless ([Effect.shutdown s fd how] ++ closeEffect g fd') :=
  Acquireless.append (by simp [Acquireless, Effect.acquires]) (acquireless_closeEffect g fd')

theorem FillMove.filled (hm : FillMove c p d k c₁) (hp : c.userArg = some p) (h : Solvent c) :
    Filled c₁ := by
  have hret := Retains.refl c
  cases hm with
  | transfer hb =>
    refine ⟨h.quiet ((hret.setKern d _).setPump hp ?_) rfl h.notFreed rfl, _, rfl⟩
    exact pumpRetains_setPipe p (fun _ h => h) fun _ h => h
  | retry he => exact ⟨h, p, hp⟩
  | activate he =>
    refine ⟨h.quiet (hret.setPump hp ?_) rfl h.notFreed rfl, _, rfl⟩
    exact pumpRetains_setWriteEv p (by simp)
  | eof =>
    have hpump : PumpRetains p (p.setReadEv d ((p.readEv d).map Event.del)) :=
      pumpRetains_setReadEv p (by simp)
    have hflag := (hret.setEnd (s := d.source) (e := { c.ends d.source with shutRead := true })
      rfl id).setKern d { c.kern d with writeOpen := false }
    exact ⟨h.retains ((hflag.setPump hp hpump).emits _) rfl h.notFreed rfl
      (acquireless_eof _ _ _ _ _), _, rfl⟩

theorem DrainMove.filled (hm : DrainMove c p d k c₁) (hp : c.userArg = some p) (h : Solvent c) :
    Filled c₁ := by
  have hret := Retains.refl c
  cases hm with
  | transfer hb =>
    refine ⟨h.quiet ((hret.setKern d _).setPump hp ?_) rfl h.notFreed rfl, _, rfl⟩
    exact pumpRetains_setPipe p (fun _ h => h) fun _ h => h
  | retry he => exact ⟨h, p, hp⟩
  | eof =>
    exact ⟨h.retains (((hret.setEnd (by rfl) (by exact id)).setKern d _).emits _) rfl h.notFreed rfl
      (acquireless_eof _ _ _ _ _), p, hp⟩

theorem Filled.check (h : Filled c) :
    (checkNormalTermination c d = c ∧ Solvent c) ∨
      ((checkNormalTermination c d).released = true ∧ GaveBack (checkNormalTermination c d)) := by
  obtain ⟨hs, p, hp⟩ := h
  rw [checkNormalTermination_live hs.live]
  split
  · exact .inr (hs.splicepumpFree hp)
  · exact .inl ⟨rfl, hs⟩

theorem Splicing.solvent_step (h : Splicing c f p) (hs : Solvent c) (hev : ev.isSplice = true) :
    Served .splicepump (c.step .splicepump ev) := by
  have hdone : ∀ {c₂ : Conn}, c.step .splicepump ev = c₂ →
      Solvent c₂ ∨ (c₂.released = true ∧ GaveBack c₂) → Served .splicepump c₂ := by
    rintro c₂ rfl (hsolv | ⟨hr, hg⟩)
    · rcases h.splice_cases hev with ⟨p', hp'⟩ | hi
      · exact .splices rfl f p' hp' hsolv
      · exact absurd (hi.released.symm.trans hsolv.live) (by decide)
    · exact .gone hr hg
  have hcheck : ∀ {c₁ d}, Filled c₁ → c.step .splicepump ev = checkNormalTermination c₁ d →
      Served .splicepump (c.step .splicepump ev) := fun hf heq => by
    rcases hf.check with ⟨hsame, hsolv⟩ | hgone
    · exact hdone rfl (.inl (by rw [heq, hsame]; exact hsolv))
    · exact hdone rfl (.inr (by rw [heq]; exact hgone))
  obtain ⟨p₀, d, hp₀, hstep⟩ := step_splice (m := .splicepump) h.live h.pump hev
  have hw : Solvent (c.setPump p₀) := by
    refine hs.quiet ((Retains.refl c).setPump h.pump ?_) rfl hs.notFreed rfl
    rcases hp₀ with rfl | rfl
    · exact pumpRetains_setReadEv p (by simp)
    · exact pumpRetains_setWriteEv p (by simp)
  rcases hstep with heq | ⟨c₁, q, hm | hm, heq⟩
  · exact hdone rfl (.inr (by rw [heq]; exact hw.splicepumpFree rfl))
  · exact hcheck (hm.filled rfl hw) heq
  · exact hcheck (hm.filled rfl hw) heq

/-- **One turn of a client from the start on.** -/
theorem Served.turn {m : PumpMethod} {t : Turn} {c' : Conn} (h : Served m c)
    (hs : LifeStep m c t c') : Served m c' := by
  cases h with
  | copies hm b h hsolv =>
    subst hm
    obtain ⟨c₂, b₂, h₂, hmove, hc'⟩ := h.turn hs
    have hsolv₂ : Solvent c₂ := by
      rcases hmove with ⟨ev, -, hmv⟩ | ⟨rfl, -⟩
      · exact hmv.solvent hsolv
      · exact hsolv
    rcases hc' with rfl | rfl
    · exact .copies rfl b₂ h₂ hsolv₂
    · obtain ⟨hr, hg⟩ := h₂.free hsolv₂
      exact .gone hr hg
  | splices hm f p h hsolv =>
    subst hm
    obtain ⟨-, hpos, rfl⟩ := hs
    cases t with
    | callback ev => exact h.solvent_step hsolv (h.enabled hpos)
    | drop =>
      obtain ⟨hr, hg⟩ := hsolv.splicepumpFree h.pump
      exact .gone hr hg
  | gone hr hg => exact absurd (hr.symm.trans hs.1) (by decide)

end Pumps

/-! ## The handshake -/

section Handshake

variable {m : PumpMethod} {l : Leg} {a : SockAddr} {c c' : Conn} {f : Side → ℕ} {b : Bufferevent}

/-- A client whose calls acquired only what it can find. -/
theorem Solvent.of_out (hl : c.released = false)
    (hs : c.clientState ≠ .destroyed ∧ c.clientState ≠ .destroying)
    (h : ∀ e ∈ c.out, ∀ x, e.acquires = some x → c.owns x) : Solvent c := by
  refine ⟨hl, hs, ?_⟩
  have hnil : Covered Effect.acquires Effect.releases c.owns [] :=
    fun x hx => absurd hx outstanding_nil
  exact hnil.append h fun x hx _ => hx

theorem waitingConn_out (k : AcceptCalls) (n r : ℕ) (a : SockAddr) :
    (waitingConn k n r a).out = [Effect.opened (.sock .client) n] ++ newEffects k ++
      [.alloc (.bev .client), .listAddTail, .opened (.sock .relay) r, .alloc (.bev .relay)] ++
      if k.timer.evtimerNew then [Effect.alloc .timer] else [] := by
  unfold waitingConn
  rw [connecting_timer]
  simp [connecting, listed, addressed, allocated, Conn.new]

theorem mem_newEffects {k : AcceptCalls} {e : Effect} (he : e ∈ newEffects k) :
    e = .alloc .record ∨ e = .listInit ∨ e = .alloc .clientAddr ∨ e = .alloc .destAddr := by
  unfold newEffects at he
  split_ifs at he <;> simp at he <;> tauto

theorem solvent_waitingConn (k : AcceptCalls) (n r : ℕ) (a : SockAddr) :
    Solvent (waitingConn k n r a) := by
  have h := atLeg_waitingConn k n r a
  refine .of_out h.live h.notFreed fun e he x hx => .inl ?_
  have hbev : ∀ s, ((waitingConn k n r a).ends s).bev.isSome := fun s => by
    obtain ⟨b, hb, -⟩ := h.bev s
    simp [hb]
  have hclient : (waitingConn k n r a).clientAddr = some k.srcAddr := by
    unfold waitingConn
    rw [connecting_timer]
    rfl
  rw [waitingConn_out] at he
  simp only [List.mem_append, List.mem_cons, List.not_mem_nil, or_false] at he
  rcases he with ((rfl | he) | rfl | rfl | rfl | rfl) | he
  · obtain rfl := Option.some.inj hx
    exact h.fd .client
  · rcases mem_newEffects he with rfl | rfl | rfl | rfl
    · obtain rfl := Option.some.inj hx
      trivial
    · cases hx
    · obtain rfl := Option.some.inj hx
      simp [Conn.ownsAlone, hclient]
    · obtain rfl := Option.some.inj hx
      simp [Conn.ownsAlone, h.dest]
  · obtain rfl := Option.some.inj hx
    exact hbev .client
  · cases hx
  · obtain rfl := Option.some.inj hx
    exact h.fd .relay
  · obtain rfl := Option.some.inj hx
    exact hbev .relay
  · split_ifs at he with ht
    · obtain rfl := List.mem_singleton.mp he
      obtain rfl := Option.some.inj hx
      simp [Conn.ownsAlone, waitingConn_timeoutEv, ht]
    · cases he

theorem Solvent.received (h : Solvent c) (b : Bufferevent) (bs : List Byte) :
    Solvent (c.received .relay b bs) :=
  h.quiet ((Retains.refl c).setEnd (by rfl) (by simp)) rfl h.notFreed rfl

theorem Solvent.heard (h : Solvent c) (b : Bufferevent) (ev : Ev) : Solvent (heard c b ev) := by
  unfold Transocks.heard
  split
  · exact h.received b _
  · exact h

theorem Solvent.awaits (h : Solvent c) (b : Bufferevent) (msg : List Byte) (low : ℕ) (cb : ReadCb)
    (t : TimerCalls) : Solvent (awaits c b msg low cb t) :=
  h.quiet (((Retains.refl c).setBev .relay _).setTimer _) rfl h.notFreed rfl

/-- A callback that keeps a client waiting loses nothing. -/
theorem HandshakeMove.solvent {ev : Ev} (hm : HandshakeMove m a c b ev c') (h : AtLeg l a c f b)
    (hs : Solvent c) (hlive : c'.released = false) (hst : c'.clientState ≠ .pumpingData) :
    Solvent c' := by
  cases hm with
  | crashed _ ht =>
    have hheard := hs.heard b ev
    exact hheard.retains ((Retains.refl _).emits _) rfl hheard.notFreed rfl
      (by simp [Acquireless, Effect.acquires])
  | @refused _ b₂ ht hfd =>
    have hheard := hs.heard b ev
    have hrel := clientFree_released (c := (timerOff (heard c b ev)).setBev .relay (some b₂))
      hheard.live hheard.notFreed
    exact absurd (hrel.symm.trans hlive) (by decide)
  | ignored ht hw => exact hs.quiet ((Retains.refl c).setTimer _) rfl hs.notFreed rfl
  | connected ht hcb =>
    have hstate : Solvent { c with clientState := .relayConnected } :=
      hs.quiet ((Retains.refl c).setState _) rfl (by simp) rfl
    exact hstate.awaits b _ _ _ _
  | short hshort => exact hs.received b _
  | selected ht hcb hin hreq => exact (hs.received b _).awaits _ _ _ _ _
  | @started bs k n ht hcb hlen hn =>
    rcases h.afterStart_done (m := m) bs n k with hrel | hp
    · exact absurd (hrel.symm.trans hlive) (by decide)
    · exact absurd hp hst
  | flushed => exact hs.quiet ((Retains.refl c).setEnd (by rfl) (by simp)) rfl hs.notFreed rfl
  | idle => exact hs

/-- A client on its way to the call of `transocks_start_pump`, or past it. -/
inductive Progress (m : PumpMethod) (c : Conn) : Prop
  | waits (l : Leg) (a : SockAddr) (f : Side → ℕ) (b : Bufferevent) (h : AtLeg l a c f b)
      (hs : Solvent c)
  | copies (hm : m = .bufferpump) (b : Side → Bufferevent) (h : Serving c b)
  | splices (hm : m = .splicepump) (f : Side → ℕ) (p : Splicepump) (h : Splicing c f p)
  | gone (hr : c.released = true)

/-- **One turn of a client.** -/
theorem Progress.turn {t : Turn} (h : Progress m c) (hs : LifeStep m c t c') : Progress m c' := by
  cases h with
  | waits l a f b h hsolv =>
    rcases h.turn hs with ⟨l', b', h', -, -⟩ | ⟨bs, n, k, rfl, rfl, -, -, hst⟩ | ⟨hi, -, -⟩
    · refine .waits l' a f b' h' ?_
      have hne : c'.clientState ≠ .pumpingData := by
        rw [h'.state]
        cases l' <;> decide
      obtain ⟨-, hpos, rfl⟩ := hs
      cases t with
      | callback ev => exact (h.toHandshaking.move h.dest hpos).solvent h hsolv h'.live hne
      | drop =>
        cases m with
        | splicepump =>
          have heq : c.turn .splicepump .drop = c := h.toHandshaking.drop.1
          rw [heq]
          exact hsolv
        | bufferpump =>
          have heq : c.turn .bufferpump .drop = _ := h.toHandshaking.drop.2
          have hrel := h'.live
          rw [heq, clientFree_released (by exact h.live) (by exact h.notFreed)] at hrel
          cases hrel
    · rcases h.started hst with ⟨rfl, b', hserv⟩ | ⟨rfl, p, hp⟩
      · exact .copies rfl b' hserv
      · exact .splices rfl f p hp
    · exact .gone hi.released
  | copies hm b h =>
    subst hm
    obtain ⟨c₂, b₂, h₂, -, rfl | rfl⟩ := h.turn hs
    · exact .copies rfl b₂ h₂
    · exact .gone h₂.toRelaying.bufferpumpFree.1
  | splices hm f p h =>
    subst hm
    obtain ⟨-, hpos, rfl⟩ := hs
    cases t with
    | callback ev =>
      rcases h.splice_cases (h.enabled hpos) with ⟨p', h'⟩ | hi
      · exact .splices rfl f p' h'
      · exact .gone hi.released
    | drop => exact .gone (h.toAttached.splicepumpFree h.pump).1.released
  | gone hr => exact absurd (hr.symm.trans hs.1) (by decide)

/-- Only a client that waits for the connect reply starts a pump, and it can find everything it
acquired when it does. -/
theorem Progress.start {k : StartCalls} {ev : Ev} (h : Progress m c) (hl : c.released = false)
    (hen : c.Enabled ev) (hst : c.Starts k ev) :
    ∃ c₁ f b, Handshaking c₁ f b ∧ Solvent c₁ ∧
      (∀ e, c₁.timeoutEv = some e → e.added = false) ∧
      c.step m ev = afterStart (startPump m c₁ k) := by
  cases ev with
  | read s bs kh =>
    cases s with
    | client => exact absurd hst id
    | relay =>
      obtain ⟨rfl, b', hb', hcb, hlow, ht, hlen, hn⟩ := hst
      cases h with
      | waits l a f b h hs =>
        obtain rfl := Option.some.inj (h.relay.symm.trans hb')
        obtain ⟨e, he⟩ := Option.ne_none_iff_exists'.mp ht
        obtain ⟨n, hn⟩ := Option.ne_none_iff_exists'.mp hn
        have hrec := h.toHandshaking.received bs
        have hsolv : Solvent (atStart c b bs n kh) :=
          (hs.received b bs).quiet ((((Retains.refl _).setTimer _).setBev .relay _).setState _) rfl
            (by simp [atStart, replyAccepted]) rfl
        refine ⟨atStart c b bs n kh, f, _, h.atStart bs n kh, hsolv, atStart_timer c b bs n kh, ?_⟩
        simp only [Conn.step, hb', hcb, if_neg (Nat.not_lt.mpr hlow)]
        exact connectReplyReadcb_accepted hrec he hlen hn
      | copies hm b h =>
        obtain rfl := Option.some.inj ((h.bev .relay).symm.trans hb')
        exact absurd ((h.cbs .relay).1.symm.trans hcb) (by decide)
      | splices hm f p h =>
        obtain ⟨o, ho, hfd, -⟩ := hen
        exact absurd hfd (h.no_bev ho)
      | gone hr => exact absurd (hr.symm.trans hl) (by decide)
  | _ => exact absurd hst id

/-- **What a released client gave back.** In every run from the accept through a call of
`transocks_start_pump` to the release, everything acquired for the client was given back by the time
its record was freed, if and only if the start was not one of the splice pump that loses its pump
record or a pipe. -/
theorem nothing_leaks_iff {q : AcceptCalls} {c₀ c₁ c₂ : Conn} {ts us : List Turn} {ev : Ev}
    {k : StartCalls} (hcb : (listenerCb q).1 = some c₀) (hl : c₀.released = false)
    (hshake : Run (LifeStep m) c₀ ts c₁) (hstart : c₁.Starts k ev)
    (hstep : LifeStep m c₁ (.callback ev) c₂) (hrun : Run (LifeStep m) c₂ us c)
    (hrel : c.released = true) : GaveBack c ↔ ¬ (m = .splicepump ∧ k.leaks = true) := by
  obtain ⟨n, r, a, -, -, -, rfl⟩ := listenerCb_live hcb hl
  have hprog : Progress m c₁ := hshake.invariant (I := Progress m)
    (.waits .connect a _ _ (atLeg_waitingConn q n r a) (solvent_waitingConn q n r a))
    fun _ _ _ h hs => h.turn hs
  obtain ⟨hl₁, hen, hc₂⟩ := hstep
  obtain ⟨c', f, b, h', hs', ht', heq⟩ := hprog.start hl₁ hen hstart
  obtain rfl : c₂ = afterStart (startPump m c' k) := hc₂.trans heq
  by_cases hbad : m = .splicepump ∧ k.leaks = true
  · obtain ⟨rfl, hk⟩ := hbad
    obtain ⟨hr, x, hx⟩ := afterStart_leaks h' hk
    -- the failed start has released the client, and nothing runs for it any more
    have hsame : c = afterStart (startPump .splicepump c' k) := by
      refine hrun.invariant (I := (· = afterStart (startPump .splicepump c' k))) rfl ?_
      rintro u e v rfl hs
      exact absurd (hr.symm.trans hs.1) (by decide)
    refine iff_of_false (fun hg => ?_) fun h => h ⟨rfl, hk⟩
    rw [hsame] at hg
    exact hg.all x hx
  · refine iff_of_true ?_ hbad
    have hserved : Served m (afterStart (startPump m c' k)) := by
      cases m with
      | bufferpump => exact afterStart_copies h' hs' ht'
      | splicepump => exact afterStart_splices h' hs' ht' (by simpa using hbad)
    cases hrun.invariant (I := Served m) hserved fun _ _ _ h hs => h.turn hs with
    | copies hm b h hs => exact absurd (hs.live.symm.trans hrel) (by decide)
    | splices hm f p h hs => exact absurd (hs.live.symm.trans hrel) (by decide)
    | gone hr hg => exact hg

end Handshake

/-- The turns of a handshake before the connect reply. -/
def beforeReply : List Turn := handshakeTurns.take 4

def beforeReplyConn : Conn := beforeReply.foldl (Conn.turn .splicepump) acceptedConn

theorem run_beforeReply : Run (LifeStep .splicepump) acceptedConn beforeReply beforeReplyConn := by
  refine Run.foldl ⟨?_, ?_, ?_, ?_, trivial⟩
  · exact ⟨rfl, ⟨_, rfl, by decide, .inr rfl, rfl⟩, rfl⟩
  · exact ⟨rfl, ⟨_, rfl, by decide, rfl⟩, rfl⟩
  · exact ⟨rfl, ⟨_, rfl, by decide, rfl⟩, rfl⟩
  · exact ⟨rfl, ⟨_, rfl, by decide, rfl⟩, rfl⟩

/-- The connect reply arrives; the start of the pump makes the calls `k`. -/
def replyRead (k : StartCalls) : Ev := .read .relay ipv4Reply { HandshakeCalls.ok with start := k }

theorem starts_replyRead (k : StartCalls) : beforeReplyConn.Starts k (replyRead k) :=
  ⟨rfl, _, rfl, rfl, by decide, by decide, by decide, by decide⟩

theorem lifeStep_replyRead (k : StartCalls) : LifeStep .splicepump beforeReplyConn
    (.callback (replyRead k)) (beforeReplyConn.step .splicepump (replyRead k)) :=
  ⟨rfl, ⟨_, rfl, by decide, rfl⟩, rfl⟩

theorem nothing_leaks_iff_drop : GaveBack
    (splicepumpFree (beforeReplyConn.step .splicepump (replyRead StartCalls.ok))) := by
  have hdrop : Run (LifeStep .splicepump)
      (beforeReplyConn.step .splicepump (replyRead StartCalls.ok)) [.drop]
      (splicepumpFree (beforeReplyConn.step .splicepump (replyRead StartCalls.ok))) :=
    Run.one ⟨rfl, trivial, rfl⟩
  refine (nothing_leaks_iff (q := AcceptCalls.ok) rfl rfl run_beforeReply
    (starts_replyRead StartCalls.ok) (lifeStep_replyRead StartCalls.ok) hdrop rfl).mpr ?_
  rintro ⟨-, hk⟩
  exact absurd hk (by decide)

def noPipeRecord : StartCalls := { StartCalls.ok with mallocPipe := fun d => d == .outbound }

/-- A start of the splice pump that cannot allocate the record of the inbound pipe releases the
client and leaves the pump record behind. -/
theorem failed_pipe_record_leaks :
    (listenerCb AcceptCalls.ok).1 = some acceptedConn ∧ acceptedConn.released = false ∧
      Run (LifeStep .splicepump) acceptedConn beforeReply beforeReplyConn ∧
      beforeReplyConn.Starts noPipeRecord (replyRead noPipeRecord) ∧
      LifeStep .splicepump beforeReplyConn (.callback (replyRead noPipeRecord))
        (beforeReplyConn.step .splicepump (replyRead noPipeRecord)) ∧
      (beforeReplyConn.step .splicepump (replyRead noPipeRecord)).released = true ∧
      (beforeReplyConn.step .splicepump (replyRead noPipeRecord)).Holds (.obj .pump) ∧
      ¬ GaveBack (beforeReplyConn.step .splicepump (replyRead noPipeRecord)) := by
  have hheld : (beforeReplyConn.step .splicepump (replyRead noPipeRecord)).Holds (.obj .pump) := by
    refine ⟨(beforeReplyConn.step .splicepump (replyRead noPipeRecord)).out.take 11, .alloc .pump,
      (beforeReplyConn.step .splicepump (replyRead noPipeRecord)).out.drop 12, rfl, rfl, ?_⟩
    decide
  exact ⟨rfl, rfl, run_beforeReply, starts_replyRead _, lifeStep_replyRead _, rfl, hheld,
    fun hg => hg.all _ hheld⟩

end Transocks

import Transocks.Clients
import Transocks.Held

/-!
# Whose descriptors are closed, over whole runs

`World.Owned` ties the record of every client to the descriptor table of the process: a number that
a client holds under a handle belongs to that handle. A step keeps this up as long as the client
that runs obeys the discipline of `Held`, and then every pipe end it closes is its own and open.

Not every step does. The end-of-file branches of the splice pump close a local copy of a pipe end
and leave the number in the pipe record, and `transocks_splicepump_free` closes that number again;
so does libevent with the number that a freed bufferevent still holds. `ClosesOnce` names the steps
that do not get there. `run_owned` asks for less: as long as none of the closes that were done has
hit a number that belongs to somebody else, the records and the table agree.
-/

namespace Transocks

open Circular Handles Runs

/-- What a client holds belongs to it, under the handle it holds it. -/
def World.Owned (w : World) : Prop :=
  ∀ i c, w.conns i = some c → ∀ h n, c.held h = some n → w.fds n = some (.conn i h)

/-- The close of a pipe end hits a number that was allocated for that end and is still open, and no
close hits a number of another client or of the listener. -/
structure OwnClose (i : ℕ) (x : Hit Handle ℕ Owner) : Prop where
  pipeEnd : ¬ IsSock x.handle → x.owner = some (.conn i x.handle)
  notOthers : ∀ o, x.owner = some o → ∃ h, o = .conn i h

def World.ClosesOwn (w : World) : Prop := ∀ x ∈ w.closes, OwnClose x.1 x.2

/-- The step closes no descriptor again that its client closed before. A splice callback keeps to
`Conn.ClosesFresh`, a finalizer closes nothing that is in use, and the drop finds no client that saw
an end of file. -/
def ClosesOnce (w : World) : Act → Prop
  | .accept _ => True
  | .callback i ev => ∀ c, w.conns i = some c → c.ClosesFresh ev
  | .finalize j => ∀ d, w.reg.deferred[j]? = some d → 0 ≤ d.fd → w.fds d.fd.toNat = none
  | .dropAll => ∀ i c, w.conns i = some c → c.released = false → c.userArg.isSome → c.Unmarked

/-- Every close so far has hit the number of its own handle, or a number of nobody. -/
def World.HitsOwn (w : World) : Prop :=
  ∀ x ∈ w.closes, x.2.owner = none ∨ x.2.owner = some (.conn x.1 x.2.handle)

instance (w : World) : Decidable w.HitsOwn := inferInstanceAs (Decidable (∀ x ∈ w.closes, _))

/-! ## The calls of one client -/

section Calls

variable {m : PumpMethod} {w w' : World} {i n : ℕ} {c : Conn} {es : List Effect} {act : Act}
  {held held' : Handle → Option ℕ} {o : Owner}

theorem Owner.conn_injective (i : ℕ) : Function.Injective (Owner.conn i) := fun _ _ h => by
  injection h

/-- A client that obeys the discipline closes its own, and leaves what others own alone. -/
theorem exec_own (ho : Obeys IsSock held [] (fdOps es) held') (hk : w.KernelOk i es)
    (hT : ∀ h n, held h = some n → w.fds n = some (.conn i h)) :
    (w.ClosesOwn → (w.exec i es).ClosesOwn) ∧
      (∀ h n, held' h = some n → (w.exec i es).fds n = some (.conn i h)) ∧
      ∀ n o, w.fds n = some o → (∀ h, o ≠ .conn i h) → (w.exec i es).fds n = some o := by
  obtain ⟨hheld, hhits, hframe⟩ := ho.safe (Owner.conn_injective i) hk hT
    fun n hn => absurd hn (by simp)
  refine ⟨fun hw x hx => ?_, hheld, hframe⟩
  rcases List.mem_append.mp hx with hx | hx
  · exact hw x hx
  · obtain ⟨y, hy, rfl⟩ := List.mem_map.mp hx
    rcases hhits y hy with hown | ⟨hsock, hnone⟩
    · exact ⟨fun _ => hown, fun o h => ⟨y.handle, Option.some.inj (h.symm.trans hown)⟩⟩
    · exact ⟨fun h => absurd hsock h, fun o h => absurd (hnone.symm.trans h) (by simp)⟩

/-- The numbers of the other clients stay theirs. -/
theorem World.Owned.others (h : w.Owned) (hconns : ∀ j, j ≠ i → w'.conns j = w.conns j)
    (hframe : ∀ n o, w.fds n = some o → (∀ h, o ≠ .conn i h) → w'.fds n = some o)
    (hi : ∀ c, w'.conns i = some c → ∀ h n, c.held h = some n → w'.fds n = some (.conn i h)) :
    w'.Owned := by
  intro j c hc h' n hn
  by_cases hji : j = i
  · subst hji
    exact hi c hc h' n hn
  · rw [hconns j hji] at hc
    exact hframe n _ (h j c hc h' n hn) fun h he => hji (by injection he)

theorem ran_keep (ho : w.Owned) (hkeep : Keep held c.out c.held) (hk : w.KernelOk i c.out)
    (hT : ∀ h n, held h = some n → w.fds n = some (.conn i h)) :
    (w.ClosesOwn → (w.ran i c).ClosesOwn) ∧ (w.ran i c).Owned := by
  obtain ⟨held₀, hob, hs⟩ := hkeep
  obtain ⟨hcl, hheld, hframe⟩ := exec_own hob hk hT
  refine ⟨hcl, ho.others (fun j hj => ran_conns_ne hj) hframe fun c' hc' h n hn => ?_⟩
  obtain rfl := Option.some.inj (ran_conns_same.symm.trans hc')
  exact hheld h n (hs h n hn)

theorem Registry.foldl_faulty {r : Registry} {e : Effect} (h : e ∈ es)
    (he : e = .badPointer ∨ e = .doubleFree) : (es.foldl (Registry.perform i) r).fault ≠ none := by
  obtain ⟨pre, post, rfl⟩ := List.append_of_mem h
  rw [List.foldl_append, List.foldl_cons]
  obtain ⟨x, hx⟩ : ∃ x, ((pre.foldl (Registry.perform i) r).perform i e).fault = some x := by
    cases hf : (pre.foldl (Registry.perform i) r).fault with
    | none =>
      refine ⟨e, ?_⟩
      rcases he with rfl | rfl <;> simp [Registry.perform, Registry.faulted, hf]
    | some x => exact ⟨x, Registry.perform_fault hf⟩
  rw [Registry.foldl_fault hx]
  exact Option.some_ne_none x

theorem ran_faulty (h : Faulty c) : (w.ran i c).reg.fault ≠ none := by
  rw [ran_reg]
  rcases h with h | h
  · exact Registry.foldl_faulty h (.inl rfl)
  · exact Registry.foldl_faulty h (.inr rfl)

theorem ran_own (ho : w.Owned) (hm : Minds held c) (hk : w.KernelOk i c.out)
    (hT : ∀ h n, held h = some n → w.fds n = some (.conn i h)) :
    (w.ClosesOwn → (w.ran i c).ClosesOwn) ∧
      ((w.ran i c).reg.fault = none → (w.ran i c).Owned) := by
  rcases hm with hkeep | ⟨⟨held₀, hob⟩, hfault⟩
  · obtain ⟨hcl, hown⟩ := ran_keep ho hkeep hk hT
    exact ⟨hcl, fun _ => hown⟩
  · obtain ⟨hcl, -, -⟩ := exec_own hob hk hT
    exact ⟨hcl, fun hf => absurd hf (ran_faulty hfault)⟩

/-- A number stays whose it is when its own handle does not close it and the closes hit their
own. -/
theorem exec_kept (hk : w.KernelOk i es) (hh : (w.exec i es).HitsOwn) (hw : w.fds n = some o)
    (hne : ∀ h, o = .conn i h → .close h n ∉ fdOps es) : (w.exec i es).fds n = some o := by
  refine kept_of_hits hk (fun x hx => ?_) hw hne
  exact hh (i, x) (List.mem_append_right _ (List.mem_map_of_mem hx))

theorem ran_hitsOwn (ho : w.Owned) (hk : w.KernelOk i c.out) (hh : (w.ran i c).HitsOwn)
    (hc : ∀ h n, c.held h = some n → w.fds n = some (.conn i h) ∧ .close h n ∉ fdOps c.out) :
    (w.ran i c).Owned := by
  refine ho.others (fun j hj => ran_conns_ne hj)
    (fun n o hn hne => exec_kept hk hh hn fun h he => absurd he (hne h)) fun c' hc' h n hn => ?_
  obtain rfl := Option.some.inj (ran_conns_same.symm.trans hc')
  obtain ⟨hw, hops⟩ := hc h n hn
  refine exec_kept hk hh hw fun h' he => ?_
  obtain rfl := Owner.conn_injective i he
  exact hops

theorem World.Step.closes (hs : World.Step m w act w') : w.closes <+: w'.closes := by
  cases hs with
  | @accept k hf hk =>
    unfold World.accepted
    split
    · exact List.prefix_append ..
    · exact List.prefix_append ..
  | callback => exact List.prefix_append ..
  | @finalize j d hf hd =>
    unfold World.finalized
    split
    · exact List.prefix_append ..
    · exact List.prefix_rfl
  | dropAll hf hd =>
    refine forEachSafe_keeps (J := fun u => w.closes <+: u.closes) ?_ List.prefix_rfl hd
    intro j u u' hu hbody
    obtain ⟨c, hc, rfl⟩ := Option.map_eq_some_iff.mp hbody
    exact hu.trans (List.prefix_append ..)

theorem World.Step.hitsOwn (hs : World.Step m w act w') (hh : w'.HitsOwn) : w.HitsOwn :=
  fun x hx => hh x (hs.closes.subset hx)

end Calls

/-! ## One step -/

/-- Nothing was closed that should not be, and while the program runs the records and the table
agree. -/
def Guarded (m : PumpMethod) (w : World) : Prop :=
  w.ClosesOwn ∧ (w.reg.fault = none → w.Owned ∧ ∃ l, Registered m w l)

section Step

variable {m : PumpMethod} {w w' : World} {l : List ℕ} {i n : ℕ} {c : Conn} {ev : Ev} {act : Act}
  {f : Side → ℕ}

theorem guarded_init (m : PumpMethod) (n : ℕ) : Guarded m (World.init n) :=
  ⟨fun x hx => absurd hx (by simp [World.init]),
    fun _ => ⟨fun i c hc => absurd hc (by simp [World.init]), [], registered_init m n⟩⟩

/-- A callback that does not splice. -/
theorem Phase.minds_or (h : Phase m c f) (hen : c.Enabled ev) (hout : c.out = []) :
    Minds c.held (c.step m ev) ∨ (m = .splicepump ∧ ∃ p, Splicing c f p) := by
  have hn := Conn.notes_nil hout
  cases h with
  | handshaking b h =>
    left
    rw [h.held]
    rcases h.step_cases (m := m) hen with ⟨-, hnext⟩ | ⟨k, -, hstart⟩
    · rw [hn] at hnext
      exact hnext.minds (fun _ h => h.held) rfl
    · rw [hn] at hstart
      exact hstart.minds
  | copying h =>
    left
    have hnext := h.step hen
    rw [hn] at hnext
    rw [h.held]
    exact hnext.minds (fun _ h => h.held) rfl
  | splicing p h => exact .inr ⟨rfl, p, h⟩

/-- A callback that does not reach the defect. -/
theorem Phase.minds (h : Phase m c f) (hen : c.Enabled ev) (hout : c.out = [])
    (hc : c.ClosesFresh ev) : Minds c.held (c.step m ev) := by
  rcases h.minds_or hen hout with hm | ⟨rfl, p, h⟩
  · exact hm
  · have hev := h.enabled hen
    cases ev with
    | spliceRead d q => exact .inl (h.keep_spliceRead hout hc)
    | spliceWrite d q => exact .inl (h.keep_spliceWrite hout hc)
    | _ => cases hev

theorem Phase.keep_pumpFree (h : Phase m c f) (hout : c.out = [])
    (hu : c.userArg.isSome → c.Unmarked) :
    Keep c.held (Transocks.pumpFree m c).out (Transocks.pumpFree m c).held := by
  cases m with
  | bufferpump =>
    rw [h.held_bufferpump]
    exact h.keep_bufferpumpFree hout
  | splicepump =>
    rcases h.pumpFree with ⟨-, heq⟩ | ⟨hs, -⟩
    · rw [heq]
      exact Keep.quiet hout rfl
    · cases h with
      | handshaking b h => simp [Conn.survives, h.noPump] at hs
      | splicing p h => exact h.toAttached.keep_free h.pump (hu (by simp [h.pump])) hout

theorem Phase.kernelOk_pumpFree (h : Phase m c f) (hout : c.out = []) :
    w.KernelOk i (Transocks.pumpFree m c).out := by
  obtain ⟨xs, hxs⟩ := h.drop_closes hout
  unfold World.KernelOk
  rw [hxs]
  exact unused_closes _ _ _

theorem accept_minds {k : AcceptCalls} (hcb : listenerCb k = (some c, [])) :
    Minds (fun _ => none) c := by
  have hobeys : ∃ held₀, Obeys IsSock (fun _ => none) [] (fdOps c.out) held₀ := by
    have h := (accept_ops k).obeys
    simpa only [World.acceptEffects, hcb] using h
  cases accept_next k with
  | registered c' n r b hcb' hp hn =>
    obtain rfl : c = c' := by simpa [hcb] using hcb'
    have hops : fdOps c.out = [.acquire (.sock .client) n, .acquire (.sock .relay) r] := by
      rw [← c.fdOps_notes, hn]
      rfl
    refine .inl ⟨Function.update (Function.update (fun _ => none) (.sock .client) (some n))
      (.sock .relay) (some r), ?_, fun x a hx => ?_⟩
    · rw [hops]
      exact .acquire (.acquire .done)
    rw [hp.held] at hx
    cases x with
    | sock s => cases s <;> exact hx
    | pipeRead d => cases hx
    | pipeWrite d => cases hx
  | discarded c' hcb' hin =>
    obtain rfl : c = c' := by simpa [hcb] using hcb'
    exact .inl (Keep.nothing hobeys (held_released hin.released))
  | crashed c' hcb' hu hn =>
    obtain rfl : c = c' := by simpa [hcb] using hcb'
    obtain ⟨pre, post, hpre, -⟩ := hn
    exact .inr ⟨hobeys, .inl (by simp [hpre])⟩
  | refused es hcb' => simp [hcb] at hcb'

theorem World.Owned.accept (ho : w.Owned) (hr : Registered m w l) {k : AcceptCalls}
    (hk : w.KernelOk w.nextId (World.acceptEffects k)) :
    (w.ClosesOwn → (w.accepted k).ClosesOwn) ∧
      ((w.accepted k).reg.fault = none → (w.accepted k).Owned) := by
  have hnew : w.conns w.nextId = none := hr.fresh _ le_rfl
  have hobeys := (accept_ops k).obeys
  unfold World.accepted
  unfold World.acceptEffects at hk hobeys
  rcases hcb : listenerCb k with ⟨_ | c, es⟩
  · simp only [hcb] at hk hobeys ⊢
    obtain ⟨held₀, hob⟩ := hobeys
    obtain ⟨hcl, -, hframe⟩ := exec_own hob hk fun h n hn => absurd hn (by simp)
    refine ⟨hcl, fun _ => ho.others (fun _ _ => rfl) hframe fun c hc => ?_⟩
    exact absurd (hnew.symm.trans hc) (by simp)
  · have hnil : es = [] := by
      cases accept_next k with
      | registered _ _ _ _ h => exact (Prod.mk.inj (hcb.symm.trans h)).2
      | discarded _ h => exact (Prod.mk.inj (hcb.symm.trans h)).2
      | crashed _ h => exact (Prod.mk.inj (hcb.symm.trans h)).2
      | refused _ h => exact absurd (Prod.mk.inj (hcb.symm.trans h)).1 (by simp)
    subst hnil
    simp only [hcb] at hk ⊢
    exact ran_own ho (accept_minds hcb) hk fun h n hn => absurd hn (by simp)

theorem fdOps_finalizer {s : Side} {fd : Fd} (hfd : 0 ≤ fd) :
    fdOps [.closed (.sock s) fd] = [.close (.sock s) fd.toNat] := by
  simp [fdOps, Effect.op, hfd]

theorem Guarded.finalize (hw : w.ClosesOwn) (ho : w.Owned) (j : ℕ) {d : Deferred}
    (hd : 0 ≤ d.fd → w.fds d.fd.toNat = none) :
    (w.finalized j d).ClosesOwn ∧ (w.finalized j d).Owned := by
  unfold World.finalized
  by_cases hfd : 0 ≤ d.fd
  · have hops := fdOps_finalizer (s := d.side) hfd
    have hsame : (w.exec d.client [.closed (.sock d.side) d.fd]).fds = w.fds := by
      show applyAll _ _ (fdOps _) = _
      rw [hops]
      exact Function.update_eq_self_iff.mpr (hd hfd).symm
    simp only [if_pos hfd]
    refine ⟨fun x hx => ?_, fun i c hc h n hn => ?_⟩
    · rcases List.mem_append.mp hx with hx | hx
      · exact hw x hx
      · rw [hops] at hx
        obtain rfl := List.mem_singleton.mp hx
        exact ⟨fun h => absurd ⟨d.side, rfl⟩ h, fun o h => absurd ((hd hfd).symm.trans h) (by simp)⟩
    · show (w.exec d.client _).fds n = _
      rw [hsame]
      exact ho i c hc h n hn
  · simp only [if_neg hfd]
    exact ⟨hw, ho⟩

theorem Guarded.dropAll {fuel : ℕ} {visited : List ℕ} (hw : w.ClosesOwn) (ho : w.Owned)
    (hr : Registered m w l) (hf : w.reg.fault = none)
    (hu : ∀ i c, w.conns i = some c → c.released = false → c.userArg.isSome → c.Unmarked)
    (hd : w.dropAllClients m fuel = some (w', visited)) : w'.ClosesOwn ∧ w'.Owned := by
  have hJ := hr.dropAll_keeps (J := fun u => u.ClosesOwn ∧ u.Owned ∧
    ∀ i c, u.conns i = some c → c.released = false → c.userArg.isSome → c.Unmarked) hf ⟨hw, ho, hu⟩
    (fun l u i c f hr' hJ hi hc hp => ?_) hd
  · exact ⟨hJ.1, hJ.2.1⟩
  obtain ⟨hw', ho', hu'⟩ := hJ
  have hout := hr'.quiet i c hc
  obtain ⟨hcl, hown⟩ := ran_keep ho' (hp.keep_pumpFree hout (hu' i c hc hp.live))
    (hp.kernelOk_pumpFree hout) (ho' i c hc)
  refine ⟨hcl hw', hown, fun j c' hc' hl hp' => ?_⟩
  by_cases hji : j = i
  · subst hji
    obtain rfl := Option.some.inj (ran_conns_same.symm.trans hc')
    rcases hp.pumpFree with ⟨-, heq⟩ | ⟨-, hin, -⟩
    · rw [heq] at hl hp' ⊢
      exact hu' j c hc hl hp'
    · exact absurd (hin.released.symm.trans hl) (by decide)
  · rw [ran_conns_ne hji] at hc'
    exact hu' j c' hc' hl hp'

theorem Guarded.step (h : Guarded m w) (hs : World.Step m w act w') (hP : ClosesOnce w act) :
    Guarded m w' := by
  obtain ⟨ho, l, hr⟩ := h.2 hs.not_faulted
  suffices hkey : w'.ClosesOwn ∧ (w'.reg.fault = none → w'.Owned) from
    ⟨hkey.1, fun hf' => ⟨hkey.2 hf', hr.step hs hf'⟩⟩
  cases hs with
  | accept _ hk => exact (ho.accept hr hk).imp (fun hcl => hcl h.1) id
  | @callback i c ev _ hc hen hk =>
    obtain ⟨-, f, hp⟩ := hr.enabled hc hen
    have hm := hp.minds hen (hr.quiet i c hc) (hP _ hc)
    exact (ran_own ho hm hk (ho i c hc)).imp (fun hcl => hcl h.1) id
  | finalize _ hd =>
    obtain ⟨hcl, hown⟩ := Guarded.finalize h.1 ho _ (hP _ hd)
    exact ⟨hcl, fun _ => hown⟩
  | dropAll hf hd =>
    obtain ⟨hcl, hown⟩ := Guarded.dropAll h.1 ho hr hf hP hd
    exact ⟨hcl, fun _ => hown⟩

theorem run_guarded {acts : List Act}
    (hrun : Run (Meeting (World.Step m) ClosesOnce) (World.init n) acts w) : Guarded m w :=
  hrun.invariant (guarded_init m n) fun _ _ _ h hs => h.step hs.2 hs.1

end Step

/-! ## Pending finalizers -/

/-- The bufferevents that wait for their finalizers belong to released clients. -/
structure Parked (w : World) : Prop where
  deferred : ∀ d ∈ w.reg.deferred, d.client < w.nextId
  finalizable : ∀ d ∈ w.reg.deferred, ∀ c, w.conns d.client = some c → c.released = true

section Parked

variable {m : PumpMethod} {w w' : World} {l : List ℕ} {i : ℕ} {c c' : Conn} {es : List Effect}
  {act : Act}

theorem deferred_relink (r : Registry) (L : Option (Links ℕ)) :
    (r.relink L).deferred = r.deferred := by
  cases L <;> rfl

theorem deferred_perform {r : Registry} {d : Deferred} {e : Effect}
    (hd : d ∈ (r.perform i e).deferred) : d ∈ r.deferred ∨ d.client = i := by
  cases e with
  | bevFree s fd =>
    rcases List.mem_append.mp hd with hd | hd
    · exact .inl hd
    · rw [List.mem_singleton.mp hd]
      exact .inr rfl
  | listAddTail => exact .inl (deferred_relink r _ ▸ hd)
  | listDel => exact .inl (deferred_relink r _ ▸ hd)
  | _ => exact .inl hd

/-- The bufferevents that a client frees are its own. -/
theorem deferred_foldl {r : Registry} {d : Deferred}
    (hd : d ∈ (es.foldl (Registry.perform i) r).deferred) : d ∈ r.deferred ∨ d.client = i := by
  induction es generalizing r with
  | nil => exact .inl hd
  | cons e es ih =>
    rcases ih hd with hd | hd
    · exact deferred_perform hd
    · exact .inr hd

theorem parked_init (n : ℕ) : Parked (World.init n) where
  deferred := fun _ hd => absurd hd (by simp [World.init])
  finalizable := fun _ hd => absurd hd (by simp [World.init])

theorem Parked.reserve (h : Parked w) (n : ℕ) (hn : w.nextId ≤ n) :
    Parked { w with nextId := n } :=
  ⟨fun d hd => (h.deferred d hd).trans_le hn, h.finalizable⟩

theorem Parked.ran (h : Parked w) (hi : i < w.nextId)
    (hdef : c'.released = false → ∀ d ∈ (w.ran i c').reg.deferred, d.client ≠ i) :
    Parked (w.ran i c') := by
  have hfresh : ∀ d ∈ (w.ran i c').reg.deferred, d ∈ w.reg.deferred ∨ d.client = i :=
    fun d hd => deferred_foldl hd
  refine ⟨fun d hd => ?_, fun d hd c hc => ?_⟩
  · rcases hfresh d hd with hd | rfl
    · exact h.deferred d hd
    · exact hi
  · by_cases hdi : d.client = i
    · rw [hdi] at hc
      obtain rfl := Option.some.inj (ran_conns_same.symm.trans hc)
      by_contra hr
      exact hdef (by simpa using hr) d hd hdi
    · rw [ran_conns_ne hdi] at hc
      exact h.finalizable d ((hfresh d hd).resolve_right hdi) c hc

theorem Parked.notes_piping {st : List Effect} (h : Parked w) (hc : w.conns i = some c)
    (hl : c.released = false) (hst : Piping st) (hn : c'.notes = st) :
    ∀ d ∈ (w.ran i c').reg.deferred, d.client ≠ i := by
  intro d hd hdi
  rw [ran_reg, hn, Registry.foldl_piping hst] at hd
  exact absurd (hl.symm.trans (h.finalizable d hd c (hdi ▸ hc))) (by decide)

theorem Parked.refused (h : Parked w) (hr : Registered m w l) (es : List Effect) :
    Parked { w.exec w.nextId es with nextId := w.nextId + 1 } := by
  refine ⟨fun d hd => ?_, fun d hd c hc => ?_⟩
  · rcases deferred_foldl hd with hd | hd
    · exact (h.deferred d hd).trans (Nat.lt_succ_self _)
    · rw [hd]
      exact Nat.lt_succ_self _
  · have hne : d.client ≠ w.nextId := Nat.ne_of_lt (hr.lt_nextId hc)
    exact h.finalizable d ((deferred_foldl hd).resolve_right hne) c hc

theorem Parked.registered {n r : ℕ} (h : Parked w)
    (hn : c'.notes = registerNotes n r) :
    ∀ d ∈ (w.ran w.nextId c').reg.deferred, d.client ≠ w.nextId := by
  intro d hd
  rw [ran_reg, hn] at hd
  exact Nat.ne_of_lt
    (h.deferred d (deferred_relink (w.reg.perform w.nextId .listInit) _ ▸ hd))

theorem Parked.finalize {j : ℕ} {d : Deferred} (h : Parked w) : Parked (w.finalized j d) := by
  obtain ⟨-, -, hconns, hnext⟩ := finalized_reg w j d
  have hdef : (w.finalized j d).reg.deferred = w.reg.deferred.eraseIdx j := by
    unfold World.finalized
    split <;> rfl
  have hsub : ∀ x ∈ (w.finalized j d).reg.deferred, x ∈ w.reg.deferred := fun x hx =>
    List.mem_of_mem_eraseIdx (hdef ▸ hx)
  refine ⟨fun x hx => ?_, fun x hx c hc => ?_⟩
  · rw [hnext]
    exact h.deferred x (hsub x hx)
  · rw [hconns] at hc
    exact h.finalizable x (hsub x hx) c hc

/-- A turn of a live client that either goes on, with calls on pipes only, or is released. -/
theorem Parked.turn {st : List Effect} (h : Parked w) (hr : Registered m w l)
    (hc : w.conns i = some c) (hl : c.released = false) (hst : Piping st)
    (hn : c'.released = false → c'.notes = st) : Parked (w.ran i c') :=
  h.ran (hr.lt_nextId hc) fun hl' => h.notes_piping hc hl hst (hn hl')

theorem Parked.accept {k : AcceptCalls} (h : Parked w) (hr : Registered m w l)
    (hf : w.reg.fault = none) (hf' : (w.accepted k).reg.fault = none) :
    Parked (w.accepted k) := by
  have hres := h.reserve (w.nextId + 1) (Nat.le_succ _)
  have hlt : w.nextId < ({ w with nextId := w.nextId + 1 } : World).nextId := Nat.lt_succ_self _
  unfold World.accepted at hf' ⊢
  cases accept_next k with
  | registered c n r b hcb hp hn =>
    simp only [hcb]
    exact hres.ran (i := w.nextId) hlt fun _ => h.registered hn
  | discarded c hcb hin hu hn =>
    simp only [hcb]
    exact hres.ran (i := w.nextId) hlt fun hl => absurd (hin.released.symm.trans hl) (by decide)
  | crashed c hcb hu hn =>
    simp only [hcb] at hf'
    have hbad : (w.ran w.nextId c).reg.fault = some .badPointer :=
      (congrArg Registry.fault ran_reg).trans (Registry.foldl_crashed hf hn)
    exact absurd (hbad.symm.trans hf') (by simp)
  | refused es hcb hn =>
    simp only [hcb]
    exact h.refused hr es

theorem Parked.callback {ev : Ev} (h : Parked w) (hr : Registered m w l) (hf : w.reg.fault = none)
    (hc : w.conns i = some c) (hen : c.Enabled ev)
    (hf' : (w.ran i (c.step m ev)).reg.fault = none) : Parked (w.ran i (c.step m ev)) := by
  obtain ⟨-, f, hp⟩ := hr.enabled hc hen
  by_cases hbad : c.StartsBadly m ev
  · exact absurd ((hr.callback_twice hf hc hen hbad).symm.trans hf') (by simp)
  obtain ⟨st, hst, hnext⟩ := phase_step hp hen hbad
  rw [hr.notes hc, List.nil_append] at hnext
  cases hnext with
  | stays hp' hn => exact h.turn hr hc hp.live hst fun _ => hn
  | released g hg hin hn =>
    exact h.turn hr hc hp.live hst fun hl => absurd (hin.released.symm.trans hl) (by decide)
  | crashed hn => exact absurd ((ran_crashed hf hst hn).symm.trans hf') (by simp)

theorem Parked.visit {f : Side → ℕ} (h : Parked w) (hr : Registered m w l)
    (hc : w.conns i = some c) (hp : Phase m c f) : Parked (w.ran i (pumpFree m c)) := by
  refine h.turn hr hc hp.live Piping.nil fun hl => ?_
  rcases hp.pumpFree with ⟨-, heq⟩ | ⟨-, hin, -⟩
  · rw [heq]
    exact hr.notes hc
  · exact absurd (hin.released.symm.trans hl) (by decide)

end Parked

/-! ## Closes that hit their own -/

/-- A state of the program in which the records and the table agree unless a close has hit somebody
else's number. -/
structure Tended (m : PumpMethod) (w : World) : Prop where
  parked : Parked w
  registered : ∃ l, Registered m w l
  owned : w.HitsOwn → w.Owned

section Tended

variable {m : PumpMethod} {w w' : World} {l : List ℕ} {i n : ℕ} {c : Conn} {act : Act}

theorem World.Owned.callback {ev : Ev} (ho : w.Owned) (hr : Registered m w l)
    (hc : w.conns i = some c) (hen : c.Enabled ev) (hk : w.KernelOk i (c.step m ev).out)
    (hh : (w.ran i (c.step m ev)).HitsOwn) (hf' : (w.ran i (c.step m ev)).reg.fault = none) :
    (w.ran i (c.step m ev)).Owned := by
  obtain ⟨-, f, hp⟩ := hr.enabled hc hen
  have hout := hr.quiet i c hc
  rcases hp.minds_or hen hout with hm | ⟨rfl, p, hs⟩
  · exact (ran_own ho hm hk (ho i c hc)).2 hf'
  refine ran_hitsOwn ho hk hh fun h n hn => ?_
  rcases hs.sheds hout (hs.enabled hen) with hrel | ⟨hsub, hops⟩
  · rw [held_released hrel] at hn
    cases hn
  · exact ⟨ho i c hc h n (hsub h n hn), hops h n hn⟩

/-- The number that a finalizer closes is nobody's: its client is released. -/
theorem World.Owned.finalize {j : ℕ} {d : Deferred} (ho : w.Owned) (hp : Parked w)
    (hd : w.reg.deferred[j]? = some d) (hh : (w.finalized j d).HitsOwn) :
    (w.finalized j d).Owned := by
  unfold World.finalized at hh ⊢
  by_cases hfd : 0 ≤ d.fd
  · simp only [if_pos hfd] at hh ⊢
    intro i c hc h n hn
    have hk : w.KernelOk d.client [.closed (.sock d.side) d.fd] := by
      unfold World.KernelOk
      rw [fdOps_finalizer hfd]
      trivial
    refine exec_kept hk hh (ho i c hc h n hn) fun h' he => ?_
    obtain rfl : i = d.client := by injection he
    rw [held_released (hp.finalizable d (List.mem_of_getElem? hd) c hc)] at hn
    cases hn
  · simp only [if_neg hfd]
    exact ho

theorem World.Owned.visit {f : Side → ℕ} (ho : w.Owned) (hr : Registered m w l)
    (hc : w.conns i = some c) (hp : Phase m c f) (hh : (w.ran i (pumpFree m c)).HitsOwn) :
    (w.ran i (pumpFree m c)).Owned := by
  have hout := hr.quiet i c hc
  refine ran_hitsOwn ho (hp.kernelOk_pumpFree hout) hh fun h n hn => ?_
  rcases hp.pumpFree with ⟨-, heq⟩ | ⟨-, hin, -⟩
  · rw [heq] at hn ⊢
    exact ⟨ho i c hc h n hn, by simp [hout, fdOps]⟩
  · rw [held_released hin.released] at hn
    cases hn

theorem tended_init (m : PumpMethod) (n : ℕ) : Tended m (World.init n) :=
  ⟨parked_init n, ⟨[], registered_init m n⟩, fun _ i c hc => absurd hc (by simp [World.init])⟩

theorem Tended.step (h : Tended m w) (hs : World.Step m w act w') (hf' : w'.reg.fault = none) :
    Tended m w' := by
  obtain ⟨l, hr⟩ := h.registered
  suffices hkey : Parked w' ∧ (w'.HitsOwn → w'.Owned) from
    ⟨hkey.1, hr.step hs hf', hkey.2⟩
  have hown : w'.HitsOwn → w.Owned := fun hh => h.owned (hs.hitsOwn hh)
  cases hs with
  | accept hf hk =>
    exact ⟨h.parked.accept hr hf hf', fun hh => ((hown hh).accept hr hk).2 hf'⟩
  | callback hf hc hen hk =>
    exact ⟨h.parked.callback hr hf hc hen hf', fun hh => (hown hh).callback hr hc hen hk hh hf'⟩
  | finalize hf hd => exact ⟨h.parked.finalize, fun hh => (hown hh).finalize h.parked hd hh⟩
  | dropAll hf hd =>
    refine hr.dropAll_keeps hf (J := fun u => Parked u ∧ (u.HitsOwn → u.Owned))
      ⟨h.parked, h.owned⟩ (fun l u i c f hr' hu hi hc hp => ?_) hd
    refine ⟨hu.1.visit hr' hc hp, fun hh => ?_⟩
    exact (hu.2 fun x hx => hh x (List.mem_append_left _ hx)).visit hr' hc hp hh

/-- **While closes hit their own, the records tell the truth.** What a client holds is open, and is
its own. -/
theorem run_owned {acts : List Act} (hrun : Run (World.Step m) (World.init n) acts w)
    (hh : w.HitsOwn) (hf : w.reg.fault = none) : w.Owned := by
  have h := hrun.invariant (I := fun u => u.reg.fault = none → Tended m u)
    (fun _ => tended_init m n) fun u e v hu hs hf' => (hu hs.not_faulted).step hs hf'
  exact (h hf).owned hh

end Tended

/-! ## Whole runs -/

/-- **Descriptor ownership under the splice pump.** In a run all of whose steps meet `ClosesOnce`,
every close of a pipe end hits that end while it is open, and no step closes a descriptor of another
client or of the listener. -/
theorem closes_own {n : ℕ} {w : World} {acts : List Act}
    (hrun : Run (Meeting (World.Step .splicepump) ClosesOnce) (World.init n) acts w) :
    w.ClosesOwn :=
  (run_guarded hrun).1

/-- Of a client that pumps, the relay ends its stream, which closes the write end of the inbound
pipe; a second client is accepted and gets that number for its socket. -/
def reusedPipeEnd : List Act :=
  toPump ++ [.callback 0 (.spliceRead .inbound (.moved [])),
    .accept { AcceptCalls.ok with accept := some 8, socket := some 11 }]

theorem closes_own_reusedPipeEnd :
    (World.after .splicepump reusedPipeEnd).ClosesOwn ∧
      (World.after .splicepump reusedPipeEnd).closes =
        [(0, ⟨.pipeWrite .inbound, 8, some (.conn 0 (.pipeWrite .inbound))⟩)] := by
  have hf : Follows (Meeting (World.Step .splicepump) ClosesOnce) (World.next .splicepump)
      (World.init 3) reusedPipeEnd := by
    refine ⟨⟨trivial, .accept rfl ⟨rfl, rfl, trivial⟩⟩,
      ⟨fun _ _ => trivial, .callback rfl rfl ⟨_, rfl, by decide, by decide, rfl⟩ trivial⟩,
      ⟨fun _ _ => trivial, .callback rfl rfl ⟨_, rfl, by decide, rfl⟩ trivial⟩,
      ⟨fun _ _ => trivial,
        .callback rfl rfl ⟨_, rfl, by decide, rfl⟩ ⟨rfl, rfl, rfl, rfl, trivial⟩⟩,
      ⟨fun c hc => ?_, .callback rfl rfl ⟨_, _, rfl, rfl, by decide⟩ trivial⟩,
      ⟨trivial, .accept rfl ⟨rfl, rfl, trivial⟩⟩, trivial⟩
    cases hc
    exact ⟨fun h => absurd h (by decide), fun _ => ⟨rfl, rfl⟩⟩
  exact ⟨closes_own (Run.foldl hf), by decide⟩

/-- The pipe is drained and the client terminates normally. -/
def normalEnd : List Act := reusedPipeEnd ++ [.callback 0 (.spliceWrite .inbound (.moved []))]

theorem run_normalEnd : Run (World.Step .splicepump) (World.init 3) normalEnd
    (World.after .splicepump normalEnd) :=
  Run.foldl (follows_toReply .splicepump ⟨.callback rfl rfl ⟨_, rfl, by decide, rfl⟩
      ⟨rfl, rfl, rfl, rfl, trivial⟩, .callback rfl rfl ⟨_, _, rfl, rfl, by decide⟩ trivial,
    .accept rfl ⟨rfl, rfl, trivial⟩, .callback rfl rfl ⟨_, _, rfl, rfl, by decide⟩ trivial,
    trivial⟩)

/-- The release of the first client closes the socket of the second one. -/
theorem normal_end_closes_other_client :
    Run (World.Step .splicepump) (World.init 3) normalEnd (World.after .splicepump normalEnd) ∧
      ¬ (World.after .splicepump normalEnd).ClosesOwn ∧
      (0, ⟨.pipeWrite .inbound, 8, some (.conn 1 (.sock .client))⟩) ∈
        (World.after .splicepump normalEnd).closes := by
  have hmem : (0, ⟨.pipeWrite .inbound, 8, some (.conn 1 (.sock .client))⟩) ∈
      (World.after .splicepump normalEnd).closes := by decide
  refine ⟨run_normalEnd, fun h => ?_, hmem⟩
  obtain ⟨h', he⟩ := (h _ hmem).notOthers _ rfl
  cases he

end Transocks

import Transocks.Descriptors
import Transocks.Settlement

/-!
# Whose every open descriptor is

`World.Owned` goes from the records to the descriptor table. `Tabled` goes the other way: whatever
is in the table is the listener's, or a client opened it and no call for that client has closed it
since. By `Owing` such a client still lives and its record leads to the number, so the process never
keeps a descriptor that nobody can close any more. No call has to hit its own number for that: a
`close` of somebody else's only makes the table smaller. As a record leads to one number under each
handle, the clients on the list say how many descriptors the process can need.
-/

namespace Transocks

open Circular Handles Ledger Runs

/-! ## The calls of one client -/

section Calls

variable {w : World} {i x : ℕ} {es : List Effect} {e : Effect} {o : Owner}

theorem exec_concat_fds :
    (w.exec i (es ++ [e])).fds = applyAll (Owner.conn i) (w.exec i es).fds (fdOps [e]) := by
  show applyAll (Owner.conn i) w.fds (fdOps (es ++ [e])) = _
  rw [fdOps_append, applyAll, List.foldl_append]
  rfl

/-- What one call leaves in the table: what was there and it did not close, or what it opened. -/
theorem fds_of_call {T : ℕ → Option Owner}
    (h : applyAll (Owner.conn i) T (fdOps [e]) x = some o) :
    (T x = some o ∧ ∀ g, e.releases ≠ some (.fd g x)) ∨
      ∃ g, o = .conn i g ∧ e.acquires = some (.fd g x) := by
  cases e with
  | opened g y =>
    have hup : Function.update T y (some (.conn i g)) x = some o := h
    by_cases hxy : x = y
    · subst hxy
      rw [Function.update_self] at hup
      exact .inr ⟨g, (Option.some.inj hup).symm, rfl⟩
    · rw [Function.update_of_ne hxy] at hup
      exact .inl ⟨hup, fun g' hg' => by cases hg'⟩
  | closed g fd =>
    by_cases hfd : 0 ≤ fd
    · have hops : fdOps [.closed g fd] = [.close g fd.toNat] := by simp [fdOps, Effect.op, hfd]
      rw [hops] at h
      have hup : Function.update T fd.toNat none x = some o := h
      have hx : x ≠ fd.toNat := by
        rintro rfl
        rw [Function.update_self] at hup
        cases hup
      rw [Function.update_of_ne hx] at hup
      refine .inl ⟨hup, fun g' hg' => ?_⟩
      simp only [Effect.releases, if_pos hfd, Option.some.injEq, Resource.fd.injEq] at hg'
      exact hx hg'.2.symm
    · have hops : fdOps [.closed g fd] = [] := by simp [fdOps, Effect.op, hfd]
      rw [hops] at h
      exact .inl ⟨h, fun g' hg' => by simp [Effect.releases, hfd] at hg'⟩
  | _ => exact .inl ⟨h, fun g' hg' => by cases hg'⟩

/-- What the calls for a client leave in the table: what was there and they did not close, or what
they opened and did not close. -/
theorem exec_fds (h : (w.exec i es).fds x = some o) :
    (w.fds x = some o ∧ ∀ e ∈ es, ∀ g, e.releases ≠ some (.fd g x)) ∨
      ∃ g, o = .conn i g ∧ Outstanding Effect.acquires Effect.releases es (.fd g x) := by
  induction es using List.reverseRecOn generalizing o with
  | nil => exact .inl ⟨h, fun e he => absurd he (by simp)⟩
  | append_singleton es e ih =>
    rw [exec_concat_fds] at h
    rcases fds_of_call h with ⟨h, he⟩ | ⟨g, rfl, he⟩
    · rcases ih h with ⟨hw, hes⟩ | ⟨g, rfl, hout⟩
      · refine .inl ⟨hw, fun e' he' => ?_⟩
        rcases List.mem_append.mp he' with he' | he'
        · exact hes e' he'
        · rwa [List.mem_singleton.mp he']
      · exact .inr ⟨g, rfl, hout.append fun e' he' => by rw [List.mem_singleton.mp he']; exact he g⟩
    · exact .inr ⟨g, rfl, .of_mem he fun e' he' => absurd he' (by simp)⟩

/-- A socket that the calls open first and close last does not stay. -/
theorem not_outstanding_socket {n : ℕ} (hes : ∀ e ∈ es, ∀ g, e.acquires ≠ some (.fd g x))
    (g : Handle) : ¬ Outstanding Effect.acquires Effect.releases
      ([.opened (.sock .client) n] ++ es ++ [.closed (.sock .client) n]) (.fd g x) := by
  intro hout
  rcases outstanding_append hout with ⟨e, he, hx⟩ | ⟨hout, hrel⟩
  · rw [List.mem_singleton.mp he] at hx
    cases hx
  rcases outstanding_append hout with ⟨e, he, hx⟩ | ⟨hout, -⟩
  · exact hes e he g hx
  obtain ⟨rfl, rfl⟩ : Handle.sock .client = g ∧ n = x := by
    simpa [Effect.acquires] using outstanding_singleton hout
  exact hrel _ (List.mem_singleton_self _) (by simp [Effect.releases])

theorem clientNew_opens (k : AcceptCalls) :
    ∀ e ∈ (clientNew k).2, ∀ g, e.acquires ≠ some (.fd g x) := by
  unfold clientNew
  cases k.mallocClient <;> cases k.mallocClientAddr <;> cases k.mallocDestAddr <;>
    simp [Effect.acquires]

/-- An accept that leaves no record leaves no descriptor. -/
theorem listenerCb_closed {k : AcceptCalls} (hcb : listenerCb k = (none, es)) (g : Handle) :
    ¬ Outstanding Effect.acquires Effect.releases es (.fd g x) := by
  unfold listenerCb at hcb
  split at hcb
  · obtain rfl := (Prod.mk.inj hcb).2
    exact outstanding_nil
  split_ifs at hcb
  · obtain rfl := (Prod.mk.inj hcb).2
    have hnil : ∀ e ∈ ([] : List Effect), ∀ g, e.acquires ≠ some (.fd g x) := by simp
    exact not_outstanding_socket hnil g
  split at hcb
  · rename_i es' hnew
    have hopens : ∀ e ∈ es', ∀ g, e.acquires ≠ some (.fd g x) := by
      have h := clientNew_opens k (x := x)
      rwa [hnew] at h
    obtain rfl := (Prod.mk.inj hcb).2
    exact not_outstanding_socket hopens g
  · split at hcb <;> cases hcb

end Calls

/-! ## The table and the records -/

/-- Everything in the table is the listener's, or some client opened it and has not closed it. -/
structure Tabled (m : PumpMethod) (n : ℕ) (w : World) : Prop where
  client : ∀ i c, w.conns i = some c → ∃ c', c = c'.atRest ∧ Owing m c' ∧
    ∀ g x, w.fds x = some (.conn i g) → c'.Holds (.fd g x)
  owner : ∀ i g x, w.fds x = some (.conn i g) → ∃ c, w.conns i = some c
  listener : ∀ x, w.fds x = some .listener → x = n

section Table

variable {m : PumpMethod} {n i : ℕ} {w w' : World} {l : List ℕ} {act : Act} {c c₀ : Conn}
  {t : Turn} {k : AcceptCalls} {es : List Effect}

theorem tabled_init (m : PumpMethod) (n : ℕ) : Tabled m n (World.init n) := by
  have hfds : ∀ x o, (World.init n).fds x = some o → x = n ∧ o = .listener := by
    intro x o hx
    have hup : Function.update (fun _ => none) n (some Owner.listener) x = some o := hx
    by_cases hxn : x = n
    · subst hxn
      rw [Function.update_self] at hup
      exact ⟨rfl, (Option.some.inj hup).symm⟩
    · rw [Function.update_of_ne hxn] at hup
      cases hup
  refine ⟨fun i c hc => absurd hc (by simp [World.init]), fun i g x hx => ?_,
    fun x hx => (hfds x _ hx).1⟩
  cases (hfds x _ hx).2

theorem exec_fds_others {o : Owner} {x : ℕ} (ho : ∀ g, o ≠ .conn i g)
    (h : (w.exec i es).fds x = some o) : w.fds x = some o := by
  rcases exec_fds h with ⟨hw, -⟩ | ⟨g, rfl, -⟩
  · exact hw
  · exact absurd rfl (ho g)

theorem Tabled.ran (h : Tabled m n w) (ho : Owing m c) (hrest : c₀.atRest = c.atRest)
    (hx : ∀ g x, (w.exec i c₀.out).fds x = some (.conn i g) → c.Holds (.fd g x)) :
    Tabled m n (w.ran i c₀) := by
  have hothers : ∀ {j g x}, j ≠ i → (w.ran i c₀).fds x = some (.conn j g) →
      w.fds x = some (.conn j g) := by
    intro j g x hj hg
    refine exec_fds_others (fun g' hg' => hj ?_) hg
    injection hg'
  refine ⟨fun j d hd => ?_, fun j g x hj => ?_, fun x hlis => ?_⟩
  · by_cases hj : j = i
    · subst hj
      obtain rfl := Option.some.inj (ran_conns_same.symm.trans hd)
      exact ⟨c, hrest, ho, hx⟩
    · obtain ⟨d', hd', hod, hxd⟩ := h.client j d ((ran_conns_ne hj).symm.trans hd)
      exact ⟨d', hd', hod, fun g x hg => hxd g x (hothers hj hg)⟩
  · by_cases hji : j = i
    · subst hji
      exact ⟨_, ran_conns_same⟩
    · obtain ⟨d, hd⟩ := h.owner j g x (hothers hji hj)
      exact ⟨d, (ran_conns_ne hji).trans hd⟩
  · exact h.listener x (exec_fds_others (fun g hg => by cases hg) hlis)

theorem Tabled.turn (h : Tabled m n w) (hc : w.conns i = some c) (hl : c.released = false)
    (hp : t.Possible c) (hk : Lossless m c t) : Tabled m n (w.ran i (c.turn m t)) := by
  obtain ⟨c', rfl, ho, hx⟩ := h.client i c hc
  have ho' : Owing m (c'.turn m t) := ho.turn (hp.lifeStep hl) (lossless_atRest hk)
  refine h.ran ho' (turn_atRest m c' t) fun g x hg => ?_
  unfold Conn.Holds
  rw [turn_out m c' t]
  -- the client had the number before this turn, or has opened it in this turn
  rcases exec_fds hg with ⟨hw, hrel⟩ | ⟨g', hg', hout⟩
  · exact (hx g x hw).append fun e he => hrel e he g
  · obtain rfl : g = g' := by injection hg'
    exact hout.prepend

theorem Tabled.accepted (h : Tabled m n w) (hfresh : w.conns w.nextId = none) :
    Tabled m n (w.accepted k) := by
  unfold World.accepted
  rcases hcb : listenerCb k with ⟨_ | c₀, es⟩
  · have hold : ∀ {x o}, (w.exec w.nextId es).fds x = some o → w.fds x = some o := by
      intro x o hx
      rcases exec_fds hx with ⟨hw, -⟩ | ⟨g, rfl, hout⟩
      · exact hw
      · exact absurd hout (listenerCb_closed hcb g)
    refine ⟨fun j c hc => ?_, fun j g x hj => h.owner j g x (hold hj),
      fun x hx => h.listener x (hold hx)⟩
    obtain ⟨c', hc', ho, hx⟩ := h.client j c hc
    exact ⟨c', hc', ho, fun g x hg => hx g x (hold hg)⟩
  · have ho : Owing m c₀ := run_owing (k := k) (by rw [hcb]) .nil
    have hran : Tabled m n (w.ran w.nextId c₀) := by
      refine h.ran ho rfl fun g x hg => ?_
      rcases exec_fds hg with ⟨hw, -⟩ | ⟨g', hg', hout⟩
      · obtain ⟨c, hc⟩ := h.owner _ g x hw
        exact absurd (hfresh.symm.trans hc) (by simp)
      · obtain rfl : g = g' := by injection hg'
        exact hout
    exact ⟨hran.client, hran.owner, hran.listener⟩

theorem finalized_fds {j x : ℕ} {d : Deferred} {o : Owner}
    (h : (w.finalized j d).fds x = some o) : w.fds x = some o := by
  unfold World.finalized at h
  split_ifs at h
  · rcases exec_fds h with ⟨hw, -⟩ | ⟨g, -, hout⟩
    · exact hw
    · cases outstanding_singleton hout
  · exact h

theorem Tabled.step (h : Tabled m n w) (hreg : Registered m w l)
    (hP : act.Meets (Lossless m) w) (hs : World.Step m w act w') : Tabled m n w' := by
  cases hs with
  | @accept k hf hk => exact h.accepted (hreg.fresh _ le_rfl)
  | @callback i c ev hf hc hen hk =>
    have hl := (hreg.mem hc).mp (hreg.enabled hc hen).1
    exact h.turn (t := .callback ev) hc hl hen (hP i c _ hc hl (by simp [Act.turn]))
  | @finalize j d hf hd =>
    have hconns := (finalized_reg w j d).2.2.1
    refine ⟨fun i c hc => ?_, fun i g x hx => ?_, fun x hx => h.listener x (finalized_fds hx)⟩
    · rw [hconns] at hc
      obtain ⟨c', hc', ho, hx⟩ := h.client i c hc
      exact ⟨c', hc', ho, fun g x hg => hx g x (finalized_fds hg)⟩
    · rw [hconns]
      exact h.owner i g x (finalized_fds hx)
  | dropAll hf hd =>
    refine hreg.dropAll_keeps (J := Tabled m n) hf h (fun l u i c f hru hu hi hc hp => ?_) hd
    exact hu.turn (t := .drop) hc ((hru.mem hc).mp hi) trivial trivial

/-! ## Whole runs -/

theorem run_tabled {acts : List Act}
    (hrun : Run (Meeting (World.Step m) (Act.Meets (Lossless m))) (World.init n) acts w) :
    Tabled m n w := by
  induction hrun with
  | nil => exact tabled_init m n
  | snoc hrun hs ih =>
    obtain ⟨l, hreg⟩ := (run_projected hrun).list hs.2.not_faulted
    exact ih.step hreg hs.1 hs.2

/-- Whose an entry of the table is. -/
theorem Tabled.entry {x : ℕ} {o : Owner} (h : Tabled m n w) (hx : w.fds x = some o) :
    (x = n ∧ o = .listener) ∨
      ∃ i g c, o = .conn i g ∧ w.conns i = some c.atRest ∧ Owing m c ∧ c.released = false ∧
        c.owns (.fd g x) := by
  cases o with
  | listener => exact .inl ⟨h.listener x hx, rfl⟩
  | conn i g =>
    obtain ⟨c, hc⟩ := h.owner i g x hx
    obtain ⟨c', rfl, ho, hheld⟩ := h.client i c hc
    rcases ho.settled with ⟨hl, hown⟩ | ⟨-, hnot⟩
    · exact .inr ⟨i, g, c', rfl, hc, ho, hl, hown _ (hheld g x hx)⟩
    · exact absurd (hheld g x hx) (hnot _)

/-- **No descriptor is lost.** In every run in which no start of the splice pump loses its pump
record or a pipe, every descriptor that the listener and the clients have opened and that is still
open is the one the program listens on or is held by a live client, whose record leads to it under
the handle it was opened for. Stdio's and libevent's own descriptors are not counted. -/
theorem descriptors_accounted {acts : List Act} {x : ℕ} {o : Owner}
    (hrun : Run (Meeting (World.Step m) (Act.Meets (Lossless m))) (World.init n) acts w)
    (hx : w.fds x = some o) :
    (x = n ∧ o = .listener) ∨
      ∃ i h c, o = .conn i h ∧ w.conns i = some c ∧ c.released = false ∧ c.owns (.fd h x) :=
  ((run_tabled hrun).entry hx).imp_right fun ⟨i, g, c, ho, hc, _, hl, hown⟩ =>
    ⟨i, g, c.atRest, ho, hc, hl, hown⟩

end Table

theorem run_normalEnd_lossless :
    Run (Meeting (World.Step .splicepump) (Act.Meets (Lossless .splicepump))) (World.init 3)
      normalEnd (World.after .splicepump normalEnd) := by
  refine run_normalEnd.meeting fun act hact u => ?_
  simp only [normalEnd, reusedPipeEnd, List.append_assoc, List.cons_append, List.nil_append,
    List.mem_append, List.mem_cons, List.not_mem_nil, or_false] at hact
  rcases hact with hact | rfl | rfl | rfl
  · exact lossless_toPump act hact u
  · exact meets_callback fun _ _ _ hst => absurd hst id
  · exact meets_accept _
  · exact meets_callback fun _ _ _ hst => absurd hst id

/-- The release of the first client has closed the socket of the second one, whose relay socket is
still in the table. -/
theorem descriptors_accounted_normalEnd :
    (0, ⟨.pipeWrite .inbound, 8, some (.conn 1 (.sock .client))⟩) ∈
        (World.after .splicepump normalEnd).closes ∧
      (World.after .splicepump normalEnd).fds 8 = none ∧
      ∃ i h c, (World.after .splicepump normalEnd).fds 11 = some (.conn i h) ∧
        (World.after .splicepump normalEnd).conns i = some c ∧ c.owns (.fd h 11) := by
  have hx : (World.after .splicepump normalEnd).fds 11 = some (.conn 1 (.sock .relay)) := by
    decide
  refine ⟨by decide, by decide, ?_⟩
  rcases descriptors_accounted run_normalEnd_lossless hx with ⟨-, ho⟩ | ⟨i, h, c, ho, hc, -, hown⟩
  · cases ho
  · exact ⟨i, h, c, hx.trans (congrArg some ho), hc, hown⟩

/-! ## How many there are -/

def PumpMethod.handles : PumpMethod → List Handle
  | .bufferpump => [.sock .client, .sock .relay]
  | .splicepump => [.sock .client, .sock .relay, .pipeRead .inbound, .pipeWrite .inbound,
      .pipeRead .outbound, .pipeWrite .outbound]

def owners (m : PumpMethod) (l : List ℕ) : List Owner :=
  .listener :: l.flatMap fun i => m.handles.map (.conn i)

section Count

variable {m : PumpMethod} {n : ℕ} {w : World} {l : List ℕ} {c : Conn} {g : Handle} {x y : ℕ}
  {o : Owner} {acts : List Act}

theorem length_owners (m : PumpMethod) (l : List ℕ) :
    (owners m l).length = 1 + m.handles.length * l.length := by
  simp [owners, List.length_flatMap]
  ring

theorem owns_unique (hx : c.owns (.fd g x)) (hy : c.owns (.fd g y)) : x = y := by
  rcases hx with hx | ⟨p, hp, hx⟩ <;> rcases hy with hy | ⟨q, hq, hy⟩
  · cases g with
    | sock s => exact Int.ofNat_inj.mp (hx.symm.trans hy)
    | _ => exact absurd hx id
  · cases g with
    | sock s => exact absurd hy id
    | _ => exact absurd hx id
  · cases g with
    | sock s => exact absurd hx id
    | _ => exact absurd hy id
  · obtain rfl := Option.some.inj (hp.symm.trans hq)
    cases g with
    | sock s => exact absurd hx id
    | pipeRead d => exact Int.ofNat_inj.mp (hx.symm.trans hy)
    | pipeWrite d => exact Int.ofNat_inj.mp (hx.symm.trans hy)

theorem Owing.noPump (h : Owing .bufferpump c) (hl : c.released = false) : c.userArg = none := by
  cases h with
  | waits l a f b h hs => exact h.noPump
  | served h =>
    cases h with
    | copies hm b h hs => exact h.noPump
    | splices hm f p h hs => cases hm
    | gone hr hg => exact absurd (hl.symm.trans hr) (by decide)
  | rejected hr h => exact absurd (hl.symm.trans hr) (by decide)

theorem Owing.handle (h : Owing m c) (hl : c.released = false) (hx : c.owns (.fd g x)) :
    g ∈ m.handles := by
  cases m with
  | splicepump =>
    cases g with
    | sock s => cases s <;> decide
    | pipeRead d => cases d <;> decide
    | pipeWrite d => cases d <;> decide
  | bufferpump =>
    rcases hx with hx | ⟨p, hp, -⟩
    · cases g with
      | sock s => cases s <;> decide
      | pipeRead d => exact absurd hx id
      | pipeWrite d => exact absurd hx id
    · exact absurd (hp.symm.trans (h.noPump hl)) (by simp)

theorem Tabled.mem_owners (h : Tabled m n w) (hreg : Registered m w l) (hx : w.fds x = some o) :
    o ∈ owners m l := by
  rcases h.entry hx with ⟨-, rfl⟩ | ⟨i, g, c, rfl, hc, ho, hl, hown⟩
  · exact List.mem_cons_self
  · refine List.mem_cons_of_mem _ (List.mem_flatMap.mpr ⟨i, (hreg.mem hc).mpr hl, ?_⟩)
    exact List.mem_map_of_mem (ho.handle hl hown)

theorem Tabled.one (h : Tabled m n w) (hx : w.fds x = some o) (hy : w.fds y = some o) : x = y := by
  rcases h.entry hx with ⟨rfl, rfl⟩ | ⟨i, g, c, rfl, hc, -, -, hown⟩
  · exact (h.listener y hy).symm
  · obtain ⟨-, ho⟩ | ⟨i', g', c', ho, hc', -, -, hown'⟩ := h.entry hy
    · cases ho
    · obtain ⟨rfl, rfl⟩ : i = i' ∧ g = g' := by simpa using ho
      have hcc : c.atRest = c'.atRest := Option.some.inj (hc.symm.trans hc')
      have hown₁ : c.atRest.owns (.fd g x) := hown
      rw [hcc] at hown₁
      exact owns_unique (c := c'.atRest) hown₁ hown'

/-- **How many descriptors the program needs.** In every run in which no start of the splice pump
loses its pump record or a pipe, the listener and the clients have open, besides the descriptor the
program listens on, at most two descriptors for each client on its list with the buffer pump and six
with the splice pump. -/
theorem descriptors_bounded
    (hrun : Run (Meeting (World.Step m) (Act.Meets (Lossless m))) (World.init n) acts w)
    (hf : w.reg.fault = none) :
    ∃ l, IsRing w.reg.links l ∧ (∀ i, i ∈ l ↔ ∃ c, w.conns i = some c ∧ c.released = false) ∧
      {x | w.fds x ≠ none}.Finite ∧
      {x | w.fds x ≠ none}.ncard ≤ 1 + m.handles.length * l.length := by
  have htab := run_tabled hrun
  obtain ⟨l, hreg⟩ := (run_projected hrun).list hf
  obtain ⟨hfin, hcard⟩ := card_table_le (fun x o hx => htab.mem_owners hreg hx)
    fun x y o hx hy => htab.one hx hy
  refine ⟨l, hreg.ring, fun i => ⟨fun hi => ?_, ?_⟩, hfin, by rwa [length_owners] at hcard⟩
  · obtain ⟨c, f, hc, hp⟩ := hreg.on i hi
    exact ⟨c, hc, hp.live⟩
  · rintro ⟨c, hc, hl⟩
    exact (hreg.mem hc).mpr hl

end Count

theorem descriptors_bounded_toPump :
    ∃ l, IsRing (World.after .splicepump toPump).reg.links l ∧
      {x | (World.after .splicepump toPump).fds x ≠ none}.ncard ≤ 1 + 6 * l.length := by
  obtain ⟨l, hl, -, -, hcard⟩ := descriptors_bounded run_toPump_lossless rfl
  exact ⟨l, hl, hcard⟩

end Transocks

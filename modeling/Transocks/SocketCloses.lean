import Transocks.Descriptors

/-!
# How often a socket is closed

Both the client record and its bufferevent hold the number of a socket. The release closes the
number that the record holds and frees the bufferevent; when libevent runs the finalizer of a
bufferevent that still holds the number, it closes that too. Only the start of the splice pump takes
the number away from the bufferevent.

`closed_once_iff` says that this is all that can go wrong: a client that got as far as connecting
to its relay has each socket closed at most once exactly in the runs that finalize no bufferevent of
such a client that still holds a number. Whose number a close hits is another matter: a pipe end or
a finalizer of another client may have closed it before, and then `ClosesOnce` is needed.
-/

namespace Transocks

open Circular Handles Runs

/-! ## Counting closes -/

/-- The call closes a number under the handle `h`. -/
def Effect.closes (h : Handle) : Effect → Bool
  | .closed h' fd => h' == h && decide (0 ≤ fd)
  | _ => false

def closeCount (h : Handle) (es : List Effect) : ℕ := es.countP (Effect.closes h)

/-- How often a number was closed for client `i` under the handle `h`. -/
def World.closesOf (w : World) (i : ℕ) (h : Handle) : ℕ :=
  w.closes.countP fun x => x.1 == i && x.2.handle == h

section Count

variable {w : World} {i j : ℕ} {h : Handle} {s : Side} {es : List Effect}

theorem countP_fdOps (h : Handle) (es : List Effect) :
    (fdOps es).countP (Op.closes h) = closeCount h es := by
  unfold fdOps closeCount
  rw [List.countP_filterMap]
  refine List.countP_congr fun e _ => ?_
  cases e with
  | closed h' fd =>
    by_cases hfd : 0 ≤ fd <;> simp [Effect.op, Effect.closes, Op.closes, hfd]
  | _ => simp [Effect.op, Effect.closes, Op.closes]

theorem closesOf_exec :
    (w.exec i es).closesOf j h = w.closesOf j h + if j = i then closeCount h es else 0 := by
  unfold World.closesOf World.exec
  rw [List.countP_append, List.countP_map]
  congr 1
  split
  · rename_i hji
    rw [← countP_fdOps, ← countP_hits (Owner.conn i) w.fds]
    exact List.countP_congr fun x _ => by simp [hji]
  · rename_i hji
    exact List.countP_eq_zero.mpr fun x _ => by simp [Ne.symm hji]

theorem closesOf_ran {c : Conn} : (w.ran i c).closesOf j h =
    w.closesOf j h + if j = i then closeCount h c.out else 0 := closesOf_exec

/-- Closes are notable. -/
theorem closeCount_notes (h : Handle) (es : List Effect) :
    closeCount h (es.filter Effect.notable) = closeCount h es := by
  unfold closeCount
  rw [List.countP_filter]
  refine List.countP_congr fun e _ => ?_
  cases e with
  | closed h fd => simp [Effect.closes, Effect.notable]
  | _ => simp [Effect.closes]

theorem closeCount_append (h : Handle) (es es' : List Effect) :
    closeCount h (es ++ es') = closeCount h es + closeCount h es' := List.countP_append

theorem closeCount_releaseNotes (f : Side → ℕ) (g : Side → Fd) (s : Side) :
    closeCount (.sock s) (releaseNotes f g) = 1 := by
  cases s <;> simp [closeCount, releaseNotes, Effect.closes]

theorem Piping.closeCount {st : List Effect} (hst : Piping st) (s : Side) :
    closeCount (.sock s) st = 0 := by
  refine List.countP_eq_zero.mpr fun e he => ?_
  have hp := hst e he
  cases e with
  | closed h fd =>
    cases h with
    | sock t => cases hp
    | pipeRead d => simp [Effect.closes]
    | pipeWrite d => simp [Effect.closes]
  | _ => simp [Effect.closes]

end Count

/-! ## The tally -/

/-- The closes of sockets so far: none for a live client, one for each socket of a released one. -/
structure Tally (w : World) : Prop extends Parked w where
  known : ∀ x ∈ w.closes, x.1 < w.nextId
  live : ∀ i c, w.conns i = some c → c.released = false → ∀ s, w.closesOf i (.sock s) = 0
  gone : ∀ i c, w.conns i = some c → c.released = true → c.underway = true →
    ∀ s, w.closesOf i (.sock s) = 1

/-- Every socket of a client whose connection attempt got under way was closed at most once. -/
def World.ClosedOnce (w : World) : Prop :=
  ∀ i c, w.conns i = some c → c.underway = true → ∀ s, w.closesOf i (.sock s) ≤ 1

section Tally

variable {m : PumpMethod} {w : World} {l : List ℕ} {i : ℕ} {c c' : Conn}

theorem tally_init (n : ℕ) : Tally (World.init n) where
  toParked := parked_init n
  known := fun _ hx => absurd hx (by simp [World.init])
  live := fun _ _ hc => absurd hc (by simp [World.init])
  gone := fun _ _ hc => absurd hc (by simp [World.init])

theorem Tally.closedOnce (h : Tally w) : w.ClosedOnce := by
  intro i c hc hu s
  cases hr : c.released with
  | false => rw [h.live i c hc hr s]; exact Nat.zero_le 1
  | true => rw [h.gone i c hc hr hu s]

theorem Tally.reserve (h : Tally w) (n : ℕ) (hn : w.nextId ≤ n) :
    Tally { w with nextId := n } :=
  ⟨h.toParked.reserve n hn, fun x hx => (h.known x hx).trans_le hn, h.live, h.gone⟩

/-- Nothing was closed for an identity that is not in use. -/
theorem Tally.closesOf_nextId (h : Tally w) (hd : Handle) : w.closesOf w.nextId hd = 0 :=
  List.countP_eq_zero.mpr fun x hx => by simp [Nat.ne_of_lt (h.known x hx)]

theorem Tally.ran (h : Tally w) (hi : i < w.nextId) (h0 : ∀ s, w.closesOf i (.sock s) = 0)
    (hlive : c'.released = false → ∀ s, closeCount (.sock s) c'.out = 0)
    (hgone : c'.released = true → c'.underway = true → ∀ s, closeCount (.sock s) c'.out = 1)
    (hparked : Parked (w.ran i c')) : Tally (w.ran i c') := by
  refine ⟨hparked, fun x hx => ?_, fun j c hc hr s => ?_, fun j c hc hr hu s => ?_⟩
  · rcases List.mem_append.mp hx with hx | hx
    · exact h.known x hx
    · obtain ⟨y, -, rfl⟩ := List.mem_map.mp hx
      exact hi
  · rw [closesOf_ran]
    by_cases hji : j = i
    · subst hji
      obtain rfl := Option.some.inj (ran_conns_same.symm.trans hc)
      rw [if_pos rfl, h0 s, hlive hr s]
    · rw [ran_conns_ne hji] at hc
      rw [if_neg hji, h.live j c hc hr s]
  · rw [closesOf_ran]
    by_cases hji : j = i
    · subst hji
      obtain rfl := Option.some.inj (ran_conns_same.symm.trans hc)
      rw [if_pos rfl, h0 s, hgone hr hu s]
    · rw [ran_conns_ne hji] at hc
      rw [if_neg hji, h.gone j c hc hr hu s]

theorem Tally.ran_closedOnce (h : Tally w) (h0 : ∀ s, w.closesOf i (.sock s) = 0)
    (hone : c'.underway = true → ∀ s, closeCount (.sock s) c'.out ≤ 1) :
    (w.ran i c').ClosedOnce := by
  intro j c hc hu s
  rw [closesOf_ran]
  by_cases hji : j = i
  · subst hji
    obtain rfl := Option.some.inj (ran_conns_same.symm.trans hc)
    rw [if_pos rfl, h0 s, Nat.zero_add]
    exact hone hu s
  · rw [ran_conns_ne hji] at hc
    rw [if_neg hji]
    exact h.closedOnce j c hc hu s

/-- A callback or a visit of the drop that keeps the client in its phases or releases it. -/
theorem Tally.phase {f : Side → ℕ} {st : List Effect} (h : Tally w) (hr : Registered m w l)
    (hc : w.conns i = some c) (hp : Phase m c f) (hst : Piping st)
    (hnext : (Phase m c' f ∧ c'.notes = st) ∨
      (Inert c' ∧ ∃ g, c'.notes = st ++ releaseNotes f g)) : Tally (w.ran i c') := by
  have h0 := h.live i c hc hp.live
  have hlt := hr.lt_nextId hc
  have hcount : ∀ s, closeCount (.sock s) c'.out = closeCount (.sock s) c'.notes :=
    fun s => (closeCount_notes (.sock s) c'.out).symm
  rcases hnext with ⟨hp', hn⟩ | ⟨hin, g, hn⟩
  · refine h.ran hlt h0 (fun _ s => ?_) (fun hrel => ?_)
      (h.toParked.turn hr hc hp.live hst fun _ => hn)
    · rw [hcount, hn, hst.closeCount]
    · exact absurd (hp'.live.symm.trans hrel) (by decide)
  · have hgone : c'.released = false → False := fun hl =>
      absurd (hin.released.symm.trans hl) (by decide)
    refine h.ran hlt h0 (fun hl => (hgone hl).elim) (fun _ _ s => ?_)
      (h.toParked.turn hr hc hp.live hst fun hl => (hgone hl).elim)
    rw [hcount, hn, closeCount_append, hst.closeCount, closeCount_releaseNotes]

theorem Tally.drop {w' : World} {fuel : ℕ} {visited : List ℕ} (h : Tally w)
    (hr : Registered m w l) (hf : w.reg.fault = none)
    (hd : w.dropAllClients m fuel = some (w', visited)) : Tally w' := by
  refine hr.dropAll_keeps hf h (fun l u i c f hr' hu hi hc hp => ?_) hd
  have hquiet := hr'.notes hc
  rcases hp.pumpFree with ⟨-, heq⟩ | ⟨-, hin, st, g, hst, hn⟩
  · rw [heq]
    exact hu.phase hr' hc hp Piping.nil (.inl ⟨hp, hquiet⟩)
  · rw [hquiet, List.nil_append] at hn
    exact hu.phase hr' hc hp hst (.inr ⟨hin, g, hn⟩)

theorem Tally.refused (h : Tally w) (hr : Registered m w l) (es : List Effect) :
    Tally { w.exec w.nextId es with nextId := w.nextId + 1 } := by
  have hne : ∀ j c, w.conns j = some c → j ≠ w.nextId := fun j c hc =>
    Nat.ne_of_lt (hr.lt_nextId hc)
  have hcount : ∀ j c, w.conns j = some c → ∀ s,
      (w.exec w.nextId es).closesOf j (.sock s) = w.closesOf j (.sock s) := fun j c hc s => by
    rw [closesOf_exec, if_neg (hne j c hc), Nat.add_zero]
  refine ⟨h.toParked.refused hr es, fun x hx => ?_, fun j c hc hrel s => ?_,
    fun j c hc hrel hu s => ?_⟩
  · rcases List.mem_append.mp hx with hx | hx
    · exact (h.known x hx).trans (Nat.lt_succ_self _)
    · obtain ⟨y, -, rfl⟩ := List.mem_map.mp hx
      exact Nat.lt_succ_self _
  · exact (hcount j c hc s).trans (h.live j c hc hrel s)
  · exact (hcount j c hc s).trans (h.gone j c hc hrel hu s)

theorem Tally.accept (h : Tally w) (hr : Registered m w l) (hf : w.reg.fault = none)
    (k : AcceptCalls) :
    (w.accepted k).ClosedOnce ∧ ((w.accepted k).reg.fault = none → Tally (w.accepted k)) := by
  have hres := h.reserve (w.nextId + 1) (Nat.le_succ _)
  have h0 : ∀ s, ({ w with nextId := w.nextId + 1 } : World).closesOf w.nextId (.sock s) = 0 :=
    fun s => h.closesOf_nextId _
  have hlt : w.nextId < ({ w with nextId := w.nextId + 1 } : World).nextId := Nat.lt_succ_self _
  unfold World.accepted
  cases accept_next k with
  | registered c n r b hcb hp hn =>
    simp only [hcb]
    have ht : Tally (({ w with nextId := w.nextId + 1 } : World).ran w.nextId c) := hres.ran hlt h0
      (fun _ s => by rw [← closeCount_notes, show c.out.filter _ = c.notes from rfl, hn]; rfl)
      (fun hrel => absurd (hp.live.symm.trans hrel) (by decide))
      (hres.toParked.ran (i := w.nextId) hlt fun _ => h.toParked.registered hn)
    exact ⟨ht.closedOnce, fun _ => ht⟩
  | discarded c hcb hin hu hn =>
    simp only [hcb]
    have ht : Tally (({ w with nextId := w.nextId + 1 } : World).ran w.nextId c) := hres.ran hlt h0
      (fun hl => absurd (hin.released.symm.trans hl) (by decide))
      (fun _ hu' => absurd (hu.symm.trans hu') (by decide))
      (hres.toParked.ran (i := w.nextId) hlt fun hl =>
        absurd (hin.released.symm.trans hl) (by decide))
    exact ⟨ht.closedOnce, fun _ => ht⟩
  | crashed c hcb hu hn =>
    simp only [hcb]
    refine ⟨hres.ran_closedOnce (i := w.nextId) h0
      fun hu' => absurd (hu.symm.trans hu') (by decide),
      fun hf' => ?_⟩
    have hbad : (w.ran w.nextId c).reg.fault = some .badPointer :=
      (congrArg Registry.fault ran_reg).trans (Registry.foldl_crashed hf hn)
    exact absurd (hbad.symm.trans hf') (by simp)
  | refused es hcb hn =>
    simp only [hcb]
    have ht := h.refused hr es
    exact ⟨ht.closedOnce, fun _ => ht⟩

end Tally

/-! ## Whole runs -/

/-- The finalizer that runs next belongs to a bufferevent that holds no number, or to one of a
client whose connection attempt never got under way. -/
def FinalizesEmpty (w : World) : Act → Prop
  | .finalize j => ∀ d, w.reg.deferred[j]? = some d → ∀ c, w.conns d.client = some c →
    c.underway = true → d.fd < 0
  | _ => True

/-- The program runs on with an exact tally, or it has stopped and the sockets were closed once. -/
def Tallied (m : PumpMethod) (w : World) : Prop :=
  w.ClosedOnce ∧ (w.reg.fault = none → Tally w ∧ ∃ l, Registered m w l)

/-- Some released client has a socket that was closed twice. -/
def ClosedTwice (m : PumpMethod) (w : World) : Prop :=
  (∃ i c s, w.conns i = some c ∧ c.underway = true ∧ c.released = true ∧
    2 ≤ w.closesOf i (.sock s)) ∧ (w.reg.fault = none → ∃ l, Registered m w l)

section Run

variable {m : PumpMethod} {n : ℕ} {w w' : World} {l : List ℕ} {act : Act} {acts : List Act}

theorem Tally.callback {i : ℕ} {c : Conn} {ev : Ev} (h : Tally w) (hr : Registered m w l)
    (hf : w.reg.fault = none) (hc : w.conns i = some c) (hen : c.Enabled ev) :
    (w.ran i (c.step m ev)).ClosedOnce ∧
      ((w.ran i (c.step m ev)).reg.fault = none → Tally (w.ran i (c.step m ev))) := by
  obtain ⟨-, f, hp⟩ := hr.enabled hc hen
  have h0 := h.live i c hc hp.live
  have hquiet := hr.notes hc
  have hcount : ∀ s, closeCount (.sock s) (c.step m ev).out =
      closeCount (.sock s) (c.step m ev).notes := fun s => (closeCount_notes (.sock s) _).symm
  by_cases hbad : c.StartsBadly m ev
  · obtain ⟨st, hst, hn⟩ := phase_step_twice hp hen hbad
    refine ⟨h.ran_closedOnce h0 fun _ s => ?_, fun hf' => ?_⟩
    · rw [hcount, hn, hquiet, List.nil_append, closeCount_append, closeCount_append, hst.closeCount,
        closeCount_releaseNotes]
      exact le_rfl
    · exact absurd ((hr.callback_twice hf hc hen hbad).symm.trans hf') (by simp)
  obtain ⟨st, hst, hnext⟩ := phase_step hp hen hbad
  rw [hquiet, List.nil_append] at hnext
  cases hnext with
  | stays hp' hn =>
    have ht := h.phase hr hc hp hst (.inl ⟨hp', hn⟩)
    exact ⟨ht.closedOnce, fun _ => ht⟩
  | released g hg hin hn =>
    have ht := h.phase hr hc hp hst (.inr ⟨hin, g, hn⟩)
    exact ⟨ht.closedOnce, fun _ => ht⟩
  | crashed hn =>
    refine ⟨h.ran_closedOnce h0 fun _ s => ?_, fun hf' => ?_⟩
    · rw [hcount, hn, closeCount_append, hst.closeCount]
      exact Nat.zero_le 1
    · exact absurd ((ran_crashed hf hst hn).symm.trans hf') (by simp)

theorem closesOf_finalized (w : World) (j i : ℕ) (d : Deferred) (h : Handle) :
    (w.finalized j d).closesOf i h = w.closesOf i h +
      if i = d.client ∧ h = .sock d.side ∧ 0 ≤ d.fd then 1 else 0 := by
  unfold World.finalized
  by_cases hfd : 0 ≤ d.fd
  · simp only [if_pos hfd]
    have hexec : (w.exec d.client [.closed (.sock d.side) d.fd]).closesOf i h = _ := closesOf_exec
    refine hexec.trans ?_
    congr 1
    by_cases hi : i = d.client
    · by_cases hh : h = .sock d.side
      · simp [hi, hh, hfd, closeCount, Effect.closes]
      · simp [hi, hh, hfd, closeCount, Effect.closes, Ne.symm hh]
    · simp [hi]
  · simp only [hfd, and_false, if_false]
    rfl

theorem Tally.finalize {j : ℕ} {d : Deferred} (h : Tally w) (hd : w.reg.deferred[j]? = some d)
    (hP : ∀ c, w.conns d.client = some c → c.underway = true → d.fd < 0) :
    Tally (w.finalized j d) := by
  obtain ⟨-, -, hconns, hnext⟩ := finalized_reg w j d
  have hmem : d ∈ w.reg.deferred := List.mem_of_getElem? hd
  refine ⟨h.toParked.finalize, fun x hx => ?_, fun i c hc hr s => ?_, fun i c hc hr hu s => ?_⟩
  · rw [hnext]
    unfold World.finalized at hx
    split at hx
    · rcases List.mem_append.mp hx with hx | hx
      · exact h.known x hx
      · obtain ⟨y, -, rfl⟩ := List.mem_map.mp hx
        exact h.deferred d hmem
    · exact h.known x hx
  · rw [hconns] at hc
    have hne : i ≠ d.client := fun he =>
      absurd (hr.symm.trans (h.finalizable d hmem c (he ▸ hc))) (by decide)
    rw [closesOf_finalized, h.live i c hc hr s, if_neg fun hx => hne hx.1]
  · rw [hconns] at hc
    have hne : ¬ (i = d.client ∧ Handle.sock s = .sock d.side ∧ 0 ≤ d.fd) := by
      rintro ⟨rfl, -, hfd⟩
      exact absurd (hP c hc hu) (Int.not_lt.mpr hfd)
    rw [closesOf_finalized, h.gone i c hc hr hu s, if_neg hne]

theorem Tallied.step (h : Tallied m w) (hs : World.Step m w act w') (hP : FinalizesEmpty w act) :
    Tallied m w' := by
  obtain ⟨ht, l, hr⟩ := h.2 hs.not_faulted
  suffices hkey : w'.ClosedOnce ∧ (w'.reg.fault = none → Tally w') from
    ⟨hkey.1, fun hf' => ⟨hkey.2 hf', hr.step hs hf'⟩⟩
  cases hs with
  | accept hf hk => exact ht.accept hr hf _
  | callback hf hc hen hk => exact ht.callback hr hf hc hen
  | finalize hf hd =>
    have ht' := ht.finalize hd fun c hc hu => hP _ hd c hc hu
    exact ⟨ht'.closedOnce, fun _ => ht'⟩
  | dropAll hf hdrop =>
    have ht' := ht.drop hr hf hdrop
    exact ⟨ht'.closedOnce, fun _ => ht'⟩

/-- A finalizer that closes a socket closes it for the second time. -/
theorem Tallied.slip (h : Tallied m w) (hs : World.Step m w act w') (hP : ¬ FinalizesEmpty w act) :
    ClosedTwice m w' := by
  obtain ⟨ht, l, hr⟩ := h.2 hs.not_faulted
  refine ⟨?_, fun hf' => hr.step hs hf'⟩
  cases hs with
  | accept => exact absurd trivial hP
  | callback => exact absurd trivial hP
  | dropAll => exact absurd trivial hP
  | @finalize j d hf hd =>
    obtain ⟨d', hd', c, hc, hu, hfd⟩ : ∃ d', w.reg.deferred[j]? = some d' ∧
        ∃ c, w.conns d'.client = some c ∧ c.underway = true ∧ ¬ d'.fd < 0 := by
      simpa [FinalizesEmpty] using hP
    obtain rfl := Option.some.inj (hd.symm.trans hd')
    have hrel := ht.finalizable d (List.mem_of_getElem? hd) c hc
    obtain ⟨-, -, hconns, -⟩ := finalized_reg w j d
    refine ⟨d.client, c, d.side, by rw [hconns]; exact hc, hu, hrel, ?_⟩
    rw [closesOf_finalized, ht.gone _ c hc hrel hu, if_pos ⟨rfl, rfl, Int.not_lt.mp hfd⟩]

theorem ClosedTwice.step (h : ClosedTwice m w) (hs : World.Step m w act w') : ClosedTwice m w' := by
  obtain ⟨⟨i, c, s, hc, hu, hrel, h2⟩, hreg⟩ := h
  obtain ⟨l, hr⟩ := hreg hs.not_faulted
  refine ⟨?_, fun hf' => hr.step hs hf'⟩
  have hil : i ∉ l := fun hi => absurd (((hr.mem hc).mp hi).symm.trans hrel) (by decide)
  suffices hkey : w'.conns i = some c ∧ w.closesOf i (.sock s) ≤ w'.closesOf i (.sock s) from
    ⟨i, c, s, hkey.1, hu, hrel, h2.trans hkey.2⟩
  have hran : ∀ (u : World) (j : ℕ) (c' : Conn), j ≠ i → (u.ran j c').conns i = u.conns i ∧
      u.closesOf i (.sock s) ≤ (u.ran j c').closesOf i (.sock s) := fun u j c' hj =>
    ⟨ran_conns_ne (Ne.symm hj), by rw [closesOf_ran]; exact Nat.le_add_right _ _⟩
  cases hs with
  | @accept k hf hk =>
    have hne : w.nextId ≠ i := Nat.ne_of_gt (hr.lt_nextId hc)
    unfold World.accepted
    split
    · obtain ⟨h₁, h₂⟩ := hran w w.nextId _ hne
      exact ⟨h₁.trans hc, h₂⟩
    · refine ⟨hc, ?_⟩
      show _ ≤ (w.exec w.nextId _).closesOf i (.sock s)
      rw [closesOf_exec]
      exact Nat.le_add_right _ _
  | @callback j c' ev hf hc' hen hk =>
    have hne : j ≠ i := fun he => hil (he ▸ (hr.enabled hc' hen).1)
    obtain ⟨h₁, h₂⟩ := hran w j _ hne
    exact ⟨h₁.trans hc, h₂⟩
  | @finalize j d hf hd =>
    obtain ⟨-, -, hconns, -⟩ := finalized_reg w j d
    refine ⟨by rw [hconns]; exact hc, ?_⟩
    rw [closesOf_finalized]
    exact Nat.le_add_right _ _
  | dropAll hf hdrop =>
    refine hr.dropAll_keeps hf (J := fun u => u.conns i = some c ∧
      w.closesOf i (.sock s) ≤ u.closesOf i (.sock s)) ⟨hc, le_rfl⟩
      (fun l u j c' f hr' hu' hj _ _ => ?_)
      hdrop
    have hne : j ≠ i := fun he =>
      absurd (((hr'.mem hu'.1).mp (he ▸ hj)).symm.trans hrel) (by decide)
    obtain ⟨h₁, h₂⟩ := hran u j (Transocks.pumpFree m c') hne
    exact ⟨h₁.trans hu'.1, hu'.2.trans h₂⟩

/-- A run ends with every socket closed once, or one of its finalizers closed a socket again. -/
theorem run_tallied (hrun : Run (World.Step m) (World.init n) acts w) :
    (Run (Meeting (World.Step m) FinalizesEmpty) (World.init n) acts w ∧ Tallied m w) ∨
      (¬ Run (Meeting (World.Step m) FinalizesEmpty) (World.init n) acts w ∧ ClosedTwice m w) := by
  have hdet : ∀ u e v v', World.Step m u e v → World.Step m u e v' → v = v' :=
    fun _ _ _ _ h h' => h.deterministic h'
  have h0 : Tallied m (World.init n) :=
    ⟨(tally_init n).closedOnce, fun _ => ⟨tally_init n, [], registered_init m n⟩⟩
  have hgood : ∀ u e v, Tallied m u → World.Step m u e v → FinalizesEmpty u e → Tallied m v :=
    fun _ _ _ hu hs hP => hu.step hs hP
  have hslip : ∀ u e v, Tallied m u → World.Step m u e v → ¬ FinalizesEmpty u e → ClosedTwice m v :=
    fun _ _ _ hu hs hP => hu.slip hs hP
  have hstuck : ∀ u e v, ClosedTwice m u → World.Step m u e v → ClosedTwice m v :=
    fun _ _ _ hu hs => hu.step hs
  exact hrun.good_or_bad hdet h0 hgood hslip hstuck

/-- **Sockets are closed at most once** exactly in the runs that finalize no bufferevent that still
holds the number of a socket. In the runs that close no number again that was closed before, a
number that somebody else has got since is not closed either. -/
theorem closed_once_iff (hrun : Run (World.Step m) (World.init n) acts w) :
    (w.ClosedOnce ↔ Run (Meeting (World.Step m) FinalizesEmpty) (World.init n) acts w) ∧
      (Run (Meeting (World.Step m) ClosesOnce) (World.init n) acts w → w.ClosesOwn) := by
  refine ⟨?_, fun honce => (run_guarded honce).1⟩
  rcases run_tallied hrun with ⟨hm, hw⟩ | ⟨hm, hw⟩
  · exact ⟨fun _ => hm, fun _ => hw.1⟩
  · refine ⟨fun h => ?_, fun h => absurd h hm⟩
    obtain ⟨⟨i, c, s, hc, hu, -, h2⟩, -⟩ := hw
    exact absurd (h i c hc hu s) (by omega)

end Run

/-- A client that pumps through its pipes is dropped, the next accept gets the numbers of its
sockets, and then both finalizers run. -/
def droppedPump : List Act := toPump ++ [.dropAll, .accept AcceptCalls.ok, .finalize 0, .finalize 0]

theorem closed_once_iff_droppedPump :
    (World.after .splicepump droppedPump).ClosedOnce ∧
      (World.after .splicepump droppedPump).ClosesOwn ∧
      (World.after .splicepump droppedPump).fds 6 = some (.conn 1 (.sock .relay)) := by
  have hf : Follows (Meeting (World.Step .splicepump) fun u act =>
      FinalizesEmpty u act ∧ ClosesOnce u act) (World.next .splicepump) (World.init 3)
      droppedPump := by
    refine ⟨⟨⟨trivial, trivial⟩, .accept rfl ⟨rfl, rfl, trivial⟩⟩,
      ⟨⟨trivial, fun _ _ => trivial⟩,
        .callback rfl rfl ⟨_, rfl, by decide, by decide, rfl⟩ trivial⟩,
      ⟨⟨trivial, fun _ _ => trivial⟩, .callback rfl rfl ⟨_, rfl, by decide, rfl⟩ trivial⟩,
      ⟨⟨trivial, fun _ _ => trivial⟩,
        .callback rfl rfl ⟨_, rfl, by decide, rfl⟩ ⟨rfl, rfl, rfl, rfl, trivial⟩⟩,
      ⟨⟨trivial, fun i c hc _ hp => ?drop⟩, @World.Step.dropAll _ _ 2 _ _ rfl rfl⟩,
      ⟨⟨trivial, trivial⟩, .accept rfl ⟨rfl, rfl, trivial⟩⟩,
      ⟨⟨fun d hd c hc _ => ?relay, fun d hd => ?relayOwn⟩, .finalize rfl rfl⟩,
      ⟨⟨fun d hd c hc _ => ?client, fun d hd => ?clientOwn⟩, .finalize rfl rfl⟩, trivial⟩
    case drop =>
      obtain rfl : i = 0 := Nat.lt_one_iff.mp (run_lt_nextId run_toPump hc)
      cases hc
      exact fun d => by cases d <;> exact ⟨rfl, rfl⟩
    all_goals
      cases hd
      decide
  have hrun := Run.foldl hf
  obtain ⟨honce, hown⟩ := closed_once_iff (hrun.mono fun _ _ _ h => h.2)
  exact ⟨honce.mpr (hrun.mono fun _ _ _ h => ⟨h.1.1, h.2⟩),
    hown (hrun.mono fun _ _ _ h => ⟨h.1.2, h.2⟩), rfl⟩

/-- The relay refuses the connection, the next accept gets the same numbers, and then libevent runs
the finalizer of the first client's relay bufferevent. -/
def reusedNumbers : List Act :=
  [.accept AcceptCalls.ok,
    .callback 0 (.event .relay ⟨false, false, false, true, false⟩ (.other 111) HandshakeCalls.ok),
    .accept AcceptCalls.ok, .finalize 0]

/-- The first client's relay socket is closed twice, and the second close hits the relay socket of
the second client. -/
theorem finalizer_closes_reused_number :
    Run (World.Step .bufferpump) (World.init 3) reusedNumbers
        (World.after .bufferpump reusedNumbers) ∧
      ¬ (World.after .bufferpump reusedNumbers).ClosedOnce ∧
      (0, ⟨.sock .relay, 6, some (.conn 1 (.sock .relay))⟩) ∈
        (World.after .bufferpump reusedNumbers).closes := by
  refine ⟨Run.foldl ⟨.accept rfl ⟨rfl, rfl, trivial⟩,
    .callback rfl rfl ⟨_, rfl, by decide, by decide, rfl⟩ trivial, .accept rfl ⟨rfl, rfl, trivial⟩,
    .finalize rfl rfl, trivial⟩, fun h => ?_, ?_⟩
  · exact absurd (h 0 _ rfl rfl .relay) (by decide)
  · decide

end Transocks

import Transocks.Projection
import Transocks.Leaks

/-!
# What `SIGHUP` and `SIGUSR1` print

`transocks_dump_all_client_info` goes through the list of clients and prints what the record of each
one says; `transocks_drop_all_clients` prints the same for every client before it frees it. Both
read through the pointers to the addresses and, with the splice pump, to the pipes.

In every reachable state the dump ends and prints the live clients, once each, in the order in which
they were accepted, each with the addresses of its own accept. Only the splice pump prints nothing
but the tag for a client that it has not started for.
-/

namespace Transocks

open Circular Runs

/-- `transocks_client_state_str`. -/
def ClientState.str : ClientState → String
  | .new => "client_NEW"
  | .relayConnected => "client_relay_connected"
  | .socks5FinishHandshake => "client_socks5_finish_handshake"
  | .pumpingData => "client_pumping_data"
  | .destroying => "client_DESTROYING"
  | .destroyed => "client_DESTROYED"

structure ClientInfo where
  clientAddr : SockAddr
  destAddr : SockAddr
  fd : Side → Fd
  shutRead : Side → Bool
  shutWrite : Side → Bool
  state : String

/-- The line of a client with the addresses `s` and `d`. -/
def Conn.info (c : Conn) (s d : SockAddr) : ClientInfo where
  clientAddr := s
  destAddr := d
  fd t := (c.ends t).fd
  shutRead t := (c.ends t).shutRead
  shutWrite t := (c.ends t).shutWrite
  state := c.clientState.str

/-- `transocks_client_dump_info`; it has no result when it follows a null pointer. -/
def clientDumpInfo (c : Conn) : Option ClientInfo :=
  match c.clientAddr, c.destAddr with
  | some s, some d => some (c.info s d)
  | _, _ => none

/-- What one call of `transocks_pump_dump_info` prints: the tag, the pipes and the client. -/
structure Report where
  tag : String
  pipes : Option (Direction → Splicepipe)
  client : Option ClientInfo

/-- `transocks_splicepump_dump_info` and `transocks_bufferpump_dump_info`. -/
def dumpInfoFn (c : Conn) :
    PumpMethod → Option (Option (Direction → Splicepipe) × Option ClientInfo)
  | .splicepump =>
    match c.userArg with
    | none => some (none, none)
    | some p => (clientDumpInfo c).map fun x => (some p.pipe, some x)
  | .bufferpump => (clientDumpInfo c).map fun x => (none, some x)

/-- `transocks_pump_dump_info`; it has no result when the record is freed. -/
def pumpDumpInfo (m : PumpMethod) (tag : String) (c : Conn) : Option Report :=
  if c.released then none else (dumpInfoFn c m).map fun x => ⟨tag, x.1, x.2⟩

namespace World

/-- The body of the loop in `transocks_dump_all_client_info`. -/
def dumped (m : PumpMethod) (w : World) (i : ℕ) (k : ℕ) : Option Report :=
  (w.conns k).bind (pumpDumpInfo m ("conn #" ++ toString i))

/-- `transocks_dump_all_client_info`. -/
def dumpAllClientInfo (m : PumpMethod) (fuel : ℕ) (w : World) : Option (List Report) :=
  forEach w.reg.links (w.dumped m) fuel

/-- The body of the loop in `transocks_drop_all_clients`, with what it prints. -/
def droppedLoud (m : PumpMethod) (i : ℕ) (x : World × List Report) : Option (World × List Report) :=
  (x.1.conns i).bind fun c => (pumpDumpInfo m "close connection" c).bind fun r =>
    (dropped m i x.1).map fun w => (w, x.2 ++ [r])

/-- `transocks_drop_all_clients` with what it prints. -/
def dropAllLoud (m : PumpMethod) (fuel : ℕ) (w : World) : Option ((World × List Report) × List ℕ) :=
  forEachSafe (fun x => x.1.reg.links) (droppedLoud m) fuel (w, [])

end World

/-! ## The addresses stay -/

section Addresses

variable {m : PumpMethod} {s d : SockAddr} {c c' : Conn} {t : Turn}

def Conn.Addressed (s d : SockAddr) (c : Conn) : Prop := c.clientAddr = some s ∧ c.destAddr = some d

/-- A client of an accept: it is live with the addresses of that accept, or gone. -/
inductive Tracked (m : PumpMethod) (s d : SockAddr) (c : Conn) : Prop
  | live (h : Progress m c) (ha : c.Addressed s d)
  | gone (hr : c.released = true)

theorem Conn.Addressed.heard (h : c.Addressed s d) (b : Bufferevent) (ev : Ev) :
    (Transocks.heard c b ev).Addressed s d := by
  unfold Transocks.heard
  split <;> exact h

theorem Conn.Addressed.clientFree (h : c.Addressed s d)
    (hr : (Transocks.clientFree c).released = false) : (Transocks.clientFree c).Addressed s d := by
  unfold Transocks.clientFree at hr ⊢
  split_ifs at hr ⊢ with h₁ h₂
  · exact absurd (h₁.symm.trans hr) (by decide)
  · exact h

theorem Conn.Addressed.splicepumpFree (h : c.Addressed s d) (hl : c.released = false)
    (hr : (Transocks.splicepumpFree c).released = false) :
    (Transocks.splicepumpFree c).Addressed s d := by
  unfold Transocks.splicepumpFree at hr ⊢
  rw [Conn.touch_live hl] at hr ⊢
  cases hp : c.userArg with
  | none => exact h
  | some p =>
    rw [hp] at hr
    exact Conn.Addressed.clientFree (c := splicepumpUnwound c p) h hr

theorem HandshakeMove.addressed {l : Leg} {a : SockAddr} {f : Side → ℕ} {b : Bufferevent} {ev : Ev}
    (hm : HandshakeMove m a c b ev c') (h : AtLeg l a c f b) (ha : c.Addressed s d)
    (hr : c'.released = false) (hs : c'.clientState ≠ .pumpingData) : c'.Addressed s d := by
  cases hm with
  | crashed ev ht => exact ha.heard b ev
  | refused ev ht hfd => exact Conn.Addressed.clientFree (ha.heard b ev) hr
  | ignored ht hw => exact ha
  | connected ht hcb => exact ha
  | short hs => exact ha
  | selected ht hcb hin hreq => exact ha
  | @started bs k n ht hcb hlen hn =>
    rcases h.afterStart_done (m := m) bs n k with hrel | hp
    · exact absurd (hrel.symm.trans hr) (by decide)
    · exact absurd hp hs
  | flushed => exact ha
  | idle => exact ha

theorem CopyMove.addressed {b b' : Side → Bufferevent} {ev : Ev} (hm : CopyMove c b ev c' b')
    (h : c.Addressed s d) : c'.Addressed s d := by
  cases hm <;> exact h

theorem FillMove.addressed {p : Splicepump} {e : Direction} {k : Splice} (hm : FillMove c p e k c')
    (h : c.Addressed s d) : c'.Addressed s d := by
  cases hm <;> exact h

theorem DrainMove.addressed {p : Splicepump} {e : Direction} {k : Splice}
    (hm : DrainMove c p e k c') (h : c.Addressed s d) : c'.Addressed s d := by
  cases hm <;> exact h

theorem AtLeg.started_addressed {l : Leg} {a : SockAddr} {f : Side → ℕ} {b : Bufferevent}
    {bs : List Byte} {n : ℕ} {k : HandshakeCalls} (h : AtLeg l a c f b) (ha : c.Addressed s d)
    (hst : startPump m (Transocks.atStart c b bs n k) k.start = (c', true)) :
    c'.Addressed s d := by
  have h₀ := (h.atStart bs n k).live
  cases m with
  | bufferpump =>
    obtain ⟨rb, -, rfl⟩ := startPump_buffer_ok h₀ hst
    exact ha
  | splicepump =>
    obtain ⟨rb, r, w, -, -, rfl⟩ := startPump_splice_ok h₀ hst
    exact ha

theorem Splicing.addressed {f : Side → ℕ} {p : Splicepump} {ev : Ev} (h : Splicing c f p)
    (ha : c.Addressed s d) (hev : ev.isSplice = true)
    (hr : (c.step .splicepump ev).released = false) : (c.step .splicepump ev).Addressed s d := by
  obtain ⟨p₀, e, -, heq | ⟨c₁, k, hm, heq⟩⟩ := step_splice (m := .splicepump) h.live h.pump hev
  · rw [heq] at hr ⊢
    exact Conn.Addressed.splicepumpFree (c := c.setPump p₀) ha h.live hr
  · have ha₁ : c₁.Addressed s d := by
      rcases hm with hm | hm
      · exact FillMove.addressed hm ha
      · exact DrainMove.addressed hm ha
    have hl₁ : c₁.released = false := by
      rcases hm with hm | hm <;> cases hm <;> exact h.live
    rw [heq, checkNormalTermination_live hl₁] at hr ⊢
    split_ifs at hr ⊢ with hdone
    · exact ha₁.splicepumpFree hl₁ hr
    · exact ha₁

/-- **One turn of a client.** -/
theorem Tracked.turn (h : Tracked m s d c) (hs : LifeStep m c t c') : Tracked m s d c' := by
  cases h with
  | gone hr => exact absurd (hr.symm.trans hs.1) (by decide)
  | live h ha =>
    by_cases hr : c'.released = true
    · exact .gone hr
    rw [Bool.not_eq_true] at hr
    refine .live (h.turn hs) ?_
    cases h with
    | waits l a f b h hsolv =>
      rcases h.turn hs with ⟨l', b', h', -, -⟩ | ⟨bs, n, k, rfl, rfl, -, -, hst⟩ | ⟨hi, -, -⟩
      · have hne : c'.clientState ≠ .pumpingData := by
          rw [h'.state]
          cases l' <;> decide
        obtain ⟨-, hpos, rfl⟩ := hs
        cases t with
        | callback ev => exact (h.toHandshaking.move h.dest hpos).addressed h ha hr hne
        | drop =>
          cases m with
          | splicepump =>
            have heq : c.turn .splicepump .drop = c := h.toHandshaking.drop.1
            rw [heq]
            exact ha
          | bufferpump =>
            have heq : c.turn .bufferpump .drop = _ := h.toHandshaking.drop.2
            rw [heq] at hr ⊢
            exact Conn.Addressed.clientFree ha hr
      · exact h.started_addressed ha hst
      · exact absurd (hi.released.symm.trans hr) (by decide)
    | copies hm b h =>
      subst hm
      obtain ⟨c₂, b₂, h₂, hmove, hc'⟩ := h.turn hs
      have ha₂ : c₂.Addressed s d := by
        rcases hmove with ⟨ev, -, hmv⟩ | ⟨rfl, -⟩
        · exact hmv.addressed ha
        · exact ha
      rcases hc' with rfl | rfl
      · exact ha₂
      · exact absurd (h₂.toRelaying.bufferpumpFree.1.symm.trans hr) (by decide)
    | splices hm f p h =>
      subst hm
      obtain ⟨-, hpos, rfl⟩ := hs
      cases t with
      | callback ev => exact h.addressed ha (h.enabled hpos) hr
      | drop => exact Conn.Addressed.splicepumpFree ha h.live hr
    | gone hg => exact absurd (hg.symm.trans hs.1) (by decide)

theorem tracked_accept {k : AcceptCalls} (hcb : (listenerCb k).1 = some c) :
    c.released = true ∨ ∃ d, k.origdst = some d ∧ Tracked m k.srcAddr d c := by
  by_cases hr : c.released = true
  · exact .inl hr
  rw [Bool.not_eq_true] at hr
  obtain ⟨n, r, d, -, -, hd, rfl⟩ := listenerCb_live hcb hr
  have h := atLeg_waitingConn k n r d
  refine .inr ⟨d, hd, .live (.waits _ _ _ _ h (solvent_waitingConn k n r d)) ⟨?_, h.dest⟩⟩
  unfold waitingConn
  rw [connecting_timer]
  rfl

end Addresses

/-! ## The order of the list -/

section Order

variable {m : PumpMethod} {w w' : World} {l : List ℕ} {n : ℕ} {act : Act} {acts : List Act}

/-- The accept callback puts its client at the tail, or leaves the list alone. -/
theorem Registered.accepted_ring (h : Registered m w l) (hf : w.reg.fault = none)
    (k : AcceptCalls) (hf' : (w.accepted k).reg.fault = none) :
    IsRing (w.accepted k).reg.links l ∨ IsRing (w.accepted k).reg.links (l ++ [w.nextId]) := by
  have hni := h.nextId_notMem
  unfold World.accepted at hf' ⊢
  cases accept_next k with
  | registered c n r b hcb hp hn =>
    simp only [hcb]
    obtain ⟨hring, -⟩ := Registry.foldl_register (x := [.opened (.sock .client) n]) h.ring hni rfl
    have hreg : (w.ran w.nextId c).reg = _ := ran_reg.trans (by rw [hn])
    exact .inr ((congrArg Registry.links hreg) ▸ hring)
  | discarded c hcb hin hu hn =>
    simp only [hcb]
    obtain ⟨hring, -⟩ := Registry.foldl_discarded h.ring hni hn
    have hreg : (w.ran w.nextId c).reg = _ := ran_reg
    exact .inl ((congrArg Registry.links hreg) ▸ hring)
  | crashed c hcb hu hn =>
    simp only [hcb] at hf'
    have hbad := (congrArg Registry.fault (ran_reg (i := w.nextId) (c := c))).trans
      (Registry.foldl_crashed hf hn)
    exact absurd (hbad.symm.trans hf') (by simp)
  | refused es hcb hn =>
    simp only [hcb] at hf' ⊢
    have hreg : (w.exec w.nextId es).reg = _ := Registry.foldl_notes (i := w.nextId) w.reg es
    rcases hn with hn | hn
    · have hbad := (congrArg Registry.fault hreg).trans (Registry.foldl_crashed hf hn)
      exact absurd (hbad.symm.trans hf') (by simp)
    · obtain ⟨hring, -⟩ := Registry.foldl_refused h.ring hni hn
      exact .inl ((congrArg Registry.links hreg) ▸ hring)

/-- A step takes clients off the list, or puts the client it accepted at its tail. -/
theorem Registered.grows (h : Registered m w l) (hs : World.Step m w act w')
    (hf' : w'.reg.fault = none) :
    ∃ l', Registered m w' l' ∧ l'.Sublist (l ++ [w.nextId]) := by
  have hsame := List.sublist_append_left l [w.nextId]
  cases hs with
  | @accept k hf hk =>
    obtain ⟨l', h'⟩ := h.step (.accept hf hk) hf'
    rcases h.accepted_ring hf k hf' with hring | hring
    · exact ⟨l, h'.ring.unique hring ▸ h', hsame⟩
    · exact ⟨_, h'.ring.unique hring ▸ h', .refl _⟩
  | @callback i c ev hf hc hen hk =>
    obtain ⟨hi, f, hp⟩ := h.enabled hc hen
    by_cases hbad : c.StartsBadly m ev
    · exact absurd ((h.callback_twice hf hc hen hbad).symm.trans hf') (by simp)
    obtain ⟨st, hst, hnext⟩ := phase_step hp hen hbad
    rw [h.notes hc, List.nil_append] at hnext
    cases hnext with
    | stays hp' hn => exact ⟨l, (h.stays hi hp' hn hst).1, hsame⟩
    | released g hg hin hn =>
      obtain ⟨l₁, l₂, rfl⟩ := List.append_of_mem hi
      refine ⟨_, (h.release hin hn hst).1, List.Sublist.trans ?_ hsame⟩
      exact List.Sublist.append_left (List.sublist_cons_self i l₂) l₁
    | crashed hn => exact absurd ((ran_crashed hf hst hn).symm.trans hf') (by simp)
  | @finalize j d hf hd =>
    obtain ⟨hl, -, hc, hn⟩ := finalized_reg w j d
    exact ⟨l, h.of_same hc hn (by rw [hl]; exact h.ring), hsame⟩
  | dropAll hf hd =>
    obtain ⟨w'', hd', h', -⟩ := h.dropAll hf
    obtain rfl : w' = w'' := congrArg Prod.fst (forEachSafe_unique hd hd')
    exact ⟨_, h', List.filter_sublist.trans hsame⟩

/-- The list of clients is in the order of their accepts. -/
theorem run_ordered (hrun : Run (World.Step m) (World.init n) acts w) (hf : w.reg.fault = none) :
    ∃ l, Registered m w l ∧ l.Pairwise (· < ·) := by
  induction hrun with
  | nil => exact ⟨[], registered_init m n, .nil⟩
  | @snoc acts u v act _ hs ih =>
    obtain ⟨l, h, hord⟩ := ih hs.not_faulted
    obtain ⟨l', h', hsub⟩ := h.grows hs hf
    refine ⟨l', h', List.Pairwise.sublist hsub ?_⟩
    rw [List.pairwise_append]
    refine ⟨hord, List.pairwise_singleton _ _, fun i hi j hj => ?_⟩
    obtain rfl := List.mem_singleton.mp hj
    obtain ⟨c, f, hc, -⟩ := h.on i hi
    exact h.lt_nextId hc

end Order

/-! ## What is printed -/

section Print

variable {m : PumpMethod} {P : Conn → Turn → Prop} {w w' : World} {l : List ℕ} {i n : ℕ}
  {acts : List Act} {c : Conn} {s d : SockAddr} {tag : String}

/-- What there is to print for a client with the addresses `s` and `d`. The splice pump has nothing
to say about a client in its handshake. -/
def Conn.report (c : Conn) (m : PumpMethod) (tag : String) (s d : SockAddr) : Report :=
  match m, c.userArg with
  | .splicepump, none => ⟨tag, none, none⟩
  | .splicepump, some p => ⟨tag, some p.pipe, some (c.info s d)⟩
  | .bufferpump, _ => ⟨tag, none, some (c.info s d)⟩

/-- The report `r` is about client `i` with the addresses of its accept. -/
inductive Shown (m : PumpMethod) (acts : List Act) (w : World) (tag : String) (i : ℕ) (r : Report) :
    Prop
  | intro (pre post : List Act) (k : AcceptCalls) (d : SockAddr) (c : Conn)
      (hacts : acts = pre ++ .accept k :: post) (hi : pre.countP Act.isAccept = i)
      (hd : k.origdst = some d) (hc : w.conns i = some c)
      (hr : r = c.report m tag k.srcAddr d)

theorem pumpDumpInfo_addressed (hl : c.released = false) (ha : c.Addressed s d) :
    pumpDumpInfo m tag c = some (c.report m tag s d) := by
  have hinfo : clientDumpInfo c = some (c.info s d) := by
    unfold clientDumpInfo
    rw [ha.1, ha.2]
  unfold pumpDumpInfo Conn.report
  rw [if_neg (by simp [hl])]
  cases m with
  | bufferpump => simp [dumpInfoFn, hinfo]
  | splicepump => cases hp : c.userArg <;> simp [dumpInfoFn, hp, hinfo]

/-- A live client has the addresses of its accept. -/
theorem OwnLife.addressed (h : OwnLife m P i acts c) (hl : c.released = false) :
    ∃ pre post k d, acts = pre ++ .accept k :: post ∧ pre.countP Act.isAccept = i ∧
      k.origdst = some d ∧ c.Addressed k.srcAddr d := by
  obtain ⟨pre, post, k, c₀, ts, r, hacts, hi, hcb, hrun, -, -⟩ := h
  rcases tracked_accept (m := m) hcb with hr | ⟨d, hd, h₀⟩
  · have hgone : c.released = true := hrun.invariant (I := fun c => c.released = true) hr
      fun u t v hu hs => absurd (hu.symm.trans hs.2.1) (by decide)
    exact absurd (hgone.symm.trans hl) (by decide)
  · have htracked := hrun.invariant (I := Tracked m k.srcAddr d) h₀ fun u t v hu hs => hu.turn hs.2
    cases htracked with
    | live h ha => exact ⟨pre, post, k, d, hacts, hi, hd, ha⟩
    | gone hr => exact absurd (hr.symm.trans hl) (by decide)

theorem shown_live (hrun : Run (World.Step m) (World.init n) acts w) (hc : w.conns i = some c)
    (hl : c.released = false) (tag : String) :
    ∃ r, pumpDumpInfo m tag c = some r ∧ Shown m acts w tag i r := by
  have hmeet : Run (Meeting (World.Step m) (Act.Meets fun _ _ => True)) (World.init n) acts w :=
    hrun.mono fun _ _ _ hs => ⟨fun _ _ _ _ _ _ => trivial, hs⟩
  obtain ⟨c', rfl, hlife⟩ := (run_projected hmeet).life i c hc
  obtain ⟨pre, post, k, d, hacts, hi, hd, ha⟩ := hlife.addressed hl
  exact ⟨_, pumpDumpInfo_addressed hl ha, .intro pre post k d _ hacts hi hd hc rfl⟩

theorem Registered.mem_iff_live (h : Registered m w l) (i : ℕ) :
    i ∈ l ↔ ∃ c, w.conns i = some c ∧ c.released = false := by
  constructor
  · intro hi
    obtain ⟨c, f, hc, hp⟩ := h.on i hi
    exact ⟨c, hc, hp.live⟩
  · rintro ⟨c, hc, hl⟩
    exact (h.mem hc).mpr hl

theorem exists_forall₂ {α β : Type*} {R : α → β → Prop} {xs : List α} (h : ∀ x ∈ xs, ∃ y, R x y) :
    ∃ ys, List.Forall₂ R xs ys := by
  induction xs with
  | nil => exact ⟨[], .nil⟩
  | cons x xs ih =>
    obtain ⟨y, hy⟩ := h x List.mem_cons_self
    obtain ⟨ys, hys⟩ := ih fun z hz => h z (List.mem_cons_of_mem x hz)
    exact ⟨y :: ys, .cons hy hys⟩

theorem Registered.dump (h : Registered m w l)
    (hrun : Run (World.Step m) (World.init n) acts w) :
    ∃ rs, w.dumpAllClientInfo m (l.length + 1) = some rs ∧
      List.Forall₂ (fun x r => Shown m acts w ("conn #" ++ toString x.2) x.1 r) l.zipIdx rs := by
  have hreports : ∀ x ∈ l.zipIdx, ∃ r, w.dumped m x.2 x.1 = some r ∧
      Shown m acts w ("conn #" ++ toString x.2) x.1 r := by
    rintro ⟨i, j⟩ hx
    have hi : i ∈ l := List.mem_of_getElem? (List.mk_mem_zipIdx_iff_getElem?.mp hx)
    obtain ⟨c, hc, hl⟩ := (h.mem_iff_live i).mp hi
    obtain ⟨r, hr, hshown⟩ := shown_live hrun hc hl ("conn #" ++ toString j)
    refine ⟨r, ?_, hshown⟩
    rw [World.dumped, hc]
    exact hr
  obtain ⟨rs, hrs⟩ := exists_forall₂ hreports
  exact ⟨rs, h.ring.forEach (hrs.imp fun _ _ h => h.1), hrs.imp fun _ _ h => h.2⟩

/-- **`SIGHUP`.** In every reachable state the dump ends without following a pointer that it must
not follow, and prints a report for each live client, in the order of their accepts, numbered from
zero. The report has the addresses of the client's accept and its state, unless the splice pump has
not started for the client: then it is the tag alone. -/
theorem dump_exact (hrun : Run (World.Step m) (World.init n) acts w) (hf : w.reg.fault = none) :
    ∃ (l : List ℕ) (rs : List Report), l.Pairwise (· < ·) ∧
      (∀ i, i ∈ l ↔ ∃ c, w.conns i = some c ∧ c.released = false) ∧
      w.dumpAllClientInfo m (l.length + 1) = some rs ∧
      List.Forall₂ (fun x r => Shown m acts w ("conn #" ++ toString x.2) x.1 r) l.zipIdx rs := by
  obtain ⟨l, h, hord⟩ := run_ordered hrun hf
  obtain ⟨rs, hrs, hshown⟩ := h.dump hrun
  exact ⟨l, rs, hord, h.mem_iff_live, hrs, hshown⟩

/-- One visit of the drop: it prints the client before it frees it. -/
theorem Dropping.body_loud {kept rest past : List ℕ} {rs : List Report}
    (hrun : Run (World.Step m) (World.init n) acts w) (h : Dropping m w l kept (i :: rest) w')
    (hrs : List.Forall₂ (Shown m acts w "close connection") past rs) :
    ∃ w'' r, World.droppedLoud m i (w', rs) = some (w'', rs ++ [r]) ∧
      List.Forall₂ (Shown m acts w "close connection") (past ++ [i]) (rs ++ [r]) ∧
      (Dropping m w l kept rest w'' ∨ Dropping m w l (kept ++ [i]) rest w'') := by
  obtain ⟨c, f, hc, hp⟩ := h.registered.on i (by simp)
  have hc₀ : w.conns i = some c := (h.same i List.mem_cons_self).symm.trans hc
  obtain ⟨r, hr, hshown⟩ := shown_live hrun hc₀ hp.live "close connection"
  obtain ⟨w'', hw'', hnext⟩ := h.body
  exact ⟨w'', r, by simp [World.droppedLoud, hc, hr, hw''],
    List.rel_append hrs (.cons hshown .nil), hnext⟩

/-- The printing leaves the program as it would be without. -/
theorem dropAllLoud_quiet {fuel : ℕ} {rs : List Report} {visited : List ℕ}
    (h : w.dropAllLoud m fuel = some ((w', rs), visited)) :
    w.dropAllClients m fuel = some (w', visited) := by
  have hquiet : ∀ k (x x' : World × List Report), World.droppedLoud m k x = some x' →
      World.dropped m k x.1 = some x'.1 := by
    intro k x x' hx
    obtain ⟨c, -, hx⟩ := Option.bind_eq_some_iff.mp hx
    obtain ⟨r, -, hx⟩ := Option.bind_eq_some_iff.mp hx
    obtain ⟨u, hu, rfl⟩ := Option.map_eq_some_iff.mp hx
    exact hu
  have hdrop : forEachSafe (fun u : World => u.reg.links) (World.dropped m) fuel
      (Prod.fst (w, ([] : List Report))) = some (Prod.fst (w', rs), visited) := by
    refine forEachSafe_map ?_ hquiet h
    intro x
    rfl
  exact hdrop

theorem Registered.dropLoud (h : Registered m w l)
    (hrun : Run (World.Step m) (World.init n) acts w) (hf : w.reg.fault = none) :
    ∃ w' rs, w.dropAllLoud m (l.length + 1) = some ((w', rs), l) ∧
      List.Forall₂ (Shown m acts w "close connection") l rs := by
  have h0 : Dropping m w l [] l w :=
    ⟨h, hf, ⟨[], rfl, rfl⟩, fun _ _ => rfl, fun _ hi => absurd hi (by simp),
      fun _ hi hn => absurd hi (by simpa using hn)⟩
  obtain ⟨⟨w', rs⟩, kept, hloud, -, past, hl, hrs⟩ :
      ∃ (x : World × List Report) (kept : List ℕ),
        w.dropAllLoud m (l.length + 1) = some (x, l) ∧ Dropping m w l kept [] x.1 ∧
        ∃ past, l = past ++ [] ∧
          List.Forall₂ (Shown m acts w "close connection") past x.2 := by
    refine forEachSafe_visits (P := fun kept rest (x : World × List Report) =>
      Dropping m w l kept rest x.1 ∧
      ∃ past, l = past ++ rest ∧ List.Forall₂ (Shown m acts w "close connection") past x.2)
      (fun _ _ _ hd => hd.1.registered.ring) ?_ ⟨h0, [], rfl, .nil⟩
    rintro kept i rest ⟨u, rs⟩ ⟨hd, past, hl, hrs⟩
    obtain ⟨u', r, hbody, hrs', hnext⟩ := hd.body_loud hrun hrs
    have hl' : l = (past ++ [i]) ++ rest := by simp [hl]
    exact ⟨_, hbody, hnext.imp (fun h => ⟨h, _, hl', hrs'⟩) fun h => ⟨h, _, hl', hrs'⟩⟩
  rw [List.append_nil] at hl
  subst hl
  exact ⟨w', rs, hloud, hrs⟩

/-- **`SIGUSR1`.** In every reachable state `transocks_drop_all_clients` prints such a report for
every live client once, in the order of the accepts, before it frees it, and leaves the same program
as without the printing. -/
theorem drop_prints (hrun : Run (World.Step m) (World.init n) acts w) (hf : w.reg.fault = none) :
    ∃ (w' : World) (l : List ℕ) (rs : List Report), l.Pairwise (· < ·) ∧
      (∀ i, i ∈ l ↔ ∃ c, w.conns i = some c ∧ c.released = false) ∧
      w.dropAllLoud m (l.length + 1) = some ((w', rs), l) ∧
      w.dropAllClients m (l.length + 1) = some (w', l) ∧
      List.Forall₂ (Shown m acts w "close connection") l rs := by
  obtain ⟨l, h, hord⟩ := run_ordered hrun hf
  obtain ⟨w', rs, hloud, hshown⟩ := h.dropLoud hrun hf
  exact ⟨w', l, rs, hord, h.mem_iff_live, hloud, dropAllLoud_quiet hloud, hshown⟩

end Print

theorem dump_exact_twoClients :
    ∃ (l : List ℕ) (rs : List Report), l.Pairwise (· < ·) ∧
      (World.after .bufferpump twoClients).dumpAllClientInfo .bufferpump (l.length + 1) = some rs ∧
      rs.length = l.length := by
  have hrun := (run_twoClients (P := fun _ _ => True) fun _ _ => trivial).mono fun _ _ _ hs => hs.2
  obtain ⟨l, rs, hord, -, hdump, hshown⟩ := dump_exact hrun rfl
  refine ⟨l, rs, hord, hdump, ?_⟩
  rw [← hshown.length_eq, List.length_zipIdx]

theorem drop_prints_twoClients :
    ∃ (w' : World) (l : List ℕ) (rs : List Report),
      (World.after .bufferpump twoClients).dropAllLoud .bufferpump (l.length + 1) =
        some ((w', rs), l) ∧ rs.length = l.length := by
  have hrun := (run_twoClients (P := fun _ _ => True) fun _ _ => trivial).mono fun _ _ _ hs => hs.2
  obtain ⟨w', l, rs, -, -, hloud, -, hshown⟩ := drop_prints hrun rfl
  exact ⟨w', l, rs, hloud, hshown.length_eq.symm⟩

end Transocks

import Transocks.Leaks
import Transocks.Refinement

/-!
# Every client settles

`Owing` follows what a client owes from its accept to its release, through the handshake and either
pump: as long as the record lives it leads to everything acquired for the client, and a released
client has given everything back. `client_settles` says so for every client in every run of the
program, whichever way the client ends: refused at the accept, given up in the handshake, timed out,
dropped by a signal or closed by its pump.
-/

namespace Transocks

open Ledger Runs

/-- No start of the splice pump in this turn loses a record or a pipe. -/
def Lossless (m : PumpMethod) (c : Conn) : Turn → Prop
  | .callback ev => ∀ k, c.Starts k ev → m = .splicepump → k.leaks = false
  | .drop => True

/-- What a client owes. -/
inductive Owing (m : PumpMethod) (c : Conn) : Prop
  | waits (l : Leg) (a : SockAddr) (f : Side → ℕ) (b : Bufferevent) (h : AtLeg l a c f b)
      (hs : Solvent c)
  | served (h : Served m c)
  | rejected (hr : c.released = true) (h : ∀ x, ¬ c.Holds x)

section Turn

variable {m : PumpMethod} {l : Leg} {a : SockAddr} {c c' : Conn} {f : Side → ℕ} {b : Bufferevent}
  {ev : Ev} {t : Turn}

theorem Solvent.refused {b₁ : Bufferevent} (h : AtLeg l a c f b) (hs : Solvent c) :
    Owing m (Transocks.clientFree
      ((timerOff (Transocks.heard c b ev)).setBev .relay (some b₁))) := by
  have hheard := hs.heard b ev
  obtain ⟨b₂, h₂, -⟩ := h.heard ev
  have hsolv : Solvent ((timerOff (Transocks.heard c b ev)).setBev .relay (some b₁)) :=
    hheard.quiet (((Retains.refl _).setTimer _).setBev .relay b₁) rfl hheard.notFreed rfl
  obtain ⟨hr, hg⟩ := hsolv.clientFree h₂.noPump
  exact .served (.gone hr hg)

theorem Solvent.served {k : StartCalls} (h : Handshaking c f b) (hs : Solvent c)
    (ht : ∀ ev, c.timeoutEv = some ev → ev.added = false)
    (hk : m = .splicepump → k.leaks = false) :
    Served m (afterStart (Transocks.startPump m c k)) := by
  cases m with
  | bufferpump => exact afterStart_copies h hs ht
  | splicepump => exact afterStart_splices h hs ht (hk rfl)

theorem AtLeg.owing (h : AtLeg l a c f b) (hs : Solvent c) (hen : c.Enabled ev)
    (hk : Lossless m c (.callback ev)) : Owing m (c.step m ev) := by
  have hm := h.toHandshaking.move (m := m) h.dest hen
  have hshort : ∀ bs k, ev = .read .relay bs k → (b.input ++ bs).length < b.readLow →
      c.step m ev = c.received .relay b bs := by
    rintro bs k rfl hlow
    simp only [Conn.step, h.relay, if_pos hlow]
  generalize hc' : c.step m ev = c' at hm hshort
  -- a callback that keeps the client waiting
  have hwaits : c'.released = false → c'.clientState ≠ .pumpingData → Owing m c' := by
    intro hl hst
    have hsolv := hm.solvent h hs hl hst
    rcases hm.outcome h with ⟨l', b', h', -, -⟩ | ⟨bs, n, k, -, -, -, -, hstart⟩ | ⟨hi, -, -⟩
    · exact .waits l' a f b' h' hsolv
    · rcases h.afterStart_done (m := m) bs n k with hr | hp
      · rw [hstart] at hr
        exact absurd (hr.symm.trans hl) (by decide)
      · rw [hstart] at hp
        exact absurd hp hst
    · exact absurd (hi.released.symm.trans hl) (by decide)
  have hleg : l.clientState ≠ .pumpingData := by cases l <;> decide
  have hheard : (Transocks.heard c b ev).released = false ∧
      (Transocks.heard c b ev).clientState ≠ .pumpingData := by
    obtain ⟨b₁, h₁, -⟩ := h.heard ev
    exact ⟨h₁.live, by rw [h₁.state]; exact hleg⟩
  have hstate : c.clientState ≠ .pumpingData := by rw [h.state]; exact hleg
  cases hm with
  | crashed _ ht => exact hwaits hheard.1 hheard.2
  | refused _ ht hfd => exact hs.refused h
  | ignored ht hw => exact hwaits h.live hstate
  | connected ht hcb => exact hwaits h.live (by simp [awaits])
  | short hs => exact hwaits h.live hstate
  | selected ht hcb hin hreq => exact hwaits h.live hstate
  | @started bs k n ht hcb hlen hn =>
    by_cases hlow : (b.input ++ bs).length < b.readLow
    · rw [hshort bs k rfl hlow]
      exact .waits l a f _ (h.received bs) (hs.received b bs)
    · have hstarts : c.Starts k.start (.read .relay bs k) :=
        ⟨rfl, b, h.relay, hcb, Nat.not_lt.mp hlow, ht, hlen, by simp [hn]⟩
      have hsolv : Solvent (Transocks.atStart c b bs n k) :=
        (hs.received b bs).quiet ((((Retains.refl _).setTimer _).setBev .relay _).setState _) rfl
          (by simp [Transocks.atStart, replyAccepted]) rfl
      exact .served (hsolv.served (h.atStart bs n k) (atStart_timer c b bs n k)
        (hk k.start hstarts))
  | flushed => exact hwaits h.live hstate
  | idle => exact hwaits h.live hstate

/-- **One turn of a client.** -/
theorem Owing.turn (h : Owing m c) (hs : LifeStep m c t c') (hk : Lossless m c t) :
    Owing m c' := by
  cases h with
  | waits l a f b h hsolv =>
    obtain ⟨-, hpos, rfl⟩ := hs
    cases t with
    | callback ev => exact h.owing hsolv hpos hk
    | drop =>
      cases m with
      | splicepump =>
        have heq : c.turn .splicepump .drop = c := h.toHandshaking.drop.1
        rw [heq]
        exact .waits l a f b h hsolv
      | bufferpump =>
        have heq : c.turn .bufferpump .drop = _ := h.toHandshaking.drop.2
        have hoff : Solvent ((c.mapBev .client Bufferevent.disable).mapBev .relay
            Bufferevent.disable) :=
          hsolv.quiet (((Retains.refl c).mapBev .client _).mapBev .relay _) rfl hsolv.notFreed rfl
        obtain ⟨hr, hg⟩ := hoff.clientFree h.noPump
        rw [heq]
        exact .served (.gone hr hg)
  | served h => exact .served (h.turn hs)
  | rejected hr h => exact absurd (hr.symm.trans hs.1) (by decide)

end Turn

/-! ## The accept -/

/-- The record leads to everything acquired but what `extra` says. -/
structure Nearly (c : Conn) (extra : Resource → Prop) : Prop where
  live : c.released = false
  notFreed : c.clientState ≠ .destroyed ∧ c.clientState ≠ .destroying
  covered : Covered Effect.acquires Effect.releases (fun x => c.ownsAlone x ∨ extra x) c.out

section Accept

variable {c : Conn} {extra extra' : Resource → Prop} {es : List Effect} {k : AcceptCalls}

theorem Nearly.emits (h : Nearly c extra)
    (hacq : ∀ e ∈ es, ∀ x, e.acquires = some x → c.ownsAlone x ∨ extra' x)
    (hkeep : ∀ x, extra x → (∀ e ∈ es, e.releases ≠ some x) → extra' x) :
    Nearly (c.emits es) extra' := by
  refine ⟨h.live, h.notFreed, h.covered.append hacq fun x hx hrel => ?_⟩
  exact hx.imp_right fun hx => hkeep x hx hrel

theorem Nearly.weaken (h : Nearly c extra) (hle : ∀ x, extra x → extra' x) : Nearly c extra' :=
  ⟨h.live, h.notFreed, fun x hx => (h.covered x hx).imp_right (hle x)⟩

/-- A call that acquires `x`. -/
theorem Nearly.acquire (h : Nearly c extra) {e : Effect} {y : Resource}
    (he : e.acquires = some y) (hy : c.ownsAlone y ∨ extra' y) (hle : ∀ x, extra x → extra' x) :
    Nearly (c.emits [e]) extra' := by
  refine h.emits (fun e' he' x hx => ?_) fun x hx _ => hle x hx
  obtain rfl := List.mem_singleton.mp he'
  obtain rfl := Option.some.inj (he.symm.trans hx)
  exact hy

/-- Calls that acquire nothing and give back the rest of `extra`. -/
theorem Nearly.giveBack (h : Nearly c extra) (hacq : Acquireless es)
    (hrel : ∀ x, extra x → extra' x ∨ ∃ e ∈ es, e.releases = some x) :
    Nearly (c.emits es) extra' := by
  refine h.emits (fun e he x hx => absurd ((hacq e he).symm.trans hx) (by simp)) fun x hx hnot => ?_
  rcases hrel x hx with hx | ⟨e, he, hex⟩
  · exact hx
  · exact absurd hex (hnot e he)

/-- The release, and the calls after it, give back the rest. -/
theorem Nearly.settled (h : Nearly c extra) (hacq : Acquireless es)
    (hrel : ∀ x, extra x → ∃ e ∈ es, e.releases = some x) (x : Resource) :
    ¬ ((clientFree c).emits es).Holds x := by
  have hout : ((clientFree c).emits es).out = c.out ++ (clientFreeEffects c ++ es) := by
    rw [Conn.emits_out, clientFree_out h.live h.notFreed, List.append_assoc]
  unfold Conn.Holds
  rw [hout]
  refine h.covered.settle ((acquireless_clientFreeEffects c).append hacq) ?_ x
  rintro x (hx | hx)
  · obtain ⟨e, he, hex⟩ := ownsAlone_released hx
    exact ⟨e, List.mem_append_left _ he, hex⟩
  · obtain ⟨e, he, hex⟩ := hrel x hx
    exact ⟨e, List.mem_append_right _ he, hex⟩

/-- A release that leaves no label to run. -/
theorem Nearly.freed (h : Nearly c fun _ => False) (x : Resource) : ¬ (clientFree c).Holds x := by
  have hnil : Acquireless [] := by simp [Acquireless]
  have hx := h.settled hnil (fun _ hx => absurd hx id) x
  unfold Conn.Holds at hx ⊢
  rwa [Conn.emits_out, List.append_nil] at hx

theorem Nearly.freeClient {n : ℕ} (h : Nearly c (· = .fd (.sock .client) n)) (x : Resource) :
    ¬ (listenerFreeClient c n).Holds x := by
  refine h.settled (by simp [Acquireless, Effect.acquires]) (fun x hx => ?_) x
  exact ⟨_, List.mem_singleton_self _, by simp [Effect.releases, hx]⟩

theorem Nearly.change {c' : Conn} (h : Nearly c extra) (hl : c'.released = c.released)
    (hs : c'.clientState = c.clientState) (hout : c'.out = c.out)
    (hfd : ∀ s (n : ℕ), (c.ends s).fd = n → (c'.ends s).fd = n)
    (hbev : ∀ s, (c.ends s).bev.isSome → (c'.ends s).bev.isSome)
    (htimer : c.timeoutEv.isSome → c'.timeoutEv.isSome)
    (haddr : c.clientAddr.isSome → c'.clientAddr.isSome)
    (hdest : c.destAddr.isSome → c'.destAddr.isSome)
    (hextra : ∀ x, extra x → c'.ownsAlone x ∨ extra' x) : Nearly c' extra' := by
  refine ⟨hl.trans h.live, by rw [hs]; exact h.notFreed, fun x hx => ?_⟩
  rw [hout] at hx
  rcases h.covered x hx with hx | hx
  swap
  · exact hextra x hx
  refine .inl ?_
  cases x with
  | fd g n =>
    cases g with
    | sock s => exact hfd s n hx
    | _ => exact hx
  | obj o =>
    cases o with
    | clientAddr => exact haddr hx
    | destAddr => exact hdest hx
    | timer => exact htimer hx
    | bev s => exact hbev s hx
    | _ => exact hx

theorem nearly_allocated (k : AcceptCalls) (n : ℕ) :
    Nearly (allocated k n) (· = .fd (.sock .client) n) := by
  refine ⟨rfl, by simp [allocated, Conn.new], ?_⟩
  have hnil : Covered Effect.acquires Effect.releases
      (fun x => (allocated k n).ownsAlone x ∨ x = .fd (.sock .client) n) [] :=
    fun x hx => absurd hx outstanding_nil
  show Covered _ _ _ ([] ++ ([Effect.opened (.sock .client) n] ++ newEffects k))
  refine hnil.append (fun e he x hx => ?_) fun x hx _ => hx
  rcases List.mem_append.mp he with he | he
  · obtain rfl := List.mem_singleton.mp he
    exact .inr (Option.some.inj hx).symm
  · rcases mem_newEffects he with rfl | rfl | rfl | rfl
    · obtain rfl := Option.some.inj hx
      exact .inl trivial
    · cases hx
    · obtain rfl := Option.some.inj hx
      exact .inl rfl
    · obtain rfl := Option.some.inj hx
      exact .inl rfl

theorem nearly_addressed (k : AcceptCalls) (n : ℕ) (a : SockAddr) :
    Nearly (addressed k n a) fun _ => False := by
  refine (nearly_allocated k n).change rfl rfl rfl (fun s x hx => ?_) (fun s hb => ?_) id id
    (fun _ => rfl) fun x hx => ?_
  · have hfd : (-1 : ℤ) = x := hx
    omega
  · have hb' : ((allocated k n).ends s).bev = none := rfl
    rw [hb'] at hb
    cases hb
  · subst hx
    refine .inl ?_
    simp [Conn.ownsAlone, addressed]

theorem Nearly.newBev (h : Nearly c fun _ => False) (s : Side) (b : Bufferevent)
    (hb : (c.ends s).bev = none) :
    Nearly ((c.setBev s (some b)).emits [.alloc (.bev s)]) fun _ => False := by
  have hset : Nearly (c.setBev s (some b)) fun _ => False := by
    refine h.change rfl rfl rfl (fun t x hx => ?_) (fun t ht => ?_) id id id
      fun x hx => absurd hx id
    all_goals rcases Side.eq_or_eq_other s t with rfl | rfl
    · simpa using hx
    · simpa using hx
    · simp
    · simpa using ht
  refine hset.acquire (y := .obj (.bev s)) rfl (.inl ?_) fun x hx => absurd hx id
  simp [Conn.ownsAlone]

theorem nearly_listed (k : AcceptCalls) (n : ℕ) (a : SockAddr) :
    Nearly (listed k n a) fun _ => False := by
  have hbev : ((addressed k n a).ends .client).bev = none := by simp [addressed, Conn.new, End.new]
  have h := (nearly_addressed k n a).newBev .client (Bufferevent.new n) hbev
  have hlist : Acquireless [.listAddTail] := by simp [Acquireless, Effect.acquires]
  exact h.giveBack hlist fun x hx => absurd hx id

theorem nearly_connecting (k : AcceptCalls) (n r : ℕ) (a : SockAddr) (es : List Effect)
    (h : Nearly (((listed k n a).emits es).setEnd .relay
      { (listed k n a).ends .relay with fd := r }) fun _ => False) :
    Nearly (clientSetTimeout (connecting ((listed k n a).emits es) r) k.timer) fun _ => False := by
  have hbev : Nearly (connecting ((listed k n a).emits es) r) fun _ => False :=
    h.newBev .relay (connectingBev r) (by rw [Conn.setEnd_same]; rfl)
  rw [connecting_timer]
  cases k.timer.evtimerNew with
  | false =>
    refine hbev.change rfl rfl ?_ (fun _ _ h => h) (fun _ h => h) (fun h => ?_) id id
      fun x hx => absurd hx id
    · simp
    · have hnone : (connecting ((listed k n a).emits es) r).timeoutEv = none := rfl
      rw [hnone] at h
      cases h
  | true =>
    have htimer : Nearly { connecting ((listed k n a).emits es) r with
        timeoutEv := some ⟨k.timer.evtimerAdd, false⟩ } fun _ => False :=
      hbev.change rfl rfl rfl (fun _ _ h => h) (fun _ h => h) (fun _ => rfl) id id
        fun x hx => absurd hx id
    exact htimer.acquire (y := .obj .timer) rfl (.inl rfl) fun x hx => absurd hx id

/-- `transocks_start_connect_relay` does not lose anything when it releases its client. -/
theorem startConnectRelay_settled {n : ℕ} {a : SockAddr}
    (hr : (startConnectRelay (listed k n a) k).released = true) (x : Resource) :
    ¬ (startConnectRelay (listed k n a) k).Holds x := by
  have h₀ := nearly_listed k n a
  cases hs : k.socket with
  | none =>
    rw [startConnectRelay_none hs]
    exact h₀.freed x
  | some r =>
    have hclose : ∀ {c : Conn} {es : List Effect}, Nearly c (· = .fd (.sock .relay) r) →
        Acquireless es → .closed (.sock .relay) r ∈ es →
        ¬ (clientFree (c.emits es)).Holds x := by
      intro c es h hes hmem
      refine (h.giveBack hes fun y hy => .inr ⟨_, hmem, ?_⟩).freed x
      simp [Effect.releases, hy]
    -- the socket, before and after the record knows it
    have h₁ : Nearly ((listed k n a).emits [.opened (.sock .relay) r])
        (· = .fd (.sock .relay) r) := h₀.acquire rfl (.inr rfl) fun x hx => absurd hx id
    have h₂ : Nearly (((listed k n a).emits [.opened (.sock .relay) r]).setEnd .relay
        { (listed k n a).ends .relay with fd := r }) fun _ => False := by
      refine h₁.change rfl rfl rfl (fun s m hm => ?_) (fun s hb => ?_) id id id fun y hy => ?_
      · cases s with
        | client => exact hm
        | relay =>
          have hfd : (-1 : ℤ) = m := hm
          omega
      · cases s with
        | client => exact hb
        | relay => simpa using hb
      · subst hy
        refine .inl ?_
        simp [Conn.ownsAlone]
    have h₃ := nearly_connecting k n r a _ h₂
    have hweak : ∀ {c : Conn}, Nearly c (fun _ => False) → Nearly c (· = .fd (.sock .relay) r) :=
      fun h => h.weaken fun x hx => absurd hx id
    rw [startConnectRelay_socket hs] at hr ⊢
    simp only at hr ⊢
    split_ifs at hr ⊢
    · exact hclose h₁ (by simp [Acquireless, Effect.acquires]) (by simp)
    · exact hclose (hweak h₂) (by simp [Acquireless, Effect.acquires]) (by simp)
    · exact hclose (hweak h₃) (by simp [Acquireless, Effect.acquires]) (by simp)
    · exact absurd (h₃.live.symm.trans hr) (by decide)

/-- **A refused client owes nothing.** -/
theorem listenerCb_settled (hcb : (listenerCb k).1 = some c) (hr : c.released = true)
    (x : Resource) : ¬ c.Holds x := by
  unfold listenerCb at hcb
  split at hcb
  · cases hcb
  · rename_i n _
    split_ifs at hcb
    obtain hnew | hnew | ⟨es, hnew, -⟩ := clientNew_cases k
    all_goals rw [hnew] at hcb
    · cases hcb
    swap
    · cases hcb
    cases ho : k.origdst with
    | none =>
      rw [ho] at hcb
      obtain rfl := Option.some.inj hcb
      exact (nearly_allocated k n).freeClient x
    | some a =>
      rw [ho] at hcb
      obtain rfl : listenerSetup (addressed k n a) n k = c := Option.some.inj hcb
      have h₀ : Nearly (addressed k n a) (· = .fd (.sock .client) n) :=
        (nearly_addressed k n a).weaken fun x hx => absurd hx id
      unfold listenerSetup at hr ⊢
      split_ifs at hr ⊢
      · exact h₀.freeClient x
      · have h₁ : Nearly ((addressed k n a).emits [.alloc (.bev .client)])
            (fun x => x = .fd (.sock .client) n ∨ x = .obj (.bev .client)) :=
          h₀.acquire rfl (.inr (.inr rfl)) fun x hx => .inl hx
        refine (h₁.giveBack (by simp [Acquireless, Effect.acquires]) ?_).freeClient x
        rintro y (hy | hy)
        · exact .inl hy
        · exact .inr ⟨.free (.bev .client), by simp, by simp [Effect.releases, hy]⟩
      · exact startConnectRelay_settled hr x

end Accept

/-! ## Runs -/

section Run

variable {m : PumpMethod} {i n : ℕ} {w : World} {acts : List Act} {c c₀ : Conn} {k : AcceptCalls}
  {ts : List Turn}

theorem lossless_atRest {t : Turn} (h : Lossless m c.atRest t) : Lossless m c t := by
  cases t with
  | callback ev =>
    intro k hst hm
    refine h k ?_ hm
    cases ev with
    | read s bs k' => cases s <;> exact hst
    | _ => exact hst
  | drop => trivial

theorem run_owing (hcb : (listenerCb k).1 = some c₀)
    (hrun : Run (OwnStep m (Lossless m)) c₀ ts c) : Owing m c := by
  refine hrun.invariant (I := Owing m) ?_ fun u t v hu hs => hu.turn hs.2 (lossless_atRest hs.1)
  cases hr : c₀.released with
  | true => exact .rejected hr (listenerCb_settled hcb hr)
  | false =>
    obtain ⟨x, r, a, -, -, -, rfl⟩ := listenerCb_live hcb hr
    exact .waits .connect a _ _ (atLeg_waitingConn k x r a) (solvent_waitingConn k x r a)

theorem Owing.settled (h : Owing m c) :
    (c.released = false ∧ ∀ x, c.Holds x → c.owns x) ∨ (c.released = true ∧ ∀ x, ¬ c.Holds x) := by
  cases h with
  | waits l a f b h hs => exact .inl ⟨hs.live, hs.covered⟩
  | served h =>
    cases h with
    | copies hm b h hs => exact .inl ⟨hs.live, hs.covered⟩
    | splices hm f p h hs => exact .inl ⟨hs.live, hs.covered⟩
    | gone hr hg => exact .inr ⟨hr, hg.all⟩
  | rejected hr h => exact .inr ⟨hr, h⟩

theorem OwnLife.settled (h : OwnLife m (Lossless m) i acts c) :
    (c.released = false ∧ ∀ x, c.Holds x → c.owns x) ∨ (c.released = true ∧ ∀ x, ¬ c.Holds x) := by
  obtain ⟨pre, post, k, c₀, ts, r, -, -, hcb, hown, -, -⟩ := h
  exact (run_owing hcb hown).settled

/-- **Every client settles.** In every run in which no start of the splice pump loses its pump
record or a pipe, the record of each live client leads to everything that was acquired for it and
not given back, and everything acquired for a released one was given back, however it ended. -/
theorem client_settles
    (hrun : Run (Meeting (World.Step m) (Act.Meets (Lossless m))) (World.init n) acts w)
    (hc : w.conns i = some c) :
    ∃ c', c = c'.atRest ∧ OwnLife m (Lossless m) i acts c' ∧
      ((c'.released = false ∧ ∀ x, c'.Holds x → c'.owns x) ∨
        (c'.released = true ∧ ∀ x, ¬ c'.Holds x)) := by
  obtain ⟨c', rfl, hlife⟩ := (run_projected hrun).life i c hc
  exact ⟨c', rfl, hlife, hlife.settled⟩

end Run

theorem lossless_toPump (act : Act) (hact : act ∈ toPump) (u : World) :
    act.Meets (Lossless .splicepump) u := by
  simp only [toPump, toReply, replyWith, List.cons_append, List.nil_append, List.mem_cons,
    List.not_mem_nil, or_false] at hact
  rcases hact with rfl | rfl | rfl | rfl
  · exact meets_accept _
  · exact meets_callback fun _ _ _ hst => absurd hst id
  · refine meets_callback fun _ _ k hst _ => ?_
    obtain rfl : StartCalls.ok = k := hst.1
    decide
  · refine meets_callback fun _ _ k hst _ => ?_
    obtain rfl : StartCalls.ok = k := hst.1
    decide

theorem run_toPump_lossless :
    Run (Meeting (World.Step .splicepump) (Act.Meets (Lossless .splicepump))) (World.init 3) toPump
      (World.after .splicepump toPump) :=
  run_toPump.meeting lossless_toPump

theorem run_pumpAndWait_lossless :
    Run (Meeting (World.Step .splicepump) (Act.Meets (Lossless .splicepump))) (World.init 3)
      pumpAndWait (World.after .splicepump pumpAndWait) :=
  run_toPump_lossless.snoc ⟨meets_accept _, .accept rfl ⟨rfl, rfl, trivial⟩⟩

/-- The drop releases the client that pumps, and leaves the one that waits with all it holds. -/
theorem client_settles_pumpAndWait :
    (∃ c' : Conn, (World.after .splicepump (pumpAndWait ++ [.dropAll])).conns 0 = some c'.atRest ∧
      c'.released = true ∧ ∀ x, ¬ c'.Holds x) ∧
      ∃ c' : Conn, (World.after .splicepump (pumpAndWait ++ [.dropAll])).conns 1 = some c'.atRest ∧
        c'.released = false ∧ ∀ x, c'.Holds x → c'.owns x := by
  have hrun : Run (Meeting (World.Step .splicepump) (Act.Meets (Lossless .splicepump)))
      (World.init 3) (pumpAndWait ++ [.dropAll])
      (World.after .splicepump (pumpAndWait ++ [.dropAll])) := by
    refine run_pumpAndWait_lossless.snoc ⟨?_, @World.Step.dropAll _ _ 3 _ _ rfl rfl⟩
    rintro j c t - - ht
    obtain rfl : Turn.drop = t := Option.some.inj ht
    trivial
  have hflag : ∀ i c (c' : Conn), (World.after .splicepump (pumpAndWait ++ [.dropAll])).conns i =
      some c → c = c'.atRest → c'.released = c.released := by
    rintro i _ c' - rfl
    rfl
  constructor
  · obtain ⟨c', hc, -, ⟨hl, -⟩ | ⟨hr, hx⟩⟩ := client_settles (i := 0) hrun (c := _) rfl
    · exact absurd ((hflag 0 _ c' rfl hc).symm.trans hl) (by decide)
    · exact ⟨c', congrArg some hc, hr, hx⟩
  · obtain ⟨c', hc, -, ⟨hl, hx⟩ | ⟨hr, -⟩⟩ := client_settles (i := 1) hrun (c := _) rfl
    · exact ⟨c', congrArg some hc, hl, hx⟩
    · exact absurd ((hflag 1 _ c' rfl hc).symm.trans hr) (by decide)

end Transocks

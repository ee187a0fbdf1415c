import Transocks.Lifetime
import Transocks.Lib.Ledger

/-!
# What a client owns

A connection acquires descriptors and objects one by one and gives them back through the fields of
its record: `Conn.owns` says which ones the record leads to. A live client is `Solvent` when
everything it acquired and has not given back can be found that way. Then a release gives back all
of it, and the record last. What the record does not lead to, a release leaves behind.
-/

namespace Transocks

open Ledger

/-- A descriptor with its number, or an object. -/
inductive Resource
  | fd (h : Handle) (n : ℕ)
  | obj (o : Obj)
  deriving DecidableEq, Repr

def Effect.acquires : Effect → Option Resource
  | .opened h n => some (.fd h n)
  | .alloc o => some (.obj o)
  | _ => none

def Effect.releases : Effect → Option Resource
  | .closed h fd => if 0 ≤ fd then some (.fd h fd.toNat) else none
  | .free o => some (.obj o)
  | _ => none

/-- The client acquired `x` and has not given it back. -/
def Conn.Holds (c : Conn) (x : Resource) : Prop :=
  Outstanding Effect.acquires Effect.releases c.out x

def Acquireless (es : List Effect) : Prop := ∀ e ∈ es, e.acquires = none

def Splicepump.owns (p : Splicepump) : Resource → Prop
  | .fd (.pipeRead d) n => (p.pipe d).pipeReadfd = n
  | .fd (.pipeWrite d) n => (p.pipe d).pipeWritefd = n
  | .obj .pump => True
  | .obj (.pipe _) => True
  | .obj (.readEv d) => (p.readEv d).isSome
  | .obj (.writeEv d) => (p.writeEv d).isSome
  | _ => False

/-- What the record itself leads to, without the pump. -/
def Conn.ownsAlone (c : Conn) : Resource → Prop
  | .fd (.sock s) n => (c.ends s).fd = n
  | .obj .record => True
  | .obj .clientAddr => c.clientAddr.isSome
  | .obj .destAddr => c.destAddr.isSome
  | .obj .timer => c.timeoutEv.isSome
  | .obj (.bev s) => (c.ends s).bev.isSome
  | _ => False

def Conn.owns (c : Conn) (x : Resource) : Prop :=
  c.ownsAlone x ∨ ∃ p, c.userArg = some p ∧ p.owns x

/-- A live client that can find everything it acquired. -/
structure Solvent (c : Conn) : Prop where
  live : c.released = false
  notFreed : c.clientState ≠ .destroyed ∧ c.clientState ≠ .destroying
  covered : Covered Effect.acquires Effect.releases c.owns c.out

/-- Everything was given back, and nothing after the record. -/
structure GaveBack (c : Conn) : Prop where
  all : ∀ x, ¬ c.Holds x
  last : ∃ es fs, c.out = es ++ .free .record :: fs ∧
    ∀ e ∈ fs, e.acquires = none ∧ e.releases = none

/-! ## What a change of the record keeps -/

/-- The pump record `p'` leads to all that `p` leads to. -/
structure PumpRetains (p p' : Splicepump) : Prop where
  readfd : ∀ d (n : ℕ), (p.pipe d).pipeReadfd = n → (p'.pipe d).pipeReadfd = n
  writefd : ∀ d (n : ℕ), (p.pipe d).pipeWritefd = n → (p'.pipe d).pipeWritefd = n
  readEv : ∀ d, (p.readEv d).isSome → (p'.readEv d).isSome
  writeEv : ∀ d, (p.writeEv d).isSome → (p'.writeEv d).isSome

/-- The record `c'` leads to all that `c` leads to. -/
structure Retains (c c' : Conn) : Prop where
  fd : ∀ s, (c'.ends s).fd = (c.ends s).fd
  bev : ∀ s, (c.ends s).bev.isSome → (c'.ends s).bev.isSome
  timer : c.timeoutEv.isSome → c'.timeoutEv.isSome
  clientAddr : c.clientAddr.isSome → c'.clientAddr.isSome
  destAddr : c.destAddr.isSome → c'.destAddr.isSome
  pump : ∀ p, c.userArg = some p → ∃ p', c'.userArg = some p' ∧ PumpRetains p p'

section Retains

variable {c c' c'' : Conn} {p p' : Splicepump} {x : Resource} {es : List Effect}

theorem PumpRetains.refl (p : Splicepump) : PumpRetains p p :=
  ⟨fun _ _ h => h, fun _ _ h => h, fun _ h => h, fun _ h => h⟩

theorem PumpRetains.owns (h : PumpRetains p p') (hx : p.owns x) : p'.owns x := by
  cases x with
  | fd g n =>
    cases g with
    | sock s => exact hx
    | pipeRead d => exact h.readfd d n hx
    | pipeWrite d => exact h.writefd d n hx
  | obj o =>
    cases o with
    | readEv d => exact h.readEv d hx
    | writeEv d => exact h.writeEv d hx
    | _ => exact hx

theorem Retains.owns (h : Retains c c') (hx : c.owns x) : c'.owns x := by
  rcases hx with hx | ⟨p, hp, hx⟩
  · refine .inl ?_
    cases x with
    | fd g n =>
      cases g with
      | sock s => exact (h.fd s).trans hx
      | _ => exact hx
    | obj o =>
      cases o with
      | clientAddr => exact h.clientAddr hx
      | destAddr => exact h.destAddr hx
      | timer => exact h.timer hx
      | bev s => exact h.bev s hx
      | _ => exact hx
  · obtain ⟨p', hp', hr⟩ := h.pump p hp
    exact .inr ⟨p', hp', hr.owns hx⟩

theorem Retains.refl (c : Conn) : Retains c c :=
  ⟨fun _ => rfl, fun _ h => h, fun h => h, fun h => h, fun h => h,
    fun p hp => ⟨p, hp, PumpRetains.refl p⟩⟩

theorem Retains.trans (h : Retains c c') (h' : Retains c' c'') : Retains c c'' where
  fd := fun s => (h'.fd s).trans (h.fd s)
  bev := fun s hb => h'.bev s (h.bev s hb)
  timer := fun ht => h'.timer (h.timer ht)
  clientAddr := fun ha => h'.clientAddr (h.clientAddr ha)
  destAddr := fun ha => h'.destAddr (h.destAddr ha)
  pump := fun p hp => by
    obtain ⟨p', hp', hr⟩ := h.pump p hp
    obtain ⟨p'', hp'', hr'⟩ := h'.pump p' hp'
    exact ⟨p'', hp'', fun d n hn => hr'.readfd d n (hr.readfd d n hn),
      fun d n hn => hr'.writefd d n (hr.writefd d n hn), fun d he => hr'.readEv d (hr.readEv d he),
      fun d he => hr'.writeEv d (hr.writeEv d he)⟩

/-- One side of the record changes in everything but its descriptor. -/
theorem Retains.setEnd (h : Retains c c') {s : Side} {e : End} (hfd : e.fd = (c'.ends s).fd)
    (hb : (c'.ends s).bev.isSome → e.bev.isSome) : Retains c (c'.setEnd s e) := by
  refine h.trans ⟨fun t => ?_, fun t => ?_, fun h => h, fun h => h, fun h => h,
    fun p hp => ⟨p, hp, PumpRetains.refl p⟩⟩
  · rcases Side.eq_or_eq_other s t with rfl | rfl <;> simp [hfd]
  · rcases Side.eq_or_eq_other s t with rfl | rfl
    · simpa using hb
    · simp

theorem Retains.setBev (h : Retains c c') (s : Side) (b : Bufferevent) :
    Retains c (c'.setBev s (some b)) := h.setEnd rfl fun _ => rfl

theorem Retains.mapBev (h : Retains c c') (s : Side) (g : Bufferevent → Bufferevent) :
    Retains c (c'.mapBev s g) := h.setEnd rfl (by simp)

theorem Retains.setTimer (h : Retains c c') (ev : Event) :
    Retains c { c' with timeoutEv := some ev } :=
  ⟨h.fd, h.bev, fun _ => rfl, h.clientAddr, h.destAddr, h.pump⟩

theorem Retains.emits (h : Retains c c') (es : List Effect) : Retains c (c'.emits es) :=
  ⟨h.fd, h.bev, h.timer, h.clientAddr, h.destAddr, h.pump⟩

theorem Retains.setKern (h : Retains c c') (d : Direction) (k : Kern) :
    Retains c (c'.setKern d k) :=
  ⟨h.fd, h.bev, h.timer, h.clientAddr, h.destAddr, h.pump⟩

theorem Retains.setState (h : Retains c c') (st : ClientState) :
    Retains c { c' with clientState := st } :=
  ⟨h.fd, h.bev, h.timer, h.clientAddr, h.destAddr, h.pump⟩

theorem Retains.setPump (h : Retains c c') (hp : c'.userArg = some p) (hr : PumpRetains p p') :
    Retains c (c'.setPump p') := by
  refine h.trans ⟨fun _ => rfl, fun _ h => h, fun h => h, fun h => h, fun h => h, fun q hq => ?_⟩
  obtain rfl := Option.some.inj (hp.symm.trans hq)
  exact ⟨p', rfl, hr⟩

/-- A step that keeps all, and acquires only what it can find. -/
theorem Solvent.step (h : Solvent c) (hr : Retains c c') (hl : c'.released = c.released)
    (hs : c'.clientState ≠ .destroyed ∧ c'.clientState ≠ .destroying)
    (hout : c'.out = c.out ++ es) (hes : ∀ e ∈ es, ∀ x, e.acquires = some x → c'.owns x) :
    Solvent c' :=
  ⟨hl.trans h.live, hs, hout ▸ h.covered.append hes fun _ hx _ => hr.owns hx⟩

theorem Solvent.retains (h : Solvent c) (hr : Retains c c') (hl : c'.released = c.released)
    (hs : c'.clientState ≠ .destroyed ∧ c'.clientState ≠ .destroying)
    (hout : c'.out = c.out ++ es) (hes : Acquireless es) : Solvent c' :=
  h.step hr hl hs hout fun e he x hx => absurd ((hes e he).symm.trans hx) (by simp)

/-- A step that makes no call. -/
theorem Solvent.quiet (h : Solvent c) (hr : Retains c c') (hl : c'.released = c.released)
    (hs : c'.clientState ≠ .destroyed ∧ c'.clientState ≠ .destroying) (hout : c'.out = c.out) :
    Solvent c' := by
  have hnil : Acquireless [] := by simp [Acquireless]
  exact h.retains hr hl hs (by rw [hout, List.append_nil]) hnil

end Retains

/-! ## The release -/

section Release

variable {c : Conn} {p : Splicepump} {x : Resource}

theorem mem_closeEffect {h : Handle} {fd : Fd} {n : ℕ} (hfd : fd = n) :
    ∃ e ∈ closeEffect h fd, e.releases = some (.fd h n) := by
  have hpos : 0 ≤ fd := by rw [hfd]; exact Int.natCast_nonneg n
  refine ⟨.closed h fd, by simp [closeEffect, hpos], ?_⟩
  simp [Effect.releases, hfd]

theorem mem_freeEffect {α : Type} {o : Obj} {q : Option α} (hq : q.isSome) :
    ∃ e ∈ freeEffect o q, e.releases = some (.obj o) :=
  ⟨.free o, by simp [freeEffect, hq], rfl⟩

theorem mem_bevFreeEffect {s : Side} {b : Option Bufferevent} (hb : b.isSome) :
    ∃ e ∈ bevFreeEffect s b, e.releases = some (.obj (.bev s)) := by
  obtain ⟨b, rfl⟩ := Option.isSome_iff_exists.mp hb
  exact ⟨.free (.bev s), by simp [bevFreeEffect], rfl⟩

theorem ownsAlone_released (hx : c.ownsAlone x) :
    ∃ e ∈ clientFreeEffects c, e.releases = some x := by
  -- `h` finds the call in the part of the list that `hsub` puts into the whole
  have hin : ∀ {es : List Effect}, (∃ e ∈ es, e.releases = some x) → es ⊆ clientFreeEffects c →
      ∃ e ∈ clientFreeEffects c, e.releases = some x :=
    fun ⟨e, he, hr⟩ hsub => ⟨e, hsub he, hr⟩
  cases x with
  | fd g n =>
    cases g with
    | sock s =>
      cases s <;>
        exact hin (mem_closeEffect hx) fun e he => by simp [clientFreeEffects, he]
    | _ => exact absurd hx id
  | obj o =>
    cases o with
    | record => exact ⟨.free .record, by simp [clientFreeEffects], rfl⟩
    | clientAddr => exact hin (mem_freeEffect hx) fun e he => by simp [clientFreeEffects, he]
    | destAddr => exact hin (mem_freeEffect hx) fun e he => by simp [clientFreeEffects, he]
    | timer => exact hin (mem_freeEffect hx) fun e he => by simp [clientFreeEffects, he]
    | bev s =>
      cases s <;>
        exact hin (mem_bevFreeEffect hx) fun e he => by simp [clientFreeEffects, he]
    | _ => exact absurd hx id

/-- `transocks_splicepump_free` gives back what the pump record leads to. -/
theorem pump_owns_released (hx : p.owns x) :
    ∃ e ∈ splicepumpFreeEffects p, e.releases = some x := by
  have hin : ∀ {es : List Effect}, (∃ e ∈ es, e.releases = some x) →
      es ⊆ splicepumpFreeEffects p → ∃ e ∈ splicepumpFreeEffects p, e.releases = some x :=
    fun ⟨e, he, hr⟩ hsub => ⟨e, hsub he, hr⟩
  cases x with
  | fd g n =>
    cases g with
    | sock s => exact absurd hx id
    | pipeRead d =>
      cases d <;> exact hin (mem_closeEffect hx) fun e he => by
        simp [splicepumpFreeEffects, pipeFreeEffects, he]
    | pipeWrite d =>
      cases d <;> exact hin (mem_closeEffect hx) fun e he => by
        simp [splicepumpFreeEffects, pipeFreeEffects, he]
  | obj o =>
    cases o with
    | pump => exact ⟨.free .pump, by simp [splicepumpFreeEffects], rfl⟩
    | pipe d =>
      exact ⟨.free (.pipe d), by cases d <;> simp [splicepumpFreeEffects, pipeFreeEffects], rfl⟩
    | readEv d =>
      cases d <;> exact hin (mem_freeEffect hx) fun e he => by simp [splicepumpFreeEffects, he]
    | writeEv d =>
      cases d <;> exact hin (mem_freeEffect hx) fun e he => by simp [splicepumpFreeEffects, he]
    | _ => exact absurd hx id

theorem Acquireless.append {es fs : List Effect} (h : Acquireless es) (h' : Acquireless fs) :
    Acquireless (es ++ fs) :=
  fun e he => (List.mem_append.mp he).elim (h e) (h' e)

theorem acquireless_closeEffect (h : Handle) (fd : Fd) : Acquireless (closeEffect h fd) := by
  intro e he
  unfold closeEffect at he
  split at he
  · rw [List.mem_singleton.mp he]
    rfl
  · cases he

theorem acquireless_freeEffect {α : Type} (o : Obj) (q : Option α) :
    Acquireless (freeEffect o q) := by
  intro e he
  unfold freeEffect at he
  split at he
  · rw [List.mem_singleton.mp he]
    rfl
  · cases he

theorem acquireless_bevFreeEffect (s : Side) (b : Option Bufferevent) :
    Acquireless (bevFreeEffect s b) := by
  cases b with
  | none => intro e he; cases he
  | some b => simp [Acquireless, bevFreeEffect, Effect.acquires]

theorem acquireless_clientFreeEffects (c : Conn) : Acquireless (clientFreeEffects c) := by
  have hshut : ∀ s (fd : Fd), Acquireless (if 0 ≤ fd then [.shutdown s fd .rdwr] else []) := by
    intro s fd
    split <;> simp [Acquireless, Effect.acquires]
  have hlast : Acquireless [.listDel, .free .record] := by simp [Acquireless, Effect.acquires]
  exact ((((((((((hshut _ _).append (hshut _ _)).append (acquireless_closeEffect _ _)).append
    (acquireless_closeEffect _ _)).append (acquireless_freeEffect _ _)).append
    (acquireless_bevFreeEffect _ _)).append (acquireless_bevFreeEffect _ _)).append
    (acquireless_freeEffect _ _)).append (acquireless_freeEffect _ _)).append hlast)

theorem acquireless_splicepumpFreeEffects (p : Splicepump) :
    Acquireless (splicepumpFreeEffects p) := by
  have hfree : ∀ o, Acquireless [.free o] := fun o => by simp [Acquireless, Effect.acquires]
  have hpipe : ∀ d q, Acquireless (pipeFreeEffects d q) := fun d q =>
    ((acquireless_closeEffect _ _).append (acquireless_closeEffect _ _)).append (hfree _)
  exact ((((((hpipe _ _).append (hpipe _ _)).append (acquireless_freeEffect _ _)).append
    (acquireless_freeEffect _ _)).append (acquireless_freeEffect _ _)).append
    (acquireless_freeEffect _ _)).append (hfree _)

/-- Calls after which nothing is left, the last of them a release of the record. -/
theorem GaveBack.of_free {c' : Conn} {es fs : List Effect} (hout : c'.out = es ++ fs)
    (hlast : ∃ gs, fs = gs ++ [.free .record])
    (hall : ∀ x, ¬ Outstanding Effect.acquires Effect.releases (es ++ fs) x) : GaveBack c' := by
  obtain ⟨gs, rfl⟩ := hlast
  refine ⟨fun x hx => hall x (hout ▸ hx), es ++ gs, [], ?_, by simp⟩
  rw [hout, List.append_assoc]

theorem clientFreeEffects_last (c : Conn) :
    ∃ gs, clientFreeEffects c = gs ++ [.free .record] :=
  ⟨_, (List.append_assoc _ [Effect.listDel] [Effect.free .record]).symm⟩

/-- **A release of a client without a pump gives everything back.** -/
theorem Solvent.clientFree (h : Solvent c) (hp : c.userArg = none) :
    (clientFree c).released = true ∧ GaveBack (clientFree c) := by
  refine ⟨clientFree_released h.live h.notFreed,
    .of_free (clientFree_out h.live h.notFreed) (clientFreeEffects_last c) ?_⟩
  refine h.covered.settle (acquireless_clientFreeEffects c) fun x hx => ?_
  rcases hx with hx | ⟨p, hp', -⟩
  · exact ownsAlone_released hx
  · exact absurd (hp.symm.trans hp') (by simp)

/-- **A release of a client with a pump gives everything back.** -/
theorem Solvent.splicepumpFree (h : Solvent c) (hp : c.userArg = some p) :
    (splicepumpFree c).released = true ∧ GaveBack (splicepumpFree c) := by
  have hl : (splicepumpUnwound c p).released = false := h.live
  have hout : (Transocks.clientFree (splicepumpUnwound c p)).out =
      c.out ++ (splicepumpFreeEffects p ++ clientFreeEffects c) := by
    rw [clientFree_out hl h.notFreed, ← List.append_assoc]
    rfl
  rw [splicepumpFree_eq h.live hp]
  refine ⟨clientFree_released hl h.notFreed, .of_free hout ?_ ?_⟩
  · obtain ⟨gs, hgs⟩ := clientFreeEffects_last c
    exact ⟨splicepumpFreeEffects p ++ gs, by rw [hgs, List.append_assoc]⟩
  · refine h.covered.settle ((acquireless_splicepumpFreeEffects p).append
      (acquireless_clientFreeEffects c)) fun x hx => ?_
    rcases hx with hx | ⟨q, hq, hx⟩
    · obtain ⟨e, he, hr⟩ := ownsAlone_released hx
      exact ⟨e, List.mem_append_right _ he, hr⟩
    · obtain rfl := Option.some.inj (hp.symm.trans hq)
      obtain ⟨e, he, hr⟩ := pump_owns_released hx
      exact ⟨e, List.mem_append_left _ he, hr⟩

end Release

/-! ## What a release does not give back -/

section Lost

variable {c : Conn} {p : Splicepump} {x : Resource}

/-- None of the calls gives `x` back. -/
def Spares (x : Resource) (es : List Effect) : Prop := ∀ e ∈ es, e.releases ≠ some x

theorem Spares.append {es fs : List Effect} (h : Spares x es) (h' : Spares x fs) :
    Spares x (es ++ fs) :=
  fun e he => (List.mem_append.mp he).elim (h e) (h' e)

theorem Spares.free {o : Obj} (h : x ≠ .obj o) : Spares x [.free o] := by
  intro e he hx
  obtain rfl := List.mem_singleton.mp he
  exact h (Option.some.inj hx).symm

theorem spares_closeEffect {g : Handle} {fd : Fd} (h : ∀ n : ℕ, fd = n → x ≠ .fd g n) :
    Spares x (closeEffect g fd) := by
  intro e he hx
  unfold closeEffect at he
  split at he
  · rename_i hpos
    obtain rfl := List.mem_singleton.mp he
    simp only [Effect.releases, if_pos hpos, Option.some.injEq] at hx
    exact h fd.toNat (Int.toNat_of_nonneg hpos).symm hx.symm
  · cases he

theorem spares_freeEffect {α : Type} {o : Obj} {q : Option α} (h : q.isSome → x ≠ .obj o) :
    Spares x (freeEffect o q) := by
  unfold freeEffect
  split
  · rename_i hq
    exact Spares.free (h hq)
  · intro e he
    cases he

theorem spares_bevFreeEffect {s : Side} {b : Option Bufferevent}
    (h : b.isSome → x ≠ .obj (.bev s)) : Spares x (bevFreeEffect s b) := by
  cases b with
  | none => intro e he; cases he
  | some b =>
    have hfd : Spares x [.bevFree s b.fd] := by simp [Spares, Effect.releases]
    exact hfd.append (Spares.free (h rfl))

/-- `transocks_client_free` gives back nothing but what the record leads to. -/
theorem spares_clientFreeEffects (hx : ¬ c.ownsAlone x) : Spares x (clientFreeEffects c) := by
  have hshut : ∀ s (fd : Fd), Spares x (if 0 ≤ fd then [.shutdown s fd .rdwr] else []) := by
    intro s fd
    split <;> simp [Spares, Effect.releases]
  have hclose : ∀ s, Spares x (closeEffect (.sock s) (c.ends s).fd) := fun s =>
    spares_closeEffect fun n hn heq => hx (heq ▸ hn)
  have hbev : ∀ s, Spares x (bevFreeEffect s (c.ends s).bev) := fun s =>
    spares_bevFreeEffect fun hb heq => hx (heq ▸ hb)
  have hlast : Spares x ([.listDel] ++ [.free .record]) :=
    Spares.append (by simp [Spares, Effect.releases])
      (Spares.free fun heq => hx (heq ▸ trivial))
  have htimer : Spares x (freeEffect .timer c.timeoutEv) :=
    spares_freeEffect fun ht heq => hx (heq ▸ ht)
  have hclientAddr : Spares x (freeEffect .clientAddr c.clientAddr) :=
    spares_freeEffect fun ha heq => hx (heq ▸ ha)
  have hdestAddr : Spares x (freeEffect .destAddr c.destAddr) :=
    spares_freeEffect fun ha heq => hx (heq ▸ ha)
  exact (((((((((hshut _ _).append (hshut _ _)).append (hclose _)).append (hclose _)).append
    htimer).append (hbev _)).append (hbev _)).append hclientAddr).append hdestAddr).append hlast

theorem spares_splicepumpFreeEffects (hx : ¬ p.owns x) : Spares x (splicepumpFreeEffects p) := by
  have hwritefd : ∀ d, Spares x (closeEffect (.pipeWrite d) (p.pipe d).pipeWritefd) := fun d =>
    spares_closeEffect fun n hn heq => hx (heq ▸ hn)
  have hreadfd : ∀ d, Spares x (closeEffect (.pipeRead d) (p.pipe d).pipeReadfd) := fun d =>
    spares_closeEffect fun n hn heq => hx (heq ▸ hn)
  have hpipe : ∀ d, Spares x (pipeFreeEffects d (p.pipe d)) := fun d =>
    ((hwritefd d).append (hreadfd d)).append (Spares.free fun heq => hx (heq ▸ trivial))
  have hread : ∀ d, Spares x (freeEffect (.readEv d) (p.readEv d)) := fun d =>
    spares_freeEffect fun h heq => hx (heq ▸ h)
  have hwrite : ∀ d, Spares x (freeEffect (.writeEv d) (p.writeEv d)) := fun d =>
    spares_freeEffect fun h heq => hx (heq ▸ h)
  exact ((((((hpipe _).append (hpipe _)).append (hread _)).append (hwrite _)).append
    (hread _)).append (hwrite _)).append (Spares.free fun heq => hx (heq ▸ trivial))

/-- **A release of a client loses what the record does not lead to.** -/
theorem Conn.Holds.clientFree (h : c.Holds x) (hl : c.released = false)
    (hs : c.clientState ≠ .destroyed ∧ c.clientState ≠ .destroying) (hx : ¬ c.owns x) :
    (clientFree c).Holds x := by
  unfold Conn.Holds
  rw [clientFree_out hl hs]
  exact Outstanding.append h (spares_clientFreeEffects fun ho => hx (.inl ho))

theorem Conn.Holds.splicepumpFree (h : c.Holds x) (hl : c.released = false)
    (hs : c.clientState ≠ .destroyed ∧ c.clientState ≠ .destroying)
    (hp : c.userArg = some p) (hx : ¬ c.owns x) : (splicepumpFree c).Holds x := by
  have hsolo : Spares x (clientFreeEffects (splicepumpUnwound c p)) :=
    spares_clientFreeEffects fun ho => hx (.inl ho)
  have hpump : (splicepumpUnwound c p).Holds x :=
    Outstanding.append h (spares_splicepumpFreeEffects fun ho => hx (.inr ⟨p, hp, ho⟩))
  unfold Conn.Holds
  rw [splicepumpFree_eq hl hp, clientFree_out (by exact hl) (by exact hs)]
  exact Outstanding.append hpump hsolo

end Lost

end Transocks

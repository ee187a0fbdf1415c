import Transocks.AcceptSteps
import Transocks.World

/-!
# The descriptors one client may close

`Conn.held c h` is the number that the client may close under the handle `h`: the number in its
record, unless the record is freed or the number was already closed there. `TRANSOCKS_CLOSE` on a
local copy leaves the number of a pipe end in the pipe record, and the flag of that end is what
tells that it was closed.

A callback that closes only held numbers, each under its own handle, `Obeys` the discipline of
`Handles`. The accept closes some sockets a second time right away, which nobody else can notice.
-/

namespace Transocks

open Handles

def fdNumber (fd : Fd) : Option ℕ := if 0 ≤ fd then some fd.toNat else none

/-- The number that the client may close under a handle. -/
def Conn.held (c : Conn) : Handle → Option ℕ
  | .sock s => if c.released then none else fdNumber (c.ends s).fd
  | .pipeRead d =>
    if c.released || c.writeFlag d then none
    else c.userArg.bind fun p => fdNumber (p.pipe d).pipeReadfd
  | .pipeWrite d =>
    if c.released || c.readFlag d then none
    else c.userArg.bind fun p => fdNumber (p.pipe d).pipeWritefd

/-- Sockets may be closed a second time right away. -/
def IsSock (h : Handle) : Prop := ∃ s, h = .sock s

/-- The calls `es`, made from a state that holds `held`, keep to the discipline and leave at least
`held'`. -/
def Keep (held : Handle → Option ℕ) (es : List Effect) (held' : Handle → Option ℕ) : Prop :=
  ∃ held₀, Obeys IsSock held [] (fdOps es) held₀ ∧ Sub held' held₀

section Ops

theorem fdNumber_natCast (n : ℕ) : fdNumber n = some n := by
  simp [fdNumber]

@[simp] theorem fdOps_append (es es' : List Effect) : fdOps (es ++ es') = fdOps es ++ fdOps es' :=
  List.filterMap_append

/-- The operations on descriptors are notable. -/
theorem fdOps_notes (es : List Effect) : fdOps (es.filter Effect.notable) = fdOps es := by
  unfold fdOps
  rw [List.filterMap_filter]
  refine List.filterMap_congr fun e _ => ?_
  cases e <;> rfl

theorem Conn.fdOps_notes (c : Conn) : fdOps c.notes = fdOps c.out := Transocks.fdOps_notes _

theorem fdOps_freeEffect {α : Type} (o : Obj) (x : Option α) : fdOps (freeEffect o x) = [] := by
  cases x <;> rfl

theorem fdOps_free (o : Obj) : fdOps [.free o] = [] := rfl

theorem fdOps_bevFreeEffect (s : Side) (b : Option Bufferevent) :
    fdOps (bevFreeEffect s b) = [] := by
  cases b <;> rfl

/-- The closes that `TRANSOCKS_CLOSE` does for some fields. -/
def closing (xs : List (Handle × Fd)) : List (Handle × ℕ) :=
  xs.filterMap fun x => (fdNumber x.2).map fun n => (x.1, n)

theorem fdOps_closeEffect (h : Handle) (fd : Fd) :
    fdOps (closeEffect h fd) = (closing [(h, fd)]).map fun x => .close x.1 x.2 := by
  by_cases hfd : 0 ≤ fd <;> simp [closeEffect, closing, fdNumber, hfd, fdOps, Effect.op]

theorem closing_append (xs ys : List (Handle × Fd)) :
    closing (xs ++ ys) = closing xs ++ closing ys :=
  List.filterMap_append

theorem mem_closing {xs : List (Handle × Fd)} {y : Handle × ℕ} (hy : y ∈ closing xs) :
    ∃ x ∈ xs, x.1 = y.1 ∧ fdNumber x.2 = some y.2 := by
  obtain ⟨x, hx, he⟩ := List.mem_filterMap.mp hy
  obtain ⟨n, hn, rfl⟩ := Option.map_eq_some_iff.mp he
  exact ⟨x, hx, rfl, hn⟩

/-- Fields with different handles are closed under different handles. -/
theorem closing_pairwise {xs : List (Handle × Fd)} (h : (xs.map Prod.fst).Nodup)
    {R : Handle × ℕ → Handle × ℕ → Prop} :
    (closing xs).Pairwise fun x y => x.1 = y.1 → R x y := by
  induction xs with
  | nil => exact .nil
  | cons x xs ih =>
    rw [List.map_cons, List.nodup_cons] at h
    have hcons : closing (x :: xs) = closing [x] ++ closing xs := closing_append [x] xs
    rw [hcons, List.pairwise_append]
    refine ⟨?_, ih h.2, fun a ha b hb hab => ?_⟩
    · cases hx : fdNumber x.2 <;> simp [closing, hx]
    · obtain ⟨x', hx', hxa, -⟩ := mem_closing ha
      obtain ⟨y', hy', hyb, -⟩ := mem_closing hb
      rw [List.mem_singleton.mp hx'] at hxa
      refine absurd (List.mem_map.mpr ⟨y', hy', ?_⟩) h.1
      rw [hyb, ← hab, hxa]

end Ops

/-! ## The release -/

/-- The fields that `transocks_client_free` closes. -/
def sockFields (c : Conn) : List (Handle × Fd) :=
  [(.sock .client, (c.ends .client).fd), (.sock .relay, (c.ends .relay).fd)]

/-- The fields that `transocks_splicepump_free` closes. -/
def pipeFields (p : Splicepump) : List (Handle × Fd) :=
  [(.pipeWrite .inbound, (p.pipe .inbound).pipeWritefd),
    (.pipeRead .inbound, (p.pipe .inbound).pipeReadfd),
    (.pipeWrite .outbound, (p.pipe .outbound).pipeWritefd),
    (.pipeRead .outbound, (p.pipe .outbound).pipeReadfd)]

def Conn.Unmarked (c : Conn) : Prop := ∀ d, c.readFlag d = false ∧ c.writeFlag d = false

section Release

variable {c : Conn} {p : Splicepump}

theorem fdOps_clientFreeEffects (c : Conn) :
    fdOps (clientFreeEffects c) = (closing (sockFields c)).map fun x => .close x.1 x.2 := by
  have hshut : ∀ s (fd : Fd), fdOps (if 0 ≤ fd then [.shutdown s fd .rdwr] else []) = [] := by
    intro s fd
    split <;> rfl
  have hsplit : closing (sockFields c) = closing [(.sock .client, (c.ends .client).fd)] ++
      closing [(.sock .relay, (c.ends .relay).fd)] := closing_append [_] [_]
  rw [hsplit, List.map_append, ← fdOps_closeEffect, ← fdOps_closeEffect]
  have hlast : fdOps [.listDel, .free .record] = [] := rfl
  simp only [clientFreeEffects, fdOps_append, hshut, fdOps_freeEffect, fdOps_bevFreeEffect, hlast,
    List.nil_append, List.append_nil]

theorem fdOps_splicepumpFreeEffects (p : Splicepump) :
    fdOps (splicepumpFreeEffects p) = (closing (pipeFields p)).map fun x => .close x.1 x.2 := by
  have hpipe : ∀ d (q : Splicepipe), fdOps (pipeFreeEffects d q) =
      (closing [(.pipeWrite d, q.pipeWritefd), (.pipeRead d, q.pipeReadfd)]).map
        fun x => .close x.1 x.2 := by
    intro d q
    have hsplit : closing [(.pipeWrite d, q.pipeWritefd), (.pipeRead d, q.pipeReadfd)] =
        closing [(.pipeWrite d, q.pipeWritefd)] ++ closing [(.pipeRead d, q.pipeReadfd)] :=
      closing_append [_] [_]
    rw [hsplit, List.map_append, ← fdOps_closeEffect, ← fdOps_closeEffect]
    simp only [pipeFreeEffects, fdOps_append, fdOps_free, List.append_nil]
  have hsplit :
      closing (pipeFields p) = closing [(.pipeWrite .inbound, (p.pipe .inbound).pipeWritefd),
      (.pipeRead .inbound, (p.pipe .inbound).pipeReadfd)] ++
      closing [(.pipeWrite .outbound, (p.pipe .outbound).pipeWritefd),
        (.pipeRead .outbound, (p.pipe .outbound).pipeReadfd)] := closing_append [_, _] [_, _]
  rw [hsplit, List.map_append, ← hpipe, ← hpipe]
  simp only [splicepumpFreeEffects, fdOps_append, fdOps_freeEffect, fdOps_free, List.append_nil]

theorem held_released (h : c.released = true) : c.held = fun _ => none := by
  funext x
  cases x <;> simp [Conn.held, h]

theorem Keep.nothing {held held' : Handle → Option ℕ} {es : List Effect}
    (h : ∃ held₀, Obeys IsSock held [] (fdOps es) held₀) (hn : held' = fun _ => none) :
    Keep held es held' := by
  obtain ⟨held₀, ho⟩ := h
  exact ⟨held₀, ho, fun a n ha => by simp [hn] at ha⟩

theorem held_sockFields (hl : c.released = false) {x : Handle × ℕ}
    (hx : x ∈ closing (sockFields c)) :
    c.held x.1 = some x.2 := by
  obtain ⟨y, hmem, hxy, hn⟩ := mem_closing hx
  rw [← hxy]
  simp only [sockFields, List.mem_cons, List.not_mem_nil, or_false] at hmem
  rcases hmem with rfl | rfl <;> simpa [Conn.held, hl] using hn

/-- The fields of a live client's pipes are held as long as no end of file was seen. -/
theorem held_pipeFields (hl : c.released = false) (hu : c.Unmarked) (hp : c.userArg = some p)
    {x : Handle × ℕ} (hx : x ∈ closing (pipeFields p)) : c.held x.1 = some x.2 := by
  obtain ⟨y, hmem, hxy, hn⟩ := mem_closing hx
  rw [← hxy]
  simp only [pipeFields, List.mem_cons, List.not_mem_nil, or_false] at hmem
  rcases hmem with rfl | rfl | rfl | rfl <;> simpa [Conn.held, hl, hu _, hp] using hn

/-- A release without a pump closes only what is held. -/
theorem obeys_clientFreeEffects (hl : c.released = false) :
    ∃ held₀, Obeys IsSock c.held [] (fdOps (clientFreeEffects c)) held₀ := by
  rw [fdOps_clientFreeEffects]
  exact Obeys.closes _ (fun x hx => .inl (held_sockFields hl hx))
    (closing_pairwise (by simp [sockFields]))

/-- A release with a pump closes only what is held, if no end of file was seen. -/
theorem obeys_splicepumpFree (hl : c.released = false) (hu : c.Unmarked) (hp : c.userArg = some p) :
    ∃ held₀, Obeys IsSock c.held [] (fdOps (splicepumpFreeEffects p ++ clientFreeEffects c))
      held₀ := by
  rw [fdOps_append, fdOps_splicepumpFreeEffects, fdOps_clientFreeEffects, ← List.map_append,
    ← closing_append]
  refine Obeys.closes _ (fun x hx => .inl ?_)
    (closing_pairwise (by simp [pipeFields, sockFields]))
  rw [closing_append] at hx
  rcases List.mem_append.mp hx with hx | hx
  · exact held_pipeFields hl hu hp hx
  · exact held_sockFields hl hx

end Release

/-! ## Waiting clients -/

/-- A client that holds only its sockets `f`. -/
def socketsHeld (f : Side → ℕ) : Handle → Option ℕ
  | .sock s => some (f s)
  | _ => none

def Faulty (c : Conn) : Prop := .badPointer ∈ c.notes ∨ .doubleFree ∈ c.notes

/-- The client closes only what it holds, and holds what its record says unless the program
stops. -/
def Minds (held : Handle → Option ℕ) (c' : Conn) : Prop :=
  Keep held c'.out c'.held ∨ ((∃ held₀, Obeys IsSock held [] (fdOps c'.out) held₀) ∧ Faulty c')

section Waiting

variable {c c' : Conn} {f : Side → ℕ} {b : Bufferevent}

theorem Handshaking.held (h : Handshaking c f b) : c.held = socketsHeld f := by
  funext x
  cases x <;> simp [Conn.held, socketsHeld, h.live, h.fd, h.noPump, fdNumber_natCast]

theorem obeys_releaseNotes (f : Side → ℕ) (g : Side → Fd) :
    ∃ held₀, Obeys IsSock (socketsHeld f) [] (fdOps (releaseNotes f g)) held₀ := by
  have hops : fdOps (releaseNotes f g) =
      ([(.sock .client, f .client), (.sock .relay, f .relay)] : List (Handle × ℕ)).map
        fun x => .close x.1 x.2 := by
    simp [fdOps, releaseNotes, Effect.op]
  rw [hops]
  refine Obeys.closes _ (fun x hx => .inl ?_) (by simp)
  rcases List.mem_pair.mp hx with rfl | rfl <;> rfl

theorem Copying.held (h : Copying c f) : c.held = socketsHeld f := by
  funext x
  cases x <;> simp [Conn.held, socketsHeld, h.live, h.fd, h.noPump, fdNumber_natCast]

/-- A callback on a client that holds its sockets and has no pipes. -/
theorem Next.minds {I : Conn → Prop} {n : List Effect} (hI : ∀ c, I c → c.held = socketsHeld f)
    (hn : fdOps n = []) (h : Next I f n c') : Minds (socketsHeld f) c' := by
  have hops := c'.fdOps_notes
  cases h with
  | stays h hn' =>
    refine .inl ⟨socketsHeld f, ?_, by rw [hI _ h]; exact Sub.refl _⟩
    rw [← hops, hn', hn]
    exact .done
  | released g hg h hn' =>
    refine .inl (Keep.nothing ?_ (held_released h.released))
    rw [← hops, hn', fdOps_append, hn]
    exact obeys_releaseNotes f g
  | crashed hn' =>
    refine .inr ⟨⟨socketsHeld f, ?_⟩, .inl (by simp [hn'])⟩
    rw [← hops, hn', fdOps_append, hn]
    exact .done

theorem Waiting.held (h : Waiting f c) : c.held = socketsHeld f := by
  obtain ⟨b, hb⟩ := h
  exact hb.held

end Waiting

/-! ## Splicing clients -/

/-- The splice callback does not reach the defect: a fatal failure comes before any end of file, and
an end of file of a direction is the first one of that direction. -/
def Conn.ClosesFresh (c : Conn) : Ev → Prop
  | .spliceRead d q => (singleSplice q = .fatalFailure → c.Unmarked) ∧
    (singleSplice q = .readEof → c.readFlag d = false ∧ c.writeFlag d = false)
  | .spliceWrite d q => (singleSplice q = .fatalFailure → c.Unmarked) ∧
    (singleSplice q = .readEof → c.readFlag d = false ∧ c.writeFlag d = false)
  | _ => True

section Splicing

variable {c c₁ : Conn} {f : Side → ℕ} {p p₁ : Splicepump} {d : Direction} {k : Splice}

theorem Attached.fdOps_splicepumpFree {g : Side → Fd} (h : Attached c f g)
    (hp : c.userArg = some p) :
    fdOps (Transocks.splicepumpFree c).out =
      fdOps c.out ++ fdOps (splicepumpFreeEffects p ++ clientFreeEffects c) := by
  rw [splicepumpFree_eq h.live hp, clientFree_out (c := splicepumpUnwound c p) h.live h.notFreed,
    ← fdOps_append, ← List.append_assoc]
  rfl

/-- A release of a pumping client before any end of file. -/
theorem Attached.keep_free {g : Side → Fd} (h : Attached c f g) (hp : c.userArg = some p)
    (hu : c.Unmarked) (hout : c.out = []) :
    Keep c.held (Transocks.splicepumpFree c).out (Transocks.splicepumpFree c).held := by
  refine Keep.nothing ?_ (held_released (h.splicepumpFree hp).1.released)
  rw [h.fdOps_splicepumpFree hp, hout]
  exact obeys_splicepumpFree h.live hu hp

/-- The same numbers are held when the record, the flags and the numbers are the same. -/
theorem held_congr (hl : c₁.released = c.released) (hends : ∀ s, (c₁.ends s).fd = (c.ends s).fd)
    (hr : ∀ d, c₁.readFlag d = c.readFlag d) (hw : ∀ d, c₁.writeFlag d = c.writeFlag d)
    (hp : c.userArg = some p) (hp₁ : c₁.userArg = some p₁)
    (hfds : ∀ d, (p₁.pipe d).pipeReadfd = (p.pipe d).pipeReadfd ∧
      (p₁.pipe d).pipeWritefd = (p.pipe d).pipeWritefd) : c₁.held = c.held := by
  funext x
  cases x with
  | sock s => simp [Conn.held, hl, hends]
  | pipeRead d => simp [Conn.held, hl, hw, hp, hp₁, hfds]
  | pipeWrite d => simp [Conn.held, hl, hr, hp, hp₁, hfds]

theorem Midway.check_stays (h : Midway c f p d)
    (hf : ¬ (c.readFlag d = true ∧ c.writeFlag d = true)) :
    checkNormalTermination c d = c := by
  rw [checkNormalTermination_live h.live, if_neg]
  simp [normalTermination, h.fd, isInvalidFd_natCast]
  simpa using hf

/-- A read end of file closes the write end of the pipe, and the client does not hold it any
more. -/
theorem Midway.readEof_ops (h : Midway c f p d) (hout : c.out = []) :
    ∃ n : ℕ, (p.pipe d).pipeWritefd = n ∧
      fdOps (writeToPipeEof c d p).out = [.close (.pipeWrite d) n] ∧
      Sub (writeToPipeEof c d p).held (Function.update c.held (.pipeWrite d) none) := by
  obtain ⟨n, hn⟩ := Int.eq_ofNat_of_zero_le (h.pipefd d).2
  refine ⟨n, hn, ?_, fun x a hx => ?_⟩
  · show fdOps (c.out ++ _) = _
    rw [hout, List.nil_append, fdOps_append, fdOps_closeEffect, hn]
    rfl
  have hne : x ≠ .pipeWrite d := by
    rintro rfl
    simp [Conn.held, writeToPipeEof, Conn.readFlag, Conn.setReadFlag] at hx
  rw [Function.update_of_ne hne, ← hx]
  cases x with
  | sock s => cases d <;> cases s <;> rfl
  | pipeRead e => cases d <;> cases e <;> simp [Conn.held, writeToPipeEof, h.pump] <;> rfl
  | pipeWrite e =>
    rcases Direction.eq_or_eq_other d e with rfl | rfl
    · exact absurd rfl hne
    · cases d <;> simp [Conn.held, writeToPipeEof, h.pump] <;> rfl

/-- A pipe end of file closes the read end of the pipe. -/
theorem Midway.writeEof_ops (h : Midway c f p d) (hout : c.out = []) :
    ∃ n : ℕ, (p.pipe d).pipeReadfd = n ∧
      fdOps (readFromPipeEof c d p).out = [.close (.pipeRead d) n] ∧
      Sub (readFromPipeEof c d p).held (Function.update c.held (.pipeRead d) none) := by
  obtain ⟨n, hn⟩ := Int.eq_ofNat_of_zero_le (h.pipefd d).1
  refine ⟨n, hn, ?_, fun x a hx => ?_⟩
  · show fdOps (c.out ++ _) = _
    rw [hout, List.nil_append, fdOps_append, fdOps_closeEffect, hn]
    rfl
  have hne : x ≠ .pipeRead d := by
    rintro rfl
    simp [Conn.held, readFromPipeEof, Conn.writeFlag, Conn.setWriteFlag] at hx
  rw [Function.update_of_ne hne, ← hx]
  cases x with
  | sock s => cases d <;> cases s <;> rfl
  | pipeRead e =>
    rcases Direction.eq_or_eq_other d e with rfl | rfl
    · exact absurd rfl hne
    · cases d <;> rfl
  | pipeWrite e => cases d <;> cases e <;> rfl

theorem Midway.keep_readEof (h : Midway c f p d) (hr : c.readFlag d = false) (hout : c.out = []) :
    Keep c.held (writeToPipeEof c d p).out (writeToPipeEof c d p).held := by
  obtain ⟨n, hn, hops, hsub⟩ := h.readEof_ops hout
  have hheld : c.held (.pipeWrite d) = some n := by
    simp [Conn.held, h.live, hr, h.pump, hn, fdNumber]
  refine ⟨_, ?_, hsub⟩
  rw [hops]
  exact .close hheld .done

theorem Midway.keep_writeEof (h : Midway c f p d) (hw : c.writeFlag d = false) (hout : c.out = []) :
    Keep c.held (readFromPipeEof c d p).out (readFromPipeEof c d p).held := by
  obtain ⟨n, hn, hops, hsub⟩ := h.writeEof_ops hout
  have hheld : c.held (.pipeRead d) = some n := by
    simp [Conn.held, h.live, hw, h.pump, hn, fdNumber]
  refine ⟨_, ?_, hsub⟩
  rw [hops]
  exact .close hheld .done

theorem Keep.quiet (hout : c₁.out = []) (hheld : c₁.held = c.held) :
    Keep c.held c₁.out c₁.held := by
  refine ⟨c.held, ?_, by rw [hheld]; exact Sub.refl _⟩
  rw [hout]
  exact .done

/-- **A callback on a splicing client** that does not reach the defect. -/
theorem Splicing.keep_spliceRead (h : Splicing c f p) (hout : c.out = [])
    (hc : c.ClosesFresh (.spliceRead d k)) :
    Keep c.held (c.step .splicepump (.spliceRead d k)).out
      (c.step .splicepump (.spliceRead d k)).held := by
  have hmid := h.midway (wokenRead p d) rfl d
  have hheld : (c.setPump (wokenRead p d)).held = c.held :=
    held_congr rfl (fun _ => rfl) (fun _ => rfl) (fun _ => rfl) h.pump rfl fun _ => ⟨rfl, rfl⟩
  have hun := h.unfinished d
  rcases step_spliceRead (m := .splicepump) (d := d) (k := k) h.live h.pump with
    ⟨-, hfd⟩ | ⟨he, hk⟩ | ⟨c₁, hm, he⟩
  · rw [h.fd, isInvalidFd_natCast, isInvalidFd_eq_false (h.pipefd d).2] at hfd
    cases hfd
  · rw [he, ← hheld]
    exact hmid.keep_free hmid.pump (hc.1 hk) hout
  · obtain ⟨p₁, es, hmid₁, -, -⟩ := hm.midway hmid
    rw [he, ← hheld]
    cases hm with
    | transfer hb =>
      rw [hmid₁.check_stays hun]
      exact Keep.quiet hout (held_congr rfl (fun _ => rfl) (fun _ => rfl) (fun _ => rfl) rfl rfl
        (setPipe_fds _ _ _ rfl rfl))
    | retry hr =>
      rw [hmid.check_stays hun]
      exact Keep.quiet hout rfl
    | activate hr =>
      rw [hmid₁.check_stays hun]
      exact Keep.quiet hout (held_congr rfl (fun _ => rfl) (fun _ => rfl) (fun _ => rfl) rfl rfl
        fun _ => ⟨rfl, rfl⟩)
    | eof =>
      obtain ⟨hr, hw⟩ := hc.2 rfl
      rw [hmid₁.check_stays]
      · exact hmid.keep_readEof hr hout
      · rintro ⟨-, hw'⟩
        cases d <;> exact absurd (hw.symm.trans hw') (by decide)

theorem Splicing.keep_spliceWrite (h : Splicing c f p) (hout : c.out = [])
    (hc : c.ClosesFresh (.spliceWrite d k)) :
    Keep c.held (c.step .splicepump (.spliceWrite d k)).out
      (c.step .splicepump (.spliceWrite d k)).held := by
  have hmid := h.midway (wokenWrite p d) rfl d
  have hheld : (c.setPump (wokenWrite p d)).held = c.held :=
    held_congr rfl (fun _ => rfl) (fun _ => rfl) (fun _ => rfl) h.pump rfl fun _ => ⟨rfl, rfl⟩
  have hun := h.unfinished d
  rcases step_spliceWrite (m := .splicepump) (d := d) (k := k) h.live h.pump with
    ⟨-, hfd⟩ | ⟨he, hk⟩ | ⟨c₁, hm, he⟩
  · rw [h.fd, isInvalidFd_natCast, isInvalidFd_eq_false (h.pipefd d).1] at hfd
    cases hfd
  · rw [he, ← hheld]
    exact hmid.keep_free hmid.pump (hc.1 hk) hout
  · obtain ⟨p₁, es, hmid₁, -, -⟩ := hm.midway hmid
    rw [he, ← hheld]
    cases hm with
    | transfer hb =>
      rw [hmid₁.check_stays hun]
      exact Keep.quiet hout (held_congr rfl (fun _ => rfl) (fun _ => rfl) (fun _ => rfl) rfl rfl
        (setPipe_fds _ _ _ rfl rfl))
    | retry hr =>
      rw [hmid.check_stays hun]
      exact Keep.quiet hout rfl
    | eof =>
      obtain ⟨hr, hw⟩ := hc.2 rfl
      rw [hmid₁.check_stays]
      · exact hmid.keep_writeEof hw hout
      · rintro ⟨hr', -⟩
        cases d <;> exact absurd (hr.symm.trans hr') (by decide)

/-- Nothing that is held afterwards was closed or is new. -/
def Sheds (held : Handle → Option ℕ) (es : List Effect) (held' : Handle → Option ℕ) : Prop :=
  Sub held' held ∧ ∀ h n, held' h = some n → .close h n ∉ fdOps es

theorem Sheds.quiet (hout : c₁.out = []) (hheld : c₁.held = c.held) :
    Sheds c.held c₁.out c₁.held := by
  refine ⟨by rw [hheld]; exact Sub.refl _, fun h n _ hmem => ?_⟩
  rw [hout] at hmem
  cases hmem

theorem Sheds.close {held held' : Handle → Option ℕ} {es : List Effect} {h : Handle} {n : ℕ}
    (hops : fdOps es = [.close h n]) (hsub : Sub held' (Function.update held h none)) :
    Sheds held es held' := by
  have hne : ∀ x a, held' x = some a → x ≠ h := by
    rintro x a hx rfl
    have hnone := hsub x a hx
    rw [Function.update_self] at hnone
    cases hnone
  refine ⟨fun x a hx => ?_, fun x a hx hmem => ?_⟩
  · have hold := hsub x a hx
    rwa [Function.update_of_ne (hne x a hx)] at hold
  · rw [hops, List.mem_singleton, Op.close.injEq] at hmem
    exact hne x a hx hmem.1

theorem FillMove.sheds (hm : FillMove c p d k c₁) (h : Midway c f p d) (hout : c.out = []) :
    Sheds c.held c₁.out c₁.held := by
  cases hm with
  | transfer hb =>
    exact .quiet hout (held_congr rfl (fun _ => rfl) (fun _ => rfl) (fun _ => rfl) h.pump rfl
      (setPipe_fds _ _ _ rfl rfl))
  | retry he => exact .quiet hout rfl
  | activate he =>
    exact .quiet hout (held_congr rfl (fun _ => rfl) (fun _ => rfl) (fun _ => rfl) h.pump rfl
      fun _ => ⟨rfl, rfl⟩)
  | eof =>
    obtain ⟨n, -, hops, hsub⟩ := h.readEof_ops hout
    exact .close hops hsub

theorem DrainMove.sheds (hm : DrainMove c p d k c₁) (h : Midway c f p d) (hout : c.out = []) :
    Sheds c.held c₁.out c₁.held := by
  cases hm with
  | transfer hb =>
    exact .quiet hout (held_congr rfl (fun _ => rfl) (fun _ => rfl) (fun _ => rfl) h.pump rfl
      (setPipe_fds _ _ _ rfl rfl))
  | retry he => exact .quiet hout rfl
  | eof =>
    obtain ⟨n, -, hops, hsub⟩ := h.writeEof_ops hout
    exact .close hops hsub

/-- **Any callback on a splicing client**, also one that reaches the defect. -/
theorem Splicing.sheds {ev : Ev} (h : Splicing c f p) (hout : c.out = [])
    (hev : ev.isSplice = true) :
    (c.step .splicepump ev).released = true ∨
      Sheds c.held (c.step .splicepump ev).out (c.step .splicepump ev).held := by
  rcases h.splice_moves hev with hi | ⟨p₀, d, k, p₁, hpipe, hmid, hm, -⟩
  · exact .inl hi.released
  have hheld : (c.setPump p₀).held = c.held :=
    held_congr rfl (fun _ => rfl) (fun _ => rfl) (fun _ => rfl) h.pump rfl
      fun _ => by rw [hpipe]; exact ⟨rfl, rfl⟩
  rw [← hheld]
  rcases hm with hm | hm
  · exact .inr (hm.sheds hmid hout)
  · exact .inr (hm.sheds hmid hout)

end Splicing

/-! ## The start of the splice pump -/

/-- A client whose pump record is attached and being filled in. The pipes in `t` are not created
yet. -/
structure Acquires (f : Side → ℕ) (t : Direction → Prop) (c : Conn) : Prop
    extends Attached c f handedOver where
  unmarked : c.Unmarked
  pump : ∃ p, c.userArg = some p
  todo : ∀ p, c.userArg = some p → ∀ d, t d →
    (p.pipe d).pipeReadfd = -1 ∧ (p.pipe d).pipeWritefd = -1
  keep : Keep (socketsHeld f) c.out c.held

section Start

variable {c : Conn} {f : Side → ℕ} {t : Direction → Prop} {d : Direction}

theorem Acquires.mono (h : Acquires f t c) {t' : Direction → Prop} (ht : ∀ d, t' d → t d) :
    Acquires f t' c :=
  ⟨h.toAttached, h.unmarked, h.pump, fun p hp d hd => h.todo p hp d (ht d hd), h.keep⟩

theorem Acquires.modPump (h : Acquires f t c) {g : Splicepump → Splicepump} (hg : KeepsFds g) :
    Acquires f t (c.modPump g) := by
  obtain ⟨p, hp⟩ := h.pump
  have hp' : (c.modPump g).userArg = some (g p) := by simp [Conn.modPump, hp]
  have hheld : (c.modPump g).held = c.held :=
    held_congr rfl (fun _ => rfl) (fun _ => rfl) (fun _ => rfl) hp hp' (hg p)
  refine ⟨⟨h.live, h.notFreed, h.fd, h.bev⟩, h.unmarked, ⟨_, hp'⟩, fun q hq d hd => ?_, ?_⟩
  · obtain rfl := Option.some.inj (hp'.symm.trans hq)
    rw [(hg p d).1, (hg p d).2]
    exact h.todo p hp d hd
  · rw [hheld]
    exact h.keep

theorem Acquires.alloc (h : Acquires f t c) (o : Obj) : Acquires f t (c.emits [.alloc o]) := by
  refine ⟨⟨h.live, h.notFreed, h.fd, h.bev⟩, h.unmarked, h.pump, h.todo, ?_⟩
  obtain ⟨held₀, ho, hs⟩ := h.keep
  refine ⟨held₀, ?_, hs⟩
  rw [Conn.emits_out, fdOps_append]
  exact (List.append_nil _).symm ▸ ho

theorem Keep.opened {held held' : Handle → Option ℕ} {es : List Effect} (h : Keep held es held')
    (d : Direction) (r w : ℕ) :
    Keep held (es ++ [.opened (.pipeRead d) r, .opened (.pipeWrite d) w])
      (Function.update (Function.update held' (.pipeRead d) (some r)) (.pipeWrite d) (some w)) := by
  obtain ⟨held₀, ho, hs⟩ := h
  have hops : fdOps [.opened (.pipeRead d) r, .opened (.pipeWrite d) w] =
      [.acquire (.pipeRead d) r, .acquire (.pipeWrite d) w] := rfl
  obtain ⟨held₁, ho', hs'⟩ := ho.append (.acquire (.acquire .done))
  refine ⟨held₁, ?_, ((hs.update _ _).update _ _).trans hs'⟩
  rw [fdOps_append, hops]
  exact ho'

theorem Keep.imp {held held' held'' : Handle → Option ℕ} {es : List Effect} (h : Keep held es held')
    (hs : Sub held'' held') : Keep held es held'' := by
  obtain ⟨held₀, ho, hs'⟩ := h
  exact ⟨held₀, ho, hs.trans hs'⟩

/-- The client after `createpipe` for direction `d` has returned the numbers `r` and `w`. -/
def pipeCreated (c : Conn) (d : Direction) (r w : ℕ) : Conn :=
  ((c.modPump fun p => p.setPipe d { p.pipe d with pipeReadfd := r, pipeWritefd := w }).setKern
    d Kern.new).emits [.opened (.pipeRead d) r, .opened (.pipeWrite d) w]

theorem held_pipeCreated {p : Splicepump} (hl : c.released = false) (hu : c.Unmarked)
    (hp : c.userArg = some p) (r w : ℕ) : (pipeCreated c d r w).held =
      Function.update (Function.update c.held (.pipeRead d) (some r)) (.pipeWrite d) (some w) := by
  have hl' : (pipeCreated c d r w).released = false := hl
  have hu' : (pipeCreated c d r w).Unmarked := hu
  have hp' : (pipeCreated c d r w).userArg =
      some (p.setPipe d { p.pipe d with pipeReadfd := r, pipeWritefd := w }) := by
    simp [pipeCreated, Conn.modPump, hp]
  funext x
  cases x with
  | sock s => rfl
  | pipeRead e =>
    rcases Direction.eq_or_eq_other d e with rfl | rfl
    · simp [Conn.held, hl', hu' _, hp', fdNumber]
    · simp [Conn.held, hl, hl', hu _, hu' _, hp, hp']
  | pipeWrite e =>
    rcases Direction.eq_or_eq_other d e with rfl | rfl
    · simp [Conn.held, hl', hu' _, hp', fdNumber]
    · simp [Conn.held, hl, hl', hu _, hu' _, hp, hp']

theorem createpipe_acquires (h : Acquires f t c) (hd : t d) (q : PipeCalls) :
    Keeps (Acquires f fun e => e ≠ d ∧ t e) q.created (createpipe c d q) := by
  obtain ⟨p, hp⟩ := h.pump
  obtain ⟨hrd, hwd⟩ := h.todo p hp d hd
  have hnone : c.held (.pipeRead d) = none ∧ c.held (.pipeWrite d) = none := by
    simp [Conn.held, h.live, h.unmarked d, hp, hrd, hwd, fdNumber]
  unfold createpipe PipeCalls.created
  split
  · rename_i hq
    exact .error (h.mono fun _ he => he.2) (by simp [hq])
  · rename_i r w hq
    split
    · rename_i hn
      have hp' : (pipeCreated c d r w).userArg =
          some (p.setPipe d { p.pipe d with pipeReadfd := r, pipeWritefd := w }) := by
        simp [pipeCreated, Conn.modPump, hp]
      have hheld := held_pipeCreated (d := d) h.live h.unmarked hp r w
      have hacq : Acquires f (fun e => e ≠ d ∧ t e) (pipeCreated c d r w) := by
        refine ⟨⟨h.live, h.notFreed, h.fd, h.bev⟩, h.unmarked, ⟨_, hp'⟩, fun q hq e he => ?_,
          (h.keep.opened d r w).imp (by rw [hheld]; exact Sub.refl _)⟩
        obtain rfl := Option.some.inj (hp'.symm.trans hq)
        obtain rfl : e = d.other := (Direction.eq_or_eq_other d e).resolve_left he.1
        rw [Splicepump.setPipe_other]
        exact h.todo p hp d.other he.2
      exact .ok hacq (by simp [hq, hn])
    · rename_i hn
      refine .error ⟨⟨h.live, h.notFreed, h.fd, h.bev⟩, h.unmarked, h.pump,
        fun p' hp' e he => h.todo p' hp' e he.2, (h.keep.opened d r w).imp fun x n hx => ?_⟩
        (by simp [hq, hn])
      have hr : x ≠ .pipeRead d := by
        rintro rfl
        exact absurd (hnone.1.symm.trans hx) (by simp)
      have hw : x ≠ .pipeWrite d := by
        rintro rfl
        exact absurd (hnone.2.symm.trans hx) (by simp)
      rw [Function.update_of_ne hw, Function.update_of_ne hr]
      exact hx

theorem Attached.acquires {g : Side → Fd} (h : Attached c f g) (hu : c.Unmarked)
    (hout : fdOps c.out = []) : Acquires f (fun _ => True) (pumpAttached c) := by
  have ho := h.handOver
  have hu' : (pumpAttached c).Unmarked := hu
  refine ⟨⟨ho.live, ho.notFreed, ho.fd, ho.bev⟩, hu', ⟨_, rfl⟩, fun p hp d _ => ?_,
    socketsHeld f, ?_, fun x n hx => ?_⟩
  · obtain rfl : Splicepump.new = p := Option.some.inj hp
    exact ⟨rfl, rfl⟩
  · have hops : fdOps (pumpAttached c).out = fdOps c.out ++ [] := fdOps_append ..
    rw [hops, hout]
    exact .done
  · rw [← hx]
    have hl : (pumpAttached c).released = false := h.live
    have hp : (pumpAttached c).userArg = some Splicepump.new := rfl
    have hfd : ∀ s, ((pumpAttached c).ends s).fd = f s := ho.fd
    cases x with
    | sock s => simp [Conn.held, hl, hfd, fdNumber, socketsHeld]
    | pipeRead d => simp [Conn.held, hl, hu' d, hp, Splicepump.new, fdNumber, socketsHeld]
    | pipeWrite d => simp [Conn.held, hl, hu' d, hp, Splicepump.new, fdNumber, socketsHeld]

theorem Acquires.fill (h : Acquires f (fun _ => True) c) (k : StartCalls) :
    Keeps (Acquires f fun _ => False) k.fills (splicepumpFill c k) := by
  have hin : ∀ c q, Acquires f (fun _ => True) c →
      Keeps (Acquires f fun e => e ≠ .inbound ∧ True) q.created (createpipe c .inbound q) :=
    fun _ q h => createpipe_acquires h trivial q
  have hout : ∀ c q, Acquires f (fun e => e ≠ .inbound ∧ True) c →
      Keeps (Acquires f fun _ => False) q.created (createpipe c .outbound q) := by
    intro c q h
    obtain ⟨c', hc', he⟩ := createpipe_acquires (d := .outbound) h ⟨by decide, trivial⟩ q
    exact ⟨c', hc'.mono fun _ => False.elim, he⟩
  exact splicepumpFill_keeps (fun _ _ hg h => h.modPump hg) (fun _ o h => h.alloc o) hin hout
    (fun _ h => h.mono fun _ => False.elim) h k

/-- **A start of the splice pump** closes only what the client holds, whatever fails. -/
theorem PumpStart.minds_splice {k : StartCalls} {c' : Conn} (h : PumpStart .splicepump f [] k c') :
    Minds (socketsHeld f) c' := by
  obtain ⟨c₀, b, h₀, hn, -, rfl⟩ := h
  have hout : fdOps c₀.out = [] := by
    rw [← c₀.fdOps_notes, hn]
    rfl
  cases ha : k.attaches with
  | false =>
    obtain ⟨c₁, g₁, heq, hat, -, hp, hn₁⟩ := afterStart_unattached h₀ ha
    have hout₁ : fdOps c₁.out = [] := by
      rw [← c₁.fdOps_notes, hn₁, hn]
      rfl
    have hheld : c₁.held = socketsHeld f := by
      funext x
      cases x <;> simp [Conn.held, socketsHeld, hat.live, hat.fd, hp, fdNumber_natCast]
    rw [heq]
    refine .inl (Keep.nothing ?_ (held_released (clientFree_released hat.live hat.notFreed)))
    rw [clientFree_out hat.live hat.notFreed, fdOps_append, hout₁, ← hheld]
    exact obeys_clientFreeEffects hat.live
  | true =>
    have hemit := h₀.emits [.startPump b.input]
    have hacq := hemit.toAttached.acquires (fun d => ⟨h₀.shutRead _, h₀.shutWrite _⟩)
      (by rw [Conn.emits_out, fdOps_append, hout]; rfl)
    obtain ⟨c₁, hfill, hst⟩ := hacq.fill k
    cases hk : k.fills with
    | true =>
      rw [hk, if_pos rfl] at hst
      rw [startPump_filled h₀ ha hst hfill.live]
      exact .inl hfill.keep
    | false =>
      rw [hk] at hst
      obtain ⟨p, hp⟩ := hfill.pump
      obtain ⟨hi, -⟩ := hfill.toAttached.splicepumpFree hp
      rw [afterStart_unfilled h₀ ha hst hi.released]
      obtain ⟨held₀, ho, hs⟩ := hfill.keep
      obtain ⟨held₁, ho₁⟩ := obeys_splicepumpFree hfill.live hfill.unmarked hp
      obtain ⟨held₂, ho₂, -⟩ := ho₁.mono hs fun _ hn => hn
      obtain ⟨held₃, ho₃, -⟩ := ho.append ho₂
      refine .inr ⟨⟨held₃, ?_⟩, .inr (by simp [Effect.notable])⟩
      rw [Conn.emits_out, fdOps_append, hfill.toAttached.fdOps_splicepumpFree hp]
      exact (List.append_nil _).symm ▸ ho₃

theorem Attached.fdOps_bufferpumpFree {g : Side → Fd} (h : Attached c f g) (hp : c.userArg = none)
    (hout : c.out = []) : fdOps (Transocks.bufferpumpFree c).out = fdOps (releaseNotes f g) := by
  rw [← Conn.fdOps_notes, (h.bufferpumpFree hp).2, Conn.notes_nil hout, List.nil_append]

/-- A visit of the drop only closes. -/
theorem Phase.drop_closes {m : PumpMethod} (h : Phase m c f) (hout : c.out = []) :
    ∃ xs : List (Handle × ℕ),
      fdOps (Transocks.pumpFree m c).out = xs.map fun x => .close x.1 x.2 := by
  have hbuffer : ∀ {g}, Attached c f g → c.userArg = none →
      ∃ xs : List (Handle × ℕ), fdOps (bufferpumpFree c).out = xs.map fun x => .close x.1 x.2 := by
    intro g ha hp
    rw [ha.fdOps_bufferpumpFree hp hout]
    exact ⟨[(.sock .client, f .client), (.sock .relay, f .relay)], by
      simp [fdOps, releaseNotes, Effect.op]⟩
  cases h with
  | handshaking b h =>
    cases m with
    | splicepump =>
      have heq : Transocks.pumpFree .splicepump c = c := splicepumpFree_unattached h.live h.noPump
      exact ⟨[], by rw [heq, hout]; rfl⟩
    | bufferpump => exact hbuffer h.toAttached h.noPump
  | copying h => exact hbuffer h.toAttached h.noPump
  | splicing p h =>
    refine ⟨closing (pipeFields p) ++ closing (sockFields c), ?_⟩
    show fdOps (splicepumpFree c).out = _
    rw [h.toAttached.fdOps_splicepumpFree h.pump, hout, fdOps_append, fdOps_splicepumpFreeEffects,
      fdOps_clientFreeEffects, ← List.map_append]
    rfl

theorem Phase.keep_bufferpumpFree (h : Phase .bufferpump c f) (hout : c.out = []) :
    Keep (socketsHeld f) (bufferpumpFree c).out (bufferpumpFree c).held := by
  obtain ⟨g, ha, hp⟩ : ∃ g, Attached c f g ∧ c.userArg = none := by
    cases h with
    | handshaking b h => exact ⟨_, h.toAttached, h.noPump⟩
    | copying h => exact ⟨_, h.toAttached, h.noPump⟩
  refine Keep.nothing ?_ (held_released (ha.bufferpumpFree hp).1.released)
  rw [ha.fdOps_bufferpumpFree hp hout]
  exact obeys_releaseNotes f g

theorem Phase.held_bufferpump (h : Phase .bufferpump c f) : c.held = socketsHeld f := by
  cases h with
  | handshaking b h => exact h.held
  | copying h => exact h.held

theorem PumpStart.minds {m : PumpMethod} {k : StartCalls} {c' : Conn} (h : PumpStart m f [] k c') :
    Minds (socketsHeld f) c' := by
  cases m with
  | splicepump => exact h.minds_splice
  | bufferpump =>
    obtain ⟨c₀, b, h₀, hn, ht, rfl⟩ := h
    exact (afterStart_copying h₀ k ht).minds (fun _ h => h.held_bufferpump) (by rw [hn]; rfl)

end Start

/-! ## The accept -/

/-- The operations of an accept: it opens the client's socket and perhaps the relay's, and after
that it closes nothing but these. -/
inductive AcceptOps : List (Op Handle ℕ) → Prop
  | none : AcceptOps []
  | client {n : ℕ} {xs : List (Handle × ℕ)} (h : ∀ x ∈ xs, x = (.sock .client, n)) :
    AcceptOps (.acquire (.sock .client) n :: xs.map fun x => .close x.1 x.2)
  | both {n r : ℕ} {xs : List (Handle × ℕ)}
      (h : ∀ x ∈ xs, x = (.sock .client, n) ∨ x = (.sock .relay, r)) :
    AcceptOps (.acquire (.sock .client) n :: .acquire (.sock .relay) r ::
      xs.map fun x => .close x.1 x.2)

theorem AcceptOps.obeys {ops : List (Op Handle ℕ)} (h : AcceptOps ops) :
    ∃ held₀, Obeys IsSock (fun _ => Option.none) [] ops held₀ := by
  cases h with
  | none => exact ⟨_, .done⟩
  | @client n xs h =>
    have hheld : ∀ x ∈ xs, Function.update (fun _ => Option.none) (.sock .client) (some n) x.1 =
        some x.2 ∨ (IsSock x.1 ∧ x.2 ∈ ([] : List ℕ)) := fun x hx => .inl (by simp [h x hx])
    have hsame : xs.Pairwise fun x y => x.1 = y.1 → IsSock y.1 ∧ x.2 = y.2 :=
      List.pairwise_of_forall_mem_list fun x hx y hy _ => by simp [h x hx, h y hy, IsSock]
    obtain ⟨held₀, ho⟩ := Obeys.closes xs hheld hsame
    exact ⟨held₀, .acquire ho⟩
  | @both n r xs h =>
    have hheld : ∀ x ∈ xs, Function.update (Function.update (fun _ => Option.none) (.sock .client)
        (some n)) (.sock .relay) (some r) x.1 = some x.2 ∨ (IsSock x.1 ∧ x.2 ∈ ([] : List ℕ)) :=
      fun x hx => .inl (by rcases h x hx with rfl | rfl <;> simp)
    have hsame : xs.Pairwise fun x y => x.1 = y.1 → IsSock y.1 ∧ x.2 = y.2 :=
      List.pairwise_of_forall_mem_list fun x hx y hy hxy => by
        rcases h x hx with rfl | rfl <;> rcases h y hy with rfl | rfl <;> simp_all [IsSock]
    obtain ⟨held₀, ho⟩ := Obeys.closes xs hheld hsame
    exact ⟨held₀, .acquire (.acquire ho)⟩

section Accept

variable {c : Conn} {n r : ℕ} {k : AcceptCalls}

/-- A field that holds no number or the number `n`. -/
def NoneOr (n : ℕ) (fd : Fd) : Prop := fd = -1 ∨ fd = n

theorem NoneOr.number {fd : Fd} {a : ℕ} (h : NoneOr n fd) (ha : fdNumber fd = some a) : a = n := by
  rcases h with rfl | rfl
  · simp [fdNumber] at ha
  · exact (Option.some.inj ((fdNumber_natCast n).symm.trans ha)).symm

theorem closing_sockFields (hc : NoneOr n (c.ends .client).fd) (hr : NoneOr r (c.ends .relay).fd) :
    ∀ x ∈ closing (sockFields c), x = (.sock .client, n) ∨ x = (.sock .relay, r) := by
  intro x hx
  obtain ⟨y, hmem, hxy, hn⟩ := mem_closing hx
  simp only [sockFields, List.mem_cons, List.not_mem_nil, or_false] at hmem
  rcases hmem with rfl | rfl
  · exact .inl (Prod.ext hxy.symm (hc.number hn))
  · exact .inr (Prod.ext hxy.symm (hr.number hn))

theorem closing_sockFields_client (hc : NoneOr n (c.ends .client).fd)
    (hr : (c.ends .relay).fd = -1) :
    ∀ x ∈ closing (sockFields c), x = (.sock .client, n) := by
  intro x hx
  obtain ⟨y, hmem, hxy, hn⟩ := mem_closing hx
  simp only [sockFields, List.mem_cons, List.not_mem_nil, or_false] at hmem
  rcases hmem with rfl | rfl
  · exact Prod.ext hxy.symm (hc.number hn)
  · simp [hr, fdNumber] at hn

theorem Fresh.fdOps_clientFree (h : Fresh c) : fdOps (Transocks.clientFree c).out =
    fdOps c.out ++ (closing (sockFields c)).map fun x => .close x.1 x.2 := by
  rw [clientFree_out h.live (by simp [h.state]), fdOps_append, fdOps_clientFreeEffects]

theorem Fresh.freeClient_ops (h : Fresh c) (hout : fdOps c.out = [.acquire (.sock .client) n])
    (hc : NoneOr n (c.ends .client).fd) (hr : (c.ends .relay).fd = -1) :
    AcceptOps (fdOps (listenerFreeClient c n).out) := by
  have hops : fdOps (listenerFreeClient c n).out = .acquire (.sock .client) n ::
      (closing (sockFields c) ++ [((.sock .client : Handle), n)]).map
        fun x => .close x.1 x.2 := by
    unfold listenerFreeClient
    rw [Conn.emits_out, fdOps_append, h.fdOps_clientFree, hout, List.map_append]
    simp [fdOps, Effect.op]
  rw [hops]
  refine .client fun x hx => ?_
  rcases List.mem_append.mp hx with hx | hx
  · exact closing_sockFields_client hc hr x hx
  · exact List.mem_singleton.mp hx

theorem Fresh.unregister_ops (h : Fresh c) {es : List Effect}
    (hout : fdOps c.out = [.acquire (.sock .client) n, .acquire (.sock .relay) r])
    (hes : fdOps es = [.close (.sock .relay) r]) (hc : NoneOr n (c.ends .client).fd)
    (hr : NoneOr r (c.ends .relay).fd) :
    AcceptOps (fdOps (Transocks.clientFree (c.emits es)).out) := by
  have hops : fdOps (Transocks.clientFree (c.emits es)).out =
      .acquire (.sock .client) n :: .acquire (.sock .relay) r ::
        ((.sock .relay, r) :: closing (sockFields c)).map fun x => .close x.1 x.2 := by
    rw [(h.emits es).fdOps_clientFree, Conn.emits_out, fdOps_append, hout, hes]
    rfl
  rw [hops]
  refine .both fun x hx => ?_
  rcases List.mem_cons.mp hx with rfl | hx
  · exact .inr rfl
  · exact closing_sockFields hc hr x hx

theorem connect_ops (h : Fresh c) (hout : fdOps c.out = [.acquire (.sock .client) n])
    (hc : (c.ends .client).fd = n) (hr : (c.ends .relay).fd = -1) (k : AcceptCalls) :
    AcceptOps (fdOps (startConnectRelay c k).out) := by
  unfold startConnectRelay
  split
  · rw [h.fdOps_clientFree, hout]
    exact .client (closing_sockFields_client (.inr hc) hr)
  rename_i r _
  have hout₁ : fdOps (c.emits [.opened (.sock .relay) r]).out =
      [.acquire (.sock .client) n, .acquire (.sock .relay) r] := by
    rw [Conn.emits_out, fdOps_append, hout]
    rfl
  have hclose : fdOps [.closed (.sock .relay) r] = [.close (.sock .relay) r] := by
    simp [fdOps, Effect.op]
  have h₁ := h.emits [.opened (.sock .relay) r]
  simp only
  split
  · exact h₁.unregister_ops hout₁ hclose (.inr hc) (.inl hr)
  have h₂ := h₁.setEnd .relay { (c.emits [.opened (.sock .relay) r]).ends .relay with fd := r }
  split
  · refine h₂.unregister_ops hout₁ hclose (.inr ?_) (.inr (by simp))
    rw [Conn.setEnd_ne _ _ (by decide)]
    exact hc
  have h₃ : Fresh (connecting (c.emits [.opened (.sock .relay) r]) r) :=
    (h₂.setBev .relay (some (connectingBev r))).emits [.alloc (.bev .relay)]
  have hout₃ : fdOps (connecting (c.emits [.opened (.sock .relay) r]) r).out =
      [.acquire (.sock .client) n, .acquire (.sock .relay) r] := by
    unfold connecting
    rw [Conn.emits_out, fdOps_append]
    exact (List.append_nil _).trans hout₁
  obtain ⟨h₄, hn₄, he₄⟩ := h₃.setTimeout k.timer
  have hout₄ :=
    (fdOps_notes _).symm.trans ((congrArg fdOps hn₄).trans ((fdOps_notes _).trans hout₃))
  split
  · refine h₄.unregister_ops hout₄ hclose (.inr ?_) (.inr ?_)
    · rw [he₄, connecting_client]
      exact hc
    · rw [he₄, connecting_relay]
  · have hnil : ∀ x ∈ ([] : List (Handle × ℕ)), x = (.sock .client, n) ∨ x = (.sock .relay, r) := by
      simp
    exact hout₄ ▸ AcceptOps.both hnil

theorem setup_ops (h : Fresh c) (hout : fdOps c.out = [.acquire (.sock .client) n])
    (hc : (c.ends .client).fd = n) (hr : (c.ends .relay).fd = -1) (k : AcceptCalls) :
    AcceptOps (fdOps (listenerSetup c n k).out) := by
  unfold listenerSetup
  split
  · exact h.freeClient_ops hout (.inr hc) hr
  have h₁ := h.emits [.alloc (.bev .client)]
  have hout₁ : fdOps (c.emits [.alloc (.bev .client)]).out = [.acquire (.sock .client) n] := by
    rw [Conn.emits_out, fdOps_append, hout]
    rfl
  simp only
  split
  · refine (h₁.emits [.bevFree .client (-1), .free (.bev .client)]).freeClient_ops ?_ (.inr hc) hr
    rw [Conn.emits_out, fdOps_append, hout₁]
    rfl
  · refine connect_ops ((h₁.setBev .client _).emits [.listAddTail]) ?_ ((by simp : _ = _).trans hc)
      (by simpa [Conn.setBev_ne] using hr) k
    rw [Conn.emits_out, fdOps_append]
    exact (List.append_nil _).trans hout₁

/-- **An accept** closes nothing but what it opened itself. -/
theorem accept_ops (k : AcceptCalls) : AcceptOps (fdOps (World.acceptEffects k)) := by
  have hclose : ∀ n, fdOps [.closed (.sock .client) (n : ℕ)] = [.close (.sock .client) n] :=
    fun n => by simp [fdOps, Effect.op]
  have hboth : ∀ (n : ℕ) (es : List Effect), fdOps es = [] → AcceptOps (fdOps
      ([.opened (.sock .client) n] ++ es ++ [.closed (.sock .client) n])) := fun n es he => by
    rw [fdOps_append, fdOps_append, he, hclose]
    exact AcceptOps.client fun x hx => List.mem_singleton.mp hx
  cases ha : k.accept with
  | none =>
    simp only [World.acceptEffects, listenerCb, ha]
    exact .none
  | some n =>
    by_cases hopt : (k.srcLenZero || !(k.nonblock && k.keepalive && k.nodelay)) = true
    · simp only [World.acceptEffects, listenerCb, ha, if_pos hopt]
      exact hboth n [] rfl
    obtain hnew | hnew | ⟨es, hnew, hes⟩ := clientNew_cases k
    · simp only [World.acceptEffects, listenerCb, ha, if_neg hopt, hnew]
      exact hboth n _ rfl
    · have hout : fdOps (allocated k n).out = [.acquire (.sock .client) n] := by
        rw [← Conn.fdOps_notes, notes_allocated]
        rfl
      have hfresh : Fresh (allocated k n) := ⟨rfl, rfl, rfl, rfl⟩
      cases ho : k.origdst with
      | none =>
        have hcb : World.acceptEffects k = (listenerFreeClient (allocated k n) n).out := by
          simp only [World.acceptEffects, listenerCb, ha, if_neg hopt, hnew, ho]
          rfl
        rw [hcb]
        exact hfresh.freeClient_ops hout (.inl rfl) rfl
      | some a =>
        have hcb : World.acceptEffects k = (listenerSetup (addressed k n a) n k).out := by
          simp only [World.acceptEffects, listenerCb, ha, if_neg hopt, hnew, ho]
          rfl
        have hfresh' : Fresh (addressed k n a) := ⟨rfl, rfl, rfl, rfl⟩
        rw [hcb]
        exact setup_ops hfresh' hout rfl rfl k
    · simp only [World.acceptEffects, listenerCb, ha, if_neg hopt, hnew]
      refine hboth n es ?_
      rw [← fdOps_notes, hes]
      rfl

end Accept

end Transocks

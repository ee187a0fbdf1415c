import Transocks.Loop
import Transocks.Lib.Fifo

/-!
# What a callback of the splice pump can do

`FillMove` and `DrainMove` list what `transocks_write_to_pipe` and `transocks_read_from_pipe` can
do before they check for termination. `step_spliceRead` and `step_spliceWrite` say that a callback
is one of these moves followed by the check, or goes down the fatal path; everything proved about
the pump's runs rests on them. `startPump_splice_ok` describes the state in which the pump starts.
-/

namespace Transocks

/-- What `transocks_write_to_pipe` can do up to its call of `transocks_check_normal_termination`. -/
inductive FillMove (c : Conn) (p : Splicepump) (d : Direction) : Splice → Conn → Prop
  | transfer {bs : List Byte} (h : bs ≠ []) :
    FillMove c p d (.moved bs)
      ((c.setKern d ((c.kern d).spliceIn (.moved bs))).setPump (p.setPipe d
        { p.pipe d with dataInPipe := sizeAdd (p.pipe d).dataInPipe bs.length }))
  | retry {e : Errno} (h : isRetriable e = true) : FillMove c p d (.failed e) c
  | activate {e : Errno} (h : isRetriable e = true) :
    FillMove c p d (.failed e) (c.setPump (p.setWriteEv d ((p.writeEv d).map Event.activate)))
  | eof : FillMove c p d (.moved []) (writeToPipeEof c d p)

/-- What `transocks_read_from_pipe` can do up to its call of
`transocks_check_normal_termination`. -/
inductive DrainMove (c : Conn) (p : Splicepump) (d : Direction) : Splice → Conn → Prop
  | transfer {bs : List Byte} (h : bs ≠ []) :
    DrainMove c p d (.moved bs)
      ((c.setKern d ((c.kern d).spliceOut (.moved bs))).setPump (p.setPipe d
        { p.pipe d with dataInPipe := sizeSub (p.pipe d).dataInPipe bs.length }))
  | retry {e : Errno} (h : isRetriable e = true) : DrainMove c p d (.failed e) c
  | eof : DrainMove c p d (.moved []) (readFromPipeEof c d p)

/-! ## Fields after the small updates of the pump -/

section Fields

variable (c : Conn) (p : Splicepump) (d : Direction)

@[simp] theorem setPump_userArg : (c.setPump p).userArg = some p := rfl
@[simp] theorem setPump_ends : (c.setPump p).ends = c.ends := rfl
@[simp] theorem setPump_kern : (c.setPump p).kern = c.kern := rfl
@[simp] theorem setPump_released : (c.setPump p).released = c.released := rfl
@[simp] theorem setPump_clientState : (c.setPump p).clientState = c.clientState := rfl
@[simp] theorem setPump_timeoutEv : (c.setPump p).timeoutEv = c.timeoutEv := rfl
@[simp] theorem setPump_underway : (c.setPump p).underway = c.underway := rfl
@[simp] theorem setPump_out : (c.setPump p).out = c.out := rfl

theorem setPump_self {c : Conn} {p : Splicepump} (h : c.userArg = some p) : c.setPump p = c := by
  cases c
  simp_all [Conn.setPump]

theorem setKern_self : c.setKern d (c.kern d) = c := by
  unfold Conn.setKern
  rw [Function.update_eq_self]

@[simp] theorem spliceIn_nil (k : Kern) : k.spliceIn (.moved []) = k := by
  simp [Kern.spliceIn]

@[simp] theorem spliceOut_nil (k : Kern) : k.spliceOut (.moved []) = k := by
  simp [Kern.spliceOut]

@[simp] theorem spliceIn_failed (k : Kern) (e : Errno) : k.spliceIn (.failed e) = k := rfl

@[simp] theorem spliceOut_failed (k : Kern) (e : Errno) : k.spliceOut (.failed e) = k := rfl

theorem singleSplice_moved {bs : List Byte} (h : bs ≠ []) :
    singleSplice (.moved bs) = .normalTransfer bs.length := by
  simp [singleSplice, h]

end Fields

/-! ## The callbacks -/

/-- The pump when the callback of the event on the source of `d` starts to run. -/
def wokenRead (p : Splicepump) (d : Direction) : Splicepump :=
  p.setReadEv d ((p.readEv d).map fun e => { e with active := false })

/-- The pump when the callback of the event on the pipe of `d` starts to run. -/
def wokenWrite (p : Splicepump) (d : Direction) : Splicepump :=
  p.setWriteEv d ((p.writeEv d).map fun e => { e with active := false })

section Steps

variable {m : PumpMethod} {c : Conn} {p : Splicepump} {d : Direction} {k : Splice}

theorem checkNormalTermination_live (hl : c.released = false) :
    checkNormalTermination c d = if normalTermination c d then splicepumpFree c else c :=
  Conn.touch_live hl

theorem writeToPipe_cases (hl : c.released = false) (hp : c.userArg = some p) :
    (writeToPipe c d k = onFatalFailure c ∧
        (isInvalidFd (c.ends d.source).fd || isInvalidFd (p.pipe d).pipeWritefd) = true) ∨
      (writeToPipe c d k = onFatalFailure c ∧ singleSplice k = .fatalFailure) ∨
      ∃ c₁, FillMove c p d k c₁ ∧ writeToPipe c d k = checkNormalTermination c₁ d := by
  unfold writeToPipe
  rw [Conn.touch_live hl]
  simp only [hp]
  by_cases hfd : (isInvalidFd (c.ends d.source).fd || isInvalidFd (p.pipe d).pipeWritefd) = true
  · rw [if_pos hfd]
    exact .inl ⟨rfl, hfd⟩
  rw [if_neg hfd]
  refine .inr ?_
  cases k with
  | moved bs =>
    right
    by_cases hb : bs = []
    · subst hb
      rw [spliceIn_nil, setKern_self]
      exact ⟨_, .eof, rfl⟩
    · rw [singleSplice_moved hb]
      exact ⟨_, .transfer hb, rfl⟩
  | failed e =>
    rw [spliceIn_failed, setKern_self]
    by_cases he : isRetriable e = true
    · right
      simp only [singleSplice, he, if_true, writeToPipeRest]
      split
      · exact ⟨_, .activate he, rfl⟩
      · exact ⟨_, .retry he, rfl⟩
    · left
      simp only [singleSplice, he]
      exact ⟨rfl, rfl⟩

theorem readFromPipe_cases (hl : c.released = false) (hp : c.userArg = some p) :
    (readFromPipe c d k = onFatalFailure c ∧
        (isInvalidFd (p.pipe d).pipeReadfd || isInvalidFd (c.ends d.target).fd) = true) ∨
      (readFromPipe c d k = onFatalFailure c ∧ singleSplice k = .fatalFailure) ∨
      ∃ c₁, DrainMove c p d k c₁ ∧ readFromPipe c d k = checkNormalTermination c₁ d := by
  unfold readFromPipe
  rw [Conn.touch_live hl]
  simp only [hp]
  by_cases hfd : (isInvalidFd (p.pipe d).pipeReadfd || isInvalidFd (c.ends d.target).fd) = true
  · rw [if_pos hfd]
    exact .inl ⟨rfl, hfd⟩
  rw [if_neg hfd]
  refine .inr ?_
  cases k with
  | moved bs =>
    right
    by_cases hb : bs = []
    · subst hb
      rw [spliceOut_nil, setKern_self]
      exact ⟨_, .eof, rfl⟩
    · rw [singleSplice_moved hb]
      exact ⟨_, .transfer hb, rfl⟩
  | failed e =>
    rw [spliceOut_failed, setKern_self]
    by_cases he : isRetriable e = true
    · right
      simp only [singleSplice, he, if_true, readFromPipeRest]
      exact ⟨_, .retry he, rfl⟩
    · left
      simp only [singleSplice, he]
      exact ⟨rfl, rfl⟩

theorem step_spliceRead_eq (hp : c.userArg = some p) :
    c.step m (.spliceRead d k) = writeToPipe (c.setPump (wokenRead p d)) d k := by
  unfold Conn.step Conn.modPump
  rw [hp]
  cases d <;> rfl

theorem step_spliceWrite_eq (hp : c.userArg = some p) :
    c.step m (.spliceWrite d k) = readFromPipe (c.setPump (wokenWrite p d)) d k := by
  unfold Conn.step Conn.modPump
  rw [hp]
  cases d <;> rfl

/-- **The source callback.** It fails fatally, or makes one move and checks for termination. -/
theorem step_spliceRead (hl : c.released = false) (hp : c.userArg = some p) :
    (c.step m (.spliceRead d k) = onFatalFailure (c.setPump (wokenRead p d)) ∧
        (isInvalidFd (c.ends d.source).fd || isInvalidFd (p.pipe d).pipeWritefd) = true) ∨
      (c.step m (.spliceRead d k) = onFatalFailure (c.setPump (wokenRead p d)) ∧
        singleSplice k = .fatalFailure) ∨
      ∃ c₁, FillMove (c.setPump (wokenRead p d)) (wokenRead p d) d k c₁ ∧
        c.step m (.spliceRead d k) = checkNormalTermination c₁ d := by
  rw [step_spliceRead_eq hp]
  exact writeToPipe_cases (c := c.setPump (wokenRead p d)) hl rfl

/-- **The pipe callback.** It fails fatally, or makes one move and checks for termination. -/
theorem step_spliceWrite (hl : c.released = false) (hp : c.userArg = some p) :
    (c.step m (.spliceWrite d k) = onFatalFailure (c.setPump (wokenWrite p d)) ∧
        (isInvalidFd (p.pipe d).pipeReadfd || isInvalidFd (c.ends d.target).fd) = true) ∨
      (c.step m (.spliceWrite d k) = onFatalFailure (c.setPump (wokenWrite p d)) ∧
        singleSplice k = .fatalFailure) ∨
      ∃ c₁, DrainMove (c.setPump (wokenWrite p d)) (wokenWrite p d) d k c₁ ∧
        c.step m (.spliceWrite d k) = checkNormalTermination c₁ d := by
  rw [step_spliceWrite_eq hp]
  exact readFromPipe_cases (c := c.setPump (wokenWrite p d)) hl rfl

end Steps

/-! ## Teardown of a pumping client -/

theorem splicepumpFree_unattached {c : Conn} (hl : c.released = false) (hp : c.userArg = none) :
    splicepumpFree c = c := by
  unfold splicepumpFree
  rw [Conn.touch_live hl]
  simp only [hp]

section Teardown

variable {c : Conn} {p : Splicepump} (hl : c.released = false) (hst : c.clientState = .pumpingData)
  (hp : c.userArg = some p)

include hl hst hp

omit hst in
theorem splicepumpFree_eq : splicepumpFree c = clientFree (splicepumpUnwound c p) := by
  unfold splicepumpFree
  rw [Conn.touch_live hl]
  simp only [hp]

theorem splicepumpFree_released : (splicepumpFree c).released = true := by
  rw [splicepumpFree_eq hl hp]
  exact clientFree_released hl (by simp [splicepumpUnwound, hst])

theorem splicepumpFree_end (s : Side) : (splicepumpFree c).ends s = (c.ends s).freed := by
  rw [splicepumpFree_eq hl hp, clientFree_ends (c := splicepumpUnwound c p) hl
    (by simp [splicepumpUnwound, hst])]
  rfl

theorem splicepumpFree_kern (d : Direction) :
    (splicepumpFree c).kern d = { c.kern d with readOpen := false, writeOpen := false } := by
  rw [splicepumpFree_eq hl hp, clientFree_kern (c := splicepumpUnwound c p) hl
    (by simp [splicepumpUnwound, hst])]
  rfl

end Teardown

/-! ## The start -/

theorem bind_ok_iff {ε α β : Type} {x : Except ε α} {f : α → Except ε β} {b : β} :
    (x >>= f) = .ok b ↔ ∃ a, x = .ok a ∧ f a = .ok b := by
  cases x <;> simp [bind, Except.bind]

section Start

variable {c c' : Conn} {p : Splicepump} {d : Direction} {s : Side} {k : StartCalls} {q : PipeCalls}
  {ok : Bool}

theorem modPump_some (hp : c.userArg = some p) (f : Splicepump → Splicepump) :
    c.modPump f = c.setPump (f p) := by
  unfold Conn.modPump Conn.setPump
  rw [hp]
  rfl

theorem bevDisableStage_ok (h : bevDisableStage c s ok = .ok c') :
    c' = c.mapBev s Bufferevent.disable := by
  unfold bevDisableStage at h
  split at h
  · exact (Except.ok.inj h).symm
  · cases h

theorem splicepumpNew_ok (h : splicepumpNew c k = .ok c') :
    c' = (c.setPump Splicepump.new).emits
      [.alloc .pump, .alloc (.pipe .inbound), .alloc (.pipe .outbound)] := by
  unfold splicepumpNew at h
  split_ifs at h
  exact (Except.ok.inj h).symm

theorem createpipe_ok (hp : c.userArg = some p) (h : createpipe c d q = .ok c') :
    ∃ r w : ℕ, q.pipe = some (r, w) ∧
      c' = ((c.setPump (p.setPipe d { p.pipe d with pipeReadfd := r, pipeWritefd := w })).setKern
        d Kern.new).emits [.opened (.pipeRead d) r, .opened (.pipeWrite d) w] := by
  unfold createpipe at h
  split at h
  · cases h
  · rename_i r w hrw
    split at h
    · refine ⟨r, w, hrw, ?_⟩
      rw [← modPump_some hp fun p =>
        p.setPipe d { p.pipe d with pipeReadfd := r, pipeWritefd := w }]
      exact (Except.ok.inj h).symm
    · cases h

theorem pipesizeStage_ok (hp : c.userArg = some p) (h : pipesizeStage c d q = .ok c') :
    c' = c.setPump (p.setPipe d { p.pipe d with capacity := toSize q.pipesz }) := by
  unfold pipesizeStage at h
  split at h
  · cases h
  · rw [← modPump_some hp fun p => p.setPipe d { p.pipe d with capacity := toSize q.pipesz }]
    exact (Except.ok.inj h).symm

theorem newReadEvStage_ok (hp : c.userArg = some p) (h : newReadEvStage c d ok = .ok c') :
    c' = (c.setPump (p.setReadEv d (some Event.new))).emits [.alloc (.readEv d)] := by
  unfold newReadEvStage at h
  split at h
  · rw [← modPump_some hp fun p => p.setReadEv d (some Event.new)]
    exact (Except.ok.inj h).symm
  · cases h

theorem newWriteEvStage_ok (hp : c.userArg = some p) (h : newWriteEvStage c d ok = .ok c') :
    c' = (c.setPump (p.setWriteEv d (some Event.new))).emits [.alloc (.writeEv d)] := by
  unfold newWriteEvStage at h
  split at h
  · rw [← modPump_some hp fun p => p.setWriteEv d (some Event.new)]
    exact (Except.ok.inj h).symm
  · cases h

theorem addReadEvStage_ok (hp : c.userArg = some p) (h : addReadEvStage c d ok = .ok c') :
    c' = c.setPump (p.setReadEv d ((p.readEv d).map fun e => { e with added := true })) := by
  unfold addReadEvStage at h
  split at h
  · rw [← modPump_some hp fun p => p.setReadEv d
      ((p.readEv d).map fun e => { e with added := true })]
    exact (Except.ok.inj h).symm
  · cases h

theorem addWriteEvStage_ok (hp : c.userArg = some p) (h : addWriteEvStage c d ok = .ok c') :
    c' = c.setPump (p.setWriteEv d ((p.writeEv d).map fun e => { e with added := true })) := by
  unfold addWriteEvStage at h
  split at h
  · rw [← modPump_some hp fun p => p.setWriteEv d
      ((p.writeEv d).map fun e => { e with added := true })]
    exact (Except.ok.inj h).symm
  · cases h

/-- The pump record of a pump that started, with pipe ends `r d` and `w d`. -/
def startedPump (k : StartCalls) (r w : Direction → ℕ) : Splicepump where
  readEv := fun _ => some ⟨true, false⟩
  writeEv := fun _ => some ⟨true, false⟩
  pipe := fun d => ⟨r d, w d, 0, toSize (k.pipe d).pipesz⟩

/-- The calls a start makes after the pump record is attached. -/
def fillEffects (r w : Direction → ℕ) : List Effect :=
  [.opened (.pipeRead .inbound) (r .inbound), .opened (.pipeWrite .inbound) (w .inbound),
    .opened (.pipeRead .outbound) (r .outbound), .opened (.pipeWrite .outbound) (w .outbound),
    .alloc (.readEv .outbound), .alloc (.writeEv .inbound), .alloc (.readEv .inbound),
    .alloc (.writeEv .outbound)]

theorem splicepumpFill_ok (hp : c.userArg = some Splicepump.new) (h : splicepumpFill c k = .ok c') :
    ∃ r w : Direction → ℕ, (∀ d, (k.pipe d).pipe = some (r d, w d)) ∧
      c' = { c with userArg := some (startedPump k r w)
                    kern := fun _ => Kern.new
                    out := c.out ++ fillEffects r w } := by
  unfold splicepumpFill at h
  simp only [bind_ok_iff] at h
  obtain ⟨c₁, h₁, c₂, h₂, c₃, h₃, c₄, h₄, c₅, h₅, c₆, h₆, c₇, h₇, c₈, h₈, c₉, h₉, c₁₀, h₁₀, c₁₁,
    h₁₁,
    h₁₂⟩ := h
  obtain ⟨r₁, w₁, e₁, rfl⟩ := createpipe_ok hp h₁
  obtain ⟨r₂, w₂, e₂, rfl⟩ := createpipe_ok rfl h₂
  obtain rfl := pipesizeStage_ok rfl h₃
  obtain rfl := pipesizeStage_ok rfl h₄
  obtain rfl := newReadEvStage_ok rfl h₅
  obtain rfl := newWriteEvStage_ok rfl h₆
  obtain rfl := newReadEvStage_ok rfl h₇
  obtain rfl := newWriteEvStage_ok rfl h₈
  obtain rfl := addReadEvStage_ok rfl h₉
  obtain rfl := addWriteEvStage_ok rfl h₁₀
  obtain rfl := addReadEvStage_ok rfl h₁₁
  obtain rfl := addWriteEvStage_ok rfl h₁₂
  refine ⟨Direction.both r₁ r₂, Direction.both w₁ w₂, fun d => by cases d <;> assumption, ?_⟩
  simp only [Conn.emits, Conn.setPump, Conn.setKern, fillEffects, List.append_assoc,
    List.cons_append,
    List.nil_append, Conn.mk.injEq, true_and, Option.some.injEq]
  refine ⟨?_, ?_, rfl⟩
  · simp only [startedPump, Splicepump.setPipe, Splicepump.setReadEv, Splicepump.setWriteEv,
      Splicepump.new, Splicepump.mk.injEq]
    refine ⟨?_, ?_, ?_⟩ <;> funext d <;> cases d <;> rfl
  · funext d
    cases d <;> rfl

/-- A bufferevent that has given up its socket. -/
def Bufferevent.handedOver (b : Bufferevent) : Bufferevent :=
  { b with fd := -1, enRead := false, enWrite := false }

/-- The connection after both bufferevents have given up their sockets. -/
def handOver (c : Conn) : Conn :=
  { c with ends := fun s => { c.ends s with bev := (c.ends s).bev.map Bufferevent.handedOver } }

theorem splicepumpTakeFds_ok (h : splicepumpTakeFds c k = .ok c') : c' = handOver c := by
  unfold splicepumpTakeFds at h
  simp only [bind_ok_iff] at h
  obtain ⟨c₁, h₁, c₂, h₂, h₃⟩ := h
  obtain rfl := bevDisableStage_ok h₁
  obtain rfl := bevDisableStage_ok h₂
  rw [← Except.ok.inj h₃]
  unfold handOver Conn.mapBev Conn.setBev Conn.setEnd
  simp only [Conn.mk.injEq, and_true]
  funext s
  cases s <;>
    simp only [Function.update_self, ne_eq, reduceCtorEq, not_false_eq_true,
      Function.update_of_ne] <;>
    cases (c.ends _).bev <;> rfl

/-- The calls a successful start makes. -/
def startEffects (left : List Byte) (r w : Direction → ℕ) : List Effect :=
  [.startPump left, .alloc .pump, .alloc (.pipe .inbound), .alloc (.pipe .outbound)] ++
  fillEffects r w

theorem splicepumpStages_ok (h : splicepumpStages c k = .ok c') :
    ∃ r w : Direction → ℕ, (∀ d, (k.pipe d).pipe = some (r d, w d)) ∧
      c' = { handOver c with
        userArg := some (startedPump k r w)
        kern := fun _ => Kern.new
        out := c.out ++ ([.alloc .pump, .alloc (.pipe .inbound), .alloc (.pipe .outbound)] ++
          fillEffects r w) } := by
  unfold splicepumpStages at h
  simp only [bind_ok_iff] at h
  obtain ⟨c₁, h₁, c₂, h₂, h₃⟩ := h
  obtain rfl := splicepumpTakeFds_ok h₁
  obtain rfl := splicepumpNew_ok h₂
  obtain ⟨r, w, hrw, rfl⟩ := splicepumpFill_ok rfl h₃
  refine ⟨r, w, hrw, ?_⟩
  simp [Conn.emits, Conn.setPump, handOver]

/-- **The start.** When `transocks_start_pump` returns `0` with the splice pump, both bufferevents
have given up their sockets with whatever their buffers hold, and both pipes are new. -/
theorem startPump_splice_ok (hl : c.released = false)
    (h : startPump .splicepump c k = (c', true)) :
    ∃ (rb : Bufferevent) (r w : Direction → ℕ), (c.ends .relay).bev = some rb ∧
      (∀ d, (k.pipe d).pipe = some (r d, w d)) ∧
      c' = { handOver c with
        clientState := .pumpingData
        userArg := some (startedPump k r w)
        kern := fun _ => Kern.new
        out := c.out ++ startEffects rb.input r w } := by
  unfold startPump at h
  split at h
  · rename_i cb rb hcb hrb
    simp only [startPumpFn, splicepumpStartPump] at h
    cases hs : splicepumpStages (c.emits [.startPump rb.input]) k with
    | error c₁ => simp [hs] at h
    | ok c₁ =>
      rw [hs] at h
      obtain ⟨r, w, hrw, rfl⟩ := splicepumpStages_ok hs
      refine ⟨rb, r, w, hrb, hrw, ?_⟩
      rw [← (Prod.mk.inj h).1]
      simp [Conn.touch, Conn.emits, handOver, startEffects, hl]
  · simp at h

end Start

end Transocks

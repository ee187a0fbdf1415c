import Transocks.PhaseSteps
import Transocks.SpliceFlow

/-!
# The bytes that went through the sockets

`toRelay c` is everything written to the relay's socket, by the handshake and by either pump, and
`fromClient c` everything read from the client. Releasing a client and starting a pump, whether that
succeeds or not, move no byte (`SameHistory`).
-/

namespace Transocks

/-- Everything written to the relay's socket: through its bufferevent, and then out of a pipe. -/
def toRelay (c : Conn) : List Byte := (c.ends .relay).tx ++ (c.kern .outbound).written

/-- Everything read from the client's socket: through its bufferevent, or into a pipe. -/
def fromClient (c : Conn) : List Byte := (c.ends .client).rx ++ (c.kern .outbound).taken

/-! ## What keeps the history -/

/-- The same bytes went through the sockets and the pipes. -/
structure SameHistory (c c' : Conn) : Prop where
  rx : ∀ s, (c'.ends s).rx = (c.ends s).rx
  tx : ∀ s, (c'.ends s).tx = (c.ends s).tx
  taken : ∀ d, (c'.kern d).taken = (c.kern d).taken
  written : ∀ d, (c'.kern d).written = (c.kern d).written

namespace SameHistory

variable {c c' c'' : Conn}

theorem refl (c : Conn) : SameHistory c c :=
  ⟨fun _ => rfl, fun _ => rfl, fun _ => rfl, fun _ => rfl⟩

theorem trans (h : SameHistory c c') (h' : SameHistory c' c'') : SameHistory c c'' :=
  ⟨fun s => (h'.rx s).trans (h.rx s), fun s => (h'.tx s).trans (h.tx s),
    fun d => (h'.taken d).trans (h.taken d), fun d => (h'.written d).trans (h.written d)⟩

theorem toRelay (h : SameHistory c c') : Transocks.toRelay c' = Transocks.toRelay c := by
  unfold Transocks.toRelay
  rw [h.tx, h.written]

theorem fromClient (h : SameHistory c c') : Transocks.fromClient c' = Transocks.fromClient c := by
  unfold Transocks.fromClient
  rw [h.rx, h.taken]

theorem setBev (c : Conn) (s : Side) (b : Option Bufferevent) : SameHistory c (c.setBev s b) := by
  refine ⟨fun t => ?_, fun t => ?_, fun _ => rfl, fun _ => rfl⟩ <;>
    rcases Side.eq_or_eq_other s t with rfl | rfl <;> simp

theorem clientFree (c : Conn) : SameHistory c (clientFree c) := by
  unfold Transocks.clientFree
  split_ifs
  · exact ⟨fun _ => rfl, fun _ => rfl, fun _ => rfl, fun _ => rfl⟩
  · exact refl c
  · exact ⟨fun _ => rfl, fun _ => rfl, fun _ => rfl, fun _ => rfl⟩

theorem touch {k : Conn → Conn} (h : SameHistory c (k c)) : SameHistory c (c.touch k) := by
  unfold Conn.touch
  split
  · exact ⟨fun _ => rfl, fun _ => rfl, fun _ => rfl, fun _ => rfl⟩
  · exact h

theorem splicepumpFree (c : Conn) : SameHistory c (splicepumpFree c) := by
  refine touch ?_
  split
  · exact refl c
  · rename_i p _
    have hunwound : SameHistory c (splicepumpUnwound c p) :=
      ⟨fun _ => rfl, fun _ => rfl, fun _ => rfl, fun _ => rfl⟩
    exact hunwound.trans (clientFree _)

theorem checkNormalTermination (c : Conn) (d : Direction) :
    SameHistory c (checkNormalTermination c d) := by
  refine touch ?_
  split
  · exact splicepumpFree c
  · exact refl c

end SameHistory

/-- A callback of the splice pump moves nothing through the bufferevents. -/
theorem splice_sockets {m : PumpMethod} {c : Conn} {p : Splicepump} {ev : Ev}
    (hl : c.released = false) (hp : c.userArg = some p) (hev : ev.isSplice = true) (s : Side) :
    ((c.step m ev).ends s).rx = (c.ends s).rx ∧ ((c.step m ev).ends s).tx = (c.ends s).tx := by
  obtain ⟨p₀, d, -, hstep⟩ := step_splice (m := m) hl hp hev
  rcases hstep with he | ⟨c₁, k, hm, he⟩
  · rw [he]
    have hh := SameHistory.splicepumpFree (c.setPump p₀)
    exact ⟨hh.rx s, hh.tx s⟩
  · have h₁ : (c₁.ends s).rx = (c.ends s).rx ∧ (c₁.ends s).tx = (c.ends s).tx := by
      rcases hm with hm | hm
      · cases hm with
        | eof =>
          rcases Side.eq_or_eq_other d.source s with rfl | rfl <;>
            simp [writeToPipeEof, Conn.setReadFlag, -Direction.source_other]
        | _ => exact ⟨rfl, rfl⟩
      · cases hm with
        | eof =>
          rcases Side.eq_or_eq_other d.target s with rfl | rfl <;>
            simp [readFromPipeEof, Conn.setWriteFlag]
        | _ => exact ⟨rfl, rfl⟩
    have hh := SameHistory.checkNormalTermination c₁ d
    rw [he]
    exact ⟨(hh.rx s).trans h₁.1, (hh.tx s).trans h₁.2⟩

/-! ## The start of a pump -/

section Start

variable {c c₀ : Conn} {k : StartCalls}

def Conn.Unpiped (c : Conn) : Prop := ∀ d, (c.kern d).taken = [] ∧ (c.kern d).written = []

theorem SameHistory.mapBev (h : SameHistory c₀ c) (s : Side) (g : Bufferevent → Bufferevent) :
    SameHistory c₀ (c.mapBev s g) := h.trans (SameHistory.setBev c s _)

theorem SameHistory.createpipe (h : SameHistory c₀ c) (hu : c₀.Unpiped) (d : Direction)
    (q : PipeCalls) : Keeps (SameHistory c₀) q.created (createpipe c d q) := by
  have hnew : ∀ e, ((c.setKern d Kern.new).kern e).taken = (c₀.kern e).taken ∧
      ((c.setKern d Kern.new).kern e).written = (c₀.kern e).written := fun e => by
    rcases Direction.eq_or_eq_other d e with rfl | rfl
    · simp [Kern.new, hu e]
    · simp [h.taken, h.written]
  unfold Transocks.createpipe PipeCalls.created
  split
  · rename_i hq
    exact .error h (by simp [hq])
  · rename_i r w hq
    split
    · rename_i hn
      exact .ok ⟨h.rx, h.tx, fun e => (hnew e).1, fun e => (hnew e).2⟩ (by simp [hq, hn])
    · rename_i hn
      exact .error ⟨h.rx, h.tx, h.taken, h.written⟩ (by simp [hq, hn])

theorem SameHistory.fill (h : SameHistory c₀ c) (hu : c₀.Unpiped) (k : StartCalls) :
    Keeps (SameHistory c₀) k.fills (splicepumpFill c k) :=
  splicepumpFill_keeps (fun _ _ _ h => ⟨h.rx, h.tx, h.taken, h.written⟩)
    (fun _ _ h => ⟨h.rx, h.tx, h.taken, h.written⟩) (fun _ q h => h.createpipe hu .inbound q)
    (fun _ q h => h.createpipe hu .outbound q) (fun _ h => h) h k

theorem SameHistory.stages (h : SameHistory c₀ c) (hu : c₀.Unpiped) (k : StartCalls) :
    ∃ ok, Keeps (SameHistory c₀) ok (splicepumpStages c k) := by
  have hdisable : ∀ c₁ s ok, SameHistory c₀ c₁ →
      Keeps (SameHistory c₀) ok (bevDisableStage c₁ s ok) := by
    intro c₁ s ok h₁
    cases ok with
    | false => exact .error h₁ rfl
    | true => exact .ok (h₁.mapBev s _) rfl
  have hreturn : ∀ c₁, SameHistory c₀ c₁ → Keeps (SameHistory c₀) true
      (.ok ((c₁.mapBev .client (·.setfd (-1))).mapBev .relay (·.setfd (-1)))) :=
    fun c₁ h₁ => .ok ((h₁.mapBev .client _).mapBev .relay _) rfl
  have htake : Keeps (SameHistory c₀) (k.bevDisable .client && (k.bevDisable .relay && true))
      (splicepumpTakeFds c k) :=
    (hdisable c .client _ h).bind fun c₁ h₁ => (hdisable c₁ .relay _ h₁).bind hreturn
  have hnew : ∀ c₁, SameHistory c₀ c₁ → Keeps (SameHistory c₀)
      (k.mallocPump && k.mallocPipe .inbound && k.mallocPipe .outbound) (splicepumpNew c₁ k) := by
    intro c₁ h₁
    have hemit : ∀ es, SameHistory c₀ (c₁.emits es) := fun _ => ⟨h₁.rx, h₁.tx, h₁.taken, h₁.written⟩
    unfold splicepumpNew
    cases k.mallocPump with
    | false => exact .error h₁ rfl
    | true =>
      cases k.mallocPipe .inbound with
      | false => exact .error (hemit _) rfl
      | true =>
        cases k.mallocPipe .outbound with
        | false => exact .error (hemit _) rfl
        | true => exact .ok ⟨h₁.rx, h₁.tx, h₁.taken, h₁.written⟩ rfl
  exact ⟨_, htake.bind fun c₁ h₁ => (hnew c₁ h₁).bind fun c₂ h₂ => h₂.fill hu k⟩

theorem SameHistory.startPumpFn (h : SameHistory c₀ c) (hu : c₀.Unpiped) (m : PumpMethod)
    (k : StartCalls) : SameHistory c₀ (startPumpFn m c k).1 := by
  cases m with
  | splicepump =>
    obtain ⟨ok, c₁, h₁, hst⟩ := h.stages hu k
    unfold Transocks.startPumpFn splicepumpStartPump
    simp only [hst]
    cases ok with
    | false => exact h₁.trans (SameHistory.splicepumpFree c₁)
    | true => exact h₁
  | bufferpump =>
    have hmark : SameHistory c₀ ((c.mapBev .client Bufferevent.forPump).mapBev .relay
        Bufferevent.forPump) := (h.mapBev .client _).mapBev .relay _
    have hst : Keeps (SameHistory c₀) (k.bevEnable .client && k.bevEnable .relay)
        (bufferpumpStages c k) := by
      refine Keeps.bind ?_ fun c₁ h₁ => ?_
      · cases k.bevEnable .client with
        | false => exact .error hmark rfl
        | true => exact .ok (hmark.mapBev .client _) rfl
      · cases k.bevEnable .relay with
        | false => exact .error h₁ rfl
        | true => exact .ok (h₁.mapBev .relay _) rfl
    obtain ⟨c₁, h₁, hst⟩ := hst
    unfold Transocks.startPumpFn bufferpumpStartPump
    simp only [hst]
    cases k.bevEnable .client && k.bevEnable .relay with
    | false => exact h₁
    | true => exact h₁

/-- A start, whether it succeeds or not, moves no byte. -/
theorem startPump_history {m : PumpMethod} {f : Side → ℕ} {b : Bufferevent}
    (h : Handshaking c f b) (hu : c.Unpiped) (k : StartCalls) :
    SameHistory c (afterStart (startPump m c k)) := by
  have hemit : SameHistory c (c.emits [.startPump b.input]) :=
    ⟨fun _ => rfl, fun _ => rfl, fun _ => rfl, fun _ => rfl⟩
  have hfn := hemit.startPumpFn hu m k
  rw [startPump_eq h]
  rcases hst : startPumpFn m (c.emits [.startPump b.input]) k with ⟨c₁, _ | _⟩
  · rw [hst] at hfn
    exact hfn.trans (SameHistory.clientFree c₁)
  · rw [hst] at hfn
    have hmark : SameHistory c₁ (c₁.touch fun c => { c with clientState := .pumpingData }) :=
      SameHistory.touch ⟨fun _ => rfl, fun _ => rfl, fun _ => rfl, fun _ => rfl⟩
    exact hfn.trans hmark

end Start

end Transocks

import Mathlib.Logic.Function.Basic
import Mathlib.Tactic

/-!
# The connection record and what the kernel and the event loop keep for it

`Conn` is one `transocks_client` together with everything that exists on its behalf outside the
record: the libevent objects it points to, the two kernel pipes of the splice pump, and the
history of the bytes that went through. A C function that takes a `transocks_client *` becomes a
function `Conn → Conn`. The calls it makes that other connections can notice (`close`, `pipe`,
`bufferevent_free`, `list_del`, `tr_free`) are appended, in the order of the source, to the list
`out`, which the world of all connections interprets.

The record keeps the source's fields. The fields that the source has once for the client and once
for the relay are gathered in `End`, and the ones it has once per pipe are indexed by
`Direction`: `c.ends .client` carries `client_fd`, `client_bev`, `client_shutdown_read` and
`client_shutdown_write`.
-/

namespace Transocks

abbrev Byte := UInt8

/-- A C `int` that holds a descriptor; negative when there is none. -/
abbrev Fd := ℤ

/-- `TRANSOCKS_BUFSIZE`. -/
def bufsize : ℕ := 4096

/-- `TRANSOCKS_IS_INVALID_FD`. -/
def isInvalidFd (fd : Fd) : Bool := fd == -1

theorem isInvalidFd_eq_false {fd : Fd} (h : 0 ≤ fd) : isInvalidFd fd = false := by
  unfold isInvalidFd
  rw [beq_eq_false_iff_ne]
  rintro rfl
  exact absurd h (by decide)

inductive Errno
  | eagain | ewouldblock | eintr | ebadf | enotconn | econnreset
  | other (n : ℕ)
  deriving DecidableEq, Repr

/-- `TRANSOCKS_IS_RETRIABLE`. -/
def isRetriable (e : Errno) : Bool := e == .eagain || e == .ewouldblock || e == .eintr

/-! ## `size_t` -/

def sizeModulus : ℕ := 2 ^ 64

/-- The conversion `(size_t) i` of an `int`. -/
def toSize (i : ℤ) : ℕ := (i % sizeModulus).toNat

def sizeAdd (a b : ℕ) : ℕ := (a + b) % sizeModulus

def sizeSub (a b : ℕ) : ℕ := (a + (sizeModulus - b)) % sizeModulus

theorem toSize_lt (i : ℤ) : toSize i < sizeModulus := by
  unfold toSize sizeModulus
  omega

theorem sizeAdd_eq {a b : ℕ} (h : a + b < sizeModulus) : sizeAdd a b = a + b :=
  Nat.mod_eq_of_lt h

theorem sizeSub_eq {a b : ℕ} (h : b ≤ a) (ha : a < sizeModulus) : sizeSub a b = a - b := by
  unfold sizeSub
  rw [show a + (sizeModulus - b) = (a - b) + sizeModulus by omega, Nat.add_mod_right]
  exact Nat.mod_eq_of_lt (by omega)

/-! ## Sides and directions -/

/-- The two sockets of a connection. -/
inductive Side
  | client | relay
  deriving DecidableEq, Repr

/-- `transocks_splicepump_data_direction`. -/
inductive Direction
  | inbound | outbound
  deriving DecidableEq, Repr

def Side.both {α : Type} (c r : α) : Side → α
  | .client => c
  | .relay => r

def Direction.both {α : Type} (i o : α) : Direction → α
  | .inbound => i
  | .outbound => o

def Side.other : Side → Side
  | .client => .relay
  | .relay => .client

/-- `inbound` runs from the relay to the client. -/
def Direction.source : Direction → Side
  | .inbound => .relay
  | .outbound => .client

def Direction.target : Direction → Side
  | .inbound => .client
  | .outbound => .relay

def Direction.other : Direction → Direction
  | .inbound => .outbound
  | .outbound => .inbound

@[simp] theorem Side.other_ne (s : Side) : s.other ≠ s := by cases s <;> decide

@[simp] theorem Side.ne_other (s : Side) : s ≠ s.other := by cases s <;> decide

@[simp] theorem Side.other_other (s : Side) : s.other.other = s := by cases s <;> rfl

theorem Side.eq_or_eq_other (s t : Side) : t = s ∨ t = s.other := by
  cases s <;> cases t <;> simp [Side.other]

@[simp] theorem Direction.other_ne (d : Direction) : d.other ≠ d := by cases d <;> decide

@[simp] theorem Direction.ne_other (d : Direction) : d ≠ d.other := by cases d <;> decide

@[simp] theorem Direction.other_source (d : Direction) : d.other.source = d.target := by
  cases d <;> rfl

@[simp] theorem Direction.other_target (d : Direction) : d.other.target = d.source := by
  cases d <;> rfl

@[simp] theorem Direction.source_other (d : Direction) : d.source.other = d.target := by
  cases d <;> rfl

@[simp] theorem Direction.source_ne_target (d : Direction) : d.source ≠ d.target := by
  cases d <;> decide

@[simp] theorem Direction.target_ne_source (d : Direction) : d.target ≠ d.source := by
  cases d <;> decide

theorem Direction.eq_or_eq_other (d e : Direction) : e = d ∨ e = d.other := by
  cases d <;> cases e <;> simp [Direction.other]

/-! ## The objects of libevent and of the kernel -/

/-- A `struct event`: whether it is added, and whether `event_active` made it active by hand. -/
structure Event where
  added : Bool
  active : Bool
  deriving DecidableEq, Repr

def Event.new : Event := ⟨false, false⟩

/-- `event_pending` for the events the loop waits for. -/
def Event.pending (e : Event) : Bool := e.added || e.active

/-- `TRANSOCKS_EVENT_ACTIVE`. -/
def Event.activate (e : Event) : Event := if e.pending then e else { e with active := true }

def Event.del (_ : Event) : Event := ⟨false, false⟩

inductive ReadCb
  | selectedMethod | connectReply | pump
  deriving DecidableEq, Repr

inductive EventCb
  | relayOnconnect | handshakeStageErr | pump
  deriving DecidableEq, Repr

/-- A socket bufferevent made with `BEV_OPT_CLOSE_ON_FREE`. The callbacks are named by the function
the source installs; `pump` stands for the callback of the buffer pump for that side. -/
structure Bufferevent where
  fd : Fd
  input : List Byte
  output : List Byte
  enRead : Bool
  enWrite : Bool
  readLow : ℕ
  readHigh : ℕ
  readcb : Option ReadCb
  writecb : Bool
  eventcb : Option EventCb
  deriving DecidableEq, Repr

/-- `bufferevent_socket_new`: only writing is enabled and no callback is set. -/
def Bufferevent.new (fd : Fd) : Bufferevent where
  fd := fd
  input := []
  output := []
  enRead := false
  enWrite := true
  readLow := 0
  readHigh := 0
  readcb := none
  writecb := false
  eventcb := none

/-- The bits `what` of a bufferevent event callback. -/
structure BevEvents where
  reading : Bool
  writing : Bool
  eof : Bool
  error : Bool
  connected : Bool
  deriving DecidableEq, Repr

/-- A kernel pipe with its history: `taken` is everything spliced in from the source socket,
`written` everything spliced out to the target socket. -/
structure Kern where
  content : List Byte
  readOpen : Bool
  writeOpen : Bool
  taken : List Byte
  written : List Byte
  deriving DecidableEq, Repr

/-- The state of a pipe that `pipe` has just returned. -/
def Kern.new : Kern := ⟨[], true, true, [], []⟩

def Kern.none : Kern := ⟨[], false, false, [], []⟩

/-- What one `splice` call did: the bytes it moved, none for a return value of `0`, or the
`errno` of a return value of `-1`. -/
inductive Splice
  | moved (bs : List Byte)
  | failed (e : Errno)
  deriving DecidableEq, Repr

/-! ## The record -/

inductive ClientState
  | new | relayConnected | socks5FinishHandshake | pumpingData | destroying | destroyed
  deriving DecidableEq, Repr

/-- The part of a `sockaddr_storage` that the program reads; the bytes are in network order. -/
inductive SockAddr
  | inet (addr : Vector Byte 4) (port : Vector Byte 2)
  | inet6 (addr : Vector Byte 16) (port : Vector Byte 2)
  | other (family : ℕ)
  deriving DecidableEq, Repr

inductive PumpMethod
  | splicepump | bufferpump
  deriving DecidableEq, Repr

/-- `transocks_splicepipe`. -/
structure Splicepipe where
  pipeReadfd : Fd
  pipeWritefd : Fd
  dataInPipe : ℕ
  capacity : ℕ
  deriving DecidableEq, Repr

/-- `transocks_splicepump`. `readEv d` is the event on the source socket of direction `d`
(`relay_read_ev` for `inbound`), `writeEv d` the event on the read end of its pipe
(`client_write_ev` for `inbound`). -/
structure Splicepump where
  readEv : Direction → Option Event
  writeEv : Direction → Option Event
  pipe : Direction → Splicepipe

/-- The fields of `transocks_client` that come in pairs, for one side. `rx` and `tx` are the bytes
libevent has read from and written to the socket through the bufferevent. -/
structure End where
  fd : Fd
  bev : Option Bufferevent
  shutRead : Bool
  shutWrite : Bool
  rx : List Byte
  tx : List Byte
  deriving DecidableEq, Repr

inductive Handle
  | sock (s : Side)
  | pipeRead (d : Direction)
  | pipeWrite (d : Direction)
  deriving DecidableEq, Repr

/-- The heap and libevent objects a connection can own. -/
inductive Obj
  | record | clientAddr | destAddr | timer | pump
  | bev (s : Side)
  | pipe (d : Direction)
  | readEv (d : Direction)
  | writeEv (d : Direction)
  deriving DecidableEq, Repr

inductive How
  | rd | wr | rdwr
  deriving DecidableEq, Repr

/-- What a step does that can be seen from outside the record. -/
inductive Effect
  /-- The kernel handed out the number `n`. -/
  | opened (h : Handle) (n : ℕ)
  /-- `close(fd)`, meant for `h`. -/
  | closed (h : Handle) (fd : Fd)
  | shutdown (s : Side) (fd : Fd) (how : How)
  | alloc (o : Obj)
  | free (o : Obj)
  /-- `bufferevent_free` on a bufferevent that holds `fd`; libevent closes `fd` later. -/
  | bevFree (s : Side) (fd : Fd)
  /-- `INIT_LIST_HEAD` on the record's entry. -/
  | listInit
  | listAddTail
  | listDel
  /-- `transocks_start_pump` was called with `left` in the relay's input buffer. -/
  | startPump (left : List Byte)
  /-- `transocks_client_free` was entered for a record that is already freed. -/
  | doubleFree
  /-- A field of a freed record was read or written. -/
  | useAfterFree
  /-- A null pointer, or a bufferevent that is already freed, was passed on to libevent or
  dereferenced. -/
  | badPointer
  deriving DecidableEq, Repr

/-- One `transocks_client`. `released` says that the record was passed to `tr_free`, `underway`
that `transocks_start_connect_relay` returned with the connection attempt in progress. -/
structure Conn where
  ends : Side → End
  timeoutEv : Option Event
  userArg : Option Splicepump
  clientState : ClientState
  clientAddr : Option SockAddr
  destAddr : Option SockAddr
  underway : Bool
  released : Bool
  kern : Direction → Kern
  out : List Effect

namespace Conn

def emits (c : Conn) (es : List Effect) : Conn := { c with out := c.out ++ es }

def setEnd (c : Conn) (s : Side) (e : End) : Conn := { c with ends := Function.update c.ends s e }

def setBev (c : Conn) (s : Side) (b : Option Bufferevent) : Conn :=
  c.setEnd s { c.ends s with bev := b }

def setKern (c : Conn) (d : Direction) (k : Kern) : Conn :=
  { c with kern := Function.update c.kern d k }

/-- Every function of the source that is handed a client first reads one of its fields. -/
def touch (c : Conn) (k : Conn → Conn) : Conn :=
  if c.released then c.emits [.useAfterFree] else k c

theorem touch_live {c : Conn} {k : Conn → Conn} (h : c.released = false) : c.touch k = k c := by
  unfold touch
  rw [h]
  rfl

section Frame

variable (c : Conn) (es : List Effect) (s : Side) (e : End) (d : Direction) (k : Kern)
  (b : Option Bufferevent)

@[simp] theorem emits_ends : (c.emits es).ends = c.ends := rfl
@[simp] theorem emits_timeoutEv : (c.emits es).timeoutEv = c.timeoutEv := rfl
@[simp] theorem emits_userArg : (c.emits es).userArg = c.userArg := rfl
@[simp] theorem emits_clientState : (c.emits es).clientState = c.clientState := rfl
@[simp] theorem emits_clientAddr : (c.emits es).clientAddr = c.clientAddr := rfl
@[simp] theorem emits_destAddr : (c.emits es).destAddr = c.destAddr := rfl
@[simp] theorem emits_underway : (c.emits es).underway = c.underway := rfl
@[simp] theorem emits_released : (c.emits es).released = c.released := rfl
@[simp] theorem emits_kern : (c.emits es).kern = c.kern := rfl
@[simp] theorem emits_out : (c.emits es).out = c.out ++ es := rfl

@[simp] theorem setEnd_same : (c.setEnd s e).ends s = e := Function.update_self ..

@[simp] theorem setEnd_timeoutEv : (c.setEnd s e).timeoutEv = c.timeoutEv := rfl
@[simp] theorem setEnd_userArg : (c.setEnd s e).userArg = c.userArg := rfl
@[simp] theorem setEnd_clientState : (c.setEnd s e).clientState = c.clientState := rfl
@[simp] theorem setEnd_clientAddr : (c.setEnd s e).clientAddr = c.clientAddr := rfl
@[simp] theorem setEnd_destAddr : (c.setEnd s e).destAddr = c.destAddr := rfl
@[simp] theorem setEnd_underway : (c.setEnd s e).underway = c.underway := rfl
@[simp] theorem setEnd_released : (c.setEnd s e).released = c.released := rfl
@[simp] theorem setEnd_kern : (c.setEnd s e).kern = c.kern := rfl
@[simp] theorem setEnd_out : (c.setEnd s e).out = c.out := rfl

theorem setEnd_ne {s t : Side} (h : t ≠ s) : (c.setEnd s e).ends t = c.ends t :=
  Function.update_of_ne h ..

@[simp] theorem setEnd_other : (c.setEnd s e).ends s.other = c.ends s.other :=
  setEnd_ne c e (Side.other_ne s)

@[simp] theorem setEnd_at_other : (c.setEnd s.other e).ends s = c.ends s :=
  setEnd_ne c e (Side.ne_other s)

@[simp] theorem setBev_same : (c.setBev s b).ends s = { c.ends s with bev := b } := setEnd_same ..

@[simp] theorem setBev_timeoutEv : (c.setBev s b).timeoutEv = c.timeoutEv := rfl
@[simp] theorem setBev_userArg : (c.setBev s b).userArg = c.userArg := rfl
@[simp] theorem setBev_clientState : (c.setBev s b).clientState = c.clientState := rfl
@[simp] theorem setBev_clientAddr : (c.setBev s b).clientAddr = c.clientAddr := rfl
@[simp] theorem setBev_destAddr : (c.setBev s b).destAddr = c.destAddr := rfl
@[simp] theorem setBev_underway : (c.setBev s b).underway = c.underway := rfl
@[simp] theorem setBev_released : (c.setBev s b).released = c.released := rfl
@[simp] theorem setBev_kern : (c.setBev s b).kern = c.kern := rfl
@[simp] theorem setBev_out : (c.setBev s b).out = c.out := rfl

theorem setBev_ne {s t : Side} (h : t ≠ s) : (c.setBev s b).ends t = c.ends t :=
  setEnd_ne c _ h

@[simp] theorem setBev_other : (c.setBev s b).ends s.other = c.ends s.other :=
  setBev_ne c b (Side.other_ne s)

@[simp] theorem setKern_same : (c.setKern d k).kern d = k := Function.update_self ..

@[simp] theorem setKern_other : (c.setKern d k).kern d.other = c.kern d.other :=
  Function.update_of_ne (Direction.other_ne d) ..

@[simp] theorem setKern_ends : (c.setKern d k).ends = c.ends := rfl
@[simp] theorem setKern_timeoutEv : (c.setKern d k).timeoutEv = c.timeoutEv := rfl
@[simp] theorem setKern_userArg : (c.setKern d k).userArg = c.userArg := rfl
@[simp] theorem setKern_clientState : (c.setKern d k).clientState = c.clientState := rfl
@[simp] theorem setKern_underway : (c.setKern d k).underway = c.underway := rfl
@[simp] theorem setKern_released : (c.setKern d k).released = c.released := rfl
@[simp] theorem setKern_out : (c.setKern d k).out = c.out := rfl

end Frame

end Conn

/-! ## The macros on descriptors and pointers -/

/-- `TRANSOCKS_CLOSE(fd)`: the call it makes. -/
def closeEffect (h : Handle) (fd : Fd) : List Effect := if 0 ≤ fd then [.closed h fd] else []

/-- `TRANSOCKS_CLOSE(fd)`: the value left in the lvalue it was given. -/
def closeResult (fd : Fd) : Fd := if 0 ≤ fd then -1 else fd

/-- `TRANSOCKS_FREE(free_fn, ptr)`: the call it makes. -/
def freeEffect {α : Type} (o : Obj) (p : Option α) : List Effect :=
  if p.isSome then [.free o] else []

/-- `TRANSOCKS_FREE(bufferevent_free, bev)`: the calls it makes. -/
def bevFreeEffect (s : Side) : Option Bufferevent → List Effect
  | none => []
  | some b => [.bevFree s b.fd, .free (.bev s)]

end Transocks

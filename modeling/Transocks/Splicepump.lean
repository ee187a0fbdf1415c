import Transocks.Context

/-!
# `splicepump.c`: the zero-copy pump

Each direction has a pipe. `writeToPipe` splices from the source socket into the pipe when the
source is readable, `readFromPipe` splices from the pipe to the target socket when the pipe is
readable. What `splice` does is the kernel's choice and comes in as an argument of type `Splice`;
the functions below apply it to the kernel pipe `c.kern d` and do what the source does next.

Both functions copy a pipe end into a local before they close it with `TRANSOCKS_CLOSE`, so the
number stays in the pipe record and `splicepumpFree` closes it once more.
-/

namespace Transocks

/-! ## Direction-indexed fields -/

namespace Splicepump

def setPipe (p : Splicepump) (d : Direction) (q : Splicepipe) : Splicepump :=
  { p with pipe := Function.update p.pipe d q }

def setReadEv (p : Splicepump) (d : Direction) (e : Option Event) : Splicepump :=
  { p with readEv := Function.update p.readEv d e }

def setWriteEv (p : Splicepump) (d : Direction) (e : Option Event) : Splicepump :=
  { p with writeEv := Function.update p.writeEv d e }

section Frame

variable (p : Splicepump) (d : Direction) (q : Splicepipe) (e : Option Event)

@[simp] theorem setPipe_same : (p.setPipe d q).pipe d = q := Function.update_self ..
@[simp] theorem setPipe_other : (p.setPipe d q).pipe d.other = p.pipe d.other :=
  Function.update_of_ne (Direction.other_ne d) ..
@[simp] theorem setPipe_readEv : (p.setPipe d q).readEv = p.readEv := rfl
@[simp] theorem setPipe_writeEv : (p.setPipe d q).writeEv = p.writeEv := rfl
@[simp] theorem setReadEv_same : (p.setReadEv d e).readEv d = e := Function.update_self ..
@[simp] theorem setReadEv_other : (p.setReadEv d e).readEv d.other = p.readEv d.other :=
  Function.update_of_ne (Direction.other_ne d) ..
@[simp] theorem setReadEv_pipe : (p.setReadEv d e).pipe = p.pipe := rfl
@[simp] theorem setReadEv_writeEv : (p.setReadEv d e).writeEv = p.writeEv := rfl
@[simp] theorem setWriteEv_same : (p.setWriteEv d e).writeEv d = e := Function.update_self ..
@[simp] theorem setWriteEv_other : (p.setWriteEv d e).writeEv d.other = p.writeEv d.other :=
  Function.update_of_ne (Direction.other_ne d) ..
@[simp] theorem setWriteEv_pipe : (p.setWriteEv d e).pipe = p.pipe := rfl
@[simp] theorem setWriteEv_readEv : (p.setWriteEv d e).readEv = p.readEv := rfl

end Frame

end Splicepump

namespace Conn

/-- The read-EOF flag of the source of `d`: `relay_shutdown_read` for `inbound`. -/
def readFlag (c : Conn) (d : Direction) : Bool := (c.ends d.source).shutRead

/-- The write-EOF flag of the target of `d`: `client_shutdown_write` for `inbound`. -/
def writeFlag (c : Conn) (d : Direction) : Bool := (c.ends d.target).shutWrite

def setReadFlag (c : Conn) (d : Direction) : Conn :=
  c.setEnd d.source { c.ends d.source with shutRead := true }

def setWriteFlag (c : Conn) (d : Direction) : Conn :=
  c.setEnd d.target { c.ends d.target with shutWrite := true }

def setPump (c : Conn) (p : Splicepump) : Conn := { c with userArg := some p }

end Conn

/-! ## One `splice` call -/

/-- `transocks_splicepump_splice_result`; `normalTransfer` carries `*transfered_bytes`. -/
inductive SpliceResult
  | normalTransfer (n : ℕ)
  | canRetry
  | fatalFailure
  | readEof
  deriving DecidableEq, Repr

/-- `transocks_single_splice`, from what the system call returned. -/
def singleSplice : Splice → SpliceResult
  | .failed e => if isRetriable e then .canRetry else .fatalFailure
  | .moved bs => if bs.length = 0 then .readEof else .normalTransfer bs.length

/-- The kernel's part of a splice from the source socket into the pipe. -/
def Kern.spliceIn (k : Kern) : Splice → Kern
  | .moved bs => { k with content := k.content ++ bs, taken := k.taken ++ bs }
  | .failed _ => k

/-- The kernel's part of a splice from the pipe to the target socket. -/
def Kern.spliceOut (k : Kern) : Splice → Kern
  | .moved bs => { k with content := k.content.drop bs.length, written := k.written ++ bs }
  | .failed _ => k

/-! ## Teardown -/

/-- The close and free calls for one pipe record. -/
def pipeFreeEffects (d : Direction) (q : Splicepipe) : List Effect :=
  closeEffect (.pipeWrite d) q.pipeWritefd ++ closeEffect (.pipeRead d) q.pipeReadfd ++
    [.free (.pipe d)]

/-- The calls `transocks_splicepump_free` makes before it calls `transocks_client_free`. -/
def splicepumpFreeEffects (p : Splicepump) : List Effect :=
  pipeFreeEffects .inbound (p.pipe .inbound) ++ pipeFreeEffects .outbound (p.pipe .outbound) ++
  freeEffect (.readEv .outbound) (p.readEv .outbound) ++
  freeEffect (.writeEv .inbound) (p.writeEv .inbound) ++
  freeEffect (.readEv .inbound) (p.readEv .inbound) ++
  freeEffect (.writeEv .outbound) (p.writeEv .outbound) ++
  [.free .pump]

/-- The pump record as the teardown leaves it. -/
def Splicepump.freed (p : Splicepump) : Splicepump where
  readEv := fun _ => none
  writeEv := fun _ => none
  pipe := fun d => { p.pipe d with
    pipeReadfd := closeResult (p.pipe d).pipeReadfd
    pipeWritefd := closeResult (p.pipe d).pipeWritefd }

/-- The client just before `transocks_splicepump_free` hands it to `transocks_client_free`. -/
def splicepumpUnwound (c : Conn) (p : Splicepump) : Conn :=
  { c with
    userArg := some p.freed
    kern := fun d => { c.kern d with readOpen := false, writeOpen := false }
    out := c.out ++ splicepumpFreeEffects p }

/-- `transocks_splicepump_free`. Without a pump attached it returns and frees nothing. -/
def splicepumpFree (c : Conn) : Conn :=
  c.touch fun c =>
    match c.userArg with
    | none => c
    | some p => clientFree (splicepumpUnwound c p)

/-- `transocks_on_fatal_failure`. -/
def onFatalFailure (c : Conn) : Conn := splicepumpFree c

/-- The test of `transocks_check_normal_termination`. -/
def normalTermination (c : Conn) (d : Direction) : Bool :=
  if isInvalidFd (c.ends .client).fd || isInvalidFd (c.ends .relay).fd then true
  else c.readFlag d && c.writeFlag d

/-- `transocks_check_normal_termination`. -/
def checkNormalTermination (c : Conn) (d : Direction) : Conn :=
  c.touch fun c => if normalTermination c d then splicepumpFree c else c

/-! ## The callbacks -/

/-- The end-of-file branch of `transocks_write_to_pipe`. The record keeps the closed number. -/
def writeToPipeEof (c : Conn) (d : Direction) (p : Splicepump) : Conn :=
  (((c.setReadFlag d).setKern d { c.kern d with writeOpen := false }).setPump
    (p.setReadEv d ((p.readEv d).map Event.del))).emits
      ([.shutdown d.source (c.ends d.source).fd .rd] ++
        closeEffect (.pipeWrite d) (p.pipe d).pipeWritefd)

/-- The part of `transocks_write_to_pipe` after the `splice` call. -/
def writeToPipeRest (c : Conn) (d : Direction) (p : Splicepump) : SpliceResult → Conn
  | .normalTransfer n =>
    checkNormalTermination (c.setPump (p.setPipe d
      { p.pipe d with dataInPipe := sizeAdd (p.pipe d).dataInPipe n })) d
  | .canRetry =>
    -- pipe has data, should clear as soon as possible
    if !isInvalidFd (c.ends d.target).fd && 0 < (p.pipe d).dataInPipe then
      checkNormalTermination (c.setPump (p.setWriteEv d ((p.writeEv d).map Event.activate))) d
    else checkNormalTermination c d
  | .fatalFailure => onFatalFailure c
  | .readEof => checkNormalTermination (writeToPipeEof c d p) d

/-- `transocks_write_to_pipe`, the callback of the event on the source socket. -/
def writeToPipe (c : Conn) (d : Direction) (k : Splice) : Conn :=
  c.touch fun c =>
    match c.userArg with
    | none => c.emits [.badPointer]
    | some p =>
      if isInvalidFd (c.ends d.source).fd || isInvalidFd (p.pipe d).pipeWritefd then
        onFatalFailure c
      else writeToPipeRest (c.setKern d ((c.kern d).spliceIn k)) d p (singleSplice k)

/-- The end-of-file branch of `transocks_read_from_pipe`. The record keeps the closed number. -/
def readFromPipeEof (c : Conn) (d : Direction) (p : Splicepump) : Conn :=
  ((c.setWriteFlag d).setKern d { c.kern d with readOpen := false }).emits
    ([.shutdown d.target (c.ends d.target).fd .wr] ++
      closeEffect (.pipeRead d) (p.pipe d).pipeReadfd)

/-- The part of `transocks_read_from_pipe` after the `splice` call. -/
def readFromPipeRest (c : Conn) (d : Direction) (p : Splicepump) : SpliceResult → Conn
  | .normalTransfer n =>
    checkNormalTermination (c.setPump (p.setPipe d
      { p.pipe d with dataInPipe := sizeSub (p.pipe d).dataInPipe n })) d
  | .canRetry => checkNormalTermination c d
  | .fatalFailure => onFatalFailure c
  | .readEof => checkNormalTermination (readFromPipeEof c d p) d

/-- `transocks_read_from_pipe`, the callback of the event on the read end of the pipe. -/
def readFromPipe (c : Conn) (d : Direction) (k : Splice) : Conn :=
  c.touch fun c =>
    match c.userArg with
    | none => c.emits [.badPointer]
    | some p =>
      if isInvalidFd (p.pipe d).pipeReadfd || isInvalidFd (c.ends d.target).fd then
        onFatalFailure c
      else readFromPipeRest (c.setKern d ((c.kern d).spliceOut k)) d p (singleSplice k)

/-- `transocks_splicepump_client_readcb`. -/
def splicepumpClientReadcb (c : Conn) (k : Splice) : Conn := writeToPipe c .outbound k

/-- `transocks_splicepump_relay_writecb`. -/
def splicepumpRelayWritecb (c : Conn) (k : Splice) : Conn := readFromPipe c .outbound k

/-- `transocks_splicepump_relay_readcb`. -/
def splicepumpRelayReadcb (c : Conn) (k : Splice) : Conn := writeToPipe c .inbound k

/-- `transocks_splicepump_client_writecb`. -/
def splicepumpClientWritecb (c : Conn) (k : Splice) : Conn := readFromPipe c .inbound k

/-! ## Starting -/

/-- The results of the calls made for one pipe: the two numbers `pipe` returned, whether
`setnonblocking` succeeded on each end, and what `fcntl(F_GETPIPE_SZ)` returned. -/
structure PipeCalls where
  pipe : Option (ℕ × ℕ)
  nonblockRead : Bool
  nonblockWrite : Bool
  pipesz : ℤ
  deriving DecidableEq, Repr

/-- The results of the calls made while a pump starts, `true` for success. -/
structure StartCalls where
  bevDisable : Side → Bool
  mallocPump : Bool
  mallocPipe : Direction → Bool
  pipe : Direction → PipeCalls
  newReadEv : Direction → Bool
  newWriteEv : Direction → Bool
  addReadEv : Direction → Bool
  addWriteEv : Direction → Bool
  bevEnable : Side → Bool

def Bufferevent.disable (b : Bufferevent) : Bufferevent :=
  { b with enRead := false, enWrite := false }

def Bufferevent.setfd (b : Bufferevent) (fd : Fd) : Bufferevent := { b with fd := fd }

namespace Conn

def mapBev (c : Conn) (s : Side) (f : Bufferevent → Bufferevent) : Conn :=
  c.setBev s ((c.ends s).bev.map f)

def modPump (c : Conn) (f : Splicepump → Splicepump) : Conn := { c with userArg := c.userArg.map f }

end Conn

/-- A step of a start function: `error` carries the state in which it jumps to its label `fail`. -/
abbrev Stage := Except Conn Conn

def bevDisableStage (c : Conn) (s : Side) (ok : Bool) : Stage :=
  if ok then .ok (c.mapBev s Bufferevent.disable) else .error c

/-- The record `transocks_splicepump_new` builds; `tr_malloc` leaves `capacity` unset. -/
def Splicepump.new : Splicepump where
  readEv := fun _ => none
  writeEv := fun _ => none
  pipe := fun _ => ⟨-1, -1, 0, 0⟩

/-- `transocks_splicepump_new`. The pump is attached to the client only when all three records
could be allocated. -/
def splicepumpNew (c : Conn) (k : StartCalls) : Stage :=
  if !k.mallocPump then .error c
  else if !k.mallocPipe .inbound then .error (c.emits [.alloc .pump])
  else if !k.mallocPipe .outbound then .error (c.emits [.alloc .pump, .alloc (.pipe .inbound)])
  else .ok ((c.setPump Splicepump.new).emits
    [.alloc .pump, .alloc (.pipe .inbound), .alloc (.pipe .outbound)])

/-- `createpipe` on the two fields of the pipe record of `d`. The numbers reach the record only
after both ends are non-blocking. -/
def createpipe (c : Conn) (d : Direction) (k : PipeCalls) : Stage :=
  match k.pipe with
  | none => .error c
  | some (r, w) =>
    if k.nonblockRead && k.nonblockWrite then
      .ok (((c.modPump fun p =>
        p.setPipe d { p.pipe d with pipeReadfd := r, pipeWritefd := w }).setKern d Kern.new).emits
          [.opened (.pipeRead d) r, .opened (.pipeWrite d) w])
    else .error (c.emits [.opened (.pipeRead d) r, .opened (.pipeWrite d) w])

/-- `getpipesize` and the assignment of its result to `capacity`. -/
def pipesizeStage (c : Conn) (d : Direction) (k : PipeCalls) : Stage :=
  if k.pipesz = -1 then .error c
  else .ok (c.modPump fun p => p.setPipe d { p.pipe d with capacity := toSize k.pipesz })

def newReadEvStage (c : Conn) (d : Direction) (ok : Bool) : Stage :=
  if ok then .ok ((c.modPump fun p => p.setReadEv d (some Event.new)).emits [.alloc (.readEv d)])
  else .error c

def newWriteEvStage (c : Conn) (d : Direction) (ok : Bool) : Stage :=
  if ok then .ok ((c.modPump fun p => p.setWriteEv d (some Event.new)).emits [.alloc (.writeEv d)])
  else .error c

def addReadEvStage (c : Conn) (d : Direction) (ok : Bool) : Stage :=
  if ok then
    .ok (c.modPump fun p => p.setReadEv d ((p.readEv d).map fun e => { e with added := true }))
  else .error c

def addWriteEvStage (c : Conn) (d : Direction) (ok : Bool) : Stage :=
  if ok then
    .ok (c.modPump fun p => p.setWriteEv d ((p.writeEv d).map fun e => { e with added := true }))
  else .error c

/-- The first part of `transocks_splicepump_start_pump`: both bufferevents give up the sockets. -/
def splicepumpTakeFds (c : Conn) (k : StartCalls) : Stage := do
  let c ← bevDisableStage c .client (k.bevDisable .client)
  let c ← bevDisableStage c .relay (k.bevDisable .relay)
  -- drop fd, we take the responsibility
  return (c.mapBev .client (·.setfd (-1))).mapBev .relay (·.setfd (-1))

/-- The part of `transocks_splicepump_start_pump` after the pump record is attached. -/
def splicepumpFill (c : Conn) (k : StartCalls) : Stage := do
  let c ← createpipe c .inbound (k.pipe .inbound)
  let c ← createpipe c .outbound (k.pipe .outbound)
  let c ← pipesizeStage c .inbound (k.pipe .inbound)
  let c ← pipesizeStage c .outbound (k.pipe .outbound)
  let c ← newReadEvStage c .outbound (k.newReadEv .outbound)
  let c ← newWriteEvStage c .inbound (k.newWriteEv .inbound)
  let c ← newReadEvStage c .inbound (k.newReadEv .inbound)
  let c ← newWriteEvStage c .outbound (k.newWriteEv .outbound)
  -- start both side read
  let c ← addReadEvStage c .outbound (k.addReadEv .outbound)
  let c ← addWriteEvStage c .inbound (k.addWriteEv .inbound)
  let c ← addReadEvStage c .inbound (k.addReadEv .inbound)
  addWriteEvStage c .outbound (k.addWriteEv .outbound)

def splicepumpStages (c : Conn) (k : StartCalls) : Stage := do
  let c ← splicepumpTakeFds c k
  let c ← splicepumpNew c k
  splicepumpFill c k

/-- `transocks_splicepump_start_pump`; `true` for the return value `0`. -/
def splicepumpStartPump (c : Conn) (k : StartCalls) : Conn × Bool :=
  match splicepumpStages c k with
  | .ok c => (c, true)
  | .error c => (splicepumpFree c, false)

end Transocks

import Transocks.Loop
import Transocks.Lib.Run
import Transocks.Lib.Fifo
import Transocks.SpliceSteps
import Transocks.SpliceFlow
import Transocks.Handover
import Transocks.SpliceEof
import Transocks.SpliceLive
import Transocks.BufferFlow
import Transocks.CopySteps
import Transocks.BufferBytes
import Transocks.BufferClose
import Transocks.Phases
import Transocks.Starts
import Transocks.PhaseSteps
import Transocks.AcceptSteps
import Transocks.Lib.Circular
import Transocks.Lib.Handles
import Transocks.World
import Transocks.Clients
import Transocks.Roster
import Transocks.SocketCloses
import Transocks.Held
import Transocks.Descriptors
import Transocks.Unwind
import Transocks.Lib.Watermark
import Transocks.Handshake
import Transocks.History
import Transocks.Lifetime
import Transocks.BufferBound
import Transocks.Wire
import Transocks.HandshakeTimer
import Transocks.Lib.Ledger
import Transocks.Ownership
import Transocks.Leaks
import Transocks.Projection
import Transocks.Lib.Duplex
import Transocks.Streams
import Transocks.Refinement
import Transocks.WindDown
import Transocks.Settlement
import Transocks.Accounted
import Transocks.Lib.Tenure
import Transocks.Environment
import Transocks.Main
import Transocks.Dump
import Transocks.Process

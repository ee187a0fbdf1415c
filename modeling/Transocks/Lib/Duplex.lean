import Transocks.Lib.Fifo
import Transocks.Lib.Run

/-!
# What a relay between peers is for

A relay passes the bytes of each peer on to the other one, in order. A `Channel` is what it does for
one peer: a `Fifo` of the bytes, whether the peer has ended its stream, and whether the receiver was
told. `kept` is what was already under way when the channel was opened.

The receiver is told of the end only when the peer has ended its stream, and then everything was
delivered or nothing came after the opening, unless the receiver itself refuses to take more. This
is part of the type (`Channel.told`), so a channel that closes too early cannot be built.

A relay waits until it knows whom to talk to, then its channels flow, and it stops at any time.
-/

namespace Duplex

open Runs

/-- The bytes of one peer. -/
structure Channel (α : Type*) where
  kept : List α
  queue : Fifo α
  ended : Bool
  closed : Bool
  refused : Bool
  opened : kept <+: queue.taken
  told : closed = true → refused = true ∨ (ended = true ∧ (queue.held = [] ∨ queue.taken = kept))

variable {α ι : Type*}

namespace Channel

/-- A channel with `kept` already under way. -/
def start (kept : List α) : Channel α where
  kept := kept
  queue := Fifo.start kept
  ended := false
  closed := false
  refused := false
  opened := List.prefix_rfl
  told := fun h => absurd h (by decide)

/-- The peer sends `bs`. -/
def take (ch : Channel α) (bs : List α) (he : ch.ended = false) : Channel α :=
  { ch with
    queue := ch.queue.push bs
    opened := ch.opened.trans (List.prefix_append ..)
    told := fun h => (ch.told h).imp_right fun h => absurd (he.symm.trans h.1) (by decide) }

/-- The receiver gets the next `n`. -/
def give (ch : Channel α) (n : ℕ) (hc : ch.closed = false) : Channel α :=
  { ch with
    queue := ch.queue.pull n
    opened := ch.opened
    told := fun h => absurd (hc.symm.trans h) (by decide) }

/-- The peer ends its stream. -/
def finish (ch : Channel α) : Channel α :=
  { ch with
    ended := true
    told := fun h => (ch.told h).imp_right fun h => ⟨rfl, h.2⟩ }

/-- The receiver is told of the end. -/
def shut (ch : Channel α) (he : ch.ended = true)
    (hh : ch.queue.held = [] ∨ ch.queue.taken = ch.kept) : Channel α :=
  { ch with
    closed := true
    told := fun _ => .inr ⟨he, hh⟩ }

/-- The receiver takes no more. -/
def refuse (ch : Channel α) : Channel α :=
  { ch with
    closed := true
    refused := true
    told := fun _ => .inl rfl }

end Channel

/-- What can happen on a channel. -/
inductive Move (α : Type*)
  | take (bs : List α)
  | give (n : ℕ)
  | finish
  | shut
  | refuse

inductive Channel.Step (ch : Channel α) : Move α → Channel α → Prop
  | take (bs : List α) (he : ch.ended = false) : Step ch (.take bs) (ch.take bs he)
  | give (n : ℕ) (hc : ch.closed = false) : Step ch (.give n) (ch.give n hc)
  | finish : Step ch .finish ch.finish
  | shut (he : ch.ended = true) (hh : ch.queue.held = [] ∨ ch.queue.taken = ch.kept) :
    Step ch .shut (ch.shut he hh)
  | refuse : Step ch .refuse ch.refuse

inductive State (ι α : Type*)
  | waiting
  | flowing (ch : ι → Channel α)
  | stopped (last : Option (ι → Channel α))

inductive Act (ι α : Type*)
  | start (kept : ι → List α)
  | move (i : ι) (mv : Move α)
  | stop

inductive Step [DecidableEq ι] : State ι α → Act ι α → State ι α → Prop
  | start (kept : ι → List α) :
    Step .waiting (.start kept) (.flowing fun i => Channel.start (kept i))
  | move {ch : ι → Channel α} {i : ι} {mv : Move α} {x : Channel α} (h : (ch i).Step mv x) :
    Step (.flowing ch) (.move i mv) (.flowing (Function.update ch i x))
  | giveUp : Step .waiting .stop (.stopped none)
  | stop (ch : ι → Channel α) : Step (.flowing ch) .stop (.stopped (some ch))

theorem Channel.delivered_prefix (ch : Channel α) {sent : List α}
    (h : ch.queue.taken = ch.kept ++ sent) : ch.queue.delivered <+: ch.kept ++ sent := by
  rw [← h]
  exact ch.queue.delivered_prefix

/-- A receiver that was told of the end has everything, or nothing came after the opening. -/
theorem Channel.complete (ch : Channel α) (hc : ch.closed = true) (hr : ch.refused = false) :
    ch.queue.delivered = ch.queue.taken ∨ ch.queue.taken = ch.kept := by
  obtain ⟨-, hh⟩ := (ch.told hc).resolve_left (by rw [hr]; decide)
  exact hh.imp_left ch.queue.delivered_eq_taken

end Duplex

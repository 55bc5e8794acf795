import DeadLetter.Service.Visibility

/-!
# Listeners

A listener receives batches of messages and hands each to a handler. A message that was accepted is deleted, one that
was rejected is hidden for its backoff time. `run` polls until the listener is told to stop, which it looks at before
each batch only; after a receive that failed it pauses for a second.
-/

namespace DeadLetter

set_option autoImplicit false

open Attempt

/-- A queue, the handler of its messages and the size of batches. -/
structure Listener where
  queue : QueueHandle
  accepts : Received → Bool
  backoff : BackoffPolicy
  limit : Int := 10
  wait : Int := 20

/-- How far a listener has come: polls made, messages handled, milliseconds paused. -/
structure Progress where
  polls : Nat := 0
  handled : Nat := 0
  paused : Nat := 0
deriving DecidableEq, Repr

namespace Listener

/-- Receives a batch, with the URL it came from. -/
def receive (l : Listener) : Attempt (String × List Received) := do
  let url ← l.queue.url
  let batch ← call (.receiveUpTo url l.limit l.wait)
  return (url, batch)

/-- Hands a batch to the handler, message by message, and deletes or hides each. -/
def process (l : Listener) (url : String) : List Received → Routine Unit
  | [] => return ()
  | m :: ms => do
    if l.accepts m then
      let _ ← (call (.delete url m.handle)).result
    else
      let _ ← l.queue.hideFailed l.backoff m
    l.process url ms

/-- Receives and processes one batch, and returns it. -/
def pollOnce (l : Listener) : Attempt (List Received) := do
  let (url, batch) ← l.receive
  ExceptT.lift (l.process url batch)
  return batch

def countAccepted (l : Listener) (batch : List Received) : Nat := batch.countP l.accepts

/-- Processes a batch, counting the messages that the handler accepts on from `handled`. -/
def processCounting (l : Listener) (url : String) : List Received → Nat → Routine Nat
  | [], handled => return handled
  | m :: ms, handled => do
    if l.accepts m then
      let _ ← (call (.delete url m.handle)).result
      l.processCounting url ms (handled + 1)
    else
      let _ ← l.queue.hideFailed l.backoff m
      l.processCounting url ms handled

/-- Receives and processes one batch, and returns how many messages the handler accepted. -/
def poll (l : Listener) : Attempt Nat := do
  let (url, batch) ← l.receive
  ExceptT.lift (l.processCounting url batch 0)

/-- Polls until told to stop, at most `polls` times. Returns what was handed to the handler, and whether the listener
stopped. -/
def run (l : Listener) (stops : Progress → Bool) : Nat → Progress → Routine (List Received × Bool)
  | 0, at_ => return ([], stops at_)
  | polls + 1, at_ => do
    if stops at_ then return ([], true)
    match ← l.pollOnce.result with
    | .error _ => l.run stops polls { at_ with polls := at_.polls + 1, paused := at_.paused + 1000 }
    | .ok batch =>
      let (handled, stopped) ←
        l.run stops polls { at_ with polls := at_.polls + 1, handled := at_.handled + batch.length }
      return (batch ++ handled, stopped)

end Listener

end DeadLetter

import RecordCache.Json

/-!
Timers that run an action once their delay is over.
-/

namespace RecordCache

structure Timer where
  delay : Json
  queue : Nat
  cancelled : Bool := false
  fired : Bool := false

/-- Every timer that was ever armed, in order. -/
abbrev Timers := List Timer

namespace Timers

def isLive (t : Timer) : Bool := !t.cancelled && !t.fired

def arm (ts : Timers) (delay : Json) (queue : Nat) : Timers := ts ++ [{ delay := delay, queue := queue }]

def cancel (ts : Timers) (n : Nat) : Timers := ts.modify n fun t => { t with cancelled := true }

def fire (ts : Timers) (n : Nat) : Timers := ts.modify n fun t => { t with fired := true }

def live (ts : Timers) : List Nat := (List.range ts.length).filter fun n => ts[n]?.any isLive

def liveDelays (ts : Timers) : List Json := (ts.filter isLive).map (·.delay)

end Timers

end RecordCache

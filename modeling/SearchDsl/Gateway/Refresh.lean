import SearchDsl.Gateway

/-!
# Refresh events

Mappings and settings change by events. Each one takes effect as a whole, and then the default
projection of its index is computed anew; settings that are not valid are ignored.

Events wait in a queue of limited capacity until the refresh task takes them out one by one. Once
the task has stopped, nothing is queued any more.
-/

namespace SearchDsl

/-- A change of the mapping or the settings of an index. -/
inductive RefreshEvent
  | mappingChanged (index : String) (mapping : Mapping)
  | settingsChanged (index : String) (settings : Settings)
  | indexRemoved (index : String)

namespace Gateway

/-- The gateway with a new mapping of an index. -/
def publish (g : Gateway) (index : String) (mapping : Mapping) : Snapshot × Gateway :=
  let (s, mappings) := g.mappings.publish index mapping
  (s, { g with mappings := mappings })

/-- The gateway after an event. -/
def apply (g : Gateway) : RefreshEvent → Gateway
  | .mappingChanged index mapping =>
    let (s, g) := g.publish index mapping
    { g with cache := (g.cache.refresh s (g.settings.get index)).2 }
  | .settingsChanged index settings =>
    if !settings.isValid then g
    else
      let cache := match g.mappings.get? index with
        | some s => (g.cache.refresh s settings).2
        | none => g.cache.invalidate index g.mappings.generation
      { g with settings := g.settings.set index settings, cache := cache }
  | .indexRemoved index =>
    let mappings := g.mappings.remove index
    { g with
      mappings := mappings
      settings := g.settings.erase index
      cache := g.cache.invalidate index mappings.generation }

/-- The gateway after the refresh task has taken an event out of the queue. -/
def handle (g : Gateway) (e : RefreshEvent) : Gateway :=
  let g := g.apply e
  { g with counters := g.counters.map Counters.afterRefresh }

end Gateway

/-- The queue of events that wait for the refresh task, unless the task has stopped. -/
structure RefreshQueue where
  waiting : List RefreshEvent
  stopped : Bool

namespace RefreshQueue

/-- How many events may wait. -/
def capacity : Nat := 64

/-- Nothing waits. -/
def empty : RefreshQueue := ⟨[], false⟩

/-- Queues an event if there is space at once. -/
def trySend (q : RefreshQueue) (e : RefreshEvent) : Except Error Unit × RefreshQueue :=
  if q.stopped then (.error (.badConfig .queueClosed), q)
  else if capacity ≤ q.waiting.length then (.error (.badConfig .queueFull), q)
  else (.ok (), { q with waiting := q.waiting ++ [e] })

/-- Queues an event, however long it has to wait for space. -/
def send (q : RefreshQueue) (e : RefreshEvent) : Except Error Unit × RefreshQueue :=
  if q.stopped then (.error (.badConfig .refreshStopped), q)
  else (.ok (), { q with waiting := q.waiting ++ [e] })

/-- The gateway after all waiting events have been taken out. -/
def drain (q : RefreshQueue) (g : Gateway) : Gateway := q.waiting.foldl Gateway.handle g

end RefreshQueue
end SearchDsl

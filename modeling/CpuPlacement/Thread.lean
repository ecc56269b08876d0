/-!
# Threads

Locks and memberships belong to threads. A thread is known by its id, which is never given to
another thread, and whether it is alive is asked anew each time: an entry of a thread that has ended
stays where it is until somebody comes across it.

The roster is the list of the threads that have been started so far.
-/

set_option autoImplicit false

namespace CpuPlacement

/-- The identity of a thread. -/
structure ThreadId where
  number : Nat
deriving DecidableEq, Hashable, Repr

/-- A thread that has been started. -/
structure Thread where
  name : Option String
  alive : Bool
deriving DecidableEq, Repr

/-- The threads that have been started, in that order; their ids count from 1. -/
structure Roster where
  threads : List Thread := []
deriving Repr

namespace Roster

def thread? (r : Roster) (id : ThreadId) : Option Thread :=
  if id.number = 0 then none else r.threads[id.number - 1]?

/-- The thread is running. -/
def alive (r : Roster) (id : ThreadId) : Bool :=
  (r.thread? id).any (·.alive)

/-- Starts a thread. -/
def start (r : Roster) (name : Option String) : ThreadId × Roster :=
  (⟨r.threads.length + 1⟩, ⟨r.threads ++ [⟨name, true⟩]⟩)

/-- Ends a thread. -/
def finish (r : Roster) (id : ThreadId) : Roster :=
  ⟨r.threads.mapIdx fun i thread =>
    if i + 1 = id.number then { thread with alive := false } else thread⟩

/-- The text of a thread: its name, or its id where it has none. -/
def text (r : Roster) (id : ThreadId) : String :=
  match (r.thread? id).bind (·.name) with
  | some name => s!"Thread[{name}]"
  | none => s!"Thread[ThreadId({id.number})]"

end Roster

end CpuPlacement

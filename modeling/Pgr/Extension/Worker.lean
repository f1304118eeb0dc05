import Pgr.Extension.Hooks

/-!
# The capture worker

`channel_worker_main` of `channel.c` for the capture channel.  The worker keeps
its file and the generation it has seen in static variables of its process.  A
file is named by the capture id in its path and holds the messages written to
it; opening a path that exists empties it.  A pop that finds nothing, ready or
not, ends `write_events`.
-/

namespace Pgr.Worker

open Pgr.Shmem Pgr.Hooks

/-- Where `write_events` was called: in the loop, in the branch of a stopped
channel that closes the file next, or behind the loop. -/
inductive Caller where
  | loop
  | stopped
  | shutdown
  deriving DecidableEq

/-- The next step of the worker.  `popped` and `opening` hold a message that was
popped while no file was open. -/
inductive Pc where
  | exited
  | top
  | writeEvents (caller : Caller)
  | popped (entry : Entry) (caller : Caller)
  | opening (entry : Entry) (caller : Caller)
  deriving DecidableEq

structure CaptureWorker where
  file : Option UInt32
  workerGeneration : UInt32
  pc : Pc

/-- A fresh worker process. -/
def CaptureWorker.spawn : CaptureWorker :=
  ⟨none, 0, .top⟩

/-- The files of the capture directory by id. -/
abbrev Files := UInt32 → List Entry

/-- `open_file`: the path is that of the id published last. -/
def openFile (c : SharedMemory) (w : CaptureWorker) (files : Files) : CaptureWorker × Files :=
  ({ w with file := some c.id }, Function.update files c.id [])

def fwrite (id : UInt32) (entry : Entry) (files : Files) : Files :=
  Function.update files id (files id ++ [entry])

/-- The top of the loop of `channel_worker_main`. -/
def loopTop (c : SharedMemory) (w : CaptureWorker) : CaptureWorker :=
  if w.workerGeneration ≠ c.generation then
    { w with file := none, workerGeneration := c.generation, pc := .writeEvents .loop }
  else if c.running = false ∧ w.file.isSome then { w with pc := .writeEvents .stopped }
  else { w with pc := .writeEvents .loop }

/-- The end of `write_events`; in the loop the worker may call it once more
before it starts over. -/
def eventsDone (again : Bool) (caller : Caller) (w : CaptureWorker) : CaptureWorker :=
  match caller with
  | .loop => if again then w else { w with pc := .top }
  | .stopped => { w with file := none, pc := .writeEvents .loop }
  | .shutdown => { w with file := none, pc := .exited }

end Pgr.Worker

import Pgr.Replay.Loop

/-!
# The two threads of a replay

`manager.rs` reads the capture and pushes commands into a bounded channel; `run` of
`loop.rs` takes them out in a thread of its own, which sleeps in `poll` between its
rounds.  A waker ends the sleep.  `Sink` rings it once for `WAKE_BATCH` commands, before
it waits for room in the channel, and when the capture is read.

A step is what a thread does between two looks at what the threads share: the channel,
the waker, and whether the other thread is gone.  `rx` of the loop is what the channel
holds.  `messages` is what `read_event` still returns before the end of the capture or its
first error, and the scaling of a time by the floating-point `speed` is the parameter
`scaled`.  `pushed` is a history variable.
-/

namespace Pgr.Handoff

open Pgr.Capture Pgr.Manager Pgr.Client Pgr.Loop Pgr.Loop.ReplayLoop

def wakeBatch : ℕ := 128

def queueCap : ℕ := 16384

/-! ## The reading thread -/

/-- What `wake` was called from. -/
inductive Behind where
  | batch (cmds : List ConnCommand)
  | full (cmd : ConnCommand) (cmds : List ConnCommand)
  | reader

/-- Where the reading thread is; `cmds` is what is left of the commands of an event. -/
inductive ManagerPc where
  | reading
  | pushing (cmds : List ConnCommand)
  | waking (behind : Behind)
  /-- In `send`, which waits for room. -/
  | sending (cmd : ConnCommand) (cmds : List ConnCommand)
  | dropping
  | done

structure Manager where
  pc : ManagerPc
  messages : List CaptureMessage
  base : UInt64
  last : ℕ
  unwoken : ℕ
  ok : Bool

/-- The next command of the event, or the next event. -/
def goOn : List ConnCommand → ManagerPc
  | [] => .reading
  | cmds => .pushing cmds

def Behind.goOn : Behind → ManagerPc
  | .batch cmds => Handoff.goOn cmds
  | .full cmd cmds => .sending cmd cmds
  | .reader => .dropping

/-- `wake` up to the call of the waker. -/
def Manager.wake (behind : Behind) (manager : Manager) : Manager :=
  if manager.unwoken = 0 then { manager with pc := behind.goOn }
  else { manager with unwoken := 0, pc := .waking behind }

/-- What `push` does once the channel has taken the command. -/
def Manager.count (cmds : List ConnCommand) (manager : Manager) : Manager :=
  let manager := { manager with unwoken := manager.unwoken + 1 }
  if wakeBatch ≤ manager.unwoken then manager.wake (.batch cmds)
  else { manager with pc := goOn cmds }

def Manager.fail (cmds : List ConnCommand) (manager : Manager) : Manager :=
  { manager with ok := false, pc := goOn cmds }

variable (scaled : ℕ → ℕ)

/-- A round of `replay`. -/
def Manager.read (manager : Manager) : Manager :=
  if manager.ok then
    match manager.messages with
    | [] => manager.wake .reader
    | msg :: messages =>
        let rel := max (scaled (msg.ts.toNat - manager.base.toNat)) manager.last
        { manager with messages := messages, last := rel, pc := goOn (emit msg rel) }
  else manager.wake .reader

/-! ## The loop thread -/

inductive LoopPc where
  | pulling
  | polling
  | handling
  | pullingAgain
  | dispatching
  /-- `run` has returned because the replay is over. -/
  | finished
  /-- `run` has returned because `poll` failed. -/
  | pollFailed
  | panicked
  deriving DecidableEq

/-- One round of `pull`, and whether there is another. -/
def pullRound (senderGone : Bool) (now : ℕ) (loop : ReplayLoop) : ReplayLoop × Bool :=
  match loop.lookahead with
  | some cmd =>
      if cmd.ts > now + horizonUs then (loop, false)
      else (enqueue cmd { loop with lookahead := none, lastTs := cmd.ts }, true)
  | none =>
      match loop.rx with
      | [] => (if senderGone then { loop with rxClosed := true } else loop, false)
      | cmd :: rx =>
          if cmd.ts > now + horizonUs then
            ({ loop with rx := rx, lookahead := some cmd }, false)
          else (enqueue cmd { loop with rx := rx, lastTs := cmd.ts }, true)

inductive PollAnswer where
  | woken
  | events
  | timedOut (now : ℕ)
  | interrupted
  | failed

/-- `dispatch_ready` and what `run` looks at behind it. -/
def endRound (loop : ReplayLoop) : ReplayLoop × LoopPc :=
  let loop :=
    if loop.rxClosed ∧ loop.lookahead = none ∧ ¬loop.ended then loop.finishClients else loop
  if loop.ended ∧ loop.slots.keys = [] then (loop, .finished) else (loop, .pulling)

/-! ## Both -/

structure State where
  manager : Manager
  loop : ReplayLoop
  pc : LoopPc
  /-- Whether the waker has been rung and `poll` has not yet reported it. -/
  bell : Bool
  senderGone : Bool
  /-- The commands that the channel has taken. -/
  pushed : List ConnCommand

def start (config : ReplayConfig) (base : UInt64) (messages : List CaptureMessage) : State where
  manager :=
    { pc := .reading, messages := messages, base := base, last := 0, unwoken := 0, ok := true }
  loop := ReplayLoop.new config []
  pc := .pulling
  bell := false
  senderGone := false
  pushed := []

/-- The loop is dropped with its end of the channel. -/
def State.receiverGone (s : State) : Bool :=
  s.pc = .finished ∨ s.pc = .pollFailed ∨ s.pc = .panicked

def State.put (cmd : ConnCommand) (s : State) : State :=
  { s with
    loop := { s.loop with rx := s.loop.rx ++ [cmd] }
    pushed := s.pushed ++ [cmd] }

inductive Label where
  | read
  | trySend
  | wake (works : Bool)
  | send
  | dropSender
  | pull (now : ℕ)
  | poll (answer : PollAnswer)
  | handleEvent (now : ℕ) (event : Event) (net : Net)
  | eventsDone
  | dispatchReady (now : ℕ) (net : Net)

variable (md5Hex : List UInt8 → String) (catchup slowed : ℕ → ℕ)

def pollStep (answer : PollAnswer) (s : State) : Option State :=
  match answer with
  | .woken => if s.bell then some { s with bell := false, pc := .handling } else none
  | .events => some { s with pc := .handling }
  | .timedOut now =>
      if (s.loop.nextTimeout slowed now).isSome then some { s with pc := .handling } else none
  | .interrupted => some { s with pc := .pulling }
  | .failed => some { s with pc := .pollFailed }

def managerStep (s : State) : Label → Option State
  | .read =>
      match s.manager.pc with
      | .reading => some { s with manager := s.manager.read scaled }
      | _ => none
  | .trySend =>
      match s.manager.pc with
      | .pushing (cmd :: cmds) =>
          if s.receiverGone then some { s with manager := s.manager.fail cmds }
          else if s.loop.rx.length < queueCap then
            some { s.put cmd with manager := s.manager.count cmds }
          else some { s with manager := s.manager.wake (.full cmd cmds) }
      | _ => none
  | .wake works =>
      match s.manager.pc with
      | .waking behind =>
          some { s with
            bell := s.bell || works
            manager := { s.manager with ok := s.manager.ok && works, pc := behind.goOn } }
      | _ => none
  | .send =>
      match s.manager.pc with
      | .sending cmd cmds =>
          if s.receiverGone then some { s with manager := s.manager.fail cmds }
          else if s.loop.rx.length < queueCap then
            some { s.put cmd with
              manager := { s.manager with unwoken := s.manager.unwoken + 1, pc := goOn cmds } }
          else none
      | _ => none
  | .dropSender =>
      match s.manager.pc with
      | .dropping => some { s with senderGone := true, manager := { s.manager with pc := .done } }
      | _ => none
  | _ => none

def loopStep (s : State) : Label → Option State
  | .pull now =>
      let round := pullRound s.senderGone now s.loop
      match s.pc with
      | .pulling =>
          some { s with loop := round.1, pc := if round.2 then .pulling else .polling }
      | .pullingAgain =>
          some { s with loop := round.1, pc := if round.2 then .pullingAgain else .dispatching }
      | _ => none
  | .poll answer => if s.pc = .polling then pollStep slowed answer s else none
  | .handleEvent now event net =>
      if s.pc = .handling then
        match { s.loop with net := net }.handleEvent md5Hex catchup now event with
        | some loop => some { s with loop := loop }
        | none => some { s with pc := .panicked }
      else none
  | .eventsDone => if s.pc = .handling then some { s with pc := .pullingAgain } else none
  | .dispatchReady now net =>
      if s.pc = .dispatching then
        let round := endRound ({ s.loop with net := net }.dispatchReady catchup now)
        some { s with loop := round.1, pc := round.2 }
      else none
  | _ => none

def step (s : State) (label : Label) : Option State :=
  (managerStep scaled s label).or (loopStep md5Hex catchup slowed s label)

/-! ## What a step can do -/

inductive Stepped : State → Label → State → Prop
  | read {s : State} (hpc : s.manager.pc = .reading) :
      Stepped s .read { s with manager := s.manager.read scaled }
  | refused {s : State} {cmd : ConnCommand} {cmds : List ConnCommand}
      {label : Label} (hlabel : label = .trySend ∨ label = .send)
      (hpc : s.manager.pc = .pushing (cmd :: cmds) ∨ s.manager.pc = .sending cmd cmds)
      (hgone : s.receiverGone = true) : Stepped s label { s with manager := s.manager.fail cmds }
  | pushed {s : State} {cmd : ConnCommand} {cmds : List ConnCommand}
      (hpc : s.manager.pc = .pushing (cmd :: cmds)) (hopen : s.receiverGone = false)
      (hroom : s.loop.rx.length < queueCap) :
      Stepped s .trySend { s.put cmd with manager := s.manager.count cmds }
  | full {s : State} {cmd : ConnCommand} {cmds : List ConnCommand}
      (hpc : s.manager.pc = .pushing (cmd :: cmds)) (hopen : s.receiverGone = false)
      (hfull : queueCap ≤ s.loop.rx.length) :
      Stepped s .trySend { s with manager := s.manager.wake (.full cmd cmds) }
  | rung {s : State} {behind : Behind} (works : Bool) (hpc : s.manager.pc = .waking behind) :
      Stepped s (.wake works) { s with
        bell := s.bell || works
        manager := { s.manager with ok := s.manager.ok && works, pc := behind.goOn } }
  | sent {s : State} {cmd : ConnCommand} {cmds : List ConnCommand}
      (hpc : s.manager.pc = .sending cmd cmds) (hopen : s.receiverGone = false)
      (hroom : s.loop.rx.length < queueCap) :
      Stepped s .send { s.put cmd with
        manager := { s.manager with unwoken := s.manager.unwoken + 1, pc := goOn cmds } }
  | dropped {s : State} (hpc : s.manager.pc = .dropping) :
      Stepped s .dropSender { s with senderGone := true, manager := { s.manager with pc := .done } }
  | pulled {s : State} (now : ℕ) (hpc : s.pc = .pulling) :
      Stepped s (.pull now) { s with
        loop := (pullRound s.senderGone now s.loop).1
        pc := if (pullRound s.senderGone now s.loop).2 then .pulling else .polling }
  | pulledAgain {s : State} (now : ℕ) (hpc : s.pc = .pullingAgain) :
      Stepped s (.pull now) { s with
        loop := (pullRound s.senderGone now s.loop).1
        pc := if (pullRound s.senderGone now s.loop).2 then .pullingAgain else .dispatching }
  | polled {s : State} {answer : PollAnswer} (hpc : s.pc = .polling) (pc : LoopPc) (bell : Bool)
      (hnext : pc = .handling ∨ pc = .pulling ∨ pc = .pollFailed)
      (hbell : bell = true → s.bell = true) (hwoken : bell = s.bell ∨ pc = .handling) :
      Stepped s (.poll answer) { s with bell := bell, pc := pc }
  | handled {s : State} (hpc : s.pc = .handling) {now : ℕ} {event : Event} {net : Net}
      {loop : ReplayLoop}
      (hevent : { s.loop with net := net }.handleEvent md5Hex catchup now event = some loop) :
      Stepped s (.handleEvent now event net) { s with loop := loop }
  | panicked {s : State} {now : ℕ} {event : Event} {net : Net} (hpc : s.pc = .handling) :
      Stepped s (.handleEvent now event net) { s with pc := .panicked }
  | eventsDone {s : State} (hpc : s.pc = .handling) :
      Stepped s .eventsDone { s with pc := .pullingAgain }
  | dispatched {s : State} (now : ℕ) (net : Net) (hpc : s.pc = .dispatching) :
      Stepped s (.dispatchReady now net) { s with
        loop := (endRound ({ s.loop with net := net }.dispatchReady catchup now)).1
        pc := (endRound ({ s.loop with net := net }.dispatchReady catchup now)).2 }

variable {scaled md5Hex catchup slowed} {s s' : State} {label : Label}

theorem stepped_of_pollStep {answer : PollAnswer} (hpc : s.pc = .polling)
    (hstep : pollStep slowed answer s = some s') :
    Stepped scaled md5Hex catchup s (.poll answer) s' := by
  cases answer with
  | woken =>
      simp only [pollStep] at hstep
      split_ifs at hstep with hbell
      cases hstep
      exact .polled hpc .handling false (.inl rfl) (by rintro ⟨⟩) (.inr rfl)
  | events =>
      cases hstep
      exact .polled hpc .handling s.bell (.inl rfl) id (.inl rfl)
  | timedOut now =>
      simp only [pollStep] at hstep
      split_ifs at hstep with htimeout
      cases hstep
      exact .polled hpc .handling s.bell (.inl rfl) id (.inl rfl)
  | interrupted =>
      cases hstep
      exact .polled hpc .pulling s.bell (.inr (.inl rfl)) id (.inl rfl)
  | failed =>
      cases hstep
      exact .polled hpc .pollFailed s.bell (.inr (.inr rfl)) id (.inl rfl)

theorem stepped_of_managerStep (hstep : managerStep scaled s label = some s') :
    Stepped scaled md5Hex catchup s label s' := by
  cases label with
  | read =>
      simp only [managerStep] at hstep
      split at hstep
      · cases hstep
        exact .read ‹_›
      · cases hstep
  | trySend =>
      simp only [managerStep] at hstep
      split at hstep
      · split_ifs at hstep with hgone hroom
        · cases hstep
          exact .refused (.inl rfl) (.inl ‹_›) hgone
        · cases hstep
          exact .pushed ‹_› (eq_false_of_ne_true hgone) hroom
        · cases hstep
          exact .full ‹_› (eq_false_of_ne_true hgone) (not_lt.mp hroom)
      · cases hstep
  | wake works =>
      simp only [managerStep] at hstep
      split at hstep
      · cases hstep
        exact .rung works ‹_›
      · cases hstep
  | send =>
      simp only [managerStep] at hstep
      split at hstep
      · split_ifs at hstep with hgone hroom
        · cases hstep
          exact .refused (.inr rfl) (.inr ‹_›) hgone
        · cases hstep
          exact .sent ‹_› (eq_false_of_ne_true hgone) hroom
      · cases hstep
  | dropSender =>
      simp only [managerStep] at hstep
      split at hstep
      · cases hstep
        exact .dropped ‹_›
      · cases hstep
  | pull | poll | handleEvent | eventsDone | dispatchReady => cases hstep

theorem stepped_of_loopStep (hstep : loopStep md5Hex catchup slowed s label = some s') :
    Stepped scaled md5Hex catchup s label s' := by
  cases label with
  | pull now =>
      simp only [loopStep] at hstep
      split at hstep
      · cases hstep
        exact .pulled now ‹_›
      · cases hstep
        exact .pulledAgain now ‹_›
      · cases hstep
  | poll answer =>
      simp only [loopStep] at hstep
      split_ifs at hstep with hpc
      exact stepped_of_pollStep hpc hstep
  | handleEvent now event net =>
      simp only [loopStep] at hstep
      split_ifs at hstep with hpc
      split at hstep
      · cases hstep
        exact .handled hpc ‹_›
      · cases hstep
        exact .panicked hpc
  | eventsDone =>
      simp only [loopStep] at hstep
      split_ifs at hstep with hpc
      cases hstep
      exact .eventsDone hpc
  | dispatchReady now net =>
      simp only [loopStep] at hstep
      split_ifs at hstep with hpc
      cases hstep
      exact .dispatched now net hpc
  | read | trySend | wake | send | dropSender => cases hstep

theorem stepped_of_step (hstep : step scaled md5Hex catchup slowed s label = some s') :
    Stepped scaled md5Hex catchup s label s' := by
  rw [step, Option.or_eq_some_iff] at hstep
  rcases hstep with hmanager | ⟨-, hloop⟩
  · exact stepped_of_managerStep hmanager
  · exact stepped_of_loopStep hloop

end Pgr.Handoff

import ClientSession.Simulation.World

/-!
# Playing steps in a world

A step is an activity of the client, a change of the world, a rest, or steps one after another,
side by side, with a time limit, or while a validation pass is held. Steps side by side are all
looked at, in order, whenever one of them can go on.
-/

namespace ClientSession.Simulation

/-- What is played, with an answer at its end. -/
inductive Step (ρ : Type) where
  | act (activity : Activity Client ρ)
  | change (f : World → ρ × World)
  | rest (span : World → Span) (answer : ρ)
  | inOrder (steps : List (Step ρ)) (answer : List ρ → ρ)
  | together (steps : List (Step ρ)) (answer : List ρ → ρ)
  /-- The step is dropped when the time is over. -/
  | limited (span : Span) (step : Step ρ) (late : ρ)
  /-- The steps are played while a validation pass is held, which then runs or is dropped. -/
  | holding (steps : List (Step ρ)) (pass : Option (Activity Client ρ))
      (answer : List ρ → Bool → Option ρ → ρ) (refused : ρ)

/-- What follows on steps that were played one after another. -/
inductive Sequel (ρ : Type) where
  | answer (f : List ρ → ρ)
  | pass (pass : Option (Activity Client ρ)) (answer : List ρ → Bool → Option ρ → ρ)

/-- A step that is being played. -/
inductive Fiber (ρ : Type) where
  | done (answer : ρ)
  | broken
  | leaf (run : Suspended ρ)
  | inOrder (before : List ρ) (current : Fiber ρ) (rest : List (Step ρ)) (sequel : Sequel ρ)
  | together (fibers : List (Fiber ρ)) (answer : List ρ → ρ)
  | limited (due : Span) (inner : Fiber ρ) (late : ρ)

variable {ρ : Type}

namespace Fiber

/-- The answer of a fiber that has ended. -/
def answer? : Fiber ρ → Option ρ
  | .done r => some r
  | _ => none

def ofProgress : World.Progress ρ → Fiber ρ
  | .finished r => .done r
  | .suspended run => .leaf run
  | .faulted | .stays => .broken

/-- The fibers side by side, or their answer when all have ended. -/
def joined (fibers : List (Fiber ρ)) (answer : List ρ → ρ) : Fiber ρ :=
  match fibers.mapM answer? with
  | some rs => .done (answer rs)
  | none => .together fibers answer

end Fiber

/-- Starts an activity of the client. -/
def begin (x : Activity Client ρ) (w : World) : Fiber ρ × World :=
  let r := World.advance (x w.now w.client) w
  (.ofProgress r.1, r.2)

def isHeld (w : World) : Bool := w.client.validator.state = .validating

/-- What follows when all of the steps have been played. -/
def Sequel.begin (before : List ρ) (w : World) : Sequel ρ → Fiber ρ × World
  | .answer f => (.done (f before), w)
  | .pass none close =>
    (.done (close before (isHeld w) none), w.setClient w.client.abandonPass)
  | .pass (some x) close =>
    let held := isHeld w
    Simulation.begin (do return close before held (some (← x))) w

mutual

/-- Drops a fiber. -/
def Fiber.drop : Fiber ρ → World → World
  | .leaf run, w => w.dropRun run
  | .inOrder _ current _ sequel, w =>
    let w := current.drop w
    match sequel with
    | .answer _ => w
    | .pass _ _ => w.setClient w.client.abandonPass
  | .together fibers _, w => dropAll fibers w
  | .limited _ inner _, w => inner.drop w
  | .done _, w => w
  | .broken, w => w

def dropAll : List (Fiber ρ) → World → World
  | [], w => w
  | f :: rest, w => dropAll rest (f.drop w)

end

/-- A fiber with a time limit, after it has run: it has ended, goes on, or is dropped because the time
is over. -/
def withinTime (due : Span) (late : ρ) (inner : Fiber ρ) (w : World) : Fiber ρ × World :=
  match inner with
  | .done r => (.done r, w)
  | .broken => (.broken, w)
  | inner => if due ≤ w.elapsed then (.done late, inner.drop w) else (.limited due inner late, w)

mutual

/-- Starts a step. -/
def Step.begin : Step ρ → World → Fiber ρ × World
  | .act x, w => Simulation.begin x w
  | .change f, w => (.done (f w).1, (f w).2)
  | .rest span answer, w =>
    if w.hasTimers then Simulation.begin (do Activity.sleep (span w); return answer) w
    else (.done answer, { w with elapsed := ⟨w.elapsed.nanos + (span w).nanos⟩ })
  | .inOrder steps answer, w => beginInOrder [] steps (.answer answer) w
  | .together steps answer, w =>
    let r := beginTogether steps w
    (.joined r.1 answer, r.2)
  | .limited span step late, w =>
    let due := wakeTime w.elapsed span
    let r := step.begin w
    withinTime due late r.1 r.2
  | .holding steps pass answer refused, w =>
    let r := w.client.tryBegin
    let w := w.setClient r.2
    if r.1 then beginInOrder [] steps (.pass pass answer) w else (.done refused, w)

def beginTogether : List (Step ρ) → World → List (Fiber ρ) × World
  | [], w => ([], w)
  | s :: rest, w =>
    let r := s.begin w
    let rs := beginTogether rest r.2
    (r.1 :: rs.1, rs.2)

/-- Plays steps one after another until one has to wait. -/
def beginInOrder (before : List ρ) : List (Step ρ) → Sequel ρ → World → Fiber ρ × World
  | [], sequel, w => sequel.begin before w
  | s :: rest, sequel, w =>
    let r := s.begin w
    match r.1.answer? with
    | some a => beginInOrder (before ++ [a]) rest sequel r.2
    | none => (.inOrder before r.1 rest sequel, r.2)

end

mutual

/-- Lets a fiber go on as far as it can. -/
def Fiber.goOn : Fiber ρ → World → Fiber ρ × World
  | .leaf run, w =>
    if w.isOver run then
      let r := w.resume run
      (.ofProgress r.1, r.2)
    else (.leaf run, w)
  | .inOrder before current rest sequel, w =>
    let r := current.goOn w
    match r.1.answer? with
    | some a => beginInOrder (before ++ [a]) rest sequel r.2
    | none => (.inOrder before r.1 rest sequel, r.2)
  | .together fibers answer, w =>
    let r := goOnAll fibers w
    (.joined r.1 answer, r.2)
  | .limited due inner late, w =>
    let r := inner.goOn w
    withinTime due late r.1 r.2
  | .done a, w => (.done a, w)
  | .broken, w => (.broken, w)

def goOnAll : List (Fiber ρ) → World → List (Fiber ρ) × World
  | [], w => ([], w)
  | f :: rest, w =>
    let r := f.goOn w
    let rs := goOnAll rest r.2
    (r.1 :: rs.1, rs.2)

end

mutual

/-- The fiber can go on. -/
def Fiber.isReady (w : World) : Fiber ρ → Bool
  | .leaf run => w.isOver run
  | .inOrder _ current _ _ => current.isReady w
  | .together fibers _ => anyReady w fibers
  | .limited due inner _ => decide (due ≤ w.elapsed) || inner.isReady w
  | .done _ => false
  | .broken => false

def anyReady (w : World) : List (Fiber ρ) → Bool
  | [] => false
  | f :: rest => f.isReady w || anyReady w rest

end

mutual

/-- The times at which the waits of a fiber end. -/
def Fiber.dues : Fiber ρ → List Span
  | .leaf run => (run.reply.map (·.1.elapsed)).toList
  | .inOrder _ current _ _ => current.dues
  | .together fibers _ => allDues fibers
  | .limited due inner _ => due :: inner.dues
  | .done _ => []
  | .broken => []

def allDues : List (Fiber ρ) → List Span
  | [] => []
  | f :: rest => f.dues ++ allDues rest

end

/-- The next time at which a wait ends. -/
def nextTime (f : Fiber ρ) (w : World) : Option Span :=
  match f.dues ++ w.tasks.filterMap fun t => (World.dueOf t).map (·.elapsed) with
  | [] => none
  | d :: ds => some (ds.foldl min d)

/-- Far more turns than any play takes. -/
def patience : Nat := 1000000000000000

/-- Plays a fiber to its end, time moving when everything waits; `none` if it faults or waits for
ever. Then the tasks that are ready run. -/
def play : Nat → Fiber ρ → World → Option (ρ × World)
  | 0, _, _ => none
  | turns + 1, f, w =>
    if w.fault.isSome then none
    else match f with
    | .done a => some (a, w.runTasks patience)
    | f =>
      let w := w.runTasks patience
      if f.isReady w then
        let r := f.goOn w
        play turns r.1 r.2
      else
        match nextTime f w with
        | none => none
        | some t =>
          let w := w.jump t
          if f.isReady w then
            let r := f.goOn w
            play turns r.1 r.2
          else play turns f w

/-- Plays a step; `none` if it faults or the clock leaves the calendar. -/
def playStep (s : Step ρ) (w : World) : Option (ρ × World) := do
  let r := s.begin w
  let (a, w) ← play patience r.1 r.2
  if w.fault.isNone ∧ w.now.InCalendar then some (a, w) else none

end ClientSession.Simulation

import ClientSession.Activity

/-!
# Turns

At most one activity holds a turn. An activity that finds it held takes a ticket and waits. When
the turn is given back the first ticket is called, unless one is called already; until its holder
comes, anyone may take the turn, and the holder of the ticket then goes to the end of the line.
-/

namespace ClientSession

/-- A ticket in the line. -/
structure Ticket where
  number : Nat
  called : Bool
deriving DecidableEq

structure Turn where
  held : Bool
  line : List Ticket
  nextTicket : Nat
deriving DecidableEq

namespace Turn

def free : Turn := ⟨false, [], 0⟩

/-- Calls the first ticket unless one is called already. -/
def callNext (t : Turn) : Turn :=
  if t.line.any (·.called) then t
  else match t.line with
    | [] => t
    | first :: rest => { t with line := { first with called := true } :: rest }

def isCalled (t : Turn) (ticket : Nat) : Bool :=
  t.line.any fun e => e.number = ticket && e.called

/-- Takes a ticket out of the line. -/
def leave (t : Turn) (ticket : Nat) : Turn :=
  { t with line := t.line.filter fun e => e.number ≠ ticket }

/-- Gives the turn back. -/
def giveBack (t : Turn) : Turn := callNext { t with held := false }

/-- Gives a ticket up; if it was called another one is. -/
def giveUp (t : Turn) (ticket : Nat) : Turn :=
  if t.isCalled ticket then (t.leave ticket).callNext else t.leave ticket

/-- Takes the turn with a ticket that was called, or goes to the end of the line. -/
def claim (t : Turn) (ticket : Nat) : Bool × Turn :=
  if t.isCalled ticket then
    let t := t.leave ticket
    if t.held then (false, { t with line := t.line ++ [⟨ticket, false⟩] })
    else (true, { t with held := true })
  else (false, t)

/-- Takes the turn, waiting for it if it is held. -/
def take : Activity Turn Unit := fun _ t =>
  if t.held then
    let ticket := t.nextTicket
    .wait { t with line := t.line ++ [⟨ticket, false⟩], nextTicket := ticket + 1 } (.turn ticket)
      (fun t => t.giveUp ticket) fun _ _ t =>
        if (t.claim ticket).1 then .done (t.claim ticket).2 () else .stay (t.claim ticket).2
  else .done { t with held := true } ()

end Turn

end ClientSession

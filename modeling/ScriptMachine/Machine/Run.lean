import ScriptMachine.Machine.Tick

/-!
# Carrying out routines

A routine is carried out request by request (`Routine.run`). The request for a tick is answered by
`Machine.tick`, and a tick may carry out routines in its turn, when tasks call natives: the two lean
on each other, and the number that bounds the instructions of a turn also bounds how deep ticks are
nested. With a greater bound a run that has come to an end ends in the same way.

`Machine.perform` is what a host uses. Its bound is far beyond what a machine can do in a lifetime,
so it has no result exactly when the run goes on and on.
-/

namespace ScriptMachine

/-- Answers a request; none if a tick does not come to an end. -/
def Machine.answer (tick : ScriptKind → Machine → Option Machine) (m : Machine) :
    (q : Request) → Option (q.Answer × Machine)
  | .observe => some (m.toState, m)
  | .push v => some ((), m.push v)
  | .pop => some m.pop
  | .tick mask => (tick mask m).map fun m => ((), m)
  | .start script => some (m.start script)
  | .startNamed name mask => some (m.startNamed name mask)
  | .stop task => some ((), m.stop task)
  | .stopAll => some ((), m.stopAll)
  | .stopKind mask => some ((), m.stopKind mask)
  | .stopNamed selected => some ((), m.stopNamed selected)
  | .load image => some ((), m.load image)
  | .restore image =>
    match m.restore image with
    | .ok m => some (.ok (), m)
    | .error e => some (.error e, m)
  | .reboot => some ((), m.reboot)
  | .memory => some (m.memory, m)
  | .keep memory => some ((), { m with memory })
  | .note text => some ((), m.emit (.note text))

/-- Carries out a routine, given how ticks are run. -/
def Routine.run {α : Type} (tick : ScriptKind → Machine → Option Machine) :
    Routine α → Machine → Option (α × Machine)
  | .done a, m => some (a, m)
  | .ask q next, m =>
    match m.answer tick q with
    | none => none
    | some (answer, m) => (next answer).run tick m

namespace Machine

/-- A tick. The bound is on the instructions of a turn and on the nesting of ticks. -/
def tick (setting : Setting) : Nat → ScriptKind → Machine → Option Machine
  | 0, _, _ => none
  | bound + 1, mask, m =>
    let carryOut (body : Routine Unit) (m : Machine) : Option Machine :=
      (body.run (tick setting bound) m).map (·.2)
    tickWithin setting carryOut (bound + 1) mask m

/-- A bound that no run reaches. -/
def lifetime : Nat := 0x4000000000000000

/-- Carries out a routine. -/
def perform {α : Type} (setting : Setting) (routine : Routine α) (m : Machine) :
    Option (α × Machine) :=
  routine.run (tick setting lifetime) m

end Machine

end ScriptMachine

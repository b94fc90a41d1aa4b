import ScriptMachine.Image

/-!
# Numerical agreement of images

Two images agree if they are alike in everything and their floating point values are equal as
numbers. So a NaN agrees with nothing, not even itself, and the two zeros with each other.
-/

namespace ScriptMachine

def Value.agrees (v w : Value) : Bool :=
  v.tag = w.tag &&
    match v.tag with
    | .float | .vector => v.single.equals w.single
    | _ => v.bits == w.bits

def Variable.agrees (v w : Variable) : Bool := v.name = w.name && v.value.agrees w.value

def Stack.agrees (s t : Stack) : Bool :=
  s.pushes = t.pushes && s.pops = t.pops && s.slots.isEqv t.slots Value.agrees

def Task.agrees (t u : Task) : Bool :=
  { t with locals := u.locals, stack := u.stack } = u && t.stack.agrees u.stack
    && t.locals.isEqv u.locals Variable.agrees

def Checkpoint.agrees (c d : Checkpoint) : Bool :=
  { c with stack := d.stack, globals := d.globals, tasks := d.tasks } = d
    && c.stack.agrees d.stack && c.globals.isEqv d.globals Variable.agrees
    && c.tasks.isEqv d.tasks Task.agrees

def Image.agrees (i j : Image) : Bool :=
  i.program = j.program &&
    match i.checkpoint, j.checkpoint with
    | none, none => true
    | some c, some d => c.agrees d
    | _, _ => false

end ScriptMachine

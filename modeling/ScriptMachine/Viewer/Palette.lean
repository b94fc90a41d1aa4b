import ScriptMachine.Screen

/-!
# The palette

The colours of the viewer, named for what they mark.
-/

namespace ScriptMachine.Palette

def plain : Color := .rgb 205 214 244

def accent : Color := .rgb 137 180 250

/-- What runs next. -/
def highlight : Color := .rgb 250 179 135

/-- What is less important. -/
def muted : Color := .rgb 108 112 134

def good : Color := .rgb 166 227 161

def bad : Color := .rgb 243 139 168

def mnemonic : Color := .rgb 203 166 247

/-- Names of variables and scripts in the operands of instructions. -/
def operandName : Color := .rgb 245 194 231

def number : Color := .rgb 250 179 135

/-- The frame of the pane in focus. -/
def focusedFrame : Color := .rgb 249 226 175

def frame : Color := .rgb 108 112 134

/-- The background of the current line and of the status bar. -/
def bar : Color := .rgb 50 50 70

def script : Color := .rgb 249 226 175

def label : Color := .rgb 180 165 120

def typeName : Color := .rgb 148 226 213

end ScriptMachine.Palette

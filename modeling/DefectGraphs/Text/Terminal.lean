import DefectGraphs.Text.Quoted

/-!
Texts for a terminal: the control characters that a terminal takes as commands are shown by number,
so that a text that comes from outside cannot give it any.
-/

namespace DefectGraphs.Text

/-- Bell, backspace, form feed, escape, delete, and the control characters above ASCII. Line ends
and tabs are no commands. -/
def isTerminalCommand (c : Char) : Bool :=
  c = '\x07' || c = '\x08' || c = '\x0c' || c = '\x1b' || (0x7F ≤ c.toNat && c.toNat ≤ 0x9F)

/-- A command of ASCII is shown by two digits, and one above it by its digits in braces. -/
def showCommand (c : Char) : List Char :=
  if c.toNat < 0x10 then ['\\', 'x', '0'] ++ hexDigits c.toNat
  else if c.toNat < 0x80 then ['\\', 'x'] ++ hexDigits c.toNat
  else ['\\', 'u', '\x7b'] ++ hexDigits c.toNat ++ ['\x7d']

def forTerminal (text : String) : String :=
  String.ofList (text.toList.flatMap fun c => if isTerminalCommand c then showCommand c else [c])

end DefectGraphs.Text

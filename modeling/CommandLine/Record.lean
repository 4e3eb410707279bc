import CommandLine.Descriptor

namespace CommandLine

structure Record where
  descriptor : Descriptor
  argument : Text := []
  form : Text := []
  deriving DecidableEq, Repr

namespace Record

def longForm (d : Descriptor) : Text := "--".toText ++ d.name.getD "None".toText

def long (d : Descriptor) (argument : Text) : Record := ⟨d, argument, longForm d⟩

def short (d : Descriptor) (c : CodePoint) (argument : Text) : Record := ⟨d, argument, ['-', c]⟩

def operand (text : Text) : Record := ⟨.operand, text, []⟩

def isOperand (r : Record) : Bool := r.descriptor.isSentinel

def code (r : Record) : Code := r.descriptor.code

def option? (r : Record) : Option Text := if r.form = [] then none else some r.form

end Record

end CommandLine

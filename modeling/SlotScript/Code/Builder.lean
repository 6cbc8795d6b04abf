import SlotScript.Code.Instruction

/-!
# Building code

Code is built front to back. A forward jump is emitted before its target is known: it yields a
label, and binding the label later fills in the target.
-/

namespace SlotScript

/-- A jump whose target is not known yet, by the index of its instruction. -/
structure Label where
  index : Nat

structure CodeBuilder where
  code : Code := []

namespace CodeBuilder

/-- The index the next instruction will have. -/
def offset (b : CodeBuilder) : Nat := b.code.length

def emit (b : CodeBuilder) (i : Instruction) : CodeBuilder := ⟨b.code ++ [i]⟩

def emitOp (b : CodeBuilder) (op : Opcode) : CodeBuilder := b.emit (.plain op)

def emitPush (b : CodeBuilder) (v : Value) : CodeBuilder := b.emit (.push v)

/-- Emits a forward jump. Until its label is bound it leads to the start. -/
def jump (b : CodeBuilder) (op : Opcode) : Label × CodeBuilder :=
  (⟨b.offset⟩, b.emit (.jump op 0))

/-- Makes the jump of a label lead to an instruction. -/
def bindTo (b : CodeBuilder) (label : Label) (target : Nat) : CodeBuilder :=
  ⟨b.code.modify label.index fun i => { i with operands := i.operands.set 0 (.target target) }⟩

/-- Makes the jump of a label lead to the next instruction. -/
def bind (b : CodeBuilder) (label : Label) : CodeBuilder := b.bindTo label b.offset

end CodeBuilder

end SlotScript

import SlotScript.Code.Opcode
import SlotScript.Error
import SlotScript.Text.Quoted
import SlotScript.Value.Text

/-!
# Instructions

An instruction is an opcode with operands. The accessors say which operand an instruction is
expected to have; code that does not come from the compiler may lack it. Listings show an
instruction on a line, and a fingerprint tells instructions apart.
-/

namespace SlotScript

/-- A place near the top of the stack, used instead of a literal source. -/
inductive Sentinel where
  | last
  | secondLast
  | thirdLast
deriving DecidableEq

/-- The distance from the top of the stack. -/
def Sentinel.depth : Sentinel → Nat
  | last => 0
  | secondLast => 1
  | thirdLast => 2

def Sentinel.text : Sentinel → String
  | last => "<last>"
  | secondLast => "<second-last>"
  | thirdLast => "<third-last>"

inductive Operand where
  | value (v : Value)
  | key (key : String)
  | target (index : Nat)
  | sentinel (place : Sentinel)

structure Instruction where
  op : Opcode
  operands : List Operand

/-- A program of the stack machine. -/
abbrev Code := List Instruction

/-- The value an operand is, if it is one. -/
def Operand.literal? : Operand → Option Value
  | value v => some v
  | _ => none

/-- The values that stand in code. -/
def Code.literals (code : Code) : List Value :=
  code.flatMap fun i => i.operands.filterMap Operand.literal?

namespace Operand

def text (sizes : Sizes) : Operand → String
  | value (.string s) => Text.quote s
  | value v => v.text sizes
  | .key name => name
  | target index => "->" ++ integerText index
  | sentinel place => place.text

/-- A tag and the payload; values bring their own tags, which are smaller. -/
def bytes : Operand → List UInt8
  | value v => v.bytes
  | .key name => 0x20 :: name.toUTF8.data.toList
  | target index => 0x21 :: littleEndian 8 index
  | sentinel place => 0x22 :: littleEndian 8 place.depth

end Operand

namespace Instruction

def plain (op : Opcode) : Instruction := ⟨op, []⟩

def push (v : Value) : Instruction := ⟨.push, [.value v]⟩

def keyed (op : Opcode) (key : String) : Instruction := ⟨op, [.key key]⟩

def keyedWith (op : Opcode) (key : String) (source : Operand) : Instruction :=
  ⟨op, [.key key, source]⟩

def jump (op : Opcode) (target : Nat) : Instruction := ⟨op, [.target target]⟩

def malformed {α : Type} (i : Instruction) (fault : OperandFault) : Except RuntimeError α :=
  .error (.malformed i.op fault)

def literal (i : Instruction) : Except RuntimeError Value :=
  match i.operands with
  | .value v :: _ => .ok v
  | _ => i.malformed .literal

def key (i : Instruction) : Except RuntimeError String :=
  match i.operands with
  | .key key :: _ => .ok key
  | _ => i.malformed .key

def target (i : Instruction) : Except RuntimeError Nat :=
  match i.operands with
  | .target index :: _ => .ok index
  | _ => i.malformed .target

/-- The second operand, if there is one. -/
def source? (i : Instruction) : Option Operand := i.operands[1]?

def text (sizes : Sizes) (i : Instruction) : String :=
  i.operands.foldl (fun line operand => line ++ " " ++ operand.text sizes) i.op.name

def fingerprint (i : Instruction) : Fingerprint :=
  .ofBytes (UInt8.ofNat i.op.code :: i.operands.flatMap Operand.bytes)

end Instruction

namespace Code

/-- The text with blanks in front of it, four characters wide at least. -/
def column (text : String) : String :=
  String.ofList (List.replicate (4 - text.length) ' ') ++ text

/-- One instruction on a line after its index. -/
def text (sizes : Sizes) (code : Code) : String :=
  String.join (code.mapIdx fun index i =>
    column (integerText index) ++ "  " ++ i.text sizes ++ "\n")

/-- The keys of all slots a run may read, whichever branches it takes, in the order in which they
first appear. -/
def readKeys (code : Code) : List String :=
  code.foldl (fun keys i =>
    match i.op.readsResource, i.key with
    | true, .ok key => if keys.contains key then keys else keys ++ [key]
    | _, _ => keys) []

end Code

end SlotScript

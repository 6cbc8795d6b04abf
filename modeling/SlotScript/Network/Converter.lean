import SlotScript.Value.Text

/-!
# Converters

A converter maps a value on its way between a store and whoever watches it. It sees the lengths of
the collections, since these belong to how a value is shown, and nothing else.
-/

namespace SlotScript

structure Converter where
  apply : Sizes → Value → Value

namespace Converter

/-- What a source without a converter delivers is the value itself. -/
def convert (converter : Option Converter) (sizes : Sizes) (v : Value) : Value :=
  match converter with
  | some converter => converter.apply sizes v
  | none => v

/-- The text of the value after a number sign. -/
def hash : Converter := ⟨fun sizes v => .string ("#" ++ v.text sizes)⟩

/-- The name of the value's kind. -/
def kind : Converter := ⟨fun _ v => .string v.kind.name⟩

def zero : Converter := ⟨fun _ _ => .int32 0⟩

/-- Text as the 32-bit integer it spells, or null; other values as they are. -/
def parse : Converter := ⟨fun _ v =>
  match v with
  | .string s =>
    match Number.integer? s.toList with
    | some n => if NumericKind.int32.holds n then .int32 (Int32.ofInt n) else .null
    | none => .null
  | v => v⟩

end Converter

end SlotScript

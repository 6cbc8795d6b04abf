import SlotScript.Fingerprint
import SlotScript.Table

/-!
# Direct-mapped caches

A cache of a fixed number of slots, each with at most one entry. A hash chooses the slot, and
storing an entry drops the one that was there, so a lookup may miss what was stored before. Whoever
looks something up says which entry would do.
-/

namespace SlotScript

structure SlotCache (slots : Nat) (α : Type) where
  held : Table Nat α

namespace SlotCache

variable {slots : Nat} {α : Type}

def empty : SlotCache slots α := ⟨.empty⟩

instance : Inhabited (SlotCache slots α) := ⟨empty⟩

def slotOf (slots : Nat) (hash : Fingerprint) : Nat := hash.toNat % slots

/-- The entry in the slot of a hash, if it will do. -/
def find? (cache : SlotCache slots α) (hash : Fingerprint) (accepts : α → Bool) : Option α :=
  (cache.held.find? (slotOf slots hash)).filter accepts

def insert (cache : SlotCache slots α) (hash : Fingerprint) (a : α) : SlotCache slots α :=
  ⟨cache.held.insert (slotOf slots hash) a⟩

end SlotCache

end SlotScript

import SlotScript.Error
import SlotScript.Value.Basic

/-!
# Scripts

A run talks to its surroundings only through a few requests: reading, writing and creating slots,
looking into collections, and running commands. A script is a computation up to its requests: it
ends with a result, fails, or asks and goes on with the answer. Who answers is left open, so what a
run does can be said without saying where its slots are or who watches them.
-/

namespace SlotScript

/-- What a run may ask of its surroundings. -/
inductive Request where
  /-- The value of a slot; one that is missing everywhere is created locally with the seed. -/
  | fetch (key : String) (seed : Value)
  /-- Write to the nearest scope that defines the key. -/
  | assign (key : String) (value : Value)
  /-- Write to the local scope. -/
  | define (key : String) (value : Value)
  /-- The text a value contributes to a concatenation. -/
  | concatText (value : Value)
  /-- The element of a collection; `key` is where the collection was found. -/
  | element (key : String) (collection index : Value)
  /-- Change an element of a collection and store the collection back where it was found. -/
  | replace (key : String) (collection index value : Value)

/-- The type of the answer to a request. -/
abbrev Request.Answer : Request → Type
  | fetch .. => Value
  | assign .. => Unit
  | define .. => Unit
  | concatText .. => String
  | element .. => Except RuntimeError Value
  | replace .. => Except RuntimeError Unit

inductive Script (α : Type) where
  | done (a : α)
  | fail (e : RuntimeError)
  | ask (r : Request) (next : r.Answer → Script α)
  /-- Run a command, which ends the whole run if it fails. -/
  | invoke (command : Nat) (argument : Value) (next : Script α)

namespace Script

variable {α β : Type}

/-- One script after the other; a failure ends both. -/
def bind : Script α → (α → Script β) → Script β
  | done a, f => f a
  | fail e, _ => fail e
  | ask r next, f => ask r fun answer => (next answer).bind f
  | invoke command argument next, f => invoke command argument (next.bind f)

instance : Monad Script where
  pure := done
  bind := bind

def ofExcept : Except RuntimeError α → Script α
  | .ok a => done a
  | .error e => fail e

instance : MonadLift (Except RuntimeError) Script where
  monadLift := ofExcept

/-- Ask and return the answer. -/
def request (r : Request) : Script r.Answer := ask r done

end Script

end SlotScript

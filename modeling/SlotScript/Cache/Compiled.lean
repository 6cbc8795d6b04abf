import SlotScript.Cache.Slots
import SlotScript.Compiler

/-!
# The cache of compiled texts

Remembers the code of texts compiled before, by text and assignment mode. An entry is only used for
the very text and mode it was stored for.
-/

namespace SlotScript

structure CompiledText where
  hash : Fingerprint
  mode : AssignMode
  text : String
  code : Code

abbrev CompilerCache := SlotCache 16 CompiledText

namespace CompilerCache

/-- What tells the two modes apart in a hash. -/
def salt : AssignMode → Fingerprint
  | .nearest => 0
  | .direct => 0x9E3779B9

def hash (mode : AssignMode) (text : String) : Fingerprint :=
  (Fingerprint.ofText text ^^^ salt mode).mix

def lookup? (cache : CompilerCache) (mode : AssignMode) (text : String) : Option Code :=
  let hash := hash mode text
  (cache.find? hash fun entry =>
    entry.hash = hash && entry.mode = mode && entry.text = text).map (·.code)

def store (cache : CompilerCache) (mode : AssignMode) (text : String) (code : Code) :
    CompilerCache :=
  let hash := hash mode text
  cache.insert hash ⟨hash, mode, text, code⟩

/-- Compiles a text unless its code is remembered, and remembers the code. -/
def compile (cache : CompilerCache) (mode : AssignMode) (text : String) :
    Except CompileError Code × CompilerCache :=
  match cache.lookup? mode text with
  | some code => (.ok code, cache)
  | none =>
    match Code.compile mode text with
    | .ok code => (.ok code, cache.store mode text code)
    | .error e => (.error e, cache)

end CompilerCache

end SlotScript

/-!
# Fingerprints

Small deterministic hashes of byte sequences. They choose the slots of the caches and identify
instructions, so their values are fixed for good: FNV-1a on 32 bits over the bytes, all numbers
least byte first.
-/

namespace SlotScript

/-- A 32-bit hash under way. -/
abbrev Fingerprint := UInt32

namespace Fingerprint

def start : Fingerprint := 2166136261

def addByte (hash : Fingerprint) (byte : UInt8) : Fingerprint :=
  (hash ^^^ byte.toUInt32) * 16777619

def addBytes (hash : Fingerprint) (bytes : List UInt8) : Fingerprint :=
  bytes.foldl addByte hash

def ofBytes (bytes : List UInt8) : Fingerprint :=
  start.addBytes bytes

/-- The hash of a text, over its UTF-8 bytes. -/
def ofText (text : String) : Fingerprint :=
  ofBytes text.toUTF8.data.toList

/-- Spreads every bit of a hash over all others, by shifts and multiplications. -/
def mix (hash : Fingerprint) : Fingerprint :=
  let hash := (hash ^^^ (hash >>> 16)) * 0x85EBCA6B
  let hash := (hash ^^^ (hash >>> 13)) * 0xC2B2AE35
  hash ^^^ (hash >>> 16)

end Fingerprint

/-- The lowest `count` bytes of a number, least byte first. -/
def littleEndian : Nat → Nat → List UInt8
  | 0, _ => []
  | count + 1, n => UInt8.ofNat (n % 256) :: littleEndian count (n / 256)

end SlotScript

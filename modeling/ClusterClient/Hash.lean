/-!
The 64-bit hash that places text keys: MurmurHash64A. Eight bytes at a time are
read as a little-endian word, and what is left over is mixed in byte by byte.
-/
namespace ClusterClient.Hash

def multiplier : UInt64 := 0xc6a4a7935bd1e995

def defaultSeed : UInt64 := 0xc70f6907

/-- The bytes as a number, the first one least significant. -/
def littleEndian : List UInt8 → UInt64
  | [] => 0
  | b :: rest => b.toUInt64 ||| (littleEndian rest <<< 8)

def fold (k : UInt64) : UInt64 := k ^^^ (k >>> 47)

def mixWord (k : UInt64) : UInt64 := fold (k * multiplier) * multiplier

/-- From the last byte to the first one. -/
def xorBytes (h shift : UInt64) : List UInt8 → UInt64
  | [] => h
  | b :: rest => xorBytes h (shift + 8) rest ^^^ (b.toUInt64 <<< shift)

def absorb (h : UInt64) : List UInt8 → UInt64
  | b₀ :: b₁ :: b₂ :: b₃ :: b₄ :: b₅ :: b₆ :: b₇ :: rest =>
    absorb ((h ^^^ mixWord (littleEndian [b₀, b₁, b₂, b₃, b₄, b₅, b₆, b₇])) * multiplier) rest
  | [] => h
  | left => xorBytes h 0 left * multiplier

def finish (h : UInt64) : UInt64 := fold (fold h * multiplier)

def hash (seed : UInt64) (data : List UInt8) : UInt64 :=
  finish (absorb (seed ^^^ (data.length.toUInt64 * multiplier)) data)

def hashBytes (data : List UInt8) : UInt64 := hash defaultSeed data

end ClusterClient.Hash

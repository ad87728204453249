/-
# BLAKE3

The hash with 32-bit words and a tree: the message is cut into chunks of 1024
bytes, a chunk into blocks of 64, and neighbouring subtrees are joined in pairs
until one root is left.  A node's last compression is kept back (`Node`), because
it is done differently at the root.

| flag | marks |
| ---: | --- |
| 1 | the first block of a chunk |
| 2 | the last block of a chunk |
| 4 | a node that joins two subtrees |
| 8 | the root |
-/

import RoundChange.Bytes

namespace RoundChange
namespace Blake3

/-- Four words that are stirred side by side. -/
structure Row where
  (w0 w1 w2 w3 : UInt32)
deriving DecidableEq

namespace Row

/-- Applies an operation word by word. -/
def zip (f : UInt32 → UInt32 → UInt32) (x y : Row) : Row :=
  ⟨f x.w0 y.w0, f x.w1 y.w1, f x.w2 y.w2, f x.w3 y.w3⟩

/-- Rotates each word to the right, by 1 to 31 bits. -/
def rotate (n : UInt32) (x : Row) : Row :=
  let r (w : UInt32) := (w >>> n) ||| (w <<< (32 - n))
  ⟨r x.w0, r x.w1, r x.w2, r x.w3⟩

/-- Moves every word one place to the front, the first to the end. -/
def turn (x : Row) : Row := ⟨x.w1, x.w2, x.w3, x.w0⟩

/-- The words in order. -/
def toList (x : Row) : List UInt32 := [x.w0, x.w1, x.w2, x.w3]

/-- Four words from a place in a list on, zeros past its end. -/
def ofList (words : List UInt32) (place : Nat) : Row :=
  ⟨words.getD place 0, words.getD (place + 1) 0, words.getD (place + 2) 0,
   words.getD (place + 3) 0⟩

end Row

/-- The sixteen words that the rounds stir, in four rows. -/
structure State where
  (a b c d : Row)
deriving DecidableEq

/-- Stirs the four columns with four words each of two kinds. -/
def State.mix (s : State) (x y : Row) : State :=
  let a := (s.a.zip (· + ·) s.b).zip (· + ·) x
  let d := (s.d.zip (· ^^^ ·) a).rotate 16
  let c := s.c.zip (· + ·) d
  let b := (s.b.zip (· ^^^ ·) c).rotate 12
  let a := (a.zip (· + ·) b).zip (· + ·) y
  let d := (d.zip (· ^^^ ·) a).rotate 8
  let c := c.zip (· + ·) d
  ⟨a, (b.zip (· ^^^ ·) c).rotate 7, c, d⟩

/-- Stirs the columns, then the diagonals, with the sixteen words of a block. -/
def State.round (s : State) (m : List UInt32) : State :=
  let word (i : Nat) := m.getD i 0
  let s := s.mix ⟨word 0, word 2, word 4, word 6⟩ ⟨word 1, word 3, word 5, word 7⟩
  let s : State := ⟨s.a, s.b.turn, s.c.turn.turn, s.d.turn.turn.turn⟩
  let s := s.mix ⟨word 8, word 10, word 12, word 14⟩ ⟨word 9, word 11, word 13, word 15⟩
  ⟨s.a, s.b.turn.turn.turn, s.c.turn.turn, s.d.turn⟩

/-- The order in which the next round takes the words of this one. -/
def permutation : List Nat := [2, 6, 3, 10, 7, 0, 4, 13, 1, 11, 12, 5, 9, 14, 15, 8]

/-- So many rounds, the words of the block permuted between them. -/
def State.rounds : Nat → State → List UInt32 → State
  | 0, s, _ => s
  | count + 1, s, m => State.rounds count (s.round m) (permutation.map (m.getD · 0))

/-- The starting value of a chain: eight words. -/
def start : List UInt32 :=
  [0x6a09e667, 0xbb67ae85, 0x3c6ef372, 0xa54ff53a, 0x510e527f, 0x9b05688c, 0x1f83d9ab, 0x5be0cd19]

/-- A node of the tree before its last compression: the chain value so far, the
last block, its length, the number of the chunk, and the flags. -/
structure Node where
  chain : List UInt32
  block : List UInt32
  length : UInt32
  counter : Nat
  flags : UInt32

/-- The eight words of a compression, with more flags. -/
def Node.compress (n : Node) (flags : UInt32) : List UInt32 :=
  let s : State := ⟨Row.ofList n.chain 0, Row.ofList n.chain 4, Row.ofList start 0,
    ⟨UInt32.ofNat n.counter, UInt32.ofNat (n.counter >>> 32), n.length, n.flags ||| flags⟩⟩
  let t := s.rounds 7 n.block
  (t.a.zip (· ^^^ ·) t.c).toList ++ (t.b.zip (· ^^^ ·) t.d).toList

/-- A block of at most 64 bytes as sixteen words. -/
def words (block : List UInt8) : List UInt32 :=
  (pieces 4 16 block).map fun bytes => UInt32.ofNat (ofLittleEndian bytes)

/-- The blocks of a chunk from the second on, chained behind the node before them. -/
def Node.follow (n : Node) : List (List UInt8) → Node
  | [] => { n with flags := n.flags ||| 2 }
  | block :: rest =>
    Node.follow ⟨n.compress 0, words block, UInt32.ofNat block.length, n.counter, 0⟩ rest

/-- The node of one chunk of at most 1024 bytes; an empty one has one empty block. -/
def chunk (counter : Nat) (bytes : List UInt8) : Node :=
  let first := bytes.take 64
  let rest := bytes.drop 64
  Node.follow ⟨start, words first, UInt32.ofNat first.length, counter, 1⟩
    (pieces 64 ((rest.length + 63) / 64) rest)

/-- The node that joins two subtrees. -/
def join (left right : Node) : Node :=
  ⟨start, left.compress 0 ++ right.compress 0, 64, 0, 4⟩

/-- How many of the chunks go to the left: the greatest power of two below their
number. -/
def leftChunks (count : Nat) : Nat := 1 <<< (count - 1).log2

/-- The tree over bytes whose first chunk has this number, at most so many levels
high. -/
def tree : Nat → Nat → List UInt8 → Node
  | 0, counter, bytes => chunk counter bytes
  | levels + 1, counter, bytes =>
    if bytes.length ≤ 1024 then chunk counter bytes
    else
      let left := leftChunks ((bytes.length + 1023) / 1024)
      join (tree levels counter (bytes.take (1024 * left)))
        (tree levels (counter + left) (bytes.drop (1024 * left)))

/-- The hash of a message: 32 bytes. -/
def hash (message : List UInt8) : List UInt8 :=
  ((tree (message.length.log2 + 1) 0 message).compress 8).flatMap fun w => littleEndian 4 w.toNat

/-- **A hash has 32 bytes.** -/
theorem length_hash (message : List UInt8) : (hash message).length = 32 := by
  simp [hash, Node.compress, Row.toList]

end Blake3
end RoundChange

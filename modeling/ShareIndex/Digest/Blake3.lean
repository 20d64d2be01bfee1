import ShareIndex.Text.Hexadecimal

/-!
# ShareIndex.Digest.Blake3

The BLAKE3 hash of a byte string, in its default mode with a 256 bit result.

* `compress`    — the compression function on one block.
* `Node`        — the input of a compression whose flags may still gain `root`.
* `Node.tree`   — the hash tree over the chunks of a message.
* `digestHex`   — the digest of a message as 64 lowercase hexadecimal digits.
-/

namespace ShareIndex
namespace Digest

/-- The initial chaining value. -/
def initial : Vector UInt32 8 :=
  #v[0x6A09E667, 0xBB67AE85, 0x3C6EF372, 0xA54FF53A, 0x510E527F, 0x9B05688C, 0x1F83D9AB, 0x5BE0CD19]

def chunkStart : UInt32 := 1
def chunkEnd : UInt32 := 2
def parent : UInt32 := 4
def root : UInt32 := 8

def blockSize : Nat := 64
def chunkSize : Nat := 1024

def rotateRight (w : UInt32) (n : UInt32) : UInt32 := (w >>> n) ||| (w <<< (32 - n))

/-- The quarter round on the words `a`, `b`, `c`, `d` with the message words `x`, `y`. -/
def quarter (v : Vector UInt32 16) (a b c d : Fin 16) (x y : UInt32) : Vector UInt32 16 :=
  let a1 := v[a] + v[b] + x
  let d1 := rotateRight (v[d] ^^^ a1) 16
  let c1 := v[c] + d1
  let b1 := rotateRight (v[b] ^^^ c1) 12
  let a2 := a1 + b1 + y
  let d2 := rotateRight (d1 ^^^ a2) 8
  let c2 := c1 + d2
  let b2 := rotateRight (b1 ^^^ c2) 7
  (((v.set a a2).set b b2).set c c2).set d d2

/-- One round: the four columns, then the four diagonals. -/
def mixRound (v m : Vector UInt32 16) : Vector UInt32 16 :=
  let v := quarter v 0 4 8 12 m[0] m[1]
  let v := quarter v 1 5 9 13 m[2] m[3]
  let v := quarter v 2 6 10 14 m[4] m[5]
  let v := quarter v 3 7 11 15 m[6] m[7]
  let v := quarter v 0 5 10 15 m[8] m[9]
  let v := quarter v 1 6 11 12 m[10] m[11]
  let v := quarter v 2 7 8 13 m[12] m[13]
  quarter v 3 4 9 14 m[14] m[15]

/-- Where each message word of the next round comes from. -/
def schedule : Vector (Fin 16) 16 := #v[2, 6, 3, 10, 7, 0, 4, 13, 1, 11, 12, 5, 9, 14, 15, 8]

def permute (m : Vector UInt32 16) : Vector UInt32 16 := schedule.map fun i => m[i]

def mixRounds : Nat → Vector UInt32 16 → Vector UInt32 16 → Vector UInt32 16
  | 0, v, _ => v
  | n + 1, v, m => mixRounds n (mixRound v m) (permute m)

/-- Compress `block` into the chaining value `chain`; the first half of the full output. -/
def compress (chain : Vector UInt32 8) (block : Vector UInt32 16) (counter : UInt64)
    (length flags : UInt32) : Vector UInt32 8 :=
  let low := counter.toUInt32
  let high := (counter >>> 32).toUInt32
  let start : Vector UInt32 16 :=
    #v[chain[0], chain[1], chain[2], chain[3], chain[4], chain[5], chain[6], chain[7],
      initial[0], initial[1], initial[2], initial[3], low, high, length, flags]
  let v := mixRounds 7 start block
  Vector.ofFn fun (i : Fin 8) => v[i.val] ^^^ v[i.val + 8]

/-- The sixteen little-endian words of a block, short blocks being filled up with zeros. -/
def words (block : List UInt8) : Vector UInt32 16 :=
  let bytes := block.toArray
  Vector.ofFn fun (i : Fin 16) =>
    (bytes.getD (4 * i.val) 0).toUInt32 ||| ((bytes.getD (4 * i.val + 1) 0).toUInt32 <<< 8)
      ||| ((bytes.getD (4 * i.val + 2) 0).toUInt32 <<< 16) ||| ((bytes.getD (4 * i.val + 3) 0).toUInt32 <<< 24)

/-- A compression that is still to be done, and may turn out to be the last one. -/
structure Node where
  chain : Vector UInt32 8
  block : Vector UInt32 16
  counter : UInt64
  length : UInt32
  flags : UInt32

namespace Node

def output (n : Node) : Vector UInt32 8 := compress n.chain n.block n.counter n.length n.flags

def rootOutput (n : Node) : Vector UInt32 8 :=
  compress n.chain n.block n.counter n.length (n.flags ||| root)

/-- The node of one chunk: its blocks are compressed in order, up to the last one. -/
def ofChunk (counter : UInt64) (chain : Vector UInt32 8) (start : UInt32) (chunk : List UInt8) : Node :=
  if _ : chunk.length ≤ blockSize then
    ⟨chain, words chunk, counter, chunk.length.toUInt32, start ||| chunkEnd⟩
  else
    let next := compress chain (words (chunk.take blockSize)) counter blockSize.toUInt32 start
    ofChunk counter next 0 (chunk.drop blockSize)
termination_by chunk.length
decreasing_by rename_i h; simp [blockSize] at h ⊢; omega

def join (left right : Node) : Node :=
  let l := left.output
  let r := right.output
  ⟨initial, l ++ r, 0, blockSize.toUInt32, parent⟩

/-- The largest power of two below `n`, for `n` at least two. -/
def leftCount (n : Nat) : Nat := Nat.pow 2 (n - 1).log2

theorem leftCount_pos (n : Nat) : 0 < leftCount n := Nat.two_pow_pos _

theorem leftCount_lt {n : Nat} (h : 2 ≤ n) : leftCount n < n := by
  have h : leftCount n ≤ n - 1 := Nat.log2_self_le (by omega)
  omega

/-- The tree over the bytes of the chunks from `index` on: the left part is a full subtree. -/
def tree (index : Nat) (bytes : List UInt8) : Node :=
  if _ : bytes.length ≤ chunkSize then ofChunk index.toUInt64 initial chunkStart bytes
  else
    let left := leftCount ((bytes.length + chunkSize - 1) / chunkSize)
    join (tree index (bytes.take (left * chunkSize))) (tree (index + left) (bytes.drop (left * chunkSize)))
termination_by bytes.length
decreasing_by
  all_goals
    rename_i h
    simp only [chunkSize] at h ⊢
    have hc : 2 ≤ (bytes.length + 1024 - 1) / 1024 := by omega
    have h1 := leftCount_lt hc
    have h2 := leftCount_pos ((bytes.length + 1024 - 1) / 1024)
    simp only [List.length_take, List.length_drop]
    omega

end Node

def hexByte (b : UInt8) : List Char := [Hexadecimal.digitChar (b.toNat / 16), Hexadecimal.digitChar (b.toNat % 16)]

def littleEndian (w : UInt32) : List UInt8 :=
  [w.toUInt8, (w >>> 8).toUInt8, (w >>> 16).toUInt8, (w >>> 24).toUInt8]

/-- The digest of `bytes` in lowercase hexadecimal. -/
def digestHex (bytes : List UInt8) : String :=
  let digest := (Node.tree 0 bytes).rootOutput
  String.ofList ((digest.toList.flatMap littleEndian).flatMap hexByte)

end Digest
end ShareIndex

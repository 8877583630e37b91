import Menus.Runs
import Menus.Text.Digits

/-!
# Content digests

The BLAKE3 hash of a content, by which the template cache tells whether a file has changed and under
which name a record is kept. Bytes are cut into chunks of 1024, a chunk into blocks of 64. The
blocks of a chunk are compressed one after another and the chunks are joined in pairs, level by
level, until one node is left; an odd node moves up as it is. The last compression is marked as the
root's.
-/

namespace Menus.Digest

/-- The words a chain of compressions starts from. -/
def initial : Vector UInt32 8 :=
  #v[0x6A09E667, 0xBB67AE85, 0x3C6EF372, 0xA54FF53A, 0x510E527F, 0x9B05688C, 0x1F83D9AB, 0x5BE0CD19]

/-- Where each word of a message stands in the next round. -/
def schedule : Vector (Fin 16) 16 :=
  #v[2, 6, 3, 10, 7, 0, 4, 13, 1, 11, 12, 5, 9, 14, 15, 8]

/-- Marks the first block of a chunk. -/
def chunkStart : UInt32 := 1

/-- Marks the last block of a chunk. -/
def chunkEnd : UInt32 := 2

/-- Marks a block that joins two nodes. -/
def parent : UInt32 := 4

/-- Marks the last compression of all. -/
def rootMark : UInt32 := 8

/-- The word turned right. -/
def turn (word count : UInt32) : UInt32 :=
  (word >>> count) ||| (word <<< (32 - count))

/-- Mixes four words of the state with two of the message. -/
def mix (state : Vector UInt32 16) (a b c d : Fin 16) (first second : UInt32) :
    Vector UInt32 16 :=
  let wordA := state[a] + state[b] + first
  let wordD := turn (state[d] ^^^ wordA) 16
  let wordC := state[c] + wordD
  let wordB := turn (state[b] ^^^ wordC) 12
  let wordA := wordA + wordB + second
  let wordD := turn (wordD ^^^ wordA) 8
  let wordC := wordC + wordD
  let wordB := turn (wordB ^^^ wordC) 7
  (((state.set a wordA).set b wordB).set c wordC).set d wordD

/-- One round: the columns of the state, then its diagonals. -/
def round (state message : Vector UInt32 16) : Vector UInt32 16 :=
  let state := mix state 0 4 8 12 message[0] message[1]
  let state := mix state 1 5 9 13 message[2] message[3]
  let state := mix state 2 6 10 14 message[4] message[5]
  let state := mix state 3 7 11 15 message[6] message[7]
  let state := mix state 0 5 10 15 message[8] message[9]
  let state := mix state 1 6 11 12 message[10] message[11]
  let state := mix state 2 7 8 13 message[12] message[13]
  mix state 3 4 9 14 message[14] message[15]

/-- Rounds, the message rearranged after each. -/
def rounds : Nat → Vector UInt32 16 → Vector UInt32 16 → Vector UInt32 16
  | 0, state, _ => state
  | count + 1, state, message =>
    rounds count (round state message) (schedule.map fun place => message[place])

/-- A compression that has not been carried out, so that it can still be marked. -/
structure Node where
  chain : Vector UInt32 8
  message : Vector UInt32 16
  counter : Nat
  length : Nat
  marks : UInt32

/-- Carries a compression out. -/
def Node.compress (node : Node) (marks : UInt32) : Vector UInt32 8 :=
  let low := UInt32.ofNat node.counter
  let high := UInt32.ofNat (node.counter / 0x100000000)
  let setup : Vector UInt32 16 :=
    node.chain ++ (initial.take 4 ++ #v[low, high, UInt32.ofNat node.length, marks])
  let state := rounds 7 setup node.message
  Vector.ofFn fun place : Fin 8 => state[place] ^^^ state[place.val + 8]

/-- The chain a node hands on. -/
def Node.value (node : Node) : Vector UInt32 8 := node.compress node.marks

/-- The hash, if the node is the last. -/
def Node.root (node : Node) : Vector UInt32 8 := node.compress (node.marks ||| rootMark)

/-- Four bytes as a word, the low byte first. Missing bytes are zero. -/
def word (bytes : Array UInt8) (start : Nat) : UInt32 :=
  let byte (offset : Nat) : UInt32 := (bytes[start + offset]?.getD 0).toUInt32
  byte 0 ||| (byte 1 <<< 8) ||| (byte 2 <<< 16) ||| (byte 3 <<< 24)

/-- The words of a block, filled up with zeros. -/
def message (bytes : Array UInt8) : Vector UInt32 16 :=
  Vector.ofFn fun place : Fin 16 => word bytes (4 * place.val)

/-- The node of the blocks of a chunk that are left, given the chain so far. -/
def blocks (counter : Nat) (chain : Vector UInt32 8) (marks : UInt32) : List (List UInt8) → Node
  | [] => ⟨chain, message #[], counter, 0, marks ||| chunkEnd⟩
  | [block] => ⟨chain, message block.toArray, counter, block.length, marks ||| chunkEnd⟩
  | block :: rest =>
    let node : Node := ⟨chain, message block.toArray, counter, block.length, marks⟩
    blocks counter node.value 0 rest

/-- The node of a chunk. -/
def chunk (counter : Nat) (bytes : List UInt8) : Node :=
  blocks counter initial chunkStart (runs 64 bytes)

/-- The node that joins two. -/
def join (left right : Node) : Node :=
  ⟨initial, left.value ++ right.value, 0, 64, parent⟩

/-- Joins neighbours; an odd node stays. -/
def pair : List Node → List Node
  | left :: right :: rest => join left right :: pair rest
  | odd => odd

/-- Joining neighbours leaves fewer nodes where there are at least two. -/
theorem length_pair (nodes : List Node) : (pair nodes).length = (nodes.length + 1) / 2 := by
  fun_induction pair nodes with
  | case1 left right rest inductionHypothesis =>
    simp only [List.length_cons, inductionHypothesis]
    omega
  | case2 odd few =>
    match odd with
    | [] => rfl
    | [_] => simp
    | left :: right :: rest => exact absurd rfl (few left right rest)

/-- The hash of a run of nodes. -/
def top : List Node → Vector UInt32 8
  | [] => initial
  | [node] => node.root
  | left :: right :: rest => top (pair (left :: right :: rest))
termination_by nodes => nodes.length
decreasing_by
  rw [length_pair]
  simp only [List.length_cons]
  omega

/-- The words of the hash. -/
def hash (bytes : ByteArray) : Vector UInt32 8 :=
  match runs 1024 bytes.toList with
  | [] => top [chunk 0 []]
  | parts => top (parts.zipIdx.map fun (part, counter) => chunk counter part)

/-- A word as eight digits: its bytes, the low one first, each with its high digit first. -/
def hex (word : UInt32) : List Char :=
  ([4, 0, 12, 8, 20, 16, 28, 24] : List UInt32).map fun shift =>
    Text.hexDigit ((word >>> shift).toNat % 16)

/-- The digest of a content: the first sixteen bytes of its hash as hexadecimal digits. -/
def ofBytes (bytes : ByteArray) : String :=
  String.ofList ((hash bytes).toList.take 4 |>.flatMap hex)

/-- The digest of a text. -/
def ofText (text : String) : String := ofBytes text.toUTF8

end Menus.Digest

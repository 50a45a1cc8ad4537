import BeaconMesh.Crypto.Lanes

/-!
The BLAKE3 hash function in its three modes, with outputs of 32 bytes. A message is cut into
chunks of 1024 bytes; neighbouring results are joined pair by pair until one is left.
-/

set_option autoImplicit false
set_option relaxedAutoImplicit false

namespace BeaconMesh.Crypto.Blake3

structure Chaining where
  low : Lanes
  high : Lanes
  deriving DecidableEq, Repr, Inhabited

def start : Chaining :=
  ⟨⟨0x6a09e667, 0xbb67ae85, 0x3c6ef372, 0xa54ff53a⟩,
    ⟨0x510e527f, 0x9b05688c, 0x1f83d9ab, 0x5be0cd19⟩⟩

def Chaining.ofBytes (bs : Bytes) : Chaining :=
  let ws := wordsOfBytes bs
  ⟨Lanes.ofWords ws, Lanes.ofWords (ws.drop 4)⟩

def Chaining.toBytes (c : Chaining) : Bytes :=
  (c.low.toWords ++ c.high.toWords).flatMap bytesOfWord

def columnStep (g : Grid) (x y : Lanes) : Grid :=
  let a := (g.a.add g.b).add x
  let d := (g.d.xor a).rotate 16
  let c := g.c.add d
  let b := (g.b.xor c).rotate 20
  let a := (a.add b).add y
  let d := (d.xor a).rotate 24
  let c := c.add d
  let b := (b.xor c).rotate 25
  ⟨a, b, c, d⟩

/-- One round: the first half of the message goes into the columns, the second into the
diagonals. -/
def mixRound (g m : Grid) : Grid :=
  let evens (p q : Lanes) : Lanes := ⟨p.w0, p.w2, q.w0, q.w2⟩
  let odds (p q : Lanes) : Lanes := ⟨p.w1, p.w3, q.w1, q.w3⟩
  let columns := columnStep g (evens m.a m.b) (odds m.a m.b)
  (columnStep columns.diagonalize (evens m.c m.d) (odds m.c m.d)).undiagonalize

def permute (m : Grid) : Grid :=
  ⟨⟨m.a.w2, m.b.w2, m.a.w3, m.c.w2⟩, ⟨m.b.w3, m.a.w0, m.b.w0, m.d.w1⟩,
    ⟨m.a.w1, m.c.w3, m.d.w0, m.b.w1⟩, ⟨m.c.w1, m.d.w2, m.d.w3, m.c.w0⟩⟩

def mixRounds : Nat → Grid → Grid → Grid
  | 0, g, _ => g
  | count + 1, g, m => mixRounds count (mixRound g m) (permute m)

/-- A compression that waits for its last flags. -/
structure Node where
  chaining : Chaining
  block : Grid
  counter : UInt64
  length : UInt32
  flags : UInt32
  deriving Repr, Inhabited

def chunkStart : UInt32 := 1

def chunkEnd : UInt32 := 2

def parent : UInt32 := 4

def root : UInt32 := 8

def Node.compress (n : Node) (more : UInt32) : Chaining :=
  let g : Grid := ⟨n.chaining.low, n.chaining.high, start.low,
    ⟨n.counter.toUInt32, (n.counter >>> 32).toUInt32, n.length, n.flags ||| more⟩⟩
  let g := mixRounds 7 g n.block
  ⟨g.a.xor g.c, g.b.xor g.d⟩

/-- What distinguishes the modes: the words they start from and a flag on every compression. -/
structure Mode where
  key : Chaining
  flag : UInt32
  deriving Repr, Inhabited

def blockNode (mode : Mode) (counter : UInt64) (chaining : Chaining) (block : Bytes)
    (flags : UInt32) : Node :=
  ⟨chaining, Grid.ofBytes (Bytes.padTo 64 block), counter, UInt32.ofNat block.length,
    mode.flag ||| flags⟩

def chunkNode (mode : Mode) (counter : UInt64) (chaining : Chaining) (flags : UInt32)
    (block : Bytes) : List Bytes → Node
  | [] => blockNode mode counter chaining block (flags ||| chunkEnd)
  | next :: rest =>
    chunkNode mode counter ((blockNode mode counter chaining block flags).compress 0) 0 next rest

def join (mode : Mode) (left right : Node) : Node :=
  let l := left.compress 0
  let r := right.compress 0
  ⟨mode.key, ⟨l.low, l.high, r.low, r.high⟩, 0, 64, mode.flag ||| parent⟩

/-- Joins neighbours pair by pair; one that is left over stays. -/
def joinPairs (mode : Mode) : List Node → List Node
  | left :: right :: rest => join mode left right :: joinPairs mode rest
  | rest => rest

def joinAll (mode : Mode) : Nat → List Node → List Node
  | 0, nodes => nodes
  | passes + 1, nodes => joinAll mode passes (joinPairs mode nodes)

def chunkNodes (mode : Mode) : UInt64 → List Bytes → List Node
  | _, [] => []
  | counter, chunk :: rest =>
    let blocks := Bytes.pieces 64 chunk
    chunkNode mode counter mode.key chunkStart (blocks.headD []) blocks.tail
      :: chunkNodes mode (counter + 1) rest

/-- The 32-byte result for a message in a mode; the empty message is one empty chunk. -/
def digest (mode : Mode) (message : Bytes) : Bytes :=
  let chunks := if message.isEmpty then [[]] else Bytes.pieces 1024 message
  let nodes := chunkNodes mode 0 chunks
  (((joinAll mode nodes.length nodes).headD default).compress root).toBytes

def hash (message : Bytes) : Bytes := digest ⟨start, 0⟩ message

def keyedHash (key message : Bytes) : Bytes := digest ⟨Chaining.ofBytes key, 16⟩ message

/-- A 32-byte key made of key material for the use that the context names. -/
def deriveKey (context : String) (material : Bytes) : Bytes :=
  let contextKey := digest ⟨start, 32⟩ (Bytes.ofString context)
  digest ⟨Chaining.ofBytes contextKey, 64⟩ material

end BeaconMesh.Crypto.Blake3

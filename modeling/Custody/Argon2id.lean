import Custody.Hash.Blake2b
import Custody.Suite

set_option autoImplicit false

/-! # Argon2id

The memory-hard password hash of RFC 9106 in its hybrid form, version 1.3, with an output of 32
bytes and neither a secret nor associated data. Memory is a table of blocks of 128 words; each new
block is compressed from its predecessor and a block chosen by the salt and pass (in the first half
of the first pass) or by the data already written (afterwards). -/

namespace Custody.Argon2id

/-! ## The compression function -/

/-- One KiB of memory as 128 words. -/
abbrev Cell := Array UInt64

/-- Four words that are mixed together. -/
structure Quad where
  a : UInt64
  b : UInt64
  c : UInt64
  d : UInt64

/-- Addition with the doubled product of the low halves added on. -/
@[inline] def addProduct (x y : UInt64) : UInt64 :=
  x + y + 2 * ((x &&& 0xffffffff) * (y &&& 0xffffffff))

/-- Mix four words. -/
@[inline] def mix (a b c d : UInt64) : Quad :=
  let a := addProduct a b
  let d := rotateRight (d ^^^ a) 32
  let c := addProduct c d
  let b := rotateRight (b ^^^ c) 24
  let a := addProduct a b
  let d := rotateRight (d ^^^ a) 16
  let c := addProduct c d
  let b := rotateRight (b ^^^ c) 63
  ⟨a, b, c, d⟩

/-- Mix sixteen words of a cell, two neighbours from each of eight places that start at `base` and
    are `step` apart. -/
def mixSixteen (r : Cell) (base step : Nat) : Cell :=
  let i (k : Nat) : Nat := base + (k / 2) * step + k % 2
  let ⟨v0, v4, v8, v12⟩ := mix (r.getD (i 0) 0) (r.getD (i 4) 0) (r.getD (i 8) 0) (r.getD (i 12) 0)
  let ⟨v1, v5, v9, v13⟩ := mix (r.getD (i 1) 0) (r.getD (i 5) 0) (r.getD (i 9) 0) (r.getD (i 13) 0)
  let ⟨v2, v6, v10, v14⟩ :=
    mix (r.getD (i 2) 0) (r.getD (i 6) 0) (r.getD (i 10) 0) (r.getD (i 14) 0)
  let ⟨v3, v7, v11, v15⟩ :=
    mix (r.getD (i 3) 0) (r.getD (i 7) 0) (r.getD (i 11) 0) (r.getD (i 15) 0)
  let ⟨v0, v5, v10, v15⟩ := mix v0 v5 v10 v15
  let ⟨v1, v6, v11, v12⟩ := mix v1 v6 v11 v12
  let ⟨v2, v7, v8, v13⟩ := mix v2 v7 v8 v13
  let ⟨v3, v4, v9, v14⟩ := mix v3 v4 v9 v14
  let r := r.setIfInBounds (i 0) v0
  let r := r.setIfInBounds (i 1) v1
  let r := r.setIfInBounds (i 2) v2
  let r := r.setIfInBounds (i 3) v3
  let r := r.setIfInBounds (i 4) v4
  let r := r.setIfInBounds (i 5) v5
  let r := r.setIfInBounds (i 6) v6
  let r := r.setIfInBounds (i 7) v7
  let r := r.setIfInBounds (i 8) v8
  let r := r.setIfInBounds (i 9) v9
  let r := r.setIfInBounds (i 10) v10
  let r := r.setIfInBounds (i 11) v11
  let r := r.setIfInBounds (i 12) v12
  let r := r.setIfInBounds (i 13) v13
  let r := r.setIfInBounds (i 14) v14
  r.setIfInBounds (i 15) v15

/-- Word-wise exclusive or of two cells. -/
def xorCells (x y : Cell) : Cell := Array.zipWith (· ^^^ ·) x y

/-- Compress two cells into one: mix the eight rows and then the eight columns of their exclusive
    or, and add the exclusive or once more. -/
def compress (x y : Cell) : Cell :=
  let r := xorCells x y
  let rows := (List.range 8).foldl (fun m k => mixSixteen m (16 * k) 2) r
  let columns := (List.range 8).foldl (fun m k => mixSixteen m (2 * k) 16) rows
  xorCells columns r

/-- The cell of zeros. -/
def zeroCell : Cell := Array.replicate 128 0

/-! ## Filling the memory -/

/-- The shape of the memory: `columns` cells in each of `lanes` lanes, in four slices. -/
structure Shape where
  lanes : Nat
  passes : Nat
  columns : Nat

/-- Cells of one lane in one slice. -/
def Shape.segment (s : Shape) : Nat := s.columns / 4

/-- The memory is rounded down to a multiple of four cells a lane. -/
def Shape.ofCost (cost : KdfCost) : Shape :=
  let lanes := cost.lanes.toNat
  ⟨lanes, cost.passes.toNat, 4 * (cost.memory.toNat / (4 * lanes))⟩

/-- A place in the order in which memory is filled. -/
structure Place where
  pass : Nat
  slice : Nat
  lane : Nat
  index : Nat

/-- The random words that choose the cells of a segment without looking at the data: 128 of them
    for each value of `counter`. -/
def addresses (s : Shape) (p : Place) (counter : Nat) : Cell :=
  let input : Cell := (#[p.pass, p.lane, p.slice, s.lanes * s.columns, s.passes, 2, counter].map
    Nat.toUInt64) ++ Array.replicate 121 0
  compress zeroCell (compress zeroCell input)

/-- Whether the cell is chosen without looking at the data. -/
def Place.isIndependent (p : Place) : Bool := p.pass = 0 && p.slice < 2

/-- How many earlier cells of lane `lane` may be referred to. -/
def Shape.reachable (s : Shape) (p : Place) (lane : Nat) : Nat :=
  let finished := if p.pass = 0 then p.slice * s.segment else s.columns - s.segment
  if lane = p.lane then finished + p.index - 1
  else if p.index = 0 then finished - 1 else finished

/-- The lane and column that a random word refers to; recent cells are the more likely. -/
def Shape.target (s : Shape) (p : Place) (random : UInt64) : Nat × Nat :=
  let low := random.toNat % UInt32.size
  let high := random.toNat / UInt32.size
  let lane := if p.pass = 0 ∧ p.slice = 0 then p.lane else high % s.lanes
  let area := s.reachable p lane
  let back := (area * (low * low / UInt32.size)) / UInt32.size
  let start := if p.pass = 0 then 0 else ((p.slice + 1) % 4) * s.segment
  (lane, (start + (area - 1 - back)) % s.columns)

/-- The memory in lane order, and the random words in use with their counter. -/
structure Memory where
  cells : Array Cell
  random : Cell
  counter : Nat

/-- Write the cell at one place. -/
def Memory.write (s : Shape) (m : Memory) (p : Place) : Memory :=
  let column := p.slice * s.segment + p.index
  -- the very first segment starts at its third cell, where its random words are not made yet
  let m :=
    if p.isIndependent && (p.index % 128 = 0 || (p.pass = 0 && p.slice = 0 && p.index = 2)) then
      { m with random := addresses s p (m.counter + 1), counter := m.counter + 1 }
    else m
  let row := p.lane * s.columns
  let previous := m.cells.getD (row + (column + s.columns - 1) % s.columns) zeroCell
  let random :=
    if p.isIndependent then m.random.getD (p.index % 128) 0 else previous.getD 0 0
  let (lane, target) := s.target p random
  let fresh := compress previous (m.cells.getD (lane * s.columns + target) zeroCell)
  let renew (old : Cell) : Cell := if p.pass = 0 then fresh else xorCells old fresh
  { m with cells := m.cells.modify (row + column) renew }

/-- Fill one segment; the first two cells of each lane are given. -/
def Memory.fillSegment (s : Shape) (m : Memory) (pass slice lane : Nat) : Memory :=
  let first := if pass = 0 ∧ slice = 0 then 2 else 0
  (List.range' first (s.segment - first)).foldl
    (fun m index => m.write s ⟨pass, slice, lane, index⟩) { m with counter := 0 }

/-- Fill the memory, pass by pass and slice by slice. -/
def Memory.fill (s : Shape) (m : Memory) : Memory :=
  (List.range s.passes).foldl (fun m pass =>
    (List.range 4).foldl (fun m slice =>
      (List.range s.lanes).foldl (fun m lane => m.fillSegment s pass slice lane) m) m) m

/-! ## The derivation -/

/-- A number on four bytes. -/
def word32 (n : Nat) : Bytes := Bytes.ofNat 4 n

/-- The digest of all parameters and inputs that the memory starts from. -/
def seed (cost : KdfCost) (password salt : Bytes) : Bytes :=
  -- 0x13 is the version and 2 the hybrid form; the two zeros stand for what is not used
  Blake2b.hash 64 (word32 cost.lanes.toNat ++ word32 32 ++ word32 cost.memory.toNat
    ++ word32 cost.passes.toNat ++ word32 0x13 ++ word32 2
    ++ word32 password.length ++ password ++ word32 salt.length ++ salt ++ word32 0 ++ word32 0)

/-- The memory with the first two cells of each lane in place. -/
def start (s : Shape) (seed : Bytes) : Memory :=
  let cell (lane column : Nat) : Cell :=
    if column < 2 then littleEndianWords (Blake2b.longHash 1024 (seed ++ word32 column ++ word32 lane))
    else zeroCell
  let cells := (List.range s.lanes).flatMap fun lane => (List.range s.columns).map (cell lane)
  ⟨cells.toArray, zeroCell, 0⟩

/-- The 32 bytes derived from a password and a salt. -/
def derive (cost : KdfCost) (password salt : Bytes) : Block 32 :=
  let s := Shape.ofCost cost
  let m := (start s (seed cost password salt)).fill s
  let final := (List.range s.lanes).foldl
    (fun acc lane => xorCells acc (m.cells.getD (lane * s.columns + s.columns - 1) zeroCell))
    zeroCell
  Block.fit 32 (Blake2b.longHash 32 (Blake2b.bytes final))

end Custody.Argon2id

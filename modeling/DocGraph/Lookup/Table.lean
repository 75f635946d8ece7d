import DocGraph.Name

/-! Append-only tables whose keys are the hashes of names. Items live in a chain of blocks of one
size, so that an index handed out once keeps naming its item: item `i` is slot `i % blockSize` of
block `i / blockSize`. Names with one hash share an item, and the first item with a hash is the one
found. -/
namespace DocGraph.Hash

def seed : UInt32 := 0x811c9dc5
def factor : UInt32 := 0x01000193

def mix (hash : UInt32) (byte : UInt8) : UInt32 := (hash * factor) ^^^ byte.toUInt32

/-- The 32 bit Fowler-Noll-Vo hash, which multiplies before it mixes a byte in. -/
def ofBytes (bytes : Bytes) : UInt32 := bytes.foldl mix seed

end DocGraph.Hash

namespace DocGraph.Lookup

def blockSize : Nat := 100

structure Item (α : Type) where
  hash : UInt32
  name : Name
  payload : Option α
  line : UInt16
  group : UInt16 := 0
  deriving DecidableEq, Repr

def Item.ofName (name : Bytes) (payload : Option α) (line : UInt16) : Item α :=
  { hash := Hash.ofBytes name, name := ⟨name, false⟩, payload, line }

structure Table (α : Type) where
  blocks : Array (Array (Item α)) := #[#[]]
  deriving Repr

namespace Table

def toList (table : Table α) : List (Item α) := table.blocks.toList.flatMap Array.toList

def size (table : Table α) : Nat := table.toList.length

def isEmpty (table : Table α) : Bool := table.size == 0

def blockCount (table : Table α) : Nat := table.blocks.size

def get? (table : Table α) (index : Nat) : Option (Item α) := do
  let block ← table.blocks[index / blockSize]?
  block[index % blockSize]?

/-- The slot of the first item with the given hash, the first block having the given number. -/
def slotIn? (hash : UInt32) : Nat → List (Array (Item α)) → Option Nat
  | _, [] => none
  | number, block :: blocks =>
    match block.findIdx? (·.hash == hash) with
    | some slot => some (number * blockSize + slot)
    | none => slotIn? hash (number + 1) blocks

def position? (table : Table α) (name : Bytes) : Option Nat :=
  slotIn? (Hash.ofBytes name) 0 table.blocks.toList

def find? (table : Table α) (name : Bytes) : Option (Item α) :=
  (table.position? name).bind table.get?

/-- Appends an item, in a new block when the last one is full, and gives its index. -/
def push (table : Table α) (item : Item α) : Table α × Nat :=
  let last := table.blocks.size - 1
  let used := (table.blocks[last]?.map Array.size).getD blockSize
  if used < blockSize then
    ({ blocks := table.blocks.modify last (·.push item) }, last * blockSize + used)
  else
    ({ blocks := table.blocks.push #[item] }, table.blocks.size * blockSize)

/-- The index of the item for a name; an item is added only when no hash agrees. -/
def add (table : Table α) (name : Bytes) (payload : α) (line : UInt16) : Table α × Nat :=
  match table.position? name with
  | some index => (table, index)
  | none => table.push (.ofName name (some payload) line)

/-- As `add`, the new item having no payload. -/
def findOrAdd (table : Table α) (name : Bytes) : Table α × Nat :=
  match table.position? name with
  | some index => (table, index)
  | none => table.push (.ofName name none 0)

/-- Adds an item for the empty name, to be named later. -/
def newSlot (table : Table α) : Table α × Nat := table.push (.ofName [] none 0)

/-- Changes one item; false when the index names none. -/
def modify (table : Table α) (index : Nat) (change : Item α → Item α) : Table α × Bool :=
  match table.get? index with
  | none => (table, false)
  | some _ =>
    ({ blocks := table.blocks.modify (index / blockSize) (·.modify (index % blockSize) change) }, true)

/-- Names and rehashes an item, keeping its payload. -/
def setName (table : Table α) (index : Nat) (name : Name) (line : UInt16) : Table α × Bool :=
  table.modify index fun item => { item with hash := Hash.ofBytes name.bytes, name, line }

def setGroup (table : Table α) (index : Nat) (group : UInt16) : Table α × Bool :=
  table.modify index fun item => { item with group }

end Table

end DocGraph.Lookup

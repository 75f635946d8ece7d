import DocGraph.Lookup.Table
import Mathlib.Data.List.Induction

/-! A chain of blocks as one list of items, without the division of indexes. Names of one hash are not told
apart, in the list as in the chain. -/
namespace DocGraph.Lookup

/-- The operations that may change a table. -/
inductive Operation (α : Type)
  | add (name : Bytes) (payload : α) (line : UInt16)
  | findOrAdd (name : Bytes)
  | newSlot
  | setName (index : Nat) (name : Name) (line : UInt16)
  | setGroup (index : Nat) (group : UInt16)

/-- The index of an item, or whether there is an item to be changed. -/
inductive Answer
  | index (index : Nat)
  | changed (known : Bool)
  deriving DecidableEq, Repr

/-- The index of the first item with the hash of a name. -/
def firstIndex? (items : List (Item α)) (name : Bytes) : Option Nat :=
  items.findIdx? (·.hash == Hash.ofBytes name)

namespace Operation

def key? : Operation α → Option Bytes
  | add name _ _ | findOrAdd name => some name
  | newSlot | setName _ _ _ | setGroup _ _ => none

def renames : Operation α → Bool
  | setName _ _ _ => true
  | add _ _ _ | findOrAdd _ | newSlot | setGroup _ _ => false

/-- Appends an item when none is found. -/
def appendTo (items : List (Item α)) (found : Option Nat) (item : Item α) : List (Item α) × Answer :=
  match found with
  | some index => (items,.index index)
  | none => (items ++ [item],.index items.length)

/-- Changes an item when there is one. -/
def changeIn (items : List (Item α)) (index : Nat) (change : Item α → Item α) :
    List (Item α) × Answer :=
  if index < items.length then (items.modify index change,.changed true) else (items,.changed false)

def onItems (items : List (Item α)) : Operation α → List (Item α) × Answer
  | add name payload line => appendTo items (firstIndex? items name) (.ofName name (some payload) line)
  | findOrAdd name => appendTo items (firstIndex? items name) (.ofName name none 0)
  | newSlot => appendTo items none (.ofName [] none 0)
  | setName index name line =>
    changeIn items index ({ · with hash := Hash.ofBytes name.bytes, name, line })
  | setGroup index group => changeIn items index ({ · with group })

def itemsAfter (operations : List (Operation α)) : List (Item α) :=
  operations.foldl (fun items operation => (operation.onItems items).1) []

end Operation

namespace Table

def perform (table : Table α) : Operation α → Table α × Answer
  | .add name payload line => (table.add name payload line).map id .index
  | .findOrAdd name => (table.findOrAdd name).map id .index
  | .newSlot => table.newSlot.map id .index
  | .setName index name line => (table.setName index name line).map id .changed
  | .setGroup index group => (table.setGroup index group).map id .changed

def after (operations : List (Operation α)) : Table α :=
  operations.foldl (fun table operation => (table.perform operation).1) {}

/-- All that a table shows is read off a list of items, with nothing divided. -/
structure Lists (table : Table α) (items : List (Item α)) : Prop where
  toList : table.toList = items
  size : table.size = items.length
  get : ∀ index, table.get? index = items[index]?
  position : ∀ name, table.position? name = firstIndex? items name
  find : ∀ name, table.find? name = (firstIndex? items name).bind (items[·]?)
  hashed : ∀ item ∈ items, item.hash = Hash.ofBytes item.name.bytes
  blocks : table.blockCount = max 1 ((items.length + (blockSize - 1)) / blockSize)
  full : ∀ number, number + 1 < table.blockCount →
    ∃ block, table.blocks[number]? = some block ∧ block.size = blockSize

/-- The blocks before the last are full, and the last is empty only when there are none before it. -/
structure Chained (table : Table α) (front : List (Array (Item α))) (last : Array (Item α)) : Prop where
  split : table.blocks.toList = front ++ [last]
  full : ∀ block ∈ front, block.size = blockSize
  fits : last.size ≤ blockSize
  used : front ≠ [] → 0 < last.size

variable {table other : Table α} {front : List (Array (Item α))} {last : Array (Item α)}
  {items : List (Item α)}

theorem length_flatMap_full (full : ∀ block ∈ front, block.size = blockSize) :
    (front.flatMap Array.toList).length = front.length * blockSize := by
  induction front with
  | nil => rfl
  | cons block front ih =>
    have here := full block List.mem_cons_self
    have rest := ih fun block later => full block (List.mem_cons_of_mem _ later)
    simp only [List.flatMap_cons, List.length_append, Array.length_toList, List.length_cons, here, rest]
    rw [Nat.add_mul, Nat.one_mul, Nat.add_comm]

theorem getElem?_flatMap_full (full : ∀ block ∈ front, block.size = blockSize)
    (fits : last.size ≤ blockSize) (index : Nat) :
    ((front ++ [last])[index / blockSize]?.bind fun block => block[index % blockSize]?) =
      ((front ++ [last]).flatMap Array.toList)[index]? := by
  induction front generalizing index with
  | nil =>
    by_cases inside : index < blockSize
    · simp [Nat.div_eq_of_lt inside,Nat.mod_eq_of_lt inside]
    · have beyond : 1 ≤ index / blockSize := by
        rw [Nat.le_div_iff_mul_le (by decide)]
        omega
      rw [List.nil_append, List.getElem?_eq_none (by simpa using beyond)]
      simp [show last.size ≤ index by omega]
  | cons block front ih =>
    have here := full block List.mem_cons_self
    rw [List.cons_append, List.flatMap_cons]
    by_cases inside : index < blockSize
    · rw [List.getElem?_append_left (by simpa [here] using inside)]
      simp [Nat.div_eq_of_lt inside,Nat.mod_eq_of_lt inside]
    · obtain ⟨later,rfl⟩ := Nat.exists_eq_add_of_le' (Nat.le_of_not_lt inside)
      have rest := ih (fun block later => full block (List.mem_cons_of_mem _ later)) later
      rw [Nat.add_div_right _ (by decide), Nat.add_mod_right, List.getElem?_cons_succ, rest,
        List.getElem?_append_right (by simp [here])]
      simp [here]

theorem slotIn?_eq (hash : UInt32) (full : ∀ block ∈ front, block.size = blockSize) (number : Nat) :
    slotIn? hash number (front ++ [last]) =
      (((front ++ [last]).flatMap Array.toList).findIdx? (·.hash == hash)).map
        (number * blockSize + ·) := by
  induction front generalizing number with
  | nil =>
    rw [List.nil_append, slotIn?, ← last.toArray_toList, List.findIdx?_toArray]
    cases found : last.toList.findIdx? (·.hash == hash) <;> simp [slotIn?,found]
  | cons block front ih =>
    have here := full block List.mem_cons_self
    have rest := ih (fun block later => full block (List.mem_cons_of_mem _ later)) (number + 1)
    rw [List.cons_append, List.flatMap_cons, List.findIdx?_append, slotIn?, rest]
    rw [show block.findIdx? _ = _ from List.findIdx?_toArray _ block.toList]
    have shift : (number * blockSize + ·) ∘ (· + blockSize) = ((number + 1) * blockSize + ·) := by
      funext slot
      rw [Function.comp_apply, Nat.add_mul]
      omega
    cases block.toList.findIdx? (·.hash == hash) with
    | some slot => simp
    | none =>
      rw [Option.none_or, Option.map_map, Array.length_toList, here, shift]

theorem modify_concat (front : List β) (last : β) (index : Nat) (change : β → β) :
    (front ++ [last]).modify index change =
      front.modify index change ++ [if index = front.length then change last else last] := by
  induction front generalizing index with
  | nil => cases index <;> simp
  | cons block front ih => cases index <;> simp [ih]

theorem get?_modify (table : Table α) (index other : Nat) (change : Item α → Item α) :
    let onBlock (block : Array (Item α)) := block.modify (index % blockSize) change
    ({ blocks := table.blocks.modify (index / blockSize) onBlock } : Table α).get? other =
      (table.get? other).map fun item => if index = other then change item else item := by
  by_cases same : index = other
  · subst same
    simp only [get?, Array.getElem?_modify, if_true]
    cases table.blocks[index / blockSize]? <;> simp [Array.getElem?_modify]
  · have apart : index / blockSize = other / blockSize → index % blockSize ≠ other % blockSize := by
      intro number slot
      apply same
      rw [← Nat.div_add_mod index blockSize, number, slot, Nat.div_add_mod]
    simp only [get?, Array.getElem?_modify, if_neg same, Option.map_id']
    split
    · rename_i number
      cases table.blocks[other / blockSize]? <;> simp [Array.getElem?_modify,apart number]
    · rfl

namespace Chained

variable (chained : table.Chained front last)

include chained

theorem toList_eq : table.toList = (front ++ [last]).flatMap Array.toList := by
  rw [toList, chained.split]

theorem length_eq : table.toList.length = front.length * blockSize + last.size := by
  simp [chained.toList_eq,length_flatMap_full chained.full]

theorem blockCount_eq : table.blockCount = front.length + 1 := by
  rw [blockCount, ← Array.length_toList, chained.split]
  simp

theorem get?_eq (index : Nat) : table.get? index = table.toList[index]? := by
  rw [chained.toList_eq, ← getElem?_flatMap_full chained.full chained.fits, ← chained.split]
  simp [get?]

theorem position?_eq (name : Bytes) : table.position? name = firstIndex? table.toList name := by
  rw [position?, chained.split, slotIn?_eq _ chained.full, chained.toList_eq]
  simp [firstIndex?]

theorem blockCount_eq_max :
    table.blockCount = max 1 ((table.toList.length + (blockSize - 1)) / blockSize) := by
  have fits := chained.fits
  have used := chained.used
  rw [chained.blockCount_eq, chained.length_eq]
  rcases front.eq_nil_or_concat with rfl | ⟨_,_,rfl⟩
  · simp only [List.length_nil, blockSize] at fits ⊢
    omega
  · have some_ := used (by simp)
    simp only [blockSize] at fits ⊢
    omega

theorem lists (hashed : ∀ item ∈ table.toList, item.hash = Hash.ofBytes item.name.bytes) :
    table.Lists table.toList := by
  refine ⟨rfl,rfl,chained.get?_eq,chained.position?_eq,fun name => ?_,hashed,chained.blockCount_eq_max,
    fun number before => ?_⟩
  · rw [find?, chained.position?_eq]
    congr 1
    funext index
    exact chained.get?_eq index
  · rw [chained.blockCount_eq] at before
    have inside : number < front.length := by omega
    refine ⟨front[number],?_,chained.full _ (List.getElem_mem inside)⟩
    rw [← Array.getElem?_toList, chained.split, List.getElem?_append_left inside,
      List.getElem?_eq_getElem inside]

theorem push (item : Item α) :
    (∃ front last, (table.push item).1.Chained front last) ∧
      (table.push item).1.toList = table.toList ++ [item] ∧
      (table.push item).2 = table.toList.length := by
  have size : table.blocks.size = front.length + 1 := chained.blockCount_eq
  have there : table.blocks[front.length]? = some last := by
    rw [← Array.getElem?_toList, chained.split]
    simp
  have fits := chained.fits
  unfold Table.push
  simp only [size, Nat.add_sub_cancel, there, Option.map_some, Option.getD_some]
  split
  · rename_i room
    have split : (table.blocks.modify front.length (·.push item)).toList = front ++ [last.push item] := by
      rw [Array.toList_modify, chained.split, modify_concat, List.modify_eq_self (Nat.le_refl _),
        if_pos rfl]
    refine ⟨⟨front,last.push item,split,chained.full,?_,fun _ => ?_⟩,?_,chained.length_eq.symm⟩
    · rw [Array.size_push]
      exact room
    · simp
    · rw [toList, split, chained.toList_eq]
      simp
  · rename_i filled
    have last_full : last.size = blockSize := by omega
    have split : (table.blocks.push #[item]).toList = (front ++ [last]) ++ [#[item]] := by
      rw [Array.toList_push, chained.split]
    refine ⟨⟨front ++ [last],#[item],split,?_,by simp [blockSize],fun _ => by simp⟩,?_,?_⟩
    · intro block member
      rcases List.mem_append.mp member with earlier | here
      · exact chained.full block earlier
      · rw [List.mem_singleton.mp here]
        exact last_full
    · rw [toList, split, chained.toList_eq]
      simp
    · rw [chained.length_eq, last_full, Nat.add_mul, Nat.one_mul]

theorem modifyBlock (number : Nat) {change : Array (Item α) → Array (Item α)}
    (sized : ∀ block, (change block).size = block.size) :
    ({ blocks := table.blocks.modify number change } : Table α).Chained (front.modify number change)
      (if number = front.length then change last else last) := by
  refine ⟨?_,fun block member => ?_,?_,fun some_ => ?_⟩
  · rw [Array.toList_modify, chained.split, modify_concat]
  · obtain ⟨place,within,rfl⟩ := List.mem_iff_getElem.mp member
    rw [List.getElem_modify]
    split <;> simp only [sized, chained.full _ (List.getElem_mem _)]
  · split <;> simpa only [sized] using chained.fits
  · have used := chained.used (by simpa using some_)
    split <;> simpa only [sized] using used

/-- Changing an item leaves the sizes of all blocks, and all other items. -/
theorem modify (index : Nat) (change : Item α → Item α) :
    (∃ front last, (table.modify index change).1.Chained front last) ∧
      (table.modify index change).1.toList = table.toList.modify index change ∧
      (table.modify index change).2 = decide (index < table.toList.length) := by
  unfold Table.modify
  rw [chained.get?_eq]
  by_cases inside : index < table.toList.length
  · simp only [List.getElem?_eq_getElem inside, inside, decide_true, and_true]
    have sized (block : Array (Item α)) : (block.modify (index % blockSize) change).size = block.size :=
      Array.size_modify
    have changed := chained.modifyBlock (index / blockSize) sized
    refine ⟨⟨_,_,changed⟩,List.ext_getElem? fun other => ?_⟩
    rw [← changed.get?_eq, get?_modify, chained.get?_eq, List.getElem?_modify]
    rfl
  · simp only [List.getElem?_eq_none (Nat.le_of_not_lt inside), inside, decide_false, and_true]
    exact ⟨⟨front,last,chained⟩,(List.modify_eq_self (Nat.le_of_not_lt inside)).symm⟩

theorem block_fits {number : Nat} {block : Array (Item α)}
    (there : table.blocks[number]? = some block) : block.size ≤ blockSize := by
  rw [← Array.getElem?_toList, chained.split] at there
  rcases List.mem_append.mp (List.mem_of_getElem? there) with earlier | here
  · exact Nat.le_of_eq (chained.full block earlier)
  · rw [List.mem_singleton.mp here]
    exact chained.fits

theorem unique {front' : List (Array (Item α))} {last' : Array (Item α)}
    (chained' : other.Chained front' last') (same : other.toList = table.toList) : other = table := by
  have count : other.blocks.size = table.blocks.size := by
    have count' := chained'.blockCount_eq_max
    rw [same, ← chained.blockCount_eq_max] at count'
    exact count'
  have slots (number slot : Nat) (inside : slot < blockSize) :
      (other.blocks[number]?.bind (·[slot]?)) = table.blocks[number]?.bind (·[slot]?) := by
    have place : (number * blockSize + slot) / blockSize = number := by
      rw [Nat.mul_comm, Nat.mul_add_div (by decide), Nat.div_eq_of_lt inside, Nat.add_zero]
    have items := chained'.get?_eq (number * blockSize + slot)
    rw [same, ← chained.get?_eq] at items
    simpa only [get?, place, Nat.mul_add_mod_of_lt inside, Option.bind_eq_bind] using items
  have blocks : other.blocks = table.blocks := by
    refine Array.ext count fun number inside inside' => Array.ext_getElem? fun slot => ?_
    have there := Array.getElem?_eq_getElem inside
    have there' := Array.getElem?_eq_getElem inside'
    by_cases within : slot < blockSize
    · simpa only [there, there', Option.bind_some] using slots number slot within
    · have fits := chained'.block_fits there
      have fits' := chained.block_fits there'
      rw [Array.getElem?_eq_none (by omega), Array.getElem?_eq_none (by omega)]
  cases other
  cases table
  exact congrArg Table.mk blocks

end Chained

/-- The chain of a table has the items of a list, each with the hash of its name. -/
structure Holds (table : Table α) (items : List (Item α)) : Prop where
  chained : ∃ front last, table.Chained front last
  toList : table.toList = items
  hashed : ∀ item ∈ items, item.hash = Hash.ofBytes item.name.bytes

theorem empty_holds : Holds ({} : Table α) [] :=
  ⟨⟨[],#[],rfl,nofun,Nat.zero_le _,fun some_ => absurd rfl some_⟩,rfl,nofun⟩

namespace Holds

variable (holds : table.Holds items)

include holds

theorem lists : table.Lists items := by
  obtain ⟨⟨front,last,chained⟩,rfl,hashed⟩ := holds
  exact chained.lists hashed

theorem push (item : Item α) (hashed : item.hash = Hash.ofBytes item.name.bytes) :
    (table.push item).1.Holds (items ++ [item]) ∧ (table.push item).2 = items.length := by
  obtain ⟨⟨front,last,chained⟩,rfl,earlier⟩ := holds
  obtain ⟨chained',toList',index⟩ := chained.push item
  refine ⟨⟨chained',toList',fun other member => ?_⟩,index⟩
  rcases List.mem_append.mp member with old | new
  · exact earlier other old
  · rwa [List.mem_singleton.mp new]

theorem modify (index : Nat) {change : Item α → Item α}
    (keeps : ∀ item, item.hash = Hash.ofBytes item.name.bytes →
      (change item).hash = Hash.ofBytes (change item).name.bytes) :
    let changed := table.modify index change
    changed.1.Holds (Operation.changeIn items index change).1 ∧
      Answer.changed changed.2 = (Operation.changeIn items index change).2 := by
  obtain ⟨⟨front,last,chained⟩,rfl,earlier⟩ := holds
  obtain ⟨chained',toList',known⟩ := chained.modify index change
  unfold Operation.changeIn
  split
  · rename_i inside
    refine ⟨⟨chained',toList',fun item member => ?_⟩,by simp [known,inside]⟩
    obtain ⟨place,within,rfl⟩ := List.mem_iff_getElem.mp member
    rw [List.getElem_modify]
    split
    · exact keeps _ (earlier _ (List.getElem_mem _))
    · exact earlier _ (List.getElem_mem _)
  · rename_i outside
    rw [List.modify_eq_self (Nat.le_of_not_lt outside)] at toList'
    exact ⟨⟨chained',toList',earlier⟩,by simp [known,outside]⟩

/-- A table does what its list does. -/
theorem perform (operation : Operation α) :
    (table.perform operation).1.Holds (operation.onItems items).1 ∧
      (table.perform operation).2 = (operation.onItems items).2 := by
  have position := holds.lists.position
  cases operation with
  | add name payload line =>
    simp only [Table.perform, add, position, Operation.onItems]
    cases firstIndex? items name with
    | some index => exact ⟨holds,rfl⟩
    | none =>
      obtain ⟨next,index⟩ := holds.push (.ofName name (some payload) line) rfl
      exact ⟨next,congrArg Answer.index index⟩
  | findOrAdd name =>
    simp only [Table.perform, findOrAdd, position, Operation.onItems]
    cases firstIndex? items name with
    | some index => exact ⟨holds,rfl⟩
    | none =>
      obtain ⟨next,index⟩ := holds.push (.ofName name none 0) rfl
      exact ⟨next,congrArg Answer.index index⟩
  | newSlot =>
    obtain ⟨next,index⟩ := holds.push (.ofName [] none 0) rfl
    exact ⟨next,congrArg Answer.index index⟩
  | setName index name line => exact holds.modify index fun _ _ => rfl
  | setGroup index group => exact holds.modify index fun _ hashed => hashed

theorem unique (holds' : other.Holds items) : other = table := by
  obtain ⟨⟨_,_,chained⟩,toList,_⟩ := holds
  obtain ⟨⟨_,_,chained'⟩,toList',_⟩ := holds'
  exact chained.unique chained' (toList'.trans toList.symm)

end Holds

theorem after_append (earlier later : List (Operation α)) :
    after (earlier ++ later) =
      later.foldl (fun table operation => (table.perform operation).1) (after earlier) :=
  List.foldl_append

theorem after_holds (operations : List (Operation α)) :
    (after operations).Holds (Operation.itemsAfter operations) := by
  induction operations using List.reverseRecOn with
  | nil => exact empty_holds
  | append_singleton operations operation ih =>
    rw [after_append, Operation.itemsAfter, List.foldl_append]
    exact (ih.perform operation).1

end Table

theorem firstIndex?_append (items : List (Item α)) (item : Item α) (name : Bytes) {index : Nat}
    (found : firstIndex? items name = some index) : firstIndex? (items ++ [item]) name = some index := by
  rw [firstIndex?] at found
  rw [firstIndex?, List.findIdx?_append, found, Option.some_or]

theorem firstIndex?_modify (items : List (Item α)) (place : Nat) {change : Item α → Item α}
    (keeps : ∀ item, (change item).hash = item.hash) (name : Bytes) :
    firstIndex? (items.modify place change) name = firstIndex? items name := by
  unfold firstIndex?
  induction items generalizing place with
  | nil => rw [List.modify_nil]
  | cons item items ih =>
    cases place with
    | zero => rw [List.modify_zero_cons, List.findIdx?_cons, List.findIdx?_cons, keeps]
    | succ place => rw [List.modify_succ_cons, List.findIdx?_cons, List.findIdx?_cons, ih]

namespace Operation

variable {items : List (Item α)} {operation : Operation α} {name : Bytes} {index : Nat}

theorem appendTo_known (found : Option Nat) (item : Item α)
    (known : firstIndex? items name = some index) :
    firstIndex? (appendTo items found item).1 name = some index := by
  cases found with
  | some => exact known
  | none => exact firstIndex?_append items item name known

/-- An index that stands for a name goes on standing for it unless an item is renamed. -/
theorem known_onItems (known : firstIndex? items name = some index) (keeps : operation.renames = false) :
    firstIndex? (operation.onItems items).1 name = some index := by
  cases operation with
  | add | findOrAdd | newSlot => exact appendTo_known _ _ known
  | setName => cases keeps
  | setGroup place group =>
    have kept : firstIndex? (items.modify place ({ · with group })) name = firstIndex? items name := by
      apply firstIndex?_modify
      exact fun _ => rfl
    simp only [onItems, changeIn]
    split
    · exact kept.trans known
    · exact known

theorem appendTo_answer {item : Item α} (hashed : item.hash = Hash.ofBytes name)
    (answer : (appendTo items (firstIndex? items name) item).2 = .index index) :
    firstIndex? (appendTo items (firstIndex? items name) item).1 name = some index := by
  cases found : firstIndex? items name with
  | some first =>
    rw [found] at answer
    cases answer
    exact found
  | none =>
    rw [found] at answer
    cases answer
    rw [firstIndex?] at found
    simp [appendTo,firstIndex?,List.findIdx?_append,found,hashed]

/-- The index that is answered for a name stands for it from then on. -/
theorem known_of_answer (asked : operation.key? = some name)
    (answer : (operation.onItems items).2 = .index index) :
    firstIndex? (operation.onItems items).1 name = some index := by
  cases operation with
  | add | findOrAdd =>
    cases asked
    exact appendTo_answer rfl answer
  | newSlot | setName | setGroup => cases asked

/-- The index that stands for a name is answered for it. -/
theorem answer_of_known (asked : operation.key? = some name)
    (known : firstIndex? items name = some index) : (operation.onItems items).2 = .index index := by
  cases operation with
  | add | findOrAdd =>
    cases asked
    simp only [onItems, known, appendTo]
  | newSlot | setName | setGroup => cases asked

theorem known_after (known : firstIndex? items name = some index) {later : List (Operation α)}
    (keeps : ∀ operation ∈ later, operation.renames = false) :
    firstIndex? (later.foldl (fun items operation => (operation.onItems items).1) items) name =
      some index := by
  induction later generalizing items with
  | nil => exact known
  | cons operation later ih =>
    have here := known_onItems known (keeps operation List.mem_cons_self)
    exact ih here fun other member => keeps other (List.mem_cons_of_mem _ member)

end Operation

/-- A table is an append-only list. After any operations it shows the items that the operations make of
the empty list. The next operation answers what it answers on the list, does to the table what it does to
the list, and does nothing to the table if it does nothing to the list. And the index that is answered for
a name is the one that is found and answered for it until an item is renamed. -/
theorem table_lists (operations : List (Operation α)) :
    let table := Table.after operations
    let items := Operation.itemsAfter operations
    table.Lists items ∧
    (∀ operation : Operation α,
      let next := (table.perform operation).1
      next.Lists (operation.onItems items).1 ∧
        (table.perform operation).2 = (operation.onItems items).2 ∧
        ((operation.onItems items).1 = items → next = table)) ∧
    ∀ (operation : Operation α) (name : Bytes) (index : Nat) (later : List (Operation α)),
      operation.key? = some name → (table.perform operation).2 = .index index →
      (∀ other ∈ later, other.renames = false) →
      let known := Table.after (operations ++ operation :: later)
      known.position? name = some index ∧
        ∀ other : Operation α, other.key? = some name → (known.perform other).2 = .index index := by
  intro table items
  have holds : table.Holds items := Table.after_holds operations
  refine ⟨holds.lists,fun operation => ?_,fun operation name index later asked answer keeps => ?_⟩
  · obtain ⟨next,answer⟩ := holds.perform operation
    refine ⟨next.lists,answer,fun same => ?_⟩
    rw [same] at next
    exact holds.unique next
  · intro known
    rw [(holds.perform operation).2] at answer
    have first := Operation.known_after (Operation.known_of_answer asked answer) keeps
    have holds' : known.Holds _ := Table.after_holds (operations ++ operation :: later)
    rw [Operation.itemsAfter, List.foldl_append] at holds'
    refine ⟨(holds'.lists.position name).trans first,fun other asked' => ?_⟩
    exact (holds'.perform other).2.trans (Operation.answer_of_known asked' first)

/-- Two items come to have one name. -/
def homonyms : List (Operation Nat) := [.add [97] 7 1,.newSlot,.setName 1 ⟨[97],true⟩ 2]

/-- The first of them has the name, and keeps it when the table grows and when it is put into a group. -/
theorem homonyms_listed :
    let table := Table.after homonyms
    let more : List (Operation Nat) := [.newSlot,.setGroup 0 3,.add [98] 8 4]
    table.toList.map Item.name = [⟨[97],false⟩,⟨[97],true⟩] ∧
      (table.perform (.findOrAdd [97])).2 = .index 0 ∧ (∀ other ∈ more, other.renames = false) ∧
      (Table.after (homonyms ++ .findOrAdd [97] :: more)).position? [97] = some 0 := by
  intro table more
  obtain ⟨lists,_,stays⟩ := table_lists homonyms
  have answer : (table.perform (.findOrAdd [97])).2 = .index 0 := by decide +kernel
  have keeps : ∀ other ∈ more, other.renames = false := by decide
  refine ⟨?_,answer,keeps,(stays _ [97] 0 more rfl answer keeps).1⟩
  rw [lists.toList]
  decide

end DocGraph.Lookup

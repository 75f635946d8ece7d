import DocGraph.File.Reader
import DocGraph.Proofs.HeaderRoundTrip

/-! Sources that do not fail. Their portions and interruptions make no difference to a request. -/
namespace DocGraph

/-- The read does not break, and gives something unless there is nothing left. -/
def Delivery.Steady : Delivery → Prop
  | atMost count => 0 < count
  | interrupted => True
  | broken _ => False

namespace Source

/-- No read fails or ends the bytes early. -/
def Steady (source : Source) : Prop := ∀ delivery ∈ source.schedule, delivery.Steady

theorem fillFrom_steady (want : Nat) (bytes : Bytes) {schedule : List Delivery}
    (steady : ∀ delivery ∈ schedule, delivery.Steady) :
    ∃ later, (∀ delivery ∈ later, delivery.Steady) ∧
      fillFrom want bytes schedule = (.ok (bytes.take want),⟨bytes.drop want,later⟩) := by
  induction schedule generalizing want bytes with
  | nil => exact ⟨[],nofun,rfl⟩
  | cons delivery schedule ih =>
    have after : ∀ delivery ∈ schedule, delivery.Steady :=
      fun delivery later => steady delivery (List.mem_cons_of_mem _ later)
    by_cases met : want = 0
    · subst met
      exact ⟨delivery :: schedule,steady,by simp [fillFrom]⟩
    cases delivery with
    | interrupted => simpa only [fillFrom, if_neg met] using ih want bytes after
    | broken => exact (steady _ List.mem_cons_self).elim
    | atMost count =>
      have some_ : 0 < count := steady _ List.mem_cons_self
      simp only [fillFrom, if_neg met]
      generalize read : bytes.take (min count want) = front
      split
      · -- A steady read gives nothing only when nothing is left.
        rename_i nothing
        rw [← read, List.isEmpty_iff, List.take_eq_nil_iff] at nothing
        obtain rfl : bytes = [] := nothing.resolve_left (by omega)
        exact ⟨schedule,after,by simp⟩
      · have split : bytes.take front.length = front := by
          rw [← read]
          simp [Nat.min_assoc]
        have width : front.length + (want - front.length) = want := by
          have short := List.length_take_le (min count want) bytes
          rw [read] at short
          omega
        obtain ⟨later,kept,filled⟩ := ih (want - front.length) (bytes.drop front.length) after
        refine ⟨later,kept,?_⟩
        rw [filled, List.drop_drop, width]
        have whole : front ++ (bytes.drop front.length).take (want - front.length) = bytes.take want := by
          conv => rhs; rw [← width, List.take_add, split]
        rw [← whole]
        rfl

theorem fill_steady {source : Source} (steady : source.Steady) (want : Nat) :
    ∃ later : Source, later.Steady ∧ later.bytes = source.bytes.drop want ∧
      source.fill want = (.ok (source.bytes.take want),later) := by
  obtain ⟨later,kept,filled⟩ := fillFrom_steady want source.bytes steady
  exact ⟨⟨_,later⟩,kept,rfl,filled⟩

end Source

namespace Reader

section Start

variable {source : Source} (steady : source.Steady) (file : String)

include steady

theorem start_short (short : source.bytes.length < Header.size) :
    start source file = .error (.shortRead file Header.size source.bytes.length) := by
  obtain ⟨later,_,_,filled⟩ := source.fill_steady steady Header.size
  simp only [start, filled, Header.parse_take, Header.parse_short file short]
  rfl

theorem start_foreign (long : Header.size ≤ source.bytes.length)
    (foreign : source.bytes.take 4 ≠ Header.signature) :
    start source file = .error (.badSignature file) := by
  obtain ⟨later,_,_,filled⟩ := source.fill_steady steady Header.size
  simp only [start, filled, Header.parse_take, (Header.parse_long file long).2 foreign]
  rfl

theorem start_own (long : Header.size ≤ source.bytes.length)
    (own : source.bytes.take 4 = Header.signature) :
    ∃ reader, start source file = .ok reader ∧ reader.file = file ∧ reader.source.Steady ∧
      reader.source.bytes = source.bytes.drop Header.size := by
  obtain ⟨later,kept,rest,filled⟩ := source.fill_steady steady Header.size
  obtain ⟨header,parsed⟩ := (Header.parse_long file long).1 own
  refine ⟨{ source := later, file, header },?_,rfl,kept,rest⟩
  simp only [start, filled, Header.parse_take, parsed]
  rfl

end Start

section Blocks

variable {reader : Reader} (steady : reader.source.Steady)

include steady

theorem nextBlock_whole (whole : blockSize ≤ reader.source.bytes.length) :
    ∃ next, reader.nextBlock = (.ok (some (reader.source.bytes.take blockSize)),next) ∧
      next.file = reader.file ∧ next.source.Steady ∧
      next.source.bytes = reader.source.bytes.drop blockSize := by
  obtain ⟨later,kept,rest,filled⟩ := reader.source.fill_steady steady blockSize
  have width : (reader.source.bytes.take blockSize).length = blockSize := List.length_take_of_le whole
  refine ⟨{ reader with source := later, blocksRead := reader.blocksRead + 1 },?_,rfl,kept,rest⟩
  simp only [nextBlock, filled, width, Nat.lt_irrefl, if_false]
  rw [if_neg (by decide)]

theorem nextBlock_over (finished : reader.source.bytes = []) :
    ∃ next, reader.nextBlock = (.ok none,next) := by
  obtain ⟨later,_,_,filled⟩ := reader.source.fill_steady steady blockSize
  refine ⟨{ reader with source := later },?_⟩
  simp only [nextBlock, filled, finished, List.take_nil, List.length_nil, if_true]

theorem nextBlock_part (some_ : reader.source.bytes ≠ []) (part : reader.source.bytes.length < blockSize) :
    ∃ next, reader.nextBlock =
      (.error (.shortRead reader.file blockSize reader.source.bytes.length),next) := by
  obtain ⟨later,_,_,filled⟩ := reader.source.fill_steady steady blockSize
  have all : reader.source.bytes.take blockSize = reader.source.bytes :=
    List.take_of_length_le (Nat.le_of_lt part)
  refine ⟨{ reader with source := later },?_⟩
  simp only [nextBlock, filled, all, List.length_eq_zero_iff, if_neg some_, if_pos part]

end Blocks

end Reader

end DocGraph

import DocGraph.Bytes

/-! A source of bytes that delivers them as it likes: a read may give fewer bytes than were asked
for, be interrupted, or break. Filling a request reads until it is met or a read gives nothing. -/
namespace DocGraph

/-- What one read does. -/
inductive Delivery
  | atMost (count : Nat)
  /-- The read gives nothing and is to be tried again. -/
  | interrupted
  | broken (reason : String)
  deriving DecidableEq, Repr

/-- The bytes to come, and what the next reads do; later reads give all they are asked for. -/
structure Source where
  bytes : Bytes
  schedule : List Delivery := []
  deriving DecidableEq, Repr

namespace Source

/-- Reads `want` bytes, or fewer when a read gives none. Bytes that a broken request has already
taken are gone. -/
def fillFrom (want : Nat) (bytes : Bytes) : List Delivery → Except String Bytes × Source
  | [] => (.ok (bytes.take want), ⟨bytes.drop want, []⟩)
  | delivery :: schedule =>
    if want = 0 then (.ok [], ⟨bytes, delivery :: schedule⟩)
    else match delivery with
      | .interrupted => fillFrom want bytes schedule
      | .broken reason => (.error reason, ⟨bytes, schedule⟩)
      | .atMost count =>
        let got := bytes.take (min count want)
        if got.isEmpty then (.ok [], ⟨bytes, schedule⟩)
        else
          let (result, source) := fillFrom (want - got.length) (bytes.drop got.length) schedule
          (result.map (got ++ ·), source)

def fill (source : Source) (want : Nat) : Except String Bytes × Source :=
  fillFrom want source.bytes source.schedule

theorem fillFrom_append {want : Nat} {bytes got : Bytes} {schedule : List Delivery} {after : Source}
    (filled : fillFrom want bytes schedule = (.ok got, after)) : got ++ after.bytes = bytes := by
  fun_induction fillFrom want bytes schedule generalizing got after with
  | case1 =>
    cases filled
    exact List.take_append_drop _ _
  | case2 => cases filled; rfl
  | case3 _ _ _ _ ih => exact ih filled
  | case4 => cases filled
  | case5 => cases filled; rfl
  | case6 want bytes schedule _ count front _ result source rest =>
    rename_i ih
    cases result with
    | error => cases filled
    | ok more =>
      cases filled
      have split : bytes.take front.length = front := by
        simp [front, Nat.min_assoc]
      rw [List.append_assoc, ih rest]
      conv => lhs; lhs; rw [← split]
      exact List.take_append_drop _ _

end Source

end DocGraph

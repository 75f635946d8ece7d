import DocGraph.Build.Block
import DocGraph.Proofs.RecordRoundTrip
import DocGraph.Proofs.SectionGrammar

/-! Runs of records, and runs of their bytes, up to the first that is rejected. -/
namespace DocGraph

namespace Record

/-- The bytes of a record, when its texts fit. -/
def bytes (record : Record) : Bytes :=
  match record.encode with
  | .ok bytes => bytes
  | .error _ => []

/-- The record has bytes of its own, and they are not the end of a block. -/
structure Writable (record : Record) : Prop where
  open_ : record ≠ .blockEnd
  encoded : record.encode = .ok record.bytes

theorem writable_of_encode {record : Record} {bytes : Bytes} (open_ : record ≠ .blockEnd)
    (encoded : record.encode = .ok bytes) : record.Writable ∧ record.bytes = bytes := by
  have same : record.bytes = bytes := by simp only [Record.bytes, encoded]
  exact ⟨⟨open_,encoded.trans (congrArg _ same.symm)⟩,same⟩

theorem Writable.bytes_ne_nil {record : Record} (writable : record.Writable) : record.bytes ≠ [] := by
  obtain ⟨body,_,same⟩ := encode_eq_ok_iff.mp writable.encoded
  rw [← same]
  exact List.cons_ne_nil _ _

theorem plain_ne_blockEnd {record : Record} (open_ : record ≠ .blockEnd) : record.plain ≠ .blockEnd := by
  rwa [Ne, ← tag_eq_blockEnd_iff, tag_plain, tag_eq_blockEnd_iff]

end Record

namespace Stage

def stepAll (stage : Stage) : List Tag → Option Stage
  | [] => some stage
  | tag :: rest =>
    match stage.step tag with
    | (after,none) => after.stepAll rest
    | (_,some _) => none

def mode : Stage → Mode
  | outside => .topLevel
  | stateMachine _ _ => .stateMachine
  | sequence _ _ => .sequence
  | api _ _ _ => .api
  | application _ => .application

end Stage

theorem Section.mode_stage (current : Section) : current.stage.mode = current.mode := by
  match current with
  | outside | stateMachine .idle | stateMachine (.state _) | stateMachine (.transition _ _)
  | sequence .idle | sequence (.timeline _) | sequence (.node _ _) | api _ _ | application _ _ => rfl

namespace Builder

/-- The builder after records that are all accepted. -/
def applyAll (builder : Builder) : List Record → Option Builder
  | [] => some builder
  | record :: rest =>
    match builder.apply record with
    | (after,none) => after.applyAll rest
    | (_,some _) => none

theorem applyAll_append (builder : Builder) (earlier later : List Record) :
    builder.applyAll (earlier ++ later) =
      (builder.applyAll earlier).bind fun after => after.applyAll later := by
  induction earlier generalizing builder with
  | nil => rfl
  | cons record rest ih =>
    simp only [List.cons_append, applyAll]
    split
    · exact ih _
    · rfl

theorem apply_sound {builder : Builder} (sound : builder.Sound) (record : Record) :
    (builder.apply record).1.Sound := (apply_follows sound record).sound

theorem mode_of_rejected {builder after : Builder} {record : Record} {reason : Rejection}
    (sound : builder.Sound) (rejected : builder.apply record = (after,some reason)) :
    after.mode = builder.mode := by
  have verdict_ := apply_verdict sound record
  rw [rejected] at verdict_
  have stage : after.current.stage = builder.current.stage :=
    (congrArg Prod.fst verdict_).trans (Stage.step_rejected (congrArg Prod.snd verdict_).symm)
  have modes := congrArg Stage.mode stage
  rwa [Section.mode_stage, Section.mode_stage] at modes

theorem applyAll_sound {builder after : Builder} {records : List Record} (sound : builder.Sound)
    (accepted : builder.applyAll records = some after) : after.Sound := by
  induction records generalizing builder with
  | nil => cases accepted; exact sound
  | cons record rest ih =>
    simp only [applyAll] at accepted
    split at accepted
    · rename_i next applied
      have kept := apply_sound sound record
      rw [applied] at kept
      exact ih kept accepted
    · cases accepted

theorem applyAll_reachable {builder after : Builder} {records : List Record}
    (reachable : builder.Reachable) (accepted : builder.applyAll records = some after) :
    after.Reachable := by
  induction records generalizing builder with
  | nil =>
    cases accepted
    exact reachable
  | cons record rest ih =>
    have next := Reachable.apply record reachable
    simp only [applyAll] at accepted
    split at accepted
    · rename_i applied
      rw [applied] at next
      exact ih next accepted
    · cases accepted

/-- A run of records is accepted when the stage accepts their tags. -/
theorem applyAll_stage {builder : Builder} (sound : builder.Sound) (records : List Record) :
    (builder.applyAll records).map (·.current.stage) =
      builder.current.stage.stepAll (records.map Record.tag) := by
  induction records generalizing builder with
  | nil => rfl
  | cons record rest ih =>
    have same := apply_verdict sound record
    have kept := apply_sound sound record
    simp only [List.map_cons, applyAll, Stage.stepAll, ← same, verdict]
    cases applied : builder.apply record with
    | mk after reason =>
      rw [applied] at kept
      cases reason with
      | none => exact ih kept
      | some reason => rfl

theorem map_tag_plain (records : List Record) :
    (records.map Record.plain).map Record.tag = records.map Record.tag := by
  simp [Function.comp_def]

/-- Only the tags decide whether records are accepted, and at which stage that ends. -/
theorem applyAll_of_tags {builder after : Builder} (sound : builder.Sound) {records others : List Record}
    (same : others.map Record.tag = records.map Record.tag)
    (accepted : builder.applyAll records = some after) :
    ∃ kept, builder.applyAll others = some kept ∧ kept.current.stage = after.current.stage := by
  have stages := (applyAll_stage sound others).trans
    ((congrArg _ same).trans (applyAll_stage sound records).symm)
  rw [accepted] at stages
  exact Option.map_eq_some_iff.mp stages

theorem addRecords_nil (builder : Builder) (notices : List Notice) :
    builder.addRecords notices [] = { builder, notices, stop := none } := by
  simp [addRecords]

theorem addRecords_decoded {builder : Builder} {notices : List Notice} {bytes rest : Bytes}
    {record : Record} (found : Record.decode bytes = .ok (record,rest)) :
    builder.addRecords notices bytes =
      match builder.apply record with
      | (after,some reason) =>
        { builder := after, notices := notices ++ builder.notices record
          stop := some (.rejected reason record bytes) }
      | (after,none) => after.addRecords (notices ++ builder.notices record) rest := by
  have present : bytes.isEmpty = false := by
    cases bytes with
    | nil => cases found
    | cons => rfl
  rw [addRecords, if_neg (by simp [present])]
  split
  · rename_i same; rw [found] at same; cases same
  · rename_i same; rw [found] at same; cases same; rfl

theorem addRecords_padding (builder : Builder) (notices : List Notice) (count : Nat) :
    ∃ more, builder.addRecords notices (List.replicate count Tag.blockEnd.byte) =
      { builder, notices := more, stop := none } := by
  cases count with
  | zero => exact ⟨_,addRecords_nil builder notices⟩
  | succ count =>
    rw [List.replicate_succ, addRecords_decoded (Record.decode_blockEnd _)]
    simp only [apply, if_true, accept, addRecords_nil]
    exact ⟨_,rfl⟩

theorem addRecords_accepted {builder after : Builder} {records : List Record}
    (writable : ∀ record ∈ records, record.Writable)
    (accepted : builder.applyAll (records.map Record.plain) = some after)
    (notices : List Notice) (tail : Bytes) :
    ∃ more, builder.addRecords notices (records.flatMap Record.bytes ++ tail) =
      after.addRecords more tail := by
  induction records generalizing builder notices with
  | nil => cases accepted; exact ⟨notices,rfl⟩
  | cons record rest ih =>
    have here := writable record List.mem_cons_self
    simp only [List.map_cons, applyAll] at accepted
    split at accepted
    · rename_i next applied
      rw [List.flatMap_cons, List.append_assoc,
        addRecords_decoded (Record.decode_encode here.encoded here.open_ _), applied]
      exact ih (fun record later => writable record (List.mem_cons_of_mem _ later)) accepted _
    · cases accepted

/-- The run stops at the record that is rejected and keeps its bytes and all that follow. -/
theorem addRecords_rejected {builder before after : Builder} {records : List Record} {record : Record}
    {reason : Rejection} (writable : ∀ record ∈ records, record.Writable)
    (accepted : builder.applyAll (records.map Record.plain) = some before)
    (here : record.Writable) (rejected : before.apply record.plain = (after,some reason))
    (notices : List Notice) (tail : Bytes) :
    ∃ more, builder.addRecords notices (records.flatMap Record.bytes ++ (record.bytes ++ tail)) =
      { builder := after, notices := more
        stop := some (.rejected reason record.plain (record.bytes ++ tail)) } := by
  obtain ⟨more,same⟩ := addRecords_accepted writable accepted notices (record.bytes ++ tail)
  rw [same, addRecords_decoded (Record.decode_encode here.encoded here.open_ _), rejected]
  exact ⟨_,rfl⟩

end Builder

end DocGraph

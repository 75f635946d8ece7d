import DocGraph.Proofs.OpenItems
import DocGraph.Proofs.RecordRun
import Mathlib.Data.List.DropRight

/-! Verdicts on records by the tags that came before, without a builder. -/
namespace DocGraph

/-- What a record may have to be inside of. -/
inductive Parent
  | state | transition
  | timeline | node
  | function | type | constants
  | section_
  deriving DecidableEq, Repr

namespace Parent

def name : Parent → String
  | state => "state"
  | transition => "transition"
  | timeline => "timeline"
  | node => "node"
  | function => "function"
  | type => "type"
  | constants => "constants group"
  | section_ => "section"

def opener : Parent → Tag
  | state => .state
  | transition => .transition
  | timeline => .timeline
  | node => .nodeStart
  | function => .apiFunction
  | type => .apiTypeStart
  | constants => .apiConstantsStart
  | section_ => .applicationSection

def closers : Parent → List Tag
  | state => [.stateMachineStart, .itemEnd]
  | transition => [.stateMachineStart, .state, .itemEnd]
  | timeline => [.sequenceStart]
  | node => [.sequenceStart, .timeline, .nodeEnd]
  | function => [.apiStart, .apiFunctionEnd]
  | type => [.apiStart, .apiTypeEnd]
  | constants => [.apiStart, .apiConstantsEnd]
  | section_ => [.applicationStart]

/-- The parent has come, and no tag since that closes it. -/
def Open (parent : Parent) (past : List Tag) : Prop :=
  ∃ before since, past = before ++ parent.opener :: since ∧ ∀ tag ∈ since, tag ∉ parent.closers

theorem open_iff_mem {parent : Parent} {past : List Tag} :
    parent.Open past ↔ parent.opener ∈ past.rtakeWhile (· ∉ parent.closers) := by
  constructor
  · rintro ⟨before,since,rfl,kept⟩
    induction since using List.reverseRecOn with
    | nil =>
      have own : parent.opener ∉ parent.closers := by cases parent <;> decide
      rw [List.rtakeWhile_concat, if_pos (decide_eq_true own)]
      exact List.mem_append_right _ List.mem_cons_self
    | append_singleton since tag ih =>
      have last := kept tag (List.mem_append_right _ List.mem_cons_self)
      rw [← List.cons_append, ← List.append_assoc, List.rtakeWhile_concat,
        if_pos (decide_eq_true last)]
      exact List.mem_append_left _ (ih fun other member => kept other (List.mem_append_left _ member))
  · intro member
    obtain ⟨front,since,split⟩ := List.append_of_mem member
    refine ⟨past.rdropWhile (· ∉ parent.closers) ++ front,since,?_,fun tag later => ?_⟩
    · rw [List.append_assoc, ← split, List.rdropWhile_append_rtakeWhile]
    · have inside : tag ∈ past.rtakeWhile (· ∉ parent.closers) := by
        rw [split]
        exact List.mem_append_right _ (List.mem_cons_of_mem _ later)
      have kept := List.mem_rtakeWhile_imp inside
      exact of_decide_eq_true kept

instance (parent : Parent) (past : List Tag) : Decidable (parent.Open past) :=
  decidable_of_iff _ open_iff_mem.symm

end Parent

/-- Where in a section a record has a place. -/
inductive Room
  | anywhere
  | inside (parent : Parent)
  | nowhere
  deriving DecidableEq, Repr

/-- The room that a section has for a record. -/
def Mode.room (mode : Mode) (tag : Tag) : Room :=
  if tag = .blockEnd then .anywhere
  else match mode with
  | topLevel =>
    match tag with
    | .stateMachineStart | .sequenceStart | .apiStart | .applicationStart | .sample => .anywhere
    | _ => .nowhere
  | stateMachine =>
    match tag with
    | .state | .itemEnd | .stateMachineEnd => .anywhere
    | .transition => .inside .state
    | .trigger | .triggers | .condition => .inside .transition
    | _ => .nowhere
  | sequence =>
    match tag with
    | .timeline | .nodeEnd | .sequenceEnd => .anywhere
    | .nodeStart => .inside .timeline
    | .sentMessage | .condition => .inside .node
    | _ => .nowhere
  | api =>
    match tag with
    | .apiFunction | .apiFunctionEnd | .apiTypeStart | .apiTypeEnd | .apiConstantsStart
    | .apiConstantsEnd | .itemEnd | .apiEnd => .anywhere
    | .apiAction | .apiDescription | .apiParameter | .apiReturns => .inside .function
    | .apiTypeField => .inside .type
    | .apiConstant => .inside .constants
    | _ => .nowhere
  | application =>
    match tag with
    | .applicationSection | .applicationOption | .applicationCommand | .applicationSynopsis
    | .applicationEnd => .anywhere
    | .applicationSubSection => .inside .section_
    | _ => .nowhere

namespace Tag

/-- Where a tag leads when it starts or ends a section. -/
def leads? : Tag → Option Mode
  | stateMachineStart => some .stateMachine
  | sequenceStart => some .sequence
  | apiStart => some .api
  | applicationStart => some .application
  | stateMachineEnd | sequenceEnd | apiEnd | applicationEnd => some .topLevel
  | _ => none

/-- The section that is open after tags. -/
def modeAfter (past : List Tag) : Mode := (past.reverse.findSome? leads?).getD .topLevel

/-- Why a record is rejected after tags, if it is. -/
def judge (tag : Tag) (past : List Tag) : Option Rejection :=
  match (modeAfter past).room tag with
  | .anywhere => none
  | .inside parent => if parent.Open past then none else some (.misplaced tag.label parent.name)
  | .nowhere => some .unexpected

def unpadded (past : List Tag) : List Tag := past.filter (· ≠ .blockEnd)

end Tag

theorem Parent.open_concat (parent : Parent) (past : List Tag) (tag : Tag) :
    parent.Open (past ++ [tag]) ↔ tag ∉ parent.closers ∧ (tag = parent.opener ∨ parent.Open past) := by
  rw [open_iff_mem, open_iff_mem, List.rtakeWhile_concat]
  by_cases closes : tag ∈ parent.closers
  · simp [closes]
  · simp [closes,or_comm,eq_comm]

theorem Tag.modeAfter_concat (past : List Tag) (tag : Tag) :
    modeAfter (past ++ [tag]) = tag.leads?.getD (modeAfter past) := by
  unfold modeAfter
  rw [List.reverse_concat, List.findSome?_cons]
  cases tag.leads? <;> rfl

namespace Stage

/-- The stage of a section in which some of its parents are open. -/
def ofParents (open_ : Parent → Bool) : Mode → Stage
  | .topLevel => outside
  | .stateMachine => stateMachine (open_ .state) (open_ .transition)
  | .sequence => sequence (open_ .timeline) (open_ .node)
  | .api => api (open_ .function) (open_ .type) (open_ .constants)
  | .application => application (open_ .section_)

def after (past : List Tag) : Stage := ofParents (fun parent => parent.Open past) (Tag.modeAfter past)

/-- Whether a parent is open after a tag. -/
def reopen (open_ : Parent → Bool) (tag : Tag) (parent : Parent) : Bool :=
  tag ∉ parent.closers && (tag = parent.opener || open_ parent)

theorem require_eq {stage next next' : Stage} {present : Bool} (tag : Tag) (parent : String)
    (same : present → next = next') :
    stage.require present tag parent next =
      if present then (next',none) else (stage,some (.misplaced tag.label parent)) := by
  unfold require accept
  split
  · rename_i here
    rw [same here]
  · rfl

theorem step_ofParents (open_ : Parent → Bool) (mode : Mode) (tag : Tag) :
    let next := ofParents (reopen open_ tag) (tag.leads?.getD mode)
    (ofParents open_ mode).step tag =
      match mode.room tag with
      | .anywhere => (next,none)
      | .inside parent =>
        if open_ parent then (next,none)
        else (ofParents open_ mode,some (.misplaced tag.label parent.name))
      | .nowhere => (ofParents open_ mode,some .unexpected) := by
  cases mode <;> cases tag <;> first
    | rfl
    | exact require_eq _ _ fun here => by simp [ofParents,reopen,Parent.closers,Parent.opener,here,Tag.leads?]

theorem step_after (past : List Tag) (tag : Tag) :
    ((after past).step tag).2 = tag.judge past ∧
    (tag.judge past = none → ((after past).step tag).1 = after (past ++ [tag])) := by
  have next : after (past ++ [tag]) =
      ofParents (reopen (fun parent => parent.Open past) tag) (tag.leads?.getD (Tag.modeAfter past)) := by
    have reopened : (fun parent : Parent => decide (parent.Open (past ++ [tag]))) =
        reopen (fun parent => parent.Open past) tag := by
      funext parent
      simp [reopen,parent.open_concat]
    rw [after, Tag.modeAfter_concat, reopened]
  have step := step_ofParents (fun parent => parent.Open past) (Tag.modeAfter past) tag
  rw [next, after, step, Tag.judge]
  cases (Tag.modeAfter past).room tag with
  | anywhere => simp
  | inside parent => by_cases here : parent.Open past <;> simp [here]
  | nowhere => simp

end Stage

namespace Builder

theorem stage_after {records : List Record} {builder : Builder}
    (accepted : applyAll {} records = some builder) :
    builder.current.stage = Stage.after (records.map Record.tag) := by
  induction records using List.reverseRecOn generalizing builder with
  | nil => cases accepted; rfl
  | append_singleton records record ih =>
    rw [applyAll_append] at accepted
    obtain ⟨before,earlier,last⟩ := Option.bind_eq_some_iff.mp accepted
    have verdict_ := apply_verdict (applyAll_sound initial_sound earlier) record
    obtain ⟨judged,moved⟩ := Stage.step_after (records.map Record.tag) record.tag
    rw [ih earlier] at verdict_
    rw [applyAll] at last
    split at last
    · rename_i after applied
      cases last
      rw [applied] at verdict_
      have stage : builder.current.stage = _ := congrArg Prod.fst verdict_
      have none_ : none = _ := congrArg Prod.snd verdict_
      rw [stage, moved (judged.symm.trans none_.symm), List.map_append]
      rfl
    · cases last

end Builder

theorem Tag.unpadded_concat (past : List Tag) (tag : Tag) :
    unpadded (past ++ [tag]) =
      if tag = .blockEnd then unpadded past else unpadded past ++ [tag] := by
  unfold unpadded
  rw [List.filter_append]
  split
  · rename_i padding
    simp [padding]
  · rename_i open_
    simp [open_]

theorem Parent.open_unpadded (parent : Parent) (past : List Tag) :
    parent.Open (Tag.unpadded past) ↔ parent.Open past := by
  induction past using List.reverseRecOn with
  | nil => rfl
  | append_singleton past tag ih =>
    rw [Tag.unpadded_concat, open_concat]
    split
    · rename_i padding
      subst padding
      have idle : Tag.blockEnd ∉ parent.closers ∧ Tag.blockEnd ≠ parent.opener := by
        cases parent <;> decide
      simp [ih,idle]
    · rw [open_concat, ih]

theorem Tag.modeAfter_unpadded (past : List Tag) : modeAfter (unpadded past) = modeAfter past := by
  induction past using List.reverseRecOn with
  | nil => rfl
  | append_singleton past tag ih =>
    rw [unpadded_concat, modeAfter_concat]
    split
    · rename_i padding
      subst padding
      exact ih
    · rw [modeAfter_concat, ih]

theorem Tag.judge_unpadded (tag : Tag) (past : List Tag) : tag.judge (unpadded past) = tag.judge past := by
  simp only [judge, modeAfter_unpadded, Parent.open_unpadded]

/-- The place of a record is decided by the tags that came before it. After records that are all
accepted the verdict on the next one is that of the grammar on its tag; the ends of blocks change
nothing; and all that the open section refers to is in the graph, so that no record finds its parent
open and yet missing. -/
theorem Builder.apply_after {records : List Record} {builder : Builder}
    (accepted : Builder.applyAll {} records = some builder) (record : Record) :
    let past := records.map Record.tag
    (builder.apply record).2 = record.tag.judge past ∧
    record.tag.judge (Tag.unpadded past) = record.tag.judge past ∧
    builder.Sound ∧ builder.Placed := by
  intro past
  have reachable := Builder.applyAll_reachable .initial accepted
  have verdict_ := apply_verdict reachable.sound record
  rw [stage_after accepted] at verdict_
  refine ⟨?_,Tag.judge_unpadded _ _,reachable.sound,reachable.placed⟩
  exact (congrArg Prod.snd verdict_).trans (Stage.step_after past record.tag).1

/-- A machine whose only state has one transition, and has ended. -/
def latch : List Record :=
  [.stateMachineStart ⟨[103],false⟩, .state 1 ⟨⟨[103],false⟩,⟨[65],false⟩⟩, .transition 1, .blockEnd,
    .itemEnd]

/-- After the end of the state no record of a transition has a place, but another state has. -/
theorem latch_shut :
    ∃ builder, Builder.applyAll {} latch = some builder ∧
      (builder.apply (.condition ⟨[66],false⟩)).2 = some (.misplaced "CONDITION" "transition") ∧
      (builder.apply (.state 2 ⟨⟨[103],false⟩,⟨[66],false⟩⟩)).2 = none ∧
      (builder.apply .sequenceEnd).2 = some .unexpected := by
  obtain ⟨builder,accepted⟩ : ∃ builder, Builder.applyAll {} latch = some builder := ⟨_,rfl⟩
  refine ⟨builder,accepted,?_,?_,?_⟩
  · exact (Builder.apply_after accepted _).1.trans rfl
  · exact (Builder.apply_after accepted _).1.trans rfl
  · exact (Builder.apply_after accepted _).1.trans rfl

end DocGraph

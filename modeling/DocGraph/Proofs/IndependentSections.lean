import DocGraph.Proofs.FileLoading
import DocGraph.Proofs.SectionParts

/-! Whole sections of two kinds, in either order. The groups that they name have to be there before, since new
groups are numbered as they come. -/
namespace DocGraph

/-- The kind of section that a record closes. -/
def Tag.closes : Tag → Option Mode
  | .stateMachineEnd => some .stateMachine
  | .sequenceEnd => some .sequence
  | .apiEnd => some .api
  | .applicationEnd => some .application
  | _ => none

/-- A whole section of a kind, or a sample. -/
inductive Whole : Mode → List Record → Prop
  | enclosed {kind : Mode} {start stop : Record} {body : List Record}
      (opens : start.tag.opens = some kind)
      (inside : ∀ record ∈ body, record.tag.closes ≠ some kind) (closes : stop.tag.closes = some kind) :
      Whole kind (start :: (body ++ [stop]))
  | sample (sample : Titled) : Whole .topLevel [.sample sample]

/-- Every group that is named in records is found. -/
def Model.Knows (model : Model) (records : List Record) : Prop :=
  ∀ record ∈ records, ∀ name ∈ record.groups, (model.findGroup? name.bytes).isSome

theorem Model.Spares.knows {kind : Mode} {before after : Model} {records : List Record}
    (spares : before.Spares kind after) (knows : before.Knows records) : after.Knows records := by
  intro record member name named
  rw [spares.findGroup?]
  exact knows record member name named

namespace Stage

theorem step_opens {tag : Tag} {kind : Mode} (opens : tag.opens = some kind) :
    (step .outside tag).1.mode = kind := by
  cases tag <;> cases opens <;> rfl

theorem step_closes {stage : Stage} {tag : Tag} (closes : tag.closes = some stage.mode) :
    stage.step tag = (.outside,none) := by
  cases stage <;> cases tag <;> first
    | rfl
    | exact absurd closes nofun

theorem require_mode {stage next : Stage} (same : next.mode = stage.mode) (present : Bool) (tag : Tag)
    (parent : String) : (stage.require present tag parent next).1.mode = stage.mode := by
  unfold require
  split
  · exact same
  · rfl

theorem step_inside {stage : Stage} {tag : Tag} (inside : stage.mode ≠ .topLevel)
    (open_ : tag.closes ≠ some stage.mode) : (stage.step tag).1.mode = stage.mode := by
  cases stage <;> cases tag <;> first
    | rfl
    | exact require_mode (by rfl) _ _ _
    | exact absurd rfl inside
    | exact absurd rfl open_

end Stage

namespace Builder

variable {builder after : Builder} {kind : Mode} {records : List Record}

/-- A record that opens a section of a kind, or stands in one. -/
def Concerns (builder : Builder) (kind : Mode) (record : Record) : Prop :=
  match builder.current with
  | .outside => record.tag.opens = some kind
  | current => current.mode = kind

/-- All records of a run concern one kind of section. -/
def StaysIn (kind : Mode) : Builder → List Record → Prop
  | _, [] => True
  | builder, record :: rest => builder.Concerns kind record ∧ StaysIn kind (builder.apply record).1 rest

theorem current_of_part {builder' : Builder} (same : builder.part kind = builder'.part kind) :
    builder.current = builder'.current := by
  have current := congrArg Builder.current same
  exact current

/-- What a record does to the part that it concerns, and whether it is accepted, depends on that part. -/
theorem apply_part {builder' : Builder} (same : builder.part kind = builder'.part kind) {record : Record}
    (concerns : builder.Concerns kind record) :
    partOf kind (builder.apply record) = partOf kind (builder'.apply record) := by
  obtain ⟨model,current,limits,count⟩ := builder
  obtain ⟨model',current',limits',count'⟩ := builder'
  obtain rfl : current = current' := current_of_part same
  let counted : Builder := { model, current, limits, records := count + 1 }
  let counted' : Builder := { model := model', current, limits := limits', records := count' + 1 }
  have alike {step : Builder → Applied}
      (own : ∀ builder, partOf kind (step builder) = step (builder.part kind)) :
      partOf kind (step counted) = partOf kind (step counted') :=
    (own counted).trans ((congrArg step same).trans (own counted').symm)
  unfold apply
  by_cases padding : record = .blockEnd
  · rw [if_pos padding, if_pos padding]
    exact congrArg accept same
  · rw [if_neg padding, if_neg padding]
    cases current with
    | outside =>
      have own (builder : Builder) : partOf kind (builder.applyOutside record) =
          (builder.part kind).applyOutside record := applyOutside_part concerns
      exact alike own
    | stateMachine cursor =>
      cases concerns
      exact alike fun builder => applyStateMachine_part builder cursor record
    | sequence cursor =>
      cases concerns
      exact alike fun builder => applySequence_part builder cursor record
    | api group cursor =>
      cases concerns
      exact alike fun builder => applyApi_part builder group cursor record
    | application position opened =>
      cases concerns
      exact alike fun builder => applyApplication_part builder position opened record

theorem apply_spares {record : Record} (concerns : builder.Concerns kind record)
    (known : ∀ name ∈ record.groups, (builder.model.findGroup? name.bytes).isSome) :
    builder.Spares kind (builder.apply record).1 := by
  obtain ⟨model,current,limits,count⟩ := builder
  unfold apply
  by_cases padding : record = .blockEnd
  · rw [if_pos padding]
    exact .refl _
  · rw [if_neg padding]
    have counted : Spares kind { model, current, limits, records := count }
        { model, current, limits, records := count + 1 } := .of_model (.refl _) rfl
    refine counted.trans ?_
    cases current with
    | outside => exact applyOutside_spares concerns known
    | stateMachine cursor =>
      cases concerns
      exact applyStateMachine_spares _ cursor known
    | sequence cursor =>
      cases concerns
      exact applySequence_spares _ cursor known
    | api group cursor =>
      cases concerns
      exact applyApi_spares _ group cursor record
    | application position opened =>
      cases concerns
      exact applyApplication_spares _ position opened record

theorem applyAll_cons_iff {record : Record} :
    builder.applyAll (record :: records) = some after ↔
      (builder.apply record).2 = none ∧ (builder.apply record).1.applyAll records = some after := by
  simp only [applyAll]
  rcases builder.apply record with ⟨next,_ | reason⟩
  · simp
  · simp

theorem StaysIn.spares (stays : StaysIn kind builder records) (knows : builder.model.Knows records)
    (accepted : builder.applyAll records = some after) : builder.Spares kind after := by
  induction records generalizing builder with
  | nil =>
    cases accepted
    exact .refl _
  | cons record rest ih =>
    have step := apply_spares stays.1 (knows record List.mem_cons_self)
    have later : builder.model.Knows rest := fun other member =>
      knows other (List.mem_cons_of_mem record member)
    exact step.trans (ih stays.2 (step.model.knows later) (applyAll_cons_iff.mp accepted).2)

theorem StaysIn.part {builder' : Builder} (stays : StaysIn kind builder records)
    (same : builder.part kind = builder'.part kind) (accepted : builder.applyAll records = some after) :
    ∃ after', builder'.applyAll records = some after' ∧ after.part kind = after'.part kind := by
  induction records generalizing builder builder' with
  | nil =>
    cases accepted
    exact ⟨builder',rfl,same⟩
  | cons record rest ih =>
    obtain ⟨taken,later⟩ := applyAll_cons_iff.mp accepted
    have step := apply_part same stays.1
    obtain ⟨after',accepted',alike⟩ := ih stays.2 (congrArg Prod.fst step) later
    exact ⟨after',applyAll_cons_iff.mpr ⟨(congrArg Prod.snd step).symm.trans taken,accepted'⟩,alike⟩

theorem StaysIn.append {between : Builder} {earlier later : List Record}
    (stays : StaysIn kind builder earlier) (accepted : builder.applyAll earlier = some between)
    (stays' : StaysIn kind between later) :
    StaysIn kind builder (earlier ++ later) := by
  induction earlier generalizing builder with
  | nil =>
    cases accepted
    exact stays'
  | cons record rest ih => exact ⟨stays.1,ih stays.2 (applyAll_cons_iff.mp accepted).2⟩

theorem applyAll_count (accepted : builder.applyAll records = some after) :
    after.records = builder.records + records.countP (· ≠ .blockEnd) := by
  induction records generalizing builder with
  | nil =>
    cases accepted
    rfl
  | cons record rest ih =>
    rw [ih (applyAll_cons_iff.mp accepted).2, List.countP_cons]
    by_cases padding : record = .blockEnd
    · subst padding
      rfl
    · simp only [apply_records builder padding, padding, ne_eq, not_false_eq_true, decide_true, if_true]
      omega

theorem mode_apply (sound : builder.Sound) (record : Record) :
    (builder.apply record).1.mode = (builder.current.stage.step record.tag).1.mode := by
  rw [← apply_verdict sound record, verdict, Section.mode_stage]
  rfl

theorem concerns_of_mode {record : Record} (inside : builder.mode = kind) (within : kind ≠ .topLevel) :
    builder.Concerns kind record := by
  unfold Concerns
  unfold mode at inside
  cases found : builder.current with
  | outside =>
    rw [found] at inside
    exact absurd inside.symm within
  | _ => rwa [found] at inside

theorem staysIn_of_mode (sound : builder.Sound) (inside : builder.mode = kind)
    (within : kind ≠ .topLevel) (open_ : ∀ record ∈ records, record.tag.closes ≠ some kind)
    (accepted : builder.applyAll records = some after) :
    StaysIn kind builder records ∧ after.mode = kind := by
  induction records generalizing builder with
  | nil =>
    cases accepted
    exact ⟨trivial,inside⟩
  | cons record rest ih =>
    have stage : builder.current.stage.mode = kind := (Section.mode_stage _).trans inside
    have next : (builder.apply record).1.mode = kind := by
      subst stage
      exact (mode_apply sound record).trans (Stage.step_inside within (open_ record List.mem_cons_self))
    obtain ⟨stays,mode⟩ := ih (apply_sound sound record) next
      (fun other member => open_ other (List.mem_cons_of_mem record member))
      (applyAll_cons_iff.mp accepted).2
    exact ⟨⟨concerns_of_mode inside within,stays⟩,mode⟩

theorem outside_of_mode (outside : builder.mode = .topLevel) : builder.current = .outside := by
  unfold mode at outside
  cases found : builder.current with
  | outside => rfl
  | _ =>
    rw [found] at outside
    cases outside

/-- A whole section concerns its kind from its first record to its last, and is closed behind it. -/
theorem staysIn_of_whole (sound : builder.Sound) (outside : builder.current = .outside)
    (whole : Whole kind records) (accepted : builder.applyAll records = some after) :
    StaysIn kind builder records ∧ after.current = .outside := by
  cases whole with
  | sample sample =>
    have concerns : builder.Concerns .topLevel (.sample sample) := by
      unfold Concerns
      rw [outside]
      rfl
    refine ⟨⟨concerns,trivial⟩,outside_of_mode ?_⟩
    cases (applyAll_cons_iff.mp accepted).2
    rw [mode_apply sound, outside]
    rfl
  | @enclosed _ start stop body opens inside closes =>
    have within : kind ≠ .topLevel := by
      rintro rfl
      cases last : stop.tag <;> rw [last] at closes <;> cases closes
    have concerns : builder.Concerns kind start := by
      unfold Concerns
      rw [outside]
      exact opens
    have opened : (builder.apply start).1.mode = kind := by
      rw [mode_apply sound, outside]
      exact Stage.step_opens opens
    have later := (applyAll_cons_iff.mp accepted).2
    rw [applyAll_append] at later
    obtain ⟨between,middle,ended⟩ := Option.bind_eq_some_iff.mp later
    have opens' := apply_sound sound start
    obtain ⟨stays,mode⟩ := staysIn_of_mode opens' opened within inside middle
    refine ⟨⟨concerns,stays.append middle ⟨concerns_of_mode mode within,trivial⟩⟩,outside_of_mode ?_⟩
    cases (applyAll_cons_iff.mp ended).2
    rw [mode_apply (applyAll_sound opens' middle), Stage.step_closes]
    · rfl
    · rw [closes, Section.mode_stage]
      exact congrArg some mode.symm

theorem eq_of_parts {builder builder' : Builder} (parts : ∀ kind, builder.part kind = builder'.part kind)
    (count : builder.records = builder'.records) : builder = builder' := by
  have model : builder.model = builder'.model :=
    Model.eq_of_parts fun kind => congrArg Builder.model (parts kind)
  have current := current_of_part (parts .api)
  have state : builder.limits.state = builder'.limits.state :=
    congrArg (·.limits.state) (parts .stateMachine)
  have node : builder.limits.node = builder'.limits.node := congrArg (·.limits.node) (parts .sequence)
  obtain ⟨_,_,⟨_,_⟩,_⟩ := builder
  obtain ⟨_,_,⟨_,_⟩,_⟩ := builder'
  cases model
  cases current
  cases state
  cases node
  cases count
  rfl

theorem Spares.part {before : Builder} {other : Mode} (spares : before.Spares kind after)
    (current : after.current = before.current) (apart : other ≠ kind) :
    after.part other = before.part other := by
  unfold Builder.part
  rw [spares.model other apart, spares.limits other apart, current]

theorem part_of_whole (sound : builder.Sound) (outside : builder.current = .outside)
    (whole : Whole kind records) (knows : builder.model.Knows records)
    (accepted : builder.applyAll records = some after) {other : Mode} (apart : other ≠ kind) :
    after.part other = builder.part other := by
  obtain ⟨stays,closed⟩ := staysIn_of_whole sound outside whole accepted
  exact (stays.spares knows accepted).part (closed.trans outside.symm) apart

/-- A whole section behind one of another kind does to its part what it does alone, and leaves the
rest. -/
theorem applyAll_behind (sound : builder.Sound) (outside : builder.current = .outside) {kind' : Mode}
    (different : kind ≠ kind') {first second : List Record} (whole : Whole kind first)
    (whole' : Whole kind' second) (knows : builder.model.Knows first)
    (knows' : builder.model.Knows second) {a b : Builder} (accepted : builder.applyAll first = some a)
    (accepted' : builder.applyAll second = some b) :
    ∃ after, builder.applyAll (first ++ second) = some after ∧ after.part kind' = b.part kind' ∧
      ∀ other, other ≠ kind' → after.part other = a.part other := by
  obtain ⟨stays,closed⟩ := staysIn_of_whole sound outside whole accepted
  have knowsLater := (stays.spares knows accepted).model.knows knows'
  have still := part_of_whole sound outside whole knows accepted different.symm
  obtain ⟨stays',_⟩ := staysIn_of_whole sound outside whole' accepted'
  obtain ⟨after,later,alike⟩ := stays'.part still.symm accepted'
  refine ⟨after,?_,alike.symm,fun other apart => ?_⟩
  · rw [applyAll_append, accepted]
    exact later
  · exact part_of_whole (applyAll_sound sound accepted) closed whole' knowsLater later apart

/-- Whole sections of two kinds that a builder accepts, it accepts in either order, and comes to the
same. -/
theorem Reachable.sections_commute (reachable : builder.Reachable) (outside : builder.current = .outside)
    {kind kind' : Mode} (different : kind ≠ kind') {first second : List Record} (whole : Whole kind first)
    (whole' : Whole kind' second) (accepted : (builder.applyAll first).isSome)
    (accepted' : (builder.applyAll second).isSome) (knows : builder.model.Knows (first ++ second)) :
    ∃ after, builder.applyAll (first ++ second) = some after ∧
      builder.applyAll (second ++ first) = some after ∧ after.current = .outside := by
  have sound := reachable.sound
  have knowsFirst : builder.model.Knows first := fun record member =>
    knows record (List.mem_append_left second member)
  have knowsSecond : builder.model.Knows second := fun record member =>
    knows record (List.mem_append_right first member)
  obtain ⟨a,toA⟩ := Option.isSome_iff_exists.mp accepted
  obtain ⟨b,toB⟩ := Option.isSome_iff_exists.mp accepted'
  obtain ⟨ab,toAB,own,rest⟩ :=
    applyAll_behind sound outside different whole whole' knowsFirst knowsSecond toA toB
  obtain ⟨ba,toBA,own',rest'⟩ :=
    applyAll_behind sound outside different.symm whole' whole knowsSecond knowsFirst toB toA
  have parts (other : Mode) : ab.part other = ba.part other := by
    by_cases first_ : other = kind
    · subst first_
      exact (rest other different).trans own'.symm
    · by_cases second_ : other = kind'
      · subst second_
        exact own.trans (rest' other first_).symm
      · calc ab.part other
          _ = a.part other := rest other second_
          _ = builder.part other := part_of_whole sound outside whole knowsFirst toA first_
          _ = b.part other := (part_of_whole sound outside whole' knowsSecond toB second_).symm
          _ = ba.part other := (rest' other first_).symm
  have count : ab.records = ba.records := by
    rw [applyAll_count toAB, applyAll_count toBA, List.countP_append, List.countP_append,
      Nat.add_comm (first.countP _)]
  obtain rfl := eq_of_parts parts count
  refine ⟨ab,toAB,toBA,?_⟩
  exact (current_of_part (rest kind different)).trans (staysIn_of_whole sound outside whole toA).2

end Builder

def grounded : Builder :=
  { model := { groups := #[{ name := default },{ name := ⟨[103],false⟩ }] }, records := 2 }

theorem grounded_reachable : grounded.Reachable := by
  have opened : Builder.applyAll {} [.sequenceStart ⟨[103],false⟩,.sequenceEnd] = some grounded := by
    decide +kernel
  exact Builder.applyAll_reachable .initial opened

/-- A state with a transition to itself; a block ends in between. -/
def lampBody : List Record :=
  [.state 1 ⟨⟨[103],false⟩,⟨[115],false⟩⟩, .transition 1, .blockEnd,
    .trigger ⟨⟨[103],false⟩,⟨[116],false⟩⟩]

def lamp : List Record := .stateMachineStart ⟨[103],false⟩ :: (lampBody ++ [.stateMachineEnd])

def bellBody : List Record :=
  [.timeline ⟨⟨[103],false⟩,⟨[65],false⟩⟩, .nodeStart 1 2, .sentMessage ⟨1,2,⟨[66],false⟩,⟨[109],false⟩⟩,
    .nodeEnd]

def bell : List Record := .sequenceStart ⟨[103],false⟩ :: (bellBody ++ [.sequenceEnd])

/-- The state machine and the sequence of one group, in either order. -/
theorem lamp_and_bell :
    Whole .stateMachine lamp ∧ Whole .sequence bell ∧ grounded.model.Knows (lamp ++ bell) ∧
      ∃ after, grounded.applyAll (lamp ++ bell) = some after ∧
        grounded.applyAll (bell ++ lamp) = some after ∧ after.current = .outside ∧
        after.model.states.size = 1 ∧ after.model.messages.size = 1 ∧ after.records = 13 := by
  have wholeLamp : Whole .stateMachine lamp := .enclosed rfl (by decide +kernel) rfl
  have wholeBell : Whole .sequence bell := .enclosed rfl (by decide +kernel) rfl
  have knows : grounded.model.Knows (lamp ++ bell) := by
    unfold Model.Knows
    decide +kernel
  obtain ⟨after,there,back,closed⟩ := grounded_reachable.sections_commute rfl (by decide) wholeLamp
    wholeBell (by decide +kernel) (by decide +kernel) knows
  refine ⟨wholeLamp,wholeBell,knows,after,there,back,closed,?_⟩
  have checked : (grounded.applyAll (lamp ++ bell)).any fun after =>
      after.model.states.size = 1 ∧ after.model.messages.size = 1 ∧ after.records = 13 := by
    decide +kernel
  rw [there] at checked
  simpa using checked

end DocGraph

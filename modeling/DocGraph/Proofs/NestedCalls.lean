import DocGraph.Proofs.FunctionPairs
import DocGraph.Proofs.InnerWalks
import Mathlib.Data.List.TakeWhile

/-! Calls that come back by themselves, as trees of nodes. A call that receives at the start of a function that
is still running is no such tree, and neither is one that does not end. -/
namespace DocGraph

namespace Model

/-- The node sends a message that reaches a node of another timeline. -/
def Sends (model : Model) (caller receiver : NodeId) : Prop :=
  ∃ message, (model.node caller).sent = some message ∧
    (model.message message).receiver = .resolved receiver ∧
    (model.node receiver).timeline ≠ (model.node caller).timeline

theorem sends_iff (model : Model) (caller receiver : NodeId) :
    model.Sends caller receiver ↔ Walker.callee? model (model.node caller) = some receiver := by
  simp only [Sends, Walker.callee?, Option.bind_eq_bind, Option.bind_eq_some_iff]
  constructor
  · rintro ⟨message,sent,reaches,away⟩
    exact ⟨message,sent,receiver,by rw [reaches]; rfl,if_neg away⟩
  · rintro ⟨message,sent,target,reaches,found⟩
    split at found
    · cases found
    · rename_i away
      cases found
      refine ⟨message,sent,?_,away⟩
      cases link : (model.message message).receiver with
      | resolved other => rw [link] at reaches; exact congrArg _ (Option.some.inj reaches)
      | unresolved | absent => rw [link] at reaches; cases reaches

instance (model : Model) (caller receiver : NodeId) : Decidable (model.Sends caller receiver) :=
  decidable_of_iff _ (model.sends_iff caller receiver).symm

/-- A receiver that sends nothing and has no part in a function. -/
structure Leaf (model : Model) (id : NodeId) : Prop where
  silent : (model.node id).sent = none
  function : (model.node id).flags.contains .function = false
  inFunction : (model.node id).flags.contains .inFunction = false
  functionEnd : (model.node id).flags.contains .functionEnd = false

instance (model : Model) (id : NodeId) : Decidable (model.Leaf id) :=
  decidable_of_iff ((model.node id).sent = none ∧ (model.node id).flags.contains .function = false ∧
      (model.node id).flags.contains .inFunction = false ∧
      (model.node id).flags.contains .functionEnd = false)
    ⟨fun ⟨silent,function,inFunction,functionEnd⟩ => ⟨silent,function,inFunction,functionEnd⟩,
      fun ⟨silent,function,inFunction,functionEnd⟩ => ⟨silent,function,inFunction,functionEnd⟩⟩

/-- The end of a function, where the walk goes back to its caller. -/
structure Closes (model : Model) (start stop : NodeId) : Prop where
  paired : (model.node start).functionEnd = some stop
  silent : (model.node stop).sent = none
  function : (model.node stop).flags.contains .function = false
  inFunction : (model.node stop).flags.contains .inFunction = false

instance (model : Model) (start stop : NodeId) : Decidable (model.Closes start stop) :=
  decidable_of_iff ((model.node start).functionEnd = some stop ∧ (model.node stop).sent = none ∧
      (model.node stop).flags.contains .function = false ∧
      (model.node stop).flags.contains .inFunction = false)
    ⟨fun ⟨paired,silent,function,inFunction⟩ => ⟨paired,silent,function,inFunction⟩,
      fun ⟨paired,silent,function,inFunction⟩ => ⟨paired,silent,function,inFunction⟩⟩

/-- A node of a function after which the walk stays on the timeline. -/
inductive Quiet (model : Model) (id : NodeId) : Prop
  | inside (silent : (model.node id).sent = none)
      (marked : (model.node id).flags.contains .function = true ∨
        (model.node id).flags.contains .inFunction = true)
  | absent (message : MessageId) (sent : (model.node id).sent = some message)
      (lost : (model.message message).receiver = .absent)
  | own (message : MessageId) (receiver : NodeId) (sent : (model.node id).sent = some message)
      (reaches : (model.message message).receiver = .resolved receiver)
      (same : (model.node receiver).timeline = (model.node id).timeline)

end Model

mutual

/-- The nodes of a call of a node, the caller first, and which of them receive. -/
inductive Call (model : Model) : NodeId → List NodeId → List NodeId → Prop
  | leaf {caller receiver : NodeId} (sends : model.Sends caller receiver) (leaf : model.Leaf receiver) :
      Call model caller [caller,receiver] [receiver]
  | function {caller start stop : NodeId} {before body after trace receivers : List NodeId}
      (sends : model.Sends caller start)
      (opens : (model.node start).flags.contains .function = true)
      (closes : model.Closes start stop)
      (line : model.nodesOf (model.node start).timeline = before ++ start :: body ++ stop :: after)
      (parts : Parts model start (start :: body) trace receivers) :
      Call model caller (caller :: trace ++ [stop]) (start :: receivers)

/-- What the nodes of a function that runs from `start` on contribute, one after another. -/
inductive Parts (model : Model) : NodeId → List NodeId → List NodeId → List NodeId → Prop
  | nil {start : NodeId} : Parts model start [] [] []
  | quiet {start node : NodeId} {nodes trace receivers : List NodeId} (quiet : model.Quiet node)
      (parts : Parts model start nodes trace receivers) :
      Parts model start (node :: nodes) (node :: trace) receivers
  | call {start node : NodeId} {nodes inner among trace receivers : List NodeId}
      (call : Call model node inner among) (apart : start ∉ among)
      (parts : Parts model start nodes trace receivers) :
      Parts model start (node :: nodes) (inner ++ trace) (among ++ receivers)

end

theorem Flags.and_bit (bits : UInt32) (position : Nat) :
    bits &&& ⟨BitVec.twoPow 32 position⟩ = 0 ∨
      bits &&& ⟨BitVec.twoPow 32 position⟩ = ⟨BitVec.twoPow 32 position⟩ := by
  have meets := BitVec.and_twoPow bits.toBitVec position
  by_cases there : bits.toBitVec.getLsbD position
  · rw [if_pos there] at meets
    exact .inr (UInt32.toBitVec_inj.mp meets)
  · rw [if_neg there] at meets
    exact .inl (UInt32.toBitVec_inj.mp meets)

theorem Flags.intersects_function_inFunction (flags : Flags) :
    flags.intersects (function.union inFunction) =
      (flags.contains function || flags.contains inFunction) := by
  have first : flags.bits &&& 0x100 = 0 ∨ flags.bits &&& 0x100 = 0x100 := and_bit flags.bits 8
  have second : flags.bits &&& 0x800 = 0 ∨ flags.bits &&& 0x800 = 0x800 := and_bit flags.bits 11
  have split : flags.bits &&& (0x100 ||| 0x800) = flags.bits &&& 0x100 ||| flags.bits &&& 0x800 :=
    UInt32.toBitVec_inj.mp BitVec.and_or_distrib_left
  simp only [intersects, union, function, inFunction, contains, split]
  rcases first with first | first <;> rcases second with second | second <;> rw [first, second] <;> rfl

namespace Walker

variable {model : Model} {walker : Walker}

theorem caller?_record (walker : Walker) (receiver sender id : NodeId) :
    (walker.record receiver sender).caller? id =
      if id = receiver then some sender else walker.caller? id := by
  simp only [caller?, record, Std.TreeMap.getElem?_insert]
  by_cases same : id = receiver
  · subst same
    simp
  · have apart : compare receiver.index id.index ≠ .eq := by
      intro equal
      have index := Std.LawfulEqOrd.eq_of_compare equal
      cases id; cases receiver
      exact same (congrArg NodeId.mk index.symm)
    simp [same,apart]
theorem advance_sends {caller receiver : NodeId} (sends : model.Sends caller receiver) :
    advance model walker caller = (walker.record receiver caller,some receiver) := by
  have found := (model.sends_iff caller receiver).mp sends
  obtain ⟨message,sent,_⟩ := sends
  simp only [advance, sent, Option.isSome_some, if_true, found]

theorem advance_quiet {id : NodeId} (quiet : model.Quiet id) :
    advance model walker id = (walker,(model.node id).next) := by
  cases quiet with
  | inside silent marked =>
    have inside : (model.node id).flags.intersects (Flags.function.union .inFunction) = true := by
      rw [Flags.intersects_function_inFunction, Bool.or_eq_true]
      exact marked
    simp [advance,silent,inside]
  | absent message sent lost => simp [advance,callee?,sent,lost,Link.target?]
  | own message receiver sent reaches same =>
    simp [advance,callee?,sent,reaches,Link.target?,same]

theorem advance_leaf {id sender : NodeId} (leaf : model.Leaf id)
    (called : walker.caller? id = some sender) :
    advance model walker id = (walker,(model.node sender).next) := by
  simp [advance,leaf.silent,Flags.intersects_function_inFunction,leaf.function,leaf.inFunction,
    leaf.functionEnd,resume?,called]

theorem advance_closes (wired : model.Wired) {start stop sender : NodeId}
    (closes : model.Closes start stop) (called : walker.caller? start = some sender) :
    advance model walker stop = (walker,(model.node sender).next) := by
  have ends := (wired.joined _ _ closes.paired).flag
  have begins := (wired.inverse _ _).mp closes.paired
  simp [advance,closes.silent,Flags.intersects_function_inFunction,closes.function,closes.inFunction,
    ends,begins,called]

/-- Following a call changes what is noted about its receivers only; about each of them one of its
senders is noted. -/
structure Served (model : Model) (before after : Walker) (trace receivers : List NodeId) : Prop where
  kept : ∀ id, id ∉ receivers → after.caller? id = before.caller? id
  noted : ∀ id ∈ receivers, ∃ sender ∈ trace, model.Sends sender id ∧ after.caller? id = some sender

theorem served_record {caller receiver : NodeId} (sends : model.Sends caller receiver) :
    Served model walker (walker.record receiver caller) [caller] [receiver] where
  kept id other := by rw [caller?_record, if_neg (by simpa using other)]
  noted id member := by
    rw [List.mem_singleton.mp member]
    exact ⟨caller,List.mem_cons_self,sends,by rw [caller?_record, if_pos rfl]⟩

theorem Served.append {first second third : Walker} {trace receivers trace' receivers' : List NodeId}
    (before : Served model first second trace receivers)
    (after : Served model second third trace' receivers') :
    Served model first third (trace ++ trace') (receivers ++ receivers') where
  kept id other := by
    rw [List.mem_append, not_or] at other
    rw [after.kept id other.2, before.kept id other.1]
  noted id member := by
    by_cases again : id ∈ receivers'
    · obtain ⟨sender,sent,sends,called⟩ := after.noted id again
      exact ⟨sender,List.mem_append_right _ sent,sends,called⟩
    · have early := (List.mem_append.mp member).resolve_right again
      obtain ⟨sender,sent,sends,called⟩ := before.noted id early
      exact ⟨sender,List.mem_append_left _ sent,sends,(after.kept id again).trans called⟩

theorem Served.widen {first second : Walker} {trace receivers : List NodeId}
    (served : Served model first second trace receivers) {wider : List NodeId}
    (more : trace ⊆ wider) : Served model first second wider receivers where
  kept := served.kept
  noted id member := by
    obtain ⟨sender,sent,sends,called⟩ := served.noted id member
    exact ⟨sender,more sent,sends,called⟩

end Walker

theorem Parts.apart {model : Model} {start : NodeId} {nodes trace receivers : List NodeId} :
    Parts model start nodes trace receivers → start ∉ receivers
  | .nil => List.not_mem_nil
  | .quiet _ parts => parts.apart
  | .call _ apart parts => by
    rw [List.mem_append, not_or]
    exact ⟨apart,parts.apart⟩

theorem Model.Lined.next_within {model : Model} (lined : model.Lined) {line : TimelineId} {node stop : NodeId}
    {before nodes rest : List NodeId}
    (split : model.nodesOf line = before ++ node :: nodes ++ stop :: rest) :
    (model.node node).next = (nodes ++ [stop]).head? := by
  rw [List.append_assoc, List.cons_append] at split
  rw [lined.next_eq split]
  cases nodes <;> rfl

mutual

/-- The steps from a caller on are the nodes of its call, and then the node after it is active. -/
theorem Call.run {model : Model} (wired : model.Wired) {caller : NodeId} {trace receivers : List NodeId} :
    Call model caller trace receivers → ∀ walker : Walker, ∃ after,
      Walker.iterate model trace.length walker (some caller) = ⟨after,trace,(model.node caller).next⟩ ∧
        Walker.Served model walker after trace receivers
  | @Call.leaf _ _ receiver sends leaf => by
    intro walker
    have called : (walker.record receiver caller).caller? receiver = some caller := by
      rw [Walker.caller?_record, if_pos rfl]
    refine ⟨walker.record receiver caller,?_,?_⟩
    · rw [List.length_cons, Walker.iterate_step (Walker.advance_sends sends), List.length_singleton,
        Walker.iterate_step (Walker.advance_leaf leaf called)]
      rfl
    · exact (Walker.served_record sends).widen (by simp)
  | @Call.function _ _ start stop _ body _ trace receivers sends _ closes line parts => by
    intro walker
    obtain ⟨after,run,served⟩ := parts.run wired (walker.record start caller) line
    -- No part calls at the start again, so the end still finds this caller.
    have called : after.caller? start = some caller := by
      rw [served.kept start parts.apart, Walker.caller?_record, if_pos rfl]
    have inside : Walker.iterate model trace.length (walker.record start caller) (some start) =
      ⟨after,trace,some stop⟩ := run
    refine ⟨after,?_,?_⟩
    · rw [List.cons_append, List.length_cons, List.length_append, List.length_singleton,
        Walker.iterate_step (Walker.advance_sends sends), Walker.iterate_append]
      simp only [inside]
      rw [Walker.iterate_step (Walker.advance_closes wired closes called)]
      rfl
    · exact ((Walker.served_record sends).append served).widen (by simp)

theorem Parts.run {model : Model} (wired : model.Wired) {start : NodeId}
    {nodes trace receivers : List NodeId} :
    Parts model start nodes trace receivers → ∀ (walker : Walker) {line : TimelineId} {stop : NodeId}
      {before rest : List NodeId}, model.nodesOf line = before ++ nodes ++ stop :: rest →
      ∃ after, Walker.iterate model trace.length walker (nodes ++ [stop]).head? =
        ⟨after,trace,some stop⟩ ∧ Walker.Served model walker after trace receivers
  | .nil => by
    intro walker line stop before rest split
    exact ⟨walker,rfl,fun _ _ => rfl,nofun⟩
  | @Parts.quiet _ _ node nodes trace receivers quiet parts => by
    intro walker line stop before rest split
    have onward : model.nodesOf line = before ++ [node] ++ nodes ++ stop :: rest := by
      rw [split]; simp
    obtain ⟨after,run,served⟩ := parts.run wired walker onward
    have advanced : Walker.advance model walker node = (walker,(nodes ++ [stop]).head?) := by
      rw [Walker.advance_quiet quiet, wired.lined.next_within split]
    refine ⟨after,?_,served.widen (List.subset_cons_self _ _)⟩
    rw [List.length_cons, List.cons_append, List.head?_cons, Walker.iterate_step advanced, run]
  | @Parts.call _ _ node nodes inner among trace receivers call apart parts => by
    intro walker line stop before rest split
    have onward : model.nodesOf line = before ++ [node] ++ nodes ++ stop :: rest := by
      rw [split]; simp
    obtain ⟨middle,first,before⟩ := call.run wired walker
    obtain ⟨after,run,later⟩ := parts.run wired middle onward
    refine ⟨after,?_,before.append later⟩
    rw [List.length_append, List.cons_append, List.head?_cons, Walker.iterate_append, first]
    simp only [wired.lined.next_within split, run]

end

/-- Following a call in a loaded graph comes back behind the caller, whatever was noted before. -/
theorem load_call_returns {source : Source} {file : String} {loaded : Loaded}
    (found : (load source file).result = .ok loaded) (walker : Walker) {caller : NodeId}
    {trace receivers : List NodeId} (call : Call loaded.model caller trace receivers) :
    ∃ after, Walker.iterate loaded.model trace.length walker (some caller) =
        ⟨after,trace,(loaded.model.node caller).next⟩ ∧
      (∀ id, id ∉ receivers → after.caller? id = walker.caller? id) ∧
      (∀ id ∈ receivers, ∃ sender ∈ trace, loaded.model.Sends sender id ∧
        after.caller? id = some sender) := by
  obtain ⟨after,run,served⟩ := call.run (load_wired found) walker
  exact ⟨after,run,served.kept,served.noted⟩

/-- A function that calls a node of a third timeline. -/
def relay : List Record :=
  drawing [
    (65,[⟨1,.messageSend,some (2,66)⟩]),
    (66,[⟨2,Flags.function.union .responds,none⟩,
      ⟨3,Flags.inFunction.union .messageSend,some (5,67)⟩,
      ⟨4,Flags.functionEnd.union .responds,none⟩]),
    (67,[⟨5,.responds,none⟩])]

theorem relay_loaded :
    ∃ bytes loaded start, Writer.file {} relay = .ok bytes ∧
      (load ⟨bytes,[]⟩ "model").result = .ok loaded ∧
      start ∈ Walker.starts loaded.model {} ⟨0⟩ ∧ start.next = none ∧
      (loaded.model.node start.node).next = none ∧
      Call loaded.model start.node [⟨0⟩,⟨1⟩,⟨2⟩,⟨4⟩,⟨3⟩] [⟨1⟩,⟨4⟩] ∧
      (loaded.model.diagramNodes (loaded.model.timeline ⟨0⟩).group).length = 5 := by
  obtain ⟨bytes,written⟩ : ∃ bytes, Writer.file {} relay = .ok bytes := ⟨_,rfl⟩
  have checked : (graphOf relay).any fun model => (Walker.starts model {} ⟨0⟩).any fun start =>
      start.node = ⟨0⟩ ∧ start.next = none ∧ (model.node start.node).next = none ∧
        (model.diagramNodes (model.timeline ⟨0⟩).group).length = 5 ∧
        model.Sends ⟨0⟩ ⟨1⟩ ∧ (model.node ⟨1⟩).flags.contains .function ∧ model.Closes ⟨1⟩ ⟨3⟩ ∧
        model.nodesOf (model.node ⟨1⟩).timeline = [] ++ ⟨1⟩ :: [⟨2⟩] ++ [⟨3⟩] ∧
        (model.node ⟨1⟩).sent = none ∧
        model.Sends ⟨2⟩ ⟨4⟩ ∧ model.Leaf ⟨4⟩ := by decide +kernel
  obtain ⟨loaded,found,holds⟩ := load_graphOf written checked "model"
  obtain ⟨start,member,holds⟩ := List.any_eq_true.mp holds
  obtain ⟨node,next,last,size,sends,opens,closes,line,silent,sends',leaf⟩ := of_decide_eq_true holds
  have inner : Parts loaded.model ⟨1⟩ [⟨2⟩] [⟨2⟩,⟨4⟩] [⟨4⟩] :=
    .call (.leaf sends' leaf) (by decide) .nil
  have parts : Parts loaded.model ⟨1⟩ [⟨1⟩,⟨2⟩] [⟨1⟩,⟨2⟩,⟨4⟩] [⟨4⟩] :=
    .quiet (.inside silent (.inl opens)) inner
  have call : Call loaded.model start.node [⟨0⟩,⟨1⟩,⟨2⟩,⟨4⟩,⟨3⟩] [⟨1⟩,⟨4⟩] := by
    rw [node]
    exact .function sends opens closes line parts
  exact ⟨bytes,loaded,start,written,found,member,next,last,call,size⟩

theorem relay_returns :
    ∃ bytes loaded caller after, Writer.file {} relay = .ok bytes ∧
      (load ⟨bytes,[]⟩ "model").result = .ok loaded ∧
      Call loaded.model caller [⟨0⟩,⟨1⟩,⟨2⟩,⟨4⟩,⟨3⟩] [⟨1⟩,⟨4⟩] ∧
      Walker.iterate loaded.model 5 {} (some caller) = ⟨after,[⟨0⟩,⟨1⟩,⟨2⟩,⟨4⟩,⟨3⟩],none⟩ := by
  obtain ⟨bytes,loaded,start,written,found,_,_,last,call,_⟩ := relay_loaded
  obtain ⟨after,run,_⟩ := load_call_returns found {} call
  rw [last] at run
  exact ⟨bytes,loaded,start.node,after,written,found,call,run⟩

namespace Walker

variable {model : Model} {walker : Walker}

theorem searchWithin_next {fuel : Nat} {cursor : Option NodeId} {id : NodeId}
    (found : (searchWithin model fuel cursor).active = some id) :
    (searchWithin model fuel cursor).next = (model.node id).next := by
  induction fuel generalizing cursor with
  | zero => cases cursor <;> cases found
  | succ fuel ih =>
    cases cursor with
    | none => cases found
    | some cursor =>
      simp only [searchWithin] at found ⊢
      split at found
      · rename_i sends
        cases found
        rw [if_pos sends]
      · rename_i passed
        rw [if_neg passed]
        exact ih found

theorem startsFrom_next {budget fuel : Nat} {cursor : Option NodeId} {start : Start}
    (member : start ∈ startsFrom model budget fuel walker cursor) :
    start.next = (model.node start.node).next := by
  induction fuel generalizing walker cursor with
  | zero => cases cursor <;> cases member
  | succ fuel ih =>
    cases cursor with
    | none => cases member
    | some cursor =>
      simp only [startsFrom] at member
      split at member
      · exact ih member
      · rename_i active found
        rcases List.mem_cons.mp member with rfl | later
        · exact searchWithin_next found
        · exact ih later

end Walker

theorem Call.cons_tail {model : Model} {caller : NodeId} {trace receivers : List NodeId}
    (call : Call model caller trace receivers) : caller :: trace.tail = trace := by
  cases call <;> rfl

/-- An inner walk follows a call up to the node behind the caller, wherever in the call it meets it. -/
theorem Call.trail {model : Model} (wired : model.Wired) {walker : Walker} {timeline : TimelineId}
    {start : Walker.Start} (member : start ∈ Walker.starts model walker timeline)
    {trace receivers : List NodeId} (call : Call model start.node trace receivers) :
    let limit := (model.diagramNodes (model.timeline timeline).group).length + 2
    let trail := Walker.trail model timeline start
    trail.nodes = (start.node :: trace.tail.takeWhile (some · ≠ start.next)).take limit ∧
      (trace.length ≤ limit → trail.stopped = false) := by
  obtain ⟨after,run,_⟩ := call.run wired start.walker
  rw [← Walker.startsFrom_next member, ← call.cons_tail] at run
  have steps : (Walker.iterate model (trace.tail.length + 1) start.walker
    (some start.node)).nodes = start.node :: trace.tail := congrArg Walker.Run.nodes run
  have ended : (Walker.iterate model (trace.tail.length + 1) start.walker
    (some start.node)).active = start.next := congrArg Walker.Run.active run
  have length : trace.tail.length + 1 = trace.length := congrArg List.length call.cons_tail
  obtain ⟨nodes,stopped⟩ := Walker.follow_nodes
    (Walker.budget model (model.timeline timeline).group) steps ended
  refine ⟨nodes,fun enough => stopped ?_⟩
  rw [Walker.budget]
  omega

/-- The walk of a timeline is made of inner walks, and one that starts with a call has the steps of the
call up to the node behind the caller: all of them unless that node is one of them, as long as the
budget allows them. -/
theorem load_follows_call {source : Source} {file : String} {loaded : Loaded}
    (found : (load source file).result = .ok loaded) (walker : Walker) (timeline : TimelineId) :
    (Walker.walkTimeline loaded.model walker timeline).steps =
      ((Walker.starts loaded.model walker timeline).flatMap fun start =>
        (Walker.trail loaded.model timeline start).nodes.map (Walker.step loaded.model)) ∧
    ∀ start ∈ Walker.starts loaded.model walker timeline, ∀ trace receivers,
      Call loaded.model start.node trace receivers →
      let limit := (loaded.model.diagramNodes (loaded.model.timeline timeline).group).length + 2
      let trail := Walker.trail loaded.model timeline start
      start.next = (loaded.model.node start.node).next ∧
        trail.nodes = (start.node :: trace.tail.takeWhile (some · ≠ start.next)).take limit ∧
        (trace.length ≤ limit → trail.stopped = false ∧
          (trail.nodes = trace ↔ ∀ node ∈ trace.tail, some node ≠ start.next)) := by
  refine ⟨Walker.walkTimeline_steps walker timeline,fun start member trace receivers call => ?_⟩
  obtain ⟨nodes,stopped⟩ := call.trail (load_wired found) member
  refine ⟨Walker.startsFrom_next member,nodes,fun enough => ⟨stopped enough,?_⟩⟩
  have length : trace.tail.length + 1 = trace.length := congrArg List.length call.cons_tail
  have short := (List.takeWhile_prefix (some · ≠ start.next) (l := trace.tail)).length_le
  rw [List.take_of_length_le (by rw [List.length_cons]; omega)] at nodes
  have whole : start.node :: trace.tail.takeWhile (some · ≠ start.next) = trace ↔
      trace.tail.takeWhile (some · ≠ start.next) = trace.tail := by
    constructor
    · exact congrArg List.tail
    · intro same
      rw [same, call.cons_tail]
  rw [nodes, whole, List.takeWhile_eq_self_iff]
  simp only [decide_eq_true_eq]

/-- A call that is followed to its end. -/
theorem relay_followed :
    ∃ bytes loaded start, Writer.file {} relay = .ok bytes ∧
      (load ⟨bytes,[]⟩ "model").result = .ok loaded ∧
      start ∈ Walker.starts loaded.model {} ⟨0⟩ ∧
      Call loaded.model start.node [⟨0⟩,⟨1⟩,⟨2⟩,⟨4⟩,⟨3⟩] [⟨1⟩,⟨4⟩] ∧
      (Walker.trail loaded.model ⟨0⟩ start).nodes = [⟨0⟩,⟨1⟩,⟨2⟩,⟨4⟩,⟨3⟩] ∧
      (Walker.trail loaded.model ⟨0⟩ start).stopped = false := by
  obtain ⟨bytes,loaded,start,written,found,member,next,_,call,size⟩ := relay_loaded
  obtain ⟨_,inner⟩ := load_follows_call found {} ⟨0⟩
  obtain ⟨_,_,whole⟩ := inner start member _ _ call
  obtain ⟨unstopped,same⟩ := whole (by rw [size]; decide)
  refine ⟨bytes,loaded,start,written,found,member,call,same.mpr ?_,unstopped⟩
  rw [next]
  exact fun _ _ => nofun

/-- A function that calls back to the node behind its caller, and then a third timeline. -/
def callback : List Record :=
  drawing [
    (65,[⟨1,.messageSend,some (3,66)⟩,⟨2,⟨0⟩,none⟩]),
    (66,[⟨3,Flags.function.union .responds,none⟩,
      ⟨4,Flags.inFunction.union .messageSend,some (2,65)⟩,
      ⟨5,Flags.inFunction.union .messageSend,some (7,67)⟩,
      ⟨6,Flags.functionEnd.union .responds,none⟩]),
    (67,[⟨7,.responds,none⟩])]

/-- The walk takes the node that is called back for the end of the call: the call has seven nodes, as
the diagram has, and the walk has three of them. -/
theorem callback_cut :
    ∃ bytes loaded start trace receivers, Writer.file {} callback = .ok bytes ∧
      (load ⟨bytes,[]⟩ "model").result = .ok loaded ∧
      start ∈ Walker.starts loaded.model {} ⟨0⟩ ∧ Call loaded.model start.node trace receivers ∧
      trace.length ≤ (loaded.model.diagramNodes (loaded.model.timeline ⟨0⟩).group).length ∧
      (Walker.trail loaded.model ⟨0⟩ start).nodes ≠ trace := by
  obtain ⟨bytes,written⟩ : ∃ bytes, Writer.file {} callback = .ok bytes := ⟨_,rfl⟩
  have checked : (graphOf callback).any fun model => (Walker.starts model {} ⟨0⟩).any fun start =>
      start.node = ⟨0⟩ ∧
        (model.diagramNodes (model.timeline ⟨0⟩).group).length = 7 ∧
        (Walker.trail model ⟨0⟩ start).nodes = [⟨0⟩,⟨2⟩,⟨3⟩] ∧
        model.Sends ⟨0⟩ ⟨2⟩ ∧ (model.node ⟨2⟩).flags.contains .function ∧ model.Closes ⟨2⟩ ⟨5⟩ ∧
        model.nodesOf (model.node ⟨2⟩).timeline = [] ++ ⟨2⟩ :: [⟨3⟩,⟨4⟩] ++ [⟨5⟩] ∧
        (model.node ⟨2⟩).sent = none ∧ model.Sends ⟨3⟩ ⟨1⟩ ∧ model.Leaf ⟨1⟩ ∧
        model.Sends ⟨4⟩ ⟨6⟩ ∧ model.Leaf ⟨6⟩ := by decide +kernel
  obtain ⟨loaded,found,holds⟩ := load_graphOf written checked "model"
  obtain ⟨start,member,holds⟩ := List.any_eq_true.mp holds
  obtain ⟨node,size,nodes,sends,opens,closes,line,silent,back,behind,away,leaf⟩ :=
    of_decide_eq_true holds
  have last : Parts loaded.model ⟨2⟩ [⟨4⟩] [⟨4⟩,⟨6⟩] [⟨6⟩] :=
    .call (.leaf away leaf) (by decide) .nil
  have inner : Parts loaded.model ⟨2⟩ [⟨3⟩,⟨4⟩] [⟨3⟩,⟨1⟩,⟨4⟩,⟨6⟩] [⟨1⟩,⟨6⟩] :=
    .call (.leaf back behind) (by decide) last
  have parts : Parts loaded.model ⟨2⟩ [⟨2⟩,⟨3⟩,⟨4⟩] [⟨2⟩,⟨3⟩,⟨1⟩,⟨4⟩,⟨6⟩] [⟨1⟩,⟨6⟩] :=
    .quiet (.inside silent (.inl opens)) inner
  have call : Call loaded.model start.node [⟨0⟩,⟨2⟩,⟨3⟩,⟨1⟩,⟨4⟩,⟨6⟩,⟨5⟩] [⟨2⟩,⟨1⟩,⟨6⟩] := by
    rw [node]
    exact .function sends opens closes line parts
  refine ⟨bytes,loaded,start,_,_,written,found,member,call,?_,?_⟩
  · rw [size]
    decide
  · rw [nodes]
    decide

end DocGraph

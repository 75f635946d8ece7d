import DocGraph.Proofs.TransitionTargets

/-! Names and the groups that they select. Two names never stand for a group of their own: `document` is the
document itself, and `all` is the first group behind it. -/
namespace DocGraph

namespace Model

def nameOf (model : Model) (group : GroupId) : Bytes := (model.group group).name.bytes

/-- How a group is found by its own name. -/
def wayTo (model : Model) (group : GroupId) : Selection :=
  if model.nameOf group = allName then .all else .normal

/-- Names that tell the groups apart, with two that are kept for groups of their own. -/
structure Distinct (model : Model) : Prop where
  document : root ∈ model.groupIds
  different : ∀ group ∈ model.groupIds, ∀ other ∈ model.groupIds,
    model.nameOf group = model.nameOf other → group = other
  reserved : ∀ group ∈ model.groupIds, model.nameOf group ≠ documentName
  all : ∀ group ∈ model.groupIds, model.nameOf group = allName → group.index = 1

/-- Each group is found by its own name. -/
structure Named (model : Model) : Prop extends Distinct model where
  found : ∀ group ∈ model.groupIds,
    model.findGroup? (model.nameOf group) = some (group,model.wayTo group)

variable {before after model : Model}

theorem nameOf_getElem {index : Nat} (known : index < model.groups.size) :
    model.groups[index].name.bytes = model.nameOf ⟨index⟩ := by
  simp [nameOf,group,known]

theorem findGroup?_eq_none_iff {name : Bytes} (own : name ≠ allName) (own' : name ≠ documentName) :
    model.findGroup? name = none ↔ ∀ group ∈ model.groupIds, model.nameOf group ≠ name := by
  simp only [findGroup?, if_neg own, if_neg own', Option.map_eq_none_iff, Array.findIdx?_eq_none_iff,
    beq_eq_false_iff_ne]
  constructor
  · intro none_ group known
    have inside := mem_groupIds_iff.mp known
    rw [← nameOf_getElem inside]
    exact none_ _ (Array.getElem_mem inside)
  · intro none_ item member
    obtain ⟨index,inside,rfl⟩ := Array.mem_iff_getElem.mp member
    rw [nameOf_getElem inside]
    exact none_ ⟨index⟩ (mem_groupIds_iff.mpr inside)

theorem Distinct.findGroup?_nameOf (distinct : model.Distinct) {group : GroupId}
    (known : group ∈ model.groupIds) :
    model.findGroup? (model.nameOf group) = some (group,model.wayTo group) := by
  have inside := mem_groupIds_iff.mp known
  unfold findGroup? wayTo
  by_cases all : model.nameOf group = allName
  · have first := distinct.all group known all
    rw [if_pos all, if_pos all, if_pos (first ▸ inside), ← first]
  · rw [if_neg all, if_neg all, if_neg (distinct.reserved group known)]
    refine Option.map_eq_some_iff.mpr ⟨group.index,?_,rfl⟩
    refine Array.findIdx?_eq_some_iff_getElem.mpr ⟨inside,?_,fun index earlier same => ?_⟩
    · rw [nameOf_getElem inside]
      exact beq_self_eq_true _
    · have inside' : index < model.groups.size := Nat.lt_trans earlier inside
      rw [nameOf_getElem inside', beq_iff_eq] at same
      have here := distinct.different ⟨index⟩ (mem_groupIds_iff.mpr inside') group known same
      exact Nat.ne_of_lt earlier (congrArg GroupId.index here)

theorem Distinct.named (distinct : model.Distinct) : model.Named :=
  ⟨distinct,fun _ => distinct.findGroup?_nameOf⟩

theorem Distinct.of_same (distinct : before.Distinct) (size : after.groups.size = before.groups.size)
    (names : ∀ group, after.nameOf group = before.nameOf group) : after.Distinct := by
  have ids : after.groupIds = before.groupIds := by simp only [groupIds, size]
  refine ⟨?_,?_,?_,?_⟩
  all_goals simp only [ids, names]
  · exact distinct.document
  · exact distinct.different
  · exact distinct.reserved
  · exact distinct.all

/-- A group is not found, so its name can be given to a new one. -/
theorem Distinct.fresh (distinct : model.Distinct) (unnamed : model.nameOf root = []) {name : Bytes}
    (missing : model.findGroup? name = none) :
    name ≠ documentName ∧ (name = allName → model.groups.size = 1) ∧
      ∀ group ∈ model.groupIds, model.nameOf group ≠ name := by
  have document := mem_groupIds_iff.mp distinct.document
  by_cases all : name = allName
  · subst all
    have alone : model.groups.size = 1 := by
      simp [findGroup?] at missing
      simp [root] at document
      omega
    refine ⟨by decide,fun _ => alone,fun group known => ?_⟩
    have first : group = root := by
      have inside := mem_groupIds_iff.mp known
      cases group
      simp [root] at inside ⊢
      omega
    rw [first, unnamed]
    decide
  · have apart : name ≠ documentName := by
      rintro rfl
      simp [findGroup?,all] at missing
    exact ⟨apart,fun same => absurd same all,(findGroup?_eq_none_iff all apart).mp missing⟩

theorem nameOf_addGroup (model : Model) (name : Name) (group : GroupId) :
    (model.addGroup name).1.nameOf group =
      if group.index = model.groups.size then name.bytes else model.nameOf group := by
  have added : (model.addGroup name).1.group group =
      if group.index = model.groups.size then { name } else model.group group := getD_push ..
  rw [nameOf, added]
  split
  · rfl
  · rfl

theorem mem_groupIds_addGroup (model : Model) (name : Name) (group : GroupId) :
    group ∈ (model.addGroup name).1.groupIds ↔
      group ∈ model.groupIds ∨ group.index = model.groups.size := by
  simp [mem_groupIds_iff,addGroup]
  omega

theorem Distinct.addGroup (distinct : model.Distinct) (unnamed : model.nameOf root = []) {name : Name}
    (missing : model.findGroup? name.bytes = none) : (model.addGroup name).1.Distinct := by
  obtain ⟨apart,alone,fresh⟩ := distinct.fresh unnamed missing
  have old {group : GroupId} (known : group ∈ model.groupIds) :
      (model.addGroup name).1.nameOf group = model.nameOf group := by
    rw [nameOf_addGroup, if_neg (Nat.ne_of_lt (mem_groupIds_iff.mp known))]
  have new {group : GroupId} (last : group.index = model.groups.size) :
      (model.addGroup name).1.nameOf group = name.bytes := by
    rw [nameOf_addGroup, if_pos last]
  refine ⟨?_,?_,?_,?_⟩
  all_goals simp only [mem_groupIds_addGroup]
  · exact .inl distinct.document
  · rintro group (known | last) other (known' | last') same
    · rw [old known, old known'] at same
      exact distinct.different group known other known' same
    · rw [old known, new last'] at same
      exact absurd same (fresh group known)
    · rw [new last, old known'] at same
      exact absurd same.symm (fresh other known')
    · cases group
      cases other
      exact congrArg GroupId.mk (last.trans last'.symm)
  · rintro group (known | last)
    · rw [old known]
      exact distinct.reserved group known
    · rw [new last]
      exact apart
  · rintro group (known | last) same
    · rw [old known] at same
      exact distinct.all group known same
    · rw [new last] at same
      rw [last, alone same]

/-- Names of a graph that is built. The document has none yet. -/
structure Untitled (model : Model) : Prop where
  distinct : model.Distinct
  unnamed : model.nameOf root = []

theorem Untitled.of_same (untitled : before.Untitled) (size : after.groups.size = before.groups.size)
    (names : ∀ group, after.nameOf group = before.nameOf group) : after.Untitled :=
  ⟨untitled.distinct.of_same size names,(names root).trans untitled.unnamed⟩

theorem Untitled.of_groups (untitled : before.Untitled) (groups : after.groups = before.groups) :
    after.Untitled := by
  refine untitled.of_same (congrArg Array.size groups) fun id => ?_
  simp only [nameOf, group, groups]

theorem nameOf_modifyGroup (model : Model) (id : GroupId) {change : Group → Group}
    (keeps : ∀ group, (change group).name = group.name) (group : GroupId) :
    (model.modifyGroup id change).nameOf group = model.nameOf group :=
  congrArg Name.bytes (field_modifyGroup Group.name keeps model id group)

theorem empty_untitled : Untitled {} := by
  have only (group : GroupId) (known : group ∈ groupIds {}) : group = root := by
    have inside := mem_groupIds_iff.mp known
    cases group
    simpa [root] using inside
  refine ⟨⟨by decide,?_,?_,?_⟩,rfl⟩
  · intro group known other known' _
    rw [only group known, only other known']
  · intro group known
    rw [only group known]
    decide
  · intro group known same
    rw [only group known] at same
    cases same

theorem Untitled.findOrAddGroup (untitled : model.Untitled) (name : Name) :
    (model.findOrAddGroup name).1.Untitled := by
  unfold Model.findOrAddGroup
  split
  · exact untitled
  · rename_i missing
    refine ⟨untitled.distinct.addGroup untitled.unnamed missing,?_⟩
    have document := mem_groupIds_iff.mp untitled.distinct.document
    rw [nameOf_addGroup, if_neg (Nat.ne_of_lt document)]
    exact untitled.unnamed

theorem Change.untitled (untitled : before.Untitled) (change : before.Change after) :
    after.Untitled := by
  cases change with
  | group name => exact untitled.findOrAddGroup name
  | application name =>
    simp only [Builder.findOrAddApplication]
    split
    · exact untitled
    · exact untitled.of_same (size_groups_modifyGroup ..) (nameOf_modifyGroup _ _ fun _ => rfl)
  | node line id flags _ => exact untitled.of_groups (Builder.addNode_sizes before line id flags).1
  | state | timeline | message | applicationContent | api | sample =>
    exact untitled.of_same (size_groups_modifyGroup ..) (nameOf_modifyGroup _ _ fun _ => rfl)
  | transition | trigger | triggers | guard | condition => exact untitled.of_groups rfl

end Model

open Model

theorem Builder.Reachable.untitled {builder : Builder} (reachable : builder.Reachable) :
    builder.model.Untitled :=
  reachable.model_holds empty_untitled fun _ _ => Change.untitled

/-- The document is named when no group has its name, and keeps none when one has. -/
structure Model.DocumentNamed (model : Model) : Prop where
  free : (∀ group ∈ model.groupIds, group ≠ root → model.nameOf group ≠ defaultName) →
    model.nameOf root = defaultName
  taken : ∀ group ∈ model.groupIds, group ≠ root → model.nameOf group = defaultName →
    model.nameOf root = [] ∧ ∀ other ∈ model.groupIds, model.nameOf other = defaultName → other = group

theorem Model.nameOf_renameDocument {model : Model} (document : root ∈ model.groupIds) (name : Name)
    (group : GroupId) : (model.renameGroup root name).nameOf group =
      if group = root then name.bytes else model.nameOf group := by
  have inside := mem_groupIds_iff.mp document
  simp only [renameGroup, nameOf, group_modifyGroup, inside, and_true]
  split
  · rfl
  · rfl

theorem Model.Untitled.rename {model : Model} (untitled : model.Untitled)
    (free : ∀ group ∈ model.groupIds, model.nameOf group ≠ defaultName) :
    (model.renameGroup root ⟨defaultName,false⟩).Distinct := by
  have document := untitled.distinct.document
  have ids : (model.renameGroup root ⟨defaultName,false⟩).groupIds = model.groupIds := by
    simp only [groupIds, renameGroup, size_groups_modifyGroup]
  refine ⟨?_,?_,?_,?_⟩
  all_goals simp only [ids, nameOf_renameDocument document]
  · exact document
  · intro group known other known' same
    by_cases here : group = root
    · by_cases there : other = root
      · rw [here, there]
      · rw [if_pos here, if_neg there] at same
        exact absurd same.symm (free other known')
    · by_cases there : other = root
      · rw [if_neg here, if_pos there] at same
        exact absurd same (free group known)
      · rw [if_neg here, if_neg there] at same
        exact untitled.distinct.different group known other known' same
  · intro group known
    split
    · decide
    · exact untitled.distinct.reserved group known
  · intro group known
    split
    · exact fun same => absurd same (by decide)
    · exact untitled.distinct.all group known

theorem Model.Untitled.nameDocument {model : Model} (untitled : model.Untitled) :
    (Loaded.nameDocument model).1.Distinct ∧ (Loaded.nameDocument model).1.DocumentNamed := by
  have document := untitled.distinct.document
  have empty : (model.group root).name.isEmpty = true := by
    simpa [Name.isEmpty,nameOf] using untitled.unnamed
  have sought : model.findGroup? defaultName = none ↔ _ :=
    findGroup?_eq_none_iff (by decide) (by decide)
  rw [Loaded.nameDocument, if_pos empty]
  cases found : model.findGroup? defaultName with
  | some group =>
    refine ⟨untitled.distinct,fun free => ?_,fun group known _ same => ⟨untitled.unnamed,?_⟩⟩
    · refine absurd (sought.mpr fun group known same => ?_) (by simp [found])
      refine free group known ?_ same
      rintro rfl
      rw [untitled.unnamed] at same
      cases same
    · intro other known' same'
      exact untitled.distinct.different other known' group known (same'.trans same.symm)
  | none =>
    have free := sought.mp found
    have named := nameOf_renameDocument document ⟨defaultName,false⟩
    have ids : (model.renameGroup root ⟨defaultName,false⟩).groupIds = model.groupIds := by
      simp only [groupIds, renameGroup, size_groups_modifyGroup]
    refine ⟨untitled.rename free,fun _ => by rw [named, if_pos rfl],fun group known apart same => ?_⟩
    rw [named, if_neg apart] at same
    rw [ids] at known
    exact absurd same (free group known)

theorem Builder.Reachable.untitled_link {builder : Builder} (reachable : builder.Reachable)
    (limits : Limits) : (builder.model.link limits).model.Untitled :=
  reachable.untitled.of_groups (reachable.enrolled.link_retargeted limits).groups

/-- Groups and their names, in every graph that is built from blocks and in every graph that is loaded.
Names are different and lead to their groups, none is `document`, and only the first group behind the
document can be `all`. The document has no name while it is built; once loaded it has its own, or none
when just one other group has taken it. -/
theorem groups_named :
    (∀ blocks, let model := (Builder.afterBlocks blocks).model
      model.Named ∧ model.nameOf root = []) ∧
    (∀ source file loaded, (load source file).result = .ok loaded →
      loaded.model.Named ∧ loaded.model.DocumentNamed ∧
        loaded.model.findGroup? documentName = some (root,.document)) := by
  refine ⟨fun blocks => ?_,fun source file loaded found => ?_⟩
  · have untitled := (Builder.afterBlocks_reachable blocks).untitled
    exact ⟨untitled.distinct.named,untitled.unnamed⟩
  · obtain ⟨builder,reachable,model,_⟩ := load_reachable found
    obtain ⟨distinct,document⟩ := (reachable.untitled_link builder.limits).nameDocument
    rw [← model] at distinct document
    exact ⟨distinct.named,document,rfl⟩

/-- Sections of groups with the names that mean something. -/
def claimants : List Record :=
  [allName,defaultName,documentName].flatMap fun name => [.sequenceStart ⟨name,false⟩,.sequenceEnd]

/-- There are three groups: the first name is that of the first one behind the document, the second is
taken from the document, and the third one adds no group. -/
theorem claimants_named :
    ∃ bytes loaded, Writer.file {} claimants = .ok bytes ∧
      (load ⟨bytes,[]⟩ "model").result = .ok loaded ∧ loaded.model.groupIds = [⟨0⟩,⟨1⟩,⟨2⟩] ∧
      loaded.model.findGroup? allName = some (⟨1⟩,.all) ∧
      loaded.model.findGroup? defaultName = some (⟨2⟩,.normal) ∧ loaded.model.nameOf root = [] := by
  obtain ⟨bytes,written⟩ : ∃ bytes, Writer.file {} claimants = .ok bytes := ⟨_,rfl⟩
  have checked : (graphOf claimants).any fun model => model.groupIds = [⟨0⟩,⟨1⟩,⟨2⟩] ∧
      model.nameOf ⟨1⟩ = allName ∧ model.nameOf ⟨2⟩ = defaultName := by decide +kernel
  obtain ⟨loaded,found,holds⟩ := load_graphOf written checked "model"
  obtain ⟨ids,all,taken⟩ := of_decide_eq_true holds
  obtain ⟨named,document,_⟩ := groups_named.2 _ _ _ found
  have first : (⟨1⟩ : GroupId) ∈ loaded.model.groupIds := by rw [ids]; decide
  have second : (⟨2⟩ : GroupId) ∈ loaded.model.groupIds := by rw [ids]; decide
  refine ⟨bytes,loaded,written,found,ids,?_,?_,?_⟩
  · rw [← all, named.found _ first, wayTo, if_pos all]
  · rw [← taken, named.found _ second, wayTo, if_neg (by rw [taken]; decide)]
  · exact (document.taken _ second (by decide) taken).1

end DocGraph

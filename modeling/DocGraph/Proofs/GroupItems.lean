import DocGraph.Proofs.GraphChanges
import Mathlib.Data.List.Nodup

/-! An arena and the lists of its items in the groups, for states and timelines alike. -/
namespace DocGraph

theorem StateId.index_injective : Function.Injective StateId.index := by
  rintro ⟨index⟩ ⟨other⟩ same
  exact congrArg StateId.mk same

theorem TimelineId.index_injective : Function.Injective TimelineId.index := by
  rintro ⟨index⟩ ⟨other⟩ same
  exact congrArg TimelineId.mk same

namespace Model

theorem mem_groupIds_iff {model : Model} {group : GroupId} :
    group ∈ model.groupIds ↔ group.index < model.groups.size := by
  unfold groupIds
  cases group
  simp

theorem nodup_groupIds (model : Model) : model.groupIds.Nodup := by
  refine List.Nodup.map ?_ List.nodup_range
  intro index other same
  exact congrArg GroupId.index same

theorem field_modifyGroup (read : Group → β) {change : Group → Group}
    (keeps : ∀ group, read (change group) = read group) (model : Model) (id group : GroupId) :
    read ((model.modifyGroup id change).group group) = read (model.group group) := by
  rw [group_modifyGroup]
  split
  · rw [keeps]
  · rfl

/-- A group that is added has nothing but its name. -/
theorem field_findOrAddGroup (read : Group → β) (blank : ∀ name, read { name } = read default)
    (model : Model) (name : Name) (group : GroupId) :
    read ((model.findOrAddGroup name).1.group group) = read (model.group group) := by
  unfold findOrAddGroup
  split
  · rfl
  · have added : (model.addGroup name).1.group group =
        if group.index = model.groups.size then { name } else model.group group := getD_push ..
    rw [added]
    split
    · rename_i new
      rw [blank, Model.group, new, Array.getElem?_size, Option.getD_none]
    · rfl

/-- The items of an arena, as the groups list them. -/
structure Listed (index : ι → Nat) (size : Nat) (owner : ι → GroupId) (items : GroupId → List ι) :
    Prop where
  known : ∀ group, ∀ item ∈ items group, index item < size
  own : ∀ group, ∀ item ∈ items group, owner item = group
  once : ∀ group, (items group).Nodup
  listed : ∀ item, index item < size → item ∈ items (owner item)

variable {index : ι → Nat} {size : Nat} {owner owner' : ι → GroupId}
  {items items' : GroupId → List ι}

theorem Listed.of_same (listed : Listed index size owner items)
    (same : ∀ item, owner' item = owner item) (lists : ∀ group, items' group = items group) :
    Listed index size owner' items' := by
  obtain rfl : owner' = owner := funext same
  obtain rfl : items' = items := funext lists
  exact listed

theorem Listed.empty (blank : ∀ group, items group = []) : Listed index 0 owner items := by
  refine ⟨?_,?_,?_,fun item inside => absurd inside (Nat.not_lt_zero _)⟩
  · intro group item member
    rw [blank] at member
    cases member
  · intro group item member
    rw [blank] at member
    cases member
  · intro group
    rw [blank]
    exact .nil

/-- An item behind all others is listed by its group, and nothing else changes. -/
theorem Listed.push (listed : Listed index size owner items) (injective : Function.Injective index)
    (added : ι) {group : GroupId} (last : index added = size)
    (owned : ∀ item, owner' item = if index item = size then group else owner item)
    (lists : ∀ other, items' other = if other = group then items group ++ [added] else items other) :
    Listed index (size + 1) owner' items' := by
  have fresh (other : GroupId) : added ∉ items other := by
    intro member
    have known := listed.known other added member
    omega
  have kept {other : GroupId} {item : ι} (member : item ∈ items other) : owner' item = other := by
    rw [owned, if_neg (Nat.ne_of_lt (listed.known other item member))]
    exact listed.own other item member
  refine ⟨?_,?_,?_,?_⟩
  · intro other item member
    rw [lists] at member
    split at member
    · rcases List.mem_append.mp member with old | new
      · exact Nat.lt_succ_of_lt (listed.known group item old)
      · rw [List.mem_singleton.mp new]
        omega
    · exact Nat.lt_succ_of_lt (listed.known other item member)
  · intro other item member
    rw [lists] at member
    split at member
    · rename_i here
      rcases List.mem_append.mp member with old | new
      · rw [kept old, here]
      · rw [List.mem_singleton.mp new, owned, if_pos last, here]
    · exact kept member
  · intro other
    rw [lists]
    split
    · refine List.nodup_append.mpr ⟨listed.once group,List.pairwise_singleton _ _,?_⟩
      rintro item old _ new rfl
      exact fresh group (List.mem_singleton.mp new ▸ old)
    · exact listed.once other
  · intro item inside
    by_cases new : index item = size
    · obtain rfl : item = added := injective (new.trans last.symm)
      rw [owned, if_pos new, lists, if_pos rfl]
      exact List.mem_append_right _ List.mem_cons_self
    · have old := listed.listed item (by omega)
      rw [owned, if_neg new, lists]
      split
      · rename_i here
        rw [here] at old
        exact List.mem_append_left _ old
      · exact old

end Model

end DocGraph

import DocGraph.Proofs.SectionParts
import DocGraph.Proofs.SectionTables
import Mathlib.Data.List.Induction
import Mathlib.Data.List.Nodup

/-! An application as the list of its entries: sections and sub-sections go by name, options by position, and
synopses by positions of options. How entries come from the records of a file is left to
`ApplicationHistory`. -/
namespace DocGraph

theorem named_of_findIdx? {items : Array α} (name : α → Name) {wanted : Name} {index : Nat}
    (found : items.findIdx? (fun item => (name item).sameText wanted) = some index) :
    ∃ item, items[index]? = some item ∧ (name item).bytes = wanted.bytes := by
  obtain ⟨inside,named,_⟩ := Array.findIdx?_eq_some_iff_getElem.mp found
  exact ⟨items[index],Array.getElem?_eq_getElem inside,eq_of_beq named⟩

theorem apart_of_findIdx? {items : Array α} (name : α → Name) {wanted : Name}
    (missing : items.findIdx? (fun item => (name item).sameText wanted) = none) :
    ∀ item ∈ items, (name item).bytes ≠ wanted.bytes := by
  intro item member same
  have different := Array.findIdx?_eq_none_iff.mp missing item member
  exact absurd same (by simpa [Name.sameText] using different)

/-- Where no key comes twice, the items of a key stand at one place. -/
theorem place_unique {items : Array α} (key : α → β) (once : (items.toList.map key).Nodup) {i j : Nat}
    {item other : α} (here : items[i]? = some item) (there : items[j]? = some other)
    (same : key item = key other) : i = j := by
  have inside : i < (items.toList.map key).length := by
    simpa using (Array.getElem?_eq_some_iff.mp here).choose
  refine (List.getElem?_inj inside once).mp ?_
  simp [here,there,same]

theorem eraseDups_concat [BEq α] [LawfulBEq α] (items : List α) (item : α) :
    (items ++ [item]).eraseDups =
      if item ∈ items then items.eraseDups else items.eraseDups ++ [item] := by
  rw [List.eraseDups_append, List.removeAll]
  split
  · rename_i member
    simp [member]
  · rename_i fresh
    simp [fresh,List.eraseDups_cons]

theorem nodup_eraseDups [BEq α] [LawfulBEq α] (items : List α) : items.eraseDups.Nodup := by
  induction items using List.reverseRecOn with
  | nil => exact List.nodup_nil
  | append_singleton items item nodup =>
    rw [eraseDups_concat]
    split
    · exact nodup
    · rename_i fresh
      refine List.nodup_append.mpr ⟨nodup,List.nodup_singleton item,?_⟩
      rintro other old _ new rfl
      rw [List.mem_singleton.mp new, List.mem_eraseDups] at old
      exact fresh old

/-- What has been said under a name. -/
def Titled.under (contents : List Titled) (key : Bytes) : List Titled :=
  contents.filter (·.title.bytes = key)

theorem Titled.under_concat (contents : List Titled) (content : Titled) (key : Bytes) :
    under (contents ++ [content]) key =
      if content.title.bytes = key then under contents key ++ [content] else under contents key := by
  rw [under, List.filter_append, List.filter_singleton]
  split
  · rename_i same
    rw [decide_eq_true same, cond_true, under]
  · rename_i different
    rw [decide_eq_false different, cond_false, List.append_nil, under]

/-- A row has the name as it first came, and what was said last under it. -/
structure Titled.Said (contents : List Titled) (row : Name × Name) : Prop where
  title : (under contents row.1.bytes).head?.map (·.title) = some row.1
  body : (under contents row.1.bytes).getLast?.map (·.body) = some row.2

/-- There is one row for each name, in the order in which they first came. -/
structure Catalogued (contents : List Titled) (rows : List (Name × Name)) : Prop where
  keys : rows.map (·.1.bytes) = (contents.map (·.title.bytes)).eraseDups
  said : ∀ row ∈ rows, Titled.Said contents row

namespace Titled.Said

variable {contents : List Titled} {content : Titled} {row : Name × Name}

theorem other (said : Said contents row) (apart : row.1.bytes ≠ content.title.bytes) :
    Said (contents ++ [content]) row := by
  have same : under (contents ++ [content]) row.1.bytes = under contents row.1.bytes := by
    rw [under_concat, if_neg apart.symm]
  exact ⟨same ▸ said.title,same ▸ said.body⟩

theorem again (said : Said contents row) (same : row.1.bytes = content.title.bytes) :
    Said (contents ++ [content]) (row.1,content.body) := by
  have more : under (contents ++ [content]) row.1.bytes = under contents row.1.bytes ++ [content] := by
    rw [under_concat, if_pos same.symm]
  obtain ⟨first,there,named⟩ := Option.map_eq_some_iff.mp said.title
  refine ⟨?_,?_⟩
  · rw [more, List.head?_append, there]
    exact congrArg some named
  · rw [more, List.getLast?_concat]
    rfl

theorem first (unsaid : under contents content.title.bytes = []) :
    Said (contents ++ [content]) (content.title,content.body) := by
  have alone : under (contents ++ [content]) content.title.bytes = [content] := by
    rw [under_concat, if_pos rfl, unsaid, List.nil_append]
  refine ⟨?_,?_⟩
  · rw [alone]
    rfl
  · rw [alone]
    rfl

end Titled.Said

namespace Catalogued

variable {contents : List Titled} {content : Titled} {items : Array α} {view : α → Name × Name}

theorem empty : Catalogued [] [] := ⟨rfl,nofun⟩

theorem nodup {rows : List (Name × Name)} (catalogued : Catalogued contents rows) :
    (rows.map (·.1.bytes)).Nodup := by
  rw [catalogued.keys]
  exact nodup_eraseDups _

theorem mem_keys_iff {rows : List (Name × Name)} (catalogued : Catalogued contents rows) {key : Bytes} :
    key ∈ rows.map (·.1.bytes) ↔ key ∈ contents.map (·.title.bytes) := by
  rw [catalogued.keys, List.mem_eraseDups]

theorem unique (catalogued : Catalogued contents (items.toList.map view)) {i j : Nat} {item other : α}
    (here : items[i]? = some item) (there : items[j]? = some other)
    (same : (view item).1.bytes = (view other).1.bytes) : i = j := by
  have once := catalogued.nodup
  rw [List.map_map] at once
  exact place_unique _ once here there same

theorem replace (catalogued : Catalogued contents (items.toList.map view)) {change : α → α}
    (changed : ∀ item, view (change item) = ((view item).1,content.body)) {index : Nat}
    (found : items.findIdx? (fun item => (view item).1.sameText content.title) = some index) :
    Catalogued (contents ++ [content]) ((items.modify index change).toList.map view) := by
  obtain ⟨old,here,key⟩ := named_of_findIdx? (fun item => (view item).1) found
  have said (item : α) (member : item ∈ items) : Titled.Said contents (view item) :=
    catalogued.said _ (List.mem_map_of_mem (Array.mem_toList_iff.mpr member))
  have listed := Array.mem_of_getElem? here
  have keys : ((items.modify index change).toList.map view).map (·.1.bytes) =
      (items.toList.map view).map (·.1.bytes) := by
    rw [List.map_map, List.map_map]
    exact toList_map_modify (fun item => by rw [Function.comp_apply, changed]; rfl) items index
  refine ⟨?_,fun row member => ?_⟩
  · have known : content.title.bytes ∈ contents.map (·.title.bytes) := by
      rw [← key, ← catalogued.mem_keys_iff]
      exact List.mem_map_of_mem (List.mem_map_of_mem (Array.mem_toList_iff.mpr listed))
    rw [keys, catalogued.keys, List.map_append, List.map_singleton, eraseDups_concat, if_pos known]
  · obtain ⟨item,there,rfl⟩ := List.mem_map.mp member
    obtain ⟨place,at_⟩ := Array.mem_iff_getElem?.mp (Array.mem_toList_iff.mp there)
    rw [Array.getElem?_modify] at at_
    by_cases same : index = place
    · subst same
      rw [if_pos rfl, here] at at_
      cases at_
      rw [changed]
      exact (said old listed).again key
    · rw [if_neg same] at at_
      refine (said item (Array.mem_of_getElem? at_)).other fun alike => same ?_
      exact catalogued.unique here at_ (key.trans alike.symm)

theorem add (catalogued : Catalogued contents (items.toList.map view)) {added : α}
    (fresh : view added = (content.title,content.body))
    (missing : items.findIdx? (fun item => (view item).1.sameText content.title) = none) :
    Catalogued (contents ++ [content]) ((items.push added).toList.map view) := by
  have apart := apart_of_findIdx? (fun item => (view item).1) missing
  have unknown : content.title.bytes ∉ contents.map (·.title.bytes) := by
    rw [← catalogued.mem_keys_iff, List.map_map]
    intro member
    obtain ⟨item,there,same⟩ := List.mem_map.mp member
    exact apart item (Array.mem_toList_iff.mp there) same
  refine ⟨?_,fun row member => ?_⟩
  · rw [Array.toList_push, List.map_append, List.map_append, catalogued.keys, List.map_append,
      List.map_singleton, List.map_singleton, List.map_singleton, eraseDups_concat, if_neg unknown, fresh]
  · obtain ⟨item,there,rfl⟩ := List.mem_map.mp member
    rcases Array.mem_push.mp (Array.mem_toList_iff.mp there) with old | rfl
    · have said := catalogued.said _ (List.mem_map_of_mem (Array.mem_toList_iff.mpr old))
      exact said.other (apart item old)
    · rw [fresh]
      refine .first (List.filter_eq_nil_iff.mpr fun other said same => unknown ?_)
      exact List.mem_map.mpr ⟨other,said,of_decide_eq_true same⟩

end Catalogued

namespace Record

def section? : Record → Option Titled
  | applicationSection content => some content
  | _ => none

def subSection? : Record → Option Titled
  | applicationSubSection content => some content
  | _ => none

def option? : Record → Option OptionDeclaration
  | applicationOption option => some option
  | _ => none

def synopsis? : Record → Option SynopsisDeclaration
  | applicationSynopsis synopsis => some synopsis
  | _ => none

end Record

/-- A record of an application, with the name of the section that is open when it comes. -/
abbrev Entry := Option Bytes × Record

namespace Entry

def sections (entries : List Entry) : List Titled := entries.filterMap (·.2.section?)

/-- The sub-sections of the section of a name. -/
def subSections (entries : List Entry) (key : Bytes) : List Titled :=
  (entries.filter (·.1 = some key)).filterMap (·.2.subSection?)

def options (entries : List Entry) : List OptionDeclaration := entries.filterMap (·.2.option?)

def synopses (entries : List Entry) : List SynopsisDeclaration := entries.filterMap (·.2.synopsis?)

variable (entries : List Entry) (key : Option Bytes) {record : Record}

theorem sections_concat (record : Record) :
    sections (entries ++ [(key,record)]) = sections entries ++ record.section?.toList := by
  rw [sections, List.filterMap_append]
  cases found : record.section? <;> simp [found,sections]

theorem subSections_concat (record : Record) (name : Bytes) :
    subSections (entries ++ [(key,record)]) name =
      subSections entries name ++ if key = some name then record.subSection?.toList else [] := by
  rw [subSections, List.filter_append, List.filterMap_append]
  refine congrArg _ ?_
  split
  · rename_i here
    cases found : record.subSection? <;> simp [here,found]
  · rename_i elsewhere
    simp [elsewhere]

theorem options_concat (record : Record) :
    options (entries ++ [(key,record)]) = options entries ++ record.option?.toList := by
  rw [options, List.filterMap_append]
  cases found : record.option? <;> simp [found,options]

theorem synopses_concat (record : Record) :
    synopses (entries ++ [(key,record)]) = synopses entries ++ record.synopsis?.toList := by
  rw [synopses, List.filterMap_append]
  cases found : record.synopsis? <;> simp [found,synopses]

theorem sections_skip (quiet : record.section? = none) :
    sections (entries ++ [(key,record)]) = sections entries := by
  rw [sections_concat, quiet, Option.toList_none, List.append_nil]

theorem subSections_skip (quiet : record.subSection? = none) (name : Bytes) :
    subSections (entries ++ [(key,record)]) name = subSections entries name := by
  rw [subSections_concat, quiet, Option.toList_none, ite_self, List.append_nil]

theorem options_skip (quiet : record.option? = none) :
    options (entries ++ [(key,record)]) = options entries := by
  rw [options_concat, quiet, Option.toList_none, List.append_nil]

theorem synopses_skip (quiet : record.synopsis? = none) :
    synopses (entries ++ [(key,record)]) = synopses entries := by
  rw [synopses_concat, quiet, Option.toList_none, List.append_nil]

end Entry

namespace Application

def Section.row (content : Section) : Name × Name := (content.name,content.data)

def SubSection.row (content : SubSection) : Name × Name := (content.name,content.data)

/-- The sections are those of the entries, and each has the sub-sections that were given in it. -/
structure Sectioned (application : Application) (entries : List Entry) : Prop where
  sections : Catalogued (Entry.sections entries) (application.sections.toList.map Section.row)
  subSections : ∀ content ∈ application.sections,
    Catalogued (Entry.subSections entries content.name.bytes)
      (content.subSections.toList.map SubSection.row)
  /-- A section that was open had come. -/
  opened : ∀ entry ∈ entries, ∀ key ∈ entry.1, key ∈ (Entry.sections entries).map (·.title.bytes)

/-- The options are those of the entries, in order, and each synopsis names those that were there when it
came. -/
structure Numbered (application : Application) (entries : List Entry) : Prop where
  options : application.options.toList = (Entry.options entries).mapIdx fun id option =>
    ⟨id,option.flags,option.name,option.value,option.description⟩
  count : application.synopses.size = (Entry.synopses entries).length
  synopses : ∀ before opened synopsis later,
    entries = before ++ (opened,.applicationSynopsis synopsis) :: later →
    application.synopses[(Entry.synopses before).length]? = some ⟨synopsis.name,
      ((synopsis.indexes.map UInt8.toNat).filter (· < (Entry.options before).length)).toArray⟩
  valid : ∀ synopsis ∈ application.synopses, ∀ index ∈ synopsis.options,
    index < application.options.size

/-- The application holds what its entries say. -/
structure Filed (application : Application) (entries : List Entry) : Prop extends
    Sectioned application entries, Numbered application entries

variable {application application' : Application} {entries : List Entry} {key : Option Bytes}
  {record : Record}

theorem filed_new (name : Name) : ({ name } : Application).Filed [] where
  sections := .empty
  subSections := nofun
  opened := nofun
  options := rfl
  count := rfl
  synopses before opened synopsis later split := by simp at split
  valid := nofun

/-- The open section is one that has come. -/
def Came (entries : List Entry) (key : Option Bytes) : Prop :=
  ∀ name ∈ key, name ∈ (Entry.sections entries).map (·.title.bytes)

theorem Sectioned.opened_concat (sectioned : application.Sectioned entries) (came : Came entries key)
    (record : Record) : ∀ entry ∈ entries ++ [(key,record)], Came (entries ++ [(key,record)]) entry.1 := by
  intro entry member name open_
  rw [Entry.sections_concat, List.map_append]
  refine List.mem_append_left _ ?_
  rcases List.mem_append.mp member with old | new
  · exact sectioned.opened entry old name open_
  · rw [List.mem_singleton.mp new] at open_
    exact came name open_

theorem Sectioned.skip (sectioned : application.Sectioned entries) (came : Came entries key)
    (same : application'.sections = application.sections) (content : record.section? = none)
    (subSection : record.subSection? = none) :
    application'.Sectioned (entries ++ [(key,record)]) where
  sections := by
    rw [Entry.sections_skip entries key content, same]
    exact sectioned.sections
  subSections other member := by
    rw [Entry.subSections_skip entries key subSection]
    exact sectioned.subSections other (same ▸ member)
  opened := sectioned.opened_concat came record

theorem Sectioned.setSection (sectioned : application.Sectioned entries) (came : Came entries key)
    (content : Titled) : (application.setSection content.title content.body).1.Sectioned
      (entries ++ [(key,.applicationSection content)]) := by
  have subSections (name : Bytes) :
      Entry.subSections (entries ++ [(key,.applicationSection content)]) name =
        Entry.subSections entries name := Entry.subSections_skip entries key rfl name
  have contents : Entry.sections (entries ++ [(key,.applicationSection content)]) =
      Entry.sections entries ++ [content] := Entry.sections_concat ..
  unfold Application.setSection
  split
  · rename_i index found
    refine ⟨?_,?_,sectioned.opened_concat came _⟩
    · rw [contents]
      exact sectioned.sections.replace (fun _ => rfl) found
    · simp only [subSections]
      exact all_modify sectioned.subSections index fun _ kept => kept
  · rename_i missing
    refine ⟨?_,?_,sectioned.opened_concat came _⟩
    · rw [contents]
      exact sectioned.sections.add rfl missing
    · simp only [subSections]
      refine all_push sectioned.subSections ?_
      have unknown : content.title.bytes ∉ (Entry.sections entries).map (·.title.bytes) := by
        rw [← sectioned.sections.mem_keys_iff, List.map_map]
        intro member
        obtain ⟨other,there,same⟩ := List.mem_map.mp member
        exact apart_of_findIdx? Section.name missing other (Array.mem_toList_iff.mp there) same
      have none_ : Entry.subSections entries content.title.bytes = [] := by
        have apart : entries.filter (·.1 = some content.title.bytes) = [] := by
          refine List.filter_eq_nil_iff.mpr fun entry member same => unknown ?_
          exact sectioned.opened entry member _ (of_decide_eq_true same)
        rw [Entry.subSections, apart, List.filterMap_nil]
      rw [none_]
      exact .empty

theorem Section.row_setSubSection (content : Section) (name data : Name) :
    (content.setSubSection name data).row = content.row := by
  unfold setSubSection
  split
  · rfl
  · rfl

theorem Section.catalogued_setSubSection {contents : List Titled} {content : Section}
    (catalogued : Catalogued contents (content.subSections.toList.map SubSection.row))
    (given : Titled) : Catalogued (contents ++ [given])
      ((content.setSubSection given.title given.body).subSections.toList.map SubSection.row) := by
  unfold setSubSection
  split
  · rename_i index found
    exact catalogued.replace (fun _ => rfl) found
  · rename_i missing
    exact catalogued.add rfl missing

theorem Sectioned.setSubSection (sectioned : application.Sectioned entries) {parent : Nat}
    {content : Section} (there : application.sections[parent]? = some content) (given : Titled)
    (came : Came entries (some content.name.bytes)) :
    (application.changeSection parent (·.setSubSection given.title given.body)).Sectioned
      (entries ++ [(some content.name.bytes,.applicationSubSection given)]) := by
  have same (other : Section) : (other.setSubSection given.title given.body).name = other.name :=
    congrArg Prod.fst (other.row_setSubSection given.title given.body)
  refine ⟨?_,?_,sectioned.opened_concat came _⟩
  · have rows : (application.sections.modify parent
        (·.setSubSection given.title given.body)).toList.map Section.row =
          application.sections.toList.map Section.row :=
      toList_map_modify (fun other => other.row_setSubSection given.title given.body) _ parent
    rw [Entry.sections_skip entries _ rfl, changeSection, rows]
    exact sectioned.sections
  · intro other member
    obtain ⟨place,at_⟩ := Array.mem_iff_getElem?.mp member
    rw [changeSection, Array.getElem?_modify] at at_
    rw [Entry.subSections_concat]
    by_cases here : parent = place
    · subst here
      rw [if_pos rfl, there] at at_
      cases at_
      rw [same, if_pos rfl]
      exact Section.catalogued_setSubSection
        (sectioned.subSections content (Array.mem_of_getElem? there)) given
    · rw [if_neg here] at at_
      have apart : ¬ some content.name.bytes = some other.name.bytes := fun alike =>
        here (sectioned.sections.unique there at_ (Option.some.inj alike))
      rw [if_neg apart, List.append_nil]
      exact sectioned.subSections other (Array.mem_of_getElem? at_)

theorem split_concat {items before later : List α} {item last : α}
    (split : items ++ [last] = before ++ item :: later) :
    (before = items ∧ item = last) ∨ ∃ rest, items = before ++ item :: rest := by
  rcases List.eq_nil_or_concat later with rfl | ⟨rest,end_,rfl⟩
  · obtain ⟨front,back⟩ := List.append_inj' split rfl
    cases back
    exact .inl ⟨front.symm,rfl⟩
  · rw [List.concat_eq_append, ← List.cons_append, ← List.append_assoc] at split
    exact .inr ⟨rest,(List.append_inj' split rfl).1⟩

theorem Numbered.size (numbered : application.Numbered entries) :
    application.options.size = (Entry.options entries).length := by
  rw [← Array.length_toList, numbered.options, List.length_mapIdx]

theorem Numbered.earlier (numbered : application.Numbered entries) (quiet : record.synopsis? = none) :
    ∀ before opened synopsis later,
      entries ++ [(key,record)] = before ++ (opened,.applicationSynopsis synopsis) :: later →
      application.synopses[(Entry.synopses before).length]? = some ⟨synopsis.name,
        ((synopsis.indexes.map UInt8.toNat).filter (· < (Entry.options before).length)).toArray⟩ := by
  intro before opened synopsis later split
  rcases split_concat split with ⟨_,last⟩ | ⟨rest,front⟩
  · cases last
    cases quiet
  · exact numbered.synopses before opened synopsis rest front

theorem Numbered.skip (numbered : application.Numbered entries)
    (options : application'.options = application.options)
    (synopses : application'.synopses = application.synopses)
    (option : record.option? = none) (synopsis : record.synopsis? = none) :
    application'.Numbered (entries ++ [(key,record)]) where
  options := by
    rw [Entry.options_skip entries key option, options]
    exact numbered.options
  count := by
    rw [Entry.synopses_skip entries key synopsis, synopses]
    exact numbered.count
  synopses := by
    rw [synopses]
    exact numbered.earlier synopsis
  valid := by
    rw [options, synopses]
    exact numbered.valid

theorem Numbered.addOption (numbered : application.Numbered entries) (option : OptionDeclaration) :
    (application.addOption option.flags option.name option.value option.description).Numbered
      (entries ++ [(key,.applicationOption option)]) where
  options := by
    have more : Entry.options (entries ++ [(key,.applicationOption option)]) =
        Entry.options entries ++ [option] := Entry.options_concat ..
    rw [more, List.mapIdx_concat, ← numbered.options, ← numbered.size]
    exact Array.toList_push ..
  count := by
    rw [Entry.synopses_skip entries key rfl]
    exact numbered.count
  synopses := numbered.earlier rfl
  valid synopsis member index named := by
    have inside := numbered.valid synopsis member index named
    have grown : (application.addOption option.flags option.name option.value
        option.description).options.size = application.options.size + 1 := Array.size_push ..
    omega

theorem Numbered.addSynopsis (numbered : application.Numbered entries)
    (synopsis : SynopsisDeclaration) :
    (application.addSynopsis synopsis.name synopsis.indexes).Numbered
      (entries ++ [(key,.applicationSynopsis synopsis)]) where
  options := by
    rw [Entry.options_skip entries key rfl]
    exact numbered.options
  count := by
    have more : Entry.synopses (entries ++ [(key,.applicationSynopsis synopsis)]) =
        Entry.synopses entries ++ [synopsis] := Entry.synopses_concat ..
    rw [more, List.length_append, ← numbered.count]
    exact Array.size_push ..
  synopses before opened other later split := by
    rcases split_concat split with ⟨rfl,last⟩ | ⟨rest,front⟩
    · cases last
      rw [← numbered.count, ← numbered.size]
      refine Array.getElem?_push_size.trans ?_
      rw [partitionIndexes, List.partition_eq_filter_filter]
    · have old := numbered.synopses before opened other rest front
      have inside := (Array.getElem?_eq_some_iff.mp old).choose
      exact (Array.getElem?_push_lt inside).trans (Array.getElem?_eq_getElem inside ▸ old)
  valid := by
    refine all_push numbered.valid fun index named => ?_
    rw [partitionIndexes, List.partition_eq_filter_filter] at named
    simpa using (List.mem_filter.mp (List.mem_toArray.mp named)).2

def opens (application : Application) (opened : Option Nat) : Option (Option Bytes) :=
  opened.map fun parent => application.sections[parent]?.map (·.name.bytes)

theorem Sectioned.came (sectioned : application.Sectioned entries) {opened : Option Nat}
    (there : application.opens opened = key.map some) : Came entries key := by
  rintro name rfl
  obtain ⟨parent,rfl,found⟩ := Option.map_eq_some_iff.mp there
  obtain ⟨content,at_,rfl⟩ := Option.map_eq_some_iff.mp found
  rw [← sectioned.sections.mem_keys_iff, List.map_map]
  exact List.mem_map_of_mem (Array.mem_toList_iff.mpr (Array.mem_of_getElem? at_))

theorem Sectioned.after (sectioned : application.Sectioned entries) {opened : Option Nat}
    (there : application.opens opened = key.map some) (record : Record) :
    (application.after opened record).Sectioned (entries ++ [(key,record)]) := by
  have came := sectioned.came there
  cases record with
  | applicationSection content => exact sectioned.setSection came content
  | applicationSubSection given =>
    cases opened with
    | none =>
      obtain rfl : key = none := Option.map_eq_none_iff.mp there.symm
      refine ⟨?_,fun content member => ?_,sectioned.opened_concat came _⟩
      · rw [Entry.sections_skip entries none rfl]
        exact sectioned.sections
      · rw [Entry.subSections_concat, if_neg nofun, List.append_nil]
        exact sectioned.subSections content member
    | some parent =>
      cases key with
      | none => cases there
      | some name =>
        obtain ⟨content,at_,rfl⟩ := Option.map_eq_some_iff.mp (Option.some.inj there)
        exact sectioned.setSubSection at_ given came
  | _ => exact sectioned.skip came rfl rfl rfl

theorem Numbered.after (numbered : application.Numbered entries) (opened : Option Nat)
    (record : Record) : (application.after opened record).Numbered (entries ++ [(key,record)]) := by
  cases record with
  | applicationSection content =>
    have kept : (application.setSection content.title content.body).1.options = application.options ∧
        (application.setSection content.title content.body).1.synopses = application.synopses := by
      unfold Application.setSection
      split
      · exact ⟨rfl,rfl⟩
      · exact ⟨rfl,rfl⟩
    exact numbered.skip kept.1 kept.2 rfl rfl
  | applicationSubSection given => cases opened <;> exact numbered.skip rfl rfl rfl rfl
  | applicationOption option => exact numbered.addOption option
  | applicationSynopsis synopsis => exact numbered.addSynopsis synopsis
  | _ => exact numbered.skip rfl rfl rfl rfl

/-- An application to which a record is applied holds what the record says, too. -/
theorem Filed.after (filed : application.Filed entries) {opened : Option Nat}
    (there : application.opens opened = key.map some) (record : Record) :
    (application.after opened record).Filed (entries ++ [(key,record)]) :=
  ⟨filed.toSectioned.after there record,filed.toNumbered.after opened record⟩

end Application

end DocGraph

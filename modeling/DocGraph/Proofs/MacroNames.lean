import DocGraph.Config
import DocGraph.Proofs.FlatTables

/-! The text that a macro name stands for. A table knows names by the hash of their bytes only, so the first
definition with a hash speaks for every name that has it. -/
namespace DocGraph

open Lookup (Operation)

namespace Macros

/-- What a table knows a name by. -/
def key (name : String) : UInt32 := Hash.ofBytes (Bytes.ofText name)

/-- The first definition with the key of a name. -/
def firstLike? (definitions : List (String × String)) (name : String) : Option (String × String) :=
  definitions.find? (key ·.1 == key name)

/-- For each key the items of a table begin with the definition that comes first. -/
def Recalls (macros : Macros) (definitions : List (String × String)) : Prop :=
  ∃ items, macros.table.Holds items ∧ ∀ hash : UInt32,
    (items.find? (·.hash == hash)).map Lookup.Item.payload =
      (definitions.find? (key ·.1 == hash)).map (some ·.2)

variable {macros : Macros} {definitions : List (String × String)}

theorem empty_recalls : Recalls {} [] := ⟨[],Lookup.Table.empty_holds,fun _ => rfl⟩

theorem Recalls.define (recalls : macros.Recalls definitions) (name value : String) :
    (macros.define name value).1.Recalls (definitions ++ [(name,value)]) := by
  obtain ⟨items,holds,same⟩ := recalls
  obtain ⟨next,_⟩ := holds.perform (.add (Bytes.ofText name) value 0)
  refine ⟨_,next,fun hash => ?_⟩
  rw [List.find?_append, Option.map_or, ← same]
  have first : items.find? (·.hash == key name) =
      (Lookup.firstIndex? items (Bytes.ofText name)).bind (items[·]?) :=
    List.find?_eq_bind_findIdx?_getElem?
  simp only [Operation.onItems]
  cases found : Lookup.firstIndex? items (Bytes.ofText name) with
  | none =>
    rw [Operation.appendTo, List.find?_append, Option.map_or]
    congr 1
    simp [Lookup.Item.ofName,key]
  | some index =>
    obtain ⟨inside,_⟩ := List.findIdx?_eq_some_iff_getElem.mp found
    rw [found, Option.bind_some, List.getElem?_eq_getElem inside] at first
    rw [Operation.appendTo]
    by_cases own : key name = hash
    · rw [← own, first, Option.map_some, Option.some_or]
    · rw [List.find?_singleton, if_neg (by simpa using own), Option.map_none, Option.or_none]

theorem ofList_recalls (definitions : List (String × String)) :
    (ofList definitions).Recalls definitions := by
  induction definitions using List.reverseRecOn with
  | nil => exact empty_recalls
  | append_singleton definitions definition ih =>
    rw [ofList, List.foldl_append]
    exact ih.define definition.1 definition.2

theorem Recalls.value?_eq (recalls : macros.Recalls definitions) (name : String) :
    macros.value? name = (firstLike? definitions name).map Prod.snd := by
  obtain ⟨items,holds,same⟩ := recalls
  have first : macros.table.find? (Bytes.ofText name) = items.find? (·.hash == key name) :=
    (holds.lists.find _).trans List.find?_eq_bind_findIdx?_getElem?.symm
  have here := same (key name)
  rw [value?, first, firstLike?]
  cases found : items.find? (·.hash == key name) <;>
    cases found' : definitions.find? (key ·.1 == key name) <;> simp_all

/-- Whether a text that goes on from inside a reference, or from outside, ends inside one. A dollar sign
begins a reference and a separator ends it. -/
def insideAfter (inside : Bool) (text : List Char) : Bool :=
  text.foldl (fun inside c => !isSeparator c && (inside || c == '$')) inside

theorem insideAfter_true (text : List Char) :
    insideAfter true text =
      ((text.dropWhile (!isSeparator ·)).isEmpty ||
        insideAfter false (text.dropWhile (!isSeparator ·))) := by
  induction text with
  | nil => rfl
  | cons c text ih =>
    cases separates : isSeparator c
    · simpa [insideAfter,separates] using ih
    · simp [insideAfter,separates]

theorem takeWhile_append_stopped {p : α → Bool} {front : List α} (stopped : front.dropWhile p ≠ [])
    (rest : List α) : (front ++ rest).takeWhile p = front.takeWhile p ∧
      (front ++ rest).dropWhile p = front.dropWhile p ++ rest := by
  induction front with
  | nil => exact absurd rfl stopped
  | cons a front ih =>
    cases passes : p a
    · simp [passes]
    · simp only [List.dropWhile_cons, passes, if_true] at stopped
      simpa [passes] using ih stopped

/-- What a reference is replaced by, and the name if it is not known. -/
def refer (macros : Macros) (name : String) : List Char × List String :=
  match macros.value? name with
  | some value => (value.toList,[])
  | none => ([],[name])

theorem expandChars_plain (macros : Macros) {c : Char} (plain : c ≠ '$') (rest : List Char) :
    macros.expandChars (c :: rest) =
      (c :: (macros.expandChars rest).1,(macros.expandChars rest).2) := by
  rw [expandChars, if_neg plain]

theorem expandChars_dollar (macros : Macros) (rest : List Char) :
    let reference := macros.refer (String.ofList (rest.takeWhile (!isSeparator ·)))
    let later := macros.expandChars (rest.dropWhile (!isSeparator ·))
    macros.expandChars ('$' :: rest) = (reference.1 ++ later.1,reference.2 ++ later.2) := by
  rw [expandChars, if_pos rfl]
  simp only [refer]
  cases macros.value? (String.ofList (rest.takeWhile (!isSeparator ·))) <;> rfl

theorem expandChars_append (macros : Macros) (before : List Char)
    (outside : insideAfter false before = false) (rest : List Char) :
    macros.expandChars (before ++ rest) =
      ((macros.expandChars before).1 ++ (macros.expandChars rest).1,
        (macros.expandChars before).2 ++ (macros.expandChars rest).2) := by
  match before with
  | [] => rw [expandChars]; rfl
  | c :: before =>
    rw [List.cons_append]
    by_cases dollar : c = '$'
    · subst dollar
      have ended : insideAfter true before = false := outside
      rw [insideAfter_true, Bool.or_eq_false_iff, List.isEmpty_eq_false_iff] at ended
      obtain ⟨name,later⟩ := takeWhile_append_stopped ended.1 rest
      have := (List.dropWhile_suffix (!isSeparator ·) : _ <:+ before).length_le
      have ih := expandChars_append macros (before.dropWhile (!isSeparator ·)) ended.2 rest
      rw [expandChars_dollar, expandChars_dollar, name, later, ih]
      simp only [List.append_assoc]
    · have outside' : insideAfter false before = false := by
        have other : (c == '$') = false := by simpa using dollar
        simpa [insideAfter,other] using outside
      rw [expandChars_plain macros dollar, expandChars_plain macros dollar,
        expandChars_append macros before outside' rest, List.cons_append]
termination_by before.length

theorem expandChars_reference (macros : Macros) {name after : List Char}
    (whole : ∀ c ∈ name, isSeparator c = false) (ended : ∀ c ∈ after.head?, isSeparator c = true) :
    let reference := macros.refer (String.ofList name)
    macros.expandChars ('$' :: (name ++ after)) =
      (reference.1 ++ (macros.expandChars after).1,reference.2 ++ (macros.expandChars after).2) := by
  have all : ∀ c ∈ name, (!isSeparator c) = true := by simpa using whole
  have stops : after.takeWhile (!isSeparator ·) = [] ∧ after.dropWhile (!isSeparator ·) = after := by
    cases after with
    | nil => exact ⟨rfl,rfl⟩
    | cons c after =>
      have separates : isSeparator c = true := ended c rfl
      simp [separates]
  rw [expandChars_dollar, List.takeWhile_append_of_pos all, List.dropWhile_append_of_pos all, stops.1,
    stops.2, List.append_nil]

end Macros

instance : Append Expansion where
  append first second := ⟨first.text ++ second.text,first.unknown ++ second.unknown⟩

@[simp] theorem Expansion.mk_append (text text' : String) (unknown unknown' : List String) :
    (⟨text,unknown⟩ : Expansion) ++ (⟨text',unknown'⟩ : Expansion) = ⟨text ++ text',unknown ++ unknown'⟩ :=
  rfl

/-- What a reference expands to, with the first definition that has its key. -/
def Expansion.ofReference (definitions : List (String × String)) (name : String) : Expansion :=
  match Macros.firstLike? definitions name with
  | some definition => ⟨definition.2,[]⟩
  | none => ⟨"",[name]⟩

/-- Names are told apart by their keys. A name has the text of the first definition with its key, which
is the first definition of that name if no other name is defined that has the same key; and with the macros of
a configuration a reference anywhere in a text expands to the text of its name, or is unknown when nothing
has its key. -/
theorem macros_told_apart (definitions : List (String × String)) (name : String) :
    let macros := Macros.ofList definitions
    macros.value? name = (Macros.firstLike? definitions name).map Prod.snd ∧
    ((∀ definition ∈ definitions, Macros.key definition.1 = Macros.key name → definition.1 = name) →
      macros.value? name = (definitions.find? (·.1 == name)).map Prod.snd) ∧
    ∀ (config : Config) (before after : String),
      Macros.insideAfter false before.toList = false →
      (∀ c ∈ name.toList, Macros.isSeparator c = false) →
      (∀ c ∈ after.toList.head?, Macros.isSeparator c = true) →
      let expand := config.macroTable.expand
      expand (before ++ ("$" ++ (name ++ after))) =
        expand before ++ .ofReference config.macros name ++ expand after := by
  have found (definitions : List (String × String)) :
      (Macros.ofList definitions).value? name = (Macros.firstLike? definitions name).map Prod.snd :=
    (Macros.ofList_recalls definitions).value?_eq name
  refine ⟨found definitions,fun apart => ?_,fun config before after outside whole ended => ?_⟩
  · have same : definitions.filter (Macros.key ·.1 == Macros.key name) =
        definitions.filter (·.1 == name) := by
      refine List.filter_congr fun definition member => ?_
      by_cases own : definition.1 = name
      · simp [own]
      · simp [own,mt (apart definition member) own]
    rw [found, Macros.firstLike?, ← List.head?_filter, ← List.head?_filter, same]
  · intro expand
    have chars : (before ++ ("$" ++ (name ++ after))).toList =
        before.toList ++ '$' :: (name.toList ++ after.toList) := by
      simp only [String.toList_append]
      rfl
    have value : config.macroTable.value? name = _ := found config.macros
    simp only [expand, Macros.expand, chars, Macros.expandChars_append _ _ outside,
      Macros.expandChars_reference _ whole ended, String.ofList_toList, Macros.refer, value,
      Expansion.ofReference]
    cases Macros.firstLike? config.macros name with
    | none => simp
    | some definition => simp [String.append_assoc]

theorem greeting_expanded :
    let config : Config := { macros := [("version","3"),("who","world")] }
    let expand := config.macroTable.expand
    (∀ definition ∈ config.macros, Macros.key definition.1 = Macros.key "who" → definition.1 = "who") ∧
      Macros.insideAfter false "hello $version ".toList = false ∧
      config.macroTable.value? "who" = some "world" ∧
      expand ("hello $version " ++ ("$" ++ ("who" ++ "\t!"))) = ⟨"hello 3 world\t!",[]⟩ := by
  intro config expand
  have apart : ∀ definition ∈ config.macros,
      Macros.key definition.1 = Macros.key "who" → definition.1 = "who" := by decide +kernel
  have outside : Macros.insideAfter false "hello $version ".toList = false := by decide +kernel
  have whole : "who".toList.all (!Macros.isSeparator ·) := by decide +kernel
  have ended : "\t!".toList.head? = some '\t' := by decide +kernel
  obtain ⟨_,own,inText⟩ := macros_told_apart config.macros "who"
  refine ⟨apart,outside,own apart,?_⟩
  refine (inText config _ "\t!" outside (fun c member => ?_) (fun c member => ?_)).trans ?_
  · simpa using List.all_eq_true.mp whole c member
  · rw [ended] at member
    cases member
    rfl
  · decide +kernel

/-- Two names with one key: the one that is defined second, or not at all, has the text of the first,
also in a reference. -/
theorem quists_taken :
    let config : Config := { macros := [("creamwove","paper"),("quists","gamblers")] }
    config.macroTable.value? "quists" = some "paper" ∧
      (config.macros.find? (·.1 == "quists")).map Prod.snd = some "gamblers" ∧
      config.macroTable.expand "$quists" = ⟨"paper",[]⟩ ∧
      (Macros.ofList [("creamwove","paper")]).value? "quists" = some "paper" := by
  decide +kernel

end DocGraph

import DocGraph.Proofs.MacroNames

/-! Texts as words between separators, of which a reference takes the rest of its own word. -/
namespace DocGraph

namespace Macros

/-- Words with a separator between each two of them. -/
def weave : List (List Char) → List Char → List Char
  | word :: words, separator :: separators => word ++ separator :: weave words separators
  | words, _ => words.flatten

theorem words_cases (text : List Char) : (∀ c ∈ text, isSeparator c = false) ∨
    ∃ word separator rest, text = word ++ separator :: rest ∧
      (∀ c ∈ word, isSeparator c = false) ∧ isSeparator separator = true := by
  induction text with
  | nil => exact .inl (List.forall_mem_nil _)
  | cons c text ih =>
    cases separates : isSeparator c with
    | true => exact .inr ⟨[],c,text,rfl,List.forall_mem_nil _,separates⟩
    | false =>
      rcases ih with whole | ⟨word,separator,rest,rfl,whole,ends⟩
      · exact .inl (List.forall_mem_cons.mpr ⟨separates,whole⟩)
      · exact .inr ⟨c :: word,separator,rest,rfl,List.forall_mem_cons.mpr ⟨separates,whole⟩,ends⟩

/-- Texts word by word, up to the last one. -/
theorem words_induction {motive : List Char → Prop}
    (last : ∀ word, (∀ c ∈ word, isSeparator c = false) → motive word)
    (next : ∀ word separator rest, (∀ c ∈ word, isSeparator c = false) →
      isSeparator separator = true → motive rest → motive (word ++ separator :: rest))
    (text : List Char) : motive text := by
  rcases words_cases text with whole | ⟨word,separator,rest,rfl,whole,separates⟩
  · exact last text whole
  · exact next word separator rest whole separates (words_induction last next rest)
termination_by text.length

theorem splitOnP_next {word : List Char} (whole : ∀ c ∈ word, isSeparator c = false)
    {separator : Char} (separates : isSeparator separator = true) (rest : List Char) :
    (word ++ separator :: rest).splitOnP isSeparator = word :: rest.splitOnP isSeparator := by
  rw [List.splitOnP_append_cons _ _ separates, List.splitOnP_eq_singleton whole]
  rfl

theorem filter_whole {word : List Char} (whole : ∀ c ∈ word, isSeparator c = false) :
    word.filter isSeparator = [] :=
  List.filter_eq_nil_iff.mpr fun c member => by simp [whole c member]

theorem filter_next {word : List Char} (whole : ∀ c ∈ word, isSeparator c = false)
    {separator : Char} (separates : isSeparator separator = true) (rest : List Char) :
    (word ++ separator :: rest).filter isSeparator = separator :: rest.filter isSeparator := by
  rw [List.filter_append, filter_whole whole, List.filter_cons_of_pos separates]
  rfl

/-- Splitting a text takes it apart into words without separators, and nothing is lost. -/
theorem weave_split (text : List Char) :
    weave (text.splitOnP isSeparator) (text.filter isSeparator) = text ∧
      (text.splitOnP isSeparator).length = (text.filter isSeparator).length + 1 ∧
      ∀ word ∈ text.splitOnP isSeparator, ∀ c ∈ word, isSeparator c = false := by
  induction text using words_induction with
  | last word whole =>
    rw [List.splitOnP_eq_singleton whole, filter_whole whole]
    exact ⟨by simp [weave],rfl,by simpa using whole⟩
  | next word separator rest whole separates ih =>
    obtain ⟨joined,counted,apart⟩ := ih
    rw [splitOnP_next whole separates, filter_next whole separates]
    refine ⟨?_,by simpa using counted,List.forall_mem_cons.mpr ⟨whole,apart⟩⟩
    exact congrArg (word ++ separator :: ·) joined

/-- A word is replaced from its first dollar sign on. All of it that comes after is one name. -/
def expandWord (macros : Macros) : List Char → List Char × List String
  | [] => ([], [])
  | c :: rest =>
    if c = '$' then macros.refer (String.ofList rest)
    else
      let (text, unknown) := macros.expandWord rest
      (c :: text, unknown)

variable (macros : Macros)

theorem expandWord_append {plain : List Char} (free : '$' ∉ plain) (rest : List Char) :
    macros.expandWord (plain ++ rest) =
      (plain ++ (macros.expandWord rest).1,(macros.expandWord rest).2) := by
  induction plain with
  | nil => rfl
  | cons c plain ih =>
    rw [List.mem_cons, not_or] at free
    rw [List.cons_append, expandWord, if_neg (Ne.symm free.1), ih free.2]
    rfl

theorem expandChars_word {word : List Char} (whole : ∀ c ∈ word, isSeparator c = false) :
    macros.expandChars word = macros.expandWord word := by
  induction word with
  | nil => rw [expandChars, expandWord]
  | cons c rest ih =>
    have later := (List.forall_mem_cons.mp whole).2
    by_cases dollar : c = '$'
    · have ends : ∀ c ∈ ([] : List Char).head?, isSeparator c = true := by simp
      have named : macros.expandChars ('$' :: (rest ++ [])) = _ := expandChars_reference macros later ends
      rw [List.append_nil, expandChars] at named
      rw [expandWord, if_pos dollar, dollar, named, List.append_nil, List.append_nil]
    · rw [expandWord, if_neg dollar, expandChars_plain macros dollar, ih later]

theorem takeWhile_append_stop {p : α → Bool} {stop : α} (stops : p stop = false)
    (front rest : List α) : (front ++ stop :: rest).takeWhile p = front.takeWhile p ∧
      (front ++ stop :: rest).dropWhile p = front.dropWhile p ++ stop :: rest := by
  induction front with
  | nil => simp [stops]
  | cons a front ih =>
    cases passes : p a
    · simp [passes]
    · simpa [passes] using ih

theorem expandChars_separator {separator : Char} (separates : isSeparator separator = true)
    (before after : List Char) :
    macros.expandChars (before ++ separator :: after) =
      ((macros.expandChars before).1 ++ separator :: (macros.expandChars after).1,
        (macros.expandChars before).2 ++ (macros.expandChars after).2) := by
  match before with
  | [] =>
    have plain : separator ≠ '$' := by
      rintro rfl
      cases separates
    rw [List.nil_append, expandChars_plain macros plain, expandChars]
    rfl
  | c :: before =>
    rw [List.cons_append]
    by_cases dollar : c = '$'
    · subst dollar
      have stops : (!isSeparator separator) = false := by rw [separates]; rfl
      obtain ⟨name,later⟩ := takeWhile_append_stop (p := (!isSeparator ·)) stops before after
      have := (List.dropWhile_suffix (!isSeparator ·) : _ <:+ before).length_le
      rw [expandChars_dollar, expandChars_dollar, name, later,
        expandChars_separator separates (before.dropWhile (!isSeparator ·)) after]
      simp only [List.append_assoc]
    · rw [expandChars_plain macros dollar, expandChars_plain macros dollar,
        expandChars_separator separates before after, List.cons_append]
termination_by before.length

theorem expandChars_words (text : List Char) :
    let words := (text.splitOnP isSeparator).map macros.expandWord
    macros.expandChars text =
      (weave (words.map Prod.fst) (text.filter isSeparator),words.flatMap Prod.snd) := by
  induction text using words_induction with
  | last word whole =>
    rw [List.splitOnP_eq_singleton whole, filter_whole whole, expandChars_word macros whole]
    simp [weave]
  | next word separator rest whole separates ih =>
    rw [splitOnP_next whole separates, filter_next whole separates,
      expandChars_separator macros separates, expandChars_word macros whole, ih]
    rfl

end Macros

/-- Macro expansion works word by word. A text is its words with the separators between them; each word is
expanded on its own, the separators stay in their places, and the names that are not known are reported in
the order of the words. A word keeps what comes before its first dollar sign; all that comes after is a name,
and the text of the name is put in as it is. -/
theorem Macros.expand_words (macros : Macros) (text : String) :
    let words := text.toList.splitOnP isSeparator
    let separators := text.toList.filter isSeparator
    let expanded := words.map macros.expandWord
    (weave words separators = text.toList ∧ words.length = separators.length + 1 ∧
      ∀ word ∈ words, ∀ c ∈ word, isSeparator c = false) ∧
    macros.expand text =
      ⟨String.ofList (weave (expanded.map Prod.fst) separators),expanded.flatMap Prod.snd⟩ ∧
    (∀ plain, '$' ∉ plain → macros.expandWord plain = (plain,[]) ∧
      ∀ name, macros.expandWord (plain ++ '$' :: name) =
        match macros.value? (String.ofList name) with
        | some value => (plain ++ value.toList,[])
        | none => (plain,[String.ofList name])) ∧
    ∀ (before after : String) (separator : Char), isSeparator separator = true →
      macros.expand (before ++ String.singleton separator ++ after) =
        macros.expand before ++ ⟨String.singleton separator,[]⟩ ++ macros.expand after := by
  intro words separators expanded
  refine ⟨weave_split text.toList,?_,fun plain free => ⟨?_,fun name => ?_⟩,?_⟩
  · simp only [expand, expandChars_words]
    rfl
  · have alone := macros.expandWord_append free []
    rwa [List.append_nil, expandWord, List.append_nil] at alone
  · rw [expandWord_append macros free, expandWord, if_pos rfl, refer]
    cases macros.value? (String.ofList name) with
    | none => simp
    | some value => rfl
  · intro before after separator separates
    have chars : (before ++ String.singleton separator ++ after).toList =
        before.toList ++ separator :: after.toList := by simp
    simp only [expand, chars, expandChars_separator macros separates, Expansion.mk_append,
      List.append_nil]
    congr 1
    rw [← String.toList_inj]
    simp

/-- A value with a dollar sign in it, a name that is empty and one that begins with a dollar sign, and a word
that ends in a name nobody has defined. -/
theorem errata_expanded :
    let macros := Macros.ofList [("who","$you, all"),("","nobody")]
    macros.expandWord "x$nope".toList = ("x".toList,["nope"]) ∧
      macros.expand ("to $who" ++ String.singleton '\t' ++ "$$who $ x$nope") =
        ⟨"to $you, all\t nobody x",["$who","nope"]⟩ := by
  intro macros
  obtain ⟨_,_,words,separators⟩ := macros.expand_words ""
  obtain ⟨_,named⟩ := words ['x'] (by decide)
  have before : macros.expand "to $who" = ⟨"to $you, all",[]⟩ := by decide +kernel
  have after : macros.expand "$$who $ x$nope" = ⟨" nobody x",["$who","nope"]⟩ := by decide +kernel
  have unknown : macros.value? (String.ofList "nope".toList) = none := by decide +kernel
  refine ⟨?_,?_⟩
  · refine (named "nope".toList).trans ?_
    rw [unknown]
    rfl
  · rw [separators _ _ '\t' rfl, before, after]
    rfl

end DocGraph

import DocGraph.Bytes

/-! Reading off the front of a byte string. Readers that look no further than the bytes they take are put
together from such readers. -/
namespace DocGraph

/-- A way to read off the front of a byte string that looks at the bytes it takes and no further. It
takes at most so many, and so many are enough for it. -/
structure FrontRead (most : Nat) (read : Bytes → Option (α × Bytes)) : Prop where
  kept {bytes rest : Bytes} {a : α} : read bytes = some (a,rest) →
    ∃ run, bytes = run ++ rest ∧ run.length ≤ most ∧ ∀ other, read (run ++ other) = some (a,other)
  fed {bytes : Bytes} : most ≤ bytes.length → ∃ a rest, read bytes = some (a,rest)

namespace FrontRead

variable {read : Bytes → Option (α × Bytes)} {m n : Nat}

theorem done (a : α) : FrontRead 0 fun bytes => (pure (a,bytes) : Option (α × Bytes)) where
  kept found := by
    cases found
    exact ⟨[],rfl,Nat.le_refl _,fun _ => rfl⟩
  fed _ := ⟨_,_,rfl⟩

/-- One part behind another. How far the second looks may depend on the first only up to a bound. -/
theorem bind {next : α × Bytes → Option (β × Bytes)} (first : FrontRead m read)
    (second : ∀ a, FrontRead n fun rest => next (a,rest)) :
    FrontRead (m + n) fun bytes => (read bytes).bind next where
  kept found := by
    obtain ⟨⟨a,middle⟩,taken,later⟩ := Option.bind_eq_some_iff.mp found
    obtain ⟨run,rfl,width,same⟩ := first.kept taken
    obtain ⟨run',rfl,width',same'⟩ := (second a).kept later
    refine ⟨run ++ run',(List.append_assoc _ _ _).symm,?_,fun other => ?_⟩
    · rw [List.length_append]
      exact Nat.add_le_add width width'
    · rw [List.append_assoc, same]
      exact same' other
  fed {bytes} enough := by
    obtain ⟨a,middle,taken⟩ := first.fed (Nat.le_of_add_right_le enough)
    obtain ⟨run,rfl,width,_⟩ := first.kept taken
    rw [List.length_append] at enough
    obtain ⟨b,rest,found⟩ := (second a).fed (show n ≤ middle.length by omega)
    exact ⟨b,rest,Option.bind_eq_some_iff.mpr ⟨_,taken,found⟩⟩

theorem map (front : FrontRead m read) (f : α → β) :
    FrontRead m fun bytes => (read bytes).map (Prod.map f id) where
  kept found := by
    obtain ⟨⟨a,rest⟩,taken,same⟩ := Option.map_eq_some_iff.mp found
    cases same
    obtain ⟨run,rfl,width,same⟩ := front.kept taken
    exact ⟨run,rfl,width,fun other => by rw [same]; rfl⟩
  fed enough := by
    obtain ⟨a,rest,taken⟩ := front.fed enough
    exact ⟨f a,rest,by rw [taken]; rfl⟩

theorem mono (front : FrontRead m read) (more : m ≤ n) : FrontRead n read where
  kept found := by
    obtain ⟨run,split,width,same⟩ := front.kept found
    exact ⟨run,split,Nat.le_trans width more,same⟩
  fed enough := front.fed (Nat.le_trans more enough)

/-- Bytes that end before what was read from them does are refused. -/
theorem cut (front : FrontRead m read) {run rest : Bytes} {a : α}
    (found : read (run ++ rest) = some (a,rest)) {count : Nat} (short : count < run.length) :
    read (run.take count) = none := by
  rw [Option.eq_none_iff_forall_ne_some]
  rintro ⟨b,left⟩ early
  obtain ⟨part,split,_,same⟩ := front.kept early
  have whole : run ++ rest = part ++ (left ++ (run.drop count ++ rest)) := by
    rw [← List.append_assoc, ← split, ← List.append_assoc, List.take_append_drop]
  rw [whole, same, Option.some.injEq, Prod.mk.injEq] at found
  have lengths := congrArg List.length found.2
  rw [List.length_append, List.length_append, List.length_drop] at lengths
  omega

theorem byte? : FrontRead 1 Bytes.byte? where
  kept found := by
    obtain rfl := Bytes.eq_of_byte? found
    exact ⟨[_],rfl,Nat.le_refl _,fun _ => rfl⟩
  fed {bytes} enough := by
    match bytes with
    | byte :: rest => exact ⟨byte,rest,rfl⟩

theorem uint16? : FrontRead 2 Bytes.uint16? where
  kept found := by
    obtain rfl := Bytes.eq_of_uint16? found
    exact ⟨_,rfl,Nat.le_refl _,Bytes.uint16?_ofUInt16 _⟩
  fed {bytes} enough := by
    match bytes with
    | high :: low :: rest => exact ⟨_,rest,rfl⟩

theorem uint32? : FrontRead 4 Bytes.uint32? where
  kept found := by
    obtain rfl := Bytes.eq_of_uint32? found
    exact ⟨_,rfl,Nat.le_refl _,Bytes.uint32?_ofUInt32 _⟩
  fed {bytes} enough := by
    match bytes with
    | a :: b :: c :: d :: rest => exact ⟨_,rest,rfl⟩

theorem take? (count : Nat) : FrontRead count (Bytes.take? count) where
  kept found := by
    obtain ⟨rfl,width⟩ := Bytes.take?_eq_some_iff.mp found
    exact ⟨_,rfl,Nat.le_of_eq width,Bytes.take?_append width⟩
  fed enough := ⟨_,_,if_pos (List.length_take_of_le enough)⟩

end FrontRead

end DocGraph

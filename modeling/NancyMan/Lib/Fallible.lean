import Mathlib.Data.List.Forall2

/-!
# Computations that may fail

What it says about the parts of a computation that it has succeeded: both halves of a sequence did,
every element of a mapped list was mapped, and an invariant that each step of a fold keeps holds at
its end.
-/
namespace NancyMan.Fallible

variable {ε α β : Type} {result : Except ε α} {next : α → Except ε β} {value : β}
  {step : α → Except ε β} {items : List α} {results : List β} {item : α}

theorem bind_ok (ended : result >>= next = .ok value) :
    ∃ found, result = .ok found ∧ next found = .ok value := by
  cases result with
  | error error => cases ended
  | ok found => exact ⟨found, rfl, ended⟩

theorem bind_eq_ok :
    result >>= next = .ok value ↔ ∃ found, result = .ok found ∧ next found = .ok value := by
  constructor
  · exact bind_ok
  · rintro ⟨found, rfl, ended⟩
    exact ended

theorem map_ok {next : α → β} (ended : result.map next = .ok value) :
    ∃ found, result = .ok found ∧ next found = value := by
  cases result with
  | error error => cases ended
  | ok found => exact ⟨found, rfl, Except.ok.inj ended⟩

/-- A list that is mapped has every element mapped, in order. -/
theorem forall₂_of_mapM (mapped : items.mapM step = .ok results) :
    List.Forall₂ (fun item result => step item = .ok result) items results := by
  induction items generalizing results with
  | nil =>
    obtain rfl : [] = results := Except.ok.inj mapped
    exact .nil
  | cons item items ih =>
    rw [List.mapM_cons] at mapped
    obtain ⟨first, stepped, mapped⟩ := bind_ok mapped
    obtain ⟨others, rest, mapped⟩ := bind_ok mapped
    obtain rfl : first :: others = results := Except.ok.inj mapped
    exact .cons stepped (ih rest)

theorem exists_of_mapM (mapped : items.mapM step = .ok results) (member : item ∈ items) :
    ∃ result ∈ results, step item = .ok result := by
  obtain ⟨place, inside, rfl⟩ := List.getElem_of_mem member
  have pairs := forall₂_of_mapM mapped
  have within : place < results.length := pairs.length_eq ▸ inside
  exact ⟨results[place], List.getElem_mem within, pairs.get inside within⟩

theorem exists_of_mem_mapM {result : β} (mapped : items.mapM step = .ok results)
    (member : result ∈ results) : ∃ item ∈ items, step item = .ok result := by
  obtain ⟨place, inside, rfl⟩ := List.getElem_of_mem member
  have pairs := forall₂_of_mapM mapped
  have within : place < items.length := pairs.length_eq ▸ inside
  exact ⟨items[place], List.getElem_mem within, pairs.get within inside⟩

/-- A list whose elements can all be mapped is mapped. -/
theorem mapM_succeeds (goes : ∀ item ∈ items, ∃ result, step item = .ok result) :
    ∃ results, items.mapM step = .ok results := by
  induction items with
  | nil => exact ⟨[], rfl⟩
  | cons item items ih =>
    obtain ⟨first, stepped⟩ := goes item (.head _)
    obtain ⟨others, mapped⟩ := ih fun other member => goes other (.tail _ member)
    refine ⟨first :: others, ?_⟩
    rw [List.mapM_cons, stepped, mapped]
    rfl

/-- A list is mapped to results that all pass a test exactly when each element has a result that
does. -/
theorem all_of_mapM (step : α → Option β) (test : β → Bool) (items : List α) :
    ((items.mapM step).any fun results => results.all test) =
      items.all fun item => (step item).any test := by
  induction items with
  | nil => rfl
  | cons item items ih =>
    rw [List.mapM_cons, List.all_cons, ← ih]
    cases step item with
    | none => rfl
    | some first =>
      cases items.mapM step with
      | none => exact (Bool.and_false _).symm
      | some others => exact List.all_cons

/-- A list with an element that has no result is not mapped. -/
theorem mapM_eq_none {step : α → Option β} (member : item ∈ items) (missing : step item = none) :
    items.mapM step = none := by
  induction items with
  | nil => cases member
  | cons first items ih =>
    rw [List.mapM_cons]
    rcases List.mem_cons.mp member with rfl | later
    · rw [missing]
      rfl
    · rw [ih later]
      cases step first with
      | none => rfl
      | some result => rfl

/-- Results that exist for every number of a range stand at their places. -/
theorem getElem?_filterMap_range {find : Nat → Option α} {count place : Nat}
    (all : ∀ other < count, (find other).isSome) (inside : place < count) :
    ((List.range count).filterMap find)[place]? = find place := by
  obtain ⟨value, found⟩ := Option.isSome_iff_exists.mp (all place inside)
  have each : ∀ other ∈ List.range count, find other = some ((find other).getD value) := by
    intro other member
    obtain ⟨result, exact⟩ := Option.isSome_iff_exists.mp (all other (List.mem_range.mp member))
    rw [exact]
    rfl
  have mapped : (List.range count).filterMap find =
      (List.range count).map fun other => (find other).getD value := by
    rw [List.filterMap_congr each, List.filterMap_eq_map']
  rw [mapped, List.getElem?_map, List.getElem?_range inside, Option.map_some,
    ← each place (List.mem_range.mpr inside)]

/-- In a list of distinct keys, a pair of the list is what its key looks up. -/
theorem lookup_of_mem [DecidableEq α] {pairs : List (α × β)} {key : α}
    (distinct : (pairs.map Prod.fst).Nodup) (member : (key, value) ∈ pairs) :
    pairs.lookup key = some value := by
  obtain ⟨before, after, rfl⟩ := List.append_of_mem member
  refine List.lookup_eq_some_iff.mpr ⟨before, after, rfl, fun pair held => ?_⟩
  rw [List.map_append, List.map_cons] at distinct
  have apart := (List.nodup_append.mp distinct).2.2 pair.1 (List.mem_map_of_mem held) key (.head _)
  exact bne_iff_ne.mpr fun same => apart same.symm

/-- What each step of a fold keeps, of the items done and the state, a whole fold keeps. -/
theorem foldlM_keeps {step : β → α → Except ε β} {Holds : List α → β → Prop}
    (kept : ∀ done state item next, Holds done state → step state item = .ok next →
      Holds (done ++ [item]) next)
    {items done : List α} {state last : β} (holds : Holds done state)
    (folded : items.foldlM step state = .ok last) : Holds (done ++ items) last := by
  induction items generalizing done state with
  | nil =>
    obtain rfl : state = last := Except.ok.inj folded
    rwa [List.append_nil]
  | cons item items ih =>
    obtain ⟨next, stepped, folded⟩ := bind_ok folded
    have whole := ih (kept done state item next holds stepped) folded
    rwa [List.append_assoc, List.singleton_append] at whole

/-- A fold whose steps all succeed, from a state of which that can be said, succeeds. -/
theorem foldlM_succeeds {step : β → α → Except ε β} {Holds : List α → β → Prop} {done : List α}
    {state : β} (goes : ∀ before item after state, done ++ items = before ++ item :: after →
      Holds before state → ∃ next, step state item = .ok next ∧ Holds (before ++ [item]) next)
    (holds : Holds done state) :
    ∃ last, items.foldlM step state = .ok last ∧ Holds (done ++ items) last := by
  induction items generalizing done state with
  | nil => exact ⟨state, rfl, by rwa [List.append_nil]⟩
  | cons item items ih =>
    obtain ⟨next, stepped, held⟩ := goes done item items state rfl holds
    have split : (done ++ [item]) ++ items = done ++ item :: items := by simp
    obtain ⟨last, folded, ended⟩ := ih (fun before other after state same =>
      goes before other after state (split ▸ same)) held
    refine ⟨last, ?_, split ▸ ended⟩
    rw [List.foldlM_cons, stepped]
    exact folded

end NancyMan.Fallible

import Mathlib.Data.List.Lex
import Mathlib.Data.List.Perm.Basic
import Mathlib.Data.List.Sort
import NancyMan.Lib.JsonRoundTrip

/-!
# Canonical JSON values

The canonical form of a value has the properties of every object in the order of their names. Two
objects have one canonical form when they have the same names with values of one canonical form, in
any order. Names are compared by their UTF-16 code units.
-/
namespace NancyMan.Json

open List (lookup_cons map_cons mem_cons mem_map mem_mergeSort mergeSort_perm)

/-- The place of a character among the others, by its UTF-16 code units: what lies beyond the basic
plane is written with surrogates, which come before the end of that plane. -/
def codeUnitRank (symbol : Char) : Nat :=
  if 0xE000 ≤ symbol.toNat ∧ symbol.toNat < 0x10000 then symbol.toNat + 0x110000
  else symbol.toNat

/-- A character is known by its place. -/
theorem codeUnitRank_injective : Function.Injective codeUnitRank := by
  intro left right same
  have bound (symbol : Char) : symbol.toNat < 0x110000 := by
    have valid := symbol.valid
    show symbol.val.toNat < 0x110000
    omega
  have first := bound left
  have second := bound right
  have equal : left.toNat = right.toNat := by
    unfold codeUnitRank at same
    split_ifs at same <;> omega
  exact Char.toNat_inj.mp equal

def nameRank (name : String) : List Nat := name.toList.map codeUnitRank

theorem nameRank_injective : Function.Injective nameRank := by
  intro left right same
  exact String.toList_inj.mp (List.map_injective_iff.mpr codeUnitRank_injective same)

def nameAtMost (left right : String × Json) : Bool := nameRank left.1 ≤ nameRank right.1

theorem nameAtMost_total (left right : String × Json) :
    nameAtMost left right || nameAtMost right left := by
  simpa [nameAtMost] using le_total (nameRank left.1) (nameRank right.1)

theorem nameAtMost_trans (left middle right : String × Json) (first : nameAtMost left middle)
    (second : nameAtMost middle right) : nameAtMost left right := by
  simp only [nameAtMost, decide_eq_true_eq] at first second ⊢
  exact le_trans first second

mutual

/-- The canonical form of a value. -/
def canonicalValue : Json → Json
  | .array items => .array (canonicalItems items)
  | .object properties => .object ((canonicalProperties properties).mergeSort nameAtMost)
  | .null => .null
  | .boolean value => .boolean value
  | .number literal => .number literal
  | .string text => .string text

/-- The canonical forms of items. -/
def canonicalItems : List Json → List Json
  | [] => []
  | item :: rest => canonicalValue item :: canonicalItems rest

/-- The canonical forms of properties, which are not in order yet. -/
def canonicalProperties : List (String × Json) → List (String × Json)
  | [] => []
  | (name, value) :: rest => (name, canonicalValue value) :: canonicalProperties rest

end

theorem canonicalItems_eq (items : List Json) : canonicalItems items = items.map canonicalValue := by
  induction items with
  | nil => rfl
  | cons item rest ih => rw [canonicalItems, ih, map_cons]

/-- Properties are canonical one by one. -/
theorem canonicalProperties_eq_map (properties : List (String × Json)) :
    canonicalProperties properties =
      properties.map fun property => (property.1, canonicalValue property.2) := by
  induction properties with
  | nil => rfl
  | cons property rest ih =>
    rw [canonicalProperties, ih, map_cons]

theorem names_canonicalProperties (properties : List (String × Json)) :
    (canonicalProperties properties).map Prod.fst = properties.map Prod.fst := by
  induction properties with
  | nil => rfl
  | cons property rest ih =>
    rw [canonicalProperties, map_cons, ih, map_cons]

/-- A canonical property is the canonical form of the property of its name. -/
theorem lookup_canonicalProperties (properties : List (String × Json)) (name : String) :
    (canonicalProperties properties).lookup name = (properties.lookup name).map canonicalValue := by
  induction properties with
  | nil => rfl
  | cons property rest ih =>
    obtain ⟨other, value⟩ := property
    rw [canonicalProperties, lookup_cons, lookup_cons, ih]
    cases name == other <;> rfl

/-! ## Objects by their names -/

section Names

variable {properties others : List (String × Json)} (distinct : (properties.map Prod.fst).Nodup)

include distinct

/-- Where names are distinct, a property is what is found under its name. -/
theorem mem_iff_lookup (name : String) (value : Json) :
    (name, value) ∈ properties ↔ properties.lookup name = some value := by
  induction properties with
  | nil => simp
  | cons property rest ih =>
    obtain ⟨other, first⟩ := property
    obtain ⟨fresh, later⟩ := List.nodup_cons.mp distinct
    rw [mem_cons, lookup_cons]
    by_cases same : name = other
    · subst same
      have apart : (name, value) ∉ rest := fun member =>
        fresh (mem_map.mpr ⟨(name, value), member, rfl⟩)
      simp [apart, eq_comm]
    · have differs : (name == other) = false := by simpa using same
      rw [differs]
      rw [← ih later]
      simp [same]

omit distinct in
/-- A name is one of an object's when something is found under it. -/
theorem mem_names_iff (name : String) :
    name ∈ properties.map Prod.fst ↔ ∃ value, properties.lookup name = some value := by
  rw [← Option.isSome_iff_exists, List.lookup_isSome_iff]
  constructor
  · intro member
    obtain ⟨property, found, rfl⟩ := mem_map.mp member
    exact ⟨property, found, beq_self_eq_true _⟩
  · rintro ⟨property, found, same⟩
    exact mem_map.mpr ⟨property, found, (eq_of_beq same).symm⟩

/-- Lists of properties with distinct names are sorted into the same list exactly when the same is
found under each name. -/
theorem mergeSort_eq_iff (others_distinct : (others.map Prod.fst).Nodup) :
    properties.mergeSort nameAtMost = others.mergeSort nameAtMost ↔
      ∀ name, properties.lookup name = others.lookup name := by
  have members : (∀ name, properties.lookup name = others.lookup name) ↔
      ∀ property, property ∈ properties ↔ property ∈ others := by
    constructor
    · rintro same ⟨name, value⟩
      rw [mem_iff_lookup distinct, mem_iff_lookup others_distinct, same]
    · intro same name
      refine Option.ext fun value => ?_
      rw [← mem_iff_lookup distinct, ← mem_iff_lookup others_distinct, same]
  rw [members, ← List.perm_ext_iff_of_nodup (List.Nodup.of_map _ distinct)
    (List.Nodup.of_map _ others_distinct)]
  constructor
  · intro same
    exact (mergeSort_perm properties nameAtMost).symm.trans
      (same ▸ mergeSort_perm others nameAtMost)
  · intro perm
    refine List.Perm.eq_of_pairwise ?_ (List.pairwise_mergeSort nameAtMost_trans nameAtMost_total _)
      (List.pairwise_mergeSort nameAtMost_trans nameAtMost_total _) ?_
    · rintro ⟨name, value⟩ ⟨other, found⟩ here there first second
      simp only [nameAtMost, decide_eq_true_eq] at first second
      obtain rfl := nameRank_injective (le_antisymm first second)
      have left := (mem_iff_lookup distinct name value).mp (mem_mergeSort.mp here)
      have right := (mem_iff_lookup distinct name found).mp
        (perm.mem_iff.mpr (mem_mergeSort.mp there))
      obtain rfl := Option.some.inj (left.symm.trans right)
      rfl
    · exact (mergeSort_perm properties nameAtMost).trans
        (perm.trans (mergeSort_perm others nameAtMost).symm)

/-- Two objects have one canonical form exactly when they have values of one canonical form, or none,
under each name. -/
theorem canonicalValue_object_iff (others_distinct : (others.map Prod.fst).Nodup) :
    canonicalValue (.object properties) = canonicalValue (.object others) ↔
      ∀ name, (properties.lookup name).map canonicalValue =
        (others.lookup name).map canonicalValue := by
  rw [canonicalValue, canonicalValue, Json.object.injEq, mergeSort_eq_iff]
  · simp only [lookup_canonicalProperties]
  · rw [names_canonicalProperties]
    exact distinct
  · rw [names_canonicalProperties]
    exact others_distinct

omit distinct in
/-- Without one name, the others have what they had. -/
theorem lookup_filter_ne (properties : List (String × Json)) (removed name : String) :
    (properties.filter fun property => property.1 ≠ removed).lookup name =
      if name = removed then none else properties.lookup name := by
  induction properties with
  | nil => simp
  | cons property rest ih =>
    obtain ⟨other, value⟩ := property
    by_cases gone : other = removed
    · subst gone
      rw [List.filter_cons_of_neg (by simp), ih, lookup_cons]
      by_cases same : name = other
      · rw [if_pos same, if_pos same]
      · have differs : (name == other) = false := by simpa using same
        rw [if_neg same, if_neg same, differs]
    · rw [List.filter_cons_of_pos (by simpa using gone), lookup_cons, lookup_cons, ih]
      by_cases same : name = other
      · subst same
        rw [beq_self_eq_true]
        exact (if_neg gone).symm
      · have differs : (name == other) = false := by simpa using same
        rw [differs]

/-- Objects with one canonical form under a name have one canonical form exactly when they have one
without that name. -/
theorem canonicalValue_without_iff (others_distinct : (others.map Prod.fst).Nodup) {name : String}
    (same : (properties.lookup name).map canonicalValue =
      (others.lookup name).map canonicalValue) :
    canonicalValue (.object (properties.filter fun property => property.1 ≠ name)) =
        canonicalValue (.object (others.filter fun property => property.1 ≠ name)) ↔
      canonicalValue (.object properties) = canonicalValue (.object others) := by
  have fewer (list : List (String × Json)) (once : (list.map Prod.fst).Nodup) :
      ((list.filter fun property => property.1 ≠ name).map Prod.fst).Nodup :=
    (List.filter_sublist.map Prod.fst).nodup once
  rw [canonicalValue_object_iff (fewer _ distinct) (fewer _ others_distinct),
    canonicalValue_object_iff distinct others_distinct]
  refine forall_congr' fun other => ?_
  rw [lookup_filter_ne, lookup_filter_ne]
  by_cases removed : other = name
  · subst removed
    rw [if_pos rfl, if_pos rfl]
    exact iff_of_true rfl same
  · rw [if_neg removed, if_neg removed]

omit distinct

end Names

/-! ## Sorting as it goes and joining texts -/

def byName {α : Type} (pairs : List (String × α)) : List (String × α) :=
  pairs.insertionSort fun left right => nameRank left.1 ≤ nameRank right.1

theorem byName_map {α β : Type} (change : α → β) (pairs : List (String × α)) :
    byName (pairs.map fun pair => (pair.1, change pair.2)) =
      (byName pairs).map fun pair => (pair.1, change pair.2) :=
  (List.map_insertionSort (fun left right : String × α => nameRank left.1 ≤ nameRank right.1)
    (fun left right : String × β => nameRank left.1 ≤ nameRank right.1)
    (fun pair => (pair.1, change pair.2)) pairs fun _ _ _ _ => .rfl).symm

/-- Properties with distinct names have one order. -/
theorem byName_eq_mergeSort {properties : List (String × Json)}
    (distinct : (properties.map Prod.fst).Nodup) :
    byName properties = properties.mergeSort nameAtMost := by
  have perm : (byName properties).Perm properties := List.perm_insertionSort _ properties
  have once : ((byName properties).map Prod.fst).Nodup :=
    (perm.map Prod.fst).nodup_iff.mpr distinct
  have sorted : (byName properties).Pairwise fun left right => nameAtMost left right := by
    have pairs := List.pairwise_insertionSort
      (fun left right : String × Json => nameRank left.1 ≤ nameRank right.1) properties
    exact pairs.imp fun below => decide_eq_true below
  have same : (byName properties).mergeSort nameAtMost = properties.mergeSort nameAtMost := by
    rw [mergeSort_eq_iff once distinct]
    intro name
    refine Option.ext fun value => ?_
    rw [← mem_iff_lookup once, ← mem_iff_lookup distinct]
    exact perm.mem_iff
  rw [← same, List.mergeSort_of_pairwise sorted]

/-- The items of an array after its first, joined. -/
theorem renderMoreItems_eq (items : List Json) (first : List Char) :
    first ++ renderMoreItems items =
      [','].intercalate (first :: items.map renderChars) ++ [']'] := by
  induction items generalizing first with
  | nil => simp [renderMoreItems, List.intercalate]
  | cons item rest ih =>
    rw [renderMoreItems, ih (renderChars item)]
    simp [List.intercalate]

theorem renderChars_array (items : List Json) :
    renderChars (.array items) = '[' :: ([','].intercalate (items.map renderChars) ++ [']']) := by
  cases items with
  | nil => rfl
  | cons item rest =>
    rw [renderChars, renderItems, renderMoreItems_eq, map_cons]

def renderProperty (property : String × Json) : List Char :=
  renderString property.1.toList ++ ':' :: renderChars property.2

/-- The properties of an object after its first, joined. -/
theorem renderMoreProperties_eq (properties : List (String × Json)) (first : List Char) :
    first ++ renderMoreProperties properties =
      [','].intercalate (first :: properties.map renderProperty) ++ ['}'] := by
  induction properties generalizing first with
  | nil => simp [renderMoreProperties, List.intercalate]
  | cons property rest ih =>
    obtain ⟨name, value⟩ := property
    have next := ih (renderProperty (name, value))
    simp only [renderProperty, List.append_assoc, List.cons_append] at next
    rw [renderMoreProperties, next]
    simp [List.intercalate, renderProperty]

/-- An object is its properties, joined. -/
theorem renderChars_object (properties : List (String × Json)) :
    renderChars (.object properties) =
      '{' :: ([','].intercalate (properties.map renderProperty) ++ ['}']) := by
  cases properties with
  | nil => rfl
  | cons property rest =>
    obtain ⟨name, value⟩ := property
    have joined := renderMoreProperties_eq rest (renderProperty (name, value))
    simp only [renderProperty, List.append_assoc, List.cons_append] at joined
    rw [renderChars, renderProperties, joined]
    rfl

/-! ## Values that are the same but for the order of properties -/

mutual

/-- Whether no object in a value has a name twice. -/
def distinctNames : Json → Bool
  | .array items => itemsDistinct items
  | .object properties =>
    decide (properties.map Prod.fst).Nodup && propertiesDistinct properties
  | _ => true

/-- Whether no object in some items has a name twice. -/
def itemsDistinct : List Json → Bool
  | [] => true
  | item :: rest => distinctNames item && itemsDistinct rest

/-- Whether no object in the values of some properties has a name twice. -/
def propertiesDistinct : List (String × Json) → Bool
  | [] => true
  | (_, value) :: rest => distinctNames value && propertiesDistinct rest

end

mutual

/-- Values that are the same: objects have the same names, in any order, with the same values. -/
def SameValue : Json → Json → Prop
  | .null, .null => True
  | .boolean left, .boolean right => left = right
  | .number left, .number right => left = right
  | .string left, .string right => left = right
  | .array left, .array right => SameItems left right
  | .object left, .object right =>
    (∀ name, name ∈ right.map Prod.fst → name ∈ left.map Prod.fst) ∧ SameProperties left right
  | _, _ => False

/-- Items that are the same one by one. -/
def SameItems : List Json → List Json → Prop
  | [], [] => True
  | left :: lefts, right :: rights => SameValue left right ∧ SameItems lefts rights
  | _, _ => False

/-- Properties that others have with the same values. -/
def SameProperties : List (String × Json) → List (String × Json) → Prop
  | [], _ => True
  | (name, value) :: rest, others =>
    (∃ other, others.lookup name = some other ∧ SameValue value other) ∧ SameProperties rest others

end

/-- What is found in an object whose values have no name twice has none twice. -/
theorem distinctNames_of_lookup {properties : List (String × Json)} {name : String} {value : Json}
    (distinct : propertiesDistinct properties) (found : properties.lookup name = some value) :
    value.distinctNames := by
  induction properties with
  | nil => cases found
  | cons property rest ih =>
    obtain ⟨other, first⟩ := property
    rw [propertiesDistinct, Bool.and_eq_true] at distinct
    rw [lookup_cons] at found
    cases same : name == other with
    | true =>
      rw [same] at found
      obtain rfl : first = value := Option.some.inj found
      exact distinct.1
    | false =>
      rw [same] at found
      exact ih distinct.2 found

/-- Where each property of an object has a canonical form among others that have no further names,
the objects have one canonical form. -/
theorem lookup_canonical_iff {properties others : List (String × Json)}
    (distinct : (properties.map Prod.fst).Nodup) :
    (∀ name, (properties.lookup name).map canonicalValue =
        (others.lookup name).map canonicalValue) ↔
      (∀ name, name ∈ others.map Prod.fst → name ∈ properties.map Prod.fst) ∧
        ∀ property ∈ properties, ∃ other, others.lookup property.1 = some other ∧
          canonicalValue property.2 = canonicalValue other := by
  constructor
  · intro same
    refine ⟨fun name member => ?_, fun ⟨name, value⟩ member => ?_⟩
    · obtain ⟨value, found⟩ := (mem_names_iff name).mp member
      have mapped := same name
      rw [found] at mapped
      obtain ⟨own, held, -⟩ := Option.map_eq_some_iff.mp mapped
      exact (mem_names_iff name).mpr ⟨own, held⟩
    · have found := (mem_iff_lookup distinct name value).mp member
      have mapped := same name
      rw [found] at mapped
      obtain ⟨other, held, equal⟩ := Option.map_eq_some_iff.mp mapped.symm
      exact ⟨other, held, equal.symm⟩
  · rintro ⟨names, values⟩ name
    cases found : properties.lookup name with
    | some value =>
      obtain ⟨other, held, equal⟩ := values _ ((mem_iff_lookup distinct name value).mpr found)
      rw [held, Option.map_some, Option.map_some, equal]
    | none =>
      cases held : others.lookup name with
      | none => rfl
      | some value =>
        obtain ⟨own, present⟩ :=
          (mem_names_iff name).mp (names name ((mem_names_iff name).mpr ⟨value, held⟩))
        cases found.symm.trans present

mutual

/-- Values have one canonical form exactly when they are the same. -/
theorem canonicalValue_eq_iff : (left right : Json) → left.distinctNames →
    right.distinctNames → (canonicalValue left = canonicalValue right ↔ SameValue left right)
  | .null, right, _, _ => by cases right <;> simp [canonicalValue, SameValue]
  | .boolean value, right, _, _ => by cases right <;> simp [canonicalValue, SameValue]
  | .number literal, right, _, _ => by cases right <;> simp [canonicalValue, SameValue]
  | .string text, right, _, _ => by cases right <;> simp [canonicalValue, SameValue]
  | .array items, right, distinct, others_distinct => by
    cases right with
    | array others =>
      rw [canonicalValue, canonicalValue, Json.array.injEq]
      exact canonicalItems_eq_iff items others distinct others_distinct
    | _ => simp [canonicalValue, SameValue]
  | .object properties, right, distinct, others_distinct => by
    cases right with
    | object others =>
      rw [distinctNames, Bool.and_eq_true, decide_eq_true_eq] at distinct others_distinct
      rw [canonicalValue_object_iff distinct.1 others_distinct.1, lookup_canonical_iff distinct.1]
      exact and_congr_right fun _ =>
        (sameProperties_iff properties others distinct.2 others_distinct.2).symm
    | _ => simp [canonicalValue, SameValue]

/-- Items have one canonical form exactly when they are the same one by one. -/
theorem canonicalItems_eq_iff : (left right : List Json) → itemsDistinct left →
    itemsDistinct right → (canonicalItems left = canonicalItems right ↔ SameItems left right)
  | [], right, _, _ => by cases right <;> simp [canonicalItems, SameItems]
  | item :: rest, right, distinct, others_distinct => by
    cases right with
    | nil => simp [canonicalItems, SameItems]
    | cons other others =>
      rw [itemsDistinct, Bool.and_eq_true] at distinct others_distinct
      rw [canonicalItems, canonicalItems, List.cons.injEq, SameItems,
        canonicalValue_eq_iff item other distinct.1 others_distinct.1,
        canonicalItems_eq_iff rest others distinct.2 others_distinct.2]

/-- Others have the same values as some properties exactly when they have values of the same
canonical form. -/
theorem sameProperties_iff : (properties others : List (String × Json)) →
    propertiesDistinct properties → propertiesDistinct others →
    (SameProperties properties others ↔
      ∀ property ∈ properties, ∃ other, others.lookup property.1 = some other ∧
        canonicalValue property.2 = canonicalValue other)
  | [], _, _, _ => by simp [SameProperties]
  | (name, value) :: rest, others, distinct, others_distinct => by
    rw [propertiesDistinct, Bool.and_eq_true] at distinct
    rw [SameProperties, sameProperties_iff rest others distinct.2 others_distinct,
      List.forall_mem_cons]
    refine and_congr_left' (exists_congr fun other => and_congr_right fun found => ?_)
    exact (canonicalValue_eq_iff value other distinct.1
      (distinctNames_of_lookup others_distinct found)).symm

end

mutual

/-- A canonical form is its own. -/
theorem canonicalValue_canonicalValue : (value : Json) →
    canonicalValue (canonicalValue value) = canonicalValue value
  | .null | .boolean _ | .number _ | .string _ => by simp [canonicalValue]
  | .array items => by
    rw [canonicalValue, canonicalValue, canonicalItems_canonicalItems items]
  | .object properties => by
    have fixed := canonicalProperties_fixed properties
    rw [canonicalValue, canonicalValue, canonicalProperties_eq_map,
      List.map_congr_left (fun property member => fixed property (mem_mergeSort.mp member)),
      List.map_id', List.mergeSort_of_pairwise
        (List.pairwise_mergeSort nameAtMost_trans nameAtMost_total _)]

theorem canonicalItems_canonicalItems : (items : List Json) →
    canonicalItems (canonicalItems items) = canonicalItems items
  | [] => rfl
  | item :: rest => by
    rw [canonicalItems, canonicalItems, canonicalValue_canonicalValue item,
      canonicalItems_canonicalItems rest]

/-- The values of canonical properties are their own canonical forms. -/
theorem canonicalProperties_fixed : (properties : List (String × Json)) →
    ∀ property ∈ canonicalProperties properties, (property.1, canonicalValue property.2) = property
  | [] => fun _ member => absurd member List.not_mem_nil
  | (name, value) :: rest => by
    intro property member
    rw [canonicalProperties, mem_cons] at member
    rcases member with rfl | member
    · rw [canonicalValue_canonicalValue value]
    · exact canonicalProperties_fixed rest property member

end

theorem canonicalValue_array_iff (items others : List Json) :
    canonicalValue (.array items) = canonicalValue (.array others) ↔
      items.map canonicalValue = others.map canonicalValue := by
  rw [canonicalValue, canonicalValue, Json.array.injEq, canonicalItems_eq, canonicalItems_eq]

end NancyMan.Json

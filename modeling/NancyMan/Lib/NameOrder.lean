import NancyMan.Lib.CanonicalJson

/-!
# Items in the order of their names

Items are sorted by their names as `Array.prototype.sort` does with a comparison of strings by `<`:
by UTF-16 code units, and items of one name stay in their order. Where the names are distinct the
result does not depend on the order before.
-/
namespace NancyMan.NameOrder

open Json (nameRank)

variable {α β : Type*} (name : α → String)

def sortByName (items : List α) : List α :=
  items.mergeSort fun left right => nameRank (name left) ≤ nameRank (name right)

theorem sortByName_perm (items : List α) : (sortByName name items).Perm items :=
  List.mergeSort_perm items _

@[simp] theorem mem_sortByName {name : α → String} {items : List α} {item : α} :
    item ∈ sortByName name items ↔ item ∈ items :=
  List.mem_mergeSort

/-- Sorted items stand in the order of their names. -/
theorem sortByName_ordered (items : List α) :
    (sortByName name items).Pairwise fun left right =>
      nameRank (name left) ≤ nameRank (name right) := by
  have total (left right : α) : (decide (nameRank (name left) ≤ nameRank (name right)) ||
      decide (nameRank (name right) ≤ nameRank (name left))) = true := by
    simpa using le_total (nameRank (name left)) (nameRank (name right))
  have trans (left middle right : α) (first : decide (nameRank (name left) ≤
      nameRank (name middle)) = true) (second : decide (nameRank (name middle) ≤
      nameRank (name right)) = true) :
      decide (nameRank (name left) ≤ nameRank (name right)) = true := by
    simp only [decide_eq_true_eq] at first second ⊢
    exact le_trans first second
  have ordered := List.pairwise_mergeSort trans total items
  exact ordered.imp of_decide_eq_true

/-- Items of distinct names are sorted into one list from any order. -/
theorem sortByName_eq_of_perm {name : α → String} {left right : List α}
    (distinct : (left.map name).Nodup) (perm : left.Perm right) :
    sortByName name left = sortByName name right := by
  refine List.Perm.eq_of_pairwise ?_ (sortByName_ordered name left) (sortByName_ordered name right)
    ((sortByName_perm name left).trans (perm.trans (sortByName_perm name right).symm))
  intro first second here there before after
  have same : name first = name second := Json.nameRank_injective (le_antisymm before after)
  have within : second ∈ left := perm.mem_iff.mpr (mem_sortByName.mp there)
  exact List.inj_on_of_nodup_map distinct (mem_sortByName.mp here) within same

/-- Lists of the same distinct rows, each turned into an item of its name, are sorted into one. -/
theorem sortByName_map_eq {rows others : List β} {item : β → α} {name : α → String}
    (distinct : (rows.map fun row => name (item row)).Nodup)
    (others_distinct : others.Nodup) (same : ∀ row, row ∈ rows ↔ row ∈ others) :
    sortByName name (rows.map item) = sortByName name (others.map item) := by
  have perm : rows.Perm others :=
    (List.perm_ext_iff_of_nodup (distinct.of_map _) others_distinct).mpr same
  refine sortByName_eq_of_perm ?_ (perm.map item)
  rw [List.map_map]
  exact distinct

end NancyMan.NameOrder

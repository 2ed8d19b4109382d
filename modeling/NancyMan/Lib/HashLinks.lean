import Mathlib.Data.List.Basic
import Mathlib.Data.List.Induction

/-!
# Lists linked by digests

In a linked list each item names the digest of the item before it. Two linked lists of one length
whose items are known by their digests are equal when their last digests are.
-/
namespace NancyMan.HashLinks

variable {α δ : Type} {previous : α → Option δ} {digest : α → δ}

/-- Each item of a list names the digest of the one before it, and the first a given one. -/
def Linked (previous : α → Option δ) (digest : α → δ) : Option δ → List α → Prop
  | _, [] => True
  | named, item :: rest =>
    previous item = named ∧ Linked previous digest (some (digest item)) rest

def lastDigest (digest : α → δ) (named : Option δ) (items : List α) : Option δ :=
  (items.getLast?.map digest).or named

/-- A list with one more item is linked exactly when the list is and the item names its last
digest. -/
theorem linked_snoc (named : Option δ) (items : List α) (item : α) :
    Linked previous digest named (items ++ [item]) ↔
      Linked previous digest named items ∧ previous item = lastDigest digest named items := by
  induction items generalizing named with
  | nil => simp [Linked, lastDigest]
  | cons first rest ih =>
    have last : lastDigest digest named (first :: rest) =
        lastDigest digest (some (digest first)) rest := by
      cases rest with
      | nil => rfl
      | cons second others =>
        unfold lastDigest
        rw [List.getLast?_cons_cons, List.getLast?_cons, Option.map_some, Option.some_or,
          Option.some_or]
    rw [List.cons_append, Linked, Linked, ih, last, and_assoc]

/-- Linked lists of one length with one last digest are equal, where items are known by their
digests. -/
theorem eq_of_lastDigest {left right : List α}
    (known : ∀ item ∈ left, ∀ other ∈ right, digest item = digest other → item = other)
    (left_linked : Linked previous digest none left)
    (right_linked : Linked previous digest none right) (length : left.length = right.length)
    (last : lastDigest digest none left = lastDigest digest none right) : left = right := by
  induction left using List.reverseRecOn generalizing right with
  | nil => exact (List.length_eq_zero_iff.mp length.symm).symm
  | append_singleton items item ih =>
    rcases List.eq_nil_or_concat right with rfl | ⟨others, other, rfl⟩
    · simp at length
    · rw [List.concat_eq_append] at known right_linked length last ⊢
      have digests : digest item = digest other := by
        simpa [lastDigest] using last
      have same : item = other := known item (by simp) other (by simp) digests
      subst same
      obtain ⟨left_front, left_last⟩ := (linked_snoc none items item).mp left_linked
      obtain ⟨right_front, right_last⟩ := (linked_snoc none others item).mp right_linked
      have shorter : items.length = others.length := by simpa using length
      have front := ih (fun first member second held =>
          known first (List.mem_append_left _ member) second (List.mem_append_left _ held))
        left_front right_front shorter (left_last.symm.trans right_last)
      rw [front]

end NancyMan.HashLinks

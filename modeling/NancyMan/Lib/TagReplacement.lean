import Mathlib.Data.List.Infix
import Mathlib.Data.List.Nodup

/-!
# Replacing tags in a text

A text is rewritten by replacing, tag after tag, the first occurrence of each. Every tag starts with
a lead character that occurs nowhere else in it, so the text falls into a head and chunks, one after
each lead, and a replacement changes the first chunk that starts as the tag does. `replaceAll_iff`
says when all tags are replaced at their own places: no other chunk before a tag's place starts as
the tag does.
-/
namespace NancyMan.TagReplacement

open List (append_nil forall₂_cons map_cons mem_cons)

/-- `text.replace(pattern, replacement)` of a pattern that is not empty. -/
def replaceFirst (pattern replacement : List Char) : List Char → List Char
  | [] => []
  | symbol :: rest =>
    if pattern <+: symbol :: rest then replacement ++ (symbol :: rest).drop pattern.length
    else symbol :: replaceFirst pattern replacement rest

/-- Tags with what replaces them. A tag is the lead and its own tail; what replaces it is the lead
and other symbols, which start no tag. -/
structure Tags where
  lead : Char
  tail : Nat → List Char
  fresh : Nat → List Char
  lead_tail : ∀ index, lead ∉ tail index
  lead_fresh : ∀ index, lead ∉ fresh index
  tail_apart : ∀ {first second text}, tail first <+: text → tail second <+: text → first = second
  fresh_apart : ∀ {first second text}, ¬ tail first <+: fresh second ++ text

namespace Tags

variable (tags : Tags)

def tag (index : Nat) : List Char := tags.lead :: tags.tail index

def replacement (index : Nat) : List Char := tags.lead :: tags.fresh index

def join (chunks : List (List Char)) : List Char := chunks.flatMap (tags.lead :: ·)

def Led (chunks : List (List Char)) : Prop := ∀ chunk ∈ chunks, tags.lead ∉ chunk

/-- The first chunk that starts as a tag does starts as its replacement instead. -/
def replaceChunk (index : Nat) : List (List Char) → List (List Char)
  | [] => []
  | chunk :: rest =>
    if tags.tail index <+: chunk then
      (tags.fresh index ++ chunk.drop (tags.tail index).length) :: rest
    else chunk :: replaceChunk index rest

def replaceTags (indices : List Nat) (text : List Char) : List Char :=
  indices.foldl (fun text index => replaceFirst (tags.tag index) (tags.replacement index) text) text

def replaceAll (indices : List Nat) (chunks : List (List Char)) : List (List Char) :=
  indices.foldl (fun chunks index => tags.replaceChunk index chunks) chunks

variable {tags}

/-! ## Texts and their chunks -/

variable {part : List Char} {chunks : List (List Char)} {head : List Char} {indices : List Nat}
  {chunk : List Char} {index : Nat}

/-- What has no lead starts a text as it starts the part before the next lead. -/
theorem starts_iff {start : List Char} (plain : tags.lead ∉ start) (chunks : List (List Char)) :
    start <+: part ++ tags.join chunks ↔ start <+: part := by
  constructor
  · intro starts
    rcases List.prefix_or_prefix_of_prefix starts (List.prefix_append part _) with inside | longer
    · exact inside
    · obtain ⟨more, rfl⟩ := longer
      have rest : more <+: tags.join chunks := (List.prefix_append_right_inj part).mp starts
      cases chunks with
      | nil =>
        have empty : more = [] := List.prefix_nil.mp rest
        rw [empty, append_nil]
      | cons chunk chunks =>
        cases more with
        | nil => rw [append_nil]
        | cons symbol more =>
          have same : symbol = tags.lead := (List.cons_prefix_cons.mp rest).1
          exact absurd (List.mem_append_right part (same ▸ (.head _))) plain
  · intro inside
    exact inside.trans (List.prefix_append part _)

/-- A part without a lead is passed over. -/
theorem replaceFirst_plain (plain : tags.lead ∉ part) (index : Nat) (rest : List Char) :
    replaceFirst (tags.tag index) (tags.replacement index) (part ++ rest) =
      part ++ replaceFirst (tags.tag index) (tags.replacement index) rest := by
  induction part with
  | nil => rfl
  | cons symbol part ih =>
    rw [mem_cons, not_or] at plain
    have other : ¬ tags.tag index <+: symbol :: (part ++ rest) := fun starts =>
      plain.1 (List.cons_prefix_cons.mp starts).1
    rw [List.cons_append, replaceFirst, if_neg other, ih plain.2]
    rfl

/-- A replacement in a text is one in its chunks. -/
theorem replaceFirst_join (led : tags.Led chunks) (index : Nat) :
    replaceFirst (tags.tag index) (tags.replacement index) (tags.join chunks) =
      tags.join (tags.replaceChunk index chunks) := by
  induction chunks with
  | nil => rfl
  | cons chunk chunks ih =>
    have joined : tags.join (chunk :: chunks) = tags.lead :: (chunk ++ tags.join chunks) := rfl
    have here : tags.tag index <+: tags.lead :: (chunk ++ tags.join chunks) ↔
        tags.tail index <+: chunk := by
      rw [tag, List.cons_prefix_cons, starts_iff (tags.lead_tail index)]
      exact and_iff_right rfl
    have first : tags.lead ∉ chunk := led chunk List.mem_cons_self
    have others : tags.Led chunks := fun other member => led other (.tail _ member)
    rw [joined, replaceFirst, replaceChunk]
    by_cases starts : tags.tail index <+: chunk
    · rw [if_pos (here.mpr starts), if_pos starts]
      obtain ⟨more, rfl⟩ := starts
      simp [tag, replacement, join]
    · rw [if_neg (fun found => starts (here.mp found)), if_neg starts,
        replaceFirst_plain first, ih others]
      rfl

/-- A replacement leaves no lead in a chunk. -/
theorem led_replaceChunk (led : tags.Led chunks) (index : Nat) :
    tags.Led (tags.replaceChunk index chunks) := by
  induction chunks with
  | nil => exact led
  | cons chunk chunks ih =>
    have first : tags.lead ∉ chunk := led chunk List.mem_cons_self
    have others : tags.Led chunks := fun other member => led other (.tail _ member)
    rw [replaceChunk]
    split
    · intro other member
      rcases mem_cons.mp member with rfl | later
      · intro found
        rcases List.mem_append.mp found with new | old
        · exact tags.lead_fresh index new
        · exact first (List.mem_of_mem_drop old)
      · exact others other later
    · intro other member
      rcases mem_cons.mp member with rfl | later
      · exact first
      · exact ih others other later

theorem led_replaceAll (indices : List Nat) (led : tags.Led chunks) :
    tags.Led (tags.replaceAll indices chunks) := by
  induction indices generalizing chunks with
  | nil => exact led
  | cons index indices ih => exact ih (led_replaceChunk led index)

/-- Tags are replaced in a text as in its chunks. -/
theorem replaceTags_join (plain : tags.lead ∉ head) (indices : List Nat) (led : tags.Led chunks) :
    tags.replaceTags indices (head ++ tags.join chunks) =
      head ++ tags.join (tags.replaceAll indices chunks) := by
  induction indices generalizing chunks with
  | nil => rfl
  | cons index indices ih =>
    have step : tags.replaceTags (index :: indices) (head ++ tags.join chunks) =
        tags.replaceTags indices
          (replaceFirst (tags.tag index) (tags.replacement index) (head ++ tags.join chunks)) := rfl
    rw [step, replaceFirst_plain plain, replaceFirst_join led, ih (led_replaceChunk led index)]
    rfl

/-- A text has one head and one list of chunks. -/
theorem join_inj {other : List Char} {others : List (List Char)} (plain : tags.lead ∉ head)
    (plain' : tags.lead ∉ other) (led : tags.Led chunks) (led' : tags.Led others)
    (same : head ++ tags.join chunks = other ++ tags.join others) :
    head = other ∧ chunks = others := by
  have cut (part : List Char) (free : tags.lead ∉ part) (rest : List (List Char)) :
      (part ++ tags.join rest).takeWhile (· ≠ tags.lead) = part := by
    have passes : ∀ symbol ∈ part, (decide (symbol ≠ tags.lead)) := fun symbol member =>
      decide_eq_true fun same => free (same ▸ member)
    rw [List.takeWhile_append_of_pos passes]
    cases rest with
    | nil => exact append_nil part
    | cons chunk rest =>
      have stops : (tags.join (chunk :: rest)).takeWhile (· ≠ tags.lead) = [] := by
        simp [join]
      rw [stops, append_nil]
  have heads : head = other := by
    rw [← cut head plain chunks, same, cut other plain' others]
  refine ⟨heads, ?_⟩
  subst heads
  have rest := List.append_cancel_left same
  clear same
  induction chunks generalizing others with
  | nil =>
    cases others with
    | nil => rfl
    | cons chunk others => cases rest
  | cons chunk chunks ih =>
    cases others with
    | nil => cases rest
    | cons chunk' others =>
      have after : chunk ++ tags.join chunks = chunk' ++ tags.join others := (List.cons.inj rest).2
      have free : tags.lead ∉ chunk := led chunk List.mem_cons_self
      have free' : tags.lead ∉ chunk' := led' chunk' (.head _)
      have equal : chunk = chunk' := by
        rw [← cut chunk free chunks, after, cut chunk' free' others]
      subst equal
      rw [ih (fun other member => led other (.tail _ member))
        (fun other member => led' other (.tail _ member))
        (List.append_cancel_left after)]

/-! ## Replacements at their own places -/

/-- A chunk that starts as no tag does stays. -/
theorem replaceAll_miss (missed : ∀ index ∈ indices, ¬ tags.tail index <+: chunk)
    (chunks : List (List Char)) :
    tags.replaceAll indices (chunk :: chunks) = chunk :: tags.replaceAll indices chunks := by
  induction indices generalizing chunks with
  | nil => rfl
  | cons index indices ih =>
    obtain ⟨first, others⟩ := List.forall_mem_cons.mp missed
    have step : tags.replaceAll (index :: indices) (chunk :: chunks) =
        tags.replaceAll indices (tags.replaceChunk index (chunk :: chunks)) := rfl
    rw [step, replaceChunk, if_neg first, ih others]
    rfl

/-- A chunk that starts as one of the tags does is replaced, and the tag is used up. -/
theorem replaceAll_hit (distinct : indices.Nodup) (member : index ∈ indices)
    (starts : tags.tail index <+: chunk) (chunks : List (List Char)) :
    tags.replaceAll indices (chunk :: chunks) =
      (tags.fresh index ++ chunk.drop (tags.tail index).length) ::
        tags.replaceAll (indices.erase index) chunks := by
  induction indices generalizing chunks with
  | nil => cases member
  | cons first indices ih =>
    have step : tags.replaceAll (first :: indices) (chunk :: chunks) =
        tags.replaceAll indices (tags.replaceChunk first (chunk :: chunks)) := rfl
    rw [List.nodup_cons] at distinct
    by_cases same : first = index
    · subst same
      rw [step, replaceChunk, if_pos starts, List.erase_cons_head]
      exact replaceAll_miss (fun other _ => tags.fresh_apart) chunks
    · have missed : ¬ tags.tail first <+: chunk := fun other => same (tags.tail_apart other starts)
      have later : index ∈ indices := by
        rcases mem_cons.mp member with equal | later
        · exact absurd equal.symm same
        · exact later
      rw [step, replaceChunk, if_neg missed, ih distinct.2 later,
        List.erase_cons_tail (by simpa using same)]
      rfl

/-- What a chunk is for: it is the place of a tag, it may hold anything, or it is to stay. -/
inductive Mark where
  | place (index : Nat)
  | free
  | fixed

abbrev Marked := Mark × List Char

variable (tags) in
/-- A chunk with its own tag replaced. -/
def settle : Marked → List Char
  | (.place index, chunk) => tags.fresh index ++ chunk.drop (tags.tail index).length
  | (.free, chunk) | (.fixed, chunk) => chunk

variable (tags) in
/-- The place of a tag starts as the tag does, and a free chunk as none. -/
def WellMarked (indices : List Nat) : Marked → Prop
  | (.place index, chunk) => index ∈ indices ∧ tags.tail index <+: chunk
  | (.free, chunk) => ∀ index, ¬ tags.tail index <+: chunk
  | (.fixed, _) => True

/-- The tag of a place. -/
def tagOf : Marked → Option Nat
  | (.place index, _) => some index
  | (.free, _) | (.fixed, _) => none

variable (tags) in
/-- No chunk that is to stay starts as a tag whose place is not before it. -/
def Clean (indices : List Nat) : List Marked → Prop
  | [] => True
  | (.place index, _) :: rest => Clean (indices.erase index) rest
  | (.free, _) :: rest => Clean indices rest
  | (.fixed, chunk) :: rest =>
    (∀ index ∈ indices, ¬ tags.tail index <+: chunk) ∧ Clean indices rest

/-- Marks of the places behind one that is used up. -/
theorem WellMarked.erase {marked : Marked} (well : tags.WellMarked indices marked)
    (apart : tagOf marked ≠ some index) : tags.WellMarked (indices.erase index) marked := by
  obtain ⟨mark, chunk⟩ := marked
  cases mark with
  | place other =>
    have different : other ≠ index := fun same => apart (congrArg some same)
    exact ⟨(List.mem_erase_of_ne different).mpr well.1, well.2⟩
  | free => exact well
  | fixed => exact well

/-- The chunks after a tag are marked without it, when every tag stands once. -/
theorem WellMarked.others {chunks : List Marked}
    (well : ∀ marked ∈ chunks, tags.WellMarked indices marked)
    (once : (((Mark.place index, chunk) :: chunks).filterMap tagOf).Nodup) :
    (chunks.filterMap tagOf).Nodup ∧
      ∀ other ∈ chunks, tags.WellMarked (indices.erase index) other := by
  have tagged : tagOf (Mark.place index, chunk) = some index := rfl
  rw [List.filterMap_cons_some tagged, List.nodup_cons] at once
  exact ⟨once.2, fun other member => (well other member).erase fun same =>
    once.1 (List.mem_filterMap.mpr ⟨other, member, same⟩)⟩

/-- With clean chunks every tag is replaced at its own place. -/
theorem replaceAll_of_clean (distinct : indices.Nodup) {chunks : List Marked}
    (well : ∀ marked ∈ chunks, tags.WellMarked indices marked)
    (once : (chunks.filterMap tagOf).Nodup) (clean : tags.Clean indices chunks) :
    tags.replaceAll indices (chunks.map Prod.snd) = chunks.map tags.settle := by
  induction chunks generalizing indices with
  | nil =>
    clear well once clean distinct
    induction indices with
    | nil => rfl
    | cons index indices ih => exact ih
  | cons marked chunks ih =>
    obtain ⟨first, others⟩ := List.forall_mem_cons.mp well
    obtain ⟨mark, chunk⟩ := marked
    cases mark with
    | place index =>
      obtain ⟨later, rest⟩ := WellMarked.others others once
      rw [map_cons, map_cons, replaceAll_hit distinct first.1 first.2,
        ih (distinct.erase index) rest later clean]
      rfl
    | free =>
      rw [map_cons, map_cons, replaceAll_miss fun index _ => first index,
        ih distinct others once clean]
      rfl
    | fixed =>
      rw [map_cons, map_cons, replaceAll_miss clean.1, ih distinct others once clean.2]
      rfl

/-- Whether a chunk that is to stay did. -/
def Stays : Marked → List Char → Prop
  | (.fixed, chunk), after => after = chunk
  | (.place _, _), _ | (.free, _), _ => True

/-- When all chunks that are to stay did, they were clean. -/
theorem clean_of_replaceAll (distinct : indices.Nodup) {chunks : List Marked}
    (well : ∀ marked ∈ chunks, tags.WellMarked indices marked)
    (once : (chunks.filterMap tagOf).Nodup)
    (stays : List.Forall₂ Stays chunks (tags.replaceAll indices (chunks.map Prod.snd))) :
    tags.Clean indices chunks := by
  induction chunks generalizing indices with
  | nil => trivial
  | cons marked chunks ih =>
    obtain ⟨first, others⟩ := List.forall_mem_cons.mp well
    obtain ⟨mark, chunk⟩ := marked
    cases mark with
    | place index =>
      obtain ⟨later, rest⟩ := WellMarked.others others once
      rw [map_cons, replaceAll_hit distinct first.1 first.2, forall₂_cons] at stays
      exact ih (distinct.erase index) rest later stays.2
    | free =>
      rw [map_cons, replaceAll_miss fun index _ => first index, forall₂_cons] at stays
      exact ih distinct others once stays.2
    | fixed =>
      rw [map_cons] at stays
      have missed : ∀ index ∈ indices, ¬ tags.tail index <+: chunk := by
        intro index member starts
        rw [replaceAll_hit distinct member starts, forall₂_cons] at stays
        have same : tags.fresh index ++ chunk.drop (tags.tail index).length = chunk := stays.1
        exact tags.fresh_apart (same ▸ starts)
      rw [replaceAll_miss missed, forall₂_cons] at stays
      exact ⟨missed, ih distinct others once stays.2⟩

end Tags

end NancyMan.TagReplacement
